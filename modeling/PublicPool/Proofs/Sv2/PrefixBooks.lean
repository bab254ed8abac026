import Mathlib.Logic.Relation
import PublicPool.Proofs.Sv2.Extranonce
import PublicPool.Proofs.Sv2.ServiceSteps

/-!
# `PublicPool.Proofs.Sv2.PrefixBooks`: who holds which extranonce prefix

An abstract account of the connections: each holds channels, and a channel has a kind, a prefix
and a size of what the miner adds to it. The connections take numbers, open channels and close
them (`HolderAct`), and nothing else that they do matters to the prefixes.

`PrefixesHeld` says that the books of the extranonce manager agree with the channels that are
open, and every act keeps it (`PrefixesHeld.act`).
-/

set_option autoImplicit false

namespace PublicPool.Proofs

open Lib (OrdMap)
open Sv2
open Sv2.Context

/-! ### The account -/

/-- What marks the work of a channel. -/
structure ChannelMark where
  isOpen : Bool
  channelType : ChannelType
  extranoncePrefix : Bytes
  extranonceSize : ℕ

/-- A channel that is closed keeps its prefix. -/
def ChannelMark.close (mark : ChannelMark) : ChannelMark := { mark with isOpen := false }

/-- An open extended channel holds a prefix of the manager. -/
def ChannelMark.holds (mark : ChannelMark) : Bool :=
  mark.isOpen && mark.channelType = .extended

/-- A connection and the marks of its channels. -/
structure Holder where
  destroyed : Bool
  channels : OrdMap ℕ ChannelMark

/-- What a connection does to its channels. -/
inductive HolderAct
  /-- A number is taken for a channel that is not opened. -/
  | takeNumber
  | openStandard (random : UInt8 × UInt8)
  | openExtended
  /-- A prefix is allocated and given back. -/
  | refuseExtended
  | closeChannel (channelId : ℕ)
  | closeSocket

/-- The next number is taken. -/
def takingNumber (service : StratumV2Service) : StratumV2Service :=
  { service with channelIdCounter := service.channelIdCounter + 1 }

/-- A channel is opened under the number that was next. -/
def Holder.opening (holder : Holder) (service : StratumV2Service) (mark : ChannelMark) : Holder :=
  { holder with channels := holder.channels.set service.channelIdCounter mark }

/-- The prefixes of channels are given back. -/
def releasing (service : StratumV2Service) (channelIds : List ℕ) : StratumV2Service :=
  channelIds.foldl StratumV2Service.releaseExtendedExtranoncePrefix service

/-- An act of a connection. -/
def HolderAct.apply (service : StratumV2Service) (holder : Holder) :
    HolderAct → StratumV2Service × Holder
  | .takeNumber => (takingNumber service, holder)
  | .openStandard random =>
    (takingNumber service,
      holder.opening service
        { isOpen := true
          channelType := .standard
          extranoncePrefix := (takingNumber service).generateExtranoncePrefix random
          extranonceSize := fixedStandardExtranonce2.length / 2 })
  | .openExtended =>
    match service.extranonceManager.allocate service.channelIdCounter with
    | none => (takingNumber service, holder)
    | some (extranonceManager, extranoncePrefix) =>
      ({ takingNumber service with extranonceManager },
        holder.opening service
          { isOpen := true
            channelType := .extended
            extranoncePrefix
            extranonceSize := extranonceManager.minerExtranonceSize })
  | .refuseExtended =>
    match service.extranonceManager.allocate service.channelIdCounter with
    | none => (takingNumber service, holder)
    | some (extranonceManager, _) =>
      (releasing { takingNumber service with extranonceManager } [service.channelIdCounter], holder)
  | .closeChannel channelId =>
    (releasing service
        (if (holder.channels.get? channelId).any ChannelMark.holds then [channelId] else []),
      { holder with channels := holder.channels.modify channelId ChannelMark.close })
  | .closeSocket =>
    if holder.destroyed then (service, holder)
    else
      (releasing service
          ((holder.channels.entries.filter fun entry => entry.2.holds).map Prod.fst),
        { destroyed := true
          channels := holder.channels.mapValues fun _ mark => mark.close })

/-- The numbers and prefixes that all share, with one connection. -/
abbrev Account := StratumV2Service × Holder

/-- One act, of those that are asked for. -/
def ActStep (asked : Account → HolderAct → Prop) (account account' : Account) : Prop :=
  ∃ act, asked account act ∧ act.apply account.1 account.2 = account'

/-! ### What the books say -/

/-- The connections after an act of one of them. -/
def setHolder (holders : ℕ → Option Holder) (id : ℕ) (holder : Holder) : ℕ → Option Holder :=
  fun id' => if id' = id then some holder else holders id'

/-- A channel of a connection. -/
def HasMark (holders : ℕ → Option Holder) (id channelId : ℕ) (mark : ChannelMark) : Prop :=
  ∃ holder, holders id = some holder ∧ holder.channels.get? channelId = some mark

/-- The prefixes that the manager has given out are those of the open extended channels. The
numbers so far are below the counter, and each is the one of one connection. A standard channel
has the low half of its number in its prefix. -/
structure PrefixesHeld (service : StratumV2Service) (holders : ℕ → Option Holder) : Prop where
  manager : ManagerInv service.extranonceManager
  booked : ∀ channelId value,
    service.extranonceManager.allocatedPrefixes channelId = some value →
    ∃ id mark, HasMark holders id channelId mark ∧ mark.holds = true ∧
      mark.extranoncePrefix = service.extranonceManager.prefixToBuffer value
  held : ∀ id channelId mark, HasMark holders id channelId mark → mark.holds = true →
    ∃ value, service.extranonceManager.allocatedPrefixes channelId = some value ∧
      mark.extranoncePrefix = service.extranonceManager.prefixToBuffer value
  numbered : ∀ id channelId mark, HasMark holders id channelId mark →
    channelId < service.channelIdCounter
  apart : ∀ id id' channelId mark mark', HasMark holders id channelId mark →
    HasMark holders id' channelId mark' → id = id'
  sizes : service.extranonceManager.prefixSize = 4 ∧
    service.extranonceManager.totalExtranonceSize = 14
  extended : ∀ id channelId mark, HasMark holders id channelId mark →
    mark.channelType = .extended → mark.extranoncePrefix.length = 4 ∧ mark.extranonceSize = 10
  standard : ∀ id channelId mark, HasMark holders id channelId mark →
    mark.channelType = .standard → mark.extranonceSize = 8 ∧
      ∃ random : UInt8 × UInt8, mark.extranoncePrefix =
        [UInt8.ofNat ((channelId + 1) / 256), UInt8.ofNat (channelId + 1), random.1, random.2]

section
variable {service service' : StratumV2Service} {holders : ℕ → Option Holder} {id : ℕ}
  {holder holder' : Holder}

variable {id' channelId : ℕ} {mark mark' : ChannelMark}

theorem hasMark_setHolder :
    HasMark (setHolder holders id holder) id' channelId mark ↔
      (id' = id ∧ holder.channels.get? channelId = some mark) ∨
        (id' ≠ id ∧ HasMark holders id' channelId mark) := by
  unfold HasMark setHolder
  by_cases hid : id' = id
  · simp [hid]
  · simp [hid]

/-- A connection that is set to what it is changes nothing. -/
theorem setHolder_eq (hholder : holders id = some holder) : setHolder holders id holder = holders := by
  funext id'
  unfold setHolder
  by_cases hid : id' = id
  · rw [if_pos hid, hid, hholder]
  · rw [if_neg hid]

theorem setHolder_setHolder (holder holder' : Holder) :
    setHolder (setHolder holders id holder) id holder' = setHolder holders id holder' := by
  funext id'
  unfold setHolder
  by_cases hid : id' = id
  · rw [if_pos hid, if_pos hid]
  · rw [if_neg hid, if_neg hid, if_neg hid]

/-- Nobody has a channel under the next number. -/
theorem PrefixesHeld.fresh (h : PrefixesHeld service holders) {id' : ℕ} {mark : ChannelMark} :
    ¬ HasMark holders id' service.channelIdCounter mark :=
  fun hmark => absurd (h.numbered _ _ _ hmark) (lt_irrefl _)

theorem PrefixesHeld.unallocated (h : PrefixesHeld service holders) :
    service.extranonceManager.allocatedPrefixes service.channelIdCounter = none := by
  rw [Option.eq_none_iff_forall_ne_some]
  intro value hvalue
  obtain ⟨id', mark, hmark, -⟩ := h.booked _ _ hvalue
  exact h.fresh hmark

/-- A number that is taken changes nothing else. -/
theorem PrefixesHeld.takeNumber (h : PrefixesHeld service holders) :
    PrefixesHeld (takingNumber service) holders where
  manager := h.manager
  booked := h.booked
  held := h.held
  numbered id' channelId mark hmark := (h.numbered id' channelId mark hmark).trans (Nat.lt_succ_self _)
  apart := h.apart
  sizes := h.sizes
  extended := h.extended
  standard := h.standard

/-- The marks after a channel is opened under the next number. -/
theorem hasMark_opening (hholder : holders id = some holder) :
    HasMark (setHolder holders id (holder.opening service mark)) id' channelId mark' →
      (id' = id ∧ channelId = service.channelIdCounter ∧ mark' = mark) ∨
        HasMark holders id' channelId mark' := by
  intro hmark
  rcases hasMark_setHolder.mp hmark with ⟨rfl, hget⟩ | ⟨-, hold⟩
  · simp only [Holder.opening, OrdMap.get?_set] at hget
    by_cases hchannel : channelId = service.channelIdCounter
    · rw [if_pos hchannel] at hget
      exact Or.inl ⟨rfl, hchannel, (Option.some.inj hget).symm⟩
    · rw [if_neg hchannel] at hget
      exact Or.inr ⟨holder, hholder, hget⟩
  · exact Or.inr hold

/-- A mark that was there is there after a channel is opened. -/
theorem PrefixesHeld.hasMark_kept (h : PrefixesHeld service holders)
    (hholder : holders id = some holder) (mark : ChannelMark)
    (hmark : HasMark holders id' channelId mark') :
    HasMark (setHolder holders id (holder.opening service mark)) id' channelId mark' := by
  have hne : channelId ≠ service.channelIdCounter := by
    rintro rfl
    exact h.fresh hmark
  refine hasMark_setHolder.mpr ?_
  by_cases hid : id' = id
  · subst hid
    obtain ⟨holder', hholder', hget⟩ := hmark
    obtain rfl := Option.some.inj (hholder.symm.trans hholder')
    refine Or.inl ⟨rfl, ?_⟩
    simp only [Holder.opening, OrdMap.get?_set, if_neg hne]
    exact hget
  · exact Or.inr ⟨hid, hmark⟩

theorem PrefixesHeld.openStandard (h : PrefixesHeld service holders)
    (hholder : holders id = some holder) (random : UInt8 × UInt8) :
    PrefixesHeld (HolderAct.apply service holder (.openStandard random)).1
      (setHolder holders id (HolderAct.apply service holder (.openStandard random)).2) where
  manager := h.manager
  booked channelId value hvalue := by
    obtain ⟨id', mark, hmark, hholds⟩ := h.booked channelId value hvalue
    exact ⟨id', mark, h.hasMark_kept hholder _ hmark, hholds⟩
  held id' channelId mark hmark hholds := by
    rcases hasMark_opening hholder hmark with ⟨-, -, rfl⟩ | hold
    · cases hholds
    · exact h.held id' channelId mark hold hholds
  numbered id' channelId mark hmark := by
    rcases hasMark_opening hholder hmark with ⟨-, rfl, -⟩ | hold
    · exact Nat.lt_succ_self _
    · exact (h.numbered id' channelId mark hold).trans (Nat.lt_succ_self _)
  apart id' id'' channelId mark mark' hmark hmark' := by
    rcases hasMark_opening hholder hmark with ⟨rfl, rfl, -⟩ | hold
    · rcases hasMark_opening hholder hmark' with ⟨rfl, -, -⟩ | hold'
      · rfl
      · exact absurd hold' h.fresh
    · rcases hasMark_opening hholder hmark' with ⟨-, rfl, -⟩ | hold'
      · exact absurd hold h.fresh
      · exact h.apart id' id'' channelId mark mark' hold hold'
  sizes := h.sizes
  extended id' channelId mark hmark htype := by
    rcases hasMark_opening hholder hmark with ⟨-, -, rfl⟩ | hold
    · cases htype
    · exact h.extended id' channelId mark hold htype
  standard id' channelId mark hmark htype := by
    rcases hasMark_opening hholder hmark with ⟨-, rfl, rfl⟩ | hold
    · exact ⟨rfl, random, rfl⟩
    · exact h.standard id' channelId mark hold htype

theorem length_prefixToBuffer (manager : Sv2ExtranonceManager) (value : ℕ) :
    (manager.prefixToBuffer value).length = manager.prefixSize := by
  simp [Sv2ExtranonceManager.prefixToBuffer]

theorem PrefixesHeld.openExtended (h : PrefixesHeld service holders)
    (hholder : holders id = some holder) :
    PrefixesHeld (HolderAct.apply service holder .openExtended).1
      (setHolder holders id (HolderAct.apply service holder .openExtended).2) := by
  have hnone := h.unallocated
  have hcases := allocate_cases h.manager service.channelIdCounter
  unfold HolderAct.apply
  cases hallocate : service.extranonceManager.allocate service.channelIdCounter with
  | none =>
    -- no prefix is left: the number is taken all the same
    simp only [setHolder_eq hholder]
    exact h.takeNumber
  | some allocated =>
    rw [hallocate] at hcases
    cases hcases with
    | existing hexisting =>
      rw [hnone] at hexisting
      cases hexisting
    | @fresh value _ hfree hrange =>
      simp only
      have hgiven := h.manager.givePrefix hnone hfree hrange
      have hother {channelId : ℕ} (hne : channelId ≠ service.channelIdCounter) :
          (givingPrefix service.extranonceManager service.channelIdCounter value).allocatedPrefixes
            channelId = service.extranonceManager.allocatedPrefixes channelId := if_neg hne
      have hnew : (givingPrefix service.extranonceManager service.channelIdCounter
          value).allocatedPrefixes service.channelIdCounter = some value := if_pos rfl
      refine ⟨hgiven, ?_, ?_, ?_, ?_, h.sizes, ?_, ?_⟩
      · intro channelId value' hvalue'
        by_cases hchannel : channelId = service.channelIdCounter
        · subst hchannel
          obtain rfl := Option.some.inj (hnew.symm.trans hvalue')
          refine ⟨id,
            { isOpen := true
              channelType := .extended
              extranoncePrefix := service.extranonceManager.prefixToBuffer value
              extranonceSize := service.extranonceManager.minerExtranonceSize },
            hasMark_setHolder.mpr (Or.inl ⟨rfl, ?_⟩), rfl, rfl⟩
          simp only [Holder.opening, OrdMap.get?_set, if_true]
          rfl
        · obtain ⟨id', mark, hmark, hholds⟩ :=
            h.booked channelId value' ((hother hchannel).symm.trans hvalue')
          exact ⟨id', mark, h.hasMark_kept hholder _ hmark, hholds⟩
      · intro id' channelId mark hmark hholds
        rcases hasMark_opening hholder hmark with ⟨-, rfl, rfl⟩ | hold
        · exact ⟨value, hnew, rfl⟩
        · have hne : channelId ≠ service.channelIdCounter := by
            rintro rfl
            exact h.fresh hold
          obtain ⟨value', hvalue', hbytes⟩ := h.held id' channelId mark hold hholds
          exact ⟨value', (hother hne).trans hvalue', hbytes⟩
      · intro id' channelId mark hmark
        rcases hasMark_opening hholder hmark with ⟨-, rfl, -⟩ | hold
        · exact Nat.lt_succ_self _
        · exact (h.numbered id' channelId mark hold).trans (Nat.lt_succ_self _)
      · intro id' id'' channelId mark mark' hmark hmark'
        rcases hasMark_opening hholder hmark with ⟨rfl, rfl, -⟩ | hold
        · rcases hasMark_opening hholder hmark' with ⟨rfl, -, -⟩ | hold'
          · rfl
          · exact absurd hold' h.fresh
        · rcases hasMark_opening hholder hmark' with ⟨-, rfl, -⟩ | hold'
          · exact absurd hold h.fresh
          · exact h.apart id' id'' channelId mark mark' hold hold'
      · intro id' channelId mark hmark htype
        rcases hasMark_opening hholder hmark with ⟨-, -, rfl⟩ | hold
        · obtain ⟨hsize, htotal⟩ := h.sizes
          refine ⟨(length_prefixToBuffer _ value).trans hsize, ?_⟩
          show service.extranonceManager.totalExtranonceSize - service.extranonceManager.prefixSize
            = 10
          omega
        · exact h.extended id' channelId mark hold htype
      · intro id' channelId mark hmark htype
        rcases hasMark_opening hholder hmark with ⟨-, -, rfl⟩ | hold
        · cases htype
        · exact h.standard id' channelId mark hold htype

/-! ### Giving prefixes back -/

/-- What `releasing` does to the books. -/
structure Released (service service' : StratumV2Service) (channelIds : List ℕ) : Prop where
  manager : ManagerInv service'.extranonceManager
  counter : service'.channelIdCounter = service.channelIdCounter
  prefixSize : service'.extranonceManager.prefixSize = service.extranonceManager.prefixSize
  total : service'.extranonceManager.totalExtranonceSize
    = service.extranonceManager.totalExtranonceSize
  allocated : ∀ channelId, service'.extranonceManager.allocatedPrefixes channelId =
    if channelId ∈ channelIds then none
    else service.extranonceManager.allocatedPrefixes channelId

/-- One prefix is given back. -/
theorem released_one (h : ManagerInv service.extranonceManager) (channelId : ℕ) :
    Released service (service.releaseExtendedExtranoncePrefix channelId) [channelId] := by
  have hmanager := h.release channelId
  refine ⟨hmanager, rfl, ?_, ?_, ?_⟩
  · simp only [StratumV2Service.releaseExtendedExtranoncePrefix, Sv2ExtranonceManager.release]
    split
    · rfl
    · rfl
  · simp only [StratumV2Service.releaseExtendedExtranoncePrefix, Sv2ExtranonceManager.release]
    split
    · rfl
    · rfl
  · intro channelId'
    simp only [StratumV2Service.releaseExtendedExtranoncePrefix, Sv2ExtranonceManager.release,
      List.mem_singleton]
    split
    · rfl
    · rename_i hnone
      by_cases hsame : channelId' = channelId
      · rw [if_pos hsame, hsame, hnone]
      · rw [if_neg hsame]

theorem released (h : ManagerInv service.extranonceManager) (channelIds : List ℕ) :
    Released service (releasing service channelIds) channelIds := by
  induction channelIds generalizing service with
  | nil => exact ⟨h, rfl, rfl, rfl, fun _ => by simp [releasing]⟩
  | cons channelId channelIds ih =>
    have hone := released_one h channelId
    have hrest := ih hone.manager
    refine ⟨hrest.manager, hrest.counter.trans hone.counter, hrest.prefixSize.trans hone.prefixSize,
      hrest.total.trans hone.total, fun channelId' => ?_⟩
    show (releasing (service.releaseExtendedExtranoncePrefix channelId)
      channelIds).extranonceManager.allocatedPrefixes channelId' = _
    rw [hrest.allocated, hone.allocated]
    by_cases hrest' : channelId' ∈ channelIds
    · rw [if_pos hrest', if_pos (List.mem_cons_of_mem _ hrest')]
    · rw [if_neg hrest']
      by_cases hsame : channelId' = channelId
      · rw [if_pos (by simp [hsame]), if_pos (by simp [hsame])]
      · rw [if_neg (by simpa using hsame), if_neg (by simp [hsame, hrest'])]

theorem Released.buffer {channelIds : List ℕ} (h : Released service service' channelIds)
    (value : ℕ) :
    service'.extranonceManager.prefixToBuffer value
      = service.extranonceManager.prefixToBuffer value := by
  unfold Sv2ExtranonceManager.prefixToBuffer
  rw [h.prefixSize]

/-- The service after a prefix was given to the next number. -/
def givingNext (service : StratumV2Service) (value : ℕ) : StratumV2Service where
  channelIdCounter := service.channelIdCounter + 1
  extranonceManager := givingPrefix service.extranonceManager service.channelIdCounter value

/-- A prefix that is given back at once leaves the books as they were. -/
theorem PrefixesHeld.giveBack (h : PrefixesHeld service holders) {value : ℕ}
    (hfree : value ∉ service.extranonceManager.usedPrefixes)
    (hrange : 1 ≤ value ∧ value ≤ service.extranonceManager.maxPrefix) :
    PrefixesHeld (releasing (givingNext service value) [service.channelIdCounter]) holders := by
  have hgiven : ManagerInv (givingNext service value).extranonceManager :=
    h.manager.givePrefix h.unallocated hfree hrange
  have hreleased := released hgiven [service.channelIdCounter]
  have hsame (channelId : ℕ) :
      (releasing (givingNext service value)
        [service.channelIdCounter]).extranonceManager.allocatedPrefixes channelId
        = service.extranonceManager.allocatedPrefixes channelId := by
    rw [hreleased.allocated]
    by_cases hchannel : channelId = service.channelIdCounter
    · rw [if_pos (List.mem_singleton.mpr hchannel), hchannel, h.unallocated]
    · rw [if_neg (mt List.mem_singleton.mp hchannel)]
      exact if_neg hchannel
  refine ⟨hreleased.manager, ?_, ?_, ?_, h.apart, ?_, h.extended, h.standard⟩
  · intro channelId value' hvalue'
    rw [hsame] at hvalue'
    rw [hreleased.buffer]
    exact h.booked channelId value' hvalue'
  · intro id' channelId mark hmark hholds
    obtain ⟨value', hvalue', hbytes⟩ := h.held id' channelId mark hmark hholds
    refine ⟨value', (hsame channelId).trans hvalue', ?_⟩
    rw [hreleased.buffer]
    exact hbytes
  · intro id' channelId mark hmark
    rw [hreleased.counter]
    exact (h.numbered id' channelId mark hmark).trans (Nat.lt_succ_self _)
  · rw [hreleased.prefixSize, hreleased.total]
    exact h.sizes

theorem PrefixesHeld.refuse (h : PrefixesHeld service holders) :
    PrefixesHeld (HolderAct.apply service holder .refuseExtended).1 holders := by
  have hcases := allocate_cases h.manager service.channelIdCounter
  unfold HolderAct.apply
  cases hallocate : service.extranonceManager.allocate service.channelIdCounter with
  | none => exact h.takeNumber
  | some allocated =>
    rw [hallocate] at hcases
    cases hcases with
    | existing hexisting =>
      rw [h.unallocated] at hexisting
      cases hexisting
    | fresh _ hfree hrange => exact h.giveBack hfree hrange

/-- Channels are closed, and the prefixes they hold are given back. -/
theorem PrefixesHeld.closes (h : PrefixesHeld service holders)
    (hholder : holders id = some holder) {channelIds : List ℕ}
    {f : ℕ → ChannelMark → ChannelMark}
    (hf : ∀ channelId mark, holder.channels.get? channelId = some mark →
      (f channelId mark = mark ∨ f channelId mark = mark.close) ∧
        ((f channelId mark).holds = true ↔ mark.holds = true ∧ channelId ∉ channelIds))
    (hids : ∀ channelId ∈ channelIds, ∃ mark, holder.channels.get? channelId = some mark)
    (hmarks : ∀ channelId, holder'.channels.get? channelId
      = (holder.channels.get? channelId).map (f channelId)) :
    PrefixesHeld (releasing service channelIds) (setHolder holders id holder') := by
  have hreleased := released h.manager channelIds
  -- every mark comes from one that differs at most in being open
  have hback {id' channelId : ℕ} {mark' : ChannelMark}
      (hmark : HasMark (setHolder holders id holder') id' channelId mark') :
      ∃ mark, HasMark holders id' channelId mark ∧ (mark' = mark ∨ mark' = mark.close) ∧
        (mark'.holds = true → mark.holds = true ∧ channelId ∉ channelIds) := by
    rcases hasMark_setHolder.mp hmark with ⟨rfl, hget⟩ | ⟨hne, hold⟩
    · rw [hmarks] at hget
      obtain ⟨mark, hfound, rfl⟩ := Option.map_eq_some_iff.mp hget
      obtain ⟨hkind, hholds⟩ := hf channelId mark hfound
      exact ⟨mark, ⟨holder, hholder, hfound⟩, hkind, hholds.mp⟩
    · refine ⟨mark', hold, Or.inl rfl, fun hholds => ⟨hholds, fun hmem => hne ?_⟩⟩
      obtain ⟨mark, hmark⟩ := hids channelId hmem
      exact h.apart id' id channelId mark' mark hold ⟨holder, hholder, hmark⟩
  refine ⟨hreleased.manager, ?_, ?_, ?_, ?_, ?_, ?_, ?_⟩
  · intro channelId value hvalue
    rw [hreleased.allocated] at hvalue
    by_cases hmem : channelId ∈ channelIds
    · rw [if_pos hmem] at hvalue
      cases hvalue
    · rw [if_neg hmem] at hvalue
      obtain ⟨id', mark, hmark, hholds, hbytes⟩ := h.booked channelId value hvalue
      rw [hreleased.buffer]
      by_cases hid : id' = id
      · subst hid
        obtain ⟨holder'', hholder'', hget⟩ := hmark
        obtain rfl := Option.some.inj (hholder.symm.trans hholder'')
        obtain ⟨hkind, hkept⟩ := hf channelId mark hget
        refine ⟨id', f channelId mark, hasMark_setHolder.mpr (Or.inl ⟨rfl, ?_⟩),
          hkept.mpr ⟨hholds, hmem⟩, ?_⟩
        · rw [hmarks, hget]
          rfl
        · rcases hkind with hsame | hclosed
          · rw [hsame, hbytes]
          · rw [hclosed]
            exact hbytes
      · exact ⟨id', mark, hasMark_setHolder.mpr (Or.inr ⟨hid, hmark⟩), hholds, hbytes⟩
  · intro id' channelId mark' hmark hholds
    obtain ⟨mark, hold, hkind, hkept⟩ := hback hmark
    obtain ⟨hholds', hmem⟩ := hkept hholds
    obtain ⟨value, hvalue, hbytes⟩ := h.held id' channelId mark hold hholds'
    refine ⟨value, ?_, ?_⟩
    · rw [hreleased.allocated, if_neg hmem]
      exact hvalue
    · rw [hreleased.buffer, ← hbytes]
      rcases hkind with rfl | rfl
      · rfl
      · rfl
  · intro id' channelId mark' hmark
    obtain ⟨mark, hold, -⟩ := hback hmark
    rw [hreleased.counter]
    exact h.numbered id' channelId mark hold
  · intro id' id'' channelId mark mark' hmark hmark'
    obtain ⟨old, hold, -⟩ := hback hmark
    obtain ⟨old', hold', -⟩ := hback hmark'
    exact h.apart id' id'' channelId old old' hold hold'
  · rw [hreleased.prefixSize, hreleased.total]
    exact h.sizes
  · intro id' channelId mark' hmark htype
    obtain ⟨mark, hold, hkind, -⟩ := hback hmark
    rcases hkind with rfl | rfl
    · exact h.extended id' channelId _ hold htype
    · exact h.extended id' channelId mark hold htype
  · intro id' channelId mark' hmark htype
    obtain ⟨mark, hold, hkind, -⟩ := hback hmark
    rcases hkind with rfl | rfl
    · exact h.standard id' channelId _ hold htype
    · exact h.standard id' channelId mark hold htype

theorem PrefixesHeld.closeChannel (h : PrefixesHeld service holders)
    (hholder : holders id = some holder) (channelId : ℕ) :
    PrefixesHeld (HolderAct.apply service holder (.closeChannel channelId)).1
      (setHolder holders id (HolderAct.apply service holder (.closeChannel channelId)).2) := by
  refine @PrefixesHeld.closes service holders id holder _ h hholder _
    (fun id mark => if id = channelId then mark.close else mark)
    ?_ ?_ fun id => OrdMap.get?_modify _ _ _ _
  · intro id mark hmark
    by_cases hid : id = channelId
    · subst hid
      rw [if_pos rfl, hmark]
      refine ⟨Or.inr rfl, ?_⟩
      constructor
      · intro hholds
        cases hholds
      · rintro ⟨hholds, hnot⟩
        have hany : (some mark).any ChannelMark.holds = true := hholds
        rw [if_pos hany] at hnot
        exact absurd (List.mem_singleton.mpr rfl) hnot
    · rw [if_neg hid]
      refine ⟨Or.inl rfl, ?_⟩
      split
      · simp [hid]
      · simp
  · intro id hmem
    split at hmem
    · rename_i hany
      rw [List.mem_singleton] at hmem
      subst hmem
      obtain ⟨mark, hmark, -⟩ := (Option.any_eq_true _ _).mp hany
      exact ⟨mark, hmark⟩
    · cases hmem

theorem PrefixesHeld.closeSocket (h : PrefixesHeld service holders)
    (hholder : holders id = some holder) :
    PrefixesHeld (HolderAct.apply service holder .closeSocket).1
      (setHolder holders id (HolderAct.apply service holder .closeSocket).2) := by
  unfold HolderAct.apply
  by_cases hdestroyed : holder.destroyed = true
  · simp only [if_pos hdestroyed, setHolder_eq hholder]
    exact h
  · simp only [if_neg hdestroyed]
    have hmem {channelId : ℕ} :
        channelId ∈ (holder.channels.entries.filter fun entry => entry.2.holds).map Prod.fst ↔
          ∃ mark, holder.channels.get? channelId = some mark ∧ mark.holds = true := by
      rw [List.mem_map]
      constructor
      · rintro ⟨⟨id, mark⟩, hentry, rfl⟩
        obtain ⟨hentry, hholds⟩ := List.mem_filter.mp hentry
        exact ⟨mark, OrdMap.get?_eq_some_iff.mpr hentry, hholds⟩
      · rintro ⟨mark, hmark, hholds⟩
        exact ⟨(channelId, mark), List.mem_filter.mpr ⟨OrdMap.get?_eq_some_iff.mp hmark, hholds⟩, rfl⟩
    refine @PrefixesHeld.closes service holders id holder _ h hholder _ (fun _ mark => mark.close)
      ?_ ?_ fun id => OrdMap.get?_mapValues _ _ _
    · intro channelId mark hmark
      refine ⟨Or.inr rfl, ?_⟩
      constructor
      · intro hholds
        cases hholds
      · rintro ⟨hholds, hnot⟩
        exact absurd (hmem.mpr ⟨mark, hmark, hholds⟩) hnot
    · intro channelId hchannel
      obtain ⟨mark, hmark, -⟩ := hmem.mp hchannel
      exact ⟨mark, hmark⟩

/-- Every act keeps the books. -/
theorem PrefixesHeld.act (h : PrefixesHeld service holders) (hholder : holders id = some holder)
    (act : HolderAct) :
    PrefixesHeld (act.apply service holder).1 (setHolder holders id (act.apply service holder).2) := by
  cases act with
  | takeNumber =>
    rw [show (HolderAct.apply service holder .takeNumber).2 = holder from rfl, setHolder_eq hholder]
    exact h.takeNumber
  | openStandard random => exact h.openStandard hholder random
  | openExtended => exact h.openExtended hholder
  | refuseExtended =>
    have hsame : (HolderAct.apply service holder .refuseExtended).2 = holder := by
      simp only [HolderAct.apply]
      split
      · rfl
      · rfl
    rw [hsame, setHolder_eq hholder]
    exact h.refuse
  | closeChannel channelId => exact h.closeChannel hholder channelId
  | closeSocket => exact h.closeSocket hholder

/-- What every act that is asked for keeps is kept by any number of them. -/
theorem keeps_acts {Keeps : StratumV2Service → (ℕ → Option Holder) → Prop}
    {asked : Account → HolderAct → Prop}
    (hact : ∀ (account : Account) (act : HolderAct),
      Keeps account.1 (setHolder holders id account.2) → asked account act →
        Keeps (act.apply account.1 account.2).1
          (setHolder holders id (act.apply account.1 account.2).2))
    {account account' : Account} (hacts : Relation.ReflTransGen (ActStep asked) account account')
    (h : Keeps account.1 (setHolder holders id account.2)) :
    Keeps account'.1 (setHolder holders id account'.2) := by
  induction hacts with
  | refl => exact h
  | tail _ hstep ih =>
    obtain ⟨act, hasked, rfl⟩ := hstep
    exact hact _ act ih hasked

end

end PublicPool.Proofs
