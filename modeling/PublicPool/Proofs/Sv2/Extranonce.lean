import PublicPool.Lib.CyclicScan
import PublicPool.Lib.Runs
import PublicPool.Sv2.Extranonce

/-!
# `PublicPool.Proofs.Sv2.Extranonce`: no two live channels share a prefix

`Sv2ExtranonceManager` keeps the prefix of every channel in a map and the prefixes that are used in
a set. `ManagerInv` says that the two go together, and `allocate_cases` what `allocate` can do: the
channel has a prefix already, or it gets one that is free, or none is free.

The search for a free prefix is a scan around the circle of all of them, which finds one from any
cursor if there is one.
-/

set_option autoImplicit false

namespace PublicPool.Proofs

open Lib
open Sv2
open Sv2.Sv2ExtranonceManager

section
variable (manager : Sv2ExtranonceManager)

theorem findPrefix_eq_scan (attempts localPrefix : ℕ) :
    manager.findPrefix attempts localPrefix =
      scan (cyclicNext manager.maxPrefix) (· ∈ manager.usedPrefixes) attempts localPrefix := by
  induction attempts generalizing localPrefix with
  | zero => rfl
  | succ attempts ih =>
    unfold findPrefix scan
    rw [ih]
    rfl

/-- The bytes of a prefix are its digits, the most significant one first. -/
theorem reverse_prefixToBuffer (value : ℕ) :
    (manager.prefixToBuffer value).reverse = putLE manager.prefixSize value := by
  rw [putLE_natCast]
  apply List.ext_getElem
  · simp [prefixToBuffer]
  · intro i hi hi'
    have hsize : i < manager.prefixSize := by simpa using hi'
    have hindex : manager.prefixSize - 1 - (manager.prefixSize - 1 - i) = i := by omega
    apply UInt8.toNat_inj.mp
    simp [prefixToBuffer, hindex]

/-- The number that the bytes of a prefix encode. -/
theorem leValue_prefixToBuffer {value : ℕ} (h : value < 256 ^ manager.prefixSize) :
    leValue (manager.prefixToBuffer value).reverse = value := by
  rw [reverse_prefixToBuffer, leValue_putLE, Nat.mod_eq_of_lt h]

theorem maxPrefix_lt : manager.maxPrefix < 256 ^ manager.prefixSize := by
  have hpow : (2 : ℕ) ^ ((manager.prefixSize - 1) * 8) ≤ 256 ^ manager.prefixSize := by
    rw [show (256 : ℕ) = 2 ^ 8 from rfl, ← pow_mul]
    exact Nat.pow_le_pow_right (by omega) (by omega)
  have hpos : 0 < (2 : ℕ) ^ ((manager.prefixSize - 1) * 8) := by positivity
  unfold maxPrefix
  omega

theorem maxPrefix_pos (h : 2 ≤ manager.prefixSize) : 0 < manager.maxPrefix := by
  have hpow : (2 : ℕ) ^ 1 ≤ 2 ^ ((manager.prefixSize - 1) * 8) :=
    Nat.pow_le_pow_right (by omega) (by omega)
  unfold maxPrefix
  omega

end

/-! ### The invariant -/

/-- The prefixes that are used are those of the channels, each the one of one channel, and the
cursor stays within the range. -/
structure ManagerInv (manager : Sv2ExtranonceManager) : Prop where
  cursor : 1 ≤ manager.nextPrefix ∧ manager.nextPrefix ≤ manager.maxPrefix
  used : ∀ value, value ∈ manager.usedPrefixes ↔
    ∃ channelId, manager.allocatedPrefixes channelId = some value
  distinct : ∀ channelId channelId' value, manager.allocatedPrefixes channelId = some value →
    manager.allocatedPrefixes channelId' = some value → channelId = channelId'
  range : ∀ channelId value, manager.allocatedPrefixes channelId = some value →
    1 ≤ value ∧ value ≤ manager.maxPrefix

section
variable {manager : Sv2ExtranonceManager} {channelId : ℕ}

theorem managerInv_initial {prefixSize : ℕ} (hsize : 2 ≤ prefixSize) (totalExtranonceSize : ℕ) :
    ManagerInv (.initial prefixSize totalExtranonceSize) where
  cursor := ⟨le_rfl, maxPrefix_pos (.initial prefixSize totalExtranonceSize) hsize⟩
  used value := by simp [Sv2ExtranonceManager.initial]
  distinct _ _ _ h := absurd h.symm (Option.some_ne_none _)
  range _ _ h := absurd h.symm (Option.some_ne_none _)

/-- The manager after a channel was given a prefix. -/
def givingPrefix (manager : Sv2ExtranonceManager) (channelId value : ℕ) : Sv2ExtranonceManager :=
  { manager with
    allocatedPrefixes := fun id =>
      if id = channelId then some value else manager.allocatedPrefixes id
    usedPrefixes := value :: manager.usedPrefixes
    nextPrefix := manager.following value }

/-- What `allocate` does. -/
inductive AllocateCase (manager : Sv2ExtranonceManager) (channelId : ℕ) :
    Option (Sv2ExtranonceManager × Bytes) → Prop
  | existing {value : ℕ} (hexisting : manager.allocatedPrefixes channelId = some value) :
    AllocateCase manager channelId (some (manager, manager.prefixToBuffer value))
  | fresh {value : ℕ} (hnone : manager.allocatedPrefixes channelId = none)
      (hfree : value ∉ manager.usedPrefixes) (hrange : 1 ≤ value ∧ value ≤ manager.maxPrefix) :
    AllocateCase manager channelId
      (some (givingPrefix manager channelId value, manager.prefixToBuffer value))
  | exhausted (hnone : manager.allocatedPrefixes channelId = none)
      (hused : ∀ value, 1 ≤ value → value ≤ manager.maxPrefix → value ∈ manager.usedPrefixes) :
    AllocateCase manager channelId none

theorem allocate_cases (h : ManagerInv manager) (channelId : ℕ) :
    AllocateCase manager channelId (manager.allocate channelId) := by
  unfold allocate
  split
  · rename_i value hexisting
    exact .existing hexisting
  · rename_i hnone
    have hpos : 0 < manager.maxPrefix := by
      have hcursor := h.cursor
      omega
    simp only [findPrefix_eq_scan]
    split
    · rename_i hmem
      refine .exhausted hnone fun value hone hmax => ?_
      by_contra hfree
      exact scan_free (Nat.le_succ _) h.cursor.1 h.cursor.2 hone hmax hfree hmem
    · rename_i hfree
      refine .fresh hnone hfree ?_
      have hstays : ∀ n, (1 ≤ n ∧ n ≤ manager.maxPrefix) →
          1 ≤ cyclicNext manager.maxPrefix n ∧ cyclicNext manager.maxPrefix n ≤ manager.maxPrefix :=
        fun _ _ => cyclicNext_mem hpos
      exact scan_induction hstays h.cursor

/-- A prefix that is free may be given to a channel that has none. -/
theorem ManagerInv.givePrefix (h : ManagerInv manager) {value : ℕ}
    (hnone : manager.allocatedPrefixes channelId = none) (hfree : value ∉ manager.usedPrefixes)
    (hrange : 1 ≤ value ∧ value ≤ manager.maxPrefix) :
    ManagerInv (givingPrefix manager channelId value) where
  cursor := cyclicNext_mem (by omega)
  used value' := by
    show value' ∈ value :: manager.usedPrefixes ↔
      ∃ id, (if id = channelId then some value else manager.allocatedPrefixes id) = some value'
    rw [List.mem_cons, h.used value']
    constructor
    · rintro (rfl | ⟨id, hid⟩)
      · exact ⟨channelId, if_pos rfl⟩
      · have hne : id ≠ channelId := by
          rintro rfl
          rw [hnone] at hid
          cases hid
        exact ⟨id, (if_neg hne).trans hid⟩
    · rintro ⟨id, hid⟩
      by_cases hne : id = channelId
      · rw [if_pos hne] at hid
        exact Or.inl (Option.some.inj hid).symm
      · rw [if_neg hne] at hid
        exact Or.inr ⟨id, hid⟩
  distinct id id' value' hid hid' := by
    -- the new prefix is nobody else's
    have hother {c : ℕ} (hc : manager.allocatedPrefixes c = some value) : False :=
      hfree ((h.used value).mpr ⟨c, hc⟩)
    simp only [givingPrefix] at hid hid'
    by_cases hne : id = channelId <;> by_cases hne' : id' = channelId
    · rw [hne, hne']
    · rw [if_pos hne] at hid
      rw [if_neg hne', ← Option.some.inj hid] at hid'
      exact (hother hid').elim
    · rw [if_pos hne'] at hid'
      rw [if_neg hne, ← Option.some.inj hid'] at hid
      exact (hother hid).elim
    · rw [if_neg hne] at hid
      rw [if_neg hne'] at hid'
      exact h.distinct id id' value' hid hid'
  range id value' hid := by
    simp only [givingPrefix] at hid
    by_cases hne : id = channelId
    · rw [if_pos hne] at hid
      rw [← Option.some.inj hid]
      exact hrange
    · rw [if_neg hne] at hid
      exact h.range id value' hid

theorem ManagerInv.release (h : ManagerInv manager) (channelId : ℕ) :
    ManagerInv (manager.release channelId) := by
  unfold Sv2ExtranonceManager.release
  split
  · rename_i value hvalue
    have hback {id value' : ℕ}
        (hid : (if id = channelId then none else manager.allocatedPrefixes id) = some value') :
        id ≠ channelId ∧ manager.allocatedPrefixes id = some value' := by
      by_cases hne : id = channelId
      · rw [if_pos hne] at hid
        cases hid
      · rw [if_neg hne] at hid
        exact ⟨hne, hid⟩
    refine ⟨h.cursor, fun value' => ?_, ?_, fun id value' hid => h.range id value' (hback hid).2⟩
    · simp only [List.mem_filter, decide_eq_true_eq]
      rw [h.used value']
      constructor
      · rintro ⟨⟨id, hid⟩, hne⟩
        refine ⟨id, (if_neg ?_).trans hid⟩
        rintro rfl
        exact hne (Option.some.inj (hid.symm.trans hvalue))
      · rintro ⟨id, hid⟩
        obtain ⟨hne, hid⟩ := hback hid
        refine ⟨⟨id, hid⟩, ?_⟩
        rintro rfl
        exact hne (h.distinct id channelId value' hid hvalue)
    · intro id id' value' hid hid'
      exact h.distinct id id' value' (hback hid).2 (hback hid').2
  · exact h

end

/-! ### Runs -/

/-- A call of the manager. -/
inductive ExtranonceCall
  | allocate (channelId : ℕ)
  | release (channelId : ℕ)

/-- One call. A call of `allocate` emits the prefix it returns, or nothing when it throws. -/
def extranonceStep (manager : Sv2ExtranonceManager) :
    ExtranonceCall → Sv2ExtranonceManager × List Bytes
  | .allocate channelId =>
    match manager.allocate channelId with
    | some (manager, extranoncePrefix) => (manager, [extranoncePrefix])
    | none => (manager, [])
  | .release channelId => (manager.release channelId, [])

/-- The manager as a state machine. -/
def extranonceMachine : Machine Sv2ExtranonceManager ExtranonceCall Bytes := ⟨extranonceStep⟩

theorem ManagerInv.step {manager : Sv2ExtranonceManager} (h : ManagerInv manager)
    (call : ExtranonceCall) : ManagerInv (extranonceStep manager call).1 := by
  cases call with
  | allocate channelId =>
    have hcases := allocate_cases h channelId
    simp only [extranonceStep]
    cases hallocate : manager.allocate channelId with
    | none => exact h
    | some allocated =>
      rw [hallocate] at hcases
      cases hcases with
      | existing hexisting => exact h
      | fresh hnone hfree hrange => exact h.givePrefix hnone hfree hrange
  | release channelId => exact h.release channelId

theorem managerInv_run {prefixSize : ℕ} (hsize : 2 ≤ prefixSize) (totalExtranonceSize : ℕ)
    (calls : List ExtranonceCall) :
    ManagerInv (extranonceMachine.final (.initial prefixSize totalExtranonceSize) calls) := by
  have hinit : ManagerInv (.initial prefixSize totalExtranonceSize) :=
    managerInv_initial hsize totalExtranonceSize
  have hstep : ∀ (manager : Sv2ExtranonceManager) (_ : List Bytes) (call : ExtranonceCall),
      ManagerInv manager → True → ManagerInv (extranonceMachine.step manager call).1 :=
    fun manager _ call hinv _ => hinv.step call
  have hall : extranonceMachine.Along (fun _ _ _ => True)
      (.initial prefixSize totalExtranonceSize) [] calls :=
    extranonceMachine.along_of_forall (fun _ _ _ => trivial) _ [] calls
  exact extranonceMachine.history_invariant hstep hinit hall

section
variable {manager : Sv2ExtranonceManager} {channelId value : ℕ}

theorem ManagerInv.leValue_buffer (h : ManagerInv manager)
    (hvalue : manager.allocatedPrefixes channelId = some value) :
    leValue (manager.prefixToBuffer value).reverse = value :=
  leValue_prefixToBuffer manager ((h.range channelId value hvalue).2.trans_lt (maxPrefix_lt manager))

/-- Channels with the same bytes are the same. -/
theorem ManagerInv.eq_of_buffer (h : ManagerInv manager) {channelId' value' : ℕ}
    (hvalue : manager.allocatedPrefixes channelId = some value)
    (hvalue' : manager.allocatedPrefixes channelId' = some value')
    (hbytes : manager.prefixToBuffer value = manager.prefixToBuffer value') :
    channelId = channelId' := by
  have hsame : value = value' := by
    rw [← h.leValue_buffer hvalue, hbytes, h.leValue_buffer hvalue']
  exact h.distinct channelId channelId' value hvalue (hsame ▸ hvalue')

end

/-- Two channels are given prefixes, and a third one after the first has closed. -/
def sampleManager : Sv2ExtranonceManager :=
  extranonceMachine.final (.initial 2 14) [.allocate 7, .allocate 8, .release 7, .allocate 9]

end PublicPool.Proofs
