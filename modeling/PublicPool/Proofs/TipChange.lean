import PublicPool.Mining.TemplateFeed
import PublicPool.TxCodec
import Mathlib.Data.List.Chain

/-!
# `PublicPool.Proofs.TipChange`: clearing jobs on a new tip

The pipeline tells a new block by the number of blocks in the mining info, while the tip is in the
block template, which is fetched by a call of its own. `clears_on_tip_change` says when the two
go together: in every run in which consecutive block templates on different tips come with
different numbers of blocks, every job template on a new tip clears jobs.

`not_clears_on_tip_change_reorg` is a reorganisation at the same height.
-/

set_option autoImplicit false

namespace PublicPool.Proofs

open Lib (Machine)

/-- A block template as it is fed: with the number of blocks of the mining info at that time. -/
structure Feeding where
  blocks : ℕ
  blockTemplate : BlockTemplate

/-- The previous block that a job template has of a block template. -/
def Feeding.tip (feeding : Feeding) : Bytes :=
  convertToLittleEndian feeding.blockTemplate.previousblockhash

/-- The block templates among some inputs, from a given mining info on. -/
def feedings : Option MiningInfo → List FeedInput → List Feeding
  | _, [] => []
  | _, .miningInfo miningInfo :: inputs => feedings miningInfo inputs
  | none, .blockTemplate _ _ :: inputs => feedings none inputs
  | some miningInfo, .blockTemplate blockTemplate _ :: inputs =>
    ⟨miningInfo.blocks, blockTemplate⟩ :: feedings (some miningInfo) inputs

/-- The number of blocks moves when the tip does, unless there is no block yet. -/
def BlocksMoveWithTip (before after : Feeding) : Prop :=
  before.tip ≠ after.tip → before.blocks ≠ after.blocks ∨ after.blocks = 0

instance : DecidableRel BlocksMoveWithTip := fun before after =>
  inferInstanceAs (Decidable (before.tip ≠ after.tip →
    before.blocks ≠ after.blocks ∨ after.blocks = 0))

/-- A job template on another tip than the one before it clears jobs. -/
def ClearsOnTipChange (before after : JobTemplate) : Prop :=
  before.block.prevHash ≠ after.block.prevHash → after.blockData.clearJobs = true

instance : DecidableRel ClearsOnTipChange := fun before after =>
  inferInstanceAs (Decidable (before.block.prevHash ≠ after.block.prevHash →
    after.blockData.clearJobs = true))

section
variable {host : FeedHost} {feed : TemplateFeed}

/-- What a block template does to the pipeline: it is left out, it ends the pipeline, or it is
emitted. -/
inductive NextCase (host : FeedHost) (feed : TemplateFeed) (feeding : Feeding) :
    TemplateFeed × List JobTemplate → Prop
  | skipped (hheight : feed.lastBlockHeight = feeding.blocks) (hblocks : feeding.blocks ≠ 0) :
      NextCase host feed feeding (feed, [])
  | ended {feed' : TemplateFeed} (hended : feed'.ended = true) : NextCase host feed feeding (feed', [])
  | emitted {feed' : TemplateFeed} {data : JobTemplate}
      (hheight : feed'.lastBlockHeight = feeding.blocks) (hinfo : feed'.miningInfo = feed.miningInfo)
      (htip : data.block.prevHash = feeding.tip)
      (hclears : data.blockData.clearJobs = true ∨
        feed.lastBlockHeight = feeding.blocks ∧ feeding.blocks ≠ 0) :
      NextCase host feed feeding (feed', [data])

theorem jobTemplate_fields {blockTemplate : BlockTemplate} {clearJobs : Bool} {now : ℕ}
    {jobTemplate : JobTemplate}
    (h : blockTemplate.jobTemplate host clearJobs now = some jobTemplate) :
    jobTemplate.block.prevHash = convertToLittleEndian blockTemplate.previousblockhash ∧
      jobTemplate.blockData.clearJobs = clearJobs := by
  simp only [BlockTemplate.jobTemplate, Option.bind_eq_bind, Option.bind_eq_some_iff,
    Option.pure_def, Option.some.injEq] at h
  obtain ⟨transactions, -, witnessCommit, -, rfl⟩ := h
  exact ⟨rfl, rfl⟩

/-- The inversion lemma of the pipeline. -/
theorem next_cases (miningInfo : MiningInfo) (blockTemplate : BlockTemplate) (now : ℕ) :
    NextCase host feed ⟨miningInfo.blocks, blockTemplate⟩
      (feed.next host miningInfo blockTemplate now) := by
  have hheight : feed.clearsJobs miningInfo = false →
      feed.lastBlockHeight = miningInfo.blocks ∧ miningInfo.blocks ≠ 0 := by
    intro h
    simp only [TemplateFeed.clearsJobs, Bool.or_eq_false_iff, decide_eq_false_iff_not,
      not_not] at h
    obtain ⟨hzero, hsame⟩ := h
    exact ⟨hsame, hsame ▸ hzero⟩
  unfold TemplateFeed.next
  cases hclears : feed.clearsJobs miningInfo with
  | true =>
    simp only [Bool.not_true, Bool.false_and, Bool.false_eq_true, if_false, if_true]
    cases hjob : blockTemplate.jobTemplate host true now with
    | none => exact .ended rfl
    | some jobTemplate =>
      obtain ⟨htip, hclear⟩ := jobTemplate_fields hjob
      exact .emitted rfl rfl htip (Or.inl hclear)
  | false =>
    have hsame := hheight hclears
    simp only [Bool.not_false, Bool.true_and, Bool.false_eq_true, if_false]
    split
    · exact .skipped hsame.1 hsame.2
    · cases hjob : blockTemplate.jobTemplate host false now with
      | none => exact .ended rfl
      | some jobTemplate =>
        obtain ⟨htip, -⟩ := jobTemplate_fields hjob
        exact .emitted hsame.1 rfl htip (Or.inr hsame)

/-- A pipeline that has ended emits nothing. -/
theorem history_of_ended (hended : feed.ended = true) (inputs : List FeedInput) :
    (feedMachine host).history feed inputs = [] := by
  induction inputs generalizing feed with
  | nil => rfl
  | cons input inputs ih =>
    rw [Machine.history_cons]
    cases input with
    | miningInfo miningInfo => exact ih hended
    | blockTemplate blockTemplate now =>
      have hstep : (feedMachine host).step feed (.blockTemplate blockTemplate now) = (feed, []) :=
        if_pos hended
      rw [hstep]
      exact ih hended

/-- What the pipeline remembers of the block template before: its number of blocks, and that the
last job template has its tip. -/
structure Follows (before : Option Feeding) (last : Option JobTemplate) (feed : TemplateFeed) :
    Prop where
  height : ∀ feeding ∈ before, feed.lastBlockHeight = feeding.blocks
  tip : ∀ data ∈ last, ∃ feeding ∈ before, feeding.tip = data.block.prevHash

variable {before : Option Feeding} {last : Option JobTemplate}

/-- Unless the number of blocks has moved, the tip has not. -/
theorem Follows.tip_eq (h : Follows before last feed) {feeding : Feeding} {rest : List Feeding}
    (hmoves : (before.toList ++ feeding :: rest).IsChain BlocksMoveWithTip)
    (hheight : feed.lastBlockHeight = feeding.blocks) (hblocks : feeding.blocks ≠ 0) :
    ∀ data ∈ last, data.block.prevHash = feeding.tip := by
  intro data hdata
  obtain ⟨previous, rfl, htip⟩ := h.tip data hdata
  have hmove : BlocksMoveWithTip previous feeding := (List.isChain_cons_cons.mp hmoves).1
  have hsame : previous.blocks = feeding.blocks := (h.height previous rfl).symm.trans hheight
  rw [← htip]
  by_contra hne
  rcases hmove hne with hmoved | hzero
  · exact hmoved hsame
  · exact hblocks hzero

theorem isChain_last (last : Option JobTemplate) : last.toList.IsChain ClearsOnTipChange := by
  cases last <;> simp

/-- The rule for runs that start in the middle: after a block template and a job template. -/
theorem isChain_history (h : Follows before last feed) (inputs : List FeedInput)
    (hmoves : (before.toList ++ feedings feed.miningInfo inputs).IsChain BlocksMoveWithTip) :
    (last.toList ++ (feedMachine host).history feed inputs).IsChain ClearsOnTipChange := by
  induction inputs generalizing feed before last with
  | nil =>
    rw [Machine.history_nil, List.append_nil]
    exact isChain_last last
  | cons input inputs ih =>
    cases hended : feed.ended with
    | true =>
      rw [history_of_ended hended, List.append_nil]
      exact isChain_last last
    | false =>
      rw [Machine.history_cons]
      cases input with
      | miningInfo miningInfo => exact ih ⟨h.height, h.tip⟩ hmoves
      | blockTemplate blockTemplate now =>
        cases hinfo : feed.miningInfo with
        | none =>
          -- without mining info the template ends the pipeline
          have hstep : (feedMachine host).step feed (.blockTemplate blockTemplate now)
              = ({ feed with ended := true }, []) := by
            simp [feedMachine, TemplateFeed.step, hended, hinfo]
          rw [hstep, history_of_ended rfl, List.append_nil, List.append_nil]
          exact isChain_last last
        | some miningInfo =>
          have hstep : (feedMachine host).step feed (.blockTemplate blockTemplate now)
              = feed.next host miningInfo blockTemplate now := by
            simp [feedMachine, TemplateFeed.step, hended, hinfo]
          rw [hinfo] at hmoves
          have hrest : (some ⟨miningInfo.blocks, blockTemplate⟩ : Option Feeding).toList
              ++ feedings (some miningInfo) inputs
                = feedings (some miningInfo) (.blockTemplate blockTemplate now :: inputs) := rfl
          have hmovesRest := (List.isChain_append.mp hmoves).2.1
          rw [← hrest] at hmovesRest
          rw [hstep]
          have hcase : NextCase host feed ⟨miningInfo.blocks, blockTemplate⟩
              (feed.next host miningInfo blockTemplate now) := next_cases ..
          generalize feed.next host miningInfo blockTemplate now = step at hcase
          cases hcase with
          | skipped hheight hblocks =>
            refine ih ⟨?_, ?_⟩ (hinfo ▸ hmovesRest)
            · intro feeding hfeeding
              cases hfeeding
              exact hheight
            · intro data hdata
              exact ⟨_, rfl, (h.tip_eq hmoves hheight hblocks data hdata).symm⟩
          | ended hended' =>
            rw [history_of_ended hended', List.append_nil, List.append_nil]
            exact isChain_last last
          | @emitted feed' data hheight hinfo' htip hclears =>
            have hnext : ((some data).toList ++ (feedMachine host).history feed' inputs).IsChain
                ClearsOnTipChange := by
              refine ih ⟨?_, ?_⟩ ((hinfo'.trans hinfo) ▸ hmovesRest)
              · intro feeding hfeeding
                cases hfeeding
                exact hheight
              · intro data' hdata'
                cases hdata'
                exact ⟨_, rfl, htip.symm⟩
            refine List.isChain_append.mpr ⟨isChain_last last, hnext, ?_⟩
            intro previous hprevious data' hdata'
            cases hdata'
            intro hmoved
            rcases hclears with hclear | ⟨hsame, hblocks⟩
            · exact hclear
            · have hlast : previous ∈ last := by
                cases last with
                | none => cases hprevious
                | some other => exact hprevious
              exact absurd ((h.tip_eq hmoves hsame hblocks previous hlast).trans htip.symm) hmoved

end

/-- Clear jobs on every new tip. In every run in which consecutive block templates on different
tips come with different numbers of blocks, a job template on another tip than the one emitted
before it clears jobs. -/
theorem clears_on_tip_change (host : FeedHost) (inputs : List FeedInput)
    (hmoves : (feedings none inputs).IsChain BlocksMoveWithTip) :
    ((feedMachine host).history .initial inputs).IsChain ClearsOnTipChange := by
  -- nothing is remembered before the first template
  have hstart : Follows none none .initial := by
    constructor
    · intro feeding hfeeding
      exact absurd hfeeding (Option.not_mem_none feeding)
    · intro data hdata
      exact absurd hdata (Option.not_mem_none data)
  exact isChain_history hstart inputs hmoves

namespace FeedSample

def host : FeedHost where
  toExternals := Externals.reference (fun _ => Digest.ofNat 0) []
  merkleProof _ leaf := [some leaf, some leaf]
  witnessMerkleRoot _ := some (List.replicate 32 9)
  percentText _ := []

/-- A block template on a previous block. -/
def blockTemplate (previousblockhash : String) : BlockTemplate where
  version := 0x20000000
  previousblockhash := previousblockhash
  transactions := []
  coinbasevalue := 5000000000
  mintime := 1700000000
  sigoplimit := none
  sizelimit := none
  weightlimit := none
  bits := "17034219"
  height := 800001
  payoutSnapshotId := none
  payoutOutputs := none

/-- Two templates on different tips, with the numbers of blocks they come with. -/
def twoTips (before after : ℕ) : List FeedInput :=
  [.miningInfo (some ⟨before⟩), .blockTemplate (blockTemplate "0a") 1700000001000,
    .miningInfo (some ⟨after⟩), .blockTemplate (blockTemplate "0b") 1700000002000]

end FeedSample

/-- After a reorganisation at the same height the jobs on the old tip stay. -/
theorem not_clears_on_tip_change_reorg :
    ¬ ((feedMachine FeedSample.host).history .initial
      (FeedSample.twoTips 800000 800000)).IsChain ClearsOnTipChange := by
  decide +kernel

theorem clears_on_tip_change_sample :
    ((feedMachine FeedSample.host).history .initial
      (FeedSample.twoTips 800000 800001)).IsChain ClearsOnTipChange :=
  clears_on_tip_change FeedSample.host (FeedSample.twoTips 800000 800001) (by decide +kernel)

end PublicPool.Proofs
