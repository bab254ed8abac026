import PublicPool.Proofs.Sv2.Rules
import PublicPool.TxCodec

/-!
# `PublicPool.Proofs.Sv2.DoubleCredit`: when a Stratum V2 share is credited twice

A channel remembers every submission, accepted or not, and forgets all of them once it holds
more than ten thousand. `credited_tuples_nodup` says that this is the only way to a second
credit: in every run in which no new submission meets a full set, every tuple is credited at
most once on its channel, live job or not.

The invariant is `Credits`. A tuple that is credited, or accepted and on its way to the
accounting, is remembered by its channel as long as its job is live there; a job id that a
handler is still sending is known to no channel, so that no tuple can name it yet.
-/

set_option autoImplicit false

namespace PublicPool.Proofs

open Lib (OrdMap Machine)
open Sv2
open Sv2.Context

/-! ### Channels -/

/-- A job that is live nowhere on a channel: its merkle root is forgotten and its extended job is
gone or retired. -/
def Dead (channel : ChannelState) (jobId : ℕ) : Prop :=
  channel.jobIdToMerkleRoot jobId = none ∧
    (channel.channelType = .extended →
      ∀ job, channel.extendedJobs jobId = some job → job.retiredAt.isSome = true)

/-- A channel has heard of a job. -/
def Knows (channel : ChannelState) (jobId : ℕ) : Prop :=
  channel.jobIdToMerkleRoot jobId ≠ none ∨ channel.extendedJobs jobId ≠ none

/-- Extended channels are sent no merkle roots. -/
def Typed (channel : ChannelState) : Prop :=
  channel.channelType = .extended → ∀ jobId, channel.jobIdToMerkleRoot jobId = none

section
variable {channel channel' : ChannelState}

variable {jobId channelId : ℕ}

theorem Forgets.knows (h : Forgets channel channel') (hknows : Knows channel' jobId) :
    Knows channel jobId := by
  rcases hknows with hroot | hjob
  · obtain ⟨merkleRoot, hroot⟩ := Option.ne_none_iff_exists'.mp hroot
    refine Or.inl ?_
    rw [h.merkleRoots jobId merkleRoot hroot]
    exact Option.some_ne_none _
  · obtain ⟨job', hjob⟩ := Option.ne_none_iff_exists'.mp hjob
    obtain ⟨job, -, hbefore, -⟩ := h.extendedJobs jobId job' hjob
    refine Or.inr ?_
    rw [hbefore]
    exact Option.some_ne_none _

theorem Forgets.dead (h : Forgets channel channel') (hdead : Dead channel jobId) :
    Dead channel' jobId := by
  constructor
  · cases hroot : channel'.jobIdToMerkleRoot jobId with
    | none => rfl
    | some merkleRoot =>
      rw [← hdead.1, h.merkleRoots jobId merkleRoot hroot]
  · intro htype job' hjob'
    obtain ⟨job, retiredAt, hjob, rfl, hretired⟩ := h.extendedJobs jobId job' hjob'
    exact hretired (hdead.2 (h.channelType ▸ htype) job hjob)

theorem Forgets.typed (h : Forgets channel channel') (htyped : Typed channel) : Typed channel' := by
  intro htype jobId
  cases hroot : channel'.jobIdToMerkleRoot jobId with
  | none => rfl
  | some merkleRoot =>
    rw [← htyped (h.channelType ▸ htype) jobId, h.merkleRoots jobId merkleRoot hroot]

/-- A channel that forgets submissions forgets all jobs with them. -/
structure Ages (channel channel' : ChannelState) : Prop extends Forgets channel channel' where
  remembers : Typed channel →
    (∀ key ∈ channel.miningSubmissionHashes, key ∈ channel'.miningSubmissionHashes) ∨
      ∀ jobId, Dead channel' jobId

theorem Ages.refl (channel : ChannelState) : Ages channel channel :=
  ⟨.refl channel, fun _ => Or.inl fun _ => id⟩

theorem Keeps.ages (h : Keeps channel channel') : Ages channel channel' := by
  refine ⟨h.forgets, fun _ => Or.inl ?_⟩
  obtain ⟨_, _, _, -, rfl⟩ := h
  exact fun _ => id

/-- A set with room keeps what it holds. -/
theorem ages_remember {key : List Char} (hroom : channel.miningSubmissionHashes.length < 10000) :
    Ages channel (channel.remember key) ∧
      key ∈ (channel.remember key).miningSubmissionHashes := by
  have hlength : ¬ 10000 < (channel.miningSubmissionHashes ++ [key]).length := by
    rw [List.length_append, List.length_singleton]
    omega
  have hhashes : (channel.remember key).miningSubmissionHashes
      = channel.miningSubmissionHashes ++ [key] := by
    simp only [ChannelState.remember, if_neg hlength]
  refine ⟨⟨forgets_remember channel key, fun _ => Or.inl ?_⟩, ?_⟩
  · intro key' hkey'
    rw [hhashes]
    exact List.mem_append_left _ hkey'
  · rw [hhashes]
    exact List.mem_append_right _ List.mem_cons_self

/-- A channel with room remembers a submission. -/
theorem channelsVia_remember {channels : OrdMap ℕ ChannelState}
    (hfound : channels.get? channelId = some channel)
    (hroom : channel.miningSubmissionHashes.length < 10000) (key : List Char) :
    ChannelsVia Ages channels (channels.modify channelId (ChannelState.remember · key)) := by
  intro id channel' hchannel'
  rw [OrdMap.get?_modify] at hchannel'
  obtain ⟨before, hbefore, rfl⟩ := Option.map_eq_some_iff.mp hchannel'
  refine ⟨before, hbefore, ?_⟩
  split
  · rename_i hid
    subst hid
    rw [hfound] at hbefore
    cases hbefore
    exact (ages_remember hroom).1
  · exact Ages.refl before

/-- A template that clears jobs leaves no live job, so that the submissions may be forgotten. -/
theorem ages_clearJobs (channel : ChannelState) (now : ℕ) :
    Ages channel (channel.clearJobs now) := by
  refine ⟨forgets_clearJobs channel now, fun htyped => Or.inr fun jobId => ?_⟩
  unfold ChannelState.clearJobs
  split
  · rename_i htype
    refine ⟨htyped htype jobId, ?_⟩
    -- what is left of the extended jobs is retired
    intro _ job hjob
    obtain ⟨hretired, -⟩ := Option.filter_eq_some_iff.mp hjob
    obtain ⟨before, -, rfl⟩ := Option.map_eq_some_iff.mp hretired
    rfl
  · rename_i htype
    refine ⟨rfl, ?_⟩
    intro htype'
    rw [htype] at htype'
    cases htype'

/-- A submission that is judged acceptable names a live job. -/
theorem not_dead_of_acceptsTuple {host : Externals} {jobs : StratumV1JobsService}
    {tuple : ShareTuple} {share : AcceptedShare}
    (h : AcceptsTuple host jobs channelId channel tuple share) :
    ¬ Dead channel tuple.jobId ∧ Knows channel tuple.jobId ∧ share.tuple = tuple ∧
      share.channelId = channelId := by
  obtain ⟨sum, hstandard | ⟨extranonce, htype, hextended⟩⟩ := h.cases
  · obtain ⟨job, root, -, -, hroot, -, -, hchannelId, htuple, -⟩ :=
      judgeStandard_eq_accepted hstandard
    refine ⟨fun hdead => ?_, Or.inl ?_, htuple, hchannelId⟩
    · rw [hdead.1] at hroot
      cases hroot
    · rw [hroot]
      exact Option.some_ne_none root
  · obtain ⟨job, -, -, hjob, hlive, -, hchannelId, htuple, -⟩ :=
      judgeExtended_eq_accepted hextended
    refine ⟨fun hdead => ?_, Or.inr ?_, htuple, hchannelId⟩
    · have hretired := hdead.2 htype job hjob
      rw [hlive] at hretired
      cases hretired
    · rw [hjob]
      exact Option.some_ne_none job

end

/-! ### The invariant of a connection -/

/-- The job ids and channel ids given out are below `jobIds` and `channelIds`; `ledger` holds the
tuples that are credited on a channel or about to be, `pushes` the extended jobs that are being
sent. -/
structure Credits (jobIds channelIds : ℕ) (channels : OrdMap ℕ ChannelState)
    (ledger : ℕ → List ShareTuple) (pushes : List ℕ) : Prop where
  nodup : ∀ channelId, (ledger channelId).Nodup
  nodupPushes : pushes.Nodup
  channelBelow : ∀ channelId channel, channels.get? channelId = some channel →
    channelId < channelIds
  typed : ∀ channelId channel, channels.get? channelId = some channel → Typed channel
  knownBelow : ∀ channelId channel, channels.get? channelId = some channel →
    ∀ jobId, Knows channel jobId → jobId < jobIds
  pushBelow : ∀ jobId ∈ pushes, jobId < jobIds
  pushNew : ∀ channelId channel, channels.get? channelId = some channel →
    ∀ jobId, Knows channel jobId → jobId ∉ pushes
  tupleBelow : ∀ channelId, ∀ tuple ∈ ledger channelId,
    channelId < channelIds ∧ tuple.jobId < jobIds
  tupleNew : ∀ channelId, ∀ tuple ∈ ledger channelId, tuple.jobId ∉ pushes
  remembered : ∀ channelId channel, channels.get? channelId = some channel →
    ∀ tuple ∈ ledger channelId, tuple.submissionKey ∈ channel.miningSubmissionHashes ∨
      Dead channel tuple.jobId ∨ channel.isOpen = false

namespace Credits

variable {jobIds channelIds : ℕ} {channels : OrdMap ℕ ChannelState}
  {ledger : ℕ → List ShareTuple} {pushes : List ℕ}

theorem empty : Credits jobIds channelIds .empty (fun _ => []) [] where
  nodup _ := List.nodup_nil
  nodupPushes := List.nodup_nil
  channelBelow _ _ h := by cases h
  typed _ _ h := by cases h
  knownBelow _ _ h := by cases h
  pushBelow _ h := by cases h
  pushNew _ _ h := by cases h
  tupleBelow _ _ h := by cases h
  tupleNew _ _ h := by cases h
  remembered _ _ h := by cases h

/-- Ids may be given out, shares and jobs on their way may be dropped, and channels age. -/
theorem ages (h : Credits jobIds channelIds channels ledger pushes) {jobIds' channelIds' : ℕ}
    {channels' : OrdMap ℕ ChannelState} {ledger' : ℕ → List ShareTuple} {pushes' : List ℕ}
    (hjobIds : jobIds ≤ jobIds') (hchannelIds : channelIds ≤ channelIds')
    (hchannels : ChannelsVia Ages channels channels')
    (hledger : ∀ channelId, (ledger' channelId).Subperm (ledger channelId))
    (hpushes : pushes'.Subperm pushes) :
    Credits jobIds' channelIds' channels' ledger' pushes' where
  nodup channelId := by
    obtain ⟨l, hperm, hsub⟩ := hledger channelId
    exact hperm.nodup_iff.mp ((h.nodup channelId).sublist hsub)
  nodupPushes := by
    obtain ⟨l, hperm, hsub⟩ := hpushes
    exact hperm.nodup_iff.mp (h.nodupPushes.sublist hsub)
  channelBelow channelId channel' hchannel' := by
    obtain ⟨channel, hchannel, -⟩ := hchannels channelId channel' hchannel'
    exact (h.channelBelow channelId channel hchannel).trans_le hchannelIds
  typed channelId channel' hchannel' := by
    obtain ⟨channel, hchannel, hages⟩ := hchannels channelId channel' hchannel'
    exact hages.toForgets.typed (h.typed channelId channel hchannel)
  knownBelow channelId channel' hchannel' jobId hknows := by
    obtain ⟨channel, hchannel, hages⟩ := hchannels channelId channel' hchannel'
    exact (h.knownBelow channelId channel hchannel jobId (hages.toForgets.knows hknows)).trans_le
      hjobIds
  pushBelow jobId hjobId := (h.pushBelow jobId (hpushes.subset hjobId)).trans_le hjobIds
  pushNew channelId channel' hchannel' jobId hknows hpush := by
    obtain ⟨channel, hchannel, hages⟩ := hchannels channelId channel' hchannel'
    exact h.pushNew channelId channel hchannel jobId (hages.toForgets.knows hknows)
      (hpushes.subset hpush)
  tupleBelow channelId tuple htuple := by
    obtain ⟨hchannelId, hjobId⟩ := h.tupleBelow channelId tuple ((hledger channelId).subset htuple)
    exact ⟨hchannelId.trans_le hchannelIds, hjobId.trans_le hjobIds⟩
  tupleNew channelId tuple htuple hpush :=
    h.tupleNew channelId tuple ((hledger channelId).subset htuple) (hpushes.subset hpush)
  remembered channelId channel' hchannel' tuple htuple := by
    obtain ⟨channel, hchannel, hages⟩ := hchannels channelId channel' hchannel'
    rcases h.remembered channelId channel hchannel tuple ((hledger channelId).subset htuple) with
      hkey | hdead | hclosed
    · rcases hages.remembers (h.typed channelId channel hchannel) with hkeys | hdead
      · exact Or.inl (hkeys _ hkey)
      · exact Or.inr (Or.inl (hdead _))
    · exact Or.inr (Or.inl (hages.toForgets.dead hdead))
    · refine Or.inr (Or.inr ?_)
      rw [← Bool.not_eq_true] at hclosed ⊢
      exact fun hopen => hclosed (hages.isOpen hopen)

/-- A channel is opened under the next id. -/
theorem opens (h : Credits jobIds channelIds channels ledger pushes) {channel : ChannelState}
    (hnew : IsNew channel) :
    Credits jobIds (channelIds + 1) (channels.set channelIds channel) ledger pushes := by
  have hknows : ∀ jobId, ¬ Knows channel jobId := by
    rintro jobId (hroot | hjob)
    · exact hroot (hnew.merkleRoots jobId)
    · exact hjob (hnew.extendedJobs jobId)
  have hget : ∀ channelId channel', (channels.set channelIds channel).get? channelId
      = some channel' → channelId = channelIds ∧ channel' = channel ∨
        channels.get? channelId = some channel' := by
    intro channelId channel' hchannel'
    rw [OrdMap.get?_set] at hchannel'
    split at hchannel'
    · rename_i hid
      cases hchannel'
      exact Or.inl ⟨hid, rfl⟩
    · exact Or.inr hchannel'
  refine ⟨h.nodup, h.nodupPushes, ?_, ?_, ?_, h.pushBelow, ?_, ?_, h.tupleNew, ?_⟩
  · intro channelId channel' hchannel'
    rcases hget channelId channel' hchannel' with ⟨rfl, -⟩ | hchannel
    · exact Nat.lt_succ_self _
    · exact Nat.lt_succ_of_lt (h.channelBelow channelId channel' hchannel)
  · intro channelId channel' hchannel'
    rcases hget channelId channel' hchannel' with ⟨-, rfl⟩ | hchannel
    · exact fun _ => hnew.merkleRoots
    · exact h.typed channelId channel' hchannel
  · intro channelId channel' hchannel' jobId hjobId
    rcases hget channelId channel' hchannel' with ⟨-, rfl⟩ | hchannel
    · exact absurd hjobId (hknows jobId)
    · exact h.knownBelow channelId channel' hchannel jobId hjobId
  · intro channelId channel' hchannel' jobId hjobId
    rcases hget channelId channel' hchannel' with ⟨-, rfl⟩ | hchannel
    · exact absurd hjobId (hknows jobId)
    · exact h.pushNew channelId channel' hchannel jobId hjobId
  · intro channelId tuple htuple
    obtain ⟨hchannelId, hjobId⟩ := h.tupleBelow channelId tuple htuple
    exact ⟨Nat.lt_succ_of_lt hchannelId, hjobId⟩
  · intro channelId channel' hchannel' tuple htuple
    rcases hget channelId channel' hchannel' with ⟨rfl, -⟩ | hchannel
    -- nothing was credited yet under the id of the new channel
    · exact absurd (h.tupleBelow channelId tuple htuple).1 (Nat.lt_irrefl _)
    · exact h.remembered channelId channel' hchannel tuple htuple

/-- An update of a channel that enters one job. -/
structure Enters (jobId : ℕ) (channel channel' : ChannelState) : Prop where
  knows : ∀ id, Knows channel' id → id = jobId ∨ Knows channel id
  dead : ∀ id ≠ jobId, Dead channel id → Dead channel' id
  isOpen : channel'.isOpen = channel.isOpen
  typed : Typed channel → Typed channel'
  hashes : channel'.miningSubmissionHashes = channel.miningSubmissionHashes

/-- A job that no tuple names is entered into a channel. -/
theorem enters (h : Credits jobIds channelIds channels ledger pushes) {jobId channelId : ℕ}
    {f : ChannelState → ChannelState}
    (hf : ∀ channel, channels.get? channelId = some channel → Enters jobId channel (f channel))
    {jobIds' : ℕ} {pushes' : List ℕ} (hjobIds : jobIds ≤ jobIds') (hjobId : jobId < jobIds')
    (hpushes : pushes'.Subperm pushes) (hjobId' : jobId ∉ pushes')
    (htuples : ∀ channelId, ∀ tuple ∈ ledger channelId, tuple.jobId ≠ jobId) :
    Credits jobIds' channelIds (channels.modify channelId f) ledger pushes' := by
  have hget : ∀ id channel', (channels.modify channelId f).get? id = some channel' →
      ∃ channel, channels.get? id = some channel ∧
        (channel' = channel ∨ Enters jobId channel channel') := by
    intro id channel' hchannel'
    rw [OrdMap.get?_modify] at hchannel'
    obtain ⟨channel, hchannel, rfl⟩ := Option.map_eq_some_iff.mp hchannel'
    refine ⟨channel, hchannel, ?_⟩
    split
    · rename_i hid
      subst hid
      exact Or.inr (hf channel hchannel)
    · exact Or.inl rfl
  have hages := h.ages hjobIds le_rfl (fun id channel' hchannel' => ⟨channel', hchannel', .refl _⟩)
    (fun _ => List.Subperm.refl _) hpushes
  refine ⟨hages.nodup, hages.nodupPushes, ?_, ?_, ?_, hages.pushBelow, ?_, hages.tupleBelow,
    hages.tupleNew, ?_⟩
  · intro id channel' hchannel'
    obtain ⟨channel, hchannel, -⟩ := hget id channel' hchannel'
    exact h.channelBelow id channel hchannel
  · intro id channel' hchannel'
    obtain ⟨channel, hchannel, rfl | henters⟩ := hget id channel' hchannel'
    · exact h.typed id channel' hchannel
    · exact henters.typed (h.typed id channel hchannel)
  · intro id channel' hchannel' known hknown
    obtain ⟨channel, hchannel, rfl | henters⟩ := hget id channel' hchannel'
    · exact hages.knownBelow id channel' hchannel known hknown
    · rcases henters.knows known hknown with rfl | hknown
      · exact hjobId
      · exact hages.knownBelow id channel hchannel known hknown
  · intro id channel' hchannel' known hknown
    obtain ⟨channel, hchannel, rfl | henters⟩ := hget id channel' hchannel'
    · exact hages.pushNew id channel' hchannel known hknown
    · rcases henters.knows known hknown with rfl | hknown
      · exact hjobId'
      · exact hages.pushNew id channel hchannel known hknown
  · intro id channel' hchannel' tuple htuple
    obtain ⟨channel, hchannel, rfl | henters⟩ := hget id channel' hchannel'
    · exact h.remembered id channel' hchannel tuple htuple
    · rw [henters.hashes, henters.isOpen]
      rcases h.remembered id channel hchannel tuple htuple with hkey | hdead | hclosed
      · exact Or.inl hkey
      · exact Or.inr (Or.inl (henters.dead _ (htuples id tuple htuple) hdead))
      · exact Or.inr (Or.inr hclosed)

/-- A share is accepted: its channel has not seen the tuple, so that no equal one was credited. -/
theorem accepts (h : Credits jobIds channelIds channels ledger pushes) {host : Externals}
    {jobs : StratumV1JobsService} {channelId : ℕ} {channel : ChannelState} {tuple : ShareTuple}
    {share : AcceptedShare} (hfound : channels.get? channelId = some channel)
    (hopen : channel.isOpen = true)
    (hfresh : tuple.submissionKey ∉ channel.miningSubmissionHashes)
    (hroom : channel.miningSubmissionHashes.length < 10000)
    (haccepts : AcceptsTuple host jobs channelId channel tuple share)
    {ledger' : ℕ → List ShareTuple}
    (hledger : ∀ id, (ledger' id).Subperm
      ((if channelId = id then [tuple] else []) ++ ledger id)) :
    Credits jobIds channelIds
      (channels.modify channelId (ChannelState.remember · tuple.submissionKey)) ledger' pushes := by
  obtain ⟨hlive, hknows, -, -⟩ := not_dead_of_acceptsTuple haccepts
  have hnew : tuple ∉ ledger channelId := by
    intro htuple
    rcases h.remembered channelId channel hfound tuple htuple with hkey | hdead | hclosed
    · exact hfresh hkey
    · exact hlive hdead
    · rw [hopen] at hclosed
      cases hclosed
  have hmem : ∀ id, ∀ tuple' ∈ ledger' id, id = channelId ∧ tuple' = tuple ∨
      tuple' ∈ ledger id := by
    intro id tuple' htuple'
    have := (hledger id).subset htuple'
    rw [List.mem_append] at this
    rcases this with hone | hold
    · split at hone
      · rename_i hid
        exact Or.inl ⟨hid.symm, List.mem_singleton.mp hone⟩
      · cases hone
    · exact Or.inr hold
  have hbefore := h.ages le_rfl le_rfl (channelsVia_remember hfound hroom tuple.submissionKey)
    (fun _ => List.Subperm.refl _) (List.Subperm.refl _)
  refine ⟨?_, hbefore.nodupPushes, hbefore.channelBelow, hbefore.typed, hbefore.knownBelow,
    hbefore.pushBelow, hbefore.pushNew, ?_, ?_, ?_⟩
  · intro id
    obtain ⟨l, hperm, hsub⟩ := hledger id
    refine hperm.nodup_iff.mp (List.Nodup.sublist hsub ?_)
    split
    · rename_i hid
      subst hid
      exact List.nodup_cons.mpr ⟨hnew, h.nodup channelId⟩
    · exact h.nodup id
  · intro id tuple' htuple'
    rcases hmem id tuple' htuple' with ⟨rfl, rfl⟩ | hold
    · exact ⟨h.channelBelow id channel hfound, h.knownBelow id channel hfound _ hknows⟩
    · exact h.tupleBelow id tuple' hold
  · intro id tuple' htuple'
    rcases hmem id tuple' htuple' with ⟨rfl, rfl⟩ | hold
    · exact h.pushNew id channel hfound _ hknows
    · exact h.tupleNew id tuple' hold
  · intro id channel' hchannel' tuple' htuple'
    rcases hmem id tuple' htuple' with ⟨rfl, rfl⟩ | hold
    · -- the tuple itself has just been remembered
      rw [OrdMap.get?_modify] at hchannel'
      obtain ⟨before, hbefore', rfl⟩ := Option.map_eq_some_iff.mp hchannel'
      rw [hfound] at hbefore'
      cases hbefore'
      rw [if_pos rfl]
      exact Or.inl (ages_remember hroom).2
    · exact hbefore.remembered id channel' hchannel' tuple' hold

/-- A handler begins to send a job under the next id. -/
theorem begins (h : Credits jobIds channelIds channels ledger pushes) :
    Credits (jobIds + 1) channelIds channels ledger (pushes ++ [jobIds]) := by
  have hbelow : ∀ jobId ∈ pushes ++ [jobIds], jobId ∈ pushes ∨ jobId = jobIds := by
    intro jobId hjobId
    rwa [List.mem_append, List.mem_singleton] at hjobId
  refine ⟨h.nodup, ?_, h.channelBelow, h.typed, ?_, ?_, ?_, ?_, ?_, h.remembered⟩
  · rw [List.nodup_append]
    refine ⟨h.nodupPushes, List.nodup_singleton _, ?_⟩
    rintro jobId hjobId _ hnew rfl
    rw [List.mem_singleton] at hnew
    exact absurd (h.pushBelow jobId hjobId) (by omega)
  · intro channelId channel hchannel jobId hknows
    have := h.knownBelow channelId channel hchannel jobId hknows
    omega
  · intro jobId hjobId
    rcases hbelow jobId hjobId with hold | rfl
    · have := h.pushBelow jobId hold
      omega
    · omega
  · intro channelId channel hchannel jobId hknows hjobId
    rcases hbelow jobId hjobId with hold | rfl
    · exact h.pushNew channelId channel hchannel jobId hknows hold
    · exact absurd (h.knownBelow channelId channel hchannel _ hknows) (by omega)
  · intro channelId tuple htuple
    obtain ⟨hchannelId, hjobId⟩ := h.tupleBelow channelId tuple htuple
    exact ⟨hchannelId, by omega⟩
  · intro channelId tuple htuple hjobId
    rcases hbelow _ hjobId with hold | hnew
    · exact h.tupleNew channelId tuple htuple hold
    · have := (h.tupleBelow channelId tuple htuple).2
      omega

end Credits

/-! ### One turn -/

/-- The tuple of a share on a channel. -/
def tupleOn (channelId : ℕ) (share : AcceptedShare) : Option ShareTuple :=
  if share.channelId = channelId then some share.tuple else none

/-- The tuple on a channel that a handler is about to credit. -/
def shareOn (channelId : ℕ) (wait : Wait) : Option ShareTuple :=
  wait.share?.bind (tupleOn channelId)

/-- The extended job that a handler is sending. -/
def pushId (wait : Wait) : Option ℕ := wait.push?.map ExtendedPush.jobId

/-- The tuple on a channel that an event credits. -/
def eventTuple (channelId : ℕ) : Sv2Event → Option ShareTuple
  | .shareRecorded _ share => tupleOn channelId share
  | _ => none

/-- The ledger of a connection while a handler is taken up: what was credited, what the handler
carries and what the others carry. -/
def takenLedger (credited : ℕ → List ShareTuple) (handled : Handled) (taken : StratumV2Client)
    (channelId : ℕ) : List ShareTuple :=
  credited channelId ++ ((Handled.carried? (shareOn channelId) handled).toList
    ++ carried (shareOn channelId) taken)

/-- The jobs being sent while a handler is taken up. -/
def takenPushes (handled : Handled) (taken : StratumV2Client) : List ℕ :=
  (Handled.carried? pushId handled).toList ++ carried pushId taken

/-- The ledger of a connection after a turn. -/
def turnLedger (credited : ℕ → List ShareTuple) (turn : Turn) (channelId : ℕ) :
    List ShareTuple :=
  credited channelId ++ (turn.events.filterMap (eventTuple channelId)
    ++ (carried (shareOn channelId) turn.context.client
      ++ (Next.carried? (shareOn channelId) turn.next).toList))

/-- The jobs being sent after a turn. -/
def turnPushes (turn : Turn) : List ℕ :=
  carried pushId turn.context.client ++ (Next.carried? pushId turn.next).toList

section
variable {host : Externals} {config : Sv2Config} {env : TurnEnv} {context : Context}
  {handled : Handled} {credited : ℕ → List ShareTuple}

theorem filterMap_eventTuple_eq_nil {channelId : ℕ} {events : List Sv2Event}
    (h : ∀ event ∈ events, ∀ record share, event ≠ .shareRecorded record share) :
    events.filterMap (eventTuple channelId) = [] := by
  rw [List.filterMap_eq_nil_iff]
  intro event hevent
  cases event with
  | shareRecorded record share => exact absurd rfl (h _ hevent record share)
  | _ => rfl

variable {turn : Turn} {channel : ChannelState}

/-- A turn that credits nothing and goes on without a share leaves the ledger, or drops the share
it took up. -/
theorem turnLedger_of_plain (hcarries : CarriesOn context.client turn.context.client)
    (hevents : ∀ event ∈ turn.events, ∀ record share, event ≠ .shareRecorded record share)
    (hnext : Next.carried? Wait.share? turn.next = none) (channelId : ℕ) :
    (turnLedger credited turn channelId).Subperm
      (takenLedger credited handled context.client channelId) := by
  have hshare : Next.carried? (shareOn channelId) turn.next = none := by
    cases hwaits : turn.next with
    | waits wait =>
      rw [hwaits] at hnext
      show wait.share?.bind (tupleOn channelId) = none
      rw [show wait.share? = none from hnext, Option.bind_none]
    | _ => rfl
  simp only [turnLedger, takenLedger, filterMap_eventTuple_eq_nil hevents, hshare,
    hcarries _ (shareOn channelId) rfl fun _ => rfl, Option.toList_none, List.nil_append,
    List.append_nil]
  exact (List.Sublist.append_left (List.sublist_append_right _ _) _).subperm

/-- The jobs being sent after a turn that neither ends nor begins to send one. -/
theorem turnPushes_of_plain (hcarries : CarriesOn context.client turn.context.client)
    (hnext : Next.carried? Wait.push? turn.next = none) :
    turnPushes turn = carried pushId context.client := by
  have hpush : Next.carried? pushId turn.next = none := by
    cases hwaits : turn.next with
    | waits wait =>
      rw [hwaits] at hnext
      show wait.push?.map ExtendedPush.jobId = none
      rw [show wait.push? = none from hnext, Option.map_none]
    | _ => rfl
  rw [turnPushes, hpush, hcarries _ pushId rfl fun _ => rfl, Option.toList_none, List.append_nil]

theorem push?_of_share? {wait : Wait} {share : AcceptedShare} (h : wait.share? = some share) :
    wait.push? = none := by
  cases wait with
  | extendedJobFrame => cases h
  | _ => rfl

/-- A turn that takes a job it is sending no further drops it. -/
theorem turnPushes_subperm (hcarries : CarriesOn context.client turn.context.client)
    (hnext : Next.carried? Wait.push? turn.next = none) :
    (turnPushes turn).Subperm (takenPushes handled context.client) := by
  rw [turnPushes_of_plain hcarries hnext]
  exact (List.sublist_append_right _ _).subperm

theorem enters_setStandardJob {jobId : ℕ} {merkleRoot : Digest}
    (htype : channel.channelType = .standard) :
    Credits.Enters jobId channel (channel.setStandardJob jobId merkleRoot) where
  knows id h := by
    by_cases hid : id = jobId
    · exact Or.inl hid
    · simp only [Knows, ChannelState.setStandardJob, if_neg hid] at h
      exact Or.inr h
  dead id hid h := by
    simpa only [Dead, ChannelState.setStandardJob, if_neg hid] using h
  isOpen := rfl
  typed _ h := by
    rw [ChannelState.setStandardJob, htype] at h
    cases h
  hashes := rfl

theorem enters_setExtendedJob {jobId : ℕ} {data : ExtendedJobData} :
    Credits.Enters jobId channel (channel.setExtendedJob jobId data) where
  knows id h := by
    by_cases hid : id = jobId
    · exact Or.inl hid
    · simp only [Knows, ChannelState.setExtendedJob, if_neg hid] at h
      exact Or.inr h
  dead id hid h := by
    simpa only [Dead, ChannelState.setExtendedJob, if_neg hid] using h
  isOpen := rfl
  typed := id
  hashes := rfl

theorem enters_finishPush {push : ExtendedPush} :
    Credits.Enters push.jobId channel (finishPush push channel) := by
  have h : Credits.Enters push.jobId channel
      (channel.setExtendedJob push.jobId (pushedJob channel push)) := enters_setExtendedJob
  exact ⟨h.knows, h.dead, rfl, id, rfl⟩

/-- A template that reaches a connection ages its channels, and no handler begins to carry a
share or a job. -/
theorem Cleared.ages {channel' : ChannelState} (h : Cleared channel channel') :
    Ages channel channel' := by
  rcases h with hkeeps | ⟨now, rfl⟩
  · exact hkeeps.ages
  · exact ages_clearJobs channel now

theorem channelsVia_onTemplate (client : StratumV2Client) (jobTemplate : JobTemplate)
    (now : ℕ) : ChannelsVia Ages client.channels (client.onTemplate jobTemplate now).channels := by
  show ChannelsVia Ages client.channels (client.clearChannels jobTemplate now).channels
  unfold StratumV2Client.clearChannels
  split
  · intro id channel' hchannel'
    rw [OrdMap.get?_mapValues] at hchannel'
    obtain ⟨channel, hchannel, rfl⟩ := Option.map_eq_some_iff.mp hchannel'
    refine ⟨channel, hchannel, ?_⟩
    split
    · exact ages_clearJobs channel now
    · exact Ages.refl channel
  · exact fun _ channel' hchannel' => ⟨channel', hchannel', .refl _⟩

/-- The submission that a turn takes up, if its channel has not seen it: the id of the channel,
the channel and the tuple. -/
def freshSubmission? (taken : StratumV2Client) : Handled → Option (ℕ × ChannelState × ShareTuple)
  | .frame message => (submitted? taken message).filter fun submitted =>
      submitted.2.2.submissionKey ∉ submitted.2.1.miningSubmissionHashes
  | .wait _ => none

theorem Fresh.freshSubmission?_eq {channelId : ℕ} {tuple : ShareTuple}
    (h : Fresh context handled channelId channel tuple) :
    freshSubmission? context.client handled = some (channelId, channel, tuple) := by
  obtain ⟨message, rfl, hsubmitted⟩ := h.submitted
  rw [freshSubmission?, hsubmitted, Option.filter_some, if_pos (by simpa using h.fresh)]

theorem channelsVia_subscribing (client : StratumV2Client) (latestTemplate : Option JobTemplate)
    (now : ℕ) :
    ChannelsVia Ages client.channels (subscribing client latestTemplate now).channels := by
  cases latestTemplate with
  | none => exact fun _ channel hchannel => ⟨channel, hchannel, .refl channel⟩
  | some jobTemplate =>
    exact channelsVia_onTemplate
      { client with stratumSubscription := true, difficultyTimer := true } jobTemplate now

/-- One turn keeps the invariant, as long as a new submission finds room. -/
theorem credits_turn (hturn : TurnCase host config env context handled turn)
    (hroom : ∀ submitted ∈ freshSubmission? context.client handled,
      submitted.2.1.miningSubmissionHashes.length < 10000)
    (h : Credits context.jobs.latestJobId context.stratumV2Service.channelIdCounter
      context.client.channels (takenLedger credited handled context.client)
      (takenPushes handled context.client)) :
    Credits turn.context.jobs.latestJobId turn.context.stratumV2Service.channelIdCounter
      turn.context.client.channels (turnLedger credited turn) (turnPushes turn) := by
  have hsame (channels : OrdMap ℕ ChannelState) : ChannelsVia Ages channels channels :=
    fun _ channel hchannel => ⟨channel, hchannel, .refl channel⟩
  -- the id of a new job is on no channel and in no handler
  have hid := nextJobId_eq context
  have hnew : context.nextJobId ∉ takenPushes handled context.client := by
    intro hmem
    exact absurd (h.pushBelow _ hmem) (by rw [hid]; exact Nat.lt_irrefl _)
  have hunnamed : ∀ channelId, ∀ tuple ∈ takenLedger credited handled context.client channelId,
      tuple.jobId ≠ context.nextJobId := by
    intro channelId tuple htuple heq
    have hbelow := (h.tupleBelow channelId tuple htuple).2
    omega
  have hnext : context.nextJobId < context.jobs.latestJobId + 1 := by omega
  have hcarries := hturn.carriesOn
  cases hturn with
  | @quiet context' events next hquiet _ hevents hnext =>
    refine h.ages (by rw [hquiet.jobs]) hquiet.counter ?_
      (turnLedger_of_plain hcarries (not_recorded_of_isFrame hevents)
        (carried?_eq_none hnext.share))
      (turnPushes_subperm hcarries (carried?_eq_none hnext.push))
    intro id channel' hchannel'
    obtain ⟨channel, hchannel, hkeeps⟩ := hquiet.channels id channel' hchannel'
    exact ⟨channel, hchannel, hkeeps.ages⟩
  | @opens context' channel requestId hopens =>
    have hopened := h.opens hopens.new
    rw [← hopens.channels, ← hopens.counter, ← hopens.jobs] at hopened
    exact hopened.ages le_rfl le_rfl (hsame _)
      (turnLedger_of_plain hcarries (fun _ h => nomatch h) rfl) (turnPushes_subperm hcarries rfl)
  | subscribes hhandled hselection hsubscription =>
    -- the latest template is handed over at once, and may clear jobs
    rw [afterJob_subscribes hselection hsubscription] at hcarries ⊢
    exact h.ages le_rfl le_rfl (channelsVia_subscribing _ _ _)
      (turnLedger_of_plain hcarries (fun _ h => nomatch h) rfl) (turnPushes_subperm hcarries rfl)
  | addsJob hsends hjob =>
    exact h.ages (Nat.le_succ _) le_rfl (hsame _)
      (turnLedger_of_plain hcarries (fun _ h => nomatch h) rfl) (turnPushes_subperm hcarries rfl)
  | @sendsStandard channelId channel _ _ _ _ job coinbase events hsends htype hjob hcoinbase
      hevents =>
    have henters : ∀ channel', context.client.channels.get? channelId = some channel' →
        Credits.Enters context.nextJobId channel'
          (channel'.setStandardJob context.nextJobId (job.blockMerkleRoot host coinbase)) := by
      intro channel' hchannel'
      rw [hsends.found] at hchannel'
      cases hchannel'
      exact enters_setStandardJob htype
    exact (h.enters henters (Nat.le_succ _) hnext (List.Subperm.refl _) hnew hunnamed).ages
      le_rfl le_rfl (hsame _)
      (turnLedger_of_plain hcarries (not_recorded_of_isFrame hevents) rfl)
      (turnPushes_subperm hcarries rfl)
  | @beginsExtended channelId channel _ jobTemplate sendPrevHash after job events hsends htype
      hjob hevents =>
    refine (h.begins.ages le_rfl le_rfl (hsame _)
      (turnLedger_of_plain hcarries (not_recorded_of_isFrame hevents) rfl) ?_)
    show (carried pushId context.client ++ [context.nextJobId]).Subperm _
    rw [hid]
    exact (List.Sublist.append_right (List.sublist_append_right _ _) _).subperm
  | @finishes channelId push after hhandled =>
    subst hhandled
    -- the job leaves the handler and enters the channel
    have hpushes : takenPushes (.wait (.extendedJobFrame channelId push after)) context.client
        = push.jobId :: carried pushId context.client := rfl
    rw [hpushes] at h
    have hevents := not_recorded_of_isFrame
      (isFrame_finishExtendedJob context channelId push after)
    refine (h.enters (fun _ _ => enters_finishPush) le_rfl (h.pushBelow _ List.mem_cons_self)
      (List.sublist_cons_self _ _).subperm (List.nodup_cons.mp h.nodupPushes).1 ?_).ages
      le_rfl le_rfl (hsame _) (turnLedger_of_plain hcarries hevents rfl) ?_
    · intro id tuple htuple heq
      exact h.tupleNew id tuple htuple (heq ▸ List.mem_cons_self)
    · rw [turnPushes_of_plain hcarries rfl]
  | @installs message jobTemplate _ _ job split events hhandled hlatest hchannel haddress
      hvalid hjob hevents =>
    exact (h.enters (fun _ _ => enters_setExtendedJob) (Nat.le_succ _) hnext
      (List.Subperm.refl _) hnew hunnamed).ages le_rfl le_rfl (hsame _)
      (turnLedger_of_plain hcarries (not_recorded_of_isFrame hevents) rfl)
      (turnPushes_subperm hcarries rfl)
  | @remembers channelId channel tuple events next hfresh hevents hnext =>
    have hlength := hroom _ hfresh.freshSubmission?_eq
    have hplain {α : Type} (f : Wait → Option α) (hf : f (.reply false) = none) :
        Next.carried? f next = none := by
      rcases hnext with rfl | rfl
      · rfl
      · exact hf
    exact h.ages le_rfl le_rfl (channelsVia_remember hfresh.found hlength _)
      (turnLedger_of_plain hcarries (not_recorded_of_isFrame hevents) (hplain _ rfl))
      (turnPushes_subperm hcarries (hplain _ rfl))
  | @accepts channelId channel tuple share events hfresh haccepts hevents =>
    have hlength := hroom _ hfresh.freshSubmission?_eq
    obtain ⟨-, -, htuple, hchannelId⟩ := not_dead_of_acceptsTuple haccepts
    refine (h.accepts hfresh.found hfresh.isOpen hfresh.fresh hlength haccepts ?_).ages
      le_rfl le_rfl (hsame _) (fun _ => List.Subperm.refl _) (turnPushes_subperm hcarries rfl)
    intro id
    obtain ⟨message, rfl, -⟩ := hfresh.submitted
    have hshare : (Next.carried? (shareOn id) (.waits (.shareReply share))).toList
        = if channelId = id then [tuple] else [] := by
      show (tupleOn id share).toList = _
      rw [tupleOn, hchannelId, htuple]
      split <;> rfl
    have hledger : turnLedger credited
        { context := remembering context channelId tuple, events
          next := .waits (.shareReply share) } id
        = credited id ++ carried (shareOn id) context.client
          ++ if channelId = id then [tuple] else [] := by
      rw [turnLedger, filterMap_eventTuple_eq_nil (not_recorded_of_isFrame hevents), hshare,
        List.nil_append, ← List.append_assoc]
      rfl
    rw [hledger]
    exact List.perm_append_comm.subperm
  | @carries share wait wait' events hhandled hshare hshare' _ hevents =>
    subst hhandled
    refine h.ages le_rfl le_rfl (hsame _) (fun id => ?_) ?_
    · -- the share goes from the handler to the point where it waits again
      have htaken : Handled.carried? (shareOn id) (.wait wait) = tupleOn id share := by
        show wait.share?.bind (tupleOn id) = _
        rw [hshare, Option.bind_some]
      have hleft : Next.carried? (shareOn id) (.waits wait') = tupleOn id share := by
        show wait'.share?.bind (tupleOn id) = _
        rw [hshare', Option.bind_some]
      rw [turnLedger, takenLedger, htaken, hleft, filterMap_eventTuple_eq_nil hevents,
        List.nil_append]
      exact (List.perm_append_comm.append_left _).subperm
    · exact turnPushes_subperm hcarries (push?_of_share? hshare')
  | @records share wait blockSubmissionResult hhandled hshare =>
    subst hhandled
    refine h.ages le_rfl le_rfl (hsame _) (fun id => ?_) (turnPushes_subperm hcarries rfl)
    have htaken : Handled.carried? (shareOn id) (.wait wait) = tupleOn id share := by
      show wait.share?.bind (tupleOn id) = _
      rw [hshare, Option.bind_some]
    have hevents : (context.recordShare share blockSubmissionResult).events.filterMap
        (eventTuple id) = (tupleOn id share).toList := by
      cases htuple : tupleOn id share <;> simp [recordShare, eventTuple, htuple]
    have hnext : Next.carried? (shareOn id) (context.recordShare share blockSubmissionResult).next
        = none := rfl
    rw [turnLedger, takenLedger, htaken, hevents, hnext, Option.toList_none, List.append_nil]
    exact List.Subperm.refl _

end

/-! ### Runs -/

/-- The tuples that a connection is credited with on a channel. -/
def creditedTuples (id channelId : ℕ) (history : List Sv2Output) : List ShareTuple :=
  history.filterMap fun
    | .client id' event => if id' = id then eventTuple channelId event else none
    | .published _ => none

/-- The new submission that an input brings to a connection. -/
def submissionTo? (world : Sv2World) (id : ℕ) (input : Sv2Input) :
    Option (ℕ × ChannelState × ShareTuple) :=
  (handledBy? world id input).bind fun taken => freshSubmission? taken.1 taken.2

/-- A new submission on the connection meets a set that has room for it. -/
def FindsRoom (id : ℕ) (world : Sv2World) (_ : List Sv2Output) (input : Sv2Input) : Prop :=
  ∀ submitted ∈ submissionTo? world id input,
    submitted.2.1.miningSubmissionHashes.length < 10000

instance (id : ℕ) (world : Sv2World) (history : List Sv2Output) (input : Sv2Input) :
    Decidable (FindsRoom id world history input) :=
  inferInstanceAs (Decidable (∀ _ ∈ _, _))

/-- The invariant of a connection in a run. -/
structure TupleInv (id : ℕ) (world : Sv2World) (history : List Sv2Output) : Prop where
  absent : world.clients id = none → ∀ channelId, creditedTuples id channelId history = []
  present : ∀ client, world.clients id = some client →
    Credits world.jobs.latestJobId world.stratumV2Service.channelIdCounter client.channels
      (fun channelId => creditedTuples id channelId history ++ carried (shareOn channelId) client)
      (carried pushId client)

section
variable {host : Externals} {config : Sv2Config} {id : ℕ} {world : Sv2World}
  {history : List Sv2Output}

theorem creditedTuples_append (id channelId : ℕ) (history more : List Sv2Output) :
    creditedTuples id channelId (history ++ more)
      = creditedTuples id channelId history ++ creditedTuples id channelId more :=
  List.filterMap_append

theorem creditedTuples_map (id channelId : ℕ) (events : List Sv2Event) :
    creditedTuples id channelId (events.map (.client id))
      = events.filterMap (eventTuple channelId) := by
  rw [creditedTuples, List.filterMap_map]
  simp only [Function.comp_def, if_true]

theorem creditedTuples_eq_nil (channelId : ℕ) {events : List Sv2Output}
    (h : ∀ event, .client id event ∉ events) : creditedTuples id channelId events = [] := by
  rw [creditedTuples, List.filterMap_eq_nil_iff]
  intro output houtput
  cases output with
  | published => rfl
  | client id' event =>
    refine if_neg ?_
    rintro rfl
    exact h event houtput

theorem ChannelsVia.ages {channels channels' : OrdMap ℕ ChannelState}
    (h : ChannelsVia Keeps channels channels') : ChannelsVia Ages channels channels' := by
  intro id channel' hchannel'
  obtain ⟨channel, hchannel, hkeeps⟩ := h id channel' hchannel'
  exact ⟨channel, hchannel, hkeeps.ages⟩

variable {client taken : StratumV2Client} {handled : Handled}

/-- The tasks of a connection do not matter to a submission. -/
theorem freshSubmission?_congr (h : taken = { client with tasks := taken.tasks }) :
    freshSubmission? taken handled = freshSubmission? client handled := by
  rw [h]
  cases handled with
  | wait => rfl
  | frame message => cases message <;> rfl

/-- A new submission that is taken up is the one that the input brings. -/
theorem Takes.submission_mem {input : Sv2Input} {origin : Origin} {turn : Turn}
    (h : Takes world input id client taken handled origin)
    (hgoes : GoesOn world input id client handled turn) {submitted : ℕ × ChannelState × ShareTuple}
    (hmem : submitted ∈ freshSubmission? taken handled) :
    submitted ∈ submissionTo? world id input := by
  rw [freshSubmission?_congr h.taken_eq] at hmem
  rcases hgoes with heq | ⟨wait, rfl, -⟩
  · rwa [submissionTo?, heq, Option.bind_some]
  · cases hmem

/-- One step of the service keeps the invariant of a connection. -/
theorem tupleInv_step (h : TupleInv id world history) (input : Sv2Input)
    (hroom : FindsRoom id world history input) :
    TupleInv id (sv2Step host config world input).1
      (history ++ (sv2Step host config world input).2) := by
  have hcase := sv2Step_cases host config world input
  generalize sv2Step host config world input = step at hcase ⊢
  obtain ⟨world', events⟩ := step
  have hjobs := hcase.jobsGrow.1.counter
  have hcounter := hcase.counter_le
  have hcredited (hevents : ∀ event, .client id event ∉ events) (channelId : ℕ) :
      creditedTuples id channelId (history ++ events) = creditedTuples id channelId history := by
    rw [creditedTuples_append, creditedTuples_eq_nil channelId hevents, List.append_nil]
  cases hcase.client_cases id with
  | absent hbefore hafter hevents =>
    constructor
    · intro _ channelId
      rw [hcredited hevents]
      exact h.absent hbefore channelId
    · intro client hsome
      cases hafter.symm.trans hsome
  | connects hbefore hafter hevents =>
    constructor
    · intro hnone
      cases hafter.symm.trans hnone
    · intro client hsome
      cases hafter.symm.trans hsome
      simp only [hcredited hevents, h.absent hbefore]
      exact Credits.empty
  | @moves client client' hbefore hafter hmoves hevents =>
    constructor
    · intro hnone
      cases hafter.symm.trans hnone
    · intro client'' hsome
      cases hafter.symm.trans hsome
      refine (h.present client hbefore).ages hjobs hcounter ?_ ?_ ?_
      · intro channelId channel' hchannel'
        obtain ⟨channel, hchannel, hcleared⟩ := hmoves.channels channelId channel' hchannel'
        exact ⟨channel, hchannel, hcleared.ages⟩
      · intro channelId
        rw [hcredited hevents, hmoves.carries _ (shareOn channelId) rfl fun _ => rfl]
      · rw [hmoves.carries _ pushId rfl fun _ => rfl]
  | @turns client taken handled origin env turn htakes hturn hgoes hworld hevents =>
    have hclient := htakes.client_eq
    subst hworld hevents
    have hchannelsEq : taken.channels = client.channels := by rw [htakes.taken_eq]
    have htaken : Credits world.jobs.latestJobId world.stratumV2Service.channelIdCounter
        taken.channels (takenLedger (creditedTuples id · history) handled taken)
        (takenPushes handled taken) := by
      refine (h.present client hclient).ages le_rfl le_rfl ?_ ?_ ?_
      · intro channelId channel hchannel
        exact ⟨channel, hchannelsEq ▸ hchannel, .refl channel⟩
      · intro channelId
        exact ((htakes.carried_perm rfl rfl).symm.append_left _).subperm
      · exact (htakes.carried_perm rfl rfl).symm.subperm
    have hturned := credits_turn hturn
      (fun submitted hmem => hroom submitted (htakes.submission_mem hgoes hmem)) htaken
    obtain ⟨hjobs', hcounter', hchannels'⟩ := quiet_endTurn origin turn
    constructor
    · intro hnone
      cases (clients_update_self id _).symm.trans hnone
    · intro client' hsome
      cases (clients_update_self id _).symm.trans hsome
      refine hturned.ages (congrArg StratumV1JobsService.latestJobId hjobs').ge hcounter'
        hchannels'.ages ?_ ?_
      · intro channelId
        rw [creditedTuples_append, creditedTuples_map, carried_endTurn rfl, turnLedger,
          List.append_assoc]
      · rw [carried_endTurn rfl, turnPushes]

/-- No double credit. In every run in which no new submission of the connection meets a set that
is full, every tuple is credited at most once on its channel. -/
theorem credited_tuples_nodup (host : Externals) (config : Sv2Config) (id : ℕ)
    (inputs : List Sv2Input)
    (hroom : (sv2Machine host config).Along (FindsRoom id) .initial [] inputs)
    (channelId : ℕ) :
    (creditedTuples id channelId ((sv2Machine host config).history .initial inputs)).Nodup := by
  have hstart : TupleInv id .initial [] := by
    constructor
    · exact fun _ _ => rfl
    · intro client hclient
      cases hclient
  have hstep : ∀ world history input, TupleInv id world history →
      FindsRoom id world history input →
      TupleInv id ((sv2Machine host config).step world input).1
        (history ++ ((sv2Machine host config).step world input).2) :=
    fun _ _ input h hroom => tupleInv_step h input hroom
  have hinv := (sv2Machine host config).history_invariant hstep hstart hroom
  rw [List.nil_append] at hinv
  cases hclient : ((sv2Machine host config).final .initial inputs).clients id with
  | none =>
    rw [hinv.absent hclient]
    exact List.nodup_nil
  | some client => exact ((hinv.present client hclient).nodup channelId).of_append_left

end

/-! ### Flooding a channel -/

section
variable {host : Externals} {config : Sv2Config} {id : ℕ} {world : Sv2World}

/-- The world with one channel of a connection changed. -/
def withChannel (world : Sv2World) (id channelId : ℕ) (f : ChannelState → ChannelState) :
    Sv2World :=
  { world with
    clients := fun id' =>
      if id' = id then (world.clients id).map (·.modifyChannel channelId f)
      else world.clients id' }

/-- A chunk with one frame, whose handler replies. -/
def oneFrame (id : ℕ) (message : Sv2Message) (env : TurnEnv) : List Sv2Input :=
  [.data id [message], .resume id 0 env, .resume id 0 env]

theorem sv2Step_resume {client : StratumV2Client} (hclient : world.clients id = some client)
    {k : ℕ} {task : Task} (htask : client.tasks[k]? = some task) (env : TurnEnv) :
    (sv2Step host config world (.resume id k env)).1
      = world.update id ((world.context (client.dropTask k)).runTask host config env task).1 := by
  simp only [sv2Step, hclient, htask]

variable {channel : ChannelState} {channelId : ℕ}

variable {env : TurnEnv} {keys hashes : List (List Char)} {jobId : ℕ}

/-- A submission that names no job is refused, but its channel remembers it. -/
theorem final_unknown_job {client : StratumV2Client} (hclient : world.clients id = some client)
    (htasks : client.tasks = []) (halive : client.destroyed = false)
    {submission : Sv2SubmitSharesStandard}
    (hchannel : client.openChannel? submission.channelId.toNat = some channel)
    (hroot : channel.jobIdToMerkleRoot submission.jobId.toNat = none)
    (hfresh : submission.tuple.submissionKey ∉ channel.miningSubmissionHashes)
    (henv : env.failed = false) :
    (sv2Machine host config).final world (oneFrame id (.submitSharesStandard submission) env)
      = withChannel world id submission.channelId.toNat
          (ChannelState.remember · submission.tuple.submissionKey) := by
  have hverdict : judgeStandard host world.jobs submission.channelId.toNat channel
      submission.tuple = .rejected "invalid-job-id" := by
    unfold judgeStandard
    rw [show channel.jobIdToMerkleRoot submission.tuple.jobId = none from hroot]
    split
    · rename_i h
      cases h
    · rfl
  let received := client.receive [.submitSharesStandard submission]
  let remembered := client.modifyChannel submission.channelId.toNat
    (ChannelState.remember · submission.tuple.submissionKey)
  let replying := { remembered with tasks := [{ wait := .reply false, origin := .socket [] }] }
  have hreceived : received =
      { client with
        tasks := [{ wait := .nextFrame, origin := .socket [.submitSharesStandard submission] }] } := by
    simp [received, StratumV2Client.receive, halive, htasks]
  have hclientEq : ({ client with tasks := [] } : StratumV2Client) = client := by
    rw [← htasks]
  -- the chunk arrives
  have hdata : (sv2Step host config world (.data id [.submitSharesStandard submission])).1
      = world.update id (world.context received) := by
    simp only [sv2Step, hclient, received]
  -- its frame is refused
  have hframe : ∀ world' : Sv2World, world'.jobs = world.jobs →
      world'.clients id = some received →
      (sv2Step host config world' (.resume id 0 env)).1
        = world'.update id (world'.context replying) := by
    intro world' hjobs hclient'
    have htask : received.tasks[0]?
        = some ⟨.nextFrame, .socket [.submitSharesStandard submission]⟩ := by
      rw [hreceived]
      rfl
    have hdropped : received.dropTask 0 = client := by
      rw [hreceived]
      exact hclientEq
    rw [sv2Step_resume hclient' htask, hdropped]
    congr 1
    simp only [runTask, Task.handled, turn, handleFrame, handleSubmitSharesStandard,
      Sv2World.context, hchannel, hjobs, hverdict, submitShare, if_neg hfresh, answerShare, replies,
      endTurn, closesOn, tasksAfter, Bool.false_eq_true, if_false]
    simp only [StratumV2Client.modifyChannel, htasks, List.nil_append, replying, remembered]
  -- and the handler ends
  have hreply : ∀ world' : Sv2World, world'.clients id = some replying →
      (sv2Step host config world' (.resume id 0 env)).1
        = world'.update id (world'.context remembered) := by
    intro world' hclient'
    rw [sv2Step_resume hclient' rfl]
    congr 1
    simp only [runTask, Task.handled, turn, henv, resume, endTurn, closesOn, tasksAfter,
      Bool.false_eq_true, if_false, Sv2World.context]
    simp only [replying, remembered, StratumV2Client.dropTask, StratumV2Client.modifyChannel,
      htasks, List.eraseIdx_cons_zero, List.append_nil]
  rw [oneFrame, Machine.final_cons, Machine.final_cons, Machine.final_cons, Machine.final_nil]
  simp only [sv2Machine]
  have hframe' := hframe (world.update id (world.context received)) rfl
    (clients_update_self id (world.context received))
  rw [hdata, hframe', hreply _ (clients_update_self id _)]
  simp only [Sv2World.update, Sv2World.context, withChannel, Sv2World.mk.injEq, true_and]
  funext id'
  by_cases hid : id' = id
  · simp only [if_pos hid, hclient, Option.map_some, remembered]
  · simp only [if_neg hid]

/-- A set that does not overflow holds everything. -/
theorem foldl_remember (h : channel.miningSubmissionHashes.length + keys.length ≤ 10000) :
    keys.foldl ChannelState.remember channel
      = { channel with miningSubmissionHashes := channel.miningSubmissionHashes ++ keys } := by
  induction keys generalizing channel with
  | nil => simp
  | cons key keys ih =>
    rw [List.length_cons] at h
    have hroom : ¬ 10000 < (channel.miningSubmissionHashes ++ [key]).length := by
      rw [List.length_append, List.length_singleton]
      omega
    have hremember : channel.remember key
        = { channel with
            miningSubmissionHashes := channel.miningSubmissionHashes ++ [key] } := by
      simp only [ChannelState.remember, if_neg hroom]
    rw [List.foldl_cons, hremember, ih, List.append_assoc]
    · rfl
    · rw [List.length_append, List.length_singleton]
      omega

/-- One key more than it has room for empties a set. -/
theorem foldl_remember_overflow (h : channel.miningSubmissionHashes.length + keys.length = 10000)
    (key : List Char) :
    (keys ++ [key]).foldl ChannelState.remember channel
      = { channel with miningSubmissionHashes := [] } := by
  have hfull : 10000 < (channel.miningSubmissionHashes ++ keys ++ [key]).length := by
    rw [List.length_append, List.length_append, List.length_singleton]
    omega
  rw [List.foldl_append, foldl_remember h.le]
  simp only [List.foldl_cons, List.foldl_nil, ChannelState.remember, if_pos hfull]

theorem withChannel_withChannel (channelId : ℕ) (f g : ChannelState → ChannelState) :
    withChannel (withChannel world id channelId f) id channelId g
      = withChannel world id channelId fun channel => g (f channel) := by
  simp only [withChannel, Sv2World.mk.injEq, true_and, if_true]
  funext id'
  by_cases hid : id' = id
  · simp only [if_pos hid, Option.map_map]
    congr 1
    funext client
    simp only [Function.comp_apply, StratumV2Client.modifyChannel, OrdMap.modify_modify]
  · simp only [if_neg hid]

/-- The channel alone decides what a change of it amounts to. -/
theorem withChannel_congr {f g : ChannelState → ChannelState}
    (h : ∀ client channel, world.clients id = some client →
      client.channels.get? channelId = some channel → f channel = g channel) :
    withChannel world id channelId f = withChannel world id channelId g := by
  simp only [withChannel, Sv2World.mk.injEq, true_and]
  funext id'
  by_cases hid : id' = id
  · simp only [if_pos hid]
    refine Option.map_congr fun client hclient => ?_
    simp only [StratumV2Client.modifyChannel, OrdMap.modify]
    congr 1
    refine OrdMap.mapValues_congr fun entry hentry => ?_
    by_cases hkey : entry.1 = channelId
    · rw [if_pos hkey, if_pos hkey]
      exact h client entry.2 hclient (OrdMap.get?_eq_some_iff.mpr (hkey ▸ hentry))
    · rw [if_neg hkey, if_neg hkey]
  · simp only [if_neg hid]

/-- A connection that waits for frames, with an open channel that holds the given submissions and
no job `jobId`. -/
def Idle (world : Sv2World) (id channelId jobId : ℕ) (hashes : List (List Char)) : Prop :=
  ∃ client channel, world.clients id = some client ∧ client.tasks = [] ∧
    client.destroyed = false ∧ client.openChannel? channelId = some channel ∧
    channel.jobIdToMerkleRoot jobId = none ∧ channel.miningSubmissionHashes = hashes

theorem Idle.remember (h : Idle world id channelId jobId hashes) (key : List Char) :
    Idle (withChannel world id channelId (ChannelState.remember · key)) id channelId jobId
      (if 10000 < (hashes ++ [key]).length then [] else hashes ++ [key]) := by
  obtain ⟨client, channel, hclient, htasks, halive, hchannel, hroot, rfl⟩ := h
  obtain ⟨hfound, hopen⟩ := openChannel?_eq_some hchannel
  refine ⟨client.modifyChannel channelId (ChannelState.remember · key), channel.remember key,
    ?_, htasks, halive, ?_, hroot, rfl⟩
  · simp only [withChannel, if_true, hclient, Option.map_some]
  · rw [StratumV2Client.openChannel?, StratumV2Client.modifyChannel, OrdMap.get?_modify, hfound,
      Option.map_some, if_pos rfl, Option.filter_some, if_pos]
    exact hopen

/-- A chunk for each of a list of submissions. -/
def flood (id : ℕ) (submissions : List Sv2SubmitSharesStandard) (env : TurnEnv) :
    List Sv2Input :=
  submissions.flatMap fun submission => oneFrame id (.submitSharesStandard submission) env

/-- Refused submissions fill the set of their channel. -/
theorem final_flood (henv : env.failed = false) {submissions : List Sv2SubmitSharesStandard}
    (hjob : ∀ submission ∈ submissions,
      submission.channelId.toNat = channelId ∧ submission.jobId.toNat = jobId)
    (hidle : Idle world id channelId jobId hashes)
    (hfresh : (hashes ++ submissions.map (·.tuple.submissionKey)).Nodup) :
    (sv2Machine host config).final world (flood id submissions env)
      = withChannel world id channelId fun channel =>
          (submissions.map (·.tuple.submissionKey)).foldl ChannelState.remember channel := by
  induction submissions generalizing world hashes with
  | nil =>
    obtain ⟨client, -, hclient, -⟩ := hidle
    obtain ⟨jobs, stratumV2Service, clients⟩ := world
    simp only [flood, List.flatMap_nil, Machine.final_nil, List.map_nil, List.foldl_nil,
      withChannel, Sv2World.mk.injEq, true_and, StratumV2Client.modifyChannel, OrdMap.modify_id]
    funext id'
    split
    · rename_i hid
      rw [hid, Option.map_id']
    · rfl
  | cons submission submissions ih =>
    obtain ⟨hchannelId, hjobId⟩ := hjob submission List.mem_cons_self
    have hsplit : flood id (submission :: submissions) env
        = oneFrame id (.submitSharesStandard submission) env ++ flood id submissions env := rfl
    have hrest : ∀ s ∈ submissions, s.channelId.toNat = channelId ∧ s.jobId.toNat = jobId :=
      fun s hs => hjob s (List.mem_cons_of_mem _ hs)
    rw [List.map_cons] at hfresh
    have hnew : submission.tuple.submissionKey ∉ hashes := by
      intro hmem
      exact (List.nodup_append.mp hfresh).2.2 _ hmem _ List.mem_cons_self rfl
    have hclient := hidle
    obtain ⟨client, channel, hclient, htasks, halive, hchannel, hroot, hhashes⟩ := hclient
    rw [hsplit, Machine.final_append, final_unknown_job hclient htasks halive
      (hchannelId ▸ hchannel) (hjobId ▸ hroot) (hhashes ▸ hnew) henv, hchannelId,
      ih hrest (hidle.remember _) ?_, withChannel_withChannel]
    · rfl
    · -- the set was emptied or holds one key more
      split
      · exact hfresh.of_append_right.of_cons
      · rwa [List.append_assoc]

end

namespace Sv2Sample

/-- Every header hashes to `2 ^ 200`: enough for a share of the first difficulty, not for a block
at the difficulty of `template`. -/
def host : Externals :=
  Externals.reference (fun _ => Digest.ofNat (2 ^ 200))
    [("A", 0x00 :: 0x14 :: List.replicate 20 1), ("B", 0x00 :: 0x14 :: List.replicate 20 2)]

def config : Sv2Config where
  network := .mainnet
  startDifficulty := 1
  minimumDifficulty := none
  targetSharesPerMinute := 2

/-- A template on a previous block. -/
def template (prevHash : UInt8) (clearJobs : Bool) : JobTemplate where
  block :=
    { version := 0x20000000
      prevHash := List.replicate 32 prevHash
      bits := 0x17034219
      timestamp := 1700000000
      witnessCommit := List.replicate 32 9
      transactions := [] }
  merkleBranch := []
  blockData :=
    { id := ""
      creation := 0
      coinbasevalue := 5000000000
      networkDifficulty := calculateNetworkDifficulty 0x17034219
      height := 800000
      clearJobs
      payoutSnapshotId := none
      payoutOutputs := none
      transactions := []
      sigoplimit := none
      sizelimit := none
      weightlimit := none }

/-- All calls succeed. -/
def env : TurnEnv where
  failed := false
  result := none
  now := 1700000000005
  random := (1, 2)
  declaredJob := none

/-- The first task of connection 0 goes on, again and again. -/
def turns (n : ℕ) : List Sv2Input := List.replicate n (.resume 0 0 env)

/-- Connection 0 opens a standard channel as `A`. -/
def openStandard : Sv2Message :=
  .openStandardMiningChannel
    { requestId := 1, userIdentity := "A.rig", nominalHashRate := none,
      maxTarget := List.replicate 32 0xff }

/-- A submission on channel 1. -/
def submission (jobId nonce : ℕ) : Sv2SubmitSharesStandard where
  channelId := 1
  sequenceNumber := 0
  jobId := UInt32.ofNat jobId
  nonce := UInt32.ofNat nonce
  ntime := 1700000000
  version := 0x20000000

/-- The channel is opened and credited with a share on job 2. -/
def credited : List Sv2Input :=
  [.connect 0 "s" .solo, .template (template 7 true) 1700000000000, .data 0 [openStandard]]
    ++ turns 14 ++ oneFrame 0 (.submitSharesStandard (submission 2 5)) env ++ turns 4

/-- Ten thousand submissions on a job that does not exist. -/
def junk : List Sv2Input := flood 0 ((List.range 10000).map (submission 0)) env

/-- The credited share once more. -/
def replay : List Sv2Input := oneFrame 0 (.submitSharesStandard (submission 2 5)) env ++ turns 4

theorem submissionKey_junk (nonce : ℕ) :
    (submission 0 nonce).tuple.submissionKey
      = ['0', ':'] ++ (Nat.toDigits 10 (UInt32.ofNat nonce).toNat
        ++ [':', '1', '7', '0', '0', '0', '0', '0', '0', '0', '0', ':',
          '5', '3', '6', '8', '7', '0', '9', '1', '2']) := by
  simp only [ShareTuple.submissionKey, Sv2SubmitSharesStandard.tuple, submission, List.map_cons,
    List.map_nil, Option.toList_none, List.append_nil, Js.join, Js.toString10]
  rfl

/-- The flood brings ten thousand different keys, none of which is that of the credited share. -/
theorem nodup_junk :
    ([(submission 2 5).tuple.submissionKey]
      ++ ((List.range 10000).map (submission 0)).map (·.tuple.submissionKey)).Nodup := by
  rw [List.map_map, List.nodup_append]
  refine ⟨List.nodup_singleton _, ?_, ?_⟩
  · refine List.Nodup.map_on ?_ List.nodup_range
    intro n hn m hm heq
    rw [List.mem_range] at hn hm
    simp only [Function.comp_apply, submissionKey_junk] at heq
    have hdigits := List.append_cancel_right (List.append_cancel_left heq)
    have hnonce := congrArg (Nat.ofDigitChars 10 · 0) hdigits
    simp only [Nat.ofDigitChars_ten_toDigits, UInt32.toNat_ofNat'] at hnonce
    omega
  · rintro _ hone key hkey rfl
    obtain ⟨nonce, -, hnonce⟩ := List.mem_map.mp hkey
    rw [List.mem_singleton] at hone
    rw [hone, Function.comp_apply, submissionKey_junk] at hnonce
    have hhead := congrArg List.head? hnonce
    rw [List.cons_append, List.head?_cons] at hhead
    revert hhead
    decide +kernel

end Sv2Sample

open Sv2Sample in
/-- Ten thousand refused submissions empty the set, and the credited share is credited again while
its job is live. -/
theorem not_credited_tuples_nodup_flood :
    ¬ (creditedTuples 0 1 ((sv2Machine host config).history .initial
        (credited ++ junk ++ replay))).Nodup ∧
      ((((sv2Machine host config).final .initial (credited ++ junk ++ replay)).clients 0).any
        fun client => (client.openChannel? 1).any fun channel =>
          (channel.jobIdToMerkleRoot 2).isSome) = true := by
  have hidle : Idle ((sv2Machine host config).final .initial credited) 0 1 0
      [(submission 2 5).tuple.submissionKey] := by
    have hcheck : ((((sv2Machine host config).final .initial credited).clients 0).any fun client =>
        client.tasks.isEmpty && !client.destroyed && (client.openChannel? 1).any fun channel =>
          (channel.jobIdToMerkleRoot 0).isNone &&
            channel.miningSubmissionHashes == [(submission 2 5).tuple.submissionKey]) = true := by
      decide +kernel
    obtain ⟨client, hclient, hrest⟩ := (Option.any_eq_true _ _).mp hcheck
    simp only [Bool.and_eq_true, List.isEmpty_iff, Bool.not_eq_true'] at hrest
    obtain ⟨⟨htasks, halive⟩, hany⟩ := hrest
    obtain ⟨channel, hchannel, hrest⟩ := (Option.any_eq_true _ _).mp hany
    simp only [Bool.and_eq_true, Option.isNone_iff_eq_none, beq_iff_eq] at hrest
    exact ⟨client, channel, hclient, htasks, halive, hchannel, hrest⟩
  have hjobs : ∀ s ∈ (List.range 10000).map (submission 0),
      s.channelId.toNat = 1 ∧ s.jobId.toNat = 0 := by
    intro s hs
    obtain ⟨nonce, -, rfl⟩ := List.mem_map.mp hs
    exact ⟨rfl, rfl⟩
  -- the flood leaves the channel with no submission at all
  have hflood : (sv2Machine host config).final .initial (credited ++ junk)
      = withChannel ((sv2Machine host config).final .initial credited) 0 1 fun channel =>
          { channel with miningSubmissionHashes := [] } := by
    rw [Machine.final_append, junk, final_flood rfl hjobs hidle nodup_junk]
    refine withChannel_congr fun client channel hclient hchannel => ?_
    obtain ⟨client', channel', hclient', -, -, hchannel', -, hhashes⟩ := hidle
    cases hclient.symm.trans hclient'
    cases hchannel.symm.trans (openChannel?_eq_some hchannel').1
    rw [List.range_succ, List.map_append, List.map_append]
    refine foldl_remember_overflow ?_ _
    rw [hhashes, List.length_map, List.length_map, List.length_range]
    rfl
  have hfirst : (submission 2 5).tuple
      ∈ creditedTuples 0 1 ((sv2Machine host config).history .initial credited) := by
    decide +kernel
  have hreplay : (submission 2 5).tuple ∈ creditedTuples 0 1 ((sv2Machine host config).history
        (withChannel ((sv2Machine host config).final .initial credited) 0 1 fun channel =>
          { channel with miningSubmissionHashes := [] }) replay) ∧
      ((((sv2Machine host config).final
        (withChannel ((sv2Machine host config).final .initial credited) 0 1 fun channel =>
          { channel with miningSubmissionHashes := [] }) replay).clients 0).any
        fun client => (client.openChannel? 1).any fun channel =>
          (channel.jobIdToMerkleRoot 2).isSome) = true := by
    decide +kernel
  rw [← hflood] at hreplay
  rw [Machine.final_append _ _ (credited ++ junk) replay,
    Machine.history_append _ _ (credited ++ junk) replay, Machine.history_append _ _ credited junk,
    creditedTuples_append, creditedTuples_append]
  refine ⟨fun hnodup => ?_, hreplay.2⟩
  exact (List.nodup_append.mp hnodup).2.2 _ (List.mem_append_left _ hfirst) _ hreplay.1 rfl

theorem credited_tuples_nodup_sample :
    (creditedTuples 0 1 ((sv2Machine Sv2Sample.host Sv2Sample.config).history .initial
      (Sv2Sample.credited ++ Sv2Sample.replay))).Nodup :=
  credited_tuples_nodup Sv2Sample.host Sv2Sample.config 0
    (Sv2Sample.credited ++ Sv2Sample.replay) (by decide +kernel) 1

end PublicPool.Proofs
