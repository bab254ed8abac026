import PublicPool.Proofs.Sv2.JobFrames

/-!
# `PublicPool.Proofs.Sv2.Submissions`: the submissions that a connection has made

A channel remembers submissions by their keys, and answers `stale-share` to one whose key it
remembers. `submissions` is the log of what a connection has submitted. `seenInv` says that a channel
remembers nothing else, and by `ShareTuple.submissionKey_inj` a key stands for one submission: who
is refused as a repetition has made the same submission on that channel before.
-/

set_option autoImplicit false

namespace PublicPool

namespace Js

theorem append_separator_inj {separator : Char} {part part' rest rest' : List Char}
    (h : separator ∉ part) (h' : separator ∉ part')
    (happend : part ++ separator :: rest = part' ++ separator :: rest') :
    part = part' ∧ rest = rest' := by
  induction part generalizing part' with
  | nil =>
    cases part' with
    | nil => exact ⟨rfl, (List.cons.inj happend).2⟩
    | cons c part' =>
      rw [(List.cons.inj happend).1] at h'
      exact absurd List.mem_cons_self h'
  | cons c part ih =>
    cases part' with
    | nil =>
      rw [(List.cons.inj happend).1] at h
      exact absurd List.mem_cons_self h
    | cons c' part' =>
      obtain ⟨rfl, htail⟩ := List.cons.inj happend
      obtain ⟨rfl, hrest⟩ := ih (List.not_mem_of_not_mem_cons h) (List.not_mem_of_not_mem_cons h')
        htail
      exact ⟨rfl, hrest⟩

/-- Parts without the separator can be told apart in what joins them. -/
theorem join_inj {separator : Char} {parts parts' : List (List Char)}
    (h : ∀ part ∈ parts, separator ∉ part) (h' : ∀ part ∈ parts', separator ∉ part)
    (hne : parts ≠ []) (hne' : parts' ≠ []) (hjoin : join separator parts = join separator parts') :
    parts = parts' := by
  induction parts generalizing parts' with
  | nil => exact absurd rfl hne
  | cons part rest ih =>
    cases parts' with
    | nil => exact absurd rfl hne'
    | cons part' rest' =>
      have hpart := h part List.mem_cons_self
      have hpart' := h' part' List.mem_cons_self
      cases rest with
      | nil =>
        cases rest' with
        | nil => exact congrArg (fun only => [only]) hjoin
        | cons next' more' =>
          refine absurd ?_ hpart
          rw [show part = part' ++ separator :: join separator (next' :: more') from hjoin]
          exact List.mem_append_right _ List.mem_cons_self
      | cons next more =>
        cases rest' with
        | nil =>
          refine absurd ?_ hpart'
          rw [show part' = part ++ separator :: join separator (next :: more) from hjoin.symm]
          exact List.mem_append_right _ List.mem_cons_self
        | cons next' more' =>
          have happend : part ++ separator :: join separator (next :: more)
              = part' ++ separator :: join separator (next' :: more') := hjoin
          obtain ⟨rfl, hrest⟩ := append_separator_inj hpart hpart' happend
          rw [ih (fun p hp => h p (List.mem_cons_of_mem _ hp))
            (fun p hp => h' p (List.mem_cons_of_mem _ hp)) (List.cons_ne_nil _ _)
            (List.cons_ne_nil _ _) hrest]

theorem toString10_inj {m n : ℕ} (h : toString10 m = toString10 n) : m = n := by
  have hread := congrArg (Nat.ofDigitChars 10 · 0) h
  simpa only [toString10, Nat.ofDigitChars_toDigits (by decide : 1 < 10) le_rfl] using hread

theorem toHex_inj {a b : Bytes} (h : toHex a = toHex b) : a = b := by
  rw [← bufferFromHex_toHex a, h, bufferFromHex_toHex]

theorem notMem_toString10 (n : ℕ) : ':' ∉ toString10 n := by
  intro h
  exact absurd (Nat.isDigit_of_mem_toDigits (by decide) le_rfl h) (by decide)

theorem notMem_toHex (b : Bytes) : ':' ∉ toHex b := by
  have hdigit : ∀ n < 16, hexDigit n ≠ ':' := by decide
  intro h
  obtain ⟨x, -, hx⟩ := List.mem_flatMap.mp h
  have hlt : x.toNat < 256 := x.toNat_lt
  rcases List.mem_cons.mp hx with hhi | hlo
  · exact hdigit (x.toNat / 16) (by omega) hhi.symm
  · exact hdigit (x.toNat % 16) (by omega) (List.mem_singleton.mp hlo).symm

end Js

namespace Sv2

/-- The channel and the tuple of a submission. -/
def Sv2Message.submission? : Sv2Message → Option (ℕ × ShareTuple)
  | .submitSharesStandard submission => some (submission.channelId.toNat, submission.tuple)
  | .submitSharesExtended submission => some (submission.channelId.toNat, submission.tuple)
  | _ => none

/-- The submission that is taken up. -/
def Handled.submission? : Handled → Option (ℕ × ShareTuple)
  | .frame message => message.submission?
  | .wait _ => none

/-- A submission is recognized by what it is. -/
theorem ShareTuple.submissionKey_inj {share share' : ShareTuple}
    (h : share.submissionKey = share'.submissionKey) : share = share' := by
  have hparts (share : ShareTuple) : ∀ part ∈
      [share.jobId, share.nonce, share.ntime, share.version].map Js.toString10
        ++ share.extranonce.toList.map Js.toHex, ':' ∉ part := by
    intro part hpart
    rcases List.mem_append.mp hpart with hnumber | hbytes
    · obtain ⟨n, -, rfl⟩ := List.mem_map.mp hnumber
      exact Js.notMem_toString10 n
    · obtain ⟨b, -, rfl⟩ := List.mem_map.mp hbytes
      exact Js.notMem_toHex b
  have heq := Js.join_inj (hparts share) (hparts share') (by simp) (by simp) h
  obtain ⟨jobId, nonce, ntime, version, extranonce⟩ := share
  obtain ⟨jobId', nonce', ntime', version', extranonce'⟩ := share'
  simp only [List.map_cons, List.map_nil, List.cons_append, List.nil_append, List.cons.injEq] at heq
  obtain ⟨hjobId, hnonce, hntime, hversion, hextranonce⟩ := heq
  cases Js.toString10_inj hjobId
  cases Js.toString10_inj hnonce
  cases Js.toString10_inj hntime
  cases Js.toString10_inj hversion
  cases extranonce with
  | none =>
    cases extranonce' with
    | none => rfl
    | some => cases hextranonce
  | some bytes =>
    cases extranonce' with
    | none => cases hextranonce
    | some bytes' =>
      simp only [Option.toList_some, List.map_cons, List.map_nil, List.cons.injEq, and_true]
        at hextranonce
      rw [Js.toHex_inj hextranonce]

end Sv2

end PublicPool

namespace PublicPool.Proofs

open Lib (OrdMap Machine)
open Sv2
open Sv2.Context

/-- The submission that an input brings to a connection. -/
def submissionBy? (world : Sv2World) (id : ℕ) (input : Sv2Input) : Option (ℕ × ShareTuple) :=
  (handledBy? world id input).bind fun taken => taken.2.submission?

/-- The submissions of a connection in a run, oldest first. -/
def submissions (host : Externals) (config : Sv2Config) (id : ℕ) :
    Sv2World → List Sv2Input → List (ℕ × ShareTuple)
  | _, [] => []
  | world, input :: inputs =>
    (submissionBy? world id input).toList
      ++ submissions host config id (sv2Step host config world input).1 inputs

/-- A channel remembers submissions that were made on it. -/
def SeenOn (log : List (ℕ × ShareTuple)) (channelId : ℕ) (channel : ChannelState) : Prop :=
  ∀ key ∈ channel.miningSubmissionHashes,
    ∃ tuple, (channelId, tuple) ∈ log ∧ tuple.submissionKey = key

/-- The invariant of a connection with its log. -/
def SeenInv (id : ℕ) (log : List (ℕ × ShareTuple)) (world : Sv2World) : Prop :=
  ∀ client, world.clients id = some client → ∀ channelId channel,
    client.channels.get? channelId = some channel → SeenOn log channelId channel

section
variable {host : Externals} {config : Sv2Config} {id channelId : ℕ} {world : Sv2World}
  {log : List (ℕ × ShareTuple)} {channel channel' : ChannelState}

theorem SeenOn.mono (h : SeenOn log channelId channel) {log' : List (ℕ × ShareTuple)}
    (hlog : log ⊆ log')
    (hkeys : channel'.miningSubmissionHashes ⊆ channel.miningSubmissionHashes) :
    SeenOn log' channelId channel' := by
  intro key hkey
  obtain ⟨tuple, hmem, hsame⟩ := h key (hkeys hkey)
  exact ⟨tuple, hlog hmem, hsame⟩

theorem hashes_keeps (h : Keeps channel channel') :
    channel'.miningSubmissionHashes ⊆ channel.miningSubmissionHashes := by
  obtain ⟨_, _, _, -, rfl⟩ := h
  exact List.Subset.refl _

theorem hashes_clearJobs (channel : ChannelState) (now : ℕ) :
    (channel.clearJobs now).miningSubmissionHashes ⊆ channel.miningSubmissionHashes := by
  unfold ChannelState.clearJobs
  split
  · exact List.nil_subset _
  · exact List.nil_subset _

theorem hashes_cleared (h : Cleared channel channel') :
    channel'.miningSubmissionHashes ⊆ channel.miningSubmissionHashes := by
  rcases h with hkeeps | ⟨now, rfl⟩
  · exact hashes_keeps hkeeps
  · exact hashes_clearJobs channel now

variable {handled : Handled} {client : StratumV2Client}

/-- A new job leaves the submissions alone. -/
theorem hashes_gives {env : TurnEnv} {context : Context} {jobs : StratumV1JobsService}
    (h : Gives host config env context handled jobs channel channel') :
    channel'.miningSubmissionHashes ⊆ channel.miningSubmissionHashes := by
  cases h with
  | standard | extended | custom => exact List.Subset.refl _

theorem SeenOn.remember (h : SeenOn log channelId channel) (tuple : ShareTuple) :
    SeenOn (log ++ [(channelId, tuple)]) channelId (channel.remember tuple.submissionKey) := by
  intro key hkey
  simp only [ChannelState.remember] at hkey
  split at hkey
  · -- a full set starts over
    cases hkey
  · rcases List.mem_append.mp hkey with hold | hnew
    · obtain ⟨tuple', hmem, hsame⟩ := h key hold
      exact ⟨tuple', List.mem_append_left _ hmem, hsame⟩
    · exact ⟨tuple, List.mem_append_right _ List.mem_cons_self, (List.mem_singleton.mp hnew).symm⟩

theorem submission?_of_submitted? {message : Sv2Message} {tuple : ShareTuple}
    (h : submitted? client message = some (channelId, channel, tuple)) :
    message.submission? = some (channelId, tuple) := by
  cases message with
  | submitSharesStandard submission =>
    obtain ⟨_, -, heq⟩ := Option.map_eq_some_iff.mp h
    cases heq
    rfl
  | submitSharesExtended submission =>
    obtain ⟨_, -, heq⟩ := Option.map_eq_some_iff.mp h
    cases heq
    rfl
  | _ => cases h

/-- What is taken up brings the submission of the input. -/
theorem submissionBy?_of_takes {input : Sv2Input} {taken : StratumV2Client} {origin : Origin}
    (h : Takes world input id client taken handled origin) :
    submissionBy? world id input = handled.submission? := by
  cases h with
  | @task _ k env _ task hclient htask =>
    simp only [submissionBy?, handledBy?, if_true, hclient, htask, Option.bind_some,
      Option.filter_some]
    cases hgoes : goesOn env task.handled.1 with
    | true => rfl
    | false =>
      -- a frame always goes on
      generalize task.handled.1 = handled at hgoes
      cases handled with
      | frame message => cases hgoes
      | wait wait => rfl
  | timer => rfl

/-- A turn adds its submission to what is remembered. -/
theorem SeenOn.turn {env : TurnEnv} {context : Context} {handled : Handled} {turn : Turn}
    (h : ChannelTurn host config env context handled turn channelId channel')
    (hseen : ∀ channel, context.client.channels.get? channelId = some channel →
      SeenOn log channelId channel) :
    SeenOn (log ++ handled.submission?.toList) channelId channel' := by
  have hlog : log ⊆ log ++ handled.submission?.toList := List.subset_append_left _ _
  cases h with
  | keeps hfound hkeeps => exact (hseen _ hfound).mono hlog (hashes_keeps hkeeps)
  | opens hid hnew =>
    intro key hkey
    rw [hnew.hashes] at hkey
    cases hkey
  | clears hfound hreplayed hclear hnext heq =>
    rw [heq]
    exact (hseen _ hfound).mono hlog (hashes_clearJobs _ _)
  | gives hfound hgives =>
    exact (hseen _ hfound).mono hlog (hashes_gives hgives)
  | remembers hfound hfresh heq =>
    obtain ⟨message, rfl, hsubmitted⟩ := hfresh.submitted
    have hsubmission : (Handled.frame message).submission? = _ := submission?_of_submitted? hsubmitted
    rw [heq, hsubmission]
    exact (hseen _ hfound).remember _

/-- A step keeps the invariant, with its submission added to the log. -/
theorem SeenInv.step (h : SeenInv id log world) (input : Sv2Input) :
    SeenInv id (log ++ (submissionBy? world id input).toList)
      (sv2Step host config world input).1 := by
  have hclient := sv2Step_client host config world input id
  generalize sv2Step host config world input = step at hclient ⊢
  obtain ⟨world', events⟩ := step
  intro client' hclient' channelId channel' hchannel'
  cases hclient with
  | absent _ hafter => cases hafter.symm.trans hclient'
  | connects _ hafter =>
    cases hafter.symm.trans hclient'
    cases hchannel'
  | moves hbefore hafter hmoved =>
    cases hafter.symm.trans hclient'
    obtain ⟨channel, hchannel, hcleared⟩ := hmoved.moves.channels channelId channel' hchannel'
    exact (h _ hbefore channelId channel hchannel).mono (List.subset_append_left _ _)
      (hashes_cleared hcleared)
  | @turns client taken handled origin env turn htakes hruns hturn hgoes hworld =>
    subst hworld
    cases (clients_update_self id _).symm.trans hclient'
    rw [submissionBy?_of_takes htakes]
    obtain ⟨-, -, hvia⟩ := quiet_endTurn origin turn
    obtain ⟨channel, hchannel, hkeeps⟩ := hvia channelId channel' hchannel'
    have hseen : ∀ before, (world.context taken).client.channels.get? channelId = some before →
        SeenOn log channelId before := by
      intro before hbefore
      rw [htakes.taken_eq] at hbefore
      exact h client htakes.client_eq channelId before hbefore
    exact (SeenOn.turn (hturn.channelTurn hchannel) hseen).mono (List.Subset.refl _)
      (hashes_keeps hkeeps)

theorem seenInv_run (inputs : List Sv2Input) (h : SeenInv id log world) :
    SeenInv id (log ++ submissions host config id world inputs)
      ((sv2Machine host config).final world inputs) := by
  induction inputs generalizing log world with
  | nil => rwa [submissions, List.append_nil]
  | cons input inputs ih =>
    rw [submissions, ← List.append_assoc]
    exact ih (h.step input)

/-- In every state that is reached, what a channel remembers was submitted on it. -/
theorem seenInv (host : Externals) (config : Sv2Config) (id : ℕ) (inputs : List Sv2Input) :
    SeenInv id (submissions host config id .initial inputs)
      ((sv2Machine host config).final .initial inputs) := by
  have hstart : SeenInv id [] .initial := by
    intro client hclient
    cases hclient
  exact seenInv_run inputs hstart

end

end PublicPool.Proofs
