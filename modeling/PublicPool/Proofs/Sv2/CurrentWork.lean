import PublicPool.Proofs.Sv2.FoundBlock

/-!
# `PublicPool.Proofs.Sv2.CurrentWork`: credited work is current work

The templates in force are those published since the last one that clears jobs, that one
included. A standard share is hashed over a template of the jobs service, which keeps no other.
An extended share takes the previous block and the bits of its job, and nothing compares them
with a template when the share is judged: `credited_current` needs that they were in force when
the job was entered, and that a template which clears jobs finds every connection with such jobs
subscribed.

The two halves of the condition fail in different ways. A custom job is entered with any previous
block (`not_credited_current_bogus`), and a connection with work selection has no subscription,
so that its custom jobs outlive their block (`not_credited_current_stale`).
-/

set_option autoImplicit false

namespace PublicPool.Proofs

open Lib (OrdMap Machine)
open Sv2
open Sv2.Context

/-! ### The templates in force -/

/-- The templates in force after one more event. -/
def supersede (templates : List JobTemplate) : Sv2Output → List JobTemplate
  | .published template =>
    if template.blockData.clearJobs then [template] else templates ++ [template]
  | .client _ _ => templates

/-- The templates that no later template with `clearJobs` has superseded. -/
def currentTemplates (history : List Sv2Output) : List JobTemplate :=
  history.foldl supersede []

/-- A previous block and bits of a template in force. -/
def Current (history : List Sv2Output) (prevHash : Bytes) (nBits : ℤ) : Prop :=
  ∃ template ∈ currentTemplates history,
    prevHash = template.block.prevHash ∧ nBits = template.block.bits

instance (history : List Sv2Output) (prevHash : Bytes) (nBits : ℤ) :
    Decidable (Current history prevHash nBits) :=
  inferInstanceAs (Decidable (∃ _ ∈ _, _))

/-- A header with the previous block and the bits of a template in force. -/
def HashedOver (history : List Sv2Output) (header : Bytes) : Prop :=
  ∃ template ∈ currentTemplates history, ∃ merkleRoot version timestamp nonce,
    header = (headerFieldsOf template.block.prevHash merkleRoot version timestamp
      template.block.bits nonce).bytes

theorem currentTemplates_append (history more : List Sv2Output) :
    currentTemplates (history ++ more) = more.foldl supersede (currentTemplates history) :=
  List.foldl_append

/-- Events of connections supersede nothing. -/
theorem currentTemplates_client (history : List Sv2Output) (id : ℕ) (events : List Sv2Event) :
    currentTemplates (history ++ events.map (.client id)) = currentTemplates history := by
  rw [currentTemplates_append]
  induction events with
  | nil => rfl
  | cons event events ih => exact ih

theorem currentTemplates_published (history : List Sv2Output) (template : JobTemplate) :
    currentTemplates (history ++ [.published template])
      = if template.blockData.clearJobs then [template]
        else currentTemplates history ++ [template] := by
  rw [currentTemplates_append]
  rfl

/-- The share that an input makes the pool accept on a connection. -/
def acceptedBy? (host : Externals) (world : Sv2World) (id : ℕ) (input : Sv2Input) :
    Option AcceptedShare :=
  (submissionTo? world id input).bind fun submitted =>
    match verdictOn host world.jobs submitted.1 submitted.2.1 submitted.2.2 with
    | .accepted share _ => some share
    | _ => none

/-- A share that was accepted in a run, when its header was hashed over a template in force. -/
def AcceptedCurrent (host : Externals) (config : Sv2Config) (id : ℕ) (inputs : List Sv2Input)
    (share : AcceptedShare) : Prop :=
  ∃ before input rest, inputs = before ++ input :: rest ∧
    acceptedBy? host ((sv2Machine host config).final .initial before) id input = some share ∧
    HashedOver ((sv2Machine host config).history .initial before) share.header

/-! ### The conditions -/

section
variable (host : Externals) (config : Sv2Config)

instance (context : Context) (message : Sv2SetCustomMiningJob) (jobTemplate : JobTemplate)
    (channel : ChannelState) (address : String) :
    Decidable (ValidatesCustomJob host config context message jobTemplate channel address) :=
  inferInstanceAs (Decidable (_ = some none))

/-- The previous block and bits of the custom job that a handler enters into an open channel. -/
def enteredCustomJob? (context : Context) (message : Sv2SetCustomMiningJob) :
    Option (Bytes × ℤ) :=
  context.jobs.latestTemplate.bind fun jobTemplate =>
    (context.client.openChannel? message.channelId.toNat).bind fun channel =>
      context.client.address.bind fun address =>
        if ValidatesCustomJob host config context message jobTemplate channel address then
          some (message.prevHash, (message.nBits.toNat : ℤ))
        else none

/-- The previous block and bits of the extended job that a handler enters into an open channel. -/
def enteredJob? (context : Context) : Handled → Option (Bytes × ℤ)
  | .wait (.extendedJobFrame channelId push _) =>
    (context.client.openChannel? channelId).map fun channel =>
      ((pushedJob channel push).prevHash, (pushedJob channel push).nBits)
  | .wait (.customTemplate message) => enteredCustomJob? host config context message
  | _ => none

/-- The extended jobs that are entered on the connection are on a template in force. -/
def EntersCurrent (id : ℕ) (world : Sv2World) (history : List Sv2Output) (input : Sv2Input) :
    Prop :=
  ∀ taken ∈ handledBy? world id input,
    ∀ entered ∈ enteredJob? host config (world.context taken.1) taken.2,
      Current history entered.1 entered.2

instance (id : ℕ) (world : Sv2World) (history : List Sv2Output) (input : Sv2Input) :
    Decidable (EntersCurrent host config id world history input) :=
  inferInstanceAs (Decidable (∀ _ ∈ _, ∀ _ ∈ _, _))

end

/-- A template that clears jobs finds the connection subscribed, or with no live extended job on
another block. -/
def ClearsSubscribed (id : ℕ) (world : Sv2World) (_ : List Sv2Output) (input : Sv2Input) : Prop :=
  ∀ template now, input = .template template now → template.blockData.clearJobs = true →
    ∀ client, world.clients id = some client → client.stratumSubscription = false →
      ∀ channelId channel, client.openChannel? channelId = some channel →
        channel.channelType = .extended →
          ∀ jobId job, channel.extendedJobs jobId = some job → job.retiredAt = none →
            job.prevHash = template.block.prevHash ∧ job.nBits = template.block.bits

/-! ### The invariant -/

/-- The live jobs of an open extended channel are on a template in force. -/
def LiveCurrent (history : List Sv2Output) (channel : ChannelState) : Prop :=
  channel.channelType = .extended → channel.isOpen = true →
    ∀ jobId job, channel.extendedJobs jobId = some job → job.retiredAt = none →
      Current history job.prevHash job.nBits

/-- The invariant of a connection in a run with the given inputs. -/
structure CurrentInv (host : Externals) (config : Sv2Config) (id : ℕ) (inputs : List Sv2Input)
    (world : Sv2World) (history : List Sv2Output) : Prop where
  blocks : ∀ templateId template, world.jobs.blocks templateId = some template →
    template ∈ currentTemplates history
  channels : ∀ client, world.clients id = some client → EveryChannel (LiveCurrent history) client
  shares : ∀ client, world.clients id = some client →
    EveryShare (AcceptedCurrent host config id inputs) client
  recorded : ∀ record share, .client id (.shareRecorded record share) ∈ history →
    AcceptedCurrent host config id inputs share

section
variable {host : Externals} {config : Sv2Config} {id : ℕ} {world : Sv2World}
  {history history' : List Sv2Output}

theorem Current.mono (hmono : ∀ template ∈ currentTemplates history,
      template ∈ currentTemplates history') {prevHash : Bytes} {nBits : ℤ}
    (h : Current history prevHash nBits) : Current history' prevHash nBits := by
  obtain ⟨template, hmem, heq⟩ := h
  exact ⟨template, hmono template hmem, heq⟩

variable {channel : ChannelState} {inputs : List Sv2Input} {share : AcceptedShare}
  {handled : Handled} {turn : Turn} {channelId : ℕ} {tuple : ShareTuple} {input : Sv2Input}
  {client : StratumV2Client} {data : JobTemplate}

theorem LiveCurrent.forgets (hmono : ∀ template ∈ currentTemplates history,
      template ∈ currentTemplates history') {channel' : ChannelState}
    (h : LiveCurrent history channel) (hforgets : Forgets channel channel') :
    LiveCurrent history' channel' := by
  intro htype hopen jobId job' hjob' hlive
  obtain ⟨job, retiredAt, hjob, rfl, hretired⟩ := hforgets.extendedJobs jobId job' hjob'
  have hlive' : job.retiredAt = none := by
    cases hold : job.retiredAt with
    | none => rfl
    | some time =>
      have hsome := hretired (by rw [hold]; rfl)
      rw [show retiredAt = none from hlive] at hsome
      cases hsome
  exact (h (hforgets.channelType ▸ htype) (hforgets.isOpen hopen) jobId job hjob hlive').mono hmono

/-- A channel whose new job is on a template in force. -/
theorem liveCurrent_setExtendedJob (h : LiveCurrent history channel) (jobId : ℕ)
    {data : ExtendedJobData}
    (hdata : channel.isOpen = true → Current history data.prevHash data.nBits) :
    LiveCurrent history (channel.setExtendedJob jobId data) := by
  intro htype hopen id job hjob hlive
  simp only [ChannelState.setExtendedJob] at hjob
  split at hjob
  · cases hjob
    exact hdata hopen
  · exact h htype hopen id job hjob hlive

/-- Nothing survives on an open extended channel that is cleared. -/
theorem liveCurrent_clearJobs (channel : ChannelState) (now : ℕ) :
    LiveCurrent history (channel.clearJobs now) := by
  intro htype hopen jobId job hjob hlive
  unfold ChannelState.clearJobs at htype hjob
  split at hjob
  · obtain ⟨hretired, -⟩ := Option.filter_eq_some_iff.mp hjob
    obtain ⟨before, -, rfl⟩ := Option.map_eq_some_iff.mp hretired
    cases hlive
  · rename_i hstandard
    rw [hstandard] at htype
    cases htype

/-- A share accepted earlier in a run was accepted in the longer run. -/
theorem AcceptedCurrent.append (h : AcceptedCurrent host config id inputs share)
    (more : List Sv2Input) : AcceptedCurrent host config id (inputs ++ more) share := by
  obtain ⟨before, input, rest, rfl, haccepted, hheader⟩ := h
  exact ⟨before, input, rest ++ more, by simp, haccepted, hheader⟩

/-! ### One turn -/

/-- A turn keeps the live jobs current, if the job that it enters is. -/
theorem liveCurrent_turn {env : TurnEnv} {context : Context}
    (hturn : TurnCase host config env context handled turn)
    (henters : turn.next ≠ .throws → ∀ entered ∈ enteredJob? host config context handled,
      Current history entered.1 entered.2) (h : EveryChannel (LiveCurrent history) context.client) :
    EveryChannel (LiveCurrent history) turn.context.client := by
  refine channels_turn hturn h (fun _ _ hP hforgets => hP.forgets (fun _ hmem => hmem) hforgets)
    ?_ ?_
  · intro channel hnew _ _ jobId job hjob _
    rw [hnew.extendedJobs] at hjob
    cases hjob
  · intro channel channel' hP hnext hgives
    have henters := henters hnext
    generalize turn.context.jobs = jobs' at hgives
    cases hgives with
    | standard => exact hP
    | @extended channelId push _ _ hhandled hfound =>
      subst hhandled
      refine liveCurrent_setExtendedJob hP push.jobId fun hopen => henters
        ((pushedJob channel push).prevHash, (pushedJob channel push).nBits) ?_
      rw [enteredJob?, StratumV2Client.openChannel?, hfound, Option.filter_some, if_pos hopen]
      rfl
    | @custom message jobTemplate _ address job _ hhandled hlatest hfound haddress hvalid =>
      subst hhandled
      refine liveCurrent_setExtendedJob hP _ fun hopen => henters
        (message.prevHash, (message.nBits.toNat : ℤ)) ?_
      simp only [enteredJob?, enteredCustomJob?, hlatest, Option.bind_some,
        StratumV2Client.openChannel?, hfound, Option.filter_some, hopen, if_true, haddress,
        if_pos hvalid]
      rfl

/-- The header of a share that is accepted on a sound channel is hashed over a template in
force. -/
theorem hashedOver_of_acceptsTuple {jobs : StratumV1JobsService}
    (hblocks : ∀ templateId template, jobs.blocks templateId = some template →
      template ∈ currentTemplates history) (hlive : LiveCurrent history channel)
    (hopen : channel.isOpen = true)
    (haccepts : AcceptsTuple host jobs channelId channel tuple share) :
    HashedOver history share.header := by
  obtain ⟨sum, hstandard | ⟨extranonce, htype, hextended⟩⟩ := haccepts.cases
  · obtain ⟨job, merkleRoot, jobTemplate, -, -, htemplate, hheader, -⟩ :=
      judgeStandard_eq_accepted hstandard
    exact ⟨jobTemplate, hblocks _ _ htemplate, merkleRoot, _, _, _,
      (buildHeader_eq_some hheader).symm⟩
  · obtain ⟨job, merkleRoot, coinbaseTxBytes, hjob, hretired, hheader, -⟩ :=
      judgeExtended_eq_accepted hextended
    obtain ⟨template, hmem, hprevHash, hnBits⟩ := hlive htype hopen _ job hjob hretired
    rw [hprevHash, hnBits] at hheader
    exact ⟨template, hmem, merkleRoot, _, _, _, (buildHeader_eq_some hheader).symm⟩

/-- A share that a turn accepts is the one that the input makes the pool accept. -/
theorem acceptedBy?_of_fresh {taken : StratumV2Client} {origin : Origin}
    (htakes : Takes world input id client taken handled origin)
    (hgoes : GoesOn world input id client handled turn)
    (hfresh : Fresh (world.context taken) handled channelId channel tuple)
    (haccepts : AcceptsTuple host world.jobs channelId channel tuple share) :
    acceptedBy? host world id input = some share := by
  have hsubmission := htakes.submission_mem hgoes hfresh.freshSubmission?_eq
  obtain ⟨sum, hverdict, -⟩ := haccepts
  rw [acceptedBy?, Option.mem_def.mp hsubmission, Option.bind_some]
  simp only [hverdict]

/-! ### One step -/

/-- A step that publishes nothing leaves the templates as they are. -/
theorem StepCase.keeps_templates {world' : Sv2World} {events : List Sv2Output}
    (h : StepCase host config world input world' events) (history : List Sv2Output)
    (hinput : ∀ template now, input ≠ .template template now) :
    currentTemplates (history ++ events) = currentTemplates history ∧
      world'.jobs.blocks = world.jobs.blocks := by
  cases h with
  | idle | connects | receives => exact ⟨currentTemplates_client history 0 [], rfl⟩
  | @closes id client hclient =>
    refine ⟨currentTemplates_client history 0 [], ?_⟩
    show (world.context client).closeSocket.jobs.blocks = world.jobs.blocks
    rw [(quiet_closeSocket (world.context client)).1.jobs]
    rfl
  | publishes heq => exact absurd heq (hinput _ _)
  | @turns id client taken handled origin env turn htakes hturn hgoes =>
    refine ⟨currentTemplates_client history id turn.events, ?_⟩
    show (endTurn origin turn).1.jobs.blocks = world.jobs.blocks
    rw [(quiet_endTurn origin turn).1]
    rcases hturn.jobs_cases with heq | ⟨job, -, heq⟩
    · rw [heq]
      rfl
    · rw [heq]
      rfl

/-- A new template is in force, and so are the older ones unless it clears jobs. -/
theorem mem_currentTemplates_published {template : JobTemplate} :
    template ∈ currentTemplates (history ++ [.published data]) ↔
      template = data ∨ data.blockData.clearJobs = false ∧ template ∈ currentTemplates history := by
  rw [currentTemplates_published]
  cases data.blockData.clearJobs with
  | true => simp
  | false => simp [or_comm]

/-- A template reaches a connection: its live jobs are on the templates that are now in force. -/
theorem liveCurrent_receiveTemplate {now : ℕ} (h : EveryChannel (LiveCurrent history) client)
    (hclears : data.blockData.clearJobs = true → client.stratumSubscription = false →
      ∀ channelId channel, client.openChannel? channelId = some channel →
        channel.channelType = .extended →
          ∀ jobId job, channel.extendedJobs jobId = some job → job.retiredAt = none →
            job.prevHash = data.block.prevHash ∧ job.nBits = data.block.bits) :
    EveryChannel (LiveCurrent (history ++ [.published data])) (client.receiveTemplate data now) := by
  cases hclear : data.blockData.clearJobs with
  | false =>
    refine h.via (moves_receiveTemplate client data now).forgets
      fun _ _ hP hforgets => hP.forgets (fun template hmem => ?_) hforgets
    exact mem_currentTemplates_published.mpr (Or.inr ⟨hclear, hmem⟩)
  | true =>
    have hdata : data ∈ currentTemplates (history ++ [.published data]) :=
      mem_currentTemplates_published.mpr (Or.inl rfl)
    cases hsubscribed : client.stratumSubscription with
    | true =>
      -- the subscription's handler clears every open channel
      intro channelId channel' hchannel'
      simp only [StratumV2Client.receiveTemplate, hsubscribed, if_true, StratumV2Client.onTemplate,
        StratumV2Client.clearChannels, hclear, OrdMap.get?_mapValues] at hchannel'
      obtain ⟨channel, hchannel, rfl⟩ := Option.map_eq_some_iff.mp hchannel'
      by_cases hopen : channel.isOpen = true
      · rw [if_pos hopen]
        exact liveCurrent_clearJobs channel now
      · rw [if_neg hopen]
        exact fun _ hopen' => absurd hopen' hopen
    | false =>
      intro channelId channel hchannel htype hopen jobId job hjob hlive
      rw [StratumV2Client.receiveTemplate, hsubscribed, if_neg (by decide)] at hchannel
      refine ⟨data, hdata, hclears hclear hsubscribed channelId channel ?_ htype jobId job hjob
        hlive⟩
      rw [StratumV2Client.openChannel?, hchannel, Option.filter_some, if_pos hopen]

/-- A template keeps the invariant of a connection. -/
theorem currentInv_template (template : JobTemplate) (now : ℕ)
    (h : CurrentInv host config id inputs world history)
    (hclears : ClearsSubscribed id world history (.template template now)) :
    CurrentInv host config id (inputs ++ [.template template now])
      (sv2Step host config world (.template template now)).1
      (history ++ (sv2Step host config world (.template template now)).2) := by
  let data := world.jobs.numberTemplate template now
  have hclients (client' : StratumV2Client) (hclient' : ((world.clients id).map fun client =>
      client.receiveTemplate data now) = some client') :
      ∃ client, world.clients id = some client ∧ client.receiveTemplate data now = client' :=
    Option.map_eq_some_iff.mp hclient'
  constructor
  · intro templateId block hblock
    refine mem_currentTemplates_published.mpr ?_
    simp only [sv2Step, StratumV1JobsService.publish] at hblock
    split at hblock
    · cases hblock
      exact Or.inl rfl
    · split at hblock
      · cases hblock
      · rename_i hclear
        have hold := (Option.filter_eq_some_iff.mp hblock).1
        exact Or.inr ⟨by simpa using hclear, h.blocks templateId block hold⟩
  · intro client' hclient'
    obtain ⟨client, hclient, rfl⟩ := hclients client' hclient'
    exact liveCurrent_receiveTemplate (h.channels client hclient)
      fun hclear => hclears template now rfl hclear client hclient
  · intro client' hclient' share hshare
    obtain ⟨client, hclient, rfl⟩ := hclients client' hclient'
    rw [(moves_receiveTemplate client data now).carries _ _ rfl fun _ => rfl] at hshare
    exact (h.shares client hclient share hshare).append _
  · intro record share hevent
    refine (h.recorded record share ?_).append _
    simpa [sv2Step] using hevent

/-- One step of the service keeps the invariant of a connection. -/
theorem currentInv_step (input : Sv2Input)
    (hworld : world = (sv2Machine host config).final .initial inputs)
    (hhistory : history = (sv2Machine host config).history .initial inputs)
    (h : CurrentInv host config id inputs world history)
    (henters : EntersCurrent host config id world history input)
    (hclears : ClearsSubscribed id world history input) :
    CurrentInv host config id (inputs ++ [input]) (sv2Step host config world input).1
      (history ++ (sv2Step host config world input).2) := by
  by_cases hinput : ∃ template now, input = .template template now
  · obtain ⟨template, now, rfl⟩ := hinput
    exact currentInv_template template now h hclears
  have hcase := sv2Step_cases host config world input
  generalize sv2Step host config world input = step at hcase ⊢
  obtain ⟨world', events⟩ := step
  obtain ⟨hcurrent, hblocks⟩ := hcase.keeps_templates history
    fun template now heq => hinput ⟨template, now, heq⟩
  have hmono : ∀ template ∈ currentTemplates history,
      template ∈ currentTemplates (history ++ events) := by
    rw [hcurrent]
    exact fun _ hmem => hmem
  have hblocks' : ∀ templateId template, world'.jobs.blocks templateId = some template →
      template ∈ currentTemplates (history ++ events) := by
    rw [hblocks, hcurrent]
    exact h.blocks
  have hrecorded (hevents : ∀ event, .client id event ∉ events) (record : AcceptedShareRecord)
      (share : AcceptedShare) (hevent : .client id (.shareRecorded record share) ∈ history ++ events) :
      AcceptedCurrent host config id (inputs ++ [input]) share := by
    rcases List.mem_append.mp hevent with hold | hnew
    · exact (h.recorded record share hold).append _
    · exact absurd hnew (hevents _)
  cases hcase.client_cases id with
  | absent hbefore hafter hevents =>
    refine ⟨hblocks', ?_, ?_, hrecorded hevents⟩
    · intro client hclient
      cases hafter.symm.trans hclient
    · intro client hclient
      cases hafter.symm.trans hclient
  | connects hbefore hafter hevents =>
    refine ⟨hblocks', ?_, ?_, hrecorded hevents⟩
    · intro client hclient channelId channel hchannel
      cases hafter.symm.trans hclient
      cases hchannel
    · intro client hclient share hshare
      cases hafter.symm.trans hclient
      cases hshare
  | @moves client client' hbefore hafter hmoves hevents =>
    refine ⟨hblocks', ?_, ?_, hrecorded hevents⟩
    · intro client'' hclient
      cases hafter.symm.trans hclient
      exact (h.channels client hbefore).via hmoves.forgets
        fun _ _ hP hforgets => hP.forgets hmono hforgets
    · intro client'' hclient share hshare
      cases hafter.symm.trans hclient
      rw [hmoves.carries _ _ rfl fun _ => rfl] at hshare
      exact (h.shares client hbefore share hshare).append _
  | @turns client taken handled origin env turn htakes hturn hgoes heq hevents =>
    subst heq
    have hchannels : EveryChannel (LiveCurrent history) taken := by
      rw [htakes.taken_eq]
      exact h.channels client htakes.client_eq
    have hentered : turn.next ≠ .throws →
        ∀ entered ∈ enteredJob? host config (world.context taken) handled,
          Current history entered.1 entered.2 := by
      intro hnext
      rcases hgoes with htaken | ⟨wait, rfl, rfl | hthrows⟩
      · have hsame : enteredJob? host config (world.context taken) handled
            = enteredJob? host config (world.context client) handled := by
          rw [htakes.taken_eq]
          rfl
        rw [hsame]
        exact henters _ htaken
      · intro entered hmem
        cases hmem
      · exact absurd hthrows hnext
    have hleaves := shares_turn
      (R := AcceptedCurrent host config id (inputs ++ [input])) hturn
      (fun share hshare => (h.shares client htakes.client_eq share
        (htakes.mem_carried rfl rfl (Or.inl hshare))).append _)
      fun channelId channel tuple share _ hfresh haccepts => by
        refine ⟨inputs, input, [], rfl, ?_, ?_⟩
        · rw [← hworld]
          exact acceptedBy?_of_fresh htakes hgoes hfresh haccepts
        · rw [← hhistory]
          exact hashedOver_of_acceptsTuple h.blocks (hchannels channelId channel hfresh.found)
            hfresh.isOpen haccepts
    refine ⟨hblocks', ?_, ?_, ?_⟩
    · intro client' hclient'
      cases (clients_update_self id _).symm.trans hclient'
      exact (liveCurrent_turn hturn hentered hchannels).via
        (quiet_endTurn origin turn).2.2.forgets fun _ _ hP hforgets => hP.forgets hmono hforgets
    · intro client' hclient' share hshare
      cases (clients_update_self id _).symm.trans hclient'
      rcases mem_carried_endTurn hturn origin rfl (fun _ => rfl) hshare with hold | hnew
      · exact (h.shares client htakes.client_eq share
          (htakes.mem_carried rfl rfl (Or.inr hold))).append _
      · exact hleaves.1 share hnew
    · intro record share hevent
      rcases List.mem_append.mp hevent with hold | hnew
      · exact (h.recorded record share hold).append _
      · rw [hevents] at hnew
        obtain ⟨event, hmem, heq⟩ := List.mem_map.mp hnew
        cases heq
        exact hleaves.2 record share hmem

/-- Credited work is current work. In every run in which the extended jobs of the connection are
entered on a template in force, and in which a template that clears jobs finds the connection
subscribed or without live extended jobs on another block, every share that is credited was hashed
over a template in force when it was accepted. -/
theorem credited_current (host : Externals) (config : Sv2Config) (id : ℕ)
    (inputs : List Sv2Input)
    (henters : (sv2Machine host config).Along (EntersCurrent host config id) .initial [] inputs)
    (hclears : (sv2Machine host config).Along (ClearsSubscribed id) .initial [] inputs)
    (record : AcceptedShareRecord) (share : AcceptedShare)
    (hcredited : .client id (.shareRecorded record share)
      ∈ (sv2Machine host config).history .initial inputs) :
    AcceptedCurrent host config id inputs share := by
  have hstart : CurrentInv host config id [] .initial [] := by
    refine ⟨?_, ?_, ?_, ?_⟩
    · intro templateId template htemplate
      cases htemplate
    · intro client hclient
      cases hclient
    · intro client hclient
      cases hclient
    · intro record share hevent
      cases hevent
  have hinv : CurrentInv host config id inputs ((sv2Machine host config).final .initial inputs)
      ((sv2Machine host config).history .initial inputs) :=
    (sv2Machine host config).prefix_invariant hstart
      (fun inputs input h hcond => currentInv_step input rfl rfl h hcond.1 hcond.2)
      (Machine.Along.and _ henters hclears)
  exact hinv.recorded record share hcredited

/-! ### Custom jobs -/

/-- The previous block of a header. -/
def headerPrevHash (header : Bytes) : Bytes := (header.drop 4).take 32

theorem headerPrevHash_bytes (fields : HeaderFields) :
    headerPrevHash fields.bytes = fields.prevHash.bytes := by
  simp only [headerPrevHash, HeaderFields.bytes, List.append_assoc]
  rw [List.drop_left' (length_le32 _), List.take_left' fields.prevHash.length_eq]

/-- The share that a run accepts at one of its inputs, with the templates in force then. -/
def acceptedAt? (host : Externals) (config : Sv2Config) (id : ℕ) (inputs : List Sv2Input) (n : ℕ) :
    Option (AcceptedShare × List JobTemplate) :=
  inputs[n]?.bind fun input =>
    (acceptedBy? host ((sv2Machine host config).final .initial (inputs.take n)) id input).map
      fun share =>
        (share, currentTemplates ((sv2Machine host config).history .initial (inputs.take n)))

/-- A run that accepts no share on a template in force. -/
theorem not_acceptedCurrent
    (h : ∀ n < inputs.length, ∀ accepted ∈ acceptedAt? host config id inputs n,
      ∀ template ∈ accepted.2, headerPrevHash accepted.1.header ≠ fit 32 template.block.prevHash)
    (share : AcceptedShare) : ¬ AcceptedCurrent host config id inputs share := by
  rintro ⟨before, input, rest, rfl, haccepted, template, hmem, _, _, _, _, hheader⟩
  have htake : (before ++ input :: rest).take before.length = before := List.take_left' rfl
  refine h before.length (by simp) (share, _) ?_ template hmem ?_
  · rw [acceptedAt?, List.getElem?_append_right le_rfl, Nat.sub_self, List.getElem?_cons_zero,
      Option.bind_some, htake, haccepted]
    rfl
  · rw [hheader, headerPrevHash_bytes]
    rfl

end

namespace Sv2Sample

/-- Connection 0 negotiates work selection and opens an extended channel. -/
def selecting : List Sv2Input :=
  [.connect 0 "s" .solo, .template (template 7 true) 1700000000000,
      .data 0 [.setupConnection { protocol := 0, minVersion := 2, maxVersion := 2, flags := 2 }]]
    ++ turns 2 ++ [.data 0 [openExtended]] ++ turns 3

/-- A custom job on a previous block. Its coinbase pays the whole reward to `A`. -/
def custom (prevHash : UInt8) : Sv2Message :=
  .setCustomMiningJob
    { channelId := 1, requestId := 1, token := [2], version := 0x20000000,
      prevHash := List.replicate 32 prevHash, minNtime := 1700000000, nBits := 0x17034219,
      coinbaseTxVersion := 2, coinbasePrefix := [], coinbaseTxInputNSequence := 0xffffffff,
      coinbaseTxOutputs := 1 :: TxCodec.putOutput
        { value := 5000000000, script := 0x00 :: 0x14 :: List.replicate 20 1 },
      coinbaseTxLocktime := 0, merklePath := [] }

/-- The registry knows the token of the custom job. -/
def declared : TurnEnv :=
  { env with
    declaredJob := some
      { originalToken := [1], token := [2], userIdentifier := "A",
        job :=
          { requestId := 1, miningJobToken := [1], version := 0x20000000, coinbaseTxPrefix := [],
            coinbaseTxSuffix := [], wtxidList := [] },
        createdAt := 0, templateId := none, template := none, validationMode := .fullTemplate,
        providedTransactions := [] } }

/-- A custom job is entered. -/
def entered (prevHash : UInt8) : List Sv2Input :=
  selecting ++ [.data 0 [custom prevHash], .resume 0 0 declared] ++ turns 2

/-- A share on the custom job is judged, answered and recorded. -/
def shareOnCustom : List Sv2Input := [.data 0 [extendedSubmission 1 1]] ++ turns 3

/-- A share is recorded for connection 0. -/
def isRecord : Sv2Output → Bool
  | .client 0 (.shareRecorded _ _) => true
  | _ => false

theorem exists_recorded (history : List Sv2Output) (h : history.any isRecord = true) :
    ∃ record share, Sv2Output.client 0 (.shareRecorded record share) ∈ history := by
  obtain ⟨output, hmem, hrecord⟩ := List.any_eq_true.mp h
  unfold isRecord at hrecord
  split at hrecord
  · exact ⟨_, _, hmem⟩
  · cases hrecord

end Sv2Sample

open Sv2Sample in
/-- A custom job on a block that is no template's is credited. -/
theorem not_credited_current_bogus :
    ¬ ∀ record share, Sv2Output.client 0 (.shareRecorded record share)
        ∈ (sv2Machine host config).history .initial (entered 9 ++ shareOnCustom) →
      AcceptedCurrent host config 0 (entered 9 ++ shareOnCustom) share := by
  intro h
  obtain ⟨record, share, hmem⟩ := exists_recorded
    ((sv2Machine host config).history .initial (entered 9 ++ shareOnCustom)) (by decide +kernel)
  exact not_acceptedCurrent (by decide +kernel) share (h record share hmem)

open Sv2Sample in
/-- A custom job on a block of a template is credited after a template has cleared the jobs. -/
theorem not_credited_current_stale :
    ¬ ∀ record share, Sv2Output.client 0 (.shareRecorded record share)
        ∈ (sv2Machine host config).history .initial
          (entered 7 ++ [.template (template 8 true) 1700000060000] ++ shareOnCustom) →
      AcceptedCurrent host config 0
        (entered 7 ++ [.template (template 8 true) 1700000060000] ++ shareOnCustom) share := by
  intro h
  obtain ⟨record, share, hmem⟩ := exists_recorded
    ((sv2Machine host config).history .initial
      (entered 7 ++ [.template (template 8 true) 1700000060000] ++ shareOnCustom))
    (by decide +kernel)
  exact not_acceptedCurrent (by decide +kernel) share (h record share hmem)

namespace Sv2Sample

/-- An extended channel is sent a job of a second block, and a share on it is recorded. -/
def renewed : List Sv2Input :=
  opened ++ [.template (template 8 true) 1700000060000] ++ turns 6
    ++ [.data 0 [extendedSubmission 1 3]] ++ turns 3

/-- A connection without a subscription has no channel when a template arrives. -/
def subscribedOrEmpty (world : Sv2World) : Sv2Input → Bool
  | .template _ _ => (world.clients 0).all fun client =>
      client.stratumSubscription || client.channels.entries.isEmpty
  | _ => true

theorem clearsSubscribed_of_check {world : Sv2World} {history : List Sv2Output} {input : Sv2Input}
    (h : subscribedOrEmpty world input = true) : ClearsSubscribed 0 world history input := by
  rintro template now rfl - client hclient hunsubscribed channelId channel hchannel
  simp only [subscribedOrEmpty, hclient, Option.all_some, hunsubscribed, Bool.false_or,
    List.isEmpty_iff] at h
  have hmem := OrdMap.get?_eq_some_iff.mp (openChannel?_eq_some hchannel).1
  rw [h] at hmem
  cases hmem

end Sv2Sample

open Sv2Sample in
theorem credited_current_sample :
    ∃ record share, Sv2Output.client 0 (.shareRecorded record share)
        ∈ (sv2Machine host config).history .initial renewed ∧
      AcceptedCurrent host config 0 renewed share := by
  obtain ⟨record, share, hmem⟩ := exists_recorded
    ((sv2Machine host config).history .initial renewed) (by decide +kernel)
  have hcheck : (sv2Machine host config).Along
      (fun world _ input => subscribedOrEmpty world input = true) .initial [] renewed := by
    decide +kernel
  exact ⟨record, share, hmem, credited_current host config 0 renewed (by decide +kernel)
    (Machine.Along.imp _ (fun _ _ _ h => clearsSubscribed_of_check h) hcheck) record share hmem⟩

end PublicPool.Proofs
