import PublicPool.Proofs.Sv2.PrefixHolders
import PublicPool.Proofs.Sv2.SoloWork

/-!
# `PublicPool.Proofs.Sv2.Attribution`: under whose name work is booked

A share is recorded, and a block saved, under the address and the worker name that the connection
has at that moment, whichever channel the work came from. The address is the one of every channel of
the connection, since a request that names another one is refused, and in solo mode every job pays
it. The worker name is the one of the last request that found no channel open, and a channel that
is opened beside others does not bring its own: `attributes_iff`.
-/

set_option autoImplicit false

namespace PublicPool.Sv2

/-- The share that a handler records when it goes on, or whose block it saves. -/
def Wait.attributed? : Wait → Option AcceptedShare
  | .shareReply share => if share.block.isNone then some share else none
  | .submitBlock share _ _ | .notifyBlock share _ => some share
  | _ => none

end PublicPool.Sv2

namespace PublicPool.Proofs

open Lib (OrdMap Machine)
open Sv2
open Sv2.Context
open Relation (ReflTransGen)

/-! ### The openings of a run -/

/-- The opening that an input begins on a connection. -/
def openingBy? (host : Externals) (world : Sv2World) (id : ℕ) (input : Sv2Input) : Option Opening :=
  (handledBy? world id input).bind fun taken =>
    (world.context taken.1).handledOpening? host taken.2

/-- The openings of a connection in a run, oldest first. -/
def openings (host : Externals) (config : Sv2Config) (id : ℕ) :
    Sv2World → List Sv2Input → List Opening
  | _, [] => []
  | world, input :: inputs =>
    (openingBy? host world id input).toList
      ++ openings host config id (sv2Step host config world input).1 inputs

/-- The identity with which a channel was opened. -/
def openedAs (opened : List Opening) (channelId : ℕ) : Option UserIdentity :=
  (opened.find? fun opening => opening.channelId = channelId).map Opening.identity

/-- The worker name of the last opening that found no channel open. -/
def workerInForce (opened : List Opening) : String :=
  ((opened.filter Opening.isFirst).getLast?.map fun opening => opening.identity.workerName).getD
    "default"

/-! ### The property and the condition -/

section
variable (host : Externals) (config : Sv2Config) (id : ℕ) (before : List Sv2Input)
  (input : Sv2Input)

/-- What a step after a run records and saves is booked under the identity of the channel that it
came from, and in solo mode every job of a channel pays the address of the channel's identity. -/
structure Attributes : Prop where
  records : ∀ record share, .client id (.shareRecorded record share)
      ∈ (sv2Step host config ((sv2Machine host config).final .initial before) input).2 →
    ∃ identity, openedAs (openings host config id .initial before) share.channelId
        = some identity ∧
      record.address = identity.address ∧ record.clientName = identity.workerName
  blocks : ∀ block, .client id (.blockSaved block)
      ∈ (sv2Step host config ((sv2Machine host config).final .initial before) input).2 →
    ∃ client share coinbase blockHex identity,
      handledBy? ((sv2Machine host config).final .initial before) id input
        = some (client, .wait (.submitBlock share coinbase blockHex)) ∧
      openedAs (openings host config id .initial before) share.channelId = some identity ∧
      block.minerAddress = identity.address ∧ block.worker = identity.workerName
  solo : ∀ client, ((sv2Machine host config).final .initial before).clients id = some client →
    client.payoutMode = .solo → ∀ channelId channel,
      client.channels.get? channelId = some channel →
        ∃ identity, openedAs (openings host config id .initial before) channelId = some identity ∧
          SoloJobs host config.network ((sv2Machine host config).final .initial before).jobs
            identity.address channel

/-- The condition: when a share is recorded or its block saved, the last opening that found no
channel open named the worker that the opening of the share's channel named. -/
def KeepsWorker : Prop :=
  ∀ taken ∈ handledBy? ((sv2Machine host config).final .initial before) id input,
    ∀ share ∈ Handled.carried? Wait.attributed? taken.2,
      ∀ identity ∈ openedAs (openings host config id .initial before) share.channelId,
        identity.workerName = workerInForce (openings host config id .initial before)

instance : Decidable (KeepsWorker host config id before input) :=
  inferInstanceAs (Decidable (∀ _ ∈ _, ∀ _ ∈ _, ∀ _ ∈ _, _))

end

/-! ### Openings -/

section
variable {host : Externals} {config : Sv2Config} {id : ℕ} {log : List Opening}

variable {channelId : ℕ} {context : Context} {handled : Handled}

variable {identity : UserIdentity} {opening : Opening} {env : TurnEnv}

theorem openedAs_append (h : openedAs log channelId = some identity) (new : List Opening) :
    openedAs (log ++ new) channelId = some identity := by
  obtain ⟨opening, hfound, rfl⟩ := Option.map_eq_some_iff.mp h
  rw [openedAs, List.find?_append, hfound]
  rfl

theorem isSome_openedAs_self (opening : Opening) :
    (openedAs (log ++ [opening]) opening.channelId).isSome = true := by
  rw [openedAs, Option.isSome_map, List.find?_isSome]
  exact ⟨opening, List.mem_append_right _ List.mem_cons_self, by simp⟩

theorem mem_of_openedAs (h : openedAs log channelId = some identity) :
    ∃ opening ∈ log, opening.identity = identity := by
  obtain ⟨opening, hfound, rfl⟩ := Option.map_eq_some_iff.mp h
  exact ⟨opening, List.mem_of_find?_eq_some hfound, rfl⟩

/-- Who asks for a channel of a connection with an address names that address. -/
theorem address_of_opening (h : context.handledOpening? host handled = some opening)
    {address : String} (haddress : context.client.address = some address) :
    opening.identity.address = address := by
  cases handled with
  | wait wait => cases h
  | frame message =>
    obtain ⟨request, -, hopening⟩ := Option.bind_eq_some_iff.mp h
    simp only [opening?, openError?, haddress, Option.any_some] at hopening
    split at hopening
    · cases hopening
    · rename_i hnone
      cases hopening
      split at hnone
      · cases hnone
      · split at hnone
        · cases hnone
        · rename_i hsame
          by_contra hne
          exact hsame (decide_eq_true (Ne.symm hne))

theorem isFirst_of_opening (h : context.handledOpening? host handled = some opening) :
    opening.isFirst = context.client.hasNoChannel := by
  cases handled with
  | wait wait => cases h
  | frame message =>
    obtain ⟨request, -, hopening⟩ := Option.bind_eq_some_iff.mp h
    simp only [opening?] at hopening
    split at hopening
    · cases hopening
    · cases hopening
      rfl

/-- A frame that passes the checks of a channel begins an opening under the next number. -/
theorem handledOpening?_of_opens {message : Sv2Message}
    (h : opensStandard host context message = true ∨ opensExtended host context message = true) :
    ∃ opening, context.handledOpening? host (.frame message) = some opening ∧
      opening.channelId = context.stratumV2Service.channelIdCounter := by
  have hpasses {userIdentity : String} {maxTarget : Bytes}
      (hrequest : message.request? = some (userIdentity, maxTarget))
      (hnone : (context.openError? host
        (parseUserIdentity StratumV2Client.normalizeAddress userIdentity).address
          maxTarget).isNone = true) :
      ∃ opening, context.handledOpening? host (.frame message) = some opening ∧
        opening.channelId = context.stratumV2Service.channelIdCounter := by
    simp only [handledOpening?, hrequest, Option.bind_some, opening?,
      Option.isNone_iff_eq_none.mp hnone]
    exact ⟨_, rfl, rfl⟩
  cases message with
  | openStandardMiningChannel message =>
    rcases h with hopens | hopens
    · exact hpasses rfl hopens
    · cases hopens
  | openExtendedMiningChannel message =>
    rcases h with hopens | hopens
    · cases hopens
    · exact hpasses rfl (Bool.and_eq_true_iff.mp hopens).1
  | _ =>
    rcases h with hopens | hopens
    · cases hopens
    · cases hopens

/-- The channels of a holder after an act: the old ones, and the one that the act was asked for. -/
theorem opened_of_act {account : Account} {act : HolderAct}
    (hasked : Asked host env context handled account act)
    (h : ((act.apply account.1 account.2).2.channels.get? channelId).isSome = true) :
    (account.2.channels.get? channelId).isSome = true ∨
      ∃ opening, context.handledOpening? host handled = some opening ∧
        opening.channelId = channelId := by
  have hopens {service : StratumV2Service} {mark : ChannelMark}
      (hservice : service = context.stratumV2Service) {message : Sv2Message}
      (hhandled : handled = .frame message)
      (hpasses : opensStandard host context message = true ∨
        opensExtended host context message = true)
      (hmark : ((account.2.opening service mark).channels.get? channelId).isSome = true) :
      (account.2.channels.get? channelId).isSome = true ∨
        ∃ opening, context.handledOpening? host handled = some opening ∧
          opening.channelId = channelId := by
    subst hservice hhandled
    simp only [Holder.opening, OrdMap.get?_set] at hmark
    split at hmark
    · rename_i hid
      obtain ⟨opening, hopening, hnumber⟩ := handledOpening?_of_opens hpasses
      exact Or.inr ⟨opening, hopening, hnumber.trans hid.symm⟩
    · exact Or.inl hmark
  cases act with
  | takeNumber => exact Or.inl h
  | openStandard random =>
    obtain ⟨rfl, -, message, hhandled, hpasses⟩ := hasked
    exact hopens rfl hhandled (Or.inl hpasses) h
  | openExtended =>
    obtain ⟨rfl, message, hhandled, hpasses⟩ := hasked
    simp only [HolderAct.apply] at h
    split at h
    · exact Or.inl h
    · exact hopens rfl hhandled (Or.inr hpasses) h
  | refuseExtended =>
    simp only [HolderAct.apply] at h
    split at h
    · exact Or.inl h
    · exact Or.inl h
  | closeChannel closed =>
    simp only [HolderAct.apply, OrdMap.get?_modify, Option.isSome_map] at h
    exact Or.inl h
  | closeSocket =>
    simp only [HolderAct.apply] at h
    split at h
    · exact Or.inl h
    · simp only [OrdMap.get?_mapValues, Option.isSome_map] at h
      exact Or.inl h

/-- A channel that a turn opens is the one of its opening. -/
theorem opened_of_acts {after : Context} (h : ActsOf host env context handled context after)
    (hchannel : (after.client.channels.get? channelId).isSome = true) :
    (context.client.channels.get? channelId).isSome = true ∨
      ∃ opening, context.handledOpening? host handled = some opening ∧
        opening.channelId = channelId := by
  have hmarks (context : Context) :
      ((accountOf context).2.channels.get? channelId).isSome
        = (context.client.channels.get? channelId).isSome := by
    simp only [accountOf, holderOf, OrdMap.get?_mapValues, Option.isSome_map]
  have hacts (account : Account) (hacts : ReflTransGen
      (ActStep (Asked host env context handled)) (accountOf context) account)
      (hmark : (account.2.channels.get? channelId).isSome = true) :
      (context.client.channels.get? channelId).isSome = true ∨
        ∃ opening, context.handledOpening? host handled = some opening ∧
          opening.channelId = channelId := by
    induction hacts with
    | refl =>
      rw [hmarks] at hmark
      exact Or.inl hmark
    | tail _ hact ih =>
      obtain ⟨act, hasked, rfl⟩ := hact
      rcases opened_of_act hasked hmark with hold | hnew
      · exact ih hold
      · exact Or.inr hnew
  exact hacts _ h (by rwa [hmarks])

theorem RunsTurn.opened {input : Sv2Input} {turn : Turn}
    (h : RunsTurn host config context input handled turn) (origin : Origin)
    (hchannel : ((endTurn origin turn).1.client.channels.get? channelId).isSome = true) :
    (context.client.channels.get? channelId).isSome = true ∨
      ∃ opening, context.handledOpening? host handled = some opening ∧
        opening.channelId = channelId := by
  obtain ⟨channel', hchannel'⟩ := Option.isSome_iff_exists.mp hchannel
  obtain ⟨channel, hfound, -⟩ := (quiet_endTurn origin turn).2.2 channelId channel' hchannel'
  have hfound := Option.isSome_of_mem hfound
  cases h with
  | resumes id k env handled => exact opened_of_acts (acts_turn handled) hfound
  | checks id suggested =>
    refine Or.inl ?_
    unfold checkDifficulty at hfound
    split at hfound
    · exact hfound
    · split at hfound
      · exact hfound
      · exact hfound

/-! ### Runs -/

/-- What is known of a connection after its openings. -/
structure IdentityInv (host : Externals) (config : Sv2Config) (log : List Opening)
    (jobs : StratumV1JobsService) (client : StratumV2Client) : Prop where
  address : ∀ opening ∈ log, client.address = some opening.identity.address
  workerName : client.workerName = workerInForce log
  channels : ∀ channelId, (client.channels.get? channelId).isSome = true →
    (openedAs log channelId).isSome = true
  shares : EveryShare (fun share => (openedAs log share.channelId).isSome = true) client
  jobs : client.payoutMode = .solo →
    EveryChannel (SoloChannel host config.network jobs client.address) client
  pushes : client.payoutMode = .solo →
    ∀ push ∈ carried Wait.push? client, SoloPush host config.network client.address push

section
variable {jobs jobs' : StratumV1JobsService} {client : StratumV2Client}

/-- A connection that has channels has had an opening, and so it has an address. -/
theorem IdentityInv.isSome_address (h : IdentityInv host config log jobs client)
    {channelId : ℕ} (hchannel : (client.channels.get? channelId).isSome = true) :
    client.address.isSome = true := by
  obtain ⟨identity, hopened⟩ := Option.isSome_iff_exists.mp (h.channels channelId hchannel)
  obtain ⟨opening, hmem, -⟩ := mem_of_openedAs hopened
  rw [h.address opening hmem]
  rfl

theorem IdentityInv.isSome_address_of_hasChannel (h : IdentityInv host config log jobs client)
    (hchannels : client.hasNoChannel = false) : client.address.isSome = true := by
  obtain ⟨⟨channelId, channel⟩, hentry, -⟩ := List.all_eq_false.mp hchannels
  exact h.isSome_address (Option.isSome_of_mem (OrdMap.get?_eq_some_iff.mpr hentry))

/-- A connection without a turn stays as attributed as it is. -/
theorem IdentityInv.moves (h : IdentityInv host config log jobs client) {world : Sv2World}
    {input : Sv2Input} {client' : StratumV2Client} (hmoved : Moved world input client client')
    (hgrow : JobsGrow jobs jobs') : IdentityInv host config log jobs' client' := by
  have hmoves := hmoved.moves
  have haddress : client'.address = client.address := congrArg Prod.fst hmoved.identity
  have hworkerName : client'.workerName = client.workerName := congrArg Prod.snd hmoved.identity
  refine ⟨?_, hworkerName.trans h.workerName, ?_, ?_, ?_, ?_⟩
  · rw [haddress]
    exact h.address
  · intro channelId hchannel'
    obtain ⟨channel', hchannel'⟩ := Option.isSome_iff_exists.mp hchannel'
    obtain ⟨channel, hchannel, -⟩ := hmoves.channels channelId channel' hchannel'
    exact h.channels channelId (Option.isSome_of_mem hchannel)
  · intro share hshare
    rw [hmoves.carries _ _ rfl fun _ => rfl] at hshare
    exact h.shares share hshare
  · rw [hmoved.payoutMode, haddress]
    exact fun hmode => (h.jobs hmode).via hmoves.forgets fun _ _ hP => hP.forgets hgrow
  · rw [hmoved.payoutMode, haddress, hmoves.carries _ _ rfl fun _ => rfl]
    exact h.pushes

end

variable {input : Sv2Input} {handled : Handled}

variable {world : Sv2World} {id : ℕ} {context : Context} {turn : Turn}

/-- What a connection takes up begins the opening of the input. -/
theorem openingBy?_of_takes {client taken : StratumV2Client} {origin : Origin}
    (h : Takes world input id client taken handled origin) :
    openingBy? host world id input = (world.context taken).handledOpening? host handled := by
  cases h with
  | @task _ k env _ task hclient htask =>
    simp only [openingBy?, handledBy?, if_true, hclient, htask, Option.bind_some,
      Option.filter_some]
    cases hgoes : goesOn env task.handled.1 with
    | true =>
      simp only [if_true, Option.map_some, Option.bind_some]
      generalize task.handled.1 = handled
      cases handled with
      | frame message => rfl
      | wait wait => rfl
    | false =>
      -- a frame always goes on
      generalize task.handled.1 = handled at hgoes
      cases handled with
      | frame message => cases hgoes
      | wait wait => rfl
  | timer => rfl

theorem openingBy?_of_idle (h : handledBy? world id input = none) :
    openingBy? host world id input = none := by
  rw [openingBy?, h]
  rfl

/-- The address of a connection stays what it is, and after an opening it is the opening's. -/
theorem address_turn {jobs : StratumV1JobsService}
    (hruns : RunsTurn host config context input handled turn)
    (h : IdentityInv host config log jobs context.client) :
    (∀ known, context.client.address = some known → turn.context.client.address = some known) ∧
      ∀ opening, context.handledOpening? host handled = some opening →
        turn.context.client.address = some opening.identity.address := by
  have haddress : turn.context.client.address
      = (identityAfter context.client (context.handledOpening? host handled)).1 :=
    congrArg Prod.fst hruns.identity
  cases hopening : context.handledOpening? host handled with
  | none =>
    rw [hopening] at haddress
    rw [haddress]
    exact ⟨fun _ => id, fun _ hsome => by cases hsome⟩
  | some opening =>
    rw [hopening] at haddress
    have hknown (known : String) (hknown : context.client.address = some known) :
        opening.identity.address = known := address_of_opening hopening hknown
    simp only [identityAfter] at haddress
    rw [haddress]
    split
    · refine ⟨fun known hsome => congrArg some (hknown known hsome), ?_⟩
      intro opening' hopening'
      cases hopening'
      rfl
    · rename_i hnot
      have hchannels : context.client.hasNoChannel = false := by
        rw [← isFirst_of_opening hopening]
        exact Bool.eq_false_iff.mpr hnot
      refine ⟨fun _ => id, ?_⟩
      intro opening' hopening'
      cases hopening'
      obtain ⟨known, hsome⟩ :=
        Option.isSome_iff_exists.mp (h.isSome_address_of_hasChannel hchannels)
      exact hsome.trans (congrArg some (hknown known hsome).symm)

/-- The worker name after a turn is the one in force. -/
theorem workerName_turn (hruns : RunsTurn host config context input handled turn)
    (h : context.client.workerName = workerInForce log) :
    turn.context.client.workerName
      = workerInForce (log ++ (context.handledOpening? host handled).toList) := by
  have hworkerName : turn.context.client.workerName
      = (identityAfter context.client (context.handledOpening? host handled)).2 :=
    congrArg Prod.snd hruns.identity
  rw [hworkerName]
  cases context.handledOpening? host handled with
  | none => rwa [Option.toList_none, List.append_nil]
  | some opening =>
    simp only [identityAfter, workerInForce, Option.toList_some, List.filter_append]
    cases hfirst : opening.isFirst with
    | true => simp [hfirst]
    | false =>
      simp only [hfirst, List.filter_cons, List.filter_nil, Bool.false_eq_true, if_false,
        List.append_nil]
      exact h

section
variable {world : Sv2World} {input : Sv2Input} {id : ℕ} {client taken : StratumV2Client}
  {handled : Handled} {origin : Origin}

theorem IdentityInv.takes (h : IdentityInv host config log world.jobs client)
    (htakes : Takes world input id client taken handled origin) :
    IdentityInv host config log world.jobs taken := by
  have hchannels : taken.channels = client.channels := by rw [htakes.taken_eq]
  have haddress : taken.address = client.address := by rw [htakes.taken_eq]
  have hworkerName : taken.workerName = client.workerName := by rw [htakes.taken_eq]
  have hmode : taken.payoutMode = client.payoutMode := by rw [htakes.taken_eq]
  refine ⟨?_, hworkerName.trans h.workerName, ?_, ?_, ?_, ?_⟩
  · rw [haddress]
    exact h.address
  · rw [hchannels]
    exact h.channels
  · exact fun share hshare => h.shares share (htakes.mem_carried rfl rfl (Or.inr hshare))
  · unfold EveryChannel
    rw [hmode, haddress, hchannels]
    exact h.jobs
  · rw [hmode, haddress]
    exact fun hsolo push hpush => h.pushes hsolo push (htakes.mem_carried rfl rfl (Or.inr hpush))

/-- A turn leaves its connection attributed. -/
theorem IdentityInv.turns (h : IdentityInv host config log world.jobs client)
    (htakes : Takes world input id client taken handled origin) {env : TurnEnv} {turn : Turn}
    (hruns : RunsTurn host config (world.context taken) input handled turn)
    (hturn : TurnCase host config env (world.context taken) handled turn) :
    IdentityInv host config (log ++ (openingBy? host world id input).toList)
      (endTurn origin turn).1.jobs (endTurn origin turn).1.client := by
  have htaken := h.takes htakes
  obtain ⟨hjobs, -, hvia⟩ := quiet_endTurn origin turn
  have haddress : (endTurn origin turn).1.client.address = turn.context.client.address :=
    congrArg Prod.fst (identity_endTurn origin turn)
  have hworkerName : (endTurn origin turn).1.client.workerName = turn.context.client.workerName :=
    congrArg Prod.snd (identity_endTurn origin turn)
  have hmode : (endTurn origin turn).1.client.payoutMode = taken.payoutMode :=
    (payoutMode_endTurn origin turn).trans hturn.payoutMode
  have hknown := address_turn hruns htaken
  rw [openingBy?_of_takes htakes]
  have hopened {channelId : ℕ} (hold : (openedAs log channelId).isSome = true) :
      (openedAs (log ++ ((world.context taken).handledOpening? host handled).toList)
        channelId).isSome = true := by
    obtain ⟨identity, hsome⟩ := Option.isSome_iff_exists.mp hold
    exact Option.isSome_of_mem (openedAs_append hsome _)
  -- the shares that the handlers carry came from channels of the connection
  have hleaves := shares_turn (R := fun share => (openedAs log share.channelId).isSome = true) hturn
    (fun share hshare => h.shares share (htakes.mem_carried rfl rfl (Or.inl hshare)))
    fun channelId channel tuple share _ hfresh haccepts => by
      have hid : share.channelId = channelId := by
        obtain ⟨sum, hstandard | ⟨extranonce, -, hextended⟩⟩ := haccepts.cases
        · obtain ⟨_, _, _, -, -, -, -, hid, -⟩ := judgeStandard_eq_accepted hstandard
          exact hid
        · obtain ⟨_, _, _, -, -, -, hid, -⟩ := judgeExtended_eq_accepted hextended
          exact hid
      rw [hid]
      exact htaken.channels channelId (Option.isSome_of_mem hfresh.found)
  refine ⟨?_, hworkerName.trans (workerName_turn hruns htaken.workerName), ?_, ?_, ?_, ?_⟩
  · intro opening hmem
    rw [haddress]
    rcases List.mem_append.mp hmem with hold | hnew
    · exact hknown.1 _ (htaken.address opening hold)
    · exact hknown.2 opening (Option.mem_toList.mp hnew)
  · intro channelId hchannel
    rcases hruns.opened origin hchannel with hold | ⟨opening, hopening, rfl⟩
    · exact hopened (htaken.channels channelId hold)
    · rw [hopening]
      exact isSome_openedAs_self opening
  · intro share hshare
    rcases mem_carried_endTurn hturn origin rfl (fun _ => rfl) hshare with hold | hnew
    · exact hopened (htaken.shares share hold)
    · exact hopened (hleaves.1 share hnew)
  · rw [hmode, haddress, hjobs]
    intro hsolo
    have hturned := soloChannels_turn hruns hturn hsolo
      (fun channelId channel hchannel =>
        ⟨htaken.isSome_address (Option.isSome_of_mem hchannel),
          htaken.jobs hsolo channelId channel hchannel⟩)
      hknown.1
      (fun push hpush => by
        rw [show (world.context taken).client.address = client.address by
          rw [htakes.taken_eq]; rfl]
        exact h.pushes (by rwa [htakes.taken_eq] at hsolo) push
          (htakes.mem_carried rfl rfl (Or.inl hpush)))
    exact hturned.via hvia.forgets fun channel channel' hP => hP.forgets (.refl _)
  · rw [hmode, haddress]
    intro hsolo push hpush
    have hkept {push : ExtendedPush}
        (hpush : SoloPush host config.network taken.address push) :
        SoloPush host config.network turn.context.client.address push := by
      obtain ⟨known, hsome, hpays⟩ := hpush
      exact ⟨known, hknown.1 known hsome, hpays⟩
    rcases mem_carried_endTurn hturn origin rfl (fun _ => rfl) hpush with hold | hnew
    · exact hkept (htaken.pushes hsolo push hold)
    · exact hkept (soloPush_next hturn hsolo hnew)

end

/-- What a run leaves of one connection, with its openings. -/
structure ConnectionInv (host : Externals) (config : Sv2Config) (id : ℕ) (log : List Opening)
    (world : Sv2World) : Prop where
  absent : world.clients id = none → log = []
  present : ∀ client, world.clients id = some client →
    IdentityInv host config log world.jobs client

theorem identityInv_initial {jobs : StratumV1JobsService} (sessionId : String)
    (payoutMode : PayoutMode) :
    IdentityInv host config [] jobs (.initial config sessionId payoutMode) where
  address := List.forall_mem_nil _
  workerName := rfl
  channels channelId hchannel := by cases hchannel
  shares := List.forall_mem_nil _
  jobs _ channelId channel hchannel := by cases hchannel
  pushes _ := List.forall_mem_nil _

/-- A step keeps the invariant, with its opening added to the log. -/
theorem ConnectionInv.step {world : Sv2World} (h : ConnectionInv host config id log world)
    (input : Sv2Input) :
    ConnectionInv host config id (log ++ (openingBy? host world id input).toList)
      (sv2Step host config world input).1 := by
  have hcase := sv2Step_cases host config world input
  have hclient := sv2Step_client host config world input id
  generalize sv2Step host config world input = step at hcase hclient ⊢
  obtain ⟨world', events⟩ := step
  have hgrow := hcase.jobsGrow.1
  cases hclient with
  | absent hbefore hafter =>
    have hidle : handledBy? world id input = none := by
      cases input with
      | resume id' k env =>
        simp only [handledBy?, hbefore, Option.bind_none, ite_self]
      | _ => rfl
    rw [openingBy?_of_idle hidle]
    refine ⟨fun _ => by rw [h.absent hbefore]; rfl, fun client hclient => ?_⟩
    cases hafter.symm.trans hclient
  | @connects sessionId payoutMode hbefore hafter =>
    have hidle : handledBy? world id input = none := by
      cases input with
      | resume id' k env =>
        simp only [handledBy?, hbefore, Option.bind_none, ite_self]
      | _ => rfl
    rw [openingBy?_of_idle hidle, h.absent hbefore]
    refine ⟨fun _ => rfl, fun client hclient => ?_⟩
    cases hafter.symm.trans hclient
    exact identityInv_initial sessionId payoutMode
  | @moves client client' hbefore hafter hmoved hevents hidle =>
    rw [openingBy?_of_idle hidle, Option.toList_none, List.append_nil]
    refine ⟨fun hnone => ?_, fun client'' hclient => ?_⟩
    · cases hafter.symm.trans hnone
    · cases hafter.symm.trans hclient
      exact (h.present client hbefore).moves hmoved hgrow
  | turns htakes hruns hturn hgoes hworld =>
    subst hworld
    refine ⟨fun hnone => ?_, fun client hclient => ?_⟩
    · cases (clients_update_self id _).symm.trans hnone
    · cases (clients_update_self id _).symm.trans hclient
      exact (h.present _ htakes.client_eq).turns htakes hruns hturn

theorem connectionInv_run (inputs : List Sv2Input) {world : Sv2World}
    (h : ConnectionInv host config id log world) :
    ConnectionInv host config id (log ++ openings host config id world inputs)
      ((sv2Machine host config).final world inputs) := by
  induction inputs generalizing log world with
  | nil => rwa [openings, List.append_nil]
  | cons input inputs ih =>
    rw [openings, ← List.append_assoc]
    exact ih (h.step input)

theorem connectionInv (host : Externals) (config : Sv2Config) (id : ℕ) (inputs : List Sv2Input) :
    ConnectionInv host config id (openings host config id .initial inputs)
      ((sv2Machine host config).final .initial inputs) := by
  have hstart : ConnectionInv host config id [] .initial :=
    ⟨fun _ => rfl, fun client hclient => by cases hclient⟩
  exact connectionInv_run inputs hstart

/-! ### What a turn stores -/

section
variable {context : Context} {handled : Handled} {env : TurnEnv}

/-- What is no frame comes from a handler that carries a share. -/
theorem TurnCase.exists_share {turn : Turn} (h : TurnCase host config env context handled turn)
    {event : Sv2Event} (hevent : event ∈ turn.events) (hstored : ¬IsFrame event) :
    ∃ wait share, handled = .wait wait ∧ wait.share? = some share := by
  cases h with
  | quiet _ _ hevents => exact absurd (hevents event hevent) hstored
  | subscribes _ hselection hsubscription =>
    rw [afterJob_subscribes hselection hsubscription] at hevent
    cases hevent
  | opens | addsJob => cases hevent
  | sendsStandard _ _ _ _ hevents => exact absurd (hevents event hevent) hstored
  | beginsExtended _ _ _ hevents => exact absurd (hevents event hevent) hstored
  | finishes => exact absurd (isFrame_finishExtendedJob _ _ _ _ event hevent) hstored
  | installs _ _ _ _ _ _ hevents => exact absurd (hevents event hevent) hstored
  | remembers _ hevents => exact absurd (hevents event hevent) hstored
  | accepts _ _ hevents => exact absurd (hevents event hevent) hstored
  | carries hhandled hshare | records hhandled hshare => exact ⟨_, _, hhandled, hshare⟩

/-- A turn that stores something goes on with the handler of a share. -/
theorem stored_turn {event : Sv2Event}
    (h : event ∈ (context.turn host config env handled).events) (hstored : ¬IsFrame event) :
    ∃ wait share, handled = .wait wait ∧ wait.share? = some share ∧
      goesOn env handled = true ∧ event ∈ (context.resume host config env wait).events := by
  obtain ⟨wait, share, rfl, hshare⟩ := (turn_cases handled).exists_share h hstored
  simp only [turn] at h
  split at h
  · cases h
  · rename_i hgoes
    refine ⟨wait, share, rfl, hshare, ?_, h⟩
    simpa [goesOn] using hgoes

/-- A share is recorded by the handler that is about to record it. -/
theorem recorded_turn {record : AcceptedShareRecord} {share : AcceptedShare}
    (h : .shareRecorded record share ∈ (context.turn host config env handled).events) :
    goesOn env handled = true ∧ Handled.carried? Wait.attributed? handled = some share ∧
      ∃ blockSubmissionResult, record = context.shareRecord share blockSubmissionResult := by
  obtain ⟨wait, share', rfl, hshare, hgoes, hevent⟩ := stored_turn h id
  refine ⟨hgoes, ?_⟩
  cases wait with
  | shareReply share' =>
    simp only [resume, afterShareReply] at hevent
    split at hevent
    · rename_i hblock
      cases List.mem_singleton.mp hevent
      refine ⟨?_, _, rfl⟩
      simp [Handled.carried?, Wait.attributed?, hblock]
    · cases hevent
    · cases hevent
  | submitBlock share' coinbase blockHex => cases List.mem_singleton.mp hevent
  | saveBlock share' coinbase blockSubmissionResult =>
    simp only [resume, afterSaveBlock] at hevent
    split at hevent
    · cases List.mem_singleton.mp hevent
    · cases hevent
  | finalizeSnapshot => cases hevent
  | notifyBlock share' blockSubmissionResult =>
    cases List.mem_singleton.mp hevent
    exact ⟨rfl, _, rfl⟩
  | _ => cases hshare

/-- A block is saved by the handler that has submitted it. -/
theorem saved_turn {block : BlockRecord}
    (h : .blockSaved block ∈ (context.turn host config env handled).events) :
    goesOn env handled = true ∧ ∃ share coinbase blockHex,
      handled = .wait (.submitBlock share coinbase blockHex) ∧
      block.minerAddress = context.client.address.getD "" ∧
      block.worker = context.client.workerName := by
  obtain ⟨wait, share', rfl, hshare, hgoes, hevent⟩ := stored_turn h id
  refine ⟨hgoes, ?_⟩
  cases wait with
  | submitBlock share' coinbase blockHex =>
    cases List.mem_singleton.mp hevent
    exact ⟨share', coinbase, blockHex, rfl, rfl, rfl⟩
  | shareReply share' =>
    simp only [resume, afterShareReply] at hevent
    split at hevent
    · cases List.mem_singleton.mp hevent
    · cases hevent
    · cases hevent
  | saveBlock share' coinbase blockSubmissionResult =>
    simp only [resume, afterSaveBlock] at hevent
    split at hevent
    · cases List.mem_singleton.mp hevent
    · cases hevent
  | finalizeSnapshot => cases hevent
  | notifyBlock => cases List.mem_singleton.mp hevent
  | _ => cases hshare

end

section
variable {world : Sv2World} {input : Sv2Input} {id : ℕ} {client : StratumV2Client}

/-- What a connection stores, it stores under its address and its worker name. -/
theorem event_step {event : Sv2Event}
    (h : .client id event ∈ (sv2Step host config world input).2) :
    ∃ client taken handled env, world.clients id = some client ∧
      taken.address = client.address ∧ taken.workerName = client.workerName ∧
      event ∈ ((world.context taken).turn host config env handled).events ∧
      (goesOn env handled = true → handledBy? world id input = some (client, handled)) := by
  obtain ⟨env, client, taken, handled, origin, hresumes, hevent⟩ := resumes_of_event h
  have htaken := hresumes.takes.taken_eq
  refine ⟨client, taken, handled, env, hresumes.takes.client_eq, ?_, ?_, hevent,
    hresumes.handledBy⟩
  · rw [htaken]
  · rw [htaken]

variable (host config) in
/-- The events of a handler that goes on. -/
theorem resumed_step {wait : Wait} (h : handledBy? world id input = some (client, .wait wait)) :
    ∃ taken env, world.clients id = some client ∧ taken.workerName = client.workerName ∧
      (∀ share, wait.share? = some share → share ∈ carried Wait.share? client) ∧
      (sv2Step host config world input).2
        = ((world.context taken).resume host config env wait).events.map (.client id) := by
  obtain ⟨env, taken, origin, hresumes, hgoes⟩ := @resumes_of_handledBy? host config _ _ _ _ _ h
  have hnot : env.failed = false := by simpa [goesOn] using hgoes
  have hran : (world.context taken).turn host config env (.wait wait)
      = (world.context taken).resume host config env wait := by
    simp only [turn, hnot, Bool.false_eq_true, if_false]
  refine ⟨taken, env, hresumes.takes.client_eq, ?_, fun share hshare => ?_, ?_⟩
  · rw [hresumes.takes.taken_eq]
  · exact hresumes.takes.mem_carried rfl rfl (Or.inl hshare)
  · rw [hresumes.events_eq, hran]

theorem share?_of_attributed? {share : AcceptedShare} {wait : Wait}
    (h : wait.attributed? = some share) : wait.share? = some share := by
  cases wait with
  | shareReply share' =>
    simp only [Wait.attributed?] at h
    split at h
    · exact h
    · cases h
  | submitBlock | notifyBlock => exact h
  | _ => cases h

end

variable (host config) in
/-- One step after a run: what it books is the channel's if and only if the worker is kept. -/
theorem attributes_iff_keepsWorker (id : ℕ) (before : List Sv2Input) (input : Sv2Input) :
    Attributes host config id before input ↔ KeepsWorker host config id before input := by
  have hinv := connectionInv host config id before
  constructor
  · rintro hattributes ⟨client, handled⟩ htaken share hshare identity hidentity
    cases handled with
    | frame message => cases hshare
    | wait wait =>
      obtain ⟨taken, env, hclient, hworkerName, hcarried, hevents⟩ :=
        resumed_step host config htaken
      have hname : taken.workerName = workerInForce (openings host config id .initial before) :=
        hworkerName.trans (hinv.present client hclient).workerName
      -- the share is recorded, or its block saved, under the name in force
      cases wait with
      | shareReply share' =>
        simp only [Handled.carried?, Wait.attributed?] at hshare
        split at hshare
        · rename_i hblock
          cases hshare
          obtain ⟨identity', hsome, -, hbooked⟩ := hattributes.records _ share (by
            rw [hevents]
            refine List.mem_map_of_mem ?_
            simp only [resume, afterShareReply, Option.isNone_iff_eq_none.mp hblock]
            exact List.mem_singleton_self _)
          cases hsome.symm.trans hidentity
          exact hbooked.symm.trans hname
        · cases hshare
      | notifyBlock share' blockSubmissionResult =>
        cases hshare
        obtain ⟨identity', hsome, -, hbooked⟩ := hattributes.records _ share (by
          rw [hevents]
          exact List.mem_map_of_mem (List.mem_singleton_self _))
        cases hsome.symm.trans hidentity
        exact hbooked.symm.trans hname
      | submitBlock share' coinbase blockHex =>
        cases hshare
        obtain ⟨_, _, _, _, identity', htaken', hsome, -, hbooked⟩ := hattributes.blocks _ (by
          rw [hevents]
          exact List.mem_map_of_mem (List.mem_singleton_self _))
        cases htaken.symm.trans htaken'
        cases hsome.symm.trans hidentity
        exact hbooked.symm.trans hname
      | _ => cases hshare
  · intro hkeeps
    -- the identity of a share's channel is the connection's
    have hbooked {client : StratumV2Client} {handled : Handled} {share : AcceptedShare}
        (hclient : ((sv2Machine host config).final .initial before).clients id = some client)
        (htaken : handledBy? ((sv2Machine host config).final .initial before) id input
          = some (client, handled))
        (hshare : Handled.carried? Wait.attributed? handled = some share) :
        ∃ identity, openedAs (openings host config id .initial before) share.channelId
            = some identity ∧
          client.address.getD "" = identity.address ∧ client.workerName = identity.workerName := by
      have hclientInv := hinv.present client hclient
      cases handled with
      | frame message => cases hshare
      | wait wait =>
        obtain ⟨taken, env, -, -, hcarried, -⟩ :=
          resumed_step host config htaken
        obtain ⟨identity, hidentity⟩ := Option.isSome_iff_exists.mp
          (hclientInv.shares share (hcarried share (share?_of_attributed? hshare)))
        obtain ⟨opening, hopening, rfl⟩ := mem_of_openedAs hidentity
        refine ⟨_, hidentity, ?_, ?_⟩
        · rw [hclientInv.address opening hopening]
          rfl
        · rw [hclientInv.workerName]
          exact (hkeeps _ htaken share hshare _ hidentity).symm
    refine ⟨?_, ?_, ?_⟩
    · intro record share hevent
      obtain ⟨client, taken, handled, env, hclient, haddress, hworkerName, hturn, hgoes⟩ :=
        event_step hevent
      obtain ⟨hgo, hshare, blockSubmissionResult, rfl⟩ := recorded_turn hturn
      obtain ⟨identity, hidentity, hmine, hname⟩ := hbooked hclient (hgoes hgo) hshare
      rw [← haddress] at hmine
      rw [← hworkerName] at hname
      exact ⟨identity, hidentity, hmine, hname⟩
    · intro block hevent
      obtain ⟨client, taken, handled, env, hclient, haddress, hworkerName, hturn, hgoes⟩ :=
        event_step hevent
      obtain ⟨hgo, share, coinbase, blockHex, rfl, hmine, hname⟩ := saved_turn hturn
      obtain ⟨identity, hidentity, haddress', hworkerName'⟩ := hbooked hclient (hgoes hgo) rfl
      refine ⟨client, share, coinbase, blockHex, identity, hgoes hgo, hidentity, ?_, ?_⟩
      · rw [hmine, ← haddress', ← haddress]
        rfl
      · rw [hname, ← hworkerName', ← hworkerName]
        rfl
    · intro client hclient hmode channelId channel hchannel
      have hclientInv := hinv.present client hclient
      obtain ⟨identity, hidentity⟩ := Option.isSome_iff_exists.mp
        (hclientInv.channels channelId (Option.isSome_of_mem hchannel))
      obtain ⟨opening, hopening, rfl⟩ := mem_of_openedAs hidentity
      exact ⟨_, hidentity, (hclientInv.jobs hmode channelId channel hchannel).pays _
        (hclientInv.address opening hopening)⟩

end

/-- Work is booked under the identity with which its channel was opened, and solo jobs pay its
address, at every step of a run, if and only if at every step a share that is recorded, or whose
block is saved, came from a channel that was opened with the worker name in force. -/
theorem attributes_iff (host : Externals) (config : Sv2Config) (id : ℕ) (inputs : List Sv2Input) :
    (∀ before input rest, inputs = before ++ input :: rest →
        Attributes host config id before input) ↔
      ∀ before input rest, inputs = before ++ input :: rest →
        KeepsWorker host config id before input := by
  have hstep := attributes_iff_keepsWorker host config id
  constructor
  · exact fun h before input rest hinputs => (hstep before input).mp (h before input rest hinputs)
  · exact fun h before input rest hinputs => (hstep before input).mpr (h before input rest hinputs)

/-! ### A proxy with two rigs -/

namespace Sv2Sample

/-- A second standard channel, for another rig of `A`. -/
def openSecondRig : Sv2Message :=
  .openStandardMiningChannel
    { requestId := 2, userIdentity := "A.rig2", nominalHashRate := none,
      maxTarget := List.replicate 32 0xff }

/-- Connection 0 opens a channel for each of two rigs, and a share on the second one is accepted. -/
def twoRigs : List Sv2Input :=
  [.connect 0 "s" .solo, .template (template 7 true) 1700000000000, .data 0 [openStandard]]
    ++ turns 14 ++ [.data 0 [openSecondRig]] ++ turns 7
    ++ [.data 0 [.submitSharesStandard { submission 3 5 with channelId := 2 }], .resume 0 0 env]

end Sv2Sample

open Sv2Sample in
/-- The share of the second rig is recorded under the name of the first. -/
theorem not_attributes_second_rig :
    ¬ ∀ before input rest, twoRigs ++ [.resume 0 0 env] = before ++ input :: rest →
        Attributes host config 0 before input := by
  intro h
  have hlast := h twoRigs (.resume 0 0 env) [] rfl
  exact absurd ((attributes_iff_keepsWorker _ _ 0 _ _).mp hlast) (by decide +kernel)

end PublicPool.Proofs
