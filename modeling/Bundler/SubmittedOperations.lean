import Bundler.Accountability
import Bundler.BlamedOperations
import Bundler.DebugApi
import Bundler.HourlyDecay

/-!
Where the operations of the pool come from, with everything that runs in a
bundler running at once: requests to both APIs, attempts to bundle, events and
the hourly cron. Whatever the order of their steps, an entry of the pool was
made for a request that was still going or has ended, out of the operation of
the request, and was vetted unless it came through the debug API. So the same
is true of what is put into a transaction.
-/
namespace Bundler.SubmittedOperations

open KeyedRecords AsyncPrograms DataModel StateService ReputationManager DepositManager
  MempoolHelper MempoolManager BundleBuilder BundleManager BundleProcessor BannedAddresses
  BlamedOperations Validation Ethers Packing PreVerificationGas InputParameters EthApi DebugApi
  HourlyDecay Accountability Operations Runs Interleavings

/-- What runs in a bundler. -/
inductive Task
  | sendUserOperation (answers : EthApi.Answers) (userOpInput : Option RawOperation)
      (entryPointInput : Option String)
  | attempt (services : Services) (force : Bool)
  | sendBundleNow (services : Services) (pastEvents : PastEvents)
  | handleEvents (pastEvents : PastEvents)
  | hourlyTick (reputationEntries : ReputationEntries)
  | addUserOps (answers : EthApi.Answers) (userOps : List RawOperation)
  | setReputation (reputations : List ReputationEntry)
  | clearState
  | clearMempool
  | clearReputation

def Task.program (config : ApiConfig) : Task → Async PUnit
  | .sendUserOperation answers userOpInput entryPointInput =>
      (EthApi.sendUserOperation config answers userOpInput entryPointInput).detach
  | .attempt services force => (doAttemptBundle services force).detach
  | .sendBundleNow services pastEvents => (DebugApi.sendBundleNow services pastEvents).detach
  | .handleEvents pastEvents => handlePastEvents pastEvents
  | .hourlyTick reputationEntries => HourlyDecay.hourlyTick reputationEntries
  | .addUserOps answers userOps => DebugApi.addUserOps config answers userOps
  | .setReputation reputations => (DebugApi.setReputation reputations).detach
  | .clearState => DebugApi.clearState
  | .clearMempool => DebugApi.clearMempool
  | .clearReputation => DebugApi.clearReputation

/-- The bundler before any of the tasks has taken a step. -/
def start (config : ApiConfig) (whiteList blackList : List String) (tasks : List Task) :
    Config State Update JsError :=
  ⟨State.initial whiteList blackList, tasks.map (Task.program config)⟩

section Pool

variable {V : MempoolEntry → Prop} {s : State}

/-- All pooled entries satisfy V. -/
def Pools (V : MempoolEntry → Prop) (s : State) : Prop := ∀ entry ∈ s.standardPool.values, V entry

/-- The entry written, if any, satisfies V. -/
def WritesOnly (V : MempoolEntry → Prop) : Update → Prop
  | .mempool (.doUpdateMempoolState entry _) => V entry
  | .mempool (.updateEntryStatus entry _) => V entry
  | _ => True

/-- V does not depend on the status. -/
def IgnoresStatus (V : MempoolEntry → Prop) : Prop :=
  ∀ (entry : MempoolEntry) (status : EntryStatus), V { entry with status := status } ↔ V entry

theorem pools_of_map (hV : IgnoresStatus V) {standardPool standardPool' : StandardPool}
    (hmap : standardPool'.values.map (fun entry => { entry with status := EntryStatus.pending }) =
      standardPool.values.map fun entry => { entry with status := EntryStatus.pending })
    (h : ∀ entry ∈ standardPool.values, V entry) : ∀ entry ∈ standardPool'.values, V entry := by
  intro entry hentry
  have hmem := List.mem_map_of_mem
    (f := fun entry : MempoolEntry => { entry with status := EntryStatus.pending }) hentry
  rw [hmap] at hmem
  obtain ⟨stored, hstored, hsame⟩ := List.mem_map.mp hmem
  have hpending := (hV stored .pending).mpr (h stored hstored)
  rw [hsame] at hpending
  exact (hV entry .pending).mp hpending

theorem pools_update (hV : IgnoresStatus V) (h : Pools V s) {u : Update} (hu : WritesOnly V u) :
    Pools V (u.apply s).1 := by
  cases u with
  | reputation update =>
    intro entry hentry
    change entry ∈ (update.apply s).standardPool.values at hentry
    rw [reputation_standardPool] at hentry
    exact h entry hentry
  | mempool update =>
    cases update with
    | doUpdateMempoolState written old =>
      intro entry hentry
      cases old with
      | none =>
        rcases (s.standardPool.mem_insert written entry).mp hentry with rfl | ⟨hpooled, _⟩
        · exact hu
        · exact h entry hpooled
      | some old =>
        rcases (KeyedRecord.mem_insert _ written entry).mp hentry with rfl | ⟨hpooled, _⟩
        · exact hu
        · exact h entry ((s.standardPool.mem_delete _ _).mp hpooled).1
    | updateEntryStatus written status =>
      intro entry hentry
      rcases (s.standardPool.mem_insert _ entry).mp hentry with rfl | ⟨hpooled, _⟩
      · exact (hV written status).mpr hu
      · exact h entry hpooled
    | removeUserOp removed =>
      intro entry hentry
      exact h entry ((s.standardPool.mem_delete _ _).mp hentry).1
    | removeUserOpsForBannedAddr opsToRemove =>
      intro entry hentry
      exact h entry ((s.standardPool.mem_foldl_delete _ _).mp hentry).1
    | markBundling userOpHashes => exact pools_of_map hV (map_markBundling (fun _ _ => rfl) _ _) h
    | clearState =>
      intro entry hentry
      cases hentry
    | addBundleTxnConfirmation transactionHash signerIndex => exact h

end Pool

section Submission

variable {config : ApiConfig}

/-- The entry is the one of the parameter, up to its status. -/
def EntryOf (param : RelayUserOpParam) (entry : MempoolEntry) : Prop :=
  { entry with status := .pending } = newEntry param

/-- The task is a request, and the entry is what comes of its operation or of
one of its operations. -/
def Task.Submits (config : ApiConfig) : Task → MempoolEntry → Prop
  | .sendUserOperation answers sent entryPointInput, entry =>
      NamesEntryPoint config entryPointInput ∧ ∃ userOpInput relayed, sent = some userOpInput ∧
        Vetted config answers userOpInput relayed ∧ EntryOf relayed.param entry
  | .addUserOps answers userOps, entry =>
      ∃ userOpInput ∈ userOps, ∃ param,
        hashOperation config answers userOpInput = .ok param ∧ EntryOf param entry
  | _, _ => False

def Submitted (config : ApiConfig) (tasks : List Task) (entry : MempoolEntry) : Prop :=
  ∃ task ∈ tasks, task.Submits config entry

theorem submitted_ignoresStatus (tasks : List Task) : IgnoresStatus (Submitted config tasks) := by
  intro entry status
  refine exists_congr fun task => and_congr_right fun _ => ?_
  cases task <;> exact Iff.rfl

end Submission

section Requests

/-- What an admission does is allowed, for entries that satisfy V. -/
structure AllowsAdmission (V : MempoolEntry → Prop) (allowed : Update → Prop) : Prop where
  doUpdateMempoolState : ∀ entry old, V entry → allowed (.mempool (.doUpdateMempoolState entry old))
  updateSeenStatus : ∀ addr, allowed (.reputation (.updateSeenStatus addr .increment))
  updateSeenStatusBatch : ∀ addrs, allowed (.reputation (.updateSeenStatusBatch addrs))

variable {config : ApiConfig} {answers : EthApi.Answers} {param : RelayUserOpParam}
  {rely : State → Prop} {allowed : Update → Prop}

/-- Without a senderInfo, an entry is written over one that was found in its
slot and whose fees it bumps. -/
theorem addUserOpWithoutSender_guarantees
    (hwrite : ∀ s, rely s → ∀ old,
      findBySenderNonce param.userOp.sender param.userOp.nonce s.standardPool = some old →
      FeesBumped old.userOp param.userOp →
      allowed (.mempool (.doUpdateMempoolState (newEntry param) (some old))))
    (hone : ∀ addr, allowed (.reputation (.updateSeenStatus addr .increment)))
    (hbatch : ∀ addrs, allowed (.reputation (.updateSeenStatusBatch addrs)))
    (balanceOf : BalanceOf) :
    (addUserOpWithoutSender balanceOf param).Guarantees rely allowed fun _ => True := by
  refine ((checkPaymasterDeposit_readOnly _ _).guarantees _ _).seq fun _ => ?_
  refine Program.Guarantees.read_bind ?_
  intro s hs
  cases hfind : findBySenderNonce param.userOp.sender param.userOp.nonce s.standardPool with
  | none => exact trivial
  | some old =>
    dsimp only
    cases hchecks : checkReplaceUserOp (newEntry param,
        { metadata param with oldEntry := old }) with
    | error error => exact trivial
    | ok checked =>
      obtain ⟨hbumped, rfl⟩ := (checkReplaceUserOp_eq_ok_iff rfl).mp hchecks
      have hupdate : (updateState (.mempool (.doUpdateMempoolState (newEntry param)
          (some old)))).Guarantees rely allowed fun _ => True :=
        ⟨hwrite s hs old hfind hbumped, fun _ => trivial⟩
      exact hupdate.seq fun _ => (updateSeenStatus_guarantees hone hbatch _ _).seq fun _ => trivial

/-- What is done for every operation given is done by the whole call. -/
theorem addUserOps_guarantees {userOps : List RawOperation}
    (hgiven : ∀ userOpInput ∈ userOps, ∀ param,
      hashOperation config answers userOpInput = .ok param →
        (addUserOpWithoutSender answers.balanceOf param).Guarantees rely allowed fun _ => True) :
    (DebugApi.addUserOps config answers userOps).Guarantees rely allowed fun _ => True := by
  unfold DebugApi.addUserOps
  induction userOps with
  | nil => exact trivial
  | cons userOpInput userOps ih =>
    refine Program.Guarantees.seq ?_ fun _ =>
      ih fun input hinput => hgiven input (List.mem_cons_of_mem _ hinput)
    refine Program.Guarantees.bind (Q := fun r => r = hashOperation config answers userOpInput) rfl
      ?_ fun _ _ => trivial
    intro param hparam
    exact (hgiven userOpInput List.mem_cons_self param hparam.symm).seq fun _ => trivial

namespace AllowsAdmission

variable {V : MempoolEntry → Prop} (h : AllowsAdmission V allowed)

include h

theorem addUserOp_guarantees {stakes : StakeConfig} {balanceOf : BalanceOf}
    (hparam : V (newEntry param)) :
    (addUserOp stakes balanceOf param).detach.Guarantees rely allowed fun _ => True := by
  refine BannedAddresses.addUserOp_guarantees ?_ h.updateSeenStatus h.updateSeenStatusBatch
  intro handedOut
  refine (replaceOrAddUserOpChecks_found stakes param _ handedOut).mono (fun _ _ => trivial)
    (fun _ h => h.elim) ?_
  intro r hchecks checked hchecked
  rw [(hchecks checked hchecked).1]
  exact h.doUpdateMempoolState _ _ hparam

theorem addUserOpWithoutSender_allowed (balanceOf : BalanceOf) (hparam : V (newEntry param)) :
    (addUserOpWithoutSender balanceOf param).Guarantees rely allowed fun _ => True :=
  addUserOpWithoutSender_guarantees (fun _ _ _ _ _ => h.doUpdateMempoolState _ _ hparam)
    h.updateSeenStatus h.updateSeenStatusBatch balanceOf

theorem sendUserOperation_guarantees {sent : Option RawOperation} {entryPointInput : Option String}
    (hsent : ∀ relayed, checkAndValidate config answers sent entryPointInput = .ok (.ok relayed) →
      V (newEntry relayed.param)) :
    (EthApi.sendUserOperation config answers sent entryPointInput).detach.Guarantees rely allowed
      fun _ => True := by
  unfold EthApi.sendUserOperation
  cases hready : checkAndValidate config answers sent entryPointInput with
  | error e => exact trivial
  | ok ready =>
    cases ready with
    | error error => exact trivial
    | ok relayed =>
      have hrelayed := hsent relayed hready
      change (sendUserOpToMempool config answers relayed).detach.Guarantees _ _ _
      unfold sendUserOpToMempool
      cases relayed.result.validation.senderInfo with
      | some info => exact h.addUserOp_guarantees hrelayed
      | none => exact (h.addUserOpWithoutSender_allowed _ hrelayed).seq fun _ => trivial

end AllowsAdmission

end Requests

section Tasks

variable {config : ApiConfig} {tasks : List Task} {rely : State → Prop} {allowed : Update → Prop}

theorem withStatuses_readOnly (entries : List ReputationEntry) :
    (withStatuses entries).ReadOnly := by
  induction entries with
  | nil => exact trivial
  | cons entry entries ih =>
    exact (getStatus_readOnly _).bind fun _ => ih.bind fun _ => trivial

theorem hourlyTick_guarantees (h : ∀ entry, allowed (.reputation (.hourlyCron entry)))
    (reputationEntries : ReputationEntries) :
    (HourlyDecay.hourlyTick reputationEntries).Guarantees rely allowed fun _ => True := by
  refine Program.Guarantees.forM ?_
  intro entry _
  exact ⟨h entry, fun _ => trivial⟩

/-- Whatever the debug API and the cron do beside admissions and attempts. -/
structure AllowsSetting (allowed : Update → Prop) : Prop where
  setReputation : ∀ reputations, allowed (.reputation (.setReputation reputations))
  hourlyCron : ∀ entry, allowed (.reputation (.hourlyCron entry))
  clearReputation : allowed (.reputation .clearState)
  clearMempool : allowed (.mempool .clearState)

/-- A task does nothing but admit what it submits, if what attempts, events,
the debug API and the cron do is allowed. -/
theorem program_guarantees {task : Task} (htask : task ∈ tasks)
    (hadmission : AllowsAdmission (Submitted config tasks) allowed)
    (hsettle : AllowsSettling rely allowed) (hset : AllowsSetting allowed)
    (hattempt : ∀ services force, task = .attempt services force ∨
      (force = true ∧ ∃ pastEvents, task = .sendBundleNow services pastEvents) →
        (doAttemptBundle services force).Guarantees rely allowed fun _ => True) :
    (task.program config).Guarantees rely allowed fun _ => True := by
  cases task with
  | sendUserOperation answers sent entryPointInput =>
    refine hadmission.sendUserOperation_guarantees ?_
    intro relayed hready
    refine ⟨_, htask, ?_⟩
    cases sent with
    | none => exact (checkAndValidate_none _ _ hready).elim
    | some userOpInput =>
      obtain ⟨hnames, hvetted⟩ := checkAndValidate_ok_iff.mp hready
      exact ⟨hnames, userOpInput, relayed, rfl, hvetted, rfl⟩
  | attempt services force => exact (hattempt services force (Or.inl rfl)).seq fun _ => trivial
  | sendBundleNow services pastEvents =>
    have hnow : (DebugApi.sendBundleNow services pastEvents).Guarantees rely allowed
        fun _ => True :=
      (hattempt services true (Or.inr ⟨rfl, pastEvents, rfl⟩)).seq fun _ =>
        (hsettle.handlePastEvents_guarantees _).seq fun _ => trivial
    exact hnow.seq fun _ => trivial
  | handleEvents pastEvents => exact hsettle.handlePastEvents_guarantees _
  | hourlyTick reputationEntries => exact hourlyTick_guarantees hset.hourlyCron _
  | addUserOps answers userOps =>
    refine addUserOps_guarantees ?_
    intro userOpInput hinput param hparam
    refine hadmission.addUserOpWithoutSender_allowed _ ?_
    exact ⟨_, htask, userOpInput, hinput, param, hparam, rfl⟩
  | setReputation reputations =>
    refine ⟨hset.setReputation _, fun r => ?_⟩
    cases r with
    | error e => exact trivial
    | ok _ =>
      intro s _
      exact ((withStatuses_readOnly _).guarantees _ _).seq fun _ => trivial
  | clearState =>
    refine ⟨hset.clearMempool, fun r => ?_⟩
    cases r with
    | error e => exact trivial
    | ok _ => exact ⟨hset.clearReputation, fun _ => trivial⟩
  | clearMempool => exact ⟨hset.clearMempool, fun _ => trivial⟩
  | clearReputation => exact ⟨hset.clearReputation, fun _ => trivial⟩

end Tasks

section Runs

variable {config : ApiConfig} {tasks : List Task} {V : MempoolEntry → Prop}
  {allowed : Update → Prop} {c : Config State Update JsError}

/-- The pool is as it should be, and every thread keeps it so. -/
def Guarded (V : MempoolEntry → Prop) (allowed : Update → Prop)
    (c : Config State Update JsError) : Prop :=
  Pools V c.state ∧ ∀ j, c.At j fun p => p.Guarantees (Pools V) allowed fun _ => True

theorem guarded_step (hV : IgnoresStatus V) (hallowed : ∀ u, allowed u → WritesOnly V u)
    (h : Guarded V allowed c) (i : ℕ) : Guarded V allowed (c.step Update.apply i) := by
  refine ⟨?_, fun j => (h.2 j).step_guarantees Update.apply h.1 i⟩
  refine Config.state_step (I := Pools V) (P := fun _ u => WritesOnly V u) Update.apply
    (fun s u hs hu => pools_update hV hs hu) h.1 ?_
  intro u hpending
  exact hallowed u ((h.2 i).of_pending hpending)

theorem guarded_start (whiteList blackList : List String)
    (htasks : ∀ task ∈ tasks,
      (task.program config).Guarantees (Pools V) allowed fun _ => True) :
    Guarded V allowed (start config whiteList blackList tasks) := by
  refine ⟨fun entry hentry => absurd hentry List.not_mem_nil, ?_⟩
  intro j p hp
  obtain ⟨task, htask, rfl⟩ := List.mem_map.mp (List.mem_of_getElem? hp)
  exact htasks task htask

theorem allowsAttempt_writesOnly (V : MempoolEntry → Prop) :
    AllowsAttempt (Pools V) (WritesOnly V) where
  markBundling _ := trivial
  removeUserOp _ := trivial
  removeUserOpsForBannedAddr _ := trivial
  addBundleTxnConfirmation _ _ := trivial
  updateEntryStatus _ hs entry hentry _ := hs entry hentry
  reputation _ := trivial

theorem program_writesOnly {task : Task} (htask : task ∈ tasks) :
    (task.program config).Guarantees (Pools (Submitted config tasks))
      (WritesOnly (Submitted config tasks)) fun _ => True := by
  have hallows := allowsAttempt_writesOnly (Submitted config tasks)
  refine program_guarantees htask ⟨fun _ _ h => h, fun _ => trivial, fun _ => trivial⟩
    hallows.sending.toAllowsSettling ⟨fun _ => trivial, fun _ => trivial, trivial, trivial⟩ ?_
  intro services force _
  exact (getEntries_guarantees hallows.markBundling services force).seq fun entries =>
    hallows.sending.attemptWith_guarantees services entries

/-- Whatever runs at once, and in whatever order the steps are taken, a pooled
entry is what came of an operation that was sent to one of the APIs. One sent
to the eth API was vetted. -/
theorem pool_submitted (config : ApiConfig) (whiteList blackList : List String) (tasks : List Task)
    (schedule : List ℕ) :
    AllStates (Config.step Update.apply) (fun c => Pools (Submitted config tasks) c.state)
      (start config whiteList blackList tasks) schedule := by
  refine AllStates.imp _ (fun c h => h.1) (allStates_of_invariant (Config.step Update.apply)
    (I := Guarded (Submitted config tasks) (WritesOnly (Submitted config tasks))) ?_ ?_ schedule)
  · intro c i h
    exact guarded_step (submitted_ignoresStatus tasks) (fun _ hu => hu) h i
  · exact guarded_start whiteList blackList fun task htask => program_writesOnly htask

section Sent

/-- What a task that attempts to bundle is answered. -/
def Task.services : Task → Option Services
  | .attempt services _ => some services
  | .sendBundleNow services _ => some services
  | _ => none

/-- The task sends its bundle with the bundle processor, and these are the
answers to the calls it makes for that. -/
def Task.SendsOver (config : ApiConfig) (processor : ProcessorConfig) (task : Task)
    (network : Network) : Prop :=
  ∃ services ∈ task.services, services.sendBundle = sendBundle config.ethers processor network

/-- All operations came through the APIs. -/
def AllSubmitted (config : ApiConfig) (tasks : List Task) (userOps : List UserOperation) : Prop :=
  ∀ userOp ∈ userOps, ∃ entry, Submitted config tasks entry ∧ entry.userOp = userOp

/-- A transaction that is noted carries submitted operations and was sent by
the first signer, for one of the tasks. A ban is for the failure of one among
submitted operations that a task sent, and hits an address that is
accountable for it. -/
def Grounded (config : ApiConfig) (processor : ProcessorConfig) (tasks : List Task) :
    Update → Prop
  | .mempool (.addBundleTxnConfirmation transactionHash signerIndex) =>
      signerIndex = 0 ∧ ∃ task ∈ tasks, ∃ network userOps, task.SendsOver config processor network ∧
        AllSubmitted config tasks userOps ∧
        HandledBy config.ethers processor network userOps (.ok transactionHash)
  | .reputation (.crashedHandleOps addr) =>
      ∃ task ∈ tasks, ∃ network userOps userOp reason, task.SendsOver config processor network ∧
        AllSubmitted config tasks userOps ∧
        FailedOn config.ethers processor network userOps userOp reason ∧
        Accountable processor network reason userOp addr
  | _ => True

variable {processor : ProcessorConfig} {network : Network}

theorem allSubmitted_of_pendingIn {s : State} {userOps : List UserOperation}
    (hs : Pools (Submitted config tasks) s) (hpending : PendingIn s userOps) :
    AllSubmitted config tasks userOps := by
  intro userOp huserOp
  obtain ⟨entry, hentry, rfl⟩ := List.mem_map.mp (hpending.subset huserOp)
  exact ⟨entry, hs entry (List.mem_of_mem_filter hentry), rfl⟩

theorem grounded_of_justified {task : Task} (htask : task ∈ tasks)
    (hsends : task.SendsOver config processor network) {u : Update}
    (h : Justified config.ethers processor network (Pools (Submitted config tasks)) u) :
    Grounded config processor tasks u := by
  unfold Grounded
  split
  · obtain ⟨hsigner, s, userOps, hs, hpending, hhandled⟩ := h
    exact ⟨hsigner, task, htask, network, userOps, hsends,
      allSubmitted_of_pendingIn hs hpending, hhandled⟩
  · obtain ⟨s, userOps, userOp, reason, hs, hpending, hfailed, haccountable⟩ := h
    exact ⟨task, htask, network, userOps, userOp, reason, hsends,
      allSubmitted_of_pendingIn hs hpending, hfailed, haccountable⟩
  · trivial

theorem program_grounded {task : Task} (htask : task ∈ tasks)
    (hsends : task.services.isSome → ∃ network, task.SendsOver config processor network) :
    (task.program config).Guarantees (Pools (Submitted config tasks))
      (Grounded config processor tasks) fun _ => True := by
  refine program_guarantees htask ⟨fun _ _ _ => trivial, fun _ => trivial, fun _ => trivial⟩
    ⟨fun _ => trivial, fun _ _ _ _ _ => trivial, fun _ => trivial, fun _ => trivial⟩
    ⟨fun _ => trivial, fun _ => trivial, trivial, trivial⟩ ?_
  intro services force hcase
  have hservices : task.services = some services := by
    rcases hcase with rfl | ⟨_, pastEvents, rfl⟩
    · rfl
    · rfl
  obtain ⟨network, hover⟩ := hsends (Option.isSome_iff_exists.mpr ⟨services, hservices⟩)
  have hprocessor : services.sendBundle = sendBundle config.ethers processor network := by
    obtain ⟨sending, hsending, hsend⟩ := hover
    cases hservices.symm.trans hsending
    exact hsend
  have hsame : services =
      { services with sendBundle := sendBundle config.ethers processor network } := by
    rw [← hprocessor]
  rw [hsame]
  exact (doAttemptBundle_justified services force).weaken fun _ hu =>
    grounded_of_justified htask hover hu

/-- In every run of a bundler that sends its bundles with the processor, each
of them with answers of its own, all transactions noted and all bans are
grounded in operations that were sent to the APIs. -/
theorem run_grounded
    (hsends : ∀ task ∈ tasks, task.services.isSome →
      ∃ network, task.SendsOver config processor network)
    (whiteList blackList : List String) (schedule : List ℕ) :
    AllSteps (Config.step Update.apply)
      (Config.Writes fun _ u => Grounded config processor tasks u)
      (start config whiteList blackList tasks) schedule := by
  refine allSteps_of_mem (Config.step Update.apply)
    (I := Guarded (Submitted config tasks) fun u => WritesOnly (Submitted config tasks) u ∧
      Grounded config processor tasks u) ?_ ?_
  · intro c h i _
    refine ⟨?_, guarded_step (submitted_ignoresStatus tasks) (fun _ hu => hu.1) h i⟩
    intro u hpending
    exact ((h.2 i).of_pending hpending).2
  · refine guarded_start whiteList blackList ?_
    intro task htask
    have hboth := (program_writesOnly htask).and (program_grounded htask (hsends task htask))
    exact hboth.mono (fun _ hs => ⟨hs, hs⟩) (fun _ hu => hu) fun _ _ => trivial

end Sent

section Given

/-- An entry is written over a pooled one of its slot, with bumped fees. -/
def ReplacesPooled (visited : State → Prop) : Update → Prop
  | .mempool (.doUpdateMempoolState entry old) => ∃ s replaced, visited s ∧ old = some replaced ∧
      replaced ∈ s.standardPool.values ∧ slot replaced.userOp = slot entry.userOp ∧
        FeesBumped replaced.userOp entry.userOp
  | _ => True

theorem addUserOps_replaces (visited : State → Prop) (answers : EthApi.Answers)
    (userOps : List RawOperation) :
    (DebugApi.addUserOps config answers userOps).Guarantees visited (ReplacesPooled visited)
      fun _ => True := by
  refine addUserOps_guarantees ?_
  intro _ _ param _
  refine addUserOpWithoutSender_guarantees ?_ (fun _ => trivial) (fun _ => trivial) _
  intro s hs old hfind hbumped
  obtain ⟨hmem, hslot⟩ := findBySenderNonce_eq_some hfind
  exact ⟨s, old, hs, rfl, hmem, hslot, hbumped⟩

/-- Whatever runs besides it, debug_bundler_addUserOps adds nothing new: it
writes an operation only over one that it found pooled in the same slot. -/
theorem given_operations_replace {answers : EthApi.Answers} {userOps : List RawOperation} {j : ℕ}
    (hthread : c.threads[j]? = some (DebugApi.addUserOps config answers userOps))
    (schedule : List ℕ) (entry : MempoolEntry) (old : Option MempoolEntry)
    (hpending : (c.exec Update.apply schedule).pending j =
      some (.mempool (.doUpdateMempoolState entry old))) :
    ∃ s replaced, Visited c schedule s ∧ old = some replaced ∧
      replaced ∈ s.standardPool.values ∧ slot replaced.userOp = slot entry.userOp ∧
        FeesBumped replaced.userOp entry.userOp := by
  have hat : (c.exec Update.apply schedule).At j fun p =>
      p.Guarantees (Visited c schedule) (ReplacesPooled (Visited c schedule)) fun _ => True := by
    refine Config.At.exec_guarantees Update.apply ?_ (allStates_passed c schedule)
    intro p hp
    cases hthread.symm.trans hp
    exact addUserOps_replaces _ answers userOps
  exact hat.of_pending hpending

end Given

end Runs

section Concrete

def unsafeApi : ApiConfig where
  ethers := documentedFunctions
  gasConfig := MAINNET_CONFIG
  numberText value := toString value.num
  entryPointAddress := sponsor
  isUnsafeMode := true
  stakes := plainConfig

/-- Every simulation returns with a window that ends in ten minutes. -/
def answersWith (userOpHash : String) : EthApi.Answers where
  simulation _ := partialSimulation (endingAt 1700000600)
  now := 1700000000
  getUserOpHash _ := .ok userOpHash
  balanceOf := richDeposits

/-- One operation is pooled, and one with twice its fees is handed over. -/
def bumpedGiven : Config State Update JsError :=
  ⟨run (Operation.perform plainConfig 5) (State.initial [] []) [plainAdd account hash₁],
    [DebugApi.addUserOps unsafeApi (answersWith hash₂) [rawOf (plainOp account 1 20 none none)]]⟩

theorem bumped_replaces :
    ∃ s replaced, Visited bumpedGiven [0] s ∧
      some (newEntry (plainParam (plainOp account 1 10 none none) hash₁)) = some replaced ∧
      replaced ∈ s.standardPool.values ∧
      slot replaced.userOp = slot (plainOp account 1 20 none none) ∧
        FeesBumped replaced.userOp (plainOp account 1 20 none none) :=
  have hthread : bumpedGiven.threads[0]? = some (DebugApi.addUserOps unsafeApi (answersWith hash₂)
    [rawOf (plainOp account 1 20 none none)]) := rfl
  given_operations_replace hthread [0]
    (newEntry (debugParam (plainOp account 1 20 none none) hash₂))
    (some (newEntry (plainParam (plainOp account 1 10 none none) hash₁))) (by decide +kernel)

/-- An attempt that sends what is pending over this network. -/
def attemptOver (network : Network) : Task :=
  .attempt { firstCrashes with
    sendBundle := sendBundle documentedFunctions sponsorOnly network } true

/-- An operation is sent to the API and bundled, and at the second attempt the
node answers that a transaction of the signer is there already. -/
def sentAndBundled : List Task :=
  [.sendUserOperation (answersWith hash₁)
      (some (rawOf { plainOp account 1 10 none none with preVerificationGas := 60000 })) sponsor,
    attemptOver sendsAll, attemptOver { sendsAll with getNonce := .ok 1 }]

theorem sentAndBundled_grounded :
    AllSteps (Config.step Update.apply)
      (Config.Writes fun _ u => Grounded unsafeApi sponsorOnly sentAndBundled u)
      (start unsafeApi [] [] sentAndBundled)
      (List.replicate 4 0 ++ List.replicate 7 1 ++ List.replicate 7 2) := by
  refine run_grounded ?_ [] [] _
  intro task htask hattempts
  rcases List.mem_cons.mp htask with rfl | hattempt
  · cases hattempts
  · rcases List.mem_pair.mp hattempt with rfl | rfl
    · exact ⟨_, _, rfl, rfl⟩
    · exact ⟨_, _, rfl, rfl⟩

end Concrete

end Bundler.SubmittedOperations
