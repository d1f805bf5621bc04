import Bundler.CounterTotals
import Bundler.Credits
import Bundler.SubmittedOperations

/-!
What it takes for an address to be throttled or banned. Every operation that
was sent to one of the APIs and got through its checks has credit for the
addresses it names, and an address is not seen more often than that, however
the requests, attempts and events of a run interleave. So without a ban for a
crash and without the list, the counters of an address are held against it only
for operations that name it.
-/
namespace Bundler.EarnedSanctions

open KeyedRecords AsyncPrograms DataModel StateService ReputationManager DepositManager
  MempoolHelper MempoolManager BundleManager Packing InputParameters EthApi DebugApi HourlyDecay
  CounterTotals SubmittedOperations Operations Runs Interleavings Credits

section Sightings

variable (addr : String)

/-- Whether one of the addresses is the address, in whatever letter case. -/
def sighting (addrs : List String) : ℕ := if toLowerCase addr ∈ addrs.map toLowerCase then 1 else 0

/-- How often an update counts the address as seen. -/
def sightings : Update → ℕ
  | .reputation (.updateSeenStatus other .increment) => sighting addr [other]
  | .reputation (.updateSeenStatusBatch addrs) => sighting addr addrs
  | _ => 0

/-- How often an operation names it, as the sender and as another entity. -/
def named (param : RelayUserOpParam) : ℕ :=
  sighting addr [param.userOp.sender] +
    sighting addr ([param.userOp.paymaster, param.userOp.factory,
      param.aggregatorInfo.map StakeInfo.addr].filterMap id)

variable (config : ApiConfig)

/-- The operation of a request that got through its checks. -/
def accepted : Except JsError (Except RpcError Relayed) → Option RelayUserOpParam
  | .ok (.ok relayed) => some relayed.param
  | _ => none

/-- The operations that a task hands to the pool. -/
def handedOver : Task → List RelayUserOpParam
  | .sendUserOperation answers userOpInput entryPointInput =>
      (accepted (checkAndValidate config answers userOpInput entryPointInput)).toList
  | .addUserOps answers userOps =>
      userOps.filterMap fun userOpInput => (hashOperation config answers userOpInput).toOption
  | _ => []

def namedBy (task : Task) : ℕ := ((handedOver config task).map (named addr)).sum

/-- How often the operations of the tasks name the address. -/
def namings (tasks : List Task) : ℕ := (tasks.map (namedBy addr config)).sum

end Sightings

section Updates

variable {s : State} {addr : String}

/-- The update is none of those that set counters or lists. -/
def Earned : Update → Prop
  | .reputation (.setReputation _) => False
  | .reputation (.hourlyCron _) => False
  | .reputation (.addWhitelist _) => False
  | .reputation (.addBlacklist _) => False
  | _ => True

/-- The update punishes the address for a crash. -/
def Crashes (addr : String) : Update → Prop
  | .reputation (.crashedHandleOps other) => toLowerCase other = toLowerCase addr
  | _ => False

theorem opsSeen_call (call : CounterCall) :
    opsSeen (ReputationUpdate.apply s call.update) addr =
      if call.isFor addr then
        (called (toLowerCase addr) (s.reputationEntries.get (toLowerCase addr)) call).opsSeen
      else opsSeen s addr := by
  unfold opsSeen
  rw [get_update]
  split <;> rfl

/-- A call other than a crash raises opsSeen by no more than it counts. -/
theorem opsSeen_called_le (entry : Option ReputationEntry) (call : CounterCall)
    (hcrash : ¬call.isCrash) :
    (called (toLowerCase addr) entry call).opsSeen.toNat ≤
      ((entry.map ReputationEntry.opsSeen).getD 0).toNat +
        if call.isIncrement then 1 else 0 := by
  cases call with
  | updateSeenStatus other action =>
    cases action <;> cases entry <;> simp [called, CounterCall.isIncrement]
  | updateIncludedStatus other => cases entry <;> simp [called, CounterCall.isIncrement]
  | crashedHandleOps other => exact absurd rfl hcrash

theorem sightings_of_isFor {call : CounterCall} (hfor : call.isFor addr) :
    sightings addr (.reputation call.update) = if call.isIncrement then 1 else 0 := by
  have haddr : toLowerCase call.addr = toLowerCase addr := of_decide_eq_true hfor
  cases call with
  | updateSeenStatus other action =>
    cases action with
    | increment =>
      show sighting addr [other] = 1
      exact if_pos (List.mem_singleton.mpr haddr.symm)
    | decrement => rfl
  | updateIncludedStatus other => rfl
  | crashedHandleOps other => rfl

theorem opsSeen_call_le (call : CounterCall) (hcrash : call.isFor addr → ¬call.isCrash) :
    (opsSeen (ReputationUpdate.apply s call.update) addr).toNat ≤
      (opsSeen s addr).toNat + sightings addr (.reputation call.update) := by
  rw [opsSeen_call]
  by_cases hfor : call.isFor addr
  · rw [if_pos hfor, sightings_of_isFor hfor]
    exact opsSeen_called_le _ call (hcrash hfor)
  · rw [if_neg hfor]
    exact Nat.le_add_right _ _

theorem opsSeen_batch_le (addrs : List String) :
    (opsSeen (ReputationUpdate.apply s (.updateSeenStatusBatch addrs)) addr).toNat ≤
      (opsSeen s addr).toNat + sighting addr addrs := by
  show (((StateService.updateSeenStatusBatch s.reputationEntries addrs).get
    (toLowerCase addr)).map ReputationEntry.opsSeen |>.getD 0).toNat ≤ _
  rw [get_updateSeenStatusBatch]
  unfold sighting
  split
  · exact opsSeen_called_le _ (.updateSeenStatus addr .increment) Bool.false_ne_true
  · exact Nat.le_add_right _ _

theorem opsSeen_update {u : Update} (hearned : Earned u) (hcrash : ¬Crashes addr u) :
    (opsSeen (u.apply s).1 addr).toNat ≤ (opsSeen s addr).toNat + sightings addr u := by
  cases u with
  | mempool update =>
    show (opsSeen (update.apply s).1 addr).toNat ≤ _
    unfold opsSeen
    rw [mempool_reputationEntries]
    exact Nat.le_add_right _ _
  | reputation update =>
    cases update with
    | updateSeenStatus other action =>
      exact opsSeen_call_le (.updateSeenStatus other action) nofun
    | updateSeenStatusBatch addrs => exact opsSeen_batch_le addrs
    | updateIncludedStatus other => exact opsSeen_call_le (.updateIncludedStatus other) nofun
    | crashedHandleOps other =>
      refine opsSeen_call_le (.crashedHandleOps other) ?_
      intro hfor
      have hother : toLowerCase other = toLowerCase addr := of_decide_eq_true hfor
      exact absurd hother hcrash
    | setReputation reputations => exact hearned.elim
    | hourlyCron entry => exact hearned.elim
    | clearState => exact Nat.zero_le _
    | addWhitelist items => exact hearned.elim
    | addBlacklist items => exact hearned.elim

/-- No address has been included less than never. -/
def IncludedNonneg (s : State) : Prop :=
  ∀ addr, ∀ entry ∈ s.reputationEntries.get addr, 0 ≤ entry.opsIncluded

theorem includedNonneg_insert {entries : ReputationEntries} {written : ReputationEntry}
    (h : ∀ addr, ∀ entry ∈ entries.get addr, 0 ≤ entry.opsIncluded)
    (hwritten : 0 ≤ written.opsIncluded) :
    ∀ addr, ∀ entry ∈ (entries.insert written).get addr, 0 ≤ entry.opsIncluded := by
  intro addr entry hentry
  rw [KeyedRecord.get_insert] at hentry
  split at hentry
  · obtain rfl := Option.some.inj hentry
    exact hwritten
  · exact h addr entry hentry

theorem opsIncluded_called {entry : Option ReputationEntry} (call : CounterCall) (addr : String)
    (hentry : ∀ stored ∈ entry, 0 ≤ stored.opsIncluded) :
    0 ≤ (called addr entry call).opsIncluded := by
  cases entry with
  | none => cases call <;> exact le_rfl
  | some stored =>
    have hstored := hentry stored rfl
    cases call with
    | updateSeenStatus other action => exact hstored
    | updateIncludedStatus other =>
      show 0 ≤ stored.opsIncluded + 1
      omega
    | crashedHandleOps other => exact le_rfl

theorem includedNonneg_call (h : IncludedNonneg s) (call : CounterCall) :
    IncludedNonneg (ReputationUpdate.apply s call.update) := by
  unfold IncludedNonneg
  rw [update_reputationEntries]
  exact includedNonneg_insert h (opsIncluded_called call _ (h _))

theorem includedNonneg_update (h : IncludedNonneg s) {u : Update} (hearned : Earned u) :
    IncludedNonneg (u.apply s).1 := by
  cases u with
  | mempool update =>
    show IncludedNonneg (update.apply s).1
    unfold IncludedNonneg
    rw [mempool_reputationEntries]
    exact h
  | reputation update =>
    cases update with
    | updateSeenStatus other action => exact includedNonneg_call h (.updateSeenStatus other action)
    | updateSeenStatusBatch addrs =>
      intro addr entry hentry
      change entry ∈
        (StateService.updateSeenStatusBatch s.reputationEntries addrs).get addr at hentry
      rw [get_updateSeenStatusBatch] at hentry
      split at hentry
      · obtain rfl := Option.some.inj hentry
        exact opsIncluded_called _ _ (h addr)
      · exact h addr entry hentry
    | updateIncludedStatus other => exact includedNonneg_call h (.updateIncludedStatus other)
    | crashedHandleOps other => exact includedNonneg_call h (.crashedHandleOps other)
    | setReputation reputations => exact hearned.elim
    | hourlyCron entry => exact hearned.elim
    | clearState =>
      intro addr entry hentry
      cases hentry
    | addWhitelist items => exact hearned.elim
    | addBlacklist items => exact hearned.elim

theorem blackList_update {u : Update} (hearned : Earned u) :
    (u.apply s).1.blackList = s.blackList := by
  cases u with
  | mempool update => exact mempool_blackList s update
  | reputation update =>
    cases update with
    | addBlacklist items => exact hearned.elim
    | updateSeenStatus other action => rfl
    | updateSeenStatusBatch addrs => rfl
    | updateIncludedStatus other => rfl
    | crashedHandleOps other => rfl
    | setReputation reputations => rfl
    | hourlyCron entry => rfl
    | clearState => rfl
    | addWhitelist items => rfl

end Updates

section Statuses

variable {s : State} {addr : String}

theorem opsSeen_of_get {entry : ReputationEntry}
    (hget : entry ∈ s.reputationEntries.get (toLowerCase addr)) :
    opsSeen s addr = entry.opsSeen := by
  unfold opsSeen
  rw [hget]
  rfl

/-- What is not on the list has to be seen often to be throttled. -/
theorem opsSeen_of_throttled (hincluded : IncludedNonneg s)
    (hlisted : toLowerCase addr ∉ s.blackList) (h : statusIn s addr ≠ .ok) :
    minInclusionDenominator * (throttlingSlack + 1) ≤ opsSeen s addr := by
  rw [ne_eq, statusIn_eq_ok_iff] at h
  push Not at h
  obtain ⟨entry, hget, hstatus⟩ := h.2 hlisted
  rw [ne_eq, entryStatus_eq_ok_iff] at hstatus
  have hnonneg := hincluded _ entry hget
  rw [opsSeen_of_get hget]
  unfold minInclusionDenominator throttlingSlack at *
  omega

/-- And even more often to be banned. -/
theorem opsSeen_of_banned (hincluded : IncludedNonneg s)
    (hlisted : toLowerCase addr ∉ s.blackList) (h : statusIn s addr = .banned) :
    minInclusionDenominator * (banSlack + 1) ≤ opsSeen s addr := by
  rw [statusIn_eq_banned_iff] at h
  obtain ⟨entry, hget, hstatus⟩ := h.2.resolve_left hlisted
  rw [entryStatus_eq_banned_iff] at hstatus
  have hnonneg := hincluded _ entry hget
  rw [opsSeen_of_get hget]
  unfold minInclusionDenominator banSlack at *
  omega

end Statuses

/-- The task sets no counters: it is no debug_bundler_setReputation, and no
tick but of a cron that was started before there were any entries. -/
def EarnsOnly : Task → Prop
  | .hourlyTick reputationEntries => reputationEntries = .empty
  | .setReputation _ => False
  | _ => True

section Programs

variable {config : ApiConfig} {param : RelayUserOpParam} {addr : String}

/-- The program does nothing that earned counters exclude, within this credit
for the address. -/
abbrev Sights (addr : String) (credit : ℕ) {α : Type} (p : Async α) : Prop :=
  Spends (sightings addr) Earned credit p

/-- It counts nobody as seen. -/
abbrev Free (addr : String) (u : Update) : Prop := Earned u ∧ sightings addr u = 0

theorem updateSeenStatusBatch_sights (addrs : List String) :
    Sights addr (sighting addr addrs) (ReputationManager.updateSeenStatusBatch addrs) := by
  unfold ReputationManager.updateSeenStatusBatch
  split
  · exact trivial
  · exact ⟨⟨trivial, le_rfl⟩, fun _ => trivial⟩

theorem updateSeenStatus_sights (aggregator : Option String) (userOp : UserOperation) :
    Sights addr (sighting addr [userOp.sender] +
      sighting addr ([userOp.paymaster, userOp.factory, aggregator].filterMap id))
      (MempoolHelper.updateSeenStatus aggregator userOp) := by
  unfold MempoolHelper.updateSeenStatus ReputationManager.updateSeenStatus
  refine Spends.bind ?_ fun _ => updateSeenStatusBatch_sights _
  cases hsender : truthy userOp.sender with
  | none => exact trivial
  | some sender =>
    obtain ⟨hsame, _⟩ := Option.filter_eq_some_iff.mp hsender
    cases hsame
    refine ⟨⟨trivial, le_rfl⟩, fun r => ?_⟩
    cases r with
    | ok _ => exact trivial
    | error e =>
      have hcaught : Sights addr 0 (if isRpcError e then pure ⟨⟩ else throw e : Async PUnit) := by
        split
        · exact trivial
        · exact trivial
      exact hcaught.mono (Nat.zero_le _)

theorem addCheckedUserOp_sights (checked : MempoolEntryWithMetadata) :
    Sights addr (named addr param) (addCheckedUserOp param checked) := by
  have hupdate : (updateState (.mempool (.doUpdateMempoolState checked.1
      checked.2.oldEntry))).Guarantees (fun _ => True) (Free addr) fun _ => True :=
    ⟨⟨trivial, rfl⟩, fun _ => trivial⟩
  refine Spends.after_free hupdate fun _ => ?_
  have hend : ∀ _ : PUnit, Sights addr 0
      (pure (.ok param.userOpHash) : Async (Except RpcError String)) := fun _ => trivial
  exact (updateSeenStatus_sights _ _).bind hend

theorem addUserOp_sights (stakes : StakeConfig) (balanceOf : BalanceOf) :
    Sights addr (named addr param) (addUserOp stakes balanceOf param) := by
  refine Spends.after_free ((checkPaymasterDeposit_readOnly _ _).guarantees _ _) fun _ => ?_
  refine Spends.read_bind fun s => ?_
  refine Spends.after_free ((replaceOrAddUserOpChecks_readOnly _ _ _ _).guarantees _ _) ?_
  intro res
  cases res with
  | error error => exact trivial
  | ok checked => exact addCheckedUserOp_sights checked

theorem addUserOpWithoutSender_sights (balanceOf : BalanceOf) :
    Sights addr (named addr param) (addUserOpWithoutSender balanceOf param) := by
  refine Spends.after_free ((checkPaymasterDeposit_readOnly _ _).guarantees _ _) fun _ => ?_
  refine Spends.read_bind fun s => ?_
  cases findBySenderNonce param.userOp.sender param.userOp.nonce s.standardPool with
  | none => exact trivial
  | some old =>
    dsimp only
    cases checkReplaceUserOp (newEntry param, { metadata param with oldEntry := old }) with
    | error error => exact trivial
    | ok checked => exact addCheckedUserOp_sights checked

theorem sendUserOperation_sights (answers : EthApi.Answers) (userOpInput : Option RawOperation)
    (entryPointInput : Option String) :
    Sights addr (namedBy addr config (.sendUserOperation answers userOpInput entryPointInput))
      (EthApi.sendUserOperation config answers userOpInput entryPointInput) := by
  have hnamed : namedBy addr config (.sendUserOperation answers userOpInput entryPointInput) =
      ((accepted (checkAndValidate config answers userOpInput entryPointInput)).toList.map
        (named addr)).sum := rfl
  rw [hnamed]
  unfold EthApi.sendUserOperation
  cases checkAndValidate config answers userOpInput entryPointInput with
  | error e => exact trivial
  | ok ready =>
    cases ready with
    | error error => exact trivial
    | ok relayed =>
      show Sights addr (named addr relayed.param) (sendUserOpToMempool config answers relayed)
      unfold sendUserOpToMempool
      cases relayed.result.validation.senderInfo with
      | some info => exact addUserOp_sights _ _
      | none => exact addUserOpWithoutSender_sights _

theorem addUserOps_sights (answers : EthApi.Answers) (userOps : List RawOperation) :
    Sights addr (namedBy addr config (.addUserOps answers userOps))
      (DebugApi.addUserOps config answers userOps) := by
  induction userOps with
  | nil => exact trivial
  | cons userOpInput userOps ih =>
    have hnamed : namedBy addr config (.addUserOps answers (userOpInput :: userOps)) =
        ((hashOperation config answers userOpInput).toOption.map (named addr)).getD 0 +
          namedBy addr config (.addUserOps answers userOps) := by
      show (((userOpInput :: userOps).filterMap fun input =>
        (hashOperation config answers input).toOption).map (named addr)).sum = _
      rw [List.filterMap_cons]
      cases (hashOperation config answers userOpInput).toOption with
      | none => exact (Nat.zero_add _).symm
      | some param => rfl
    rw [hnamed]
    refine Spends.bind ?_ fun _ => ih
    beta_reduce
    cases hashOperation config answers userOpInput with
    | error e => exact trivial
    | ok param => exact (addUserOpWithoutSender_sights answers.balanceOf).detach

/-- An attempt takes sightings back, and makes none. -/
theorem free_allowsSending : AllowsSending (fun _ => True) (Free addr) where
  removeUserOp _ := ⟨trivial, rfl⟩
  updateEntryStatus _ _ _ _ _ := ⟨trivial, rfl⟩
  updateSeenStatus _ := ⟨trivial, rfl⟩
  updateIncludedStatus _ := ⟨trivial, rfl⟩
  removeUserOpsForBannedAddr _ := ⟨trivial, rfl⟩
  crashedHandleOps _ := ⟨trivial, rfl⟩
  addBundleTxnConfirmation _ _ := ⟨trivial, rfl⟩

theorem doAttemptBundle_free (services : Services) (force : Bool) :
    (doAttemptBundle services force).Guarantees (fun _ => True) (Free addr) fun _ => True :=
  (getEntries_guarantees (fun _ => ⟨trivial, rfl⟩) services force).seq fun entries =>
    free_allowsSending.attemptWith_guarantees services entries

/-- What a task counts is what its operations name. The hourly cron was
started with no entries, and no counters are set through the debug API. -/
theorem program_sights {task : Task} (htask : EarnsOnly task) :
    Sights addr (namedBy addr config task) (task.program config) := by
  cases task with
  | sendUserOperation answers userOpInput entryPointInput =>
    exact (sendUserOperation_sights answers userOpInput entryPointInput).detach
  | attempt services force =>
    exact Spends.of_guarantees ((doAttemptBundle_free services force).seq fun _ => trivial)
  | sendBundleNow services pastEvents =>
    have hnow : (DebugApi.sendBundleNow services pastEvents).Guarantees (fun _ => True)
        (Free addr) fun _ => True :=
      (doAttemptBundle_free services true).seq fun _ =>
        (free_allowsSending.handlePastEvents_guarantees pastEvents).seq fun _ => trivial
    exact Spends.of_guarantees (hnow.seq fun _ => trivial)
  | handleEvents pastEvents =>
    exact Spends.of_guarantees (free_allowsSending.handlePastEvents_guarantees pastEvents)
  | hourlyTick reputationEntries =>
    cases htask
    exact trivial
  | addUserOps answers userOps => exact addUserOps_sights answers userOps
  | setReputation reputations => exact htask.elim
  | clearState =>
    refine ⟨⟨trivial, le_rfl⟩, fun r => ?_⟩
    cases r with
    | ok _ => exact ⟨⟨trivial, le_rfl⟩, fun _ => trivial⟩
    | error e => exact trivial
  | clearMempool => exact ⟨⟨trivial, le_rfl⟩, fun _ => trivial⟩
  | clearReputation => exact ⟨⟨trivial, le_rfl⟩, fun _ => trivial⟩

end Programs

section Runs

variable {config : ApiConfig} {tasks : List Task} {addr : String}

theorem funded_start (htasks : ∀ task ∈ tasks, EarnsOnly task) (whiteList blackList : List String) :
    Funded (sightings addr) Earned (start config whiteList blackList tasks)
      (namings addr config tasks) :=
  funded_map (fun task htask => program_sights (htasks task htask)) _

/-- The lists and the inclusions of a run that only earns its counters. -/
def Kept (blackList : List String) (s : State) : Prop :=
  s.blackList = blackList ∧ IncludedNonneg s

theorem kept_run (config : ApiConfig) (htasks : ∀ task ∈ tasks, EarnsOnly task)
    (whiteList blackList : List String) (schedule : List ℕ) :
    AllStates (Config.step Update.apply) (fun c => Kept blackList c.state)
      (start config whiteList blackList tasks) schedule := by
  have hinitial : IncludedNonneg (State.initial whiteList blackList) := by
    intro addr entry hentry
    cases hentry
  have hstart : Funded (sightings "") Earned (start config whiteList blackList tasks)
      (namings "" config tasks) := funded_start htasks whiteList blackList
  have hrun := allStates_of_invariant (Config.step Update.apply)
    (I := fun c => Kept blackList c.state ∧ ∃ credit, Funded (sightings "") Earned c credit) ?_
    ⟨⟨rfl, hinitial⟩, _, hstart⟩ schedule
  · exact hrun.imp _ fun _ h => h.1
  · rintro c i ⟨hkept, credit, hfunded⟩
    rcases funded_step Update.apply hfunded i with
      ⟨hpending, hfunded'⟩ | ⟨u, left, hpending, hearned, _, hfunded'⟩
    · refine ⟨?_, credit, hfunded'⟩
      rw [Config.step_state_of_not_pending _ hpending]
      exact hkept
    · refine ⟨?_, left, hfunded'⟩
      rw [Config.step_state_of_pending _ hpending]
      exact ⟨(blackList_update hearned).trans hkept.1, includedNonneg_update hkept.2 hearned⟩

/-- Whatever the order of the steps, an address that is not on the list and is
not punished for a crash is throttled only when the operations sent to the APIs
name it a hundred and ten times, and banned only when they do five hundred and
ten times. -/
theorem sanctions_earned (htasks : ∀ task ∈ tasks, EarnsOnly task)
    (whiteList : List String) {blackList : List String} (hlisted : toLowerCase addr ∉ blackList)
    {schedule : List ℕ}
    (hcrash : AllSteps (Config.step Update.apply) (Config.Writes fun _ u => ¬Crashes addr u)
      (start config whiteList blackList tasks) schedule) :
    AllStates (Config.step Update.apply) (fun c =>
        (statusIn c.state addr ≠ .ok → 110 ≤ namings addr config tasks) ∧
          (statusIn c.state addr = .banned → 510 ≤ namings addr config tasks))
      (start config whiteList blackList tasks) schedule := by
  have hmeasure (s : State) (u : Update) (hu : ¬Crashes addr u) (hearned : Earned u) :
      (opsSeen (u.apply s).1 addr).toNat ≤ (opsSeen s addr).toNat + sightings addr u :=
    opsSeen_update hearned hu
  have hseen := measure_le Update.apply (fun s => (opsSeen s addr).toNat) hmeasure
    (funded_start htasks whiteList blackList) hcrash
  have hkept := kept_run config htasks whiteList blackList schedule
  refine (hseen.and _ hkept).imp _ ?_
  rintro c ⟨hle, hlist, hincluded⟩
  rw [← hlist] at hlisted
  have hnone : (opsSeen (start config whiteList blackList tasks).state addr).toNat = 0 := rfl
  constructor
  · intro hstatus
    have hthrottled := opsSeen_of_throttled hincluded hlisted hstatus
    unfold minInclusionDenominator throttlingSlack at hthrottled
    omega
  · intro hstatus
    have hbanned := opsSeen_of_banned hincluded hlisted hstatus
    unfold minInclusionDenominator banSlack at hbanned
    omega

end Runs

section Concrete

instance (addr : String) (u : Update) : Decidable (Crashes addr u) :=
  match u with
  | .reputation (.crashedHandleOps other) =>
      inferInstanceAs (Decidable (toLowerCase other = toLowerCase addr))
  | .reputation (.updateSeenStatus _ _) => isFalse id
  | .reputation (.updateSeenStatusBatch _) => isFalse id
  | .reputation (.updateIncludedStatus _) => isFalse id
  | .reputation (.setReputation _) => isFalse id
  | .reputation (.hourlyCron _) => isFalse id
  | .reputation .clearState => isFalse id
  | .reputation (.addWhitelist _) => isFalse id
  | .reputation (.addBlacklist _) => isFalse id
  | .mempool _ => isFalse id

/-- An operation is handed over while addresses are included and an attempt runs. -/
def handedOverAndIncluded : List SubmittedOperations.Task :=
  [.addUserOps (answersWith hash₁) [rawOf (plainOp account 1 10 (some sponsor) none)],
    .handleEvents ⟨[.addressIncluded account, .addressIncluded sponsor], .ok ⟨⟩⟩,
    .attempt firstCrashes true]

theorem sponsor_sanctions_earned :
    AllStates (Config.step Update.apply) (fun c =>
        (statusIn c.state sponsor ≠ .ok →
            110 ≤ namings sponsor unsafeApi handedOverAndIncluded) ∧
          (statusIn c.state sponsor = .banned →
            510 ≤ namings sponsor unsafeApi handedOverAndIncluded))
      (start unsafeApi [] [] handedOverAndIncluded) [1, 0, 2, 1, 0, 2] := by
  refine sanctions_earned ?_ [] List.not_mem_nil (by decide +kernel)
  intro task htask
  rcases List.mem_cons.mp htask with rfl | htask
  · trivial
  · rcases List.mem_pair.mp htask with rfl | rfl
    · trivial
    · trivial

end Concrete

end Bundler.EarnedSanctions
