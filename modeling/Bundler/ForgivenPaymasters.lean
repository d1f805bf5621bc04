import Bundler.CounterTotals
import Bundler.RevertReasons
import Bundler.StrandedOperations

/-!
EREP-015: what an operation that fails on account of its account or factory
leaves of the seen counter of its paymaster. The admission counts the
operation, unless it makes the paymaster's entry, and the attempt that
removes it takes one off again if it knows the error by its text.
-/
namespace Bundler.ForgivenPaymasters

open KeyedRecords AsyncPrograms DataModel StateService ReputationManager DepositManager
  MempoolHelper MempoolManager BundleBuilder BundleManager StrandedOperations Operations Runs
  CounterTotals CounterCall RevertReasons

/-- The operation names the paymaster, in any letter case. -/
def SponsoredBy (paymaster : String) (entry : MempoolEntry) : Prop :=
  ∃ addr ∈ truthy entry.userOp.paymaster, toLowerCase addr = toLowerCase paymaster

/-- Sending the bundle does not ban the paymaster. -/
def SparesPaymaster (services : Services) (paymaster : String) : Prop :=
  ∀ bundle storageMap res crash, services.sendBundle bundle storageMap = .ok res →
    res.crashedHandleOps = some crash → ∀ addr ∈ truthy crash.addressToBan,
      toLowerCase addr ≠ toLowerCase paymaster

/-- A new operation of the paymaster, without an aggregator, that is accepted. -/
structure AcceptedNew (config : StakeConfig) (balanceOf : BalanceOf) (param : RelayUserOpParam)
    (paymaster : String) (s : State) : Prop where
  sponsored : param.userOp.paymaster = some paymaster
  nonempty : paymaster ≠ ""
  noAggregator : param.aggregatorInfo = none
  new : findBySenderNonce param.userOp.sender param.userOp.nonce s.standardPool = none
  accepted : Accepted config balanceOf param s

/-- The attempt hands out the operation and no other one of its paymaster, comes
to its re-validation, which returns Left, and does not ban the paymaster. -/
structure FailsAgain (services : Services) (force : Bool) (s : State) (userOp : UserOperation)
    (paymaster : String) (before : List MempoolEntry) (entry : MempoolEntry)
    (after : List MempoolEntry) (error : RpcError) : Prop where
  handedOut : StrandedOperations.handedOut services force s = before ++ entry :: after
  userOp : entry.userOp = userOp
  others : ∀ other ∈ before ++ after, ¬SponsoredBy paymaster other
  ended : services.pastEvents.ended = .ok ⟨⟩
  left : services.builder.validateUserOp entry = .ok (.error error)
  reached : ∀ s₂, s₂ = eventsState services force s → ∃ acc,
    before.foldlM (addEntryIn services.builder (MempoolHelper.getKnownSenders s₂.standardPool) s₂)
      .initial = .ok acc ∧
    screen services.builder (MempoolHelper.getKnownSenders s₂.standardPool) acc entry
      (statusIn s₂ entry.userOp.paymaster) (statusIn s₂ entry.userOp.factory) =
        .remove (some ⟨error.message, error.code⟩)
  spares : SparesPaymaster services paymaster

/-- The deposit of the entry's paymaster is read, if the build comes to that. -/
def DepositRead (builder : Builder) (knownSenders : List String) (s : State) (acc : BundleAcc)
    (entry : MempoolEntry) : Prop :=
  ∀ res paymaster, screen builder knownSenders acc entry (statusIn s entry.userOp.paymaster)
      (statusIn s entry.userOp.factory) = .fits res →
    truthy entry.userOp.paymaster = some paymaster →
    ∃ deposit, availableDeposit builder acc paymaster = .ok deposit

/-- No deposit read of the build rejects. -/
def DepositsRead (services : Services) (force : Bool) (s : State) : Prop :=
  let s₂ := eventsState services force s
  let knownSenders := MempoolHelper.getKnownSenders s₂.standardPool
  AllTried (addEntryIn services.builder knownSenders s₂)
    (DepositRead services.builder knownSenders s₂) .initial (handedOut services force s)

/-- The attempt takes one off the counter: it gets past the build, and the
error is recognized by its text. -/
def Forgives (services : Services) (force : Bool) (s : State) (error : RpcError) : Prop :=
  DepositsRead services force s ∧ isAccountOrFactoryError error.code error.message

section Seen

variable {paymaster : String} {s : State} {seen : ℤ}

/-- The paymaster has an entry, with this opsSeen. -/
def Seen (paymaster : String) (seen : ℤ) (s : State) : Prop :=
  ∃ entry, s.reputationEntries.get (toLowerCase paymaster) = some entry ∧ entry.opsSeen = seen

theorem Seen.opsSeen (h : Seen paymaster seen s) : opsSeen s paymaster = seen := by
  obtain ⟨entry, hget, rfl⟩ := h
  unfold CounterTotals.opsSeen
  rw [hget]
  rfl

theorem seen_congr {s' : State} (h : s'.reputationEntries = s.reputationEntries) :
    Seen paymaster seen s' ↔ Seen paymaster seen s := by
  unfold Seen
  rw [h]

theorem seen_update (h : Seen paymaster seen s) (call : CounterCall) :
    Seen paymaster (if isFor paymaster call then seen + seenTotal [call] else seen)
      (ReputationUpdate.apply s call.update) := by
  obtain ⟨entry, hget, rfl⟩ := h
  unfold Seen
  rw [get_update, hget]
  by_cases hfor : isFor paymaster call
  · rw [if_pos hfor, if_pos hfor]
    exact ⟨_, rfl, called_opsSeen _ _ _⟩
  · rw [if_neg hfor, if_neg hfor]
    exact ⟨entry, rfl, rfl⟩

end Seen

section Admission

theorem seenTotal_increment (addr : String) :
    seenTotal [.updateSeenStatus addr .increment] = 1 := rfl

variable {param : RelayUserOpParam} {paymaster : String} {s : State}

/-- Of the two updates of an admission the second always counts the paymaster. -/
theorem get_seenStatusUpdated {userOp : UserOperation}
    (hpaymaster : userOp.paymaster = some paymaster) (hne : paymaster ≠ "") :
    (seenStatusUpdated none userOp s).reputationEntries.get (toLowerCase paymaster) =
      some (called (toLowerCase paymaster)
        (if toLowerCase userOp.sender = toLowerCase paymaster then
          some (called (toLowerCase paymaster) (s.reputationEntries.get (toLowerCase paymaster))
            (.updateSeenStatus userOp.sender .increment))
        else s.reputationEntries.get (toLowerCase paymaster))
        (.updateSeenStatus paymaster .increment)) := by
  have hbatch : seenStatusUpdates none userOp =
      (truthy userOp.sender).toList.map (fun sender => .updateSeenStatus sender .increment) ++
        [.updateSeenStatusBatch (paymaster :: userOp.factory.toList)] := by
    unfold seenStatusUpdates
    rw [hpaymaster]
    cases userOp.factory with
    | none => rfl
    | some factory => rfl
  have hfirst : (((truthy userOp.sender).toList.map
        fun sender => ReputationUpdate.updateSeenStatus sender .increment).foldl
          ReputationUpdate.apply s).reputationEntries.get (toLowerCase paymaster) =
      if toLowerCase userOp.sender = toLowerCase paymaster then
        some (called (toLowerCase paymaster) (s.reputationEntries.get (toLowerCase paymaster))
          (.updateSeenStatus userOp.sender .increment))
      else s.reputationEntries.get (toLowerCase paymaster) := by
    by_cases hempty : userOp.sender = ""
    · have hother : toLowerCase userOp.sender ≠ toLowerCase paymaster := by
        rw [hempty]
        exact fun h => hne ((toLowerCase_eq_empty_iff paymaster).mp h.symm)
      rw [if_neg hother, hempty]
      rfl
    · rw [truthy_some hempty]
      refine (get_update s (.updateSeenStatus userOp.sender .increment) paymaster).trans ?_
      exact if_congr decide_eq_true_iff rfl rfl
  unfold seenStatusUpdated
  rw [hbatch, List.foldl_append]
  change (StateService.updateSeenStatusBatch _ (paymaster :: _)).get _ = _
  have hcounted : toLowerCase paymaster ∈
      (paymaster :: userOp.factory.toList).map toLowerCase := by simp
  rw [get_updateSeenStatusBatch, if_pos hcounted, hfirst]
  rfl

/-- How often the admission of an operation counts its paymaster: as the
sender too, and not when it has no entry to count in. -/
def timesCounted (paymaster sender : String) (s : State) : ℤ :=
  (if toLowerCase sender = toLowerCase paymaster then 1 else 0) +
    if (s.reputationEntries.get (toLowerCase paymaster)).isSome then 1 else 0

theorem seen_afterAdmission (hpaymaster : param.userOp.paymaster = some paymaster)
    (hne : paymaster ≠ "") (haggregator : param.aggregatorInfo = none) :
    Seen paymaster (CounterTotals.opsSeen s paymaster +
        timesCounted paymaster param.userOp.sender s) (afterAdmission param s none) := by
  unfold afterAdmission Seen
  rw [haggregator, Option.map_none, get_seenStatusUpdated hpaymaster hne, mempool_reputationEntries]
  refine ⟨_, rfl, ?_⟩
  unfold CounterTotals.opsSeen timesCounted
  by_cases hsame : toLowerCase param.userOp.sender = toLowerCase paymaster
  · rw [if_pos hsame, if_pos hsame]
    cases hget : s.reputationEntries.get (toLowerCase paymaster) with
    | none => rfl
    | some entry =>
      rw [called_opsSeen, called_opsSeen, seenTotal_increment, seenTotal_increment]
      exact add_assoc _ _ _
  · rw [if_neg hsame, if_neg hsame]
    cases hget : s.reputationEntries.get (toLowerCase paymaster) with
    | none => rfl
    | some entry =>
      rw [called_opsSeen, seenTotal_increment]
      exact congrArg (entry.opsSeen + ·) (zero_add 1).symm

end Admission

section Attempt

variable {services : Services} {paymaster : String} {s : State} {seen : ℤ}

theorem seen_eventEffect (h : Seen paymaster seen s) (effect : EventEffect) :
    Seen paymaster seen (EventEffect.apply s effect) := by
  cases effect with
  | userOperationSucceeded userOpHash =>
    exact (seen_congr (userOpRemoved_reputationEntries s _)).mpr h
  | userOperationFailed userOpHash =>
    exact (seen_congr (statusUpdated_reputationEntries s _ _)).mpr h
  | addressIncluded addr =>
    have hnext := seen_update h (.updateIncludedStatus addr)
    have htotal : seenTotal [.updateIncludedStatus addr] = 0 := rfl
    rwa [htotal, add_zero, ite_self] at hnext

theorem seen_eventsState (h : Seen paymaster seen s) (force : Bool) :
    Seen paymaster seen (eventsState services force s) := by
  have hhandOut : Seen paymaster seen (handOutState services force s) :=
    (seen_congr (mempool_reputationEntries s _)).mpr h
  unfold eventsState afterEvents
  exact List.foldlRecOn _ _ hhandOut fun s hs effect _ => seen_eventEffect hs effect

theorem seen_returned (h : Seen paymaster seen s) (userOpHashes : List String) :
    Seen paymaster seen (returned userOpHashes s) :=
  List.foldlRecOn _ _ h fun s hs _ _ =>
    (seen_congr (statusUpdated_reputationEntries s _ _)).mpr hs

theorem seen_forgiven_other (h : Seen paymaster seen s) {opDetails : RemoveUserOpDetails}
    (hother : ∀ addr ∈ truthy opDetails.paymaster, toLowerCase addr ≠ toLowerCase paymaster) :
    Seen paymaster seen (forgiven opDetails s) := by
  unfold forgiven forgivePaymaster
  split
  · rename_i err other _ hsome
    split
    · unfold ReputationManager.updateSeenStatus
      cases htruthy : truthy (some other) with
      | none => exact h
      | some addr =>
        have hne : ¬isFor paymaster (.updateSeenStatus addr .decrement) :=
          fun hfor => hother addr (hsome ▸ htruthy) (of_decide_eq_true hfor)
        have hnext := seen_update h (.updateSeenStatus addr .decrement)
        rwa [if_neg hne] at hnext
    · exact h
  · exact h

theorem seen_forgiven_own (h : Seen paymaster seen s) (hne : paymaster ≠ "") (userOpHash : String)
    (err : RemovalError) :
    Seen paymaster (if isAccountOrFactoryError err.errorCode err.message then seen - 1 else seen)
      (forgiven ⟨some paymaster, userOpHash, some err⟩ s) := by
  unfold forgiven forgivePaymaster
  dsimp only
  split
  · have hnext := seen_update h (.updateSeenStatus paymaster .decrement)
    have hfor : isFor paymaster (.updateSeenStatus paymaster .decrement) := decide_eq_true rfl
    rw [if_pos hfor] at hnext
    unfold ReputationManager.updateSeenStatus
    rw [truthy_some hne]
    exact hnext
  · exact h

theorem seen_banned (h : Seen paymaster seen s) {addressToBan : Option String}
    (hspares : ∀ addr ∈ truthy addressToBan, toLowerCase addr ≠ toLowerCase paymaster) :
    Seen paymaster seen (banned addressToBan s) := by
  unfold banned
  cases htruthy : truthy addressToBan with
  | none => exact h
  | some addr =>
    have hremoved : Seen paymaster seen (bannedRemoved s addr) :=
      (seen_congr (mempool_reputationEntries s _)).mpr h
    have hne : ¬isFor paymaster (.crashedHandleOps addr) :=
      fun hfor => hspares addr htruthy (of_decide_eq_true hfor)
    have hnext := seen_update hremoved (.crashedHandleOps addr)
    rwa [if_neg hne] at hnext

theorem seen_fromSendBundle (h : Seen paymaster seen s) (ready : BundleReadyToSend)
    (hspares : SparesPaymaster services paymaster) :
    Seen paymaster seen (runAlone (fromSendBundle services (some ready)) s).1 := by
  unfold fromSendBundle
  dsimp only
  cases hsend : services.sendBundle ready.bundle ready.storageMap with
  | error e => exact h
  | ok res =>
    obtain ⟨s', hs', _, hentries⟩ := afterSendBundle_run res s
    change Seen _ _ (Program.run Update.apply (afterSendBundle res >>= fun _ => pure _) s).1
    rw [Program.run_bind_of_ok Update.apply hs']
    refine (seen_congr hentries).mpr ?_
    cases hcrash : res.crashedHandleOps with
    | none => exact h
    | some crash =>
      have hbanned := seen_banned h (hspares _ _ res crash hsend hcrash)
      exact (seen_congr (userOpRemoved_reputationEntries _ _)).mpr hbanned

/-- An entry is marked at most once, with its own paymaster. -/
theorem addEntryIn_marked {builder : Builder} {knownSenders : List String} {acc acc' : BundleAcc}
    {entry : MempoolEntry} (h : addEntryIn builder knownSenders s acc entry = .ok acc') :
    ∃ marks, acc'.markedToRemoveUserOpsHashes = acc.markedToRemoveUserOpsHashes ++ marks ∧
      ∀ opDetails ∈ marks, opDetails.paymaster = entry.userOp.paymaster := by
  rcases addEntry_outcome h with ⟨_, haside⟩ | ⟨res, _, _, hadded⟩
  · rcases haside.listed with ⟨_, hsame⟩ | ⟨err, _, hmarked⟩
    · exact ⟨[], by rw [hsame, List.append_nil], nofun⟩
    · refine ⟨_, hmarked, ?_⟩
      intro opDetails hmem
      rw [List.mem_singleton.mp hmem]
  · exact ⟨[], by rw [hadded.marked, List.append_nil], nofun⟩

theorem foldlM_marked {builder : Builder} {knownSenders : List String} {acc acc' : BundleAcc}
    {entries : List MempoolEntry}
    (h : entries.foldlM (addEntryIn builder knownSenders s) acc = .ok acc') :
    ∃ marks, acc'.markedToRemoveUserOpsHashes = acc.markedToRemoveUserOpsHashes ++ marks ∧
      ∀ opDetails ∈ marks, ∃ entry ∈ entries, opDetails.paymaster = entry.userOp.paymaster := by
  refine foldlM_induction (I := fun done (acc' : BundleAcc) => ∃ marks,
    acc'.markedToRemoveUserOpsHashes = acc.markedToRemoveUserOpsHashes ++ marks ∧
      ∀ opDetails ∈ marks, ∃ entry ∈ done, opDetails.paymaster = entry.userOp.paymaster)
    _ ?_ ⟨[], (List.append_nil _).symm, nofun⟩ h
  rintro done entry acc₁ acc₂ _ ⟨marks, hmarks, hdone⟩ hstep
  obtain ⟨more, hmore, hown⟩ := addEntryIn_marked hstep
  refine ⟨marks ++ more, by rw [hmore, hmarks, List.append_assoc], ?_⟩
  intro opDetails hmem
  rcases List.mem_append.mp hmem with hold | hnew
  · obtain ⟨other, hother, hsame⟩ := hdone opDetails hold
    exact ⟨other, List.mem_append_left _ hother, hsame⟩
  · exact ⟨entry, List.mem_append_right _ List.mem_cons_self, hown opDetails hnew⟩

theorem seen_markedRemoved_other (h : Seen paymaster seen s) {marks : List RemoveUserOpDetails}
    (hothers : ∀ opDetails ∈ marks, ∀ addr ∈ truthy opDetails.paymaster,
      toLowerCase addr ≠ toLowerCase paymaster) :
    Seen paymaster seen (marks.foldl markedRemoved s) :=
  List.foldlRecOn _ _ h fun _ hs opDetails hmem =>
    (seen_congr (userOpRemoved_reputationEntries _ _)).mpr
      (seen_forgiven_other hs (hothers opDetails hmem))

variable {force : Bool} {userOp : UserOperation} {before after : List MempoolEntry}
  {entry : MempoolEntry} {error : RpcError}

/-- Of the marks of the build exactly one is for an operation of the paymaster. -/
theorem FailsAgain.marked
    (h : FailsAgain services force s userOp paymaster before entry after error)
    (hsponsored : userOp.paymaster = some paymaster) {ready : BundleReadyToSend}
    (hbuilt : built services force s = .ok ready) :
    ∃ first rest, ready.markedToRemoveUserOpsHashes =
        first ++ ⟨some paymaster, entry.userOpHash, some ⟨error.message, error.code⟩⟩ :: rest ∧
      ∀ opDetails ∈ first ++ rest, ∀ addr ∈ truthy opDetails.paymaster,
        toLowerCase addr ≠ toLowerCase paymaster := by
  obtain ⟨acc, hbefore, hscreen⟩ := h.reached _ rfl
  rw [built_eq_of_ended services force s h.ended, h.handedOut, List.foldlM_append,
    hbefore] at hbuilt
  obtain ⟨acc', hfold, rfl⟩ := (ready_eq_ok_iff _).mp hbuilt
  have hremoved : addEntryIn services.builder
      (MempoolHelper.getKnownSenders (eventsState services force s).standardPool)
      (eventsState services force s) acc entry =
        .ok (removed acc entry (some ⟨error.message, error.code⟩)) := by
    unfold addEntryIn addEntry
    rw [hscreen]
  change (entry :: after).foldlM (addEntryIn _ _ _) acc = Except.ok acc' at hfold
  rw [List.foldlM_cons, hremoved] at hfold
  obtain ⟨first, hfirst, hfirstOf⟩ := foldlM_marked hbefore
  obtain ⟨rest, hrest, hrestOf⟩ := foldlM_marked hfold
  refine ⟨first, rest, ?_, ?_⟩
  · change acc'.markedToRemoveUserOpsHashes = _
    rw [hrest]
    change (acc.markedToRemoveUserOpsHashes ++ [_]) ++ rest = _
    rw [hfirst, h.userOp, hsponsored, List.append_assoc]
    rfl
  · intro opDetails hmem addr haddr hsame
    have hother : ∃ other ∈ before ++ after, opDetails.paymaster = other.userOp.paymaster := by
      rcases List.mem_append.mp hmem with hmem | hmem
      · obtain ⟨other, hother, hpaymaster⟩ := hfirstOf opDetails hmem
        exact ⟨other, List.mem_append_left _ hother, hpaymaster⟩
      · obtain ⟨other, hother, hpaymaster⟩ := hrestOf opDetails hmem
        exact ⟨other, List.mem_append_right _ hother, hpaymaster⟩
    obtain ⟨other, hmemOther, hpaymaster⟩ := hother
    exact h.others other hmemOther ⟨addr, hpaymaster ▸ haddr, hsame⟩

theorem depositsRead_iff (hended : services.pastEvents.ended = .ok ⟨⟩) :
    DepositsRead services force s ↔ ∃ ready, built services force s = .ok ready := by
  let s₂ := eventsState services force s
  let knownSenders := MempoolHelper.getKnownSenders s₂.standardPool
  have hstep : DepositRead services.builder knownSenders s₂ = fun acc entry =>
      ∃ acc', addEntryIn services.builder knownSenders s₂ acc entry = .ok acc' := by
    funext acc entry
    refine propext ⟨addEntry_total, ?_⟩
    rintro ⟨acc', hok⟩ res paymaster hscreen hpaymaster
    exact addEntry_read hok hscreen hpaymaster
  rw [built_eq_of_ended services force s hended]
  change AllTried _ (DepositRead services.builder knownSenders s₂) _ _ ↔ _
  rw [hstep, ← foldlM_ok_iff_allTried]
  simp only [ready_eq_ok_iff]
  constructor
  · rintro ⟨acc, hacc⟩
    exact ⟨_, acc, hacc, rfl⟩
  · rintro ⟨_, acc, hacc, _⟩
    exact ⟨acc, hacc⟩

open Classical in
/-- The attempt takes the paymaster's one mark off its counter, if it forgives. -/
theorem seen_attempt
    (hfails : FailsAgain services force s userOp paymaster before entry after error)
    (hsponsored : userOp.paymaster = some paymaster) (hne : paymaster ≠ "")
    (h : Seen paymaster seen s) :
    Seen paymaster (seen - if Forgives services force s error then 1 else 0)
      (runAlone (doAttemptBundle services force) s).1 := by
  have hsome : handedOut services force s ≠ [] := by simp [hfails.handedOut]
  have huntil := untilSendBundle_run services force s hsome
  have hevents : Seen paymaster seen (eventsState services force s) := seen_eventsState h force
  unfold Forgives
  rw [depositsRead_iff hfails.ended, doAttemptBundle_eq]
  cases hbuilt : built services force s with
  | error e =>
    rw [hbuilt] at huntil
    have hrun := Program.run_bind_of_error Update.apply huntil (fromSendBundle services)
    unfold runAlone
    rw [hrun]
    simpa using hevents
  | ok ready =>
    rw [hbuilt] at huntil
    have hrun := Program.run_bind_of_ok Update.apply huntil (fromSendBundle services)
    unfold runAlone
    rw [hrun]
    refine seen_fromSendBundle ?_ ready hfails.spares
    obtain ⟨first, rest, hmarked, hothers⟩ := hfails.marked hsponsored hbuilt
    unfold leftOutState
    rw [hmarked, List.foldl_append, List.foldl_cons]
    have hreturned := seen_returned hevents ready.notIncludedUserOpsHashes
    have hfirst := seen_markedRemoved_other hreturned fun opDetails hmem =>
      hothers opDetails (List.mem_append_left _ hmem)
    have hown := (seen_congr (userOpRemoved_reputationEntries _ (.hash entry.userOpHash))).mpr
      (seen_forgiven_own hfirst hne entry.userOpHash ⟨error.message, error.code⟩)
    have hrest := seen_markedRemoved_other hown fun opDetails hmem =>
      hothers opDetails (List.mem_append_right _ hmem)
    refine Eq.mp (congrArg (fun seen => Seen paymaster seen _) ?_) hrest
    by_cases hforgives : isAccountOrFactoryError error.code error.message
    · simp [hforgives]
    · simp [hforgives]

end Attempt

section Restoring

variable {config : StakeConfig} {balanceOf : BalanceOf} {param : RelayUserOpParam}
  {paymaster : String} {services : Services} {force : Bool} {s s₂ : State}
  {before after : List MempoolEntry} {entry : MempoolEntry} {error : RpcError}

open Classical in
/-- What the admission and the attempt leave of the paymaster's counter. -/
theorem opsSeen_attempt (bundleSize : ℕ) (hnew : AcceptedNew config balanceOf param paymaster s)
    (hquiet : s₂.reputationEntries.get (toLowerCase paymaster) =
      (MempoolOp.perform config bundleSize s (.addUserOp balanceOf param)).reputationEntries.get
        (toLowerCase paymaster))
    (hfails : FailsAgain services force s₂ param.userOp paymaster before entry after error) :
    CounterTotals.opsSeen (runAlone (doAttemptBundle services force) s₂).1 paymaster =
      CounterTotals.opsSeen s paymaster + timesCounted paymaster param.userOp.sender s -
        if Forgives services force s₂ error then 1 else 0 := by
  obtain ⟨hdeposit, old, hadmitted⟩ := (accepted_iff config balanceOf param s).mp hnew.accepted
  have hold : old = none := by
    cases old with
    | none => rfl
    | some old => exact absurd hadmitted (not_replacement config param hnew.new old)
  subst hold
  rw [perform_of_admitted config bundleSize balanceOf param hdeposit hadmitted] at hquiet
  obtain ⟨added, hget, hseen⟩ :=
    seen_afterAdmission hnew.sponsored hnew.nonempty hnew.noAggregator (s := s)
  rw [← hseen]
  exact (seen_attempt hfails hnew.sponsored hnew.nonempty ⟨added, hquiet.trans hget, rfl⟩).opsSeen

/-- For a new operation that fails its re-validation before anything else
touches its paymaster, the paymaster's opsSeen is what it was before the
operation was added exactly when the admission counted it once and the attempt
forgives, or the admission did not count it and the attempt does not forgive. -/
theorem opsSeen_restored_iff (config : StakeConfig) (bundleSize : ℕ) (balanceOf : BalanceOf)
    (param : RelayUserOpParam) (paymaster : String) (services : Services) (force : Bool)
    (s s₂ : State) (before after : List MempoolEntry) (entry : MempoolEntry) (error : RpcError)
    (hnew : AcceptedNew config balanceOf param paymaster s)
    (hquiet : s₂.reputationEntries.get (toLowerCase paymaster) =
      (MempoolOp.perform config bundleSize s (.addUserOp balanceOf param)).reputationEntries.get
        (toLowerCase paymaster))
    (hfails : FailsAgain services force s₂ param.userOp paymaster before entry after error) :
    CounterTotals.opsSeen (runAlone (doAttemptBundle services force) s₂).1 paymaster =
        CounterTotals.opsSeen s paymaster ↔
      (Forgives services force s₂ error ∧ timesCounted paymaster param.userOp.sender s = 1) ∨
        (¬Forgives services force s₂ error ∧
          timesCounted paymaster param.userOp.sender s = 0) := by
  rw [opsSeen_attempt bundleSize hnew hquiet hfails]
  by_cases hforgives : Forgives services force s₂ error
  · rw [if_pos hforgives]
    simp only [hforgives, true_and, not_true, false_and, or_false]
    omega
  · rw [if_neg hforgives]
    simp only [hforgives, false_and, not_false_eq_true, true_and, false_or]
    omega

end Restoring

section Concrete

def sponsoredParam : RelayUserOpParam := plainParam (plainOp account 1 10 (some sponsor) none) hash₁

def accountReverted : RevertData :=
  failedOpWithRevert "0x65c8fd4d" 0 "AA23 reverted" (.unknown "0x")

/-- What the re-validation returns for it. -/
def accountError : RpcError where
  message := "FailedOpWithRevert(0,\"AA23 reverted\",)"
  code := ValidationErrors.simulateValidation.code

theorem decode_accountReverted :
    decodeRevertReason true accountReverted = .ok (some accountError.message) := rfl

/-- Every operation fails its re-validation with that error. -/
def failsAll : Services where
  bundleSize := 5
  pastEvents := ⟨[], .ok ⟨⟩⟩
  builder := { hundredEach with validateUserOp := fun _ => .ok (.error accountError) }
  sendBundle := fun _ _ => .ok ⟨"", [], 0, none⟩

theorem screen_failsAll (knownSenders : List String) (entry : MempoolEntry) :
    screen failsAll.builder knownSenders .initial entry .ok .ok =
      .remove (some ⟨accountError.message, accountError.code⟩) := by
  unfold screen
  simp [isThrottled, BundleAcc.initial]
  rfl

def added (s : State) : State :=
  MempoolOp.perform plainConfig 5 s (.addUserOp richDeposits sponsoredParam)

section Added

variable {s : State}

theorem failsAgain_added
    (hhandedOut : handedOut failsAll true (added s) = [newEntry sponsoredParam])
    (hstatus : statusIn (eventsState failsAll true (added s)) (some sponsor) = .ok) :
    FailsAgain failsAll true (added s) sponsoredParam.userOp sponsor [] (newEntry sponsoredParam) []
      accountError where
  handedOut := hhandedOut
  userOp := rfl
  others := by simp
  ended := rfl
  left := rfl
  reached := by
    rintro s₂ rfl
    refine ⟨.initial, rfl, ?_⟩
    change screen failsAll.builder _ .initial _ (statusIn _ (some sponsor)) .ok = _
    rw [hstatus]
    exact screen_failsAll _ _
  spares := by
    intro bundle storageMap res crash hsend hcrash
    cases hsend
    cases hcrash

theorem forgives_added
    (hfails : FailsAgain failsAll true (added s) sponsoredParam.userOp sponsor []
      (newEntry sponsoredParam) [] accountError) :
    Forgives failsAll true (added s) accountError := by
  constructor
  · unfold DepositsRead
    rw [hfails.handedOut]
    refine ⟨?_, fun _ _ => trivial⟩
    intro res paymaster hfits
    obtain ⟨acc, hacc, hscreen⟩ := hfails.reached _ rfl
    cases hacc
    cases hscreen.symm.trans hfits
  · exact isAccountOrFactoryError_failedOpWithRevert rfl (Or.inr (by decide))
      decode_accountReverted

end Added

/-- The sponsor has an entry. -/
def knownSponsor : State :=
  ReputationUpdate.apply (State.initial [] []) (.updateSeenStatus sponsor .increment)

theorem failsAgain_knownSponsor : FailsAgain failsAll true (added knownSponsor)
    sponsoredParam.userOp sponsor [] (newEntry sponsoredParam) [] accountError :=
  failsAgain_added (by decide) (by decide)

/-- The admission counts the operation, and the attempt takes it off again. -/
theorem restored_knownSponsor :
    CounterTotals.opsSeen (runAlone (doAttemptBundle failsAll true) (added knownSponsor)).1
        sponsor =
      CounterTotals.opsSeen knownSponsor sponsor :=
  (opsSeen_restored_iff plainConfig 5 richDeposits sponsoredParam sponsor failsAll true knownSponsor
    (added knownSponsor) [] [] (newEntry sponsoredParam) accountError
    ⟨rfl, by decide, rfl, by decide, hash₁, rfl⟩ rfl failsAgain_knownSponsor).mpr
    (Or.inl ⟨forgives_added failsAgain_knownSponsor, by decide⟩)

/-- A paymaster seen for the first time ends up at minus one. -/
theorem first_operation_not_restored :
    ¬∀ (config : StakeConfig) (bundleSize : ℕ) (whiteList blackList : List String)
      (ops : List Operation) (balanceOf : BalanceOf) (param : RelayUserOpParam)
      (paymaster : String) (services : Services) (force : Bool) (s s₂ : State)
      (before after : List MempoolEntry) (entry : MempoolEntry) (error : RpcError)
      (revert : RevertData) (nullIfNoMatch : Bool),
      s = run (Operation.perform config bundleSize) (State.initial whiteList blackList) ops →
      AcceptedNew config balanceOf param paymaster s →
      s₂.reputationEntries.get (toLowerCase paymaster) =
        (MempoolOp.perform config bundleSize s (.addUserOp balanceOf param)).reputationEntries.get
          (toLowerCase paymaster) →
      FailsAgain services force s₂ param.userOp paymaster before entry after error →
      error.code = ValidationErrors.simulateValidation.code →
      decodeRevertReason nullIfNoMatch revert = .ok (some error.message) → BlamesAccount revert →
      CounterTotals.opsSeen (runAlone (doAttemptBundle services force) s₂).1 paymaster =
        CounterTotals.opsSeen s paymaster := by
  intro h
  have hnew : AcceptedNew plainConfig richDeposits sponsoredParam sponsor (State.initial [] []) :=
    ⟨rfl, by decide, rfl, by decide, hash₁, rfl⟩
  have hfails : FailsAgain failsAll true (added (State.initial [] [])) sponsoredParam.userOp sponsor
      [] (newEntry sponsoredParam) [] accountError := failsAgain_added (by decide) (by decide)
  have hrestored := h plainConfig 5 [] [] [] richDeposits sponsoredParam sponsor failsAll true
    (State.initial [] []) (added (State.initial [] [])) [] [] _ accountError accountReverted true
    rfl hnew rfl hfails rfl decode_accountReverted ⟨_, _, _, Or.inr (by decide), Or.inr ⟨_, rfl⟩⟩
  have hquiet : (added (State.initial [] [])).reputationEntries.get (toLowerCase sponsor) =
      (added (State.initial [] [])).reputationEntries.get (toLowerCase sponsor) := rfl
  have hleft := opsSeen_attempt 5 hnew hquiet hfails
  rw [hrestored, if_pos (forgives_added hfails)] at hleft
  exact absurd hleft (by decide)

end Concrete

end Bundler.ForgivenPaymasters
