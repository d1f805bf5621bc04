import Bundler.BundleManager
import Bundler.Operations

/-!
What becomes of the entries an attempt hands out. After the past events have
been handled an entry that is still bundling leaves that status only by name:
as not included, as marked to remove, or through a crash that bans one of
its addresses or blames it. Any other entry of a bundle that is not sent
stays behind as bundling, and no later attempt selects it.
-/
namespace Bundler.StrandedOperations

open KeyedRecords AsyncPrograms DataModel StateService ReputationManager DepositManager
  MempoolHelper MempoolManager BundleBuilder BundleManager Operations Runs

section Effects

def EventEffect.apply (s : State) : EventEffect → State
  | .userOperationSucceeded userOpHash => userOpRemoved s (.hash userOpHash)
  | .userOperationFailed userOpHash => statusUpdated s userOpHash .failed
  | .addressIncluded addr => ReputationUpdate.apply s (.updateIncludedStatus addr)

theorem eventEffect_run (effect : EventEffect) (s : State) :
    Program.run Update.apply effect.program s = (EventEffect.apply s effect, .ok ⟨⟩) := by
  cases effect with
  | userOperationSucceeded userOpHash =>
    exact Program.run_bind_of_ok Update.apply (removeUserOp_run s (.hash userOpHash)) _
  | userOperationFailed userOpHash => exact updateEntryStatus_run s userOpHash .failed
  | addressIncluded addr => rfl

def afterEvents (pastEvents : PastEvents) (s : State) : State :=
  pastEvents.effects.foldl EventEffect.apply s

theorem handlePastEvents_run (pastEvents : PastEvents) (s : State) :
    runAlone (handlePastEvents pastEvents) s = (afterEvents pastEvents s, pastEvents.ended) := by
  have heffects := Program.run_forM Update.apply eventEffect_run pastEvents.effects s
  exact Program.run_bind_of_ok Update.apply heffects _

def returned (userOpHashes : List String) (s : State) : State :=
  userOpHashes.foldl (fun s userOpHash => statusUpdated s userOpHash .pending) s

theorem returnNotIncluded_run (userOpHashes : List String) (s : State) :
    runAlone (returnNotIncluded userOpHashes) s = (returned userOpHashes s, .ok ⟨⟩) :=
  Program.run_forM Update.apply (fun userOpHash s => updateEntryStatus_run s userOpHash .pending)
    userOpHashes s

def forgiven (opDetails : RemoveUserOpDetails) (s : State) : State :=
  (runAlone (forgivePaymaster opDetails) s).1

theorem seenStatus_run (addr : Option String) (action : SeenAction) (s : State) :
    ∃ s', runAlone (ReputationManager.updateSeenStatus addr action) s = (s', .ok ⟨⟩) ∧
      s'.standardPool = s.standardPool := by
  unfold ReputationManager.updateSeenStatus
  cases truthy addr with
  | none => exact ⟨s, rfl, rfl⟩
  | some addr => exact ⟨_, rfl, rfl⟩

theorem forgivePaymaster_run (opDetails : RemoveUserOpDetails) (s : State) :
    runAlone (forgivePaymaster opDetails) s = (forgiven opDetails s, .ok ⟨⟩) ∧
      (forgiven opDetails s).standardPool = s.standardPool := by
  have hrun : ∃ s', runAlone (forgivePaymaster opDetails) s = (s', .ok ⟨⟩) ∧
      s'.standardPool = s.standardPool := by
    unfold forgivePaymaster
    split
    · split
      · exact seenStatus_run _ _ s
      · exact ⟨s, rfl, rfl⟩
    · exact ⟨s, rfl, rfl⟩
  obtain ⟨s', hs', hpool⟩ := hrun
  unfold forgiven
  rw [hs']
  exact ⟨rfl, hpool⟩

/-- One entry marked to remove. -/
def markedRemoved (s : State) (opDetails : RemoveUserOpDetails) : State :=
  userOpRemoved (forgiven opDetails s) (.hash opDetails.userOpHash)

theorem removeMarked_run (marked : List RemoveUserOpDetails) (s : State) :
    runAlone (removeMarked marked) s = (marked.foldl markedRemoved s, .ok ⟨⟩) := by
  refine Program.run_forM Update.apply ?_ marked s
  intro opDetails s
  have hforgive := (forgivePaymaster_run opDetails s).1
  rw [Program.run_bind_of_ok Update.apply hforgive]
  exact Program.run_bind_of_ok Update.apply
    (removeUserOp_run (forgiven opDetails s) (.hash opDetails.userOpHash)) _

def banned (addressToBan : Option String) (s : State) : State :=
  match truthy addressToBan with
  | some addr => ReputationUpdate.apply (bannedRemoved s addr) (.crashedHandleOps addr)
  | none => s

theorem banAddress_run (addressToBan : Option String) (s : State) :
    runAlone (banAddress addressToBan) s = (banned addressToBan s, .ok ⟨⟩) := by
  unfold banAddress banned
  cases truthy addressToBan with
  | none => rfl
  | some addr => rfl

def crashed (crash : Option CrashedHandleOps) (s : State) : State :=
  match crash with
  | some crash => userOpRemoved (banned crash.addressToBan s) (.userOp crash.failedOp)
  | none => s

theorem handleCrash_run (crash : Option CrashedHandleOps) (s : State) :
    runAlone (handleCrash crash) s = (crashed crash s, .ok ⟨⟩) := by
  cases crash with
  | none => rfl
  | some crash =>
    change Program.run Update.apply (banAddress crash.addressToBan >>= fun _ =>
      (removeUserOp (.userOp crash.failedOp)).detach) s = _
    rw [Program.run_bind_of_ok Update.apply (banAddress_run crash.addressToBan s)]
    exact Program.run_bind_of_ok Update.apply
      (removeUserOp_run (banned crash.addressToBan s) (.userOp crash.failedOp)) _

/-- Recording a transaction leaves the pool and the reputation alone. -/
theorem addBundleTxnConfirmation_run (transactionHash : String) (signerIndex : ℕ) (s : State) :
    ∃ s', runAlone (addBundleTxnConfirmation transactionHash signerIndex) s = (s', .ok ⟨⟩) ∧
      s'.standardPool = s.standardPool ∧ s'.reputationEntries = s.reputationEntries := by
  unfold addBundleTxnConfirmation
  split
  · exact ⟨s, rfl, rfl, rfl⟩
  · exact ⟨_, rfl, rfl, rfl⟩

theorem afterSendBundle_run (res : SendBundleReturnWithSigner) (s : State) :
    ∃ s', runAlone (afterSendBundle res) s = (s', .ok ⟨⟩) ∧
      s'.standardPool = (crashed res.crashedHandleOps s).standardPool ∧
      s'.reputationEntries = (crashed res.crashedHandleOps s).reputationEntries := by
  obtain ⟨s', hs', hsame⟩ := addBundleTxnConfirmation_run res.transactionHash res.signerIndex
    (crashed res.crashedHandleOps s)
  refine ⟨s', ?_, hsame⟩
  change Program.run Update.apply (handleCrash res.crashedHandleOps >>= _) s = _
  rw [Program.run_bind_of_ok Update.apply (handleCrash_run res.crashedHandleOps s)]
  exact hs'

end Effects

section Bundling

/-- The entry is in the pool under the hash, as bundling. -/
def BundlingAt (standardPool : StandardPool) (userOpHash : String) (entry : MempoolEntry) : Prop :=
  standardPool.get userOpHash = some entry ∧ entry.status = .bundling

instance (standardPool : StandardPool) (userOpHash : String) (entry : MempoolEntry) :
    Decidable (BundlingAt standardPool userOpHash entry) :=
  inferInstanceAs (Decidable (_ ∧ _))

variable {s : State} {userOpHash : String} {entry : MempoolEntry}

theorem bundlingAt_statusUpdated_iff (other : String) {status : EntryStatus}
    (hstatus : status ≠ .bundling) :
    BundlingAt (statusUpdated s other status).standardPool userOpHash entry ↔
      BundlingAt s.standardPool userOpHash entry ∧ userOpHash ≠ other := by
  unfold statusUpdated BundlingAt
  cases hget : s.standardPool.get other with
  | none =>
    constructor
    · intro h
      refine ⟨h, ?_⟩
      rintro rfl
      rw [hget] at h
      cases h.1
    · intro h
      exact h.1
  | some stored =>
    have hkey : stored.userOpHash = other := ((s.standardPool.get_eq_some_iff _ _).mp hget).2
    change (s.standardPool.insert { stored with status := status }).get userOpHash = _ ∧ _ ↔ _
    rw [KeyedRecord.get_insert]
    change (if userOpHash = stored.userOpHash then _ else _) = _ ∧ _ ↔ _
    rw [hkey]
    by_cases hsame : userOpHash = other
    · rw [if_pos hsame]
      constructor
      · rintro ⟨hstored, hbundling⟩
        cases hstored
        exact absurd hbundling hstatus
      · rintro ⟨_, hne⟩
        exact absurd hsame hne
    · rw [if_neg hsame]
      simp [hsame]

theorem bundlingAt_returned_iff (userOpHashes : List String) (s : State) :
    BundlingAt (returned userOpHashes s).standardPool userOpHash entry ↔
      BundlingAt s.standardPool userOpHash entry ∧ userOpHash ∉ userOpHashes := by
  unfold returned
  induction userOpHashes generalizing s with
  | nil => simp
  | cons other userOpHashes ih =>
    rw [List.foldl_cons, ih, bundlingAt_statusUpdated_iff other (by decide), List.mem_cons, not_or,
      and_assoc]

theorem bundlingAt_userOpRemoved_iff (userOpOrHash : UserOpOrHash) :
    BundlingAt (userOpRemoved s userOpOrHash).standardPool userOpHash entry ↔
      BundlingAt s.standardPool userOpHash entry ∧
        ∀ found, findEntry userOpOrHash s.standardPool = some found →
          found.userOpHash ≠ userOpHash := by
  unfold userOpRemoved BundlingAt
  cases hfind : findEntry userOpOrHash s.standardPool with
  | none => simp
  | some found =>
    change (s.standardPool.delete found.userOpHash).get userOpHash = _ ∧ _ ↔ _
    rw [KeyedRecord.get_delete]
    by_cases hsame : userOpHash = found.userOpHash
    · rw [if_pos hsame]
      simp [hsame]
    · rw [if_neg hsame]
      simp [Ne.symm hsame]

theorem bundlingAt_hashRemoved_iff (other : String) :
    BundlingAt (userOpRemoved s (.hash other)).standardPool userOpHash entry ↔
      BundlingAt s.standardPool userOpHash entry ∧ userOpHash ≠ other := by
  rw [bundlingAt_userOpRemoved_iff]
  constructor
  · rintro ⟨hbundling, hfound⟩
    refine ⟨hbundling, ?_⟩
    rintro rfl
    exact hfound entry hbundling.1 ((s.standardPool.get_eq_some_iff _ _).mp hbundling.1).2
  · rintro ⟨hbundling, hne⟩
    refine ⟨hbundling, ?_⟩
    intro found hfound hkey
    exact hne (hkey.symm.trans ((s.standardPool.get_eq_some_iff _ _).mp hfound).2)

theorem bundlingAt_markedRemoved_iff (marked : List RemoveUserOpDetails) (s : State) :
    BundlingAt (marked.foldl markedRemoved s).standardPool userOpHash entry ↔
      BundlingAt s.standardPool userOpHash entry ∧
        userOpHash ∉ marked.map RemoveUserOpDetails.userOpHash := by
  induction marked generalizing s with
  | nil => simp
  | cons opDetails marked ih =>
    have hpool := (forgivePaymaster_run opDetails s).2
    rw [List.foldl_cons, ih]
    unfold markedRemoved
    rw [bundlingAt_hashRemoved_iff, hpool, List.map_cons, List.mem_cons, not_or, and_assoc]

/-- The event removes the entry under the hash, or marks it as failed. -/
def EventEffect.Settles (userOpHash : String) (effect : EventEffect) : Prop :=
  effect = .userOperationSucceeded userOpHash ∨ effect = .userOperationFailed userOpHash

theorem bundlingAt_eventEffect_iff (effect : EventEffect) :
    BundlingAt (EventEffect.apply s effect).standardPool userOpHash entry ↔
      BundlingAt s.standardPool userOpHash entry ∧ ¬EventEffect.Settles userOpHash effect := by
  unfold EventEffect.Settles
  cases effect with
  | userOperationSucceeded other =>
    change BundlingAt (userOpRemoved s (.hash other)).standardPool _ _ ↔ _
    rw [bundlingAt_hashRemoved_iff]
    simp [eq_comm]
  | userOperationFailed other =>
    change BundlingAt (statusUpdated s other .failed).standardPool _ _ ↔ _
    rw [bundlingAt_statusUpdated_iff other (by decide)]
    simp [eq_comm]
  | addressIncluded addr =>
    change BundlingAt s.standardPool _ _ ↔ _
    simp

theorem bundlingAt_events_iff (effects : List EventEffect) (s : State) :
    BundlingAt (effects.foldl EventEffect.apply s).standardPool userOpHash entry ↔
      BundlingAt s.standardPool userOpHash entry ∧
        ∀ effect ∈ effects, ¬EventEffect.Settles userOpHash effect := by
  induction effects generalizing s with
  | nil => simp
  | cons effect effects ih =>
    rw [List.foldl_cons, ih, bundlingAt_eventEffect_iff, List.forall_mem_cons, and_assoc]

theorem bundlingAt_bannedRemoved_iff (addr : String) :
    BundlingAt (bannedRemoved s addr).standardPool userOpHash entry ↔
      BundlingAt s.standardPool userOpHash entry ∧ ¬spells addr entry := by
  unfold BundlingAt
  rw [KeyedRecord.get_eq_some_iff, KeyedRecord.get_eq_some_iff]
  have hmem : entry ∈ (bannedRemoved s addr).standardPool.values ↔
      entry ∈ s.standardPool.values ∧ ¬spells addr entry := by
    refine (s.standardPool.mem_foldl_delete _ _).trans ?_
    constructor
    · rintro ⟨hentry, hleft⟩
      refine ⟨hentry, ?_⟩
      intro hspells
      exact hleft entry (List.mem_filter.mpr ⟨hentry, hspells⟩) rfl
    · rintro ⟨hentry, hspells⟩
      refine ⟨hentry, ?_⟩
      intro other hother hkey
      obtain ⟨hother, hspelled⟩ := List.mem_filter.mp hother
      have hsame := s.standardPool.eq_of_key_eq hentry hother hkey
      exact hspells (hsame ▸ hspelled)
  rw [hmem]
  tauto

theorem bundlingAt_banned_iff (addressToBan : Option String) :
    BundlingAt (banned addressToBan s).standardPool userOpHash entry ↔
      BundlingAt s.standardPool userOpHash entry ∧
        ∀ addr, truthy addressToBan = some addr → ¬spells addr entry := by
  unfold banned
  cases truthy addressToBan with
  | none => simp
  | some addr =>
    change BundlingAt (bannedRemoved s addr).standardPool userOpHash entry ↔ _
    rw [bundlingAt_bannedRemoved_iff]
    simp

end Bundling

section Attempt

/-- The attempt up to the point where it calls sendBundle: none when it ends
before, otherwise what it calls it with. -/
def untilSendBundle (services : Services) (force : Bool) : Async (Option BundleReadyToSend) := do
  let entries ← getEntries services force
  if entries.isEmpty then pure none
  else do
    handlePastEvents services.pastEvents
    let knownSenders ← MempoolManager.getKnownSenders
    let ready ← createBundle services.builder entries knownSenders
    returnNotIncluded ready.notIncludedUserOpsHashes
    removeMarked ready.markedToRemoveUserOpsHashes
    pure (some ready)

/-- The attempt from the call on. -/
def fromSendBundle (services : Services) : Option BundleReadyToSend → Async SendBundleReturn
  | none => pure ⟨"", []⟩
  | some ready => do
      let res ← Program.ofExcept (services.sendBundle ready.bundle ready.storageMap)
      afterSendBundle res
      pure ⟨res.transactionHash, res.userOpHashes⟩

theorem doAttemptBundle_eq (services : Services) (force : Bool) :
    doAttemptBundle services force =
      untilSendBundle services force >>= fromSendBundle services := by
  unfold doAttemptBundle untilSendBundle
  rw [Program.bind_assoc]
  congr 1
  funext entries
  unfold attemptWith
  split
  · rfl
  · rw [Program.bind_assoc]
    congr 1
    funext _
    rw [Program.bind_assoc]
    congr 1
    funext knownSenders
    rw [Program.bind_assoc]
    congr 1
    funext ready
    unfold sendReady
    rw [Program.bind_assoc]
    congr 1
    funext _
    rw [Program.bind_assoc]
    rfl

variable (services : Services) (force : Bool) (s : State)

/-- The entries the attempt moves from pending to bundling. -/
def handedOut : List MempoolEntry := selectEntries services force s.standardPool

def handOutState : State :=
  (MempoolUpdate.apply s
    (.markBundling ((handedOut services force s).map MempoolEntry.userOpHash))).1

/-- The state once the past events have been handled. -/
def eventsState : State := afterEvents services.pastEvents (handOutState services force s)

/-- The outcome of building the bundle, if the attempt gets there. -/
def built : Except JsError BundleReadyToSend :=
  match services.pastEvents.ended with
  | .error e => .error e
  | .ok _ =>
      let s₂ := eventsState services force s
      (runAlone (createBundle services.builder (handedOut services force s)
        (MempoolHelper.getKnownSenders s₂.standardPool)) s₂).2

/-- The state once the entries left out of the bundle have been dealt with. -/
def leftOutState (ready : BundleReadyToSend) (s : State) : State :=
  ready.markedToRemoveUserOpsHashes.foldl markedRemoved
    (returned ready.notIncludedUserOpsHashes s)

def finalPool : StandardPool :=
  match built services force s with
  | .error _ => (eventsState services force s).standardPool
  | .ok ready =>
      let s₃ := leftOutState ready (eventsState services force s)
      match services.sendBundle ready.bundle ready.storageMap with
      | .error _ => s₃.standardPool
      | .ok res => (crashed res.crashedHandleOps s₃).standardPool

theorem selectEntries_subset (standardPool : StandardPool) :
    ∀ entry ∈ selectEntries services force standardPool, entry ∈ standardPool.values := by
  intro entry hentry
  unfold selectEntries allPending nextPending at hentry
  split at hentry
  · exact (List.mem_filter.mp hentry).1
  · exact (List.mem_filter.mp (List.mem_of_mem_take hentry)).1

theorem handedOut_keys :
    ∀ userOpHash ∈ (handedOut services force s).map MempoolEntry.userOpHash,
      userOpHash ∈ s.standardPool.values.map MempoolEntry.userOpHash := by
  intro userOpHash huserOpHash
  obtain ⟨entry, hentry, hkey⟩ := List.mem_map.mp huserOpHash
  exact List.mem_map.mpr ⟨entry, selectEntries_subset services force s.standardPool entry hentry,
    hkey⟩

theorem handOut_run :
    runAlone (handOut (selectEntries services force)) s =
      (handOutState services force s, .ok (handedOut services force s)) := by
  have hmarked : Program.run Update.apply (updateState (.mempool (.markBundling
      ((handedOut services force s).map MempoolEntry.userOpHash)))) s =
        (handOutState services force s, .ok ⟨⟩) :=
    Prod.ext rfl (markBundling_ok (handedOut_keys services force s))
  exact Program.run_bind_of_ok Update.apply hmarked _

theorem getEntries_run :
    runAlone (getEntries services force) s =
      (handOutState services force s, .ok (handedOut services force s)) := by
  change Program.run Update.apply (if s.standardPool.values.length = 0 then _ else _) s = _
  by_cases hempty : s.standardPool.values.length = 0
  · have hnil : s.standardPool.values = [] := List.eq_nil_of_length_eq_zero hempty
    have hnone : handedOut services force s = [] := by
      unfold handedOut selectEntries
      cases force with
      | false => simp [nextPending, hnil]
      | true => simp [allPending, hnil]
    rw [if_pos hempty]
    unfold handOutState
    rw [hnone]
    rfl
  · rw [if_neg hempty]
    have hrun := handOut_run services force s
    cases force with
    | false => exact hrun
    | true => exact hrun

/-- Every entry handed out is bundling once it is marked, and nothing else
about it has changed. -/
theorem bundlingAt_handOutState_iff {entry : MempoolEntry}
    (hentry : entry ∈ handedOut services force s) (stored : MempoolEntry) :
    BundlingAt (handOutState services force s).standardPool entry.userOpHash stored ↔
      { entry with status := .bundling } = stored := by
  have hmem := selectEntries_subset services force s.standardPool entry hentry
  have hget : (handOutState services force s).standardPool.get entry.userOpHash =
      some { entry with status := .bundling } := by
    refine (markBundling_get (handedOut_keys services force s) entry.userOpHash).trans ?_
    rw [if_pos (List.mem_map_of_mem hentry), s.standardPool.get_key hmem]
    rfl
  unfold BundlingAt
  rw [hget, Option.some.injEq]
  constructor
  · exact fun h => h.1
  · rintro rfl
    exact ⟨rfl, rfl⟩

theorem built_eq_of_ended (hended : services.pastEvents.ended = .ok ⟨⟩) :
    built services force s = BundleAcc.ready <$> (handedOut services force s).foldlM
      (addEntryIn services.builder
        (MempoolHelper.getKnownSenders (eventsState services force s).standardPool)
        (eventsState services force s)) .initial := by
  unfold built
  rw [hended]
  exact congrArg Prod.snd (createBundle_run services.builder _ _ _)

theorem untilSendBundle_run_of_none (hnone : handedOut services force s = []) :
    runAlone (untilSendBundle services force) s = (handOutState services force s, .ok none) := by
  unfold untilSendBundle runAlone
  rw [Program.run_bind_of_ok Update.apply (getEntries_run services force s), hnone]
  rfl

/-- An attempt that hands out anything calls sendBundle with what it builds,
once the entries left out have been dealt with. -/
theorem untilSendBundle_run (hsome : handedOut services force s ≠ []) :
    runAlone (untilSendBundle services force) s =
      match built services force s with
      | .error e => (eventsState services force s, .error e)
      | .ok ready => (leftOutState ready (eventsState services force s), .ok (some ready)) := by
  have hevents := handlePastEvents_run services.pastEvents (handOutState services force s)
  unfold untilSendBundle runAlone
  rw [Program.run_bind_of_ok Update.apply (getEntries_run services force s),
    if_neg (by simpa using hsome)]
  cases hended : services.pastEvents.ended with
  | error e =>
    rw [hended] at hevents
    rw [Program.run_bind_of_error Update.apply hevents]
    unfold built
    rw [hended]
    rfl
  | ok _ =>
    rw [hended] at hevents
    have hcreated := createBundle_run services.builder
      (MempoolHelper.getKnownSenders (eventsState services force s).standardPool)
      (eventsState services force s) (handedOut services force s)
    rw [← built_eq_of_ended services force s hended] at hcreated
    rw [Program.run_bind_of_ok Update.apply hevents]
    change Program.run Update.apply (createBundle services.builder (handedOut services force s)
      (MempoolHelper.getKnownSenders (eventsState services force s).standardPool) >>= _)
        (eventsState services force s) = _
    cases hbuilt : built services force s with
    | error e =>
      rw [hbuilt] at hcreated
      rw [Program.run_bind_of_error Update.apply hcreated]
    | ok ready =>
      rw [hbuilt] at hcreated
      have hreturned := returnNotIncluded_run ready.notIncludedUserOpsHashes
        (eventsState services force s)
      have hmarked := removeMarked_run ready.markedToRemoveUserOpsHashes
        (returned ready.notIncludedUserOpsHashes (eventsState services force s))
      rw [Program.run_bind_of_ok Update.apply hcreated,
        Program.run_bind_of_ok Update.apply hreturned,
        Program.run_bind_of_ok Update.apply hmarked]
      rfl

/-- The pool that an attempt which hands out anything leaves behind. -/
theorem doAttemptBundle_pool (hsome : handedOut services force s ≠ []) :
    (runAlone (doAttemptBundle services force) s).1.standardPool = finalPool services force s := by
  have huntil := untilSendBundle_run services force s hsome
  rw [doAttemptBundle_eq]
  unfold finalPool runAlone
  cases hbuilt : built services force s with
  | error e =>
    rw [hbuilt] at huntil
    rw [Program.run_bind_of_error Update.apply huntil]
  | ok ready =>
    rw [hbuilt] at huntil
    rw [Program.run_bind_of_ok Update.apply huntil]
    unfold fromSendBundle
    dsimp only
    cases services.sendBundle ready.bundle ready.storageMap with
    | error e => rfl
    | ok res =>
      obtain ⟨s', hs', hpool, _⟩ := afterSendBundle_run res
        (leftOutState ready (eventsState services force s))
      change (Program.run Update.apply (afterSendBundle res >>= fun _ => pure _)
        (leftOutState ready (eventsState services force s))).1.standardPool = _
      rw [Program.run_bind_of_ok Update.apply hs']
      exact hpool

end Attempt

section Stranding

variable (services : Services) (force : Bool) (s : State)

/-- The bundle was sent under a transaction hash, with the entry's operation in it. -/
def SentIn (ready : BundleReadyToSend) (entry : MempoolEntry) : Prop :=
  ∃ res, services.sendBundle ready.bundle ready.storageMap = .ok res ∧
    res.transactionHash ≠ "" ∧ entry.userOp ∈ ready.bundle

/-- The attempt built a bundle and sent the entry's operation in it. -/
def Sent (entry : MempoolEntry) : Prop :=
  ∃ ready, built services force s = .ok ready ∧ SentIn services ready entry

/-- When the attempt is over, nothing it handed out is left bundling without
having been sent. -/
def NoneStranded : Prop :=
  ∀ entry ∈ handedOut services force s, ∀ stored,
    BundlingAt (runAlone (doAttemptBundle services force) s).1.standardPool entry.userOpHash
      stored → Sent services force s entry

/-- The crash names the entry: by the address to ban, or as the failed one. -/
def NamedByCrash (ready : BundleReadyToSend) (crash : CrashedHandleOps) (entry : MempoolEntry) :
    Prop :=
  (∃ addr, truthy crash.addressToBan = some addr ∧ spells addr entry) ∨
    ∃ found, findBySenderNonce crash.failedOp.sender crash.failedOp.nonce
      (banned crash.addressToBan
        (leftOutState ready (eventsState services force s))).standardPool = some found ∧
      found.userOpHash = entry.userOpHash

/-- Sending the bundle reports a crash that names the entry. -/
def CrashNames (ready : BundleReadyToSend) (entry : MempoolEntry) : Prop :=
  ∃ res crash, services.sendBundle ready.bundle ready.storageMap = .ok res ∧
    res.crashedHandleOps = some crash ∧ NamedByCrash services force s ready crash entry

/-- The entry is left out of the bundle, to be tried again or to be removed. -/
def LeftOut (ready : BundleReadyToSend) (entry : MempoolEntry) : Prop :=
  entry.userOpHash ∈ ready.notIncludedUserOpsHashes ∨
    entry.userOpHash ∈ ready.markedToRemoveUserOpsHashes.map RemoveUserOpDetails.userOpHash

/-- No event of the attempt removes the entry or marks it as failed. -/
def SparedByEvents (entry : MempoolEntry) : Prop :=
  ∀ effect ∈ services.pastEvents.effects, ¬EventEffect.Settles entry.userOpHash effect

/-- The ways out of bundling: left out, sent, or named by a crash. -/
def TakenCareOf (entry : MempoolEntry) : Prop :=
  ∃ ready, built services force s = .ok ready ∧
    (LeftOut ready entry ∨ SentIn services ready entry ∨ CrashNames services force s ready entry)

variable {ready : BundleReadyToSend} {entry : MempoolEntry}

theorem bundlingAt_leftOutState_iff (s : State) (stored : MempoolEntry) :
    BundlingAt (leftOutState ready s).standardPool entry.userOpHash stored ↔
      BundlingAt s.standardPool entry.userOpHash stored ∧ ¬LeftOut ready entry := by
  unfold leftOutState LeftOut
  rw [bundlingAt_markedRemoved_iff, bundlingAt_returned_iff, and_assoc, not_or]

theorem bundlingAt_eventsState_iff (hentry : entry ∈ handedOut services force s)
    (stored : MempoolEntry) :
    BundlingAt (eventsState services force s).standardPool entry.userOpHash stored ↔
      { entry with status := .bundling } = stored ∧ SparedByEvents services entry := by
  unfold eventsState afterEvents SparedByEvents
  rw [bundlingAt_events_iff, bundlingAt_handOutState_iff services force s hentry]

theorem bundlingAt_crashed_iff (crash : CrashedHandleOps) :
    BundlingAt (crashed (some crash)
        (leftOutState ready (eventsState services force s))).standardPool entry.userOpHash entry ↔
      BundlingAt (leftOutState ready (eventsState services force s)).standardPool entry.userOpHash
        entry ∧ ¬NamedByCrash services force s ready crash entry := by
  change BundlingAt (userOpRemoved _ (.userOp crash.failedOp)).standardPool _ _ ↔ _
  rw [bundlingAt_userOpRemoved_iff, bundlingAt_banned_iff]
  unfold NamedByCrash
  push Not
  rw [and_assoc]
  rfl

/-- What is still bundling at the end was bundling after the events, and was
neither left out nor named by a crash. -/
theorem bundlingAt_finalPool_iff (hbuilt : built services force s = .ok ready)
    (entry : MempoolEntry) :
    BundlingAt (finalPool services force s) entry.userOpHash entry ↔
      BundlingAt (eventsState services force s).standardPool entry.userOpHash entry ∧
        ¬LeftOut ready entry ∧ ¬CrashNames services force s ready entry := by
  unfold finalPool CrashNames
  rw [hbuilt]
  dsimp only
  rw [← and_assoc, ← bundlingAt_leftOutState_iff]
  cases hsend : services.sendBundle ready.bundle ready.storageMap with
  | error e => simp
  | ok res =>
    dsimp only
    cases hcrash : res.crashedHandleOps with
    | none =>
      change BundlingAt (leftOutState ready (eventsState services force s)).standardPool _ _ ↔ _
      simp [hcrash]
    | some crash =>
      rw [bundlingAt_crashed_iff]
      simp [hcrash]

theorem takenCareOf_iff (hbuilt : built services force s = .ok ready) :
    TakenCareOf services force s entry ↔
      LeftOut ready entry ∨ SentIn services ready entry ∨
        CrashNames services force s ready entry := by
  unfold TakenCareOf
  simp only [hbuilt, Except.ok.injEq, exists_eq_left']

/-- An entry handed out is not stranded exactly when an event of the attempt
settles it or it is taken care of. -/
theorem entry_not_stranded_iff (hentry : entry ∈ handedOut services force s) :
    (∀ stored, BundlingAt (finalPool services force s) entry.userOpHash stored →
        Sent services force s entry) ↔
      (SparedByEvents services entry → TakenCareOf services force s entry) := by
  have hevents := bundlingAt_eventsState_iff services force s hentry
  cases hbuilt : built services force s with
  | error e =>
    have hpool : finalPool services force s = (eventsState services force s).standardPool := by
      unfold finalPool
      rw [hbuilt]
    have hsent : ¬Sent services force s entry := by
      rintro ⟨ready, hready, _⟩
      cases hbuilt.symm.trans hready
    have htaken : ¬TakenCareOf services force s entry := by
      rintro ⟨ready, hready, _⟩
      cases hbuilt.symm.trans hready
    rw [hpool]
    constructor
    · intro h hspared
      exact absurd (h _ ((hevents _).mpr ⟨rfl, hspared⟩)) hsent
    · intro h stored hstored
      exact absurd (h ((hevents stored).mp hstored).2) htaken
  | ok ready =>
    have hsent : Sent services force s entry ↔ SentIn services ready entry := by
      unfold Sent
      simp only [hbuilt, Except.ok.injEq, exists_eq_left']
    have hfinal (stored : MempoolEntry) (hkey : stored.userOpHash = entry.userOpHash) :=
      hkey ▸ bundlingAt_finalPool_iff services force s hbuilt stored
    rw [hsent, takenCareOf_iff services force s hbuilt]
    constructor
    · intro h hspared
      by_cases hleft : LeftOut ready entry
      · exact Or.inl hleft
      by_cases hcrash : CrashNames services force s ready entry
      · exact Or.inr (Or.inr hcrash)
      have hbundling := (hevents _).mpr ⟨rfl, hspared⟩
      have hstays := (hfinal { entry with status := .bundling } rfl).mpr ⟨hbundling, hleft, hcrash⟩
      exact Or.inr (Or.inl (h _ hstays))
    · intro h stored hstored
      have hkey : stored.userOpHash = entry.userOpHash :=
        ((KeyedRecord.get_eq_some_iff _ _ _).mp hstored.1).2
      obtain ⟨hbundling, hleft, hcrash⟩ := (hfinal stored hkey).mp hstored
      obtain ⟨rfl, hspared⟩ := (hevents stored).mp hbundling
      rcases h hspared with htaken | htaken | htaken
      · exact absurd htaken hleft
      · exact htaken
      · exact absurd htaken hcrash

/-- An attempt strands nothing exactly when every entry it handed out is
settled by a past event, left out of the bundle, sent, or named by the crash. -/
theorem none_stranded_iff :
    NoneStranded services force s ↔
      ∀ entry ∈ handedOut services force s,
        SparedByEvents services entry → TakenCareOf services force s entry := by
  unfold NoneStranded
  apply forall₂_congr
  intro entry hentry
  have hsome : handedOut services force s ≠ [] := List.ne_nil_of_mem hentry
  rw [doAttemptBundle_pool services force s hsome]
  exact entry_not_stranded_iff services force s hentry

end Stranding

section Concrete

theorem second_stranded :
    ¬∀ (config : StakeConfig) (bundleSize : ℕ) (whiteList blackList : List String)
      (ops : List Operation) (services : Services) (force : Bool),
      NoneStranded services force
        (run (Operation.perform config bundleSize) (State.initial whiteList blackList) ops) := by
  intro h
  have hnone := h plainConfig 5 [] [] [plainAdd account hash₁, plainAdd otherAccount hash₂]
    firstCrashes true
  let second := newEntry (plainParam (plainOp otherAccount 1 10 none none) hash₂)
  obtain ⟨ready, _, res, hres, hhash, _⟩ := hnone second (by decide)
    { second with status := .bundling } (by decide)
  cases hres
  exact hhash rfl

end Concrete

end Bundler.StrandedOperations
