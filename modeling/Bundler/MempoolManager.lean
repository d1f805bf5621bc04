import Bundler.DepositManager
import Bundler.MempoolHelper

/-!
The mempool manager: every operation on the pool as the sequence of its
accesses to the state, and what each operation does when it runs alone. The
admission of an operation is summed up once: it succeeds exactly when the
deposit suffices and the operation either replaces the pooled one of its
slot or is new, and it then performs one update of the pool followed by the
seen updates; in every other case it changes nothing.
-/
namespace Bundler.MempoolManager

open KeyedRecords AsyncPrograms DataModel StateService ReputationManager DepositManager
  MempoolHelper

/-- The entry addUserOp builds from its parameter. -/
def newEntry (param : RelayUserOpParam) : MempoolEntry where
  userOp := param.userOp
  userOpHash := param.userOpHash
  prefund := param.prefund
  referencedContracts := param.referencedContracts
  status := .pending
  aggregator := param.aggregatorInfo.map StakeInfo.addr

def metadata (param : RelayUserOpParam) : MempoolEntryMetadata where
  senderInfo := param.senderInfo
  paymasterInfo := param.paymasterInfo
  factoryInfo := param.factoryInfo
  aggregatorInfo := param.aggregatorInfo

/-- What addUserOp does with an operation that passed its checks. -/
def addCheckedUserOp (param : RelayUserOpParam) (checked : MempoolEntryWithMetadata) :
    Async (Except RpcError String) := do
  updateState (.mempool (.doUpdateMempoolState checked.1 checked.2.oldEntry))
  MempoolHelper.updateSeenStatus (param.aggregatorInfo.map StakeInfo.addr) param.userOp
  pure (.ok param.userOpHash)

/-- The part of addUserOp after the deposit check. -/
def admitUserOpBy (bumped : FeeTest) (config : StakeConfig) (param : RelayUserOpParam) :
    Async (Except RpcError String) := do
  let s ← getState
  let res ← replaceOrAddUserOpChecksBy bumped config s (newEntry param, metadata param)
  match res with
  | .error error => pure (.error error)
  | .ok checked => addCheckedUserOp param checked

def admitUserOp (config : StakeConfig) (param : RelayUserOpParam) :
    Async (Except RpcError String) := admitUserOpBy feeBumped config param

def addUserOpBy (bumped : FeeTest) (config : StakeConfig) (balanceOf : BalanceOf)
    (param : RelayUserOpParam) : Async (Except RpcError String) := do
  checkPaymasterDeposit balanceOf param.userOp
  admitUserOpBy bumped config param

def addUserOp (config : StakeConfig) (balanceOf : BalanceOf) (param : RelayUserOpParam) :
    Async (Except RpcError String) := addUserOpBy feeBumped config balanceOf param

inductive UserOpOrHash
  | hash (userOpHash : String)
  | userOp (userOp : UserOperation)
  deriving DecidableEq, Repr

def findEntry (userOpOrHash : UserOpOrHash) (standardPool : StandardPool) : Option MempoolEntry :=
  match userOpOrHash with
  | .hash userOpHash => standardPool.get userOpHash
  | .userOp userOp => findBySenderNonce userOp.sender userOp.nonce standardPool

def removeUserOp (userOpOrHash : UserOpOrHash) : Async Bool := do
  let s ← getState
  match findEntry userOpOrHash s.standardPool with
  | none => pure false
  | some entry => do
      updateState (.mempool (.removeUserOp entry))
      pure true

/-- The entry spells its sender, paymaster or factory exactly as the address. -/
def spells (addr : String) (entry : MempoolEntry) : Bool :=
  entry.userOp.sender = addr || entry.userOp.paymaster = some addr ||
    entry.userOp.factory = some addr

def removeUserOpsForBannedAddr (addr : String) : Async PUnit := do
  let s ← getState
  updateState
    (.mempool (.removeUserOpsForBannedAddr (s.standardPool.values.filter (spells addr))))

def isPending (entry : MempoolEntry) : Bool := entry.status = .pending

/-- Selecting entries and marking them as bundling are two accesses. -/
def handOut (select : StandardPool → List MempoolEntry) : Async (List MempoolEntry) := do
  let s ← getState
  let entries := select s.standardPool
  updateState (.mempool (.markBundling (entries.map MempoolEntry.userOpHash)))
  pure entries

def nextPending (bundleSize : ℕ) (standardPool : StandardPool) : List MempoolEntry :=
  (standardPool.values.filter isPending).take bundleSize

def allPending (standardPool : StandardPool) : List MempoolEntry :=
  standardPool.values.filter isPending

def getNextPending (bundleSize : ℕ) : Async (List MempoolEntry) := handOut (nextPending bundleSize)

def getAllPending : Async (List MempoolEntry) := handOut allPending

/-- The entry written back is the one read, with the status changed. -/
def updateEntryStatus (userOpHash : String) (status : EntryStatus) : Async PUnit := do
  let s ← getState
  match s.standardPool.get userOpHash with
  | some entry => updateState (.mempool (.updateEntryStatus entry status))
  | none => pure ⟨⟩

def clearState : Async PUnit := updateState (.mempool .clearState)

def size : Async ℕ := do
  let s ← getState
  pure s.standardPool.values.length

def getKnownSenders : Async (List String) := do
  let s ← getState
  pure (MempoolHelper.getKnownSenders s.standardPool)

def addBundleTxnConfirmation (transactionHash : String) (signerIndex : ℕ) : Async PUnit :=
  if transactionHash = "" then pure ⟨⟩
  else updateState (.mempool (.addBundleTxnConfirmation transactionHash signerIndex))

section Removals

variable (s : State)

/-- The state after a status update that finds its entry. -/
def statusUpdated (userOpHash : String) (status : EntryStatus) : State :=
  match s.standardPool.get userOpHash with
  | none => s
  | some entry => (MempoolUpdate.apply s (.updateEntryStatus entry status)).1

theorem updateEntryStatus_run (userOpHash : String) (status : EntryStatus) :
    runAlone (updateEntryStatus userOpHash status) s =
      (statusUpdated s userOpHash status, .ok ⟨⟩) := by
  unfold statusUpdated runAlone updateEntryStatus getState
  rw [Program.run_read_bind]
  cases s.standardPool.get userOpHash with
  | none => rfl
  | some entry => rfl

/-- A status update leaves whatever does not depend on the status. -/
theorem map_statusUpdated {β : Type*} {f : MempoolEntry → β}
    (hf : ∀ (entry : MempoolEntry) status, f { entry with status := status } = f entry)
    (userOpHash : String) (status : EntryStatus) :
    (statusUpdated s userOpHash status).standardPool.values.map f =
      s.standardPool.values.map f := by
  unfold statusUpdated
  cases hget : s.standardPool.get userOpHash with
  | none => rfl
  | some entry =>
    obtain ⟨hmem, _⟩ := (s.standardPool.get_eq_some_iff _ _).mp hget
    exact map_insert_status hf (s.standardPool.get_key hmem) rfl status

@[simp] theorem statusUpdated_reputationEntries (userOpHash : String) (status : EntryStatus) :
    (statusUpdated s userOpHash status).reputationEntries = s.reputationEntries := by
  unfold statusUpdated
  cases s.standardPool.get userOpHash with
  | none => rfl
  | some entry => exact mempool_reputationEntries s _

/-- The state after a removal. -/
def userOpRemoved (userOpOrHash : UserOpOrHash) : State :=
  match findEntry userOpOrHash s.standardPool with
  | none => s
  | some entry => (MempoolUpdate.apply s (.removeUserOp entry)).1

theorem removeUserOp_run (userOpOrHash : UserOpOrHash) :
    runAlone (removeUserOp userOpOrHash) s =
      (userOpRemoved s userOpOrHash, .ok (findEntry userOpOrHash s.standardPool).isSome) := by
  unfold userOpRemoved runAlone removeUserOp getState
  rw [Program.run_read_bind]
  cases findEntry userOpOrHash s.standardPool with
  | none => rfl
  | some entry => rfl

@[simp] theorem userOpRemoved_reputationEntries (userOpOrHash : UserOpOrHash) :
    (userOpRemoved s userOpOrHash).reputationEntries = s.reputationEntries := by
  unfold userOpRemoved
  cases findEntry userOpOrHash s.standardPool with
  | none => rfl
  | some entry => exact mempool_reputationEntries s _

/-- The state after the removal of every entry that spells the address. -/
def bannedRemoved (addr : String) : State :=
  (MempoolUpdate.apply s
    (.removeUserOpsForBannedAddr (s.standardPool.values.filter (spells addr)))).1

theorem removeUserOpsForBannedAddr_run (addr : String) :
    runAlone (removeUserOpsForBannedAddr addr) s = (bannedRemoved s addr, .ok ⟨⟩) := rfl

theorem findEntry_mem {userOpOrHash : UserOpOrHash} {standardPool : StandardPool}
    {entry : MempoolEntry} (h : findEntry userOpOrHash standardPool = some entry) :
    entry ∈ standardPool.values := by
  cases userOpOrHash with
  | hash userOpHash => exact ((standardPool.get_eq_some_iff _ _).mp h).1
  | userOp userOp => exact (findBySenderNonce_eq_some h).1

theorem handOut_run_fst (select : StandardPool → List MempoolEntry) :
    (runAlone (handOut select) s).1 = (MempoolUpdate.apply s
      (.markBundling ((select s.standardPool).map MempoolEntry.userOpHash))).1 := by
  change (Program.run Update.apply (updateState _ >>= fun _ => pure _) s).1 = _
  rw [Program.run_bind]
  generalize hmarked : Program.run Update.apply _ s = marked
  have hfst := congrArg Prod.fst hmarked
  rcases marked with ⟨s', r⟩
  cases r with
  | ok _ => exact hfst.symm
  | error e => exact hfst.symm

end Removals

section SeenStatus

variable (aggregator : Option String) (userOp : UserOperation)

/-- The reputation updates that follow an admission. -/
def seenStatusUpdates : List ReputationUpdate :=
  (truthy userOp.sender).toList.map (fun sender => .updateSeenStatus sender .increment) ++
    match [userOp.paymaster, userOp.factory, aggregator].filterMap id with
    | [] => []
    | addr :: addrs => [.updateSeenStatusBatch (addr :: addrs)]

def seenStatusUpdated (s : State) : State :=
  (seenStatusUpdates aggregator userOp).foldl ReputationUpdate.apply s

theorem updateSeenStatus_run (s : State) :
    runAlone (MempoolHelper.updateSeenStatus aggregator userOp) s =
      (seenStatusUpdated aggregator userOp s, .ok ⟨⟩) := by
  unfold seenStatusUpdated seenStatusUpdates MempoolHelper.updateSeenStatus
    ReputationManager.updateSeenStatus ReputationManager.updateSeenStatusBatch
  generalize [userOp.paymaster, userOp.factory, aggregator].filterMap id = addrs
  cases truthy userOp.sender with
  | none =>
    cases addrs with
    | nil => rfl
    | cons addr addrs => rfl
  | some sender =>
    cases addrs with
    | nil => rfl
    | cons addr addrs => rfl

theorem foldl_reputation_standardPool (updates : List ReputationUpdate) (s : State) :
    (updates.foldl ReputationUpdate.apply s).standardPool = s.standardPool := by
  induction updates generalizing s with
  | nil => rfl
  | cons u updates ih => rw [List.foldl_cons, ih, reputation_standardPool]

theorem foldl_reputation_mempoolEntryCount (updates : List ReputationUpdate) (s : State) :
    (updates.foldl ReputationUpdate.apply s).mempoolEntryCount = s.mempoolEntryCount := by
  induction updates generalizing s with
  | nil => rfl
  | cons u updates ih => rw [List.foldl_cons, ih, reputation_mempoolEntryCount]

end SeenStatus

section Admission

variable (config : StakeConfig) (balanceOf : BalanceOf) (param : RelayUserOpParam)

/-- The deposit check passes in the state. -/
def DepositSuffices (s : State) : Prop :=
  runAlone (checkPaymasterDeposit balanceOf param.userOp) s = (s, .ok ⟨⟩)

/-- The rest of the admission checks, for an operation that replaces a
pooled entry or for a new one. -/
def AdmittedBy (bumped : FeeTest) (s : State) : Option MempoolEntry → Prop
  | some old =>
      findBySenderNonce param.userOp.sender param.userOp.nonce s.standardPool = some old ∧
        FeesBumpedBy bumped old.userOp param.userOp
  | none =>
      findBySenderNonce param.userOp.sender param.userOp.nonce s.standardPool = none ∧
        EntitiesAdmitted config s.mempoolEntryCount s (metadata param) ∧
        RolesRespected param.userOp s.standardPool

def Admitted (s : State) (old : Option MempoolEntry) : Prop :=
  AdmittedBy config param feeBumped s old

/-- The state after the admission. -/
def afterAdmission (s : State) (oldEntry : Option MempoolEntry) : State :=
  seenStatusUpdated (param.aggregatorInfo.map StakeInfo.addr) param.userOp
    (MempoolUpdate.apply s (.doUpdateMempoolState (newEntry param) oldEntry)).1

@[simp] theorem afterAdmission_standardPool (s : State) (oldEntry : Option MempoolEntry) :
    (afterAdmission param s oldEntry).standardPool =
      (doUpdateMempoolState (newEntry param) oldEntry s.standardPool s.mempoolEntryCount).1 :=
  foldl_reputation_standardPool _ _

@[simp] theorem afterAdmission_mempoolEntryCount (s : State) (oldEntry : Option MempoolEntry) :
    (afterAdmission param s oldEntry).mempoolEntryCount =
      (doUpdateMempoolState (newEntry param) oldEntry s.standardPool s.mempoolEntryCount).2 :=
  foldl_reputation_mempoolEntryCount _ _

theorem addCheckedUserOp_run (checked : MempoolEntryWithMetadata)
    (hentry : checked.1 = newEntry param) (s : State) :
    runAlone (addCheckedUserOp param checked) s =
      (afterAdmission param s checked.2.oldEntry, .ok (.ok param.userOpHash)) := by
  unfold addCheckedUserOp afterAdmission
  rw [← hentry]
  change runAlone (MempoolHelper.updateSeenStatus _ _ >>= _) _ = _
  exact Program.run_bind_of_ok _ (updateSeenStatus_run _ _ _) _

variable (bumped : FeeTest)

theorem replaceOrAddUserOpChecks_readOnly (handedOut : State)
    (entryWithMetadata : MempoolEntryWithMetadata) :
    (replaceOrAddUserOpChecksBy bumped config handedOut entryWithMetadata).ReadOnly := by
  unfold replaceOrAddUserOpChecksBy
  dsimp only
  split
  · exact trivial
  · exact (checkReputation_readOnly config (readCount_readOnly _) _).bind fun _ =>
      (readPool_readOnly _).bind fun _ => trivial

/-- Whatever the checks let through is the entry built from the parameter,
and replaces what the look-up found. -/
theorem replaceOrAddUserOpChecks_found (handedOut : State) :
    (replaceOrAddUserOpChecksBy bumped config handedOut (newEntry param, metadata param)).Guarantees
      (fun _ => True) (fun _ => False) fun r => ∀ checked, r = .ok (.ok checked) →
        checked.1 = newEntry param ∧ findBySenderNonce param.userOp.sender param.userOp.nonce
          handedOut.standardPool = checked.2.oldEntry := by
  unfold replaceOrAddUserOpChecksBy
  dsimp only [newEntry]
  cases findBySenderNonce param.userOp.sender param.userOp.nonce handedOut.standardPool with
  | some old =>
    intro checked hchecked
    obtain ⟨_, rfl⟩ := (checkReplaceUserOp_eq_ok_iff rfl).mp (Except.ok.inj hchecked)
    exact ⟨rfl, rfl⟩
  | none =>
    refine Program.Guarantees.bind
      (checkReputation_readOnly config (readCount_readOnly _) (metadata param)) ?_ ?_
    · intro _ _ s _ checked hchecked
      obtain ⟨_, rfl⟩ := (checkMultipleRolesViolation_eq_ok_iff _).mp (Except.ok.inj hchecked)
      exact ⟨rfl, rfl⟩
    · intro _ _ checked hchecked
      cases hchecked

theorem replaceOrAddUserOpChecks_ok_iff (s s' : State) (checked : MempoolEntryWithMetadata) :
    runAlone (replaceOrAddUserOpChecksBy bumped config s (newEntry param, metadata param)) s =
        (s', .ok (.ok checked)) ↔
      s' = s ∧ ∃ old, AdmittedBy config param bumped s old ∧
        checked = (newEntry param, { metadata param with oldEntry := old }) := by
  unfold replaceOrAddUserOpChecksBy
  dsimp only [newEntry]
  cases hfind : findBySenderNonce param.userOp.sender param.userOp.nonce s.standardPool with
  | some old =>
    change (s, Except.ok (checkReplaceUserOpBy bumped _)) = _ ↔ _
    rw [Prod.mk.injEq, Except.ok.injEq, checkReplaceUserOp_eq_ok_iff rfl]
    constructor
    · intro h
      exact ⟨h.1.symm, some old, ⟨hfind, h.2.1⟩, h.2.2⟩
    · rintro ⟨rfl, old', hadmitted, rfl⟩
      cases old' with
      | none => simp [AdmittedBy, hfind] at hadmitted
      | some old' =>
        have hold : old' = old := by simpa [hfind] using hadmitted.1.symm
        subst hold
        exact ⟨rfl, hadmitted.2, rfl⟩
  | none =>
    have hreputation : PassesIff (checkReputation config (readCount (countReference s))
        (metadata param)) _ := checkReputation_passesIff (readCount_reads _) _
    change Program.run Update.apply (checkReputation _ _ _ >>= _) s = _ ↔ _
    rw [Program.run_bind_eq_ok_iff]
    constructor
    · rintro ⟨_, s₁, hpassed, h⟩
      obtain ⟨hentities, rfl⟩ := (hreputation s s₁).mp hpassed
      rw [countAt_countReference] at hentities
      obtain ⟨rfl, hroles⟩ := Prod.mk.inj h
      obtain ⟨hroles, hchecked⟩ :=
        (checkMultipleRolesViolation_eq_ok_iff _).mp (Except.ok.inj hroles)
      rw [poolAt_poolReference] at hroles
      exact ⟨rfl, none, ⟨hfind, hentities, hroles⟩, hchecked⟩
    · rintro ⟨rfl, old, hadmitted, rfl⟩
      cases old with
      | some old => simp [AdmittedBy, hfind] at hadmitted
      | none =>
        obtain ⟨_, hentities, hroles⟩ := hadmitted
        rw [← countAt_countReference s'] at hentities
        rw [← poolAt_poolReference s'] at hroles
        refine ⟨⟨⟩, s', (hreputation s' s').mpr ⟨hentities, rfl⟩, ?_⟩
        exact Prod.ext rfl (congrArg Except.ok
          ((checkMultipleRolesViolation_eq_ok_iff _).mpr ⟨hroles, rfl⟩))

variable {bumped}

/-- An admission that runs alone succeeds exactly when every check passes,
and then does the one update and the seen updates. -/
theorem addUserOpBy_ok_iff (s s' : State) (userOpHash : String) :
    runAlone (addUserOpBy bumped config balanceOf param) s = (s', .ok (.ok userOpHash)) ↔
      userOpHash = param.userOpHash ∧ DepositSuffices balanceOf param s ∧
        ∃ old, AdmittedBy config param bumped s old ∧ s' = afterAdmission param s old := by
  unfold addUserOpBy
  constructor
  · intro h
    obtain ⟨_, s₁, hdeposit, hrest⟩ := (Program.run_bind_eq_ok_iff _ _ _ _ _ _).mp h
    have hs₁ : s₁ = s := by
      have hread := (checkPaymasterDeposit_readOnly balanceOf param.userOp).run_fst Update.apply s
      rw [hdeposit] at hread
      exact hread
    subst hs₁
    change Program.run Update.apply (replaceOrAddUserOpChecksBy bumped config s₁
      (newEntry param, metadata param) >>= _) s₁ = _ at hrest
    obtain ⟨res, s₂, hchecks, hend⟩ := (Program.run_bind_eq_ok_iff _ _ _ _ _ _).mp hrest
    cases res with
    | error error => exact absurd (Prod.mk.inj hend).2 (by simp)
    | ok checked =>
      obtain ⟨rfl, old, hadmitted, rfl⟩ :=
        (replaceOrAddUserOpChecks_ok_iff config param bumped s₁ s₂ checked).mp hchecks
      have hrun := (addCheckedUserOp_run param _ rfl s₂).symm.trans hend
      obtain ⟨hs', hhash⟩ := Prod.mk.inj hrun
      exact ⟨(Except.ok.inj (Except.ok.inj hhash)).symm, hdeposit, old, hadmitted, hs'.symm⟩
  · rintro ⟨rfl, hdeposit, old, hadmitted, rfl⟩
    unfold runAlone
    rw [Program.run_bind_of_ok Update.apply hdeposit]
    change Program.run Update.apply (replaceOrAddUserOpChecksBy bumped config s
      (newEntry param, metadata param) >>= _) s = _
    rw [Program.run_bind_of_ok Update.apply
      ((replaceOrAddUserOpChecks_ok_iff config param bumped s s _).mpr
        ⟨rfl, old, hadmitted, rfl⟩)]
    exact addCheckedUserOp_run param _ rfl s

theorem addUserOp_ok_iff (s s' : State) (userOpHash : String) :
    runAlone (addUserOp config balanceOf param) s = (s', .ok (.ok userOpHash)) ↔
      userOpHash = param.userOpHash ∧ DepositSuffices balanceOf param s ∧
        ∃ old, Admitted config param s old ∧ s' = afterAdmission param s old :=
  addUserOpBy_ok_iff config balanceOf param s s' userOpHash

/-- An admission that runs alone and does not succeed changes nothing. -/
theorem addUserOpBy_rejected (s : State)
    (h : ∀ userOpHash,
      (runAlone (addUserOpBy bumped config balanceOf param) s).2 ≠ .ok (.ok userOpHash)) :
    (runAlone (addUserOpBy bumped config balanceOf param) s).1 = s := by
  have hchecksReadOnly := replaceOrAddUserOpChecks_readOnly config bumped s
    (newEntry param, metadata param)
  unfold addUserOpBy admitUserOpBy runAlone at *
  rw [(checkPaymasterDeposit_readOnly balanceOf param.userOp).run_bind] at *
  cases hdeposit : (Program.run Update.apply (checkPaymasterDeposit balanceOf param.userOp)
      s).2 with
  | error e => rfl
  | ok _ =>
    simp only [hdeposit, getState, Program.run_read_bind, hchecksReadOnly.run_bind] at h ⊢
    cases hchecks : (Program.run Update.apply (replaceOrAddUserOpChecksBy bumped config s
        (newEntry param, metadata param)) s).2 with
    | error e => rfl
    | ok res =>
      cases res with
      | error error => rfl
      | ok checked =>
        have hs := hchecksReadOnly.run_fst Update.apply s
        obtain ⟨_, old, _, rfl⟩ :=
          (replaceOrAddUserOpChecks_ok_iff config param bumped s s checked).mp
            (Prod.ext hs hchecks)
        have hrun := addCheckedUserOp_run param (newEntry param, { metadata param with
          oldEntry := old }) rfl s
        rw [hchecks] at h
        exact absurd (congrArg Prod.snd hrun) (h param.userOpHash)

theorem addUserOp_rejected (s : State)
    (h : ∀ userOpHash, (runAlone (addUserOp config balanceOf param) s).2 ≠ .ok (.ok userOpHash)) :
    (runAlone (addUserOp config balanceOf param) s).1 = s :=
  addUserOpBy_rejected config balanceOf param s h

end Admission

end Bundler.MempoolManager
