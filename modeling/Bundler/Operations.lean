import Bundler.MempoolManager
import Bundler.Runs

/-!
The operations of the mempool and the reputation manager as actions on the
state, each run to its end before the next one starts. A run of them from
the initial state passes the states the bundler can reach without
interleaving; the interleaved runs take the same programs apart.
-/
namespace Bundler.Operations

open KeyedRecords AsyncPrograms DataModel StateService ReputationManager DepositManager
  MempoolHelper MempoolManager

inductive MempoolOp
  | addUserOp (balanceOf : BalanceOf) (param : RelayUserOpParam)
  | removeUserOp (userOpOrHash : UserOpOrHash)
  | updateEntryStatus (userOpHash : String) (status : EntryStatus)
  | getNextPending
  | getAllPending
  | clearState

inductive Operation
  | mempool (op : MempoolOp)
  | removeUserOpsForBannedAddr (addr : String)
  | reputation (update : ReputationUpdate)

variable (config : StakeConfig) (bundleSize : ℕ)

def MempoolOp.program : MempoolOp → Async PUnit
  | .addUserOp balanceOf param => (MempoolManager.addUserOp config balanceOf param).detach
  | .removeUserOp userOpOrHash => (MempoolManager.removeUserOp userOpOrHash).detach
  | .updateEntryStatus userOpHash status => MempoolManager.updateEntryStatus userOpHash status
  | .getNextPending => (MempoolManager.getNextPending bundleSize).detach
  | .getAllPending => MempoolManager.getAllPending.detach
  | .clearState => MempoolManager.clearState

def Operation.program : Operation → Async PUnit
  | .mempool op => op.program config bundleSize
  | .removeUserOpsForBannedAddr addr => MempoolManager.removeUserOpsForBannedAddr addr
  | .reputation update => updateState (.reputation update)

def MempoolOp.perform (s : State) (op : MempoolOp) : State :=
  (runAlone (op.program config bundleSize) s).1

def Operation.perform (s : State) (op : Operation) : State :=
  (runAlone (op.program config bundleSize) s).1

section Admission

variable (balanceOf : BalanceOf) (param : RelayUserOpParam)

/-- The admission, run alone, returns Right. -/
def Accepted (s : State) : Prop :=
  ∃ userOpHash, (runAlone (addUserOp config balanceOf param) s).2 = .ok (.ok userOpHash)

theorem accepted_iff (s : State) :
    Accepted config balanceOf param s ↔
      DepositSuffices balanceOf param s ∧ ∃ old, Admitted config param s old := by
  constructor
  · rintro ⟨userOpHash, h⟩
    obtain ⟨_, hdeposit, old, hadmitted, _⟩ :=
      (addUserOp_ok_iff config balanceOf param s _ userOpHash).mp (Prod.ext rfl h)
    exact ⟨hdeposit, old, hadmitted⟩
  · rintro ⟨hdeposit, old, hadmitted⟩
    exact ⟨param.userOpHash, congrArg Prod.snd
      ((addUserOp_ok_iff config balanceOf param s _ _).mpr ⟨rfl, hdeposit, old, hadmitted, rfl⟩)⟩

/-- At most one way of admission is open in a state. -/
theorem Admitted.unique {s : State} {old old' : Option MempoolEntry}
    (h : Admitted config param s old) (h' : Admitted config param s old') : old = old' := by
  cases old with
  | none =>
    cases old' with
    | none => rfl
    | some old' => exact absurd (h.1.symm.trans h'.1) (by simp)
  | some old =>
    cases old' with
    | none => exact absurd (h.1.symm.trans h'.1) (by simp)
    | some old' => exact h.1.symm.trans h'.1

/-- An operation whose slot is not pooled replaces nothing. -/
theorem not_replacement {s : State}
    (h : findBySenderNonce param.userOp.sender param.userOp.nonce s.standardPool = none)
    (old : MempoolEntry) : ¬Admitted config param s (some old) := by
  intro hadmitted
  cases h.symm.trans hadmitted.1

theorem perform_of_admitted {s : State} {old : Option MempoolEntry}
    (hdeposit : DepositSuffices balanceOf param s) (hadmitted : Admitted config param s old) :
    MempoolOp.perform config bundleSize s (.addUserOp balanceOf param) =
      afterAdmission param s old := by
  have hrun := (addUserOp_ok_iff config balanceOf param s _ _).mpr
    ⟨rfl, hdeposit, old, hadmitted, rfl⟩
  exact (Program.run_detach_fst _ _ _).trans (congrArg Prod.fst hrun)

theorem perform_of_not_accepted {s : State} (h : ¬Accepted config balanceOf param s) :
    MempoolOp.perform config bundleSize s (.addUserOp balanceOf param) = s := by
  have hrejected := addUserOp_rejected config balanceOf param s fun userOpHash hok =>
    h ⟨userOpHash, hok⟩
  exact (Program.run_detach_fst _ _ _).trans hrejected

end Admission

section Others

variable (s : State)

theorem perform_removeUserOp (userOpOrHash : UserOpOrHash) :
    MempoolOp.perform config bundleSize s (.removeUserOp userOpOrHash) =
      userOpRemoved s userOpOrHash :=
  (Program.run_detach_fst _ _ _).trans (congrArg Prod.fst (removeUserOp_run s userOpOrHash))

theorem perform_updateEntryStatus (userOpHash : String) (status : EntryStatus) :
    MempoolOp.perform config bundleSize s (.updateEntryStatus userOpHash status) =
      statusUpdated s userOpHash status :=
  congrArg Prod.fst (updateEntryStatus_run s userOpHash status)

theorem perform_getNextPending :
    MempoolOp.perform config bundleSize s .getNextPending = (MempoolUpdate.apply s
      (.markBundling ((nextPending bundleSize s.standardPool).map MempoolEntry.userOpHash))).1 :=
  (Program.run_detach_fst _ _ _).trans (handOut_run_fst s (nextPending bundleSize))

theorem perform_getAllPending :
    MempoolOp.perform config bundleSize s .getAllPending = (MempoolUpdate.apply s
      (.markBundling ((allPending s.standardPool).map MempoolEntry.userOpHash))).1 :=
  (Program.run_detach_fst _ _ _).trans (handOut_run_fst s allPending)

theorem perform_removeUserOpsForBannedAddr (addr : String) :
    Operation.perform config bundleSize s (.removeUserOpsForBannedAddr addr) =
      bannedRemoved s addr :=
  congrArg Prod.fst (removeUserOpsForBannedAddr_run s addr)

/-- A property of pools that does not depend on the statuses and passes to
every part of a pool is kept by all operations but an accepted addUserOp. -/
theorem perform_keeps {I : StandardPool → Prop}
    (hsub : ∀ pool pool' : StandardPool, (∀ entry ∈ pool'.values, entry ∈ pool.values) →
      I pool → I pool')
    (hmap : ∀ pool pool' : StandardPool,
      pool'.values.map (fun entry => (entry.userOpHash, entry.userOp)) =
        pool.values.map (fun entry => (entry.userOpHash, entry.userOp)) → I pool → I pool')
    (op : Operation)
    (hop : ∀ balanceOf param, op = .mempool (.addUserOp balanceOf param) →
      ¬Accepted config balanceOf param s)
    (h : I s.standardPool) : I (op.perform config bundleSize s).standardPool := by
  cases op with
  | mempool op =>
    change I (op.perform config bundleSize s).standardPool
    cases op with
    | addUserOp balanceOf param =>
      rw [perform_of_not_accepted config bundleSize balanceOf param (hop balanceOf param rfl)]
      exact h
    | removeUserOp userOpOrHash =>
      rw [perform_removeUserOp]
      refine hsub _ _ ?_ h
      intro entry hentry
      unfold userOpRemoved at hentry
      cases hfind : findEntry userOpOrHash s.standardPool with
      | none => simpa [hfind] using hentry
      | some found =>
        rw [hfind] at hentry
        exact ((s.standardPool.mem_delete _ _).mp hentry).1
    | updateEntryStatus userOpHash status =>
      rw [perform_updateEntryStatus]
      exact hmap _ _ (map_statusUpdated s (fun _ _ => rfl) userOpHash status) h
    | getNextPending =>
      rw [perform_getNextPending]
      exact hmap _ _ (map_markBundling (fun _ _ => rfl) _ _) h
    | getAllPending =>
      rw [perform_getAllPending]
      exact hmap _ _ (map_markBundling (fun _ _ => rfl) _ _) h
    | clearState =>
      refine hsub _ _ ?_ h
      intro entry hentry
      cases hentry
  | removeUserOpsForBannedAddr addr =>
    rw [perform_removeUserOpsForBannedAddr]
    refine hsub _ _ ?_ h
    intro entry hentry
    exact ((s.standardPool.mem_foldl_delete _ _).mp hentry).1
  | reputation update =>
    change I (update.apply s).standardPool
    rw [reputation_standardPool]
    exact h

end Others

section Concrete

def plainInfo (addr : String) : StakeInfo := ⟨addr, 0, 0⟩

/-- The operation as validation passes it on, with unstaked entities. -/
def plainParam (userOp : UserOperation) (userOpHash : String) : RelayUserOpParam where
  userOp := userOp
  userOpHash := userOpHash
  prefund := 0
  referencedContracts := some ⟨[], ""⟩
  senderInfo := plainInfo userOp.sender
  paymasterInfo := userOp.paymaster.map plainInfo
  factoryInfo := userOp.factory.map plainInfo

def plainConfig : StakeConfig := ⟨1, 1⟩

def richDeposits : BalanceOf := fun _ => .ok 1000000000000000000

def plainAdd (sender userOpHash : String) : Operation :=
  .mempool (.addUserOp richDeposits (plainParam (plainOp sender 1 10 none none) userOpHash))

end Concrete

end Bundler.Operations
