import Bundler.AsyncPrograms
import Bundler.DataModel
import Mathlib.Data.List.TakeWhile
import Mathlib.Logic.Function.Basic

/-!
The shared state and every way the bundler updates it. Each updateState
call of the source is one named update, applied atomically; its updateFn is
the function of the same name here. A getState hands out the objects of the
state. What is read of them at once is read with them; what is read after a
further await is read again through the reference, which sees the deletions
made in place meanwhile and misses what was written to a copy. Only marking
entries as bundling can throw, and then the entries marked before the
missing one stay marked, since the source assigns to them in place.
-/
namespace Bundler.StateService

open KeyedRecords AsyncPrograms DataModel

inductive SeenAction
  | increment
  | decrement
  deriving DecidableEq, Repr

/-- The update functions of the reputation manager. -/
inductive ReputationUpdate
  | updateSeenStatus (addr : String) (action : SeenAction)
  | updateSeenStatusBatch (addrs : List String)
  | updateIncludedStatus (addr : String)
  | crashedHandleOps (addr : String)
  | setReputation (reputations : List ReputationEntry)
  | hourlyCron (entry : ReputationEntry)
  | clearState
  | addWhitelist (items : List String)
  | addBlacklist (items : List String)
  deriving DecidableEq, Repr

/-- The update functions of the mempool manager. -/
inductive MempoolUpdate
  | doUpdateMempoolState (entry : MempoolEntry) (oldEntry : Option MempoolEntry)
  | removeUserOp (entry : MempoolEntry)
  | removeUserOpsForBannedAddr (opsToRemove : List MempoolEntry)
  | markBundling (userOpHashes : List String)
  | updateEntryStatus (entry : MempoolEntry) (status : EntryStatus)
  | clearState
  | addBundleTxnConfirmation (transactionHash : String) (signerIndex : ℕ)
  deriving DecidableEq, Repr

inductive Update
  | reputation (update : ReputationUpdate)
  | mempool (update : MempoolUpdate)
  deriving DecidableEq, Repr

section Reputation

def updateSeenStatus (reputationEntries : ReputationEntries) (addr : String)
    (action : SeenAction) : ReputationEntries :=
  let addr := toLowerCase addr
  let opsSeenValue := if action = .increment then 1 else -1
  match reputationEntries.get addr with
  | some entry => reputationEntries.insert ⟨addr, entry.opsSeen + opsSeenValue, entry.opsIncluded⟩
  | none => reputationEntries.insert ⟨addr, 0, 0⟩

/-- Every element is computed from the entries before the batch. -/
def updateSeenStatusBatch (reputationEntries : ReputationEntries) (addrs : List String) :
    ReputationEntries :=
  addrs.foldl (fun acc addr =>
    let addr := toLowerCase addr
    match reputationEntries.get addr with
    | some entry => acc.insert ⟨addr, entry.opsSeen + 1, entry.opsIncluded⟩
    | none => acc.insert ⟨addr, 0, 0⟩) reputationEntries

def updateIncludedStatus (reputationEntries : ReputationEntries) (addr : String) :
    ReputationEntries :=
  let addr := toLowerCase addr
  match reputationEntries.get addr with
  | some entry => reputationEntries.insert ⟨addr, entry.opsSeen, entry.opsIncluded + 1⟩
  | none => reputationEntries.insert ⟨addr, 0, 0⟩

def crashedHandleOps (reputationEntries : ReputationEntries) (addr : String) :
    ReputationEntries :=
  let addr := toLowerCase addr
  match reputationEntries.get addr with
  | some entry => reputationEntries.insert ⟨addr, entry.opsSeen + 10000, 0⟩
  | none => reputationEntries.insert ⟨addr, 10000, 0⟩

def setReputation (reputationEntries : ReputationEntries) (reputations : List ReputationEntry) :
    ReputationEntries :=
  reputations.foldl
    (fun acc rep => acc.insert ⟨toLowerCase rep.address, rep.opsSeen, rep.opsIncluded⟩)
    reputationEntries

/-- One address of one tick. The entry is the one captured when the cron was
started, and both counters decay from its opsSeen. -/
def hourlyCron (reputationEntries : ReputationEntries) (entry : ReputationEntry) :
    ReputationEntries :=
  if entry.opsIncluded = 0 ∧ entry.opsSeen = 0 then reputationEntries.delete entry.address
  else reputationEntries.insert ⟨entry.address, entry.opsSeen * 23 / 24, entry.opsSeen * 23 / 24⟩

def ReputationUpdate.apply (s : State) : ReputationUpdate → State
  | .updateSeenStatus addr action =>
      { s with reputationEntries := StateService.updateSeenStatus s.reputationEntries addr action }
  | .updateSeenStatusBatch addrs =>
      { s with reputationEntries := StateService.updateSeenStatusBatch s.reputationEntries addrs }
  | .updateIncludedStatus addr =>
      { s with reputationEntries := StateService.updateIncludedStatus s.reputationEntries addr }
  | .crashedHandleOps addr =>
      { s with reputationEntries := StateService.crashedHandleOps s.reputationEntries addr }
  | .setReputation reputations =>
      { s with reputationEntries := StateService.setReputation s.reputationEntries reputations }
  | .hourlyCron entry =>
      { s with reputationEntries := StateService.hourlyCron s.reputationEntries entry }
  | .clearState => { s with reputationEntries := .empty }
  | .addWhitelist items => { s with whiteList := s.whiteList ++ items }
  | .addBlacklist items => { s with blackList := s.blackList ++ items }

end Reputation

section Mempool

/-- The lower-case address under which a paymaster or factory is counted:
none when it is absent, empty or '0x'. -/
def countedRole (addr : Option String) : Option String :=
  ((truthy addr).map toLowerCase).filter (fun a => a ≠ "0x")

/-- One more entry for an address, counted from the counts before the update. -/
def incrementEntryCount (mempoolEntryCount updated : EntryCount) (addr : String) : EntryCount :=
  Function.update updated addr (mempoolEntryCount addr + 1)

/-- The same for the paymaster or the factory of an operation. -/
def incrementRoleCount (mempoolEntryCount updated : EntryCount) (role : Option String) :
    EntryCount :=
  match countedRole role with
  | some addr => incrementEntryCount mempoolEntryCount updated addr
  | none => updated

def entriesCountToUpdate (mempoolEntryCount : EntryCount) (userOp : UserOperation) : EntryCount :=
  let counted := incrementEntryCount mempoolEntryCount mempoolEntryCount (toLowerCase userOp.sender)
  let counted := incrementRoleCount mempoolEntryCount counted userOp.paymaster
  incrementRoleCount mempoolEntryCount counted userOp.factory

/-- The pool without the entry to be replaced, if there is one. -/
def withoutOld (standardPool : StandardPool) : Option MempoolEntry → StandardPool
  | some old => standardPool.delete old.userOpHash
  | none => standardPool

def doUpdateMempoolState (entry : MempoolEntry) (oldEntry : Option MempoolEntry)
    (standardPool : StandardPool) (mempoolEntryCount : EntryCount) : StandardPool × EntryCount :=
  match oldEntry with
  | some old => ((standardPool.delete old.userOpHash).insert entry, mempoolEntryCount)
  | none => (standardPool.insert entry, entriesCountToUpdate mempoolEntryCount entry.userOp)

/-- A count that would drop to zero or below is deleted. -/
def decrementEntryCount (mempoolEntryCount : EntryCount) (addr : String) : EntryCount :=
  Function.update mempoolEntryCount addr (mempoolEntryCount addr - 1)

def deleteEntryCount (mempoolEntryCount : EntryCount) (addr : String) : EntryCount :=
  Function.update mempoolEntryCount addr 0

def deleteRoleCount (mempoolEntryCount : EntryCount) (role : Option String) : EntryCount :=
  match truthy role with
  | some addr => deleteEntryCount mempoolEntryCount addr
  | none => mempoolEntryCount

/-- The counters deleted for one entry of a banned address. -/
def deleteBannedCounts (mempoolEntryCount : EntryCount) (userOp : UserOperation) : EntryCount :=
  let counted := deleteEntryCount mempoolEntryCount userOp.sender
  let counted := deleteRoleCount counted userOp.paymaster
  deleteRoleCount counted userOp.factory

/-- The assignments of getNextPending and getAllPending, in order: the first
absent hash throws, with the earlier entries already changed. -/
def markBundling : StandardPool → List String → StandardPool × Except JsError Unit
  | standardPool, [] => (standardPool, .ok ⟨⟩)
  | standardPool, userOpHash :: userOpHashes =>
      match standardPool.get userOpHash with
      | some entry =>
          markBundling (standardPool.insert { entry with status := .bundling }) userOpHashes
      | none => (standardPool, .error .typeError)

def MempoolUpdate.apply (s : State) : MempoolUpdate → State × Except JsError Unit
  | .doUpdateMempoolState entry oldEntry =>
      let updated :=
        StateService.doUpdateMempoolState entry oldEntry s.standardPool s.mempoolEntryCount
      -- The old entry is deleted in place before the pool is copied; the
      -- counts are copied for a new entry only.
      ({ s with
          standardPool := updated.1
          mempoolEntryCount := updated.2
          replacedPools := s.replacedPools ++ [withoutOld s.standardPool oldEntry]
          replacedCounts :=
            if oldEntry.isNone then s.replacedCounts ++ [s.mempoolEntryCount]
            else s.replacedCounts },
        .ok ⟨⟩)
  | .removeUserOp entry =>
      ({ s with
          standardPool := s.standardPool.delete entry.userOpHash
          mempoolEntryCount := decrementEntryCount s.mempoolEntryCount entry.userOp.sender },
        .ok ⟨⟩)
  | .removeUserOpsForBannedAddr opsToRemove =>
      ({ s with
          standardPool := opsToRemove.foldl (fun pool entry => pool.delete entry.userOpHash)
            s.standardPool
          mempoolEntryCount := opsToRemove.foldl
            (fun counts entry => deleteBannedCounts counts entry.userOp) s.mempoolEntryCount },
        .ok ⟨⟩)
  | .markBundling userOpHashes =>
      let marked := StateService.markBundling s.standardPool userOpHashes
      ({ s with standardPool := marked.1 }, marked.2)
  | .updateEntryStatus entry status =>
      ({ s with
          standardPool := s.standardPool.insert { entry with status := status }
          replacedPools := s.replacedPools ++ [s.standardPool] },
        .ok ⟨⟩)
  | .clearState =>
      ({ s with
          standardPool := .empty
          mempoolEntryCount := fun _ => 0
          replacedPools := s.replacedPools ++ [s.standardPool]
          replacedCounts := s.replacedCounts ++ [s.mempoolEntryCount] },
        .ok ⟨⟩)
  | .addBundleTxnConfirmation transactionHash signerIndex =>
      ({ s with bundleTxs := s.bundleTxs.insert ⟨transactionHash, signerIndex, .pending⟩ }, .ok ⟨⟩)

end Mempool

def Update.apply : Update → State → State × Except JsError Unit
  | .reputation update, s => (update.apply s, .ok ⟨⟩)
  | .mempool update, s => update.apply s

abbrev Async := Program State Update JsError

def getState : Async State := Program.read

def updateState (update : Update) : Async PUnit := Program.update update

section References

variable (s : State)

/-- The reference to the pool a getState hands out: how many pools were
replaced before it. -/
def poolReference : ℕ := s.replacedPools.length

def countReference : ℕ := s.replacedCounts.length

/-- The pool behind a reference: the replaced one of that number, or the
one still in place. -/
def poolAt (reference : ℕ) : StandardPool := s.replacedPools.getD reference s.standardPool

def countAt (reference : ℕ) : EntryCount := s.replacedCounts.getD reference s.mempoolEntryCount

@[simp] theorem poolAt_poolReference : poolAt s (poolReference s) = s.standardPool := by
  simp [poolAt, poolReference]

@[simp] theorem countAt_countReference : countAt s (countReference s) = s.mempoolEntryCount := by
  simp [countAt, countReference]

end References

/-- Reading the pool through a reference handed out before. -/
def readPool (reference : ℕ) : Async StandardPool := do
  let s ← getState
  pure (poolAt s reference)

def readCount (reference : ℕ) : Async EntryCount := do
  let s ← getState
  pure (countAt s reference)

theorem readPool_readOnly (reference : ℕ) : (readPool reference).ReadOnly := fun _ _ => trivial

theorem readCount_readOnly (reference : ℕ) : (readCount reference).ReadOnly := fun _ _ => trivial

/-- A program of the bundler running alone. -/
def runAlone {α : Type} (p : Async α) (s : State) : State × Except JsError α :=
  p.run Update.apply s

section Statuses

variable {β : Type*} {f : MempoolEntry → β}
  (hf : ∀ (entry : MempoolEntry) status, f { entry with status := status } = f entry)

include hf

/-- What does not depend on the status survives a change of it. -/
theorem map_insert_status {standardPool : StandardPool} {entry stored : MempoolEntry}
    (hget : standardPool.get entry.userOpHash = some stored) (hsame : f stored = f entry)
    (status : EntryStatus) :
    (standardPool.insert { entry with status := status }).values.map f =
      standardPool.values.map f :=
  standardPool.map_insert_of_get f hget ((hf entry status).trans hsame.symm)

theorem map_markBundling (standardPool : StandardPool) (userOpHashes : List String) :
    (markBundling standardPool userOpHashes).1.values.map f = standardPool.values.map f := by
  induction userOpHashes generalizing standardPool with
  | nil => rfl
  | cons userOpHash userOpHashes ih =>
    unfold markBundling
    cases hget : standardPool.get userOpHash with
    | none => rfl
    | some entry =>
      have hkey : entry.userOpHash = userOpHash := ((standardPool.get_eq_some_iff _ _).mp hget).2
      have hentry : standardPool.get entry.userOpHash = some entry := by rw [hkey, hget]
      exact (ih _).trans (map_insert_status hf hentry rfl .bundling)

end Statuses

section Marking

variable {standardPool : StandardPool}

theorem isSome_get_insert_bundling {entry : MempoolEntry} {userOpHash : String}
    (hget : standardPool.get userOpHash = some entry) (other : String) :
    ((standardPool.insert { entry with status := .bundling }).get other).isSome =
      (standardPool.get other).isSome := by
  have hkey : entry.userOpHash = userOpHash := ((standardPool.get_eq_some_iff _ _).mp hget).2
  rw [KeyedRecord.get_insert]
  by_cases hother : other = entry.userOpHash
  · rw [if_pos hother, hother, hkey, hget]
    rfl
  · rw [if_neg hother]

/-- Marking throws exactly when one of the hashes is absent. -/
theorem markBundling_ok_iff (standardPool : StandardPool) (userOpHashes : List String) :
    (markBundling standardPool userOpHashes).2 = .ok ⟨⟩ ↔
      ∀ userOpHash ∈ userOpHashes, (standardPool.get userOpHash).isSome := by
  induction userOpHashes generalizing standardPool with
  | nil => simp [markBundling]
  | cons first userOpHashes ih =>
    unfold markBundling
    cases hget : standardPool.get first with
    | none => simp [hget]
    | some entry =>
      dsimp only
      rw [ih, List.forall_mem_cons, hget]
      simp only [isSome_get_insert_bundling hget, Option.isSome_some, true_and]

/-- It changes the status of the entries before the first absent hash, and
nothing else. -/
theorem markBundling_get_takeWhile (standardPool : StandardPool) (userOpHashes : List String)
    (userOpHash : String) :
    (markBundling standardPool userOpHashes).1.get userOpHash =
      if userOpHash ∈ userOpHashes.takeWhile (fun other => (standardPool.get other).isSome) then
        (standardPool.get userOpHash).map fun entry => { entry with status := .bundling }
      else standardPool.get userOpHash := by
  induction userOpHashes generalizing standardPool with
  | nil => simp [markBundling]
  | cons first userOpHashes ih =>
    unfold markBundling
    cases hget : standardPool.get first with
    | none => simp [hget]
    | some entry =>
      have hkey : entry.userOpHash = first := ((standardPool.get_eq_some_iff _ _).mp hget).2
      have hpooled := funext fun other => isSome_get_insert_bundling hget other
      dsimp only
      rw [ih, hpooled, KeyedRecord.get_insert, hkey, List.takeWhile_cons, hget]
      by_cases hsame : userOpHash = first
      · simp [hsame, hget, hkey]
      · simp [hsame]

variable {userOpHashes : List String}

/-- Marking entries that are all there does not throw. -/
theorem markBundling_ok
    (h : ∀ userOpHash ∈ userOpHashes,
      userOpHash ∈ standardPool.values.map MempoolEntry.userOpHash) :
    (markBundling standardPool userOpHashes).2 = .ok ⟨⟩ := by
  rw [markBundling_ok_iff]
  intro userOpHash huserOpHash
  exact (standardPool.isSome_get_iff userOpHash).mpr (h userOpHash huserOpHash)

/-- It changes the status of exactly those entries. -/
theorem markBundling_get
    (h : ∀ userOpHash ∈ userOpHashes,
      userOpHash ∈ standardPool.values.map MempoolEntry.userOpHash) (userOpHash : String) :
    (markBundling standardPool userOpHashes).1.get userOpHash =
      if userOpHash ∈ userOpHashes then
        (standardPool.get userOpHash).map fun entry => { entry with status := .bundling }
      else standardPool.get userOpHash := by
  have hall : userOpHashes.takeWhile (fun other => (standardPool.get other).isSome) =
      userOpHashes := by
    apply List.takeWhile_eq_self_iff.mpr
    intro other hother
    exact (standardPool.isSome_get_iff other).mpr (h other hother)
  rw [markBundling_get_takeWhile, hall]

end Marking

/-- A program that, made alone, comes to a value of the state and changes nothing. -/
abbrev Reads {α : Type} (p : Async α) (value : State → α) : Prop :=
  Program.Reads Update.apply p value

theorem readCount_reads (reference : ℕ) :
    Reads (readCount reference) fun s => countAt s reference := fun _ => rfl

/-- A check made alone passes exactly on the states meeting Q, and changes nothing then. -/
abbrev PassesIff (p : Async PUnit) (Q : State → Prop) : Prop := Program.PassesIff Update.apply p Q

section Frames

variable (s : State) (u : ReputationUpdate)

@[simp] theorem reputation_standardPool : (u.apply s).standardPool = s.standardPool := by
  cases u <;> rfl

@[simp] theorem reputation_mempoolEntryCount :
    (u.apply s).mempoolEntryCount = s.mempoolEntryCount := by
  cases u <;> rfl

variable (v : MempoolUpdate)

@[simp] theorem mempool_reputationEntries :
    (v.apply s).1.reputationEntries = s.reputationEntries := by
  cases v <;> rfl

@[simp] theorem mempool_whiteList : (v.apply s).1.whiteList = s.whiteList := by
  cases v <;> rfl

@[simp] theorem mempool_blackList : (v.apply s).1.blackList = s.blackList := by
  cases v <;> rfl

end Frames

end Bundler.StateService
