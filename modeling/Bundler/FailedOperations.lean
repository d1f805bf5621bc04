import Bundler.BannedAddresses
import Bundler.BundleManager
import Bundler.LookUps
import Bundler.Operations

/-!
Operations that failed on chain. The event of a failure marks the entry as
failed, and only pending entries are handed out. An attempt that took the
entry before the event came still puts it back as pending when it leaves it
out of the bundle, whatever the status has become. A failed entry stays out
of every later hand-out exactly as long as nothing puts it back like that.
-/
namespace Bundler.FailedOperations

open KeyedRecords AsyncPrograms DataModel StateService ReputationManager DepositManager
  MempoolManager BundleBuilder BundleManager BannedAddresses Operations Runs Interleavings LookUps

/-- What may happen while the attempts go on. -/
inductive Party
  | addUserOp (balanceOf : BalanceOf) (param : RelayUserOpParam)
  | handleEvent (effects : List EventEffect)

def Party.program (config : StakeConfig) : Party → Async PUnit
  | .addUserOp balanceOf param => (MempoolManager.addUserOp config balanceOf param).detach
  | .handleEvent effects => effects.forM EventEffect.program

/-- Attempts one after another, each of them whether or not the last one rejected. -/
def attemptsInTurn (attempts : List (Services × Bool)) : Async PUnit :=
  attempts.forM fun attempt =>
    tryCatch (doAttemptBundle attempt.1 attempt.2).detach fun _ => pure ⟨⟩

/-- The attempts in thread 0, among admissions and events. -/
def attemptsAmong (config : StakeConfig) (s : State) (attempts : List (Services × Bool))
    (parties : List Party) : Config State Update JsError :=
  ⟨s, attemptsInTurn attempts :: parties.map (Party.program config)⟩

/-- Neither getNextPending nor getAllPending, called now, returns the entry. -/
def NotHandedOut (userOpHash : String) (s : State) : Prop :=
  (∀ bundleSize, userOpHash ∉
      (nextPending bundleSize s.standardPool).map MempoolEntry.userOpHash) ∧
    userOpHash ∉ (allPending s.standardPool).map MempoolEntry.userOpHash

/-- The next access of thread i ends the handling of the entry's failure: it
writes the status, or finds no entry under the hash. -/
def HandlesFailure (userOpHash : String) (c : Config State Update JsError) (i : ℕ) : Prop :=
  (∃ entry, c.pending i = some (.mempool (.updateEntryStatus entry .failed)) ∧
      entry.userOpHash = userOpHash) ∨
    (c.state.standardPool.get userOpHash = none ∧
      ∃ rest, c.threads[i]? = some (updateEntryStatus userOpHash .failed >>= rest))

/-- The update is that of an addUserOp under a hash that is not pooled any more. -/
def AddsAgain (userOpHash : String) (s : State) : Update → Prop
  | .mempool (.doUpdateMempoolState entry old) =>
      entry.userOpHash = userOpHash ∧ (withoutOld s.standardPool old).get userOpHash = none
  | _ => False

instance (userOpHash : String) (s : State) (u : Update) : Decidable (AddsAgain userOpHash s u) := by
  unfold AddsAgain
  split <;> infer_instance

/-- The update leaves a pending entry under the hash. -/
def writesPending (userOpHash : String) : Update → Bool
  | .mempool (.doUpdateMempoolState entry _) =>
      entry.userOpHash = userOpHash && entry.status = .pending
  | .mempool (.updateEntryStatus entry status) =>
      entry.userOpHash = userOpHash && status = .pending
  | _ => false

section Pending

variable {userOpHash : String} {s : State}

/-- The entry under the hash, if there is one, is not pending. -/
def NotPending (userOpHash : String) (standardPool : StandardPool) : Prop :=
  ∀ entry, standardPool.get userOpHash = some entry → entry.status ≠ .pending

theorem mem_allPending_iff (standardPool : StandardPool) :
    userOpHash ∈ (allPending standardPool).map MempoolEntry.userOpHash ↔
      ∃ entry, standardPool.get userOpHash = some entry ∧ entry.status = .pending := by
  unfold allPending
  constructor
  · intro h
    obtain ⟨entry, hentry, rfl⟩ := List.mem_map.mp h
    obtain ⟨hmem, hpending⟩ := List.mem_filter.mp hentry
    exact ⟨entry, standardPool.get_key hmem, of_decide_eq_true hpending⟩
  · rintro ⟨entry, hget, hpending⟩
    obtain ⟨hmem, rfl⟩ := (standardPool.get_eq_some_iff _ _).mp hget
    exact List.mem_map_of_mem (List.mem_filter.mpr ⟨hmem, decide_eq_true hpending⟩)

theorem notHandedOut_iff : NotHandedOut userOpHash s ↔ NotPending userOpHash s.standardPool := by
  have hall : userOpHash ∉ (allPending s.standardPool).map MempoolEntry.userOpHash ↔
      NotPending userOpHash s.standardPool := by
    rw [mem_allPending_iff]
    unfold NotPending
    push Not
    rfl
  constructor
  · intro h
    exact hall.mp h.2
  · intro h
    refine ⟨?_, hall.mpr h⟩
    intro bundleSize hmem
    obtain ⟨entry, hentry, hhash⟩ := List.mem_map.mp hmem
    exact hall.mpr h (List.mem_map.mpr ⟨entry, List.mem_of_mem_take hentry, hhash⟩)

theorem notPending_insert_iff {standardPool : StandardPool}
    (h : NotPending userOpHash standardPool) (entry : MempoolEntry) :
    NotPending userOpHash (standardPool.insert entry) ↔
      ¬(entry.userOpHash = userOpHash ∧ entry.status = .pending) := by
  unfold NotPending
  by_cases hkey : userOpHash = entry.userOpHash
  · rw [KeyedRecord.get_insert, if_pos hkey]
    simp [hkey]
  · rw [KeyedRecord.get_insert, if_neg hkey]
    exact iff_of_true h fun hsame => hkey hsame.1.symm

theorem notPending_of_get_sub {pool pool' : StandardPool} (h : NotPending userOpHash pool)
    (hsub : ∀ entry, pool'.get userOpHash = some entry → pool.get userOpHash = some entry) :
    NotPending userOpHash pool' :=
  fun entry hget => h entry (hsub entry hget)

theorem notPending_delete {standardPool : StandardPool} (h : NotPending userOpHash standardPool)
    (other : String) : NotPending userOpHash (standardPool.delete other) := by
  refine notPending_of_get_sub h ?_
  intro entry hget
  obtain ⟨hmem, hkey⟩ := (KeyedRecord.get_eq_some_iff _ _ _).mp hget
  exact (standardPool.get_eq_some_iff _ _).mpr ⟨((standardPool.mem_delete _ _).mp hmem).1, hkey⟩

theorem notPending_markBundling {standardPool : StandardPool}
    (h : NotPending userOpHash standardPool) (userOpHashes : List String) :
    NotPending userOpHash (markBundling standardPool userOpHashes).1 := by
  intro entry hget
  rw [markBundling_get_takeWhile] at hget
  split at hget
  · obtain ⟨stored, _, rfl⟩ := Option.map_eq_some_iff.mp hget
    exact EntryStatus.noConfusion
  · exact h entry hget

/-- One update keeps the entry from being pending exactly when it does not
write a pending one. -/
theorem notPending_update_iff (h : NotPending userOpHash s.standardPool) (u : Update) :
    NotPending userOpHash (u.apply s).1.standardPool ↔ ¬writesPending userOpHash u := by
  cases u with
  | reputation update =>
    refine iff_of_true ?_ Bool.false_ne_true
    change NotPending userOpHash (update.apply s).standardPool
    rw [reputation_standardPool]
    exact h
  | mempool update =>
    cases update with
    | doUpdateMempoolState entry old =>
      have hwithout : NotPending userOpHash (withoutOld s.standardPool old) := by
        cases old with
        | none => exact h
        | some old => exact notPending_delete h old.userOpHash
      have hinsert := notPending_insert_iff hwithout entry
      have hpool : (doUpdateMempoolState entry old s.standardPool s.mempoolEntryCount).1 =
          (withoutOld s.standardPool old).insert entry := by
        cases old with
        | none => rfl
        | some old => rfl
      change NotPending userOpHash
        (doUpdateMempoolState entry old s.standardPool s.mempoolEntryCount).1 ↔ _
      rw [hpool, hinsert]
      simp [writesPending]
    | updateEntryStatus entry status =>
      have hinsert := notPending_insert_iff h { entry with status := status }
      refine hinsert.trans ?_
      simp [writesPending]
    | removeUserOp entry =>
      exact iff_of_true (notPending_delete h entry.userOpHash) Bool.false_ne_true
    | removeUserOpsForBannedAddr opsToRemove =>
      refine iff_of_true (notPending_of_get_sub h ?_) Bool.false_ne_true
      intro entry hget
      obtain ⟨hmem, hkey⟩ := (KeyedRecord.get_eq_some_iff _ _ _).mp hget
      exact (s.standardPool.get_eq_some_iff _ _).mpr
        ⟨((s.standardPool.mem_foldl_delete _ _).mp hmem).1, hkey⟩
    | markBundling userOpHashes =>
      exact iff_of_true (notPending_markBundling h userOpHashes) Bool.false_ne_true
    | clearState =>
      refine iff_of_true ?_ Bool.false_ne_true
      intro entry hget
      cases hget
    | addBundleTxnConfirmation transactionHash signerIndex =>
      exact iff_of_true h Bool.false_ne_true

theorem notPending_after_failure {c : Config State Update JsError} {i : ℕ}
    (h : HandlesFailure userOpHash c i) :
    NotPending userOpHash (c.step Update.apply i).state.standardPool := by
  rcases h with ⟨entry, hpending, rfl⟩ | ⟨habsent, rest, hthread⟩
  · rw [Config.step_state_of_pending Update.apply hpending]
    intro stored hget
    have hwritten := c.state.standardPool.get_insert_self { entry with status := .failed }
    cases hwritten.symm.trans hget
    exact EntryStatus.noConfusion
  · have hread : c.pending i = none := by
      unfold Config.pending
      rw [hthread]
      rfl
    rw [Config.step_state_of_not_pending Update.apply hread]
    intro entry hget
    cases habsent.symm.trans hget

end Pending

section Attempts

/-- What is left of the attempts: of the current one, and those after it. -/
def attemptAt (p : Async PUnit) (rest : List (Services × Bool)) : Async PUnit :=
  (tryCatch p fun _ => pure ⟨⟩) >>= fun _ => attemptsInTurn rest

/-- The access of an attempt that selects the entries it will hand out. -/
def selecting (services : Services) (force : Bool) : Async PUnit :=
  (handOut (selectEntries services force) >>= attemptWith services).detach

variable (userOpHash : String) (c : Config State Update JsError) (rest : List (Services × Bool))

/-- The attempt before the rest is about to select the entry under the hash. -/
def Takes (services : Services) : Prop :=
  ∃ force, c.threads[0]? = some (attemptAt (selecting services force) rest) ∧
    userOpHash ∈ (selectEntries services force c.state.standardPool).map MempoolEntry.userOpHash

/-- The attempt has built its bundle, and the hash is among those not included. -/
def LeavesOut (services : Services) : Prop :=
  ∃ ready, c.threads[0]? = some (attemptAt (sendReady services ready).detach rest) ∧
    userOpHash ∈ ready.notIncludedUserOpsHashes

/-- The hash whose entry the update puts back as pending. -/
def putBack : Update → Option String
  | .mempool (.updateEntryStatus entry .pending) => some entry.userOpHash
  | _ => none

/-- The next access of the attempt writes the entry back as pending. -/
def WritesBack : Prop :=
  (∃ p, c.threads[0]? = some (attemptAt p rest)) ∧
    ∃ u, c.pending 0 = some u ∧ putBack u = some userOpHash

/-- An attempt that had taken the entry before the failure was handled leaves
it out of its bundle, and writes it back after the failure. -/
def PutBackLate (before : List ℕ) (i : ℕ) (after : List ℕ) : Prop :=
  ∃ services rest taken built returned,
    taken <+: before ∧ Takes userOpHash (c.exec Update.apply taken) rest services ∧
      taken <+: built ∧ LeavesOut userOpHash (c.exec Update.apply built) rest services ∧
      built <+: before ++ i :: returned ∧ returned ++ [0] <+: after ∧
      WritesBack userOpHash (c.exec Update.apply (before ++ i :: returned)) rest

/-- An addUserOp is about to write over an entry that is still pooled under
the hash. -/
def WritesOver (userOpHash : String) (s : State) : Update → Prop
  | .mempool (.doUpdateMempoolState entry old) =>
      entry.userOpHash = userOpHash ∧ entry.status = .pending ∧
        (withoutOld s.standardPool old).get userOpHash ≠ none
  | _ => False

instance (userOpHash : String) (s : State) (u : Update) :
    Decidable (WritesOver userOpHash s u) := by
  unfold WritesOver
  split <;> infer_instance

/-- An attempt comes to a bundle that leaves out some of the hashes, without
putting an entry back before. -/
def Builds (services : Services) (userOpHashes : List String) : Async PUnit → Prop :=
  ComesTo (fun p => ∃ ready, p = (sendReady services ready).detach ∧
    ready.notIncludedUserOpsHashes ⊆ userOpHashes) fun u => putBack u = none

theorem allowsClosing_putBack : AllowsClosing fun u => putBack u = none where
  removeUserOp _ := rfl
  removeUserOpsForBannedAddr _ := rfl
  crashedHandleOps _ := rfl
  addBundleTxnConfirmation _ _ := rfl

/-- An attempt puts back only what its bundle has left out. -/
theorem sendReady_putBack (services : Services) (ready : BundleReadyToSend) :
    (sendReady services ready).detach.Guarantees (fun _ => True)
      (fun u => ∀ userOpHash ∈ putBack u, userOpHash ∈ ready.notIncludedUserOpsHashes)
      fun _ => True := by
  refine Program.Guarantees.seq ?_ fun _ => trivial
  refine (returnNotIncluded_guarantees ?_).seq fun _ => ?_
  · intro s _ entry _ hmem userOpHash hputBack
    cases hputBack
    exact hmem
  · have hrest : (do
        removeMarked ready.markedToRemoveUserOpsHashes
        let res ← Program.ofExcept (services.sendBundle ready.bundle ready.storageMap)
        afterSendBundle res
        pure ⟨res.transactionHash, res.userOpHashes⟩ : Async SendBundleReturn).Guarantees
          (fun _ => True) (fun u => putBack u = none) fun _ => True := by
      refine (removeMarked_guarantees (fun _ => rfl) (fun _ => rfl) _).seq fun _ => ?_
      refine Program.Guarantees.seq trivial fun res => ?_
      exact (allowsClosing_putBack.afterSendBundle_guarantees res).seq fun _ => trivial
    refine hrest.weaken ?_
    intro u hnone userOpHash hputBack
    cases hnone.symm.trans hputBack

/-- What an attempt leaves out it has been handed out. -/
theorem attemptWith_builds (services : Services) (entries : List MempoolEntry) :
    Builds services (entries.map MempoolEntry.userOpHash)
      (attemptWith services entries).detach := by
  unfold attemptWith
  split
  · exact .done _
  · have hevents : (handlePastEvents services.pastEvents).Guarantees (fun _ => True)
        (fun u => putBack u = none) fun _ => True := by
      refine (Program.Guarantees.forM fun effect _ => ?_).seq fun _ => trivial
      exact eventEffect_guarantees (fun _ => rfl) (fun _ _ _ _ => rfl) (fun _ => rfl) effect
    have hbuilt (knownSenders : List String) :=
      createBundle_notIncluded services.builder knownSenders entries
    unfold Program.detach
    rw [Program.bind_assoc]
    refine ComesTo.after hevents fun _ _ => .getState fun s => ?_
    change ComesTo _ _ ((createBundle services.builder entries _ >>= _) >>= _)
    rw [Program.bind_assoc]
    refine ComesTo.after ((hbuilt _).weaken fun _ h => h.elim) fun ready hready => ?_
    exact .here ⟨ready, rfl, hready ready rfl⟩

/-- What an attempt selects in a state, and still has to mark and to bundle. -/
def selected (services : Services) (force : Bool) (s : State) : Async PUnit :=
  match selecting services force with
  | .getState next => next s
  | p => p

theorem selected_builds (services : Services) (force : Bool) (s : State) :
    Builds services ((selectEntries services force s.standardPool).map MempoolEntry.userOpHash)
      (selected services force s) := by
  refine .updateState rfl fun r => ?_
  cases r with
  | ok _ => exact attemptWith_builds services _
  | error _ => exact .done _

/-- What is left of an attempt is left of all of them, until it is done. -/
theorem attemptAt_eq_getState {p : Async PUnit} {rest : List (Services × Bool)}
    {next : State → Async PUnit} (h : attemptAt p rest = .getState next) :
    (∃ n, p = .getState n ∧ ∀ s, next s = attemptAt (n s) rest) ∨
      attemptsInTurn rest = .getState next := by
  cases p with
  | done r =>
    refine Or.inr ?_
    cases r with
    | ok _ => exact h
    | error _ => exact h
  | getState n =>
    have hnext := Program.getState.inj h
    exact Or.inl ⟨n, rfl, fun s => (congrFun hnext s).symm⟩
  | updateState u n => cases h

theorem attemptsInTurn_ne_updateState (rest : List (Services × Bool)) {u : Update}
    {next : Except JsError PUnit → Async PUnit} : attemptsInTurn rest ≠ .updateState u next := by
  intro h
  cases rest with
  | nil => cases h
  | cons attempt rest => cases h

theorem attemptAt_eq_updateState {p : Async PUnit} {rest : List (Services × Bool)} {u : Update}
    {next : Except JsError PUnit → Async PUnit} (h : attemptAt p rest = .updateState u next) :
    ∃ n, p = .updateState u n ∧ ∀ r, next r = attemptAt (n r) rest := by
  cases p with
  | done r =>
    cases r with
    | ok _ => exact absurd h (attemptsInTurn_ne_updateState rest)
    | error _ => exact absurd h (attemptsInTurn_ne_updateState rest)
  | getState n => cases h
  | updateState v n =>
    obtain ⟨rfl, hnext⟩ := Program.updateState.inj h
    exact ⟨n, rfl, fun r => (congrFun hnext r).symm⟩

/-- An attempt begins with a look at the size of the mempool. -/
theorem attemptsInTurn_eq_getState {rest : List (Services × Bool)} {next : State → Async PUnit}
    (h : attemptsInTurn rest = .getState next) (s : State) :
    (∃ later, next s = attemptsInTurn later) ∨
      ∃ services force later, next s = attemptAt (selecting services force) later := by
  cases rest with
  | nil => cases h
  | cons attempt rest =>
    obtain ⟨services, force⟩ := attempt
    have hnext : attemptAt ((if s.standardPool.values.length = 0 then pure [] else
        if force then getAllPending else getNextPending services.bundleSize) >>=
          attemptWith services).detach rest = next s := congrFun (Program.getState.inj h) s
    rw [← hnext]
    split
    · exact Or.inl ⟨rest, rfl⟩
    · refine Or.inr ⟨services, force, rest, ?_⟩
      cases force with
      | false => rfl
      | true => rfl

/-- How far the attempts have come at a prefix of the run: between two of them,
at a selection, with entries taken, or with a bundle built. -/
inductive Progress (c : Config State Update JsError) (now : List ℕ) : Async PUnit → Prop
  | between (rest : List (Services × Bool)) : Progress c now (attemptsInTurn rest)
  | selecting (services : Services) (force : Bool) (rest : List (Services × Bool)) :
      Progress c now (attemptAt (selecting services force) rest)
  | taken {services : Services} {rest : List (Services × Bool)} {taken : List ℕ}
      {userOpHashes : List String} {p : Async PUnit} :
      taken <+: now →
      (∀ userOpHash ∈ userOpHashes, Takes userOpHash (c.exec Update.apply taken) rest services) →
      Builds services userOpHashes p → Progress c now (attemptAt p rest)
  | built {services : Services} {rest : List (Services × Bool)} {taken built : List ℕ}
      {ready : BundleReadyToSend} {p : Async PUnit} :
      taken <+: built → built <+: now →
      (∀ userOpHash ∈ ready.notIncludedUserOpsHashes,
        Takes userOpHash (c.exec Update.apply taken) rest services) →
      (c.exec Update.apply built).threads[0]? =
        some (attemptAt (sendReady services ready).detach rest) →
      p.Guarantees (fun _ => True)
        (fun u => ∀ userOpHash ∈ putBack u, userOpHash ∈ ready.notIncludedUserOpsHashes)
        (fun _ => True) → Progress c now (attemptAt p rest)

namespace Progress

variable {c : Config State Update JsError} {now : List ℕ} {p : Async PUnit}

theorem mono (h : Progress c now p) (i : ℕ) : Progress c (now ++ [i]) p := by
  have hlonger : now <+: now ++ [i] := List.prefix_append now [i]
  cases h with
  | between rest => exact .between rest
  | selecting services force rest => exact .selecting services force rest
  | taken htaken htakes hbuilds => exact .taken (htaken.trans hlonger) htakes hbuilds
  | built htaken hbuilt htakes hthread hp =>
    exact .built htaken (hbuilt.trans hlonger) htakes hthread hp

theorem between_read {rest : List (Services × Bool)} {next : State → Async PUnit}
    (h : attemptsInTurn rest = .getState next) (s : State) : Progress c now (next s) := by
  rcases attemptsInTurn_eq_getState h s with ⟨later, hnext⟩ | ⟨services, force, later, hnext⟩
  · rw [hnext]
    exact .between later
  · rw [hnext]
    exact .selecting services force later

theorem built_read {services : Services} {rest : List (Services × Bool)} {taken built : List ℕ}
    {ready : BundleReadyToSend} {next : State → Async PUnit} (htaken : taken <+: built)
    (hbuilt : built <+: now) (htakes : ∀ userOpHash ∈ ready.notIncludedUserOpsHashes,
      Takes userOpHash (c.exec Update.apply taken) rest services)
    (hthread : (c.exec Update.apply built).threads[0]? =
      some (attemptAt (sendReady services ready).detach rest))
    (hp : p.Guarantees (fun _ => True)
      (fun u => ∀ userOpHash ∈ putBack u, userOpHash ∈ ready.notIncludedUserOpsHashes)
      fun _ => True) (hnext : attemptAt p rest = .getState next) (s : State) :
    Progress c now (next s) := by
  rcases attemptAt_eq_getState hnext with ⟨n, rfl, hn⟩ | hdone
  · rw [hn]
    exact .built htaken hbuilt htakes hthread (hp s trivial)
  · exact between_read hdone s

/-- A read takes entries, or gets the attempt no further than it was. -/
theorem read {next : State → Async PUnit}
    (hthread : (c.exec Update.apply now).threads[0]? = some (.getState next))
    (h : Progress c now (.getState next)) :
    Progress c (now ++ [0]) (next (c.exec Update.apply now).state) := by
  generalize hp : Program.getState next = p at h
  have hlonger : now <+: now ++ [0] := List.prefix_append now [0]
  cases h with
  | between rest => exact between_read hp.symm _
  | selecting services force rest =>
    have hnext := congrFun (Program.getState.inj hp) (c.exec Update.apply now).state
    rw [hnext]
    refine taken hlonger (fun userOpHash hmem => ?_)
      (selected_builds services force (c.exec Update.apply now).state)
    exact ⟨force, hthread.trans (congrArg some hp), hmem⟩
  | taken htaken htakes hbuilds =>
    rcases attemptAt_eq_getState hp.symm with ⟨n, rfl, hn⟩ | hdone
    · cases hbuilds with
      | here hready =>
        obtain ⟨ready, hsend, hsubset⟩ := hready
        rw [hsend] at hp
        rw [hp] at hthread
        exact built_read htaken hlonger (fun userOpHash hmem => htakes _ (hsubset hmem)) hthread
          (sendReady_putBack _ ready) hp.symm _
      | getState hnext =>
        rw [hn]
        exact .taken (htaken.trans hlonger) htakes (hnext _)
    · exact between_read hdone _
  | built htaken hbuilt htakes hbuiltAt hp' =>
    exact built_read htaken (hbuilt.trans hlonger) htakes hbuiltAt hp' hp.symm _

/-- An update leaves the attempt where it was, too. -/
theorem update {u : Update} {next : Except JsError PUnit → Async PUnit}
    (hthread : (c.exec Update.apply now).threads[0]? = some (.updateState u next))
    (h : Progress c now (.updateState u next)) (r : Except JsError PUnit) :
    Progress c (now ++ [0]) (next r) := by
  generalize hp : Program.updateState u next = p at h
  have hlonger : now <+: now ++ [0] := List.prefix_append now [0]
  cases h with
  | between rest => exact absurd hp.symm (attemptsInTurn_ne_updateState rest)
  | selecting services force rest => cases hp
  | @taken services _ _ _ _ htaken htakes hbuilds =>
    obtain ⟨n, rfl, hn⟩ := attemptAt_eq_updateState hp.symm
    rw [hn]
    cases hbuilds with
    | here hready =>
      obtain ⟨ready, hsend, hsubset⟩ := hready
      rw [hp, hsend] at hthread
      have hguaranteed := sendReady_putBack services ready
      rw [← hsend] at hguaranteed
      exact .built htaken hlonger (fun userOpHash hmem => htakes _ (hsubset hmem)) hthread
        (hguaranteed.2 r)
    | updateState _ hnext => exact .taken (htaken.trans hlonger) htakes (hnext r)
  | built htaken hbuilt htakes hbuiltAt hp' =>
    obtain ⟨n, rfl, hn⟩ := attemptAt_eq_updateState hp.symm
    rw [hn]
    exact .built htaken (hbuilt.trans hlonger) htakes hbuiltAt (hp'.2 r)

/-- An attempt that writes an entry back had taken it and left it out. -/
theorem writesBack {u : Update} {next : Except JsError PUnit → Async PUnit} {userOpHash : String}
    (hthread : (c.exec Update.apply now).threads[0]? = some (.updateState u next))
    (h : Progress c now (.updateState u next)) (hputBack : putBack u = some userOpHash) :
    ∃ services rest taken built, taken <+: built ∧ built <+: now ∧
      Takes userOpHash (c.exec Update.apply taken) rest services ∧
      LeavesOut userOpHash (c.exec Update.apply built) rest services ∧
      WritesBack userOpHash (c.exec Update.apply now) rest := by
  have hpending : (c.exec Update.apply now).pending 0 = some u :=
    Config.pending_eq_some_iff.mpr ⟨next, hthread⟩
  generalize hp : Program.updateState u next = p at h hthread
  cases h with
  | between rest => exact absurd hp.symm (attemptsInTurn_ne_updateState rest)
  | selecting services force rest => cases hp
  | @taken services _ _ _ _ htaken htakes hbuilds =>
    obtain ⟨n, rfl, hn⟩ := attemptAt_eq_updateState hp.symm
    cases hbuilds with
    | here hready =>
      obtain ⟨ready, hsend, hsubset⟩ := hready
      have hguaranteed := sendReady_putBack services ready
      rw [← hsend] at hguaranteed
      have hmem := hguaranteed.1 userOpHash hputBack
      refine ⟨_, _, _, now, htaken, List.prefix_rfl, htakes _ (hsubset hmem), ⟨ready, ?_, hmem⟩,
        ⟨_, hthread⟩, u, hpending, hputBack⟩
      rw [← hsend]
      exact hthread
    | updateState hnone _ => cases hnone.symm.trans hputBack
  | built htaken hbuilt htakes hbuiltAt hp' =>
    obtain ⟨n, rfl, hn⟩ := attemptAt_eq_updateState hp.symm
    have hmem := hp'.1 userOpHash hputBack
    exact ⟨_, _, _, _, htaken, hbuilt, htakes _ hmem, ⟨_, hbuiltAt, hmem⟩, ⟨_, hthread⟩, u,
      hpending, hputBack⟩

/-- However far a run has come, the attempts have come somewhere in it. -/
theorem of_run {attempts : List (Services × Bool)}
    (hattempts : c.threads[0]? = some (attemptsInTurn attempts)) (now : List ℕ) :
    (c.exec Update.apply now).At 0 (Progress c now) := by
  induction now using List.reverseRecOn with
  | nil =>
    intro p hp
    cases hattempts.symm.trans hp
    exact .between attempts
  | append_singleton now i ih =>
    rw [Config.exec_append]
    refine ih.step_thread Update.apply i (fun _ hp => hp.mono i) ?_ ?_
    · rintro rfl next hthread hnext
      exact read hthread hnext
    · rintro rfl u next hthread hnext
      exact update hthread hnext _

end Progress

/-- Admissions and events put nothing back. -/
theorem party_putBack (config : StakeConfig) (party : Party) :
    (party.program config).Guarantees (fun _ => True) (fun u => putBack u = none)
      fun _ => True := by
  cases party with
  | addUserOp balanceOf param =>
    refine addUserOp_guarantees ?_ (fun _ => rfl) fun _ => rfl
    intro handedOut
    exact ((replaceOrAddUserOpChecks_readOnly config _ handedOut _).guarantees _ _).mono
      (fun _ h => h) (fun _ h => h) fun _ _ _ _ => rfl
  | handleEvent effects =>
    refine Program.Guarantees.forM fun effect _ => ?_
    exact eventEffect_guarantees (fun _ => rfl) (fun _ _ _ _ => rfl) (fun _ => rfl) effect

/-- The attempts are in thread 0, and no other thread puts an entry back. -/
structure AttemptsFirst (c : Config State Update JsError) : Prop where
  attempts : ∃ attempts, c.threads[0]? = some (attemptsInTurn attempts)
  others : ∀ j ≠ 0, c.At j fun p =>
    p.Guarantees (fun _ => True) (fun u => putBack u = none) fun _ => True

theorem attemptsFirst_attemptsAmong (config : StakeConfig) (s : State)
    (attempts : List (Services × Bool)) (parties : List Party) :
    AttemptsFirst (attemptsAmong config s attempts parties) where
  attempts := ⟨attempts, rfl⟩
  others := by
    intro j hj p hp
    obtain ⟨k, rfl⟩ := Nat.exists_eq_succ_of_ne_zero hj
    obtain ⟨party, _, rfl⟩ := List.mem_map.mp (List.mem_of_getElem? hp)
    exact party_putBack config party

variable {userOpHash : String}

theorem writesPending_of_writesOver {s : State} {u : Update} (h : WritesOver userOpHash s u) :
    writesPending userOpHash u := by
  unfold WritesOver at h
  split at h
  · simp [writesPending, h]
  · exact h.elim

theorem writesPending_of_putBack {u : Update} (h : putBack u = some userOpHash) :
    writesPending userOpHash u := by
  unfold putBack at h
  split at h
  · simp [writesPending, Option.some.inj h]
  · cases h

/-- A pending entry is written by adding the operation again, over an entry
that is still there, or by an attempt that puts it back. -/
theorem writesPending_cases (s : State) {u : Update} (h : writesPending userOpHash u) :
    AddsAgain userOpHash s u ∨ WritesOver userOpHash s u ∨ putBack u = some userOpHash := by
  unfold writesPending at h
  split at h
  · rename_i entry old
    obtain ⟨hhash, hpending⟩ := (Bool.and_eq_true _ _).mp h
    have hhash := of_decide_eq_true hhash
    by_cases habsent : (withoutOld s.standardPool old).get userOpHash = none
    · exact Or.inl ⟨hhash, habsent⟩
    · exact Or.inr (Or.inl ⟨hhash, of_decide_eq_true hpending, habsent⟩)
  · rename_i entry status
    obtain ⟨hhash, hpending⟩ := (Bool.and_eq_true _ _).mp h
    obtain rfl := of_decide_eq_true hpending
    exact Or.inr (Or.inr (congrArg some (of_decide_eq_true hhash)))
  · cases h

/-- What is not pending is not selected. -/
theorem not_takes {c : Config State Update JsError} {rest : List (Services × Bool)}
    {services : Services} (h : NotPending userOpHash c.state.standardPool) :
    ¬Takes userOpHash c rest services := by
  rintro ⟨force, _, hmem⟩
  obtain ⟨hnext, hall⟩ := notHandedOut_iff.mpr h
  cases force with
  | false => exact hnext _ hmem
  | true => exact hall hmem

/-- Nothing is put back late when nothing is put back at all. -/
theorem not_putBackLate {c : Config State Update JsError} {before after : List ℕ} {i : ℕ}
    (h : AllSteps (Config.step Update.apply)
      (Config.Writes fun _ u => putBack u ≠ some userOpHash)
      (c.exec Update.apply (before ++ [i])) after) :
    ¬PutBackLate userOpHash c before i after := by
  rintro ⟨services, rest, taken, built, returned, _, _, _, _, _, ⟨later, rfl⟩, _, u, hpending,
    hputBack⟩
  refine (allSteps_iff_prefixes _).mp h returned 0 later (by simp) u ?_ hputBack
  change ((c.exec Update.apply (before ++ [i])).exec Update.apply returned).pending 0 = some u
  rw [← Config.exec_append, List.append_assoc, List.singleton_append]
  exact hpending

section Handled

variable {c : Config State Update JsError} {before returned : List ℕ} {i : ℕ}

/-- While the entry is not pending no attempt takes it, so one that puts it
back had taken it before. -/
theorem putBackLate_of_putBack (hfirst : AttemptsFirst c)
    (hpast : ∀ first, first <+: returned →
      NotPending userOpHash (c.exec Update.apply (before ++ i :: first)).state.standardPool)
    {j : ℕ} {u : Update}
    (hpending : (c.exec Update.apply (before ++ i :: returned)).pending j = some u)
    (hputBack : putBack u = some userOpHash) (later : List ℕ) :
    PutBackLate userOpHash c before i (returned ++ j :: later) := by
  have hj : j = 0 := by
    by_contra hj
    have hparty := (hfirst.others j hj).exec_guarantees Update.apply
      (allStates_of_invariant _ (fun _ _ _ => trivial) trivial (before ++ i :: returned))
    cases (hparty.of_pending hpending).symm.trans hputBack
  subst hj
  obtain ⟨attempts, hattempts⟩ := hfirst.attempts
  obtain ⟨next, hthread⟩ := Config.pending_eq_some_iff.mp hpending
  obtain ⟨services, rest, taken, built, htaken, hbuilt, htakes, hleavesOut, hwritesBack⟩ :=
    (Progress.of_run hattempts _ _ hthread).writesBack hthread hputBack
  refine ⟨services, rest, taken, built, returned, ?_, htakes, htaken, hleavesOut, hbuilt,
    ⟨later, by simp⟩, hwritesBack⟩
  have hbefore : before <+: before ++ i :: returned := List.prefix_append before _
  rcases List.prefix_or_prefix_of_prefix (htaken.trans hbuilt) hbefore with htakenBefore | hafter
  · exact htakenBefore
  · obtain ⟨since, rfl⟩ := hafter
    have hsince := (List.prefix_append_right_inj before).mp (htaken.trans hbuilt)
    cases since with
    | nil => simp
    | cons k since =>
      obtain ⟨rfl, hprefix⟩ := List.cons_prefix_cons.mp hsince
      exact absurd htakes (not_takes (hpast since hprefix))

/-- Once its failure is handled, an entry is not pending unless it is added
again, written over, or put back late. -/
theorem notPending_of_handled (hfirst : AttemptsFirst c)
    (hhandled : NotPending userOpHash (c.exec Update.apply (before ++ [i])).state.standardPool)
    {after : List ℕ}
    (hadds : AllSteps (Config.step Update.apply)
      (Config.Writes fun s u => ¬AddsAgain userOpHash s u)
      (c.exec Update.apply (before ++ [i])) after)
    (hover : AllSteps (Config.step Update.apply)
      (Config.Writes fun s u => ¬WritesOver userOpHash s u)
      (c.exec Update.apply (before ++ [i])) after)
    (hlate : ¬PutBackLate userOpHash c before i after) :
    AllStates (Config.step Update.apply)
      (fun c => NotPending userOpHash c.state.standardPool)
      (c.exec Update.apply (before ++ [i])) after := by
  have hlater (returned : List ℕ) : (c.exec Update.apply (before ++ [i])).exec Update.apply
      returned = c.exec Update.apply (before ++ i :: returned) := by
    rw [← Config.exec_append]
    simp
  refine (allStates_iff_prefixes _).mpr (past_induction hhandled ?_)
  intro returned j later hafter hpast
  change NotPending userOpHash ((c.exec Update.apply (before ++ [i])).exec Update.apply
    (returned ++ [j])).state.standardPool
  rw [Config.exec_append]
  refine Config.state_step Update.apply (I := fun s => NotPending userOpHash s.standardPool)
    (P := fun _ u => ¬writesPending userOpHash u)
    (fun _ u h hu => (notPending_update_iff h u).mpr hu) (hpast returned List.prefix_rfl) ?_
  intro u hpending hwrites
  rcases writesPending_cases _ hwrites with hadd | hwritesOver | hputBack
  · exact (allSteps_iff_prefixes _).mp hadds returned j later hafter u hpending hadd
  · exact (allSteps_iff_prefixes _).mp hover returned j later hafter u hpending hwritesOver
  · rw [hafter] at hlate
    rw [hlater] at hpending
    refine hlate (putBackLate_of_putBack hfirst ?_ hpending hputBack later)
    intro first hprefix
    rw [← hlater]
    exact hpast first hprefix

end Handled

/-- In every run of attempts one after another, admissions and events,
interleaved at their store accesses: from the handling of a failure on, and
as long as no addUserOp adds the operation again, no hand-out returns the
entry in any state exactly when no addUserOp writes over it and no attempt
that had taken it before puts it back. -/
theorem failed_not_handed_out_iff (config : StakeConfig) (s : State)
    (attempts : List (Services × Bool)) (parties : List Party) (before : List ℕ) (i : ℕ)
    (after : List ℕ)
    (hfailure : HandlesFailure userOpHash
      ((attemptsAmong config s attempts parties).exec Update.apply before) i)
    (hadds : AllSteps (Config.step Update.apply)
      (Config.Writes fun s u => ¬AddsAgain userOpHash s u)
      ((attemptsAmong config s attempts parties).exec Update.apply (before ++ [i])) after) :
    AllStates (Config.step Update.apply) (fun c => NotHandedOut userOpHash c.state)
        ((attemptsAmong config s attempts parties).exec Update.apply (before ++ [i])) after ↔
      AllSteps (Config.step Update.apply) (Config.Writes fun s u => ¬WritesOver userOpHash s u)
          ((attemptsAmong config s attempts parties).exec Update.apply (before ++ [i])) after ∧
        ¬PutBackLate userOpHash (attemptsAmong config s attempts parties) before i after := by
  have hfirst := attemptsFirst_attemptsAmong config s attempts parties
  generalize attemptsAmong config s attempts parties = c at hfirst hfailure hadds ⊢
  have hhandled : NotPending userOpHash
      (c.exec Update.apply (before ++ [i])).state.standardPool := by
    rw [Config.exec_append]
    exact notPending_after_failure hfailure
  simp only [notHandedOut_iff]
  constructor
  · intro hall
    have hsteps := (Config.allStates_iff_writes Update.apply
      (I := fun s => NotPending userOpHash s.standardPool)
      (P := fun _ u => ¬writesPending userOpHash u) (fun _ u h => notPending_update_iff h u)
      hhandled after).mp hall
    refine ⟨?_, not_putBackLate ?_⟩
    · exact hsteps.mono _ fun _ _ h u hu hover => h u hu (writesPending_of_writesOver hover)
    · exact hsteps.mono _ fun _ _ h u hu hback => h u hu (writesPending_of_putBack hback)
  · rintro ⟨hover, hlate⟩
    exact notPending_of_handled hfirst hhandled hadds hover hlate

end Attempts

section Concrete

/-- Two operations of one sender, under nonces of different keys. -/
def twoAdds : List Operation :=
  [plainAdd account hash₁,
    .mempool (.addUserOp richDeposits (plainParam (plainOp account 2 10 none none) hash₂))]

def twoOfOneSender : State :=
  run (Operation.perform plainConfig 5) (State.initial [] []) twoAdds

/-- The second operation is found to have failed on chain. -/
def secondFails : Services where
  bundleSize := 5
  pastEvents := ⟨[.userOperationFailed hash₂], .ok ⟨⟩⟩
  builder := hundredEach
  sendBundle := fun _ _ => .ok ⟨hash₁, [], 0, none⟩

def failingAttempt : Config State Update JsError :=
  attemptsAmong plainConfig twoOfOneSender [(secondFails, false)] []

theorem secondFails_handled :
    HandlesFailure hash₂ (failingAttempt.exec Update.apply [0, 0, 0, 0]) 0 :=
  Or.inl ⟨_, rfl, rfl⟩

/-- Up to the building of the bundle the failed operation stays out. -/
theorem secondFails_out_while_building :
    AllStates (Config.step Update.apply) (fun c => NotHandedOut hash₂ c.state)
      (failingAttempt.exec Update.apply ([0, 0, 0, 0] ++ [0])) [0, 0, 0, 0, 0] :=
  (failed_not_handed_out_iff plainConfig twoOfOneSender [(secondFails, false)] [] [0, 0, 0, 0] 0
    [0, 0, 0, 0, 0] secondFails_handled (by decide)).mpr ⟨by decide, not_putBackLate (by decide)⟩

/-- The second operation of one sender is taken, found to have failed, left
out of the bundle for its sender, and put back. -/
theorem failed_put_back :
    ¬∀ (config : StakeConfig) (bundleSize : ℕ) (whiteList blackList : List String)
      (ops : List Operation) (attempts : List (Services × Bool)) (parties : List Party)
      (before : List ℕ) (i : ℕ) (after : List ℕ) (userOpHash : String),
      let c := attemptsAmong config
        (run (Operation.perform config bundleSize) (State.initial whiteList blackList) ops)
        attempts parties
      HandlesFailure userOpHash (c.exec Update.apply before) i →
      AllSteps (Config.step Update.apply)
        (Config.Writes fun s u => ¬AddsAgain userOpHash s u)
        (c.exec Update.apply (before ++ [i])) after →
      AllStates (Config.step Update.apply) (fun c => NotHandedOut userOpHash c.state)
        (c.exec Update.apply (before ++ [i])) after := by
  intro h
  have hall := h plainConfig 5 [] [] twoAdds [(secondFails, false)] [] [0, 0, 0, 0] 0
    [0, 0, 0, 0, 0, 0, 0] hash₂ secondFails_handled (by decide)
  exact hall.last.2 (by decide)

end Concrete

end Bundler.FailedOperations
