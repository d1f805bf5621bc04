import Bundler.SlotUniqueness

/-!
Removed operations stay removed. A status update writes back the entry it
has read, whatever has become of the pool since, so an entry removed between
its two accesses comes back. As long as every such write finds an entry
under its hash, a hash that was removed is absent until an operation is
added under it. The write does find one when nothing has dropped the hash
since the entry was read.
-/
namespace Bundler.RemovedOperations

open KeyedRecords AsyncPrograms Interleavings LookUps DataModel StateService MempoolHelper
  MempoolManager Operations Runs SlotUniqueness

/-- The update leaves nothing under the hash, as a removal of its entry or of all. -/
def removes (userOpHash : String) : Update → Bool
  | .mempool (.removeUserOp entry) => entry.userOpHash = userOpHash
  | .mempool .clearState => true
  | _ => false

/-- The update is that of an addUserOp under the hash. -/
def insertsUnder (userOpHash : String) : Update → Bool
  | .mempool (.doUpdateMempoolState entry _) => entry.userOpHash = userOpHash
  | _ => false

/-- A status that is written back finds an entry under its hash. -/
def writesBackPooled (s : State) : Update → Bool
  | .mempool (.updateEntryStatus entry _) => (s.standardPool.get entry.userOpHash).isSome
  | _ => true

/-- Once the entry under a hash has been removed, the hash is absent until an
addUserOp inserts it. -/
def StayRemoved (c : Config State Update JsError) (schedule : List ℕ) : Prop :=
  ∀ before i between after userOpHash, schedule = before ++ i :: (between ++ after) →
    (∃ u, (c.exec Update.apply before).pending i = some u ∧ removes userOpHash u) →
    AllSteps (Config.step Update.apply) (Config.Writes fun _ u => ¬insertsUnder userOpHash u)
      (c.exec Update.apply (before ++ [i])) between →
    ((c.exec Update.apply (before ++ [i])).exec Update.apply between).state.standardPool.get
      userOpHash = none

section Updates

variable {s : State} {userOpHash : String}

theorem absent_of_removes {u : Update} (h : removes userOpHash u) :
    (u.apply s).1.standardPool.get userOpHash = none := by
  unfold removes at h
  split at h
  · rename_i entry
    rw [← of_decide_eq_true h]
    exact s.standardPool.get_delete_self entry.userOpHash
  · rfl
  · cases h

theorem absent_markBundling (h : s.standardPool.get userOpHash = none)
    (userOpHashes : List String) :
    (markBundling s.standardPool userOpHashes).1.get userOpHash = none := by
  have hkeys : (markBundling s.standardPool userOpHashes).1.values.map MempoolEntry.userOpHash =
      s.standardPool.values.map MempoolEntry.userOpHash :=
    map_markBundling (fun _ _ => rfl) _ _
  rw [KeyedRecord.get_eq_none_iff] at h ⊢
  intro entry hentry hhash
  have hmem := List.mem_map_of_mem (f := MempoolEntry.userOpHash) hentry
  rw [hkeys] at hmem
  obtain ⟨stored, hstored, hsame⟩ := List.mem_map.mp hmem
  exact h stored hstored (hsame.trans hhash)

/-- An absent hash stays absent through every other update. -/
theorem absent_update (h : s.standardPool.get userOpHash = none) {u : Update}
    (hinserts : ¬insertsUnder userOpHash u) (hwrites : writesBackPooled s u) :
    (u.apply s).1.standardPool.get userOpHash = none := by
  cases u with
  | reputation update =>
    change (update.apply s).standardPool.get userOpHash = none
    rw [reputation_standardPool]
    exact h
  | mempool update =>
    cases update with
    | doUpdateMempoolState entry old =>
      have hne : userOpHash ≠ entry.userOpHash := fun hsame => hinserts (decide_eq_true hsame.symm)
      cases old with
      | none => exact (s.standardPool.get_insert_ne hne).trans h
      | some old =>
        refine ((s.standardPool.delete old.userOpHash).get_insert_ne hne).trans ?_
        rw [KeyedRecord.get_delete]
        split
        · rfl
        · exact h
    | updateEntryStatus entry status =>
      have hne : userOpHash ≠ entry.userOpHash := by
        rintro rfl
        change (s.standardPool.get entry.userOpHash).isSome = true at hwrites
        rw [h] at hwrites
        cases hwrites
      exact (s.standardPool.get_insert_ne (v := { entry with status := status }) hne).trans h
    | removeUserOp entry =>
      change (s.standardPool.delete entry.userOpHash).get userOpHash = none
      rw [KeyedRecord.get_delete]
      split
      · rfl
      · exact h
    | removeUserOpsForBannedAddr opsToRemove =>
      rw [KeyedRecord.get_eq_none_iff] at h ⊢
      intro entry hentry
      exact h entry ((s.standardPool.mem_foldl_delete _ _).mp hentry).1
    | markBundling userOpHashes => exact absent_markBundling h userOpHashes
    | clearState => rfl
    | addBundleTxnConfirmation transactionHash signerIndex => exact h

end Updates

/-- In a run of any number of concurrent operations in which every status is
written back to an entry still pooled, what was removed stays removed. -/
theorem removed_stay_removed (config : ReputationManager.StakeConfig) (bundleSize : ℕ) (s : State)
    (ops : List Operation) (schedule : List ℕ)
    (hwrites : AllSteps (Config.step Update.apply) (Config.Writes fun s u => writesBackPooled s u)
      (concurrently config bundleSize s ops) schedule) :
    StayRemoved (concurrently config bundleSize s ops) schedule := by
  intro before i between after userOpHash hschedule hremoves hinserts
  subst hschedule
  obtain ⟨u, hpending, hremoves⟩ := hremoves
  have hbetween : AllSteps (Config.step Update.apply)
      (Config.Writes fun s u => writesBackPooled s u)
      ((concurrently config bundleSize s ops).exec Update.apply (before ++ [i])) between := by
    have hrest := ((allSteps_append _ _ _ _ _).mp hwrites).2.2
    rw [Config.exec_append]
    exact ((allSteps_append _ _ _ _ _).mp hrest).1
  have habsent : ((concurrently config bundleSize s ops).exec Update.apply
      (before ++ [i])).state.standardPool.get userOpHash = none := by
    rw [Config.exec_append]
    change (Config.step Update.apply _ i).state.standardPool.get userOpHash = none
    rw [Config.step_state_of_pending Update.apply hpending]
    exact absent_of_removes hremoves
  have hall := allStates_of_allSteps (Config.step Update.apply)
    (I := fun c => c.state.standardPool.get userOpHash = none)
    (fun _ _ hI hP => Config.state_step Update.apply
      (P := fun s u => ¬insertsUnder userOpHash u ∧ writesBackPooled s u)
      (fun _ _ hI hP => absent_update hI hP.1 hP.2) hI fun u hu => ⟨hP.1 u hu, hP.2 u hu⟩)
    habsent (AllSteps.and _ hinserts hbetween)
  exact hall.last

section WriteBacks

/-- The update takes the entry under the hash out of the pool. -/
def drops (userOpHash : String) : Update → Prop
  | .mempool (.doUpdateMempoolState _ old) =>
      old.map MempoolEntry.userOpHash = some userOpHash
  | .mempool (.removeUserOp entry) => entry.userOpHash = userOpHash
  | .mempool (.removeUserOpsForBannedAddr opsToRemove) =>
      userOpHash ∈ opsToRemove.map MempoolEntry.userOpHash
  | .mempool .clearState => True
  | _ => False

/-- Nothing drops the hash of an entry between the moment it is looked up and
the moment its new status is written. -/
def Undisturbed (config : ReputationManager.StakeConfig) (c : Config State Update JsError)
    (schedule : List ℕ) : Prop :=
  ∀ first i between j last entry status,
    first ++ i :: (between ++ j :: (last ++ [i])) <+: schedule →
    LookedUp Update.apply (IsLookUp config) c i first →
    (c.exec Update.apply (first ++ i :: (between ++ j :: last))).pending i =
      some (.mempool (.updateEntryStatus entry status)) →
    ∀ u, (c.exec Update.apply (first ++ i :: between)).pending j = some u →
      ¬drops entry.userOpHash u

variable {config : ReputationManager.StakeConfig} {c : Config State Update JsError} {s : State}
  {userOpHash : String}

theorem pooled_update (h : (s.standardPool.get userOpHash).isSome) {u : Update}
    (hdrops : ¬drops userOpHash u) : ((u.apply s).1.standardPool.get userOpHash).isSome := by
  have hinsert (standardPool : StandardPool) (entry : MempoolEntry)
      (hother : (standardPool.get userOpHash).isSome) :
      ((standardPool.insert entry).get userOpHash).isSome := by
    rw [KeyedRecord.get_insert]
    split
    · rfl
    · exact hother
  have hdelete (other : String) (hne : userOpHash ≠ other) :
      ((s.standardPool.delete other).get userOpHash).isSome := by
    rw [KeyedRecord.get_delete, if_neg hne]
    exact h
  cases u with
  | reputation update =>
    change ((update.apply s).standardPool.get userOpHash).isSome
    rw [reputation_standardPool]
    exact h
  | mempool update =>
    cases update with
    | doUpdateMempoolState entry old =>
      cases old with
      | none => exact hinsert _ _ h
      | some old => exact hinsert _ _ (hdelete _ fun hsame => hdrops (congrArg some hsame.symm))
    | updateEntryStatus entry status => exact hinsert _ _ h
    | removeUserOp entry => exact hdelete _ fun hsame => hdrops hsame.symm
    | removeUserOpsForBannedAddr opsToRemove =>
      rw [KeyedRecord.isSome_get_iff] at h ⊢
      obtain ⟨entry, hentry, rfl⟩ := List.mem_map.mp h
      refine List.mem_map_of_mem ((s.standardPool.mem_foldl_delete _ _).mpr ⟨hentry, ?_⟩)
      intro removed hremoved hsame
      exact hdrops (List.mem_map.mpr ⟨removed, hremoved, hsame.symm⟩)
    | markBundling userOpHashes =>
      have hkeys : (markBundling s.standardPool userOpHashes).1.values.map
          MempoolEntry.userOpHash = s.standardPool.values.map MempoolEntry.userOpHash :=
        map_markBundling (fun _ _ => rfl) _ _
      rw [KeyedRecord.isSome_get_iff] at h ⊢
      change userOpHash ∈ (markBundling s.standardPool userOpHashes).1.values.map _
      rw [hkeys]
      exact h
    | clearState => exact absurd trivial hdrops
    | addBundleTxnConfirmation transactionHash signerIndex => exact h

/-- A hash stays pooled along a run that does not drop it. -/
theorem pooled_exec {schedule : List ℕ} (h : (c.state.standardPool.get userOpHash).isSome)
    (hdrops : ∀ between j last u, schedule = between ++ j :: last →
      (c.exec Update.apply between).pending j = some u → ¬drops userOpHash u) :
    ((c.exec Update.apply schedule).state.standardPool.get userOpHash).isSome := by
  induction schedule generalizing c with
  | nil => exact h
  | cons i schedule ih =>
    refine ih ?_ ?_
    · refine Config.state_step Update.apply
        (I := fun s => ((s.standardPool.get userOpHash).isSome : Prop))
        (P := fun _ u => ¬drops userOpHash u) (fun _ _ hI hP => pooled_update hI hP) h ?_
      intro u hpending
      exact hdrops [] i schedule u rfl hpending
    · intro between j last u hsplit hpending
      exact hdrops (i :: between) j last u (congrArg (i :: ·) hsplit) hpending

/-- When nothing drops the hash between a look-up and the write that rests on
it, every status is written back to an entry still pooled. -/
theorem writesBackPooled_of_undisturbed (bundleSize : ℕ) (ops : List Operation)
    (schedule : List ℕ)
    (hundisturbed : Undisturbed config (concurrently config bundleSize s ops) schedule) :
    AllSteps (Config.step Update.apply) (Config.Writes fun s u => writesBackPooled s u)
      (concurrently config bundleSize s ops) schedule := by
  generalize hc : concurrently config bundleSize s ops = c at hundisturbed ⊢
  refine (allSteps_iff_prefixes _).mpr ?_
  intro before i after hschedule u hpending
  have hthread : c.At i (LooksUpFirst (IsLookUp config) (fun u => written u = none)
      WritesFound) := by
    intro p hp
    rw [← hc] at hp
    obtain ⟨op, _, rfl⟩ := List.mem_map.mp (List.mem_of_getElem? hp)
    exact program_lookedUp config bundleSize op
  unfold writesBackPooled
  split
  · rename_i entry status
    obtain ⟨first, rest, hbefore, hlookedUp, hfound⟩ :=
      lookedUp_of_pending Update.apply hthread hpending (by simp [written])
    subst hbefore
    have hsplit : first ++ i :: rest = (first ++ [i]) ++ rest := by simp
    change ((c.exec Update.apply (first ++ i :: rest)).state.standardPool.get
      entry.userOpHash).isSome
    rw [hsplit, Config.exec_append]
    refine pooled_exec ?_ ?_
    · rw [state_of_lookedUp hlookedUp, hfound]
      rfl
    · intro between j last v hrest hpending'
      subst hrest
      refine hundisturbed first i between j last entry status ?_ hlookedUp hpending v ?_
      · exact ⟨after, by simp [hschedule]⟩
      · have hsplit' : first ++ i :: between = (first ++ [i]) ++ between := by simp
        rw [hsplit', Config.exec_append]
        exact hpending'
  · rfl

end WriteBacks

section Concrete

/-- A status update and a removal of one pooled entry. -/
def updateAndRemove : List Operation :=
  [.mempool (.updateEntryStatus hash₁ .failed), .mempool (.removeUserOp (.hash hash₁))]

def onePooled : State :=
  run (Operation.perform plainConfig 5) (State.initial [] []) [plainAdd account hash₁]

theorem removed_in_turn :
    StayRemoved (concurrently plainConfig 5 onePooled updateAndRemove) [0, 0, 1, 1] :=
  removed_stay_removed plainConfig 5 onePooled updateAndRemove _ (by decide)

/-- The entry is removed while its new status is on the way. -/
theorem removed_comes_back :
    ¬∀ (config : ReputationManager.StakeConfig) (bundleSize : ℕ) (s : State)
      (ops : List Operation) (schedule : List ℕ),
      StayRemoved (concurrently config bundleSize s ops) schedule := by
  intro h
  have habsent := h plainConfig 5 onePooled updateAndRemove [0, 1, 1, 0] [0, 1] 1 [0] [] hash₁ rfl
    ⟨_, rfl, by decide⟩ (by decide)
  exact absurd habsent (by decide)

end Concrete

end Bundler.RemovedOperations
