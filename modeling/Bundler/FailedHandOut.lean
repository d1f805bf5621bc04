import Bundler.SlotUniqueness

/-!
What a hand-out that fails leaves behind. The entries are selected in one
access and marked one by one in the next, by assignments to the pool itself,
so when a selected entry has meanwhile gone the marking throws at it and the
entries before it stay marked. A failed hand-out changes nothing exactly
when no entry before the first missing one had anything to be changed.
-/
namespace Bundler.FailedHandOut

open KeyedRecords AsyncPrograms Interleavings DataModel StateService MempoolManager MempoolHelper
  Operations Runs SlotUniqueness

def statusOf (standardPool : StandardPool) (userOpHash : String) : Option EntryStatus :=
  (standardPool.get userOpHash).map MempoolEntry.status

def isHandOut : Operation → Bool
  | .mempool .getNextPending => true
  | .mempool .getAllPending => true
  | _ => false

/-- The call in thread j is getNextPending or getAllPending. -/
def handsOutAt (ops : List Operation) (j : ℕ) : Bool := ops[j]?.any isHandOut

/-- The call in thread j has rejected. -/
def Rejected (c : Config State Update JsError) (j : ℕ) : Prop :=
  ∃ e, c.threads[j]? = some (.done (.error e))

/-- The step of thread i leaves every status as it is. -/
def StatusesKept (c : Config State Update JsError) (i : ℕ) : Prop :=
  ∀ userOpHash, statusOf (c.step Update.apply i).state.standardPool userOpHash =
    statusOf c.state.standardPool userOpHash

/-- If the call in thread j rejects, none of its steps has changed a status. -/
def FailedUnchanged (c : Config State Update JsError) (schedule : List ℕ) (j : ℕ) : Prop :=
  Rejected (c.exec Update.apply schedule) j →
    AllSteps (Config.step Update.apply) (fun c i => i = j → StatusesKept c i) c schedule

/-- The selected entries are all still pooled, or those before the first
missing one are marked already. -/
def MarksWhole (standardPool : StandardPool) (userOpHashes : List String) : Prop :=
  (∀ userOpHash ∈ userOpHashes, (standardPool.get userOpHash).isSome) ∨
    ∀ userOpHash ∈ userOpHashes.takeWhile (fun other => (standardPool.get other).isSome),
      statusOf standardPool userOpHash = some .bundling

def KeepsStatuses (s : State) : Update → Prop
  | .mempool (.markBundling userOpHashes) => MarksWhole s.standardPool userOpHashes
  | _ => True

section Marking

variable {standardPool : StandardPool} {userOpHashes : List String}

theorem statusOf_markBundling (standardPool : StandardPool) (userOpHashes : List String)
    (userOpHash : String) :
    statusOf (markBundling standardPool userOpHashes).1 userOpHash =
      if userOpHash ∈ userOpHashes.takeWhile (fun other => (standardPool.get other).isSome) then
        some .bundling
      else statusOf standardPool userOpHash := by
  unfold statusOf
  rw [markBundling_get_takeWhile]
  split
  · rename_i hmem
    have hpooled := List.mem_takeWhile_imp hmem
    obtain ⟨entry, hget⟩ := Option.isSome_iff_exists.mp hpooled
    rw [hget]
    rfl
  · rfl

theorem statuses_kept_iff :
    (∀ userOpHash, statusOf (markBundling standardPool userOpHashes).1 userOpHash =
        statusOf standardPool userOpHash) ↔
      ∀ userOpHash ∈ userOpHashes.takeWhile (fun other => (standardPool.get other).isSome),
        statusOf standardPool userOpHash = some .bundling := by
  apply forall_congr'
  intro userOpHash
  rw [statusOf_markBundling]
  split
  · rename_i hmem
    simp [hmem, eq_comm]
  · rename_i hmem
    simp [hmem]

/-- A marking that throws leaves the statuses exactly under its condition. -/
theorem marksWhole_iff :
    ((∃ e, (markBundling standardPool userOpHashes).2 = .error e) →
        ∀ userOpHash, statusOf (markBundling standardPool userOpHashes).1 userOpHash =
          statusOf standardPool userOpHash) ↔
      MarksWhole standardPool userOpHashes := by
  have hthrows : (∃ e, (markBundling standardPool userOpHashes).2 = .error e) ↔
      ¬∀ userOpHash ∈ userOpHashes, (standardPool.get userOpHash).isSome := by
    rw [← markBundling_ok_iff]
    cases (markBundling standardPool userOpHashes).2 with
    | ok _ => simp
    | error e => simp
  rw [hthrows, statuses_kept_iff, MarksWhole, Decidable.imp_iff_not_or, Decidable.not_not]

end Marking

section Run

/-- What is left of a hand-out: it ends with the outcome of its one update,
which marks entries. -/
def EndsWithMarking : Program State Update JsError PUnit → Prop
  | .done _ => True
  | .getState next => ∀ s, EndsWithMarking (next s)
  | .updateState u next =>
      (∃ userOpHashes, u = .mempool (.markBundling userOpHashes)) ∧ ∀ r, next r = .done r

theorem handOut_endsWithMarking (select : StandardPool → List MempoolEntry) :
    EndsWithMarking (handOut select).detach := by
  intro s
  refine ⟨⟨_, rfl⟩, ?_⟩
  intro r
  cases r with
  | ok _ => rfl
  | error e => rfl

variable {c : Config State Update JsError} {j : ℕ}

theorem endsWithMarking_step (h : c.At j EndsWithMarking) (i : ℕ) :
    (c.step Update.apply i).At j EndsWithMarking := by
  refine Config.At.step Update.apply h i (fun _ hp => hp) ?_ ?_
  · intro _ next hnext
    exact hnext c.state
  · intro _ u next _ hnext
    rw [hnext.2]
    trivial

theorem endsWithMarking_concurrently (config : ReputationManager.StakeConfig) (bundleSize : ℕ)
    (s : State) {ops : List Operation} (hj : handsOutAt ops j) :
    (concurrently config bundleSize s ops).At j EndsWithMarking := by
  intro p hp
  obtain ⟨op, hop, hhandOut⟩ := (Option.any_eq_true _ _).mp hj
  change (ops.map (Operation.program config bundleSize))[j]? = some p at hp
  rw [List.getElem?_map, hop] at hp
  cases hp
  unfold isHandOut at hhandOut
  split at hhandOut
  · exact handOut_endsWithMarking (nextPending bundleSize)
  · exact handOut_endsWithMarking allPending
  · cases hhandOut

theorem statusesKept_of_not_pending (h : c.pending j = none) : StatusesKept c j := by
  intro userOpHash
  rw [Config.step_state_of_not_pending Update.apply h]

/-- One step of the hand-out, seen from the end of the run. -/
theorem kept_step_iff (h : c.At j EndsWithMarking) (schedule : List ℕ) :
    (Rejected ((c.step Update.apply j).exec Update.apply schedule) j → StatusesKept c j) ↔
      c.Writes KeepsStatuses j := by
  cases hpending : c.pending j with
  | none =>
    refine iff_of_true (fun _ => statusesKept_of_not_pending hpending) ?_
    intro u hu
    cases hpending.symm.trans hu
  | some u =>
    obtain ⟨next, hthread⟩ := Config.pending_eq_some_iff.mp hpending
    obtain ⟨⟨userOpHashes, rfl⟩, hend⟩ := h _ hthread
    have hmarked : ((c.step Update.apply j).exec Update.apply schedule).threads[j]? =
        some (.done (markBundling c.state.standardPool userOpHashes).2) := by
      apply Config.exec_threads_done
      rw [Config.step_threads_update Update.apply hthread, hend]
      rfl
    have hrejected : Rejected ((c.step Update.apply j).exec Update.apply schedule) j ↔
        ∃ e, (markBundling c.state.standardPool userOpHashes).2 = .error e := by
      unfold Rejected
      rw [hmarked]
      simp
    have hwrites : c.Writes KeepsStatuses j ↔ MarksWhole c.state.standardPool userOpHashes := by
      unfold Config.Writes
      rw [hpending]
      simp [KeepsStatuses]
    unfold StatusesKept
    rw [hrejected, hwrites, Config.step_state_of_pending Update.apply hpending]
    exact marksWhole_iff

theorem failedUnchanged_iff (h : c.At j EndsWithMarking) (schedule : List ℕ) :
    FailedUnchanged c schedule j ↔
      AllSteps (Config.step Update.apply) (fun c i => i = j → c.Writes KeepsStatuses i) c
        schedule := by
  induction schedule generalizing c with
  | nil => exact iff_of_true (fun _ => trivial) trivial
  | cons i schedule ih =>
    have hhead : (Rejected ((c.step Update.apply i).exec Update.apply schedule) j → i = j →
        StatusesKept c i) ↔ (i = j → c.Writes KeepsStatuses i) := by
      by_cases hij : i = j
      · subst hij
        simpa using kept_step_iff h schedule
      · simp [hij]
    rw [AllSteps, ← ih (endsWithMarking_step h i), ← hhead]
    exact imp_and

end Run

/-- In a run of any number of concurrent operations, no hand-out that rejects
has changed a status exactly when every marking of a hand-out finds all its
entries, or only marked ones before the first missing one. -/
theorem failed_unchanged_iff (config : ReputationManager.StakeConfig) (bundleSize : ℕ) (s : State)
    (ops : List Operation) (schedule : List ℕ) :
    (∀ j, handsOutAt ops j → FailedUnchanged (concurrently config bundleSize s ops) schedule j) ↔
      AllSteps (Config.step Update.apply) (fun c i => handsOutAt ops i → c.Writes KeepsStatuses i)
        (concurrently config bundleSize s ops) schedule := by
  rw [← Config.allSteps_threads_iff]
  apply forall₂_congr
  intro j hj
  exact failedUnchanged_iff (endsWithMarking_concurrently config bundleSize s hj) schedule

section Concrete

def handOutAndRemove : List Operation :=
  [.mempool .getNextPending, .mempool (.removeUserOp (.hash hash₂))]

def twoPending : State :=
  run (Operation.perform plainConfig 5) (State.initial [] [])
    [plainAdd account hash₁, plainAdd otherAccount hash₂]

/-- The second of two selected entries is removed before they are marked. -/
theorem first_stays_marked :
    ¬∀ (config : ReputationManager.StakeConfig) (bundleSize : ℕ) (s : State)
      (ops : List Operation) (schedule : List ℕ) (j : ℕ), handsOutAt ops j →
      FailedUnchanged (concurrently config bundleSize s ops) schedule j := by
  intro h
  have hkept := h plainConfig 5 twoPending handOutAndRemove [0, 1, 1, 0] 0 rfl ⟨_, rfl⟩
  exact absurd (hkept.2.2.2.1 rfl hash₁) (by decide)

end Concrete

end Bundler.FailedHandOut
