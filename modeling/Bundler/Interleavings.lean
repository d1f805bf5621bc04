import Bundler.AsyncPrograms
import Bundler.Runs

/-!
Any number of asynchronous programs over one store, interleaved access by
access. A schedule names, step by step, the thread whose next access is
performed; a thread that has finished, or does not exist, leaves everything
as it is. The state changes only by the update the scheduled thread was
waiting for, so invariants of the store reduce to single updates.
-/
namespace Bundler.Interleavings

open AsyncPrograms Runs

universe u

structure Config (S U ε : Type u) where
  state : S
  threads : List (Program S U ε PUnit.{u + 1})

namespace Config

variable {S U ε : Type u} (apply : U → S → S × Except ε PUnit.{u + 1})

/-- The update thread i is about to perform, if its next access is one. -/
def pending (c : Config S U ε) (i : ℕ) : Option U :=
  match c.threads[i]? with
  | some (.updateState u _) => some u
  | _ => none

def step (c : Config S U ε) (i : ℕ) : Config S U ε :=
  match c.threads[i]? with
  | some (.getState next) => ⟨c.state, c.threads.set i (next c.state)⟩
  | some (.updateState u next) =>
      ⟨(apply u c.state).1, c.threads.set i (next (apply u c.state).2)⟩
  | _ => c

def exec (c : Config S U ε) (schedule : List ℕ) : Config S U ε := run (step apply) c schedule

/-- The update performed by thread i, if any, meets P in the state before it. -/
def Writes (P : S → U → Prop) (c : Config S U ε) (i : ℕ) : Prop :=
  ∀ u, c.pending i = some u → P c.state u

def isDone : Program S U ε PUnit.{u + 1} → Bool
  | .done _ => true
  | _ => false

/-- Every thread has come to its end. -/
def Finished (c : Config S U ε) : Prop := ∀ p ∈ c.threads, isDone p

instance (P : S → U → Prop) [∀ s u, Decidable (P s u)] (c : Config S U ε) (i : ℕ) :
    Decidable (c.Writes P i) :=
  match h : c.pending i with
  | none => isTrue fun u hu => by cases h.symm.trans hu
  | some u => decidable_of_iff (P c.state u)
      ⟨fun hP v hv => Option.some.inj (h.symm.trans hv) ▸ hP, fun hP => hP u h⟩

instance (c : Config S U ε) : Decidable c.Finished :=
  inferInstanceAs (Decidable (∀ _ ∈ _, _))

theorem step_state_of_pending {c : Config S U ε} {i : ℕ} {u : U} (h : c.pending i = some u) :
    (c.step apply i).state = (apply u c.state).1 := by
  unfold pending at h
  unfold step
  split at h
  · rename_i v next hthread
    cases h
    rw [hthread]
  · simp at h

theorem step_state_of_not_pending {c : Config S U ε} {i : ℕ} (h : c.pending i = none) :
    (c.step apply i).state = c.state := by
  unfold pending at h
  unfold step
  split
  · rfl
  · rename_i u next hthread
    simp [hthread] at h
  · rfl

/-- All that one step can do: nothing, a read, or an update. -/
theorem step_cases (c : Config S U ε) (i : ℕ) :
    c.step apply i = c ∨
      (∃ next, c.threads[i]? = some (.getState next) ∧
        c.step apply i = ⟨c.state, c.threads.set i (next c.state)⟩) ∨
      ∃ u next, c.threads[i]? = some (.updateState u next) ∧
        c.step apply i = ⟨(apply u c.state).1, c.threads.set i (next (apply u c.state).2)⟩ := by
  unfold step
  split
  · rename_i next hthread
    exact Or.inr (Or.inl ⟨next, hthread, rfl⟩)
  · rename_i u next hthread
    exact Or.inr (Or.inr ⟨u, next, hthread, rfl⟩)
  · exact Or.inl rfl

theorem length_step (c : Config S U ε) (i : ℕ) :
    (c.step apply i).threads.length = c.threads.length := by
  rcases step_cases apply c i with h | ⟨next, _, h⟩ | ⟨u, next, _, h⟩
  · rw [h]
  · rw [h]
    exact List.length_set
  · rw [h]
    exact List.length_set

theorem exec_append (c : Config S U ε) (schedule schedule' : List ℕ) :
    c.exec apply (schedule ++ schedule') = (c.exec apply schedule).exec apply schedule' :=
  run_append (step apply) c schedule schedule'

section Threads

/-- Thread j, if there is one, is where P holds of what is left of it. -/
def At (c : Config S U ε) (j : ℕ) (P : Program S U ε PUnit.{u + 1} → Prop) : Prop :=
  ∀ p, c.threads[j]? = some p → P p

variable {c : Config S U ε} {i j : ℕ} {P Q : Program S U ε PUnit.{u + 1} → Prop}

theorem step_threads_of_ne (hij : i ≠ j) :
    (c.step apply i).threads[j]? = c.threads[j]? := by
  rcases step_cases apply c i with h | ⟨next, _, h⟩ | ⟨u, next, _, h⟩
  · rw [h]
  · rw [h]
    exact List.getElem?_set_ne hij
  · rw [h]
    exact List.getElem?_set_ne hij

/-- A thread that is not scheduled stays where it is. -/
theorem exec_threads_of_not_mem {schedule : List ℕ} (hj : j ∉ schedule) :
    (c.exec apply schedule).threads[j]? = c.threads[j]? := by
  induction schedule generalizing c with
  | nil => rfl
  | cons i schedule ih =>
    rw [List.mem_cons, not_or] at hj
    exact (ih hj.2).trans (step_threads_of_ne apply (Ne.symm hj.1))

theorem pending_step_of_ne (hij : i ≠ j) : (c.step apply i).pending j = c.pending j := by
  unfold pending
  rw [step_threads_of_ne apply hij]

theorem pending_eq_some_iff {u : U} :
    c.pending j = some u ↔ ∃ next, c.threads[j]? = some (.updateState u next) := by
  unfold pending
  constructor
  · intro h
    split at h
    · rename_i v next hthread
      cases h
      exact ⟨next, hthread⟩
    · cases h
  · rintro ⟨next, hthread⟩
    rw [hthread]

theorem step_threads_read {next : S → Program S U ε PUnit.{u + 1}}
    (h : c.threads[i]? = some (.getState next)) :
    (c.step apply i).threads[i]? = some (next c.state) := by
  have hlt : i < c.threads.length := (List.getElem?_eq_some_iff.mp h).1
  unfold step
  rw [h]
  exact List.getElem?_set_self hlt

theorem step_threads_update {u : U} {next : Except ε PUnit.{u + 1} → Program S U ε PUnit.{u + 1}}
    (h : c.threads[i]? = some (.updateState u next)) :
    (c.step apply i).threads[i]? = some (next (apply u c.state).2) := by
  have hlt : i < c.threads.length := (List.getElem?_eq_some_iff.mp h).1
  unfold step
  rw [h]
  exact List.getElem?_set_self hlt

theorem step_threads_done {r : Except ε PUnit.{u + 1}} (h : c.threads[j]? = some (.done r))
    (i : ℕ) : (c.step apply i).threads[j]? = some (.done r) := by
  by_cases hij : i = j
  · subst hij
    unfold step
    rw [h]
    exact h
  · rw [step_threads_of_ne apply hij]
    exact h

/-- A thread that has come to its end stays there. -/
theorem exec_threads_done {r : Except ε PUnit.{u + 1}} (h : c.threads[j]? = some (.done r))
    (schedule : List ℕ) : (c.exec apply schedule).threads[j]? = some (.done r) :=
  invariant_run (step apply) (I := fun c => c.threads[j]? = some (.done r))
    (fun _ i hc => step_threads_done apply hc i) h schedule

/-- Where a thread stands changes by its own steps only. -/
theorem At.step (h : c.At j P) (i : ℕ) (hstay : ∀ p, P p → Q p)
    (hread : i = j → ∀ next, P (.getState next) → Q (next c.state))
    (hupdate : i = j → ∀ u next, c.pending j = some u → P (.updateState u next) →
      Q (next (apply u c.state).2)) : (c.step apply i).At j Q := by
  intro p hp
  by_cases hij : i = j
  · subst hij
    rcases step_cases apply c i with hs | ⟨next, hthread, _⟩ | ⟨u, next, hthread, _⟩
    · rw [hs] at hp
      exact hstay p (h p hp)
    · rw [step_threads_read apply hthread] at hp
      cases hp
      exact hread rfl next (h _ hthread)
    · rw [step_threads_update apply hthread] at hp
      cases hp
      exact hupdate rfl u next (pending_eq_some_iff.mpr ⟨next, hthread⟩) (h _ hthread)
  · rw [step_threads_of_ne apply hij] at hp
    exact hstay p (h p hp)

/-- The same rule, for what depends on the thread's place itself. -/
theorem At.step_thread (h : c.At j P) (i : ℕ) (hstay : ∀ p, P p → Q p)
    (hread : i = j → ∀ next, c.threads[j]? = some (.getState next) → P (.getState next) →
      Q (next c.state))
    (hupdate : i = j → ∀ u next, c.threads[j]? = some (.updateState u next) →
      P (.updateState u next) → Q (next (apply u c.state).2)) : (c.step apply i).At j Q := by
  have hthread : c.At j fun p => c.threads[j]? = some p ∧ P p := fun p hp => ⟨hp, h p hp⟩
  refine hthread.step apply i (fun p hp => hstay p hp.2) ?_ ?_
  · exact fun hij next hp => hread hij next hp.1 hp.2
  · exact fun hij u next _ hp => hupdate hij u next hp.1 hp.2

variable {rely : S → Prop} {guarantee : U → Prop} {R : Except ε PUnit.{u + 1} → Prop}

theorem At.step_guarantees (h : c.At j fun p => p.Guarantees rely guarantee R)
    (hrely : rely c.state) (i : ℕ) :
    (c.step apply i).At j fun p => p.Guarantees rely guarantee R :=
  h.step apply i (fun _ hp => hp) (fun _ _ hnext => hnext c.state hrely)
    fun _ _ _ _ hnext => hnext.2 _

/-- What a thread guarantees it keeps to along a run whose states all
satisfy its rely. -/
theorem At.exec_guarantees {schedule : List ℕ}
    (h : c.At j fun p => p.Guarantees rely guarantee R)
    (hrely : AllStates (Config.step apply) (fun c => rely c.state) c schedule) :
    (c.exec apply schedule).At j fun p => p.Guarantees rely guarantee R := by
  induction schedule generalizing c with
  | nil => exact h
  | cons i schedule ih => exact ih (h.step_guarantees apply hrely.1 i) hrely.2

theorem At.of_pending {u : U} (h : c.At j fun p => p.Guarantees rely guarantee R)
    (hpending : c.pending j = some u) : guarantee u := by
  obtain ⟨next, hthread⟩ := pending_eq_some_iff.mp hpending
  exact (h _ hthread).1

/-- What a thread is bound to bring about before it ends normally has been
brought about after a step, or the thread still is. -/
theorem issues_step {I : S → Prop} {kind : U → Prop} (hkeep : ∀ s u, I s → I (apply u s).1)
    (hbring : ∀ s u, kind u → I (apply u s).1)
    (h : I c.state ∨ c.At j fun p => p.Issues kind) (i : ℕ) :
    I (c.step apply i).state ∨ (c.step apply i).At j fun p => p.Issues kind := by
  by_cases hI : I (c.step apply i).state
  · exact Or.inl hI
  refine Or.inr (At.step apply (h.resolve_left ?_) i (fun _ hp => hp) ?_ ?_)
  · intro hold
    refine hI ?_
    rcases step_cases apply c i with hs | ⟨next, _, hs⟩ | ⟨u, next, _, hs⟩
    · rwa [hs]
    · rwa [hs]
    · rw [hs]
      exact hkeep c.state u hold
  · intro _ next hnext
    exact hnext c.state
  · rintro rfl u next hpending hnext
    refine hnext.resolve_left ?_ _
    intro hkind
    rw [step_state_of_pending apply hpending] at hI
    exact hI (hbring c.state u hkind)

/-- It holds once the thread has ended normally, when no update undoes it. -/
theorem done_of_issues {I : S → Prop} {kind : U → Prop} {schedule : List ℕ}
    (hkeep : ∀ s u, I s → I (apply u s).1) (hbring : ∀ s u, kind u → I (apply u s).1)
    (hissues : c.At j fun p => p.Issues kind)
    (hdone : (c.exec apply schedule).threads[j]? = some (.done (.ok ⟨⟩))) :
    I (c.exec apply schedule).state := by
  have hend := invariant_run (step apply) (I := fun c => I c.state ∨ c.At j fun p => p.Issues kind)
    (fun _ i h => issues_step apply hkeep hbring h i) (Or.inr hissues) schedule
  exact hend.resolve_right fun hleft => hleft _ hdone ⟨⟩ rfl

end Threads

/-- A condition on the steps of certain threads is one on each of them. -/
theorem allSteps_threads_iff {P : Config S U ε → ℕ → Prop} {T : ℕ → Prop} (c : Config S U ε)
    (schedule : List ℕ) :
    (∀ j, T j → AllSteps (step apply) (fun c i => i = j → P c i) c schedule) ↔
      AllSteps (step apply) (fun c i => T i → P c i) c schedule := by
  induction schedule generalizing c with
  | nil => simp [AllSteps]
  | cons i schedule ih =>
    simp only [AllSteps, ← ih]
    constructor
    · intro h
      exact ⟨fun hi => (h i hi).1 rfl, fun j hj => (h j hj).2⟩
    · rintro ⟨hhead, hrest⟩ j hj
      refine ⟨?_, hrest j hj⟩
      rintro rfl
      exact hhead hj

/-- A store invariant is kept by a step whose update, if any, keeps it. -/
theorem state_step {I : S → Prop} {P : S → U → Prop}
    (h : ∀ s u, I s → P s u → I (apply u s).1) {c : Config S U ε} {i : ℕ} (hc : I c.state)
    (hwrites : c.Writes P i) : I (c.step apply i).state := by
  cases hp : c.pending i with
  | none =>
    rw [step_state_of_not_pending apply hp]
    exact hc
  | some u =>
    rw [step_state_of_pending apply hp]
    exact h c.state u hc (hwrites u hp)

/-- An update condition that is exact for a store invariant is exact for the
invariant over whole interleaved runs. -/
theorem allStates_iff_writes {I : S → Prop} {P : S → U → Prop}
    (h : ∀ s u, I s → (I (apply u s).1 ↔ P s u)) {c : Config S U ε} (hc : I c.state)
    (schedule : List ℕ) :
    AllStates (step apply) (fun c => I c.state) c schedule ↔
      AllSteps (step apply) (Writes P) c schedule := by
  apply allStates_iff_allSteps (step apply) _ hc
  intro c i hI
  cases hp : c.pending i with
  | none =>
    rw [step_state_of_not_pending apply hp]
    simp [Writes, hp, hI]
  | some u =>
    rw [step_state_of_pending apply hp, h c.state u hI]
    simp [Writes, hp]

end Config
end Bundler.Interleavings
