import Bundler.Interleavings

/-!
Threads that exclude each other. Some threads of a configuration run freely;
any number of others come later, and each of these runs from its first to its
last access under one lock, which they are given in the order in which they
asked for it. So whenever one of them can take a step, the ones before it have
ended and the ones behind it have not begun.
-/
namespace Bundler.TurnTaking

open AsyncPrograms Runs Interleavings

universe u

variable {S U ε : Type u} (apply : U → S → S × Except ε PUnit.{u + 1}) (free : ℕ)
  (c : Config S U ε)

section Threads

/-- One more thread, behind all others. -/
def begin (p : Program S U ε PUnit.{u + 1}) : Config S U ε := ⟨c.state, c.threads ++ [p]⟩

/-- Of the threads that exclude each other, all before this one have ended. -/
def HasTurn (i : ℕ) : Prop :=
  ∀ j < i, free ≤ j → ∀ p ∈ c.threads[j]?, Config.isDone p

instance (i : ℕ) : Decidable (HasTurn free c i) :=
  inferInstanceAs (Decidable (∀ j < i, free ≤ j → ∀ p ∈ c.threads[j]?, _))

/-- A step of a thread that runs freely or holds the lock. -/
def stepInTurn (i : ℕ) : Config S U ε :=
  if i < free ∨ HasTurn free c i then c.step apply i else c

end Threads

section Waiting

variable {apply free c} {fresh : Program S U ε PUnit.{u + 1} → Prop} {i j : ℕ}
  {p : Program S U ε PUnit.{u + 1}}

/-- Threads whose turn it is not yet have not begun. -/
def Waits (free : ℕ) (fresh : Program S U ε PUnit.{u + 1} → Prop) (c : Config S U ε) : Prop :=
  ∀ i, free ≤ i → ¬HasTurn free c i → c.At i fresh

theorem threads_begin_of_lt (hi : i < c.threads.length) :
    (begin c p).threads[i]? = c.threads[i]? :=
  List.getElem?_append_left hi

theorem hasTurn_begin (hi : i ≤ c.threads.length) (h : HasTurn free c i) :
    HasTurn free (begin c p) i := by
  intro j hj hfree q hq
  rw [threads_begin_of_lt (by omega)] at hq
  exact h j hj hfree q hq

theorem at_begin {P : Program S U ε PUnit.{u + 1} → Prop} (h : c.At i P) (hp : P p) :
    (begin c p).At i P := by
  intro q hq
  by_cases hlt : i < c.threads.length
  · rw [threads_begin_of_lt hlt] at hq
    exact h q hq
  · change (c.threads ++ [p])[i]? = some q at hq
    rw [List.getElem?_append_right (by omega), List.getElem?_singleton] at hq
    split at hq
    · cases hq
      exact hp
    · cases hq

theorem Waits.begin (h : Waits free fresh c) (hp : fresh p) :
    Waits free fresh (begin c p) := by
  intro i hi hnot
  by_cases hlt : i ≤ c.threads.length
  · exact at_begin (h i hi fun hturn => hnot (hasTurn_begin hlt hturn)) hp
  · intro q hq
    have hlen : (TurnTaking.begin c p).threads.length ≤ i := by
      show (c.threads ++ [p]).length ≤ i
      rw [List.length_append, List.length_singleton]
      omega
    rw [List.getElem?_eq_none hlen] at hq
    cases hq

theorem length_stepInTurn (k : ℕ) :
    (stepInTurn apply free c k).threads.length = c.threads.length := by
  unfold stepInTurn
  split
  · exact Config.length_step apply c k
  · rfl

theorem hasTurn_step (h : HasTurn free c i) (k : ℕ) : HasTurn free (c.step apply k) i := by
  intro j hj hfree
  exact Config.At.step apply (fun p hp => h j hj hfree p hp) k (fun _ hp => hp)
    (fun _ _ hnext => absurd hnext Bool.false_ne_true)
    fun _ _ _ _ hnext => absurd hnext Bool.false_ne_true

theorem Waits.stepInTurn (h : Waits free fresh c) (k : ℕ) :
    Waits free fresh (stepInTurn apply free c k) := by
  unfold TurnTaking.stepInTurn
  split
  · rename_i hmoves
    intro i hi hnot
    have hwaits : ¬HasTurn free c i := fun hturn => hnot (hasTurn_step hturn k)
    have hki : k ≠ i := by
      rintro rfl
      rcases hmoves with hlt | hturn
      · omega
      · exact hwaits hturn
    intro p hp
    rw [Config.step_threads_of_ne apply hki] at hp
    exact h i hi hwaits p hp
  · exact h

/-- Of the threads that exclude each other at most one has begun and not ended. -/
theorem Waits.alone (h : Waits free fresh c) (hi : free ≤ i) (hj : free ≤ j) (hij : i ≠ j)
    (hp : c.threads[i]? = some p) (hbegun : ¬fresh p) (hlive : ¬Config.isDone p) :
    c.At j fun q => fresh q ∨ Config.isDone q := by
  intro q hq
  by_cases hlt : j < i
  · have hturn : HasTurn free c i := by
      by_contra hnot
      exact hbegun (h i hi hnot p hp)
    exact Or.inr (hturn j hlt hj q hq)
  · have hwaits : ¬HasTurn free c j := fun hturn => hlive (hturn i (by omega) hi p hp)
    exact Or.inl (h j hj hwaits q hq)

end Waiting

end Bundler.TurnTaking
