import Bundler.Interleavings
import Mathlib.Algebra.Ring.Nat

/-!
Programs that pay for their updates. A program is given some credit before it
starts and every update costs a part of it. What no single update raises by
more than its cost, a whole run of programs raises by no more than the credit
they had together, however their steps are interleaved.
-/
namespace Bundler.Credits

open AsyncPrograms Runs Interleavings

universe u

variable {S U ε α β : Type u} {cost : U → ℕ} {allowed : U → Prop}

section Programs

/-- What is left after each access, with the updates that can be paid. -/
def budget (cost : U → ℕ) (allowed : U → Prop) : Program.Protocol S U ℕ where
  onRead credit _ := credit
  onUpdate credit u := credit - cost u
  allowed credit u := allowed u ∧ cost u ≤ credit

/-- The program does only what is allowed, and gets by on the credit. -/
def Spends (cost : U → ℕ) (allowed : U → Prop) (credit : ℕ) (p : Program S U ε α) : Prop :=
  p.Follows (budget cost allowed) (fun _ _ => True) credit

variable {credit credit' : ℕ} {p : Program S U ε α}

theorem Spends.mono (h : Spends cost allowed credit p) (hle : credit ≤ credit') :
    Spends cost allowed credit' p := by
  induction p generalizing credit credit' with
  | done r => exact trivial
  | getState next ih => exact fun s => ih s (h s) hle
  | updateState u next ih =>
    exact ⟨⟨h.1.1, Nat.le_trans h.1.2 hle⟩, fun r => ih r (h.2 r) (Nat.sub_le_sub_right hle _)⟩

/-- The credit of a bind is that of its two halves. -/
theorem Spends.bind {f : α → Program S U ε β} (hp : Spends cost allowed credit p)
    (hf : ∀ a, Spends cost allowed credit' (f a)) :
    Spends cost allowed (credit + credit') (p >>= f) := by
  rw [Program.bind_def]
  induction p generalizing credit with
  | done r =>
    cases r with
    | ok a => exact (hf a).mono (Nat.le_add_left _ _)
    | error e => exact trivial
  | getState next ih => exact fun s => ih s (hp s)
  | updateState u next ih =>
    obtain ⟨⟨hallowed, hle⟩, hnext⟩ := hp
    refine ⟨⟨hallowed, by omega⟩, fun r => ?_⟩
    have hleft : credit + credit' - cost u = credit - cost u + credit' := by omega
    show Spends cost allowed (credit + credit' - cost u) ((next r).bind f)
    rw [hleft]
    exact ih r (hnext r)

/-- What costs nothing needs no credit. -/
theorem Spends.of_guarantees {Q : Except ε α → Prop}
    (h : p.Guarantees (fun _ => True) (fun u => allowed u ∧ cost u = 0) Q) :
    Spends cost allowed credit p := by
  refine (h.follows (K := fun _ => True) (fun _ _ _ => trivial) ?_ trivial).weaken
    fun _ _ _ => trivial
  intro left u _ hu
  exact ⟨⟨hu.1, by omega⟩, trivial⟩

theorem Spends.read_bind {f : S → Program S U ε β} (h : ∀ s, Spends cost allowed credit (f s)) :
    Spends cost allowed credit (Program.read >>= f) := h

/-- What comes before and costs nothing leaves the credit as it is. -/
theorem Spends.after_free {Q : Except ε α → Prop} {f : α → Program S U ε β}
    (hp : p.Guarantees (fun _ => True) (fun u => allowed u ∧ cost u = 0) Q)
    (hf : ∀ a, Spends cost allowed credit (f a)) : Spends cost allowed credit (p >>= f) := by
  have hfree : Spends cost allowed 0 p := Spends.of_guarantees hp
  have h := hfree.bind hf
  rwa [Nat.zero_add] at h

theorem Spends.detach (h : Spends cost allowed credit p) :
    Spends cost allowed credit p.detach := by
  have hend : ∀ a : α, Spends cost allowed 0 (pure ⟨⟩ : Program S U ε PUnit.{u + 1}) :=
    fun _ => trivial
  exact h.bind hend

end Programs

section Runs

variable (apply : U → S → S × Except ε PUnit.{u + 1}) {c : Config S U ε} {credit : ℕ}

/-- The threads have this much credit together. -/
def Funded (cost : U → ℕ) (allowed : U → Prop) (c : Config S U ε) (credit : ℕ) : Prop :=
  ∃ credits : List ℕ, credits.length = c.threads.length ∧ credits.sum = credit ∧
    ∀ j, c.At j (Spends cost allowed (credits[j]?.getD 0))

/-- Programs that have not begun have the credit each of them was given. -/
theorem funded_map {γ : Type*} {program : γ → Program S U ε PUnit.{u + 1}} {credits : γ → ℕ}
    {tasks : List γ} (h : ∀ task ∈ tasks, Spends cost allowed (credits task) (program task))
    (s : S) : Funded cost allowed ⟨s, tasks.map program⟩ (tasks.map credits).sum := by
  refine ⟨tasks.map credits, by rw [List.length_map, List.length_map], rfl, fun j p hp => ?_⟩
  change (tasks.map program)[j]? = some p at hp
  rw [List.getElem?_map, Option.map_eq_some_iff] at hp
  obtain ⟨task, htask, rfl⟩ := hp
  rw [List.getElem?_map, htask]
  exact h task (List.mem_of_getElem? htask)

theorem sum_set {credits : List ℕ} {i spent : ℕ} (h : credits[i]? = some credit)
    (hle : spent ≤ credit) : (credits.set i (credit - spent)).sum + spent = credits.sum := by
  induction credits generalizing i with
  | nil => cases h
  | cons first credits ih =>
    cases i with
    | zero =>
      obtain rfl := Option.some.inj h
      simp only [List.set_cons_zero, List.sum_cons]
      omega
    | succ i =>
      have hrest := ih h
      simp only [List.set_cons_succ, List.sum_cons]
      omega

/-- A step takes the cost of its update, if there is one, off the credit. -/
theorem funded_step (h : Funded cost allowed c credit) (i : ℕ) :
    (c.pending i = none ∧ Funded cost allowed (c.step apply i) credit) ∨
      ∃ u left, c.pending i = some u ∧ allowed u ∧ left + cost u = credit ∧
        Funded cost allowed (c.step apply i) left := by
  obtain ⟨credits, hlength, hsum, hspends⟩ := h
  cases hpending : c.pending i with
  | none =>
    have hlen := hlength.trans (Config.length_step apply c i).symm
    refine Or.inl ⟨rfl, credits, hlen, hsum, fun j => ?_⟩
    refine (hspends j).step apply i (fun _ hp => hp) (fun _ next hnext => hnext c.state) ?_
    rintro rfl u next hu
    cases hpending.symm.trans hu
  | some u =>
    obtain ⟨next, hthread⟩ := Config.pending_eq_some_iff.mp hpending
    have hlt : i < credits.length := hlength ▸ (List.getElem?_eq_some_iff.mp hthread).1
    have hcredit : credits[i]? = some credits[i] := List.getElem?_eq_getElem hlt
    have hpays := hspends i _ hthread
    rw [hcredit] at hpays
    obtain ⟨⟨hallowed, hle⟩, hnext⟩ := hpays
    refine Or.inr ⟨u, _, rfl, hallowed, hsum ▸ sum_set hcredit hle,
      credits.set i (credits[i] - cost u), ?_, rfl, fun j p hp => ?_⟩
    · rw [List.length_set, Config.length_step]
      exact hlength
    · by_cases hij : i = j
      · subst hij
        rw [List.getElem?_set_self hlt]
        rw [Config.step_threads_update apply hthread] at hp
        cases hp
        exact hnext _
      · rw [List.getElem?_set_ne hij]
        rw [Config.step_threads_of_ne apply hij] at hp
        exact hspends j p hp

/-- What every update that is allowed raises by no more than its cost stays
within the credit of the threads, as long as the updates made meet P. -/
theorem measure_le (measure : S → ℕ) {P : S → U → Prop}
    (hmeasure : ∀ s u, P s u → allowed u → measure (apply u s).1 ≤ measure s + cost u)
    (hfunded : Funded cost allowed c credit) {schedule : List ℕ}
    (hwrites : AllSteps (Config.step apply) (Config.Writes P) c schedule) :
    AllStates (Config.step apply) (fun c' => measure c'.state ≤ measure c.state + credit) c
      schedule := by
  have hleft := allStates_of_allSteps (Config.step apply)
    (I := fun c' => ∃ left, Funded cost allowed c' left ∧
      measure c'.state + left ≤ measure c.state + credit)
    ?_ ⟨credit, hfunded, Nat.le_refl _⟩ hwrites
  · exact hleft.imp _ fun c' ⟨_, _, hle⟩ => by omega
  · rintro c' i ⟨left, hfunded, hle⟩ hP
    rcases funded_step apply hfunded i with
      ⟨hpending, hfunded'⟩ | ⟨u, left', hpending, hu, hcost, hfunded'⟩
    · refine ⟨left, hfunded', ?_⟩
      rw [Config.step_state_of_not_pending apply hpending]
      exact hle
    · refine ⟨left', hfunded', ?_⟩
      rw [Config.step_state_of_pending apply hpending]
      have hraised := hmeasure c'.state u (hP u hpending) hu
      omega

end Runs

end Bundler.Credits
