import Mathlib.Data.List.Basic
import Mathlib.Data.List.Induction

/-!
Runs of a step function over a list of actions, with a condition on every
step taken and an invariant on every state passed. The two rules reduce a
statement about runs to one about a single step; the second one is for
conditions that are exact, so that a run keeps the invariant throughout
precisely when all its steps meet the condition.
-/
namespace Bundler.Runs

universe u v

variable {S : Type u} {A : Type v} (step : S → A → S)

def run (s : S) (as : List A) : S := as.foldl step s

/-- Every action of the run meets P in the state it is taken in. -/
def AllSteps (P : S → A → Prop) : S → List A → Prop
  | _, [] => True
  | s, a :: as => P s a ∧ AllSteps P (step s a) as

/-- Every state of the run, the first and the last included, satisfies I. -/
def AllStates (I : S → Prop) : S → List A → Prop
  | s, [] => I s
  | s, a :: as => I s ∧ AllStates I (step s a) as

/-- Some state of the run, the first and the last included, satisfies I. -/
def SomeState (I : S → Prop) (s : S) (as : List A) : Prop :=
  ∃ done rest, as = done ++ rest ∧ I (run step s done)

@[simp] theorem run_nil (s : S) : run step s [] = s := rfl

@[simp] theorem run_cons (s : S) (a : A) (as : List A) :
    run step s (a :: as) = run step (step s a) as := rfl

theorem run_append (s : S) (as bs : List A) :
    run step s (as ++ bs) = run step (run step s as) bs := by
  simp [run]

theorem allSteps_append (P : S → A → Prop) (s : S) (as bs : List A) :
    AllSteps step P s (as ++ bs) ↔
      AllSteps step P s as ∧ AllSteps step P (run step s as) bs := by
  induction as generalizing s with
  | nil => simp [AllSteps]
  | cons a as ih => simp [AllSteps, ih, and_assoc]

theorem AllSteps.and {P Q : S → A → Prop} {s : S} {as : List A} (hP : AllSteps step P s as)
    (hQ : AllSteps step Q s as) : AllSteps step (fun s a => P s a ∧ Q s a) s as := by
  induction as generalizing s with
  | nil => trivial
  | cons a as ih => exact ⟨⟨hP.1, hQ.1⟩, ih hP.2 hQ.2⟩

theorem AllSteps.mono {P Q : S → A → Prop} {s : S} {as : List A} (hP : AllSteps step P s as)
    (h : ∀ s a, P s a → Q s a) : AllSteps step Q s as := by
  induction as generalizing s with
  | nil => trivial
  | cons a as ih => exact ⟨h s a hP.1, ih hP.2⟩

theorem AllStates.imp {I J : S → Prop} (h : ∀ s, I s → J s) {s : S} {as : List A}
    (hs : AllStates step I s as) : AllStates step J s as := by
  induction as generalizing s with
  | nil => exact h s hs
  | cons a as ih => exact ⟨h s hs.1, ih hs.2⟩

theorem AllStates.and {I J : S → Prop} {s : S} {as : List A} (hI : AllStates step I s as)
    (hJ : AllStates step J s as) : AllStates step (fun s => I s ∧ J s) s as := by
  induction as generalizing s with
  | nil => exact ⟨hI, hJ⟩
  | cons a as ih => exact ⟨⟨hI.1, hJ.1⟩, ih hI.2 hJ.2⟩

theorem AllStates.last {I : S → Prop} {s : S} {as : List A} (h : AllStates step I s as) :
    I (run step s as) := by
  induction as generalizing s with
  | nil => exact h
  | cons a as ih => exact ih h.2

theorem AllStates.first {I : S → Prop} {s : S} {as : List A} (h : AllStates step I s as) :
    I s := by
  cases as with
  | nil => exact h
  | cons a as => exact h.1

/-- Every state of a run is one that the run passes. -/
theorem allStates_visited (s : S) (as : List A) :
    AllStates step (fun t => SomeState step (fun t' => t' = t) s as) s as := by
  have hrest : ∀ rest done, as = done ++ rest →
      AllStates step (fun t => SomeState step (fun t' => t' = t) s as) (run step s done) rest := by
    intro rest
    induction rest with
    | nil => exact fun done hdone => ⟨done, [], hdone, rfl⟩
    | cons a rest ih =>
      intro done hdone
      refine ⟨⟨done, a :: rest, hdone, rfl⟩, ?_⟩
      have hnext := ih (done ++ [a]) (by simp [hdone])
      rwa [run_append] at hnext
  exact hrest as [] rfl

/-- An invariant kept by every step that meets P holds throughout a run
whose steps all meet P. -/
theorem allStates_of_allSteps {I : S → Prop} {P : S → A → Prop}
    (hstep : ∀ s a, I s → P s a → I (step s a)) {s : S} {as : List A}
    (hs : I s) (h : AllSteps step P s as) : AllStates step I s as := by
  induction as generalizing s with
  | nil => exact hs
  | cons a as ih => exact ⟨hs, ih (hstep s a hs h.1) h.2⟩

/-- What the state after a step says about the step, along a run. -/
theorem AllStates.allSteps {I : S → Prop} {P : S → A → Prop} (hstep : ∀ s a, I (step s a) → P s a)
    {s : S} {as : List A} (h : AllStates step I s as) : AllSteps step P s as := by
  induction as generalizing s with
  | nil => trivial
  | cons a as ih => exact ⟨hstep s a h.2.first, ih h.2⟩

/-- The same rule for a property of the steps themselves. -/
theorem AllSteps.of_invariant {I : S → Prop} {P Q : S → A → Prop}
    (hstep : ∀ s a, I s → P s a → Q s a ∧ I (step s a)) {s : S} {as : List A}
    (hs : I s) (h : AllSteps step P s as) : AllSteps step Q s as := by
  induction as generalizing s with
  | nil => trivial
  | cons a as ih =>
    obtain ⟨hQ, hI⟩ := hstep s a hs h.1
    exact ⟨hQ, ih hI h.2⟩

theorem allStates_of_invariant {I : S → Prop} (hstep : ∀ s a, I s → I (step s a)) {s : S}
    (hs : I s) (as : List A) : AllStates step I s as := by
  induction as generalizing s with
  | nil => exact hs
  | cons a as ih => exact ⟨hs, ih (hstep s a hs)⟩

/-- A condition that all actions of a list meet under an invariant they keep. -/
theorem allSteps_of_mem {P : S → A → Prop} {I : S → Prop} {as : List A}
    (hstep : ∀ s, I s → ∀ a ∈ as, P s a ∧ I (step s a)) {s : S} (hs : I s) :
    AllSteps step P s as := by
  induction as generalizing s with
  | nil => trivial
  | cons a as ih =>
    obtain ⟨hP, hI⟩ := hstep s hs a List.mem_cons_self
    exact ⟨hP, ih (fun s hs b hb => hstep s hs b (List.mem_cons_of_mem a hb)) hI⟩

theorem invariant_run {I : S → Prop} (hstep : ∀ s a, I s → I (step s a)) {s : S}
    (hs : I s) (as : List A) : I (run step s as) := by
  induction as generalizing s with
  | nil => exact hs
  | cons a as ih => exact ih (hstep s a hs)

/-- With an exact condition the first step that misses it also breaks the
invariant, so nothing weaker keeps the invariant throughout. -/
theorem allStates_iff_allSteps {I : S → Prop} {P : S → A → Prop}
    (hstep : ∀ s a, I s → (I (step s a) ↔ P s a)) {s : S} (hs : I s) (as : List A) :
    AllStates step I s as ↔ AllSteps step P s as := by
  constructor
  · intro h
    induction as generalizing s with
    | nil => trivial
    | cons a as ih =>
      have hnext : I (step s a) := h.2.first
      exact ⟨(hstep s a hs).mp hnext, ih hnext h.2⟩
  · exact allStates_of_allSteps step (fun s a hI hP => (hstep s a hI).mpr hP) hs

section Prefixes

/-- The states of a run are those its prefixes come to. -/
theorem allStates_iff_prefixes {I : S → Prop} {s : S} {as : List A} :
    AllStates step I s as ↔ ∀ before, before <+: as → I (run step s before) := by
  induction as generalizing s with
  | nil =>
    constructor
    · intro h before hbefore
      rw [List.prefix_nil.mp hbefore]
      exact h
    · exact fun h => h [] List.nil_prefix
  | cons a as ih =>
    constructor
    · rintro ⟨hs, hrest⟩ before hbefore
      cases before with
      | nil => exact hs
      | cons b before =>
        obtain ⟨rfl, hprefix⟩ := List.cons_prefix_cons.mp hbefore
        exact ih.mp hrest before hprefix
    · intro h
      refine ⟨h [] List.nil_prefix, ih.mpr ?_⟩
      intro before hbefore
      exact h (a :: before) (List.cons_prefix_cons.mpr ⟨rfl, hbefore⟩)

/-- The steps of a run are those taken after its prefixes. -/
theorem allSteps_iff_prefixes {P : S → A → Prop} {s : S} {as : List A} :
    AllSteps step P s as ↔
      ∀ before a after, as = before ++ a :: after → P (run step s before) a := by
  constructor
  · intro h before a after has
    rw [has] at h
    exact ((allSteps_append step P s before (a :: after)).mp h).2.1
  · intro h
    induction as generalizing s with
    | nil => trivial
    | cons a as ih =>
      refine ⟨h [] a as rfl, ih fun before b after has => ?_⟩
      exact h (a :: before) b after (congrArg (a :: ·) has)

omit step in
/-- What a step carries over from the whole past of a run holds of all its
prefixes. -/
theorem past_induction {J : List A → Prop} {as : List A} (hnil : J [])
    (hsnoc : ∀ before a after, as = before ++ a :: after → (∀ first, first <+: before → J first) →
      J (before ++ [a])) : ∀ before, before <+: as → J before := by
  have hall : ∀ before, before <+: as → ∀ first, first <+: before → J first := by
    intro before
    induction before using List.reverseRecOn with
    | nil =>
      intro _ first hfirst
      rw [List.prefix_nil.mp hfirst]
      exact hnil
    | append_singleton before a ih =>
      intro hbefore first hfirst
      have hpast := ih ((List.prefix_append before [a]).trans hbefore)
      rcases List.prefix_concat_iff.mp hfirst with rfl | hfirst
      · obtain ⟨after, rfl⟩ := hbefore
        exact hsnoc before a after (by simp) hpast
      · exact hpast first hfirst
  exact fun before hbefore => hall before hbefore before List.prefix_rfl

end Prefixes

section Decidable

instance decidableAllSteps (P : S → A → Prop) [∀ s a, Decidable (P s a)] :
    ∀ (s : S) (as : List A), Decidable (AllSteps step P s as)
  | _, [] => isTrue trivial
  | s, a :: as =>
    have := decidableAllSteps P (step s a) as
    inferInstanceAs (Decidable (P s a ∧ AllSteps step P (step s a) as))

end Decidable

section Fallible

variable {ε : Type u} {β : Type u} {α : Type v} (step : β → α → Except ε β)

/-- Every element meets P in the accumulator it is folded into, up to a failure. -/
def AllTried (P : β → α → Prop) : β → List α → Prop
  | _, [] => True
  | b, a :: as => P b a ∧ ∀ b', step b a = .ok b' → AllTried P b' as

/-- A condition on the elements alone is met by a fold that does not fail
exactly when all of them meet it. -/
theorem allTried_iff_forall {P : α → Prop} {b b' : β} {as : List α}
    (hfold : as.foldlM step b = .ok b') :
    AllTried step (fun _ a => P a) b as ↔ ∀ a ∈ as, P a := by
  induction as generalizing b with
  | nil => simp [AllTried]
  | cons a as ih =>
    rw [List.foldlM_cons] at hfold
    rw [List.forall_mem_cons]
    cases hstep : step b a with
    | error e =>
      rw [hstep] at hfold
      cases hfold
    | ok b₁ =>
      rw [hstep] at hfold
      rw [← ih hfold]
      simp [AllTried, hstep]

/-- A fold succeeds exactly when none of the steps it comes to fails. -/
theorem foldlM_ok_iff_allTried {b : β} {as : List α} :
    (∃ b', as.foldlM step b = .ok b') ↔
      AllTried step (fun b a => ∃ b', step b a = .ok b') b as := by
  induction as generalizing b with
  | nil => exact iff_of_true ⟨b, rfl⟩ trivial
  | cons a as ih =>
    rw [List.foldlM_cons]
    unfold AllTried
    cases hstep : step b a with
    | error e =>
      constructor
      · rintro ⟨b', hfold⟩
        cases hfold
      · rintro ⟨⟨b', hok⟩, _⟩
        cases hok
    | ok b₁ =>
      refine (ih (b := b₁)).trans ?_
      simp

/-- A property of the accumulator and the elements folded into it so far. -/
theorem foldlM_induction {I : List α → β → Prop} {as : List α}
    (hstep : ∀ done a b b', a ∈ as → I done b → step b a = .ok b' → I (done ++ [a]) b')
    {b b' : β} (hb : I [] b) (hfold : as.foldlM step b = .ok b') : I as b' := by
  have hrest : ∀ rest done b, (∀ a ∈ rest, a ∈ as) → I done b → rest.foldlM step b = .ok b' →
      I (done ++ rest) b' := by
    intro rest
    induction rest with
    | nil =>
      intro done b _ hI hfold
      cases hfold
      rwa [List.append_nil]
    | cons a rest ih =>
      intro done b hmem hI hfold
      rw [List.foldlM_cons] at hfold
      cases hnext : step b a with
      | error e =>
        rw [hnext] at hfold
        cases hfold
      | ok b₁ =>
        rw [hnext] at hfold
        have hI₁ := hstep done a b b₁ (hmem a (by simp)) hI hnext
        have hI' := ih (done ++ [a]) b₁ (fun x hx => hmem x (by simp [hx])) hI₁ hfold
        rwa [List.append_assoc] at hI'
  exact hrest as [] b (fun _ ha => ha) hb hfold

/-- A fold does not fail when under an invariant none of its steps can, and
it then ends in the invariant. -/
theorem foldlM_total {I : β → Prop} {as : List α}
    (hstep : ∀ b, I b → ∀ a ∈ as, ∃ b', step b a = .ok b' ∧ I b') {b : β} (hb : I b) :
    ∃ b', as.foldlM step b = .ok b' ∧ I b' := by
  induction as generalizing b with
  | nil => exact ⟨b, rfl, hb⟩
  | cons a as ih =>
    obtain ⟨b₁, hb₁, hI₁⟩ := hstep b hb a (by simp)
    obtain ⟨b', hb', hI'⟩ := ih (fun b hI x hx => hstep b hI x (by simp [hx])) hI₁
    refine ⟨b', ?_, hI'⟩
    rw [List.foldlM_cons, hb₁]
    exact hb'

/-- When no step fails and each adds what it finds in its element, a fold
collects what is found in all of them. -/
theorem foldlM_collects {γ : Type*} {view : β → γ → Prop} {found : α → γ → Prop} {as : List α}
    (hstep : ∀ b, ∀ a ∈ as, ∃ b', step b a = .ok b' ∧ ∀ c, view b' c ↔ view b c ∨ found a c)
    (b : β) :
    ∃ b', as.foldlM step b = .ok b' ∧ ∀ c, view b' c ↔ view b c ∨ ∃ a ∈ as, found a c := by
  induction as generalizing b with
  | nil => exact ⟨b, rfl, fun c => (or_iff_left (by simp)).symm⟩
  | cons a as ih =>
    obtain ⟨b₁, hb₁, hview₁⟩ := hstep b a List.mem_cons_self
    obtain ⟨b', hb', hview'⟩ := ih (fun b x hx => hstep b x (List.mem_cons_of_mem _ hx)) b₁
    refine ⟨b', ?_, fun c => ?_⟩
    · rw [List.foldlM_cons, hb₁]
      exact hb'
    · rw [hview', hview₁, or_assoc]
      simp only [List.mem_cons, exists_eq_or_imp]

theorem foldlM_lost {Q : β → Prop} (hlost : ∀ b a b', ¬Q b → step b a = .ok b' → ¬Q b')
    {b b' : β} {as : List α} (hb : ¬Q b) (hfold : as.foldlM step b = .ok b') : ¬Q b' := by
  induction as generalizing b with
  | nil =>
    cases hfold
    exact hb
  | cons a as ih =>
    rw [List.foldlM_cons] at hfold
    cases hstep : step b a with
    | error e =>
      rw [hstep] at hfold
      cases hfold
    | ok b₁ =>
      rw [hstep] at hfold
      exact ih (hlost b a b₁ hb hstep) hfold

/-- A property that holds under an invariant, is lost by any step that misses
the condition and never comes back, holds at the end of a fold exactly when
all its steps met the condition. -/
theorem foldlM_iff_allTried {I Q : β → Prop} {P : β → α → Prop} (hQ : ∀ b, I b → Q b)
    (hkeep : ∀ b a b', I b → P b a → step b a = .ok b' → I b')
    (hbreak : ∀ b a b', I b → ¬P b a → step b a = .ok b' → ¬Q b')
    (hlost : ∀ b a b', ¬Q b → step b a = .ok b' → ¬Q b')
    {b b' : β} {as : List α} (hb : I b) (hfold : as.foldlM step b = .ok b') :
    Q b' ↔ AllTried step P b as := by
  induction as generalizing b with
  | nil =>
    cases hfold
    exact iff_of_true (hQ _ hb) trivial
  | cons a as ih =>
    rw [List.foldlM_cons] at hfold
    cases hstep : step b a with
    | error e =>
      rw [hstep] at hfold
      cases hfold
    | ok b₁ =>
      rw [hstep] at hfold
      constructor
      · intro hend
        by_cases hP : P b a
        · refine ⟨hP, ?_⟩
          intro b₂ hb₂
          obtain rfl : b₁ = b₂ := Except.ok.inj (hstep.symm.trans hb₂)
          exact (ih (hkeep b a b₁ hb hP hstep) hfold).mp hend
        · exact absurd hend (foldlM_lost step hlost (hbreak b a b₁ hb hP hstep) hfold)
      · intro hall
        exact (ih (hkeep b a b₁ hb hall.1 hstep) hfold).mpr (hall.2 b₁ hstep)

end Fallible

end Bundler.Runs
