import Bundler.Runs
import Mathlib.Data.List.Nodup
import Mathlib.Logic.Function.Basic

/-!
Critical sections under one lock. A process waits until the lock is free,
takes it, performs the steps of its section one at a time on its own
variables and the shared store, and releases the lock. Steps of different
processes come in any order; whoever meets a taken lock stays where it is.
Still the store is what the sections make of it one after the other, in the
order in which they got the lock.
-/
namespace Bundler.CriticalSections

open Runs

universe u

/-- The variables a section starts from, and its steps. -/
structure CriticalSection (S L : Type u) where
  start : L
  steps : List (L × S → L × S)

inductive Phase (S L : Type u)
  | waiting
  | inside (vars : L) (rest : List (L × S → L × S))
  | finished (vars : L)

/-- Beside what the processes share, the order in which they got the lock. -/
structure Config (S L ι : Type u) where
  store : S
  holder : Option ι
  phase : ι → Phase S L
  acquired : List ι

variable {S L ι : Type u}

/-- The steps of a section, without interruption. -/
def perform (steps : List (L × S → L × S)) (x : L × S) : L × S := steps.foldl (fun x f => f x) x

def CriticalSection.run (p : CriticalSection S L) (s : S) : L × S := perform p.steps (p.start, s)

def Config.initial (s : S) : Config S L ι := ⟨s, none, fun _ => .waiting, []⟩

variable (sections : ι → CriticalSection S L)

/-- The store after whole sections, one after the other. -/
def inOrder (s : S) (order : List ι) : S := order.foldl (fun s i => ((sections i).run s).2) s

theorem inOrder_concat (s : S) (order : List ι) (i : ι) :
    inOrder sections s (order ++ [i]) = ((sections i).run (inOrder sections s order)).2 := by
  unfold inOrder
  rw [List.foldl_append]
  rfl

/-- What process i does next. -/
def step [DecidableEq ι] (c : Config S L ι) (i : ι) : Config S L ι :=
  match c.phase i with
  | .waiting =>
      match c.holder with
      | none =>
          { store := c.store
            holder := some i
            phase := Function.update c.phase i (.inside (sections i).start (sections i).steps)
            acquired := c.acquired ++ [i] }
      | some _ => c
  | .inside vars (f :: rest) =>
      { store := (f (vars, c.store)).2
        holder := c.holder
        phase := Function.update c.phase i (.inside (f (vars, c.store)).1 rest)
        acquired := c.acquired }
  | .inside vars [] =>
      { store := c.store
        holder := none
        phase := Function.update c.phase i (.finished vars)
        acquired := c.acquired }
  | .finished _ => c

def Phase.IsInside : Phase S L → Prop
  | .inside _ _ => True
  | _ => False

/-- Sections that are past ended as if nobody else had been there. -/
structure Ended (s : S) (c : Config S L ι) (past : List ι) : Prop where
  nodup : past.Nodup
  finished : ∀ i ∈ past, ∃ vars, c.phase i = .finished vars
  results : ∀ i vars, c.phase i = .finished vars →
    ∃ before after, past = before ++ i :: after ∧
      vars = ((sections i).run (inOrder sections s before)).1

/-- Nobody is in a section, and the store is that of the sections in order. -/
structure Free (s : S) (c : Config S L ι) (past : List ι) : Prop where
  acquired : c.acquired = past
  store : c.store = inOrder sections s past
  nobody : ∀ j, ¬(c.phase j).IsInside

/-- Process i alone is in its section, and will leave the store as if it had
started it now. -/
structure Held (s : S) (c : Config S L ι) (past : List ι) (i : ι) : Prop where
  acquired : c.acquired = past ++ [i]
  ahead : ∃ vars rest, c.phase i = .inside vars rest ∧
    perform rest (vars, c.store) = (sections i).run (inOrder sections s past)
  nobody : ∀ j, j ≠ i → ¬(c.phase j).IsInside

/-- The invariant of all runs. -/
def Serial (s : S) (c : Config S L ι) : Prop :=
  ∃ past, Ended sections s c past ∧
    match c.holder with
    | none => Free sections s c past
    | some i => Held sections s c past i

variable {sections} {s : S} {c : Config S L ι} {past : List ι}

theorem serial_initial (s : S) : Serial sections s (Config.initial s) :=
  ⟨[], ⟨List.nodup_nil, nofun, nofun⟩, rfl, rfl, fun _ => id⟩

variable [DecidableEq ι]

/-- A change of phase of a process that is not past leaves the others ended. -/
theorem Ended.update {c' : Config S L ι} (h : Ended sections s c past) {i : ι} {phase : Phase S L}
    (hi : ∀ vars, c.phase i ≠ .finished vars) (hphase : ∀ vars, phase ≠ .finished vars)
    (hc' : c'.phase = Function.update c.phase i phase) : Ended sections s c' past := by
  refine ⟨h.nodup, ?_, ?_⟩
  · intro j hj
    obtain ⟨vars, hvars⟩ := h.finished j hj
    have hji : j ≠ i := by
      rintro rfl
      exact hi vars hvars
    exact ⟨vars, by rw [hc', Function.update_of_ne hji, hvars]⟩
  · intro j vars hvars
    rw [hc'] at hvars
    by_cases hji : j = i
    · subst hji
      rw [Function.update_self] at hvars
      exact absurd hvars (hphase vars)
    · rw [Function.update_of_ne hji] at hvars
      exact h.results j vars hvars

/-- A process that finishes its section joins those that are past. -/
theorem Ended.concat {c' : Config S L ι} (h : Ended sections s c past) {i : ι} {vars : L}
    (hi : ∀ vars, c.phase i ≠ .finished vars)
    (hvars : vars = ((sections i).run (inOrder sections s past)).1)
    (hc' : c'.phase = Function.update c.phase i (.finished vars)) :
    Ended sections s c' (past ++ [i]) := by
  have hnew : i ∉ past := by
    intro hover
    obtain ⟨old, hold⟩ := h.finished i hover
    exact hi old hold
  have hnodup : (past ++ [i]).Nodup := List.concat_eq_append ▸ h.nodup.concat hnew
  refine ⟨hnodup, ?_, ?_⟩
  · intro j hj
    rw [hc']
    by_cases hji : j = i
    · subst hji
      exact ⟨vars, Function.update_self _ _ _⟩
    · have hover : j ∈ past := by simpa [hji] using hj
      obtain ⟨old, hold⟩ := h.finished j hover
      exact ⟨old, by rw [Function.update_of_ne hji, hold]⟩
  · intro j result hresult
    rw [hc'] at hresult
    by_cases hji : j = i
    · subst hji
      rw [Function.update_self] at hresult
      cases hresult
      exact ⟨past, [], rfl, hvars⟩
    · rw [Function.update_of_ne hji] at hresult
      obtain ⟨before, after, rfl, hbefore⟩ := h.results j result hresult
      exact ⟨before, after ++ [i], by simp, hbefore⟩

theorem serial_step (h : Serial sections s c) (i : ι) :
    Serial sections s (step sections c i) := by
  obtain ⟨past, hended, hholder⟩ := h
  unfold step
  cases hphase : c.phase i with
  | waiting =>
    have hnot : ∀ vars, c.phase i ≠ .finished vars := by simp [hphase]
    cases hc : c.holder with
    | some j =>
      dsimp only
      exact ⟨past, hended, by rw [hc] at hholder ⊢; exact hholder⟩
    | none =>
      rw [hc] at hholder
      have hfree : Free sections s c past := hholder
      refine ⟨past, hended.update hnot (by simp) rfl, ?_⟩
      refine ⟨by rw [hfree.acquired], ⟨_, _, Function.update_self _ _ _, ?_⟩, ?_⟩
      · rw [← hfree.store]
        rfl
      · intro j hj
        dsimp only
        rw [Function.update_of_ne hj]
        exact hfree.nobody j
  | finished vars => exact ⟨past, hended, hholder⟩
  | inside vars rest =>
    have hnot : ∀ vars, c.phase i ≠ .finished vars := by simp [hphase]
    have hinside : (c.phase i).IsInside := by
      rw [hphase]
      trivial
    cases hc : c.holder with
    | none =>
      rw [hc] at hholder
      have hfree : Free sections s c past := hholder
      exact absurd hinside (hfree.nobody i)
    | some j =>
      rw [hc] at hholder
      have hheld : Held sections s c past j := hholder
      have hij : i = j := by
        by_contra hne
        exact hheld.nobody i hne hinside
      subst hij
      obtain ⟨vars', rest', hsame, hahead⟩ := hheld.ahead
      cases hphase.symm.trans hsame
      have hothers : ∀ (phase : Phase S L) j, j ≠ i →
          ¬(Function.update c.phase i phase j).IsInside := by
        intro phase j hj
        rw [Function.update_of_ne hj]
        exact hheld.nobody j hj
      cases rest with
      | nil =>
        have hover := congrArg Prod.fst hahead
        have hstore := congrArg Prod.snd hahead
        refine ⟨past ++ [i], hended.concat hnot hover rfl, hheld.acquired, ?_, ?_⟩
        · exact hstore.trans (inOrder_concat sections s past i).symm
        · intro j
          by_cases hj : j = i
          · subst hj
            dsimp only
            rw [Function.update_self]
            exact id
          · exact hothers _ j hj
      | cons f rest =>
        refine ⟨past, hended.update hnot (by simp) rfl, ?_⟩
        exact ⟨hheld.acquired, ⟨_, rest, Function.update_self _ _ _, hahead⟩, hothers _⟩

theorem serial_run (s : S) (schedule : List ι) :
    Serial sections s (run (step sections) (Config.initial s) schedule) := by
  have hstep : ∀ (c : Config S L ι) i, Serial sections s c →
      Serial sections s (step sections c i) := fun _ i h => serial_step h i
  exact invariant_run (step sections) hstep (serial_initial s) schedule

/-- Whenever the lock is free, the store is that of the sections performed
in the order they got the lock, and each of them ended as at its turn. -/
theorem serializable (s : S) (schedule : List ι)
    (hfree : (run (step sections) (Config.initial s) schedule).holder = none) :
    let c := run (step sections) (Config.initial s) schedule
    c.store = inOrder sections s c.acquired ∧ Ended sections s c c.acquired := by
  have hserial : Serial sections s (run (step sections) (Config.initial s) schedule) :=
    serial_run s schedule
  obtain ⟨past, hended, hholder⟩ := hserial
  rw [hfree] at hholder
  have h : Free sections s _ past := hholder
  exact ⟨h.acquired ▸ h.store, h.acquired ▸ hended⟩

end Bundler.CriticalSections
