import Bundler.Interleavings

/-!
Points a program passes before it may issue certain updates. A program that
updates the store on the strength of something it looked up comes to the
look-up first, and from then on it is bound by the state it saw there. When
it issues such an update in an interleaved run, the past of the run therefore
holds the step of its look-up.
-/
namespace Bundler.LookUps

open AsyncPrograms Interleavings

universe u

variable {S U ε α β : Type u}

/-- Up to a marked point, or to its end, a program issues only free updates. -/
inductive ComesTo (marked : Program S U ε α → Prop) (free : U → Prop) : Program S U ε α → Prop
  | here {p : Program S U ε α} : marked p → ComesTo marked free p
  | done (r : Except ε α) : ComesTo marked free (.done r)
  | getState {next : S → Program S U ε α} :
      (∀ s, ComesTo marked free (next s)) → ComesTo marked free (.getState next)
  | updateState {u : U} {next : Except ε PUnit.{u + 1} → Program S U ε α} :
      free u → (∀ r, ComesTo marked free (next r)) → ComesTo marked free (.updateState u next)

namespace ComesTo

variable {marked : Program S U ε α → Prop} {free : U → Prop}

theorem of_guarantees {p : Program S U ε α} {Q : Except ε α → Prop}
    (h : p.Guarantees (fun _ => True) free Q) : ComesTo marked free p := by
  induction p with
  | done r => exact done r
  | getState next ih => exact getState fun s => ih s (h s trivial)
  | updateState u next ih => exact updateState h.1 fun r => ih r (h.2 r)

/-- What comes before the marked point may be anything free. -/
theorem after {p : Program S U ε β} {Q : Except ε β → Prop} {f : β → Program S U ε α}
    (hp : p.Guarantees (fun _ => True) free Q)
    (hf : ∀ b, Q (.ok b) → ComesTo marked free (f b)) : ComesTo marked free (p >>= f) := by
  induction p with
  | done r =>
    cases r with
    | ok b => exact hf b hp
    | error e => exact done _
  | getState next ih => exact getState fun s => ih s (hp s trivial)
  | updateState u next ih => exact updateState hp.1 fun r => ih r (hp.2 r)

end ComesTo

/-- The program is at a look-up, and afterwards issues only the updates that
the state it sees there allows. -/
def AtLookUp (lookUp : Program S U ε PUnit.{u + 1} → Prop) (allowed : S → U → Prop)
    (p : Program S U ε PUnit.{u + 1}) : Prop :=
  lookUp p ∧ ∃ next, p = .getState next ∧
    ∀ s, (next s).Guarantees (fun _ => True) (allowed s) fun _ => True

/-- Up to its look-up a program issues only free updates; after it, only those
allowed by the state it saw. -/
def LooksUpFirst (lookUp : Program S U ε PUnit.{u + 1} → Prop) (free : U → Prop)
    (allowed : S → U → Prop) : Program S U ε PUnit.{u + 1} → Prop :=
  ComesTo (AtLookUp lookUp allowed) free

theorem LooksUpFirst.read_bind {lookUp : Program S U ε PUnit.{u + 1} → Prop} {free : U → Prop}
    {allowed : S → U → Prop} {f : S → Program S U ε PUnit.{u + 1}}
    (hlookUp : lookUp (Program.read >>= f))
    (h : ∀ s, (f s).Guarantees (fun _ => True) (allowed s) fun _ => True) :
    LooksUpFirst lookUp free allowed (Program.read >>= f) := .here ⟨hlookUp, _, rfl, h⟩

section Runs

variable (apply : U → S → S × Except ε PUnit.{u + 1})

/-- The step of the schedule after `first` is a look-up of thread i. -/
def LookedUp (lookUp : Program S U ε PUnit.{u + 1} → Prop) (c : Config S U ε) (i : ℕ)
    (first : List ℕ) : Prop :=
  ∃ p, (c.exec apply first).threads[i]? = some p ∧ lookUp p

variable {lookUp : Program S U ε PUnit.{u + 1} → Prop} {free : U → Prop}
  {allowed : S → U → Prop} {c : Config S U ε} {i : ℕ}

/-- A thread that has come to an update that is not free made its look-up
before, and the update is one the state of that moment allows. -/
theorem lookedUp_of_pending (h : c.At i (LooksUpFirst lookUp free allowed)) {before : List ℕ}
    {u : U} (hpending : (c.exec apply before).pending i = some u) (hfree : ¬free u) :
    ∃ first rest, before = first ++ i :: rest ∧ LookedUp apply lookUp c i first ∧
      allowed (c.exec apply first).state u := by
  induction before generalizing c with
  | nil =>
    obtain ⟨next, hthread⟩ := Config.pending_eq_some_iff.mp hpending
    cases h _ hthread with
    | here hlookUp => exact absurd hlookUp.2 (by simp)
    | updateState hu _ => exact absurd hu hfree
  | cons j before ih =>
    -- the first step is the look-up, or leaves the thread before it
    have hlater (hstep : (c.step apply j).At i (LooksUpFirst lookUp free allowed)) :
        ∃ first rest, j :: before = first ++ i :: rest ∧ LookedUp apply lookUp c i first ∧
          allowed (c.exec apply first).state u := by
      obtain ⟨first, rest, hbefore, hlookedUp, hallowed⟩ := ih hstep hpending
      exact ⟨j :: first, rest, congrArg (j :: ·) hbefore, hlookedUp, hallowed⟩
    by_cases hij : j = i
    · subst hij
      rcases Config.step_cases apply c j with hs | ⟨next, hthread, _⟩ | ⟨v, next, hthread, _⟩
      · exact hlater (hs.symm ▸ h)
      · have hnext := Config.step_threads_read apply hthread
        cases h _ hthread with
        | here hlookUp =>
          obtain ⟨hmark, _, hread, hallowed⟩ := hlookUp
          cases hread
          have hbound : (c.step apply j).At j fun p =>
              p.Guarantees (fun _ => True) (allowed c.state) fun _ => True := by
            intro p hp
            cases hnext.symm.trans hp
            exact hallowed c.state
          have hend := hbound.exec_guarantees apply
            (Bundler.Runs.allStates_of_invariant _ (fun _ _ _ => trivial) trivial before)
          exact ⟨[], before, rfl, ⟨_, hthread, hmark⟩, hend.of_pending hpending⟩
        | getState hread =>
          refine hlater fun p hp => ?_
          cases hnext.symm.trans hp
          exact hread c.state
      · refine hlater fun p hp => ?_
        cases (Config.step_threads_update apply hthread).symm.trans hp
        cases h _ hthread with
        | here hlookUp => exact absurd hlookUp.2 (by simp)
        | updateState _ hnext => exact hnext _
    · refine hlater fun p hp => h p ?_
      rwa [Config.step_threads_of_ne apply hij] at hp

end Runs

end Bundler.LookUps
