import Mathlib.Logic.Basic

/-!
Asynchronous programs over a store whose every access is atomic. A program
is finished, or waits for a read of the whole store, or waits for a named
update; between two accesses anything may happen to the store. Running a
program to its end without interruption is `run`. `Guarantees` bounds what
a program does under interference: as long as every state it reads
satisfies the rely, it issues only the updates allowed. `Follows` bounds it
by its own history: a ghost value moves along with its accesses and says
which update may come next.
-/
namespace Bundler.AsyncPrograms

universe u v

/-- A bind of plain results succeeds exactly when both halves do. -/
theorem except_bind_eq_ok_iff {ε α β : Type u} {x : Except ε α} {f : α → Except ε β} {b : β} :
    x >>= f = .ok b ↔ ∃ a, x = .ok a ∧ f a = .ok b := by
  cases x with
  | ok a =>
    constructor
    · intro h
      exact ⟨a, rfl, h⟩
    · rintro ⟨_, ha, h⟩
      cases ha
      exact h
  | error e =>
    constructor
    · intro h
      cases h
    · rintro ⟨_, ha, _⟩
      cases ha

inductive Program (S U ε α : Type u) where
  | done (result : Except ε α)
  | getState (next : S → Program S U ε α)
  | updateState (update : U) (next : Except ε PUnit.{u + 1} → Program S U ε α)

namespace Program

variable {S U ε α β : Type u}

protected def bind : Program S U ε α → (α → Program S U ε β) → Program S U ε β
  | done (.ok a), f => f a
  | done (.error e), _ => done (.error e)
  | getState next, f => getState fun s => (next s).bind f
  | updateState u next, f => updateState u fun r => (next r).bind f

protected def tryCatch : Program S U ε α → (ε → Program S U ε α) → Program S U ε α
  | done (.ok a), _ => done (.ok a)
  | done (.error e), handle => handle e
  | getState next, handle => getState fun s => (next s).tryCatch handle
  | updateState u next, handle => updateState u fun r => (next r).tryCatch handle

instance : Monad (Program S U ε) where
  pure a := done (.ok a)
  bind := Program.bind

instance : MonadExceptOf ε (Program S U ε) where
  throw e := done (.error e)
  tryCatch := Program.tryCatch

def read : Program S U ε S := getState fun s => done (.ok s)

def update (u : U) : Program S U ε PUnit.{u + 1} := updateState u done

/-- The outcome of a call that does not touch the store. -/
def ofExcept (r : Except ε α) : Program S U ε α := done r

theorem bind_def (p : Program S U ε α) (f : α → Program S U ε β) : p >>= f = p.bind f := rfl

theorem bind_assoc {γ : Type u} (p : Program S U ε α) (f : α → Program S U ε β)
    (g : β → Program S U ε γ) : (p >>= f) >>= g = p >>= fun a => f a >>= g := by
  simp only [bind_def]
  induction p with
  | done r => cases r <;> rfl
  | getState next ih => exact congrArg getState (funext ih)
  | updateState u next ih => exact congrArg (updateState u) (funext ih)

section Sequential

variable (apply : U → S → S × Except ε PUnit.{u + 1})

/-- One program running alone, from a state to its end. -/
def run : Program S U ε α → S → S × Except ε α
  | done r, s => (s, r)
  | getState next, s => (next s).run s
  | updateState u next, s => (next (apply u s).2).run (apply u s).1

@[simp] theorem run_pure (a : α) (s : S) :
    run apply (pure a : Program S U ε α) s = (s, .ok a) := rfl

@[simp] theorem run_throw (e : ε) (s : S) :
    run apply (throw e : Program S U ε α) s = (s, .error e) := rfl

theorem run_bind (p : Program S U ε α) (f : α → Program S U ε β) (s : S) :
    run apply (p >>= f) s =
      match run apply p s with
      | (s', .ok a) => run apply (f a) s'
      | (s', .error e) => (s', .error e) := by
  rw [bind_def]
  induction p generalizing s with
  | done r => cases r <;> rfl
  | getState next ih => exact ih s s
  | updateState u next ih => exact ih (apply u s).2 (apply u s).1

theorem run_bind_of_ok {p : Program S U ε α} {s s' : S} {a : α}
    (h : run apply p s = (s', .ok a)) (f : α → Program S U ε β) :
    run apply (p >>= f) s = run apply (f a) s' := by
  rw [run_bind, h]

theorem run_bind_of_error {p : Program S U ε α} {s s' : S} {e : ε}
    (h : run apply p s = (s', .error e)) (f : α → Program S U ε β) :
    run apply (p >>= f) s = (s', .error e) := by
  rw [run_bind, h]

@[simp] theorem run_read_bind (f : S → Program S U ε β) (s : S) :
    run apply (read >>= f) s = run apply (f s) s := rfl

/-- A bind succeeds exactly when both halves do, one after the other. -/
theorem run_bind_eq_ok_iff (p : Program S U ε α) (f : α → Program S U ε β) (s s'' : S) (b : β) :
    run apply (p >>= f) s = (s'', .ok b) ↔
      ∃ a s', run apply p s = (s', .ok a) ∧ run apply (f a) s' = (s'', .ok b) := by
  rw [run_bind]
  constructor
  · intro h
    split at h
    · rename_i s' a hp
      exact ⟨a, s', hp, h⟩
    · simp at h
  · rintro ⟨a, s', hp, hf⟩
    rw [hp]
    exact hf

/-- A loop whose body always succeeds folds the body's effect. -/
theorem run_forM {γ : Type u} {f : γ → Program S U ε PUnit.{u + 1}} {g : S → γ → S}
    (h : ∀ x s, run apply (f x) s = (g s x, .ok ⟨⟩)) (xs : List γ) (s : S) :
    run apply (xs.forM f) s = (xs.foldl g s, .ok ⟨⟩) := by
  induction xs generalizing s with
  | nil => rfl
  | cons x xs ih =>
    change run apply (f x >>= fun _ => xs.forM f) s = _
    rw [run_bind_of_ok apply (h x s), ih]
    rfl

/-- The program passes exactly on the states meeting Q, and leaves them as they are. -/
def PassesIff (p : Program S U ε PUnit.{u + 1}) (Q : S → Prop) : Prop :=
  ∀ s s', run apply p s = (s', .ok ⟨⟩) ↔ Q s ∧ s' = s

/-- Alone, the program changes nothing and comes to what it reads off the state. -/
def Reads (p : Program S U ε α) (value : S → α) : Prop := ∀ s, run apply p s = (s, .ok (value s))

namespace PassesIff

variable {apply}
variable {p q : Program S U ε PUnit.{u + 1}} {Q R : S → Prop}

theorem pure : PassesIff apply (pure ⟨⟩ : Program S U ε PUnit.{u + 1}) fun _ => True := by
  intro s s'
  simp [eq_comm]

theorem seq (hp : PassesIff apply p Q) (hq : PassesIff apply q R) :
    PassesIff apply (p >>= fun _ => q) fun s => Q s ∧ R s := by
  intro s s'
  rw [run_bind_eq_ok_iff]
  constructor
  · rintro ⟨_, s₁, h₁, h₂⟩
    obtain ⟨hQ, rfl⟩ := (hp s s₁).mp h₁
    obtain ⟨hR, rfl⟩ := (hq s₁ s').mp h₂
    exact ⟨⟨hQ, hR⟩, rfl⟩
  · rintro ⟨⟨hQ, hR⟩, rfl⟩
    exact ⟨⟨⟩, s', (hp s' s').mpr ⟨hQ, rfl⟩, (hq s' s').mpr ⟨hR, rfl⟩⟩

theorem read_bind {f : S → Program S U ε PUnit.{u + 1}} {Q : S → S → Prop}
    (h : ∀ s, PassesIff apply (f s) (Q s)) :
    PassesIff apply (read >>= f) fun s => Q s s :=
  fun s s' => h s s s'

theorem bind_reads {p : Program S U ε α} {value : S → α} {f : α → Program S U ε PUnit.{u + 1}}
    {Q : α → S → Prop} (hp : Reads apply p value) (h : ∀ a, PassesIff apply (f a) (Q a)) :
    PassesIff apply (p >>= f) fun s => Q (value s) s := by
  intro s s'
  rw [run_bind_of_ok apply (hp s)]
  exact h (value s) s s'

theorem congr (hp : PassesIff apply p Q) (h : ∀ s, Q s ↔ R s) : PassesIff apply p R := by
  intro s s'
  rw [hp s s', h s]

end PassesIff

end Sequential

/-- Under the rely on every state read, the program issues only updates in
the guarantee, and any result it comes to satisfies Q. -/
def Guarantees (rely : S → Prop) (guarantee : U → Prop) (Q : Except ε α → Prop) :
    Program S U ε α → Prop
  | done r => Q r
  | getState next => ∀ s, rely s → (next s).Guarantees rely guarantee Q
  | updateState u next => guarantee u ∧ ∀ r, (next r).Guarantees rely guarantee Q

namespace Guarantees

variable {rely rely' : S → Prop} {guarantee guarantee' : U → Prop}

theorem bind {Q : Except ε α → Prop} {R : Except ε β → Prop} {p : Program S U ε α}
    {f : α → Program S U ε β} (hp : p.Guarantees rely guarantee Q)
    (hok : ∀ a, Q (.ok a) → (f a).Guarantees rely guarantee R)
    (herror : ∀ e, Q (.error e) → R (.error e)) :
    (p >>= f).Guarantees rely guarantee R := by
  rw [bind_def]
  induction p with
  | done r =>
    cases r with
    | ok a => exact hok a hp
    | error e => exact herror e hp
  | getState next ih => exact fun s hs => ih s (hp s hs)
  | updateState u next ih => exact ⟨hp.1, fun r => ih r (hp.2 r)⟩

theorem mono {Q R : Except ε α → Prop} {p : Program S U ε α}
    (hp : p.Guarantees rely guarantee Q) (hrely : ∀ s, rely' s → rely s)
    (hguarantee : ∀ u, guarantee u → guarantee' u) (hQ : ∀ r, Q r → R r) :
    p.Guarantees rely' guarantee' R := by
  induction p with
  | done r => exact hQ r hp
  | getState next ih => exact fun s hs => ih s (hp s (hrely s hs))
  | updateState u next ih => exact ⟨hguarantee u hp.1, fun r => ih r (hp.2 r)⟩

theorem weaken {Q : Except ε α → Prop} {p : Program S U ε α}
    (hp : p.Guarantees rely guarantee Q) (h : ∀ u, guarantee u → guarantee' u) :
    p.Guarantees rely guarantee' Q :=
  hp.mono (fun _ hs => hs) h fun _ hr => hr

/-- The rule for a bind whose results are not told apart. -/
theorem seq {p : Program S U ε α} {f : α → Program S U ε β}
    (hp : p.Guarantees rely guarantee fun _ => True)
    (hf : ∀ a, (f a).Guarantees rely guarantee fun _ => True) :
    (p >>= f).Guarantees rely guarantee fun _ => True :=
  hp.bind (fun a _ => hf a) fun _ _ => trivial

theorem read_bind {Q : Except ε β → Prop} {f : S → Program S U ε β}
    (h : ∀ s, rely s → (f s).Guarantees rely guarantee Q) :
    (read >>= f).Guarantees rely guarantee Q := h

theorem forM {γ : Type u} {f : γ → Program S U ε PUnit.{u + 1}} {xs : List γ}
    (h : ∀ x ∈ xs, (f x).Guarantees rely guarantee fun _ => True) :
    (xs.forM f).Guarantees rely guarantee fun _ => True := by
  induction xs with
  | nil => exact trivial
  | cons x xs ih =>
    exact (h x List.mem_cons_self).seq fun _ => ih fun y hy => h y (List.mem_cons_of_mem x hy)

theorem and {Q R : Except ε α → Prop} {p : Program S U ε α}
    (hp : p.Guarantees rely guarantee Q) (hp' : p.Guarantees rely' guarantee' R) :
    p.Guarantees (fun s => rely s ∧ rely' s) (fun u => guarantee u ∧ guarantee' u)
      fun r => Q r ∧ R r := by
  induction p with
  | done r => exact ⟨hp, hp'⟩
  | getState next ih => exact fun s hs => ih s (hp s hs.1) (hp' s hs.2)
  | updateState u next ih => exact ⟨⟨hp.1, hp'.1⟩, fun r => ih r (hp.2 r) (hp'.2 r)⟩

/-- A program that runs alone keeps whatever all updates in its guarantee keep. -/
theorem run_keeps {I : S → Prop} {Q : Except ε α → Prop}
    {apply : U → S → S × Except ε PUnit.{u + 1}}
    (hkeep : ∀ u s, guarantee u → I s → I (apply u s).1) {p : Program S U ε α}
    (hp : p.Guarantees I guarantee Q) {s : S} (hs : I s) : I (run apply p s).1 := by
  induction p generalizing s with
  | done r => exact hs
  | getState next ih => exact ih s (hp s hs) hs
  | updateState u next ih => exact ih _ (hp.2 _) (hkeep u s hp.1 hs)

end Guarantees

/-- A discipline on the accesses of a program. -/
structure Protocol (S U : Type u) (σ : Type v) where
  onRead : σ → S → σ
  onUpdate : σ → U → σ
  allowed : σ → U → Prop

/-- The program keeps to the protocol from the ghost value on, and any
result it comes to satisfies Q together with the last one. -/
def Follows {σ : Type v} (P : Protocol S U σ) (Q : σ → Except ε α → Prop) :
    Program S U ε α → σ → Prop
  | done r, g => Q g r
  | getState next, g => ∀ s, (next s).Follows P Q (P.onRead g s)
  | updateState u next, g => P.allowed g u ∧ ∀ r, (next r).Follows P Q (P.onUpdate g u)

section Follows

variable {σ : Type v} {P : Protocol S U σ}

theorem Follows.bind {Q : σ → Except ε α → Prop} {R : σ → Except ε β → Prop}
    {p : Program S U ε α} {f : α → Program S U ε β} {g : σ} (hp : p.Follows P Q g)
    (hok : ∀ g a, Q g (.ok a) → (f a).Follows P R g)
    (herror : ∀ g e, Q g (.error e) → R g (.error e)) : (p >>= f).Follows P R g := by
  rw [bind_def]
  induction p generalizing g with
  | done r =>
    cases r with
    | ok a => exact hok g a hp
    | error e => exact herror g e hp
  | getState next ih => exact fun s => ih s (hp s)
  | updateState u next ih => exact ⟨hp.1, fun r => ih r (hp.2 r)⟩

theorem Follows.tryCatch {Q R : σ → Except ε α → Prop} {p : Program S U ε α}
    {handle : ε → Program S U ε α} {g : σ} (hp : p.Follows P Q g)
    (hok : ∀ g a, Q g (.ok a) → R g (.ok a))
    (herror : ∀ g e, Q g (.error e) → (handle e).Follows P R g) :
    (p.tryCatch handle).Follows P R g := by
  induction p generalizing g with
  | done r =>
    cases r with
    | ok a => exact hok g a hp
    | error e => exact herror g e hp
  | getState next ih => exact fun s => ih s (hp s)
  | updateState u next ih => exact ⟨hp.1, fun r => ih r (hp.2 r)⟩

theorem Follows.read_bind {Q : σ → Except ε β → Prop} {f : S → Program S U ε β} {g : σ}
    (h : ∀ s, (f s).Follows P Q (P.onRead g s)) : (read >>= f).Follows P Q g := h

theorem Follows.weaken {Q R : σ → Except ε α → Prop} {p : Program S U ε α} {g : σ}
    (hp : p.Follows P Q g) (h : ∀ g r, Q g r → R g r) : p.Follows P R g := by
  induction p generalizing g with
  | done r => exact h g r hp
  | getState next ih => exact fun s => ih s (hp s)
  | updateState u next ih => exact ⟨hp.1, fun r => ih r (hp.2 r)⟩

/-- A program whose updates the protocol allows wherever it keeps within
some ghost values follows the protocol from any of them. -/
theorem Guarantees.follows {K : σ → Prop} {guarantee : U → Prop} {Q : Except ε α → Prop}
    (hread : ∀ g s, K g → K (P.onRead g s))
    (hupdate : ∀ g u, K g → guarantee u → P.allowed g u ∧ K (P.onUpdate g u))
    {p : Program S U ε α} (hp : p.Guarantees (fun _ => True) guarantee Q) {g : σ} (hg : K g) :
    p.Follows P (fun g r => K g ∧ Q r) g := by
  induction p generalizing g with
  | done r => exact ⟨hg, hp⟩
  | getState next ih => exact fun s => ih s (hp s trivial) (hread g s hg)
  | updateState u next ih =>
    have hnext := hupdate g u hg hp.1
    exact ⟨hnext.1, fun r => ih r (hp.2 r) hnext.2⟩

end Follows

/-- A program that issues no update. -/
def ReadOnly (p : Program S U ε α) : Prop :=
  p.Guarantees (fun _ => True) (fun _ => False) fun _ => True

theorem ReadOnly.guarantees {p : Program S U ε α} (hp : p.ReadOnly) (rely : S → Prop)
    (guarantee : U → Prop) : p.Guarantees rely guarantee fun _ => True :=
  Guarantees.mono hp (fun _ _ => trivial) (fun _ h => h.elim) fun _ _ => trivial

theorem ReadOnly.bind {p : Program S U ε α} {f : α → Program S U ε β}
    (hp : p.ReadOnly) (hf : ∀ a, (f a).ReadOnly) : (p >>= f).ReadOnly :=
  Guarantees.bind hp (fun a _ => hf a) fun _ _ => trivial

theorem ReadOnly.run_fst {p : Program S U ε α} (hp : p.ReadOnly)
    (apply : U → S → S × Except ε PUnit.{u + 1}) (s : S) : (run apply p s).1 = s := by
  induction p with
  | done r => rfl
  | getState next ih => exact ih s (hp s trivial)
  | updateState u next ih => exact hp.1.elim

theorem ReadOnly.run_bind {p : Program S U ε α} (hp : p.ReadOnly)
    (apply : U → S → S × Except ε PUnit.{u + 1}) (f : α → Program S U ε β) (s : S) :
    run apply (p >>= f) s =
      match (run apply p s).2 with
      | .ok a => run apply (f a) s
      | .error e => (s, .error e) := by
  have hs : (run apply p s).1 = s := hp.run_fst apply s
  rw [Program.run_bind]
  rcases hrun : run apply p s with ⟨s', r⟩
  rw [hrun] at hs
  cases hs
  cases r with
  | ok a => rfl
  | error e => rfl

/-- Every way to a normal end passes an update of this kind. -/
def Issues (kind : U → Prop) : Program S U ε α → Prop
  | done r => ∀ a, r ≠ .ok a
  | getState next => ∀ s, (next s).Issues kind
  | updateState u next => kind u ∨ ∀ r, (next r).Issues kind

section Issues

variable {kind : U → Prop}

theorem Issues.bind {p : Program S U ε α} (hp : p.Issues kind) (f : α → Program S U ε β) :
    (p >>= f).Issues kind := by
  rw [bind_def]
  induction p with
  | done r =>
    cases r with
    | ok a => exact absurd rfl (hp a)
    | error e => exact nofun
  | getState next ih => exact fun s => ih s (hp s)
  | updateState u next ih => exact hp.imp_right fun hnext r => ih r (hnext r)

theorem Issues.after (p : Program S U ε α) {f : α → Program S U ε β}
    (hf : ∀ a, (f a).Issues kind) : (p >>= f).Issues kind := by
  rw [bind_def]
  induction p with
  | done r =>
    cases r with
    | ok a => exact hf a
    | error e => exact nofun
  | getState next ih => exact ih
  | updateState u next ih => exact Or.inr ih

/-- A loop issues what its body issues for one of the elements. -/
theorem Issues.forM {γ : Type u} {f : γ → Program S U ε PUnit.{u + 1}} {x : γ} {xs : List γ}
    (hx : x ∈ xs) (h : (f x).Issues kind) : (xs.forM f).Issues kind := by
  induction xs with
  | nil => cases hx
  | cons y xs ih =>
    rcases List.mem_cons.mp hx with rfl | hx
    · exact h.bind _
    · exact Issues.after (f y) fun _ => ih hx

end Issues

section Within

variable {T V : Type u}

/-- A program over a part of a larger store. -/
def within (view : T → S) (embed : U → V) : Program S U ε α → Program T V ε α
  | done r => done r
  | getState next => getState fun t => (next (view t)).within view embed
  | updateState u next => updateState (embed u) fun r => (next r).within view embed

/-- Alone it does to that part what the program does, and nothing to the rest. -/
theorem run_within (put : S → T → T) {view : T → S} {embed : U → V}
    {apply : U → S → S × Except ε PUnit.{u + 1}} {apply' : V → T → T × Except ε PUnit.{u + 1}}
    (happly : ∀ u t, apply' (embed u) t = (put (apply u (view t)).1 t, (apply u (view t)).2))
    (hview : ∀ s t, view (put s t) = s) (hput : ∀ s s' t, put s (put s' t) = put s t)
    (hsame : ∀ t, put (view t) t = t) (p : Program S U ε α) (t : T) :
    run apply' (p.within view embed) t =
      (put (run apply p (view t)).1 t, (run apply p (view t)).2) := by
  induction p generalizing t with
  | done r =>
    change (t, r) = (put (view t) t, r)
    rw [hsame]
  | getState next ih => exact ih (view t) t
  | updateState u next ih =>
    change run apply' ((next (apply' (embed u) t).2).within view embed) (apply' (embed u) t).1 = _
    rw [happly, ih, hview, hput]
    rfl

/-- All its updates are ones of the part. -/
theorem within_guarantees {view : T → S} {embed : U → V} {guarantee : V → Prop}
    (h : ∀ u, guarantee (embed u)) (p : Program S U ε α) :
    (p.within view embed).Guarantees (fun _ => True) guarantee fun _ => True := by
  induction p with
  | done r => exact trivial
  | getState next ih => exact fun t _ => ih (view t)
  | updateState u next ih => exact ⟨h u, ih⟩

end Within

/-- The program with its result thrown away, as a request nobody waits for. -/
def detach (p : Program S U ε α) : Program S U ε PUnit.{u + 1} := p >>= fun _ => pure ⟨⟩

@[simp] theorem run_detach_fst (apply : U → S → S × Except ε PUnit.{u + 1})
    (p : Program S U ε α) (s : S) : (run apply p.detach s).1 = (run apply p s).1 := by
  unfold detach
  rw [run_bind]
  rcases run apply p s with ⟨s', r⟩
  cases r with
  | ok a => rfl
  | error e => rfl

end Program
end Bundler.AsyncPrograms
