import Bundler.Runs
import Mathlib.Data.List.Nodup
import Mathlib.Data.List.TakeDrop

/-!
Queues along runs. A step serves elements from the front of a queue, drops
others where they stand, and lets new ones in at the end. Whatever a run has
served, followed by what still waits, is then in order a part of what was
waiting at first and has arrived since; when no step drops anything it is
all of it.
-/
namespace Bundler.Queues

open Runs

universe u v w

section Lists

variable {α : Type u} {κ : Type v} [DecidableEq κ] {key : α → κ}

/-- Without the elements taken from the front of a list under distinct keys,
the rest of the list is left. -/
theorem filter_not_mem_take {l : List α} (hnodup : (l.map key).Nodup) (n : ℕ) :
    l.filter (fun x => key x ∉ (l.take n).map key) = l.drop n := by
  have hkeys : ((l.take n).map key ++ (l.drop n).map key).Nodup := by
    rwa [← List.map_append, List.take_append_drop]
  have hapart := (List.nodup_append'.mp hkeys).2.2
  generalize htaken : (l.take n).map key = taken at hapart
  have hfront : (l.take n).filter (fun x => key x ∉ taken) = [] := by
    refine List.filter_eq_nil_iff.mpr ?_
    intro x hx
    have hmem : key x ∈ taken := htaken ▸ List.mem_map_of_mem hx
    simpa using hmem
  have hback : (l.drop n).filter (fun x => key x ∉ taken) = l.drop n := by
    refine List.filter_eq_self.mpr ?_
    intro x hx
    exact decide_eq_true fun hmem => hapart hmem (List.mem_map_of_mem hx)
  calc l.filter (fun x => key x ∉ taken)
      = (l.take n ++ l.drop n).filter (fun x => key x ∉ taken) := by rw [List.take_append_drop]
    _ = l.drop n := by rw [List.filter_append, hfront, hback, List.nil_append]

end Lists

section Runs

variable {S : Type u} {A : Type v} {B : Type w} (step : S → A → S)

/-- What the steps of a run put out, one after the other. -/
def emitted (out : S → A → List B) : S → List A → List B
  | _, [] => []
  | s, a :: as => out s a ++ emitted out (step s a) as

@[simp] theorem emitted_nil (out : S → A → List B) (s : S) : emitted step out s [] = [] := rfl

@[simp] theorem emitted_cons (out : S → A → List B) (s : S) (a : A) (as : List A) :
    emitted step out s (a :: as) = out s a ++ emitted step out (step s a) as := rfl

variable (queue : S → List B) (serves arrives : S → A → List B)

/-- The step serves from the front and lets in at the end; others may drop out. -/
def InOrder (s : S) (a : A) : Prop :=
  (serves s a ++ queue (step s a)).Sublist (queue s ++ arrives s a)

/-- The step does so without dropping any. -/
def Lossless (s : S) (a : A) : Prop :=
  serves s a ++ queue (step s a) = queue s ++ arrives s a

variable {step queue serves arrives} {s : S} {as : List A}

theorem Lossless.inOrder {a : A} (h : Lossless step queue serves arrives s a) :
    InOrder step queue serves arrives s a := by
  unfold InOrder
  rw [h]

/-- What was served and what is left are in the order of arrival, and nothing
is there more often than it arrived. -/
theorem served_sublist (h : AllSteps step (InOrder step queue serves arrives) s as) :
    (emitted step serves s as ++ queue (run step s as)).Sublist
      (queue s ++ emitted step arrives s as) := by
  induction as generalizing s with
  | nil => simp
  | cons a as ih =>
    have hrest := (ih h.2).append_left (serves s a)
    have hstep := List.Sublist.append_right h.1 (emitted step arrives (step s a) as)
    rw [List.append_assoc] at hstep
    simpa only [emitted_cons, run_cons, List.append_assoc] using hrest.trans hstep

/-- Without losses nothing is missing either. -/
theorem served_eq (h : AllSteps step (Lossless step queue serves arrives) s as) :
    emitted step serves s as ++ queue (run step s as) =
      queue s ++ emitted step arrives s as := by
  induction as generalizing s with
  | nil => simp
  | cons a as ih =>
    have hstep : serves s a ++ queue (step s a) = queue s ++ arrives s a := h.1
    calc emitted step serves s (a :: as) ++ queue (run step s (a :: as))
        = serves s a ++ (queue (step s a) ++ emitted step arrives (step s a) as) := by
          rw [emitted_cons, run_cons, List.append_assoc, ih h.2]
      _ = queue s ++ emitted step arrives s (a :: as) := by
          rw [← List.append_assoc, hstep, emitted_cons, List.append_assoc]

end Runs

end Bundler.Queues
