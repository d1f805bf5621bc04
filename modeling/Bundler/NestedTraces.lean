import Mathlib.Data.List.Basic

/-!
Traces of nested calls. Every call is recorded when it starts and when it
returns. An exit belongs to the last enter that is still open, so matching them
with a stack gives each call with its own exit, in the order in which they
return.
-/
namespace Bundler.NestedTraces

variable {ε χ : Type}

inductive CallTree (ε χ : Type)
  | node (enter : ε) (inner : List (CallTree ε χ)) (exit : χ)

mutual

/-- What is recorded of a call and the calls inside it. -/
def records : CallTree ε χ → List (ε ⊕ χ)
  | .node enter inner exit => .inl enter :: (forestRecords inner ++ [.inr exit])

def forestRecords : List (CallTree ε χ) → List (ε ⊕ χ)
  | [] => []
  | tree :: forest => records tree ++ forestRecords forest

end

mutual

/-- The calls of a tree, an inner one before its outer one. -/
def returned : CallTree ε χ → List (ε × χ)
  | .node enter inner exit => forestReturned inner ++ [(enter, exit)]

def forestReturned : List (CallTree ε χ) → List (ε × χ)
  | [] => []
  | tree :: forest => returned tree ++ forestReturned forest

end

/-- The exits with the enters they belong to, and the enters that are open,
last one first. -/
structure Matching (ε χ : Type) where
  matched : List (Option ε × χ)
  opened : List ε

namespace Matching

def record (m : Matching ε χ) : ε ⊕ χ → Matching ε χ
  | .inl enter => ⟨m.matched, enter :: m.opened⟩
  | .inr exit => ⟨m.matched ++ [(m.opened.head?, exit)], m.opened.tail⟩

end Matching

/-- The exits of a trace with their enters. -/
def matchExits (trace : List (ε ⊕ χ)) : List (Option ε × χ) :=
  (trace.foldl Matching.record ⟨[], []⟩).matched

def closed (call : ε × χ) : Option ε × χ := (some call.1, call.2)

mutual

/-- A call leaves the stack as it was, with its calls matched. -/
theorem foldl_records (tree : CallTree ε χ) (m : Matching ε χ) :
    (records tree).foldl Matching.record m =
      ⟨m.matched ++ (returned tree).map closed, m.opened⟩ := by
  match tree with
  | .node enter inner exit =>
    rw [records, List.foldl_cons, List.foldl_append, foldl_forestRecords, returned,
      List.map_append, ← List.append_assoc]
    rfl

theorem foldl_forestRecords (forest : List (CallTree ε χ)) (m : Matching ε χ) :
    (forestRecords forest).foldl Matching.record m =
      ⟨m.matched ++ (forestReturned forest).map closed, m.opened⟩ := by
  match forest with
  | [] =>
    rw [forestReturned, List.map_nil, List.append_nil]
    rfl
  | tree :: forest =>
    rw [forestRecords, List.foldl_append, foldl_records, foldl_forestRecords, forestReturned,
      List.map_append, List.append_assoc]

end

/-- Of calls one after another, with one more exit behind them, each is matched
with its own exit, and the last exit has none. -/
theorem matchExits_forest (forest : List (CallTree ε χ)) (exit : χ) :
    matchExits (forestRecords forest ++ [.inr exit]) =
      (forestReturned forest).map closed ++ [(none, exit)] := by
  unfold matchExits
  rw [List.foldl_append, foldl_forestRecords]
  rfl

end Bundler.NestedTraces
