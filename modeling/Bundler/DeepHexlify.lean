import Bundler.AsyncPrograms
import Bundler.DataModel
import Bundler.HexStrings
import Mathlib.Data.Rat.Defs

/-!
The values a request brings and a response carries, and deepHexlify, which
turns every number inside a value into hex. Ethers' toBeHex comes as a
parameter. It throws on some numbers, and one of them anywhere in a value is
enough for deepHexlify to throw.
-/
namespace Bundler.DeepHexlify

open AsyncPrograms DataModel HexStrings

/-- A number or a bigint. -/
inductive Numeric
  | number (value : ℚ)
  | bigint (value : ℤ)
  deriving DecidableEq, Repr

/-- A JavaScript value. An object is the list of its own properties, and a
number is finite. -/
inductive JsValue
  | function
  | undefined
  | null
  | string (text : String)
  | boolean (value : Bool)
  | numeric (n : Numeric)
  | array (members : List JsValue)
  | object (entries : List (String × JsValue))

/-- The digits without the zero that toBeHex puts before an odd number of
them, as replace(/^0x0/, '0x') leaves them. -/
def stripZero (hex : String) : String :=
  match hex.toList with
  | '0' :: 'x' :: '0' :: digits => String.ofList ('0' :: 'x' :: digits)
  | _ => hex

/-- Assigning to __proto__ sets no own property. -/
def assignEntry (key : String) (value : JsValue) (entries : List (String × JsValue)) :
    List (String × JsValue) :=
  if key = "__proto__" then entries else (key, value) :: entries

section Hexlify

variable (toBeHex : Numeric → Except JsError String)

mutual

def deepHexlify : JsValue → Except JsError JsValue
  | .function => .ok .undefined
  | .undefined => .ok .undefined
  | .null => .ok .null
  | .string text => .ok (.string text)
  | .boolean value => .ok (.boolean value)
  | .numeric n => do
      let hex ← toBeHex n
      pure (.string (stripZero hex))
  | .array members => do
      let members ← hexlifyMembers members
      pure (.array members)
  | .object entries => do
      let entries ← hexlifyEntries entries
      pure (.object entries)

def hexlifyMembers : List JsValue → Except JsError (List JsValue)
  | [] => .ok []
  | member :: members => do
      let member ← deepHexlify member
      let members ← hexlifyMembers members
      pure (member :: members)

def hexlifyEntries : List (String × JsValue) → Except JsError (List (String × JsValue))
  | [] => .ok []
  | (key, value) :: entries => do
      let value ← deepHexlify value
      let entries ← hexlifyEntries entries
      pure (assignEntry key value entries)

end

end Hexlify

mutual

/-- The numbers anywhere in a value. -/
def numerics : JsValue → List Numeric
  | .numeric n => [n]
  | .array members => memberNumerics members
  | .object entries => entryNumerics entries
  | _ => []

def memberNumerics : List JsValue → List Numeric
  | [] => []
  | member :: members => numerics member ++ memberNumerics members

def entryNumerics : List (String × JsValue) → List Numeric
  | [] => []
  | (_, value) :: entries => numerics value ++ entryNumerics entries

end

/-- The value as ethers reads it, if it is an unsigned integer that its type
holds exactly. -/
def Numeric.toUint : Numeric → Option ℕ
  | .number value =>
      if value.den = 1 ∧ 0 ≤ value.num ∧ value.num ≤ 9007199254740991 then some value.num.toNat
      else none
  | .bigint value => if 0 ≤ value then some value.toNat else none

/-- What ethers documents of toBeHex. -/
structure Documented (toBeHex : Numeric → Except JsError String) : Prop where
  uint : ∀ n value, n.toUint = some value →
    toBeHex n = .ok (String.ofList ('0' :: 'x' :: evenDigits value))
  other : ∀ n, n.toUint = none → ∃ e, toBeHex n = .error e

/-- A toBeHex that does just that. -/
def documentedToBeHex (n : Numeric) : Except JsError String :=
  match n.toUint with
  | some value => .ok (String.ofList ('0' :: 'x' :: evenDigits value))
  | none => .error (.other none none)

theorem documented : Documented documentedToBeHex where
  uint n value h := by
    unfold documentedToBeHex
    rw [h]
  other n h := by
    unfold documentedToBeHex
    rw [h]
    exact ⟨_, rfl⟩

section Throws

variable {toBeHex : Numeric → Except JsError String}

/-- Of two computations in a row both have to return. -/
theorem exists_bind_iff {α β : Type} {x : Except JsError α} {f : α → Except JsError β} {P Q : Prop}
    (hx : (∃ a, x = .ok a) ↔ P) (hf : ∀ a, (∃ b, f a = .ok b) ↔ Q) :
    (∃ b, x >>= f = .ok b) ↔ P ∧ Q := by
  simp only [except_bind_eq_ok_iff]
  constructor
  · rintro ⟨b, a, ha, hb⟩
    exact ⟨hx.mp ⟨a, ha⟩, (hf a).mp ⟨b, hb⟩⟩
  · rintro ⟨hP, hQ⟩
    obtain ⟨a, ha⟩ := hx.mpr hP
    obtain ⟨b, hb⟩ := (hf a).mpr hQ
    exact ⟨b, a, ha, hb⟩

/-- The same when the second one cannot throw. -/
theorem exists_bind_pure_iff {α β : Type} {x : Except JsError α} {f : α → β} {P : Prop}
    (hx : (∃ a, x = .ok a) ↔ P) : (∃ b, (do let a ← x; pure (f a)) = Except.ok b) ↔ P := by
  have hboth := exists_bind_iff (f := fun a => pure (f a)) hx fun a => iff_true_intro ⟨f a, rfl⟩
  rw [hboth, and_true]

mutual

theorem deepHexlify_ok_iff (value : JsValue) :
    (∃ result, deepHexlify toBeHex value = .ok result) ↔
      ∀ n ∈ numerics value, ∃ hex, toBeHex n = .ok hex := by
  cases value with
  | numeric n =>
    rw [numerics, List.forall_mem_singleton]
    exact exists_bind_pure_iff Iff.rfl
  | array members => exact exists_bind_pure_iff (hexlifyMembers_ok_iff members)
  | object entries => exact exists_bind_pure_iff (hexlifyEntries_ok_iff entries)
  | _ => exact iff_of_true ⟨_, rfl⟩ nofun

theorem hexlifyMembers_ok_iff (members : List JsValue) :
    (∃ results, hexlifyMembers toBeHex members = .ok results) ↔
      ∀ n ∈ memberNumerics members, ∃ hex, toBeHex n = .ok hex := by
  cases members with
  | nil => exact iff_of_true ⟨_, rfl⟩ nofun
  | cons member members =>
    rw [memberNumerics, List.forall_mem_append]
    exact exists_bind_iff (deepHexlify_ok_iff member)
      fun _ => exists_bind_pure_iff (hexlifyMembers_ok_iff members)

theorem hexlifyEntries_ok_iff (entries : List (String × JsValue)) :
    (∃ results, hexlifyEntries toBeHex entries = .ok results) ↔
      ∀ n ∈ entryNumerics entries, ∃ hex, toBeHex n = .ok hex := by
  match entries with
  | [] => exact iff_of_true ⟨_, rfl⟩ nofun
  | (key, value) :: entries =>
    rw [entryNumerics, List.forall_mem_append]
    exact exists_bind_iff (deepHexlify_ok_iff value)
      fun _ => exists_bind_pure_iff (hexlifyEntries_ok_iff entries)

end

/-- Every number inside is an unsigned integer its type holds. -/
def Hexlifiable (value : JsValue) : Prop := ∀ n ∈ numerics value, n.toUint.isSome

theorem Documented.ok_iff (h : Documented toBeHex) (n : Numeric) :
    (∃ hex, toBeHex n = .ok hex) ↔ n.toUint.isSome := by
  cases hn : n.toUint with
  | some value => exact iff_of_true ⟨_, h.uint n value hn⟩ rfl
  | none =>
    obtain ⟨e, he⟩ := h.other n hn
    refine iff_of_false ?_ nofun
    rintro ⟨hex, hhex⟩
    rw [he] at hhex
    cases hhex

theorem Documented.deepHexlify_ok_iff (h : Documented toBeHex) (value : JsValue) :
    (∃ result, deepHexlify toBeHex value = .ok result) ↔ Hexlifiable value :=
  (DeepHexlify.deepHexlify_ok_iff value).trans (forall₂_congr fun n _ => h.ok_iff n)

end Throws

end Bundler.DeepHexlify
