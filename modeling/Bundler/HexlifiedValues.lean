import Bundler.BigIntText
import Bundler.DeepHexlify

/-!
What deepHexlify makes of plain data, whose numbers are unsigned integers. Each
number becomes a quantity, which has no zero before its digits and reads back
as the number, and the rest is kept. Only a member named __proto__ is lost:
assigning to that name makes no member.
-/
namespace Bundler.HexlifiedValues

open AsyncPrograms BigIntText DataModel DeepHexlify HexStrings

section Quantities

/-- Lower-case hex digits after 0x; the first is a zero only when it is alone. -/
def IsCanonical (text : String) : Prop :=
  text = "0x0" ∨ ∃ digit digits, text.toList = '0' :: 'x' :: digit :: digits ∧ digit ≠ '0' ∧
    ∀ c ∈ digit :: digits, c ∈ alphabet

/-- The text is the quantity that stands for the number. -/
structure IsQuantity (value : ℕ) (text : String) : Prop where
  canonical : IsCanonical text
  reads : bigInt text = some (value : ℤ)

theorem exists_digit {value : ℕ} {c : Char} (h : c ∈ Nat.toDigits 16 value) :
    ∃ digit < 16, Nat.digitChar digit = c := by
  induction value using Nat.strongRecOn with
  | ind value ih =>
    by_cases hlast : value < 16
    · rw [Nat.toDigits_of_lt_base hlast, List.mem_singleton] at h
      exact ⟨value, hlast, h.symm⟩
    · rw [toDigits_of_le (by omega) (by omega)] at h
      rcases List.mem_append.mp h with hfirst | hc
      · exact ih (value / 16) (by omega) hfirst
      · exact ⟨value % 16, by omega, (List.mem_singleton.mp hc).symm⟩

/-- The first digit of a positive number is no zero. -/
theorem toDigits_eq_cons {value : ℕ} (h : 0 < value) :
    ∃ digit digits, Nat.toDigits 16 value = digit :: digits ∧ digit ≠ '0' := by
  induction value using Nat.strongRecOn with
  | ind value ih =>
    by_cases hlast : value < 16
    · refine ⟨value.digitChar, [], Nat.toDigits_of_lt_base hlast, ?_⟩
      interval_cases value <;> decide
    · obtain ⟨digit, digits, hdigits, hne⟩ := ih (value / 16) (by omega) (by omega)
      refine ⟨digit, digits ++ [(value % 16).digitChar], ?_, hne⟩
      rw [toDigits_of_le (by omega) (by omega), hdigits, List.cons_append]

theorem digitChar_mem_alphabet {digit : ℕ} (h : digit < 16) : digit.digitChar ∈ alphabet := by
  interval_cases digit <;> decide

theorem stripZero_of_ne {digit : Char} (h : digit ≠ '0') (digits : List Char) :
    stripZero (String.ofList ('0' :: 'x' :: digit :: digits)) =
      String.ofList ('0' :: 'x' :: digit :: digits) := by
  unfold stripZero
  rw [String.toList_ofList]
  split
  · rename_i rest heq
    simp only [List.cons.injEq, true_and] at heq
    exact absurd heq.1 h
  · rfl

/-- The zero is stripped where it was put, and nowhere else. -/
theorem stripZero_evenDigits (value : ℕ) :
    stripZero (String.ofList ('0' :: 'x' :: evenDigits value)) =
      String.ofList ('0' :: 'x' :: Nat.toDigits 16 value) := by
  unfold evenDigits
  by_cases hodd : (Nat.toDigits 16 value).length % 2 = 1
  · dsimp only
    rw [if_pos hodd]
    unfold stripZero
    rw [String.toList_ofList]
    rfl
  · have hpos : 0 < value := by
      by_contra hzero
      obtain rfl : value = 0 := by omega
      exact hodd rfl
    obtain ⟨digit, digits, hdigits, hne⟩ := toDigits_eq_cons hpos
    dsimp only
    rw [if_neg hodd, hdigits, stripZero_of_ne hne]

theorem isQuantity_toDigits (value : ℕ) :
    IsQuantity value (String.ofList ('0' :: 'x' :: Nat.toDigits 16 value)) where
  canonical := by
    by_cases hzero : value = 0
    · left
      rw [hzero]
      rfl
    · right
      obtain ⟨digit, digits, hdigits, hne⟩ := toDigits_eq_cons (by omega : 0 < value)
      refine ⟨digit, digits, by rw [String.toList_ofList, hdigits], hne, ?_⟩
      intro c hc
      rw [← hdigits] at hc
      obtain ⟨number, hnumber, rfl⟩ := exists_digit hc
      exact digitChar_mem_alphabet hnumber
  reads := by
    have hplain : ∀ c ∈ '0' :: 'x' :: Nat.toDigits 16 value, isWhiteSpace c = false := by
      refine List.forall_mem_cons.mpr ⟨rfl, List.forall_mem_cons.mpr ⟨rfl, ?_⟩⟩
      intro c hc
      obtain ⟨number, hnumber, rfl⟩ := exists_digit hc
      exact digitChar_not_whiteSpace hnumber
    rw [bigInt_ofList hplain]
    change readNatural 16 (Nat.toDigits 16 value) = some (value : ℤ)
    unfold readNatural
    rw [if_neg Nat.toDigits_ne_nil, readNumber_toDigits (by omega) (by omega)]
    rfl

/-- Different numbers have different quantities. -/
theorem IsQuantity.inj {value other : ℕ} {text : String} (h : IsQuantity value text)
    (hother : IsQuantity other text) : value = other := by
  have hsame := h.reads
  rw [hother.reads, Option.some.injEq] at hsame
  omega

end Quantities

section Values

mutual

/-- No function or undefined inside, and every number an unsigned integer that
its type holds. -/
def IsPlain : JsValue → Prop
  | .function => False
  | .undefined => False
  | .null => True
  | .string _ => True
  | .boolean _ => True
  | .numeric n => n.toUint.isSome
  | .array members => ArePlain members
  | .object entries => HavePlain entries

def ArePlain : List JsValue → Prop
  | [] => True
  | member :: members => IsPlain member ∧ ArePlain members

def HavePlain : List (String × JsValue) → Prop
  | [] => True
  | (_, value) :: entries => IsPlain value ∧ HavePlain entries

end

mutual

/-- The keys of the objects anywhere in a value. -/
def keys : JsValue → List String
  | .array members => memberKeys members
  | .object entries => entryKeys entries
  | _ => []

def memberKeys : List JsValue → List String
  | [] => []
  | member :: members => keys member ++ memberKeys members

def entryKeys : List (String × JsValue) → List String
  | [] => []
  | (key, value) :: entries => key :: keys value ++ entryKeys entries

end

mutual

/-- The second value is the first one with its numbers as quantities. -/
inductive Encodes : JsValue → JsValue → Prop
  | null : Encodes .null .null
  | string (text : String) : Encodes (.string text) (.string text)
  | boolean (value : Bool) : Encodes (.boolean value) (.boolean value)
  | numeric {n : Numeric} {value : ℕ} {text : String} (hvalue : n.toUint = some value)
      (htext : IsQuantity value text) : Encodes (.numeric n) (.string text)
  | array {members results : List JsValue} (h : EncodesMembers members results) :
      Encodes (.array members) (.array results)
  | object {entries results : List (String × JsValue)} (h : EncodesEntries entries results) :
      Encodes (.object entries) (.object results)

inductive EncodesMembers : List JsValue → List JsValue → Prop
  | nil : EncodesMembers [] []
  | cons {member result : JsValue} {members results : List JsValue} (h : Encodes member result)
      (hrest : EncodesMembers members results) :
      EncodesMembers (member :: members) (result :: results)

/-- Every entry keeps its key. -/
inductive EncodesEntries : List (String × JsValue) → List (String × JsValue) → Prop
  | nil : EncodesEntries [] []
  | cons {key : String} {value result : JsValue} {entries results : List (String × JsValue)}
      (h : Encodes value result) (hrest : EncodesEntries entries results) :
      EncodesEntries ((key, value) :: entries) ((key, result) :: results)

end

/-- The value is encoded, its encoding is not encoded again, and different
numbers in it have different texts. -/
structure EncodedFaithfully (toBeHex : Numeric → Except JsError String) (value : JsValue) :
    Prop where
  encoded : ∃ result, deepHexlify toBeHex value = .ok result ∧ Encodes value result ∧
    deepHexlify toBeHex result = .ok result
  distinct : ∀ n ∈ numerics value, ∀ other ∈ numerics value,
    deepHexlify toBeHex (.numeric n) = deepHexlify toBeHex (.numeric other) →
      n.toUint = other.toUint

end Values

section Encoding

variable {toBeHex : Numeric → Except JsError String}

theorem deepHexlify_numeric (hdoc : Documented toBeHex) {n : Numeric} {value : ℕ}
    (hvalue : n.toUint = some value) :
    deepHexlify toBeHex (.numeric n) =
      .ok (.string (String.ofList ('0' :: 'x' :: Nat.toDigits 16 value))) := by
  rw [deepHexlify, hdoc.uint n value hvalue, ← stripZero_evenDigits]
  rfl

mutual

/-- Without a member named __proto__ plain data is encoded. -/
theorem exists_encoded (hdoc : Documented toBeHex) (value : JsValue) (hplain : IsPlain value)
    (hkeys : "__proto__" ∉ keys value) :
    ∃ result, deepHexlify toBeHex value = .ok result ∧ Encodes value result := by
  cases value with
  | function => exact absurd hplain id
  | undefined => exact absurd hplain id
  | null => exact ⟨.null, rfl, .null⟩
  | string text => exact ⟨.string text, rfl, .string text⟩
  | boolean value => exact ⟨.boolean value, rfl, .boolean value⟩
  | numeric n =>
    obtain ⟨value, hvalue⟩ := Option.isSome_iff_exists.mp hplain
    exact ⟨_, deepHexlify_numeric hdoc hvalue, .numeric hvalue (isQuantity_toDigits value)⟩
  | array members =>
    obtain ⟨results, hresults, hencodes⟩ := exists_encodedMembers hdoc members hplain hkeys
    refine ⟨.array results, ?_, .array hencodes⟩
    rw [deepHexlify, hresults]
    rfl
  | object entries =>
    obtain ⟨results, hresults, hencodes⟩ := exists_encodedEntries hdoc entries hplain hkeys
    refine ⟨.object results, ?_, .object hencodes⟩
    rw [deepHexlify, hresults]
    rfl

theorem exists_encodedMembers (hdoc : Documented toBeHex) (members : List JsValue)
    (hplain : ArePlain members) (hkeys : "__proto__" ∉ memberKeys members) :
    ∃ results, hexlifyMembers toBeHex members = .ok results ∧ EncodesMembers members results := by
  cases members with
  | nil => exact ⟨[], rfl, .nil⟩
  | cons member members =>
    rw [memberKeys, List.mem_append, not_or] at hkeys
    obtain ⟨result, hresult, hencodes⟩ := exists_encoded hdoc member hplain.1 hkeys.1
    obtain ⟨results, hresults, hrest⟩ := exists_encodedMembers hdoc members hplain.2 hkeys.2
    refine ⟨result :: results, ?_, .cons hencodes hrest⟩
    rw [hexlifyMembers, hresult, hresults]
    rfl

theorem exists_encodedEntries (hdoc : Documented toBeHex) (entries : List (String × JsValue))
    (hplain : HavePlain entries) (hkeys : "__proto__" ∉ entryKeys entries) :
    ∃ results, hexlifyEntries toBeHex entries = .ok results ∧ EncodesEntries entries results := by
  match entries with
  | [] => exact ⟨[], rfl, .nil⟩
  | (key, value) :: entries =>
    rw [entryKeys, List.cons_append, List.mem_cons, List.mem_append, not_or, not_or] at hkeys
    obtain ⟨hkey, hvalue, hentries⟩ := hkeys
    obtain ⟨result, hresult, hencodes⟩ := exists_encoded hdoc value hplain.1 hvalue
    obtain ⟨results, hresults, hrest⟩ := exists_encodedEntries hdoc entries hplain.2 hentries
    refine ⟨(key, result) :: results, ?_, .cons hencodes hrest⟩
    rw [hexlifyEntries, hresult, hresults]
    change Except.ok (assignEntry key result results) = _
    unfold assignEntry
    rw [if_neg (Ne.symm hkey)]

end

mutual

/-- An encoding has no numbers, so it is encoded as itself. -/
theorem deepHexlify_encoding {value result : JsValue} (h : Encodes value result)
    (hkeys : "__proto__" ∉ keys value) : deepHexlify toBeHex result = .ok result := by
  cases h with
  | null => rfl
  | string text => rfl
  | boolean value => rfl
  | numeric hvalue htext => rfl
  | array h =>
    rw [deepHexlify, hexlifyMembers_encoding h hkeys]
    rfl
  | object h =>
    rw [deepHexlify, hexlifyEntries_encoding h hkeys]
    rfl

theorem hexlifyMembers_encoding {members results : List JsValue}
    (h : EncodesMembers members results) (hkeys : "__proto__" ∉ memberKeys members) :
    hexlifyMembers toBeHex results = .ok results := by
  cases h with
  | nil => rfl
  | cons h hrest =>
    rw [memberKeys, List.mem_append, not_or] at hkeys
    rw [hexlifyMembers, deepHexlify_encoding h hkeys.1, hexlifyMembers_encoding hrest hkeys.2]
    rfl

theorem hexlifyEntries_encoding {entries results : List (String × JsValue)}
    (h : EncodesEntries entries results) (hkeys : "__proto__" ∉ entryKeys entries) :
    hexlifyEntries toBeHex results = .ok results := by
  cases h with
  | nil => rfl
  | @cons key _ result _ results h hrest =>
    rw [entryKeys, List.cons_append, List.mem_cons, List.mem_append, not_or, not_or] at hkeys
    obtain ⟨hkey, hvalue, hentries⟩ := hkeys
    rw [hexlifyEntries, deepHexlify_encoding h hvalue, hexlifyEntries_encoding hrest hentries]
    change Except.ok (assignEntry key result results) = _
    unfold assignEntry
    rw [if_neg (Ne.symm hkey)]

end

theorem toUint_eq_of_same (hdoc : Documented toBeHex) {n other : Numeric} (hn : n.toUint.isSome)
    (hother : other.toUint.isSome)
    (h : deepHexlify toBeHex (.numeric n) = deepHexlify toBeHex (.numeric other)) :
    n.toUint = other.toUint := by
  obtain ⟨value, hvalue⟩ := Option.isSome_iff_exists.mp hn
  obtain ⟨number, hnumber⟩ := Option.isSome_iff_exists.mp hother
  rw [deepHexlify_numeric hdoc hvalue, deepHexlify_numeric hdoc hnumber] at h
  have hquantity := isQuantity_toDigits value
  rw [JsValue.string.inj (Except.ok.inj h)] at hquantity
  rw [hvalue, hnumber, hquantity.inj (isQuantity_toDigits number)]

mutual

theorem hexlifiable_of_plain (value : JsValue) (h : IsPlain value) :
    ∀ n ∈ numerics value, n.toUint.isSome := by
  cases value with
  | function => exact nofun
  | undefined => exact nofun
  | null => exact nofun
  | string text => exact nofun
  | boolean value => exact nofun
  | numeric n => exact List.forall_mem_singleton.mpr h
  | array members => exact memberHexlifiable_of_plain members h
  | object entries => exact entryHexlifiable_of_plain entries h

theorem memberHexlifiable_of_plain (members : List JsValue) (h : ArePlain members) :
    ∀ n ∈ memberNumerics members, n.toUint.isSome := by
  cases members with
  | nil => exact nofun
  | cons member members =>
    exact List.forall_mem_append.mpr
      ⟨hexlifiable_of_plain member h.1, memberHexlifiable_of_plain members h.2⟩

theorem entryHexlifiable_of_plain (entries : List (String × JsValue)) (h : HavePlain entries) :
    ∀ n ∈ entryNumerics entries, n.toUint.isSome := by
  match entries with
  | [] => exact nofun
  | (key, value) :: entries =>
    exact List.forall_mem_append.mpr
      ⟨hexlifiable_of_plain value h.1, entryHexlifiable_of_plain entries h.2⟩

end

end Encoding

section Members

variable {toBeHex : Numeric → Except JsError String}

theorem EncodesEntries.length_eq {entries results : List (String × JsValue)}
    (h : EncodesEntries entries results) : results.length = entries.length := by
  induction entries generalizing results with
  | nil =>
    cases h
    rfl
  | cons entry entries ih =>
    cases h with
    | cons _ hrest => rw [List.length_cons, List.length_cons, ih hrest]

/-- What the entries become: the first is added unless assigning drops it. -/
theorem hexlifyEntries_cons {key : String} {value : JsValue}
    {entries results : List (String × JsValue)}
    (h : hexlifyEntries toBeHex ((key, value) :: entries) = .ok results) :
    ∃ result rest, deepHexlify toBeHex value = .ok result ∧
      hexlifyEntries toBeHex entries = .ok rest ∧ assignEntry key result rest = results := by
  rw [hexlifyEntries] at h
  obtain ⟨result, hresult, h⟩ := except_bind_eq_ok_iff.mp h
  obtain ⟨rest, hrest, h⟩ := except_bind_eq_ok_iff.mp h
  exact ⟨result, rest, hresult, hrest, Except.ok.inj h⟩

theorem length_hexlifyEntries_le {entries results : List (String × JsValue)}
    (h : hexlifyEntries toBeHex entries = .ok results) : results.length ≤ entries.length := by
  induction entries generalizing results with
  | nil =>
    rw [← Except.ok.inj h]
  | cons entry entries ih =>
    obtain ⟨result, rest, _, hrest, hresults⟩ := hexlifyEntries_cons h
    have hle := ih hrest
    rw [← hresults]
    unfold assignEntry
    split
    · rw [List.length_cons]
      omega
    · rw [List.length_cons, List.length_cons]
      omega

mutual

/-- A member named __proto__ would be missing from the encoding. -/
theorem not_mem_keys {value result : JsValue} (hresult : deepHexlify toBeHex value = .ok result)
    (h : Encodes value result) : "__proto__" ∉ keys value := by
  cases h with
  | null => exact nofun
  | string text => exact nofun
  | boolean value => exact nofun
  | numeric hvalue htext => exact nofun
  | array h =>
    rw [deepHexlify] at hresult
    obtain ⟨results, hresults, heq⟩ := except_bind_eq_ok_iff.mp hresult
    rw [← JsValue.array.inj (Except.ok.inj heq)] at h
    exact not_mem_memberKeys hresults h
  | object h =>
    rw [deepHexlify] at hresult
    obtain ⟨results, hresults, heq⟩ := except_bind_eq_ok_iff.mp hresult
    rw [← JsValue.object.inj (Except.ok.inj heq)] at h
    exact not_mem_entryKeys hresults h

theorem not_mem_memberKeys {members results : List JsValue}
    (hresults : hexlifyMembers toBeHex members = .ok results)
    (h : EncodesMembers members results) : "__proto__" ∉ memberKeys members := by
  cases h with
  | nil => exact nofun
  | cons h hrest =>
    rw [hexlifyMembers] at hresults
    obtain ⟨result, hresult, hresults⟩ := except_bind_eq_ok_iff.mp hresults
    obtain ⟨rest, hmembers, heq⟩ := except_bind_eq_ok_iff.mp hresults
    obtain ⟨rfl, rfl⟩ := List.cons.inj (Except.ok.inj heq)
    rw [memberKeys, List.mem_append, not_or]
    exact ⟨not_mem_keys hresult h, not_mem_memberKeys hmembers hrest⟩

theorem not_mem_entryKeys {entries results : List (String × JsValue)}
    (hresults : hexlifyEntries toBeHex entries = .ok results)
    (h : EncodesEntries entries results) : "__proto__" ∉ entryKeys entries := by
  cases h with
  | nil => exact nofun
  | @cons key value _ entries _ h hrest =>
    obtain ⟨result, rest, hresult, hentries, heq⟩ := hexlifyEntries_cons hresults
    unfold assignEntry at heq
    by_cases hkey : key = "__proto__"
    · -- the entries left are too few
      rw [if_pos hkey] at heq
      have hle := length_hexlifyEntries_le hentries
      have hlength := hrest.length_eq
      rw [heq, List.length_cons] at hle
      omega
    · rw [if_neg hkey] at heq
      obtain ⟨hentry, rfl⟩ := List.cons.inj heq
      obtain ⟨_, rfl⟩ := Prod.mk.inj hentry
      rw [entryKeys, List.cons_append, List.mem_cons, List.mem_append, not_or, not_or]
      exact ⟨Ne.symm hkey, not_mem_keys hresult h, not_mem_entryKeys hentries hrest⟩

end

/-- Plain data is encoded faithfully exactly when no object in it has a member
named __proto__. -/
theorem encodedFaithfully_iff (hdoc : Documented toBeHex) (value : JsValue)
    (hplain : IsPlain value) :
    EncodedFaithfully toBeHex value ↔ "__proto__" ∉ keys value := by
  constructor
  · intro h
    obtain ⟨result, hresult, hencodes, _⟩ := h.encoded
    exact not_mem_keys hresult hencodes
  · intro hkeys
    obtain ⟨result, hresult, hencodes⟩ := exists_encoded hdoc value hplain hkeys
    have hnumbers := hexlifiable_of_plain value hplain
    exact ⟨⟨result, hresult, hencodes, deepHexlify_encoding hencodes hkeys⟩,
      fun n hn other hother => toUint_eq_of_same hdoc (hnumbers n hn) (hnumbers other hother)⟩

end Members

section Concrete

/-- Numbers of both kinds, some of them inside an array. -/
def gasLimits : JsValue :=
  .object [("callGasLimit", .numeric (.bigint 256)),
    ("limits", .array [.numeric (.number 0), .numeric (.bigint 16), .null, .boolean true])]

theorem gasLimits_encoded : EncodedFaithfully documentedToBeHex gasLimits :=
  (encodedFaithfully_iff documented gasLimits
    ⟨rfl, ⟨rfl, rfl, trivial, trivial, trivial⟩, trivial⟩).mpr (by decide)

/-- The member that JSON.parse makes of the name __proto__ is dropped. -/
theorem proto_member_lost :
    IsPlain (.object [("__proto__", .numeric (.number 1))]) ∧
      deepHexlify documentedToBeHex (.object [("__proto__", .numeric (.number 1))]) =
        .ok (.object []) ∧
      ¬EncodedFaithfully documentedToBeHex (.object [("__proto__", .numeric (.number 1))]) := by
  refine ⟨⟨rfl, trivial⟩, rfl, ?_⟩
  intro h
  obtain ⟨result, hresult, hencodes, _⟩ := h.encoded
  obtain rfl : result = .object [] := (Except.ok.inj hresult).symm
  cases hencodes with
  | object hentries => cases hentries

end Concrete

end Bundler.HexlifiedValues
