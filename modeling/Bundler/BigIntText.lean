import Bundler.HexStrings
import Mathlib.Data.List.DropRight

/-!
What JavaScript's BigInt makes of a string: after white space is stripped,
nothing is zero, digits may have a sign when they are decimal, and a prefix
names another base. Digits written for bytes read back as their number.
-/
namespace Bundler.BigIntText

open ByteStrings HexStrings

def isWhiteSpace (c : Char) : Bool :=
  c.toNat ∈ [9, 10, 11, 12, 13, 32, 160, 5760, 8192, 8193, 8194, 8195, 8196, 8197, 8198, 8199, 8200,
    8201, 8202, 8232, 8233, 8239, 8287, 12288, 65279]

/-- The number that digits of a base add to one read before them. -/
def readNumber (base : ℕ) : ℕ → List Char → Option ℕ
  | value, [] => some value
  | value, c :: digits =>
      match (digitValue c).filter fun digit => digit < base with
      | some digit => readNumber base (value * base + digit) digits
      | none => none

def readNatural (base : ℕ) (digits : List Char) : Option ℤ :=
  if digits = [] then none else (readNumber base 0 digits).map Nat.cast

def stringToBigInt : List Char → Option ℤ
  | [] => some 0
  | '-' :: digits => (readNatural 10 digits).map fun value => -value
  | '+' :: digits => readNatural 10 digits
  | '0' :: mark :: digits =>
      if mark = 'x' ∨ mark = 'X' then readNatural 16 digits
      else if mark = 'o' ∨ mark = 'O' then readNatural 8 digits
      else if mark = 'b' ∨ mark = 'B' then readNatural 2 digits
      else readNatural 10 ('0' :: mark :: digits)
  | digits => readNatural 10 digits

/-- BigInt of a string; none is a SyntaxError. -/
def bigInt (text : String) : Option ℤ :=
  stringToBigInt ((text.toList.dropWhile isWhiteSpace).rdropWhile isWhiteSpace)

section Reading

variable {base : ℕ}

theorem readNumber_append (value : ℕ) (digits others : List Char) :
    readNumber base value (digits ++ others) =
      (readNumber base value digits).bind fun value => readNumber base value others := by
  induction digits generalizing value with
  | nil => rfl
  | cons c digits ih =>
    change (match (digitValue c).filter fun digit => digit < base with
      | some digit => readNumber base (value * base + digit) (digits ++ others)
      | none => none) = _
    rw [readNumber]
    cases (digitValue c).filter fun digit => digit < base with
    | none => rfl
    | some digit => exact ih _

theorem readNumber_digit {digit : ℕ} (hbase : base ≤ 16) (h : digit < base) (value : ℕ) :
    readNumber base value [digit.digitChar] = some (value * base + digit) := by
  have hvalue : digitValue digit.digitChar = some digit := digitValue_digitChar (by omega)
  have hfilter : (some digit).filter (fun digit => digit < base) = some digit :=
    Option.filter_eq_some_iff.mpr ⟨rfl, decide_eq_true h⟩
  rw [readNumber, hvalue, hfilter]
  rfl

/-- The digits written for a number stand for it. -/
theorem readNumber_toDigits (hbase : 1 < base) (hle : base ≤ 16) (value : ℕ) :
    readNumber base 0 (Nat.toDigits base value) = some value := by
  induction value using Nat.strongRecOn with
  | ind value ih =>
    by_cases hlast : value < base
    · rw [Nat.toDigits_of_lt_base hlast, readNumber_digit hle hlast, Nat.zero_mul, Nat.zero_add]
    · have hless : value / base < value := Nat.div_lt_self (by omega) hbase
      have hdigit : value % base < base := Nat.mod_lt _ (by omega)
      rw [toDigits_of_le hbase (Nat.not_lt.mp hlast), readNumber_append, ih _ hless]
      change readNumber base (value / base) [(value % base).digitChar] = some value
      rw [readNumber_digit hle hdigit, Nat.div_add_mod']

theorem readNumber_writeDigits {bytes : List ℕ} (h : IsBytes bytes) :
    readNumber 16 0 (writeDigits bytes) = some (ofBytes bytes) := by
  induction bytes using List.reverseRecOn with
  | nil => rfl
  | append_singleton bytes byte ih =>
    obtain ⟨hbytes, hbyte⟩ := isBytes_append.mp h
    have hlast : byte < 256 := (isBytes_cons.mp hbyte).1
    have hhigh : byte / 16 < 16 := by omega
    have hlow : byte % 16 < 16 := Nat.mod_lt _ (by omega)
    have hvalue : (ofBytes bytes * 16 + byte / 16) * 16 + byte % 16 =
        ofBytes bytes * 256 + byte := by
      omega
    have hpair : writeDigits [byte] = [(byte / 16).digitChar] ++ [(byte % 16).digitChar] := rfl
    rw [writeDigits_append, readNumber_append, ih hbytes, Option.bind_some, hpair,
      readNumber_append, readNumber_digit (Nat.le_refl 16) hhigh, Option.bind_some,
      readNumber_digit (Nat.le_refl 16) hlow, hvalue, ofBytes_append_singleton]

end Reading

section Texts

theorem digitChar_not_whiteSpace {digit : ℕ} (h : digit < 16) :
    isWhiteSpace digit.digitChar = false := by
  interval_cases digit <;> rfl

theorem writeDigits_not_whiteSpace {bytes : List ℕ} (h : IsBytes bytes) :
    ∀ c ∈ writeDigits bytes, isWhiteSpace c = false := by
  intro c hc
  obtain ⟨byte, hbyte, hpair⟩ := List.mem_flatMap.mp hc
  have hlt := h byte hbyte
  rcases List.mem_cons.mp hpair with rfl | hlast
  · exact digitChar_not_whiteSpace (by omega)
  · obtain rfl := List.mem_singleton.mp hlast
    exact digitChar_not_whiteSpace (by omega)

/-- Text without white space is not stripped. -/
theorem bigInt_ofList {digits : List Char} (h : ∀ c ∈ digits, isWhiteSpace c = false) :
    bigInt (String.ofList digits) = stringToBigInt digits := by
  have hstart : digits.dropWhile isWhiteSpace = digits := by
    cases digits with
    | nil => rfl
    | cons c digits => exact List.dropWhile_cons_of_neg (by simp [h c List.mem_cons_self])
  have hend : digits.rdropWhile isWhiteSpace = digits := by
    rw [List.rdropWhile_eq_self_iff]
    intro hne
    simp [h _ (List.getLast_mem hne)]
  unfold bigInt
  rw [String.toList_ofList, hstart, hend]

theorem readNatural_writeDigits {bytes : List ℕ} (h : IsBytes bytes) (hne : bytes ≠ []) :
    readNatural 16 (writeDigits bytes) = some (ofBytes bytes : ℤ) := by
  have hdigits : writeDigits bytes ≠ [] := by
    cases bytes with
    | nil => exact absurd rfl hne
    | cons byte bytes => exact List.cons_ne_nil _ _
  unfold readNatural
  rw [if_neg hdigits, readNumber_writeDigits h]
  rfl

theorem bigInt_hexString {bytes : List ℕ} (h : IsBytes bytes) (hne : bytes ≠ []) :
    bigInt (hexString bytes) = some (ofBytes bytes : ℤ) := by
  have hplain : ∀ c ∈ '0' :: 'x' :: writeDigits bytes, isWhiteSpace c = false :=
    List.forall_mem_cons.mpr ⟨rfl, List.forall_mem_cons.mpr ⟨rfl, writeDigits_not_whiteSpace h⟩⟩
  unfold hexString
  rw [bigInt_ofList hplain]
  exact readNatural_writeDigits h hne

theorem readNatural_nonneg {base : ℕ} {digits : List Char} {value : ℤ}
    (h : readNatural base digits = some value) : 0 ≤ value := by
  unfold readNatural at h
  split at h
  · cases h
  · obtain ⟨number, _, rfl⟩ := Option.map_eq_some_iff.mp h
    exact Int.natCast_nonneg number

/-- Only text that begins with a sign stands for a negative number. -/
theorem bigInt_nonneg {text : String} {rest : List Char} {value : ℤ}
    (htext : text.toList = '0' :: rest) (h : bigInt text = some value) : 0 ≤ value := by
  unfold bigInt at h
  rw [htext, List.dropWhile_cons_of_neg (by decide)] at h
  have hbegins := List.rdropWhile_prefix isWhiteSpace ('0' :: rest)
  cases hdigits : ('0' :: rest).rdropWhile isWhiteSpace with
  | nil =>
    rw [hdigits] at h
    cases h
    exact Int.le_refl 0
  | cons c digits =>
    rw [hdigits] at h hbegins
    obtain ⟨rfl, _⟩ := List.cons_prefix_cons.mp hbegins
    cases digits with
    | nil => exact readNatural_nonneg h
    | cons mark digits =>
      rw [stringToBigInt] at h
      split at h
      · exact readNatural_nonneg h
      · split at h
        · exact readNatural_nonneg h
        · split at h
          · exact readNatural_nonneg h
          · exact readNatural_nonneg h

end Texts

section Decimals

def decimalText (value : ℤ) : String :=
  String.ofList
    (if value < 0 then '-' :: Nat.toDigits 10 value.natAbs else Nat.toDigits 10 value.natAbs)

theorem isDigit_bounds {c : Char} (h : c.isDigit) : 48 ≤ c.toNat ∧ c.toNat ≤ 57 := by
  obtain ⟨hlow, hhigh⟩ := Bool.and_eq_true_iff.mp h
  exact ⟨of_decide_eq_true hlow, of_decide_eq_true hhigh⟩

theorem isDigit_not_whiteSpace {c : Char} (h : c.isDigit) : isWhiteSpace c = false := by
  obtain ⟨hlow, hhigh⟩ := isDigit_bounds h
  refine decide_eq_false fun hmem => ?_
  simp only [List.mem_cons, List.not_mem_nil, or_false] at hmem
  omega

theorem stringToBigInt_digits {digits : List Char} (hne : digits ≠ [])
    (h : ∀ c ∈ digits, c.isDigit) : stringToBigInt digits = readNatural 10 digits := by
  unfold stringToBigInt
  split
  · exact absurd rfl hne
  · exact absurd (h '-' List.mem_cons_self) (by decide)
  · exact absurd (h '+' List.mem_cons_self) (by decide)
  · -- what marks another base is no digit
    rename_i mark digits
    obtain ⟨_, hmark⟩ := isDigit_bounds (h mark (by simp))
    have hother {letter : Char} (hletter : 57 < letter.toNat) : mark ≠ letter := by
      rintro rfl
      omega
    rw [if_neg (not_or.mpr ⟨hother (by decide), hother (by decide)⟩),
      if_neg (not_or.mpr ⟨hother (by decide), hother (by decide)⟩),
      if_neg (not_or.mpr ⟨hother (by decide), hother (by decide)⟩)]
  · rfl

theorem readNatural_toDigits (value : ℕ) :
    readNatural 10 (Nat.toDigits 10 value) = some (value : ℤ) := by
  unfold readNatural
  rw [if_neg Nat.toDigits_ne_nil, readNumber_toDigits (by omega) (by omega)]
  rfl

/-- The decimal text of a number reads back, with its sign. -/
theorem bigInt_decimalText (value : ℤ) : bigInt (decimalText value) = some value := by
  have hdigits : ∀ c ∈ Nat.toDigits 10 value.natAbs, c.isDigit :=
    fun c hc => Nat.isDigit_of_mem_toDigits (by omega) (by omega) hc
  have hplain : ∀ c ∈ Nat.toDigits 10 value.natAbs, isWhiteSpace c = false :=
    fun c hc => isDigit_not_whiteSpace (hdigits c hc)
  unfold decimalText
  split
  · rename_i hneg
    have habs : -(value.natAbs : ℤ) = value := by omega
    rw [bigInt_ofList (List.forall_mem_cons.mpr ⟨rfl, hplain⟩)]
    change (readNatural 10 (Nat.toDigits 10 value.natAbs)).map (fun number => -number) = _
    rw [readNatural_toDigits, Option.map_some, habs]
  · rename_i hnonneg
    have habs : (value.natAbs : ℤ) = value := by omega
    rw [bigInt_ofList hplain, stringToBigInt_digits Nat.toDigits_ne_nil hdigits,
      readNatural_toDigits, habs]

end Decimals

end Bundler.BigIntText
