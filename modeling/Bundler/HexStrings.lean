import Bundler.ByteStrings
import Mathlib.Data.List.Basic
import Mathlib.Tactic.IntervalCases

/-!
Bytes written as hex. Reading takes digits of either case and writing gives
lower-case ones, so what is read and written again is the text in lower case.
The shortest bytes of a number are what its digits stand for when there is an
even number of them.
-/
namespace Bundler.HexStrings

open ByteStrings

def alphabet : List Char :=
  ['0', '1', '2', '3', '4', '5', '6', '7', '8', '9', 'a', 'b', 'c', 'd', 'e', 'f']

def digitValue (c : Char) : Option ℕ := alphabet.idxOf? c.toLower

/-- The two digits of a byte, high half first. -/
def digitPair (byte : ℕ) : List Char := [(byte / 16).digitChar, (byte % 16).digitChar]

/-- The bytes that digits stand for, two digits each. -/
def readDigits : List Char → Option (List ℕ)
  | [] => some []
  | [_] => none
  | high :: low :: rest => do
      let first ← digitValue high
      let second ← digitValue low
      let bytes ← readDigits rest
      pure ((first * 16 + second) :: bytes)

def writeDigits (bytes : List ℕ) : List Char := bytes.flatMap digitPair

/-- The bytes of a hex string; the x may be a capital. -/
def getBytes (text : String) : Option (List ℕ) :=
  match text.toList with
  | '0' :: x :: digits => if x = 'x' ∨ x = 'X' then readDigits digits else none
  | _ => none

def hexString (bytes : List ℕ) : String := String.ofList ('0' :: 'x' :: writeDigits bytes)

section Digits

variable {c : Char} {n : ℕ}

theorem digitValue_digitChar (h : n < 16) : digitValue n.digitChar = some n := by
  interval_cases n <;> rfl

/-- A digit of this value is the one written for it, in either case. -/
theorem digitChar_of_digitValue (h : digitValue c = some n) :
    n < 16 ∧ n.digitChar = c.toLower := by
  obtain ⟨hlength, hget, _⟩ := List.idxOf?_eq_some_iff.mp h
  have hlt : n < 16 := hlength
  refine ⟨hlt, ?_⟩
  rw [← hget]
  interval_cases n <;> rfl

end Digits

section Writing

variable {bytes : List ℕ}

theorem writeDigits_cons (byte : ℕ) (bytes : List ℕ) :
    writeDigits (byte :: bytes) = digitPair byte ++ writeDigits bytes := rfl

theorem writeDigits_append (bytes others : List ℕ) :
    writeDigits (bytes ++ others) = writeDigits bytes ++ writeDigits others :=
  List.flatMap_append

/-- What is written reads back. -/
theorem readDigits_writeDigits (h : IsBytes bytes) :
    readDigits (writeDigits bytes) = some bytes := by
  induction bytes with
  | nil => rfl
  | cons byte bytes ih =>
    obtain ⟨hbyte, hrest⟩ := isBytes_cons.mp h
    have hhigh : digitValue (byte / 16).digitChar = some (byte / 16) :=
      digitValue_digitChar (by omega)
    have hlow : digitValue (byte % 16).digitChar = some (byte % 16) :=
      digitValue_digitChar (by omega)
    change (do
      let first ← digitValue (byte / 16).digitChar
      let second ← digitValue (byte % 16).digitChar
      let bytes ← readDigits (writeDigits bytes)
      pure ((first * 16 + second) :: bytes)) = some (byte :: bytes)
    rw [hhigh, hlow, ih hrest]
    exact congrArg (fun first => some (first :: bytes)) (Nat.div_add_mod' byte 16)

/-- Text that reads as bytes is, in lower case, what is written for them. -/
theorem of_readDigits {digits : List Char} (h : readDigits digits = some bytes) :
    IsBytes bytes ∧ writeDigits bytes = digits.map Char.toLower := by
  induction digits using readDigits.induct generalizing bytes with
  | case1 =>
    cases h
    exact ⟨nofun, rfl⟩
  | case2 => cases h
  | case3 high low rest ih =>
    obtain ⟨first, hfirst, second, hsecond, others, hothers, hbytes⟩ :
        ∃ first, digitValue high = some first ∧ ∃ second, digitValue low = some second ∧
          ∃ others, readDigits rest = some others ∧ (first * 16 + second) :: others = bytes := by
      simpa [readDigits, Option.bind_eq_some_iff] using h
    obtain ⟨hfirst, hhigh⟩ := digitChar_of_digitValue hfirst
    obtain ⟨hsecond, hlow⟩ := digitChar_of_digitValue hsecond
    obtain ⟨hothers, hrest⟩ := ih hothers
    subst hbytes
    have hdiv : (first * 16 + second) / 16 = first := by omega
    have hmod : (first * 16 + second) % 16 = second := by omega
    refine ⟨isBytes_cons.mpr ⟨by omega, hothers⟩, ?_⟩
    rw [writeDigits_cons, digitPair, hdiv, hmod, hhigh, hlow, hrest]
    rfl

theorem isSome_of_readDigits {digits : List Char} (h : readDigits digits = some bytes) :
    ∀ c ∈ digits, (digitValue c).isSome := by
  induction digits using readDigits.induct generalizing bytes with
  | case1 => exact nofun
  | case2 => cases h
  | case3 high low rest ih =>
    obtain ⟨first, hfirst, second, hsecond, others, hothers, _⟩ :
        ∃ first, digitValue high = some first ∧ ∃ second, digitValue low = some second ∧
          ∃ others, readDigits rest = some others ∧ (first * 16 + second) :: others = bytes := by
      simpa [readDigits, Option.bind_eq_some_iff] using h
    exact List.forall_mem_cons.mpr ⟨Option.isSome_iff_exists.mpr ⟨first, hfirst⟩,
      List.forall_mem_cons.mpr ⟨Option.isSome_iff_exists.mpr ⟨second, hsecond⟩, ih hothers⟩⟩

theorem getBytes_hexString (h : IsBytes bytes) : getBytes (hexString bytes) = some bytes := by
  unfold getBytes hexString
  rw [String.toList_ofList]
  exact readDigits_writeDigits h

/-- A hex string is what is written for its bytes, but for the case. -/
theorem of_getBytes {text : String} (h : getBytes text = some bytes) :
    IsBytes bytes ∧ String.ofList (text.toList.map Char.toLower) = hexString bytes := by
  unfold getBytes at h
  split at h
  · rename_i x digits htext
    split at h
    · rename_i hx
      obtain ⟨hbytes, hdigits⟩ := of_readDigits h
      refine ⟨hbytes, ?_⟩
      have hlower : x.toLower = 'x' := by
        rcases hx with rfl | rfl
        · rfl
        · rfl
      rw [htext, List.map_cons, List.map_cons, hlower, ← hdigits]
      rfl
    · cases h
  · cases h

theorem length_writeDigits (bytes : List ℕ) : (writeDigits bytes).length = 2 * bytes.length := by
  induction bytes with
  | nil => rfl
  | cons byte bytes ih =>
    rw [writeDigits_cons, List.length_append, ih, List.length_cons, digitPair, List.length_cons,
      List.length_singleton]
    omega

theorem length_of_getBytes {text : String} (h : getBytes text = some bytes) :
    text.length = 2 + 2 * bytes.length := by
  have hlower := congrArg String.length (of_getBytes h).2
  unfold hexString at hlower
  rw [String.length_ofList, String.length_ofList, List.length_map, List.length_cons,
    List.length_cons, length_writeDigits, String.length_toList] at hlower
  omega

theorem writeDigits_inj {others : List ℕ} (h : IsBytes bytes) (hothers : IsBytes others) :
    writeDigits bytes = writeDigits others ↔ bytes = others := by
  constructor
  · intro heq
    have hread := readDigits_writeDigits h
    rw [heq, readDigits_writeDigits hothers] at hread
    exact (Option.some.inj hread).symm
  · rintro rfl
    rfl

theorem hexString_inj {others : List ℕ} (h : IsBytes bytes) (hothers : IsBytes others) :
    hexString bytes = hexString others ↔ bytes = others := by
  rw [← writeDigits_inj h hothers]
  unfold hexString
  rw [String.ofList_inj, List.cons_inj_right, List.cons_inj_right]

/-- Text begins with the text of some bytes just when they come first. -/
theorem hexString_prefix_iff {others : List ℕ} (h : IsBytes bytes) (hothers : IsBytes others) :
    (hexString bytes).toList <+: (hexString others).toList ↔ bytes <+: others := by
  unfold hexString
  rw [String.toList_ofList, String.toList_ofList, List.prefix_cons_inj, List.prefix_cons_inj]
  constructor
  · intro hbegins
    have hle := hbegins.length_le
    rw [length_writeDigits, length_writeDigits] at hle
    have hlength : (others.take bytes.length).length = bytes.length := by
      rw [List.length_take]
      omega
    have hsplit : writeDigits (others.take bytes.length) <+: writeDigits others := by
      conv_rhs => rw [← List.take_append_drop bytes.length others, writeDigits_append]
      exact List.prefix_append _ _
    have hboth := List.prefix_of_prefix_length_le hbegins hsplit
      (by rw [length_writeDigits, length_writeDigits, hlength])
    have heq := hboth.eq_of_length (by rw [length_writeDigits, length_writeDigits, hlength])
    have htake : IsBytes (others.take bytes.length) :=
      fun byte hbyte => hothers byte (List.mem_of_mem_take hbyte)
    rw [(writeDigits_inj h htake).mp heq]
    exact List.take_prefix _ _
  · rintro ⟨rest, rfl⟩
    rw [writeDigits_append]
    exact List.prefix_append _ _

end Writing

section Numbers

/-- The hex digits of a number, with a zero before an odd number of them. -/
def evenDigits (value : ℕ) : List Char :=
  let digits := Nat.toDigits 16 value
  if digits.length % 2 = 1 then '0' :: digits else digits

/-- The fewest bytes of a number, one at least. -/
def shortest (value : ℕ) : List ℕ :=
  if value < 256 then [value] else shortest (value / 256) ++ [value % 256]
termination_by value
decreasing_by omega

theorem shortest_of_lt {value : ℕ} (h : value < 256) : shortest value = [value] := by
  unfold shortest
  rw [if_pos h]

theorem shortest_of_le {value : ℕ} (h : 256 ≤ value) :
    shortest value = shortest (value / 256) ++ [value % 256] := by
  conv_lhs => unfold shortest
  rw [if_neg (Nat.not_lt.mpr h)]

theorem toDigits_of_le {base value : ℕ} (hbase : 1 < base) (h : base ≤ value) :
    Nat.toDigits base value =
      Nat.toDigits base (value / base) ++ [(value % base).digitChar] := by
  have hlow : value % base < base := Nat.mod_lt _ (by omega)
  have hpos : 0 < value / base := Nat.div_pos h (by omega)
  rw [← Nat.toDigits_of_lt_base hlow, Nat.toDigits_append_toDigits hbase hpos hlow,
    Nat.div_add_mod]

/-- The last two digits of a number are those of its last byte. -/
theorem toDigits_of_byte {value : ℕ} (h : 256 ≤ value) :
    Nat.toDigits 16 value = Nat.toDigits 16 (value / 256) ++ digitPair (value % 256) := by
  have hdiv : value / 16 / 16 = value / 256 := Nat.div_div_eq_div_mul value 16 16
  have hhigh : value % 256 / 16 = value / 16 % 16 := by omega
  have hlow : value % 256 % 16 = value % 16 := by omega
  have hle : 16 ≤ value / 16 := by omega
  rw [toDigits_of_le (by omega) (by omega), toDigits_of_le (by omega) hle, hdiv, digitPair, hhigh,
    hlow, List.append_assoc]
  rfl

/-- Digits in pairs are the shortest bytes. -/
theorem evenDigits_eq (value : ℕ) : evenDigits value = writeDigits (shortest value) := by
  induction value using shortest.induct with
  | case1 value h =>
    rw [shortest_of_lt h]
    unfold evenDigits
    by_cases hdigit : value < 16
    · have hhigh : value / 16 = 0 := by omega
      have hlow : value % 16 = value := by omega
      rw [Nat.toDigits_of_lt_base hdigit]
      change '0' :: [value.digitChar] = digitPair value ++ []
      rw [digitPair, hhigh, hlow]
      rfl
    · have hhigh : value / 16 < 16 := by omega
      rw [toDigits_of_le (by omega) (by omega), Nat.toDigits_of_lt_base hhigh]
      simp [writeDigits, digitPair]
  | case2 value h ih =>
    have hle : 256 ≤ value := Nat.not_lt.mp h
    rw [shortest_of_le hle, writeDigits_append, ← ih]
    unfold evenDigits
    rw [toDigits_of_byte hle]
    have hlength : (Nat.toDigits 16 (value / 256) ++ digitPair (value % 256)).length % 2 =
        (Nat.toDigits 16 (value / 256)).length % 2 := by
      rw [List.length_append]
      exact Nat.add_mod_right _ 2
    dsimp only
    rw [hlength]
    split
    · simp [writeDigits]
    · simp [writeDigits]

theorem isBytes_shortest (value : ℕ) : IsBytes (shortest value) := by
  induction value using shortest.induct with
  | case1 value h =>
    rw [shortest_of_lt h]
    exact isBytes_cons.mpr ⟨h, nofun⟩
  | case2 value h ih =>
    rw [shortest_of_le (Nat.not_lt.mp h)]
    exact isBytes_append.mpr ⟨ih, isBytes_cons.mpr ⟨Nat.mod_lt _ (by omega), nofun⟩⟩

theorem length_shortest_le_iff {width : ℕ} (hwidth : 0 < width) (value : ℕ) :
    (shortest value).length ≤ width ↔ value < 256 ^ width := by
  obtain ⟨width, rfl⟩ : ∃ n, width = n + 1 := ⟨width - 1, by omega⟩
  induction width generalizing value with
  | zero =>
    by_cases h : value < 256
    · rw [shortest_of_lt h]
      exact iff_of_true (Nat.le_refl 1) (by simpa using h)
    · rw [shortest_of_le (by omega)]
      refine iff_of_false ?_ (by simpa using h)
      have hpos : 0 < (shortest (value / 256)).length := by
        unfold shortest
        split <;> simp
      rw [List.length_append, List.length_singleton]
      omega
  | succ width ih =>
    by_cases h : value < 256
    · rw [shortest_of_lt h]
      have hpow : 256 ^ 1 ≤ 256 ^ (width + 1 + 1) := Nat.pow_le_pow_right (by omega) (by omega)
      exact iff_of_true (by simp) (by omega)
    · have hdiv := ih (value / 256) (by omega)
      rw [shortest_of_le (by omega), List.length_append, List.length_singleton,
        Nat.add_le_add_iff_right, hdiv, Nat.div_lt_iff_lt_mul (by omega), ← Nat.pow_succ]

theorem ofBytes_shortest (value : ℕ) : ofBytes (shortest value) = value := by
  induction value using shortest.induct with
  | case1 value h =>
    rw [shortest_of_lt h]
    exact Nat.zero_add value
  | case2 value h ih =>
    rw [shortest_of_le (Nat.not_lt.mp h), ofBytes_append_singleton, ih, Nat.div_add_mod']

/-- The zeros zeroPadValue puts before them. -/
def padLeft (width : ℕ) (bytes : List ℕ) : List ℕ :=
  List.replicate (width - bytes.length) 0 ++ bytes

theorem isBytes_padLeft (width : ℕ) {bytes : List ℕ} (h : IsBytes bytes) :
    IsBytes (padLeft width bytes) :=
  isBytes_append.mpr ⟨isBytes_replicate (by omega) _, h⟩

theorem ofBytes_padLeft (width : ℕ) (bytes : List ℕ) :
    ofBytes (padLeft width bytes) = ofBytes bytes := by
  have hzeros (size : ℕ) : ofBytes (List.replicate size 0) = 0 := by
    induction size with
    | zero => rfl
    | succ size ih =>
      rw [List.replicate_succ', ofBytes_append_singleton, ih]
  unfold padLeft
  rw [ofBytes_append, hzeros, Nat.zero_mul, Nat.zero_add]

/-- With zeros before them, the shortest bytes of a number are its bytes. -/
theorem padLeft_shortest {width value : ℕ} (hwidth : 0 < width) (h : value < 256 ^ width) :
    padLeft width (shortest value) = toBytes width value := by
  have hlength : (padLeft width (shortest value)).length = width := by
    have hle := (length_shortest_le_iff hwidth value).mpr h
    unfold padLeft
    rw [List.length_append, List.length_replicate]
    omega
  have hbytes := toBytes_ofBytes (isBytes_padLeft width (isBytes_shortest value))
  rw [hlength, ofBytes_padLeft, ofBytes_shortest] at hbytes
  exact hbytes.symm

end Numbers

end Bundler.HexStrings
