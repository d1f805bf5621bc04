import Bundler.BigIntText
import Bundler.Ethers
import Bundler.Validation

/-!
The validity window of an operation, decoded from the text of the two
validation data words as the source does it. The decoding agrees with the one
byte by byte, and the merged window is the intersection of the two.
-/
namespace Bundler.ValidityWindows

open ByteStrings HexStrings BigIntText AsyncPrograms DataModel Ethers
open Validation (maxUint48 aggregatorPart validUntilPart validAfterPart)

section ParseInt

/-- The digits of the base that the text begins with; without any the result is NaN. -/
def readPrefix (base : ℕ) (digits : List Char) : Option ℕ :=
  let number := digits.takeWhile fun c => (digitValue c).any fun digit => digit < base
  if number = [] then none else readNumber base 0 number

def parseMagnitude : List Char → Option ℕ
  | '0' :: mark :: digits =>
      if mark = 'x' ∨ mark = 'X' then readPrefix 16 digits
      else readPrefix 10 ('0' :: mark :: digits)
  | digits => readPrefix 10 digits

/-- JavaScript's parseInt without a radix; none is NaN. Numbers from 2 ^ 53 on,
which it would round, are left exact. -/
def parseInt (text : String) : Option ℤ :=
  match text.toList.dropWhile isWhiteSpace with
  | '-' :: digits => (parseMagnitude digits).map fun value => -value
  | '+' :: digits => (parseMagnitude digits).map Nat.cast
  | digits => (parseMagnitude digits).map Nat.cast

variable {bytes : List ℕ}

theorem writeDigits_hexadecimal (h : IsBytes bytes) :
    ∀ c ∈ writeDigits bytes, (digitValue c).any (fun digit => digit < 16) := by
  intro c hc
  have hdigit {n : ℕ} (hn : n < 16) : (digitValue n.digitChar).any (fun digit => digit < 16) := by
    rw [digitValue_digitChar hn]
    exact decide_eq_true hn
  obtain ⟨byte, hbyte, hpair⟩ := List.mem_flatMap.mp hc
  have hlt := h byte hbyte
  simp [digitPair] at hpair
  rcases hpair with hpair | hpair <;> rw [hpair]
  · exact hdigit (by omega)
  · exact hdigit (by omega)

/-- The number of some bytes is read back from their hex text. -/
theorem parseInt_hexString (h : IsBytes bytes) (hne : bytes ≠ []) :
    parseInt (hexString bytes) = some (ofBytes bytes : ℤ) := by
  have hdigits : writeDigits bytes ≠ [] := by
    cases bytes with
    | nil => exact absurd rfl hne
    | cons byte bytes => exact List.cons_ne_nil _ _
  have hread : readPrefix 16 (writeDigits bytes) = some (ofBytes bytes) := by
    unfold readPrefix
    rw [List.takeWhile_eq_self_iff.mpr (writeDigits_hexadecimal h)]
    exact (if_neg hdigits).trans (readNumber_writeDigits h)
  unfold parseInt hexString
  rw [String.toList_ofList]
  change (readPrefix 16 (writeDigits bytes)).map Nat.cast = _
  rw [hread]
  rfl

end ParseInt

section Functions

/-- A time is none when it is NaN. -/
structure ValidationData where
  aggregator : String
  validAfter : Option ℤ
  validUntil : Option ℤ
  deriving DecidableEq, Repr

variable (ethers : EthersFunctions)

def SIG_VALIDATION_FAILED : Except JsError String := ethers.zeroPadValue "0x01" 20

def mergeValidationData (accountValidationData paymasterValidationData : ValidationData) :
    Except JsError ValidationData := do
  let failed ← SIG_VALIDATION_FAILED ethers
  pure
    { aggregator :=
        if paymasterValidationData.aggregator ≠ zeroAddress then failed
        else accountValidationData.aggregator
      validAfter :=
        Option.map₂ max accountValidationData.validAfter paymasterValidationData.validAfter
      validUntil :=
        Option.map₂ min accountValidationData.validUntil paymasterValidationData.validUntil }

def parseValidationData (validationData : BigNumberish) : Except JsError ValidationData := do
  let hex ← ethers.toBeHex (.bigint validationData)
  let data ← ethers.zeroPadValue hex 32
  let aggregator ← ethers.dataSlice data (32 - 20) none
  let untilText ← ethers.dataSlice data (32 - 26) (some (32 - 20))
  let validUntil := parseInt untilText
  let validUntil := if validUntil = some 0 then some (maxUint48 : ℤ) else validUntil
  let afterText ← ethers.dataSlice data 0 (some 6)
  pure ⟨aggregator, parseInt afterText, validUntil⟩

def mergeValidationDataValues (accountValidationData paymasterValidationData : BigNumberish) :
    Except JsError ValidationData := do
  let account ← parseValidationData ethers accountValidationData
  let paymaster ← parseValidationData ethers paymasterValidationData
  mergeValidationData ethers account paymaster

end Functions

section Decoding

/-- The text of validation data decoded byte by byte. -/
def text (data : Validation.ValidationData) : ValidationData :=
  ⟨hexString data.aggregator, some data.validAfter, some data.validUntil⟩

/-- Zero stands for no end in both. -/
theorem noEnd_eq (value : ℕ) :
    (if some (value : ℤ) = some 0 then some (maxUint48 : ℤ) else some (value : ℤ)) =
      some ((if value = 0 then maxUint48 else value : ℕ) : ℤ) := by
  by_cases h : value = 0
  · rw [if_pos h, if_pos (by simp [h])]
  · rw [if_neg h, if_neg (by simp [h])]

variable (w : BitVec 256)

theorem parseInt_slice {start stop : ℕ} (hstart : start < stop) (hstop : stop ≤ 32) :
    parseInt (hexString (slice (toBytes 32 w.toNat) start stop)) =
      some (ofBytes (slice (toBytes 32 w.toNat) start stop) : ℤ) := by
  refine parseInt_hexString ((isBytes_toBytes 32 w.toNat).slice start stop) ?_
  rw [slice_toBytes (by omega) hstop, ← List.length_pos_iff_ne_nil, length_toBytes]
  omega

theorem hexString_zeroAddressBytes : hexString Validation.zeroAddressBytes = zeroAddress := by
  decide +kernel

/-- The text of an aggregator is the zero address just if its bytes are. -/
theorem text_aggregator_eq_zero_iff :
    (text (Validation.parseValidationData w)).aggregator = zeroAddress ↔
      (Validation.parseValidationData w).aggregator = Validation.zeroAddressBytes := by
  rw [← hexString_zeroAddressBytes, Validation.parseValidationData_eq]
  exact hexString_inj (isBytes_toBytes 20 _) (isBytes_toBytes 20 0)

variable {ethers : EthersFunctions} (hdoc : Documented ethers)

include hdoc

theorem dataSlice_word (start : ℕ) {stop : Option ℕ} (h : stop.getD 32 ≤ 32) :
    ethers.dataSlice (hexString (toBytes 32 w.toNat)) start stop =
      .ok (hexString (slice (toBytes 32 w.toNat) start (stop.getD 32))) := by
  have hbytes := getBytes_hexString (isBytes_toBytes 32 w.toNat)
  have hslice := hdoc.dataSlice _ _ start stop hbytes
  rw [length_toBytes] at hslice
  exact hslice h

/-- What is read from the text of a word is what is read from its bytes. -/
theorem parseValidationData_eq :
    parseValidationData ethers w.toNat = .ok (text (Validation.parseValidationData w)) := by
  have hhex := hdoc.toBeHex_nonneg (Int.natCast_nonneg w.toNat)
  rw [Int.toNat_natCast] at hhex
  have hdata : ethers.zeroPadValue (hexString (shortest w.toNat)) 32 =
      .ok (hexString (toBytes 32 w.toNat)) :=
    hdoc.zeroPadValue_shortest (by omega) w.isLt
  have haggregator : ethers.dataSlice (hexString (toBytes 32 w.toNat)) (32 - 20) none =
      .ok (hexString (slice (toBytes 32 w.toNat) (32 - 20) 32)) :=
    dataSlice_word w hdoc (32 - 20) (Nat.le_refl 32)
  have huntil : ethers.dataSlice (hexString (toBytes 32 w.toNat)) (32 - 26) (some (32 - 20)) =
      .ok (hexString (slice (toBytes 32 w.toNat) (32 - 26) (32 - 20))) :=
    dataSlice_word w hdoc (32 - 26) (by decide)
  have hafter : ethers.dataSlice (hexString (toBytes 32 w.toNat)) 0 (some 6) =
      .ok (hexString (slice (toBytes 32 w.toNat) 0 6)) :=
    dataSlice_word w hdoc 0 (by decide)
  unfold parseValidationData
  simp only [bind, Except.bind, pure, Except.pure, hhex, hdata, haggregator, huntil, hafter]
  rw [parseInt_slice w (by omega) (by omega), parseInt_slice w (by omega) (by omega)]
  rw [noEnd_eq]
  dsimp only [Validation.parseValidationData, text]

theorem SIG_VALIDATION_FAILED_eq :
    SIG_VALIDATION_FAILED ethers = .ok (hexString Validation.SIG_VALIDATION_FAILED) :=
  hdoc.zeroPadValue "0x01" [1] 20 (by decide) (by decide)

/-- Merging the texts is merging what they are of. -/
theorem mergeValidationData_text (account : Validation.ValidationData) (w : BitVec 256) :
    mergeValidationData ethers (text account) (text (Validation.parseValidationData w)) =
      .ok (text (Validation.mergeValidationData account (Validation.parseValidationData w))) := by
  have hzero := text_aggregator_eq_zero_iff w
  generalize Validation.parseValidationData w = paymaster at hzero ⊢
  have haggregator : (if (text paymaster).aggregator ≠ zeroAddress then
        hexString Validation.SIG_VALIDATION_FAILED else hexString account.aggregator) =
      hexString (if paymaster.aggregator ≠ Validation.zeroAddressBytes then
        Validation.SIG_VALIDATION_FAILED else account.aggregator) := by
    rw [apply_ite hexString]
    exact if_congr hzero.not rfl rfl
  have hafter : Option.map₂ max (text account).validAfter (text paymaster).validAfter =
      some ((max account.validAfter paymaster.validAfter : ℕ) : ℤ) :=
    congrArg some (Nat.cast_max _ _).symm
  have huntil : Option.map₂ min (text account).validUntil (text paymaster).validUntil =
      some ((min account.validUntil paymaster.validUntil : ℕ) : ℤ) :=
    congrArg some (Nat.cast_min _ _).symm
  unfold mergeValidationData
  rw [SIG_VALIDATION_FAILED_eq hdoc, hafter, huntil]
  exact congrArg (fun aggregator => Except.ok (ValidationData.mk aggregator _ _)) haggregator

theorem mergeValidationDataValues_eq (account paymaster : BitVec 256) :
    mergeValidationDataValues ethers account.toNat paymaster.toNat =
      .ok (text (Validation.mergeValidationDataValues account paymaster)) := by
  unfold mergeValidationDataValues
  rw [parseValidationData_eq account hdoc, parseValidationData_eq paymaster hdoc]
  exact mergeValidationData_text hdoc _ paymaster

end Decoding

section Windows

/-- The time is in the window of the word. -/
def InWindow (w : BitVec 256) (time : ℕ) : Prop :=
  validAfterPart w ≤ time ∧ time ≤ validUntilPart w

variable (account paymaster : BitVec 256)

/-- The merged window is where the two windows meet. -/
theorem inWindow_merged_iff (time : ℕ) :
    ((Validation.mergeValidationDataValues account paymaster).validAfter ≤ time ∧
        time ≤ (Validation.mergeValidationDataValues account paymaster).validUntil) ↔
      InWindow account time ∧ InWindow paymaster time := by
  unfold Validation.mergeValidationDataValues Validation.mergeValidationData InWindow
  rw [Validation.parseValidationData_eq, Validation.parseValidationData_eq]
  dsimp only
  omega

/-- The merged aggregator is the zero address just if both are. -/
theorem merged_aggregator_eq_zero_iff :
    (text (Validation.mergeValidationDataValues account paymaster)).aggregator = zeroAddress ↔
      aggregatorPart account = 0 ∧ aggregatorPart paymaster = 0 := by
  have hmarker : hexString Validation.SIG_VALIDATION_FAILED ≠ zeroAddress := by decide +kernel
  rw [← Validation.aggregator_eq_zero_iff, ← Validation.aggregator_eq_zero_iff,
    ← text_aggregator_eq_zero_iff]
  unfold Validation.mergeValidationDataValues Validation.mergeValidationData text
  by_cases hpaymaster : (Validation.parseValidationData paymaster).aggregator =
      Validation.zeroAddressBytes
  · simp [hpaymaster]
  · simp [hpaymaster, hmarker]

variable {ethers : EthersFunctions}

/-- Two words merge to the intersection of their windows, and to an aggregator
unless neither has one. -/
theorem merged_window_intersects (hdoc : Documented ethers) :
    ∃ (aggregator : String) (validAfter validUntil : ℕ),
      mergeValidationDataValues ethers account.toNat paymaster.toNat =
          .ok ⟨aggregator, some validAfter, some validUntil⟩ ∧
        (∀ time, (validAfter ≤ time ∧ time ≤ validUntil) ↔
          InWindow account time ∧ InWindow paymaster time) ∧
        (aggregator ≠ zeroAddress ↔ aggregatorPart account ≠ 0 ∨ aggregatorPart paymaster ≠ 0) := by
  refine ⟨_, _, _, mergeValidationDataValues_eq hdoc account paymaster,
    inWindow_merged_iff account paymaster, ?_⟩
  refine (merged_aggregator_eq_zero_iff account paymaster).not.trans ?_
  omega

/-- A window that begins, one that ends, and no aggregator. -/
theorem merged_window_of_two :
    ∃ (aggregator : String) (validAfter validUntil : ℕ),
      mergeValidationDataValues documentedFunctions (BitVec.toNat (5 <<< 208 : BitVec 256))
          (BitVec.toNat (9 <<< 160 : BitVec 256)) =
        .ok ⟨aggregator, some validAfter, some validUntil⟩ ∧
      (∀ time, (validAfter ≤ time ∧ time ≤ validUntil) ↔
        InWindow (5 <<< 208) time ∧ InWindow (9 <<< 160) time) ∧
      (aggregator ≠ zeroAddress ↔
        aggregatorPart (5 <<< 208) ≠ 0 ∨ aggregatorPart (9 <<< 160) ≠ 0) :=
  merged_window_intersects _ _ documentedFunctions_documented

end Windows

end Bundler.ValidityWindows
