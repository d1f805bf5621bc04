import Bundler.AbiEncoding
import Bundler.DeepHexlify

/-!
What the bundler uses of the ethers package, as parameters, and what ethers
documents of them. Data is passed as hex strings; a function throws on text
that is none, and on values that do not fit.
-/
namespace Bundler.Ethers

open AbiEncoding ByteStrings DataModel DeepHexlify HexStrings

/-- An argument of AbiCoder.encode under its type. -/
inductive AbiArgument
  | address (text : String)
  | uint256 (value : BigNumberish)
  | bytes (text : String)
  | bytes32 (text : String)

structure EthersFunctions where
  hexlify : String → Except JsError String
  /-- hexlify of a Uint8Array. -/
  hexlifyBytes : List ℕ → String
  toBeHex : Numeric → Except JsError String
  zeroPadValue : String → ℕ → Except JsError String
  dataSlice : String → ℕ → Option ℕ → Except JsError String
  getBytes : String → Except JsError (List ℕ)
  /-- The bytes of an address, if the text is one that ethers accepts. -/
  getAddress : String → Option (List ℕ)
  abiEncode : List AbiArgument → Except JsError String

/-- The value encoded for an argument, if it is one of its type. -/
def abiValue (getAddress : String → Option (List ℕ)) : AbiArgument → Option AbiValue
  | .address text => (getAddress text).map fun bytes => .word (padLeft 32 bytes)
  | .uint256 value =>
      if 0 ≤ value ∧ value < 2 ^ 256 then some (.word (toBytes 32 value.toNat)) else none
  | .bytes text => (HexStrings.getBytes text).map .dynamic
  | .bytes32 text =>
      ((HexStrings.getBytes text).filter fun bytes => bytes.length = 32).map .word

/-- The bytes of an encoding, if all arguments have their types. -/
def abiBytes (getAddress : String → Option (List ℕ)) (args : List AbiArgument) :
    Option (List ℕ) := (args.mapM (abiValue getAddress)).map encode

structure Documented (ethers : EthersFunctions) : Prop where
  hexlify : ∀ text bytes, HexStrings.getBytes text = some bytes →
    ethers.hexlify text = .ok (hexString bytes)
  hexlify_invalid : ∀ text, HexStrings.getBytes text = none → ∃ e, ethers.hexlify text = .error e
  hexlifyBytes : ∀ bytes, IsBytes bytes → ethers.hexlifyBytes bytes = hexString bytes
  toBeHex : DeepHexlify.Documented ethers.toBeHex
  zeroPadValue : ∀ text bytes width, HexStrings.getBytes text = some bytes →
    bytes.length ≤ width → ethers.zeroPadValue text width = .ok (hexString (padLeft width bytes))
  zeroPadValue_long : ∀ text bytes width, HexStrings.getBytes text = some bytes →
    width < bytes.length → ∃ e, ethers.zeroPadValue text width = .error e
  dataSlice : ∀ text bytes start stop, HexStrings.getBytes text = some bytes →
    stop.getD bytes.length ≤ bytes.length →
      ethers.dataSlice text start stop =
        .ok (hexString (slice bytes start (stop.getD bytes.length)))
  getBytes : ∀ text bytes, HexStrings.getBytes text = some bytes →
    ethers.getBytes text = .ok bytes
  getAddress : ∀ text bytes, ethers.getAddress text = some bytes →
    IsBytes bytes ∧ bytes.length = 20
  abiEncode : ∀ args bytes, abiBytes ethers.getAddress args = some bytes →
    ethers.abiEncode args = .ok (hexString bytes)
  abiEncode_invalid : ∀ args, abiBytes ethers.getAddress args = none →
    ∃ e, ethers.abiEncode args = .error e

section Abi

/-- A list is mapped when all its elements are. -/
theorem mapM_eq_some_iff {α β : Type} {f : α → Option β} {items : List α} {results : List β} :
    items.mapM f = some results ↔ List.Forall₂ (fun a b => f a = some b) items results := by
  induction items generalizing results with
  | nil =>
    rw [List.mapM_nil, List.forall₂_nil_left_iff]
    exact ⟨fun h => (Option.some.inj h).symm, fun h => congrArg some h.symm⟩
  | cons item items ih =>
    rw [List.mapM_cons, List.forall₂_cons_left_iff]
    simp only [Option.bind_eq_bind, Option.bind_eq_some_iff, ih]
    constructor
    · rintro ⟨b, hb, rest, hrest, ⟨⟩⟩
      exact ⟨b, rest, hb, hrest, rfl⟩
    · rintro ⟨b, rest, hb, hrest, rfl⟩
      exact ⟨b, hb, rest, hrest, rfl⟩

theorem abiBytes_eq_some_iff {getAddress : String → Option (List ℕ)} {args : List AbiArgument}
    {bytes : List ℕ} :
    abiBytes getAddress args = some bytes ↔
      ∃ values, List.Forall₂ (fun arg value => abiValue getAddress arg = some value) args values ∧
        encode values = bytes := by
  unfold abiBytes
  rw [Option.map_eq_some_iff]
  simp only [mapM_eq_some_iff]

section Values

variable {getAddress : String → Option (List ℕ)} {text : String} {bytes : List ℕ}

theorem abiValue_address (h : getAddress text = some bytes) :
    abiValue getAddress (.address text) = some (.word (padLeft 32 bytes)) :=
  Option.map_eq_some_iff.mpr ⟨bytes, h, rfl⟩

theorem abiValue_uint256 {value : ℤ} (h : 0 ≤ value ∧ value < 2 ^ 256) :
    abiValue getAddress (.uint256 value) = some (.word (toBytes 32 value.toNat)) := if_pos h

theorem abiValue_bytes (h : HexStrings.getBytes text = some bytes) :
    abiValue getAddress (.bytes text) = some (.dynamic bytes) :=
  Option.map_eq_some_iff.mpr ⟨bytes, h, rfl⟩

theorem abiValue_bytes32 (h : HexStrings.getBytes text = some bytes) (hlength : bytes.length = 32) :
    abiValue getAddress (.bytes32 text) = some (.word bytes) :=
  Option.map_eq_some_iff.mpr ⟨bytes, Option.filter_eq_some_iff.mpr
    ⟨h, decide_eq_true hlength⟩, rfl⟩

variable {value : AbiValue}

theorem of_abiValue_uint256 {number : ℤ} (h : abiValue getAddress (.uint256 number) = some value) :
    (0 ≤ number ∧ number < 2 ^ 256) ∧ value = .word (toBytes 32 number.toNat) := by
  change (if 0 ≤ number ∧ number < 2 ^ 256 then some (AbiValue.word _) else none) = _ at h
  split at h
  · exact ⟨‹_›, (Option.some.inj h).symm⟩
  · cases h

theorem of_abiValue_bytes (h : abiValue getAddress (.bytes text) = some value) :
    ∃ bytes, HexStrings.getBytes text = some bytes ∧ value = .dynamic bytes := by
  obtain ⟨bytes, hbytes, rfl⟩ := Option.map_eq_some_iff.mp h
  exact ⟨bytes, hbytes, rfl⟩

end Values

variable {ethers : EthersFunctions}

/-- A value has the bytes of its argument. -/
theorem Documented.isBytes_abiValue (hdoc : Documented ethers) {arg : AbiArgument}
    {value : AbiValue} (h : abiValue ethers.getAddress arg = some value) : value.IsBytes := by
  cases arg with
  | address text =>
    obtain ⟨bytes, hbytes, rfl⟩ := Option.map_eq_some_iff.mp h
    exact isBytes_padLeft 32 (hdoc.getAddress text bytes hbytes).1
  | uint256 value =>
    obtain ⟨_, rfl⟩ := of_abiValue_uint256 h
    exact isBytes_toBytes _ _
  | bytes text =>
    obtain ⟨bytes, hbytes, rfl⟩ := of_abiValue_bytes h
    exact (of_getBytes hbytes).1
  | bytes32 text =>
    obtain ⟨bytes, hfilter, rfl⟩ := Option.map_eq_some_iff.mp h
    exact (of_getBytes (Option.filter_eq_some_iff.mp hfilter).1).1

/-- The bytes of an encoding are those its text stands for. -/
theorem Documented.getBytes_abiEncode (hdoc : Documented ethers) {args : List AbiArgument}
    {bytes : List ℕ} (h : abiBytes ethers.getAddress args = some bytes) :
    (do
      let encoded ← ethers.abiEncode args
      ethers.getBytes encoded) = .ok bytes := by
  obtain ⟨values, hvalues, hencode⟩ := abiBytes_eq_some_iff.mp h
  have hall : ∀ value ∈ values, value.IsBytes := by
    clear hencode h
    induction hvalues with
    | nil => exact nofun
    | cons hvalue _ ih => exact List.forall_mem_cons.mpr ⟨hdoc.isBytes_abiValue hvalue, ih⟩
  have hbytes : IsBytes bytes := hencode ▸ isBytes_encode hall
  rw [hdoc.abiEncode args bytes h]
  exact hdoc.getBytes _ bytes (getBytes_hexString hbytes)

end Abi

section Numbers

variable {ethers : EthersFunctions}

theorem Documented.toBeHex_nonneg (hdoc : Documented ethers) {value : ℤ} (h : 0 ≤ value) :
    ethers.toBeHex (.bigint value) = .ok (hexString (shortest value.toNat)) := by
  have huint : (Numeric.bigint value).toUint = some value.toNat := if_pos h
  have hhex := hdoc.toBeHex.uint _ _ huint
  rw [evenDigits_eq] at hhex
  exact hhex

/-- A number that fits is written out in full, with zeros before it. -/
theorem Documented.zeroPadValue_shortest (hdoc : Documented ethers) {width value : ℕ}
    (hwidth : 0 < width) (h : value < 256 ^ width) :
    ethers.zeroPadValue (hexString (shortest value)) width =
      .ok (hexString (toBytes width value)) := by
  have hbytes := getBytes_hexString (isBytes_shortest value)
  have hlength := (length_shortest_le_iff hwidth value).mpr h
  have hpad := hdoc.zeroPadValue _ _ width hbytes hlength
  rw [padLeft_shortest hwidth h] at hpad
  exact hpad

end Numbers

section Concrete

/-- The result of a computation that throws when there is none. -/
def orThrow {α : Type} : Option α → Except JsError α
  | some a => .ok a
  | none => .error (.other none none)

/-- Functions that do just what is documented, with addresses of any case. -/
def documentedFunctions : EthersFunctions where
  hexlify text := orThrow ((HexStrings.getBytes text).map hexString)
  hexlifyBytes := hexString
  toBeHex := documentedToBeHex
  zeroPadValue text width :=
    orThrow (((HexStrings.getBytes text).filter fun bytes => bytes.length ≤ width).map
      fun bytes => hexString (padLeft width bytes))
  dataSlice text start stop :=
    orThrow (((HexStrings.getBytes text).filter
      fun bytes => stop.getD bytes.length ≤ bytes.length).map
        fun bytes => hexString (slice bytes start (stop.getD bytes.length)))
  getBytes text := orThrow (HexStrings.getBytes text)
  getAddress text := (HexStrings.getBytes text).filter fun bytes => bytes.length = 20
  abiEncode args :=
    orThrow ((abiBytes (fun text => (HexStrings.getBytes text).filter
      fun bytes => bytes.length = 20) args).map hexString)

theorem documentedFunctions_documented : Documented documentedFunctions where
  hexlify text bytes h := by
    change orThrow ((HexStrings.getBytes text).map hexString) = _
    rw [h]
    rfl
  hexlify_invalid text h := by
    change ∃ e, orThrow ((HexStrings.getBytes text).map hexString) = .error e
    rw [h]
    exact ⟨_, rfl⟩
  hexlifyBytes _ _ := rfl
  toBeHex := documented
  zeroPadValue text bytes width h hle := by
    change orThrow (((HexStrings.getBytes text).filter _).map _) = _
    rw [h, Option.filter_some_pos (by simpa using hle)]
    rfl
  zeroPadValue_long text bytes width h hlt := by
    change ∃ e, orThrow (((HexStrings.getBytes text).filter _).map _) = .error e
    rw [h, Option.filter_some_neg (by simpa using hlt)]
    exact ⟨_, rfl⟩
  dataSlice text bytes start stop h hle := by
    change orThrow (((HexStrings.getBytes text).filter _).map _) = _
    rw [h, Option.filter_some_pos (by simpa using hle)]
    rfl
  getBytes text bytes h := by
    change orThrow (HexStrings.getBytes text) = _
    rw [h]
    rfl
  getAddress text bytes h := by
    obtain ⟨hbytes, hlength⟩ := Option.filter_eq_some_iff.mp h
    exact ⟨(of_getBytes hbytes).1, of_decide_eq_true hlength⟩
  abiEncode args bytes h := by
    change orThrow ((abiBytes documentedFunctions.getAddress args).map hexString) = _
    rw [h]
    rfl
  abiEncode_invalid args h := by
    change ∃ e, orThrow ((abiBytes documentedFunctions.getAddress args).map hexString) = .error e
    rw [h]
    exact ⟨_, rfl⟩

end Concrete

end Bundler.Ethers
