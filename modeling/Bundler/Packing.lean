import Bundler.BigIntText
import Bundler.Ethers

/-!
The packed form of an operation, as the EntryPoint takes it: pairs of 128-bit
numbers in one word, and addresses in front of the data for them. Which parts
are there is told by the lengths. On well-formed operations packing loses
nothing but the letter case and the data of a paymaster that is not there, and
on packed operations of the EntryPoint's format unpacking loses nothing.
-/
namespace Bundler.Packing

open AsyncPrograms BigIntText ByteStrings DataModel DeepHexlify Ethers HexStrings

structure PackedUserOperation where
  sender : String
  nonce : BigNumberish
  initCode : String
  callData : String
  accountGasLimits : String
  preVerificationGas : BigNumberish
  gasFees : String
  paymasterAndData : String
  signature : String
  deriving DecidableEq, Repr

section Functions

variable (ethers : EthersFunctions)

def packUint (high128 low128 : BigNumberish) : Except JsError String := do
  let hex ← ethers.toBeHex (.bigint (high128 * 2 ^ 128 + low128))
  ethers.zeroPadValue hex 32

/-- BigInt of a string, which throws on text that is no number. -/
def toBigInt (text : String) : Except JsError BigNumberish :=
  match bigInt text with
  | some value => .ok value
  | none => .error (.other ("Cannot convert " ++ text ++ " to a BigInt") none)

def unpackUint (packed : String) : Except JsError (BigNumberish × BigNumberish) := do
  let hex ← ethers.hexlify packed
  let packedNumber ← toBigInt hex
  pure (packedNumber / 2 ^ 128, packedNumber % 2 ^ 128)

def hexConcat (items : List String) : Except JsError String :=
  items.foldlM (fun result item => do
    let hex ← ethers.hexlify item
    pure (result ++ String.ofList (hex.toList.drop 2))) "0x"

def packPaymasterData (paymaster : String)
    (paymasterVerificationGasLimit postOpGasLimit : BigNumberish)
    (paymasterData : Option String) : Except JsError String := do
  let limits ← packUint ethers paymasterVerificationGasLimit postOpGasLimit
  hexConcat ethers [paymaster, limits, paymasterData.getD "0x"]

def isHexString (value : String) : Bool :=
  match value.toList with
  | '0' :: 'x' :: digits => digits.all fun c => (digitValue c).isSome
  | _ => false

def hexDataLength (data : String) : Option ℕ :=
  if !isHexString data || data.length % 2 ≠ 0 then none else some ((data.length - 2) / 2)

structure UnpackedPaymaster where
  paymaster : String
  paymasterVerificationGas : BigNumberish
  postOpGasLimit : BigNumberish
  paymasterData : String

/-- A length of null is below 52. -/
def unpackPaymasterAndData (paymasterAndData : String) :
    Except JsError (Option UnpackedPaymaster) :=
  if paymasterAndData.length ≤ 2 then .ok none
  else if (hexDataLength paymasterAndData).getD 0 < 52 then
    .error (.other ("invalid PaymasterAndData: " ++ paymasterAndData) none)
  else do
    let limits ← ethers.dataSlice paymasterAndData 20 (some 52)
    let (paymasterVerificationGas, postOpGasLimit) ← unpackUint ethers limits
    let paymaster ← ethers.dataSlice paymasterAndData 0 (some 20)
    let paymasterData ← ethers.dataSlice paymasterAndData 52 none
    pure (some ⟨paymaster, paymasterVerificationGas, postOpGasLimit, paymasterData⟩)

/-- The paymasterAndData of a packed operation. -/
def packPaymaster (userOp : UserOperation) : Except JsError String :=
  match userOp.paymaster with
  | none => .ok "0x"
  | some paymaster =>
      match userOp.paymasterVerificationGasLimit, userOp.paymasterPostOpGasLimit with
      | some verificationGasLimit, some postOpGasLimit =>
          packPaymasterData ethers paymaster verificationGasLimit postOpGasLimit
            userOp.paymasterData
      | _, _ => .error (.other "paymaster with no gas limits" none)

/-- The initCode of a packed operation. -/
def packFactory (userOp : UserOperation) : Except JsError String :=
  match userOp.factory with
  | none => .ok "0x"
  | some factory => hexConcat ethers [factory, userOp.factoryData.getD ""]

def packUserOp (userOp : UserOperation) : Except JsError PackedUserOperation := do
  let paymasterAndData ← packPaymaster ethers userOp
  let initCode ← packFactory ethers userOp
  let accountGasLimits ← packUint ethers userOp.verificationGasLimit userOp.callGasLimit
  let gasFees ← packUint ethers userOp.maxPriorityFeePerGas userOp.maxFeePerGas
  pure
    { sender := userOp.sender
      nonce := userOp.nonce
      initCode := initCode
      callData := userOp.callData
      accountGasLimits := accountGasLimits
      preVerificationGas := userOp.preVerificationGas
      gasFees := gasFees
      paymasterAndData := paymasterAndData
      signature := userOp.signature }

/-- The factory and its data from an initCode, if there are any. -/
def unpackFactory (initCode : String) : Except JsError (Option (String × String)) :=
  if initCode.length > 2 then do
    let factory ← ethers.dataSlice initCode 0 (some 20)
    let factoryData ← ethers.dataSlice initCode 20 none
    pure (some (factory, factoryData))
  else .ok none

/-- The operation that the unpacked parts make up. -/
def unpackedFrom (packedUserOp : PackedUserOperation)
    (accountGasLimits gasFees : BigNumberish × BigNumberish) (factory : Option (String × String))
    (pmData : Option UnpackedPaymaster) : UserOperation where
  sender := packedUserOp.sender
  nonce := packedUserOp.nonce
  factory := factory.map Prod.fst
  factoryData := factory.map Prod.snd
  callData := packedUserOp.callData
  callGasLimit := accountGasLimits.2
  verificationGasLimit := accountGasLimits.1
  preVerificationGas := packedUserOp.preVerificationGas
  maxFeePerGas := gasFees.2
  maxPriorityFeePerGas := gasFees.1
  paymaster := pmData.map UnpackedPaymaster.paymaster
  paymasterVerificationGasLimit := pmData.map UnpackedPaymaster.paymasterVerificationGas
  paymasterPostOpGasLimit := pmData.map UnpackedPaymaster.postOpGasLimit
  paymasterData := pmData.map UnpackedPaymaster.paymasterData
  signature := packedUserOp.signature

def unpackUserOp (packedUserOp : PackedUserOperation) : Except JsError UserOperation := do
  let accountGasLimits ← unpackUint ethers packedUserOp.accountGasLimits
  let gasFees ← unpackUint ethers packedUserOp.gasFees
  let factory ← unpackFactory ethers packedUserOp.initCode
  let pmData ← unpackPaymasterAndData ethers packedUserOp.paymasterAndData
  pure (unpackedFrom packedUserOp accountGasLimits gasFees factory pmData)

end Functions

section Words

theorem toNat_lt_iff {value : ℤ} (h : 0 ≤ value) : value.toNat < 256 ^ 32 ↔ value < 2 ^ 256 := by
  rw [Int.toNat_lt h]
  norm_num

variable {ethers : EthersFunctions} (hdoc : Ethers.Documented ethers)

include hdoc

theorem packUint_eq {high128 low128 : ℤ} (hnonneg : 0 ≤ high128 * 2 ^ 128 + low128)
    (hlt : high128 * 2 ^ 128 + low128 < 2 ^ 256) :
    packUint ethers high128 low128 =
      .ok (hexString (toBytes 32 (high128 * 2 ^ 128 + low128).toNat)) := by
  have hvalue : (high128 * 2 ^ 128 + low128).toNat < 256 ^ 32 := (toNat_lt_iff hnonneg).mpr hlt
  unfold packUint
  rw [hdoc.toBeHex_nonneg hnonneg]
  exact hdoc.zeroPadValue_shortest (by omega) hvalue

/-- A pair that is no 256-bit number does not pack. -/
theorem packUint_invalid {high128 low128 : ℤ}
    (h : ¬(0 ≤ high128 * 2 ^ 128 + low128 ∧ high128 * 2 ^ 128 + low128 < 2 ^ 256)) :
    ∃ e, packUint ethers high128 low128 = .error e := by
  by_cases hnonneg : 0 ≤ high128 * 2 ^ 128 + low128
  · have hvalue : ¬(high128 * 2 ^ 128 + low128).toNat < 256 ^ 32 :=
      (toNat_lt_iff hnonneg).not.mpr fun hlt => h ⟨hnonneg, hlt⟩
    have hbytes := getBytes_hexString (isBytes_shortest (high128 * 2 ^ 128 + low128).toNat)
    have hlength : ¬(shortest (high128 * 2 ^ 128 + low128).toNat).length ≤ 32 :=
      fun hle => hvalue ((length_shortest_le_iff (by omega) _).mp hle)
    obtain ⟨e, he⟩ := hdoc.zeroPadValue_long _ _ 32 hbytes (Nat.not_le.mp hlength)
    unfold packUint
    rw [hdoc.toBeHex_nonneg hnonneg]
    exact ⟨e, he⟩
  · have huint : (Numeric.bigint (high128 * 2 ^ 128 + low128)).toUint = none := if_neg hnonneg
    obtain ⟨e, he⟩ := hdoc.toBeHex.other _ huint
    unfold packUint
    rw [he]
    exact ⟨e, rfl⟩

theorem unpackUint_eq {packed : String} {bytes : List ℕ} (h : getBytes packed = some bytes)
    (hne : bytes ≠ []) :
    unpackUint ethers packed =
      .ok ((ofBytes bytes : ℤ) / 2 ^ 128, (ofBytes bytes : ℤ) % 2 ^ 128) := by
  have hhex := hdoc.hexlify packed bytes h
  have hnumber : toBigInt (hexString bytes) = .ok (ofBytes bytes : ℤ) := by
    unfold toBigInt
    rw [bigInt_hexString (of_getBytes h).1 hne]
  unfold unpackUint
  rw [hhex]
  change (do
    let packedNumber ← toBigInt (hexString bytes)
    pure (packedNumber / 2 ^ 128, packedNumber % 2 ^ 128)) = _
  rw [hnumber]
  rfl

/-- Texts of bytes are concatenated as bytes. -/
theorem hexConcat_eq {items : List String} {parts : List (List ℕ)}
    (h : List.Forall₂ (fun item bytes => getBytes item = some bytes) items parts) :
    hexConcat ethers items = .ok (hexString parts.flatten) := by
  -- the result is the text for the parts so far
  have hfold (done : List ℕ) :
      items.foldlM (fun result item => do
        let hex ← ethers.hexlify item
        pure (result ++ String.ofList (hex.toList.drop 2))) (hexString done) =
          (.ok (hexString (done ++ parts.flatten)) : Except JsError String) := by
    induction h generalizing done with
    | nil =>
      rw [List.flatten_nil, List.append_nil]
      rfl
    | @cons item bytes items parts hitem _ ih =>
      rw [List.foldlM_cons, hdoc.hexlify item bytes hitem]
      change List.foldlM _ (hexString done ++ String.ofList ((hexString bytes).toList.drop 2))
        items = _
      have hnext : hexString done ++ String.ofList ((hexString bytes).toList.drop 2) =
          hexString (done ++ bytes) := by
        unfold hexString
        rw [String.toList_ofList, ← String.ofList_append, writeDigits_append]
        rfl
      rw [hnext, ih, List.flatten_cons, List.append_assoc]
  exact hfold []

end Words

section Parts

variable {ethers : EthersFunctions} {text : String} {bytes : List ℕ}

/-- Two texts of the same bytes differ in letter case at most. -/
theorem toLowerCase_of_getBytes (h : getBytes text = some bytes) :
    toLowerCase text = hexString bytes := (of_getBytes h).2

/-- Two texts for the same bytes. -/
theorem toLowerCase_eq {text' : String} (h : getBytes text = some bytes)
    (h' : getBytes text' = some bytes) : toLowerCase text = toLowerCase text' := by
  rw [toLowerCase_of_getBytes h, toLowerCase_of_getBytes h']

theorem toLowerCase_hexString (h : IsBytes bytes) :
    toLowerCase (hexString bytes) = hexString bytes :=
  toLowerCase_of_getBytes (getBytes_hexString h)

theorem isHexString_hexString (h : IsBytes bytes) : isHexString (hexString bytes) := by
  unfold isHexString hexString
  rw [String.toList_ofList]
  refine List.all_eq_true.mpr fun c hc => ?_
  obtain ⟨byte, hbyte, hpair⟩ := List.mem_flatMap.mp hc
  have hlt := h byte hbyte
  rcases List.mem_cons.mp hpair with rfl | hlast
  · rw [digitValue_digitChar (by omega)]
    rfl
  · obtain rfl := List.mem_singleton.mp hlast
    rw [digitValue_digitChar (by omega)]
    rfl

theorem slice_end (start : ℕ) : slice bytes start bytes.length = bytes.drop start := by
  unfold slice
  rw [List.take_length]

theorem hexDataLength_eq (hhex : isHexString text) (h : getBytes text = some bytes) :
    hexDataLength text = some bytes.length := by
  have hlength := length_of_getBytes h
  have heven : text.length % 2 = 0 := by omega
  have hhalf : (text.length - 2) / 2 = bytes.length := by omega
  unfold hexDataLength
  rw [hhex, heven, hhalf]
  rfl

theorem unpackFactory_empty (h : getBytes text = some []) :
    unpackFactory ethers text = .ok none := by
  have hlength := length_of_getBytes h
  unfold unpackFactory
  rw [if_neg (by simp [hlength])]

theorem unpackPaymasterAndData_empty (h : getBytes text = some []) :
    unpackPaymasterAndData ethers text = .ok none := by
  have hlength := length_of_getBytes h
  unfold unpackPaymasterAndData
  rw [if_pos (by simp [hlength])]

variable (hdoc : Ethers.Documented ethers)

include hdoc

theorem unpackFactory_eq (h : getBytes text = some bytes) (hlength : 20 ≤ bytes.length) :
    unpackFactory ethers text =
      .ok (some (hexString (bytes.take 20), hexString (bytes.drop 20))) := by
  have htext := length_of_getBytes h
  have hfirst := hdoc.dataSlice text bytes 0 (some 20) h hlength
  have hrest := hdoc.dataSlice text bytes 20 none h (Nat.le_refl _)
  unfold unpackFactory
  rw [if_pos (by omega), hfirst, hrest]
  change Except.ok (some (hexString (bytes.take 20), hexString (slice bytes 20 bytes.length))) = _
  rw [slice_end]

theorem unpackPaymasterAndData_eq (hhex : isHexString text) (h : getBytes text = some bytes)
    (hlength : 52 ≤ bytes.length) :
    unpackPaymasterAndData ethers text = .ok (some
      { paymaster := hexString (bytes.take 20)
        paymasterVerificationGas := (ofBytes (slice bytes 20 52) : ℤ) / 2 ^ 128
        postOpGasLimit := (ofBytes (slice bytes 20 52) : ℤ) % 2 ^ 128
        paymasterData := hexString (bytes.drop 52) }) := by
  have htext := length_of_getBytes h
  have hbytes := (of_getBytes h).1
  have hlimits := hdoc.dataSlice text bytes 20 (some 52) h hlength
  have hfirst := hdoc.dataSlice text bytes 0 (some 20) h (by simp; omega)
  have hrest := hdoc.dataSlice text bytes 52 none h (Nat.le_refl _)
  have hne : slice bytes 20 52 ≠ [] := by
    refine List.ne_nil_of_length_pos ?_
    unfold slice
    rw [List.length_drop, List.length_take]
    omega
  have hunpack := unpackUint_eq hdoc (getBytes_hexString (hbytes.slice 20 52)) hne
  unfold unpackPaymasterAndData
  rw [if_neg (by omega), hexDataLength_eq hhex h, if_neg (by simpa using hlength), hlimits, hfirst,
    hrest]
  change (do
    let (paymasterVerificationGas, postOpGasLimit) ←
      unpackUint ethers (hexString (slice bytes 20 52))
    pure (some (UnpackedPaymaster.mk (hexString (bytes.take 20)) paymasterVerificationGas
      postOpGasLimit (hexString (slice bytes 52 bytes.length))))) = _
  rw [hunpack, slice_end]
  rfl

end Parts

section WellFormed

/-- A 20-byte hex address. -/
def IsAddress (text : String) : Prop := ∃ bytes, getBytes text = some bytes ∧ bytes.length = 20

def IsByteString (text : String) : Prop := ∃ bytes, getBytes text = some bytes

def Below128 (value : ℤ) : Prop := 0 ≤ value ∧ value < 2 ^ 128

structure WellFormed (op : UserOperation) : Prop where
  sender : IsAddress op.sender
  factory : ∀ factory ∈ op.factory, IsAddress factory
  factoryData : ∀ factoryData ∈ op.factoryData, IsByteString factoryData
  factoryData_iff : op.factoryData.isSome ↔ op.factory.isSome
  callData : IsByteString op.callData
  callGasLimit : Below128 op.callGasLimit
  verificationGasLimit : Below128 op.verificationGasLimit
  maxFeePerGas : Below128 op.maxFeePerGas
  maxPriorityFeePerGas : Below128 op.maxPriorityFeePerGas
  paymaster : ∀ paymaster ∈ op.paymaster, IsAddress paymaster
  verificationLimit : ∀ limit ∈ op.paymasterVerificationGasLimit, Below128 limit
  verificationLimit_iff : op.paymasterVerificationGasLimit.isSome ↔ op.paymaster.isSome
  postOpLimit : ∀ limit ∈ op.paymasterPostOpGasLimit, Below128 limit
  postOpLimit_iff : op.paymasterPostOpGasLimit.isSome ↔ op.paymaster.isSome
  paymasterData : ∀ paymasterData ∈ op.paymasterData, IsByteString paymasterData
  signature : IsByteString op.signature

/-- Equal fields, but for the letter case of hex; an absent paymasterData is
'0x'. -/
structure SameOperation (op other : UserOperation) : Prop where
  sender : toLowerCase op.sender = toLowerCase other.sender
  nonce : op.nonce = other.nonce
  factory : op.factory.map toLowerCase = other.factory.map toLowerCase
  factoryData : op.factoryData.map toLowerCase = other.factoryData.map toLowerCase
  callData : toLowerCase op.callData = toLowerCase other.callData
  callGasLimit : op.callGasLimit = other.callGasLimit
  verificationGasLimit : op.verificationGasLimit = other.verificationGasLimit
  preVerificationGas : op.preVerificationGas = other.preVerificationGas
  maxFeePerGas : op.maxFeePerGas = other.maxFeePerGas
  maxPriorityFeePerGas : op.maxPriorityFeePerGas = other.maxPriorityFeePerGas
  paymaster : op.paymaster.map toLowerCase = other.paymaster.map toLowerCase
  paymasterVerificationGasLimit :
    op.paymasterVerificationGasLimit = other.paymasterVerificationGasLimit
  paymasterPostOpGasLimit : op.paymasterPostOpGasLimit = other.paymasterPostOpGasLimit
  paymasterData : toLowerCase (op.paymasterData.getD "0x") =
    toLowerCase (other.paymasterData.getD "0x")
  signature : toLowerCase op.signature = toLowerCase other.signature

/-- A field of some bytes in the format of the EntryPoint. -/
def IsField (text : String) (fits : ℕ → Prop) : Prop :=
  ∃ bytes, isHexString text ∧ getBytes text = some bytes ∧ fits bytes.length

structure EntryPointFormat (packed : PackedUserOperation) : Prop where
  initCode : IsField packed.initCode fun length => length = 0 ∨ 20 ≤ length
  callData : IsField packed.callData fun _ => True
  accountGasLimits : IsField packed.accountGasLimits fun length => length = 32
  gasFees : IsField packed.gasFees fun length => length = 32
  paymasterAndData : IsField packed.paymasterAndData fun length => length = 0 ∨ 52 ≤ length
  signature : IsField packed.signature fun _ => True

structure SamePacked (packed other : PackedUserOperation) : Prop where
  sender : toLowerCase packed.sender = toLowerCase other.sender
  nonce : packed.nonce = other.nonce
  initCode : toLowerCase packed.initCode = toLowerCase other.initCode
  callData : toLowerCase packed.callData = toLowerCase other.callData
  accountGasLimits : toLowerCase packed.accountGasLimits = toLowerCase other.accountGasLimits
  preVerificationGas : packed.preVerificationGas = other.preVerificationGas
  gasFees : toLowerCase packed.gasFees = toLowerCase other.gasFees
  paymasterAndData : toLowerCase packed.paymasterAndData = toLowerCase other.paymasterAndData
  signature : toLowerCase packed.signature = toLowerCase other.signature

end WellFormed

section RoundTrips

variable {ethers : EthersFunctions}

/-- One word for two numbers that fit their halves. -/
def wordOf (high128 low128 : ℤ) : List ℕ :=
  toBytes 32 (high128 * 2 ^ 128 + low128).toNat

theorem getBytes_wordOf (high128 low128 : ℤ) :
    getBytes (hexString (wordOf high128 low128)) = some (wordOf high128 low128) :=
  getBytes_hexString (isBytes_toBytes _ _)

theorem length_wordOf (high128 low128 : ℤ) : (wordOf high128 low128).length = 32 :=
  length_toBytes _ _

theorem ofBytes_wordOf {high128 low128 : ℤ} (hhigh : Below128 high128)
    (hlow : Below128 low128) :
    (ofBytes (wordOf high128 low128) : ℤ) = high128 * 2 ^ 128 + low128 := by
  have hnonneg : 0 ≤ high128 * 2 ^ 128 + low128 := by
    have hpos := hhigh.1
    have hpos' := hlow.1
    positivity
  have hlt : high128 * 2 ^ 128 + low128 < 2 ^ 256 := by
    have hhigh' := hhigh.2
    have hlow' := hlow.2
    omega
  unfold wordOf
  rw [ofBytes_toBytes, Nat.mod_eq_of_lt ((toNat_lt_iff hnonneg).mpr hlt),
    Int.toNat_of_nonneg hnonneg]

/-- The halves are read off again. -/
theorem halves_of_wordOf {high128 low128 : ℤ} (hhigh : Below128 high128)
    (hlow : Below128 low128) :
    (ofBytes (wordOf high128 low128) : ℤ) / 2 ^ 128 = high128 ∧
      (ofBytes (wordOf high128 low128) : ℤ) % 2 ^ 128 = low128 := by
  obtain ⟨_, _⟩ := hhigh
  obtain ⟨_, _⟩ := hlow
  rw [ofBytes_wordOf ⟨‹_›, ‹_›⟩ ⟨‹_›, ‹_›⟩]
  omega

/-- Halves that fit are read off their word. -/
theorem halves_inj {high128 low128 high128' low128' : ℤ} (hhigh : Below128 high128)
    (hlow : Below128 low128) (hhigh' : Below128 high128') (hlow' : Below128 low128')
    (heq : high128 * 2 ^ 128 + low128 = high128' * 2 ^ 128 + low128') :
    high128 = high128' ∧ low128 = low128' := by
  obtain ⟨_, _⟩ := hhigh
  obtain ⟨_, _⟩ := hlow
  obtain ⟨_, _⟩ := hhigh'
  obtain ⟨_, _⟩ := hlow'
  omega

variable (hdoc : Ethers.Documented ethers)

include hdoc

theorem packUint_word {high128 low128 : ℤ} (hhigh : Below128 high128) (hlow : Below128 low128) :
    packUint ethers high128 low128 = .ok (hexString (wordOf high128 low128)) := by
  obtain ⟨_, _⟩ := hhigh
  obtain ⟨_, _⟩ := hlow
  exact packUint_eq hdoc (by omega) (by omega)

theorem unpackUint_word {high128 low128 : ℤ} (hhigh : Below128 high128) (hlow : Below128 low128) :
    unpackUint ethers (hexString (wordOf high128 low128)) = .ok (high128, low128) := by
  have hne : wordOf high128 low128 ≠ [] :=
    List.ne_nil_of_length_pos (by rw [length_wordOf]; omega)
  obtain ⟨hfirst, hsecond⟩ := halves_of_wordOf hhigh hlow
  rw [unpackUint_eq hdoc (getBytes_wordOf high128 low128) hne, hfirst, hsecond]

theorem packFactory_eq {op : UserOperation} {factory factoryData : String} {address data : List ℕ}
    (hfactory : op.factory = some factory) (hfactoryData : op.factoryData = some factoryData)
    (haddress : getBytes factory = some address) (hdata : getBytes factoryData = some data) :
    packFactory ethers op = .ok (hexString (address ++ data)) := by
  have hconcat := hexConcat_eq hdoc (.cons haddress (.cons hdata .nil))
  unfold packFactory
  rw [hfactory, hfactoryData]
  simpa using hconcat

theorem packPaymasterData_eq {paymaster : String} {verificationLimit postOpLimit : ℤ}
    {paymasterData : Option String} {address word data : List ℕ}
    (haddress : getBytes paymaster = some address)
    (hword : packUint ethers verificationLimit postOpLimit = .ok (hexString word))
    (hbytes : IsBytes word) (hdata : getBytes (paymasterData.getD "0x") = some data) :
    packPaymasterData ethers paymaster verificationLimit postOpLimit paymasterData =
      .ok (hexString (address ++ (word ++ data))) := by
  have hconcat := hexConcat_eq hdoc
    (.cons haddress (.cons (getBytes_hexString hbytes) (.cons hdata .nil)))
  unfold packPaymasterData
  rw [hword]
  change hexConcat ethers [paymaster, hexString word, paymasterData.getD "0x"] = _
  simpa using hconcat

/-- The factory and its data survive packing. -/
theorem unpackFactory_packFactory {op : UserOperation} (hop : WellFormed op) :
    ∃ initCode back, packFactory ethers op = .ok initCode ∧
      unpackFactory ethers initCode = .ok back ∧
        (back.map Prod.fst).map toLowerCase = op.factory.map toLowerCase ∧
          (back.map Prod.snd).map toLowerCase = op.factoryData.map toLowerCase := by
  have hboth := hop.factoryData_iff
  cases hfactory : op.factory with
  | none =>
    rw [hfactory] at hboth
    have hfactoryData : op.factoryData = none := by simpa using hboth
    refine ⟨"0x", none, ?_, unpackFactory_empty rfl, rfl, ?_⟩
    · unfold packFactory
      rw [hfactory]
    · rw [hfactoryData]
      rfl
  | some factory =>
    rw [hfactory] at hboth
    obtain ⟨factoryData, hfactoryData⟩ := Option.isSome_iff_exists.mp (hboth.mpr rfl)
    obtain ⟨address, haddress, hlength⟩ := hop.factory factory hfactory
    obtain ⟨data, hdata⟩ := hop.factoryData factoryData hfactoryData
    have hbytes : IsBytes (address ++ data) :=
      isBytes_append.mpr ⟨(of_getBytes haddress).1, (of_getBytes hdata).1⟩
    have hunpack := unpackFactory_eq hdoc (getBytes_hexString hbytes)
      (by rw [List.length_append]; omega)
    rw [List.take_left' hlength, List.drop_left' hlength] at hunpack
    refine ⟨_, _, packFactory_eq hdoc hfactory hfactoryData haddress hdata, hunpack, ?_, ?_⟩
    · change some (toLowerCase (hexString address)) = some (toLowerCase factory)
      rw [toLowerCase_of_getBytes haddress, toLowerCase_hexString (of_getBytes haddress).1]
    · change some (toLowerCase (hexString data)) = op.factoryData.map toLowerCase
      rw [hfactoryData, toLowerCase_hexString (of_getBytes hdata).1,
        ← toLowerCase_of_getBytes hdata]
      rfl

/-- So do the paymaster and its fields; without one the data is dropped. -/
theorem unpackPaymaster_packPaymaster {op : UserOperation} (hop : WellFormed op) :
    ∃ paymasterAndData back, packPaymaster ethers op = .ok paymasterAndData ∧
      unpackPaymasterAndData ethers paymasterAndData = .ok back ∧
        (back.map UnpackedPaymaster.paymaster).map toLowerCase = op.paymaster.map toLowerCase ∧
        back.map UnpackedPaymaster.paymasterVerificationGas = op.paymasterVerificationGasLimit ∧
        back.map UnpackedPaymaster.postOpGasLimit = op.paymasterPostOpGasLimit ∧
        toLowerCase ((back.map UnpackedPaymaster.paymasterData).getD "0x") =
          if op.paymaster = none then "0x" else toLowerCase (op.paymasterData.getD "0x") := by
  have hverification := hop.verificationLimit_iff
  have hpostOp := hop.postOpLimit_iff
  cases hpaymaster : op.paymaster with
  | none =>
    rw [hpaymaster] at hverification hpostOp
    have hnone : op.paymasterVerificationGasLimit = none := by simpa using hverification
    have hnone' : op.paymasterPostOpGasLimit = none := by simpa using hpostOp
    refine ⟨"0x", none, ?_, unpackPaymasterAndData_empty rfl, rfl, hnone.symm, hnone'.symm, rfl⟩
    unfold packPaymaster
    rw [hpaymaster]
  | some paymaster =>
    rw [hpaymaster] at hverification hpostOp
    obtain ⟨verificationLimit, hlimit⟩ := Option.isSome_iff_exists.mp (hverification.mpr rfl)
    obtain ⟨postOpLimit, hlimit'⟩ := Option.isSome_iff_exists.mp (hpostOp.mpr rfl)
    have hfits := hop.verificationLimit verificationLimit hlimit
    have hfits' := hop.postOpLimit postOpLimit hlimit'
    obtain ⟨address, haddress, hlength⟩ := hop.paymaster paymaster hpaymaster
    obtain ⟨data, hdata⟩ : ∃ data, getBytes (op.paymasterData.getD "0x") = some data := by
      cases hpaymasterData : op.paymasterData with
      | none => exact ⟨[], rfl⟩
      | some paymasterData => exact hop.paymasterData paymasterData hpaymasterData
    have hword := isBytes_toBytes 32 (verificationLimit * 2 ^ 128 + postOpLimit).toNat
    have hbytes : IsBytes (address ++ (wordOf verificationLimit postOpLimit ++ data)) :=
      isBytes_append.mpr ⟨(of_getBytes haddress).1,
        isBytes_append.mpr ⟨hword, (of_getBytes hdata).1⟩⟩
    have hpack := packPaymasterData_eq hdoc haddress (packUint_word hdoc hfits hfits') hword hdata
    have hunpack := unpackPaymasterAndData_eq hdoc (isHexString_hexString hbytes)
      (getBytes_hexString hbytes) (by simp [length_wordOf, hlength]; omega)
    have hslice : slice (address ++ (wordOf verificationLimit postOpLimit ++ data)) 20 52 =
        wordOf verificationLimit postOpLimit := by
      unfold slice
      rw [List.drop_take, List.drop_left' hlength]
      exact List.take_left' (length_wordOf _ _)
    have hdrop : (address ++ (wordOf verificationLimit postOpLimit ++ data)).drop 52 = data := by
      rw [← List.append_assoc]
      exact List.drop_left' (by rw [List.length_append, hlength, length_wordOf])
    obtain ⟨hhigh, hlow⟩ := halves_of_wordOf hfits hfits'
    rw [List.take_left' hlength, hslice, hdrop, hhigh, hlow] at hunpack
    refine ⟨_, _, ?_, hunpack, ?_, hlimit.symm, hlimit'.symm, ?_⟩
    · unfold packPaymaster
      rw [hpaymaster, hlimit, hlimit']
      exact hpack
    · change some (toLowerCase (hexString address)) = some (toLowerCase paymaster)
      rw [toLowerCase_of_getBytes haddress, toLowerCase_hexString (of_getBytes haddress).1]
    · change toLowerCase (hexString data) = _
      rw [if_neg nofun, toLowerCase_of_getBytes hdata, toLowerCase_hexString (of_getBytes hdata).1]

/-- A word of 32 bytes is what its halves pack to. -/
theorem packUint_halves {bytes : List ℕ} (h : IsBytes bytes) (hlength : bytes.length = 32) :
    packUint ethers ((ofBytes bytes : ℤ) / 2 ^ 128) ((ofBytes bytes : ℤ) % 2 ^ 128) =
      .ok (hexString bytes) := by
  have hlt : ofBytes bytes < 256 ^ 32 := hlength ▸ ofBytes_lt h
  have hsum : (ofBytes bytes : ℤ) / 2 ^ 128 * 2 ^ 128 + (ofBytes bytes : ℤ) % 2 ^ 128 =
      ofBytes bytes := Int.ediv_mul_add_emod _ _
  have hlt' : (ofBytes bytes : ℤ) < 2 ^ 256 := by
    rw [← toNat_lt_iff (Int.natCast_nonneg _), Int.toNat_natCast]
    exact hlt
  have hnonneg : 0 ≤ (ofBytes bytes : ℤ) / 2 ^ 128 * 2 ^ 128 + (ofBytes bytes : ℤ) % 2 ^ 128 := by
    rw [hsum]
    exact Int.natCast_nonneg _
  have hfits : (ofBytes bytes : ℤ) / 2 ^ 128 * 2 ^ 128 + (ofBytes bytes : ℤ) % 2 ^ 128 <
      2 ^ 256 := by
    rw [hsum]
    exact hlt'
  have hpack := packUint_eq hdoc hnonneg hfits
  rw [hsum, Int.toNat_natCast, ← hlength, toBytes_ofBytes h] at hpack
  exact hpack

theorem packUint_unpackUint {text : String} (h : IsField text fun length => length = 32) :
    ∃ high128 low128 word, unpackUint ethers text = .ok (high128, low128) ∧
      packUint ethers high128 low128 = .ok word ∧ toLowerCase word = toLowerCase text := by
  obtain ⟨bytes, _, hbytes, hlength⟩ := h
  have hisBytes := (of_getBytes hbytes).1
  have hne : bytes ≠ [] := List.ne_nil_of_length_pos (by omega)
  refine ⟨_, _, _, unpackUint_eq hdoc hbytes hne, packUint_halves hdoc hisBytes hlength, ?_⟩
  rw [toLowerCase_hexString hisBytes, toLowerCase_of_getBytes hbytes]

theorem packFactory_unpackFactory {text : String}
    (h : IsField text fun length => length = 0 ∨ 20 ≤ length) :
    ∃ back, unpackFactory ethers text = .ok back ∧
      ∀ op : UserOperation, op.factory = back.map Prod.fst → op.factoryData = back.map Prod.snd →
        ∃ initCode, packFactory ethers op = .ok initCode ∧
          toLowerCase initCode = toLowerCase text := by
  obtain ⟨bytes, _, hbytes, hlength⟩ := h
  have hisBytes := (of_getBytes hbytes).1
  rcases hlength with hzero | hlength
  · obtain rfl := List.length_eq_zero_iff.mp hzero
    refine ⟨none, unpackFactory_empty hbytes, fun op hfactory _ => ⟨"0x", ?_, ?_⟩⟩
    · unfold packFactory
      rw [hfactory]
      rfl
    · rw [toLowerCase_of_getBytes hbytes]
      rfl
  · have hsplit : bytes.take 20 ++ bytes.drop 20 = bytes := List.take_append_drop 20 bytes
    have hparts := isBytes_append.mp (hsplit.symm ▸ hisBytes)
    refine ⟨_, unpackFactory_eq hdoc hbytes hlength, fun op hfactory hfactoryData => ⟨_,
      packFactory_eq hdoc hfactory hfactoryData (getBytes_hexString hparts.1)
        (getBytes_hexString hparts.2), ?_⟩⟩
    rw [hsplit, toLowerCase_hexString hisBytes, toLowerCase_of_getBytes hbytes]

theorem packPaymaster_unpackPaymaster {text : String}
    (h : IsField text fun length => length = 0 ∨ 52 ≤ length) :
    ∃ back, unpackPaymasterAndData ethers text = .ok back ∧
      ∀ op : UserOperation, op.paymaster = back.map UnpackedPaymaster.paymaster →
        op.paymasterVerificationGasLimit = back.map UnpackedPaymaster.paymasterVerificationGas →
        op.paymasterPostOpGasLimit = back.map UnpackedPaymaster.postOpGasLimit →
        op.paymasterData = back.map UnpackedPaymaster.paymasterData →
          ∃ paymasterAndData, packPaymaster ethers op = .ok paymasterAndData ∧
            toLowerCase paymasterAndData = toLowerCase text := by
  obtain ⟨bytes, hhex, hbytes, hlength⟩ := h
  have hisBytes := (of_getBytes hbytes).1
  rcases hlength with hzero | hlength
  · obtain rfl := List.length_eq_zero_iff.mp hzero
    refine ⟨none, unpackPaymasterAndData_empty hbytes, fun op hpaymaster _ _ _ => ⟨"0x", ?_, ?_⟩⟩
    · unfold packPaymaster
      rw [hpaymaster]
      rfl
    · rw [toLowerCase_of_getBytes hbytes]
      rfl
  · have hsplit : bytes.take 20 ++ (slice bytes 20 52 ++ bytes.drop 52) = bytes := by
      have hslice : slice bytes 20 52 = (bytes.drop 20).take 32 := List.drop_take
      have hdrop : bytes.drop 52 = (bytes.drop 20).drop 32 := by rw [List.drop_drop]
      rw [hslice, hdrop, List.take_append_drop, List.take_append_drop]
    have hparts := isBytes_append.mp (hsplit.symm ▸ hisBytes)
    have hparts' := isBytes_append.mp hparts.2
    have hlength' : (slice bytes 20 52).length = 32 := by
      unfold slice
      rw [List.length_drop, List.length_take]
      omega
    refine ⟨_, unpackPaymasterAndData_eq hdoc hhex hbytes hlength,
      fun op hpaymaster hlimit hlimit' hpaymasterData => ⟨hexString bytes, ?_, ?_⟩⟩
    · have hdata : getBytes (op.paymasterData.getD "0x") = some (bytes.drop 52) := by
        rw [hpaymasterData]
        exact getBytes_hexString hparts'.2
      have hpack := packPaymasterData_eq hdoc (getBytes_hexString hparts.1)
        (packUint_halves hdoc hparts'.1 hlength') hparts'.1 hdata
      rw [hsplit] at hpack
      unfold packPaymaster
      rw [hpaymaster, hlimit, hlimit']
      exact hpack
    · rw [toLowerCase_hexString hisBytes, toLowerCase_of_getBytes hbytes]

end RoundTrips

section Packable

/-- A pair of numbers that one word takes; the halves themselves may not
fit. -/
def FitsWord (high128 low128 : ℤ) : Prop :=
  0 ≤ high128 * 2 ^ 128 + low128 ∧ high128 * 2 ^ 128 + low128 < 2 ^ 256

theorem wordOf_inj {high128 low128 high128' low128' : ℤ} (h : FitsWord high128 low128)
    (h' : FitsWord high128' low128') (heq : wordOf high128 low128 = wordOf high128' low128') :
    high128 * 2 ^ 128 + low128 = high128' * 2 ^ 128 + low128' := by
  have hmod := (toBytes_eq_iff _ _ _).mp heq
  rw [Nat.mod_eq_of_lt ((toNat_lt_iff h.1).mpr h.2),
    Nat.mod_eq_of_lt ((toNat_lt_iff h'.1).mpr h'.2)] at hmod
  have hcast := congrArg Int.ofNat hmod
  rw [Int.ofNat_eq_natCast, Int.ofNat_eq_natCast, Int.toNat_of_nonneg h.1,
    Int.toNat_of_nonneg h'.1] at hcast
  exact hcast

/-- The bytes of the initCode. -/
def IsInitCode (op : UserOperation) (bytes : List ℕ) : Prop :=
  match op.factory with
  | none => bytes = []
  | some factory =>
      ∃ address data, getBytes factory = some address ∧
        getBytes (op.factoryData.getD "") = some data ∧ bytes = address ++ data

/-- The bytes of the paymasterAndData. -/
def IsPaymasterAndData (op : UserOperation) (bytes : List ℕ) : Prop :=
  match op.paymaster with
  | none => bytes = []
  | some paymaster =>
      ∃ verificationLimit postOpLimit address data,
        op.paymasterVerificationGasLimit = some verificationLimit ∧
        op.paymasterPostOpGasLimit = some postOpLimit ∧ FitsWord verificationLimit postOpLimit ∧
        getBytes paymaster = some address ∧ getBytes (op.paymasterData.getD "0x") = some data ∧
        bytes = address ++ (wordOf verificationLimit postOpLimit ++ data)

variable {ethers : EthersFunctions} (hdoc : Ethers.Documented ethers) {op : UserOperation}

include hdoc

theorem packUint_ok_iff {high128 low128 : ℤ} {text : String} :
    packUint ethers high128 low128 = .ok text ↔
      FitsWord high128 low128 ∧ text = hexString (wordOf high128 low128) := by
  constructor
  · intro hpack
    by_cases h : FitsWord high128 low128
    · exact ⟨h, Except.ok.inj (hpack.symm.trans (packUint_eq hdoc h.1 h.2))⟩
    · obtain ⟨e, he⟩ := packUint_invalid hdoc h
      cases hpack.symm.trans he
  · rintro ⟨h, rfl⟩
    exact packUint_eq hdoc h.1 h.2

theorem hexlify_ok_iff {item hex : String} :
    ethers.hexlify item = .ok hex ↔
      ∃ bytes, getBytes item = some bytes ∧ hex = hexString bytes := by
  constructor
  · intro hhex
    cases hitem : getBytes item with
    | none =>
      obtain ⟨e, he⟩ := hdoc.hexlify_invalid item hitem
      cases hhex.symm.trans he
    | some bytes =>
      have hok := hdoc.hexlify item bytes hitem
      exact ⟨bytes, rfl, Except.ok.inj (hhex.symm.trans hok)⟩
  · rintro ⟨bytes, hbytes, rfl⟩
    exact hdoc.hexlify item bytes hbytes

/-- Only texts of bytes are concatenated. -/
theorem hexConcat_ok_iff {items : List String} {text : String} :
    hexConcat ethers items = .ok text ↔
      ∃ parts, List.Forall₂ (fun item bytes => getBytes item = some bytes) items parts ∧
        text = hexString parts.flatten := by
  constructor
  · intro hconcat
    have hparts : ∃ parts,
        List.Forall₂ (fun item bytes => getBytes item = some bytes) items parts := by
      unfold hexConcat at hconcat
      generalize "0x" = result at hconcat
      induction items generalizing result with
      | nil => exact ⟨[], .nil⟩
      | cons item items ih =>
        rw [List.foldlM_cons] at hconcat
        obtain ⟨next, hitem, hrest⟩ := except_bind_eq_ok_iff.mp hconcat
        obtain ⟨hex, hhex, _⟩ := except_bind_eq_ok_iff.mp hitem
        obtain ⟨bytes, hbytes, _⟩ := (hexlify_ok_iff hdoc).mp hhex
        obtain ⟨parts, hparts⟩ := ih next hrest
        exact ⟨bytes :: parts, .cons hbytes hparts⟩
    obtain ⟨parts, hparts⟩ := hparts
    exact ⟨parts, hparts, Except.ok.inj (hconcat.symm.trans (hexConcat_eq hdoc hparts))⟩
  · rintro ⟨parts, hparts, rfl⟩
    exact hexConcat_eq hdoc hparts

theorem packFactory_ok_iff {text : String} :
    packFactory ethers op = .ok text ↔ ∃ bytes, IsInitCode op bytes ∧ text = hexString bytes := by
  unfold packFactory IsInitCode
  cases op.factory with
  | none =>
    constructor
    · rintro ⟨⟩
      exact ⟨[], rfl, rfl⟩
    · rintro ⟨_, rfl, rfl⟩
      rfl
  | some factory =>
    dsimp only
    rw [hexConcat_ok_iff hdoc]
    constructor
    · rintro ⟨_, hparts, rfl⟩
      obtain ⟨address, _, haddress, hrest, rfl⟩ := List.forall₂_cons_left_iff.mp hparts
      obtain ⟨data, _, hdata, hnil, rfl⟩ := List.forall₂_cons_left_iff.mp hrest
      obtain rfl := List.forall₂_nil_left_iff.mp hnil
      exact ⟨_, ⟨_, _, haddress, hdata, rfl⟩, by simp⟩
    · rintro ⟨_, ⟨address, data, haddress, hdata, rfl⟩, rfl⟩
      exact ⟨[address, data], .cons haddress (.cons hdata .nil), by simp⟩

theorem packPaymaster_ok_iff {text : String} :
    packPaymaster ethers op = .ok text ↔
      ∃ bytes, IsPaymasterAndData op bytes ∧ text = hexString bytes := by
  unfold packPaymaster IsPaymasterAndData
  cases op.paymaster with
  | none =>
    constructor
    · rintro ⟨⟩
      exact ⟨[], rfl, rfl⟩
    · rintro ⟨_, rfl, rfl⟩
      rfl
  | some paymaster =>
    dsimp only
    constructor
    · intro hpack
      split at hpack
      · rename_i verificationLimit postOpLimit hlimit hlimit'
        obtain ⟨limits, hlimits, hconcat⟩ := except_bind_eq_ok_iff.mp hpack
        obtain ⟨hfits, rfl⟩ := (packUint_ok_iff hdoc).mp hlimits
        obtain ⟨_, hparts, rfl⟩ := (hexConcat_ok_iff hdoc).mp hconcat
        obtain ⟨address, _, haddress, hrest, rfl⟩ := List.forall₂_cons_left_iff.mp hparts
        obtain ⟨word, _, hword, hlast, rfl⟩ := List.forall₂_cons_left_iff.mp hrest
        obtain ⟨data, _, hdata, hnil, rfl⟩ := List.forall₂_cons_left_iff.mp hlast
        obtain rfl := List.forall₂_nil_left_iff.mp hnil
        rw [getBytes_wordOf] at hword
        obtain rfl := Option.some.inj hword
        exact ⟨_, ⟨_, _, _, _, hlimit, hlimit', hfits, haddress, hdata, rfl⟩, by simp⟩
      · cases hpack
    · rintro ⟨_, ⟨verificationLimit, postOpLimit, address, data, hlimit, hlimit', hfits, haddress,
        hdata, rfl⟩, rfl⟩
      rw [hlimit, hlimit']
      exact packPaymasterData_eq hdoc haddress ((packUint_ok_iff hdoc).mpr ⟨hfits, rfl⟩)
        (isBytes_toBytes _ _) hdata

end Packable

section Faithful

variable {ethers : EthersFunctions}

/-- Packing and unpacking gives the operation back. -/
def Unpacks (ethers : EthersFunctions) (op : UserOperation) : Prop :=
  ∃ packed back, packUserOp ethers op = .ok packed ∧ unpackUserOp ethers packed = .ok back ∧
    SameOperation back op

/-- Unpacking and packing gives the packed operation back. -/
def Repacks (ethers : EthersFunctions) (packed : PackedUserOperation) : Prop :=
  ∃ op back, unpackUserOp ethers packed = .ok op ∧ packUserOp ethers op = .ok back ∧
    SamePacked back packed

/-- There is no data for a paymaster that is absent. -/
def NoStrayData (op : UserOperation) : Prop :=
  op.paymaster = none → toLowerCase (op.paymasterData.getD "0x") = "0x"

theorem packUserOp_eq {op : UserOperation}
    {paymasterAndData initCode accountGasLimits gasFees : String}
    (hpaymaster : packPaymaster ethers op = .ok paymasterAndData)
    (hfactory : packFactory ethers op = .ok initCode)
    (hlimits : packUint ethers op.verificationGasLimit op.callGasLimit = .ok accountGasLimits)
    (hfees : packUint ethers op.maxPriorityFeePerGas op.maxFeePerGas = .ok gasFees) :
    packUserOp ethers op = .ok
      ⟨op.sender, op.nonce, initCode, op.callData, accountGasLimits, op.preVerificationGas,
        gasFees, paymasterAndData, op.signature⟩ := by
  unfold packUserOp
  rw [hpaymaster, hfactory, hlimits, hfees]
  rfl

theorem of_packUserOp {op : UserOperation} {packed : PackedUserOperation}
    (h : packUserOp ethers op = .ok packed) :
    ∃ paymasterAndData initCode accountGasLimits gasFees,
      packPaymaster ethers op = .ok paymasterAndData ∧ packFactory ethers op = .ok initCode ∧
      packUint ethers op.verificationGasLimit op.callGasLimit = .ok accountGasLimits ∧
      packUint ethers op.maxPriorityFeePerGas op.maxFeePerGas = .ok gasFees ∧
      packed = ⟨op.sender, op.nonce, initCode, op.callData, accountGasLimits,
        op.preVerificationGas, gasFees, paymasterAndData, op.signature⟩ := by
  unfold packUserOp at h
  obtain ⟨paymasterAndData, hpaymaster, h⟩ := except_bind_eq_ok_iff.mp h
  obtain ⟨initCode, hfactory, h⟩ := except_bind_eq_ok_iff.mp h
  obtain ⟨accountGasLimits, hlimits, h⟩ := except_bind_eq_ok_iff.mp h
  obtain ⟨gasFees, hfees, h⟩ := except_bind_eq_ok_iff.mp h
  exact ⟨_, _, _, _, hpaymaster, hfactory, hlimits, hfees, (Except.ok.inj h).symm⟩

theorem unpackUserOp_eq (packed : PackedUserOperation) {limits fees : ℤ × ℤ}
    {factory : Option (String × String)} {pmData : Option UnpackedPaymaster}
    (hlimits : unpackUint ethers packed.accountGasLimits = .ok limits)
    (hfees : unpackUint ethers packed.gasFees = .ok fees)
    (hfactory : unpackFactory ethers packed.initCode = .ok factory)
    (hpaymaster : unpackPaymasterAndData ethers packed.paymasterAndData = .ok pmData) :
    unpackUserOp ethers packed = .ok (unpackedFrom packed limits fees factory pmData) := by
  unfold unpackUserOp
  rw [hlimits, hfees, hfactory, hpaymaster]
  rfl

theorem unpacks_iff (hdoc : Ethers.Documented ethers) {op : UserOperation} (hop : WellFormed op) :
    Unpacks ethers op ↔ NoStrayData op := by
  obtain ⟨initCode, factory, hinit, hfactory, hfactory', hfactoryData⟩ :=
    unpackFactory_packFactory hdoc hop
  obtain ⟨paymasterAndData, pmData, hpack, hunpack, hpaymaster, hlimit, hlimit', hpaymasterData⟩ :=
    unpackPaymaster_packPaymaster hdoc hop
  have hpacked := packUserOp_eq hpack hinit
    (packUint_word hdoc hop.verificationGasLimit hop.callGasLimit)
    (packUint_word hdoc hop.maxPriorityFeePerGas hop.maxFeePerGas)
  have hlimits := unpackUint_word hdoc hop.verificationGasLimit hop.callGasLimit
  have hfees := unpackUint_word hdoc hop.maxPriorityFeePerGas hop.maxFeePerGas
  have hback := unpackUserOp_eq ⟨op.sender, op.nonce, initCode, op.callData, _,
    op.preVerificationGas, _, paymasterAndData, op.signature⟩ hlimits hfees hfactory hunpack
  constructor
  · rintro ⟨packed, back, hpacked', hback', hsame⟩ hnone
    cases hpacked.symm.trans hpacked'
    cases hback.symm.trans hback'
    have hdata := hsame.paymasterData
    dsimp only [unpackedFrom] at hdata
    rw [hpaymasterData, if_pos hnone] at hdata
    exact hdata.symm
  · intro hstray
    refine ⟨_, _, hpacked, hback, ?_⟩
    have hdata : toLowerCase ((pmData.map UnpackedPaymaster.paymasterData).getD "0x") =
        toLowerCase (op.paymasterData.getD "0x") := by
      rw [hpaymasterData]
      split
      · rename_i hnone
        exact (hstray hnone).symm
      · rfl
    exact ⟨rfl, rfl, hfactory', hfactoryData, rfl, rfl, rfl, rfl, rfl, rfl, hpaymaster, hlimit,
      hlimit', hdata, rfl⟩

theorem repacks (hdoc : Ethers.Documented ethers) {packed : PackedUserOperation}
    (hpacked : EntryPointFormat packed) : Repacks ethers packed := by
  obtain ⟨high, low, limits, hlimits, hlimits', hsame⟩ :=
    packUint_unpackUint hdoc hpacked.accountGasLimits
  obtain ⟨high', low', fees, hfees, hfees', hsame'⟩ := packUint_unpackUint hdoc hpacked.gasFees
  obtain ⟨factory, hfactory, hinit⟩ := packFactory_unpackFactory hdoc hpacked.initCode
  obtain ⟨pmData, hpmData, hpaymaster⟩ :=
    packPaymaster_unpackPaymaster hdoc hpacked.paymasterAndData
  have hop := unpackUserOp_eq packed hlimits hfees hfactory hpmData
  obtain ⟨initCode, hinit, hsameInit⟩ :=
    hinit (unpackedFrom packed (high, low) (high', low') factory pmData) rfl rfl
  obtain ⟨paymasterAndData, hpaymaster, hsamePaymaster⟩ :=
    hpaymaster (unpackedFrom packed (high, low) (high', low') factory pmData) rfl rfl rfl rfl
  exact ⟨_, _, hop, packUserOp_eq hpaymaster hinit hlimits' hfees',
    ⟨rfl, rfl, hsameInit, rfl, hsame, rfl, hsame', hsamePaymaster, rfl⟩⟩

/-- Well-formed operations survive packing, if no data is left without its
paymaster, and packed ones in the EntryPoint's format survive unpacking. -/
theorem packing_faithful (hdoc : Ethers.Documented ethers) :
    (∀ op, WellFormed op → (Unpacks ethers op ↔ NoStrayData op)) ∧
      ∀ packed, EntryPointFormat packed → Repacks ethers packed :=
  ⟨fun _ hop => unpacks_iff hdoc hop, fun _ hpacked => repacks hdoc hpacked⟩

def packedDeployment : PackedUserOperation where
  sender := account
  nonce := 1
  initCode := sponsor
  callData := "0x"
  accountGasLimits := hash₁
  preVerificationGas := 0
  gasFees := hash₂
  paymasterAndData := "0x"
  signature := "0xAB"

theorem wellFormed_of_account {paymaster : Option String} {paymasterData : Option String}
    (hpaymaster : ∀ address ∈ paymaster, IsAddress address)
    (hpaymasterData : ∀ data ∈ paymasterData, IsByteString data) :
    WellFormed { plainOp account 1 10 paymaster none with paymasterData := paymasterData } := by
  have hgas : Below128 100000 := by constructor <;> decide
  have hfee : Below128 10 := by constructor <;> decide
  have hlimit : ∀ limit ∈ paymaster.map fun _ => (50000 : ℤ), Below128 limit := by
    intro limit hmem
    obtain ⟨_, _, rfl⟩ := Option.mem_map.mp hmem
    constructor <;> decide
  have hsome : (paymaster.map fun _ => (50000 : ℤ)).isSome ↔ paymaster.isSome := by
    rw [Option.isSome_map]
  have hsender : IsAddress account := ⟨_, rfl, rfl⟩
  have hempty : IsByteString "0x" := ⟨[], rfl⟩
  exact ⟨hsender, nofun, nofun, Iff.rfl, hempty, hgas, hgas, hfee, hfee, hpaymaster, hlimit,
    hsome, hlimit, hsome, hpaymasterData, hempty⟩

theorem packedDeployment_format : EntryPointFormat packedDeployment where
  initCode := ⟨_, rfl, rfl, Or.inr (by decide)⟩
  callData := ⟨_, rfl, rfl, trivial⟩
  accountGasLimits := ⟨_, rfl, rfl, rfl⟩
  gasFees := ⟨_, rfl, rfl, rfl⟩
  paymasterAndData := ⟨_, rfl, rfl, Or.inl rfl⟩
  signature := ⟨_, rfl, rfl, trivial⟩

theorem sponsored_packing_faithful :
    Unpacks documentedFunctions
        { plainOp account 1 10 (some sponsor) none with paymasterData := some "0x12" } ∧
      Repacks documentedFunctions packedDeployment := by
  obtain ⟨hunpacks, hrepacks⟩ := packing_faithful documentedFunctions_documented
  refine ⟨(hunpacks _ (wellFormed_of_account ?_ ?_)).mpr ?_, hrepacks _ packedDeployment_format⟩
  · rintro _ ⟨⟩
    exact ⟨_, rfl, rfl⟩
  · rintro _ ⟨⟩
    exact ⟨_, rfl⟩
  · intro hnone
    cases hnone

/-- Data for a paymaster that is absent is dropped. -/
theorem stray_data_dropped :
    WellFormed { plainOp account 1 10 none none with paymasterData := some "0x12" } ∧
      ¬Unpacks documentedFunctions
        { plainOp account 1 10 none none with paymasterData := some "0x12" } := by
  have hop : WellFormed { plainOp account 1 10 none none with paymasterData := some "0x12" } := by
    refine wellFormed_of_account nofun ?_
    rintro _ ⟨⟩
    exact ⟨_, rfl⟩
  refine ⟨hop, (unpacks_iff documentedFunctions_documented hop).not.mpr fun hstray => ?_⟩
  exact absurd (hstray rfl) (by decide)

end Faithful

end Bundler.Packing
