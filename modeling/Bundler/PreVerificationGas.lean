import Bundler.Packing
import Mathlib.Data.Rat.Floor

/-!
The gas an operation costs before its verification: what its bytes cost as
call data, overheads for its words and for itself, and a share of the bundle.
An estimate is made of an operation with placeholders, and the check prices
the operation with the estimate and its signature in it.
-/
namespace Bundler.PreVerificationGas

open AbiEncoding AsyncPrograms ByteStrings DataModel Ethers HexStrings Packing

/-- The gas parameters of a chain. Without a bundle size there would be no
share of a bundle. -/
structure PreVerificationGasConfig where
  fixedGasOverhead : ℚ
  perUserOpGasOverhead : ℚ
  perUserOpWordGasOverhead : ℚ
  zeroByteGasCost : ℚ
  nonZeroByteGasCost : ℚ
  expectedBundleSize : ℚ
  expectedBundleSize_ne : expectedBundleSize ≠ 0
  estimationSignatureSize : ℕ
  estimationPaymasterDataSize : ℕ

def MAINNET_CONFIG : PreVerificationGasConfig where
  fixedGasOverhead := 38000
  perUserOpGasOverhead := 11000
  perUserOpWordGasOverhead := 4
  zeroByteGasCost := 4
  nonZeroByteGasCost := 16
  expectedBundleSize := 1
  expectedBundleSize_ne := by decide
  estimationSignatureSize := 65
  estimationPaymasterDataSize := 0

/-- An operation that may lack its preVerificationGas and its signature. -/
structure PartialUserOperation where
  sender : String
  nonce : BigNumberish
  factory : Option String
  factoryData : Option String
  callData : String
  callGasLimit : BigNumberish
  verificationGasLimit : BigNumberish
  preVerificationGas : Option BigNumberish
  maxFeePerGas : BigNumberish
  maxPriorityFeePerGas : BigNumberish
  paymaster : Option String
  paymasterVerificationGasLimit : Option BigNumberish
  paymasterPostOpGasLimit : Option BigNumberish
  paymasterData : Option String
  signature : Option String

/-- An operation with all its fields, as one that may lack some. -/
def asPartial (userOp : UserOperation) : PartialUserOperation where
  sender := userOp.sender
  nonce := userOp.nonce
  factory := userOp.factory
  factoryData := userOp.factoryData
  callData := userOp.callData
  callGasLimit := userOp.callGasLimit
  verificationGasLimit := userOp.verificationGasLimit
  preVerificationGas := some userOp.preVerificationGas
  maxFeePerGas := userOp.maxFeePerGas
  maxPriorityFeePerGas := userOp.maxPriorityFeePerGas
  paymaster := userOp.paymaster
  paymasterVerificationGasLimit := userOp.paymasterVerificationGasLimit
  paymasterPostOpGasLimit := userOp.paymasterPostOpGasLimit
  paymasterData := userOp.paymasterData
  signature := some userOp.signature

section Calculation

variable (ethers : EthersFunctions) (gasConfig : PreVerificationGasConfig)

/-- Bytes of 0xff, as hex. -/
def dummyData (size : ℕ) : String := ethers.hexlifyBytes (List.replicate size 0xff)

def fillUserOpWithDummyData (userOp : PartialUserOperation) : UserOperation where
  sender := userOp.sender
  nonce := userOp.nonce
  factory := userOp.factory
  factoryData := userOp.factoryData
  callData := userOp.callData
  callGasLimit := userOp.callGasLimit
  verificationGasLimit := userOp.verificationGasLimit
  preVerificationGas := userOp.preVerificationGas.getD 21000
  maxFeePerGas := userOp.maxFeePerGas
  maxPriorityFeePerGas := userOp.maxPriorityFeePerGas
  paymaster := userOp.paymaster
  paymasterVerificationGasLimit := userOp.paymasterVerificationGasLimit
  paymasterPostOpGasLimit := userOp.paymasterPostOpGasLimit
  paymasterData := some (userOp.paymasterData.getD
    (dummyData ethers gasConfig.estimationPaymasterDataSize))
  signature := userOp.signature.getD (dummyData ethers gasConfig.estimationSignatureSize)

/-- The values of a packed operation under their types. -/
def abiArguments (op : PackedUserOperation) : List AbiArgument :=
  [.address op.sender, .uint256 op.nonce, .bytes op.initCode, .bytes op.callData,
    .bytes32 op.accountGasLimits, .uint256 op.preVerificationGas, .bytes32 op.gasFees,
    .bytes op.paymasterAndData, .bytes op.signature]

/-- encodeUserOp of a packed operation as it is put on chain. -/
def encodeUserOp (op : PackedUserOperation) : Except JsError String :=
  ethers.abiEncode (abiArguments op)

/-- What an element of a Uint8Array keeps of a number. -/
def toUint8 (value : ℚ) : ℕ := (value.num.tdiv value.den % 256).toNat

/-- JavaScript's Math.round: halves go up. -/
def mathRound (value : ℚ) : ℤ := (value + 1 / 2).floor

def byteGasCost (x : ℕ) : ℕ :=
  toUint8 (if x = 0 then gasConfig.zeroByteGasCost else gasConfig.nonZeroByteGasCost)

/-- The costs are taken by a map over a Uint8Array, so they are bytes. -/
def callDataCost (packed : List ℕ) : ℕ := (packed.map (byteGasCost gasConfig)).sum

/-- The gas for an encoded operation, before it is rounded. -/
def exactGas (packed : List ℕ) : ℚ :=
  let lengthInWord : ℚ := (packed.length + 31) / 32
  let dataWordsOverhead := lengthInWord * gasConfig.perUserOpWordGasOverhead
  let specificOverhead :=
    callDataCost gasConfig packed + dataWordsOverhead + gasConfig.perUserOpGasOverhead
  let shareOfBundleCost := gasConfig.fixedGasOverhead / gasConfig.expectedBundleSize
  specificOverhead + shareOfBundleCost

/-- The bytes of an operation on chain. -/
def encodedBytes (userOp : UserOperation) : Except JsError (List ℕ) := do
  let packedOp ← packUserOp ethers userOp
  let encoded ← encodeUserOp ethers packedOp
  ethers.getBytes encoded

def calculate (userOp : UserOperation) : Except JsError ℤ := do
  let packed ← encodedBytes ethers userOp
  pure (mathRound (exactGas gasConfig packed))

def calcPreVerificationGas (userOp : PartialUserOperation) : Except JsError ℤ :=
  calculate ethers gasConfig (fillUserOpWithDummyData ethers gasConfig userOp)

structure PreVerificationGasReport where
  isPreVerificationGasValid : Bool
  minRequiredPreVerificationGas : ℤ
  deriving DecidableEq, Repr

def validatePreVerificationGas (userOp : UserOperation) :
    Except JsError PreVerificationGasReport := do
  let minRequiredPreVerificationGas ← calculate ethers gasConfig userOp
  pure ⟨minRequiredPreVerificationGas ≤ userOp.preVerificationGas, minRequiredPreVerificationGas⟩

end Calculation

section Encoding

/-- The bytes of the values of an encoding, but for those the estimate and the
check differ in. -/
structure OpBytes where
  sender : List ℕ
  nonce : List ℕ
  initCode : List ℕ
  callData : List ℕ
  accountGasLimits : List ℕ
  gasFees : List ℕ

def encoded (op : OpBytes) (preVerificationGas : ℕ) (paymasterAndData signature : List ℕ) :
    List ℕ :=
  encode
    [.word op.sender, .word op.nonce, .dynamic op.initCode, .dynamic op.callData,
      .word op.accountGasLimits, .word (toBytes 32 preVerificationGas), .word op.gasFees,
      .dynamic paymasterAndData, .dynamic signature]

def IsUint256 (value : ℤ) : Prop := 0 ≤ value ∧ value < 2 ^ 256

/-- The values of an operation have their types, and these bytes. -/
structure Encodes (ethers : EthersFunctions) (userOp : UserOperation) (op : OpBytes)
    (paymasterAndData : List ℕ) : Prop where
  sender : ∃ address, ethers.getAddress userOp.sender = some address ∧
    op.sender = padLeft 32 address
  nonce : IsUint256 userOp.nonce ∧ op.nonce = toBytes 32 userOp.nonce.toNat
  initCode : IsInitCode userOp op.initCode
  callData : getBytes userOp.callData = some op.callData
  accountGasLimits : FitsWord userOp.verificationGasLimit userOp.callGasLimit ∧
    op.accountGasLimits = wordOf userOp.verificationGasLimit userOp.callGasLimit
  gasFees : FitsWord userOp.maxPriorityFeePerGas userOp.maxFeePerGas ∧
    op.gasFees = wordOf userOp.maxPriorityFeePerGas userOp.maxFeePerGas
  paymasterAndData : IsPaymasterAndData userOp paymasterAndData

variable {ethers : EthersFunctions} {userOp : UserOperation} {op : OpBytes}
  {paymasterAndData signature : List ℕ}

theorem isBytes_initCode {bytes : List ℕ} (h : IsInitCode userOp bytes) : IsBytes bytes := by
  unfold IsInitCode at h
  split at h
  · subst h
    exact nofun
  · obtain ⟨address, data, haddress, hdata, rfl⟩ := h
    exact isBytes_append.mpr ⟨(of_getBytes haddress).1, (of_getBytes hdata).1⟩

theorem isBytes_paymasterAndData {bytes : List ℕ} (h : IsPaymasterAndData userOp bytes) :
    IsBytes bytes := by
  unfold IsPaymasterAndData at h
  split at h
  · subst h
    exact nofun
  · obtain ⟨_, _, address, data, _, _, _, haddress, hdata, rfl⟩ := h
    exact isBytes_append.mpr ⟨(of_getBytes haddress).1,
      isBytes_append.mpr ⟨isBytes_toBytes _ _, (of_getBytes hdata).1⟩⟩

variable (hdoc : Documented ethers)

include hdoc

/-- The operation is packed to the text of its bytes. -/
theorem packUserOp_of_encodes (hop : Encodes ethers userOp op paymasterAndData) :
    packUserOp ethers userOp = .ok
      ⟨userOp.sender, userOp.nonce, hexString op.initCode, userOp.callData,
        hexString (wordOf userOp.verificationGasLimit userOp.callGasLimit),
        userOp.preVerificationGas,
        hexString (wordOf userOp.maxPriorityFeePerGas userOp.maxFeePerGas),
        hexString paymasterAndData, userOp.signature⟩ :=
  packUserOp_eq ((packPaymaster_ok_iff hdoc).mpr ⟨_, hop.paymasterAndData, rfl⟩)
    ((packFactory_ok_iff hdoc).mpr ⟨_, hop.initCode, rfl⟩)
    ((packUint_ok_iff hdoc).mpr ⟨hop.accountGasLimits.1, rfl⟩)
    ((packUint_ok_iff hdoc).mpr ⟨hop.gasFees.1, rfl⟩)

/-- The encoding of an operation is that of its bytes. -/
theorem encodedBytes_eq (hop : Encodes ethers userOp op paymasterAndData)
    (hgas : IsUint256 userOp.preVerificationGas)
    (hsignature : getBytes userOp.signature = some signature) :
    encodedBytes ethers userOp =
      .ok (encoded op userOp.preVerificationGas.toNat paymasterAndData signature) := by
  obtain ⟨address, haddress, hsender⟩ := hop.sender
  obtain ⟨hnonce, hnonce'⟩ := hop.nonce
  have hinit := getBytes_hexString (isBytes_initCode hop.initCode)
  have hpaymaster := getBytes_hexString (isBytes_paymasterAndData hop.paymasterAndData)
  have hvalues : List.Forall₂ (fun arg value => abiValue ethers.getAddress arg = some value)
      (abiArguments ⟨userOp.sender, userOp.nonce, hexString op.initCode, userOp.callData,
        hexString (wordOf userOp.verificationGasLimit userOp.callGasLimit),
        userOp.preVerificationGas,
        hexString (wordOf userOp.maxPriorityFeePerGas userOp.maxFeePerGas),
        hexString paymasterAndData, userOp.signature⟩)
      [.word op.sender, .word op.nonce, .dynamic op.initCode, .dynamic op.callData,
        .word op.accountGasLimits, .word (toBytes 32 userOp.preVerificationGas.toNat),
        .word op.gasFees, .dynamic paymasterAndData, .dynamic signature] := by
    rw [hsender, hnonce', hop.accountGasLimits.2, hop.gasFees.2]
    exact .cons (abiValue_address haddress) (.cons (abiValue_uint256 hnonce)
      (.cons (abiValue_bytes hinit) (.cons (abiValue_bytes hop.callData)
      (.cons (abiValue_bytes32 (getBytes_wordOf _ _) (length_wordOf _ _))
      (.cons (abiValue_uint256 hgas)
      (.cons (abiValue_bytes32 (getBytes_wordOf _ _) (length_wordOf _ _))
      (.cons (abiValue_bytes hpaymaster) (.cons (abiValue_bytes hsignature) .nil))))))))
  have hresult := hdoc.getBytes_abiEncode (abiBytes_eq_some_iff.mpr ⟨_, hvalues, rfl⟩)
  unfold encodedBytes encodeUserOp
  rw [packUserOp_of_encodes hdoc hop]
  exact hresult

/-- Whatever is encoded has its types. -/
theorem encodes_of_encodedBytes {bytes : List ℕ} (h : encodedBytes ethers userOp = .ok bytes) :
    ∃ op paymasterAndData, Encodes ethers userOp op paymasterAndData ∧
      IsUint256 userOp.preVerificationGas ∧ (getBytes userOp.signature).isSome := by
  unfold encodedBytes at h
  obtain ⟨packed, hpacked, h⟩ := except_bind_eq_ok_iff.mp h
  obtain ⟨text, habi, _⟩ := except_bind_eq_ok_iff.mp h
  obtain ⟨_, _, _, _, hpaymaster, hfactory, hlimits, hfees, rfl⟩ := of_packUserOp hpacked
  obtain ⟨paymasterAndData, hispaymaster, rfl⟩ := (packPaymaster_ok_iff hdoc).mp hpaymaster
  obtain ⟨initCode, hinitCode, rfl⟩ := (packFactory_ok_iff hdoc).mp hfactory
  obtain ⟨hfits, rfl⟩ := (packUint_ok_iff hdoc).mp hlimits
  obtain ⟨hfits', rfl⟩ := (packUint_ok_iff hdoc).mp hfees
  cases hbytes : abiBytes ethers.getAddress (abiArguments _) with
  | none =>
    obtain ⟨e, he⟩ := hdoc.abiEncode_invalid _ hbytes
    cases habi.symm.trans he
  | some encoding =>
    obtain ⟨values, hvalues, _⟩ := abiBytes_eq_some_iff.mp hbytes
    obtain ⟨_, _, hsender, hvalues, _⟩ := List.forall₂_cons_left_iff.mp hvalues
    obtain ⟨_, _, hnonce, hvalues, _⟩ := List.forall₂_cons_left_iff.mp hvalues
    obtain ⟨_, _, _, hvalues, _⟩ := List.forall₂_cons_left_iff.mp hvalues
    obtain ⟨_, _, hcallData, hvalues, _⟩ := List.forall₂_cons_left_iff.mp hvalues
    obtain ⟨_, _, _, hvalues, _⟩ := List.forall₂_cons_left_iff.mp hvalues
    obtain ⟨_, _, hgas, hvalues, _⟩ := List.forall₂_cons_left_iff.mp hvalues
    obtain ⟨_, _, _, hvalues, _⟩ := List.forall₂_cons_left_iff.mp hvalues
    obtain ⟨_, _, _, hvalues, _⟩ := List.forall₂_cons_left_iff.mp hvalues
    obtain ⟨_, _, hsignature, _, _⟩ := List.forall₂_cons_left_iff.mp hvalues
    obtain ⟨address, hsender, _⟩ := Option.map_eq_some_iff.mp hsender
    obtain ⟨callData, hcallData, _⟩ := of_abiValue_bytes hcallData
    obtain ⟨signature, hsignature, _⟩ := of_abiValue_bytes hsignature
    refine ⟨⟨padLeft 32 address, toBytes 32 userOp.nonce.toNat, initCode, callData,
      wordOf userOp.verificationGasLimit userOp.callGasLimit,
      wordOf userOp.maxPriorityFeePerGas userOp.maxFeePerGas⟩, paymasterAndData,
      ?_, (of_abiValue_uint256 hgas).1, Option.isSome_iff_exists.mpr ⟨signature, hsignature⟩⟩
    exact ⟨⟨address, hsender, rfl⟩, ⟨(of_abiValue_uint256 hnonce).1, rfl⟩, hinitCode, hcallData,
      ⟨hfits, rfl⟩, ⟨hfits', rfl⟩, hispaymaster⟩

end Encoding

section Parts

variable (gasConfig : PreVerificationGasConfig) (op : OpBytes)

theorem callDataCost_append (bytes others : List ℕ) :
    callDataCost gasConfig (bytes ++ others) =
      callDataCost gasConfig bytes + callDataCost gasConfig others := by
  unfold callDataCost
  rw [List.map_append, List.sum_append]

/-- Where the signature starts in an encoding. -/
def signatureOffset (paymasterAndData : List ℕ) : ℕ :=
  288 + (tail (.dynamic op.initCode)).length + (tail (.dynamic op.callData)).length +
    (tail (.dynamic paymasterAndData)).length

/-- The bytes that do not depend on preVerificationGas, paymasterAndData and
signature, but for the length of the last. -/
def commonBytes (signatureSize : ℕ) : List ℕ :=
  op.sender ++ op.nonce ++ toBytes 32 288 ++
    toBytes 32 (288 + (tail (.dynamic op.initCode)).length) ++ op.accountGasLimits ++ op.gasFees ++
    toBytes 32 (288 + (tail (.dynamic op.initCode)).length +
      (tail (.dynamic op.callData)).length) ++
    tail (.dynamic op.initCode) ++ tail (.dynamic op.callData) ++ toBytes 32 signatureSize ++
    List.replicate ((signatureSize + 31) / 32 * 32 - signatureSize) 0

/-- The gas of the bytes that the estimate and the check may differ in. -/
def variableGas (preVerificationGas : ℕ) (paymasterAndData signature : List ℕ) : ℚ :=
  callDataCost gasConfig (toBytes 32 preVerificationGas) +
    callDataCost gasConfig (tail (.dynamic paymasterAndData)) +
    callDataCost gasConfig (toBytes 32 (signatureOffset op paymasterAndData)) +
    callDataCost gasConfig signature +
    (tail (.dynamic paymasterAndData)).length / 32 * gasConfig.perUserOpWordGasOverhead

/-- The gas of the others, with the overheads. -/
def commonGas (signatureSize : ℕ) : ℚ :=
  callDataCost gasConfig (commonBytes op signatureSize) +
    ((commonBytes op signatureSize).length + 64 + signatureSize + 31) / 32 *
      gasConfig.perUserOpWordGasOverhead + gasConfig.perUserOpGasOverhead +
    gasConfig.fixedGasOverhead / gasConfig.expectedBundleSize

theorem encoded_eq (preVerificationGas : ℕ) (paymasterAndData signature : List ℕ) :
    encoded op preVerificationGas paymasterAndData signature =
      op.sender ++ (op.nonce ++ (toBytes 32 288 ++
        (toBytes 32 (288 + (tail (.dynamic op.initCode)).length) ++ (op.accountGasLimits ++
        (toBytes 32 preVerificationGas ++ (op.gasFees ++
        (toBytes 32 (288 + (tail (.dynamic op.initCode)).length +
          (tail (.dynamic op.callData)).length) ++
        (toBytes 32 (signatureOffset op paymasterAndData) ++ (tail (.dynamic op.initCode) ++
        (tail (.dynamic op.callData) ++ (tail (.dynamic paymasterAndData) ++
        (toBytes 32 signature.length ++ (signature ++
        List.replicate ((signature.length + 31) / 32 * 32 - signature.length) 0))))))))))))) := by
  unfold encoded encode signatureOffset
  simp [heads, tail, padRight]

theorem callDataCost_encoded (preVerificationGas : ℕ) (paymasterAndData signature : List ℕ) :
    callDataCost gasConfig (encoded op preVerificationGas paymasterAndData signature) =
      callDataCost gasConfig (commonBytes op signature.length) +
        (callDataCost gasConfig (toBytes 32 preVerificationGas) +
          callDataCost gasConfig (tail (.dynamic paymasterAndData)) +
          callDataCost gasConfig (toBytes 32 (signatureOffset op paymasterAndData)) +
          callDataCost gasConfig signature) := by
  unfold commonBytes
  rw [encoded_eq]
  simp only [callDataCost_append]
  omega

theorem length_encoded (preVerificationGas : ℕ) (paymasterAndData signature : List ℕ) :
    (encoded op preVerificationGas paymasterAndData signature).length =
      (commonBytes op signature.length).length + 64 + signature.length +
        (tail (.dynamic paymasterAndData)).length := by
  unfold commonBytes
  rw [encoded_eq]
  simp only [List.length_append, length_toBytes]
  omega

theorem exactGas_encoded (preVerificationGas : ℕ) (paymasterAndData signature : List ℕ) :
    exactGas gasConfig (encoded op preVerificationGas paymasterAndData signature) =
      commonGas gasConfig op signature.length +
        variableGas gasConfig op preVerificationGas paymasterAndData signature := by
  unfold exactGas commonGas variableGas
  rw [callDataCost_encoded, length_encoded]
  push_cast
  ring

end Parts

section Agreement

variable (gasConfig : PreVerificationGasConfig) (userOp : UserOperation) (op : OpBytes)
  (paymasterAndData : List ℕ)

/-- The operation with the estimate and the signature passes the check. -/
def EstimateAccepted (ethers : EthersFunctions) (signature : String) : Prop :=
  ∃ preVerificationGas report,
    calcPreVerificationGas ethers gasConfig { asPartial userOp with signature := none } =
      .ok preVerificationGas ∧
    validatePreVerificationGas ethers gasConfig
      { userOp with preVerificationGas := preVerificationGas, signature := signature } =
        .ok report ∧
    report.isPreVerificationGasValid = true

/-- The bytes that stand for the data of a paymaster that has none yet. -/
def placeholderData : List ℕ :=
  if userOp.paymaster.isSome ∧ userOp.paymasterData = none then
    List.replicate gasConfig.estimationPaymasterDataSize 0xff
  else []

/-- The bytes an estimate prices. -/
def estimatedBytes : List ℕ :=
  encoded op userOp.preVerificationGas.toNat (paymasterAndData ++ placeholderData gasConfig userOp)
    (List.replicate gasConfig.estimationSignatureSize 0xff)

/-- The estimate, as estimable operations get it. -/
def estimate : ℤ :=
  mathRound (exactGas gasConfig (estimatedBytes gasConfig userOp op paymasterAndData))

/-- The estimate is a number the check can encode, and it and the actual bytes
in place of the placeholders cost no more than rounding has left. -/
structure Covered (signature : List ℕ) : Prop where
  isUint256 : IsUint256 (estimate gasConfig userOp op paymasterAndData)
  covers :
    variableGas gasConfig op (estimate gasConfig userOp op paymasterAndData).toNat paymasterAndData
        signature -
      variableGas gasConfig op userOp.preVerificationGas.toNat
        (paymasterAndData ++ placeholderData gasConfig userOp)
        (List.replicate gasConfig.estimationSignatureSize 0xff) <
      estimate gasConfig userOp op paymasterAndData + 1 / 2 -
        exactGas gasConfig (estimatedBytes gasConfig userOp op paymasterAndData)

variable {gasConfig userOp op paymasterAndData} {ethers : EthersFunctions}

theorem mathRound_le_iff (value : ℚ) (bound : ℤ) :
    mathRound value ≤ bound ↔ value < bound + 1 / 2 := by
  unfold mathRound
  rw [← Int.lt_add_one_iff, Rat.floor_lt_iff]
  push_cast
  constructor
  · intro h
    linarith
  · intro h
    linarith

/-- Rounding adds or takes a half at most. -/
theorem mathRound_le (value : ℚ) : (mathRound value : ℚ) ≤ value + 1 / 2 := Rat.floor_le _

theorem getBytes_dummyData (hdoc : Documented ethers) (size : ℕ) :
    getBytes (dummyData ethers size) = some (List.replicate size 0xff) := by
  have hbytes : IsBytes (List.replicate size 0xff) := isBytes_replicate (by omega) size
  unfold dummyData
  rw [hdoc.hexlifyBytes _ hbytes, getBytes_hexString hbytes]

theorem isPaymasterAndData_filled (hdoc : Documented ethers)
    (h : IsPaymasterAndData userOp paymasterAndData) :
    IsPaymasterAndData
      (fillUserOpWithDummyData ethers gasConfig { asPartial userOp with signature := none })
      (paymasterAndData ++ placeholderData gasConfig userOp) := by
  unfold IsPaymasterAndData placeholderData at *
  dsimp only [fillUserOpWithDummyData, asPartial]
  cases hpaymaster : userOp.paymaster with
  | none =>
    rw [hpaymaster] at h
    dsimp only at h ⊢
    rw [h]
    rfl
  | some paymaster =>
    rw [hpaymaster] at h
    obtain ⟨verificationLimit, postOpLimit, address, data, hlimit, hlimit', hfits, haddress, hdata,
      rfl⟩ := h
    cases hpaymasterData : userOp.paymasterData with
    | none =>
      rw [hpaymasterData] at hdata
      obtain rfl : data = [] := (Option.some.inj hdata).symm
      refine ⟨verificationLimit, postOpLimit, address, _, hlimit, hlimit', hfits, haddress,
        getBytes_dummyData hdoc gasConfig.estimationPaymasterDataSize, ?_⟩
      rw [if_pos ⟨rfl, rfl⟩, List.append_nil, List.append_assoc]
    | some paymasterData =>
      rw [hpaymasterData] at hdata
      refine ⟨verificationLimit, postOpLimit, address, data, hlimit, hlimit', hfits, haddress,
        hdata, ?_⟩
      rw [if_neg (by simp), List.append_nil]

theorem encodes_filled (hdoc : Documented ethers)
    (h : Encodes ethers userOp op paymasterAndData) :
    Encodes ethers
      (fillUserOpWithDummyData ethers gasConfig { asPartial userOp with signature := none })
      op (paymasterAndData ++ placeholderData gasConfig userOp) where
  sender := h.sender
  nonce := h.nonce
  initCode := h.initCode
  callData := h.callData
  accountGasLimits := h.accountGasLimits
  gasFees := h.gasFees
  paymasterAndData := isPaymasterAndData_filled hdoc h.paymasterAndData

theorem encodes_priced (h : Encodes ethers userOp op paymasterAndData)
    (preVerificationGas : ℤ) (signature : String) :
    Encodes ethers
      { userOp with preVerificationGas := preVerificationGas, signature := signature }
      op paymasterAndData where
  sender := h.sender
  nonce := h.nonce
  initCode := h.initCode
  callData := h.callData
  accountGasLimits := h.accountGasLimits
  gasFees := h.gasFees
  paymasterAndData := h.paymasterAndData

theorem calculate_eq (hdoc : Documented ethers) (h : Encodes ethers userOp op paymasterAndData)
    (hgas : IsUint256 userOp.preVerificationGas) {signature : List ℕ}
    (hsignature : getBytes userOp.signature = some signature) :
    calculate ethers gasConfig userOp =
      .ok (mathRound (exactGas gasConfig
        (encoded op userOp.preVerificationGas.toNat paymasterAndData signature))) := by
  unfold calculate
  rw [encodedBytes_eq hdoc h hgas hsignature]
  rfl

/-- The estimate is the rounded gas of the bytes with placeholders. -/
theorem calcPreVerificationGas_eq (hdoc : Documented ethers)
    (h : Encodes ethers userOp op paymasterAndData)
    (hgas : IsUint256 userOp.preVerificationGas) :
    calcPreVerificationGas ethers gasConfig { asPartial userOp with signature := none } =
      .ok (estimate gasConfig userOp op paymasterAndData) :=
  calculate_eq hdoc (encodes_filled hdoc h) hgas
    (getBytes_dummyData hdoc gasConfig.estimationSignatureSize)

theorem isPaymasterAndData_of_filled
    (h : ∃ bytes, IsPaymasterAndData
      (fillUserOpWithDummyData ethers gasConfig { asPartial userOp with signature := none })
      bytes) :
    ∃ bytes, IsPaymasterAndData userOp bytes := by
  unfold IsPaymasterAndData at *
  dsimp only [fillUserOpWithDummyData, asPartial] at h
  cases hpaymaster : userOp.paymaster with
  | none => exact ⟨[], rfl⟩
  | some paymaster =>
    rw [hpaymaster] at h
    obtain ⟨_, verificationLimit, postOpLimit, address, data, hlimit, hlimit', hfits, haddress,
      hdata, rfl⟩ := h
    cases hpaymasterData : userOp.paymasterData with
    | none => exact ⟨_, _, _, _, _, hlimit, hlimit', hfits, haddress, rfl, rfl⟩
    | some paymasterData =>
      rw [hpaymasterData] at hdata
      exact ⟨_, _, _, _, _, hlimit, hlimit', hfits, haddress, hdata, rfl⟩

/-- What can be estimated is what can be encoded. -/
theorem estimable_iff (hdoc : Documented ethers) :
    (∃ gas, calcPreVerificationGas ethers gasConfig { asPartial userOp with signature := none } =
        .ok gas) ↔
      IsUint256 userOp.preVerificationGas ∧
        ∃ op paymasterAndData, Encodes ethers userOp op paymasterAndData := by
  constructor
  · rintro ⟨_, hgas⟩
    obtain ⟨_, hencoded, _⟩ := except_bind_eq_ok_iff.mp hgas
    obtain ⟨op, _, hop, hfits, _⟩ := encodes_of_encodedBytes hdoc hencoded
    obtain ⟨paymasterAndData, hpaymaster⟩ := isPaymasterAndData_of_filled ⟨_, hop.paymasterAndData⟩
    exact ⟨hfits, op, paymasterAndData, hop.sender, hop.nonce, hop.initCode, hop.callData,
      hop.accountGasLimits, hop.gasFees, hpaymaster⟩
  · rintro ⟨hfits, _, _, hop⟩
    exact ⟨_, calcPreVerificationGas_eq hdoc hop hfits⟩

/-- Only numbers that the encoding takes are checked. -/
theorem isUint256_of_validate {report : PreVerificationGasReport} (hdoc : Documented ethers)
    (h : validatePreVerificationGas ethers gasConfig userOp = .ok report) :
    IsUint256 userOp.preVerificationGas := by
  obtain ⟨_, hcalculate, _⟩ := except_bind_eq_ok_iff.mp h
  obtain ⟨_, hencoded, _⟩ := except_bind_eq_ok_iff.mp hcalculate
  obtain ⟨_, _, _, hgas, _⟩ := encodes_of_encodedBytes hdoc hencoded
  exact hgas

theorem validatePreVerificationGas_eq (hdoc : Documented ethers)
    (h : Encodes ethers userOp op paymasterAndData)
    (hgas : IsUint256 userOp.preVerificationGas) {signature : List ℕ}
    (hsignature : getBytes userOp.signature = some signature) :
    validatePreVerificationGas ethers gasConfig userOp =
      .ok ⟨mathRound (exactGas gasConfig
          (encoded op userOp.preVerificationGas.toNat paymasterAndData signature)) ≤
            userOp.preVerificationGas,
        mathRound (exactGas gasConfig
          (encoded op userOp.preVerificationGas.toNat paymasterAndData signature))⟩ := by
  unfold validatePreVerificationGas
  rw [calculate_eq hdoc h hgas hsignature]
  rfl

/-- The check costs as much more than the estimate as the variable parts do. -/
theorem exactGas_priced (userOp : UserOperation) (gas : ℕ) {signature : List ℕ}
    (hsize : signature.length = gasConfig.estimationSignatureSize) :
    exactGas gasConfig (encoded op gas paymasterAndData signature) -
        exactGas gasConfig (estimatedBytes gasConfig userOp op paymasterAndData) =
      variableGas gasConfig op gas paymasterAndData signature -
        variableGas gasConfig op userOp.preVerificationGas.toNat
          (paymasterAndData ++ placeholderData gasConfig userOp)
          (List.replicate gasConfig.estimationSignatureSize 0xff) := by
  unfold estimatedBytes
  rw [exactGas_encoded, exactGas_encoded, List.length_replicate, hsize]
  ring

/-- An operation with its estimate and a signature of the size the estimate
is made for passes the check just when the estimate covers it. -/
theorem estimate_accepted_iff (hdoc : Documented ethers)
    (h : Encodes ethers userOp op paymasterAndData)
    (hgas : IsUint256 userOp.preVerificationGas) {signature : String} {bytes : List ℕ}
    (hsignature : getBytes signature = some bytes)
    (hsize : bytes.length = gasConfig.estimationSignatureSize) :
    EstimateAccepted gasConfig userOp ethers signature ↔
      Covered gasConfig userOp op paymasterAndData bytes := by
  have hestimate : calcPreVerificationGas ethers gasConfig
      { asPartial userOp with signature := none } = _ := calcPreVerificationGas_eq hdoc h hgas
  have hmore (gas : ℕ) : exactGas gasConfig (encoded op gas paymasterAndData bytes) - _ = _ :=
    exactGas_priced userOp gas hsize
  constructor
  · rintro ⟨gas, report, hgas', hreport, hvalid⟩
    obtain rfl := Except.ok.inj (hestimate.symm.trans hgas')
    have hfits := isUint256_of_validate hdoc hreport
    rw [validatePreVerificationGas_eq hdoc (encodes_priced h _ signature) hfits hsignature]
      at hreport
    obtain rfl := (Except.ok.inj hreport).symm
    have hle := (mathRound_le_iff _ _).mp (of_decide_eq_true hvalid)
    refine ⟨hfits, ?_⟩
    rw [← hmore]
    linarith
  · rintro ⟨hfits, hcovers⟩
    refine ⟨_, _, hestimate, validatePreVerificationGas_eq hdoc (encodes_priced h _ signature)
      hfits hsignature, decide_eq_true ((mathRound_le_iff _ _).mpr ?_)⟩
    rw [← hmore] at hcovers
    exact (sub_lt_sub_iff_right _).mp hcovers

/-- Without placeholder data, it is the bytes of the two words and of the two
signatures that count. -/
theorem covered_iff (hdata : placeholderData gasConfig userOp = []) {signature : List ℕ} :
    Covered gasConfig userOp op paymasterAndData signature ↔
      IsUint256 (estimate gasConfig userOp op paymasterAndData) ∧
        callDataCost gasConfig
            (toBytes 32 (estimate gasConfig userOp op paymasterAndData).toNat) +
          callDataCost gasConfig signature ≤
        callDataCost gasConfig (toBytes 32 userOp.preVerificationGas.toNat) +
          callDataCost gasConfig (List.replicate gasConfig.estimationSignatureSize 0xff) := by
  have hlow := mathRound_le (exactGas gasConfig
    (estimatedBytes gasConfig userOp op paymasterAndData))
  have hhigh := (mathRound_le_iff (exactGas gasConfig
    (estimatedBytes gasConfig userOp op paymasterAndData)) _).mp (Int.le_refl _)
  change (estimate gasConfig userOp op paymasterAndData : ℚ) ≤ _ at hlow
  change _ < (estimate gasConfig userOp op paymasterAndData : ℚ) + 1 / 2 at hhigh
  constructor
  · rintro ⟨hfits, hcovers⟩
    refine ⟨hfits, ?_⟩
    rw [hdata, List.append_nil] at hcovers
    unfold variableGas at hcovers
    have hless : (callDataCost gasConfig
          (toBytes 32 (estimate gasConfig userOp op paymasterAndData).toNat) +
        callDataCost gasConfig signature : ℚ) <
        callDataCost gasConfig (toBytes 32 userOp.preVerificationGas.toNat) +
          callDataCost gasConfig (List.replicate gasConfig.estimationSignatureSize 0xff) + 1 := by
      linarith
    exact_mod_cast Nat.le_of_lt_succ (by exact_mod_cast hless)
  · rintro ⟨hfits, hle⟩
    refine ⟨hfits, ?_⟩
    have hle' : (callDataCost gasConfig
          (toBytes 32 (estimate gasConfig userOp op paymasterAndData).toNat) +
        callDataCost gasConfig signature : ℚ) ≤
        callDataCost gasConfig (toBytes 32 userOp.preVerificationGas.toNat) +
          callDataCost gasConfig (List.replicate gasConfig.estimationSignatureSize 0xff) := by
      exact_mod_cast hle
    rw [hdata, List.append_nil]
    unfold variableGas
    linarith

end Agreement

section Concrete

/-- A small operation that is estimated with this preVerificationGas. -/
def opPriced (preVerificationGas : ℤ) : UserOperation :=
  { plainOp account 1 10 none none with preVerificationGas := preVerificationGas }

def opBytes : OpBytes where
  sender := padLeft 32 (toBytes 20 (0xa1 * 256 ^ 19))
  nonce := toBytes 32 1
  initCode := []
  callData := []
  accountGasLimits := wordOf 100000 100000
  gasFees := wordOf 10 10

theorem encodes_unpriced : Encodes documentedFunctions (opPriced 0) opBytes [] where
  sender := ⟨toBytes 20 (0xa1 * 256 ^ 19), by decide +kernel, rfl⟩
  nonce := ⟨by constructor <;> decide, rfl⟩
  initCode := rfl
  callData := by decide
  accountGasLimits := ⟨by constructor <;> decide, rfl⟩
  gasFees := ⟨by constructor <;> decide, rfl⟩
  paymasterAndData := rfl

theorem encodes_opPriced (preVerificationGas : ℤ) :
    Encodes documentedFunctions (opPriced preVerificationGas) opBytes [] :=
  encodes_priced encodes_unpriced preVerificationGas "0x"

theorem isUint256_of_lt {value : ℤ} (h : 0 ≤ value) (hlt : value < 2 ^ 64) : IsUint256 value :=
  ⟨h, by omega⟩

/-- The signature an estimate expects, on the chains that are configured. -/
def fullSignature : List ℕ := List.replicate 65 0xff

theorem isBytes_fullSignature : IsBytes fullSignature := isBytes_replicate (by omega) 65

theorem default_estimate_accepted :
    EstimateAccepted MAINNET_CONFIG (opPriced 21000) documentedFunctions
      (hexString fullSignature) := by
  have hestimate : estimate MAINNET_CONFIG (opPriced 21000) opBytes [] = 52148 := by decide +kernel
  have hcovered : Covered MAINNET_CONFIG (opPriced 21000) opBytes [] fullSignature := by
    refine (covered_iff rfl).mpr ?_
    rw [hestimate]
    exact ⟨isUint256_of_lt (by omega) (by omega), by decide +kernel⟩
  exact (estimate_accepted_iff documentedFunctions_documented (encodes_opPriced 21000)
    (isUint256_of_lt (by decide) (by decide)) (getBytes_hexString isBytes_fullSignature) rfl).mpr
      hcovered

/-- A preVerificationGas of 0 is priced as 32 zero bytes, the estimate is not. -/
theorem unpriced_estimate_rejected :
    calcPreVerificationGas documentedFunctions MAINNET_CONFIG
        { asPartial (opPriced 0) with signature := none } = .ok 52124 ∧
      validatePreVerificationGas documentedFunctions MAINNET_CONFIG
          { opPriced 0 with
            preVerificationGas := 52124, signature := hexString fullSignature } =
        .ok ⟨false, 52148⟩ := by
  have hestimate : estimate MAINNET_CONFIG (opPriced 0) opBytes [] = 52124 := by decide +kernel
  have hgas : IsUint256 (opPriced 0).preVerificationGas := isUint256_of_lt (by decide) (by decide)
  have hrequired : mathRound (exactGas MAINNET_CONFIG (encoded opBytes 52124 [] fullSignature)) =
      52148 := by decide +kernel
  constructor
  · rw [calcPreVerificationGas_eq documentedFunctions_documented encodes_unpriced hgas, hestimate]
  · refine (validatePreVerificationGas_eq documentedFunctions_documented
      (encodes_priced encodes_unpriced 52124 _) (isUint256_of_lt (by decide) (by decide))
      (getBytes_hexString isBytes_fullSignature)).trans ?_
    exact congrArg (fun required =>
      Except.ok (PreVerificationGasReport.mk (decide (required ≤ 52124)) required)) hrequired

end Concrete

end Bundler.PreVerificationGas
