import Bundler.PreVerificationGas

/-!
The price of call data under a configuration with whole-number parameters.
The costs of the bytes are kept in an array of bytes, so a cost of 256 or more
is cut down. Every encoded operation has bytes of both kinds, so its gas is
what the formula says exactly when both costs fit into a byte.
-/
namespace Bundler.CallDataCosts

open ByteStrings AsyncPrograms DataModel Ethers HexStrings PreVerificationGas

section Configurations

/-- A configuration of whole numbers. -/
structure GasParameters where
  fixedGasOverhead : ℕ
  perUserOpGasOverhead : ℕ
  perUserOpWordGasOverhead : ℕ
  zeroByteGasCost : ℕ
  nonZeroByteGasCost : ℕ
  expectedBundleSize : ℕ
  expectedBundleSize_pos : 0 < expectedBundleSize
  estimationSignatureSize : ℕ
  estimationPaymasterDataSize : ℕ

def GasParameters.config (params : GasParameters) : PreVerificationGasConfig where
  fixedGasOverhead := params.fixedGasOverhead
  perUserOpGasOverhead := params.perUserOpGasOverhead
  perUserOpWordGasOverhead := params.perUserOpWordGasOverhead
  zeroByteGasCost := params.zeroByteGasCost
  nonZeroByteGasCost := params.nonZeroByteGasCost
  expectedBundleSize := params.expectedBundleSize
  expectedBundleSize_ne := by
    have := params.expectedBundleSize_pos
    exact_mod_cast this.ne'
  estimationSignatureSize := params.estimationSignatureSize
  estimationPaymasterDataSize := params.estimationPaymasterDataSize

/-- The parameters that an update gives. -/
structure PartialGasConfig where
  fixedGasOverhead : Option ℚ
  perUserOpGasOverhead : Option ℚ
  perUserOpWordGasOverhead : Option ℚ
  zeroByteGasCost : Option ℚ
  nonZeroByteGasCost : Option ℚ
  expectedBundleSize : Option { size : ℚ // size ≠ 0 }
  estimationSignatureSize : Option ℕ
  estimationPaymasterDataSize : Option ℕ

def updateGasConfig (gasConfig : PreVerificationGasConfig) (config : PartialGasConfig) :
    PreVerificationGasConfig :=
  let bundleSize :=
    config.expectedBundleSize.getD ⟨gasConfig.expectedBundleSize, gasConfig.expectedBundleSize_ne⟩
  { fixedGasOverhead := config.fixedGasOverhead.getD gasConfig.fixedGasOverhead
    perUserOpGasOverhead := config.perUserOpGasOverhead.getD gasConfig.perUserOpGasOverhead
    perUserOpWordGasOverhead :=
      config.perUserOpWordGasOverhead.getD gasConfig.perUserOpWordGasOverhead
    zeroByteGasCost := config.zeroByteGasCost.getD gasConfig.zeroByteGasCost
    nonZeroByteGasCost := config.nonZeroByteGasCost.getD gasConfig.nonZeroByteGasCost
    expectedBundleSize := bundleSize
    expectedBundleSize_ne := bundleSize.2
    estimationSignatureSize :=
      config.estimationSignatureSize.getD gasConfig.estimationSignatureSize
    estimationPaymasterDataSize :=
      config.estimationPaymasterDataSize.getD gasConfig.estimationPaymasterDataSize }

/-- Any whole numbers can be configured, whatever the configuration before. -/
theorem exists_update (params : GasParameters) (gasConfig : PreVerificationGasConfig) :
    ∃ config, updateGasConfig gasConfig config = params.config :=
  ⟨⟨some params.config.fixedGasOverhead, some params.config.perUserOpGasOverhead,
    some params.config.perUserOpWordGasOverhead, some params.config.zeroByteGasCost,
    some params.config.nonZeroByteGasCost,
    some ⟨params.config.expectedBundleSize, params.config.expectedBundleSize_ne⟩,
    some params.config.estimationSignatureSize, some params.config.estimationPaymasterDataSize⟩,
    rfl⟩

end Configurations

section Costs

variable (params : GasParameters) (packed : List ℕ)

/-- What the bytes are meant to cost, zeros and others. -/
def bytesPrice : ℕ :=
  params.zeroByteGasCost * packed.count 0 +
    params.nonZeroByteGasCost * (packed.length - packed.count 0)

/-- The gas before rounding, as it is meant. -/
def gasFormula : ℚ :=
  params.zeroByteGasCost * packed.count 0 +
    params.nonZeroByteGasCost * (packed.length - packed.count 0) +
    params.perUserOpWordGasOverhead * (packed.length + 31) / 32 + params.perUserOpGasOverhead +
    params.fixedGasOverhead / params.expectedBundleSize

@[simp] theorem toUint8_natCast (value : ℕ) : toUint8 value = value % 256 := by
  unfold toUint8
  rw [Rat.num_natCast, Rat.den_natCast]
  simp
  omega

/-- A sum of one cost for zeros and one for other bytes. -/
theorem sum_costs (zeroCost otherCost : ℕ) :
    (packed.map fun x => if x = 0 then zeroCost else otherCost).sum =
      zeroCost * packed.count 0 + otherCost * (packed.length - packed.count 0) := by
  induction packed with
  | nil => rfl
  | cons byte packed ih =>
    have hle : packed.count 0 ≤ packed.length := List.count_le_length
    rw [List.map_cons, List.sum_cons, ih, List.length_cons]
    by_cases hbyte : byte = 0
    · have hrest : packed.length + 1 - (packed.count 0 + 1) = packed.length - packed.count 0 := by
        omega
      rw [if_pos hbyte, hbyte, List.count_cons_self, hrest]
      ring
    · have hrest : packed.length + 1 - packed.count 0 = packed.length - packed.count 0 + 1 := by
        omega
      rw [if_neg hbyte, List.count_cons_of_ne hbyte, hrest]
      ring

/-- Each cost is cut down to a byte. -/
theorem callDataCost_eq :
    callDataCost params.config packed =
      params.zeroByteGasCost % 256 * packed.count 0 +
        params.nonZeroByteGasCost % 256 * (packed.length - packed.count 0) := by
  rw [← sum_costs]
  unfold callDataCost byteGasCost
  congr 1
  refine List.map_congr_left ?_
  intro byte _
  rw [apply_ite toUint8]
  exact if_congr Iff.rfl (toUint8_natCast _) (toUint8_natCast _)

/-- What is cut off is a whole number. -/
theorem callDataCost_le : callDataCost params.config packed ≤ bytesPrice params packed := by
  rw [callDataCost_eq]
  exact Nat.add_le_add (Nat.mul_le_mul_right _ (Nat.mod_le _ _))
    (Nat.mul_le_mul_right _ (Nat.mod_le _ _))

theorem gasFormula_eq :
    gasFormula params packed =
      exactGas params.config packed +
        ((bytesPrice params packed - callDataCost params.config packed : ℕ) : ℚ) := by
  have hle : packed.count 0 ≤ packed.length := List.count_le_length
  rw [Nat.cast_sub (callDataCost_le params packed)]
  unfold gasFormula exactGas bytesPrice
  push_cast [Nat.cast_sub hle]
  change _ = _ + (_ * (params.perUserOpWordGasOverhead : ℚ)) + (params.perUserOpGasOverhead : ℚ) +
    (params.fixedGasOverhead : ℚ) / params.expectedBundleSize + _
  ring

theorem mathRound_add_natCast (value : ℚ) (n : ℕ) :
    mathRound (value + n) = mathRound value + n := by
  refine eq_of_forall_ge_iff fun bound => ?_
  rw [mathRound_le_iff, ← le_sub_iff_add_le, mathRound_le_iff]
  push_cast
  constructor
  · intro h
    linarith
  · intro h
    linarith

/-- Rounding does not hide what is cut off. -/
theorem round_eq_iff :
    mathRound (exactGas params.config packed) = mathRound (gasFormula params packed) ↔
      callDataCost params.config packed = bytesPrice params packed := by
  have hle := callDataCost_le params packed
  rw [gasFormula_eq, mathRound_add_natCast]
  omega

/-- With bytes of both kinds nothing is cut off just if both costs are bytes. -/
theorem cost_eq_price_iff (hzero : 0 ∈ packed) (hother : ∃ byte ∈ packed, byte ≠ 0) :
    callDataCost params.config packed = bytesPrice params packed ↔
      params.zeroByteGasCost < 256 ∧ params.nonZeroByteGasCost < 256 := by
  have hzeros : 0 < packed.count 0 := List.count_pos_iff.mpr hzero
  have hothers : 0 < packed.length - packed.count 0 := by
    have hle : packed.count 0 ≤ packed.length := List.count_le_length
    have hne : packed.count 0 ≠ packed.length := by
      intro hall
      obtain ⟨byte, hbyte, hne⟩ := hother
      exact hne (List.count_eq_length.mp hall byte hbyte).symm
    omega
  rw [callDataCost_eq]
  unfold bytesPrice
  have hzeroCost : params.zeroByteGasCost % 256 * packed.count 0 ≤
      params.zeroByteGasCost * packed.count 0 :=
    Nat.mul_le_mul_right _ (Nat.mod_le _ _)
  have hotherCost : params.nonZeroByteGasCost % 256 * (packed.length - packed.count 0) ≤
      params.nonZeroByteGasCost * (packed.length - packed.count 0) :=
    Nat.mul_le_mul_right _ (Nat.mod_le _ _)
  constructor
  · intro hsum
    have hzeroEq := Nat.eq_of_mul_eq_mul_right hzeros
      (show params.zeroByteGasCost % 256 * packed.count 0 =
        params.zeroByteGasCost * packed.count 0 by omega)
    have hotherEq := Nat.eq_of_mul_eq_mul_right hothers
      (show params.nonZeroByteGasCost % 256 * (packed.length - packed.count 0) =
        params.nonZeroByteGasCost * (packed.length - packed.count 0) by omega)
    omega
  · rintro ⟨hzeroLt, hotherLt⟩
    rw [Nat.mod_eq_of_lt hzeroLt, Nat.mod_eq_of_lt hotherLt]

end Costs

section Operations

variable {ethers : EthersFunctions} {userOp : UserOperation} {packed : List ℕ}

/-- The offset of the first dynamic value has bytes of both kinds. -/
theorem exists_bytes_encoded (op : OpBytes) (preVerificationGas : ℕ)
    (paymasterAndData signature : List ℕ) :
    0 ∈ encoded op preVerificationGas paymasterAndData signature ∧
      ∃ byte ∈ encoded op preVerificationGas paymasterAndData signature, byte ≠ 0 := by
  have hoffset (byte : ℕ) (hbyte : byte ∈ toBytes 32 288) :
      byte ∈ encoded op preVerificationGas paymasterAndData signature := by
    rw [encoded_eq]
    simp only [List.mem_append]
    tauto
  exact ⟨hoffset 0 (by decide), 32, hoffset 32 (by decide), by omega⟩

theorem exists_bytes (hdoc : Documented ethers) (h : encodedBytes ethers userOp = .ok packed) :
    0 ∈ packed ∧ ∃ byte ∈ packed, byte ≠ 0 := by
  obtain ⟨op, paymasterAndData, hop, hgas, hsignature⟩ := encodes_of_encodedBytes hdoc h
  obtain ⟨signature, hsignature⟩ := Option.isSome_iff_exists.mp hsignature
  have hbytes := encodedBytes_eq hdoc hop hgas hsignature
  rw [h] at hbytes
  rw [Except.ok.inj hbytes]
  exact exists_bytes_encoded op _ paymasterAndData signature

theorem calculate_of_encodedBytes {gasConfig : PreVerificationGasConfig}
    (h : encodedBytes ethers userOp = .ok packed) :
    calculate ethers gasConfig userOp = .ok (mathRound (exactGas gasConfig packed)) := by
  unfold calculate
  rw [h]
  rfl

/-- The gas of an encoded operation is the rounded formula exactly when the
costs of a zero byte and of another byte are below 256. -/
theorem calculate_exact_iff (hdoc : Documented ethers) (params : GasParameters)
    (h : encodedBytes ethers userOp = .ok packed) :
    calculate ethers params.config userOp = .ok (mathRound (gasFormula params packed)) ↔
      params.zeroByteGasCost < 256 ∧ params.nonZeroByteGasCost < 256 := by
  obtain ⟨hzero, hother⟩ := exists_bytes hdoc h
  rw [calculate_of_encodedBytes h, ← cost_eq_price_iff params packed hzero hother, ← round_eq_iff]
  exact ⟨Except.ok.inj, congrArg Except.ok⟩

end Operations

section Concrete

/-- The configuration of the main network with another cost of a nonzero byte. -/
def mainnetWith (nonZeroByteGasCost : ℕ) : GasParameters where
  fixedGasOverhead := 38000
  perUserOpGasOverhead := 11000
  perUserOpWordGasOverhead := 4
  zeroByteGasCost := 4
  nonZeroByteGasCost := nonZeroByteGasCost
  expectedBundleSize := 1
  expectedBundleSize_pos := by omega
  estimationSignatureSize := 65
  estimationPaymasterDataSize := 0

theorem encodedBytes_opPriced :
    encodedBytes documentedFunctions (opPriced 21000) =
      .ok (encoded opBytes 21000 [] []) :=
  encodedBytes_eq documentedFunctions_documented (encodes_opPriced 21000)
    (isUint256_of_lt (by decide) (by decide)) rfl

theorem mainnet_exact :
    calculate documentedFunctions (mainnetWith 16).config (opPriced 21000) =
      .ok (mathRound (gasFormula (mainnetWith 16) (encoded opBytes 21000 [] []))) :=
  (calculate_exact_iff documentedFunctions_documented (mainnetWith 16)
    encodedBytes_opPriced).mpr (by decide)

/-- At 256 a nonzero byte costs nothing. -/
theorem cost_256_lost :
    encodedBytes documentedFunctions (opPriced 21000) = .ok (encoded opBytes 21000 [] []) ∧
      calculate documentedFunctions (mainnetWith 256).config (opPriced 21000) = .ok 50640 ∧
      mathRound (gasFormula (mainnetWith 256) (encoded opBytes 21000 [] [])) = 55760 := by
  have hgas : mathRound (exactGas (mainnetWith 256).config (encoded opBytes 21000 [] [])) =
      50640 := by decide +kernel
  refine ⟨encodedBytes_opPriced, ?_, by decide +kernel⟩
  rw [calculate_of_encodedBytes encodedBytes_opPriced, hgas]

end Concrete

end Bundler.CallDataCosts
