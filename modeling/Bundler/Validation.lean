import Bundler.AsyncPrograms
import Bundler.ByteStrings
import Bundler.DataModel

/-!
Validation of a user operation from the outcome of its simulation. The two
validation data words are decoded byte by byte and merged; hex strings of
fixed length stand as the bytes they encode. What the outside calls answer
during one validation is a Simulation. The acceptance decision builds six
errors and returns three of them, so what is accepted obeys the full law
exactly when no simulation gets as far as one of the other three.
-/
namespace Bundler.Validation

open KeyedRecords AsyncPrograms ByteStrings DataModel

def maxUint48 : ℕ := 2 ^ 48 - 1

/-- An address as its twenty bytes. -/
abbrev AddressBytes := List ℕ

def zeroAddressBytes : AddressBytes := toBytes 20 0

def SIG_VALIDATION_FAILED : AddressBytes := toBytes 20 1

structure ValidationData where
  aggregator : AddressBytes
  validAfter : ℕ
  validUntil : ℕ
  deriving DecidableEq, Repr

def parseValidationData (validationData : BitVec 256) : ValidationData :=
  let data := toBytes 32 validationData.toNat
  let aggregator := slice data (32 - 20) 32
  let validUntil := ofBytes (slice data (32 - 26) (32 - 20))
  let validUntil := if validUntil = 0 then maxUint48 else validUntil
  let validAfter := ofBytes (slice data 0 6)
  ⟨aggregator, validAfter, validUntil⟩

def mergeValidationData (accountValidationData paymasterValidationData : ValidationData) :
    ValidationData where
  aggregator :=
    if paymasterValidationData.aggregator ≠ zeroAddressBytes then SIG_VALIDATION_FAILED
    else accountValidationData.aggregator
  validAfter := max accountValidationData.validAfter paymasterValidationData.validAfter
  validUntil := min accountValidationData.validUntil paymasterValidationData.validUntil

def mergeValidationDataValues (accountValidationData paymasterValidationData : BitVec 256) :
    ValidationData :=
  mergeValidationData (parseValidationData accountValidationData)
    (parseValidationData paymasterValidationData)

structure StakeData where
  stake : BigNumberish
  unstakeDelaySec : BigNumberish
  deriving DecidableEq, Repr

/-- The decoded return of the entry point's simulateValidation. The gas
and the prefund are decoded from unsigned words. -/
structure SimulateValidationReturn where
  preOpGas : ℕ
  prefund : ℕ
  accountValidationData : BitVec 256
  paymasterValidationData : BitVec 256
  senderInfo : StakeData
  factoryInfo : StakeData
  paymasterInfo : StakeData
  aggregator : String
  aggregatorStake : StakeData
  deriving DecidableEq, Repr

structure ReturnInfo where
  preOpGas : ℕ
  prefund : ℕ
  sigFailed : Bool
  validAfter : ℕ
  validUntil : ℕ
  deriving DecidableEq, Repr

structure ValidationResult where
  returnInfo : ReturnInfo
  senderInfo : Option StakeInfo
  factoryInfo : Option StakeInfo := none
  paymasterInfo : Option StakeInfo := none
  aggregatorInfo : Option StakeInfo := none
  deriving DecidableEq, Repr

structure ValidateUserOpResult where
  validation : ValidationResult
  referencedContracts : ReferencedCodeHashes
  storageMap : StorageMap

def fillEntity (addr : Option String) (info : StakeData) : Option StakeInfo :=
  (addr.filter (fun a => a ≠ zeroAddress)).map fun addr => ⟨addr, info.stake, info.unstakeDelaySec⟩

def parseValidationResult (userOp : UserOperation) (res : SimulateValidationReturn) :
    ValidationResult :=
  let mergedValidation :=
    mergeValidationDataValues res.accountValidationData res.paymasterValidationData
  { returnInfo :=
      { preOpGas := res.preOpGas
        prefund := res.prefund
        sigFailed := mergedValidation.aggregator ≠ zeroAddressBytes
        validAfter := mergedValidation.validAfter
        validUntil := mergedValidation.validUntil }
    senderInfo := fillEntity userOp.sender res.senderInfo
    paymasterInfo := fillEntity userOp.paymaster res.paymasterInfo
    factoryInfo := fillEntity userOp.factory res.factoryInfo
    aggregatorInfo := fillEntity res.aggregator res.aggregatorStake }

def VALID_UNTIL_FUTURE_SECONDS : ℕ := 30

def extraGas (res : ValidationResult) (userOp : UserOperation) : ℤ :=
  let verificationCost := res.returnInfo.preOpGas - userOp.preVerificationGas
  userOp.verificationGasLimit - verificationCost

/-- The Lefts that checkValidationResult builds without returning them. -/
def unreturnedErrors (now : ℕ) (res : ValidationResult) (userOp : UserOperation) : List RpcError :=
  (if ¬res.returnInfo.validUntil > now + VALID_UNTIL_FUTURE_SECONDS then
    [{ message := "expires too soon", code := ValidationErrors.notInTimeRange.code }] else []) ++
  (if ¬res.aggregatorInfo = none then
    [{ message := "Currently not supporting aggregator"
       code := ValidationErrors.unsupportedSignatureAggregator.code }] else []) ++
  (if ¬extraGas res userOp ≥ 2000 then
    [{ message := "verificationGas should have extra 2000 gas. has only " ++
        toString (extraGas res userOp)
       code := ValidationErrors.simulateValidation.code }] else [])

def checkValidationResult (now : ℕ) (res : ValidationResult) (userOp : UserOperation) :
    Except RpcError ValidationResult :=
  if res.returnInfo.sigFailed then
    .error { message := "Invalid UserOp signature", code := ValidationErrors.invalidSignature.code }
  else if ¬res.returnInfo.validAfter ≤ now then
    .error { message := "time-range in the future time " ++ toString res.returnInfo.validAfter ++
               ", now=" ++ toString now
             code := ValidationErrors.notInTimeRange.code }
  else if ¬res.returnInfo.validUntil ≥ now then
    .error { message := "already expired", code := ValidationErrors.notInTimeRange.code }
  else
    let _unreturned := unreturnedErrors now res userOp
    .ok res

/-- What the calls to the outside answer during one validation. -/
structure Simulation where
  codeHashes : List String → Except JsError String
  fullSimulateValidation : Except JsError (Except RpcError SimulateValidationReturn)
  tracerResultParser : ValidationResult → Except JsError (List String × StorageMap)
  partialSimulateValidation : Except JsError (Except RpcError SimulateValidationReturn)

def modifiedCode : RpcError where
  message := "modified code after first validation"
  code := ValidationErrors.opcodeValidation.code

/-- [COD-010] -/
def checkCodeHashes (sim : Simulation) : Option ReferencedCodeHashes → Except JsError Unit
  | none => .ok ⟨⟩
  | some previous =>
      if previous.addresses.length > 0 then do
        let hash ← sim.codeHashes previous.addresses
        if hash = previous.hash then .ok ⟨⟩ else .error (.rpcError modifiedCode)
      else .ok ⟨⟩

/-- Without previous code hashes, the hashes of the contracts just seen. -/
def newCodeHashes (sim : Simulation) (previousCodeHashes : Option ReferencedCodeHashes)
    (contractAddresses : List String) : Except JsError ReferencedCodeHashes :=
  match previousCodeHashes with
  | some _ => .ok ⟨[], ""⟩
  | none => do
      let hash ← sim.codeHashes contractAddresses
      .ok ⟨contractAddresses, hash⟩

/-- The validation up to the check of its result. -/
def simulate (isUnsafeMode : Bool) (sim : Simulation) (userOp : UserOperation)
    (previousCodeHashes : Option ReferencedCodeHashes) :
    Except JsError (Except RpcError ValidateUserOpResult) := do
  checkCodeHashes sim previousCodeHashes
  if isUnsafeMode then
    match ← sim.partialSimulateValidation with
    | .error error => .ok (.error error)
    | .ok res => .ok (.ok ⟨parseValidationResult userOp res, ⟨[], ""⟩, .empty⟩)
  else
    match ← sim.fullSimulateValidation with
    | .error error => .ok (.error error)
    | .ok res =>
        let validationResult := parseValidationResult userOp res
        let (contractAddresses, storageMap) ← sim.tracerResultParser validationResult
        let codeHashes ← newCodeHashes sim previousCodeHashes contractAddresses
        .ok (.ok ⟨validationResult, codeHashes, storageMap⟩)

def validateUserOp (isUnsafeMode : Bool) (sim : Simulation) (now : ℕ) (userOp : UserOperation)
    (previousCodeHashes : Option ReferencedCodeHashes) :
    Except JsError (Except RpcError ValidateUserOpResult) := do
  match ← simulate isUnsafeMode sim userOp previousCodeHashes with
  | .error error => .ok (.error error)
  | .ok result =>
      match checkValidationResult now result.validation userOp with
      | .error error => .ok (.error error)
      | .ok validation => .ok (.ok { result with validation := validation })

section Words

variable (w : BitVec 256)

def aggregatorPart : ℕ := w.toNat % 2 ^ 160

/-- The end of a word's window, where zero stands for no end. -/
def validUntilPart : ℕ :=
  if w.toNat / 2 ^ 160 % 2 ^ 48 = 0 then maxUint48 else w.toNat / 2 ^ 160 % 2 ^ 48

def validAfterPart : ℕ := w.toNat / 2 ^ 208

theorem slice_aggregator (value : ℕ) :
    slice (toBytes 32 value) (32 - 20) 32 = toBytes 20 value := by
  rw [slice_toBytes (by omega) (by omega), Nat.sub_self, Nat.pow_zero, Nat.div_one]

theorem ofBytes_slice_validUntil (value : ℕ) :
    ofBytes (slice (toBytes 32 value) (32 - 26) (32 - 20)) = value / 2 ^ 160 % 2 ^ 48 := by
  rw [slice_toBytes (by omega) (by omega), ofBytes_toBytes]
  norm_num

theorem ofBytes_slice_validAfter {value : ℕ} (h : value < 2 ^ 256) :
    ofBytes (slice (toBytes 32 value) 0 6) = value / 2 ^ 208 := by
  have hdiv : value / 2 ^ 208 < 2 ^ 48 := by omega
  rw [slice_toBytes (by omega) (by omega), ofBytes_toBytes]
  norm_num at hdiv ⊢
  exact hdiv

/-- Decoding a word byte by byte reads its three parts. -/
theorem parseValidationData_eq :
    parseValidationData w = ⟨toBytes 20 w.toNat, validAfterPart w, validUntilPart w⟩ := by
  unfold parseValidationData
  simp only [slice_aggregator, ofBytes_slice_validUntil, ofBytes_slice_validAfter w.isLt]
  rfl

theorem aggregator_eq_zero_iff :
    (parseValidationData w).aggregator = zeroAddressBytes ↔ aggregatorPart w = 0 := by
  rw [parseValidationData_eq, zeroAddressBytes, toBytes_eq_iff]
  norm_num [aggregatorPart]

end Words

section Acceptance

variable (now : ℕ) (userOp : UserOperation) (res : SimulateValidationReturn)

def mergedValidUntil : ℕ :=
  min (validUntilPart res.accountValidationData) (validUntilPart res.paymasterValidationData)

/-- The checks whose errors are returned. -/
structure ReturnedChecks : Prop where
  account : aggregatorPart res.accountValidationData = 0
  paymaster : aggregatorPart res.paymasterValidationData = 0
  accountAfter : validAfterPart res.accountValidationData ≤ now
  paymasterAfter : validAfterPart res.paymasterValidationData ≤ now
  expired : now ≤ mergedValidUntil res

/-- The checks whose errors are built and dropped. -/
structure UnreturnedChecks : Prop where
  soon : mergedValidUntil res > now + VALID_UNTIL_FUTURE_SECONDS
  aggregator : res.aggregator = zeroAddress
  gas : userOp.verificationGasLimit - (res.preOpGas - userOp.preVerificationGas) ≥ 2000

/-- What acceptance is meant to guarantee. -/
structure AcceptanceLaw (result : ValidationResult) : Prop where
  account : aggregatorPart res.accountValidationData = 0
  paymaster : aggregatorPart res.paymasterValidationData = 0
  accountAfter : validAfterPart res.accountValidationData ≤ now
  paymasterAfter : validAfterPart res.paymasterValidationData ≤ now
  soon : mergedValidUntil res > now + VALID_UNTIL_FUTURE_SECONDS
  aggregator : result.aggregatorInfo = none
  gas : userOp.verificationGasLimit - (res.preOpGas - userOp.preVerificationGas) ≥ 2000

theorem sigFailed_eq_false_iff :
    (parseValidationResult userOp res).returnInfo.sigFailed = false ↔
      aggregatorPart res.accountValidationData = 0 ∧
        aggregatorPart res.paymasterValidationData = 0 := by
  rw [← aggregator_eq_zero_iff, ← aggregator_eq_zero_iff]
  unfold parseValidationResult mergeValidationDataValues mergeValidationData
  have hmarker : SIG_VALIDATION_FAILED ≠ zeroAddressBytes := by decide
  by_cases hpaymaster : (parseValidationData res.paymasterValidationData).aggregator =
      zeroAddressBytes
  · simp [hpaymaster]
  · simp [hpaymaster, hmarker]

theorem parseValidationResult_validAfter :
    (parseValidationResult userOp res).returnInfo.validAfter =
      max (validAfterPart res.accountValidationData)
        (validAfterPart res.paymasterValidationData) := by
  unfold parseValidationResult mergeValidationDataValues
  rw [parseValidationData_eq, parseValidationData_eq]
  rfl

theorem parseValidationResult_validUntil :
    (parseValidationResult userOp res).returnInfo.validUntil = mergedValidUntil res := by
  unfold parseValidationResult mergeValidationDataValues
  rw [parseValidationData_eq, parseValidationData_eq]
  rfl

theorem aggregatorInfo_eq_none_iff :
    (parseValidationResult userOp res).aggregatorInfo = none ↔ res.aggregator = zeroAddress := by
  change fillEntity (some res.aggregator) res.aggregatorStake = none ↔ _
  unfold fillEntity
  by_cases h : res.aggregator = zeroAddress
  · simp [Option.filter, h]
  · simp [Option.filter, h]

/-- The check passes exactly when the three returned errors do not apply. -/
theorem checkValidationResult_ok_iff (result : ValidationResult) :
    checkValidationResult now (parseValidationResult userOp res) userOp = .ok result ↔
      ReturnedChecks now res ∧ result = parseValidationResult userOp res := by
  have hsig := sigFailed_eq_false_iff userOp res
  have hafter := parseValidationResult_validAfter userOp res
  have huntil := parseValidationResult_validUntil userOp res
  unfold checkValidationResult
  rw [hafter, huntil]
  by_cases hfailed : (parseValidationResult userOp res).returnInfo.sigFailed = true
  · rw [if_pos hfailed]
    constructor
    · intro h
      cases h
    · rintro ⟨hchecks, _⟩
      have hfalse := hsig.mpr ⟨hchecks.account, hchecks.paymaster⟩
      rw [hfalse] at hfailed
      cases hfailed
  · obtain ⟨haccount, hpaymaster⟩ := hsig.mp (by simpa using hfailed)
    rw [if_neg hfailed]
    by_cases hlate : max (validAfterPart res.accountValidationData)
        (validAfterPart res.paymasterValidationData) ≤ now
    · rw [if_neg (not_not.mpr hlate)]
      by_cases hexpired : mergedValidUntil res ≥ now
      · rw [if_neg (not_not.mpr hexpired)]
        constructor
        · intro h
          refine ⟨⟨haccount, hpaymaster, ?_, ?_, hexpired⟩, (Except.ok.inj h).symm⟩
          · exact (le_max_left _ _).trans hlate
          · exact (le_max_right _ _).trans hlate
        · rintro ⟨_, rfl⟩
          rfl
      · rw [if_pos hexpired]
        constructor
        · intro h
          cases h
        · rintro ⟨hchecks, _⟩
          exact absurd hchecks.expired hexpired
    · rw [if_pos hlate]
      constructor
      · intro h
        cases h
      · rintro ⟨hchecks, _⟩
        exact absurd (max_le hchecks.accountAfter hchecks.paymasterAfter) hlate

theorem acceptanceLaw_iff (hreturned : ReturnedChecks now res) :
    AcceptanceLaw now userOp res (parseValidationResult userOp res) ↔
      UnreturnedChecks now userOp res := by
  constructor
  · intro h
    exact ⟨h.soon, (aggregatorInfo_eq_none_iff userOp res).mp h.aggregator, h.gas⟩
  · intro h
    exact ⟨hreturned.account, hreturned.paymaster, hreturned.accountAfter,
      hreturned.paymasterAfter, h.soon, (aggregatorInfo_eq_none_iff userOp res).mpr h.aggregator,
      h.gas⟩

end Acceptance

section Service

variable (isUnsafeMode : Bool) (sim : Simulation) (now : ℕ) (userOp : UserOperation)
  (previousCodeHashes : Option ReferencedCodeHashes)

/-- The answer of the simulation that the mode calls for. -/
def Simulation.returned : Except JsError (Except RpcError SimulateValidationReturn) :=
  if isUnsafeMode then sim.partialSimulateValidation else sim.fullSimulateValidation

/-- What a simulation hands to the check is parsed from its answer. -/
theorem simulate_ok {result : ValidateUserOpResult}
    (h : simulate isUnsafeMode sim userOp previousCodeHashes = .ok (.ok result)) :
    ∃ res, sim.returned isUnsafeMode = .ok (.ok res) ∧
      result.validation = parseValidationResult userOp res := by
  unfold simulate at h
  obtain ⟨_, _, hmode⟩ := except_bind_eq_ok_iff.mp h
  cases isUnsafeMode with
  | true =>
    obtain ⟨answer, hanswer, hresult⟩ := except_bind_eq_ok_iff.mp hmode
    cases answer with
    | error error => cases hresult
    | ok res =>
      cases hresult
      exact ⟨res, hanswer, rfl⟩
  | false =>
    obtain ⟨answer, hanswer, hresult⟩ := except_bind_eq_ok_iff.mp hmode
    cases answer with
    | error error => cases hresult
    | ok res =>
      obtain ⟨seen, _, hhashes⟩ := except_bind_eq_ok_iff.mp hresult
      obtain ⟨hashes, _, hdone⟩ := except_bind_eq_ok_iff.mp hhashes
      cases hdone
      exact ⟨res, hanswer, rfl⟩

/-- A validation accepts exactly what its simulation hands over and the
check lets pass. -/
theorem validateUserOp_ok_iff (result : ValidateUserOpResult) :
    validateUserOp isUnsafeMode sim now userOp previousCodeHashes = .ok (.ok result) ↔
      ∃ simulated, simulate isUnsafeMode sim userOp previousCodeHashes = .ok (.ok simulated) ∧
        ∃ validation, checkValidationResult now simulated.validation userOp = .ok validation ∧
          result = { simulated with validation := validation } := by
  unfold validateUserOp
  rw [except_bind_eq_ok_iff]
  constructor
  · rintro ⟨answer, hanswer, h⟩
    cases answer with
    | error error => cases h
    | ok simulated =>
      cases hcheck : checkValidationResult now simulated.validation userOp with
      | error error => simp [hcheck] at h
      | ok validation =>
        simp only [hcheck, Except.ok.injEq] at h
        exact ⟨simulated, hanswer, validation, hcheck, h.symm⟩
  · rintro ⟨simulated, hanswer, validation, hcheck, rfl⟩
    refine ⟨.ok simulated, hanswer, ?_⟩
    simp only [hcheck]

/-- Acceptance obeys the law exactly when every simulation that passes the
returned checks would pass the unreturned ones as well. -/
theorem acceptance_law_iff :
    (∀ res result, sim.returned isUnsafeMode = .ok (.ok res) →
        validateUserOp isUnsafeMode sim now userOp previousCodeHashes = .ok (.ok result) →
        AcceptanceLaw now userOp res result.validation) ↔
      ∀ res simulated, sim.returned isUnsafeMode = .ok (.ok res) →
        simulate isUnsafeMode sim userOp previousCodeHashes = .ok (.ok simulated) →
        ReturnedChecks now res → UnreturnedChecks now userOp res := by
  constructor
  · intro hlaw res simulated hres hsim hreturned
    obtain ⟨res', hres', hparse⟩ := simulate_ok isUnsafeMode sim userOp previousCodeHashes hsim
    obtain rfl : res' = res := by simpa [hres] using hres'.symm
    have hcheck := (checkValidationResult_ok_iff now userOp res' _).mpr ⟨hreturned, rfl⟩
    have hvalid := (validateUserOp_ok_iff isUnsafeMode sim now userOp previousCodeHashes _).mpr
      ⟨simulated, hsim, _, hparse ▸ hcheck, rfl⟩
    have haccepted : AcceptanceLaw now userOp res' simulated.validation := hlaw res' _ hres hvalid
    rw [hparse] at haccepted
    exact (acceptanceLaw_iff now userOp res' hreturned).mp haccepted
  · intro hunreturned res result hres hvalid
    obtain ⟨simulated, hsim, validation, hcheck, rfl⟩ :=
      (validateUserOp_ok_iff isUnsafeMode sim now userOp previousCodeHashes _).mp hvalid
    obtain ⟨res', hres', hparse⟩ := simulate_ok isUnsafeMode sim userOp previousCodeHashes hsim
    obtain rfl : res' = res := by simpa [hres] using hres'.symm
    rw [hparse] at hcheck
    obtain ⟨hreturned, rfl⟩ := (checkValidationResult_ok_iff now userOp res' _).mp hcheck
    exact (acceptanceLaw_iff now userOp res' hreturned).mpr
      (hunreturned res' simulated hres hsim hreturned)

end Service

section Concrete

/-- A simulation whose account signs for a window that ends at the given time. -/
def endingAt (time : ℕ) : SimulateValidationReturn where
  preOpGas := 60000
  prefund := 0
  accountValidationData := BitVec.ofNat 256 (time * 2 ^ 160)
  paymasterValidationData := 0
  senderInfo := ⟨0, 0⟩
  factoryInfo := ⟨0, 0⟩
  paymasterInfo := ⟨0, 0⟩
  aggregator := zeroAddress
  aggregatorStake := ⟨0, 0⟩

def partialSimulation (res : SimulateValidationReturn) : Simulation where
  codeHashes := fun _ => .ok ""
  fullSimulateValidation := .error .typeError
  tracerResultParser := fun _ => .error .typeError
  partialSimulateValidation := .ok (.ok res)

/-- Ten seconds before the end of its window an operation is still accepted. -/
theorem expiring_accepted :
    ¬∀ (isUnsafeMode : Bool) (sim : Simulation) (now : ℕ) (userOp : UserOperation)
      (previousCodeHashes : Option ReferencedCodeHashes) (res : SimulateValidationReturn)
      (result : ValidateUserOpResult), sim.returned isUnsafeMode = .ok (.ok res) →
      validateUserOp isUnsafeMode sim now userOp previousCodeHashes = .ok (.ok result) →
      AcceptanceLaw now userOp res result.validation := by
  intro h
  have hlaw := h true (partialSimulation (endingAt 1700000010)) 1700000000
    (plainOp account 1 10 none none) none
    (endingAt 1700000010) _ rfl rfl
  exact absurd hlaw.soon (by decide)

end Concrete

end Bundler.Validation
