import Bundler.AdmissionLaws
import Bundler.InputParameters
import Bundler.Validation

/-!
eth_sendUserOperation: an operation is checked as it was sent, read, validated
and hashed, and what came of that is handed to the mempool. What the calls to
the outside answer is given. Nothing gets into the pool in another way but by
debug_bundler_addUserOps, which hands over operations without a senderInfo:
these can replace a pooled operation, but never be new.
-/
namespace Bundler.EthApi

open KeyedRecords AsyncPrograms DataModel StateService ReputationManager DepositManager
  MempoolHelper MempoolManager Validation Ethers Packing PreVerificationGas InputParameters
  AdmissionLaws

section Mempool

/-- What stands for the stake of a sender when none is given. -/
def noStakeInfo : StakeInfo := ⟨"", 0, 0⟩

/-- addUserOp called without a senderInfo, which is read only in the reputation
check of a new operation. That it is missing makes the check throw. -/
def addUserOpWithoutSender (balanceOf : BalanceOf) (param : RelayUserOpParam) :
    Async (Except RpcError String) := do
  checkPaymasterDeposit balanceOf param.userOp
  let s ← getState
  match findBySenderNonce param.userOp.sender param.userOp.nonce s.standardPool with
  | none => throw .typeError
  | some oldEntry =>
      match checkReplaceUserOp (newEntry param, { metadata param with oldEntry := oldEntry }) with
      | .error error => pure (.error error)
      | .ok checked => addCheckedUserOp param checked

variable (config : StakeConfig) (balanceOf : BalanceOf) (param : RelayUserOpParam) (s : State)

/-- On a pooled slot it does what addUserOp does. -/
theorem addUserOpWithoutSender_of_found {old : MempoolEntry}
    (hfind : findBySenderNonce param.userOp.sender param.userOp.nonce s.standardPool = some old) :
    runAlone (addUserOpWithoutSender balanceOf param) s =
      runAlone (addUserOp config balanceOf param) s := by
  have hchecks : replaceOrAddUserOpChecksBy feeBumped config s (newEntry param, metadata param) =
      pure (checkReplaceUserOp (newEntry param, { metadata param with oldEntry := old })) := by
    unfold replaceOrAddUserOpChecksBy
    dsimp only [newEntry]
    rw [hfind]
    rfl
  unfold addUserOpWithoutSender addUserOp addUserOpBy admitUserOpBy runAlone
  rw [(checkPaymasterDeposit_readOnly balanceOf param.userOp).run_bind,
    (checkPaymasterDeposit_readOnly balanceOf param.userOp).run_bind]
  cases (Program.run Update.apply (checkPaymasterDeposit balanceOf param.userOp) s).2 with
  | error e => rfl
  | ok _ =>
    simp only [getState, Program.run_read_bind, hfind, hchecks]
    rfl

theorem addUserOpWithoutSender_of_not_found
    (hfind : findBySenderNonce param.userOp.sender param.userOp.nonce s.standardPool = none) :
    ∃ e, runAlone (addUserOpWithoutSender balanceOf param) s = (s, .error e) := by
  unfold addUserOpWithoutSender runAlone
  rw [(checkPaymasterDeposit_readOnly balanceOf param.userOp).run_bind]
  cases (Program.run Update.apply (checkPaymasterDeposit balanceOf param.userOp) s).2 with
  | error e => exact ⟨e, rfl⟩
  | ok _ =>
    simp only [getState, Program.run_read_bind, hfind]
    exact ⟨.typeError, rfl⟩

/-- Without a senderInfo an operation gets in exactly as a replacement. -/
theorem addUserOpWithoutSender_ok_iff (s' : State) (userOpHash : String) :
    runAlone (addUserOpWithoutSender balanceOf param) s = (s', .ok (.ok userOpHash)) ↔
      userOpHash = param.userOpHash ∧ DepositSuffices balanceOf param s ∧
        ∃ old, MempoolManager.Admitted config param s (some old) ∧
          s' = afterAdmission param s (some old) := by
  cases hfind : findBySenderNonce param.userOp.sender param.userOp.nonce s.standardPool with
  | none =>
    obtain ⟨e, hrun⟩ := addUserOpWithoutSender_of_not_found balanceOf param s hfind
    rw [hrun]
    refine iff_of_false nofun ?_
    rintro ⟨_, _, old, hadmitted, _⟩
    cases hfind.symm.trans hadmitted.1
  | some old =>
    rw [addUserOpWithoutSender_of_found config balanceOf param s hfind, addUserOp_ok_iff]
    constructor
    · rintro ⟨hhash, hdeposit, old', hadmitted, hs'⟩
      cases old' with
      | none => cases hfind.symm.trans hadmitted.1
      | some old' => exact ⟨hhash, hdeposit, old', hadmitted, hs'⟩
    · rintro ⟨hhash, hdeposit, old', hadmitted, hs'⟩
      exact ⟨hhash, hdeposit, some old', hadmitted, hs'⟩

theorem addUserOpWithoutSender_rejected
    (h : ∀ userOpHash,
      (runAlone (addUserOpWithoutSender balanceOf param) s).2 ≠ .ok (.ok userOpHash)) :
    (runAlone (addUserOpWithoutSender balanceOf param) s).1 = s := by
  cases hfind : findBySenderNonce param.userOp.sender param.userOp.nonce s.standardPool with
  | none =>
    obtain ⟨e, hrun⟩ := addUserOpWithoutSender_of_not_found balanceOf param s hfind
    rw [hrun]
  | some old =>
    rw [addUserOpWithoutSender_of_found ⟨0, 0⟩ balanceOf param s hfind] at h ⊢
    exact addUserOp_rejected ⟨0, 0⟩ balanceOf param s h

end Mempool

/-- What the API is created with. Numbers print as JavaScript prints them. -/
structure ApiConfig where
  ethers : EthersFunctions
  gasConfig : PreVerificationGasConfig
  numberText : ℚ → String
  entryPointAddress : String
  isUnsafeMode : Bool
  stakes : StakeConfig

/-- What the calls made for one request answer. -/
structure Answers where
  simulation : UserOperation → Simulation
  now : ℕ
  getUserOpHash : PackedUserOperation → Except JsError String
  balanceOf : BalanceOf

/-- An operation that was validated, with its hash. -/
structure Relayed where
  userOp : UserOperation
  userOpHash : String
  result : ValidateUserOpResult

def Relayed.param (relayed : Relayed) : RelayUserOpParam where
  userOp := relayed.userOp
  userOpHash := relayed.userOpHash
  prefund := relayed.result.validation.returnInfo.prefund
  referencedContracts := some relayed.result.referencedContracts
  senderInfo := relayed.result.validation.senderInfo.getD noStakeInfo
  paymasterInfo := relayed.result.validation.paymasterInfo
  factoryInfo := relayed.result.validation.factoryInfo
  aggregatorInfo := relayed.result.validation.aggregatorInfo

section Sending

variable (config : ApiConfig) (answers : Answers)

/-- The validation and the hash, which are asked for together. -/
def validateAndHash (userOp : UserOperation) : Except JsError (Except RpcError Relayed) := do
  let packed ← packUserOp config.ethers userOp
  let validationResult ← validateUserOp config.isUnsafeMode (answers.simulation userOp) answers.now
    userOp none
  let userOpHash ← answers.getUserOpHash packed
  match validationResult with
  | .error error => pure (.error error)
  | .ok result => pure (.ok ⟨userOp, userOpHash, result⟩)

/-- The request up to the mempool. -/
def checkAndValidate (userOpInput : Option RawOperation) (entryPointInput : Option String) :
    Except JsError (Except RpcError Relayed) := do
  let opReady ← validateInputParameters config.ethers config.gasConfig config.numberText
    userOpInput entryPointInput config.entryPointAddress true true true
  match opReady with
  | .error error => pure (.error error)
  | .ok accepted => do
      let userOp ← readOperation accepted
      validateAndHash config answers userOp

def sendUserOpToMempool (relayed : Relayed) : Async (Except RpcError String) :=
  match relayed.result.validation.senderInfo with
  | some _ => addUserOp config.stakes answers.balanceOf relayed.param
  | none => addUserOpWithoutSender answers.balanceOf relayed.param

def sendUserOperation (userOpInput : Option RawOperation) (entryPointInput : Option String) :
    Async (Except RpcError String) := do
  let ready ← Program.ofExcept (checkAndValidate config answers userOpInput entryPointInput)
  match ready with
  | .error error => pure (.error error)
  | .ok relayed => sendUserOpToMempool config answers relayed

end Sending

section Vetting

variable {config : ApiConfig} {answers : Answers}

/-- The request names the EntryPoint, in any case. -/
def NamesEntryPoint (config : ApiConfig) (entryPointInput : Option String) : Prop :=
  ∃ input, truthy entryPointInput = some input ∧
    toLowerCase input = toLowerCase config.entryPointAddress

/-- The operation is the one that was sent, it passed the checks of its fields
and its price, the simulation of it returned with what the result is parsed
from, inside its time range and with a signature, and the EntryPoint gave the
hash. -/
structure Vetted (config : ApiConfig) (answers : Answers) (userOpInput : RawOperation)
    (relayed : Relayed) : Prop where
  passes : Passes config.ethers config.gasConfig userOpInput
  reads : Reads userOpInput relayed.userOp
  simulated : simulate config.isUnsafeMode (answers.simulation relayed.userOp) relayed.userOp none =
    .ok (.ok relayed.result)
  returned : ∃ res, (answers.simulation relayed.userOp).returned config.isUnsafeMode =
      .ok (.ok res) ∧ ReturnedChecks answers.now res ∧
        relayed.result.validation = parseValidationResult relayed.userOp res
  hashed : ∃ packed, packUserOp config.ethers relayed.userOp = .ok packed ∧
    answers.getUserOpHash packed = .ok relayed.userOpHash

/-- A validation accepts what the simulation hands over unchanged. -/
theorem validateUserOp_returned_iff {isUnsafeMode : Bool} {sim : Simulation} {now : ℕ}
    {userOp : UserOperation} {result : ValidateUserOpResult} :
    validateUserOp isUnsafeMode sim now userOp none = .ok (.ok result) ↔
      simulate isUnsafeMode sim userOp none = .ok (.ok result) ∧
        ∃ res, sim.returned isUnsafeMode = .ok (.ok res) ∧ ReturnedChecks now res ∧
          result.validation = parseValidationResult userOp res := by
  rw [validateUserOp_ok_iff]
  constructor
  · rintro ⟨simulated, hsim, validation, hcheck, rfl⟩
    obtain ⟨res, hres, hparse⟩ := simulate_ok isUnsafeMode sim userOp none hsim
    rw [hparse] at hcheck
    obtain ⟨hreturned, rfl⟩ := (checkValidationResult_ok_iff now userOp res _).mp hcheck
    refine ⟨?_, res, hres, hreturned, rfl⟩
    rw [hsim, ← hparse]
  · rintro ⟨hsim, res, _, hreturned, hparse⟩
    refine ⟨result, hsim, result.validation, ?_, rfl⟩
    rw [hparse]
    exact (checkValidationResult_ok_iff now userOp res _).mpr ⟨hreturned, rfl⟩

theorem validateAndHash_ok_iff {userOp : UserOperation} {relayed : Relayed} :
    validateAndHash config answers userOp = .ok (.ok relayed) ↔
      relayed.userOp = userOp ∧
        validateUserOp config.isUnsafeMode (answers.simulation userOp) answers.now userOp none =
          .ok (.ok relayed.result) ∧
        ∃ packed, packUserOp config.ethers userOp = .ok packed ∧
          answers.getUserOpHash packed = .ok relayed.userOpHash := by
  unfold validateAndHash
  constructor
  · intro h
    obtain ⟨packed, hpacked, h⟩ := except_bind_eq_ok_iff.mp h
    obtain ⟨validationResult, hvalid, h⟩ := except_bind_eq_ok_iff.mp h
    obtain ⟨userOpHash, hhash, h⟩ := except_bind_eq_ok_iff.mp h
    cases validationResult with
    | error error => cases h
    | ok result =>
      cases h
      exact ⟨rfl, hvalid, packed, hpacked, hhash⟩
  · rintro ⟨rfl, hvalid, packed, hpacked, hhash⟩
    rw [hpacked, hvalid]
    change (answers.getUserOpHash packed >>= _) = _
    rw [hhash]
    rfl

/-- A request comes to the mempool exactly when it names the EntryPoint and
its operation is vetted. -/
theorem checkAndValidate_ok_iff {userOpInput : RawOperation} {entryPointInput : Option String}
    {relayed : Relayed} :
    checkAndValidate config answers (some userOpInput) entryPointInput = .ok (.ok relayed) ↔
      NamesEntryPoint config entryPointInput ∧ Vetted config answers userOpInput relayed := by
  unfold checkAndValidate
  constructor
  · intro h
    obtain ⟨opReady, hready, hrest⟩ := except_bind_eq_ok_iff.mp h
    cases opReady with
    | error error => cases hrest
    | ok accepted =>
      obtain ⟨hnames, rfl, hpasses⟩ := validateInputParameters_ok_iff.mp hready
      obtain ⟨userOp, hread, hend⟩ := except_bind_eq_ok_iff.mp hrest
      obtain ⟨rfl, hvalid, hhash⟩ := validateAndHash_ok_iff.mp hend
      obtain ⟨hsim, hreturned⟩ := validateUserOp_returned_iff.mp hvalid
      exact ⟨hnames, hpasses, readOperation_ok_iff.mp hread, hsim, hreturned, hhash⟩
  · rintro ⟨hnames, hvetted⟩
    rw [validateInputParameters_ok_iff.mpr ⟨hnames, rfl, hvetted.passes⟩]
    change (readOperation userOpInput >>= _) = _
    rw [readOperation_ok_iff.mpr hvetted.reads]
    exact validateAndHash_ok_iff.mpr
      ⟨rfl, validateUserOp_returned_iff.mpr ⟨hvetted.simulated, hvetted.returned⟩, hvetted.hashed⟩

theorem checkAndValidate_none (entryPointInput : Option String) (relayed : Relayed) :
    checkAndValidate config answers none entryPointInput ≠ .ok (.ok relayed) := by
  intro h
  obtain ⟨opReady, hready, hrest⟩ := except_bind_eq_ok_iff.mp h
  unfold validateInputParameters at hready
  cases hinput : truthy entryPointInput with
  | none =>
    simp only [hinput] at hready
    cases hready
    cases hrest
  | some input =>
    simp only [hinput] at hready
    split at hready
    · cases hready
      cases hrest
    · cases hready
      cases hrest

end Vetting

section Entities

variable {config : ApiConfig} {answers : Answers} {userOpInput : RawOperation} {relayed : Relayed}

theorem fillEntity_map_addr (addr : Option String) (info : StakeData) :
    (fillEntity addr info).map StakeInfo.addr = entity addr := by
  unfold fillEntity entity
  simp [Function.comp_def]

theorem senderInfo_eq_none_iff (h : Vetted config answers userOpInput relayed) :
    relayed.result.validation.senderInfo = none ↔ relayed.userOp.sender = zeroAddress := by
  obtain ⟨res, _, _, hparse⟩ := h.returned
  rw [hparse]
  simp [parseValidationResult, fillEntity, Option.filter]

/-- The stakes come with the addresses that the operation itself names. -/
theorem describesEntities_of_vetted (h : Vetted config answers userOpInput relayed)
    (hsender : relayed.userOp.sender ≠ zeroAddress) : DescribesEntities relayed.param := by
  obtain ⟨res, _, _, hparse⟩ := h.returned
  refine ⟨?_, ?_, ?_⟩
  · change (relayed.result.validation.senderInfo.getD noStakeInfo).addr = relayed.userOp.sender
    rw [hparse]
    simp [parseValidationResult, fillEntity, Option.filter, hsender]
  · change relayed.result.validation.paymasterInfo.map StakeInfo.addr = _
    rw [hparse]
    exact fillEntity_map_addr _ _
  · change relayed.result.validation.factoryInfo.map StakeInfo.addr = _
    rw [hparse]
    exact fillEntity_map_addr _ _

end Entities

section Law

variable {config : ApiConfig} {answers : Answers} {relayed : Relayed}

/-- What the mempool takes: a replacement, or a new operation of a sender
that is not the zero address. -/
structure Taken (config : ApiConfig) (answers : Answers) (relayed : Relayed) (s : State)
    (old : Option MempoolEntry) : Prop where
  deposit : DepositSuffices answers.balanceOf relayed.param s
  admitted : MempoolManager.Admitted config.stakes relayed.param s old
  sender : old = none → relayed.userOp.sender ≠ zeroAddress

theorem sendUserOpToMempool_ok_iff {userOpInput : RawOperation}
    (hvetted : Vetted config answers userOpInput relayed) (s s' : State) (userOpHash : String) :
    runAlone (sendUserOpToMempool config answers relayed) s = (s', .ok (.ok userOpHash)) ↔
      userOpHash = relayed.userOpHash ∧
        ∃ old, Taken config answers relayed s old ∧ s' = afterAdmission relayed.param s old := by
  have hsender := senderInfo_eq_none_iff hvetted
  unfold sendUserOpToMempool
  cases hinfo : relayed.result.validation.senderInfo with
  | some info =>
    have hne : relayed.userOp.sender ≠ zeroAddress := by
      intro hzero
      cases hinfo.symm.trans (hsender.mpr hzero)
    refine (addUserOp_ok_iff config.stakes answers.balanceOf relayed.param s s' userOpHash).trans ?_
    constructor
    · rintro ⟨hhash, hdeposit, old, hadmitted, hs'⟩
      exact ⟨hhash, old, ⟨hdeposit, hadmitted, fun _ => hne⟩, hs'⟩
    · rintro ⟨hhash, old, htaken, hs'⟩
      exact ⟨hhash, htaken.deposit, old, htaken.admitted, hs'⟩
  | none =>
    have hzero := hsender.mp hinfo
    refine (addUserOpWithoutSender_ok_iff config.stakes answers.balanceOf relayed.param s s'
      userOpHash).trans ?_
    constructor
    · rintro ⟨hhash, hdeposit, old, hadmitted, hs'⟩
      exact ⟨hhash, some old, ⟨hdeposit, hadmitted, nofun⟩, hs'⟩
    · rintro ⟨hhash, old, htaken, hs'⟩
      cases old with
      | none => exact absurd hzero (htaken.sender rfl)
      | some old => exact ⟨hhash, htaken.deposit, old, htaken.admitted, hs'⟩

theorem sendUserOpToMempool_rejected (s : State)
    (h : ∀ userOpHash,
      (runAlone (sendUserOpToMempool config answers relayed) s).2 ≠ .ok (.ok userOpHash)) :
    (runAlone (sendUserOpToMempool config answers relayed) s).1 = s := by
  unfold sendUserOpToMempool at h ⊢
  cases hinfo : relayed.result.validation.senderInfo with
  | some info =>
    rw [hinfo] at h
    exact addUserOp_rejected config.stakes answers.balanceOf relayed.param s h
  | none =>
    rw [hinfo] at h
    exact addUserOpWithoutSender_rejected answers.balanceOf relayed.param s h

/-- A request returns the hash exactly when it names the EntryPoint, its
operation is vetted and the mempool takes it. The state is then the one after
the admission, and in all other cases the one before. An operation that comes
in as a new one has no banned entity. -/
theorem send_all_or_nothing (config : ApiConfig) (answers : Answers) (userOpInput : RawOperation)
    (entryPointInput : Option String) (s : State) :
    (∀ s' userOpHash,
      runAlone (sendUserOperation config answers (some userOpInput) entryPointInput) s =
          (s', .ok (.ok userOpHash)) ↔
        NamesEntryPoint config entryPointInput ∧ ∃ relayed old,
          Vetted config answers userOpInput relayed ∧ userOpHash = relayed.userOpHash ∧
            Taken config answers relayed s old ∧ s' = afterAdmission relayed.param s old) ∧
      ((∀ userOpHash,
        (runAlone (sendUserOperation config answers (some userOpInput) entryPointInput) s).2 ≠
          .ok (.ok userOpHash)) →
        (runAlone (sendUserOperation config answers (some userOpInput) entryPointInput) s).1 = s) ∧
      ∀ relayed, Vetted config answers userOpInput relayed →
        Taken config answers relayed s none → NoEntityBanned s relayed.param := by
  refine ⟨?_, ?_, ?_⟩
  · intro s' userOpHash
    unfold sendUserOperation
    cases hready : checkAndValidate config answers (some userOpInput) entryPointInput with
    | error e =>
      refine iff_of_false nofun ?_
      rintro ⟨hnames, relayed, old, hvetted, _⟩
      cases hready.symm.trans (checkAndValidate_ok_iff.mpr ⟨hnames, hvetted⟩)
    | ok ready =>
      cases ready with
      | error error =>
        refine iff_of_false nofun ?_
        rintro ⟨hnames, relayed, old, hvetted, _⟩
        cases hready.symm.trans (checkAndValidate_ok_iff.mpr ⟨hnames, hvetted⟩)
      | ok relayed =>
        obtain ⟨hnames, hvetted⟩ := checkAndValidate_ok_iff.mp hready
        refine (sendUserOpToMempool_ok_iff hvetted s s' userOpHash).trans ?_
        constructor
        · rintro ⟨hhash, old, htaken, hs'⟩
          exact ⟨hnames, relayed, old, hvetted, hhash, htaken, hs'⟩
        · rintro ⟨_, relayed', old, hvetted', hhash, htaken, hs'⟩
          cases hready.symm.trans (checkAndValidate_ok_iff.mpr ⟨hnames, hvetted'⟩)
          exact ⟨hhash, old, htaken, hs'⟩
  · intro h
    unfold sendUserOperation at h ⊢
    cases hready : checkAndValidate config answers (some userOpInput) entryPointInput with
    | error e => rfl
    | ok ready =>
      cases ready with
      | error error => rfl
      | ok relayed =>
        rw [hready] at h
        exact sendUserOpToMempool_rejected s h
  · intro relayed hvetted htaken
    have hdescribes := describesEntities_of_vetted hvetted (htaken.sender rfl)
    exact noEntityBanned_of_new hdescribes htaken.admitted

end Law

end Bundler.EthApi
