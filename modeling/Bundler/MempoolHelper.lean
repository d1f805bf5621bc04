import Bundler.Numbers
import Bundler.ReputationManager
import Mathlib.Tactic.SplitIfs
import Mathlib.Tactic.Tauto

/-!
The checks an operation passes on its way into the mempool. An operation
whose sender and nonce are already pooled is a replacement and has only its
fees checked; any other operation is new and has its entities' reputation
and its roles checked. The checks read the reputation state at their own
accesses, and the pool and the counts through the references they are
handed: the look-up at once, a count when an entity has passed its ban
check, the roles at the end. Fees are compared as doubles; the comparison
is a parameter, so that what does not depend on it is said once.
-/
namespace Bundler.MempoolHelper

open KeyedRecords AsyncPrograms DataModel StateService ReputationManager Numbers

structure MempoolEntryMetadata where
  senderInfo : StakeInfo
  paymasterInfo : Option StakeInfo := none
  factoryInfo : Option StakeInfo := none
  aggregatorInfo : Option StakeInfo := none
  oldEntry : Option MempoolEntry := none

abbrev MempoolEntryWithMetadata := MempoolEntry × MempoolEntryMetadata

/-- An if without an else. -/
def onlyIf (cond : Prop) [Decidable cond] (p : Async PUnit) : Async PUnit :=
  if cond then p else pure ⟨⟩

def THROTTLED_ENTITY_MEMPOOL_COUNT : ℕ := 4
def MAX_MEMPOOL_USEROPS_PER_SENDER : ℤ := 4

def maxTxMempoolAllowedEntity (maxTxMempoolAllowedOverride : Option ℤ) (stakeInfo : StakeInfo) :
    Async ℤ :=
  match maxTxMempoolAllowedOverride with
  | some max => pure max
  | none => calculateMaxAllowedMempoolOpsUnstaked stakeInfo.addr

def checkReputationStatus (config : StakeConfig) (mempoolEntryCount : Async EntryCount)
    (title : Title) (stakeInfo : StakeInfo) (maxTxMempoolAllowedOverride : Option ℤ) :
    Async PUnit := do
  let max ← maxTxMempoolAllowedEntity maxTxMempoolAllowedOverride stakeInfo
  checkBanned title stakeInfo
  let counts ← mempoolEntryCount
  let foundCount := counts (toLowerCase stakeInfo.addr)
  onlyIf (foundCount > THROTTLED_ENTITY_MEMPOOL_COUNT) (checkThrottled title stakeInfo)
  onlyIf ((foundCount : ℤ) ≥ max) (checkStake config title stakeInfo)

/-- The check of an entity the operation may lack. -/
def checkOptional (config : StakeConfig) (mempoolEntryCount : Async EntryCount) (title : Title) :
    Option StakeInfo → Async PUnit
  | some stakeInfo => checkReputationStatus config mempoolEntryCount title stakeInfo none
  | none => pure ⟨⟩

def checkReputation (config : StakeConfig) (mempoolEntryCount : Async EntryCount)
    (metadata : MempoolEntryMetadata) : Async PUnit := do
  checkReputationStatus config mempoolEntryCount .account metadata.senderInfo
    (some MAX_MEMPOOL_USEROPS_PER_SENDER)
  checkOptional config mempoolEntryCount .paymaster metadata.paymasterInfo
  checkOptional config mempoolEntryCount .deployer metadata.factoryInfo
  checkOptional config mempoolEntryCount .aggregator metadata.aggregatorInfo

def isRpcError : JsError → Bool
  | .rpcError _ => true
  | _ => false

def updateSeenStatus (aggregator : Option String) (userOp : UserOperation) : Async PUnit := do
  tryCatch (ReputationManager.updateSeenStatus userOp.sender .increment)
    (fun e => if isRpcError e then pure ⟨⟩ else throw e)
  updateSeenStatusBatch ([userOp.paymaster, userOp.factory, aggregator].filterMap id)

def getKnownSenders (standardPool : StandardPool) : List String :=
  standardPool.values.map (fun entry => toLowerCase entry.userOp.sender)

def getKnownEntities (standardPool : StandardPool) : List String :=
  let res := standardPool.values.flatMap fun entry =>
    [(truthy entry.userOp.paymaster).getD "0x", (truthy entry.userOp.factory).getD "0x"]
  (res.filter (fun entryAddress => entryAddress ≠ "0x")).map toLowerCase

def senderRoleError (userOp : UserOperation) : RpcError where
  message := "The sender address \"" ++ userOp.sender ++
    "\" is used as a different entity in another UserOperation currently in mempool"
  code := ValidationErrors.opcodeValidation.code

def entityRoleError (entity : String) (addr : Option String) : RpcError where
  message := "A " ++ entity ++ " at " ++ addr.getD "undefined" ++
    " in this UserOperation is used as a sender entity in another UserOperation " ++
    "currently in mempool."
  code := ValidationErrors.opcodeValidation.code

def checkMultipleRolesViolation (entryWithMetadata : MempoolEntryWithMetadata)
    (knownEntities knownSenders : List String) : Except RpcError MempoolEntryWithMetadata :=
  let userOp := entryWithMetadata.1.userOp
  if toLowerCase userOp.sender ∈ knownEntities then .error (senderRoleError userOp)
  else if (userOp.paymaster.map toLowerCase).getD "" ∈ knownSenders then
    .error (entityRoleError "Paymaster" userOp.paymaster)
  else if (userOp.factory.map toLowerCase).getD "" ∈ knownSenders then
    .error (entityRoleError "Factory" userOp.factory)
  else .ok entryWithMetadata

/-- A comparison of a new fee with the old one it replaces. -/
abbrev FeeTest := BigNumberish → BigNumberish → Bool

/-- At least the old fee times 1.1, as doubles. -/
def feeBumped : FeeTest := fun oldFee newFee => number newFee ≥ number oldFee * 1.1

example : ¬feeBumped 100 110 := by decide

example : feeBumped (10 ^ 19) (11 * 10 ^ 18 - 1) := by decide +kernel

def replacementFeeError (fee : String) (oldFee newFee : BigNumberish) : RpcError where
  message := "Replacement UserOperation must have higher " ++ fee ++ " (old=" ++
    numberText (number oldFee) ++ " new=" ++ numberText (number newFee) ++ ") "
  code := ValidationErrors.invalidFields.code

def checkReplaceUserOpBy (bumped : FeeTest) (entryWithMetadata : MempoolEntryWithMetadata) :
    Except RpcError MempoolEntryWithMetadata :=
  match entryWithMetadata.2.oldEntry with
  | none => .ok entryWithMetadata
  | some oldEntry =>
      let old := oldEntry.userOp
      let new := entryWithMetadata.1.userOp
      if ¬bumped old.maxPriorityFeePerGas new.maxPriorityFeePerGas then
        .error (replacementFeeError "maxPriorityFeePerGas" old.maxPriorityFeePerGas
          new.maxPriorityFeePerGas)
      else if ¬bumped old.maxFeePerGas new.maxFeePerGas then
        .error (replacementFeeError "maxFeePerGas" old.maxFeePerGas new.maxFeePerGas)
      else .ok entryWithMetadata

def checkReplaceUserOp (entryWithMetadata : MempoolEntryWithMetadata) :
    Except RpcError MempoolEntryWithMetadata :=
  checkReplaceUserOpBy feeBumped entryWithMetadata

/-- The sender in lower case and the nonce: what makes two operations rivals. -/
def slot (userOp : UserOperation) : String × ℤ := (toLowerCase userOp.sender, userOp.nonce)

def findBySenderNonce (sender : String) (nonce : BigNumberish) (standardPool : StandardPool) :
    Option MempoolEntry :=
  standardPool.values.find? (fun entry => slot entry.userOp = (toLowerCase sender, nonce))

/-- The checks on the pool and the counts of a state handed out. The look-up
is made at once. Everything later is read through the references. -/
def replaceOrAddUserOpChecksBy (bumped : FeeTest) (config : StakeConfig) (handedOut : State)
    (entryWithMetadata : MempoolEntryWithMetadata) :
    Async (Except RpcError MempoolEntryWithMetadata) :=
  let (entry, metadata) := entryWithMetadata
  match findBySenderNonce entry.userOp.sender entry.userOp.nonce handedOut.standardPool with
  | some oldEntry =>
      pure (checkReplaceUserOpBy bumped (entry, { metadata with oldEntry := oldEntry }))
  | none => do
      checkReputation config (readCount (countReference handedOut)) metadata
      let standardPool ← readPool (poolReference handedOut)
      pure (checkMultipleRolesViolation entryWithMetadata (getKnownEntities standardPool)
        (getKnownSenders standardPool))

def replaceOrAddUserOpChecks (config : StakeConfig) (handedOut : State)
    (entryWithMetadata : MempoolEntryWithMetadata) :
    Async (Except RpcError MempoolEntryWithMetadata) :=
  replaceOrAddUserOpChecksBy feeBumped config handedOut entryWithMetadata

section Reputation

variable (config : StakeConfig) (counts : EntryCount)

/-- What checkReputationStatus asks of an entity: not banned, not throttled
above four entries, and staked from its limit on. -/
def EntityAdmitted (s : State) (max : ℤ) (info : StakeInfo) : Prop :=
  let foundCount := counts (toLowerCase info.addr)
  statusIn s info.addr ≠ .banned ∧
    (foundCount > THROTTLED_ENTITY_MEMPOOL_COUNT → statusIn s info.addr ≠ .throttled) ∧
    (foundCount ≥ max →
      config.minStake ≤ info.stake ∧ config.minUnstakeDelay ≤ info.unstakeDelaySec)

/-- What checkReputation asks of all the entities of an operation. -/
def EntitiesAdmitted (s : State) (metadata : MempoolEntryMetadata) : Prop :=
  EntityAdmitted config counts s MAX_MEMPOOL_USEROPS_PER_SENDER metadata.senderInfo ∧
    ∀ infos ∈ [metadata.paymasterInfo, metadata.factoryInfo, metadata.aggregatorInfo],
      ∀ info ∈ infos,
        EntityAdmitted config counts s (maxAllowedMempoolOpsUnstaked s info.addr) info

theorem onlyIf_readOnly (cond : Prop) [Decidable cond] {p : Async PUnit} (hp : p.ReadOnly) :
    (onlyIf cond p).ReadOnly := by
  unfold onlyIf
  split
  · exact hp
  · exact trivial

section ReadOnly

variable {mempoolEntryCount : Async EntryCount} (hcount : mempoolEntryCount.ReadOnly)

include hcount

theorem checkReputationStatus_readOnly (title : Title) (info : StakeInfo) (max : Option ℤ) :
    (checkReputationStatus config mempoolEntryCount title info max).ReadOnly := by
  have hmax : (maxTxMempoolAllowedEntity max info).ReadOnly := by
    cases max with
    | none => exact fun _ _ => trivial
    | some max => exact trivial
  exact hmax.bind fun _ => (checkBanned_readOnly title info).bind fun _ => hcount.bind fun _ =>
    (onlyIf_readOnly _ (checkThrottled_readOnly title info)).bind fun _ =>
      onlyIf_readOnly _ (checkStake_readOnly config title info)

theorem checkOptional_readOnly (title : Title) (infos : Option StakeInfo) :
    (checkOptional config mempoolEntryCount title infos).ReadOnly := by
  cases infos with
  | none => exact trivial
  | some info => exact checkReputationStatus_readOnly config hcount title info none

theorem checkReputation_readOnly (metadata : MempoolEntryMetadata) :
    (checkReputation config mempoolEntryCount metadata).ReadOnly :=
  (checkReputationStatus_readOnly config hcount _ _ _).bind fun _ =>
    (checkOptional_readOnly config hcount _ _).bind fun _ =>
      (checkOptional_readOnly config hcount _ _).bind fun _ =>
        checkOptional_readOnly config hcount _ _

end ReadOnly

theorem onlyIf_passesIff (cond : Prop) [Decidable cond] {p : Async PUnit} {Q : State → Prop}
    (hp : PassesIff p Q) : PassesIff (onlyIf cond p) fun s => cond → Q s := by
  intro s s'
  unfold onlyIf
  by_cases h : cond
  · simp [h, hp s s']
  · simp [h, eq_comm]

variable {config} {mempoolEntryCount : Async EntryCount} {counted : State → EntryCount}
  (hcount : Reads mempoolEntryCount counted)

include hcount

theorem checkReputationStatus_passesIff (title : Title) (info : StakeInfo) (override : Option ℤ) :
    PassesIff (checkReputationStatus config mempoolEntryCount title info override) fun s =>
      EntityAdmitted config (counted s) s
        (override.getD (maxAllowedMempoolOpsUnstaked s info.addr)) info := by
  have hchecks (max : ℤ) := (checkBanned_passesIff title info).seq
    (Program.PassesIff.bind_reads hcount fun counts =>
      (onlyIf_passesIff (counts (toLowerCase info.addr) > THROTTLED_ENTITY_MEMPOOL_COUNT)
        (checkThrottled_passesIff title info)).seq
        (onlyIf_passesIff ((counts (toLowerCase info.addr) : ℤ) ≥ max)
          (checkStake_passesIff config title info)))
  cases override with
  | none =>
    refine (Program.PassesIff.read_bind fun s =>
      hchecks (maxAllowedMempoolOpsUnstaked s info.addr)).congr fun s => ?_
    unfold EntityAdmitted
    simp only [Option.getD_none]
    tauto
  | some max =>
    refine (hchecks max).congr fun s => ?_
    unfold EntityAdmitted
    simp only [Option.getD_some]
    tauto

theorem checkOptional_passesIff (title : Title) (infos : Option StakeInfo) :
    PassesIff (checkOptional config mempoolEntryCount title infos) fun s =>
      ∀ info ∈ infos, EntityAdmitted config (counted s) s
        (maxAllowedMempoolOpsUnstaked s info.addr) info := by
  cases infos with
  | none => exact Program.PassesIff.pure.congr fun s => by simp
  | some info =>
    exact (checkReputationStatus_passesIff hcount title info none).congr fun s => by simp

theorem checkReputation_passesIff (metadata : MempoolEntryMetadata) :
    PassesIff (checkReputation config mempoolEntryCount metadata) fun s =>
      EntitiesAdmitted config (counted s) s metadata := by
  refine ((checkReputationStatus_passesIff hcount _ metadata.senderInfo _).seq
    ((checkOptional_passesIff hcount _ metadata.paymasterInfo).seq
      ((checkOptional_passesIff hcount _ metadata.factoryInfo).seq
        (checkOptional_passesIff hcount _ metadata.aggregatorInfo)))).congr fun s => ?_
  unfold EntitiesAdmitted
  simp only [Option.getD_some, List.forall_mem_cons, List.not_mem_nil, false_imp_iff, implies_true,
    and_true]

end Reputation

section Slots

variable {standardPool : StandardPool} {userOp : UserOperation}

theorem findBySenderNonce_eq_some {entry : MempoolEntry}
    (h : findBySenderNonce userOp.sender userOp.nonce standardPool = some entry) :
    entry ∈ standardPool.values ∧ slot entry.userOp = slot userOp :=
  ⟨List.mem_of_find?_eq_some h, by simpa [slot] using List.find?_some h⟩

end Slots

section Rules

variable {entryWithMetadata checked : MempoolEntryWithMetadata}

/-- No role of the operation clashes with the roles taken in the pool. -/
def RolesRespected (userOp : UserOperation) (standardPool : StandardPool) : Prop :=
  toLowerCase userOp.sender ∉ getKnownEntities standardPool ∧
    (userOp.paymaster.map toLowerCase).getD "" ∉ getKnownSenders standardPool ∧
    (userOp.factory.map toLowerCase).getD "" ∉ getKnownSenders standardPool

theorem checkMultipleRolesViolation_eq_ok_iff (standardPool : StandardPool) :
    checkMultipleRolesViolation entryWithMetadata (getKnownEntities standardPool)
        (getKnownSenders standardPool) = .ok checked ↔
      RolesRespected entryWithMetadata.1.userOp standardPool ∧ checked = entryWithMetadata := by
  unfold checkMultipleRolesViolation RolesRespected
  dsimp only
  split_ifs with hsender hpaymaster hfactory
  · simp [hsender]
  · simp [hpaymaster]
  · simp [hfactory]
  · simp [hsender, hpaymaster, hfactory, eq_comm]

/-- Both fees of the new operation pass the test. -/
def FeesBumpedBy (bumped : FeeTest) (old new : UserOperation) : Prop :=
  bumped old.maxPriorityFeePerGas new.maxPriorityFeePerGas ∧
    bumped old.maxFeePerGas new.maxFeePerGas

/-- Both fees of the new operation exceed the old ones by ten percent. -/
def FeesBumped (old new : UserOperation) : Prop := FeesBumpedBy feeBumped old new

theorem checkReplaceUserOp_eq_ok_iff {bumped : FeeTest} {oldEntry : MempoolEntry}
    (hold : entryWithMetadata.2.oldEntry = some oldEntry) :
    checkReplaceUserOpBy bumped entryWithMetadata = .ok checked ↔
      FeesBumpedBy bumped oldEntry.userOp entryWithMetadata.1.userOp ∧
        checked = entryWithMetadata := by
  unfold checkReplaceUserOpBy FeesBumpedBy
  rw [hold]
  dsimp only
  by_cases hpriority : bumped oldEntry.userOp.maxPriorityFeePerGas
      entryWithMetadata.1.userOp.maxPriorityFeePerGas
  · by_cases hfee : bumped oldEntry.userOp.maxFeePerGas entryWithMetadata.1.userOp.maxFeePerGas
    · simp [hpriority, hfee, eq_comm]
    · simp [hpriority, hfee]
  · simp [hpriority]

end Rules

end Bundler.MempoolHelper
