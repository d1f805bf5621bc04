import Bundler.CallStack
import Bundler.Packing
import Bundler.Validation

/-!
The rules that tracerResultParser checks on what the tracer collected. For
each of the factory, the account and the paymaster it looks for the call that
the EntryPoint made to it, and checks the opcodes, the storage and the contracts
that were used there. Keccak and the selectors of the three calls come as
parameters.
-/
namespace Bundler.TracerResultParser

open KeyedRecords AsyncPrograms DataModel Validation Ethers Packing Tracer CallStack

inductive Entity
  | factory
  | account
  | paymaster
  deriving DecidableEq, Repr

def Entity.title : Entity → String
  | .factory => "factory"
  | .account => "account"
  | .paymaster => "paymaster"

/-- In the order of the object's keys. -/
def entities : List Entity := [.factory, .account, .paymaster]

/-- What the parser uses of ethers, and the text of an error's data. -/
structure Library where
  ethers : EthersFunctions
  keccak256 : String → Except JsError String
  abi : AbiDecoder
  callsFromEntryPointMethodSigs : Entity → String
  toJsonString : Record String AccessInfo → String

abbrev EntitySlots := Record String (List String)

/-- Throws an RpcError for an opcode rule unless the condition holds. -/
def requireCond (cond : Prop) [Decidable cond] (msg : String)
    (data : Option (String × String)) : Except JsError PUnit :=
  if cond then .ok ()
  else .error (.rpcError
    { message := msg, code := ValidationErrors.opcodeValidation.code, data := data })

/-- An Error that is no RpcError. -/
def unexpected (message : String) : JsError := .other (some message) none

section Helpers

def stakeInfoEntities (validationResult : ValidationResult) : Entity → Option StakeInfo
  | .factory => validationResult.factoryInfo
  | .account => validationResult.senderInfo
  | .paymaster => validationResult.paymasterInfo

def toBytes32 (lib : Library) (b : String) : Except JsError String := do
  let hex ← lib.ethers.hexlify b
  lib.ethers.zeroPadValue (toLowerCase hex) 32

/-- Adding to a set. -/
def addToSet (set : List String) (value : String) : List String :=
  if value ∈ set then set else set ++ [value]

def addEntitySlot (lib : Library) (k : String) (entitySlots : EntitySlots)
    (info : Option StakeInfo) : Except JsError EntitySlots :=
  match info with
  | none => .ok entitySlots
  | some info => do
      let addr := toLowerCase info.addr
      let addrPadded ← toBytes32 lib addr
      let currentEntitySlots := (entitySlots.lookup addr).getD []
      if startsWith k addrPadded then do
        let hash ← lib.keccak256 k
        pure (entitySlots.assign addr (addToSet currentEntitySlots hash))
      else pure (entitySlots.assign addr currentEntitySlots)

def parseEntitySlots (lib : Library) (stakeInfoEntities : Entity → Option StakeInfo)
    (keccak : List String) : Except JsError EntitySlots :=
  keccak.foldlM (fun entitySlots k =>
    (entities.map stakeInfoEntities).foldlM (addEntitySlot lib k) entitySlots) .empty

def findCallInfoEntryPoint (callStack : List CallEntry) (entryPointAddress : String) :
    Option CallEntry :=
  callStack.find? fun call =>
    call.to = some entryPointAddress ∧ call.from ≠ some entryPointAddress ∧
      call.method ≠ "0x" ∧ call.method ≠ "depositTo"

def findIllegalNonZeroValueCall (callStack : List CallEntry) (entryPointAddress : String) :
    Option CallEntry :=
  callStack.find? fun call => call.to ≠ some entryPointAddress ∧ ¬call.value.getD 0 = 0

def extractAddresses (callsFromEntryPoint : List TopLevelCallInfo) : List String :=
  callsFromEntryPoint.flatMap fun level => level.contractSize.keys

/-- The reads of the first call that accesses an address. -/
def extractStorageMap (callsFromEntryPoint : List TopLevelCallInfo) : StorageMap :=
  callsFromEntryPoint.foldl (fun storageMap level =>
    level.access.values.foldl (fun storageMap entry =>
      storageMap.assign entry.1 ((storageMap.lookup entry.1).getD (.slots entry.2.reads)))
      storageMap) .empty

def isStaked (entStake : Option StakeInfo) : Bool :=
  match entStake with
  | some info => 1 ≤ info.stake ∧ 1 ≤ info.unstakeDelaySec
  | none => false

def bannedOpCodes : List String :=
  ["GASPRICE", "GASLIMIT", "DIFFICULTY", "TIMESTAMP", "BASEFEE", "BLOCKHASH", "NUMBER", "ORIGIN",
    "GAS", "CREATE", "COINBASE", "SELFDESTRUCT", "RANDOM", "PREVRANDAO", "INVALID"]

def opcodesOnlyInStakedEntities : List String := ["BALANCE", "SELFBALANCE"]

end Helpers

section Checks

variable (lib : Library) (userOp : UserOperation) (tracerResults : BundlerCollectorReturn)
  (validationResult : ValidationResult) (entryPointAddress : String) (entitySlots : EntitySlots)
  (entity : Entity) (level : TopLevelCallInfo)

/-- The call from the EntryPoint to an entity. -/
def findLevel : Option TopLevelCallInfo :=
  tracerResults.callsFromEntryPoint.find? fun info =>
    info.topLevelMethodSig = lib.callsFromEntryPointMethodSigs entity

def entStakes : Option StakeInfo := stakeInfoEntities validationResult entity

def entityAddr : String :=
  toLowerCase (((entStakes validationResult entity).map StakeInfo.addr).getD "")

def sender : String := toLowerCase userOp.sender

/-- The address of an entity, as the data of an error. -/
def errorData : Option (String × String) :=
  (entStakes validationResult entity).map fun info => (entity.title, info.addr)

def checkOog : Except JsError PUnit :=
  requireCond (¬level.oog.getD false) (entity.title ++ " internally reverts on oog") none

def checkOpcode (opcode : String) : Except JsError PUnit := do
  requireCond (opcode ∉ bannedOpCodes) (entity.title ++ " uses banned opcode: " ++ opcode) none
  requireCond (opcode ∉ opcodesOnlyInStakedEntities ∨ isStaked (entStakes validationResult entity))
    ("unstaked " ++ entity.title ++ " uses banned opcode: " ++ opcode) none

def checkOpcodes : Except JsError PUnit :=
  level.opcodes.keys.forM (checkOpcode validationResult entity)

def checkCreate2 : Except JsError PUnit :=
  if entity = .factory then
    requireCond ((level.opcodes.lookup "CREATE2").getD 0 ≤ 1)
      (entity.title ++ " with too many CREATE2") none
  else
    requireCond (level.opcodes.lookup "CREATE2" = none)
      (entity.title ++ " uses banned opcode: CREATE2") none

/-- Whether a slot is in a structure that starts at one of these slots. -/
def inStructure (slotN : ℤ) : List String → Except JsError Bool
  | [] => .ok false
  | k1 :: rest => do
      let kn ← toBigInt k1
      if kn ≤ slotN ∧ slotN < kn + 128 then pure true else inStructure slotN rest

def associatedWith (slot addr : String) : Except JsError Bool := do
  let addrPadded ← lib.ethers.zeroPadValue addr 32
  if slot = toLowerCase addrPadded then pure true
  else
    match entitySlots.lookup addr with
    | none => pure false
    | some k => do
        let slotN ← toBigInt slot
        inStructure slotN k

/-- The title of the entity that has an address, or else the address. -/
def nameAddr (addr : String) : String :=
  match entities.find? fun e =>
    (entStakes validationResult e).map (fun info => toLowerCase info.addr) =
      some (toLowerCase addr) with
  | some e => e.title
  | none => addr

section Access

variable (addr : String) (access : AccessInfo)

def transientKeys (slots : Option (Record String ℕ)) : List String :=
  (slots.map Record.keys).getD []

def forbiddenAccess (slot : String) : JsError :=
  let isWrite := slot ∈ access.writes.keys ∨ slot ∈ transientKeys access.transientWrites
  let isTransient := slot ∈ transientKeys access.transientReads ∨
    slot ∈ transientKeys access.transientWrites
  let readWrite := if isWrite then "write to" else "read from"
  let transientStr := if isTransient then "transient " else ""
  .rpcError
    { message := entity.title ++ " has forbidden " ++ readWrite ++ " " ++ transientStr ++
        nameAddr validationResult addr ++ " slot " ++ slot
      code := ValidationErrors.opcodeValidation.code
      data := errorData validationResult entity }

/-- Whether no map of writes has the slot. The second map is looked at only if
the first has not. -/
def isUnwritten (slot : String) : Except JsError Bool :=
  if (access.writes.lookup slot).isSome then .ok false
  else
    match access.transientWrites with
    | some transientWrites => .ok (transientWrites.lookup slot).isNone
    | none => .error .typeError

/-- One slot of an address, with the slot that requires a stake so far. -/
def checkSlot (requireStakeSlot : Option String) (slot : String) :
    Except JsError (Option String) := do
  if ← associatedWith lib entitySlots slot (sender userOp) then
    if userOp.factory.isSome ∧ userOp.factory ≠ some zeroAddress then
      -- the account may use its associated storage if the factory is staked
      if entityAddr validationResult entity = sender userOp ∧
          isStaked (entStakes validationResult .factory) then
        pure requireStakeSlot
      else pure (some slot)
    else pure requireStakeSlot
  else if ← associatedWith lib entitySlots slot (entityAddr validationResult entity) then
    pure (some slot)
  else if toLowerCase addr = entityAddr validationResult entity then pure (some slot)
  else if ← isUnwritten access slot then pure (some slot)
  else .error (forbiddenAccess validationResult entity addr access slot)

def accessedSlots : List String :=
  access.writes.keys ++ access.reads.keys ++ transientKeys access.transientWrites ++
    transientKeys access.transientReads

def requireStake (requireStakeSlot : Option String) : Except JsError PUnit :=
  match requireStakeSlot with
  | none => .ok ()
  | some slot =>
      if entStakes validationResult entity = none then
        .error (unexpected ("internal: " ++ entity.title ++
          " not in userOp, but has storage accesses in " ++ lib.toJsonString level.access))
      else
        requireCond (isStaked (entStakes validationResult entity))
          ("unstaked " ++ entity.title ++ " accessed " ++ nameAddr validationResult addr ++
            " slot " ++ slot) (errorData validationResult entity)

/-- The storage of the sender and of the EntryPoint is not checked. -/
def checkAddress : Except JsError PUnit :=
  if toLowerCase addr = sender userOp then .ok ()
  else if toLowerCase addr = toLowerCase entryPointAddress then .ok ()
  else do
    let requireStakeSlot ← (accessedSlots access).foldlM
      (checkSlot lib userOp validationResult entitySlots entity addr access) none
    requireStake lib validationResult entity level addr requireStakeSlot

end Access

def checkAccess : Except JsError PUnit :=
  level.access.values.forM fun entry =>
    checkAddress lib userOp validationResult entryPointAddress entitySlots entity level entry.1
      entry.2

/-- Only the sender itself may be accessed before it is deployed. -/
def checkContractSizes : Except JsError PUnit :=
  match level.contractSize.values.find? fun entry =>
    entry.1 ≠ sender userOp ∧ entry.2.contractSize ≤ 2 with
  | none => .ok ()
  | some illegal =>
      requireCond False (entity.title ++ " accesses un-deployed contract address " ++ illegal.1 ++
        " with opcode " ++ illegal.2.opcode) none

def checkEntryPointCode : Except JsError PUnit :=
  match level.extCodeAccessInfo.lookup entryPointAddress with
  | none => .ok ()
  | some opcode =>
      requireCond False (entity.title ++ " accesses EntryPoint contract address " ++
        entryPointAddress ++ " with opcode " ++ opcode) none

def checkEntity : Except JsError PUnit :=
  match findLevel lib tracerResults entity with
  | none =>
      if entity = .account then .error (unexpected "missing trace into validateUserOp") else .ok ()
  | some level => do
      checkOog entity level
      checkOpcodes validationResult entity level
      checkCreate2 entity level
      checkAccess lib userOp validationResult entryPointAddress entitySlots entity level
      checkContractSizes userOp entity level
      checkEntryPointCode entryPointAddress entity level

end Checks

section Parser

variable (lib : Library) (userOp : UserOperation) (tracerResults : BundlerCollectorReturn)
  (validationResult : ValidationResult)

/-- The rules on the calls of the whole trace. -/
def checkCalls (entryPointAddress : String) : Except JsError PUnit := do
  let callStack := parseCallStack lib.abi tracerResults.calls
  let callInfoEntryPoint := findCallInfoEntryPoint callStack entryPointAddress
  requireCond (callInfoEntryPoint = none)
    ("illegal call into EntryPoint during validation " ++
      ((callInfoEntryPoint.map CallEntry.method).getD "undefined")) none
  requireCond (findIllegalNonZeroValueCall callStack entryPointAddress = none)
    "May not make CALL with value" none

def tracerResultParser (epAddress : String) : Except JsError (List String × StorageMap) := do
  let entryPointAddress := toLowerCase epAddress
  if tracerResults.callsFromEntryPoint.length < 1 then
    .error (unexpected "Unexpected traceCall result: no calls from entrypoint.")
  else do
    checkCalls lib tracerResults entryPointAddress
    let entitySlots ←
      parseEntitySlots lib (stakeInfoEntities validationResult) tracerResults.keccak
    entities.forM
      (checkEntity lib userOp tracerResults validationResult entryPointAddress entitySlots)
    pure (extractAddresses tracerResults.callsFromEntryPoint,
      extractStorageMap tracerResults.callsFromEntryPoint)

end Parser

section Outcome

theorem requireCond_ok_iff {cond : Prop} [Decidable cond] {msg : String}
    {data : Option (String × String)} : requireCond cond msg data = .ok () ↔ cond := by
  unfold requireCond
  split
  · exact iff_of_true rfl ‹_›
  · exact iff_of_false nofun ‹_›

theorem then_ok_iff {first second : Except JsError PUnit} :
    (do
      first
      second) = .ok () ↔ first = .ok () ∧ second = .ok () := by
  rw [except_bind_eq_ok_iff]
  constructor
  · rintro ⟨_, hfirst, hsecond⟩
    exact ⟨hfirst, hsecond⟩
  · rintro ⟨hfirst, hsecond⟩
    exact ⟨(), hfirst, hsecond⟩

/-- A check of all elements passes when each of them does. -/
theorem forM_ok_iff {α : Type} {check : α → Except JsError PUnit} {items : List α} :
    items.forM check = .ok () ↔ ∀ item ∈ items, check item = .ok () := by
  induction items with
  | nil => exact iff_of_true rfl nofun
  | cons item items ih =>
    rw [List.forall_mem_cons, ← ih]
    exact then_ok_iff

variable {lib : Library} {userOp : UserOperation} {tracerResults : BundlerCollectorReturn}
  {validationResult : ValidationResult}

theorem checkEntity_ok_iff {entryPointAddress : String} {entitySlots : EntitySlots}
    {entity : Entity} :
    checkEntity lib userOp tracerResults validationResult entryPointAddress entitySlots entity =
        .ok () ↔
      (entity = .account → (findLevel lib tracerResults entity).isSome) ∧
        ∀ level ∈ findLevel lib tracerResults entity,
          checkOog entity level = .ok () ∧ checkOpcodes validationResult entity level = .ok () ∧
          checkCreate2 entity level = .ok () ∧
          checkAccess lib userOp validationResult entryPointAddress entitySlots entity level =
            .ok () ∧
          checkContractSizes userOp entity level = .ok () ∧
          checkEntryPointCode entryPointAddress entity level = .ok () := by
  unfold checkEntity
  cases findLevel lib tracerResults entity with
  | none =>
    by_cases haccount : entity = .account
    · rw [if_pos haccount]
      exact iff_of_false nofun fun h => absurd (h.1 haccount) Bool.false_ne_true
    · rw [if_neg haccount]
      exact iff_of_true rfl ⟨fun h => absurd h haccount, nofun⟩
  | some level =>
    dsimp only
    rw [then_ok_iff, then_ok_iff, then_ok_iff, then_ok_iff, then_ok_iff]
    constructor
    · intro h
      refine ⟨fun _ => rfl, ?_⟩
      rintro _ ⟨⟩
      exact h
    · rintro ⟨_, h⟩
      exact h level rfl

/-- The parser accepts what passes all its checks. -/
theorem tracerResultParser_ok_iff {epAddress : String} :
    (∃ result, tracerResultParser lib userOp tracerResults validationResult epAddress =
        .ok result) ↔
      tracerResults.callsFromEntryPoint ≠ [] ∧
        checkCalls lib tracerResults (toLowerCase epAddress) = .ok () ∧
        ∃ entitySlots, parseEntitySlots lib (stakeInfoEntities validationResult)
            tracerResults.keccak = .ok entitySlots ∧
          ∀ entity ∈ entities,
            checkEntity lib userOp tracerResults validationResult (toLowerCase epAddress)
              entitySlots entity = .ok () := by
  unfold tracerResultParser
  by_cases hempty : tracerResults.callsFromEntryPoint = []
  · rw [hempty]
    exact iff_of_false (fun ⟨_, h⟩ => nomatch h) fun h => h.1 rfl
  · have hlength : ¬tracerResults.callsFromEntryPoint.length < 1 := by
      have hpos := List.length_pos_iff.mpr hempty
      omega
    dsimp only
    rw [if_neg hlength]
    constructor
    · rintro ⟨_, h⟩
      obtain ⟨_, hcalls, h⟩ := except_bind_eq_ok_iff.mp h
      obtain ⟨entitySlots, hslots, h⟩ := except_bind_eq_ok_iff.mp h
      obtain ⟨_, hentities, _⟩ := except_bind_eq_ok_iff.mp h
      exact ⟨hempty, hcalls, entitySlots, hslots, forM_ok_iff.mp hentities⟩
    · rintro ⟨_, hcalls, entitySlots, hslots, hentities⟩
      exact ⟨_, except_bind_eq_ok_iff.mpr ⟨(), hcalls, except_bind_eq_ok_iff.mpr
        ⟨entitySlots, hslots, except_bind_eq_ok_iff.mpr ⟨(), forM_ok_iff.mpr hentities, rfl⟩⟩⟩⟩

end Outcome

section Concrete

/-- The selectors of createSender, validateUserOp and validatePaymasterUserOp. -/
def selector : Entity → String
  | .factory => "0x570e1a36"
  | .account => "0x19822f7c"
  | .paymaster => "0x52b7512c"

/-- As the decoder answers about depositTo, which returns nothing, and about
names and selectors that are in none of its ABIs. -/
def depositDecoder : AbiDecoder where
  getFunction method := if method = "0xb760faf9" then some "depositTo" else none
  parseError _ := none
  decodeFunctionResult method _ := if method = "depositTo" then some (.array []) else none

/-- A library with a hash of byte strings for keccak. -/
def libraryWith (hash : List ℕ → List ℕ) : Library where
  ethers := documentedFunctions
  keccak256 text := orThrow ((HexStrings.getBytes text).map fun bytes =>
    HexStrings.hexString (hash bytes))
  abi := depositDecoder
  callsFromEntryPointMethodSigs := selector
  toJsonString _ := "{}"

def entryPoint : String := "0x0000000071727de22e5e9d8baf0edac6f37da032"

/-- A call that is entered with this selector and value. -/
def callTo («from» «to» method : String) (value : ℤ) : MethodInfo where
  type := "CALL"
  isCallType := by decide
  «from» := «from»
  «to» := «to»
  method := method
  gas := 100000
  value := some value

def returning (data : String) : ExitInfo := ⟨.returned, 30000, data⟩

end Concrete

end Bundler.TracerResultParser
