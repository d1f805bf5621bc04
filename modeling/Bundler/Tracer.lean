import Bundler.ByteStrings
import Bundler.DataModel
import Bundler.HexStrings

/-!
The tracer that the node runs while it simulates a validation. It sees the
entries and exits of calls and every step of the machine, and collects, for
each call that the EntryPoint makes, which opcodes were used and which storage
was accessed. What the node answers about a step is data of the step; a step
that the tracer cannot process makes the whole trace fail.
-/
namespace Bundler.Tracer

open KeyedRecords DataModel ByteStrings HexStrings

def startsWith (text part : String) : Bool := part.toList.isPrefixOf text.toList

def includes (text part : String) : Bool :=
  text.toList.tails.any fun rest => part.toList.isPrefixOf rest

/-- A frame is entered by one of the machine's call opcodes, whose names have
nothing of these texts. -/
def IsCallType (type : String) : Prop :=
  ¬startsWith type "depth" ∧ ¬includes type "REVERT" ∧ ¬includes type "RETURN"

instance (type : String) : Decidable (IsCallType type) :=
  inferInstanceAs (Decidable (¬startsWith type "depth" ∧ _ ∧ _))

structure MethodInfo where
  type : String
  isCallType : IsCallType type
  «from» : String
  «to» : String
  method : String
  gas : ℕ
  value : Option BigNumberish

inductive ExitType
  | revert
  | returned
  deriving DecidableEq, Repr

def ExitType.text : ExitType → String
  | .revert => "REVERT"
  | .returned => "RETURN"

structure ExitInfo where
  type : ExitType
  gasUsed : ℕ
  data : String

abbrev CallRecord := MethodInfo ⊕ ExitInfo

structure ContractSizeInfo where
  opcode : String
  contractSize : ℕ

/-- The maps of transient slots may be missing in results of other tracers. -/
structure AccessInfo where
  reads : SlotMap
  writes : Record String ℕ
  transientReads : Option (Record String ℕ)
  transientWrites : Option (Record String ℕ)

structure TopLevelCallInfo where
  topLevelMethodSig : String
  topLevelTargetAddress : String
  opcodes : Record String ℕ
  access : Record String AccessInfo
  contractSize : Record String ContractSizeInfo
  extCodeAccessInfo : Record String String
  oog : Option Bool := none

structure LogInfo where
  topics : List String
  data : String

structure BundlerCollectorReturn where
  callsFromEntryPoint : List TopLevelCallInfo
  keccak : List String
  calls : List CallRecord
  logs : List LogInfo

/-- What the node passes when a call starts. -/
structure CallFrame where
  type : String
  isCallType : IsCallType type
  «from» : List ℕ
  «to» : List ℕ
  input : List ℕ
  gas : ℕ
  value : Option ℕ

structure FrameResult where
  gasUsed : ℕ
  output : List ℕ
  error : Option String

/-- What the node passes at a step; the top of the stack comes first. -/
structure StepLog where
  op : String
  stack : List ℕ
  gas : ℕ
  cost : ℕ
  depth : ℕ
  memorySlice : ℕ → ℕ → Except JsError (List ℕ)
  contractAddress : List ℕ

structure StateDb where
  getCode : List ℕ → List ℕ
  getState : List ℕ → List ℕ → List ℕ

structure OpcodeInfo where
  opcode : String
  stackTop3 : List ℕ

/-- The fields of the tracer. The current level is the last of the calls from
the EntryPoint, so the earlier ones are kept apart from it, and the counter of
the top-level calls is their number. -/
structure Collector where
  earlierLevels : List TopLevelCallInfo
  currentLevel : Option TopLevelCallInfo
  keccak : List String
  calls : List CallRecord
  logs : List LogInfo
  lastOp : String
  lastThreeOpcodes : List OpcodeInfo
  stopCollecting : Bool

namespace Collector

def callsFromEntryPoint (t : Collector) : List TopLevelCallInfo :=
  t.earlierLevels ++ t.currentLevel.toList

def initial : Collector where
  earlierLevels := []
  currentLevel := none
  keccak := []
  calls := []
  logs := []
  lastOp := ""
  lastThreeOpcodes := []
  stopCollecting := false

def result (t : Collector) : BundlerCollectorReturn where
  callsFromEntryPoint := t.callsFromEntryPoint
  keccak := t.keccak
  calls := t.calls
  logs := t.logs

end Collector

section Helpers

/-- toHex, cut to so many characters. -/
def hexSlice (bytes : List ℕ) (stop : ℕ) : String :=
  String.ofList ((hexString bytes).toList.take stop)

/-- toAddress of the hex text of a word. -/
def toAddress (word : ℕ) : List ℕ := toBytes 20 word

/-- toWord of the hex text of a word. -/
def toWord (word : ℕ) : List ℕ := toBytes 32 word

/-- A word as text to the base 16. -/
def wordText (word : ℕ) : String := String.ofList (Nat.toDigits 16 word)

namespace StepLog

def peek (log : StepLog) (index : ℕ) : Except JsError ℕ :=
  match log.stack[index]? with
  | some word => .ok word
  | none => .error (.other "tracer reached limit of stack" none)

/-- The memory that the words at these places of the stack span. -/
def memoryAt (log : StepLog) (ofsIndex lenIndex : ℕ) : Except JsError (List ℕ) := do
  let ofs ← log.peek ofsIndex
  let len ← log.peek lenIndex
  log.memorySlice ofs (ofs + len)

end StepLog

def countSlot (list : Record String ℕ) (key : String) : Record String ℕ :=
  list.assign key ((list.lookup key).getD 0 + 1)

/-- A change of the current level, which throws when there is none. -/
def updateLevel (t : Collector) (f : TopLevelCallInfo → TopLevelCallInfo) :
    Except JsError Collector :=
  match t.currentLevel with
  | some level => .ok { t with currentLevel := some (f level) }
  | none => .error .typeError

/-- A name of a family, with a number behind it. -/
def isNumbered (family opcode : String) : Bool :=
  let digits := opcode.toList.drop family.length
  startsWith opcode family && !digits.isEmpty && digits.all Char.isDigit

/-- The opcodes that are not counted. -/
def isPlain (opcode : String) : Bool :=
  isNumbered "DUP" opcode || isNumbered "PUSH" opcode || isNumbered "SWAP" opcode ||
    opcode ∈ ["POP", "ADD", "SUB", "MUL", "DIV", "EQ", "LT", "LTE", "GT", "GTE", "SGT", "SGTE",
      "SLT", "SHL", "SHR", "AND", "OR", "NOT", "ISZERO"]

def isWordChar (c : Char) : Bool := c.isAlphanum || c == '_'

/-- The one pattern in which the size of a contract's code may be read. -/
def isZeroSizeCheck (last3opcodesString : String) : Bool :=
  let suffix := " EXTCODESIZE ISZERO".toList
  let word := last3opcodesString.toList.take (last3opcodesString.length - suffix.length)
  suffix <:+ last3opcodesString.toList && !word.isEmpty && word.all isWordChar

def isAllowedPrecompiled (address : List ℕ) : Bool :=
  0 < ofBytes address && ofBytes address < 10

def stopCollectingTopic : String :=
  "bb47ee3e183a558b1a2ff0874b079f3fc5478b7454eacf2bfc5af2ff5878f972"

end Helpers

def enter (t : Collector) (frame : CallFrame) : Collector :=
  if t.stopCollecting then t
  else
    { t with calls := t.calls ++ [.inl
        { type := frame.type
          isCallType := frame.isCallType
          «from» := hexString frame.from
          «to» := hexString frame.to
          method := hexSlice frame.input 10
          gas := frame.gas
          value := frame.value.map Nat.cast }] }

def exit (t : Collector) (frame : FrameResult) : Collector :=
  if t.stopCollecting then t
  else
    { t with calls := t.calls ++ [.inr
        { type := if frame.error.isSome then .revert else .returned
          gasUsed := frame.gasUsed
          data := hexSlice frame.output 4000 }] }

section Step

def pushOpcode (t : Collector) (log : StepLog) : Collector :=
  let opcodes := t.lastThreeOpcodes ++ [⟨log.op, log.stack.take 3⟩]
  { t with lastThreeOpcodes := if opcodes.length > 3 then opcodes.tail else opcodes }

def recordOog (t : Collector) (log : StepLog) : Except JsError Collector :=
  if log.gas < log.cost ∨ log.op = "SSTORE" ∧ log.gas < 2300 then
    updateLevel t fun level => { level with oog := some true }
  else .ok t

/-- The exit of the top level is recorded at its step. -/
def recordReturn (t : Collector) (log : StepLog) : Except JsError Collector :=
  let exitType : Option ExitType :=
    if log.op = "REVERT" then some .revert else if log.op = "RETURN" then some .returned else none
  match exitType with
  | none => .ok t
  | some type => do
      let t ←
        if log.depth = 1 then do
          let output ← log.memoryAt 0 1
          pure { t with calls := t.calls ++ [.inr ⟨type, 0, hexSlice output 4000⟩] }
        else pure t
      pure { t with lastThreeOpcodes := [] }

/-- A call of the EntryPoint opens a level, and an event of its own stops the
collection. -/
def recordTopLevel (t : Collector) (log : StepLog) : Except JsError Collector :=
  if log.op = "CALL" ∨ log.op = "STATICCALL" then do
    let target ← log.peek 1
    let ofs ← log.peek 3
    let methodSig ← log.memorySlice ofs (ofs + 4)
    pure { t with
      earlierLevels := t.callsFromEntryPoint
      currentLevel := some
        { topLevelMethodSig := hexString methodSig
          topLevelTargetAddress := hexString (toAddress target)
          opcodes := .empty
          access := .empty
          contractSize := .empty
          extCodeAccessInfo := .empty } }
  else if log.op = "LOG1" then do
    let topic ← log.peek 2
    pure (if wordText topic = stopCollectingTopic then { t with stopCollecting := true } else t)
  else .ok t

/-- A contract whose code the step before looked at, unless for its size. -/
def recordExtCodeAccess (t : Collector) (log : StepLog) : Except JsError Collector :=
  match t.lastThreeOpcodes.dropLast.getLast?.filter fun info => startsWith info.opcode "EXT" with
  | none => .ok t
  | some lastOpInfo =>
      match lastOpInfo.stackTop3.head? with
      | none => .error .typeError
      | some word =>
          let addrHex := hexString (toAddress word)
          let last3opcodesString := " ".intercalate (t.lastThreeOpcodes.map OpcodeInfo.opcode)
          if isZeroSizeCheck last3opcodesString then .ok t
          else updateLevel t fun level =>
            { level with extCodeAccessInfo := level.extCodeAccessInfo.assign addrHex log.op }

def recordContractSize (t : Collector) (db : StateDb) (log : StepLog) : Except JsError Collector :=
  if startsWith log.op "EXT" ∨ log.op ∈ ["CALL", "CALLCODE", "DELEGATECALL", "STATICCALL"] then do
    let word ← log.peek (if startsWith log.op "EXT" then 0 else 1)
    let addr := toAddress word
    let addrHex := hexString addr
    updateLevel t fun level =>
      if (level.contractSize.lookup addrHex).isNone ∧ !isAllowedPrecompiled addr then
        { level with
          contractSize := level.contractSize.assign addrHex ⟨log.op, (db.getCode addr).length⟩ }
      else level
  else .ok t

/-- GAS counts at the step behind it. -/
def countGas (t : Collector) (log : StepLog) : Except JsError Collector :=
  if t.lastOp = "GAS" ∧ !includes log.op "CALL" then
    updateLevel t fun level => { level with opcodes := countSlot level.opcodes "GAS" }
  else .ok t

def countOpcode (t : Collector) (log : StepLog) : Except JsError Collector :=
  if log.op ≠ "GAS" ∧ !isPlain log.op then
    updateLevel t fun level => { level with opcodes := countSlot level.opcodes log.op }
  else .ok t

def recordOpcode (t : Collector) (log : StepLog) : Except JsError Collector := do
  let t ← countGas t log
  let t ← countOpcode t log
  pure { t with lastOp := log.op }

def AccessInfo.empty : AccessInfo := ⟨.empty, .empty, some .empty, some .empty⟩

/-- What an access leaves in the maps of its address. -/
def AccessInfo.record (access : AccessInfo) (db : StateDb) (opcode : String) (addr slot : List ℕ) :
    AccessInfo :=
  let slotHex := hexString slot
  if opcode = "SLOAD" then
    if (access.reads.lookup slotHex).isNone ∧ (access.writes.lookup slotHex).isNone then
      { access with reads := access.reads.assign slotHex (hexString (db.getState addr slot)) }
    else access
  else if opcode = "SSTORE" then { access with writes := countSlot access.writes slotHex }
  else if opcode = "TLOAD" then
    { access with transientReads := access.transientReads.map fun list => countSlot list slotHex }
  else
    { access with transientWrites := access.transientWrites.map fun list => countSlot list slotHex }

def recordStorage (t : Collector) (db : StateDb) (log : StepLog) : Except JsError Collector :=
  if log.op ∈ ["SLOAD", "SSTORE", "TLOAD", "TSTORE"] then do
    let word ← log.peek 0
    let addrHex := hexString log.contractAddress
    updateLevel t fun level =>
      let access := (level.access.lookup addrHex).getD .empty
      { level with
        access := level.access.assign addrHex
          (access.record db log.op log.contractAddress (toWord word)) }
  else .ok t

def recordKeccak (t : Collector) (log : StepLog) : Except JsError Collector :=
  if log.op = "KECCAK256" then do
    let len ← log.peek 1
    if 20 < len ∧ len < 512 then do
      let input ← log.memoryAt 0 1
      pure { t with keccak := t.keccak ++ [hexString input] }
    else pure t
  else .ok t

def recordLog (t : Collector) (log : StepLog) : Except JsError Collector :=
  if startsWith log.op "LOG" then do
    let count := (String.ofList (log.op.toList.drop 3)).toNat?.getD 0
    let topics ← (List.range count).mapM fun i => log.peek (2 + i)
    let data ← log.memoryAt 0 1
    pure { t with
      logs := t.logs ++ [⟨topics.map fun topic => "0x" ++ wordText topic, hexString data⟩] }
  else .ok t

def step (db : StateDb) (t : Collector) (log : StepLog) : Except JsError Collector :=
  if t.stopCollecting then .ok t
  else do
    let t ← recordOog (pushOpcode t log) log
    let t ← recordReturn t log
    if log.depth = 1 then do
      let t ← recordTopLevel t log
      pure { t with lastOp := "" }
    else do
      let t ← recordExtCodeAccess t log
      let t ← recordContractSize t db log
      let t ← recordOpcode t log
      let t ← recordStorage t db log
      let t ← recordKeccak t log
      recordLog t log

end Step

end Bundler.Tracer
