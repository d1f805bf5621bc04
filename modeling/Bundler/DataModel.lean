import Bundler.KeyedRecords
import Mathlib.Data.Int.Notation

/-!
The data the bundler works on. Addresses and hex data are kept as the
strings they arrive as, since the source compares them sometimes as given
and sometimes in lower case. A BigNumberish is the integer that BigInt
reads from it. The mempool is the record of its entries under their
userOpHash, in insertion order.
-/
namespace Bundler.DataModel

open KeyedRecords

/-- JavaScript's toLowerCase on the ASCII strings addresses consist of. -/
def toLowerCase (s : String) : String := String.ofList (s.toList.map Char.toLower)

theorem toLower_toLower (c : Char) : c.toLower.toLower = c.toLower := by
  unfold Char.toLower
  split
  · rename_i hupper
    split
    · rename_i hstill
      simp [UInt32.le_iff_toNat_le] at hupper hstill
      omega
    · rfl
  · rfl

@[simp] theorem toLowerCase_toLowerCase (s : String) :
    toLowerCase (toLowerCase s) = toLowerCase s := by
  unfold toLowerCase
  rw [String.toList_ofList, List.map_map]
  exact congrArg String.ofList (List.map_congr_left fun c _ => toLower_toLower c)

theorem toLowerCase_eq_empty_iff (s : String) : toLowerCase s = toLowerCase "" ↔ s = "" := by
  constructor
  · intro h
    have hlist := congrArg String.toList h
    unfold toLowerCase at hlist
    simpa using hlist
  · rintro rfl
    rfl

abbrev BigNumberish := ℤ

def zeroAddress : String := "0x0000000000000000000000000000000000000000"

/-- An optional string as a condition: absent and empty both count as false. -/
def truthy (s : Option String) : Option String := s.filter (fun a => a ≠ "")

theorem truthy_some {s : String} (h : s ≠ "") : truthy (some s) = some s :=
  Option.filter_eq_some_iff.mpr ⟨rfl, decide_eq_true h⟩

inductive ValidationErrors
  | parseError
  | invalidRequest
  | methodNotFound
  | invalidFields
  | internalError
  | simulateValidation
  | simulatePaymasterValidation
  | opcodeValidation
  | notInTimeRange
  | reputation
  | insufficientStake
  | unsupportedSignatureAggregator
  | invalidSignature
  | paymasterDepositTooLow
  | userOperationReverted
  deriving DecidableEq, Repr

def ValidationErrors.code : ValidationErrors → ℤ
  | .parseError => -32700
  | .invalidRequest => -32600
  | .methodNotFound => -32601
  | .invalidFields => -32602
  | .internalError => -32603
  | .simulateValidation => -32500
  | .simulatePaymasterValidation => -32501
  | .opcodeValidation => -32502
  | .notInTimeRange => -32503
  | .reputation => -32504
  | .insufficientStake => -32505
  | .unsupportedSignatureAggregator => -32506
  | .invalidSignature => -32507
  | .paymasterDepositTooLow => -32508
  | .userOperationReverted => -32521

structure RpcError where
  message : String
  code : ℤ
  data : Option (String × String) := none
  deriving DecidableEq, Repr

/-- What a promise may reject with: an RpcError, a TypeError of the
language, or anything else an outside service throws. -/
inductive JsError
  | rpcError (error : RpcError)
  | typeError
  | other (message : Option String) (code : Option ℤ)
  deriving DecidableEq, Repr

structure StakeInfo where
  addr : String
  stake : BigNumberish
  unstakeDelaySec : BigNumberish
  deriving DecidableEq, Repr

structure UserOperation where
  sender : String
  nonce : BigNumberish
  factory : Option String := none
  factoryData : Option String := none
  callData : String
  callGasLimit : BigNumberish
  verificationGasLimit : BigNumberish
  preVerificationGas : BigNumberish
  maxFeePerGas : BigNumberish
  maxPriorityFeePerGas : BigNumberish
  paymaster : Option String := none
  paymasterVerificationGasLimit : Option BigNumberish := none
  paymasterPostOpGasLimit : Option BigNumberish := none
  paymasterData : Option String := none
  signature : String
  deriving DecidableEq, Repr

structure ReferencedCodeHashes where
  addresses : List String
  hash : String
  deriving DecidableEq, Repr

inductive EntryStatus
  | bundling
  | pending
  | bundled
  | failed
  deriving DecidableEq, Repr

structure MempoolEntry where
  userOp : UserOperation
  userOpHash : String
  prefund : BigNumberish
  referencedContracts : Option ReferencedCodeHashes
  status : EntryStatus
  aggregator : Option String := none
  deriving DecidableEq, Repr

structure RelayUserOpParam where
  userOp : UserOperation
  userOpHash : String
  prefund : BigNumberish
  referencedContracts : Option ReferencedCodeHashes
  senderInfo : StakeInfo
  paymasterInfo : Option StakeInfo := none
  factoryInfo : Option StakeInfo := none
  aggregatorInfo : Option StakeInfo := none
  deriving DecidableEq, Repr

structure ReputationEntry where
  address : String
  opsSeen : ℤ
  opsIncluded : ℤ
  deriving DecidableEq, Repr

inductive ReputationStatus
  | ok
  | throttled
  | banned
  deriving DecidableEq, Repr

inductive BundleTxStatus
  | pending
  | confirmed
  | failed
  deriving DecidableEq, Repr

structure PendingTxDetails where
  txHash : String
  signerIndex : ℕ
  status : BundleTxStatus
  deriving DecidableEq, Repr

abbrev StandardPool := KeyedRecord MempoolEntry.userOpHash

/-- Entries per address. An absent address reads as zero, and the source
never stores a count of zero or below. -/
abbrev EntryCount := String → ℕ

abbrev ReputationEntries := KeyedRecord ReputationEntry.address

abbrev BundleTxs := KeyedRecord PendingTxDetails.txHash

/-- The shared state. An update may put a copy in the place of the pool or
the counts; whoever was handed the replaced object still reads it, so the
replaced ones are kept, in the order they were replaced. -/
structure State where
  standardPool : StandardPool
  mempoolEntryCount : EntryCount
  bundleTxs : BundleTxs
  blackList : List String
  whiteList : List String
  reputationEntries : ReputationEntries
  replacedPools : List StandardPool := []
  replacedCounts : List EntryCount := []

abbrev SlotMap := Record String String

/-- For each address, either a root hash, or a map of slot:value. -/
inductive StorageEntry
  | root (hash : String)
  | slots (map : SlotMap)

abbrev StorageMap := Record String StorageEntry

/-- The state createState starts from, with the configured lists added. -/
def State.initial (whiteList blackList : List String) : State where
  standardPool := .empty
  mempoolEntryCount := fun _ => 0
  bundleTxs := .empty
  blackList := blackList
  whiteList := whiteList
  reputationEntries := .empty

section Concrete

def account : String := "0xa100000000000000000000000000000000000000"

/-- The same address, with its letter in upper case. -/
def checksummed : String := "0xA100000000000000000000000000000000000000"

def otherAccount : String := "0xb200000000000000000000000000000000000000"

def sponsor : String := "0xf100000000000000000000000000000000000000"

/-- A userOpHash that begins with the given digit. -/
def hashOf (digit : String) : String :=
  "0x" ++ digit ++ "000000000000000000000000000000000000000000000000000000000000000"

def hash₁ : String := hashOf "1"

def hash₂ : String := hashOf "2"

/-- An operation of one sender and nonce with equal fees and the two
optional entities. -/
def plainOp (sender : String) (nonce fee : ℤ) (paymaster factory : Option String) :
    UserOperation where
  sender := sender
  nonce := nonce
  factory := factory
  factoryData := factory.map fun _ => "0x"
  callData := "0x"
  callGasLimit := 100000
  verificationGasLimit := 100000
  preVerificationGas := 50000
  maxFeePerGas := fee
  maxPriorityFeePerGas := fee
  paymaster := paymaster
  paymasterVerificationGasLimit := paymaster.map fun _ => 50000
  paymasterPostOpGasLimit := paymaster.map fun _ => 50000
  paymasterData := paymaster.map fun _ => "0x"
  signature := "0x"

end Concrete

end Bundler.DataModel
