import Bundler.BundleManager
import Bundler.Packing

/-!
The bundle processor: it makes a bundle into a transaction, sends it, and
looks for the operation to blame when that fails. What the calls to the node
answer is given. A failure is read from wherever the node has put the revert
data, and the entity to ban follows from the first letters of its reason.
-/
namespace Bundler.BundleProcessor

open AsyncPrograms DataModel ReputationManager BundleManager Ethers Packing

section Errors

/-- The data of an error: none, text, or an object with data of its own. -/
inductive ErrorData
  | absent
  | text (data : String)
  | nested (data : Option String)
  deriving DecidableEq, Repr

/-- `data?.data ?? data`, if that is text. -/
def ErrorData.read : ErrorData → Option String
  | .absent => none
  | .text data => some data
  | .nested data => data

/-- What is thrown while a bundle is sent, with the parts of it that are
looked at. The body is JSON text, read up to the data of its error. -/
structure Thrown where
  error : JsError
  data : ErrorData := .absent
  errorCode : Option ℤ := none
  body : Option (Except JsError ErrorData) := none

/-- An error of the bundler's own code has nothing to it. -/
def thrown {α : Type} : Except JsError α → Except Thrown α
  | .ok a => .ok a
  | .error error => .error { error := error }

/-- The named arguments of a parsed error. -/
structure ErrorDescription where
  opIndex : Option ℕ
  reason : Option String
  deriving DecidableEq, Repr

end Errors

structure PopulatedTransaction where
  toAddress : String
  data : String
  value : Option BigNumberish
  deriving DecidableEq, Repr

structure FeeData where
  maxFeePerGas : Option BigNumberish
  maxPriorityFeePerGas : Option BigNumberish
  deriving DecidableEq, Repr

/-- A transaction of type 2, from the first signer. -/
structure TransactionRequest where
  populated : PopulatedTransaction
  signer : String
  nonce : ℕ
  maxFeePerGas : String
  maxPriorityFeePerGas : String
  gasLimit : ℕ
  deriving DecidableEq, Repr

/-- What the calls made while one bundle is sent answer. -/
structure Network where
  getBalance : String → Except JsError BigNumberish
  populateTransaction : List PackedUserOperation → String → Except Thrown PopulatedTransaction
  getFeeData : Except Thrown FeeData
  getNonce : Except Thrown ℕ
  estimateGas : List PackedUserOperation → String → Except Thrown ℕ
  sendTransaction : TransactionRequest → Except Thrown String
  wait : String → Except Thrown String
  signTransaction : TransactionRequest → Except Thrown String
  sendTransactionToFlashbots : String → String → Except Thrown String
  getUserOpHashes : List PackedUserOperation → Except JsError (List String)
  parseError : String → Except JsError (Option ErrorDescription)
  getDepositInfo : String → Except JsError DepositInfo

/-- What the processor is created with; signers are given by their addresses. -/
structure ProcessorConfig where
  txMode : String
  beneficiary : String
  minSignerBalance : BigNumberish
  signers : ℕ → Option String
  stakes : StakeConfig

section Sending

variable (ethers : EthersFunctions) (config : ProcessorConfig) (network : Network)

/-- Below its minimum balance the signer itself is paid. -/
def selectBeneficiary (signer : String) : Except JsError String := do
  let currentBalance ← network.getBalance signer
  pure (if currentBalance ≤ config.minSignerBalance then signer else config.beneficiary)

def packUserOps (userOps : List UserOperation) : Except JsError (List PackedUserOperation) :=
  userOps.mapM (packUserOp ethers)

/-- toString of a fee, which throws if there is none. -/
def feeText : Option BigNumberish → Except Thrown String
  | some fee => .ok (toString fee)
  | none => thrown (.error .typeError)

def populate (userOps : List UserOperation) (signer beneficiary : String) :
    Except Thrown TransactionRequest := do
  let packed ← thrown (packUserOps ethers userOps)
  let populated ← network.populateTransaction packed beneficiary
  let feeData ← network.getFeeData
  let nonce ← network.getNonce
  let maxFeePerGas ← feeText feeData.maxFeePerGas
  let maxPriorityFeePerGas ← feeText feeData.maxPriorityFeePerGas
  let gasLimit ← network.estimateGas packed beneficiary
  pure ⟨populated, signer, nonce, maxFeePerGas, maxPriorityFeePerGas, gasLimit⟩

def send (signer : String) (tx : TransactionRequest) : Except Thrown String :=
  match config.txMode with
  | "base" => do
      let response ← network.sendTransaction tx
      network.wait response
  | "searcher" => do
      let signedTx ← network.signTransaction tx
      network.sendTransactionToFlashbots signedTx signer
  | txMode => thrown (.error (.other (some ("unknown txMode: " ++ txMode)) none))

def handleOps (userOps : List UserOperation) (signer beneficiary : String) :
    Except Thrown String := do
  let tx ← populate ethers network userOps signer beneficiary
  send config network signer tx

/-- The hashes are for the debug API only, so a failure to get them is ignored. -/
def getUserOpHashes (userOps : List UserOperation) : List String :=
  match (do
    let packed ← packUserOps ethers userOps
    network.getUserOpHashes packed) with
  | .ok hashes => hashes
  | .error _ => []

end Sending

section Blame

variable (config : ProcessorConfig) (network : Network)

/-- Fatal errors cannot be recovered from. -/
def isFatal (e : Thrown) : Bool := e.errorCode = some (-32601)

/-- The data of the body counts if there is one. -/
def revertData (e : Thrown) : Except JsError String := do
  let data ← e.body.getD (.ok e.data)
  match data.read with
  | some text => .ok text
  | none => .error .typeError

def parseFailure (e : Thrown) : Except JsError (Option ErrorDescription) := do
  let data ← revertData e
  network.parseError data

def isAddressStaked (address : String) : Except JsError Bool := do
  let status ← getStakeStatus config.stakes network.getDepositInfo address
  pure status.isStaked

def isFactoryStaked (userOp : UserOperation) : Except JsError Bool :=
  match userOp.factory with
  | none => .ok false
  | some factory => isAddressStaked config network factory

def startsWith (reason start : String) : Bool := start.toList.isPrefixOf reason.toList

/-- EREP-030 makes a staked account accountable, and EREP-020 a staked factory. -/
def findEntityToBan (reasonStr : String) (userOp : UserOperation) :
    Except JsError (Option String) :=
  if startsWith reasonStr "AA3" then do
    let staked ← isAddressStaked config network userOp.sender
    pure (if staked then some userOp.sender else userOp.paymaster)
  else if startsWith reasonStr "AA2" then do
    let staked ← isFactoryStaked config network userOp
    pure (if staked then userOp.factory else some userOp.sender)
  else if startsWith reasonStr "AA1" then .ok userOp.factory
  else .ok none

/-- What is returned when nothing was sent and nobody is to blame. -/
def notSent : SendBundleReturnWithSigner := ⟨"", [], 0, none⟩

/-- An error without an index or a reason, and an index that is none of the
bundle, make the lookups that follow throw. -/
def blameOperation (userOps : List UserOperation) (parsed : ErrorDescription) :
    Except JsError SendBundleReturnWithSigner :=
  match parsed.opIndex.bind (fun opIndex => userOps[opIndex]?), parsed.reason with
  | some userOp, some reason => do
      let addressToBan ← findEntityToBan config network reason userOp
      .ok ⟨"", [], 0, some ⟨addressToBan, userOp⟩⟩
  | _, _ => .error .typeError

def handleFailure (userOps : List UserOperation) (e : Thrown) :
    Except JsError SendBundleReturnWithSigner :=
  match parseFailure network e with
  | .error _ => if isFatal e then .error e.error else .ok notSent
  | .ok none => .error .typeError
  | .ok (some parsed) => blameOperation config network userOps parsed

end Blame

/-- The storage map is not used. -/
def sendBundle (ethers : EthersFunctions) (config : ProcessorConfig) (network : Network)
    (userOps : List UserOperation) (_storageMap : StorageMap) :
    Except JsError SendBundleReturnWithSigner :=
  match config.signers 0 with
  | none => .error .typeError
  | some signer => do
      let beneficiary ← selectBeneficiary config network signer
      match handleOps ethers config network userOps signer beneficiary with
      | .ok transactionHash =>
          .ok ⟨transactionHash, getUserOpHashes ethers network userOps, 0, none⟩
      | .error e => handleFailure config network userOps e

end Bundler.BundleProcessor
