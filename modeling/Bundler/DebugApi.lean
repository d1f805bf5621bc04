import Bundler.BundleManager
import Bundler.EthApi

/-!
The methods of the debug API. Each is a few operations of the managers, one
after the other, with anything in between. Operations handed to
debug_bundler_addUserOps are neither checked nor validated; since no senderInfo
goes with them, what becomes of them is decided by the pool.
-/
namespace Bundler.DebugApi

open KeyedRecords AsyncPrograms DataModel StateService ReputationManager DepositManager
  MempoolHelper MempoolManager BundleManager Packing InputParameters EthApi

section Methods

def dumpMempool : Async (List UserOperation) := do
  let s ← getState
  pure (s.standardPool.values.map MempoolEntry.userOp)

def clearMempool : Async PUnit := MempoolManager.clearState

def clearReputation : Async PUnit := updateState (.reputation .clearState)

def clearState : Async PUnit := do
  MempoolManager.clearState
  clearReputation

/-- The events are handled once more after the attempt, for their effects on
the mempool. -/
def sendBundleNow (services : Services) (pastEvents : PastEvents) : Async SendBundleReturn := do
  let result ← doAttemptBundle services true
  handlePastEvents pastEvents
  pure result

/-- The entries with their statuses, which are asked for one by one. -/
def withStatuses : List ReputationEntry → Async (List (ReputationEntry × ReputationStatus))
  | [] => pure []
  | entry :: entries => do
      let status ← getStatus entry.address
      let rest ← withStatuses entries
      pure ((entry, status) :: rest)

def dumpReputation : Async (List (ReputationEntry × ReputationStatus)) := do
  let s ← getState
  withStatuses s.reputationEntries.values

def setReputation (reputations : List ReputationEntry) :
    Async (List (ReputationEntry × ReputationStatus)) := do
  updateState (.reputation (.setReputation reputations))
  dumpReputation

/-- What the mempool is given for an operation, without a senderInfo. -/
def debugParam (userOp : UserOperation) (userOpHash : String) : RelayUserOpParam where
  userOp := userOp
  userOpHash := userOpHash
  prefund := 0
  referencedContracts := none
  senderInfo := noStakeInfo

variable (config : ApiConfig) (answers : Answers)

/-- The operation and its hash, read as packUserOp and the EntryPoint do. -/
def hashOperation (userOpInput : RawOperation) : Except JsError RelayUserOpParam := do
  let userOp ← readOperation userOpInput
  let packed ← packUserOp config.ethers userOp
  let userOpHash ← answers.getUserOpHash packed
  pure (debugParam userOp userOpHash)

/-- An error returned for one operation is dropped, one thrown ends the call. -/
def addUserOps (userOps : List RawOperation) : Async PUnit :=
  userOps.forM fun userOpInput => do
    let param ← Program.ofExcept (hashOperation config answers userOpInput)
    (addUserOpWithoutSender answers.balanceOf param).detach

end Methods

end Bundler.DebugApi
