import Bundler.BundleBuilder
import Bundler.MempoolManager

/-!
One attempt to bundle, from the hand-out of pending entries to the end of
the bundle that was sent. What the calls to the outside answer during the
attempt is given: which past events there are to handle, how the entries
re-validate, and what becomes of the bundle. Any of these calls may reject,
and the attempt then ends there.
-/
namespace Bundler.BundleManager

open KeyedRecords AsyncPrograms DataModel StateService ReputationManager DepositManager
  MempoolHelper MempoolManager BundleBuilder

/-- What the event manager does to the state for one event. -/
inductive EventEffect
  | userOperationSucceeded (userOpHash : String)
  | userOperationFailed (userOpHash : String)
  | addressIncluded (addr : String)
  deriving DecidableEq, Repr

def EventEffect.program : EventEffect → Async PUnit
  | .userOperationSucceeded userOpHash => (removeUserOp (.hash userOpHash)).detach
  | .userOperationFailed userOpHash => updateEntryStatus userOpHash .failed
  | .addressIncluded addr => updateIncludedStatus addr

/-- One call of handlePastEvents: the effects of the events it got to, in
order, and how it ended. -/
structure PastEvents where
  effects : List EventEffect
  ended : Except JsError PUnit

def handlePastEvents (pastEvents : PastEvents) : Async PUnit := do
  pastEvents.effects.forM EventEffect.program
  Program.ofExcept pastEvents.ended

structure CrashedHandleOps where
  addressToBan : Option String
  failedOp : UserOperation
  deriving DecidableEq, Repr

structure SendBundleReturnWithSigner where
  transactionHash : String
  userOpHashes : List String
  signerIndex : ℕ
  crashedHandleOps : Option CrashedHandleOps := none
  deriving DecidableEq, Repr

structure SendBundleReturn where
  transactionHash : String
  userOpHashes : List String
  deriving DecidableEq, Repr

/-- The configuration of the bundle manager, and what the calls made during
one attempt answer. -/
structure Services where
  bundleSize : ℕ
  pastEvents : PastEvents
  builder : Builder
  sendBundle : List UserOperation → StorageMap → Except JsError SendBundleReturnWithSigner

section Errors

/-- The text begins with FailedOpWithRevert, an index and AA1 or AA2. -/
def startsWithFailedOp (text : List Char) : Bool :=
  let name := "FailedOpWithRevert(".toList
  let rest := (text.drop name.length).dropWhile Char.isDigit
  name.isPrefixOf text && ((text.drop name.length).head?.any Char.isDigit) &&
    (",\"AA2".toList.isPrefixOf rest || ",\"AA1".toList.isPrefixOf rest)

def isAccountOrFactoryError (code : ℤ) (errorMessage : String) : Bool :=
  code = ValidationErrors.simulateValidation.code &&
    errorMessage.toList.tails.any startsWithFailedOp

end Errors

def selectEntries (services : Services) (force : Bool) : StandardPool → List MempoolEntry :=
  if force then allPending else nextPending services.bundleSize

def getEntries (services : Services) (force : Bool) : Async (List MempoolEntry) := do
  let count ← size
  if count = 0 then pure []
  else if force then getAllPending
  else getNextPending services.bundleSize

/-- Entries left out of the bundle go back to the mempool as pending. -/
def returnNotIncluded (userOpHashes : List String) : Async PUnit :=
  userOpHashes.forM fun userOpHash => updateEntryStatus userOpHash .pending

/-- EREP-015: an account or factory failure is not blamed on the paymaster. -/
def forgivePaymaster (opDetails : RemoveUserOpDetails) : Async PUnit :=
  match opDetails.err, opDetails.paymaster with
  | some err, some paymaster =>
      if isAccountOrFactoryError err.errorCode err.message then
        ReputationManager.updateSeenStatus paymaster .decrement
      else pure ⟨⟩
  | _, _ => pure ⟨⟩

def removeMarked (marked : List RemoveUserOpDetails) : Async PUnit :=
  marked.forM fun opDetails => do
    forgivePaymaster opDetails
    (removeUserOp (.hash opDetails.userOpHash)).detach

def banAddress (addressToBan : Option String) : Async PUnit :=
  match truthy addressToBan with
  | some addr => do
      removeUserOpsForBannedAddr addr
      ReputationManager.crashedHandleOps addr
  | none => pure ⟨⟩

def handleCrash : Option CrashedHandleOps → Async PUnit
  | some crash => do
      banAddress crash.addressToBan
      (removeUserOp (.userOp crash.failedOp)).detach
  | none => pure ⟨⟩

/-- What the attempt does once the bundle was sent. -/
def afterSendBundle (res : SendBundleReturnWithSigner) : Async PUnit := do
  handleCrash res.crashedHandleOps
  addBundleTxnConfirmation res.transactionHash res.signerIndex

/-- The attempt from the built bundle on. -/
def sendReady (services : Services) (ready : BundleReadyToSend) : Async SendBundleReturn := do
  returnNotIncluded ready.notIncludedUserOpsHashes
  removeMarked ready.markedToRemoveUserOpsHashes
  let res ← Program.ofExcept (services.sendBundle ready.bundle ready.storageMap)
  afterSendBundle res
  pure ⟨res.transactionHash, res.userOpHashes⟩

def attemptWith (services : Services) (entries : List MempoolEntry) : Async SendBundleReturn :=
  if entries.isEmpty then pure ⟨"", []⟩
  else do
    handlePastEvents services.pastEvents
    let knownSenders ← MempoolManager.getKnownSenders
    let ready ← createBundle services.builder entries knownSenders
    sendReady services ready

def doAttemptBundle (services : Services) (force : Bool) : Async SendBundleReturn := do
  let entries ← getEntries services force
  attemptWith services entries

section Updates

variable {rely : State → Prop} {allowed : Update → Prop}

theorem removeUserOp_guarantees (h : ∀ entry, allowed (.mempool (.removeUserOp entry)))
    (userOpOrHash : UserOpOrHash) :
    (removeUserOp userOpOrHash).detach.Guarantees rely allowed fun _ => True := by
  have hremove : (removeUserOp userOpOrHash).Guarantees rely allowed fun _ => True := by
    refine Program.Guarantees.read_bind ?_
    intro s _
    cases findEntry userOpOrHash s.standardPool with
    | none => exact trivial
    | some entry =>
      refine ⟨h entry, ?_⟩
      intro r
      cases r with
      | ok _ => exact trivial
      | error _ => exact trivial
  exact hremove.seq fun _ => trivial

/-- The status is written for the entry that some state read had pooled
under the hash. -/
theorem updateEntryStatus_guarantees {userOpHash : String} {status : EntryStatus}
    (h : ∀ s, rely s → ∀ entry ∈ s.standardPool.values, entry.userOpHash = userOpHash →
      allowed (.mempool (.updateEntryStatus entry status))) :
    (updateEntryStatus userOpHash status).Guarantees rely allowed fun _ => True := by
  refine Program.Guarantees.read_bind ?_
  intro s hs
  cases hget : s.standardPool.get userOpHash with
  | none => exact trivial
  | some entry =>
    obtain ⟨hmem, hhash⟩ := (s.standardPool.get_eq_some_iff _ _).mp hget
    exact ⟨h s hs entry hmem hhash, fun _ => trivial⟩

theorem eventEffect_guarantees (hremove : ∀ entry, allowed (.mempool (.removeUserOp entry)))
    (hfailed : ∀ s, rely s → ∀ entry ∈ s.standardPool.values,
      allowed (.mempool (.updateEntryStatus entry .failed)))
    (hincluded : ∀ addr, allowed (.reputation (.updateIncludedStatus addr)))
    (effect : EventEffect) : effect.program.Guarantees rely allowed fun _ => True := by
  cases effect with
  | userOperationSucceeded userOpHash => exact removeUserOp_guarantees hremove _
  | userOperationFailed userOpHash =>
    exact updateEntryStatus_guarantees fun s hs entry hentry _ => hfailed s hs entry hentry
  | addressIncluded addr => exact ⟨hincluded _, fun _ => trivial⟩

theorem returnNotIncluded_guarantees {userOpHashes : List String}
    (h : ∀ s, rely s → ∀ entry ∈ s.standardPool.values, entry.userOpHash ∈ userOpHashes →
      allowed (.mempool (.updateEntryStatus entry .pending))) :
    (returnNotIncluded userOpHashes).Guarantees rely allowed fun _ => True := by
  refine Program.Guarantees.forM ?_
  intro userOpHash hmem
  refine updateEntryStatus_guarantees ?_
  intro s hs entry hentry hhash
  exact h s hs entry hentry (hhash.symm ▸ hmem)

theorem removeMarked_guarantees (hremove : ∀ entry, allowed (.mempool (.removeUserOp entry)))
    (hseen : ∀ addr, allowed (.reputation (.updateSeenStatus addr .decrement)))
    (marked : List RemoveUserOpDetails) :
    (removeMarked marked).Guarantees rely allowed fun _ => True := by
  refine Program.Guarantees.forM ?_
  intro opDetails _
  refine Program.Guarantees.seq ?_ fun _ => removeUserOp_guarantees hremove _
  unfold forgivePaymaster
  split
  · split
    · unfold ReputationManager.updateSeenStatus
      split
      · exact ⟨hseen _, fun _ => trivial⟩
      · exact trivial
    · exact trivial
  · exact trivial

theorem handOut_guarantees
    (h : ∀ userOpHashes, allowed (.mempool (.markBundling userOpHashes)))
    (select : StandardPool → List MempoolEntry) :
    (handOut select).Guarantees rely allowed fun _ => True := by
  intro s _
  refine ⟨h _, ?_⟩
  intro r
  cases r with
  | ok _ => exact trivial
  | error _ => exact trivial

theorem getEntries_guarantees
    (h : ∀ userOpHashes, allowed (.mempool (.markBundling userOpHashes))) (services : Services)
    (force : Bool) : (getEntries services force).Guarantees rely allowed fun _ => True := by
  intro s _
  change Program.Guarantees _ _ _ (if s.standardPool.values.length = 0 then pure [] else
    if force then getAllPending else getNextPending services.bundleSize)
  split
  · exact trivial
  · split
    · exact handOut_guarantees h _
    · exact handOut_guarantees h _

theorem addBundleTxnConfirmation_guarantees
    (h : ∀ transactionHash signerIndex,
      allowed (.mempool (.addBundleTxnConfirmation transactionHash signerIndex)))
    (transactionHash : String) (signerIndex : ℕ) :
    (addBundleTxnConfirmation transactionHash signerIndex).Guarantees rely allowed
      fun _ => True := by
  unfold addBundleTxnConfirmation
  split
  · exact trivial
  · exact ⟨h _ _, fun _ => trivial⟩

/-- The updates an attempt makes before it sends its bundle: single entries
are removed or change their status, and single addresses are credited. -/
def SettlesEntries : Update → Prop
  | .mempool (.removeUserOp _) => True
  | .mempool (.updateEntryStatus _ _) => True
  | .reputation (.updateIncludedStatus _) => True
  | .reputation (.updateSeenStatus _ _) => True
  | _ => False

/-- The updates of an attempt whose bundle has been sent, but for the ban:
no entry is written. -/
def ClosesAttempt : Update → Prop
  | .mempool (.removeUserOp _) => True
  | .mempool (.addBundleTxnConfirmation _ _) => True
  | _ => False

end Updates

section Attempt

/-- What an attempt does between the hand-out and the sending is allowed. -/
structure AllowsSettling (rely : State → Prop) (allowed : Update → Prop) : Prop where
  removeUserOp : ∀ entry, allowed (.mempool (.removeUserOp entry))
  updateEntryStatus : ∀ s, rely s → ∀ entry ∈ s.standardPool.values, ∀ status,
    allowed (.mempool (.updateEntryStatus entry status))
  updateSeenStatus : ∀ addr, allowed (.reputation (.updateSeenStatus addr .decrement))
  updateIncludedStatus : ∀ addr, allowed (.reputation (.updateIncludedStatus addr))

/-- What an attempt does once its bundle was sent is allowed. -/
structure AllowsClosing (allowed : Update → Prop) : Prop where
  removeUserOp : ∀ entry, allowed (.mempool (.removeUserOp entry))
  removeUserOpsForBannedAddr : ∀ opsToRemove,
    allowed (.mempool (.removeUserOpsForBannedAddr opsToRemove))
  crashedHandleOps : ∀ addr, allowed (.reputation (.crashedHandleOps addr))
  addBundleTxnConfirmation : ∀ transactionHash signerIndex,
    allowed (.mempool (.addBundleTxnConfirmation transactionHash signerIndex))

/-- What an attempt does from the hand-out on is allowed. -/
structure AllowsSending (rely : State → Prop) (allowed : Update → Prop) : Prop
    extends AllowsSettling rely allowed where
  removeUserOpsForBannedAddr : ∀ opsToRemove,
    allowed (.mempool (.removeUserOpsForBannedAddr opsToRemove))
  crashedHandleOps : ∀ addr, allowed (.reputation (.crashedHandleOps addr))
  addBundleTxnConfirmation : ∀ transactionHash signerIndex,
    allowed (.mempool (.addBundleTxnConfirmation transactionHash signerIndex))

/-- Every update an attempt may issue is allowed, the statuses for entries
that some state read had pooled. -/
structure AllowsAttempt (rely : State → Prop) (allowed : Update → Prop) : Prop where
  markBundling : ∀ userOpHashes, allowed (.mempool (.markBundling userOpHashes))
  removeUserOp : ∀ entry, allowed (.mempool (.removeUserOp entry))
  removeUserOpsForBannedAddr : ∀ opsToRemove,
    allowed (.mempool (.removeUserOpsForBannedAddr opsToRemove))
  addBundleTxnConfirmation : ∀ transactionHash signerIndex,
    allowed (.mempool (.addBundleTxnConfirmation transactionHash signerIndex))
  updateEntryStatus : ∀ s, rely s → ∀ entry ∈ s.standardPool.values, ∀ status,
    allowed (.mempool (.updateEntryStatus entry status))
  reputation : ∀ update, allowed (.reputation update)

variable {rely : State → Prop} {allowed : Update → Prop}

namespace AllowsSettling

theorem settlesEntries : AllowsSettling (fun _ => True) SettlesEntries where
  removeUserOp _ := trivial
  updateEntryStatus _ _ _ _ _ := trivial
  updateSeenStatus _ := trivial
  updateIncludedStatus _ := trivial

variable (h : AllowsSettling rely allowed)

include h

theorem handlePastEvents_guarantees (pastEvents : PastEvents) :
    (handlePastEvents pastEvents).Guarantees rely allowed fun _ => True := by
  refine (Program.Guarantees.forM ?_).seq fun _ => trivial
  intro effect _
  exact eventEffect_guarantees h.removeUserOp
    (fun s hs entry hentry => h.updateEntryStatus s hs entry hentry _) h.updateIncludedStatus effect

theorem returnNotIncluded_guarantees (userOpHashes : List String) :
    (returnNotIncluded userOpHashes).Guarantees rely allowed fun _ => True :=
  BundleManager.returnNotIncluded_guarantees fun s hs entry hentry _ =>
    h.updateEntryStatus s hs entry hentry _

theorem removeMarked_guarantees (marked : List RemoveUserOpDetails) :
    (removeMarked marked).Guarantees rely allowed fun _ => True :=
  BundleManager.removeMarked_guarantees h.removeUserOp h.updateSeenStatus marked

end AllowsSettling

namespace AllowsClosing

variable (h : AllowsClosing allowed)

include h

theorem banAddress_guarantees (addressToBan : Option String) :
    (banAddress addressToBan).Guarantees rely allowed fun _ => True := by
  unfold banAddress
  cases truthy addressToBan with
  | none => exact trivial
  | some addr =>
    intro s _
    refine ⟨h.removeUserOpsForBannedAddr _, ?_⟩
    intro r
    cases r with
    | ok _ => exact ⟨h.crashedHandleOps _, fun _ => trivial⟩
    | error _ => exact trivial

theorem afterSendBundle_guarantees (res : SendBundleReturnWithSigner) :
    (afterSendBundle res).Guarantees rely allowed fun _ => True := by
  refine Program.Guarantees.seq ?_ fun _ =>
    addBundleTxnConfirmation_guarantees h.addBundleTxnConfirmation _ _
  cases res.crashedHandleOps with
  | none => exact trivial
  | some crash =>
    exact (h.banAddress_guarantees _).seq fun _ => removeUserOp_guarantees h.removeUserOp _

end AllowsClosing

namespace AllowsSending

variable (h : AllowsSending rely allowed)

include h

theorem closing : AllowsClosing allowed where
  removeUserOp := h.removeUserOp
  removeUserOpsForBannedAddr := h.removeUserOpsForBannedAddr
  crashedHandleOps := h.crashedHandleOps
  addBundleTxnConfirmation := h.addBundleTxnConfirmation

theorem attemptWith_guarantees (services : Services) (entries : List MempoolEntry) :
    (attemptWith services entries).Guarantees rely allowed fun _ => True := by
  have hsettling := h.toAllowsSettling
  unfold attemptWith
  split
  · exact trivial
  · refine (hsettling.handlePastEvents_guarantees _).seq ?_
    intro _ s _
    refine ((createBundle_readOnly _ _ _).guarantees _ _).seq fun ready => ?_
    refine (hsettling.returnNotIncluded_guarantees _).seq fun _ => ?_
    refine (hsettling.removeMarked_guarantees _).seq fun _ => ?_
    refine Program.Guarantees.seq trivial fun res => ?_
    exact (h.closing.afterSendBundle_guarantees res).seq fun _ => trivial

end AllowsSending

namespace AllowsAttempt

variable (h : AllowsAttempt rely allowed)

include h

theorem sending : AllowsSending rely allowed where
  removeUserOp := h.removeUserOp
  updateEntryStatus := h.updateEntryStatus
  updateSeenStatus _ := h.reputation _
  updateIncludedStatus _ := h.reputation _
  removeUserOpsForBannedAddr := h.removeUserOpsForBannedAddr
  crashedHandleOps _ := h.reputation _
  addBundleTxnConfirmation := h.addBundleTxnConfirmation

theorem doAttemptBundle_guarantees (services : Services) (force : Bool) :
    (doAttemptBundle services force).detach.Guarantees rely allowed fun _ => True := by
  have hattempt : (doAttemptBundle services force).Guarantees rely allowed fun _ => True :=
    (getEntries_guarantees h.markBundling services force).seq fun entries =>
      h.sending.attemptWith_guarantees services entries
  exact hattempt.seq fun _ => trivial

end AllowsAttempt

end Attempt

section Concrete

/-- Everything is included, and handleOps fails on the first operation. -/
def firstCrashes : Services where
  bundleSize := 5
  pastEvents := ⟨[], .ok ⟨⟩⟩
  builder := hundredEach
  sendBundle := fun _ _ => .ok ⟨"", [], 0, some ⟨some account, plainOp account 1 10 none none⟩⟩

end Concrete

end Bundler.BundleManager
