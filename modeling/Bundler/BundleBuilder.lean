import Bundler.DepositManager
import Bundler.MempoolHelper
import Bundler.Validation

/-!
Building a bundle. The entries are gone through once, in order, with an
accumulator of what was chosen so far; each is removed, postponed or
included, by its entities' statuses at that moment, its re-validation, and
what the bundle has already used up. The cached deposit of a paymaster is
read from the chain when it is absent or zero. What the outside answers can
also be given entry by entry: every build, however the state changes in the
meantime, is one from some answers.
-/
namespace Bundler.BundleBuilder

open KeyedRecords AsyncPrograms DataModel StateService ReputationManager DepositManager
  MempoolHelper Validation

section StorageMaps

def mergeSlots (slots validationSlots : SlotMap) : SlotMap :=
  validationSlots.values.foldl (fun slots entry => slots.assign entry.1 entry.2) slots

/-- A root overrides slots; slots are merged unless there is a root already. -/
def mergeStorageEntry (merged : StorageMap) (addr : String) : StorageEntry → StorageMap
  | .root hash => merged.assign addr (.root hash)
  | .slots validationSlots =>
      match merged.lookup addr with
      | some (.root _) => merged
      | some (.slots slots) => merged.assign addr (.slots (mergeSlots slots validationSlots))
      | none => merged.assign addr (.slots (mergeSlots .empty validationSlots))

def mergeStorageMap (merged validationStorageMap : StorageMap) : StorageMap :=
  validationStorageMap.values.foldl
    (fun merged entry => mergeStorageEntry merged entry.1 entry.2) merged

end StorageMaps

structure RemovalError where
  message : String
  errorCode : ℤ
  deriving DecidableEq, Repr

structure RemoveUserOpDetails where
  paymaster : Option String
  userOpHash : String
  err : Option RemovalError := none
  deriving DecidableEq, Repr

/-- An included operation, with the entry and the re-validation it came from. -/
abbrev Included := MempoolEntry × ValidateUserOpResult

structure BundleReadyToSend where
  included : List Included
  storageMap : StorageMap
  notIncludedUserOpsHashes : List String
  markedToRemoveUserOpsHashes : List RemoveUserOpDetails

def BundleReadyToSend.bundle (ready : BundleReadyToSend) : List UserOperation :=
  ready.included.map (fun included => included.1.userOp)

/-- The accumulator. The source pushes only the operations of included. -/
structure BundleAcc where
  included : List Included
  storageMap : StorageMap
  notIncludedUserOpsHashes : List String
  markedToRemoveUserOpsHashes : List RemoveUserOpDetails
  totalGas : ℤ
  paymasterDeposit : String → Option ℤ
  senders : List String
  stakedEntityCount : String → ℕ

def BundleAcc.initial : BundleAcc where
  included := []
  storageMap := .empty
  notIncludedUserOpsHashes := []
  markedToRemoveUserOpsHashes := []
  totalGas := 0
  paymasterDeposit := fun _ => none
  senders := []
  stakedEntityCount := fun _ => 0

/-- What the builder asks of the outside: the re-validation of an entry's
operation against the entry's code hashes, and the deposits on chain. -/
structure Builder where
  validateUserOp : MempoolEntry → Except JsError (Except RpcError ValidateUserOpResult)
  balanceOf : BalanceOf
  maxBundleGas : ℤ

def THROTTLED_ENTITY_BUNDLE_COUNT : ℕ := 4

def isThrottled (status : ReputationStatus) (entity : Option String)
    (stakedEntityCount : String → ℕ) : Prop :=
  status = .throttled ∧ stakedEntityCount (entity.getD "") ≥ THROTTLED_ENTITY_BUNDLE_COUNT

instance (status : ReputationStatus) (entity : Option String) (counts : String → ℕ) :
    Decidable (isThrottled status entity counts) :=
  inferInstanceAs (Decidable (_ ∧ _))

/-- A rejection is caught and turned into an error of its message and code. -/
def caughtError : JsError → RpcError
  | .rpcError error => error
  | .typeError => { message := "TypeError", code := ValidationErrors.internalError.code }
  | .other message code =>
      { message := message.getD "unknown error message"
        code := code.getD ValidationErrors.internalError.code }

def reValidate (builder : Builder) (entry : MempoolEntry) :
    Except RpcError ValidateUserOpResult :=
  match builder.validateUserOp entry with
  | .ok res => res
  | .error e => .error (caughtError e)

/-- [STO-041] -/
def accessesOtherSenders (storageMap : StorageMap) (sender : String) (knownSenders : List String) :
    Bool :=
  storageMap.keys.any fun addr =>
    toLowerCase addr ≠ toLowerCase sender && knownSenders.contains (toLowerCase addr)

def userOpGasCost (res : ValidateUserOpResult) (userOp : UserOperation) : ℤ :=
  res.validation.returnInfo.preOpGas + userOp.callGasLimit

/-- The verdict on an entry before its paymaster's deposit is looked at. -/
inductive Screened
  | remove (err : Option RemovalError)
  | postpone
  | fits (res : ValidateUserOpResult)

def screen (builder : Builder) (knownSenders : List String) (acc : BundleAcc)
    (entry : MempoolEntry) (paymasterStatus factoryStatus : ReputationStatus) : Screened :=
  let userOp := entry.userOp
  if paymasterStatus = .banned ∨ factoryStatus = .banned then .remove none
  else if (truthy userOp.paymaster ≠ none ∧
        isThrottled paymasterStatus userOp.paymaster acc.stakedEntityCount) ∨
      (truthy userOp.factory ≠ none ∧
        isThrottled factoryStatus userOp.factory acc.stakedEntityCount) then .postpone
  else if userOp.sender ∈ acc.senders then .postpone
  else match reValidate builder entry with
    | .error e => .remove (some ⟨e.message, e.code⟩)
    | .ok res =>
        if accessesOtherSenders res.storageMap userOp.sender knownSenders then .postpone
        else if acc.totalGas + userOpGasCost res userOp > builder.maxBundleGas then .postpone
        else .fits res

def postponed (acc : BundleAcc) (entry : MempoolEntry) : BundleAcc :=
  { acc with notIncludedUserOpsHashes := acc.notIncludedUserOpsHashes ++ [entry.userOpHash] }

def removed (acc : BundleAcc) (entry : MempoolEntry) (err : Option RemovalError) : BundleAcc :=
  { acc with
    markedToRemoveUserOpsHashes := acc.markedToRemoveUserOpsHashes ++
      [{ paymaster := entry.userOp.paymaster, userOpHash := entry.userOpHash, err := err }] }

def incrementCount (counts : String → ℕ) (key : String) : String → ℕ :=
  Function.update counts key (counts key + 1)

/-- Adding the operation, its paymaster having been charged already. -/
def addToBundle (acc : BundleAcc) (entry : MempoolEntry) (res : ValidateUserOpResult) : BundleAcc :=
  { acc with
    included := acc.included ++ [(entry, res)]
    storageMap := mergeStorageMap acc.storageMap res.storageMap
    totalGas := acc.totalGas + userOpGasCost res entry.userOp
    senders := acc.senders ++ [entry.userOp.sender]
    stakedEntityCount :=
      match truthy entry.userOp.factory with
      | some factory => incrementCount acc.stakedEntityCount factory
      | none => acc.stakedEntityCount }

/-- The deposit that the paymaster has left: what is cached, unless that is
absent or zero. -/
def availableDeposit (builder : Builder) (acc : BundleAcc) (paymaster : String) :
    Except JsError ℤ :=
  match acc.paymasterDeposit paymaster with
  | some deposit => if deposit = 0 then Nat.cast <$> builder.balanceOf paymaster else .ok deposit
  | none => Nat.cast <$> builder.balanceOf paymaster

def setDeposit (acc : BundleAcc) (paymaster : String) (deposit : ℤ) : BundleAcc :=
  { acc with paymasterDeposit := Function.update acc.paymasterDeposit paymaster (some deposit) }

/-- An entry that fits, against the deposit of its paymaster. -/
def chargeAndAdd (builder : Builder) (acc : BundleAcc) (entry : MempoolEntry)
    (res : ValidateUserOpResult) : Except JsError BundleAcc :=
  match truthy entry.userOp.paymaster with
  | none => .ok (addToBundle acc entry res)
  | some paymaster => do
      let deposit ← availableDeposit builder acc paymaster
      let prefund : ℤ := res.validation.returnInfo.prefund
      if deposit < prefund then .ok (postponed (setDeposit acc paymaster deposit) entry)
      else
        let charged := setDeposit acc paymaster (deposit - prefund)
        .ok (addToBundle
          { charged with
            stakedEntityCount := incrementCount charged.stakedEntityCount paymaster } entry res)

/-- One entry, with the statuses read for it. -/
def addEntry (builder : Builder) (knownSenders : List String) (acc : BundleAcc)
    (entry : MempoolEntry) (paymasterStatus factoryStatus : ReputationStatus) :
    Except JsError BundleAcc :=
  match screen builder knownSenders acc entry paymasterStatus factoryStatus with
  | .remove err => .ok (removed acc entry err)
  | .postpone => .ok (postponed acc entry)
  | .fits res => chargeAndAdd builder acc entry res

/-- The entries one after another, each with its own reads of the statuses. -/
def addEntries (builder : Builder) (knownSenders : List String) :
    BundleAcc → List MempoolEntry → Async BundleAcc
  | acc, [] => pure acc
  | acc, entry :: entries => do
      let paymasterStatus ← getStatus entry.userOp.paymaster
      let factoryStatus ← getStatus entry.userOp.factory
      let acc ← Program.ofExcept
        (addEntry builder knownSenders acc entry paymasterStatus factoryStatus)
      addEntries builder knownSenders acc entries

def BundleAcc.ready (acc : BundleAcc) : BundleReadyToSend where
  included := acc.included
  storageMap := acc.storageMap
  notIncludedUserOpsHashes := acc.notIncludedUserOpsHashes
  markedToRemoveUserOpsHashes := acc.markedToRemoveUserOpsHashes

def createBundle (builder : Builder) (entries : List MempoolEntry) (knownSenders : List String) :
    Async BundleReadyToSend := do
  let acc ← addEntries builder knownSenders .initial entries
  pure acc.ready

section Steps

variable {builder : Builder} {knownSenders : List String} {acc acc' : BundleAcc}
  {entry : MempoolEntry} {paymasterStatus factoryStatus : ReputationStatus}

/-- The accumulator in which the operation's paymaster has been charged. -/
def charged (acc : BundleAcc) (paymaster : String) (deposit : ℤ) : BundleAcc :=
  { setDeposit acc paymaster deposit with
    stakedEntityCount := incrementCount acc.stakedEntityCount paymaster }

/-- All that one entry can do to the accumulator. -/
theorem addEntry_cases
    (h : addEntry builder knownSenders acc entry paymasterStatus factoryStatus = .ok acc') :
    (∃ err, screen builder knownSenders acc entry paymasterStatus factoryStatus = .remove err ∧
        acc' = removed acc entry err) ∨
      (screen builder knownSenders acc entry paymasterStatus factoryStatus = .postpone ∧
        acc' = postponed acc entry) ∨
      ∃ res, screen builder knownSenders acc entry paymasterStatus factoryStatus = .fits res ∧
        ((truthy entry.userOp.paymaster = none ∧ acc' = addToBundle acc entry res) ∨
          ∃ paymaster deposit, truthy entry.userOp.paymaster = some paymaster ∧
            availableDeposit builder acc paymaster = .ok deposit ∧
            ((deposit < res.validation.returnInfo.prefund ∧
                acc' = postponed (setDeposit acc paymaster deposit) entry) ∨
              (res.validation.returnInfo.prefund ≤ deposit ∧
                acc' = addToBundle (charged acc paymaster
                  (deposit - res.validation.returnInfo.prefund)) entry res))) := by
  unfold addEntry at h
  cases hscreen : screen builder knownSenders acc entry paymasterStatus factoryStatus with
  | remove err =>
    rw [hscreen] at h
    exact Or.inl ⟨err, rfl, (Except.ok.inj h).symm⟩
  | postpone =>
    rw [hscreen] at h
    exact Or.inr (Or.inl ⟨rfl, (Except.ok.inj h).symm⟩)
  | fits res =>
    rw [hscreen] at h
    refine Or.inr (Or.inr ⟨res, rfl, ?_⟩)
    change chargeAndAdd builder acc entry res = .ok acc' at h
    unfold chargeAndAdd at h
    cases hpaymaster : truthy entry.userOp.paymaster with
    | none =>
      rw [hpaymaster] at h
      exact Or.inl ⟨rfl, (Except.ok.inj h).symm⟩
    | some paymaster =>
      rw [hpaymaster] at h
      obtain ⟨deposit, hdeposit, hrest⟩ := except_bind_eq_ok_iff.mp h
      refine Or.inr ⟨paymaster, deposit, rfl, hdeposit, ?_⟩
      by_cases hlow : deposit < res.validation.returnInfo.prefund
      · simp only [hlow, if_true] at hrest
        exact Or.inl ⟨hlow, (Except.ok.inj hrest).symm⟩
      · simp only [hlow, if_false] at hrest
        exact Or.inr ⟨not_lt.mp hlow, (Except.ok.inj hrest).symm⟩

/-- One more operation for the paymaster or factory, if there is one. -/
def countRole (counts : String → ℕ) (role : Option String) : String → ℕ :=
  match truthy role with
  | some addr => incrementCount counts addr
  | none => counts

/-- The entry is set aside: the bundle stays as it is, and one of the other
lists grows. -/
structure SetAside (builder : Builder) (acc acc' : BundleAcc) (entry : MempoolEntry) : Prop where
  included : acc'.included = acc.included
  storageMap : acc'.storageMap = acc.storageMap
  totalGas : acc'.totalGas = acc.totalGas
  senders : acc'.senders = acc.senders
  stakedEntityCount : acc'.stakedEntityCount = acc.stakedEntityCount
  paymasterDeposit : acc'.paymasterDeposit = acc.paymasterDeposit ∨
    ∃ paymaster deposit, availableDeposit builder acc paymaster = .ok deposit ∧
      acc'.paymasterDeposit = Function.update acc.paymasterDeposit paymaster (some deposit)
  listed : (acc'.notIncludedUserOpsHashes = acc.notIncludedUserOpsHashes ++ [entry.userOpHash] ∧
      acc'.markedToRemoveUserOpsHashes = acc.markedToRemoveUserOpsHashes) ∨
    ∃ err, acc'.notIncludedUserOpsHashes = acc.notIncludedUserOpsHashes ∧
      acc'.markedToRemoveUserOpsHashes = acc.markedToRemoveUserOpsHashes ++
        [{ paymaster := entry.userOp.paymaster, userOpHash := entry.userOpHash, err := err }]

/-- The entry joins the bundle. -/
structure Added (acc acc' : BundleAcc) (entry : MempoolEntry) (res : ValidateUserOpResult) :
    Prop where
  included : acc'.included = acc.included ++ [(entry, res)]
  storageMap : acc'.storageMap = mergeStorageMap acc.storageMap res.storageMap
  totalGas : acc'.totalGas = acc.totalGas + userOpGasCost res entry.userOp
  senders : acc'.senders = acc.senders ++ [entry.userOp.sender]
  stakedEntityCount : acc'.stakedEntityCount =
    countRole (countRole acc.stakedEntityCount entry.userOp.paymaster) entry.userOp.factory
  notIncluded : acc'.notIncludedUserOpsHashes = acc.notIncludedUserOpsHashes
  marked : acc'.markedToRemoveUserOpsHashes = acc.markedToRemoveUserOpsHashes

theorem SetAside.bundle (haside : SetAside builder acc acc' entry) :
    acc'.ready.bundle = acc.ready.bundle := by
  have hincluded := haside.included
  unfold BundleReadyToSend.bundle BundleAcc.ready
  rw [hincluded]

theorem Added.bundle {res : ValidateUserOpResult} (hadded : Added acc acc' entry res) :
    acc'.ready.bundle = acc.ready.bundle ++ [entry.userOp] := by
  have hincluded := hadded.included
  unfold BundleReadyToSend.bundle BundleAcc.ready
  rw [hincluded, List.map_append]
  rfl

/-- The deposit of the paymaster, if there is one, is not read as too low. -/
def DepositCovers (builder : Builder) (acc : BundleAcc) (entry : MempoolEntry)
    (res : ValidateUserOpResult) : Prop :=
  ∀ paymaster deposit, truthy entry.userOp.paymaster = some paymaster →
    availableDeposit builder acc paymaster = .ok deposit →
    res.validation.returnInfo.prefund ≤ deposit

/-- The entry passes every check it is put to. -/
def Fits (builder : Builder) (knownSenders : List String) (acc : BundleAcc) (entry : MempoolEntry)
    (paymasterStatus factoryStatus : ReputationStatus) : Prop :=
  ∃ res, screen builder knownSenders acc entry paymasterStatus factoryStatus = .fits res ∧
    DepositCovers builder acc entry res

/-- An entry joins the bundle exactly when it fits. -/
theorem addEntry_outcome
    (h : addEntry builder knownSenders acc entry paymasterStatus factoryStatus = .ok acc') :
    (¬Fits builder knownSenders acc entry paymasterStatus factoryStatus ∧
        SetAside builder acc acc' entry) ∨
      ∃ res, screen builder knownSenders acc entry paymasterStatus factoryStatus = .fits res ∧
        DepositCovers builder acc entry res ∧ Added acc acc' entry res := by
  have hnot (hscreen : ∀ res,
      screen builder knownSenders acc entry paymasterStatus factoryStatus ≠ .fits res) :
      ¬Fits builder knownSenders acc entry paymasterStatus factoryStatus := by
    rintro ⟨res, hfits, _⟩
    exact hscreen res hfits
  rcases addEntry_cases h with ⟨err, hscreen, rfl⟩ | ⟨hscreen, rfl⟩ | ⟨res, hscreen, hcharge⟩
  · refine Or.inl ⟨hnot ?_, rfl, rfl, rfl, rfl, rfl, Or.inl rfl, Or.inr ⟨err, rfl, rfl⟩⟩
    simp [hscreen]
  · refine Or.inl ⟨hnot ?_, rfl, rfl, rfl, rfl, rfl, Or.inl rfl, Or.inl ⟨rfl, rfl⟩⟩
    simp [hscreen]
  · rcases hcharge with ⟨hnone, rfl⟩ | ⟨paymaster, deposit, hpaymaster, hdeposit, hcharge⟩
    · refine Or.inr ⟨res, hscreen, ?_, rfl, rfl, rfl, rfl, ?_, rfl, rfl⟩
      · intro paymaster deposit hsome
        cases hnone.symm.trans hsome
      · unfold countRole
        rw [hnone]
        rfl
    · rcases hcharge with ⟨hlow, rfl⟩ | ⟨hpays, rfl⟩
      · refine Or.inl ⟨?_, rfl, rfl, rfl, rfl, rfl, Or.inr ⟨paymaster, deposit, hdeposit, rfl⟩,
          Or.inl ⟨rfl, rfl⟩⟩
        rintro ⟨res', hfits, hcovers⟩
        cases hscreen.symm.trans hfits
        have hle := hcovers paymaster deposit hpaymaster hdeposit
        omega
      · refine Or.inr ⟨res, hscreen, ?_, rfl, rfl, rfl, rfl, ?_, rfl, rfl⟩
        · intro paymaster' deposit' hpaymaster' hdeposit'
          cases hpaymaster.symm.trans hpaymaster'
          cases hdeposit.symm.trans hdeposit'
          exact hpays
        · unfold countRole
          rw [hpaymaster]
          rfl

/-- Only a deposit that cannot be read makes a step fail. -/
theorem addEntry_total
    (hread : ∀ res paymaster,
      screen builder knownSenders acc entry paymasterStatus factoryStatus = .fits res →
      truthy entry.userOp.paymaster = some paymaster →
      ∃ deposit, availableDeposit builder acc paymaster = .ok deposit) :
    ∃ acc', addEntry builder knownSenders acc entry paymasterStatus factoryStatus = .ok acc' := by
  unfold addEntry
  split
  · exact ⟨_, rfl⟩
  · exact ⟨_, rfl⟩
  · rename_i res hscreen
    unfold chargeAndAdd
    split
    · exact ⟨_, rfl⟩
    · rename_i paymaster hpaymaster
      obtain ⟨deposit, hdeposit⟩ := hread res paymaster hscreen hpaymaster
      rw [hdeposit]
      by_cases hlow : deposit < res.validation.returnInfo.prefund
      · exact ⟨_, if_pos hlow⟩
      · exact ⟨_, if_neg hlow⟩

/-- Nothing else can. -/
theorem addEntry_read
    (h : addEntry builder knownSenders acc entry paymasterStatus factoryStatus = .ok acc')
    {res : ValidateUserOpResult} {paymaster : String}
    (hscreen : screen builder knownSenders acc entry paymasterStatus factoryStatus = .fits res)
    (hpaymaster : truthy entry.userOp.paymaster = some paymaster) :
    ∃ deposit, availableDeposit builder acc paymaster = .ok deposit := by
  rcases addEntry_cases h with ⟨err, hother, _⟩ | ⟨hother, _⟩ | ⟨res', _, hcharge⟩
  · cases hscreen.symm.trans hother
  · cases hscreen.symm.trans hother
  · rcases hcharge with ⟨hnone, _⟩ | ⟨paymaster', deposit, hsome, hdeposit, _⟩
    · cases hnone.symm.trans hpaymaster
    · cases hsome.symm.trans hpaymaster
      exact ⟨deposit, hdeposit⟩

/-- The checks made before the deposit is looked at. -/
structure PassesScreen (builder : Builder) (knownSenders : List String) (acc : BundleAcc)
    (entry : MempoolEntry) (paymasterStatus factoryStatus : ReputationStatus)
    (res : ValidateUserOpResult) : Prop where
  paymaster_notBanned : paymasterStatus ≠ .banned
  factory_notBanned : factoryStatus ≠ .banned
  paymaster_notThrottled : truthy entry.userOp.paymaster ≠ none →
    ¬isThrottled paymasterStatus entry.userOp.paymaster acc.stakedEntityCount
  factory_notThrottled : truthy entry.userOp.factory ≠ none →
    ¬isThrottled factoryStatus entry.userOp.factory acc.stakedEntityCount
  sender_new : entry.userOp.sender ∉ acc.senders
  validates : reValidate builder entry = .ok res
  isolated : accessesOtherSenders res.storageMap entry.userOp.sender knownSenders = false
  gas : acc.totalGas + userOpGasCost res entry.userOp ≤ builder.maxBundleGas

theorem screen_eq_fits_iff (res : ValidateUserOpResult) :
    screen builder knownSenders acc entry paymasterStatus factoryStatus = .fits res ↔
      PassesScreen builder knownSenders acc entry paymasterStatus factoryStatus res := by
  unfold screen
  dsimp only
  constructor
  · intro h
    split at h
    · cases h
    · rename_i hbanned
      rw [not_or] at hbanned
      split at h
      · cases h
      · rename_i hthrottled
        rw [not_or, not_and, not_and] at hthrottled
        split at h
        · cases h
        · rename_i hsender
          split at h
          · cases h
          · rename_i res' hvalidates
            split at h
            · cases h
            · rename_i hisolated
              split at h
              · cases h
              · rename_i hgas
                cases h
                exact ⟨hbanned.1, hbanned.2, hthrottled.1, hthrottled.2, hsender, hvalidates,
                  Bool.eq_false_iff.mpr hisolated, not_lt.mp hgas⟩
  · intro h
    have hbanned : ¬(paymasterStatus = .banned ∨ factoryStatus = .banned) :=
      not_or.mpr ⟨h.paymaster_notBanned, h.factory_notBanned⟩
    have hthrottled := not_or.mpr ⟨not_and.mpr h.paymaster_notThrottled,
      not_and.mpr h.factory_notThrottled⟩
    have hgas : ¬acc.totalGas + userOpGasCost res entry.userOp > builder.maxBundleGas :=
      not_lt.mpr h.gas
    rw [if_neg hbanned, if_neg hthrottled, if_neg h.sender_new, h.validates]
    dsimp only
    rw [h.isolated, if_neg Bool.false_ne_true, if_neg hgas]

end Steps

section Running

variable (builder : Builder) (knownSenders : List String)

theorem addEntries_readOnly (acc : BundleAcc) (entries : List MempoolEntry) :
    (addEntries builder knownSenders acc entries).ReadOnly := by
  induction entries generalizing acc with
  | nil => exact trivial
  | cons entry entries ih =>
    exact (getStatus_readOnly _).bind fun _ => (getStatus_readOnly _).bind fun _ =>
      Program.ReadOnly.bind trivial fun acc => ih acc

theorem createBundle_readOnly (entries : List MempoolEntry) :
    (createBundle builder entries knownSenders).ReadOnly :=
  (addEntries_readOnly builder knownSenders .initial entries).bind fun _ => trivial

theorem addEntries_notIncluded (acc : BundleAcc) (entries : List MempoolEntry) :
    (addEntries builder knownSenders acc entries).Guarantees (fun _ => True) (fun _ => False)
      fun r => ∀ acc', r = .ok acc' → ∀ userOpHash ∈ acc'.notIncludedUserOpsHashes,
        userOpHash ∈ acc.notIncludedUserOpsHashes ++ entries.map MempoolEntry.userOpHash := by
  induction entries generalizing acc with
  | nil =>
    intro acc' hacc' userOpHash hmem
    cases hacc'
    simpa using hmem
  | cons entry entries ih =>
    refine Program.Guarantees.read_bind fun s _ => Program.Guarantees.read_bind fun s' _ => ?_
    refine Program.Guarantees.bind (Q := fun r => r = addEntry builder knownSenders acc entry
      (statusIn s entry.userOp.paymaster) (statusIn s' entry.userOp.factory)) rfl ?_ ?_
    · intro next hnext
      refine (ih next).mono (fun _ h => h) (fun _ h => h) ?_
      intro r hrest acc' hacc' userOpHash hmem
      have hmem := hrest acc' hacc' userOpHash hmem
      have hlisted : ∀ userOpHash ∈ next.notIncludedUserOpsHashes,
          userOpHash ∈ acc.notIncludedUserOpsHashes ∨ userOpHash = entry.userOpHash := by
        intro userOpHash hmem
        rcases addEntry_outcome hnext.symm with ⟨_, haside⟩ | ⟨res, _, _, hadded⟩
        · rcases haside.listed with ⟨hlist, _⟩ | ⟨err, hlist, _⟩
          · rw [hlist] at hmem
            simpa using hmem
          · rw [hlist] at hmem
            exact Or.inl hmem
        · rw [hadded.notIncluded] at hmem
          exact Or.inl hmem
      simp only [List.mem_append, List.map_cons, List.mem_cons] at hmem ⊢
      rcases hmem with hmem | hmem
      · rcases hlisted userOpHash hmem with hold | hnew
        · exact Or.inl hold
        · exact Or.inr (Or.inl hnew)
      · exact Or.inr (Or.inr hmem)
    · intro e _ acc' hacc'
      cases hacc'

/-- What is not included is among the entries given. -/
theorem createBundle_notIncluded (entries : List MempoolEntry) :
    (createBundle builder entries knownSenders).Guarantees (fun _ => True) (fun _ => False)
      fun r => ∀ ready, r = .ok ready → ∀ userOpHash ∈ ready.notIncludedUserOpsHashes,
        userOpHash ∈ entries.map MempoolEntry.userOpHash := by
  refine (addEntries_notIncluded builder knownSenders .initial entries).bind ?_ ?_
  · intro acc hacc ready hready userOpHash hmem
    cases hready
    have hlisted := hacc acc rfl userOpHash hmem
    simpa [BundleAcc.initial] using hlisted
  · intro e _ ready hready
    cases hready

/-- One entry in a state that does not change during the build. -/
def addEntryIn (s : State) (acc : BundleAcc) (entry : MempoolEntry) : Except JsError BundleAcc :=
  addEntry builder knownSenders acc entry (statusIn s entry.userOp.paymaster)
    (statusIn s entry.userOp.factory)

theorem addEntries_run (s : State) (acc : BundleAcc) (entries : List MempoolEntry) :
    runAlone (addEntries builder knownSenders acc entries) s =
      (s, entries.foldlM (addEntryIn builder knownSenders s) acc) := by
  induction entries generalizing acc with
  | nil => rfl
  | cons entry entries ih =>
    change Program.run Update.apply (Program.ofExcept (addEntryIn builder knownSenders s acc entry)
      >>= fun acc => addEntries builder knownSenders acc entries) s = _
    rw [List.foldlM_cons]
    cases addEntryIn builder knownSenders s acc entry with
    | error e => rfl
    | ok acc => exact ih acc

/-- A build that runs alone folds its step over the entries. -/
theorem createBundle_run (s : State) (entries : List MempoolEntry) :
    runAlone (createBundle builder entries knownSenders) s =
      (s, BundleAcc.ready <$> entries.foldlM (addEntryIn builder knownSenders s) .initial) := by
  unfold createBundle runAlone
  rw [Program.run_bind]
  have hentries := addEntries_run builder knownSenders s .initial entries
  unfold runAlone at hentries
  rw [hentries]
  cases entries.foldlM (addEntryIn builder knownSenders s) BundleAcc.initial with
  | error e => rfl
  | ok acc => rfl

end Running

section Answered

/-- What the outside answers while one entry is dealt with. -/
structure Answers where
  paymasterStatus : ReputationStatus
  factoryStatus : ReputationStatus
  validateUserOp : Except JsError (Except RpcError ValidateUserOpResult)
  balanceOf : Except JsError ℕ

def Answers.builder (answers : Answers) (maxBundleGas : ℤ) : Builder where
  validateUserOp := fun _ => answers.validateUserOp
  balanceOf := fun _ => answers.balanceOf
  maxBundleGas := maxBundleGas

/-- One entry, with the answers given for it. -/
def addAnswered (maxBundleGas : ℤ) (knownSenders : List String) (acc : BundleAcc)
    (step : MempoolEntry × Answers) : Except JsError BundleAcc :=
  addEntry (step.2.builder maxBundleGas) knownSenders acc step.1 step.2.paymasterStatus
    step.2.factoryStatus

theorem ready_eq_ok_iff (built : Except JsError BundleAcc) {ready : BundleReadyToSend} :
    BundleAcc.ready <$> built = .ok ready ↔ ∃ acc, built = .ok acc ∧ ready = acc.ready := by
  cases built with
  | error e => simp
  | ok acc => simp [eq_comm]

/-- createBundle on entries each of which comes with its answers. -/
def createBundleFrom (maxBundleGas : ℤ) (knownSenders : List String)
    (answered : List (MempoolEntry × Answers)) : Except JsError BundleReadyToSend :=
  BundleAcc.ready <$> answered.foldlM (addAnswered maxBundleGas knownSenders) .initial

theorem createBundleFrom_eq_ok_iff {maxBundleGas : ℤ} {knownSenders : List String}
    {answered : List (MempoolEntry × Answers)} {ready : BundleReadyToSend} :
    createBundleFrom maxBundleGas knownSenders answered = .ok ready ↔
      ∃ acc, answered.foldlM (addAnswered maxBundleGas knownSenders) .initial = .ok acc ∧
        ready = acc.ready :=
  ready_eq_ok_iff _

variable (builder : Builder) (knownSenders : List String)

/-- The answers a builder gives for an entry, beside the statuses. -/
def answersFor (entry : MempoolEntry) (paymasterStatus factoryStatus : ReputationStatus) :
    Answers where
  paymasterStatus := paymasterStatus
  factoryStatus := factoryStatus
  validateUserOp := builder.validateUserOp entry
  balanceOf := builder.balanceOf (entry.userOp.paymaster.getD "")

/-- Of a builder only its answers for the entry matter. -/
theorem addEntry_congr {builder builder' : Builder} {entry : MempoolEntry}
    (hvalidate : builder.validateUserOp entry = builder'.validateUserOp entry)
    (hbalance : ∀ paymaster, entry.userOp.paymaster = some paymaster →
      builder.balanceOf paymaster = builder'.balanceOf paymaster)
    (hgas : builder.maxBundleGas = builder'.maxBundleGas) (acc : BundleAcc)
    (paymasterStatus factoryStatus : ReputationStatus) :
    addEntry builder knownSenders acc entry paymasterStatus factoryStatus =
      addEntry builder' knownSenders acc entry paymasterStatus factoryStatus := by
  have hscreen : screen builder knownSenders acc entry paymasterStatus factoryStatus =
      screen builder' knownSenders acc entry paymasterStatus factoryStatus := by
    unfold screen reValidate
    rw [hvalidate, hgas]
  have hcharge : chargeAndAdd builder acc entry = chargeAndAdd builder' acc entry := by
    funext res
    unfold chargeAndAdd
    cases hpaymaster : truthy entry.userOp.paymaster with
    | none => rfl
    | some paymaster =>
      obtain ⟨hsome, _⟩ := Option.filter_eq_some_iff.mp hpaymaster
      have hdeposit : availableDeposit builder acc paymaster =
          availableDeposit builder' acc paymaster := by
        unfold availableDeposit
        rw [hbalance paymaster hsome]
      dsimp only
      rw [hdeposit]
  unfold addEntry
  rw [hscreen, hcharge]

theorem addEntry_eq_addAnswered (acc : BundleAcc) (entry : MempoolEntry)
    (paymasterStatus factoryStatus : ReputationStatus) :
    addEntry builder knownSenders acc entry paymasterStatus factoryStatus =
      addAnswered builder.maxBundleGas knownSenders acc
        (entry, answersFor builder entry paymasterStatus factoryStatus) := by
  have hvalidate : builder.validateUserOp entry =
      ((answersFor builder entry paymasterStatus factoryStatus).builder
        builder.maxBundleGas).validateUserOp entry := rfl
  have hbalance : ∀ paymaster, entry.userOp.paymaster = some paymaster →
      builder.balanceOf paymaster =
        ((answersFor builder entry paymasterStatus factoryStatus).builder
          builder.maxBundleGas).balanceOf paymaster := by
    intro paymaster hpaymaster
    show _ = builder.balanceOf (entry.userOp.paymaster.getD "")
    rw [hpaymaster]
    rfl
  exact addEntry_congr knownSenders hvalidate hbalance rfl acc paymasterStatus factoryStatus

theorem addEntries_answered (acc : BundleAcc) (entries : List MempoolEntry) :
    (addEntries builder knownSenders acc entries).Guarantees (fun _ => True) (fun _ => False)
      fun r => ∃ answered : List (MempoolEntry × Answers), answered.map Prod.fst = entries ∧
        r = answered.foldlM (addAnswered builder.maxBundleGas knownSenders) acc := by
  induction entries generalizing acc with
  | nil => exact ⟨[], rfl, rfl⟩
  | cons entry entries ih =>
    intro s _ s' _
    have hstep := addEntry_eq_addAnswered builder knownSenders acc entry
      (statusIn s entry.userOp.paymaster) (statusIn s' entry.userOp.factory)
    generalize answersFor builder entry (statusIn s entry.userOp.paymaster)
      (statusIn s' entry.userOp.factory) = answers at hstep
    change (Program.ofExcept (addEntry builder knownSenders acc entry
      (statusIn s entry.userOp.paymaster) (statusIn s' entry.userOp.factory)) >>=
        fun acc => addEntries builder knownSenders acc entries).Guarantees _ _ _
    rw [hstep]
    cases hadded : addAnswered builder.maxBundleGas knownSenders acc (entry, answers) with
    | error e =>
      refine ⟨(entry, answers) :: entries.map fun entry => (entry, answers), ?_, ?_⟩
      · simp [Function.comp_def]
      · rw [List.foldlM_cons, hadded]
        rfl
    | ok acc =>
      refine Program.Guarantees.mono (ih acc) (fun _ hs => hs) (fun _ hu => hu) ?_
      rintro r ⟨answered, hentries, rfl⟩
      refine ⟨(entry, answers) :: answered, ?_, ?_⟩
      · rw [List.map_cons, hentries]
      · rw [List.foldlM_cons, hadded]
        rfl

/-- Whatever happens to the state during a build, its outcome is that of some
answers for the entries. -/
theorem createBundle_answered (entries : List MempoolEntry) :
    (createBundle builder entries knownSenders).Guarantees (fun _ => True) (fun _ => False)
      fun r => ∃ answered : List (MempoolEntry × Answers), answered.map Prod.fst = entries ∧
        r = createBundleFrom builder.maxBundleGas knownSenders answered := by
  refine (addEntries_answered builder knownSenders .initial entries).bind ?_ ?_
  · rintro acc ⟨answered, hentries, hfold⟩
    refine ⟨answered, hentries, ?_⟩
    unfold createBundleFrom
    rw [← hfold]
    rfl
  · rintro e ⟨answered, hentries, hfold⟩
    refine ⟨answered, hentries, ?_⟩
    unfold createBundleFrom
    rw [← hfold]
    rfl

end Answered

section Concrete

/-- Every operation re-validates with a prefund of a hundred, which is also
what every paymaster has on deposit. -/
def hundredEach : Builder where
  validateUserOp := fun entry => .ok (.ok
    { validation :=
        { returnInfo := ⟨0, 100, false, 0, maxUint48⟩
          senderInfo := none }
      referencedContracts := entry.referencedContracts.getD ⟨[], ""⟩
      storageMap := .empty })
  balanceOf := fun _ => .ok 100
  maxBundleGas := 5000000

def plainResult : ValidateUserOpResult where
  validation :=
    { returnInfo := ⟨0, 100, false, 0, maxUint48⟩
      senderInfo := none }
  referencedContracts := ⟨[], ""⟩
  storageMap := .empty

/-- Nothing is held against the entry. -/
def plainAnswers : Answers := ⟨.ok, .ok, .ok (.ok plainResult), .ok 100⟩

def plainEntry (userOp : UserOperation) (userOpHash : String) : MempoolEntry where
  userOp := userOp
  userOpHash := userOpHash
  prefund := 100
  referencedContracts := some ⟨[], ""⟩
  status := .bundling

end Concrete

end Bundler.BundleBuilder
