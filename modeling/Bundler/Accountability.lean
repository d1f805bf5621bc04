import Bundler.BundleContents
import Bundler.BundleProcessor
import Bundler.Interleavings
import Bundler.Operations

/-!
Who answers for a failed bundle. An attempt sends its bundle through the
bundle processor. Whatever runs besides it, the operations it sends were
pending together at some moment of the run. An address is banned only when
the bundle failed on one of them for a reason the address is accountable
for, and a transaction is noted only when it carries such a bundle and was
sent by the first signer.
-/
namespace Bundler.Accountability

open KeyedRecords AsyncPrograms DataModel StateService ReputationManager DepositManager
  MempoolHelper MempoolManager BundleBuilder BundleManager BundleContents BundleProcessor Ethers
  Operations Runs Interleavings

section Blame

variable {config : ProcessorConfig} {network : Network} {reason : String} {userOp : UserOperation}

/-- The address that a failure for the reason is put down to: the factory for
AA1, and for AA2 if it is staked; the sender for AA2 otherwise, and for AA3 if
it is staked; the paymaster for AA3 otherwise. -/
inductive Accountable (config : ProcessorConfig) (network : Network) (reason : String)
    (userOp : UserOperation) : String → Prop
  | factory {addr : String} (hreason : startsWith reason "AA1")
      (haddr : userOp.factory = some addr) : Accountable config network reason userOp addr
  | stakedFactory {addr : String} (hreason : startsWith reason "AA2")
      (haddr : userOp.factory = some addr)
      (hstaked : isAddressStaked config network addr = .ok true) :
      Accountable config network reason userOp addr
  | sender (hreason : startsWith reason "AA2")
      (hfactory : isFactoryStaked config network userOp = .ok false) :
      Accountable config network reason userOp userOp.sender
  | stakedSender (hreason : startsWith reason "AA3")
      (hstaked : isAddressStaked config network userOp.sender = .ok true) :
      Accountable config network reason userOp userOp.sender
  | paymaster {addr : String} (hreason : startsWith reason "AA3")
      (hsender : isAddressStaked config network userOp.sender = .ok false)
      (haddr : userOp.paymaster = some addr) :
      Accountable config network reason userOp addr

theorem accountable_of_findEntityToBan {addr : String}
    (h : findEntityToBan config network reason userOp = .ok (some addr)) :
    Accountable config network reason userOp addr := by
  unfold findEntityToBan at h
  by_cases hAA3 : startsWith reason "AA3"
  · rw [if_pos hAA3] at h
    obtain ⟨staked, hstaked, hentity⟩ := except_bind_eq_ok_iff.mp h
    cases staked with
    | true =>
      obtain rfl : userOp.sender = addr := by simpa [pure, Except.pure] using hentity
      exact Accountable.stakedSender hAA3 hstaked
    | false =>
      have haddr : userOp.paymaster = some addr := by simpa [pure, Except.pure] using hentity
      exact Accountable.paymaster hAA3 hstaked haddr
  rw [if_neg hAA3] at h
  by_cases hAA2 : startsWith reason "AA2"
  · rw [if_pos hAA2] at h
    obtain ⟨staked, hstaked, hentity⟩ := except_bind_eq_ok_iff.mp h
    cases staked with
    | true =>
      have haddr : userOp.factory = some addr := by simpa [pure, Except.pure] using hentity
      refine Accountable.stakedFactory hAA2 haddr ?_
      unfold isFactoryStaked at hstaked
      rwa [haddr] at hstaked
    | false =>
      obtain rfl : userOp.sender = addr := by simpa [pure, Except.pure] using hentity
      exact Accountable.sender hAA2 hstaked
  rw [if_neg hAA2] at h
  by_cases hAA1 : startsWith reason "AA1"
  · rw [if_pos hAA1] at h
    exact Accountable.factory hAA1 (Except.ok.inj h)
  · rw [if_neg hAA1] at h
    cases h

end Blame

section Sending

variable (ethers : EthersFunctions) (config : ProcessorConfig) (network : Network)
  (userOps : List UserOperation)

/-- The first signer gave the bundle to handleOps, with this outcome. -/
def HandledBy (outcome : Except Thrown String) : Prop :=
  ∃ signer beneficiary, config.signers 0 = some signer ∧
    selectBeneficiary config network signer = .ok beneficiary ∧
    handleOps ethers config network userOps signer beneficiary = outcome

/-- The bundle failed, and what was thrown says on which of its operations
and for which reason. -/
def FailedOn (userOp : UserOperation) (reason : String) : Prop :=
  ∃ e opIndex, HandledBy ethers config network userOps (.error e) ∧
    parseFailure network e = .ok (some ⟨some opIndex, some reason⟩) ∧
    userOps[opIndex]? = some userOp

variable {ethers config network userOps}

theorem blamed_of_blameOperation {parsed : ErrorDescription} {res : SendBundleReturnWithSigner}
    (h : blameOperation config network userOps parsed = .ok res) :
    ∃ opIndex userOp reason addressToBan, parsed = ⟨some opIndex, some reason⟩ ∧
      userOps[opIndex]? = some userOp ∧
      findEntityToBan config network reason userOp = .ok addressToBan ∧
      res = ⟨"", [], 0, some ⟨addressToBan, userOp⟩⟩ := by
  obtain ⟨opIndex, reason⟩ := parsed
  unfold blameOperation at h
  cases opIndex with
  | none => cases h
  | some opIndex =>
    cases reason with
    | none =>
      cases hop : userOps[opIndex]? with
      | none => simp [hop] at h
      | some userOp => simp [hop] at h
    | some reason =>
      cases hop : userOps[opIndex]? with
      | none => simp [hop] at h
      | some userOp =>
        simp only [Option.bind_some, hop] at h
        obtain ⟨addressToBan, hfind, hres⟩ := except_bind_eq_ok_iff.mp h
        exact ⟨opIndex, userOp, reason, addressToBan, rfl, hop, hfind, (Except.ok.inj hres).symm⟩

/-- All that sending a bundle can come to: it is sent, nobody is to blame, or
the entity to ban is looked for in the operation it failed on. -/
theorem sendBundle_cases {storageMap : StorageMap} {res : SendBundleReturnWithSigner}
    (h : sendBundle ethers config network userOps storageMap = .ok res) :
    (HandledBy ethers config network userOps (.ok res.transactionHash) ∧
        res.signerIndex = 0 ∧ res.crashedHandleOps = none) ∨
      res = notSent ∨
      ∃ userOp reason addressToBan, FailedOn ethers config network userOps userOp reason ∧
        findEntityToBan config network reason userOp = .ok addressToBan ∧
        res = ⟨"", [], 0, some ⟨addressToBan, userOp⟩⟩ := by
  unfold sendBundle at h
  cases hsigner : config.signers 0 with
  | none =>
    rw [hsigner] at h
    cases h
  | some signer =>
    rw [hsigner] at h
    obtain ⟨beneficiary, hbeneficiary, h⟩ := except_bind_eq_ok_iff.mp h
    cases hhandled : handleOps ethers config network userOps signer beneficiary with
    | ok transactionHash =>
      simp only [hhandled] at h
      cases h
      exact Or.inl ⟨⟨signer, beneficiary, hsigner, hbeneficiary, hhandled⟩, rfl, rfl⟩
    | error e =>
      simp only [hhandled, handleFailure] at h
      refine Or.inr ?_
      cases hparsed : parseFailure network e with
      | error _ =>
        simp only [hparsed] at h
        split at h
        · cases h
        · exact Or.inl (Except.ok.inj h).symm
      | ok parsed =>
        cases parsed with
        | none => simp [hparsed] at h
        | some parsed =>
          simp only [hparsed] at h
          obtain ⟨opIndex, userOp, reason, addressToBan, rfl, hop, hfind, hres⟩ :=
            blamed_of_blameOperation h
          refine Or.inr ⟨userOp, reason, addressToBan, ?_, hfind, hres⟩
          exact ⟨e, opIndex, ⟨signer, beneficiary, hsigner, hbeneficiary, hhandled⟩, hparsed, hop⟩

end Sending

section Attempt

variable (ethers : EthersFunctions) (config : ProcessorConfig) (network : Network)

/-- The operations were pending in the state, in this order. -/
def PendingIn (s : State) (userOps : List UserOperation) : Prop :=
  userOps.Sublist ((allPending s.standardPool).map MempoolEntry.userOp)

/-- A bundle of operations that were pending in a state visited failed on one
of them, and the address is accountable for it. -/
def Blamed (visited : State → Prop) (addr : String) : Prop :=
  ∃ s userOps userOp reason, visited s ∧ PendingIn s userOps ∧
    FailedOn ethers config network userOps userOp reason ∧
    Accountable config network reason userOp addr

/-- A ban, and the removals that go with it, need an accountable address, and
the note of a transaction needs a bundle that was sent in it. -/
def Justified (visited : State → Prop) : Update → Prop
  | .reputation (.crashedHandleOps addr) => Blamed ethers config network visited addr
  | .mempool (.removeUserOpsForBannedAddr opsToRemove) =>
      ∃ s addr, visited s ∧ Blamed ethers config network visited addr ∧
        opsToRemove = s.standardPool.values.filter (spells addr)
  | .mempool (.addBundleTxnConfirmation transactionHash signerIndex) =>
      signerIndex = 0 ∧ ∃ s userOps, visited s ∧ PendingIn s userOps ∧
        HandledBy ethers config network userOps (.ok transactionHash)
  | _ => True

variable {ethers config network} {visited : State → Prop}

/-- The entries were pending in a state visited, in this order. -/
def HandedOut (visited : State → Prop) (entries : List MempoolEntry) : Prop :=
  ∃ s, visited s ∧ entries.Sublist (allPending s.standardPool)

theorem settling_justified : AllowsSettling visited (Justified ethers config network visited) where
  removeUserOp _ := trivial
  updateEntryStatus _ _ _ _ _ := trivial
  updateSeenStatus _ := trivial
  updateIncludedStatus _ := trivial

theorem handOut_pending {select : StandardPool → List MempoolEntry}
    (hselect : ∀ standardPool, (select standardPool).Sublist (allPending standardPool)) :
    (handOut select).Guarantees visited (Justified ethers config network visited) fun r =>
      ∀ entries, r = .ok entries → HandedOut visited entries := by
  intro s hs
  refine ⟨trivial, fun r => ?_⟩
  cases r with
  | error _ => exact nofun
  | ok _ =>
    intro entries hentries
    cases hentries
    exact ⟨s, hs, hselect s.standardPool⟩

/-- What is handed out was pending in one of the states read. -/
theorem getEntries_pending (services : Services) (force : Bool) :
    (getEntries services force).Guarantees visited (Justified ethers config network visited)
      fun r => ∀ entries, r = .ok entries → HandedOut visited entries := by
  intro s hs
  change Program.Guarantees _ _ _ (if s.standardPool.values.length = 0 then pure [] else
    if force then getAllPending else getNextPending services.bundleSize)
  split
  · intro entries hentries
    cases hentries
    exact ⟨s, hs, List.nil_sublist _⟩
  · split
    · exact handOut_pending fun _ => List.Sublist.refl _
    · exact handOut_pending fun _ => List.take_sublist _ _

theorem createBundle_bundled (builder : Builder) (entries : List MempoolEntry)
    (knownSenders : List String) :
    (createBundle builder entries knownSenders).Guarantees visited
      (Justified ethers config network visited) fun r =>
        ∀ ready, r = .ok ready → (bundledEntries ready).Sublist entries := by
  refine (createBundle_answered builder knownSenders entries).mono (fun _ _ => trivial)
    (fun _ h => h.elim) ?_
  intro r hanswered ready hready
  obtain ⟨answered, hentries, hr⟩ := hanswered
  have hkept := listsKept_of_ready (hr.symm.trans hready)
  rw [← hentries]
  exact hkept.bundled

theorem banAddress_justified {addressToBan : Option String}
    (hblamed : ∀ addr, addressToBan = some addr → Blamed ethers config network visited addr) :
    (banAddress addressToBan).Guarantees visited (Justified ethers config network visited)
      fun _ => True := by
  unfold banAddress
  cases haddr : truthy addressToBan with
  | none => exact trivial
  | some addr =>
    have hban := hblamed addr (Option.eq_some_of_filter_eq_some haddr)
    intro s hs
    refine ⟨⟨s, addr, hs, hban, rfl⟩, fun r => ?_⟩
    cases r with
    | ok _ => exact ⟨hban, fun _ => trivial⟩
    | error _ => exact trivial

theorem afterSendBundle_justified {s : State} {userOps : List UserOperation} (hs : visited s)
    (hpending : PendingIn s userOps) {storageMap : StorageMap} {res : SendBundleReturnWithSigner}
    (hres : sendBundle ethers config network userOps storageMap = .ok res) :
    (afterSendBundle res).Guarantees visited (Justified ethers config network visited)
      fun _ => True := by
  unfold afterSendBundle addBundleTxnConfirmation
  rcases sendBundle_cases hres with ⟨hhandled, hsigner, hcrash⟩ | hnone | hblamed
  · rw [hcrash]
    refine Program.Guarantees.seq trivial fun _ => ?_
    split
    · exact trivial
    · exact ⟨⟨hsigner, s, userOps, hs, hpending, hhandled⟩, fun _ => trivial⟩
  · rw [hnone]
    exact trivial
  · obtain ⟨userOp, reason, addressToBan, hfailed, hfind, rfl⟩ := hblamed
    have hban : ∀ addr, addressToBan = some addr → Blamed ethers config network visited addr := by
      intro addr haddr
      rw [haddr] at hfind
      exact ⟨s, userOps, userOp, reason, hs, hpending, hfailed,
        accountable_of_findEntityToBan hfind⟩
    refine Program.Guarantees.seq ((banAddress_justified hban).seq fun _ => ?_) fun _ => trivial
    exact removeUserOp_guarantees (fun _ => trivial) _

theorem sendReady_justified {services : Services} {s : State} {ready : BundleReadyToSend}
    (hs : visited s) (hpending : PendingIn s ready.bundle) :
    (sendReady { services with sendBundle := sendBundle ethers config network } ready).Guarantees
      visited (Justified ethers config network visited) fun _ => True := by
  unfold sendReady
  refine (settling_justified.returnNotIncluded_guarantees _).seq fun _ => ?_
  refine (settling_justified.removeMarked_guarantees _).seq fun _ => ?_
  refine Program.Guarantees.bind
    (Q := fun r => r = sendBundle ethers config network ready.bundle ready.storageMap) rfl ?_
    fun _ _ => trivial
  intro res hres
  exact (afterSendBundle_justified hs hpending hres.symm).seq fun _ => trivial

theorem doAttemptBundle_justified (services : Services) (force : Bool) :
    (doAttemptBundle { services with sendBundle := sendBundle ethers config network }
      force).Guarantees visited (Justified ethers config network visited) fun _ => True := by
  refine (getEntries_pending _ force).bind ?_ fun _ _ => trivial
  intro entries hentries
  obtain ⟨s, hs, hpending⟩ := hentries entries rfl
  unfold attemptWith
  split
  · exact trivial
  · refine (settling_justified.handlePastEvents_guarantees _).seq ?_
    intro _ t _
    refine (createBundle_bundled _ _ _).bind ?_ fun _ _ => trivial
    intro ready hready
    refine sendReady_justified hs ?_
    have hbundled := ((hready ready rfl).trans hpending).map MempoolEntry.userOp
    unfold bundledEntries at hbundled
    rwa [List.map_map] at hbundled

end Attempt

section Runs

/-- The state was passed by the run. -/
def Visited (c : Config State Update JsError) (schedule : List ℕ) (s : State) : Prop :=
  SomeState (Config.step Update.apply) (fun c' => c'.state = s) c schedule

theorem allStates_passed (c : Config State Update JsError) (schedule : List ℕ) :
    AllStates (Config.step Update.apply) (fun c' => Visited c schedule c'.state) c schedule := by
  refine AllStates.imp _ ?_ (allStates_visited (Config.step Update.apply) c schedule)
  intro c' hc'
  obtain ⟨done, rest, hschedule, hlast⟩ := hc'
  exact ⟨done, rest, hschedule, congrArg Config.state hlast⟩

variable {c : Config State Update JsError} {j : ℕ} (ethers : EthersFunctions)
  (config : ProcessorConfig) (network : Network) (services : Services) (force : Bool)

/-- The thread is an attempt that has not begun, with the bundle processor to
send its bundle. -/
def Attempts (c : Config State Update JsError) (j : ℕ) : Prop :=
  c.threads[j]? = some (doAttemptBundle { services with
    sendBundle := sendBundle ethers config network } force).detach

variable {ethers config network services force}

/-- Whatever an attempt is about to do is justified by the states passed. -/
theorem pending_justified (hattempts : Attempts ethers config network services force c j)
    {schedule : List ℕ} {update : Update}
    (hpending : (c.exec Update.apply schedule).pending j = some update) :
    Justified ethers config network (Visited c schedule) update := by
  have hat : (c.exec Update.apply schedule).At j fun p =>
      p.Guarantees (Visited c schedule) (Justified ethers config network (Visited c schedule))
        fun _ => True := by
    refine Config.At.exec_guarantees Update.apply ?_ (allStates_passed c schedule)
    intro p hp
    cases hattempts.symm.trans hp
    exact (doAttemptBundle_justified services force).seq fun _ => trivial
  exact hat.of_pending hpending

/-- Whatever runs besides an attempt, it bans an address, and removes the
operations that spell it, only when a bundle of operations pending in a state
of the run failed on one of them and the address is accountable for that. -/
theorem bans_accountable (hattempts : Attempts ethers config network services force c j)
    (schedule : List ℕ) :
    (∀ addr,
      (c.exec Update.apply schedule).pending j = some (.reputation (.crashedHandleOps addr)) →
        Blamed ethers config network (Visited c schedule) addr) ∧
      ∀ opsToRemove, (c.exec Update.apply schedule).pending j =
          some (.mempool (.removeUserOpsForBannedAddr opsToRemove)) →
        ∃ s addr, Visited c schedule s ∧ Blamed ethers config network (Visited c schedule) addr ∧
          opsToRemove = s.standardPool.values.filter (spells addr) := by
  constructor
  · intro addr hpending
    exact pending_justified hattempts hpending
  · intro opsToRemove hpending
    exact pending_justified hattempts hpending

end Runs

section Concrete

def sponsorOnly : ProcessorConfig := ⟨"base", sponsor, 5, fun _ => some otherAccount, plainConfig⟩

/-- A node that sends whatever it is given. -/
def sendsAll : Network where
  getBalance _ := .ok 10
  populateTransaction _ _ := .ok ⟨sponsor, "0x", none⟩
  getFeeData := .ok ⟨some 1, some 1⟩
  getNonce := .ok 0
  estimateGas _ _ := .ok 21000
  sendTransaction _ := .ok hash₂
  wait transactionHash := .ok transactionHash
  signTransaction _ := .ok "0x"
  sendTransactionToFlashbots _ _ := .ok hash₂
  getUserOpHashes _ := .ok []
  parseError _ := .ok (some ⟨some 0, some "AA24 signature error"⟩)
  getDepositInfo _ := .ok ⟨0, 0⟩

/-- A node on which every first operation is signed wrongly. -/
def failsFirst : Network :=
  { sendsAll with
    estimateGas := fun _ _ => .error { error := .other none none, data := .text "0x220266b6" } }

/-- An attempt for the one pending operation, beside an admission. -/
def attemptOnOne (network : Network) : Config State Update JsError :=
  ⟨run (Operation.perform plainConfig 5) (State.initial [] []) [plainAdd account hash₁],
    [(doAttemptBundle { firstCrashes with
        sendBundle := sendBundle documentedFunctions sponsorOnly network } true).detach,
      (addUserOp plainConfig richDeposits
        (plainParam (plainOp otherAccount 1 10 none none) hash₂)).detach]⟩

theorem attempts_attemptOnOne (network : Network) :
    Attempts documentedFunctions sponsorOnly network firstCrashes true (attemptOnOne network) 0 :=
  rfl

theorem wrong_signature_blamed :
    Blamed documentedFunctions sponsorOnly failsFirst
      (Visited (attemptOnOne failsFirst) [0, 0, 0, 1, 1, 1, 0, 0, 0, 0, 0]) account :=
  (bans_accountable (attempts_attemptOnOne failsFirst) [0, 0, 0, 1, 1, 1, 0, 0, 0, 0, 0]).1 account
    (by decide +kernel)

end Concrete

end Bundler.Accountability
