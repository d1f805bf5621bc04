import Bundler.BundleProcessor
import Bundler.InputParameters

/-!
eth_getUserOperationByHash: the event of the operation leads to its
transaction, and there the operation is looked for by sender and nonce and
unpacked. What was packed into a bundle comes back, but for the letter case,
although the data of the transaction is decoded with addresses spelled anew:
the spelling of the event is the decoder's as well.
-/
namespace Bundler.OperationLookup

open AsyncPrograms ByteStrings DataModel HexStrings MempoolHelper Ethers Packing InputParameters
  BundleProcessor

/-- The arguments of a UserOperationEvent that are read. -/
structure OperationEvent where
  sender : String
  nonce : BigNumberish
  deriving DecidableEq, Repr

structure Transaction where
  toAddress : Option String
  hash : String
  blockHash : Option String
  blockNumber : Option ℕ
  deriving DecidableEq, Repr

/-- A log that was found, with its arguments if it could be decoded, and what
getTransaction answers. -/
structure FoundEvent where
  args : Option OperationEvent
  transaction : Except JsError Transaction

/-- What the node and the decoder answer. A transaction parses as none, too,
when it calls something without ops. -/
structure Network where
  queryFilter : String → Except JsError (List FoundEvent)
  parseTransaction : Transaction → Except JsError (Option (List PackedUserOperation))

structure UserOperationByHashResponse where
  userOperation : UserOperation
  entryPoint : String
  transactionHash : String
  blockHash : String
  blockNumber : ℕ
  deriving DecidableEq, Repr

section Lookup

variable (ethers : EthersFunctions) (entryPointAddress : String) (network : Network)

/-- The first of the events counts, if it could be decoded. -/
def getUserOperationEvent (userOpHash : String) :
    Except JsError (Option (OperationEvent × Except JsError Transaction)) := do
  let events ← network.queryFilter userOpHash
  pure (events.head?.bind fun event => event.args.map fun args => (args, event.transaction))

def lookupError (message : String) : RpcError := ⟨message, -32000, none⟩

def isOperationOf (event : OperationEvent) (op : PackedUserOperation) : Bool :=
  op.sender = event.sender && op.nonce = event.nonce

/-- The operation of the event, in its transaction. -/
def findOperation (event : OperationEvent) (tx : Transaction) :
    Except JsError (Except RpcError UserOperationByHashResponse) :=
  if tx.toAddress ≠ some entryPointAddress then
    .ok (.error (lookupError "unable to parse transaction"))
  else do
    match ← network.parseTransaction tx with
    | none => .ok (.error (lookupError "failed to parse transaction"))
    | some ops =>
        match ops.find? (isOperationOf event) with
        | none => .ok (.error (lookupError "unable to find userOp in transaction"))
        | some op => do
            let userOperation ← unpackUserOp ethers op
            .ok (.ok ⟨userOperation, entryPointAddress, tx.hash, tx.blockHash.getD "",
              tx.blockNumber.getD 0⟩)

/-- None stands for null, which is returned where there is no event. -/
def getUserOperationByHash (userOpHash : String) :
    Except JsError (Option (Except RpcError UserOperationByHashResponse)) :=
  if !matchesHex (.text userOpHash) then
    .ok (some (.error (invalidFields "Missing/invalid userOpHash")))
  else do
    match ← getUserOperationEvent network userOpHash with
    | none => .ok none
    | some (event, transaction) => do
        let tx ← transaction
        let found ← findOperation ethers entryPointAddress network event tx
        .ok (some found)

end Lookup

section Decoding

variable (checksum : List ℕ → String)

/-- Bytes as the decoder gives them, in lower case. -/
def decodedBytes (text : String) : Option String := (getBytes text).map hexString

/-- An address as the decoder spells it. -/
def decodedAddress (text : String) : Option String :=
  ((getBytes text).filter fun bytes => bytes.length = 20).map checksum

/-- A packed operation as it is read back from the data of a transaction. -/
def decoded (packed : PackedUserOperation) : Option PackedUserOperation := do
  let sender ← decodedAddress checksum packed.sender
  let initCode ← decodedBytes packed.initCode
  let callData ← decodedBytes packed.callData
  let accountGasLimits ← decodedBytes packed.accountGasLimits
  let gasFees ← decodedBytes packed.gasFees
  let paymasterAndData ← decodedBytes packed.paymasterAndData
  let signature ← decodedBytes packed.signature
  pure ⟨sender, packed.nonce, initCode, callData, accountGasLimits, packed.preVerificationGas,
    gasFees, paymasterAndData, signature⟩

/-- The spelling of an address is one of its own bytes. -/
def SpellsAddresses (checksum : List ℕ → String) : Prop :=
  ∀ bytes, IsBytes bytes → bytes.length = 20 → getBytes (checksum bytes) = some bytes

variable {checksum}

theorem decodedBytes_eq_some_iff {text text' : String} :
    decodedBytes text = some text' ↔
      ∃ bytes, getBytes text = some bytes ∧ text' = hexString bytes := by
  unfold decodedBytes
  simp [eq_comm]

theorem decodedAddress_eq_some_iff {text text' : String} :
    decodedAddress checksum text = some text' ↔
      ∃ bytes, getBytes text = some bytes ∧ bytes.length = 20 ∧ text' = checksum bytes := by
  unfold decodedAddress
  rw [Option.map_eq_some_iff]
  constructor
  · rintro ⟨bytes, hfilter, rfl⟩
    obtain ⟨hbytes, hlength⟩ := Option.filter_eq_some_iff.mp hfilter
    exact ⟨bytes, hbytes, by simpa using hlength, rfl⟩
  · rintro ⟨bytes, hbytes, hlength, rfl⟩
    exact ⟨bytes, Option.filter_eq_some_iff.mpr ⟨hbytes, by simpa using hlength⟩, rfl⟩

theorem toLowerCase_of_decodedBytes {text text' : String} (h : decodedBytes text = some text') :
    toLowerCase text' = toLowerCase text := by
  obtain ⟨bytes, hbytes, rfl⟩ := decodedBytes_eq_some_iff.mp h
  rw [toLowerCase_of_getBytes hbytes, toLowerCase_hexString (of_getBytes hbytes).1]

theorem toLowerCase_of_decodedAddress (hspells : SpellsAddresses checksum) {text text' : String}
    (h : decodedAddress checksum text = some text') : toLowerCase text' = toLowerCase text := by
  obtain ⟨bytes, hbytes, hlength, rfl⟩ := decodedAddress_eq_some_iff.mp h
  exact toLowerCase_eq (hspells bytes (of_getBytes hbytes).1 hlength) hbytes

/-- What is written as hex is read back as it is. -/
theorem decodedBytes_hexString {bytes : List ℕ} (h : IsBytes bytes) :
    decodedBytes (hexString bytes) = some (hexString bytes) :=
  decodedBytes_eq_some_iff.mpr ⟨bytes, getBytes_hexString h, rfl⟩

end Decoding

section RoundTrip

variable {ethers : EthersFunctions} {checksum : List ℕ → String} {userOp : UserOperation}
  {op : PackedUserOperation}

/-- The operation packed, and read back from a transaction. -/
def readBack (ethers : EthersFunctions) (checksum : List ℕ → String) (userOp : UserOperation) :
    Option PackedUserOperation :=
  (packUserOp ethers userOp).toOption.bind (decoded checksum)

theorem of_readBack (h : readBack ethers checksum userOp = some op) :
    ∃ packed, packUserOp ethers userOp = .ok packed ∧ decoded checksum packed = some op := by
  unfold readBack at h
  cases hpacked : packUserOp ethers userOp with
  | error e =>
    rw [hpacked] at h
    cases h
  | ok packed =>
    rw [hpacked] at h
    exact ⟨packed, rfl, h⟩

/-- The arguments that the event of the operation is decoded with. -/
def EventOf (checksum : List ℕ → String) (userOp : UserOperation) (event : OperationEvent) : Prop :=
  decodedAddress checksum userOp.sender = some event.sender ∧ event.nonce = userOp.nonce

theorem isBytes_of_isInitCode {bytes : List ℕ} (h : IsInitCode userOp bytes) : IsBytes bytes := by
  unfold IsInitCode at h
  cases hfactory : userOp.factory with
  | none =>
    rw [hfactory] at h
    rw [show bytes = [] from h]
    exact nofun
  | some factory =>
    rw [hfactory] at h
    obtain ⟨address, data, haddress, hdata, rfl⟩ := h
    exact isBytes_append.mpr ⟨(of_getBytes haddress).1, (of_getBytes hdata).1⟩

theorem isBytes_of_isPaymasterAndData {bytes : List ℕ} (h : IsPaymasterAndData userOp bytes) :
    IsBytes bytes := by
  unfold IsPaymasterAndData at h
  cases hpaymaster : userOp.paymaster with
  | none =>
    rw [hpaymaster] at h
    rw [show bytes = [] from h]
    exact nofun
  | some paymaster =>
    rw [hpaymaster] at h
    obtain ⟨_, _, address, data, _, _, _, haddress, hdata, rfl⟩ := h
    exact isBytes_append.mpr ⟨(of_getBytes haddress).1,
      isBytes_append.mpr ⟨isBytes_toBytes _ _, (of_getBytes hdata).1⟩⟩

section Parts

variable (hdoc : Ethers.Documented ethers) {text : String}

include hdoc

theorem decodedBytes_packFactory (h : packFactory ethers userOp = .ok text) :
    decodedBytes text = some text := by
  obtain ⟨_, hbytes, rfl⟩ := (packFactory_ok_iff hdoc).mp h
  exact decodedBytes_hexString (isBytes_of_isInitCode hbytes)

theorem decodedBytes_packPaymaster (h : packPaymaster ethers userOp = .ok text) :
    decodedBytes text = some text := by
  obtain ⟨_, hbytes, rfl⟩ := (packPaymaster_ok_iff hdoc).mp h
  exact decodedBytes_hexString (isBytes_of_isPaymasterAndData hbytes)

theorem decodedBytes_packUint {high128 low128 : BigNumberish}
    (h : packUint ethers high128 low128 = .ok text) : decodedBytes text = some text := by
  obtain ⟨_, rfl⟩ := (packUint_ok_iff hdoc).mp h
  exact decodedBytes_hexString (isBytes_toBytes _ _)

end Parts

theorem of_decoded {packed : PackedUserOperation} (h : decoded checksum packed = some op) :
    ∃ sender initCode callData accountGasLimits gasFees paymasterAndData signature,
      decodedAddress checksum packed.sender = some sender ∧
      decodedBytes packed.initCode = some initCode ∧
      decodedBytes packed.callData = some callData ∧
      decodedBytes packed.accountGasLimits = some accountGasLimits ∧
      decodedBytes packed.gasFees = some gasFees ∧
      decodedBytes packed.paymasterAndData = some paymasterAndData ∧
      decodedBytes packed.signature = some signature ∧
      op = ⟨sender, packed.nonce, initCode, callData, accountGasLimits,
        packed.preVerificationGas, gasFees, paymasterAndData, signature⟩ := by
  unfold decoded at h
  obtain ⟨sender, hsender, h⟩ := Option.bind_eq_some_iff.mp h
  obtain ⟨initCode, hinitCode, h⟩ := Option.bind_eq_some_iff.mp h
  obtain ⟨callData, hcallData, h⟩ := Option.bind_eq_some_iff.mp h
  obtain ⟨accountGasLimits, hlimits, h⟩ := Option.bind_eq_some_iff.mp h
  obtain ⟨gasFees, hfees, h⟩ := Option.bind_eq_some_iff.mp h
  obtain ⟨paymasterAndData, hpaymaster, h⟩ := Option.bind_eq_some_iff.mp h
  obtain ⟨signature, hsignature, h⟩ := Option.bind_eq_some_iff.mp h
  exact ⟨_, _, _, _, _, _, _, hsender, hinitCode, hcallData, hlimits, hfees, hpaymaster,
    hsignature, (Option.some.inj h).symm⟩

/-- What packing itself writes is read back unchanged. -/
theorem decoded_packUserOp (hdoc : Ethers.Documented ethers) {packed : PackedUserOperation}
    (hpacked : packUserOp ethers userOp = .ok packed) (hop : decoded checksum packed = some op) :
    ∃ sender callData signature, decodedAddress checksum packed.sender = some sender ∧
      decodedBytes packed.callData = some callData ∧
      decodedBytes packed.signature = some signature ∧
      op = { packed with sender := sender, callData := callData, signature := signature } := by
  obtain ⟨_, _, _, _, hpaymaster, hfactory, hlimits, hfees, rfl⟩ := of_packUserOp hpacked
  obtain ⟨sender, _, callData, _, _, _, signature, hsender, hinitCode', hcallData, hlimits',
    hfees', hpaymaster', hsignature, rfl⟩ := of_decoded hop
  obtain rfl := Option.some.inj ((decodedBytes_packFactory hdoc hfactory).symm.trans hinitCode')
  obtain rfl :=
    Option.some.inj ((decodedBytes_packPaymaster hdoc hpaymaster).symm.trans hpaymaster')
  obtain rfl := Option.some.inj ((decodedBytes_packUint hdoc hlimits).symm.trans hlimits')
  obtain rfl := Option.some.inj ((decodedBytes_packUint hdoc hfees).symm.trans hfees')
  exact ⟨sender, callData, signature, hsender, hcallData, hsignature, rfl⟩

/-- So unpacking finds in it what was packed. -/
theorem unpacks_readBack (hdoc : Ethers.Documented ethers) (hspells : SpellsAddresses checksum)
    (hop : WellFormed userOp) (hstray : NoStrayData userOp)
    (hread : readBack ethers checksum userOp = some op) :
    ∃ back, unpackUserOp ethers op = .ok back ∧ SameOperation back userOp := by
  obtain ⟨packed, hpacked, hdecoded⟩ := of_readBack hread
  obtain ⟨sender, callData, signature, hsender, hcallData, hsignature, rfl⟩ :=
    decoded_packUserOp hdoc hpacked hdecoded
  obtain ⟨packed', back, hpacked', hback, hsame⟩ := (unpacks_iff hdoc hop).mpr hstray
  cases hpacked.symm.trans hpacked'
  obtain ⟨limits, hlimits, h⟩ := except_bind_eq_ok_iff.mp hback
  obtain ⟨fees, hfees, h⟩ := except_bind_eq_ok_iff.mp h
  obtain ⟨factory, hfactory, h⟩ := except_bind_eq_ok_iff.mp h
  obtain ⟨pmData, hpmData, h⟩ := except_bind_eq_ok_iff.mp h
  obtain rfl := Except.ok.inj h
  exact ⟨_, unpackUserOp_eq _ hlimits hfees hfactory hpmData,
    { hsame with
      sender := (toLowerCase_of_decodedAddress hspells hsender).trans hsame.sender
      callData := (toLowerCase_of_decodedBytes hcallData).trans hsame.callData
      signature := (toLowerCase_of_decodedBytes hsignature).trans hsame.signature }⟩

theorem slot_of_readBack (hdoc : Ethers.Documented ethers) (hspells : SpellsAddresses checksum)
    (hread : readBack ethers checksum userOp = some op) :
    (toLowerCase op.sender, op.nonce) = slot userOp := by
  obtain ⟨packed, hpacked, hdecoded⟩ := of_readBack hread
  obtain ⟨sender, callData, signature, hsender, _, _, rfl⟩ :=
    decoded_packUserOp hdoc hpacked hdecoded
  obtain ⟨_, _, _, _, _, _, _, _, rfl⟩ := of_packUserOp hpacked
  exact Prod.ext (toLowerCase_of_decodedAddress hspells hsender) rfl

end RoundTrip

section Found

variable {ethers : EthersFunctions} {checksum : List ℕ → String} {entryPointAddress : String}
  {network : Network} {bundle : List UserOperation} {userOp : UserOperation}
  {event : OperationEvent}

/-- The first event for the hash is the operation's, and its transaction calls
the entry point with the bundle. -/
structure OnChain (ethers : EthersFunctions) (checksum : List ℕ → String)
    (entryPointAddress : String) (network : Network) (bundle : List UserOperation)
    (userOp : UserOperation) (userOpHash : String) (tx : Transaction) : Prop where
  event : ∃ event events, EventOf checksum userOp event ∧
    network.queryFilter userOpHash = .ok (⟨some event, .ok tx⟩ :: events)
  entryPoint : tx.toAddress = some entryPointAddress
  bundled : ∃ ops, network.parseTransaction tx = .ok (some ops) ∧
    bundle.mapM (readBack ethers checksum) = some ops

/-- The decoder spells the sender in the event and in the transaction alike. -/
theorem isOperationOf_readBack (hdoc : Ethers.Documented ethers)
    (hevent : EventOf checksum userOp event) {op : PackedUserOperation}
    (hread : readBack ethers checksum userOp = some op) : isOperationOf event op := by
  obtain ⟨packed, hpacked, hdecoded⟩ := of_readBack hread
  obtain ⟨sender, _, _, hsender, _, _, rfl⟩ := decoded_packUserOp hdoc hpacked hdecoded
  obtain ⟨_, _, _, _, _, _, _, _, rfl⟩ := of_packUserOp hpacked
  obtain ⟨hsender', hnonce⟩ := hevent
  unfold isOperationOf
  simp only [Bool.and_eq_true, decide_eq_true_eq]
  exact ⟨Option.some.inj (hsender.symm.trans hsender'), hnonce.symm⟩

/-- An operation that is read back as the one of the event has its slot. -/
theorem slot_of_isOperationOf (hdoc : Ethers.Documented ethers)
    (hspells : SpellsAddresses checksum) (hevent : EventOf checksum userOp event)
    {other : UserOperation} {op : PackedUserOperation}
    (hread : readBack ethers checksum other = some op)
    (hop : isOperationOf event op) : slot other = slot userOp := by
  obtain ⟨hsender, hnonce⟩ := hevent
  unfold isOperationOf at hop
  simp only [Bool.and_eq_true, decide_eq_true_eq] at hop
  rw [← slot_of_readBack hdoc hspells hread, hop.1, hop.2, hnonce,
    toLowerCase_of_decodedAddress hspells hsender]
  rfl

/-- The first paired value that passes, if only the one of x does. -/
theorem find?_paired {α β : Type} {R : α → β → Prop} {p : β → Bool} {xs : List α} {ys : List β}
    {x : α} (hpairs : List.Forall₂ R xs ys) (hmem : x ∈ xs) (hpass : ∀ y, R x y → p y)
    (honly : ∀ x' ∈ xs, ∀ y, R x' y → p y → x' = x) : ∃ y, ys.find? p = some y ∧ R x y := by
  induction hpairs with
  | nil => cases hmem
  | @cons x' y' _ _ hpair _ ih =>
    by_cases hy : p y'
    · obtain rfl := honly x' List.mem_cons_self y' hpair hy
      exact ⟨y', List.find?_cons_of_pos hy, hpair⟩
    · rw [List.find?_cons_of_neg hy]
      have htail := (List.mem_cons.mp hmem).resolve_left fun h => hy (hpass y' (h ▸ hpair))
      exact ih htail fun x' hx' => honly x' (List.mem_cons_of_mem _ hx')

/-- A bundled operation is found by its hash, where its event is the first for
it: what is returned is the operation, but for the letter case of its hex. -/
theorem sent_operation_found (hdoc : Ethers.Documented ethers) (hspells : SpellsAddresses checksum)
    {userOpHash : String} {tx : Transaction} (hhash : matchesHex (.text userOpHash))
    (hbundle : (bundle.map slot).Nodup) (hmem : userOp ∈ bundle) (hop : WellFormed userOp)
    (hstray : NoStrayData userOp)
    (hchain : OnChain ethers checksum entryPointAddress network bundle userOp userOpHash tx) :
    ∃ back, SameOperation back userOp ∧
      getUserOperationByHash ethers entryPointAddress network userOpHash =
        .ok (some (.ok ⟨back, entryPointAddress, tx.hash, tx.blockHash.getD "",
          tx.blockNumber.getD 0⟩)) := by
  obtain ⟨⟨event, events, hevent, hfilter⟩, hentryPoint, ops, hparse, hops⟩ := hchain
  obtain ⟨op, hfind, hread⟩ := find?_paired (mapM_eq_some_iff.mp hops) hmem
    (fun _ hread => isOperationOf_readBack hdoc hevent hread)
    (fun _ hmem' _ hread hpass => List.inj_on_of_nodup_map hbundle hmem' hmem
      (slot_of_isOperationOf hdoc hspells hevent hread hpass))
  obtain ⟨back, hback, hsame⟩ := unpacks_readBack hdoc hspells hop hstray hread
  refine ⟨back, hsame, ?_⟩
  have hlookup : getUserOperationEvent network userOpHash = .ok (some (event, .ok tx)) := by
    unfold getUserOperationEvent
    rw [hfilter]
    rfl
  have hfound : findOperation ethers entryPointAddress network event tx =
      .ok (.ok ⟨back, entryPointAddress, tx.hash, tx.blockHash.getD "",
        tx.blockNumber.getD 0⟩) := by
    unfold findOperation
    rw [if_neg (not_not.mpr hentryPoint), hparse]
    simp only [Bind.bind, Except.bind, hfind, hback]
  unfold getUserOperationByHash
  rw [hhash, hlookup]
  simp only [Bool.not_true, Bool.false_eq_true, if_false, Bind.bind, Except.bind, hfound]

end Found


section Concrete

/-- Two operations of a bundle, the second from a sender spelled in upper case. -/
def bundled : List UserOperation :=
  [plainOp otherAccount 1 10 none none, plainOp checksummed 7 10 (some sponsor) none]

/-- They are read back with all letters in lower case. -/
def bundledReadBack : List PackedUserOperation :=
  (bundled.mapM (readBack documentedFunctions hexString)).getD []

def bundleTransaction : Transaction := ⟨some otherAccount, hash₁, none, some 12⟩

def bundleNetwork : Network where
  queryFilter _ := .ok [⟨some ⟨account, 7⟩, .ok bundleTransaction⟩]
  parseTransaction _ := .ok (some bundledReadBack)

theorem bundled_onChain :
    OnChain documentedFunctions hexString otherAccount bundleNetwork bundled
      (plainOp checksummed 7 10 (some sponsor) none) hash₂ bundleTransaction where
  event := ⟨_, _, ⟨rfl, rfl⟩, rfl⟩
  entryPoint := rfl
  bundled := ⟨bundledReadBack, rfl, by decide +kernel⟩

theorem bundled_operation_found :
    ∃ back, SameOperation back (plainOp checksummed 7 10 (some sponsor) none) ∧
      getUserOperationByHash documentedFunctions otherAccount bundleNetwork hash₂ =
        .ok (some (.ok ⟨back, otherAccount, hash₁, "", 12⟩)) := by
  have hspells : SpellsAddresses hexString := fun _ hbytes _ => getBytes_hexString hbytes
  have hpaymaster : ∀ paymaster ∈ some sponsor, IsAddress paymaster := by
    rintro _ ⟨⟩
    exact ⟨_, rfl, rfl⟩
  have hpaymasterData : ∀ paymasterData ∈ some "0x", IsByteString paymasterData := by
    rintro _ ⟨⟩
    exact ⟨_, rfl⟩
  have hop : WellFormed (plainOp checksummed 7 10 (some sponsor) none) :=
    { wellFormed_of_account hpaymaster hpaymasterData with sender := ⟨_, rfl, rfl⟩ }
  exact sent_operation_found documentedFunctions_documented hspells (by decide) (by decide +kernel)
    (List.mem_cons_of_mem _ List.mem_cons_self) hop (fun hnone => nomatch hnone) bundled_onChain

end Concrete

end Bundler.OperationLookup
