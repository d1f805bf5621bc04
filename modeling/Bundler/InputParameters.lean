import Bundler.PreVerificationGas

/-!
The check of a request for the mempool: the EntryPoint it names, the fields of
its operation and the price of it. Fields come as text or as numbers. Only some
are checked for hex, and BigInt reads the rest as it can, so a number may also
be decimal, or negative. What passes reads as an operation that is admitted,
and every admitted operation is one that passes.
-/
namespace Bundler.InputParameters

open AsyncPrograms BigIntText ByteStrings DataModel DeepHexlify Ethers HexStrings KeyedRecords
  Packing PreVerificationGas

/-- The value of a field; null stands for undefined too. -/
inductive FieldValue
  | null
  | text (value : String)
  | numeric (n : Numeric)
  deriving DecidableEq

/-- An operation as it is sent. -/
abbrev RawOperation := Record String FieldValue

def field (userOp : RawOperation) (key : String) : FieldValue := (userOp.lookup key).getD .null

def isFalsy : FieldValue → Bool
  | .null => true
  | .text value => value = ""
  | .numeric (.number value) => value = 0
  | .numeric (.bigint value) => value = 0

/-- The digits after 0x, if these are all there is. -/
def hexDigits (text : String) : Option (List Char) :=
  match text.toList with
  | '0' :: x :: digits =>
      if (x = 'x' ∨ x = 'X') ∧ digits.all fun c => (digitValue c).isSome then some digits else none
  | _ => none

/-- Whether toString of a value matches HEX_REGEX; that of a number has no
0x. -/
def matchesHex : FieldValue → Bool
  | .text value => (hexDigits value).isSome
  | _ => false

/-- What an address has to match has ten to forty digits. -/
def matchesAddress (addr : String) : Bool :=
  match hexDigits addr with
  | some digits => 10 ≤ digits.length && digits.length ≤ 40
  | none => false

def invalidFields (message : String) : RpcError where
  message := message
  code := ValidationErrors.invalidFields.code

def requireCond (cond : Prop) [Decidable cond] (msg : String) (code : ValidationErrors) :
    Except JsError PUnit :=
  if cond then .ok () else .error (.rpcError { message := msg, code := code.code })

section Functions

variable (ethers : EthersFunctions) (gasConfig : PreVerificationGasConfig)

-- how a number prints, after it is rounded to one that JavaScript has
variable (numberText : ℚ → String)

def FieldValue.print : FieldValue → String
  | .null => ""
  | .text value => value
  | .numeric (.number value) => numberText value
  | .numeric (.bigint value) => toString value

def requiredFields (requireSignature requireGasParams : Bool) : List String :=
  ["sender", "nonce", "callData"] ++ (if requireSignature then ["signature"] else []) ++
    if requireGasParams then
      ["preVerificationGas", "verificationGasLimit", "callGasLimit", "maxFeePerGas",
        "maxPriorityFeePerGas"]
    else []

def fieldError (userOp : RawOperation) (key : String) : Option RpcError :=
  if isFalsy (field userOp key) then some (invalidFields ("Missing userOp field: " ++ key))
  else if !matchesHex (field userOp key) then
    some (invalidFields ("Invalid hex value for property " ++ key ++ " in UserOp"))
  else none

/-- A number has no match method. -/
def requireAddressAndFields (userOp : RawOperation) (addrField : String)
    (mustFields optionalFields : List String) : Except JsError PUnit :=
  match field userOp addrField with
  | .null =>
      let unexpected := userOp.values.filter fun entry =>
        entry.2 ≠ .null ∧ (entry.1 ∈ mustFields ∨ entry.1 ∈ optionalFields)
      requireCond (unexpected = [])
        ("no " ++ addrField ++ " but got " ++ String.intercalate ","
          (unexpected.map fun entry => entry.1 ++ "," ++ entry.2.print numberText)) .invalidFields
  | .numeric _ => .error .typeError
  | .text addr => do
      requireCond (matchesAddress addr) ("invalid " ++ addrField) .invalidFields
      let missing := mustFields.filter fun name => field userOp name = .null
      requireCond (missing = [])
        ("got " ++ addrField ++ " but missing " ++ String.intercalate "," missing) .invalidFields

/-- BigInt of a value, which throws on a number that is no integer. -/
def readBigInt : FieldValue → Except JsError BigNumberish
  | .null => .error .typeError
  | .text value => toBigInt value
  | .numeric (.number value) => if value.den = 1 then .ok value.num else .error (.other none none)
  | .numeric (.bigint value) => .ok value

/-- Data is text; ethers throws on anything else. -/
def readData : FieldValue → Except JsError String
  | .text value => .ok value
  | _ => .error .typeError

def readOptional {α : Type} (read : FieldValue → Except JsError α) :
    FieldValue → Except JsError (Option α)
  | .null => .ok none
  | value => do
      let a ← read value
      pure (some a)

/-- The operation as packUserOp and the ABI encoding read it. Both throw on
fields that have no reading, if with another error where one of them throws
first. -/
def readOperation (userOp : RawOperation) : Except JsError UserOperation := do
  let paymaster ← readOptional readData (field userOp "paymaster")
  let paymasterVerificationGasLimit ←
    readOptional readBigInt (field userOp "paymasterVerificationGasLimit")
  let paymasterPostOpGasLimit ← readOptional readBigInt (field userOp "paymasterPostOpGasLimit")
  let paymasterData ← readOptional readData (field userOp "paymasterData")
  let factory ← readOptional readData (field userOp "factory")
  let factoryData ← readOptional readData (field userOp "factoryData")
  let verificationGasLimit ← readBigInt (field userOp "verificationGasLimit")
  let callGasLimit ← readBigInt (field userOp "callGasLimit")
  let maxPriorityFeePerGas ← readBigInt (field userOp "maxPriorityFeePerGas")
  let maxFeePerGas ← readBigInt (field userOp "maxFeePerGas")
  let sender ← readData (field userOp "sender")
  let nonce ← readBigInt (field userOp "nonce")
  let callData ← readData (field userOp "callData")
  let preVerificationGas ← readBigInt (field userOp "preVerificationGas")
  let signature ← readData (field userOp "signature")
  pure
    { sender := sender
      nonce := nonce
      factory := factory
      factoryData := factoryData
      callData := callData
      callGasLimit := callGasLimit
      verificationGasLimit := verificationGasLimit
      preVerificationGas := preVerificationGas
      maxFeePerGas := maxFeePerGas
      maxPriorityFeePerGas := maxPriorityFeePerGas
      paymaster := paymaster
      paymasterVerificationGasLimit := paymasterVerificationGasLimit
      paymasterPostOpGasLimit := paymasterPostOpGasLimit
      paymasterData := paymasterData
      signature := signature }

/-- The price is calculated twice; only the second one counts. -/
def requirePreVerificationGas (op : UserOperation) : Except JsError PUnit := do
  let _ ← calcPreVerificationGas ethers gasConfig (asPartial op)
  let report ← validatePreVerificationGas ethers gasConfig op
  requireCond (report.isPreVerificationGasValid = true)
    ("preVerificationGas too low: expected at least " ++
      numberText report.minRequiredPreVerificationGas ++ ", provided only " ++
      numberText op.preVerificationGas ++ ")") .invalidFields

/-- The rules that throw, where the others return their error. -/
def requireOperation (userOp : RawOperation) (preVerificationGasCheck : Bool) :
    Except JsError PUnit := do
  requireAddressAndFields numberText userOp "paymaster"
    ["paymasterPostOpGasLimit", "paymasterVerificationGasLimit"] ["paymasterData"]
  requireAddressAndFields numberText userOp "factory" ["factoryData"] []
  if preVerificationGasCheck then do
    let op ← readOperation userOp
    requirePreVerificationGas ethers gasConfig numberText op
  else pure ()

/-- An operation passes as it is, and the inner error is the one that is
returned. -/
def validateInputParameters (userOp1 : Option RawOperation) (entryPointInput : Option String)
    (entryPointAddress : String)
    (requireSignature requireGasParams preVerificationGasCheck : Bool) :
    Except JsError (Except RpcError RawOperation) :=
  match truthy entryPointInput with
  | none => .ok (.error (invalidFields "No entryPoint param"))
  | some entryPointInput =>
    if toLowerCase entryPointInput ≠ toLowerCase entryPointAddress then
      .ok (.error (invalidFields ("The EntryPoint at \"" ++ entryPointInput ++
        "\" is not supported. This bundler uses " ++ entryPointAddress)))
    else
      match userOp1 with
      | none => .ok (.error (invalidFields "No UserOperation param"))
      | some userOp =>
        match (requiredFields requireSignature requireGasParams).findSome? (fieldError userOp) with
        | some error => .ok (.error error)
        | none => do
            requireOperation ethers gasConfig numberText userOp preVerificationGasCheck
            pure (.ok userOp)

end Functions

section Checks

variable {userOp : RawOperation}

theorem requireCond_ok_iff {cond : Prop} [Decidable cond] {msg : String} {code : ValidationErrors} :
    requireCond cond msg code = .ok () ↔ cond := by
  unfold requireCond
  split
  · exact iff_of_true rfl ‹_›
  · exact iff_of_false nofun ‹_›

/-- Hex is not falsy. -/
theorem fieldError_eq_none_iff {key : String} :
    fieldError userOp key = none ↔ matchesHex (field userOp key) := by
  unfold fieldError
  cases hfalsy : isFalsy (field userOp key) with
  | false => cases matchesHex (field userOp key) <;> simp
  | true =>
    refine iff_of_false nofun fun hhex => ?_
    cases hvalue : field userOp key with
    | null =>
      rw [hvalue] at hhex
      cases hhex
    | numeric n =>
      rw [hvalue] at hhex
      cases hhex
    | text value =>
      rw [hvalue] at hfalsy hhex
      obtain rfl : value = "" := of_decide_eq_true hfalsy
      cases hhex

/-- A field that is not null is an entry. -/
theorem field_eq_iff {key : String} {value : FieldValue} (h : value ≠ .null) :
    field userOp key = value ↔ (key, value) ∈ userOp.values := by
  unfold field Record.lookup
  have hget := userOp.get_eq_some_iff key (key, value)
  constructor
  · intro hvalue
    cases hentry : userOp.get key with
    | none =>
      rw [hentry] at hvalue
      exact absurd hvalue.symm h
    | some entry =>
      rw [hentry] at hvalue
      obtain ⟨hmem, rfl⟩ := (userOp.get_eq_some_iff key entry).mp hentry
      obtain rfl : entry.2 = value := hvalue
      exact hmem
  · intro hmem
    rw [hget.mpr ⟨hmem, rfl⟩]
    rfl

/-- The fields that go with an address are there with it, and only then. -/
def AddressFields (userOp : RawOperation) (addrField : String)
    (mustFields optionalFields : List String) : Prop :=
  match field userOp addrField with
  | .null => ∀ name ∈ mustFields ++ optionalFields, field userOp name = .null
  | .numeric _ => False
  | .text addr => matchesAddress addr ∧ ∀ name ∈ mustFields, field userOp name ≠ .null

theorem requireAddressAndFields_ok_iff {numberText : ℚ → String} {addrField : String}
    {mustFields optionalFields : List String} :
    requireAddressAndFields numberText userOp addrField mustFields optionalFields = .ok () ↔
      AddressFields userOp addrField mustFields optionalFields := by
  unfold requireAddressAndFields AddressFields
  cases field userOp addrField with
  | null =>
    dsimp only
    rw [requireCond_ok_iff, List.filter_eq_nil_iff]
    constructor
    · intro hnone name hname
      by_contra hvalue
      have hmem := (field_eq_iff hvalue).mp rfl
      exact hnone _ hmem (decide_eq_true ⟨hvalue, List.mem_append.mp hname⟩)
    · rintro hnull ⟨name, value⟩ hmem hunexpected
      obtain ⟨hvalue, hname⟩ := of_decide_eq_true hunexpected
      have hfield := (field_eq_iff hvalue).mpr hmem
      exact hvalue (hfield.symm.trans (hnull name (List.mem_append.mpr hname)))
  | numeric n => exact iff_of_false nofun nofun
  | text addr =>
    dsimp only
    rw [except_bind_eq_ok_iff]
    constructor
    · rintro ⟨_, haddr, hmissing⟩
      refine ⟨requireCond_ok_iff.mp haddr, fun name hname hnull => ?_⟩
      have hnil := requireCond_ok_iff.mp hmissing
      exact List.filter_eq_nil_iff.mp hnil name hname (decide_eq_true hnull)
    · rintro ⟨haddr, hmust⟩
      refine ⟨(), requireCond_ok_iff.mpr haddr, requireCond_ok_iff.mpr ?_⟩
      exact List.filter_eq_nil_iff.mpr fun name hname hnull =>
        hmust name hname (of_decide_eq_true hnull)

variable {ethers : EthersFunctions} {gasConfig : PreVerificationGasConfig}
  {numberText : ℚ → String}

/-- The fields of an operation are read one by one. -/
structure Reads (userOp : RawOperation) (op : UserOperation) : Prop where
  paymaster : readOptional readData (field userOp "paymaster") = .ok op.paymaster
  paymasterVerificationGasLimit :
    readOptional readBigInt (field userOp "paymasterVerificationGasLimit") =
      .ok op.paymasterVerificationGasLimit
  paymasterPostOpGasLimit :
    readOptional readBigInt (field userOp "paymasterPostOpGasLimit") =
      .ok op.paymasterPostOpGasLimit
  paymasterData : readOptional readData (field userOp "paymasterData") = .ok op.paymasterData
  factory : readOptional readData (field userOp "factory") = .ok op.factory
  factoryData : readOptional readData (field userOp "factoryData") = .ok op.factoryData
  verificationGasLimit :
    readBigInt (field userOp "verificationGasLimit") = .ok op.verificationGasLimit
  callGasLimit : readBigInt (field userOp "callGasLimit") = .ok op.callGasLimit
  maxPriorityFeePerGas :
    readBigInt (field userOp "maxPriorityFeePerGas") = .ok op.maxPriorityFeePerGas
  maxFeePerGas : readBigInt (field userOp "maxFeePerGas") = .ok op.maxFeePerGas
  sender : readData (field userOp "sender") = .ok op.sender
  nonce : readBigInt (field userOp "nonce") = .ok op.nonce
  callData : readData (field userOp "callData") = .ok op.callData
  preVerificationGas : readBigInt (field userOp "preVerificationGas") = .ok op.preVerificationGas
  signature : readData (field userOp "signature") = .ok op.signature

theorem readOperation_ok_iff {op : UserOperation} :
    readOperation userOp = .ok op ↔ Reads userOp op := by
  unfold readOperation
  constructor
  · intro h
    obtain ⟨_, hpaymaster, h⟩ := except_bind_eq_ok_iff.mp h
    obtain ⟨_, hlimit, h⟩ := except_bind_eq_ok_iff.mp h
    obtain ⟨_, hlimit', h⟩ := except_bind_eq_ok_iff.mp h
    obtain ⟨_, hpaymasterData, h⟩ := except_bind_eq_ok_iff.mp h
    obtain ⟨_, hfactory, h⟩ := except_bind_eq_ok_iff.mp h
    obtain ⟨_, hfactoryData, h⟩ := except_bind_eq_ok_iff.mp h
    obtain ⟨_, hverification, h⟩ := except_bind_eq_ok_iff.mp h
    obtain ⟨_, hcall, h⟩ := except_bind_eq_ok_iff.mp h
    obtain ⟨_, hpriority, h⟩ := except_bind_eq_ok_iff.mp h
    obtain ⟨_, hfee, h⟩ := except_bind_eq_ok_iff.mp h
    obtain ⟨_, hsender, h⟩ := except_bind_eq_ok_iff.mp h
    obtain ⟨_, hnonce, h⟩ := except_bind_eq_ok_iff.mp h
    obtain ⟨_, hcallData, h⟩ := except_bind_eq_ok_iff.mp h
    obtain ⟨_, hgas, h⟩ := except_bind_eq_ok_iff.mp h
    obtain ⟨_, hsignature, h⟩ := except_bind_eq_ok_iff.mp h
    cases h
    exact ⟨hpaymaster, hlimit, hlimit', hpaymasterData, hfactory, hfactoryData, hverification,
      hcall, hpriority, hfee, hsender, hnonce, hcallData, hgas, hsignature⟩
  · intro h
    rw [h.paymaster, h.paymasterVerificationGasLimit, h.paymasterPostOpGasLimit, h.paymasterData,
      h.factory, h.factoryData, h.verificationGasLimit, h.callGasLimit, h.maxPriorityFeePerGas,
      h.maxFeePerGas, h.sender, h.nonce, h.callData, h.preVerificationGas, h.signature]
    rfl

/-- Both calculations return, and the price is paid. -/
def Priced (ethers : EthersFunctions) (gasConfig : PreVerificationGasConfig)
    (op : UserOperation) : Prop :=
  (∃ gas, calcPreVerificationGas ethers gasConfig (asPartial op) = .ok gas) ∧
    ∃ report, validatePreVerificationGas ethers gasConfig op = .ok report ∧
      report.isPreVerificationGasValid = true

theorem requirePreVerificationGas_ok_iff {op : UserOperation} :
    requirePreVerificationGas ethers gasConfig numberText op = .ok () ↔
      Priced ethers gasConfig op := by
  unfold requirePreVerificationGas Priced
  rw [except_bind_eq_ok_iff]
  constructor
  · rintro ⟨gas, hgas, h⟩
    obtain ⟨report, hreport, hvalid⟩ := except_bind_eq_ok_iff.mp h
    exact ⟨⟨gas, hgas⟩, report, hreport, requireCond_ok_iff.mp hvalid⟩
  · rintro ⟨⟨gas, hgas⟩, report, hreport, hvalid⟩
    exact ⟨gas, hgas, except_bind_eq_ok_iff.mpr ⟨report, hreport, requireCond_ok_iff.mpr hvalid⟩⟩

/-- All that the check of an operation for the mempool asks of it. -/
structure Passes (ethers : EthersFunctions) (gasConfig : PreVerificationGasConfig)
    (userOp : RawOperation) : Prop where
  hex : ∀ key ∈ requiredFields true true, matchesHex (field userOp key)
  paymaster : AddressFields userOp "paymaster"
    ["paymasterPostOpGasLimit", "paymasterVerificationGasLimit"] ["paymasterData"]
  factory : AddressFields userOp "factory" ["factoryData"] []
  priced : ∃ op, Reads userOp op ∧ Priced ethers gasConfig op

theorem requireOperation_ok_iff :
    requireOperation ethers gasConfig numberText userOp true = .ok () ↔
      AddressFields userOp "paymaster"
          ["paymasterPostOpGasLimit", "paymasterVerificationGasLimit"] ["paymasterData"] ∧
        AddressFields userOp "factory" ["factoryData"] [] ∧
          ∃ op, Reads userOp op ∧ Priced ethers gasConfig op := by
  unfold requireOperation
  rw [except_bind_eq_ok_iff]
  constructor
  · rintro ⟨_, hpaymaster, h⟩
    obtain ⟨_, hfactory, h⟩ := except_bind_eq_ok_iff.mp h
    obtain ⟨op, hop, hpriced⟩ := except_bind_eq_ok_iff.mp h
    exact ⟨requireAddressAndFields_ok_iff.mp hpaymaster, requireAddressAndFields_ok_iff.mp hfactory,
      op, readOperation_ok_iff.mp hop, requirePreVerificationGas_ok_iff.mp hpriced⟩
  · rintro ⟨hpaymaster, hfactory, op, hop, hpriced⟩
    exact ⟨(), requireAddressAndFields_ok_iff.mpr hpaymaster, except_bind_eq_ok_iff.mpr
      ⟨(), requireAddressAndFields_ok_iff.mpr hfactory, except_bind_eq_ok_iff.mpr
        ⟨op, readOperation_ok_iff.mpr hop, requirePreVerificationGas_ok_iff.mpr hpriced⟩⟩⟩

/-- The mempool takes an operation that names its EntryPoint, in any case, and
passes. -/
theorem validateInputParameters_ok_iff {entryPointInput : Option String}
    {entryPointAddress : String} {accepted : RawOperation} :
    validateInputParameters ethers gasConfig numberText (some userOp) entryPointInput
        entryPointAddress true true true = .ok (.ok accepted) ↔
      (∃ input, truthy entryPointInput = some input ∧
          toLowerCase input = toLowerCase entryPointAddress) ∧
        accepted = userOp ∧ Passes ethers gasConfig userOp := by
  unfold validateInputParameters
  cases truthy entryPointInput with
  | none => exact iff_of_false nofun nofun
  | some input =>
    dsimp only
    by_cases hinput : toLowerCase input = toLowerCase entryPointAddress
    · rw [if_neg (not_not_intro hinput)]
      cases hfields : (requiredFields true true).findSome? (fieldError userOp) with
      | some error =>
        refine iff_of_false nofun ?_
        rintro ⟨_, _, hpasses⟩
        obtain ⟨key, hkey, herror⟩ := List.exists_of_findSome?_eq_some hfields
        rw [fieldError_eq_none_iff.mpr (hpasses.hex key hkey)] at herror
        cases herror
      | none =>
        have hhex := List.findSome?_eq_none_iff.mp hfields
        dsimp only
        rw [except_bind_eq_ok_iff]
        constructor
        · rintro ⟨_, hrequire, hok⟩
          obtain ⟨hpaymaster, hfactory, hpriced⟩ := requireOperation_ok_iff.mp hrequire
          cases hok
          exact ⟨⟨input, rfl, hinput⟩, rfl,
            fun key hkey => fieldError_eq_none_iff.mp (hhex key hkey), hpaymaster, hfactory,
            hpriced⟩
        · rintro ⟨_, rfl, _, hpaymaster, hfactory, hpriced⟩
          exact ⟨(), requireOperation_ok_iff.mpr ⟨hpaymaster, hfactory, hpriced⟩, rfl⟩
    · rw [if_pos hinput]
      refine iff_of_false nofun ?_
      rintro ⟨⟨_, ⟨⟩, hsame⟩, _⟩
      exact hinput hsame

end Checks

section Readings

variable {text : String} {bytes : List ℕ} {value : FieldValue}

theorem readData_ok_iff : readData value = .ok text ↔ value = .text text := by
  cases value with
  | text other =>
    constructor
    · rintro ⟨⟩
      rfl
    · rintro ⟨⟩
      rfl
  | _ => exact iff_of_false nofun nofun

theorem readOptional_none_iff {α : Type} {read : FieldValue → Except JsError α} :
    readOptional read value = .ok none ↔ value = .null := by
  cases value with
  | null => exact iff_of_true rfl rfl
  | _ =>
    refine iff_of_false (fun h => ?_) nofun
    obtain ⟨_, _, hsome⟩ := except_bind_eq_ok_iff.mp h
    cases hsome

theorem readOptional_some_iff {α : Type} {read : FieldValue → Except JsError α} {a : α} :
    readOptional read value = .ok (some a) ↔ value ≠ .null ∧ read value = .ok a := by
  cases value with
  | null => exact iff_of_false nofun fun h => h.1 rfl
  | _ =>
    change (do
      let a ← read _
      pure (some a)) = _ ↔ _
    rw [except_bind_eq_ok_iff]
    constructor
    · rintro ⟨_, hread, ⟨⟩⟩
      exact ⟨nofun, hread⟩
    · rintro ⟨_, hread⟩
      exact ⟨a, hread, rfl⟩

/-- Text of bytes is hex. -/
theorem hexDigits_of_getBytes (h : getBytes text = some bytes) :
    ∃ digits, hexDigits text = some digits ∧ digits.length = 2 * bytes.length := by
  have hlength := length_of_getBytes h
  unfold getBytes at h
  split at h
  · rename_i x digits htext
    split at h
    · rename_i hx
      have hall : digits.all fun c => (digitValue c).isSome :=
        List.all_eq_true.mpr (isSome_of_readDigits h)
      have hdigits : hexDigits text = some digits := by
        unfold hexDigits
        rw [htext]
        exact if_pos ⟨hx, hall⟩
      rw [← String.length_toList, htext, List.length_cons, List.length_cons] at hlength
      exact ⟨digits, hdigits, by omega⟩
    · cases h
  · cases h

theorem matchesAddress_iff (h : getBytes text = some bytes) :
    matchesAddress text ↔ 5 ≤ bytes.length ∧ bytes.length ≤ 20 := by
  obtain ⟨digits, hdigits, hlength⟩ := hexDigits_of_getBytes h
  unfold matchesAddress
  rw [hdigits]
  dsimp only
  rw [Bool.and_eq_true, decide_eq_true_iff, decide_eq_true_iff]
  omega

/-- Hex is no negative number. -/
theorem readBigInt_nonneg {number : ℤ} (hhex : matchesHex value)
    (h : readBigInt value = .ok number) : 0 ≤ number := by
  cases value with
  | text text =>
    change (hexDigits text).isSome = true at hhex
    change toBigInt text = _ at h
    unfold toBigInt at h
    unfold hexDigits at hhex
    split at hhex
    · rename_i htext
      split at h
      · rename_i hnumber
        cases h
        exact bigInt_nonneg htext hnumber
      · cases h
    · cases hhex
  | _ => cases hhex

/-- A number that is no negative one, as hex. -/
def hexValue (number : ℤ) : FieldValue := .text (hexString (shortest number.toNat))

theorem matchesHex_hexValue (number : ℤ) : matchesHex (hexValue number) := by
  obtain ⟨digits, hdigits, _⟩ :=
    hexDigits_of_getBytes (getBytes_hexString (isBytes_shortest number.toNat))
  change (hexDigits _).isSome = true
  rw [hdigits]
  rfl

theorem readBigInt_hexValue {number : ℤ} (h : 0 ≤ number) :
    readBigInt (hexValue number) = .ok number := by
  have hne : shortest number.toNat ≠ [] := by
    unfold shortest
    split
    · exact List.cons_ne_nil _ _
    · exact List.append_ne_nil_of_right_ne_nil _ (List.cons_ne_nil _ _)
  have hnumber := bigInt_hexString (isBytes_shortest number.toNat) hne
  rw [ofBytes_shortest, Int.toNat_of_nonneg h] at hnumber
  change toBigInt _ = _
  unfold toBigInt
  rw [hnumber]

end Readings

section Admission

variable {ethers : EthersFunctions} {gasConfig : PreVerificationGasConfig} {op : UserOperation}

/-- What passes, as it is read. -/
structure Admitted (ethers : EthersFunctions) (gasConfig : PreVerificationGasConfig)
    (op : UserOperation) : Prop where
  sender : (hexDigits op.sender).isSome
  callGasLimit : 0 ≤ op.callGasLimit
  verificationGasLimit : 0 ≤ op.verificationGasLimit
  maxFeePerGas : 0 ≤ op.maxFeePerGas
  maxPriorityFeePerGas : 0 ≤ op.maxPriorityFeePerGas
  paymaster : ∀ paymaster ∈ op.paymaster, matchesAddress paymaster
  noPaymaster : op.paymaster = none → op.paymasterVerificationGasLimit = none ∧
    op.paymasterPostOpGasLimit = none ∧ op.paymasterData = none
  factory : ∀ factory ∈ op.factory, matchesAddress factory
  factoryData_iff : op.factoryData.isSome ↔ op.factory.isSome
  priced : Priced ethers gasConfig op

theorem fieldNames_nodup :
    ["sender", "nonce", "factory", "factoryData", "callData", "callGasLimit",
      "verificationGasLimit", "preVerificationGas", "maxFeePerGas", "maxPriorityFeePerGas",
      "paymaster", "paymasterVerificationGasLimit", "paymasterPostOpGasLimit", "paymasterData",
      "signature"].Nodup := by decide

/-- An operation as text, with decimals where hex is not asked for. -/
def rawOf (op : UserOperation) : RawOperation where
  values :=
    [("sender", .text op.sender), ("nonce", hexValue op.nonce),
      ("factory", op.factory.elim .null .text), ("factoryData", op.factoryData.elim .null .text),
      ("callData", .text op.callData), ("callGasLimit", hexValue op.callGasLimit),
      ("verificationGasLimit", hexValue op.verificationGasLimit),
      ("preVerificationGas", hexValue op.preVerificationGas),
      ("maxFeePerGas", hexValue op.maxFeePerGas),
      ("maxPriorityFeePerGas", hexValue op.maxPriorityFeePerGas),
      ("paymaster", op.paymaster.elim .null .text),
      ("paymasterVerificationGasLimit",
        op.paymasterVerificationGasLimit.elim .null fun limit => .text (decimalText limit)),
      ("paymasterPostOpGasLimit",
        op.paymasterPostOpGasLimit.elim .null fun limit => .text (decimalText limit)),
      ("paymasterData", op.paymasterData.elim .null .text),
      ("signature", .text op.signature)]
  nodup := fieldNames_nodup

theorem encodes_of_priced (hdoc : Documented ethers) (h : Priced ethers gasConfig op) :
    ∃ bytes paymasterAndData signature, Encodes ethers op bytes paymasterAndData ∧
      IsUint256 op.preVerificationGas ∧ getBytes op.signature = some signature := by
  obtain ⟨_, report, hreport, _⟩ := h
  obtain ⟨_, hcalculate, _⟩ := except_bind_eq_ok_iff.mp hreport
  obtain ⟨_, hencoded, _⟩ := except_bind_eq_ok_iff.mp hcalculate
  obtain ⟨bytes, paymasterAndData, hop, hgas, hsignature⟩ := encodes_of_encodedBytes hdoc hencoded
  obtain ⟨signature, hsignature⟩ := Option.isSome_iff_exists.mp hsignature
  exact ⟨bytes, paymasterAndData, signature, hop, hgas, hsignature⟩

/-- The price is that of the bytes. -/
theorem priced_iff (hdoc : Documented ethers) {bytes : OpBytes}
    {paymasterAndData signature : List ℕ} (h : Encodes ethers op bytes paymasterAndData)
    (hgas : IsUint256 op.preVerificationGas) (hsignature : getBytes op.signature = some signature) :
    Priced ethers gasConfig op ↔
      mathRound (exactGas gasConfig
        (encoded bytes op.preVerificationGas.toNat paymasterAndData signature)) ≤
          op.preVerificationGas := by
  have hreport : validatePreVerificationGas ethers gasConfig op = _ :=
    validatePreVerificationGas_eq hdoc h hgas hsignature
  unfold Priced
  rw [hreport]
  constructor
  · rintro ⟨_, _, ⟨⟩, hvalid⟩
    exact of_decide_eq_true hvalid
  · intro hle
    have hfilled : Encodes ethers (fillUserOpWithDummyData ethers gasConfig (asPartial op)) bytes
        (paymasterAndData ++ placeholderData gasConfig op) :=
      ⟨h.sender, h.nonce, h.initCode, h.callData, h.accountGasLimits, h.gasFees,
        (encodes_filled hdoc h).paymasterAndData⟩
    exact ⟨⟨_, calculate_eq hdoc hfilled hgas hsignature⟩, _, rfl, decide_eq_true hle⟩

/-- What is written is read back. -/
theorem reads_rawOf (hnonce : 0 ≤ op.nonce) (hgas : 0 ≤ op.preVerificationGas)
    (h : Admitted ethers gasConfig op) : Reads (rawOf op) op := by
  have htext (text : Option String) :
      readOptional readData (text.elim .null .text) = .ok text := by
    cases text with
    | none => rfl
    | some text => rfl
  have hlimit (limit : Option ℤ) :
      readOptional readBigInt (limit.elim .null fun limit => .text (decimalText limit)) =
        .ok limit := by
    cases limit with
    | none => rfl
    | some limit =>
      refine readOptional_some_iff.mpr ⟨nofun, ?_⟩
      change toBigInt (decimalText limit) = _
      unfold toBigInt
      rw [bigInt_decimalText]
  exact
    { paymaster := htext op.paymaster
      paymasterVerificationGasLimit := hlimit op.paymasterVerificationGasLimit
      paymasterPostOpGasLimit := hlimit op.paymasterPostOpGasLimit
      paymasterData := htext op.paymasterData
      factory := htext op.factory
      factoryData := htext op.factoryData
      verificationGasLimit := readBigInt_hexValue h.verificationGasLimit
      callGasLimit := readBigInt_hexValue h.callGasLimit
      maxPriorityFeePerGas := readBigInt_hexValue h.maxPriorityFeePerGas
      maxFeePerGas := readBigInt_hexValue h.maxFeePerGas
      sender := rfl
      nonce := readBigInt_hexValue hnonce
      callData := rfl
      preVerificationGas := readBigInt_hexValue hgas
      signature := rfl }

theorem addressFields_paymaster (hbytes : ∃ bytes, IsPaymasterAndData op bytes)
    (h : Admitted ethers gasConfig op) :
    AddressFields (rawOf op) "paymaster"
      ["paymasterPostOpGasLimit", "paymasterVerificationGasLimit"] ["paymasterData"] := by
  have hfield : field (rawOf op) "paymaster" = op.paymaster.elim .null .text := rfl
  have hlimit : field (rawOf op) "paymasterPostOpGasLimit" =
    op.paymasterPostOpGasLimit.elim .null fun limit => .text (decimalText limit) := rfl
  have hlimit' : field (rawOf op) "paymasterVerificationGasLimit" =
    op.paymasterVerificationGasLimit.elim .null fun limit => .text (decimalText limit) := rfl
  have hdata : field (rawOf op) "paymasterData" = op.paymasterData.elim .null .text := rfl
  unfold AddressFields
  rw [hfield]
  cases hpaymaster : op.paymaster with
  | none =>
    obtain ⟨hverification, hpostOp, hnone⟩ := h.noPaymaster hpaymaster
    rw [hpostOp] at hlimit
    rw [hverification] at hlimit'
    rw [hnone] at hdata
    exact List.forall_mem_cons.mpr ⟨hlimit, List.forall_mem_cons.mpr ⟨hlimit',
      List.forall_mem_singleton.mpr hdata⟩⟩
  | some paymaster =>
    obtain ⟨_, hbytes⟩ := hbytes
    unfold IsPaymasterAndData at hbytes
    rw [hpaymaster] at hbytes
    obtain ⟨_, _, _, _, hverification, hpostOp, _⟩ := hbytes
    rw [hpostOp] at hlimit
    rw [hverification] at hlimit'
    refine ⟨h.paymaster paymaster hpaymaster, List.forall_mem_cons.mpr ⟨?_,
      List.forall_mem_singleton.mpr ?_⟩⟩
    · rw [hlimit]
      exact nofun
    · rw [hlimit']
      exact nofun

theorem addressFields_factory (h : Admitted ethers gasConfig op) :
    AddressFields (rawOf op) "factory" ["factoryData"] [] := by
  have hfield : field (rawOf op) "factory" = op.factory.elim .null .text := rfl
  have hdata : field (rawOf op) "factoryData" = op.factoryData.elim .null .text := rfl
  have hboth := h.factoryData_iff
  unfold AddressFields
  rw [hfield]
  cases hfactory : op.factory with
  | none =>
    rw [hfactory] at hboth
    have hnone : op.factoryData = none := by simpa using hboth
    rw [hnone] at hdata
    exact List.forall_mem_singleton.mpr hdata
  | some factory =>
    rw [hfactory] at hboth
    obtain ⟨factoryData, hfactoryData⟩ := Option.isSome_iff_exists.mp (hboth.mpr rfl)
    rw [hfactoryData] at hdata
    refine ⟨h.factory factory hfactory, List.forall_mem_singleton.mpr ?_⟩
    rw [hdata]
    exact nofun

/-- Every admitted operation is the reading of one that passes. -/
theorem passes_rawOf (hdoc : Documented ethers) (h : Admitted ethers gasConfig op) :
    Passes ethers gasConfig (rawOf op) ∧ Reads (rawOf op) op := by
  obtain ⟨bytes, paymasterAndData, signature, hop, hgas, hsignature⟩ :=
    encodes_of_priced hdoc h.priced
  have hreads := reads_rawOf hop.nonce.1.1 hgas.1 h
  have htext {text : String} {bytes : List ℕ} (hbytes : getBytes text = some bytes) :
      matchesHex (.text text) := by
    obtain ⟨digits, hdigits, _⟩ := hexDigits_of_getBytes hbytes
    change (hexDigits text).isSome = true
    rw [hdigits]
    rfl
  have hhex : ∀ key ∈ requiredFields true true, matchesHex (field (rawOf op) key) :=
    List.forall_mem_cons.mpr ⟨h.sender, List.forall_mem_cons.mpr ⟨matchesHex_hexValue op.nonce,
      List.forall_mem_cons.mpr ⟨htext hop.callData, List.forall_mem_cons.mpr ⟨htext hsignature,
      List.forall_mem_cons.mpr ⟨matchesHex_hexValue op.preVerificationGas,
      List.forall_mem_cons.mpr ⟨matchesHex_hexValue op.verificationGasLimit,
      List.forall_mem_cons.mpr ⟨matchesHex_hexValue op.callGasLimit,
      List.forall_mem_cons.mpr ⟨matchesHex_hexValue op.maxFeePerGas,
      List.forall_mem_singleton.mpr (matchesHex_hexValue op.maxPriorityFeePerGas)⟩⟩⟩⟩⟩⟩⟩⟩
  exact ⟨⟨hhex, addressFields_paymaster ⟨_, hop.paymasterAndData⟩ h, addressFields_factory h, op,
    hreads, h.priced⟩, hreads⟩

theorem reads_unique {userOp : RawOperation} {other : UserOperation} (h : Reads userOp op)
    (hother : Reads userOp other) : op = other :=
  Except.ok.inj ((readOperation_ok_iff.mpr h).symm.trans (readOperation_ok_iff.mpr hother))

/-- Without an address there is nothing that goes with it. -/
theorem addressFields_none {userOp : RawOperation} {addrField : String}
    {mustFields optionalFields : List String}
    (h : AddressFields userOp addrField mustFields optionalFields)
    (hread : readOptional readData (field userOp addrField) = .ok none) :
    ∀ name ∈ mustFields ++ optionalFields, field userOp name = .null := by
  unfold AddressFields at h
  rw [readOptional_none_iff.mp hread] at h
  exact h

theorem addressFields_some {userOp : RawOperation} {addrField addr : String}
    {mustFields optionalFields : List String}
    (h : AddressFields userOp addrField mustFields optionalFields)
    (hread : readOptional readData (field userOp addrField) = .ok (some addr)) :
    matchesAddress addr ∧ ∀ name ∈ mustFields, field userOp name ≠ .null := by
  unfold AddressFields at h
  rw [readData_ok_iff.mp (readOptional_some_iff.mp hread).2] at h
  exact h

/-- A field that is null is read as none. -/
theorem eq_none_of_null {α : Type} {read : FieldValue → Except JsError α} {value : FieldValue}
    {a : Option α} (hnull : value = .null) (hread : readOptional read value = .ok a) :
    a = none := by
  rw [hnull] at hread
  exact (Except.ok.inj hread).symm

/-- What passes reads as an admitted operation. -/
theorem admitted_of_passes {userOp : RawOperation} (h : Passes ethers gasConfig userOp)
    (hreads : Reads userOp op) : Admitted ethers gasConfig op := by
  obtain ⟨hhex, hpaymaster, hfactory, _, hreads', hpriced⟩ := h
  obtain rfl := reads_unique hreads hreads'
  have hnumber {key : String} {number : ℤ} (hkey : key ∈ requiredFields true true)
      (hread : readBigInt (field userOp key) = .ok number) : 0 ≤ number :=
    readBigInt_nonneg (hhex key hkey) hread
  have hsender := hhex "sender" (by decide)
  rw [readData_ok_iff.mp hreads.sender] at hsender
  exact
    { sender := hsender
      callGasLimit := hnumber (by decide) hreads.callGasLimit
      verificationGasLimit := hnumber (by decide) hreads.verificationGasLimit
      maxFeePerGas := hnumber (by decide) hreads.maxFeePerGas
      maxPriorityFeePerGas := hnumber (by decide) hreads.maxPriorityFeePerGas
      paymaster := fun paymaster hmem =>
        (addressFields_some hpaymaster (hreads.paymaster.trans (congrArg _ hmem))).1
      noPaymaster := by
        intro hnone
        have hnull := addressFields_none hpaymaster (hreads.paymaster.trans (congrArg _ hnone))
        exact ⟨eq_none_of_null (hnull _ (by simp)) hreads.paymasterVerificationGasLimit,
          eq_none_of_null (hnull _ (by simp)) hreads.paymasterPostOpGasLimit,
          eq_none_of_null (hnull _ (by simp)) hreads.paymasterData⟩
      factory := fun factory hmem =>
        (addressFields_some hfactory (hreads.factory.trans (congrArg _ hmem))).1
      factoryData_iff := by
        cases hop : op.factory with
        | none =>
          have hnull := addressFields_none hfactory (hreads.factory.trans (congrArg _ hop))
          rw [eq_none_of_null (hnull _ (by simp)) hreads.factoryData]
        | some factory =>
          have hmust := (addressFields_some hfactory (hreads.factory.trans (congrArg _ hop))).2
          refine iff_of_true (Option.isSome_iff_ne_none.mpr fun hnone => ?_) rfl
          have hnull := readOptional_none_iff.mp (hreads.factoryData.trans (congrArg _ hnone))
          exact hmust _ (by simp) hnull
      priced := hpriced }

end Admission

end Bundler.InputParameters
