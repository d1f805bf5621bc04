import Bundler.InputParameters

/-!
When two operations that pass the check are packed to one. Nothing bounds the
halves of a word, so one unit of the high half may stand for 2 ^ 128 of the low
one, and nothing fixes the length of an address, so its last bytes may as well
begin the data. Operations that keep their halves and lengths are told apart.
-/
namespace Bundler.PackedCollisions

open AsyncPrograms ByteStrings DataModel DeepHexlify Ethers HexStrings InputParameters Packing
  PreVerificationGas

def PackedAlike (ethers : EthersFunctions) (op other : UserOperation) : Prop :=
  ∃ packed packed', packUserOp ethers op = .ok packed ∧ packUserOp ethers other = .ok packed' ∧
    SamePacked packed packed'

/-- What nothing else that is admitted is packed like: its words have no high
halves, and its factory is as short as one may be. -/
structure Unambiguous (op : UserOperation) : Prop where
  verificationGasLimit : op.verificationGasLimit = 0
  callGasLimit : op.callGasLimit < 2 ^ 128
  maxPriorityFeePerGas : op.maxPriorityFeePerGas = 0
  maxFeePerGas : op.maxFeePerGas < 2 ^ 128
  paymaster : op.paymaster = none
  factory : ∀ factory ∈ op.factory, factory.length = 12 ∧ (op.factoryData.getD "").length = 2

/-- The halves fit, and addresses have twenty bytes. -/
structure InRange (op : UserOperation) : Prop where
  callGasLimit : op.callGasLimit < 2 ^ 128
  verificationGasLimit : op.verificationGasLimit < 2 ^ 128
  maxFeePerGas : op.maxFeePerGas < 2 ^ 128
  maxPriorityFeePerGas : op.maxPriorityFeePerGas < 2 ^ 128
  paymaster : ∀ paymaster ∈ op.paymaster, paymaster.length = 42
  verificationLimit : ∀ limit ∈ op.paymasterVerificationGasLimit, Below128 limit
  postOpLimit : ∀ limit ∈ op.paymasterPostOpGasLimit, Below128 limit
  factory : ∀ factory ∈ op.factory, factory.length = 42

section Parts

variable {ethers : EthersFunctions} {gasConfig : PreVerificationGasConfig}
  {op other : UserOperation}

/-- What two operations that are packed alike have in common. -/
structure SameParts (op other : UserOperation) : Prop where
  sender : toLowerCase op.sender = toLowerCase other.sender
  nonce : op.nonce = other.nonce
  initCode : ∃ initCode, IsInitCode op initCode ∧ IsInitCode other initCode
  callData : toLowerCase op.callData = toLowerCase other.callData
  accountGasLimits : op.verificationGasLimit * 2 ^ 128 + op.callGasLimit =
    other.verificationGasLimit * 2 ^ 128 + other.callGasLimit
  preVerificationGas : op.preVerificationGas = other.preVerificationGas
  gasFees : op.maxPriorityFeePerGas * 2 ^ 128 + op.maxFeePerGas =
    other.maxPriorityFeePerGas * 2 ^ 128 + other.maxFeePerGas
  paymasterAndData : ∃ paymasterAndData,
    IsPaymasterAndData op paymasterAndData ∧ IsPaymasterAndData other paymasterAndData
  signature : toLowerCase op.signature = toLowerCase other.signature

theorem sameParts_of_packedAlike (hdoc : Documented ethers) (hop : Admitted ethers gasConfig op)
    (hother : Admitted ethers gasConfig other) (halike : PackedAlike ethers op other) :
    SameParts op other := by
  obtain ⟨bytes, paymasterAndData, _, h, _⟩ := encodes_of_priced hdoc hop.priced
  obtain ⟨bytes', paymasterAndData', _, h', _⟩ := encodes_of_priced hdoc hother.priced
  obtain ⟨packed, packed', hpacked, hpacked', hsame⟩ := halike
  rw [packUserOp_of_encodes hdoc h] at hpacked
  rw [packUserOp_of_encodes hdoc h'] at hpacked'
  cases hpacked
  cases hpacked'
  have hbytes {part part' : List ℕ} (hpart : IsBytes part) (hpart' : IsBytes part')
      (hlower : toLowerCase (hexString part) = toLowerCase (hexString part')) : part = part' := by
    rw [toLowerCase_hexString hpart, toLowerCase_hexString hpart'] at hlower
    exact (hexString_inj hpart hpart').mp hlower
  have hword (high128 low128 : ℤ) : IsBytes (wordOf high128 low128) := isBytes_toBytes _ _
  have hinitCode := hbytes (isBytes_initCode h.initCode) (isBytes_initCode h'.initCode)
    hsame.initCode
  have hpaymaster := hbytes (isBytes_paymasterAndData h.paymasterAndData)
    (isBytes_paymasterAndData h'.paymasterAndData) hsame.paymasterAndData
  exact
    { sender := hsame.sender
      nonce := hsame.nonce
      initCode := ⟨bytes.initCode, h.initCode, hinitCode ▸ h'.initCode⟩
      callData := hsame.callData
      accountGasLimits := wordOf_inj h.accountGasLimits.1 h'.accountGasLimits.1
        (hbytes (hword _ _) (hword _ _) hsame.accountGasLimits)
      preVerificationGas := hsame.preVerificationGas
      gasFees := wordOf_inj h.gasFees.1 h'.gasFees.1 (hbytes (hword _ _) (hword _ _) hsame.gasFees)
      paymasterAndData := ⟨paymasterAndData, h.paymasterAndData, hpaymaster ▸ h'.paymasterAndData⟩
      signature := hsame.signature }

/-- An admitted factory has an initCode that says so. -/
theorem initCode_of_factory (hop : Admitted ethers gasConfig op) {factory : String}
    (hfactory : op.factory = some factory) {initCode : List ℕ} (h : IsInitCode op initCode) :
    ∃ factoryData address data, op.factoryData = some factoryData ∧
      getBytes factory = some address ∧ getBytes factoryData = some data ∧
      initCode = address ++ data ∧ 5 ≤ address.length ∧ address.length ≤ 20 := by
  have hboth := hop.factoryData_iff
  rw [hfactory] at hboth
  obtain ⟨factoryData, hfactoryData⟩ := Option.isSome_iff_exists.mp (hboth.mpr rfl)
  unfold IsInitCode at h
  rw [hfactory, hfactoryData] at h
  obtain ⟨address, data, haddress, hdata, rfl⟩ := h
  obtain ⟨hlow, hhigh⟩ := (matchesAddress_iff haddress).mp (hop.factory factory hfactory)
  exact ⟨factoryData, address, data, hfactoryData, haddress, hdata, rfl, hlow, hhigh⟩

theorem initCode_of_none (hop : Admitted ethers gasConfig op) (hfactory : op.factory = none)
    {initCode : List ℕ} (h : IsInitCode op initCode) : initCode = [] ∧ op.factoryData = none := by
  have hboth := hop.factoryData_iff
  rw [hfactory] at hboth
  unfold IsInitCode at h
  rw [hfactory] at h
  exact ⟨h, by simpa using hboth⟩

/-- Factories of one length are read off the initCode. -/
theorem same_factory (hop : Admitted ethers gasConfig op) (hother : Admitted ethers gasConfig other)
    {initCode : List ℕ} (h : IsInitCode op initCode) (h' : IsInitCode other initCode)
    (hlength : ∀ factory ∈ op.factory, ∀ factory' ∈ other.factory,
      factory.length = factory'.length) :
    op.factory.map toLowerCase = other.factory.map toLowerCase ∧
      op.factoryData.map toLowerCase = other.factoryData.map toLowerCase := by
  cases hfactory : op.factory with
  | none =>
    obtain ⟨rfl, hnone⟩ := initCode_of_none hop hfactory h
    cases hfactory' : other.factory with
    | none =>
      obtain ⟨_, hnone'⟩ := initCode_of_none hother hfactory' h'
      rw [hnone, hnone']
      exact ⟨rfl, rfl⟩
    | some factory' =>
      obtain ⟨_, address, _, _, _, _, hnil, hlow, _⟩ := initCode_of_factory hother hfactory' h'
      obtain rfl := (List.append_eq_nil_iff.mp hnil.symm).1
      exact absurd hlow (by decide)
  | some factory =>
    obtain ⟨factoryData, address, data, hdata, haddress, hbytes, rfl, hlow, _⟩ :=
      initCode_of_factory hop hfactory h
    cases hfactory' : other.factory with
    | none =>
      obtain ⟨hnil, _⟩ := initCode_of_none hother hfactory' h'
      obtain rfl := (List.append_eq_nil_iff.mp hnil).1
      exact absurd hlow (by decide)
    | some factory' =>
      obtain ⟨factoryData', address', data', hdata', haddress', hbytes', happend, _⟩ :=
        initCode_of_factory hother hfactory' h'
      have htext := hlength factory hfactory factory' hfactory'
      have haddresses := length_of_getBytes haddress
      have haddresses' := length_of_getBytes haddress'
      obtain ⟨rfl, rfl⟩ := List.append_inj happend (by omega)
      rw [hdata, hdata']
      exact ⟨congrArg some (toLowerCase_eq haddress haddress'),
        congrArg some (toLowerCase_eq hbytes hbytes')⟩

/-- The limits of a paymaster fit their halves. -/
def LimitsFit (op : UserOperation) : Prop :=
  (∀ limit ∈ op.paymasterVerificationGasLimit, Below128 limit) ∧
    ∀ limit ∈ op.paymasterPostOpGasLimit, Below128 limit

theorem paymasterAndData_of_none (hop : Admitted ethers gasConfig op)
    (hpaymaster : op.paymaster = none) {paymasterAndData : List ℕ}
    (h : IsPaymasterAndData op paymasterAndData) :
    paymasterAndData = [] ∧ op.paymasterVerificationGasLimit = none ∧
      op.paymasterPostOpGasLimit = none ∧ op.paymasterData = none := by
  unfold IsPaymasterAndData at h
  rw [hpaymaster] at h
  exact ⟨h, hop.noPaymaster hpaymaster⟩

/-- With a paymaster, there is a word for its limits at least. -/
theorem paymasterAndData_ne_nil {paymaster : String} (hpaymaster : op.paymaster = some paymaster)
    {paymasterAndData : List ℕ} (h : IsPaymasterAndData op paymasterAndData) :
    paymasterAndData ≠ [] := by
  unfold IsPaymasterAndData at h
  rw [hpaymaster] at h
  obtain ⟨verificationLimit, postOpLimit, _, _, _, _, _, _, _, rfl⟩ := h
  intro hnil
  have hword := (List.append_eq_nil_iff.mp (List.append_eq_nil_iff.mp hnil).2).1
  have hlength := length_wordOf verificationLimit postOpLimit
  rw [hword] at hlength
  cases hlength

structure SamePaymaster (op other : UserOperation) : Prop where
  paymaster : op.paymaster.map toLowerCase = other.paymaster.map toLowerCase
  paymasterVerificationGasLimit :
    op.paymasterVerificationGasLimit = other.paymasterVerificationGasLimit
  paymasterPostOpGasLimit : op.paymasterPostOpGasLimit = other.paymasterPostOpGasLimit
  paymasterData : toLowerCase (op.paymasterData.getD "0x") =
    toLowerCase (other.paymasterData.getD "0x")

/-- Paymasters of one length whose limits fit are read off too. -/
theorem same_paymaster (hop : Admitted ethers gasConfig op)
    (hother : Admitted ethers gasConfig other) {paymasterAndData : List ℕ}
    (h : IsPaymasterAndData op paymasterAndData) (h' : IsPaymasterAndData other paymasterAndData)
    (hrange : ∀ paymaster ∈ op.paymaster, ∀ paymaster' ∈ other.paymaster,
      paymaster.length = paymaster'.length ∧ LimitsFit op ∧ LimitsFit other) :
    SamePaymaster op other := by
  cases hpaymaster : op.paymaster with
  | none =>
    obtain ⟨rfl, hlimit, hlimit', hdata⟩ := paymasterAndData_of_none hop hpaymaster h
    cases hpaymaster' : other.paymaster with
    | none =>
      obtain ⟨_, hotherLimit, hotherLimit', hotherData⟩ :=
        paymasterAndData_of_none hother hpaymaster' h'
      exact
        { paymaster := by rw [hpaymaster, hpaymaster']
          paymasterVerificationGasLimit := hlimit.trans hotherLimit.symm
          paymasterPostOpGasLimit := hlimit'.trans hotherLimit'.symm
          paymasterData := by rw [hdata, hotherData] }
    | some paymaster' => exact absurd rfl (paymasterAndData_ne_nil hpaymaster' h')
  | some paymaster =>
    cases hpaymaster' : other.paymaster with
    | none =>
      obtain ⟨rfl, _⟩ := paymasterAndData_of_none hother hpaymaster' h'
      exact absurd rfl (paymasterAndData_ne_nil hpaymaster h)
    | some paymaster' =>
      obtain ⟨hlength, hfit, hfit'⟩ := hrange paymaster hpaymaster paymaster' hpaymaster'
      unfold IsPaymasterAndData at h h'
      rw [hpaymaster] at h
      rw [hpaymaster'] at h'
      obtain ⟨high, low, address, data, hhigh, hlow, hword, haddress, hdata, rfl⟩ := h
      obtain ⟨high', low', address', data', hhigh', hlow', hword', haddress', hdata', happend⟩ := h'
      have haddresses := length_of_getBytes haddress
      have haddresses' := length_of_getBytes haddress'
      obtain ⟨rfl, hrest⟩ := List.append_inj happend (by omega)
      have hlengths := (length_wordOf high low).trans (length_wordOf high' low').symm
      obtain ⟨hwords, rfl⟩ := List.append_inj hrest hlengths
      obtain ⟨rfl, rfl⟩ := halves_inj (hfit.1 high hhigh) (hfit.2 low hlow) (hfit'.1 high' hhigh')
        (hfit'.2 low' hlow') (wordOf_inj hword hword' hwords)
      exact
        { paymaster := by
            rw [hpaymaster, hpaymaster']
            exact congrArg some (toLowerCase_eq haddress haddress')
          paymasterVerificationGasLimit := hhigh.trans hhigh'.symm
          paymasterPostOpGasLimit := hlow.trans hlow'.symm
          paymasterData := toLowerCase_eq hdata hdata' }

/-- The rest is put together from the words. -/
theorem sameOperation_of_parts (h : SameParts op other)
    (hlimits : op.verificationGasLimit = other.verificationGasLimit ∧
      op.callGasLimit = other.callGasLimit)
    (hfees : op.maxPriorityFeePerGas = other.maxPriorityFeePerGas ∧
      op.maxFeePerGas = other.maxFeePerGas)
    (hfactory : op.factory.map toLowerCase = other.factory.map toLowerCase ∧
      op.factoryData.map toLowerCase = other.factoryData.map toLowerCase)
    (hpaymaster : SamePaymaster op other) : SameOperation op other where
  sender := h.sender
  nonce := h.nonce
  factory := hfactory.1
  factoryData := hfactory.2
  callData := h.callData
  callGasLimit := hlimits.2
  verificationGasLimit := hlimits.1
  preVerificationGas := h.preVerificationGas
  maxFeePerGas := hfees.2
  maxPriorityFeePerGas := hfees.1
  paymaster := hpaymaster.paymaster
  paymasterVerificationGasLimit := hpaymaster.paymasterVerificationGasLimit
  paymasterPostOpGasLimit := hpaymaster.paymasterPostOpGasLimit
  paymasterData := hpaymaster.paymasterData
  signature := h.signature

theorem same_of_inRange (hdoc : Documented ethers) (hop : Admitted ethers gasConfig op)
    (hother : Admitted ethers gasConfig other) (h : InRange op) (h' : InRange other)
    (halike : PackedAlike ethers op other) : SameOperation op other := by
  have hparts := sameParts_of_packedAlike hdoc hop hother halike
  obtain ⟨_, hinit, hinit'⟩ := hparts.initCode
  obtain ⟨_, hpaymaster, hpaymaster'⟩ := hparts.paymasterAndData
  have hlimits := halves_inj ⟨hop.verificationGasLimit, h.verificationGasLimit⟩
    ⟨hop.callGasLimit, h.callGasLimit⟩ ⟨hother.verificationGasLimit, h'.verificationGasLimit⟩
    ⟨hother.callGasLimit, h'.callGasLimit⟩ hparts.accountGasLimits
  have hfees := halves_inj ⟨hop.maxPriorityFeePerGas, h.maxPriorityFeePerGas⟩
    ⟨hop.maxFeePerGas, h.maxFeePerGas⟩ ⟨hother.maxPriorityFeePerGas, h'.maxPriorityFeePerGas⟩
    ⟨hother.maxFeePerGas, h'.maxFeePerGas⟩ hparts.gasFees
  refine sameOperation_of_parts hparts hlimits hfees
    (same_factory hop hother hinit hinit' ?_) (same_paymaster hop hother hpaymaster hpaymaster' ?_)
  · intro factory hfactory factory' hfactory'
    rw [h.factory factory hfactory, h'.factory factory' hfactory']
  · intro paymaster hmem paymaster' hmem'
    rw [h.paymaster paymaster hmem, h'.paymaster paymaster' hmem']
    exact ⟨rfl, ⟨h.verificationLimit, h.postOpLimit⟩, h'.verificationLimit, h'.postOpLimit⟩

/-- Without a high half, a word has one pair of halves that are not
negative. -/
theorem halves_of_zero {high128 low128 high128' low128' : ℤ} (hzero : high128 = 0)
    (hlow : 0 ≤ low128) (hlt : low128 < 2 ^ 128) (hhigh' : 0 ≤ high128') (hlow' : 0 ≤ low128')
    (heq : high128 * 2 ^ 128 + low128 = high128' * 2 ^ 128 + low128') :
    high128 = high128' ∧ low128 = low128' := by
  omega

theorem same_of_unambiguous (hdoc : Documented ethers) (hop : Admitted ethers gasConfig op)
    (hother : Admitted ethers gasConfig other) (h : Unambiguous op)
    (halike : PackedAlike ethers op other) : SameOperation op other := by
  have hparts := sameParts_of_packedAlike hdoc hop hother halike
  obtain ⟨_, hinit, hinit'⟩ := hparts.initCode
  obtain ⟨_, hpaymaster, hpaymaster'⟩ := hparts.paymasterAndData
  have hlimits := halves_of_zero h.verificationGasLimit hop.callGasLimit h.callGasLimit
    hother.verificationGasLimit hother.callGasLimit hparts.accountGasLimits
  have hfees := halves_of_zero h.maxPriorityFeePerGas hop.maxFeePerGas h.maxFeePerGas
    hother.maxPriorityFeePerGas hother.maxFeePerGas hparts.gasFees
  refine sameOperation_of_parts hparts hlimits hfees
    (same_factory hop hother hinit hinit' ?_) (same_paymaster hop hother hpaymaster hpaymaster' ?_)
  · -- five bytes leave the other factory no choice
    intro factory hfactory factory' hfactory'
    obtain ⟨hlength, hempty⟩ := h.factory factory hfactory
    obtain ⟨factoryData, address, data, hdata, haddress, hbytes, happend, _⟩ :=
      initCode_of_factory hop hfactory hinit
    obtain ⟨_, address', data', _, haddress', _, happend', hlow, _⟩ :=
      initCode_of_factory hother hfactory' hinit'
    rw [hdata] at hempty
    change factoryData.length = 2 at hempty
    have hsum := congrArg List.length (happend.symm.trans happend')
    have haddresses := length_of_getBytes haddress
    have haddresses' := length_of_getBytes haddress'
    have hdatas := length_of_getBytes hbytes
    rw [List.length_append, List.length_append] at hsum
    omega
  · rw [h.paymaster]
    exact nofun

end Parts

section Collisions

variable {ethers : EthersFunctions} {gasConfig : PreVerificationGasConfig}
  {op : UserOperation}

/-- Another admitted operation is packed like this one. -/
def Collides (ethers : EthersFunctions) (gasConfig : PreVerificationGasConfig)
    (op : UserOperation) : Prop :=
  ∃ other, Admitted ethers gasConfig other ∧ PackedAlike ethers op other ∧
    ¬SameOperation op other

/-- An operation with the same bytes has the same price. -/
theorem collides_of_encodes (hdoc : Documented ethers) (hop : Admitted ethers gasConfig op)
    {other : UserOperation} {bytes : OpBytes} {paymasterAndData : List ℕ}
    (h : Encodes ethers op bytes paymasterAndData)
    (h' : Encodes ethers other bytes paymasterAndData)
    (hsender : other.sender = op.sender) (hnonce : other.nonce = op.nonce)
    (hcallData : other.callData = op.callData)
    (hgas : other.preVerificationGas = op.preVerificationGas)
    (hsignature : other.signature = op.signature)
    (hother : Priced ethers gasConfig other → Admitted ethers gasConfig other)
    (hdiffers : ¬SameOperation op other) : Collides ethers gasConfig op := by
  obtain ⟨_, _, signature, _, hfits, hbytes⟩ := encodes_of_priced hdoc hop.priced
  have hfits' : IsUint256 other.preVerificationGas := hgas ▸ hfits
  have hbytes' : getBytes other.signature = some signature := hsignature ▸ hbytes
  have hpaid := (priced_iff hdoc h hfits hbytes).mp hop.priced
  rw [← hgas] at hpaid
  have hlimits := h.accountGasLimits.2.symm.trans h'.accountGasLimits.2
  have hfees := h.gasFees.2.symm.trans h'.gasFees.2
  refine ⟨other, hother ((priced_iff hdoc h' hfits' hbytes').mpr hpaid),
    ⟨_, _, packUserOp_of_encodes hdoc h, packUserOp_of_encodes hdoc h', ?_⟩, hdiffers⟩
  rw [hsender, hnonce, hcallData, hgas, hsignature, ← hlimits, ← hfees]
  exact ⟨rfl, rfl, rfl, rfl, rfl, rfl, rfl, rfl, rfl⟩

/-- Units of the high half are carried into the low one. -/
theorem carry_eq (high128 low128 units : ℤ) :
    (high128 + units) * 2 ^ 128 + (low128 - units * 2 ^ 128) = high128 * 2 ^ 128 + low128 := by
  ring

theorem fitsWord_carry {high128 low128 : ℤ} (units : ℤ) (h : FitsWord high128 low128) :
    FitsWord (high128 + units) (low128 - units * 2 ^ 128) := by
  unfold FitsWord
  rw [carry_eq]
  exact h

theorem wordOf_carry (high128 low128 units : ℤ) :
    wordOf (high128 + units) (low128 - units * 2 ^ 128) = wordOf high128 low128 := by
  unfold wordOf
  rw [carry_eq]

theorem carried_ne {high128 units : ℤ} (h : units ≠ 0) : high128 ≠ high128 + units := by
  omega

theorem collides_limits (hdoc : Documented ethers) (hop : Admitted ethers gasConfig op) (units : ℤ)
    (hunits : units ≠ 0) (hhigh : 0 ≤ op.verificationGasLimit + units)
    (hlow : 0 ≤ op.callGasLimit - units * 2 ^ 128) : Collides ethers gasConfig op := by
  obtain ⟨bytes, paymasterAndData, _, h, _⟩ := encodes_of_priced hdoc hop.priced
  have h' : Encodes ethers { op with
      verificationGasLimit := op.verificationGasLimit + units
      callGasLimit := op.callGasLimit - units * 2 ^ 128 } bytes paymasterAndData :=
    ⟨h.sender, h.nonce, h.initCode, h.callData,
      ⟨fitsWord_carry units h.accountGasLimits.1,
        h.accountGasLimits.2.trans (wordOf_carry _ _ units).symm⟩, h.gasFees, h.paymasterAndData⟩
  refine collides_of_encodes hdoc hop h h' rfl rfl rfl rfl rfl ?_ ?_
  · intro hpriced
    exact ⟨hop.sender, hlow, hhigh, hop.maxFeePerGas, hop.maxPriorityFeePerGas, hop.paymaster,
      hop.noPaymaster, hop.factory, hop.factoryData_iff, hpriced⟩
  · intro hsame
    exact carried_ne hunits hsame.verificationGasLimit

theorem collides_fees (hdoc : Documented ethers) (hop : Admitted ethers gasConfig op) (units : ℤ)
    (hunits : units ≠ 0) (hhigh : 0 ≤ op.maxPriorityFeePerGas + units)
    (hlow : 0 ≤ op.maxFeePerGas - units * 2 ^ 128) : Collides ethers gasConfig op := by
  obtain ⟨bytes, paymasterAndData, _, h, _⟩ := encodes_of_priced hdoc hop.priced
  have h' : Encodes ethers { op with
      maxPriorityFeePerGas := op.maxPriorityFeePerGas + units
      maxFeePerGas := op.maxFeePerGas - units * 2 ^ 128 } bytes paymasterAndData :=
    ⟨h.sender, h.nonce, h.initCode, h.callData, h.accountGasLimits,
      ⟨fitsWord_carry units h.gasFees.1, h.gasFees.2.trans (wordOf_carry _ _ units).symm⟩,
      h.paymasterAndData⟩
  refine collides_of_encodes hdoc hop h h' rfl rfl rfl rfl rfl ?_ ?_
  · intro hpriced
    exact ⟨hop.sender, hop.callGasLimit, hop.verificationGasLimit, hlow, hhigh, hop.paymaster,
      hop.noPaymaster, hop.factory, hop.factoryData_iff, hpriced⟩
  · intro hsame
    exact carried_ne hunits hsame.maxPriorityFeePerGas

/-- Nothing keeps the limits of a paymaster from a carry. -/
theorem collides_paymaster (hdoc : Documented ethers) (hop : Admitted ethers gasConfig op)
    {paymaster : String} (hpaymaster : op.paymaster = some paymaster) :
    Collides ethers gasConfig op := by
  obtain ⟨bytes, paymasterAndData, _, h, _⟩ := encodes_of_priced hdoc hop.priced
  have hbytes := h.paymasterAndData
  unfold IsPaymasterAndData at hbytes
  rw [hpaymaster] at hbytes
  obtain ⟨high, low, address, data, hhigh, hlow, hfits, haddress, hdata, hwhole⟩ := hbytes
  have hcarried : IsPaymasterAndData { op with
      paymasterVerificationGasLimit := some (high + 1)
      paymasterPostOpGasLimit := some (low - 1 * 2 ^ 128) } paymasterAndData := by
    unfold IsPaymasterAndData
    dsimp only
    rw [hpaymaster]
    exact ⟨high + 1, low - 1 * 2 ^ 128, address, data, rfl, rfl, fitsWord_carry 1 hfits, haddress,
      hdata, by rw [wordOf_carry, hwhole]⟩
  have h' : Encodes ethers { op with
      paymasterVerificationGasLimit := some (high + 1)
      paymasterPostOpGasLimit := some (low - 1 * 2 ^ 128) } bytes paymasterAndData :=
    ⟨h.sender, h.nonce, h.initCode, h.callData, h.accountGasLimits, h.gasFees, hcarried⟩
  refine collides_of_encodes hdoc hop h h' rfl rfl rfl rfl rfl ?_ ?_
  · intro hpriced
    exact ⟨hop.sender, hop.callGasLimit, hop.verificationGasLimit, hop.maxFeePerGas,
      hop.maxPriorityFeePerGas, hop.paymaster,
      fun hnone => absurd (hnone.symm.trans hpaymaster) nofun, hop.factory, hop.factoryData_iff,
      hpriced⟩
  · intro hsame
    have hequal := hhigh.symm.trans hsame.paymasterVerificationGasLimit
    exact carried_ne one_ne_zero (Option.some.inj hequal)

/-- The operation whose factory ends at another byte of its initCode. -/
def recut (op : UserOperation) (initCode : List ℕ) (cut : ℕ) : UserOperation :=
  { op with
    factory := some (hexString (initCode.take cut))
    factoryData := some (hexString (initCode.drop cut)) }

theorem encodes_recut {bytes : OpBytes} {paymasterAndData : List ℕ}
    (h : Encodes ethers op bytes paymasterAndData) (cut : ℕ) :
    Encodes ethers (recut op bytes.initCode cut) bytes paymasterAndData := by
  have hsplit := List.take_append_drop cut bytes.initCode
  obtain ⟨htake, hdrop⟩ := isBytes_append.mp (hsplit.symm ▸ isBytes_initCode h.initCode)
  exact ⟨h.sender, h.nonce, ⟨_, _, getBytes_hexString htake, getBytes_hexString hdrop, hsplit.symm⟩,
    h.callData, h.accountGasLimits, h.gasFees, h.paymasterAndData⟩

/-- An initCode of more than five bytes is cut elsewhere. -/
theorem collides_factory (hdoc : Documented ethers) (hop : Admitted ethers gasConfig op)
    {factory : String} (hfactory : op.factory = some factory)
    (hlong : ¬(factory.length = 12 ∧ (op.factoryData.getD "").length = 2)) :
    Collides ethers gasConfig op := by
  obtain ⟨bytes, paymasterAndData, _, h, _⟩ := encodes_of_priced hdoc hop.priced
  obtain ⟨factoryData, address, data, hfactoryData, haddress, hdata, happend, hlow, _⟩ :=
    initCode_of_factory hop hfactory h.initCode
  have haddresses := length_of_getBytes haddress
  have hdatas := length_of_getBytes hdata
  have hmore : 6 ≤ bytes.initCode.length := by
    rw [happend, List.length_append]
    rw [hfactoryData, Option.getD_some] at hlong
    omega
  obtain ⟨cut, hcut, hcut', hne⟩ : ∃ cut, 5 ≤ cut ∧ cut ≤ 6 ∧ cut ≠ address.length := by
    by_cases hshort : address.length = 5
    · exact ⟨6, by omega, by omega, by omega⟩
    · exact ⟨5, by omega, by omega, by omega⟩
  have hlength : (bytes.initCode.take cut).length = cut := by
    rw [List.length_take]
    omega
  have htake : IsBytes (bytes.initCode.take cut) :=
    fun byte hbyte => isBytes_initCode h.initCode byte (List.mem_of_mem_take hbyte)
  refine collides_of_encodes hdoc hop h (encodes_recut h cut) rfl rfl rfl rfl rfl ?_ ?_
  · intro hpriced
    have hmatches : ∀ factory' ∈ (recut op bytes.initCode cut).factory,
        matchesAddress factory' := by
      intro factory' hmem
      obtain rfl := Option.some.inj hmem
      exact (matchesAddress_iff (getBytes_hexString htake)).mpr (by omega)
    exact ⟨hop.sender, hop.callGasLimit, hop.verificationGasLimit, hop.maxFeePerGas,
      hop.maxPriorityFeePerGas, hop.paymaster, hop.noPaymaster, hmatches, Iff.rfl, hpriced⟩
  · intro hsame
    have hequal : op.factory.map toLowerCase = some (toLowerCase (hexString _)) := hsame.factory
    rw [hfactory] at hequal
    have hlower := Option.some.inj hequal
    rw [toLowerCase_of_getBytes haddress, toLowerCase_hexString htake] at hlower
    have hbytes := (hexString_inj (of_getBytes haddress).1 htake).mp hlower
    rw [hbytes, hlength] at hne
    exact hne rfl

/-- A word with a high half, or too much in the low one, has other halves. -/
theorem exists_carry {high128 low128 : ℤ} (hhigh : 0 ≤ high128) (hlow : 0 ≤ low128)
    (h : ¬(high128 = 0 ∧ low128 < 2 ^ 128)) :
    ∃ units, units ≠ 0 ∧ 0 ≤ high128 + units ∧ 0 ≤ low128 - units * 2 ^ 128 := by
  by_cases hzero : high128 = 0
  · exact ⟨1, by omega, by omega, by omega⟩
  · exact ⟨-1, by omega, by omega, by omega⟩

/-- What is not unambiguous collides. -/
theorem unambiguous_of_not_collides (hdoc : Documented ethers)
    (hop : Admitted ethers gasConfig op) (h : ¬Collides ethers gasConfig op) :
    Unambiguous op := by
  have hlimits : op.verificationGasLimit = 0 ∧ op.callGasLimit < 2 ^ 128 := by
    by_contra hcarry
    obtain ⟨units, hunits, hhigh, hlow⟩ :=
      exists_carry hop.verificationGasLimit hop.callGasLimit hcarry
    exact h (collides_limits hdoc hop units hunits hhigh hlow)
  have hfees : op.maxPriorityFeePerGas = 0 ∧ op.maxFeePerGas < 2 ^ 128 := by
    by_contra hcarry
    obtain ⟨units, hunits, hhigh, hlow⟩ :=
      exists_carry hop.maxPriorityFeePerGas hop.maxFeePerGas hcarry
    exact h (collides_fees hdoc hop units hunits hhigh hlow)
  refine ⟨hlimits.1, hlimits.2, hfees.1, hfees.2, ?_, ?_⟩
  · by_contra hsome
    obtain ⟨paymaster, hpaymaster⟩ := Option.ne_none_iff_exists'.mp hsome
    exact h (collides_paymaster hdoc hop hpaymaster)
  · intro factory hfactory
    by_contra hlong
    exact h (collides_factory hdoc hop hfactory hlong)

theorem not_collides_iff (hdoc : Documented ethers) (hop : Admitted ethers gasConfig op) :
    ¬Collides ethers gasConfig op ↔ Unambiguous op := by
  refine ⟨unambiguous_of_not_collides hdoc hop, ?_⟩
  rintro h ⟨other, hother, halike, hdiffers⟩
  exact hdiffers (same_of_unambiguous hdoc hop hother h halike)

end Collisions

section Requests

variable (ethers : EthersFunctions) (gasConfig : PreVerificationGasConfig)
  (numberText : ℚ → String) (entryPointAddress : String)

/-- The operation is taken, under some spelling of its EntryPoint. -/
def Accepted (userOp : RawOperation) : Prop :=
  ∃ entryPointInput, validateInputParameters ethers gasConfig numberText (some userOp)
    (some entryPointInput) entryPointAddress true true true = .ok (.ok userOp)

/-- Whatever is accepted and packed like the operation is the operation. -/
def PacksAlone (op : UserOperation) : Prop :=
  ∀ other otherOp, Accepted ethers gasConfig numberText entryPointAddress other →
    readOperation other = .ok otherOp → PackedAlike ethers op otherOp → SameOperation op otherOp

variable {ethers gasConfig numberText entryPointAddress}

theorem accepted_iff {userOp : RawOperation} :
    Accepted ethers gasConfig numberText entryPointAddress userOp ↔
      entryPointAddress ≠ "" ∧ Passes ethers gasConfig userOp := by
  constructor
  · rintro ⟨entryPointInput, h⟩
    obtain ⟨⟨input, hinput, hsame⟩, _, hpasses⟩ := validateInputParameters_ok_iff.mp h
    refine ⟨?_, hpasses⟩
    rintro rfl
    have hne := (Option.filter_eq_some_iff.mp hinput).2
    exact of_decide_eq_true hne ((toLowerCase_eq_empty_iff input).mp hsame)
  · rintro ⟨hne, hpasses⟩
    exact ⟨entryPointAddress, validateInputParameters_ok_iff.mpr
      ⟨⟨entryPointAddress, truthy_some hne, rfl⟩, rfl, hpasses⟩⟩

/-- Accepted operations are read as admitted ones. -/
theorem admitted_of_accepted {userOp : RawOperation} {op : UserOperation}
    (h : Accepted ethers gasConfig numberText entryPointAddress userOp)
    (hop : readOperation userOp = .ok op) : Admitted ethers gasConfig op :=
  admitted_of_passes (accepted_iff.mp h).2 (readOperation_ok_iff.mp hop)

theorem packsAlone_iff (hdoc : Documented ethers) (hne : entryPointAddress ≠ "")
    {op : UserOperation} :
    PacksAlone ethers gasConfig numberText entryPointAddress op ↔
      ¬Collides ethers gasConfig op := by
  constructor
  · rintro halone ⟨other, hother, halike, hdiffers⟩
    obtain ⟨hpasses, hreads⟩ := passes_rawOf hdoc hother
    exact hdiffers (halone (rawOf other) other (accepted_iff.mpr ⟨hne, hpasses⟩)
      (readOperation_ok_iff.mpr hreads) halike)
  · intro hnot other otherOp hother hread halike
    by_contra hdiffers
    exact hnot ⟨otherOp, admitted_of_accepted hother hread, halike, hdiffers⟩

/-- An accepted operation is packed like no other one just when its words have
no high halves, it has no paymaster, and its factory is five bytes with no data
if there is one. Two that keep their halves and full addresses are told
apart. -/
theorem packing_collisions (hdoc : Documented ethers) :
    (∀ userOp op, Accepted ethers gasConfig numberText entryPointAddress userOp →
      readOperation userOp = .ok op →
        (PacksAlone ethers gasConfig numberText entryPointAddress op ↔ Unambiguous op)) ∧
    ∀ userOp other op otherOp, Accepted ethers gasConfig numberText entryPointAddress userOp →
      Accepted ethers gasConfig numberText entryPointAddress other →
        readOperation userOp = .ok op → readOperation other = .ok otherOp → InRange op →
          InRange otherOp → PackedAlike ethers op otherOp → SameOperation op otherOp := by
  constructor
  · intro userOp op h hop
    rw [packsAlone_iff hdoc (accepted_iff.mp h).1]
    exact not_collides_iff hdoc (admitted_of_accepted h hop)
  · intro userOp other op otherOp h hother hop hotherOp hrange hrange' halike
    exact same_of_inRange hdoc (admitted_of_accepted h hop) (admitted_of_accepted hother hotherOp)
      hrange hrange' halike

end Requests

section Concrete

def entryPoint : String := "0x0000000071727de22e5e9d8baf0edac6f37da032"

/-- A small operation with these gas limits. -/
def opLimited (verificationGasLimit callGasLimit : ℤ) : UserOperation :=
  { plainOp account 1 10 none none with
    verificationGasLimit := verificationGasLimit
    callGasLimit := callGasLimit
    preVerificationGas := 60000
    maxPriorityFeePerGas := 0 }

def limitedBytes (verificationGasLimit callGasLimit : ℤ) : OpBytes :=
  { opBytes with
    accountGasLimits := wordOf verificationGasLimit callGasLimit
    gasFees := wordOf 0 10 }

variable {verificationGasLimit callGasLimit : ℤ}

theorem encodes_opLimited (h : FitsWord verificationGasLimit callGasLimit) :
    Encodes documentedFunctions (opLimited verificationGasLimit callGasLimit)
      (limitedBytes verificationGasLimit callGasLimit) [] := by
  have hfees : FitsWord 0 10 := by constructor <;> decide
  exact ⟨encodes_unpriced.sender, encodes_unpriced.nonce, rfl, encodes_unpriced.callData, ⟨h, rfl⟩,
    ⟨hfees, rfl⟩, rfl⟩

theorem admitted_opLimited (hverification : 0 ≤ verificationGasLimit) (hcall : 0 ≤ callGasLimit)
    (h : FitsWord verificationGasLimit callGasLimit)
    (hprice : mathRound (exactGas MAINNET_CONFIG
      (encoded (limitedBytes verificationGasLimit callGasLimit) 60000 [] [])) ≤ 60000) :
    Admitted documentedFunctions MAINNET_CONFIG (opLimited verificationGasLimit callGasLimit) := by
  have hsender : (hexDigits account).isSome := by decide
  have hgas : IsUint256 60000 := isUint256_of_lt (by decide) (by decide)
  have hfee : (0 : ℤ) ≤ 10 := by decide
  have hsignature : getBytes "0x" = some [] := rfl
  have hpriced : Priced documentedFunctions MAINNET_CONFIG
      (opLimited verificationGasLimit callGasLimit) :=
    (priced_iff documentedFunctions_documented (encodes_opLimited h) hgas hsignature).mpr hprice
  exact ⟨hsender, hcall, hverification, hfee, Int.le_refl 0, nofun, fun _ => ⟨rfl, rfl, rfl⟩, nofun,
    Iff.rfl, hpriced⟩

/-- An operation is accepted as it is written. -/
theorem accepted_rawOf {numberText : ℚ → String}
    (h : Admitted documentedFunctions MAINNET_CONFIG
      (opLimited verificationGasLimit callGasLimit)) :
    Accepted documentedFunctions MAINNET_CONFIG numberText entryPoint
        (rawOf (opLimited verificationGasLimit callGasLimit)) ∧
      readOperation (rawOf (opLimited verificationGasLimit callGasLimit)) =
        .ok (opLimited verificationGasLimit callGasLimit) := by
  obtain ⟨hpasses, hreads⟩ := passes_rawOf documentedFunctions_documented h
  exact ⟨accepted_iff.mpr ⟨by decide, hpasses⟩, readOperation_ok_iff.mpr hreads⟩

theorem free_verification_packs_alone :
    Accepted documentedFunctions MAINNET_CONFIG (fun value => toString value.num) entryPoint
        (rawOf (opLimited 0 100000)) ∧
      PacksAlone documentedFunctions MAINNET_CONFIG (fun value => toString value.num) entryPoint
        (opLimited 0 100000) := by
  have hfits : FitsWord 0 100000 := by constructor <;> decide
  have hadmitted := admitted_opLimited (by decide) (by decide) hfits (by decide +kernel)
  obtain ⟨haccepted, hread⟩ := accepted_rawOf hadmitted
  refine ⟨haccepted,
    ((packing_collisions documentedFunctions_documented).1 _ _ haccepted hread).mpr ?_⟩
  exact ⟨rfl, by decide, rfl, by decide, rfl, nofun⟩

/-- One unit of verificationGasLimit packs like 2 ^ 128 of callGasLimit. -/
theorem carried_limit_collides :
    Accepted documentedFunctions MAINNET_CONFIG (fun value => toString value.num) entryPoint
        (rawOf (opLimited 1 0)) ∧
      Accepted documentedFunctions MAINNET_CONFIG (fun value => toString value.num) entryPoint
        (rawOf (opLimited 0 (2 ^ 128))) ∧
      readOperation (rawOf (opLimited 1 0)) = .ok (opLimited 1 0) ∧
      readOperation (rawOf (opLimited 0 (2 ^ 128))) = .ok (opLimited 0 (2 ^ 128)) ∧
      PackedAlike documentedFunctions (opLimited 1 0) (opLimited 0 (2 ^ 128)) ∧
      ¬SameOperation (opLimited 1 0) (opLimited 0 (2 ^ 128)) := by
  have hfits : FitsWord 1 0 := by constructor <;> decide
  have hfits' : FitsWord 0 (2 ^ 128) := by constructor <;> decide
  obtain ⟨haccepted, hread⟩ := accepted_rawOf
    (admitted_opLimited (by decide) (by decide) hfits (by decide +kernel))
  obtain ⟨haccepted', hread'⟩ := accepted_rawOf
    (admitted_opLimited (by decide) (by decide) hfits' (by decide +kernel))
  refine ⟨haccepted, haccepted', hread, hread', ⟨_, _,
    packUserOp_of_encodes documentedFunctions_documented (encodes_opLimited hfits),
    packUserOp_of_encodes documentedFunctions_documented (encodes_opLimited hfits'), ?_⟩, ?_⟩
  · exact ⟨rfl, rfl, rfl, rfl, rfl, rfl, rfl, rfl, rfl⟩
  · intro hsame
    exact absurd hsame.verificationGasLimit (by decide)

end Concrete

end Bundler.PackedCollisions
