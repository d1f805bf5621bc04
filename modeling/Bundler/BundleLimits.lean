import Bundler.BundleContents

/-!
What a bundle may use up: the gas of a bundle, and four operations for each
throttled paymaster or factory. The counters grow when an operation joins
the bundle and are looked at before the next one does, so they bound what
the bundle holds. They are kept under the addresses as spelled, so the
limits are those of an address when it has one spelling.
-/
namespace Bundler.BundleLimits

open DataModel StateService ReputationManager MempoolHelper Validation BundleBuilder
  BundleContents Runs

/-- The paymaster and the factory of an operation, as spelled. -/
def roles (userOp : UserOperation) : List String :=
  [truthy userOp.paymaster, truthy userOp.factory].filterMap id

/-- The operation has the address as paymaster or factory, letter case ignored. -/
def hasRole (addr : String) (userOp : UserOperation) : Bool :=
  (roles userOp).any fun role => toLowerCase role = toLowerCase addr

/-- Every paymaster or factory is spelled in one way throughout. -/
def OneSpelling (entries : List MempoolEntry) : Prop :=
  ∀ a ∈ entries.flatMap fun entry => roles entry.userOp,
    ∀ b ∈ entries.flatMap fun entry => roles entry.userOp, toLowerCase a = toLowerCase b → a = b

instance (entries : List MempoolEntry) : Decidable (OneSpelling entries) :=
  inferInstanceAs (Decidable (∀ _ ∈ _, ∀ _ ∈ _, _ → _))

/-- The statuses are those of one state throughout the build. -/
def StatusesOf (s : State) (answered : List (MempoolEntry × Answers)) : Prop :=
  ∀ step ∈ answered, step.2.paymasterStatus = statusIn s step.1.userOp.paymaster ∧
    step.2.factoryStatus = statusIn s step.1.userOp.factory

instance (s : State) (answered : List (MempoolEntry × Answers)) :
    Decidable (StatusesOf s answered) :=
  inferInstanceAs (Decidable (∀ _ ∈ _, _))

def gasOf (included : List Included) : ℤ :=
  (included.map fun included => userOpGasCost included.2 included.1.userOp).sum

/-- The bundle keeps to its gas, has no banned paymaster or factory, and four
operations at most for a throttled one. -/
structure WithinLimits (maxBundleGas : ℕ) (s : State) (ready : BundleReadyToSend) : Prop where
  gas : gasOf ready.included ≤ maxBundleGas
  notBanned : ∀ userOp ∈ ready.bundle,
    statusIn s userOp.paymaster ≠ .banned ∧ statusIn s userOp.factory ≠ .banned
  throttled : ∀ addr : String, statusIn s addr = .throttled →
    ready.bundle.countP (hasRole addr) ≤ THROTTLED_ENTITY_BUNDLE_COUNT

theorem mem_roles_iff (addr : String) (userOp : UserOperation) :
    addr ∈ roles userOp ↔
      truthy userOp.paymaster = some addr ∨ truthy userOp.factory = some addr := by
  simp [roles, eq_comm]

section Counts

variable (counts : String → ℕ) {addr : String} {userOp : UserOperation}

theorem countRole_le (role : Option String) (addr : String) :
    counts addr ≤ countRole counts role addr := by
  unfold countRole incrementCount
  cases truthy role with
  | none => exact le_refl _
  | some named =>
    dsimp only
    rw [Function.update_apply]
    split
    · rename_i hsame
      rw [hsame]
      omega
    · exact le_refl _

theorem countRole_named {role : Option String} (h : truthy role = some addr) :
    countRole counts role addr = counts addr + 1 := by
  unfold countRole incrementCount
  rw [h]
  exact Function.update_self _ _ _

/-- An operation is counted at least once under each of its roles. -/
theorem counted_once (haddr : addr ∈ roles userOp) :
    counts addr + 1 ≤ countRole (countRole counts userOp.paymaster) userOp.factory addr := by
  rcases (mem_roles_iff addr userOp).mp haddr with hpaymaster | hfactory
  · have hcount := countRole_named counts hpaymaster
    have hle := countRole_le (countRole counts userOp.paymaster) userOp.factory addr
    omega
  · have hcount := countRole_named (countRole counts userOp.paymaster) hfactory
    have hle := countRole_le counts userOp.paymaster addr
    omega

end Counts

section Steps

variable {maxBundleGas : ℕ} {knownSenders : List String} {s : State} {acc acc' : BundleAcc}
  {step : MempoolEntry × Answers} {addr : String}

/-- The counters bound the bundle, which is within its limits. -/
structure LimitsKept (maxBundleGas : ℕ) (s : State) (acc : BundleAcc) : Prop where
  totalGas : gasOf acc.included = acc.totalGas
  gas : acc.totalGas ≤ maxBundleGas
  notBanned : ∀ userOp ∈ acc.ready.bundle,
    statusIn s userOp.paymaster ≠ .banned ∧ statusIn s userOp.factory ≠ .banned
  counted : ∀ addr, acc.ready.bundle.countP (fun userOp => addr ∈ roles userOp) ≤
    acc.stakedEntityCount addr
  throttled : ∀ addr : String, statusIn s addr = .throttled →
    acc.ready.bundle.countP (fun userOp => addr ∈ roles userOp) ≤ THROTTLED_ENTITY_BUNDLE_COUNT

/-- An operation passes the throttling check only below the limit of its roles. -/
theorem count_lt_of_passes {res : ValidateUserOpResult}
    (hpasses : PassesScreen (step.2.builder maxBundleGas) knownSenders acc step.1
      step.2.paymasterStatus step.2.factoryStatus res)
    (hpaymaster : step.2.paymasterStatus = statusIn s step.1.userOp.paymaster)
    (hfactory : step.2.factoryStatus = statusIn s step.1.userOp.factory)
    (haddr : addr ∈ roles step.1.userOp) (hthrottled : statusIn s addr = .throttled) :
    acc.stakedEntityCount addr < THROTTLED_ENTITY_BUNDLE_COUNT := by
  have hbelow (role : Option String) (status : ReputationStatus) (hrole : truthy role = some addr)
      (hstatus : status = statusIn s role)
      (hnot : truthy role ≠ none → ¬isThrottled status role acc.stakedEntityCount) :
      acc.stakedEntityCount addr < THROTTLED_ENTITY_BUNDLE_COUNT := by
    obtain ⟨rfl, _⟩ := Option.filter_eq_some_iff.mp hrole
    by_contra hcount
    refine hnot (by rw [hrole]; simp) ⟨hstatus.trans hthrottled, ?_⟩
    exact not_lt.mp hcount
  rcases (mem_roles_iff addr step.1.userOp).mp haddr with hrole | hrole
  · exact hbelow _ _ hrole hpaymaster hpasses.paymaster_notThrottled
  · exact hbelow _ _ hrole hfactory hpasses.factory_notThrottled

theorem limitsKept_setAside {builder : Builder} {entry : MempoolEntry}
    (hkept : LimitsKept maxBundleGas s acc) (haside : SetAside builder acc acc' entry) :
    LimitsKept maxBundleGas s acc' := by
  refine ⟨?_, ?_, ?_, ?_, ?_⟩
  · rw [haside.included, haside.totalGas]
    exact hkept.totalGas
  · rw [haside.totalGas]
    exact hkept.gas
  · rw [haside.bundle]
    exact hkept.notBanned
  · rw [haside.bundle, haside.stakedEntityCount]
    exact hkept.counted
  · rw [haside.bundle]
    exact hkept.throttled

theorem limitsKept_added {res : ValidateUserOpResult} (hkept : LimitsKept maxBundleGas s acc)
    (hpasses : PassesScreen (step.2.builder maxBundleGas) knownSenders acc step.1
      step.2.paymasterStatus step.2.factoryStatus res)
    (hpaymaster : step.2.paymasterStatus = statusIn s step.1.userOp.paymaster)
    (hfactory : step.2.factoryStatus = statusIn s step.1.userOp.factory)
    (hadded : Added acc acc' step.1 res) : LimitsKept maxBundleGas s acc' := by
  have hcount (addr : String) : acc'.ready.bundle.countP (fun userOp => addr ∈ roles userOp) =
      acc.ready.bundle.countP (fun userOp => addr ∈ roles userOp) +
        if addr ∈ roles step.1.userOp then 1 else 0 := by
    rw [hadded.bundle, List.countP_append, List.countP_singleton]
    simp
  refine ⟨?_, ?_, ?_, ?_, ?_⟩
  · have htotal := hkept.totalGas
    unfold gasOf at htotal ⊢
    rw [hadded.included, hadded.totalGas, List.map_append, List.sum_append, htotal]
    simp
  · rw [hadded.totalGas]
    exact hpasses.gas
  · intro userOp huserOp
    rw [hadded.bundle, List.mem_append, List.mem_singleton] at huserOp
    rcases huserOp with huserOp | rfl
    · exact hkept.notBanned userOp huserOp
    · rw [← hpaymaster, ← hfactory]
      exact ⟨hpasses.paymaster_notBanned, hpasses.factory_notBanned⟩
  · intro addr
    have hold := hkept.counted addr
    rw [hcount, hadded.stakedEntityCount]
    split
    · rename_i haddr
      have honce := counted_once acc.stakedEntityCount haddr
      omega
    · have hle := countRole_le acc.stakedEntityCount step.1.userOp.paymaster addr
      have hle' := countRole_le
        (countRole acc.stakedEntityCount step.1.userOp.paymaster) step.1.userOp.factory addr
      omega
  · intro addr hthrottled
    have hold := hkept.throttled addr hthrottled
    have hcounted := hkept.counted addr
    rw [hcount]
    split
    · rename_i haddr
      have hlt := count_lt_of_passes hpasses hpaymaster hfactory haddr hthrottled
      omega
    · omega

theorem limitsKept_step (hkept : LimitsKept maxBundleGas s acc)
    (hstatuses : step.2.paymasterStatus = statusIn s step.1.userOp.paymaster ∧
      step.2.factoryStatus = statusIn s step.1.userOp.factory)
    (h : addAnswered maxBundleGas knownSenders acc step = .ok acc') :
    LimitsKept maxBundleGas s acc' := by
  rcases addEntry_outcome h with ⟨_, haside⟩ | ⟨res, hscreen, _, hadded⟩
  · exact limitsKept_setAside hkept haside
  · exact limitsKept_added hkept ((screen_eq_fits_iff res).mp hscreen) hstatuses.1 hstatuses.2
      hadded

end Steps

section Spelling

variable {answered : List (MempoolEntry × Answers)} {ready : BundleReadyToSend}
  {userOp other : UserOperation} {addr role : String}

theorem hasRole_iff (addr : String) (userOp : UserOperation) :
    hasRole addr userOp ↔ ∃ role ∈ roles userOp, toLowerCase role = toLowerCase addr := by
  simp [hasRole]

theorem roles_of_bundle (hkept : ListsKept (answered.map Prod.fst) ready)
    (huserOp : userOp ∈ ready.bundle) (hrole : role ∈ roles userOp) :
    role ∈ (answered.map Prod.fst).flatMap fun entry => roles entry.userOp := by
  obtain ⟨included, hincluded, rfl⟩ := List.mem_map.mp huserOp
  have hentry : included.1 ∈ answered.map Prod.fst :=
    hkept.bundled.subset (List.mem_map.mpr ⟨included, hincluded, rfl⟩)
  exact List.mem_flatMap.mpr ⟨included.1, hentry, hrole⟩

/-- With one spelling for each address, the operations that have the address
in a role all have it as the first of them spells it. -/
theorem countP_hasRole_le (hkept : ListsKept (answered.map Prod.fst) ready)
    (hspelling : OneSpelling (answered.map Prod.fst)) (huserOp : userOp ∈ ready.bundle)
    (hrole : role ∈ roles userOp) (hlower : toLowerCase role = toLowerCase addr) :
    ready.bundle.countP (hasRole addr) ≤
      ready.bundle.countP (fun userOp => role ∈ roles userOp) := by
  apply List.countP_mono_left
  intro other hother hnames
  obtain ⟨role', hrole', hlower'⟩ := (hasRole_iff addr other).mp hnames
  have hsame : role = role' := hspelling role (roles_of_bundle hkept huserOp hrole) role'
    (roles_of_bundle hkept hother hrole') (hlower.trans hlower'.symm)
  rw [hsame]
  exact decide_eq_true hrole'

end Spelling

/-- In a state whose reputations do not change during the build, a bundle
made from entries of one spelling is within its limits. -/
theorem bundle_within_limits (maxBundleGas : ℕ) (knownSenders : List String) (s : State)
    (answered : List (MempoolEntry × Answers)) {ready : BundleReadyToSend}
    (hspelling : OneSpelling (answered.map Prod.fst)) (hstatuses : StatusesOf s answered)
    (hready : createBundleFrom maxBundleGas knownSenders answered = .ok ready) :
    WithinLimits maxBundleGas s ready := by
  have hlists := listsKept_of_ready hready
  obtain ⟨acc, hfold, rfl⟩ := createBundleFrom_eq_ok_iff.mp hready
  have hinitial : LimitsKept maxBundleGas s BundleAcc.initial :=
    ⟨rfl, Int.natCast_nonneg _, fun _ huserOp => absurd huserOp List.not_mem_nil,
      fun _ => le_refl _, fun _ _ => Nat.zero_le _⟩
  have hkept : LimitsKept maxBundleGas s acc :=
    foldlM_induction (addAnswered maxBundleGas knownSenders)
      (I := fun _ acc => LimitsKept maxBundleGas s acc)
      (fun _ step _ _ hstep hkept hadd => limitsKept_step hkept (hstatuses step hstep) hadd)
      hinitial hfold
  refine ⟨hkept.totalGas.trans_le hkept.gas, hkept.notBanned, ?_⟩
  intro addr hthrottled
  by_cases hnamed : ∃ userOp ∈ acc.ready.bundle, hasRole addr userOp
  · obtain ⟨userOp, huserOp, hrole⟩ := hnamed
    obtain ⟨role, hrole, hlower⟩ := (hasRole_iff addr userOp).mp hrole
    have hstatus : statusIn s role = .throttled := (statusIn_congr hlower s).trans hthrottled
    calc acc.ready.bundle.countP (hasRole addr)
        ≤ acc.ready.bundle.countP (fun userOp => role ∈ roles userOp) :=
          countP_hasRole_le hlists hspelling huserOp hrole hlower
      _ ≤ THROTTLED_ENTITY_BUNDLE_COUNT := hkept.throttled role hstatus
  · have hzero : acc.ready.bundle.countP (hasRole addr) = 0 :=
      List.countP_eq_zero.mpr fun userOp huserOp hrole => hnamed ⟨userOp, huserOp, hrole⟩
    rw [hzero]
    exact Nat.zero_le _

section Concrete

/-- The sponsor has been seen a hundred and ten times and never included. -/
def sponsorThrottled : State :=
  { State.initial [] [] with
    reputationEntries := KeyedRecords.KeyedRecord.empty.insert ⟨sponsor, 110, 0⟩ }

/-- Five operations of the throttled sponsor, by five senders. -/
def fiveSponsored : List (MempoolEntry × Answers) :=
  ["1", "2", "3", "4", "5"].map fun digit =>
    (plainEntry (plainOp (hashOf digit) 1 10 (some sponsor) none) (hashOf digit),
      { plainAnswers with paymasterStatus := .throttled, balanceOf := .ok 1000 })

theorem fiveSponsored_within_limits :
    ∃ ready, createBundleFrom (5000000 : ℕ) [] fiveSponsored = .ok ready ∧
      WithinLimits 5000000 sponsorThrottled ready :=
  ⟨_, rfl, bundle_within_limits 5000000 [] sponsorThrottled fiveSponsored (by decide) (by decide)
    rfl⟩

end Concrete

end Bundler.BundleLimits
