import Bundler.MempoolLimits

/-!
The limit on throttled entities. A counter is looked at before the new entry
is counted, and only a counter above the limit bars the entity, so an entity
with exactly as many entries as it may have gets one more. Short of that the
limit holds as long as the counter covers the pool.
-/
namespace Bundler.ThrottledEntities

open KeyedRecords AsyncPrograms DataModel StateService ReputationManager DepositManager
  MempoolHelper MempoolManager Operations Runs AdmissionLaws PoolCounts MempoolLimits

section Conditions

variable (config : StakeConfig) (bundleSize : ℕ)

/-- The admission, run alone, returns Right for an operation whose slot is not pooled. -/
def AcceptedNew (balanceOf : BalanceOf) (param : RelayUserOpParam) (s : State) : Prop :=
  Accepted config balanceOf param s ∧
    findBySenderNonce param.userOp.sender param.userOp.nonce s.standardPool = none

/-- After a new operation that names a throttled address, no more entries name
it than a throttled entity may have. -/
def ThrottledLimitAfter (a : String) (s : State) (op : Operation) : Prop :=
  match op with
  | .mempool (.addUserOp balanceOf param) =>
      DescribesEntities param → names a param.userOp → statusIn s a = .throttled →
        AcceptedNew config balanceOf param s →
          poolCount (names a) (op.perform config bundleSize s).standardPool ≤
            THROTTLED_ENTITY_MEMPOOL_COUNT
  | _ => True

/-- No new operation is let in that names the throttled address while its
counter stands exactly at the limit. -/
def NotAtThrottledLimit (a : String) (s : State) : Operation → Prop
  | .mempool (.addUserOp balanceOf param) =>
      names a param.userOp → statusIn s a = .throttled → DepositSuffices balanceOf param s →
        Admitted config param s none → s.mempoolEntryCount a ≠ THROTTLED_ENTITY_MEMPOOL_COUNT
  | _ => True

/-- The steps on which the limit of a throttled address is kept. -/
def KeepsThrottledLimit (a : String) (s : State) (op : Operation) : Prop :=
  KeepsCovered config a s op ∧ NotAtThrottledLimit config a s op

end Conditions

section Steps

variable {config : StakeConfig} {bundleSize : ℕ} {s : State} {param : RelayUserOpParam} {a : String}

/-- An address named by an operation is that of one of its stake infos. -/
theorem info_of_names (hne : a ≠ zeroAddress) (hdescribes : DescribesEntities param)
    (hnames : names a param.userOp) :
    toLowerCase param.senderInfo.addr = a ∨
      ∃ infos ∈ [param.paymasterInfo, param.factoryInfo], ∃ info ∈ infos,
        toLowerCase info.addr = a := by
  have hrole (role : Option String) (infos : Option StakeInfo)
      (hinfos : infos.map StakeInfo.addr = entity role) (hrole : role.map toLowerCase = some a) :
      ∃ info ∈ infos, toLowerCase info.addr = a := by
    obtain ⟨addr, rfl, hlower⟩ := Option.map_eq_some_iff.mp hrole
    have hentity : entity (some addr) = some addr := by
      refine Option.filter_eq_some_iff.mpr ⟨rfl, ?_⟩
      simp only [ne_eq, decide_not, Bool.not_eq_true', decide_eq_false_iff_not]
      rintro rfl
      exact hne (hlower.symm.trans (by decide))
    obtain ⟨info, hinfo, rfl⟩ := Option.map_eq_some_iff.mp (hinfos.trans hentity)
    exact ⟨info, hinfo, hlower⟩
  unfold names namesRole at hnames
  simp only [Bool.or_eq_true, decide_eq_true_eq] at hnames
  rcases hnames with hsender | hpaymaster | hfactory
  · rw [hdescribes.sender]
    exact Or.inl hsender
  · exact Or.inr ⟨_, by simp, hrole _ _ hdescribes.paymaster hpaymaster⟩
  · exact Or.inr ⟨_, by simp, hrole _ _ hdescribes.factory hfactory⟩

/-- A throttled entity passes with its counter at the limit or below. -/
theorem count_le_of_throttled {counts : EntryCount} {max : ℤ} {info : StakeInfo}
    (hadmitted : EntityAdmitted config counts s max info) (hinfo : toLowerCase info.addr = a)
    (ha : toLowerCase a = a) (hthrottled : statusIn s a = .throttled) :
    counts a ≤ THROTTLED_ENTITY_MEMPOOL_COUNT := by
  have hstatus : statusIn s info.addr = .throttled :=
    (statusIn_congr (hinfo.trans ha.symm) s).trans hthrottled
  by_contra hcount
  rw [← hinfo] at hcount
  exact hadmitted.2.1 (not_le.mp hcount) hstatus

theorem count_le_of_admitted_new (ha : Counted a) (hne : a ≠ zeroAddress)
    (hdescribes : DescribesEntities param) (hnames : names a param.userOp)
    (hthrottled : statusIn s a = .throttled) (hadmitted : Admitted config param s none) :
    s.mempoolEntryCount a ≤ THROTTLED_ENTITY_MEMPOOL_COUNT := by
  obtain ⟨_, ⟨hsender, hothers⟩, _⟩ := hadmitted
  rcases info_of_names hne hdescribes hnames with hinfo | ⟨infos, hinfos, info, hinfo, haddr⟩
  · exact count_le_of_throttled hsender hinfo ha.lower hthrottled
  · have hinfos' : infos ∈ [param.paymasterInfo, param.factoryInfo, param.aggregatorInfo] := by
      simp only [List.mem_cons, List.not_mem_nil, or_false] at hinfos ⊢
      tauto
    exact count_le_of_throttled (hothers infos hinfos' info hinfo) haddr ha.lower hthrottled

/-- A step under its condition leaves the throttled address within its limit,
and its counter covering the pool. -/
theorem throttledLimit_step (ha : Counted a) (hne : a ≠ zeroAddress) (op : Operation)
    (hcovered : Covered a s) (hkeeps : KeepsThrottledLimit config a s op) :
    ThrottledLimitAfter config bundleSize a s op ∧ Covered a (op.perform config bundleSize s) := by
  refine ⟨?_, covered_perform ha op hcovered hkeeps.1⟩
  unfold ThrottledLimitAfter
  split
  · rename_i balanceOf param
    rintro hdescribes hnames hthrottled ⟨haccepted, hfree⟩
    obtain ⟨hdeposit, old, hadmitted⟩ := (accepted_iff config balanceOf param s).mp haccepted
    cases old with
    | some old => exact absurd hadmitted (not_replacement config param hfree old)
    | none =>
      have hle := count_le_of_admitted_new ha hne hdescribes hnames hthrottled hadmitted
      have hnot : s.mempoolEntryCount a ≠ THROTTLED_ENTITY_MEMPOOL_COUNT :=
        hkeeps.2 hnames hthrottled hdeposit hadmitted
      have hlt : (s.mempoolEntryCount a : ℤ) < THROTTLED_ENTITY_MEMPOOL_COUNT :=
        Int.ofNat_lt.mpr (lt_of_le_of_ne hle hnot)
      have hnew : (poolCount (names a) (afterAdmission param s none).standardPool : ℤ) ≤
          THROTTLED_ENTITY_MEMPOOL_COUNT :=
        poolCount_new_le_of_covered hcovered (fun _ hp => hp) hlt
      have hperform : Operation.perform config bundleSize s
          (.mempool (.addUserOp balanceOf param)) = afterAdmission param s none :=
        perform_of_admitted config bundleSize balanceOf param hdeposit hadmitted
      rw [hperform]
      exact Int.ofNat_le.mp hnew
  · trivial

/-- An empty pool, with reputations earned before. -/
def State.withReputations (whiteList blackList : List String)
    (reputationEntries : ReputationEntries) : State :=
  { State.initial whiteList blackList with reputationEntries := reputationEntries }

/-- In a run whose steps all meet their conditions, every new operation leaves
the throttled address it names within its limit. -/
theorem throttled_limit_along_run (config : StakeConfig) (bundleSize : ℕ)
    (whiteList blackList : List String) (reputationEntries : ReputationEntries)
    (ha : Counted a) (hne : a ≠ zeroAddress) (ops : List Operation)
    (hkeeps : AllSteps (Operation.perform config bundleSize) (KeepsThrottledLimit config a)
      (State.withReputations whiteList blackList reputationEntries) ops) :
    AllSteps (Operation.perform config bundleSize) (ThrottledLimitAfter config bundleSize a)
      (State.withReputations whiteList blackList reputationEntries) ops := by
  have hinitial : Covered a (State.withReputations whiteList blackList reputationEntries) :=
    Nat.le_refl 0
  exact AllSteps.of_invariant (Operation.perform config bundleSize)
    (fun s op hcovered hkeeps => throttledLimit_step ha hne op hcovered hkeeps) hinitial hkeeps

end Steps

section Concrete

def addresses (userOp : UserOperation) : List String :=
  userOp.sender :: [userOp.paymaster, userOp.factory].filterMap id

/-- The operations a step submits to the pool. -/
def submitted : Operation → List UserOperation
  | .mempool (.addUserOp _ param) => [param.userOp]
  | _ => []

def addsOrRemoves : Operation → Bool
  | .mempool (.addUserOp _ _) => true
  | .mempool (.removeUserOp _) => true
  | _ => false

/-- Adds and removals on lower-case addresses, with one role for each address
of an operation and one role for the given address throughout. -/
structure SingleRoleRun (a : String) (ops : List Operation) : Prop where
  kinds : ∀ op ∈ ops, addsOrRemoves op
  lower : ∀ userOp ∈ ops.flatMap submitted, ∀ addr ∈ addresses userOp, toLowerCase addr = addr
  distinct : ∀ userOp ∈ ops.flatMap submitted, (addresses userOp).Nodup
  role : (∀ userOp ∈ ops.flatMap submitted, names a userOp → userOp.sender = a) ∨
    (∀ userOp ∈ ops.flatMap submitted, names a userOp → userOp.paymaster = some a) ∨
    ∀ userOp ∈ ops.flatMap submitted, names a userOp → userOp.factory = some a

/-- The sponsor has been seen a hundred and ten times and never included. -/
def sponsorThrottled : ReputationEntries := KeyedRecord.empty.insert ⟨sponsor, 110, 0⟩

/-- One new operation of the throttled sponsor. -/
theorem throttled_limit_on_one_add :
    AllSteps (Operation.perform plainConfig 5) (ThrottledLimitAfter plainConfig 5 sponsor)
      (State.withReputations [] [] sponsorThrottled) [add 1 "1" (some sponsor)] :=
  throttled_limit_along_run plainConfig 5 [] [] sponsorThrottled
    ⟨by decide, by decide, by decide⟩ (by decide) _
    ⟨⟨fun old _ hadmitted => absurd hadmitted (not_replacement _ _ (by decide) old),
      fun _ _ _ _ => by decide⟩, trivial⟩

/-- Four operations of one sender and one of another, all with the sponsor. -/
def fiveSponsored : List Operation :=
  [add 1 "1" (some sponsor), add 2 "2" (some sponsor), add 3 "3" (some sponsor),
    add 4 "4" (some sponsor), .mempool (.addUserOp richDeposits
      (plainParam (plainOp otherAccount 1 10 (some sponsor) none) (hashOf "5")))]

/-- The fifth is let in, with the counter at four. -/
theorem fifth_let_in :
    ¬∀ (config : StakeConfig) (bundleSize : ℕ) (reputationEntries : ReputationEntries)
      (a : String) (ops : List Operation), SingleRoleRun a ops →
      AllSteps (Operation.perform config bundleSize) (ThrottledLimitAfter config bundleSize a)
        (State.withReputations [] [] reputationEntries) ops := by
  intro h
  have hrun : SingleRoleRun sponsor fiveSponsored :=
    ⟨by decide, by decide, by decide, Or.inr (Or.inl (by decide))⟩
  obtain ⟨_, _, _, _, hlast, _⟩ := h plainConfig 5 sponsorThrottled sponsor fiveSponsored hrun
  have hlimit := hlast (by decide) (by decide) (by decide) ⟨⟨hashOf "5", by decide⟩, by decide⟩
  exact absurd hlimit (by decide)

end Concrete

end Bundler.ThrottledEntities
