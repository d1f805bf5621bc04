import Bundler.AdmissionLaws
import Bundler.PoolCounts

/-!
The limits on unstaked entities. They are enforced on the counters, so they
bound the pool as long as no counter falls below the number of entries that
name its address. Adds and removals keep it so; a replacement does when it
brings in no new paymaster or factory, and a ban when the counters it
deletes have no entries left.
-/
namespace Bundler.MempoolLimits

open KeyedRecords AsyncPrograms DataModel StateService ReputationManager DepositManager
  MempoolHelper MempoolManager Operations Runs AdmissionLaws PoolCounts

/-- The counter of an address is not below the number of entries naming it. -/
def Covered (a : String) (s : State) : Prop :=
  poolCount (names a) s.standardPool ≤ s.mempoolEntryCount a

/-- No counter is below the number of entries naming its address. -/
def CountsCover (s : State) : Prop :=
  ∀ a, Counted a → poolCount (names a) s.standardPool ≤ s.mempoolEntryCount a

def Unstaked (config : StakeConfig) (info : StakeInfo) : Prop :=
  info.stake < config.minStake ∨ info.unstakeDelaySec < config.minUnstakeDelay

def isSender (a : String) (userOp : UserOperation) : Bool := toLowerCase userOp.sender = a

/-- The limits of an operation's unstaked entities, by the reputation of one
state, in a given pool. -/
structure WithinLimits (config : StakeConfig) (s : State) (param : RelayUserOpParam)
    (standardPool : StandardPool) : Prop where
  sender : Unstaked config param.senderInfo → Counted (toLowerCase param.userOp.sender) →
    (poolCount (isSender (toLowerCase param.userOp.sender)) standardPool : ℤ) ≤
      MAX_MEMPOOL_USEROPS_PER_SENDER
  roles : ∀ infos ∈ [param.paymasterInfo, param.factoryInfo], ∀ info ∈ infos,
    Unstaked config info → Counted (toLowerCase info.addr) →
    (poolCount (namesRole (toLowerCase info.addr)) standardPool : ℤ) ≤
      maxAllowedMempoolOpsUnstaked s info.addr

section Conditions

variable (config : StakeConfig) (bundleSize : ℕ)

/-- An accepted replacement names no paymaster or factory that the replaced
operation did not, and finds the pool within its limits. -/
structure ReplacementFits (config : StakeConfig) (s : State) (param : RelayUserOpParam)
    (old : MempoolEntry) : Prop where
  roles : ∀ a, Counted a → namesRole a param.userOp → namesRole a old.userOp
  limits : WithinLimits config s param s.standardPool

/-- The addresses of an operation as given, which is how a ban deletes their counters. -/
def rawAddresses (userOp : UserOperation) : List String :=
  userOp.sender :: (truthy userOp.paymaster).toList ++ (truthy userOp.factory).toList

/-- No counter deleted for a banned address has entries left. -/
def BanFits (s : State) (addr : String) : Prop :=
  ∀ entry ∈ s.standardPool.values, spells addr entry →
    ∀ other ∈ s.standardPool.values, ¬spells addr other →
      ∀ a ∈ rawAddresses entry.userOp, ¬names a other.userOp

/-- The counter of an address is not deleted for a banned address while
entries that name it stay. -/
def BanSpares (s : State) (addr a : String) : Prop :=
  ∀ entry ∈ s.standardPool.values, spells addr entry →
    ∀ other ∈ s.standardPool.values, ¬spells addr other →
      a ∈ rawAddresses entry.userOp → ¬names a other.userOp

/-- The steps on which the counter of an address goes on covering the pool:
no replacement brings the address in, and no ban takes only its counter away. -/
def KeepsCovered (a : String) (s : State) : Operation → Prop
  | .mempool (.addUserOp balanceOf param) => ∀ old, DepositSuffices balanceOf param s →
      Admitted config param s (some old) → names a param.userOp → names a old.userOp
  | .removeUserOpsForBannedAddr addr => BanSpares s addr a
  | _ => True

/-- The steps on which the counters go on covering the pool. -/
def KeepsCover (s : State) : Operation → Prop
  | .mempool (.addUserOp balanceOf param) => ∀ old, DepositSuffices balanceOf param s →
      Admitted config param s (some old) → ReplacementFits config s param old
  | .removeUserOpsForBannedAddr addr => BanFits s addr
  | _ => True

/-- After an accepted operation its unstaked entities are within their limits. -/
def LimitsAfter (s : State) (op : Operation) : Prop :=
  match op with
  | .mempool (.addUserOp balanceOf param) =>
      DescribesEntities param → Accepted config balanceOf param s →
        WithinLimits config s param (op.perform config bundleSize s).standardPool
  | _ => True

end Conditions

section Steps

variable {config : StakeConfig} {bundleSize : ℕ} {s : State}

theorem poolCount_mono {p q : UserOperation → Bool} (h : ∀ userOp, p userOp → q userOp)
    (standardPool : StandardPool) : poolCount p standardPool ≤ poolCount q standardPool :=
  List.countP_mono_left fun entry _ hp => h entry.userOp hp

/-- A replaced entry makes room for one that counts no more than it did. -/
theorem poolCount_replace_le (p : UserOperation → Bool) (entry : MempoolEntry)
    {old : MempoolEntry} {standardPool : StandardPool} (hold : old ∈ standardPool.values)
    (counts : EntryCount) (hp : p entry.userOp → p old.userOp) :
    poolCount p (doUpdateMempoolState entry (some old) standardPool counts).1 ≤
      poolCount p standardPool := by
  have hinsert := poolCount_insert p (standardPool.delete old.userOpHash) entry
  have hdelete := poolCount_delete p standardPool hold
  change poolCount p ((standardPool.delete old.userOpHash).insert entry) ≤ _
  by_cases hentry : p entry.userOp = true
  · rw [if_pos hentry] at hinsert
    rw [if_pos (hp hentry)] at hdelete
    omega
  · rw [if_neg hentry] at hinsert
    omega

theorem poolCount_new_le (p : UserOperation → Bool) (entry : MempoolEntry)
    (standardPool : StandardPool) (counts : EntryCount) :
    poolCount p (doUpdateMempoolState entry none standardPool counts).1 ≤
      poolCount p standardPool + if p entry.userOp then 1 else 0 := by
  have hinsert := poolCount_insert p standardPool entry
  change poolCount p (standardPool.insert entry) ≤ _
  omega

/-- A role of the new operation is a role of the old one, and the senders agree. -/
theorem names_of_replacementFits {param : RelayUserOpParam} {old : MempoolEntry} {a : String}
    (ha : Counted a) (hadmitted : Admitted config param s (some old))
    (hfits : ReplacementFits config s param old) (hnames : names a param.userOp) :
    names a old.userOp := by
  obtain ⟨_, hslot⟩ := findBySenderNonce_eq_some hadmitted.1
  have hsender : toLowerCase old.userOp.sender = toLowerCase param.userOp.sender :=
    congrArg Prod.fst hslot
  unfold names at hnames ⊢
  rcases (Bool.or_eq_true _ _).mp hnames with hnamed | hnamed
  · rw [hsender, hnamed, Bool.true_or]
  · rw [hfits.roles a ha hnamed, Bool.or_true]

theorem covered_afterAdmission {param : RelayUserOpParam} {old : Option MempoolEntry} {a : String}
    (ha : Counted a) (hcovered : Covered a s) (hadmitted : Admitted config param s old)
    (hnames : ∀ o, old = some o → names a param.userOp → names a o.userOp) :
    Covered a (afterAdmission param s old) := by
  unfold Covered at hcovered ⊢
  rw [afterAdmission_standardPool, afterAdmission_mempoolEntryCount]
  cases old with
  | none =>
    have hpool := poolCount_new_le (names a) (newEntry param) s.standardPool s.mempoolEntryCount
    have hcount := entriesCountToUpdate_apply ha s.mempoolEntryCount param.userOp
    change _ ≤ entriesCountToUpdate s.mempoolEntryCount param.userOp a
    change _ ≤ _ + if names a param.userOp then 1 else 0 at hpool
    omega
  | some old =>
    have hpool := poolCount_replace_le (names a) (newEntry param)
      (findBySenderNonce_eq_some hadmitted.1).1 s.mempoolEntryCount (hnames old rfl)
    exact hpool.trans hcovered

theorem covered_removeUserOp {entry : MempoolEntry} {a : String} (ha : Counted a)
    (hcovered : Covered a s) (hentry : entry ∈ s.standardPool.values) :
    Covered a (MempoolUpdate.apply s (.removeUserOp entry)).1 := by
  unfold Covered at hcovered ⊢
  have hpool := poolCount_delete (names a) s.standardPool hentry
  change poolCount (names a) (s.standardPool.delete entry.userOpHash) ≤
    decrementEntryCount s.mempoolEntryCount entry.userOp.sender a
  rw [decrementEntryCount_apply]
  by_cases hsender : a = entry.userOp.sender
  · have hnames : names a entry.userOp = true := by
      unfold names
      rw [← hsender, ha.lower]
      simp
    rw [if_pos hnames] at hpool
    rw [if_pos hsender]
    omega
  · rw [if_neg hsender]
    omega

theorem deleteRoleCount_apply (counts : EntryCount) (role : Option String) (a : String) :
    deleteRoleCount counts role a = if a ∈ (truthy role).toList then 0 else counts a := by
  unfold deleteRoleCount deleteEntryCount
  cases truthy role with
  | none => simp
  | some addr => simp [Function.update_apply]

theorem deleteBannedCounts_apply (counts : EntryCount) (userOp : UserOperation) (a : String) :
    deleteBannedCounts counts userOp a = if a ∈ rawAddresses userOp then 0 else counts a := by
  unfold deleteBannedCounts rawAddresses
  rw [deleteRoleCount_apply, deleteRoleCount_apply]
  unfold deleteEntryCount
  rw [Function.update_apply]
  by_cases hfactory : a ∈ (truthy userOp.factory).toList
  · simp [hfactory]
  · by_cases hpaymaster : a ∈ (truthy userOp.paymaster).toList
    · simp [hpaymaster]
    · simp [hfactory, hpaymaster]

/-- A ban leaves a counter alone, unless one of the removed entries gives the
address in so many letters. -/
theorem foldl_deleteBannedCounts_apply (entries : List MempoolEntry) (counts : EntryCount)
    (a : String) :
    entries.foldl (fun counts entry => deleteBannedCounts counts entry.userOp) counts a =
      if ∃ entry ∈ entries, a ∈ rawAddresses entry.userOp then 0 else counts a := by
  induction entries generalizing counts with
  | nil => simp
  | cons entry entries ih =>
    rw [List.foldl_cons, ih, deleteBannedCounts_apply]
    by_cases hrest : ∃ entry ∈ entries, a ∈ rawAddresses entry.userOp
    · simp [hrest]
    · by_cases hfirst : a ∈ rawAddresses entry.userOp
      · simp [hfirst]
      · simp [hrest, hfirst]

theorem covered_bannedRemoved {addr a : String} (hcovered : Covered a s)
    (hspares : BanSpares s addr a) : Covered a (bannedRemoved s addr) := by
  have hpool : poolCount (names a) (bannedRemoved s addr).standardPool ≤
      poolCount (names a) s.standardPool :=
    s.standardPool.countP_foldl_delete_le _ _
  have hcounts : (bannedRemoved s addr).mempoolEntryCount a = _ :=
    foldl_deleteBannedCounts_apply _ _ a
  unfold Covered at hcovered ⊢
  rw [hcounts]
  split
  · rename_i hdeleted
    obtain ⟨entry, hentry, ha'⟩ := hdeleted
    obtain ⟨hmem, hspells⟩ := List.mem_filter.mp hentry
    have hnone : poolCount (names a) (bannedRemoved s addr).standardPool = 0 := by
      apply List.countP_eq_zero.mpr
      intro other hother
      obtain ⟨hother, hleft⟩ := (s.standardPool.mem_foldl_delete _ _).mp hother
      have hkept : ¬spells addr other := by
        intro hspelled
        exact hleft other (List.mem_filter.mpr ⟨hother, hspelled⟩) rfl
      exact hspares entry hmem hspells other hother hkept ha'
    rw [hnone]
  · exact hpool.trans hcovered

theorem covered_of_userOps_eq {s' : State} {a : String} (hcovered : Covered a s)
    (hcounts : s'.mempoolEntryCount = s.mempoolEntryCount)
    (hpool : s'.standardPool.values.map MempoolEntry.userOp =
      s.standardPool.values.map MempoolEntry.userOp) : Covered a s' := by
  unfold Covered at hcovered ⊢
  rw [hcounts, poolCount_of_userOps_eq (names a) hpool]
  exact hcovered

/-- One operation under its condition keeps the counter of an address above
the pool. -/
theorem covered_perform {a : String} (ha : Counted a) (op : Operation)
    (hcovered : Covered a s) (hkeeps : KeepsCovered config a s op) :
    Covered a (op.perform config bundleSize s) := by
  cases op with
  | mempool op =>
    change Covered a (op.perform config bundleSize s)
    cases op with
    | addUserOp balanceOf param =>
      by_cases haccepted : Accepted config balanceOf param s
      · obtain ⟨hdeposit, old, hadmitted⟩ := (accepted_iff config balanceOf param s).mp haccepted
        rw [perform_of_admitted config bundleSize balanceOf param hdeposit hadmitted]
        refine covered_afterAdmission ha hcovered hadmitted ?_
        intro o ho
        subst ho
        exact hkeeps o hdeposit hadmitted
      · rw [perform_of_not_accepted config bundleSize balanceOf param haccepted]
        exact hcovered
    | removeUserOp userOpOrHash =>
      rw [perform_removeUserOp]
      unfold userOpRemoved
      cases hfind : findEntry userOpOrHash s.standardPool with
      | none => exact hcovered
      | some entry => exact covered_removeUserOp ha hcovered (findEntry_mem hfind)
    | updateEntryStatus userOpHash status =>
      rw [perform_updateEntryStatus]
      exact covered_of_userOps_eq hcovered (statusUpdated_mempoolEntryCount s userOpHash status)
        (userOps_statusUpdated s userOpHash status)
    | getNextPending =>
      rw [perform_getNextPending]
      exact covered_of_userOps_eq hcovered rfl (map_markBundling (fun _ _ => rfl) _ _)
    | getAllPending =>
      rw [perform_getAllPending]
      exact covered_of_userOps_eq hcovered rfl (map_markBundling (fun _ _ => rfl) _ _)
    | clearState => exact Nat.le_refl 0
  | removeUserOpsForBannedAddr addr =>
    rw [perform_removeUserOpsForBannedAddr]
    exact covered_bannedRemoved hcovered hkeeps
  | reputation update =>
    have hcounts : (update.apply s).mempoolEntryCount = s.mempoolEntryCount := by simp
    have hpool : (update.apply s).standardPool = s.standardPool := by simp
    exact covered_of_userOps_eq hcovered hcounts
      (congrArg (fun pool => pool.values.map MempoolEntry.userOp) hpool)

/-- A step that keeps all counters above the pool keeps each of them there. -/
theorem keepsCovered_of_keepsCover {op : Operation} (hkeeps : KeepsCover config s op) {a : String}
    (ha : Counted a) : KeepsCovered config a s op := by
  unfold KeepsCover at hkeeps
  unfold KeepsCovered
  split at hkeeps
  · intro old hdeposit hadmitted
    exact names_of_replacementFits ha hadmitted (hkeeps old hdeposit hadmitted)
  · intro entry hentry hspells other hother hkept ha'
    exact hkeeps entry hentry hspells other hother hkept a ha'
  · trivial

end Steps

section Limits

variable {config : StakeConfig} {bundleSize : ℕ} {s : State} {param : RelayUserOpParam}

/-- An unstaked entity passes only with its counter below the limit. -/
theorem count_lt_of_admitted {counts : EntryCount} {max : ℤ} {info : StakeInfo}
    (hadmitted : EntityAdmitted config counts s max info) (hunstaked : Unstaked config info) :
    (counts (toLowerCase info.addr) : ℤ) < max := by
  by_contra hcount
  obtain ⟨hstake, hdelay⟩ := hadmitted.2.2 (not_lt.mp hcount)
  rcases hunstaked with hlow | hlow
  · exact absurd hlow (not_lt.mpr hstake)
  · exact absurd hlow (not_lt.mpr hdelay)

/-- One entry more than a covered counter below the limit. -/
theorem poolCount_new_le_of_covered {p : UserOperation → Bool} {a : String} {max : ℤ}
    (hcovered : Covered a s) (hp : ∀ userOp, p userOp → names a userOp)
    (hmax : (s.mempoolEntryCount a : ℤ) < max) :
    (poolCount p (afterAdmission param s none).standardPool : ℤ) ≤ max := by
  rw [afterAdmission_standardPool]
  have hnew := poolCount_new_le p (newEntry param) s.standardPool s.mempoolEntryCount
  have hmono := poolCount_mono hp s.standardPool
  unfold Covered at hcovered
  split at hnew <;> omega

theorem withinLimits_of_new (hcover : CountsCover s) (hdescribes : DescribesEntities param)
    (hadmitted : Admitted config param s none) :
    WithinLimits config s param (afterAdmission param s none).standardPool := by
  obtain ⟨_, ⟨hsender, hothers⟩, _⟩ := hadmitted
  constructor
  · intro hunstaked ha
    have hmax := count_lt_of_admitted hsender hunstaked
    change (s.mempoolEntryCount (toLowerCase param.senderInfo.addr) : ℤ) < _ at hmax
    rw [hdescribes.sender] at hmax
    refine poolCount_new_le_of_covered (hcover _ ha) ?_ hmax
    intro userOp huserOp
    unfold names
    unfold isSender at huserOp
    rw [huserOp, Bool.true_or]
  · intro infos hinfos info hinfo hunstaked ha
    have hinfos' : infos ∈ [param.paymasterInfo, param.factoryInfo, param.aggregatorInfo] := by
      simp only [List.mem_cons, List.not_mem_nil, or_false] at hinfos ⊢
      tauto
    have hmax := count_lt_of_admitted (hothers infos hinfos' info hinfo) hunstaked
    refine poolCount_new_le_of_covered (hcover _ ha) ?_ hmax
    intro userOp huserOp
    unfold names
    rw [huserOp, Bool.or_true]

theorem withinLimits_of_replacement {old : MempoolEntry}
    (hadmitted : Admitted config param s (some old))
    (hfits : ReplacementFits config s param old) :
    WithinLimits config s param (afterAdmission param s (some old)).standardPool := by
  obtain ⟨hold, hslot⟩ := findBySenderNonce_eq_some hadmitted.1
  have hsame : toLowerCase old.userOp.sender = toLowerCase param.userOp.sender :=
    congrArg Prod.fst hslot
  rw [afterAdmission_standardPool]
  constructor
  · intro hunstaked ha
    have hle := poolCount_replace_le (isSender (toLowerCase param.userOp.sender))
      (newEntry param) hold s.mempoolEntryCount (fun _ => by simp [isSender, hsame])
    have hlimit := hfits.limits.sender hunstaked ha
    omega
  · intro infos hinfos info hinfo hunstaked ha
    have hle := poolCount_replace_le (namesRole (toLowerCase info.addr))
      (newEntry param) hold s.mempoolEntryCount (hfits.roles (toLowerCase info.addr) ha)
    have hlimit := hfits.limits.roles infos hinfos info hinfo hunstaked ha
    omega

end Limits

section Runs

variable {config : StakeConfig} {bundleSize : ℕ} {s : State}

theorem limitsAfter_addUserOp {balanceOf : BalanceOf} {param : RelayUserOpParam}
    (hcover : CountsCover s)
    (hkeeps : KeepsCover config s (.mempool (.addUserOp balanceOf param))) :
    LimitsAfter config bundleSize s (.mempool (.addUserOp balanceOf param)) := by
  intro hdescribes haccepted
  obtain ⟨hdeposit, old, hadmitted⟩ := (accepted_iff config balanceOf param s).mp haccepted
  have hperform : Operation.perform config bundleSize s (.mempool (.addUserOp balanceOf param)) =
      afterAdmission param s old :=
    perform_of_admitted config bundleSize balanceOf param hdeposit hadmitted
  rw [hperform]
  cases old with
  | none => exact withinLimits_of_new hcover hdescribes hadmitted
  | some old => exact withinLimits_of_replacement hadmitted (hkeeps old hdeposit hadmitted)

/-- Every step that meets its condition leaves the unstaked entities of an
accepted operation within their limits, and the counters covering the pool. -/
theorem limits_step (op : Operation) (hcover : CountsCover s) (hkeeps : KeepsCover config s op) :
    LimitsAfter config bundleSize s op ∧ CountsCover (op.perform config bundleSize s) := by
  constructor
  · unfold LimitsAfter
    split
    · exact limitsAfter_addUserOp hcover hkeeps
    · trivial
  · intro a ha
    exact covered_perform ha op (hcover a ha) (keepsCovered_of_keepsCover hkeeps ha)

/-- In a run whose steps all meet their conditions, every accepted operation
leaves its unstaked entities within their limits. -/
theorem limits_hold_along_run (whiteList blackList : List String) (ops : List Operation)
    (hkeeps : AllSteps (Operation.perform config bundleSize) (KeepsCover config)
      (State.initial whiteList blackList) ops) :
    AllSteps (Operation.perform config bundleSize) (LimitsAfter config bundleSize)
      (State.initial whiteList blackList) ops := by
  have hinitial : CountsCover (State.initial whiteList blackList) := by
    intro a _
    exact Nat.le_refl 0
  exact AllSteps.of_invariant (Operation.perform config bundleSize)
    (fun s op hcover hkeeps => limits_step op hcover hkeeps) hinitial hkeeps

end Runs

section Concrete

theorem keepsCover_of_not_pooled {config : StakeConfig} {s : State} (balanceOf : BalanceOf)
    {param : RelayUserOpParam}
    (h : findBySenderNonce param.userOp.sender param.userOp.nonce s.standardPool = none) :
    KeepsCover config s (.mempool (.addUserOp balanceOf param)) := by
  intro old _ hadmitted
  exact absurd hadmitted (not_replacement config param h old)

def add (nonce : ℤ) (digit : String) (paymaster : Option String) : Operation :=
  .mempool (.addUserOp richDeposits
    (plainParam (plainOp account nonce 10 paymaster none) (hashOf digit)))

theorem limits_hold_on_two_adds :
    AllSteps (Operation.perform plainConfig 5) (LimitsAfter plainConfig 5) (State.initial [] [])
      [add 1 "1" none, add 2 "2" (some sponsor)] :=
  limits_hold_along_run [] [] _
    ⟨keepsCover_of_not_pooled _ (by decide), keepsCover_of_not_pooled _ (by decide), trivial⟩

/-- Four operations of an unstaked sender, a ban that takes one of them and
the sender's counter, and two more operations. -/
def addAroundBan : List Operation :=
  [add 1 "1" (some sponsor), add 2 "2" none, add 3 "3" none, add 4 "4" none,
    .removeUserOpsForBannedAddr sponsor, add 5 "5" none, add 6 "6" none]

/-- The last of them is the fifth pooled operation of its sender. -/
theorem limit_exceeded :
    ¬∀ (config : StakeConfig) (bundleSize : ℕ) (ops : List Operation),
      AllSteps (Operation.perform config bundleSize) (LimitsAfter config bundleSize)
        (State.initial [] []) ops := by
  intro h
  obtain ⟨_, _, _, _, _, _, hlast, _⟩ := h plainConfig 5 addAroundBan
  have hlimits := hlast (by decide) ⟨hashOf "6", by decide⟩
  have hfour := hlimits.sender (Or.inl (by decide)) ⟨by decide, by decide, by decide⟩
  exact absurd hfour (by decide)

end Concrete

end Bundler.MempoolLimits
