import Bundler.Operations

/-!
The entry counts against the pool. An address is counted once for every
pool entry whose sender, paymaster or factory it is. Every update of the
pool is described by the operations that leave it and the one that enters;
the counters follow along only where an added operation puts nothing else
out, a replacement names what the replaced operation named, and a removed
operation names nothing but its own sender, in lower case.
-/
namespace Bundler.PoolCounts

open KeyedRecords AsyncPrograms DataModel StateService ReputationManager DepositManager
  MempoolHelper MempoolManager Operations Runs

/-- An address as the counters know it. -/
structure Counted (a : String) : Prop where
  lower : toLowerCase a = a
  ne_0x : a ≠ "0x"
  ne_empty : a ≠ ""

def namesRole (a : String) (userOp : UserOperation) : Bool :=
  userOp.paymaster.map toLowerCase = some a || userOp.factory.map toLowerCase = some a

def names (a : String) (userOp : UserOperation) : Bool :=
  toLowerCase userOp.sender = a || namesRole a userOp

/-- The number of pool entries whose operation meets p. -/
def poolCount (p : UserOperation → Bool) (standardPool : StandardPool) : ℕ :=
  standardPool.values.countP (fun entry => p entry.userOp)

def CountsMatch (s : State) : Prop :=
  ∀ a, Counted a → s.mempoolEntryCount a = poolCount (names a) s.standardPool

section Counters

theorem countedRole_eq_some_iff {a : String} (ha : Counted a) (addr : Option String) :
    countedRole addr = some a ↔ addr.map toLowerCase = some a := by
  unfold countedRole truthy
  cases addr with
  | none => simp
  | some addr =>
    by_cases hempty : addr = ""
    · subst hempty
      have hlower : toLowerCase "" = "" := rfl
      simp [hlower, ha.ne_empty.symm]
    · by_cases haddr : toLowerCase addr = a
      · simp [Option.filter, hempty, haddr, ha.ne_0x]
      · simp [Option.filter, hempty, haddr]

theorem incrementEntryCount_apply (counts updated : EntryCount) (addr a : String) :
    incrementEntryCount counts updated addr a = if addr = a then counts a + 1 else updated a := by
  unfold incrementEntryCount
  by_cases h : addr = a
  · subst h
    simp
  · rw [Function.update_of_ne (Ne.symm h), if_neg h]

theorem incrementRoleCount_apply {a : String} (ha : Counted a) (counts updated : EntryCount)
    (role : Option String) :
    incrementRoleCount counts updated role a =
      if role.map toLowerCase = some a then counts a + 1 else updated a := by
  unfold incrementRoleCount
  simp only [← countedRole_eq_some_iff ha]
  cases countedRole role with
  | none => simp
  | some addr => simp [incrementEntryCount_apply]

/-- A new operation raises the count of each address it names by one, even
of one it names twice. -/
theorem entriesCountToUpdate_apply {a : String} (ha : Counted a) (counts : EntryCount)
    (userOp : UserOperation) :
    entriesCountToUpdate counts userOp a = counts a + if names a userOp then 1 else 0 := by
  unfold entriesCountToUpdate names namesRole
  rw [incrementRoleCount_apply ha, incrementRoleCount_apply ha, incrementEntryCount_apply]
  by_cases hsender : toLowerCase userOp.sender = a
  · simp [hsender]
  · by_cases hpaymaster : userOp.paymaster.map toLowerCase = some a
    · simp [hpaymaster]
    · by_cases hfactory : userOp.factory.map toLowerCase = some a
      · simp [hfactory]
      · simp [hsender, hpaymaster, hfactory]

theorem decrementEntryCount_apply (counts : EntryCount) (addr a : String) :
    decrementEntryCount counts addr a = if a = addr then counts a - 1 else counts a := by
  unfold decrementEntryCount
  by_cases h : a = addr
  · subst h
    simp
  · rw [Function.update_of_ne h, if_neg h]

end Counters

section Pools

variable (p : UserOperation → Bool) (standardPool : StandardPool)

/-- The operations that leave the pool when one enters under a hash: the
one replaced, and any other found under that hash. -/
def displaced (userOpHash : String) (old : Option MempoolEntry) : List UserOperation :=
  (old.toList ++ ((withoutOld standardPool old).get userOpHash).toList).map MempoolEntry.userOp

theorem poolCount_delete {entry : MempoolEntry} (h : entry ∈ standardPool.values) :
    poolCount p (standardPool.delete entry.userOpHash) + (if p entry.userOp then 1 else 0) =
      poolCount p standardPool :=
  (standardPool.countP_of_get _ (standardPool.get_key h)).symm

theorem poolCount_insert (entry : MempoolEntry) :
    poolCount p (standardPool.insert entry) +
        ((standardPool.get entry.userOpHash).toList.map MempoolEntry.userOp).countP p =
      poolCount p standardPool + if p entry.userOp then 1 else 0 := by
  have hinsert := standardPool.countP_insert (fun entry => p entry.userOp) entry
  cases hget : standardPool.get entry.userOpHash with
  | none =>
    rw [standardPool.delete_of_get_eq_none hget] at hinsert
    exact hinsert
  | some other =>
    have hother := standardPool.countP_of_get (fun entry => p entry.userOp) hget
    have hsingle : ((some other).toList.map MempoolEntry.userOp).countP p =
        if p other.userOp then 1 else 0 := by
      simp [List.countP_cons]
    unfold poolCount
    rw [hsingle]
    omega

/-- What an admitted operation does to the pool, counted. -/
theorem poolCount_doUpdateMempoolState (entry : MempoolEntry) {old : Option MempoolEntry}
    (hold : ∀ e ∈ old, e ∈ standardPool.values) (counts : EntryCount) :
    poolCount p (doUpdateMempoolState entry old standardPool counts).1 +
        (displaced standardPool entry.userOpHash old).countP p =
      poolCount p standardPool + if p entry.userOp then 1 else 0 := by
  cases old with
  | none => exact poolCount_insert p standardPool entry
  | some old =>
    have hinsert := poolCount_insert p (standardPool.delete old.userOpHash) entry
    have hdelete := poolCount_delete p standardPool (hold old rfl)
    have hdisplaced : (displaced standardPool entry.userOpHash (some old)).countP p =
        (if p old.userOp then 1 else 0) + (((standardPool.delete old.userOpHash).get
          entry.userOpHash).toList.map MempoolEntry.userOp).countP p := by
      simp [displaced, withoutOld, List.countP_cons, Nat.add_comm]
    rw [hdisplaced]
    unfold doUpdateMempoolState
    dsimp only
    omega

theorem poolCount_of_userOps_eq {standardPool standardPool' : StandardPool}
    (h : standardPool'.values.map MempoolEntry.userOp =
      standardPool.values.map MempoolEntry.userOp) :
    poolCount p standardPool' = poolCount p standardPool := by
  have hcount (pool : StandardPool) :
      poolCount p pool = (pool.values.map MempoolEntry.userOp).countP p := by
    rw [List.countP_map]
    rfl
  rw [hcount, hcount, h]

end Pools

section Runs

variable (config : StakeConfig) (bundleSize : ℕ)

/-- A new operation puts no counted entry out, and a replacement names
exactly the addresses that what it puts out named. -/
def NamesKept (standardPool : StandardPool) (param : RelayUserOpParam)
    (old : Option MempoolEntry) : Prop :=
  ∀ a, Counted a → (displaced standardPool param.userOpHash old).countP (names a) =
    (if old.isSome then [param.userOp] else []).countP (names a)

/-- The operation names nothing but its sender, spelled in lower case. -/
def OnlySenderNamed (userOp : UserOperation) : Prop :=
  ∀ a, Counted a → names a userOp → a = userOp.sender

/-- The steps on which the counters follow the pool. -/
def KeepsCounts (s : State) : MempoolOp → Prop
  | .addUserOp balanceOf param => ∀ old, DepositSuffices balanceOf param s →
      Admitted config param s old → NamesKept s.standardPool param old
  | .removeUserOp userOpOrHash => ∀ entry, findEntry userOpOrHash s.standardPool = some entry →
      OnlySenderNamed entry.userOp
  | _ => True

variable {config} {s : State}

theorem old_mem_of_admitted {param : RelayUserOpParam} {old : Option MempoolEntry}
    (h : Admitted config param s old) : ∀ e ∈ old, e ∈ s.standardPool.values := by
  intro e he
  cases he
  exact (findBySenderNonce_eq_some h.1).1

theorem countsMatch_afterAdmission_iff {param : RelayUserOpParam} {old : Option MempoolEntry}
    (hmatch : CountsMatch s) (hadmitted : Admitted config param s old) :
    CountsMatch (afterAdmission param s old) ↔ NamesKept s.standardPool param old := by
  apply forall₂_congr
  intro a ha
  rw [afterAdmission_standardPool, afterAdmission_mempoolEntryCount]
  have hpool := poolCount_doUpdateMempoolState (names a) s.standardPool (newEntry param)
    (old_mem_of_admitted hadmitted) s.mempoolEntryCount
  have hcounts := hmatch a ha
  change _ + (displaced s.standardPool param.userOpHash old).countP (names a) =
    _ + (if names a param.userOp then 1 else 0) at hpool
  cases old with
  | none =>
    have hnew : (doUpdateMempoolState (newEntry param) none s.standardPool
        s.mempoolEntryCount).2 a = s.mempoolEntryCount a + if names a param.userOp then 1 else 0 :=
      entriesCountToUpdate_apply ha s.mempoolEntryCount param.userOp
    rw [hnew]
    simp only [Option.isSome_none, Bool.false_eq_true, if_false, List.countP_nil]
    omega
  | some old =>
    have hsame : (doUpdateMempoolState (newEntry param) (some old) s.standardPool
        s.mempoolEntryCount).2 a = s.mempoolEntryCount a := rfl
    rw [hsame]
    simp only [Option.isSome_some, if_true, List.countP_singleton]
    omega

theorem countsMatch_removeUserOp_iff {entry : MempoolEntry} (hmatch : CountsMatch s)
    (hentry : entry ∈ s.standardPool.values) :
    CountsMatch (MempoolUpdate.apply s (.removeUserOp entry)).1 ↔ OnlySenderNamed entry.userOp := by
  apply forall₂_congr
  intro a ha
  change decrementEntryCount s.mempoolEntryCount entry.userOp.sender a =
    poolCount (names a) (s.standardPool.delete entry.userOpHash) ↔ _
  have hpool := poolCount_delete (names a) s.standardPool hentry
  have hcounts := hmatch a ha
  rw [decrementEntryCount_apply]
  by_cases hsender : a = entry.userOp.sender
  · have hnames : names a entry.userOp = true := by
      unfold names
      rw [← hsender, ha.lower]
      simp
    rw [if_pos hnames] at hpool
    rw [if_pos hsender]
    constructor
    · intro _ _
      exact hsender
    · intro _
      omega
  · rw [if_neg hsender]
    by_cases hnames : names a entry.userOp = true
    · rw [if_pos hnames] at hpool
      constructor
      · intro hkept
        omega
      · intro honly
        exact absurd (honly hnames) hsender
    · rw [if_neg hnames] at hpool
      constructor
      · intro _ hnamed
        exact absurd hnamed hnames
      · intro _
        omega

/-- Operations that only change statuses keep the counters right. -/
theorem countsMatch_of_userOps_eq {s' : State} (hmatch : CountsMatch s)
    (hcounts : s'.mempoolEntryCount = s.mempoolEntryCount)
    (hpool : s'.standardPool.values.map MempoolEntry.userOp =
      s.standardPool.values.map MempoolEntry.userOp) : CountsMatch s' := by
  intro a ha
  rw [hcounts, poolCount_of_userOps_eq (names a) hpool]
  exact hmatch a ha

theorem statusUpdated_mempoolEntryCount (s : State) (userOpHash : String)
    (status : EntryStatus) :
    (statusUpdated s userOpHash status).mempoolEntryCount = s.mempoolEntryCount := by
  unfold statusUpdated
  cases s.standardPool.get userOpHash with
  | none => rfl
  | some entry => rfl

theorem userOps_statusUpdated (s : State) (userOpHash : String) (status : EntryStatus) :
    (statusUpdated s userOpHash status).standardPool.values.map MempoolEntry.userOp =
      s.standardPool.values.map MempoolEntry.userOp :=
  map_statusUpdated s (fun _ _ => rfl) userOpHash status

/-- One operation keeps the counters right exactly under its condition. -/
theorem countsMatch_perform_iff (op : MempoolOp) (hmatch : CountsMatch s) :
    CountsMatch (MempoolOp.perform config bundleSize s op) ↔ KeepsCounts config s op := by
  cases op with
  | addUserOp balanceOf param =>
    by_cases haccepted : Accepted config balanceOf param s
    · obtain ⟨hdeposit, old, hadmitted⟩ := (accepted_iff config balanceOf param s).mp haccepted
      rw [perform_of_admitted config bundleSize balanceOf param hdeposit hadmitted,
        countsMatch_afterAdmission_iff hmatch hadmitted]
      constructor
      · intro hkept old' _ hadmitted'
        rwa [← Admitted.unique config param hadmitted hadmitted']
      · intro hkept
        exact hkept old hdeposit hadmitted
    · rw [perform_of_not_accepted config bundleSize balanceOf param haccepted]
      constructor
      · intro _ old hdeposit hadmitted
        exact absurd ((accepted_iff config balanceOf param s).mpr ⟨hdeposit, old, hadmitted⟩)
          haccepted
      · intro _
        exact hmatch
  | removeUserOp userOpOrHash =>
    rw [perform_removeUserOp]
    unfold userOpRemoved
    change _ ↔ ∀ entry, findEntry userOpOrHash s.standardPool = some entry →
      OnlySenderNamed entry.userOp
    cases hfind : findEntry userOpOrHash s.standardPool with
    | none =>
      refine iff_of_true hmatch ?_
      intro entry hentry
      cases hentry
    | some entry =>
      dsimp only
      rw [countsMatch_removeUserOp_iff hmatch (findEntry_mem hfind)]
      constructor
      · intro honly entry' hentry'
        cases hentry'
        exact honly
      · intro honly
        exact honly entry rfl
  | updateEntryStatus userOpHash status =>
    rw [perform_updateEntryStatus]
    exact iff_of_true (countsMatch_of_userOps_eq hmatch
      (statusUpdated_mempoolEntryCount s userOpHash status)
      (userOps_statusUpdated s userOpHash status)) trivial
  | getNextPending =>
    rw [perform_getNextPending]
    exact iff_of_true
      (countsMatch_of_userOps_eq hmatch rfl (map_markBundling (fun _ _ => rfl) _ _)) trivial
  | getAllPending =>
    rw [perform_getAllPending]
    exact iff_of_true
      (countsMatch_of_userOps_eq hmatch rfl (map_markBundling (fun _ _ => rfl) _ _)) trivial
  | clearState =>
    refine iff_of_true ?_ trivial
    intro a _
    rfl

/-- Along a run of completed operations the counters match the pool in every
state exactly when every step meets its condition. -/
theorem counts_match_iff (whiteList blackList : List String) (ops : List MempoolOp) :
    AllStates (MempoolOp.perform config bundleSize) CountsMatch
        (State.initial whiteList blackList) ops ↔
      AllSteps (MempoolOp.perform config bundleSize) (KeepsCounts config)
        (State.initial whiteList blackList) ops := by
  have hinitial : CountsMatch (State.initial whiteList blackList) := by
    intro a _
    rfl
  exact allStates_iff_allSteps (MempoolOp.perform config bundleSize)
    (fun s op hmatch => countsMatch_perform_iff bundleSize op hmatch) hinitial ops

end Runs

section Concrete

/-- The pool uses no address in two roles within one entry. -/
def NoDualRoles (standardPool : StandardPool) : Prop :=
  ∀ entry ∈ standardPool.values,
    (toLowerCase entry.userOp.sender ::
      [entry.userOp.paymaster, entry.userOp.factory].filterMap (Option.map toLowerCase)).Nodup

instance (standardPool : StandardPool) : Decidable (NoDualRoles standardPool) :=
  inferInstanceAs (Decidable (∀ entry ∈ standardPool.values, _))

/-- An operation of a sender spelled with a capital is added and removed. -/
def addAndRemove : List MempoolOp :=
  [.addUserOp richDeposits (plainParam (plainOp checksummed 1 10 none none) hash₁),
    .removeUserOp (.hash hash₁)]

/-- The count outlives the entry it was made for. -/
theorem count_left_behind :
    ¬∀ (config : StakeConfig) (bundleSize : ℕ) (ops : List MempoolOp),
      NoDualRoles (run (MempoolOp.perform config bundleSize) (State.initial [] [])
        ops).standardPool →
      CountsMatch (run (MempoolOp.perform config bundleSize) (State.initial [] []) ops) := by
  intro h
  have hcount := h plainConfig 5 addAndRemove (by decide) account ⟨by decide, by decide, by decide⟩
  exact absurd hcount (by decide)

end Concrete

end Bundler.PoolCounts
