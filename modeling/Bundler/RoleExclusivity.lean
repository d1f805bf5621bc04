import Bundler.Operations

/-!
One role for each address across the pool. The sender of a pooled operation
is not to be the paymaster or factory of another one. A new operation is
checked against the senders and entities known from the pool; a replacement
is not, so the rule lasts exactly as long as no replacement names the sender
of an entry that stays pooled.
-/
namespace Bundler.RoleExclusivity

open KeyedRecords AsyncPrograms DataModel StateService ReputationManager DepositManager
  MempoolHelper MempoolManager Operations Runs

/-- The paymaster and the factory of an operation, in lower case. -/
def roleAddresses (userOp : UserOperation) : List String :=
  [userOp.paymaster, userOp.factory].filterMap countedRole

/-- The sender of the one is no paymaster or factory of the other. -/
def SenderApart (userOp other : UserOperation) : Prop :=
  toLowerCase userOp.sender ∉ roleAddresses other

instance : DecidableRel SenderApart :=
  fun _ _ => inferInstanceAs (Decidable (_ ∉ _))

/-- No sender of an entry is a paymaster or factory of another one. -/
def RolesApart (standardPool : StandardPool) : Prop :=
  standardPool.ApartBy MempoolEntry.userOp SenderApart

instance (standardPool : StandardPool) : Decidable (RolesApart standardPool) :=
  inferInstanceAs (Decidable (standardPool.ApartBy _ _))

section KnownAddresses

variable {standardPool : StandardPool} {entry : MempoolEntry} {userOp : UserOperation}

theorem countedRole_eq_some {role : Option String} {a : String} (h : countedRole role = some a) :
    ∃ addr, truthy role = some addr ∧ addr ≠ "0x" ∧ toLowerCase addr = a ∧
      role.map toLowerCase = some a := by
  unfold countedRole at h
  obtain ⟨hmap, hne⟩ := Option.filter_eq_some_iff.mp h
  obtain ⟨addr, htruthy, rfl⟩ := Option.map_eq_some_iff.mp hmap
  obtain ⟨rfl, _⟩ := Option.filter_eq_some_iff.mp htruthy
  refine ⟨addr, htruthy, ?_, rfl, rfl⟩
  rintro rfl
  exact absurd hne (by decide)

theorem mem_roleAddresses_iff (a : String) :
    a ∈ roleAddresses userOp ↔
      countedRole userOp.paymaster = some a ∨ countedRole userOp.factory = some a := by
  simp [roleAddresses]

theorem mem_getKnownEntities {a : String} (hentry : entry ∈ standardPool.values)
    (ha : a ∈ roleAddresses entry.userOp) : a ∈ getKnownEntities standardPool := by
  have hnamed : ∃ addr ∈ [(truthy entry.userOp.paymaster).getD "0x",
      (truthy entry.userOp.factory).getD "0x"], addr ≠ "0x" ∧ toLowerCase addr = a := by
    rcases (mem_roleAddresses_iff a).mp ha with hrole | hrole
    · obtain ⟨addr, htruthy, hne, hlower, _⟩ := countedRole_eq_some hrole
      exact ⟨addr, by simp [htruthy], hne, hlower⟩
    · obtain ⟨addr, htruthy, hne, hlower, _⟩ := countedRole_eq_some hrole
      exact ⟨addr, by simp [htruthy], hne, hlower⟩
  obtain ⟨addr, haddr, hne, hlower⟩ := hnamed
  unfold getKnownEntities
  refine List.mem_map.mpr ⟨addr, List.mem_filter.mpr ⟨?_, by simpa using hne⟩, hlower⟩
  exact List.mem_flatMap.mpr ⟨entry, hentry, haddr⟩

/-- An operation that respects the roles taken in the pool is apart, both
ways round, from every entry. -/
theorem senderApart_of_rolesRespected (h : RolesRespected userOp standardPool)
    (hentry : entry ∈ standardPool.values) :
    SenderApart entry.userOp userOp ∧ SenderApart userOp entry.userOp := by
  obtain ⟨hsender, hpaymaster, hfactory⟩ := h
  have hknown : toLowerCase entry.userOp.sender ∈ getKnownSenders standardPool :=
    List.mem_map.mpr ⟨entry, hentry, rfl⟩
  constructor
  · intro hrole
    rcases (mem_roleAddresses_iff _).mp hrole with hrole | hrole
    · obtain ⟨_, _, _, _, hlower⟩ := countedRole_eq_some hrole
      rw [hlower] at hpaymaster
      exact hpaymaster hknown
    · obtain ⟨_, _, _, _, hlower⟩ := countedRole_eq_some hrole
      rw [hlower] at hfactory
      exact hfactory hknown
  · intro hrole
    exact hsender (mem_getKnownEntities hentry hrole)

end KnownAddresses

section Steps

variable {config : StakeConfig} {s : State} {param : RelayUserOpParam}

/-- No sender of an entry that stays pooled is a paymaster or factory of the
operation that replaces an entry. -/
def ReplacementApart (standardPool : StandardPool) (param : RelayUserOpParam)
    (old : MempoolEntry) : Prop :=
  ∀ other ∈ standardPool.values, other.userOpHash ≠ old.userOpHash →
    other.userOpHash ≠ param.userOpHash → SenderApart other.userOp param.userOp

/-- The steps that keep the roles apart. -/
def KeepsRolesApart (config : StakeConfig) (s : State) : Operation → Prop
  | .mempool (.addUserOp balanceOf param) => ∀ old, DepositSuffices balanceOf param s →
      Admitted config param s (some old) → ReplacementApart s.standardPool param old
  | _ => True

theorem rolesApart_new (hapart : RolesApart s.standardPool)
    (hadmitted : Admitted config param s none) :
    RolesApart (afterAdmission param s none).standardPool := by
  rw [afterAdmission_standardPool]
  refine (KeyedRecord.ApartBy.insert_iff hapart (newEntry param)).mpr ?_
  intro other hother _
  exact senderApart_of_rolesRespected hadmitted.2.2 hother

theorem rolesApart_replacement_iff {old : MempoolEntry} (hapart : RolesApart s.standardPool)
    (hadmitted : Admitted config param s (some old)) :
    RolesApart (afterAdmission param s (some old)).standardPool ↔
      ReplacementApart s.standardPool param old := by
  obtain ⟨hold, hslot⟩ := findBySenderNonce_eq_some hadmitted.1
  have hsender : toLowerCase old.userOp.sender = toLowerCase param.userOp.sender :=
    congrArg Prod.fst hslot
  have hrest : RolesApart (s.standardPool.delete old.userOpHash) :=
    hapart.of_subset fun entry hentry => ((s.standardPool.mem_delete _ _).mp hentry).1
  rw [afterAdmission_standardPool]
  refine (KeyedRecord.ApartBy.insert_iff hrest (newEntry param)).trans ?_
  constructor
  · intro h other hother hne hhash
    exact (h other ((s.standardPool.mem_delete _ _).mpr ⟨hother, hne⟩) hhash).1
  · intro h other hother hhash
    obtain ⟨hpooled, hne⟩ := (s.standardPool.mem_delete _ _).mp hother
    refine ⟨h other hpooled hne hhash, ?_⟩
    -- the sender is the old one, which was apart from the entry already
    have hother := hapart old hold other hpooled hne.symm
    unfold SenderApart at hother ⊢
    rw [hsender] at hother
    exact hother

/-- One operation keeps the roles apart exactly under its condition. -/
theorem rolesApart_perform_iff (bundleSize : ℕ) (op : Operation)
    (hapart : RolesApart s.standardPool) :
    RolesApart (op.perform config bundleSize s).standardPool ↔ KeepsRolesApart config s op := by
  by_cases haccepted : ∃ balanceOf param, op = .mempool (.addUserOp balanceOf param) ∧
      Accepted config balanceOf param s
  · obtain ⟨balanceOf, param, rfl, haccepted⟩ := haccepted
    obtain ⟨hdeposit, old, hadmitted⟩ := (accepted_iff config balanceOf param s).mp haccepted
    have hperform : Operation.perform config bundleSize s (.mempool (.addUserOp balanceOf param)) =
        afterAdmission param s old :=
      perform_of_admitted config bundleSize balanceOf param hdeposit hadmitted
    rw [hperform]
    cases old with
    | none =>
      refine iff_of_true (rolesApart_new hapart hadmitted) ?_
      intro old _ hold
      cases Admitted.unique config param hadmitted hold
    | some old =>
      rw [rolesApart_replacement_iff hapart hadmitted]
      constructor
      · intro h old' _ hadmitted'
        cases Admitted.unique config param hadmitted hadmitted'
        exact h
      · intro h
        exact h old hdeposit hadmitted
  · have hnot : ∀ balanceOf param, op = .mempool (.addUserOp balanceOf param) →
        ¬Accepted config balanceOf param s := by
      intro balanceOf param hop hright
      exact haccepted ⟨balanceOf, param, hop, hright⟩
    refine iff_of_true (perform_keeps config bundleSize s
      (fun _ _ hsub hpool => KeyedRecord.ApartBy.of_subset hpool hsub)
      (fun _ _ hmap hpool => KeyedRecord.ApartBy.of_map_eq hpool hmap) op hnot hapart) ?_
    unfold KeepsRolesApart
    split
    · rename_i balanceOf param
      intro old hdeposit hadmitted
      exact absurd ((accepted_iff config balanceOf param s).mpr ⟨hdeposit, some old, hadmitted⟩)
        (hnot balanceOf param rfl)
    · trivial

/-- Along a run of completed operations the roles are apart in every state
exactly when no replacement names the sender of an entry that stays. -/
theorem roles_apart_iff (config : StakeConfig) (bundleSize : ℕ)
    (whiteList blackList : List String) (ops : List Operation) :
    AllStates (Operation.perform config bundleSize) (fun s => RolesApart s.standardPool)
        (State.initial whiteList blackList) ops ↔
      AllSteps (Operation.perform config bundleSize) (KeepsRolesApart config)
        (State.initial whiteList blackList) ops := by
  have hinitial : RolesApart (State.initial whiteList blackList).standardPool := by
    intro entry hentry
    cases hentry
  exact allStates_iff_allSteps (Operation.perform config bundleSize)
    (I := fun s => RolesApart s.standardPool)
    (fun _ op hapart => rolesApart_perform_iff bundleSize op hapart) hinitial ops

end Steps

section Concrete

/-- Two operations of two senders, the first of which is then replaced by one
that has the second sender as its paymaster. -/
def sponsoredBySender : List Operation :=
  [plainAdd account hash₁, plainAdd otherAccount hash₂,
    .mempool (.addUserOp richDeposits
      (plainParam (plainOp account 1 20 (some otherAccount) none) (hashOf "3")))]

theorem sender_becomes_paymaster :
    ¬∀ (config : StakeConfig) (bundleSize : ℕ) (ops : List Operation),
      RolesApart (run (Operation.perform config bundleSize) (State.initial [] [])
        ops).standardPool := by
  intro h
  exact absurd (h plainConfig 5 sponsoredBySender) (by decide)

end Concrete

end Bundler.RoleExclusivity
