import Bundler.MempoolLimits
import Bundler.RoleExclusivity

/-!
What the removal of a banned address takes out of the mempool. The entries
that go are exactly those naming the address, but the counter of every
address that one of them names is deleted, so the counters are right
afterwards only if no entry that stays names one of these addresses.
-/
namespace Bundler.BannedOperations

open KeyedRecords AsyncPrograms DataModel StateService MempoolHelper MempoolManager Operations
  PoolCounts MempoolLimits RoleExclusivity

/-- The addresses in the pool are written in lower case. -/
def LowerCasePool (s : State) : Prop :=
  ∀ entry ∈ s.standardPool.values, ∀ a ∈ rawAddresses entry.userOp, toLowerCase a = a

section Names

variable {userOp : UserOperation} {a : String}

theorem mem_rawAddresses_iff :
    a ∈ rawAddresses userOp ↔
      a = userOp.sender ∨ a ∈ truthy userOp.paymaster ∨ a ∈ truthy userOp.factory := by
  simp [rawAddresses]

/-- A role in lower case is the address just if it is given as the address. -/
theorem role_eq_iff {role : Option String} (hlower : ∀ r ∈ truthy role, toLowerCase r = r) :
    role.map toLowerCase = some a ↔ role = some a := by
  cases role with
  | none => simp
  | some r =>
    have hr : toLowerCase r = r := by
      by_cases hempty : r = ""
      · rw [hempty]
        rfl
      · exact hlower r (truthy_some hempty)
    simp [hr]

/-- In lower case an operation names the addresses it spells. -/
theorem names_iff (hlower : ∀ b ∈ rawAddresses userOp, toLowerCase b = b) :
    names a userOp ↔
      userOp.sender = a ∨ userOp.paymaster = some a ∨ userOp.factory = some a := by
  have hsender := hlower userOp.sender (mem_rawAddresses_iff.mpr (.inl rfl))
  have hpaymaster : userOp.paymaster.map toLowerCase = some a ↔ userOp.paymaster = some a :=
    role_eq_iff fun r hr => hlower r (mem_rawAddresses_iff.mpr (.inr (.inl hr)))
  have hfactory : userOp.factory.map toLowerCase = some a ↔ userOp.factory = some a :=
    role_eq_iff fun r hr => hlower r (mem_rawAddresses_iff.mpr (.inr (.inr hr)))
  unfold names namesRole
  simp only [Bool.or_eq_true, decide_eq_true_eq, hsender, hpaymaster, hfactory]

theorem truthy_eq_some_iff {role : Option String} (hne : a ≠ "") :
    truthy role = some a ↔ role = some a := by
  unfold truthy
  rw [Option.filter_eq_some_iff]
  simp [hne]

/-- Of the addresses that are counted it names those given in it. -/
theorem names_iff_mem_rawAddresses (hlower : ∀ b ∈ rawAddresses userOp, toLowerCase b = b)
    (ha : Counted a) : names a userOp ↔ a ∈ rawAddresses userOp := by
  rw [names_iff hlower, mem_rawAddresses_iff, Option.mem_def, Option.mem_def,
    truthy_eq_some_iff ha.ne_empty, truthy_eq_some_iff ha.ne_empty, eq_comm]

end Names

section Removal

variable (s : State) (addr : String)

def afterRemoval : State := (runAlone (removeUserOpsForBannedAddr addr) s).1

/-- The pool is the old one without the entries that name the address, and
every counter is again the number of entries naming its address. -/
def RemovalExact : Prop :=
  (afterRemoval s addr).standardPool.values =
      s.standardPool.values.filter (fun entry => !names addr entry.userOp) ∧
    CountsMatch (afterRemoval s addr)

/-- No entry that stays names an address that an entry taken out names. -/
def SharesNoAddress : Prop :=
  ∀ entry ∈ s.standardPool.values, names addr entry.userOp →
    ∀ other ∈ s.standardPool.values, ¬names addr other.userOp →
      ∀ a, Counted a → names a entry.userOp → ¬names a other.userOp

variable {s addr}

theorem spells_eq_names (hlower : LowerCasePool s) {entry : MempoolEntry}
    (hentry : entry ∈ s.standardPool.values) : spells addr entry = names addr entry.userOp := by
  rw [Bool.eq_iff_iff, names_iff (hlower entry hentry)]
  simp [spells, or_assoc]

theorem afterRemoval_values (hlower : LowerCasePool s) :
    (afterRemoval s addr).standardPool.values =
      s.standardPool.values.filter (fun entry => !names addr entry.userOp) := by
  have hvalues : (afterRemoval s addr).standardPool.values =
      s.standardPool.values.filter (fun entry => !spells addr entry) :=
    s.standardPool.values_foldl_delete_filter (spells addr)
  rw [hvalues]
  refine List.filter_congr ?_
  intro entry hentry
  rw [spells_eq_names hlower hentry]

/-- The counters of all addresses in the entries taken out are deleted. -/
theorem afterRemoval_count (hlower : LowerCasePool s) {a : String} (ha : Counted a) :
    (afterRemoval s addr).mempoolEntryCount a =
      if ∃ entry ∈ s.standardPool.values, names addr entry.userOp ∧ names a entry.userOp then 0
      else s.mempoolEntryCount a := by
  have hcount : (afterRemoval s addr).mempoolEntryCount a =
      if ∃ entry ∈ s.standardPool.values.filter (spells addr), a ∈ rawAddresses entry.userOp
      then 0 else s.mempoolEntryCount a :=
    foldl_deleteBannedCounts_apply _ _ a
  rw [hcount]
  refine if_congr ?_ rfl rfl
  refine exists_congr fun entry => ?_
  rw [List.mem_filter, and_assoc]
  refine and_congr_right fun hentry => ?_
  rw [spells_eq_names hlower hentry, names_iff_mem_rawAddresses (hlower entry hentry) ha]

theorem poolCount_afterRemoval (hlower : LowerCasePool s) (a : String) :
    poolCount (names a) (afterRemoval s addr).standardPool =
      s.standardPool.values.countP
        (fun entry => names a entry.userOp && !names addr entry.userOp) := by
  unfold poolCount
  rw [afterRemoval_values hlower, List.countP_filter]

/-- The removal of a banned address is exact just if the entries that go
share no address with those that stay. -/
theorem removal_exact_iff (hlower : LowerCasePool s) (hmatch : CountsMatch s) :
    RemovalExact s addr ↔ SharesNoAddress s addr := by
  constructor
  · intro hexact entry hentry hgoes other hother hstays a ha hnames hshared
    have hcount := hexact.2 a ha
    rw [afterRemoval_count hlower ha, if_pos ⟨entry, hentry, hgoes, hnames⟩,
      poolCount_afterRemoval hlower] at hcount
    have hnone := List.countP_eq_zero.mp hcount.symm other hother
    simp [hshared, hstays] at hnone
  · intro hshares
    refine ⟨afterRemoval_values hlower, ?_⟩
    intro a ha
    rw [afterRemoval_count hlower ha, poolCount_afterRemoval hlower]
    split
    · rename_i hdeleted
      obtain ⟨entry, hentry, hgoes, hnames⟩ := hdeleted
      refine (List.countP_eq_zero.mpr ?_).symm
      intro other hother
      by_cases hstays : names addr other.userOp
      · simp [hstays]
      · simp [hshares entry hentry hgoes other hother hstays a ha hnames]
    · rename_i hkept
      rw [hmatch a ha]
      refine List.countP_congr ?_
      intro entry hentry
      by_cases hnames : names a entry.userOp
      · have hstays : ¬names addr entry.userOp := fun hgoes => hkept ⟨entry, hentry, hgoes, hnames⟩
        simp [hnames, hstays]
      · simp [hnames]

theorem sharesNoAddress_of_banFits (hlower : LowerCasePool s) (h : BanFits s addr) :
    SharesNoAddress s addr := by
  intro entry hentry hgoes other hother hstays a ha hnames
  rw [← spells_eq_names hlower hentry] at hgoes
  rw [← spells_eq_names hlower hother] at hstays
  rw [names_iff_mem_rawAddresses (hlower entry hentry) ha] at hnames
  exact h entry hentry hgoes other hother hstays a hnames

end Removal

section Concrete

/-- A sponsored operation of the account and one of the sender that is not,
with the counters that match them. -/
def sponsoredAnd (sender : String) : State :=
  let standardPool : StandardPool :=
    ⟨[newEntry (plainParam (plainOp account 1 10 (some sponsor) none) hash₁),
      newEntry (plainParam (plainOp sender 2 10 none none) hash₂)],
      show [hash₁, hash₂].Nodup by decide⟩
  { State.initial [] [] with
    standardPool := standardPool
    mempoolEntryCount := fun a => poolCount (names a) standardPool }

theorem countsMatch_sponsoredAnd (sender : String) : CountsMatch (sponsoredAnd sender) :=
  fun _ _ => rfl

theorem lowerCasePool_sponsoredAnd {sender : String} (h : toLowerCase sender = sender) :
    LowerCasePool (sponsoredAnd sender) := by
  intro entry hentry a ha
  have hcases : a = account ∨ a = sponsor ∨ a = sender := by
    simp [sponsoredAnd] at hentry
    rcases hentry with hentry | hentry
    · simp [hentry, rawAddresses, newEntry, plainParam, plainOp, truthy, Option.filter] at ha
      rcases ha with haccount | hsponsor
      · exact Or.inl haccount
      · exact Or.inr (Or.inl hsponsor.2.symm)
    · simp [hentry, rawAddresses, newEntry, plainParam, plainOp, truthy, Option.filter] at ha
      exact Or.inr (Or.inr ha)
  rcases hcases with ha | ha | ha
  · rw [ha]
    decide
  · rw [ha]
    decide
  · rw [ha]
    exact h

theorem removal_exact_apart : RemovalExact (sponsoredAnd otherAccount) sponsor :=
  (removal_exact_iff (lowerCasePool_sponsoredAnd (by decide))
    (countsMatch_sponsoredAnd otherAccount)).mpr
    (sharesNoAddress_of_banFits (lowerCasePool_sponsoredAnd (by decide))
      (by unfold BanFits; decide))

/-- The account's other operation stays, but is no longer counted. -/
theorem removal_forgets_account :
    LowerCasePool (sponsoredAnd account) ∧ CountsMatch (sponsoredAnd account) ∧
      RolesApart (sponsoredAnd account).standardPool ∧
      ¬RemovalExact (sponsoredAnd account) sponsor := by
  refine ⟨lowerCasePool_sponsoredAnd (by decide), countsMatch_sponsoredAnd account, by decide, ?_⟩
  intro hexact
  have hcount := hexact.2 account ⟨by decide, by decide, by decide⟩
  exact absurd hcount (by decide)

end Concrete

end Bundler.BannedOperations
