import Bundler.Operations

/-!
What an admission does to the pool. It either changes nothing at all, or it
stores the new entry and drops the entry it replaces. The replaced entry is
the one found under the sender and nonce of the operation, so nothing else
is touched.
-/
namespace Bundler.AdmissionEffect

open KeyedRecords AsyncPrograms DataModel StateService ReputationManager DepositManager
  MempoolHelper MempoolManager Operations

/-- Only entries of the operation's own slot are pooled under its hash. -/
def HashOfSlot (standardPool : StandardPool) (param : RelayUserOpParam) : Prop :=
  ∀ entry ∈ standardPool.values, entry.userOpHash = param.userOpHash →
    slot entry.userOp = slot param.userOp

instance (standardPool : StandardPool) (param : RelayUserOpParam) :
    Decidable (HashOfSlot standardPool param) :=
  inferInstanceAs (Decidable (∀ _ ∈ _, _ → _))

/-- The entry of the operation is pooled as pending, at most one entry under
another hash is gone, and all that is gone was of the operation's slot. -/
structure Admits (param : RelayUserOpParam) (standardPool standardPool' : StandardPool) :
    Prop where
  added : standardPool'.get param.userOpHash = some (newEntry param)
  unchanged : ∀ entry ∈ standardPool'.values, entry.userOpHash ≠ param.userOpHash →
    entry ∈ standardPool.values
  dropped_slot : ∀ entry ∈ standardPool.values, entry ∉ standardPool'.values →
    slot entry.userOp = slot param.userOp
  dropped_once : ∀ entry ∈ standardPool.values, ∀ other ∈ standardPool.values,
    entry.userOpHash ≠ param.userOpHash → other.userOpHash ≠ param.userOpHash →
      entry ∉ standardPool'.values → other ∉ standardPool'.values → entry = other

section Pool

variable {s : State} {param : RelayUserOpParam} {old : Option MempoolEntry}

theorem doUpdateMempoolState_fst (entry : MempoolEntry) (old : Option MempoolEntry)
    (standardPool : StandardPool) (mempoolEntryCount : EntryCount) :
    (doUpdateMempoolState entry old standardPool mempoolEntryCount).1 =
      (withoutOld standardPool old).insert entry := by
  cases old with
  | none => rfl
  | some old => rfl

theorem mem_withoutOld_iff (standardPool : StandardPool) (old : Option MempoolEntry)
    (entry : MempoolEntry) :
    entry ∈ (withoutOld standardPool old).values ↔
      entry ∈ standardPool.values ∧ ∀ replaced ∈ old, entry.userOpHash ≠ replaced.userOpHash := by
  cases old with
  | none => simp [withoutOld]
  | some old => simp [withoutOld]

/-- An entry under another hash goes only if it is the one replaced. -/
theorem replaced_of_dropped {standardPool : StandardPool} {entry : MempoolEntry}
    (hold : ∀ replaced ∈ old, replaced ∈ standardPool.values)
    (hentry : entry ∈ standardPool.values) (hhash : entry.userOpHash ≠ param.userOpHash)
    (hdropped : entry ∉ ((withoutOld standardPool old).insert (newEntry param)).values) :
    entry ∈ old := by
  rw [KeyedRecord.mem_insert, not_or, not_and, mem_withoutOld_iff] at hdropped
  have hgone : ¬∀ replaced ∈ old, entry.userOpHash ≠ replaced.userOpHash :=
    fun hleft => hdropped.2 ⟨hentry, hleft⟩ hhash
  push Not at hgone
  obtain ⟨replaced, hreplaced, hsame⟩ := hgone
  rwa [standardPool.eq_of_key_eq hentry (hold replaced hreplaced) hsame]

theorem admits_afterAdmission (hhash : HashOfSlot s.standardPool param)
    (hold : ∀ replaced ∈ old, replaced ∈ s.standardPool.values ∧
      slot replaced.userOp = slot param.userOp) :
    Admits param s.standardPool (afterAdmission param s old).standardPool := by
  have hpooled : ∀ replaced ∈ old, replaced ∈ s.standardPool.values :=
    fun replaced hreplaced => (hold replaced hreplaced).1
  rw [afterAdmission_standardPool, doUpdateMempoolState_fst]
  refine ⟨?_, ?_, ?_, ?_⟩
  · exact (withoutOld s.standardPool old).get_insert_self (newEntry param)
  · intro entry hentry hne
    rcases (KeyedRecord.mem_insert _ _ _).mp hentry with rfl | ⟨hleft, _⟩
    · exact absurd rfl hne
    · exact ((mem_withoutOld_iff _ _ _).mp hleft).1
  · intro entry hentry hdropped
    by_cases hsame : entry.userOpHash = param.userOpHash
    · exact hhash entry hentry hsame
    · exact (hold entry (replaced_of_dropped hpooled hentry hsame hdropped)).2
  · intro entry hentry other hother hne hne' hdropped hdropped'
    have hreplaced := replaced_of_dropped hpooled hentry hne hdropped
    have hreplaced' := replaced_of_dropped hpooled hother hne' hdropped'
    exact Option.some.inj (hreplaced.symm.trans hreplaced')

end Pool

/-- An admission that does not return Right leaves the state as it is; one
that does returns the hash and has its effect on the pool, and no other. -/
theorem addUserOp_all_or_nothing (config : StakeConfig) (balanceOf : BalanceOf)
    (param : RelayUserOpParam) (s : State) (hhash : HashOfSlot s.standardPool param) :
    ((∀ userOpHash,
        (runAlone (addUserOp config balanceOf param) s).2 ≠ .ok (.ok userOpHash)) →
          (runAlone (addUserOp config balanceOf param) s).1 = s) ∧
      ∀ userOpHash, (runAlone (addUserOp config balanceOf param) s).2 = .ok (.ok userOpHash) →
        userOpHash = param.userOpHash ∧
          Admits param s.standardPool
            (runAlone (addUserOp config balanceOf param) s).1.standardPool := by
  refine ⟨addUserOp_rejected config balanceOf param s, ?_⟩
  intro userOpHash hright
  obtain ⟨hreturned, _, old, hadmitted, hafter⟩ :=
    (addUserOp_ok_iff config balanceOf param s _ userOpHash).mp (Prod.ext rfl hright)
  have hold : ∀ replaced ∈ old, replaced ∈ s.standardPool.values ∧
      slot replaced.userOp = slot param.userOp := by
    rintro replaced rfl
    exact findBySenderNonce_eq_some hadmitted.1
  have hadmits := admits_afterAdmission hhash hold
  rw [← hafter] at hadmits
  exact ⟨hreturned, hadmits⟩

section Concrete

def oneAdded : State :=
  Operation.perform plainConfig 5 (State.initial [] []) (plainAdd account hash₁)

/-- The operation of the account with twice the fees. -/
def bumped : RelayUserOpParam := plainParam (plainOp account 1 20 none none) hash₂

theorem bumped_all_or_nothing :
    ((∀ userOpHash,
        (runAlone (addUserOp plainConfig richDeposits bumped) oneAdded).2 ≠ .ok (.ok userOpHash)) →
          (runAlone (addUserOp plainConfig richDeposits bumped) oneAdded).1 = oneAdded) ∧
      ∀ userOpHash,
        (runAlone (addUserOp plainConfig richDeposits bumped) oneAdded).2 = .ok (.ok userOpHash) →
          userOpHash = hash₂ ∧
            Admits bumped oneAdded.standardPool
              (runAlone (addUserOp plainConfig richDeposits bumped) oneAdded).1.standardPool :=
  addUserOp_all_or_nothing plainConfig richDeposits bumped oneAdded (by decide)

end Concrete

end Bundler.AdmissionEffect
