import Bundler.ReputationManager
import Mathlib.Algebra.BigOperators.Group.List.Basic
import Mathlib.Tactic.Linarith
import Mathlib.Tactic.Ring

/-!
The deposit manager's admission check (EREP-010) and what it guarantees.
The check charges every pooled operation of the paymaster at the maximum
cost of the new operation, so it accepts exactly when the deposit covers
that many copies of the new operation and one more.
-/
namespace Bundler.DepositManager

open KeyedRecords AsyncPrograms DataModel StateService ReputationManager

/-- The entry point's balanceOf at one moment; the call itself may reject. -/
abbrev BalanceOf := String → Except JsError ℕ

def getUserOpMaxCost (userOp : UserOperation) : ℤ :=
  (userOp.preVerificationGas + userOp.verificationGasLimit + userOp.callGasLimit +
    userOp.paymasterVerificationGasLimit.getD 0 + userOp.paymasterPostOpGasLimit.getD 0) *
    userOp.maxFeePerGas

/-- The deposit left after charging the new operation once for itself and
once for every pooled entry of its paymaster. -/
def depositLeft (deposit : ℤ) (userOp : UserOperation) (paymaster : String)
    (standardPool : StandardPool) : ℤ :=
  standardPool.values.foldl
    (fun deposit entry =>
      if entry.userOp.paymaster = some paymaster then deposit - getUserOpMaxCost userOp
      else deposit)
    (deposit - getUserOpMaxCost userOp)

def depositTooLow : RpcError where
  message := "paymaster deposit too low for all mempool UserOps"
  code := ValidationErrors.paymasterDepositTooLow.code

def checkPaymasterDeposit (balanceOf : BalanceOf) (userOp : UserOperation) : Async PUnit :=
  match userOp.paymaster with
  | none => pure ⟨⟩
  | some paymaster =>
      if paymaster = "0x" ∨ paymaster = zeroAddress then pure ⟨⟩
      else do
        let deposit ← Program.ofExcept (balanceOf paymaster)
        let s ← getState
        requireCond (0 ≤ depositLeft deposit userOp paymaster s.standardPool) depositTooLow

/-- A paymaster the check looks at. -/
def DepositChecked (userOp : UserOperation) (paymaster : String) : Prop :=
  userOp.paymaster = some paymaster ∧ paymaster ≠ "0x" ∧ paymaster ≠ zeroAddress

/-- The number of pooled entries that spell their paymaster the same way. -/
def pooledOps (paymaster : String) (standardPool : StandardPool) : ℕ :=
  standardPool.values.countP (fun entry => entry.userOp.paymaster = some paymaster)

/-- The maximum cost of the pooled entries whose paymaster is P, under any
reading of which spellings are P. -/
def pooledMaxCost (isP : String → Bool) (standardPool : StandardPool) : ℤ :=
  ((standardPool.values.filter (fun entry => entry.userOp.paymaster.any isP)).map
    (fun entry => getUserOpMaxCost entry.userOp)).sum

theorem depositLeft_eq (deposit : ℤ) (userOp : UserOperation) (paymaster : String)
    (standardPool : StandardPool) :
    depositLeft deposit userOp paymaster standardPool =
      deposit - (pooledOps paymaster standardPool + 1) * getUserOpMaxCost userOp := by
  have hfold : ∀ (entries : List MempoolEntry) (d : ℤ),
      entries.foldl (fun deposit entry =>
        if entry.userOp.paymaster = some paymaster then deposit - getUserOpMaxCost userOp
        else deposit) d =
      d - entries.countP (fun entry => entry.userOp.paymaster = some paymaster) *
        getUserOpMaxCost userOp := by
    intro entries
    induction entries with
    | nil => simp
    | cons entry entries ih =>
      intro d
      rw [List.foldl_cons, ih, List.countP_cons]
      by_cases h : entry.userOp.paymaster = some paymaster
      · simp only [h, if_true, decide_true, Nat.cast_add, Nat.cast_one]
        ring
      · simp only [h, if_false, decide_false, Bool.false_eq_true, Nat.add_zero]
  unfold depositLeft pooledOps
  rw [hfold]
  ring

theorem checkPaymasterDeposit_readOnly (balanceOf : BalanceOf) (userOp : UserOperation) :
    (checkPaymasterDeposit balanceOf userOp).ReadOnly := by
  unfold checkPaymasterDeposit
  split
  · exact trivial
  · rename_i paymaster _
    split
    · exact trivial
    · apply Program.ReadOnly.bind
      · exact trivial
      · intro deposit s _
        exact requireCond_readOnly _ _

/-- The check passes exactly on deposits that cover one copy of the new
operation for itself and one for every pooled entry of the paymaster. -/
theorem checkPaymasterDeposit_passesIff (balanceOf : BalanceOf) {userOp : UserOperation}
    {paymaster : String} (hp : DepositChecked userOp paymaster) :
    PassesIff (checkPaymasterDeposit balanceOf userOp) fun s =>
      ∃ deposit, balanceOf paymaster = .ok deposit ∧
        (pooledOps paymaster s.standardPool + 1) * getUserOpMaxCost userOp ≤ deposit := by
  obtain ⟨hpaymaster, hempty, hzero⟩ := hp
  unfold checkPaymasterDeposit
  simp only [hpaymaster, hempty, hzero, or_self, if_false]
  cases hb : balanceOf paymaster with
  | error e =>
    intro s s'
    constructor
    · intro h
      exact absurd (congrArg Prod.snd h) (by simp [Program.run, Program.ofExcept,
        Program.bind_def, Program.bind])
    · rintro ⟨⟨_, h, _⟩, _⟩
      cases h
  | ok deposit =>
    have hcheck : PassesIff (getState >>= fun s =>
        requireCond (0 ≤ depositLeft deposit userOp paymaster s.standardPool) depositTooLow) _ :=
      .read_bind fun _ => requireCond_passesIff _ _
    refine hcheck.congr fun s => ?_
    rw [depositLeft_eq]
    constructor
    · intro h
      exact ⟨deposit, rfl, by linarith⟩
    · rintro ⟨_, h, hle⟩
      cases h
      linarith

section Coverage

/-- A deposit that pays for the operation and for every pooled operation of
its paymaster, whichever spellings count as that paymaster. -/
def DepositCovers (isP : String → Bool) (balanceOf : BalanceOf) (userOp : UserOperation)
    (paymaster : String) (s : State) : Prop :=
  ∃ deposit, balanceOf paymaster = .ok deposit ∧
    getUserOpMaxCost userOp + pooledMaxCost isP s.standardPool ≤ deposit

/-- A check that passes means a covering deposit. -/
def CheckCovers (isP : String → Bool) (balanceOf : BalanceOf) (userOp : UserOperation)
    (paymaster : String) (s : State) : Prop :=
  runAlone (checkPaymasterDeposit balanceOf userOp) s = (s, .ok ⟨⟩) →
    DepositCovers isP balanceOf userOp paymaster s

/-- What the check charges: the new operation's cost, once for itself and
once for each pooled entry. -/
def chargedCost (userOp : UserOperation) (paymaster : String) (s : State) : ℤ :=
  (pooledOps paymaster s.standardPool + 1) * getUserOpMaxCost userOp

variable (isP : String → Bool) {userOp : UserOperation} {paymaster : String}

theorem checkCovers_iff (balanceOf : BalanceOf) (hp : DepositChecked userOp paymaster)
    (s : State) :
    CheckCovers isP balanceOf userOp paymaster s ↔
      ∀ deposit : ℕ, balanceOf paymaster = .ok deposit →
        chargedCost userOp paymaster s ≤ deposit →
        getUserOpMaxCost userOp + pooledMaxCost isP s.standardPool ≤ deposit := by
  have hpasses := checkPaymasterDeposit_passesIff balanceOf hp s s
  constructor
  · intro hcovers deposit hbalance hcharged
    obtain ⟨deposit', hbalance', hle⟩ := hcovers (hpasses.mpr ⟨⟨deposit, hbalance, hcharged⟩, rfl⟩)
    cases hbalance.symm.trans hbalance'
    exact hle
  · intro hgap hcheck
    obtain ⟨⟨deposit, hbalance, hcharged⟩, _⟩ := hpasses.mp hcheck
    exact ⟨deposit, hbalance, hgap deposit hbalance hcharged⟩

/-- The check covers the pool exactly when the deposit does not lie between
what it charges and what the pool may cost, and for every deposit exactly
when the pool may cost no more than it charges. -/
theorem deposit_check_covers_iff (hp : DepositChecked userOp paymaster) (s : State) :
    (∀ balanceOf, CheckCovers isP balanceOf userOp paymaster s ↔
      ¬∃ deposit : ℕ, balanceOf paymaster = .ok deposit ∧
        chargedCost userOp paymaster s ≤ deposit ∧
        deposit < getUserOpMaxCost userOp + pooledMaxCost isP s.standardPool) ∧
    ((∀ balanceOf, CheckCovers isP balanceOf userOp paymaster s) ↔
      getUserOpMaxCost userOp + pooledMaxCost isP s.standardPool ≤
        max 0 (chargedCost userOp paymaster s)) := by
  constructor
  · intro balanceOf
    rw [checkCovers_iff isP balanceOf hp]
    constructor
    · rintro hgap ⟨deposit, hbalance, hcharged, hlt⟩
      have hle := hgap deposit hbalance hcharged
      omega
    · intro hgap deposit hbalance hcharged
      by_contra hlt
      exact hgap ⟨deposit, hbalance, hcharged, not_le.mp hlt⟩
  · constructor
    · intro hcovers
      have hdeposit := (checkCovers_iff isP
        (fun _ => .ok (chargedCost userOp paymaster s).toNat) hp s).mp (hcovers _) _ rfl
      have hcharged : chargedCost userOp paymaster s ≤
          ((chargedCost userOp paymaster s).toNat : ℤ) := Int.self_le_toNat _
      have hle := hdeposit hcharged
      omega
    · intro hle balanceOf
      rw [checkCovers_iff isP balanceOf hp]
      intro deposit _ hcharged
      omega

end Coverage

section Concrete

/-- A pool of one expensive operation of the sponsor. -/
def sponsoredPool : State :=
  { State.initial [] [] with
    standardPool := KeyedRecord.insert .empty
      { userOp := plainOp account 1 100 (some sponsor) none
        userOpHash := hash₁
        prefund := 0
        referencedContracts := some ⟨[], ""⟩
        status := .pending } }

def isSponsor (addr : String) : Bool := toLowerCase addr = toLowerCase sponsor

theorem sponsored_check_covers_iff :
    (∀ balanceOf, CheckCovers isSponsor balanceOf (plainOp account 2 1 (some sponsor) none)
        sponsor sponsoredPool ↔
      ¬∃ deposit : ℕ, balanceOf sponsor = .ok deposit ∧
        chargedCost (plainOp account 2 1 (some sponsor) none) sponsor sponsoredPool ≤ deposit ∧
        deposit < getUserOpMaxCost (plainOp account 2 1 (some sponsor) none) +
          pooledMaxCost isSponsor sponsoredPool.standardPool) ∧
    ((∀ balanceOf, CheckCovers isSponsor balanceOf (plainOp account 2 1 (some sponsor) none)
        sponsor sponsoredPool) ↔
      getUserOpMaxCost (plainOp account 2 1 (some sponsor) none) +
          pooledMaxCost isSponsor sponsoredPool.standardPool ≤
        max 0 (chargedCost (plainOp account 2 1 (some sponsor) none) sponsor sponsoredPool)) :=
  deposit_check_covers_iff isSponsor ⟨rfl, by decide, by decide⟩ sponsoredPool

/-- A deposit for two cheap operations passes for a cheap one beside an
expensive one. -/
theorem cheap_op_passes :
    ¬∀ (isP : String → Bool) (balanceOf : BalanceOf) (userOp : UserOperation)
      (paymaster : String) (s : State),
      (∀ addr, isP addr ↔ toLowerCase addr = toLowerCase paymaster) →
      DepositChecked userOp paymaster → CheckCovers isP balanceOf userOp paymaster s := by
  intro h
  have hcovers := h isSponsor (fun _ => .ok 700000) (plainOp account 2 1 (some sponsor) none)
    sponsor sponsoredPool (fun addr => by simp [isSponsor]) ⟨rfl, by decide, by decide⟩
  have hle := (checkCovers_iff isSponsor _ ⟨rfl, by decide, by decide⟩ sponsoredPool).mp hcovers
    700000 rfl (by decide)
  exact absurd hle (by decide)

end Concrete

end Bundler.DepositManager
