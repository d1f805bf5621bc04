import Bundler.BundleBuilder
import Bundler.Runs

/-!
What a bundle spends of a paymaster's deposit. While the bundle has not used
up the deposit, the cached value is what is left of it. Once the two are
equal the cache reads zero, and the next entry of the paymaster finds the
whole deposit again. So a bundle stays within the deposit exactly when
nothing chargeable comes along after the deposit is used up to the last wei.
-/
namespace Bundler.PaymasterBudget

open AsyncPrograms DataModel StateService ReputationManager DepositManager MempoolHelper Validation
  BundleBuilder Runs

def isSponsoredBy (paymaster : String) (included : Included) : Bool :=
  truthy included.1.userOp.paymaster = some paymaster

def prefundOf (included : Included) : ℕ := included.2.validation.returnInfo.prefund

/-- The sum of the re-validated prefunds of the bundled operations of a paymaster. -/
def spentFor (paymaster : String) (included : List Included) : ℕ :=
  ((included.filter (isSponsoredBy paymaster)).map prefundOf).sum

theorem spentFor_append (paymaster : String) (included : List Included) (last : Included) :
    spentFor paymaster (included ++ [last]) =
      spentFor paymaster included + if isSponsoredBy paymaster last then prefundOf last else 0 := by
  unfold spentFor
  rw [List.filter_append, List.map_append, List.sum_append]
  by_cases h : isSponsoredBy paymaster last = true
  · simp [h]
  · simp [h]

section Invariant

variable {builder : Builder} {knownSenders : List String} {s : State} {paymaster : String}
  {balance : ℕ} {acc acc' : BundleAcc} {entry : MempoolEntry}

/-- The cache holds what is left of the deposit, or, the deposit being used
up, the whole of it again. -/
structure BudgetKept (paymaster : String) (balance : ℕ) (acc : BundleAcc) : Prop where
  spent : spentFor paymaster acc.included ≤ balance
  uncached : acc.paymasterDeposit paymaster = none → spentFor paymaster acc.included = 0
  cached : ∀ deposit, acc.paymasterDeposit paymaster = some deposit →
    deposit + spentFor paymaster acc.included = balance ∨
      (spentFor paymaster acc.included = balance ∧ deposit = balance)

/-- No operation with a prefund the deposit could pay comes along when the
bundle has used up the deposit exactly. -/
def NotPastExhaustion (builder : Builder) (knownSenders : List String) (s : State)
    (paymaster : String) (balance : ℕ) (acc : BundleAcc) (entry : MempoolEntry) : Prop :=
  truthy entry.userOp.paymaster = some paymaster →
    ∀ res, screen builder knownSenders acc entry (statusIn s entry.userOp.paymaster)
        (statusIn s entry.userOp.factory) = .fits res →
      0 < res.validation.returnInfo.prefund → res.validation.returnInfo.prefund ≤ balance →
      spentFor paymaster acc.included ≠ balance

/-- What is available is what is left, or the whole deposit when nothing is. -/
theorem availableDeposit_of_budgetKept {deposit : ℤ} (hkept : BudgetKept paymaster balance acc)
    (hbalance : builder.balanceOf paymaster = .ok balance)
    (hdeposit : availableDeposit builder acc paymaster = .ok deposit) :
    (spentFor paymaster acc.included = balance → deposit = balance) ∧
      (spentFor paymaster acc.included ≠ balance →
        deposit + spentFor paymaster acc.included = balance) := by
  unfold availableDeposit at hdeposit
  cases hcache : acc.paymasterDeposit paymaster with
  | none =>
    rw [hcache, hbalance] at hdeposit
    have hwhole : (balance : ℤ) = deposit := Except.ok.inj hdeposit
    have hnone := hkept.uncached hcache
    omega
  | some left =>
    have hleft := hkept.cached left hcache
    rw [hcache, hbalance] at hdeposit
    by_cases hzero : left = 0
    · simp only [hzero, if_true] at hdeposit
      have hwhole : (balance : ℤ) = deposit := Except.ok.inj hdeposit
      omega
    · simp only [hzero, if_false] at hdeposit
      have hsame : left = deposit := Except.ok.inj hdeposit
      omega

theorem spentFor_addToBundle (paymaster : String) (acc : BundleAcc) (entry : MempoolEntry)
    (res : ValidateUserOpResult) :
    spentFor paymaster (addToBundle acc entry res).included =
      spentFor paymaster acc.included +
        if truthy entry.userOp.paymaster = some paymaster then
          res.validation.returnInfo.prefund else 0 := by
  change spentFor paymaster (acc.included ++ [(entry, res)]) = _
  rw [spentFor_append]
  unfold isSponsoredBy prefundOf
  by_cases h : truthy entry.userOp.paymaster = some paymaster
  · simp [h]
  · simp [h]

theorem spentFor_mono (paymaster : String)
    (h : addEntryIn builder knownSenders s acc entry = .ok acc') :
    spentFor paymaster acc.included ≤ spentFor paymaster acc'.included := by
  rcases addEntry_cases h with ⟨err, _, rfl⟩ | ⟨_, rfl⟩ | ⟨res, _, hfits⟩
  · exact le_refl _
  · exact le_refl _
  · rcases hfits with ⟨_, rfl⟩ | ⟨other, deposit, _, _, ⟨_, rfl⟩ | ⟨_, rfl⟩⟩
    · rw [spentFor_addToBundle]
      omega
    · exact le_refl _
    · rw [spentFor_addToBundle]
      exact Nat.le_add_right _ _

theorem budgetKept_congr (hkept : BudgetKept paymaster balance acc)
    (hincluded : spentFor paymaster acc'.included = spentFor paymaster acc.included)
    (hdeposit : acc'.paymasterDeposit paymaster = acc.paymasterDeposit paymaster) :
    BudgetKept paymaster balance acc' := by
  refine ⟨?_, ?_, ?_⟩
  · rw [hincluded]
    exact hkept.spent
  · rw [hincluded, hdeposit]
    exact hkept.uncached
  · rw [hincluded, hdeposit]
    exact hkept.cached

/-- A deposit cached anew, with what is spent beside it. -/
theorem budgetKept_of_cached {deposit : ℤ} (hspent : spentFor paymaster acc.included ≤ balance)
    (hcache : acc.paymasterDeposit paymaster = some deposit)
    (hdeposit : deposit + spentFor paymaster acc.included = balance ∨
      (spentFor paymaster acc.included = balance ∧ deposit = balance)) :
    BudgetKept paymaster balance acc := by
  refine ⟨hspent, ?_, ?_⟩
  · intro hnone
    rw [hcache] at hnone
    cases hnone
  · intro deposit' hdeposit'
    rw [hcache] at hdeposit'
    cases hdeposit'
    exact hdeposit

theorem setDeposit_self (acc : BundleAcc) (paymaster : String) (deposit : ℤ) :
    (setDeposit acc paymaster deposit).paymasterDeposit paymaster = some deposit :=
  Function.update_self _ _ _

theorem setDeposit_ne {other : String} (hne : other ≠ paymaster) (acc : BundleAcc)
    (deposit : ℤ) :
    (setDeposit acc other deposit).paymasterDeposit paymaster = acc.paymasterDeposit paymaster :=
  Function.update_of_ne hne.symm _ _

/-- An entry that does not come past exhaustion keeps the budget. -/
theorem budgetKept_step (hbalance : builder.balanceOf paymaster = .ok balance)
    (hkept : BudgetKept paymaster balance acc)
    (hnot : NotPastExhaustion builder knownSenders s paymaster balance acc entry)
    (h : addEntryIn builder knownSenders s acc entry = .ok acc') :
    BudgetKept paymaster balance acc' := by
  rcases addEntry_cases h with ⟨err, _, rfl⟩ | ⟨_, rfl⟩ | ⟨res, hscreen, hfits⟩
  · exact budgetKept_congr hkept rfl rfl
  · exact budgetKept_congr hkept rfl rfl
  · rcases hfits with ⟨hnone, rfl⟩ | ⟨other, deposit, hother, hdeposit, hcharge⟩
    · refine budgetKept_congr hkept ?_ rfl
      rw [spentFor_addToBundle, hnone]
      simp
    · by_cases hsame : other = paymaster
      · subst hsame
        obtain ⟨hused, hleft⟩ := availableDeposit_of_budgetKept hkept hbalance hdeposit
        have hspent := hkept.spent
        rcases hcharge with ⟨_, rfl⟩ | ⟨hpays, rfl⟩
        · refine budgetKept_of_cached hspent (setDeposit_self acc other deposit) ?_
          change deposit + spentFor other acc.included = balance ∨
            (spentFor other acc.included = balance ∧ deposit = balance)
          omega
        · have hadded := spentFor_addToBundle other
            (charged acc other (deposit - res.validation.returnInfo.prefund)) entry res
          rw [if_pos hother] at hadded
          change _ = spentFor other acc.included + _ at hadded
          have hpast := hnot hother res hscreen
          refine budgetKept_of_cached ?_ (setDeposit_self acc other _) ?_
          · omega
          · omega
      · have hne : truthy entry.userOp.paymaster ≠ some paymaster := by
          rw [hother]
          exact fun heq => hsame (Option.some.inj heq)
        rcases hcharge with ⟨_, rfl⟩ | ⟨_, rfl⟩
        · exact budgetKept_congr hkept rfl (setDeposit_ne hsame acc deposit)
        · refine budgetKept_congr hkept ?_ (setDeposit_ne hsame acc _)
          rw [spentFor_addToBundle, if_neg hne]
          rfl

/-- An entry that comes past exhaustion is paid from a deposit already spent. -/
theorem overspent_step (hbalance : builder.balanceOf paymaster = .ok balance)
    (hkept : BudgetKept paymaster balance acc)
    (hpast : ¬NotPastExhaustion builder knownSenders s paymaster balance acc entry)
    (h : addEntryIn builder knownSenders s acc entry = .ok acc') :
    ¬spentFor paymaster acc'.included ≤ balance := by
  unfold NotPastExhaustion at hpast
  push Not at hpast
  obtain ⟨hsponsor, res, hscreen, hpositive, hpayable, hused⟩ := hpast
  have hfits : chargeAndAdd builder acc entry res = .ok acc' := by
    unfold addEntryIn addEntry at h
    rw [hscreen] at h
    exact h
  unfold chargeAndAdd at hfits
  rw [hsponsor] at hfits
  obtain ⟨deposit, hdeposit, hrest⟩ := except_bind_eq_ok_iff.mp hfits
  obtain ⟨hwhole, _⟩ := availableDeposit_of_budgetKept hkept hbalance hdeposit
  have hpays : ¬deposit < res.validation.returnInfo.prefund := by
    have hdeposit' := hwhole hused
    omega
  simp only [hpays, if_false] at hrest
  obtain rfl := Except.ok.inj hrest
  rw [spentFor_addToBundle, if_pos hsponsor]
  change ¬spentFor paymaster acc.included + _ ≤ balance
  omega

/-- A finished fold has stayed within the deposit exactly when no entry came
past exhaustion. -/
theorem spent_le_balance_iff (hbalance : builder.balanceOf paymaster = .ok balance)
    {entries : List MempoolEntry}
    (hfold : entries.foldlM (addEntryIn builder knownSenders s) .initial = .ok acc') :
    spentFor paymaster acc'.included ≤ balance ↔
      AllTried (addEntryIn builder knownSenders s)
        (NotPastExhaustion builder knownSenders s paymaster balance) .initial entries := by
  have hinitial : BudgetKept paymaster balance BundleAcc.initial := by
    refine ⟨Nat.zero_le _, fun _ => rfl, ?_⟩
    intro deposit hdeposit
    cases hdeposit
  have hlost : ∀ acc entry acc', ¬spentFor paymaster acc.included ≤ balance →
      addEntryIn builder knownSenders s acc entry = .ok acc' →
      ¬spentFor paymaster acc'.included ≤ balance := by
    intro acc entry acc' hover hstep
    have hmono := spentFor_mono paymaster hstep
    omega
  exact foldlM_iff_allTried (addEntryIn builder knownSenders s) (fun _ hkept => hkept.spent)
    (fun _ _ _ hkept hnot hstep => budgetKept_step hbalance hkept hnot hstep)
    (fun _ _ _ hkept hpast hstep => overspent_step hbalance hkept hpast hstep) hlost hinitial hfold

end Invariant

/-- A bundle spends no paymaster beyond its deposit exactly when no entry of
a paymaster comes along after the bundle has used up its deposit. -/
theorem bundle_within_deposits_iff (builder : Builder) (entries : List MempoolEntry)
    (knownSenders : List String) (s : State) :
    (∀ ready, (runAlone (createBundle builder entries knownSenders) s).2 = .ok ready →
        ∀ paymaster balance, builder.balanceOf paymaster = .ok balance →
          spentFor paymaster ready.included ≤ balance) ↔
      ∀ ready, (runAlone (createBundle builder entries knownSenders) s).2 = .ok ready →
        ∀ paymaster balance, builder.balanceOf paymaster = .ok balance →
          AllTried (addEntryIn builder knownSenders s)
            (NotPastExhaustion builder knownSenders s paymaster balance) .initial entries := by
  rw [createBundle_run]
  cases hfold : entries.foldlM (addEntryIn builder knownSenders s) .initial with
  | error e =>
    refine iff_of_true ?_ ?_
    · intro ready hready
      cases hready
    · intro ready hready
      cases hready
  | ok acc =>
    apply forall_congr'
    intro ready
    constructor
    · intro hwithin hready paymaster balance hbalance
      have hspent := hwithin hready paymaster balance hbalance
      cases hready
      exact (spent_le_balance_iff hbalance hfold).mp hspent
    · intro htried hready paymaster balance hbalance
      have hall := htried hready paymaster balance hbalance
      cases hready
      exact (spent_le_balance_iff hbalance hfold).mpr hall

section Concrete

def pooled (sender : String) (userOpHash : String) : MempoolEntry where
  userOp := plainOp sender 1 10 (some sponsor) none
  userOpHash := userOpHash
  prefund := 100
  referencedContracts := some ⟨[], ""⟩
  status := .bundling

/-- Two operations of a hundred each are paid from a deposit of a hundred. -/
theorem deposit_spent_twice :
    ¬∀ (builder : Builder) (entries : List MempoolEntry) (knownSenders : List String) (s : State)
      (ready : BundleReadyToSend),
      (runAlone (createBundle builder entries knownSenders) s).2 = .ok ready →
      ∀ paymaster balance, builder.balanceOf paymaster = .ok balance →
        spentFor paymaster ready.included ≤ balance := by
  intro h
  have hspent := h hundredEach [pooled account hash₁, pooled otherAccount hash₂] []
    (State.initial [] []) _ rfl sponsor 100 rfl
  exact absurd hspent (by decide)

end Concrete

end Bundler.PaymasterBudget
