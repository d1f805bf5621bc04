import Bundler.StrandedOperations

/-!
When a bundle is sent with nothing in it. An attempt ends early if it has no
entries to bundle, but not if the build leaves all of them out, and what was
built is then sent as it is. A build includes something exactly when one of
its entries would make a bundle of its own.
-/
namespace Bundler.EmptyBundles

open KeyedRecords AsyncPrograms DataModel StateService ReputationManager DepositManager
  MempoolHelper MempoolManager Validation BundleBuilder BundleManager Operations Runs
  StrandedOperations

section Attempt

variable (services : Services) (force : Bool) (s : State)

/-- Whenever the attempt, run alone, calls sendBundle, it does so with operations. -/
def NeverSendsEmpty : Prop :=
  ∀ ready, (runAlone (untilSendBundle services force) s).2 = .ok (some ready) → ready.bundle ≠ []

/-- It calls it with what was built, if anything was handed out. -/
theorem untilSendBundle_eq_iff (ready : BundleReadyToSend) :
    (runAlone (untilSendBundle services force) s).2 = .ok (some ready) ↔
      handedOut services force s ≠ [] ∧ built services force s = .ok ready := by
  by_cases hnone : handedOut services force s = []
  · rw [untilSendBundle_run_of_none services force s hnone]
    simp [hnone]
  · rw [untilSendBundle_run services force s hnone]
    cases built services force s with
    | error e => simp
    | ok built => simp [hnone]

end Attempt

section Build

/-- The entry passes every check by itself: neither its paymaster nor its
factory is banned, it re-validates without touching another known sender,
within the gas of a bundle, and its paymaster's deposit is not read as too
low for it. -/
def FitsAlone (builder : Builder) (knownSenders : List String) (s : State) (entry : MempoolEntry) :
    Prop :=
  statusIn s entry.userOp.paymaster ≠ .banned ∧ statusIn s entry.userOp.factory ≠ .banned ∧
    ∃ res, reValidate builder entry = .ok res ∧
      accessesOtherSenders res.storageMap entry.userOp.sender knownSenders = false ∧
      userOpGasCost res entry.userOp ≤ builder.maxBundleGas ∧
      ∀ (paymaster : String) (balance : ℕ), truthy entry.userOp.paymaster = some paymaster →
        builder.balanceOf paymaster = .ok balance → res.validation.returnInfo.prefund ≤ balance

variable {builder : Builder} {knownSenders : List String} {s : State} {acc acc' : BundleAcc}
  {entry : MempoolEntry}

/-- The accumulator as long as nothing has been included. -/
structure NothingIncluded (builder : Builder) (acc : BundleAcc) : Prop where
  included : acc.included = []
  totalGas : acc.totalGas = 0
  senders : acc.senders = []
  stakedEntityCount : ∀ addr, acc.stakedEntityCount addr = 0
  paymasterDeposit : ∀ paymaster deposit, acc.paymasterDeposit paymaster = some deposit →
    Nat.cast <$> builder.balanceOf paymaster = (.ok deposit : Except JsError ℤ)

theorem availableDeposit_of_nothing (hnothing : NothingIncluded builder acc) (paymaster : String) :
    availableDeposit builder acc paymaster = Nat.cast <$> builder.balanceOf paymaster := by
  unfold availableDeposit
  split
  · rename_i deposit hcache
    split
    · rfl
    · exact (hnothing.paymasterDeposit paymaster deposit hcache).symm
  · rfl

/-- While nothing is included, an entry fits exactly when it does alone. -/
theorem fits_iff_fitsAlone (hnothing : NothingIncluded builder acc) :
    Fits builder knownSenders acc entry (statusIn s entry.userOp.paymaster)
        (statusIn s entry.userOp.factory) ↔ FitsAlone builder knownSenders s entry := by
  have hdeposit := availableDeposit_of_nothing hnothing
  constructor
  · rintro ⟨res, hscreen, hcovers⟩
    have hpasses := (screen_eq_fits_iff res).mp hscreen
    refine ⟨hpasses.paymaster_notBanned, hpasses.factory_notBanned, res, hpasses.validates,
      hpasses.isolated, ?_, ?_⟩
    · have hgas := hpasses.gas
      rwa [hnothing.totalGas, zero_add] at hgas
    · intro paymaster balance hpaymaster hbalance
      have hread : availableDeposit builder acc paymaster = .ok (balance : ℤ) := by
        rw [hdeposit, hbalance]
        rfl
      exact Int.ofNat_le.mp (hcovers paymaster balance hpaymaster hread)
  · rintro ⟨hpaymaster, hfactory, res, hvalidates, hisolated, hgas, hcovers⟩
    have hunthrottled (role : Option String) (status : ReputationStatus) :
        ¬isThrottled status role acc.stakedEntityCount := by
      rintro ⟨_, hcount⟩
      rw [hnothing.stakedEntityCount] at hcount
      exact absurd hcount (by decide)
    have hpasses : PassesScreen builder knownSenders acc entry (statusIn s entry.userOp.paymaster)
        (statusIn s entry.userOp.factory) res := by
      refine ⟨hpaymaster, hfactory, fun _ => hunthrottled _ _, fun _ => hunthrottled _ _, ?_,
        hvalidates, hisolated, ?_⟩
      · rw [hnothing.senders]
        exact List.not_mem_nil
      · rw [hnothing.totalGas, zero_add]
        exact hgas
    refine ⟨res, (screen_eq_fits_iff res).mpr hpasses, ?_⟩
    intro paymaster deposit hsponsor hread
    rw [hdeposit] at hread
    cases hbalance : builder.balanceOf paymaster with
    | error e =>
      rw [hbalance] at hread
      cases hread
    | ok balance =>
      rw [hbalance] at hread
      have hsame : (balance : ℤ) = deposit := Except.ok.inj hread
      rw [← hsame]
      exact Int.ofNat_le.mpr (hcovers paymaster balance hsponsor hbalance)

theorem nothingIncluded_step (hnothing : NothingIncluded builder acc)
    (hnot : ¬FitsAlone builder knownSenders s entry)
    (h : addEntryIn builder knownSenders s acc entry = .ok acc') :
    NothingIncluded builder acc' := by
  rcases addEntry_outcome h with ⟨_, haside⟩ | ⟨res, hscreen, hcovers, _⟩
  · refine ⟨haside.included.trans hnothing.included, haside.totalGas.trans hnothing.totalGas,
      haside.senders.trans hnothing.senders, ?_, ?_⟩
    · rw [haside.stakedEntityCount]
      exact hnothing.stakedEntityCount
    · rcases haside.paymasterDeposit with hsame | ⟨charged, read, hread, hcached⟩
      · rw [hsame]
        exact hnothing.paymasterDeposit
      · intro paymaster deposit hdeposit
        rw [hcached, Function.update_apply] at hdeposit
        split at hdeposit
        · rename_i hcharged
          obtain rfl := Option.some.inj hdeposit
          rw [hcharged, ← hread, availableDeposit_of_nothing hnothing]
        · exact hnothing.paymasterDeposit paymaster deposit hdeposit
  · exact absurd ((fits_iff_fitsAlone hnothing).mp ⟨res, hscreen, hcovers⟩) hnot

theorem included_of_fitsAlone (hnothing : NothingIncluded builder acc)
    (hfits : FitsAlone builder knownSenders s entry)
    (h : addEntryIn builder knownSenders s acc entry = .ok acc') : acc'.included ≠ [] := by
  rcases addEntry_outcome h with ⟨hnot, _⟩ | ⟨res, _, _, hadded⟩
  · exact absurd ((fits_iff_fitsAlone hnothing).mpr hfits) hnot
  · rw [hadded.included]
    exact List.append_ne_nil_of_right_ne_nil _ (List.cons_ne_nil _ _)

theorem included_stays (hincluded : acc.included ≠ [])
    (h : addEntryIn builder knownSenders s acc entry = .ok acc') : acc'.included ≠ [] := by
  rcases addEntry_outcome h with ⟨_, haside⟩ | ⟨res, _, _, hadded⟩
  · rw [haside.included]
    exact hincluded
  · rw [hadded.included]
    exact List.append_ne_nil_of_right_ne_nil _ (List.cons_ne_nil _ _)

/-- An entry that does not fit alone has its deposit read without fail, if at all. -/
theorem addEntryIn_total (hnothing : NothingIncluded builder acc)
    (hnot : ¬FitsAlone builder knownSenders s entry) :
    ∃ acc', addEntryIn builder knownSenders s acc entry = .ok acc' := by
  refine addEntry_total ?_
  intro res paymaster hscreen hpaymaster
  cases hread : availableDeposit builder acc paymaster with
  | ok deposit => exact ⟨deposit, rfl⟩
  | error e =>
    -- the entry would fit alone, for want of a deposit that is too low
    refine absurd ((fits_iff_fitsAlone hnothing).mp ⟨res, hscreen, ?_⟩) hnot
    intro paymaster' deposit hpaymaster' hdeposit
    cases hpaymaster.symm.trans hpaymaster'
    cases hread.symm.trans hdeposit

theorem nothing_initial (builder : Builder) : NothingIncluded builder BundleAcc.initial :=
  ⟨rfl, rfl, rfl, fun _ => rfl, fun _ _ hdeposit => by cases hdeposit⟩

/-- A build that does not fail includes nothing exactly when no entry fits alone. -/
theorem included_eq_nil_iff {entries : List MempoolEntry}
    (hfold : entries.foldlM (addEntryIn builder knownSenders s) .initial = .ok acc') :
    acc'.included = [] ↔ ∀ entry ∈ entries, ¬FitsAlone builder knownSenders s entry := by
  rw [← allTried_iff_forall (addEntryIn builder knownSenders s) hfold]
  exact foldlM_iff_allTried (addEntryIn builder knownSenders s) (I := NothingIncluded builder)
    (Q := fun acc => acc.included = []) (fun _ hnothing => hnothing.included)
    (fun _ _ _ hnothing hnot hstep => nothingIncluded_step hnothing hnot hstep)
    (fun _ _ _ hnothing hfits hstep => included_of_fitsAlone hnothing (not_not.mp hfits) hstep)
    (fun _ _ _ hincluded hstep => included_stays hincluded hstep) (nothing_initial builder) hfold

/-- A build of entries none of which fits alone does not fail, and includes nothing. -/
theorem nothing_built {entries : List MempoolEntry}
    (hnone : ∀ entry ∈ entries, ¬FitsAlone builder knownSenders s entry) :
    ∃ acc, entries.foldlM (addEntryIn builder knownSenders s) .initial = .ok acc ∧
      acc.included = [] := by
  have hstep : ∀ acc, NothingIncluded builder acc → ∀ entry ∈ entries, ∃ acc',
      addEntryIn builder knownSenders s acc entry = .ok acc' ∧ NothingIncluded builder acc' := by
    intro acc hnothing entry hentry
    obtain ⟨acc', hadded⟩ := addEntryIn_total hnothing (hnone entry hentry)
    exact ⟨acc', hadded, nothingIncluded_step hnothing (hnone entry hentry) hadded⟩
  obtain ⟨acc, hfold, hnothing⟩ := foldlM_total (addEntryIn builder knownSenders s) hstep
    (nothing_initial builder)
  exact ⟨acc, hfold, hnothing.included⟩

end Build

section Sending

variable (services : Services) (force : Bool) (s : State)

/-- Some entry handed out fits alone when the bundle is built. -/
def SomeFitsAlone : Prop :=
  ∃ entry ∈ handedOut services force s,
    FitsAlone services.builder
      (MempoolHelper.getKnownSenders (eventsState services force s).standardPool)
      (eventsState services force s) entry

theorem ended_of_built {ready : BundleReadyToSend}
    (hbuilt : built services force s = .ok ready) : services.pastEvents.ended = .ok ⟨⟩ := by
  unfold built at hbuilt
  split at hbuilt
  · cases hbuilt
  · rename_i hended
    exact hended

theorem bundle_eq_nil_iff (acc : BundleAcc) : acc.ready.bundle = [] ↔ acc.included = [] := by
  unfold BundleReadyToSend.bundle BundleAcc.ready
  exact List.map_eq_nil_iff

/-- An attempt never sends an empty bundle exactly when, unless it hands out
nothing or fails on the past events, some entry it hands out fits alone. -/
theorem never_sends_empty_iff :
    NeverSendsEmpty services force s ↔
      (handedOut services force s ≠ [] → services.pastEvents.ended = .ok ⟨⟩ →
        SomeFitsAlone services force s) := by
  constructor
  · intro hnever hsome hended
    by_contra hnone
    obtain ⟨acc, hfold, hnothing⟩ := nothing_built
      (fun entry hentry hfits => hnone ⟨entry, hentry, hfits⟩)
    have hbuilt := built_eq_of_ended services force s hended
    rw [hfold] at hbuilt
    have hsent := (untilSendBundle_eq_iff services force s acc.ready).mpr ⟨hsome, hbuilt⟩
    exact hnever acc.ready hsent ((bundle_eq_nil_iff acc).mpr hnothing)
  · intro hfits ready hsent hempty
    obtain ⟨hsome, hbuilt⟩ := (untilSendBundle_eq_iff services force s ready).mp hsent
    have hended := ended_of_built services force s hbuilt
    obtain ⟨entry, hentry, halone⟩ := hfits hsome hended
    rw [built_eq_of_ended services force s hended, ready_eq_ok_iff] at hbuilt
    obtain ⟨acc, hfold, rfl⟩ := hbuilt
    exact (included_eq_nil_iff hfold).mp ((bundle_eq_nil_iff acc).mp hempty) entry hentry halone

end Sending

section Concrete

/-- Every operation fails its re-validation. -/
def allRejected : Services where
  bundleSize := 5
  pastEvents := ⟨[], .ok ⟨⟩⟩
  builder :=
    { hundredEach with validateUserOp := fun _ => .ok (.error ⟨"AA23 reverted", -32500, none⟩) }
  sendBundle := fun _ _ => .ok ⟨hash₁, [], 0, none⟩

theorem empty_bundle_sent :
    ¬∀ (config : StakeConfig) (bundleSize : ℕ) (whiteList blackList : List String)
      (ops : List Operation) (services : Services) (force : Bool),
      NeverSendsEmpty services force
        (run (Operation.perform config bundleSize) (State.initial whiteList blackList) ops) := by
  intro h
  exact h plainConfig 5 [] [] [plainAdd account hash₁] allRejected false _ rfl rfl

end Concrete

end Bundler.EmptyBundles
