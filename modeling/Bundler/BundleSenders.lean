import Bundler.BundleBuilder
import Bundler.Runs

/-!
One operation for each sender in a bundle. The senders already bundled are
remembered as they are spelled, so an operation whose sender spells the
address of a bundled one differently is let in beside it. The senders of a
bundle are different accounts exactly when no such operation fits.
-/
namespace Bundler.BundleSenders

open DataModel MempoolHelper BundleBuilder Runs

/-- The operations are of pairwise different accounts. -/
def SendersApart (bundle : List UserOperation) : Prop :=
  (bundle.map fun userOp => toLowerCase userOp.sender).Nodup

instance (bundle : List UserOperation) : Decidable (SendersApart bundle) :=
  inferInstanceAs (Decidable (List.Nodup _))

/-- No entry that fits has its sender in the bundle under another spelling. -/
def NoOtherSpelling (maxBundleGas : ℤ) (knownSenders : List String) (acc : BundleAcc)
    (step : MempoolEntry × Answers) : Prop :=
  Fits (step.2.builder maxBundleGas) knownSenders acc step.1 step.2.paymasterStatus
      step.2.factoryStatus →
    ∀ userOp ∈ acc.ready.bundle,
      toLowerCase userOp.sender = toLowerCase step.1.userOp.sender →
        userOp.sender = step.1.userOp.sender

section Invariant

variable {maxBundleGas : ℤ} {knownSenders : List String} {acc acc' : BundleAcc}
  {step : MempoolEntry × Answers}

/-- The senders set holds the senders of the bundle, which are apart. -/
structure SendersKept (acc : BundleAcc) : Prop where
  senders : acc.senders = acc.ready.bundle.map UserOperation.sender
  apart : SendersApart acc.ready.bundle

theorem sendersApart_append_iff (bundle : List UserOperation) (userOp : UserOperation) :
    SendersApart (bundle ++ [userOp]) ↔
      SendersApart bundle ∧
        ∀ other ∈ bundle, toLowerCase other.sender ≠ toLowerCase userOp.sender := by
  unfold SendersApart
  rw [List.map_append, List.map_singleton, List.nodup_append']
  simp [eq_comm]

theorem sendersKept_step (hkept : SendersKept acc)
    (hspelling : NoOtherSpelling maxBundleGas knownSenders acc step)
    (h : addAnswered maxBundleGas knownSenders acc step = .ok acc') : SendersKept acc' := by
  rcases addEntry_outcome h with ⟨_, haside⟩ | ⟨res, hscreen, hcovers, hadded⟩
  · have hbundle := haside.bundle
    refine ⟨?_, ?_⟩
    · rw [haside.senders, hbundle]
      exact hkept.senders
    · rw [hbundle]
      exact hkept.apart
  · have hbundle := hadded.bundle
    have hnew := ((screen_eq_fits_iff res).mp hscreen).sender_new
    rw [hkept.senders] at hnew
    have hother := hspelling ⟨res, hscreen, hcovers⟩
    refine ⟨?_, ?_⟩
    · rw [hadded.senders, hbundle, hkept.senders, List.map_append]
      rfl
    · rw [hbundle, sendersApart_append_iff]
      refine ⟨hkept.apart, ?_⟩
      intro userOp huserOp hlower
      exact hnew (List.mem_map.mpr ⟨userOp, huserOp, hother userOp huserOp hlower⟩)

theorem not_sendersApart_step (hspelling : ¬NoOtherSpelling maxBundleGas knownSenders acc step)
    (h : addAnswered maxBundleGas knownSenders acc step = .ok acc') :
    ¬SendersApart acc'.ready.bundle := by
  unfold NoOtherSpelling at hspelling
  push Not at hspelling
  obtain ⟨hfits, userOp, huserOp, hlower, _⟩ := hspelling
  rcases addEntry_outcome h with ⟨hnot, _⟩ | ⟨res, _, _, hadded⟩
  · exact absurd hfits hnot
  · rw [hadded.bundle, sendersApart_append_iff]
    rintro ⟨_, hapart⟩
    exact hapart userOp huserOp hlower

theorem not_sendersApart_lost (hnot : ¬SendersApart acc.ready.bundle)
    (h : addAnswered maxBundleGas knownSenders acc step = .ok acc') :
    ¬SendersApart acc'.ready.bundle := by
  rcases addEntry_outcome h with ⟨_, haside⟩ | ⟨res, _, _, hadded⟩
  · rw [haside.bundle]
    exact hnot
  · rw [hadded.bundle, sendersApart_append_iff]
    rintro ⟨hapart, _⟩
    exact hnot hapart

end Invariant

/-- The senders of a bundle are different accounts exactly when no entry that
fits spells the sender of a bundled one differently. -/
theorem senders_apart_iff {maxBundleGas : ℤ} {knownSenders : List String}
    {answered : List (MempoolEntry × Answers)} {ready : BundleReadyToSend}
    (hready : createBundleFrom maxBundleGas knownSenders answered = .ok ready) :
    SendersApart ready.bundle ↔
      AllTried (addAnswered maxBundleGas knownSenders)
        (NoOtherSpelling maxBundleGas knownSenders) .initial answered := by
  obtain ⟨acc, hfold, rfl⟩ := createBundleFrom_eq_ok_iff.mp hready
  have hinitial : SendersKept BundleAcc.initial := ⟨rfl, List.nodup_nil⟩
  exact foldlM_iff_allTried (addAnswered maxBundleGas knownSenders) (I := SendersKept)
    (Q := fun acc => SendersApart acc.ready.bundle) (fun _ hkept => hkept.apart)
    (fun _ _ _ hkept hspelling hstep => sendersKept_step hkept hspelling hstep)
    (fun _ _ _ _ hspelling hstep => not_sendersApart_step hspelling hstep)
    (fun _ _ _ hnot hstep => not_sendersApart_lost hnot hstep) hinitial hfold

section Concrete

/-- Two operations of one account, which spells its address in two ways. -/
def twoSpellings : List (MempoolEntry × Answers) :=
  [(plainEntry (plainOp account 1 10 none none) hash₁, plainAnswers),
    (plainEntry (plainOp checksummed 2 10 none none) hash₂, plainAnswers)]

theorem senders_apart_iff_twoSpellings :
    ∃ ready, createBundleFrom 5000000 [account] twoSpellings = .ok ready ∧
      (SendersApart ready.bundle ↔ AllTried (addAnswered 5000000 [account])
        (NoOtherSpelling 5000000 [account]) .initial twoSpellings) :=
  ⟨_, rfl, senders_apart_iff rfl⟩

theorem one_sender_twice :
    ¬∀ (maxBundleGas : ℤ) (knownSenders : List String) (answered : List (MempoolEntry × Answers))
      (ready : BundleReadyToSend),
      (answered.map fun step => slot step.1.userOp).Nodup →
      createBundleFrom maxBundleGas knownSenders answered = .ok ready →
      SendersApart ready.bundle := by
  intro h
  exact absurd (h 5000000 [account] twoSpellings _ (by decide) rfl) (by decide)

end Concrete

end Bundler.BundleSenders
