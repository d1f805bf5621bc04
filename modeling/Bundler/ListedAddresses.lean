import Bundler.BannedAddresses
import Bundler.BundleManager
import Bundler.Operations

/-!
The white list and the black list against the checks. An address is looked
for in lower case among the items as they were passed, so an item in another
spelling does not count. And the stake of an entity at its limit is asked for
whether the entity is listed or not.
-/
namespace Bundler.ListedAddresses

open KeyedRecords AsyncPrograms DataModel StateService ReputationManager DepositManager
  MempoolHelper MempoolManager BundleManager BannedAddresses Operations Runs

section Lists

/-- The items that an operation passes to addWhitelist. -/
def whiteListed : Operation → List String
  | .reputation (.addWhitelist items) => items
  | _ => []

/-- The items that an operation passes to addBlacklist. -/
def blackListed : Operation → List String
  | .reputation (.addBlacklist items) => items
  | _ => []

/-- The address was passed, in some letter case. -/
def Passed (addr : String) (items : List String) : Prop :=
  ∃ item ∈ items, toLowerCase item = toLowerCase addr

/-- The update leaves both lists alone. -/
def KeepsLists : Update → Prop
  | .reputation (.addWhitelist _) => False
  | .reputation (.addBlacklist _) => False
  | _ => True

def SameLists (s s' : State) : Prop := s'.whiteList = s.whiteList ∧ s'.blackList = s.blackList

theorem KeepsLists.apply {s s' : State} {update : Update} (h : KeepsLists update)
    (hsame : SameLists s s') : SameLists s (update.apply s').1 := by
  cases update with
  | mempool update =>
    exact ⟨(mempool_whiteList s' update).trans hsame.1, (mempool_blackList s' update).trans hsame.2⟩
  | reputation update =>
    cases update with
    | addWhitelist items => exact h.elim
    | addBlacklist items => exact h.elim
    | _ => exact hsame

theorem KeepsLists.of_admitsEntry {update : Update} (h : AdmitsEntry update) :
    KeepsLists update := by
  cases update with
  | mempool update => exact trivial
  | reputation update =>
    cases update with
    | addWhitelist items => exact h.elim
    | addBlacklist items => exact h.elim
    | _ => exact trivial

variable (config : StakeConfig) (bundleSize : ℕ)

theorem mempoolOp_keepsLists (op : MempoolOp) :
    (op.program config bundleSize).Guarantees (fun _ => True) KeepsLists fun _ => True := by
  have hhandOut (select : StandardPool → List MempoolEntry) :
      (handOut select).detach.Guarantees (fun _ => True) KeepsLists fun _ => True :=
    (handOut_guarantees (fun _ => trivial) select).seq fun _ => trivial
  cases op with
  | addUserOp balanceOf param =>
    exact addUserOp_admitsEntry.weaken fun _ h => KeepsLists.of_admitsEntry h
  | removeUserOp userOpOrHash => exact removeUserOp_guarantees (fun _ => trivial) _
  | updateEntryStatus userOpHash status =>
    exact updateEntryStatus_guarantees fun _ _ _ _ _ => trivial
  | getNextPending => exact hhandOut _
  | getAllPending => exact hhandOut _
  | clearState => exact ⟨trivial, fun _ => trivial⟩

/-- A list grows by the items passed to it, and by nothing else. -/
theorem perform_lists (s : State) (op : Operation) :
    (op.perform config bundleSize s).whiteList = s.whiteList ++ whiteListed op ∧
      (op.perform config bundleSize s).blackList = s.blackList ++ blackListed op := by
  cases op with
  | mempool op =>
    have hkeeps : (op.program config bundleSize).Guarantees (SameLists s) KeepsLists
        fun _ => True :=
      (mempoolOp_keepsLists config bundleSize op).mono (fun _ _ => trivial) (fun _ h => h)
        fun _ h => h
    have hsame : SameLists s (Operation.perform config bundleSize s (.mempool op)) :=
      hkeeps.run_keeps (fun _ _ h hsame => h.apply hsame) ⟨rfl, rfl⟩
    exact ⟨hsame.1.trans (List.append_nil _).symm, hsame.2.trans (List.append_nil _).symm⟩
  | removeUserOpsForBannedAddr addr =>
    rw [perform_removeUserOpsForBannedAddr]
    exact ⟨(mempool_whiteList s _).trans (List.append_nil _).symm,
      (mempool_blackList s _).trans (List.append_nil _).symm⟩
  | reputation update =>
    cases update with
    | addWhitelist items => exact ⟨rfl, (List.append_nil _).symm⟩
    | addBlacklist items => exact ⟨(List.append_nil _).symm, rfl⟩
    | _ => exact ⟨(List.append_nil _).symm, (List.append_nil _).symm⟩

theorem run_lists (s : State) (ops : List Operation) :
    (run (Operation.perform config bundleSize) s ops).whiteList =
        s.whiteList ++ ops.flatMap whiteListed ∧
      (run (Operation.perform config bundleSize) s ops).blackList =
        s.blackList ++ ops.flatMap blackListed := by
  induction ops generalizing s with
  | nil => exact ⟨(List.append_nil _).symm, (List.append_nil _).symm⟩
  | cons op ops ih =>
    obtain ⟨hwhite, hblack⟩ := perform_lists config bundleSize s op
    obtain ⟨hwhites, hblacks⟩ := ih (Operation.perform config bundleSize s op)
    rw [hwhite, List.append_assoc] at hwhites
    rw [hblack, List.append_assoc] at hblacks
    exact ⟨hwhites, hblacks⟩

end Lists

section Checks

/-- A call of checkReputationStatus. -/
structure EntityCheck where
  config : StakeConfig
  mempoolEntryCount : EntryCount
  title : Title
  stakeInfo : StakeInfo
  maxTxMempoolAllowedOverride : Option ℤ

namespace EntityCheck

variable (check : EntityCheck) (s : State)

def addr : String := check.stakeInfo.addr

/-- How the call ends in a state. -/
def outcome : Except JsError PUnit :=
  (runAlone (checkReputationStatus check.config (pure check.mempoolEntryCount) check.title
    check.stakeInfo check.maxTxMempoolAllowedOverride) s).2

/-- The entity is at its limit, and its stake or its delay is too low. -/
def StakeTooLow : Prop :=
  check.maxTxMempoolAllowedOverride.getD (maxAllowedMempoolOpsUnstaked s check.addr) ≤
      check.mempoolEntryCount (toLowerCase check.addr) ∧
    ¬(check.config.minStake ≤ check.stakeInfo.stake ∧
      check.config.minUnstakeDelay ≤ check.stakeInfo.unstakeDelaySec)

/-- The status is ok, and the check does not throw. -/
def Passes : Prop := statusIn s check.addr = .ok ∧ check.outcome s = .ok ⟨⟩

/-- The status is banned, and the check throws. -/
def Fails : Prop := statusIn s check.addr = .banned ∧ ∃ e, check.outcome s = .error e

variable {check s}

theorem outcome_eq_ok_iff :
    check.outcome s = .ok ⟨⟩ ↔ EntityAdmitted check.config check.mempoolEntryCount s
      (check.maxTxMempoolAllowedOverride.getD (maxAllowedMempoolOpsUnstaked s check.addr))
      check.stakeInfo := by
  have hpure : (pure check.mempoolEntryCount : Async EntryCount).ReadOnly := trivial
  have hcount : Reads (pure check.mempoolEntryCount) fun _ => check.mempoolEntryCount :=
    fun _ => rfl
  have hreadOnly := checkReputationStatus_readOnly check.config hpure check.title check.stakeInfo
    check.maxTxMempoolAllowedOverride
  have hpasses : runAlone (checkReputationStatus check.config (pure check.mempoolEntryCount)
      check.title check.stakeInfo check.maxTxMempoolAllowedOverride) s = (s, .ok ⟨⟩) ↔ _ :=
    checkReputationStatus_passesIff hcount check.title check.stakeInfo
      check.maxTxMempoolAllowedOverride s s
  constructor
  · intro h
    exact (hpasses.mp (Prod.ext (hreadOnly.run_fst Update.apply s) h)).1
  · intro h
    exact congrArg Prod.snd (hpasses.mpr ⟨h, rfl⟩)

theorem passes_iff : check.Passes s ↔ statusIn s check.addr = .ok ∧ ¬check.StakeTooLow s := by
  unfold Passes
  rw [outcome_eq_ok_iff]
  apply and_congr_right
  intro hok
  unfold EntityAdmitted StakeTooLow
  have haddr : statusIn s check.stakeInfo.addr = .ok := hok
  rw [haddr]
  simp [addr]

theorem fails_iff : check.Fails s ↔ statusIn s check.addr = .banned := by
  refine and_iff_left_of_imp ?_
  intro hbanned
  have hnot : check.outcome s ≠ .ok ⟨⟩ := fun hok => (outcome_eq_ok_iff.mp hok).1 hbanned
  cases houtcome : check.outcome s with
  | ok _ => exact absurd houtcome hnot
  | error e => exact ⟨e, rfl⟩

end EntityCheck

end Checks

section Deciding

variable {check : EntityCheck} {white black : List String} {s : State}

/-- The lists decide over the entity, given the items passed to them so far. -/
def ListsDecide (check : EntityCheck) (white black : List String) (s : State) : Prop :=
  (Passed check.addr white → check.Passes s) ∧
    (Passed check.addr black → ¬Passed check.addr white → check.Fails s)

/-- The counters of the address, if it has any, are good enough for ok. -/
def WithinSlack (addr : String) (s : State) : Prop :=
  ∀ entry ∈ s.reputationEntries.get (toLowerCase addr),
    entry.opsSeen / minInclusionDenominator ≤ entry.opsIncluded + throttlingSlack

/-- The counters of the address are bad enough for a ban. -/
def BeyondSlack (addr : String) (s : State) : Prop :=
  ∃ entry ∈ s.reputationEntries.get (toLowerCase addr),
    entry.opsIncluded + banSlack < entry.opsSeen / minInclusionDenominator

/-- The address was passed in lower case itself, or its counters make up for
it; and a white-listed entity at its limit has the stake. -/
def ListsReach (check : EntityCheck) (white black : List String) (s : State) : Prop :=
  (Passed check.addr white → ¬check.StakeTooLow s ∧
      (toLowerCase check.addr ∈ white ∨
        (toLowerCase check.addr ∉ black ∧ WithinSlack check.addr s))) ∧
    (Passed check.addr black → ¬Passed check.addr white →
      toLowerCase check.addr ∈ black ∨ BeyondSlack check.addr s)

theorem passed_of_mem {addr : String} {items : List String} (h : toLowerCase addr ∈ items) :
    Passed addr items := ⟨_, h, toLowerCase_toLowerCase addr⟩

theorem listsDecide_iff (hwhite : s.whiteList = white) (hblack : s.blackList = black) :
    ListsDecide check white black s ↔ ListsReach check white black s := by
  subst hwhite
  subst hblack
  unfold ListsDecide ListsReach WithinSlack BeyondSlack
  simp only [← entryStatus_eq_ok_iff, ← entryStatus_eq_banned_iff]
  refine and_congr (imp_congr_right fun _ => ?_) (imp_congr_right fun _ => imp_congr_right ?_)
  · rw [EntityCheck.passes_iff, statusIn_eq_ok_iff, and_comm]
  · intro hnot
    have hlower : toLowerCase check.addr ∉ s.whiteList := mt passed_of_mem hnot
    rw [EntityCheck.fails_iff, statusIn_eq_banned_iff, and_iff_right hlower]

/-- In every state of a run the lists decide over an entity exactly when in
every state they reach it. -/
theorem lists_decide_iff (check : EntityCheck) (config : StakeConfig) (bundleSize : ℕ)
    (whiteList blackList : List String) (ops : List Operation) :
    (∀ before, before <+: ops →
        ListsDecide check (whiteList ++ before.flatMap whiteListed)
          (blackList ++ before.flatMap blackListed)
          (run (Operation.perform config bundleSize) (State.initial whiteList blackList) before)) ↔
      ∀ before, before <+: ops →
        ListsReach check (whiteList ++ before.flatMap whiteListed)
          (blackList ++ before.flatMap blackListed)
          (run (Operation.perform config bundleSize) (State.initial whiteList blackList)
            before) := by
  apply forall₂_congr
  intro before _
  obtain ⟨hwhite, hblack⟩ := run_lists config bundleSize (State.initial whiteList blackList) before
  exact listsDecide_iff hwhite hblack

end Deciding

section Concrete

/-- A paymaster without stake, with ten entries pooled. -/
def unstakedSponsor : EntityCheck where
  config := plainConfig
  mempoolEntryCount := fun _ => 10
  title := .paymaster
  stakeInfo := plainInfo sponsor
  maxTxMempoolAllowedOverride := none

/-- It is on the white list, and its stake is asked for all the same. -/
theorem whitelisted_stake_checked :
    ¬∀ (check : EntityCheck) (config : StakeConfig) (bundleSize : ℕ)
      (whiteList blackList : List String) (ops before : List Operation), before <+: ops →
      ListsDecide check (whiteList ++ before.flatMap whiteListed)
        (blackList ++ before.flatMap blackListed)
        (run (Operation.perform config bundleSize) (State.initial whiteList blackList) before) := by
  intro h
  have hdecide := h unstakedSponsor plainConfig 5 [sponsor] [] [] [] List.nil_prefix
  have hpassed : Passed sponsor [sponsor] := ⟨sponsor, List.mem_singleton_self _, rfl⟩
  have hstake := (EntityCheck.passes_iff.mp (hdecide.1 hpassed)).2
  exact hstake ⟨by decide, by decide⟩

end Concrete

end Bundler.ListedAddresses
