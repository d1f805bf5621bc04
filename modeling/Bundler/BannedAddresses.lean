import Bundler.AdmissionLaws

/-!
An address that has been banned. Operations seen later keep it banned, and
an admission that makes its checks under the ban writes no new entry of it:
whichever of the operation's entities the address is, the check of that
entity fails. A replacement makes no such check and is left out here.
-/
namespace Bundler.BannedAddresses

open KeyedRecords AsyncPrograms DataModel StateService ReputationManager DepositManager
  MempoolHelper MempoolManager AdmissionLaws

/-- The status of the address is banned in the state. -/
def Banned (addr : String) (s : State) : Prop := statusIn s addr = .banned

section Statuses

variable {addr : String} {s : State}

/-- What is banned by its counters stays so when more is seen. -/
theorem entryStatus_banned_mono {entry entry' : ReputationEntry}
    (hseen : entry.opsSeen ≤ entry'.opsSeen) (hincluded : entry'.opsIncluded = entry.opsIncluded)
    (h : entryStatus entry = .banned) : entryStatus entry' = .banned := by
  rw [entryStatus_eq_banned_iff] at h ⊢
  have hmono : entry.opsSeen / minInclusionDenominator ≤
      entry'.opsSeen / minInclusionDenominator := Int.ediv_le_ediv (by decide) hseen
  omega

/-- Every address seen in the first record is seen at least as often in the
second, and was included as often. -/
def SeenMore (before after : ReputationEntries) : Prop :=
  ∀ addr entry, before.get addr = some entry →
    ∃ entry', after.get addr = some entry' ∧ entry.opsSeen ≤ entry'.opsSeen ∧
      entry'.opsIncluded = entry.opsIncluded

theorem Banned.of_seenMore {s' : State} (h : Banned addr s)
    (hwhite : s'.whiteList = s.whiteList) (hblack : s'.blackList = s.blackList)
    (hseen : SeenMore s.reputationEntries s'.reputationEntries) : Banned addr s' := by
  unfold Banned at h ⊢
  rw [statusIn_eq_banned_iff] at h ⊢
  rw [hwhite, hblack]
  refine ⟨h.1, h.2.imp_right ?_⟩
  rintro ⟨entry, hget, hbanned⟩
  obtain ⟨entry', hget', hmore, hsame⟩ := hseen _ entry hget
  exact ⟨entry', hget', entryStatus_banned_mono hmore hsame hbanned⟩

theorem seenMore_refl (entries : ReputationEntries) : SeenMore entries entries :=
  fun _ entry h => ⟨entry, h, le_refl _, rfl⟩

/-- Seeing an address once more, counted from the given record, on top of
what others have seen in the meantime. -/
theorem seenMore_insert {before after : ReputationEntries} (h : SeenMore before after)
    {addr : String} {updated : ReputationEntry} (hkey : updated.address = addr)
    (hupdated : ∀ entry, before.get addr = some entry →
      entry.opsSeen ≤ updated.opsSeen ∧ updated.opsIncluded = entry.opsIncluded) :
    SeenMore before (after.insert updated) := by
  intro other entry hentry
  rw [KeyedRecord.get_insert, hkey]
  by_cases hsame : other = addr
  · subst hsame
    rw [if_pos rfl]
    exact ⟨updated, rfl, hupdated entry hentry⟩
  · rw [if_neg hsame]
    exact h other entry hentry

theorem seenMore_updateSeenStatus (entries : ReputationEntries) (addr : String) :
    SeenMore entries (StateService.updateSeenStatus entries addr .increment) := by
  unfold StateService.updateSeenStatus
  dsimp only
  cases hget : entries.get (toLowerCase addr) with
  | none =>
    refine seenMore_insert (seenMore_refl entries) rfl ?_
    intro entry hentry
    cases hget.symm.trans hentry
  | some old =>
    refine seenMore_insert (seenMore_refl entries) rfl ?_
    intro entry hentry
    cases hget.symm.trans hentry
    refine ⟨?_, rfl⟩
    simp

theorem seenMore_updateSeenStatusBatch (entries : ReputationEntries) (addrs : List String) :
    SeenMore entries (StateService.updateSeenStatusBatch entries addrs) := by
  unfold StateService.updateSeenStatusBatch
  -- every element keeps what the batch has accumulated so far above the old entries
  refine List.foldlRecOn addrs _ (seenMore_refl entries) ?_
  intro acc h addr _
  dsimp only
  cases hget : entries.get (toLowerCase addr) with
  | none =>
    refine seenMore_insert h rfl ?_
    intro entry hentry
    cases hget.symm.trans hentry
  | some old =>
    refine seenMore_insert h rfl ?_
    intro entry hentry
    cases hget.symm.trans hentry
    exact ⟨by simp, rfl⟩

/-- A crash can only fail to ban an address that is whitelisted, or whose
counter of operations seen is far below zero. -/
def CrashBans (addr : String) (s : State) : Prop :=
  toLowerCase addr ∉ s.whiteList ∧
    ∀ entry ∈ s.reputationEntries.get (toLowerCase addr), -9490 ≤ entry.opsSeen

instance (addr : String) (s : State) : Decidable (CrashBans addr s) :=
  inferInstanceAs (Decidable (_ ∧ ∀ _ ∈ _, _))

theorem crashedHandleOps_get (entries : ReputationEntries)
    (h : ∀ entry ∈ entries.get (toLowerCase addr), -9490 ≤ entry.opsSeen) :
    ∃ entry, (StateService.crashedHandleOps entries addr).get (toLowerCase addr) = some entry ∧
      entryStatus entry = .banned := by
  unfold StateService.crashedHandleOps
  dsimp only
  cases hget : entries.get (toLowerCase addr) with
  | none => exact ⟨⟨toLowerCase addr, 10000, 0⟩, KeyedRecord.get_insert_self _ _, rfl⟩
  | some entry =>
    have hseen : -9490 ≤ entry.opsSeen := h entry hget
    refine ⟨_, KeyedRecord.get_insert_self _ _, ?_⟩
    rw [entryStatus_eq_banned_iff]
    unfold minInclusionDenominator banSlack
    dsimp only
    omega

theorem banned_crashedHandleOps (h : CrashBans addr s) :
    Banned addr (ReputationUpdate.apply s (.crashedHandleOps addr)) := by
  obtain ⟨entry, hget, hbanned⟩ := crashedHandleOps_get s.reputationEntries h.2
  exact (statusIn_eq_banned_iff _ addr).mpr ⟨h.1, Or.inr ⟨entry, hget, hbanned⟩⟩

end Statuses

section Checks

variable {config : StakeConfig} {mempoolEntryCount : Async EntryCount} {addr : String}

/-- The operation's sender, paymaster or factory is the address, letter case aside. -/
def involves (addr : String) (userOp : UserOperation) : Bool :=
  toLowerCase userOp.sender = toLowerCase addr ||
    userOp.paymaster.map toLowerCase = some (toLowerCase addr) ||
    userOp.factory.map toLowerCase = some (toLowerCase addr)

def Fails {α : Type} (r : Except JsError α) : Prop := ∃ e, r = .error e

/-- Under the ban the check issues no update and ends with an error. -/
def Refuses {α : Type} (addr : String) (p : Async α) : Prop :=
  p.Guarantees (Banned addr) (fun _ => False) Fails

section Sequences

variable {α β : Type} {p : Async α} {f : α → Async β}

theorem Refuses.bind_left (hp : Refuses addr p) : Refuses addr (p >>= f) := by
  refine Program.Guarantees.bind hp ?_ ?_
  · rintro a ⟨e, h⟩
    cases h
  · intro e _
    exact ⟨e, rfl⟩

theorem Refuses.bind_right (hp : p.ReadOnly) (hf : ∀ a, Refuses addr (f a)) :
    Refuses addr (p >>= f) :=
  (hp.guarantees _ _).bind (fun a _ => hf a) fun e _ => ⟨e, rfl⟩

end Sequences

theorem checkReputationStatus_refuses {info : StakeInfo}
    (hinfo : toLowerCase info.addr = toLowerCase addr) (title : Title) (max : Option ℤ) :
    Refuses addr (checkReputationStatus config mempoolEntryCount title info max) := by
  have hmax : (maxTxMempoolAllowedEntity max info).ReadOnly := by
    cases max with
    | none => exact fun _ _ => trivial
    | some max => exact trivial
  refine Refuses.bind_right hmax ?_
  intro _
  apply Refuses.bind_left
  intro s hbanned
  have hstatus : statusIn s info.addr = .banned := (statusIn_congr hinfo s).trans hbanned
  change Program.Guarantees _ _ _ (requireCond (statusIn s info.addr ≠ .banned) _)
  unfold requireCond
  rw [if_neg (by simp [hstatus])]
  exact ⟨_, rfl⟩

theorem checkOptional_refuses {infos : Option StakeInfo}
    (hinfos : infos.map (fun info => toLowerCase info.addr) = some (toLowerCase addr))
    (title : Title) : Refuses addr (checkOptional config mempoolEntryCount title infos) := by
  obtain ⟨info, rfl, hinfo⟩ := Option.map_eq_some_iff.mp hinfos
  exact checkReputationStatus_refuses hinfo title none

/-- Whichever entity of the operation the address is, its check fails. -/
theorem checkReputation_refuses {param : RelayUserOpParam} (hdescribes : DescribesEntities param)
    (hzero : toLowerCase addr ≠ zeroAddress) (hinvolves : involves addr param.userOp)
    (hcount : mempoolEntryCount.ReadOnly) :
    Refuses addr (checkReputation config mempoolEntryCount (metadata param)) := by
  have hrole {infos : Option StakeInfo} {role : Option String}
      (hinfos : infos.map StakeInfo.addr = entity role)
      (hnamed : role.map toLowerCase = some (toLowerCase addr)) :
      infos.map (fun info => toLowerCase info.addr) = some (toLowerCase addr) := by
    obtain ⟨spelled, rfl, hspelled⟩ := Option.map_eq_some_iff.mp hnamed
    have hentity : entity (some spelled) = some spelled := by
      refine Option.filter_eq_some_iff.mpr ⟨rfl, ?_⟩
      simp only [ne_eq, decide_not, Bool.not_eq_true', decide_eq_false_iff_not]
      rintro rfl
      exact hzero (hspelled.symm.trans (by decide))
    rw [hentity] at hinfos
    obtain ⟨info, rfl, rfl⟩ := Option.map_eq_some_iff.mp hinfos
    exact congrArg some hspelled
  simp only [involves, Bool.or_eq_true, decide_eq_true_eq] at hinvolves
  rcases hinvolves with (hsender | hpaymaster) | hfactory
  · apply Refuses.bind_left
    refine checkReputationStatus_refuses ?_ _ _
    change toLowerCase param.senderInfo.addr = _
    rw [hdescribes.sender, hsender]
  · refine Refuses.bind_right (checkReputationStatus_readOnly _ hcount _ _ _) fun _ => ?_
    exact Refuses.bind_left (checkOptional_refuses (hrole hdescribes.paymaster hpaymaster) _)
  · refine Refuses.bind_right (checkReputationStatus_readOnly _ hcount _ _ _) fun _ => ?_
    refine Refuses.bind_right (checkOptional_readOnly _ hcount _ _) fun _ => ?_
    exact Refuses.bind_left (checkOptional_refuses (hrole hdescribes.factory hfactory) _)

end Checks

section Admission

variable {config : StakeConfig} {balanceOf : BalanceOf} {param : RelayUserOpParam} {addr : String}

/-- The update writes no entry of the address, unless it replaces one. -/
def WritesNoNew (addr : String) : Update → Prop
  | .mempool (.doUpdateMempoolState entry none) => ¬involves addr entry.userOp
  | _ => True

/-- What is left of an admission writes no new entry of the address once it
is banned: it is not past the check of that address. -/
def StillChecks (addr : String) (p : Async PUnit) : Prop :=
  p.Guarantees (Banned addr) (WritesNoNew addr) fun _ => True

theorem replaceOrAddUserOpChecks_underBan (hdescribes : DescribesEntities param)
    (hzero : toLowerCase addr ≠ zeroAddress) (handedOut : State) :
    (replaceOrAddUserOpChecks config handedOut (newEntry param, metadata param)).Guarantees
      (Banned addr) (WritesNoNew addr) fun r => ∀ checked, r = .ok (.ok checked) →
        checked.2.oldEntry ≠ none ∨ ¬involves addr checked.1.userOp := by
  unfold replaceOrAddUserOpChecks replaceOrAddUserOpChecksBy
  dsimp only
  split
  · rename_i old _
    intro checked hchecked
    obtain ⟨_, rfl⟩ := (checkReplaceUserOp_eq_ok_iff rfl).mp (Except.ok.inj hchecked)
    exact Or.inl nofun
  · have hcount := readCount_readOnly (countReference handedOut)
    by_cases hinvolves : involves addr param.userOp
    · have hrefuses : Refuses addr
          (checkReputation config (readCount (countReference handedOut)) (metadata param)) :=
        checkReputation_refuses hdescribes hzero hinvolves hcount
      refine (hrefuses.weaken fun _ h => h.elim).bind ?_ ?_
      · rintro _ ⟨_, h⟩
        cases h
      · intro _ _ checked hchecked
        cases hchecked
    · refine ((checkReputation_readOnly config hcount _).guarantees _ _).bind ?_ ?_
      · intro _ _ s _ checked hchecked
        obtain ⟨_, rfl⟩ :=
          (checkMultipleRolesViolation_eq_ok_iff _).mp (Except.ok.inj hchecked)
        exact Or.inr hinvolves
      · intro _ _ checked hchecked
        cases hchecked

theorem updateSeenStatus_guarantees {rely : State → Prop} {allowed : Update → Prop}
    (hone : ∀ addr, allowed (.reputation (.updateSeenStatus addr .increment)))
    (hbatch : ∀ addrs, allowed (.reputation (.updateSeenStatusBatch addrs)))
    (aggregator : Option String) (userOp : UserOperation) :
    (MempoolHelper.updateSeenStatus aggregator userOp).Guarantees rely allowed
      fun _ => True := by
  have hseen : (ReputationManager.updateSeenStatusBatch
      ([userOp.paymaster, userOp.factory, aggregator].filterMap id)).Guarantees rely allowed
        fun _ => True := by
    unfold ReputationManager.updateSeenStatusBatch
    split
    · exact trivial
    · exact ⟨hbatch _, fun _ => trivial⟩
  unfold MempoolHelper.updateSeenStatus ReputationManager.updateSeenStatus
  cases truthy userOp.sender with
  | none => exact hseen
  | some sender =>
    refine ⟨hone sender, ?_⟩
    intro r
    cases r with
    | ok _ => exact hseen
    | error e =>
      change Program.Guarantees rely allowed (fun _ => True)
        (Program.bind (if isRpcError e then pure PUnit.unit else throw e) _)
      split
      · exact hseen
      · exact trivial

section Writing

variable {rely : State → Prop} {allowed : Update → Prop}
  (hwrite : ∀ handedOut,
    (replaceOrAddUserOpChecks config handedOut (newEntry param, metadata param)).Guarantees rely
      allowed fun r => ∀ checked, r = .ok (.ok checked) →
        allowed (.mempool (.doUpdateMempoolState checked.1 checked.2.oldEntry)))
  (hone : ∀ addr, allowed (.reputation (.updateSeenStatus addr .increment)))
  (hbatch : ∀ addrs, allowed (.reputation (.updateSeenStatusBatch addrs)))

include hwrite hone hbatch

/-- An admission writes what its checks let through, and counts it as seen. -/
theorem admitUserOp_guarantees :
    (admitUserOp config param).Guarantees rely allowed fun _ => True := by
  intro s _
  refine (hwrite s).bind ?_ fun _ _ => trivial
  intro res hres
  cases res with
  | error error => exact trivial
  | ok checked =>
    have hupdate : (updateState (.mempool
        (.doUpdateMempoolState checked.1 checked.2.oldEntry))).Guarantees rely allowed
          fun _ => True := ⟨hres checked rfl, fun _ => trivial⟩
    exact hupdate.seq fun _ => (updateSeenStatus_guarantees hone hbatch _ _).seq fun _ => trivial

theorem addUserOp_guarantees :
    (addUserOp config balanceOf param).detach.Guarantees rely allowed fun _ => True := by
  refine Program.Guarantees.seq ?_ fun _ => trivial
  exact ((checkPaymasterDeposit_readOnly _ _).guarantees _ _).seq fun _ =>
    admitUserOp_guarantees hwrite hone hbatch

end Writing

/-- The updates an admission issues. -/
def AdmitsEntry : Update → Prop
  | .mempool (.doUpdateMempoolState _ _) => True
  | .reputation (.updateSeenStatus _ .increment) => True
  | .reputation (.updateSeenStatusBatch _) => True
  | _ => False

theorem addUserOp_admitsEntry :
    (addUserOp config balanceOf param).detach.Guarantees (fun _ => True) AdmitsEntry
      fun _ => True := by
  refine addUserOp_guarantees ?_ (fun _ => trivial) fun _ => trivial
  intro handedOut
  exact ((replaceOrAddUserOpChecks_readOnly config _ handedOut _).guarantees _ _).mono
    (fun _ h => h) (fun _ h => h) fun _ _ _ _ => trivial

/-- An admission that has not begun still checks every address it involves. -/
theorem addUserOp_stillChecks (hdescribes : DescribesEntities param)
    (hzero : toLowerCase addr ≠ zeroAddress) :
    StillChecks addr (addUserOp config balanceOf param).detach := by
  refine addUserOp_guarantees ?_ (fun _ => trivial) fun _ => trivial
  intro handedOut
  refine (replaceOrAddUserOpChecks_underBan hdescribes hzero handedOut).mono
    (fun _ h => h) (fun _ h => h) ?_
  intro r hchecks checked hchecked
  cases hold : checked.2.oldEntry with
  | some old => exact trivial
  | none =>
    rcases hchecks checked hchecked with hreplaces | hinvolves
    · exact absurd hold hreplaces
    · exact hinvolves

end Admission

end Bundler.BannedAddresses
