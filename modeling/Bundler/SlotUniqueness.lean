import Bundler.BannedAddresses
import Bundler.BundleManager
import Bundler.LookUps
import Bundler.Operations

/-!
One pool entry per slot, under interleaving. The pool changes only by single
updates, and an update keeps the slots unique exactly when the entry it
writes finds its slot free in the pool of that moment. Admissions look the
slot up some accesses before they write, so two of them can both find it
free. Whatever holds the slot at the look-up is what the admission replaces;
so the property holds throughout a run exactly when nothing written after
the look-up holds the slot at the write.
-/
namespace Bundler.SlotUniqueness

open KeyedRecords AsyncPrograms Interleavings LookUps DataModel StateService DepositManager
  MempoolHelper MempoolManager BannedAddresses BundleManager Operations Runs

/-- No two entries under different hashes have the same sender, in lower
case, and the same nonce. -/
def UniqueSlots (standardPool : StandardPool) : Prop :=
  standardPool.UniqueBy (fun entry => slot entry.userOp)

instance (standardPool : StandardPool) : Decidable (UniqueSlots standardPool) :=
  inferInstanceAs (Decidable (standardPool.UniqueBy _))

/-- No entry under another hash holds the slot of the entry. -/
def SlotFree (standardPool : StandardPool) (entry : MempoolEntry) : Prop :=
  ∀ other ∈ standardPool.values, other.userOpHash ≠ entry.userOpHash →
    slot other.userOp ≠ slot entry.userOp

/-- The updates that keep the slots unique: whatever they write, except over
the entry being replaced, goes to a free slot. -/
def KeepsSlots (s : State) : Update → Prop
  | .mempool (.doUpdateMempoolState entry old) => SlotFree (withoutOld s.standardPool old) entry
  | .mempool (.updateEntryStatus entry _) => SlotFree s.standardPool entry
  | _ => True

section Updates

variable {s : State}

theorem uniqueSlots_doUpdateMempoolState_iff (h : UniqueSlots s.standardPool)
    (entry : MempoolEntry) (old : Option MempoolEntry) :
    UniqueSlots (doUpdateMempoolState entry old s.standardPool s.mempoolEntryCount).1 ↔
      SlotFree (withoutOld s.standardPool old) entry := by
  have hwithout : UniqueSlots (withoutOld s.standardPool old) := by
    refine h.of_subset ?_
    intro other hother
    cases old with
    | none => exact hother
    | some old => exact ((s.standardPool.mem_delete _ _).mp hother).1
  cases old with
  | none => exact hwithout.insert_iff entry
  | some old => exact hwithout.insert_iff entry

/-- One update keeps the slots unique exactly under its condition. -/
theorem uniqueSlots_update_iff (h : UniqueSlots s.standardPool) (u : Update) :
    UniqueSlots (u.apply s).1.standardPool ↔ KeepsSlots s u := by
  cases u with
  | reputation update =>
    refine iff_of_true ?_ trivial
    change UniqueSlots (update.apply s).standardPool
    rw [reputation_standardPool]
    exact h
  | mempool update =>
    cases update with
    | doUpdateMempoolState entry old => exact uniqueSlots_doUpdateMempoolState_iff h entry old
    | updateEntryStatus entry status =>
      exact KeyedRecord.UniqueBy.insert_iff h { entry with status := status }
    | removeUserOp entry =>
      refine iff_of_true (h.of_subset ?_) trivial
      intro other hother
      exact ((s.standardPool.mem_delete _ _).mp hother).1
    | removeUserOpsForBannedAddr opsToRemove =>
      refine iff_of_true (h.of_subset ?_) trivial
      intro other hother
      exact ((s.standardPool.mem_foldl_delete _ _).mp hother).1
    | markBundling userOpHashes =>
      exact iff_of_true (h.of_map_eq (map_markBundling (fun _ _ => rfl) _ _)) trivial
    | clearState =>
      refine iff_of_true ?_ trivial
      intro other hother
      cases hother
    | addBundleTxnConfirmation transactionHash signerIndex => exact iff_of_true h trivial

end Updates

/-- Operations running concurrently, before any of them has started. -/
def concurrently (config : ReputationManager.StakeConfig) (bundleSize : ℕ) (s : State)
    (ops : List Operation) : Config State Update JsError :=
  ⟨s, ops.map (Operation.program config bundleSize)⟩

section LookUps

/-- The entry that the update writes, and the one it writes over. -/
def written : Update → Option (MempoolEntry × Option MempoolEntry)
  | .mempool (.doUpdateMempoolState entry old) => some (entry, old)
  | .mempool (.updateEntryStatus entry _) => some (entry, some entry)
  | _ => none

/-- The hash and the operation of an entry, which no update of it changes. -/
def identity (entry : MempoolEntry) : String × UserOperation := (entry.userOpHash, entry.userOp)

/-- The next access is the look-up of what will be written over: the entry of
its slot for an admission, the one under its hash for a status. -/
def IsLookUp (config : ReputationManager.StakeConfig) (p : Async PUnit) : Prop :=
  (∃ param, p = (admitUserOp config param).detach) ∨
    ∃ userOpHash status, p = updateEntryStatus userOpHash status

/-- What the update writes over is what was found in the state. -/
def WritesFound (s : State) : Update → Prop
  | .mempool (.doUpdateMempoolState entry old) =>
      findBySenderNonce entry.userOp.sender entry.userOp.nonce s.standardPool = old
  | .mempool (.updateEntryStatus entry _) =>
      s.standardPool.get entry.userOpHash = some entry
  | _ => True

variable {s : State} {u : Update} {entry other : MempoolEntry} {old : Option MempoolEntry}

/-- In a pool with unique slots the look-up finds whatever holds the slot. -/
theorem WritesFound.found (h : WritesFound s u) (hunique : UniqueSlots s.standardPool)
    (hwritten : written u = some (entry, old)) (hother : other ∈ s.standardPool.values)
    (hslot : slot other.userOp = slot entry.userOp) :
    old.map MempoolEntry.userOpHash = some other.userOpHash := by
  unfold written at hwritten
  split at hwritten
  · cases hwritten
    cases hfind : findBySenderNonce entry.userOp.sender entry.userOp.nonce s.standardPool with
    | none =>
      have hnone := List.find?_eq_none.mp hfind other hother
      exact absurd (decide_eq_true hslot) hnone
    | some found =>
      obtain ⟨hfound, hsame⟩ := findBySenderNonce_eq_some hfind
      rw [← hfind.symm.trans h]
      exact congrArg some (hunique found hfound other hother (hsame.trans hslot.symm))
  · cases hwritten
    obtain ⟨hmem, _⟩ := (s.standardPool.get_eq_some_iff _ _).mp h
    exact congrArg some (hunique entry hmem other hother hslot.symm)
  · cases hwritten

/-- Under a hash that an update does not write, it leaves the pooled operation. -/
theorem pooled_before_update {pooled : String × UserOperation}
    (hwritten : ∀ entry old, written u = some (entry, old) → entry.userOpHash ≠ pooled.1)
    (hpooled : pooled ∈ (u.apply s).1.standardPool.values.map identity) :
    pooled ∈ s.standardPool.values.map identity := by
  obtain ⟨other, hother, rfl⟩ := List.mem_map.mp hpooled
  have hbefore (h : other ∈ s.standardPool.values) :
      identity other ∈ s.standardPool.values.map identity := List.mem_map_of_mem h
  cases u with
  | reputation update =>
    change other ∈ (update.apply s).standardPool.values at hother
    rw [reputation_standardPool] at hother
    exact hbefore hother
  | mempool update =>
    cases update with
    | doUpdateMempoolState entry old =>
      have hne := hwritten entry old rfl
      cases old with
      | none =>
        rcases (s.standardPool.mem_insert _ _).mp hother with rfl | ⟨hmem, _⟩
        · exact absurd rfl hne
        · exact hbefore hmem
      | some old =>
        rcases ((s.standardPool.delete old.userOpHash).mem_insert _ _).mp hother with
          rfl | ⟨hmem, _⟩
        · exact absurd rfl hne
        · exact hbefore ((s.standardPool.mem_delete _ _).mp hmem).1
    | updateEntryStatus entry status =>
      have hne := hwritten entry (some entry) rfl
      rcases (s.standardPool.mem_insert _ _).mp hother with rfl | ⟨hmem, _⟩
      · exact absurd rfl hne
      · exact hbefore hmem
    | removeUserOp entry => exact hbefore ((s.standardPool.mem_delete _ _).mp hother).1
    | removeUserOpsForBannedAddr opsToRemove =>
      exact hbefore ((s.standardPool.mem_foldl_delete _ _).mp hother).1
    | markBundling userOpHashes =>
      have hmap : (markBundling s.standardPool userOpHashes).1.values.map identity =
          s.standardPool.values.map identity := map_markBundling (fun _ _ => rfl) _ _
      rw [← hmap]
      exact List.mem_map_of_mem hother
    | clearState => cases hother
    | addBundleTxnConfirmation transactionHash signerIndex => exact hbefore hother

variable {config : ReputationManager.StakeConfig}

/-- What is left of an admission writes over what it has found. -/
theorem admitUserOp_lookedUp (config : ReputationManager.StakeConfig) (param : RelayUserOpParam) :
    LooksUpFirst (IsLookUp config) (fun u => written u = none) WritesFound
      (admitUserOp config param).detach := by
  refine .here ⟨Or.inl ⟨param, rfl⟩, _, rfl, ?_⟩
  intro s
  have hchecks := replaceOrAddUserOpChecks_found config param feeBumped s
  change Program.Guarantees _ _ _ ((replaceOrAddUserOpChecksBy feeBumped config s _ >>= _) >>= _)
  refine Program.Guarantees.seq (Program.Guarantees.bind (hchecks.weaken fun _ h => h.elim) ?_
    fun _ _ => trivial) fun _ => trivial
  intro res hres
  cases res with
  | error error => exact trivial
  | ok checked =>
    obtain ⟨hentry, hold⟩ := hres checked rfl
    have hupdate : (updateState (.mempool
        (.doUpdateMempoolState checked.1 checked.2.oldEntry))).Guarantees (fun _ => True)
          (WritesFound s) fun _ => True := by
      refine ⟨?_, fun _ => trivial⟩
      rw [hentry]
      exact hold
    exact hupdate.seq fun _ =>
      (updateSeenStatus_guarantees (fun _ => trivial) (fun _ => trivial) _ _).seq fun _ => trivial

theorem updateEntryStatus_lookedUp (config : ReputationManager.StakeConfig) (userOpHash : String)
    (status : EntryStatus) :
    LooksUpFirst (IsLookUp config) (fun u => written u = none) WritesFound
      (updateEntryStatus userOpHash status) := by
  refine LooksUpFirst.read_bind (Or.inr ⟨userOpHash, status, rfl⟩) ?_
  intro s
  cases hget : s.standardPool.get userOpHash with
  | none => exact trivial
  | some entry =>
    obtain ⟨_, rfl⟩ := (s.standardPool.get_eq_some_iff _ _).mp hget
    exact ⟨hget, fun _ => trivial⟩

/-- Every operation looks up what it will write over before it writes. -/
theorem program_lookedUp (config : ReputationManager.StakeConfig) (bundleSize : ℕ)
    (op : Operation) :
    LooksUpFirst (IsLookUp config) (fun u => written u = none) WritesFound
      (op.program config bundleSize) := by
  have hhandOut (select : StandardPool → List MempoolEntry) :
      (handOut select).detach.Guarantees (fun _ => True) (fun u => written u = none)
        fun _ => True :=
    (handOut_guarantees (fun _ => rfl) select).seq fun _ => trivial
  cases op with
  | reputation update => exact .updateState rfl fun r => .done r
  | removeUserOpsForBannedAddr addr => exact .getState fun s => .updateState rfl fun r => .done r
  | mempool op =>
    cases op with
    | addUserOp balanceOf param =>
      change LooksUpFirst _ _ _ ((checkPaymasterDeposit balanceOf param.userOp >>= fun _ =>
        admitUserOp config param) >>= fun _ => pure ⟨⟩)
      rw [Program.bind_assoc]
      exact ComesTo.after ((checkPaymasterDeposit_readOnly _ _).guarantees _ _) fun _ _ =>
        admitUserOp_lookedUp config param
    | removeUserOp userOpOrHash =>
      have hremove : (removeUserOp userOpOrHash).detach.Guarantees (fun _ => True)
          (fun u => written u = none) fun _ => True :=
        removeUserOp_guarantees (fun _ => rfl) userOpOrHash
      exact ComesTo.of_guarantees hremove
    | updateEntryStatus userOpHash status => exact updateEntryStatus_lookedUp config _ _
    | getNextPending => exact ComesTo.of_guarantees (hhandOut _)
    | getAllPending => exact ComesTo.of_guarantees (hhandOut _)
    | clearState => exact .updateState rfl fun r => .done r

end LookUps

section Overlaps

variable (config : ReputationManager.StakeConfig) (c : Config State Update JsError)

/-- The next access of thread i writes the entry, over another one if any. -/
def WritesEntry (i : ℕ) (entry : MempoolEntry) (old : Option MempoolEntry) : Prop :=
  ∃ u, c.pending i = some u ∧ written u = some (entry, old)

/-- Thread i looked up what it will write over, and after that some thread
wrote an entry under the hash. -/
def WrittenSinceLookUp (before : List ℕ) (i : ℕ) (userOpHash : String) : Prop :=
  ∃ first between j last, before = first ++ i :: (between ++ j :: last) ∧
    LookedUp Update.apply (IsLookUp config) c i first ∧
      ∃ entry old, WritesEntry (c.exec Update.apply (first ++ i :: between)) j entry old ∧
        entry.userOpHash = userOpHash

/-- No entry is written while its slot is held by another one, under a hash
that the write does not touch, which was written since the look-up. -/
def NoLateRivals (schedule : List ℕ) : Prop :=
  ∀ before i after entry old, schedule = before ++ i :: after →
    WritesEntry (c.exec Update.apply before) i entry old →
    ∀ other ∈ (c.exec Update.apply before).state.standardPool.values,
      slot other.userOp = slot entry.userOp → other.userOpHash ≠ entry.userOpHash →
      old.map MempoolEntry.userOpHash ≠ some other.userOpHash →
      ¬WrittenSinceLookUp config c before i other.userOpHash

variable {config c} {s : State} {u : Update}

theorem keepsSlots_iff : KeepsSlots s u ↔ ∀ entry old, written u = some (entry, old) →
    ∀ other ∈ s.standardPool.values, other.userOpHash ≠ entry.userOpHash →
      old.map MempoolEntry.userOpHash ≠ some other.userOpHash →
      slot other.userOp ≠ slot entry.userOp := by
  unfold KeepsSlots
  split
  · rename_i entry old
    constructor
    · intro h _ _ hwritten other hother hne hold
      cases hwritten
      refine h other ?_ hne
      cases old with
      | none => exact hother
      | some old =>
        refine (s.standardPool.mem_delete _ _).mpr ⟨hother, ?_⟩
        exact fun hsame => hold (congrArg some hsame.symm)
    · intro h other hother hne
      cases old with
      | none => exact h entry none rfl other hother hne (by simp)
      | some old =>
        obtain ⟨hmem, hother⟩ := (s.standardPool.mem_delete _ _).mp hother
        exact h entry (some old) rfl other hmem hne fun hsame =>
          hother (Option.some.inj hsame).symm
  · rename_i entry status
    constructor
    · intro h _ _ hwritten other hother hne _
      cases hwritten
      exact h other hother hne
    · intro h other hother hne
      exact h entry (some entry) rfl other hother hne fun hsame =>
        hne (Option.some.inj hsame).symm
  · rename_i hother hstatus
    refine iff_of_true trivial ?_
    intro entry old hwritten
    unfold written at hwritten
    split at hwritten
    · exact (hother _ _ rfl).elim
    · exact (hstatus _ _ rfl).elim
    · cases hwritten

/-- An operation pooled under a hash that a run does not write was pooled
under it before the run. -/
theorem pooled_before {schedule : List ℕ} {pooled : String × UserOperation}
    (hwritten : ∀ between j last entry old, schedule = between ++ j :: last →
      WritesEntry (c.exec Update.apply between) j entry old → entry.userOpHash ≠ pooled.1)
    (hpooled : pooled ∈ (c.exec Update.apply schedule).state.standardPool.values.map identity) :
    pooled ∈ c.state.standardPool.values.map identity := by
  induction schedule generalizing c with
  | nil => exact hpooled
  | cons i schedule ih =>
    have hnext : pooled ∈ (c.step Update.apply i).state.standardPool.values.map identity := by
      refine ih ?_ hpooled
      intro between j last entry old hsplit hwrites
      exact hwritten (i :: between) j last entry old (congrArg (i :: ·) hsplit) hwrites
    cases hpending : c.pending i with
    | none =>
      rw [Config.step_state_of_not_pending Update.apply hpending] at hnext
      exact hnext
    | some u =>
      rw [Config.step_state_of_pending Update.apply hpending] at hnext
      refine pooled_before_update ?_ hnext
      intro entry old hu
      exact hwritten [] i schedule entry old rfl ⟨u, hpending, hu⟩

/-- A look-up changes nothing. -/
theorem state_of_lookedUp {i : ℕ} {first : List ℕ}
    (h : LookedUp Update.apply (IsLookUp config) c i first) :
    (c.exec Update.apply (first ++ [i])).state = (c.exec Update.apply first).state := by
  obtain ⟨p, hthread, hlookUp⟩ := h
  rw [Config.exec_append]
  refine Config.step_state_of_not_pending Update.apply ?_
  unfold Config.pending
  rw [hthread]
  rcases hlookUp with ⟨param, rfl⟩ | ⟨userOpHash, status, rfl⟩
  · rfl
  · rfl

/-- Whatever holds the slot of an entry being written, and was not written
since its look-up, is what the entry is written over. -/
theorem found_unless_late {i : ℕ} {before : List ℕ} {entry other : MempoolEntry}
    {old : Option MempoolEntry}
    (hthread : c.At i (LooksUpFirst (IsLookUp config) (fun u => written u = none) WritesFound))
    (hunique : ∀ first, first <+: before →
      UniqueSlots (c.exec Update.apply first).state.standardPool)
    (hwrites : WritesEntry (c.exec Update.apply before) i entry old)
    (hother : other ∈ (c.exec Update.apply before).state.standardPool.values)
    (hslot : slot other.userOp = slot entry.userOp)
    (hlate : ¬WrittenSinceLookUp config c before i other.userOpHash) :
    old.map MempoolEntry.userOpHash = some other.userOpHash := by
  obtain ⟨u, hpending, hu⟩ := hwrites
  have hnotFree : ¬written u = none := by simp [hu]
  obtain ⟨first, rest, hbefore, hlookedUp, hfound⟩ :=
    lookedUp_of_pending Update.apply hthread hpending hnotFree
  subst hbefore
  have hsplit : first ++ i :: rest = (first ++ [i]) ++ rest := by simp
  have hpooled : identity other ∈
      (c.exec Update.apply first).state.standardPool.values.map identity := by
    rw [← state_of_lookedUp hlookedUp]
    rw [hsplit, Config.exec_append] at hother
    refine pooled_before ?_ (List.mem_map_of_mem hother)
    intro between j last entry' old' hrest hwrites hsame
    refine hlate ⟨first, between, j, last, by rw [hrest], hlookedUp, entry', old', ?_, hsame⟩
    have hsplit' : first ++ i :: between = (first ++ [i]) ++ between := by simp
    rw [hsplit', Config.exec_append]
    exact hwrites
  obtain ⟨stored, hstored, hsame⟩ := List.mem_map.mp hpooled
  obtain ⟨hhash, huserOp⟩ := Prod.mk.inj hsame
  have hunique := hunique first (List.prefix_append _ _)
  rw [← hhash]
  exact hfound.found hunique hu hstored ((congrArg slot huserOp).trans hslot)

end Overlaps

/-- However any number of operations interleave, the slots are unique in
every state exactly when no write comes late: when its slot is held by an
entry under another hash, that entry was there at its look-up. -/
theorem unique_slots_iff (config : ReputationManager.StakeConfig) (bundleSize : ℕ)
    (whiteList blackList : List String) (ops : List Operation) (schedule : List ℕ) :
    AllStates (Config.step Update.apply) (fun c => UniqueSlots c.state.standardPool)
        (concurrently config bundleSize (State.initial whiteList blackList) ops) schedule ↔
      NoLateRivals config (concurrently config bundleSize (State.initial whiteList blackList) ops)
        schedule := by
  generalize hc : concurrently config bundleSize (State.initial whiteList blackList) ops = c
  have hinitial : UniqueSlots c.state.standardPool := by
    rw [← hc]
    intro entry hentry
    cases hentry
  have hthreads (i : ℕ) :
      c.At i (LooksUpFirst (IsLookUp config) (fun u => written u = none) WritesFound) := by
    intro p hp
    rw [← hc] at hp
    obtain ⟨op, _, rfl⟩ := List.mem_map.mp (List.mem_of_getElem? hp)
    exact program_lookedUp config bundleSize op
  constructor
  · intro hall before i after entry old hschedule hwrites other hother hslot hne hold _
    obtain ⟨u, hpending, hu⟩ := hwrites
    have hkeeps := (Config.allStates_iff_writes Update.apply
      (I := fun s => UniqueSlots s.standardPool) (P := KeepsSlots)
      (fun s u h => uniqueSlots_update_iff h u) hinitial _).mp hall
    have hnow := (allSteps_iff_prefixes _).mp hkeeps before i after hschedule u hpending
    exact keepsSlots_iff.mp hnow entry old hu other hother hne hold hslot
  · intro hlate
    refine (allStates_iff_prefixes _).mpr (past_induction hinitial ?_)
    intro before i after hschedule hpast
    have hnow := hpast before List.prefix_rfl
    change UniqueSlots (Config.exec Update.apply c (before ++ [i])).state.standardPool
    rw [Config.exec_append]
    refine Config.state_step Update.apply (I := fun s => UniqueSlots s.standardPool)
      (P := KeepsSlots) (fun s u h hkeeps => (uniqueSlots_update_iff h u).mpr hkeeps) hnow ?_
    intro u hpending
    refine keepsSlots_iff.mpr ?_
    intro entry old hu other hother hne hold hslot
    have hwrites : WritesEntry (Config.exec Update.apply c before) i entry old :=
      ⟨u, hpending, hu⟩
    exact hold (found_unless_late (hthreads i) hpast hwrites hother hslot
      (hlate before i after entry old hschedule hwrites other hother hslot hne hold))

section Concrete

/-- Two admissions for one slot, each of which reads before the other writes. -/
def rivals : List Operation :=
  [.mempool (.addUserOp richDeposits (plainParam (plainOp account 1 10 none none) hash₁)),
    .mempool (.addUserOp richDeposits (plainParam (plainOp account 1 20 none none) hash₂))]

theorem rivals_both_pooled :
    ¬∀ (config : ReputationManager.StakeConfig) (bundleSize : ℕ) (ops : List Operation)
      (schedule : List ℕ),
      UniqueSlots ((concurrently config bundleSize (State.initial [] []) ops).exec Update.apply
        schedule).state.standardPool := by
  intro h
  exact absurd (h plainConfig 5 rivals [0, 0, 0, 0, 1, 1, 1, 1, 0, 1]) (by decide)

end Concrete

end Bundler.SlotUniqueness
