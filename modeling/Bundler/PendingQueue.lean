import Bundler.AdmissionEffect
import Bundler.Queues
import Bundler.SlotUniqueness

/-!
The mempool as a queue. The pool keeps its entries in the order in which
they were admitted, a replacement counting as a new arrival, and a status
that changes leaves an entry in its place. So a hand-out takes the oldest
pending entries, and as long as nothing is put back as pending, no entry is
handed out before one that was admitted earlier.
-/
namespace Bundler.PendingQueue

open KeyedRecords AsyncPrograms DataModel StateService ReputationManager DepositManager
  MempoolHelper MempoolManager Operations AdmissionEffect SlotUniqueness Runs Queues

abbrev hashes (entries : List MempoolEntry) : List String := entries.map MempoolEntry.userOpHash

/-- The pooled hashes, in the order of the pool. -/
def pooledHashes (s : State) : List String := hashes s.standardPool.values

/-- Those of the pending entries. -/
def pendingHashes (s : State) : List String := hashes (allPending s.standardPool)

/-- The hash that an admission returns, if it returns Right. -/
def admitted : Except JsError (Except RpcError String) → List String
  | .ok (.ok userOpHash) => [userOpHash]
  | _ => []

/-- The hashes of the entries that a hand-out returns. -/
def returned : Except JsError (List MempoolEntry) → List String
  | .ok entries => hashes entries
  | .error _ => []

section Observed

variable (config : StakeConfig) (bundleSize : ℕ)

def admits (s : State) : Operation → List String
  | .mempool (.addUserOp balanceOf param) =>
      admitted (runAlone (MempoolManager.addUserOp config balanceOf param) s).2
  | _ => []

def handsOut (s : State) : Operation → List String
  | .mempool .getNextPending => returned (runAlone (MempoolManager.getNextPending bundleSize) s).2
  | .mempool .getAllPending => returned (runAlone MempoolManager.getAllPending s).2
  | _ => []

/-- The operation makes an entry pending again. -/
def putsBack : Operation → Prop
  | .mempool (.updateEntryStatus _ status) => status = .pending
  | _ => False

end Observed

section Admissions

variable {config : StakeConfig} {balanceOf : BalanceOf} {param : RelayUserOpParam} {s : State}

theorem admits_of_accepted (h : Accepted config balanceOf param s) :
    admits config s (.mempool (.addUserOp balanceOf param)) = [param.userOpHash] := by
  obtain ⟨userOpHash, hright⟩ := h
  obtain ⟨rfl, _⟩ :=
    (addUserOp_ok_iff config balanceOf param s _ userOpHash).mp (Prod.ext rfl hright)
  exact congrArg admitted hright

theorem admits_of_not_accepted (h : ¬Accepted config balanceOf param s) :
    admits config s (.mempool (.addUserOp balanceOf param)) = [] := by
  change admitted (runAlone (addUserOp config balanceOf param) s).2 = []
  unfold admitted
  split
  · rename_i hright
    exact absurd ⟨_, hright⟩ h
  · rfl

theorem withoutOld_sublist (standardPool : StandardPool) (old : Option MempoolEntry) :
    (withoutOld standardPool old).values.Sublist standardPool.values := by
  cases old with
  | none => exact List.Sublist.refl _
  | some old => exact List.filter_sublist

theorem values_insert_new {standardPool : StandardPool} (entry : MempoolEntry)
    (h : standardPool.get entry.userOpHash = none) :
    (standardPool.insert entry).values = standardPool.values ++ [entry] := by
  refine if_neg fun hmem => ?_
  obtain ⟨other, hother, hsame⟩ := List.mem_map.mp hmem
  exact (standardPool.get_eq_none_iff _).mp h other hother hsame

theorem hashes_insert_sublist (standardPool : StandardPool) (entry : MempoolEntry) :
    (hashes (standardPool.insert entry).values).Sublist
      (hashes standardPool.values ++ [entry.userOpHash]) := by
  have hkeys : hashes (standardPool.insert entry).values = _ :=
    KeyedRecord.insertValues_keys standardPool.values entry
  rw [hkeys]
  split
  · exact List.sublist_append_left _ _
  · exact List.Sublist.refl _

end Admissions

section Marking

/-- What marking makes of an entry. -/
def marked (userOpHashes : List String) (entry : MempoolEntry) : MempoolEntry :=
  if entry.userOpHash ∈ userOpHashes then { entry with status := .bundling } else entry

@[simp] theorem marked_userOpHash (userOpHashes : List String) (entry : MempoolEntry) :
    (marked userOpHashes entry).userOpHash = entry.userOpHash := by
  unfold marked
  split
  · rfl
  · rfl

theorem isPending_marked (userOpHashes : List String) (entry : MempoolEntry) :
    isPending (marked userOpHashes entry) =
      (isPending entry && decide (entry.userOpHash ∉ userOpHashes)) := by
  unfold marked
  split
  · rename_i h
    simp [isPending, h]
  · rename_i h
    simp [h]

/-- Marking entries that are all there changes them where they stand. -/
theorem values_markBundling (standardPool : StandardPool) {userOpHashes : List String}
    (h : ∀ userOpHash ∈ userOpHashes, userOpHash ∈ hashes standardPool.values) :
    (markBundling standardPool userOpHashes).1.values =
      standardPool.values.map (marked userOpHashes) := by
  induction userOpHashes generalizing standardPool with
  | nil =>
    have hmarked : marked [] = id := by
      funext entry
      simp [marked]
    rw [hmarked, List.map_id]
    rfl
  | cons first userOpHashes ih =>
    obtain ⟨hfirst, hrest⟩ := List.forall_mem_cons.mp h
    obtain ⟨entry, hentry, rfl⟩ := List.mem_map.mp hfirst
    have hkept : hashes (standardPool.insert { entry with status := .bundling }).values =
        hashes standardPool.values :=
      map_insert_status (fun _ _ => rfl) (standardPool.get_key hentry) rfl .bundling
    unfold markBundling
    rw [standardPool.get_key hentry]
    dsimp only
    rw [ih _ (hkept ▸ hrest)]
    have hvalues : (standardPool.insert { entry with status := .bundling }).values =
        standardPool.values.map fun other =>
          if other.userOpHash = entry.userOpHash then { entry with status := .bundling }
          else other := if_pos hfirst
    rw [hvalues, List.map_map]
    refine List.map_congr_left ?_
    intro other hother
    by_cases hsame : other.userOpHash = entry.userOpHash
    · obtain rfl := standardPool.eq_of_key_eq hother hentry hsame
      simp [marked]
    · simp [marked, hsame]

end Marking

section HandOuts

variable (s : State) (n : ℕ)

/-- Taking some of the oldest pending entries out leaves the others pending. -/
theorem handOut_run {select : StandardPool → List MempoolEntry}
    (hselect : select s.standardPool = (allPending s.standardPool).take n) :
    (runAlone (handOut select) s).2 = .ok ((allPending s.standardPool).take n) ∧
      hashes ((allPending s.standardPool).take n) ++
        pendingHashes (runAlone (handOut select) s).1 = pendingHashes s := by
  have hpooled : ∀ userOpHash ∈ hashes ((allPending s.standardPool).take n),
      userOpHash ∈ hashes s.standardPool.values := by
    intro userOpHash hmem
    obtain ⟨entry, hentry, rfl⟩ := List.mem_map.mp hmem
    exact List.mem_map_of_mem (List.mem_filter.mp (List.mem_of_mem_take hentry)).1
  have hmarks := markBundling_ok hpooled
  constructor
  · have hrun : Program.run Update.apply
        (updateState (.mempool (.markBundling (hashes (select s.standardPool))))) s =
        ((MempoolUpdate.apply s (.markBundling (hashes (select s.standardPool)))).1, .ok ⟨⟩) := by
      refine Prod.ext rfl ?_
      rw [hselect]
      exact hmarks
    change (Program.run Update.apply (updateState (.mempool (.markBundling
      (hashes (select s.standardPool)))) >>= fun _ => pure (select s.standardPool)) s).2 = _
    rw [Program.run_bind_of_ok Update.apply hrun, hselect]
    rfl
  · have hleft : pendingHashes (runAlone (handOut select) s).1 =
        hashes ((allPending s.standardPool).drop n) := by
      rw [handOut_run_fst, hselect]
      change hashes ((markBundling s.standardPool _).1.values.filter isPending) = _
      have hkeys : (hashes (allPending s.standardPool)).Nodup :=
        s.standardPool.nodup.sublist (List.filter_sublist.map _)
      rw [values_markBundling s.standardPool hpooled, List.filter_map, hashes, List.map_map,
        ← filter_not_mem_take hkeys n]
      have hmarked :
          MempoolEntry.userOpHash ∘ marked (hashes ((allPending s.standardPool).take n)) =
            MempoolEntry.userOpHash := funext (marked_userOpHash _)
      rw [hmarked]
      unfold allPending
      rw [List.filter_filter]
      refine congrArg hashes (List.filter_congr ?_)
      intro entry _
      rw [Bool.and_comm]
      exact isPending_marked _ entry
    rw [hleft]
    unfold hashes pendingHashes
    rw [← List.map_append, List.take_append_drop]

end HandOuts

section Steps

/-- The second pool is the first one without some of its entries, and with
others changed but for their hashes. -/
structure Thinned (change : MempoolEntry → MempoolEntry) (before after : StandardPool) :
    Prop where
  kept : ∃ kept : List MempoolEntry, kept.Sublist before.values ∧ after.values = kept.map change
  userOpHash : ∀ entry, (change entry).userOpHash = entry.userOpHash

section Thinned

variable {change : MempoolEntry → MempoolEntry} {before after : StandardPool}

theorem Thinned.of_sublist (h : after.values.Sublist before.values) :
    Thinned id before after :=
  ⟨⟨after.values, h, (List.map_id _).symm⟩, fun _ => rfl⟩

theorem Thinned.pooled (h : Thinned change before after) :
    (hashes after.values).Sublist (hashes before.values) := by
  obtain ⟨kept, hkept, hafter⟩ := h.kept
  have hsame : MempoolEntry.userOpHash ∘ change = MempoolEntry.userOpHash :=
    funext h.userOpHash
  rw [hafter, hashes, List.map_map, hsame]
  exact hkept.map _

theorem Thinned.pending (h : Thinned change before after)
    (hpending : ∀ entry, isPending (change entry) → isPending entry) :
    (hashes (allPending after)).Sublist (hashes (allPending before)) := by
  obtain ⟨kept, hkept, hafter⟩ := h.kept
  have hsame : MempoolEntry.userOpHash ∘ change = MempoolEntry.userOpHash :=
    funext h.userOpHash
  unfold allPending
  rw [hafter, List.filter_map, hashes, List.map_map, hsame]
  refine List.Sublist.map _ ((List.monotone_filter_right kept ?_).trans (hkept.filter _))
  intro entry hentry
  exact hpending entry hentry

end Thinned

variable (config : StakeConfig) (bundleSize : ℕ) (s : State)

/-- A status is changed where the entry stands. -/
theorem thinned_statusUpdated (userOpHash : String) (status : EntryStatus) :
    ∃ change, Thinned change s.standardPool (statusUpdated s userOpHash status).standardPool ∧
      (status ≠ .pending → ∀ entry, isPending (change entry) → isPending entry) := by
  unfold statusUpdated
  cases hget : s.standardPool.get userOpHash with
  | none => exact ⟨id, .of_sublist (List.Sublist.refl _), fun _ _ => id⟩
  | some entry =>
    obtain ⟨hmem, hhash⟩ := (s.standardPool.get_eq_some_iff _ _).mp hget
    have hvalues : (s.standardPool.insert { entry with status := status }).values =
        s.standardPool.values.map fun other =>
          if other.userOpHash = entry.userOpHash then { entry with status := status }
          else other := if_pos (List.mem_map_of_mem hmem)
    refine ⟨_, ⟨⟨_, List.Sublist.refl _, hvalues⟩, ?_⟩, ?_⟩
    · intro other
      split
      · rename_i hsame
        exact hsame.symm
      · rfl
    · intro hstatus other hpending
      split at hpending
      · exact absurd (of_decide_eq_true hpending) hstatus
      · exact hpending

theorem thinned_handOut (select : StandardPool → List MempoolEntry)
    (hselect : ∀ entry ∈ select s.standardPool, entry ∈ s.standardPool.values) :
    Thinned (marked (hashes (select s.standardPool))) s.standardPool
      (MempoolUpdate.apply s (.markBundling (hashes (select s.standardPool)))).1.standardPool := by
  refine ⟨⟨_, List.Sublist.refl _, values_markBundling s.standardPool ?_⟩, marked_userOpHash _⟩
  intro userOpHash hmem
  obtain ⟨entry, hentry, rfl⟩ := List.mem_map.mp hmem
  exact List.mem_map_of_mem (hselect entry hentry)

/-- Whatever is no accepted admission brings no entry in, moves none, and
makes none pending unless it puts it back. -/
theorem perform_thins (op : Operation)
    (hop : ∀ balanceOf param, op = .mempool (.addUserOp balanceOf param) →
      ¬Accepted config balanceOf param s) :
    ∃ change, Thinned change s.standardPool (op.perform config bundleSize s).standardPool ∧
      (¬putsBack op → ∀ entry, isPending (change entry) → isPending entry) := by
  have hsublist {after : StandardPool} (h : after.values.Sublist s.standardPool.values) :
      ∃ change, Thinned change s.standardPool after ∧
        (¬putsBack op → ∀ entry, isPending (change entry) → isPending entry) :=
    ⟨id, .of_sublist h, fun _ _ => id⟩
  have hmarking (userOpHashes : List String) (entry : MempoolEntry)
      (hpending : isPending (marked userOpHashes entry)) : isPending entry := by
    rw [isPending_marked, Bool.and_eq_true] at hpending
    exact hpending.1
  cases op with
  | mempool op =>
    change ∃ change, Thinned change _ (op.perform config bundleSize s).standardPool ∧ _
    cases op with
    | addUserOp balanceOf param =>
      rw [perform_of_not_accepted config bundleSize balanceOf param (hop balanceOf param rfl)]
      exact hsublist (List.Sublist.refl _)
    | removeUserOp userOpOrHash =>
      rw [perform_removeUserOp]
      refine hsublist ?_
      unfold userOpRemoved
      cases findEntry userOpOrHash s.standardPool with
      | none => exact List.Sublist.refl _
      | some found => exact List.filter_sublist
    | updateEntryStatus userOpHash status =>
      rw [perform_updateEntryStatus]
      exact thinned_statusUpdated s userOpHash status
    | getNextPending =>
      rw [perform_getNextPending]
      refine ⟨_, thinned_handOut s (nextPending bundleSize) ?_, fun _ => hmarking _⟩
      exact fun entry hentry => (List.mem_filter.mp (List.mem_of_mem_take hentry)).1
    | getAllPending =>
      rw [perform_getAllPending]
      refine ⟨_, thinned_handOut s allPending ?_, fun _ => hmarking _⟩
      exact fun entry hentry => (List.mem_filter.mp hentry).1
    | clearState => exact hsublist (List.nil_sublist _)
  | removeUserOpsForBannedAddr addr =>
    rw [perform_removeUserOpsForBannedAddr]
    refine hsublist ?_
    have hvalues := s.standardPool.values_foldl_delete (s.standardPool.values.filter (spells addr))
    change ((s.standardPool.values.filter (spells addr)).foldl _ s.standardPool).values.Sublist _
    rw [hvalues]
    exact List.filter_sublist
  | reputation update =>
    change ∃ change, Thinned change _ (update.apply s).standardPool ∧ _
    rw [reputation_standardPool]
    exact hsublist (List.Sublist.refl _)

end Steps

section Order

variable (config : StakeConfig) (bundleSize : ℕ)

/-- An admission brings its own hash in, at the end or where it stood. -/
theorem pooled_admission (param : RelayUserOpParam) (s : State) (old : Option MempoolEntry) :
    (pooledHashes (afterAdmission param s old)).Sublist
      (pooledHashes s ++ [param.userOpHash]) := by
  unfold pooledHashes
  rw [afterAdmission_standardPool, doUpdateMempoolState_fst]
  refine (hashes_insert_sublist _ (newEntry param)).trans ?_
  exact ((withoutOld_sublist s.standardPool old).map _).append_right _

theorem pooled_inOrder (s : State) (op : Operation) :
    InOrder (Operation.perform config bundleSize) pooledHashes (fun _ _ => []) (admits config)
      s op := by
  unfold InOrder
  rw [List.nil_append]
  by_cases haccepted : ∃ balanceOf param, op = .mempool (.addUserOp balanceOf param) ∧
      Accepted config balanceOf param s
  · obtain ⟨balanceOf, param, rfl, haccepted⟩ := haccepted
    obtain ⟨hdeposit, old, hadmitted⟩ := (accepted_iff config balanceOf param s).mp haccepted
    have hperform : Operation.perform config bundleSize s (.mempool (.addUserOp balanceOf param)) =
        afterAdmission param s old :=
      perform_of_admitted config bundleSize balanceOf param hdeposit hadmitted
    rw [hperform, admits_of_accepted haccepted]
    exact pooled_admission param s old
  · have hnot : ∀ balanceOf param, op = .mempool (.addUserOp balanceOf param) →
        ¬Accepted config balanceOf param s :=
      fun balanceOf param hop haccept => haccepted ⟨balanceOf, param, hop, haccept⟩
    obtain ⟨_, hthinned, _⟩ := perform_thins config bundleSize s op hnot
    exact hthinned.pooled.trans (List.sublist_append_left _ _)

theorem pending_sublist_pooled (s : State) : (pendingHashes s).Sublist (pooledHashes s) :=
  List.filter_sublist.map _

/-- What a hand-out returns and what it leaves pending were pending before, in this order. -/
theorem handOut_splits (s : State) :
    (handsOut bundleSize s (.mempool .getNextPending) ++
        pendingHashes (Operation.perform config bundleSize s (.mempool .getNextPending)) =
      pendingHashes s) ∧
    (handsOut bundleSize s (.mempool .getAllPending) ++
        pendingHashes (Operation.perform config bundleSize s (.mempool .getAllPending)) =
      pendingHashes s) := by
  have hsplit (n : ℕ) {select : StandardPool → List MempoolEntry}
      (hselect : select s.standardPool = (allPending s.standardPool).take n) :
      returned (runAlone (handOut select) s).2 ++
        pendingHashes (runAlone (handOut select).detach s).1 = pendingHashes s := by
    obtain ⟨hreturned, hleft⟩ := handOut_run s n hselect
    rw [hreturned, runAlone, Program.run_detach_fst]
    exact hleft
  exact ⟨hsplit bundleSize rfl, hsplit (allPending s.standardPool).length (List.take_length).symm⟩

/-- Whatever has happened before, a hand-out takes entries that were all
admitted before those it leaves pending, and takes them in that order. -/
theorem hand_outs_in_order (whiteList blackList : List String) (ops : List Operation) :
    let perform := Operation.perform config bundleSize
    let s := run perform (State.initial whiteList blackList) ops
    let admissions := emitted perform (admits config) (State.initial whiteList blackList) ops
    (handsOut bundleSize s (.mempool .getNextPending) ++
        pendingHashes (perform s (.mempool .getNextPending))).Sublist admissions ∧
      (handsOut bundleSize s (.mempool .getAllPending) ++
        pendingHashes (perform s (.mempool .getAllPending))).Sublist admissions := by
  intro perform s admissions
  have hsteps : AllSteps perform (InOrder perform pooledHashes (fun _ _ => []) (admits config))
      (State.initial whiteList blackList) ops :=
    allSteps_of_mem perform (I := fun _ => True)
      (fun s _ op _ => ⟨pooled_inOrder config bundleSize s op, trivial⟩) trivial
  have hpooled : (pooledHashes s).Sublist admissions :=
    (List.sublist_append_right _ _).trans (served_sublist hsteps)
  have hpending := (pending_sublist_pooled s).trans hpooled
  obtain ⟨hnext, hall⟩ := handOut_splits config bundleSize s
  exact ⟨hnext ▸ hpending, hall ▸ hpending⟩

end Order

section Turns

/-- The admissions that a run attempts. -/
def admissionsOf (ops : List Operation) : List RelayUserOpParam :=
  ops.filterMap fun
    | .mempool (.addUserOp _ param) => some param
    | _ => none

/-- Operations of different senders or nonces have different hashes. -/
def HashesTellSlots (ops : List Operation) : Prop :=
  ∀ param ∈ admissionsOf ops, ∀ other ∈ admissionsOf ops,
    param.userOpHash = other.userOpHash → slot param.userOp = slot other.userOp

/-- The operation lets no pending entry go but by handing it out: what it
removes, replaces or gives another status is not pending. -/
def keepsAll (config : StakeConfig) (s : State) : Operation → Prop
  | .mempool (.addUserOp _ param) => ∀ old, Admitted config param s (some old) → ¬isPending old
  | .mempool (.removeUserOp userOpOrHash) =>
      ∀ entry ∈ findEntry userOpOrHash s.standardPool, ¬isPending entry
  | .mempool (.updateEntryStatus userOpHash _) =>
      ∀ entry ∈ s.standardPool.get userOpHash, ¬isPending entry
  | .mempool .clearState => allPending s.standardPool = []
  | .removeUserOpsForBannedAddr addr => ∀ entry ∈ allPending s.standardPool, ¬spells addr entry
  | _ => True

section Keeping

variable {standardPool : StandardPool} {entry : MempoolEntry}

theorem allPending_delete (hentry : entry ∈ standardPool.values) (hnot : ¬isPending entry) :
    allPending (standardPool.delete entry.userOpHash) = allPending standardPool := by
  change (standardPool.values.filter _).filter isPending = standardPool.values.filter isPending
  rw [List.filter_filter]
  refine List.filter_congr fun other hother => ?_
  by_cases hsame : other.userOpHash = entry.userOpHash
  · obtain rfl := standardPool.eq_of_key_eq hother hentry hsame
    simp [hnot]
  · simp [hsame]

theorem hashes_allPending_insert (hentry : entry ∈ standardPool.values) (hnot : ¬isPending entry)
    {status : EntryStatus} (hstatus : status ≠ .pending) :
    hashes (allPending (standardPool.insert { entry with status := status })) =
      hashes (allPending standardPool) := by
  have hvalues : (standardPool.insert { entry with status := status }).values =
      standardPool.values.map fun other =>
        if other.userOpHash = entry.userOpHash then { entry with status := status }
        else other := if_pos (List.mem_map_of_mem hentry)
  unfold allPending
  rw [hvalues, List.filter_map]
  have hsame : standardPool.values.filter (isPending ∘ fun other =>
      if other.userOpHash = entry.userOpHash then { entry with status := status } else other) =
      standardPool.values.filter isPending := by
    refine List.filter_congr fun other hother => ?_
    by_cases hkey : other.userOpHash = entry.userOpHash
    · obtain rfl := standardPool.eq_of_key_eq hother hentry hkey
      simp [isPending, hstatus, of_decide_eq_false (Bool.eq_false_iff.mpr hnot)]
    · simp [hkey]
  rw [hsame, hashes, List.map_map]
  refine List.map_congr_left fun other _ => ?_
  by_cases hkey : other.userOpHash = entry.userOpHash
  · simp [hkey]
  · simp [hkey]

theorem pending_userOpRemoved (s : State) (userOpOrHash : UserOpOrHash)
    (h : ∀ entry ∈ findEntry userOpOrHash s.standardPool, ¬isPending entry) :
    pendingHashes (userOpRemoved s userOpOrHash) = pendingHashes s := by
  unfold userOpRemoved
  cases hfind : findEntry userOpOrHash s.standardPool with
  | none => rfl
  | some entry =>
    have hentry : entry ∈ s.standardPool.values := by
      cases userOpOrHash with
      | hash userOpHash => exact ((s.standardPool.get_eq_some_iff _ _).mp hfind).1
      | userOp userOp => exact (findBySenderNonce_eq_some hfind).1
    exact congrArg hashes (allPending_delete hentry (h entry hfind))

theorem pending_statusUpdated (s : State) (userOpHash : String) {status : EntryStatus}
    (hstatus : status ≠ .pending)
    (h : ∀ entry ∈ s.standardPool.get userOpHash, ¬isPending entry) :
    pendingHashes (statusUpdated s userOpHash status) = pendingHashes s := by
  unfold statusUpdated
  cases hget : s.standardPool.get userOpHash with
  | none => rfl
  | some entry =>
    have hentry := ((s.standardPool.get_eq_some_iff _ _).mp hget).1
    exact hashes_allPending_insert hentry (h entry hget) hstatus

theorem pending_bannedRemoved (s : State) (addr : String)
    (h : ∀ entry ∈ allPending s.standardPool, ¬spells addr entry) :
    pendingHashes (bannedRemoved s addr) = pendingHashes s := by
  have hvalues := s.standardPool.values_foldl_delete_filter (spells addr)
  change hashes (((s.standardPool.values.filter (spells addr)).foldl _ s.standardPool).values.filter
    isPending) = _
  refine congrArg hashes ?_
  rw [hvalues, List.filter_filter]
  refine List.filter_congr fun entry hentry => ?_
  by_cases hpending : isPending entry
  · have hnot := h entry (List.mem_filter.mpr ⟨hentry, hpending⟩)
    simp [hpending, hnot]
  · simp [hpending]

end Keeping

/-- Every slot is pooled once, and every entry is one of the admissions. -/
structure Tracked (params : List RelayUserOpParam) (standardPool : StandardPool) : Prop where
  unique : UniqueSlots standardPool
  known : ∀ entry ∈ standardPool.values, ∃ param ∈ params,
    entry.userOpHash = param.userOpHash ∧ slot entry.userOp = slot param.userOp

section Admission

variable {config : StakeConfig} {params : List RelayUserOpParam} {param : RelayUserOpParam}
  {s : State} {old : Option MempoolEntry}

/-- With the entry to be replaced gone, the slot of the operation is free. -/
theorem slot_free (hunique : UniqueSlots s.standardPool) (hadmitted : Admitted config param s old)
    {entry : MempoolEntry} (hentry : entry ∈ (withoutOld s.standardPool old).values) :
    slot entry.userOp ≠ slot param.userOp := by
  intro hslot
  obtain ⟨hpooled, hleft⟩ := (mem_withoutOld_iff _ _ _).mp hentry
  cases old with
  | none =>
    have hnone := List.find?_eq_none.mp hadmitted.1 entry hpooled
    exact hnone (decide_eq_true hslot)
  | some old =>
    obtain ⟨hold, hsame⟩ := findBySenderNonce_eq_some hadmitted.1
    exact hleft old rfl (hunique entry hpooled old hold (hslot.trans hsame.symm))

theorem hash_free (htracked : Tracked params s.standardPool)
    (hhashes : ∀ other ∈ params, param.userOpHash = other.userOpHash →
      slot param.userOp = slot other.userOp)
    (hadmitted : Admitted config param s old) :
    (withoutOld s.standardPool old).get param.userOpHash = none := by
  refine (KeyedRecord.get_eq_none_iff _ _).mpr ?_
  intro entry hentry hsame
  obtain ⟨other, hother, hhash, hslot⟩ :=
    htracked.known entry ((withoutOld_sublist _ _).subset hentry)
  have hparam := hhashes other hother (hsame.symm.trans hhash)
  exact slot_free htracked.unique hadmitted hentry (hslot.trans hparam.symm)

theorem tracked_admission (htracked : Tracked params s.standardPool) (hparam : param ∈ params)
    (hadmitted : Admitted config param s old) :
    Tracked params (afterAdmission param s old).standardPool := by
  rw [afterAdmission_standardPool, doUpdateMempoolState_fst]
  have hsub := (withoutOld_sublist s.standardPool old).subset
  have hwithout : UniqueSlots (withoutOld s.standardPool old) :=
    htracked.unique.of_subset fun entry hentry => hsub hentry
  refine ⟨(hwithout.insert_iff (newEntry param)).mpr ?_, ?_⟩
  · exact fun entry hentry _ => slot_free htracked.unique hadmitted hentry
  · intro entry hentry
    rcases (KeyedRecord.mem_insert _ _ _).mp hentry with rfl | ⟨hold, _⟩
    · exact ⟨param, hparam, rfl, rfl⟩
    · exact htracked.known entry (hsub hold)

/-- A new hash comes to the end of the queue. -/
theorem pending_admission (hfree : (withoutOld s.standardPool old).get param.userOpHash = none) :
    pendingHashes (afterAdmission param s old) =
      hashes (allPending (withoutOld s.standardPool old)) ++ [param.userOpHash] := by
  unfold pendingHashes allPending
  rw [afterAdmission_standardPool, doUpdateMempoolState_fst,
    values_insert_new (newEntry param) hfree, List.filter_append, hashes, List.map_append]
  rfl

end Admission

variable (config : StakeConfig) (bundleSize : ℕ)

/-- The step serves the queue from its front, and all that it lets go if it
is of the operations that keep the rest. -/
def TakesTurns (s : State) (op : Operation) : Prop :=
  InOrder (Operation.perform config bundleSize) pendingHashes (handsOut bundleSize)
      (admits config) s op ∧
    (keepsAll config s op → Lossless (Operation.perform config bundleSize) pendingHashes
      (handsOut bundleSize) (admits config) s op)

variable {config bundleSize} {s : State}

theorem takesTurns_of_lossless {op : Operation}
    (h : Lossless (Operation.perform config bundleSize) pendingHashes (handsOut bundleSize)
      (admits config) s op) : TakesTurns config bundleSize s op :=
  ⟨h.inOrder, fun _ => h⟩

theorem takesTurns_admission {balanceOf : BalanceOf} {param : RelayUserOpParam}
    {old : Option MempoolEntry} (hdeposit : DepositSuffices balanceOf param s)
    (hadmitted : Admitted config param s old)
    (hfree : (withoutOld s.standardPool old).get param.userOpHash = none) :
    TakesTurns config bundleSize s (.mempool (.addUserOp balanceOf param)) := by
  have hperform : Operation.perform config bundleSize s (.mempool (.addUserOp balanceOf param)) =
      afterAdmission param s old :=
    perform_of_admitted config bundleSize balanceOf param hdeposit hadmitted
  have hadmits := admits_of_accepted
    ((accepted_iff config balanceOf param s).mpr ⟨hdeposit, old, hadmitted⟩)
  unfold TakesTurns InOrder Lossless
  rw [hperform, hadmits, pending_admission hfree]
  constructor
  · exact (((withoutOld_sublist s.standardPool old).filter _).map _).append_right _
  · intro hkeeps
    cases old with
    | none => rfl
    | some old =>
      have hold := (findBySenderNonce_eq_some hadmitted.1).1
      change hashes (allPending (s.standardPool.delete old.userOpHash)) ++ _ = _
      rw [allPending_delete hold (hkeeps old hadmitted)]
      rfl

theorem takesTurns_handOut :
    TakesTurns config bundleSize s (.mempool .getNextPending) ∧
      TakesTurns config bundleSize s (.mempool .getAllPending) := by
  obtain ⟨hnext, hall⟩ := handOut_splits config bundleSize s
  exact ⟨takesTurns_of_lossless (hnext.trans (List.append_nil _).symm),
    takesTurns_of_lossless (hall.trans (List.append_nil _).symm)⟩

/-- What neither admits nor hands out only lets pending entries go, and the
operations that keep all of them none. -/
theorem takesTurns_other {op : Operation} (hputsBack : ¬putsBack op)
    (hop : ∀ balanceOf param, op = .mempool (.addUserOp balanceOf param) →
      ¬Accepted config balanceOf param s)
    (hadmits : admits config s op = []) (hhandsOut : handsOut bundleSize s op = [])
    (hkeeps : keepsAll config s op →
      pendingHashes (op.perform config bundleSize s) = pendingHashes s) :
    TakesTurns config bundleSize s op := by
  obtain ⟨_, hthinned, hpending⟩ := perform_thins config bundleSize s op hop
  unfold TakesTurns InOrder Lossless
  rw [hadmits, hhandsOut, List.nil_append, List.append_nil]
  exact ⟨hthinned.pending (hpending hputsBack), hkeeps⟩

theorem takesTurns_not_accepted {op : Operation} (hputsBack : ¬putsBack op)
    (hop : ∀ balanceOf param, op = .mempool (.addUserOp balanceOf param) →
      ¬Accepted config balanceOf param s) : TakesTurns config bundleSize s op := by
  cases op with
  | mempool op =>
    cases op with
    | addUserOp balanceOf param =>
      have hnot := hop balanceOf param rfl
      refine takesTurns_other hputsBack hop (admits_of_not_accepted hnot) rfl fun _ => ?_
      exact congrArg pendingHashes
        (perform_of_not_accepted config bundleSize balanceOf param hnot)
    | getNextPending => exact takesTurns_handOut.1
    | getAllPending => exact takesTurns_handOut.2
    | removeUserOp userOpOrHash =>
      refine takesTurns_other hputsBack hop rfl rfl fun hkeeps => ?_
      exact (congrArg pendingHashes (perform_removeUserOp config bundleSize s userOpOrHash)).trans
        (pending_userOpRemoved s userOpOrHash hkeeps)
    | updateEntryStatus userOpHash status =>
      refine takesTurns_other hputsBack hop rfl rfl fun hkeeps => ?_
      exact (congrArg pendingHashes
        (perform_updateEntryStatus config bundleSize s userOpHash status)).trans
          (pending_statusUpdated s userOpHash hputsBack hkeeps)
    | clearState =>
      exact takesTurns_other hputsBack hop rfl rfl fun hkeeps => (congrArg hashes hkeeps).symm
  | removeUserOpsForBannedAddr addr =>
    refine takesTurns_other hputsBack hop rfl rfl fun hkeeps => ?_
    rw [perform_removeUserOpsForBannedAddr]
    exact pending_bannedRemoved s addr hkeeps
  | reputation update =>
    exact takesTurns_other hputsBack hop rfl rfl fun _ =>
      congrArg (fun pool => hashes (allPending pool)) (reputation_standardPool s update)

theorem tracked_perform {params : List RelayUserOpParam} {op : Operation}
    (htracked : Tracked params s.standardPool)
    (hop : ∀ balanceOf param, op = .mempool (.addUserOp balanceOf param) →
      ¬Accepted config balanceOf param s) :
    Tracked params (op.perform config bundleSize s).standardPool := by
  refine perform_keeps config bundleSize s ?_ ?_ op hop htracked
  · intro pool pool' hsub h
    exact ⟨h.unique.of_subset hsub, fun entry hentry => h.known entry (hsub entry hentry)⟩
  · intro pool pool' hmap h
    have hslots := congrArg (List.map fun x => (x.1, slot x.2)) hmap
    simp only [List.map_map] at hslots
    refine ⟨h.unique.of_map_eq hslots, ?_⟩
    intro entry hentry
    have hmem : (entry.userOpHash, entry.userOp) ∈
        pool.values.map fun entry => (entry.userOpHash, entry.userOp) :=
      hmap ▸ List.mem_map_of_mem hentry
    obtain ⟨old, hold, hsame⟩ := List.mem_map.mp hmem
    obtain ⟨hhash, hop⟩ := Prod.mk.inj hsame
    rw [← hhash, ← hop]
    exact h.known old hold

variable (config bundleSize)

/-- Along a run in which nothing is put back, what has been handed out and
what is still pending are in the order of their admissions; if no pending
entry goes but by being handed out, they are all that were admitted. -/
theorem handed_out_in_turn (whiteList blackList : List String) (ops : List Operation)
    (hhashes : HashesTellSlots ops) (hputsBack : ∀ op ∈ ops, ¬putsBack op) :
    let perform := Operation.perform config bundleSize
    let first := State.initial whiteList blackList
    let served := emitted perform (handsOut bundleSize) first ops ++
      pendingHashes (run perform first ops)
    served.Sublist (emitted perform (admits config) first ops) ∧
      (AllSteps perform (keepsAll config) first ops →
        served = emitted perform (admits config) first ops) := by
  intro perform first served
  have hstep : ∀ s, Tracked (admissionsOf ops) s.standardPool → ∀ op ∈ ops,
      TakesTurns config bundleSize s op ∧
        Tracked (admissionsOf ops) (op.perform config bundleSize s).standardPool := by
    intro s htracked op hop
    by_cases haccepted : ∃ balanceOf param, op = .mempool (.addUserOp balanceOf param) ∧
        Accepted config balanceOf param s
    · obtain ⟨balanceOf, param, rfl, haccepted⟩ := haccepted
      obtain ⟨hdeposit, old, hadmitted⟩ := (accepted_iff config balanceOf param s).mp haccepted
      have hperform : Operation.perform config bundleSize s
          (.mempool (.addUserOp balanceOf param)) = afterAdmission param s old :=
        perform_of_admitted config bundleSize balanceOf param hdeposit hadmitted
      have hparam : param ∈ admissionsOf ops := List.mem_filterMap.mpr ⟨_, hop, rfl⟩
      have hfree := hash_free htracked (hhashes param hparam) hadmitted
      refine ⟨takesTurns_admission hdeposit hadmitted hfree, ?_⟩
      rw [hperform]
      exact tracked_admission htracked hparam hadmitted
    · have hnot : ∀ balanceOf param, op = .mempool (.addUserOp balanceOf param) →
          ¬Accepted config balanceOf param s :=
        fun balanceOf param hop haccept => haccepted ⟨balanceOf, param, hop, haccept⟩
      exact ⟨takesTurns_not_accepted (hputsBack op hop) hnot, tracked_perform htracked hnot⟩
  have hinitial : Tracked (admissionsOf ops) first.standardPool :=
    ⟨fun _ hentry => absurd hentry List.not_mem_nil,
      fun _ hentry => absurd hentry List.not_mem_nil⟩
  have hturns : AllSteps perform (TakesTurns config bundleSize) first ops :=
    allSteps_of_mem perform (I := fun s => Tracked (admissionsOf ops) s.standardPool) hstep hinitial
  constructor
  · exact served_sublist (hturns.mono perform fun _ _ h => h.1)
  · intro hkeeps
    exact served_eq ((hturns.and perform hkeeps).mono perform fun _ _ h => h.1.2 h.2)

end Turns

section Concrete

/-- Two operations of different senders, a hand-out of one of them, and its removal. -/
def twoAdded : List Operation :=
  [plainAdd account hash₁, plainAdd otherAccount hash₂, .mempool .getNextPending,
    .mempool (.removeUserOp (.hash hash₁))]

/-- An operation whose slot is free replaces nothing. -/
theorem keepsAll_of_free {config : StakeConfig} {s : State} {balanceOf : BalanceOf}
    {param : RelayUserOpParam}
    (h : findBySenderNonce param.userOp.sender param.userOp.nonce s.standardPool = none) :
    keepsAll config s (.mempool (.addUserOp balanceOf param)) := by
  intro old hadmitted
  cases h.symm.trans hadmitted.1

theorem twoAdded_in_turn :
    let perform := Operation.perform plainConfig 1
    let served := emitted perform (handsOut 1) (State.initial [] []) twoAdded ++
      pendingHashes (run perform (State.initial [] []) twoAdded)
    served.Sublist (emitted perform (admits plainConfig) (State.initial [] []) twoAdded) ∧
      served = emitted perform (admits plainConfig) (State.initial [] []) twoAdded := by
  have hhashes : HashesTellSlots twoAdded := by
    unfold HashesTellSlots
    decide
  have hputsBack : ∀ op ∈ twoAdded, ¬putsBack op := by
    unfold twoAdded
    simp [putsBack, plainAdd]
  have hturns := handed_out_in_turn plainConfig 1 [] [] twoAdded hhashes hputsBack
  have hremoved : ∀ entry ∈ findEntry (.hash hash₁)
      (run (Operation.perform plainConfig 1) (State.initial [] []) (twoAdded.take 3)).standardPool,
      ¬isPending entry := by
    decide
  have hkeeps : AllSteps (Operation.perform plainConfig 1) (keepsAll plainConfig)
      (State.initial [] []) twoAdded :=
    ⟨keepsAll_of_free rfl, keepsAll_of_free rfl, trivial, hremoved, trivial⟩
  exact ⟨hturns.1, hturns.2 hkeeps⟩

example : emitted (Operation.perform plainConfig 1) (handsOut 1) (State.initial [] [])
    twoAdded = [hash₁] := by
  decide

end Concrete

end Bundler.PendingQueue
