import Bundler.BanEnforcement
import Bundler.StrandedOperations

/-!
What a crashed bundle takes out of the pool, among concurrent admissions.
The operation that failed is looked up again by its sender and nonce after
the bundle was sent, and by then a replacement may hold its slot. The
attempt removes nothing but the operation that was submitted and the
entries of the banned address as long as that look-up finds one of them.
-/
namespace Bundler.BlamedOperations

open KeyedRecords AsyncPrograms DataModel StateService ReputationManager DepositManager
  MempoolHelper MempoolManager BundleBuilder BundleManager StrandedOperations Operations Runs
  Interleavings BannedAddresses BanEnforcement

/-- The entry is the one submitted as the failed operation, or it names the
address to ban. -/
def Blamed (ready : BundleReadyToSend) (crash : CrashedHandleOps) (entry : MempoolEntry) : Prop :=
  (∃ included ∈ ready.included, included.1.userOp = crash.failedOp ∧
      included.1.userOpHash = entry.userOpHash) ∨
    ∃ addr ∈ truthy crash.addressToBan, spells addr entry

instance (ready : BundleReadyToSend) (crash : CrashedHandleOps) (entry : MempoolEntry) :
    Decidable (Blamed ready crash entry) :=
  have : Decidable (∃ addr ∈ truthy crash.addressToBan, spells addr entry) :=
    decidable_of_iff ((truthy crash.addressToBan).any (spells · entry) = true)
      (Option.any_eq_true _ _)
  inferInstanceAs (Decidable (_ ∨ _))

/-- Every entry that a step of the attempt takes out of the pool is to blame. -/
def RemovesBlamed (ready : BundleReadyToSend) (crash : CrashedHandleOps)
    (c : Config State Update JsError) (i : ℕ) : Prop :=
  i = 0 → ∀ entry ∈ c.state.standardPool.values,
    (c.step Update.apply 0).state.standardPool.get entry.userOpHash = none →
    Blamed ready crash entry

instance (ready : BundleReadyToSend) (crash : CrashedHandleOps)
    (c : Config State Update JsError) (i : ℕ) : Decidable (RemovesBlamed ready crash c i) :=
  inferInstanceAs (Decidable (_ → ∀ _ ∈ _, _ → _))

def isUserOpRemoval : Update → Bool
  | .mempool (.removeUserOp _) => true
  | _ => false

/-- When the attempt looks up the failed operation, the entry it finds in its
slot is to blame. -/
def FindsBlamed (ready : BundleReadyToSend) (crash : CrashedHandleOps)
    (c : Config State Update JsError) (i : ℕ) : Prop :=
  i = 0 → ((c.step Update.apply 0).pending 0).any isUserOpRemoval →
    ∀ found ∈ findBySenderNonce crash.failedOp.sender crash.failedOp.nonce c.state.standardPool,
      Blamed ready crash found

instance (ready : BundleReadyToSend) (crash : CrashedHandleOps)
    (c : Config State Update JsError) (i : ℕ) : Decidable (FindsBlamed ready crash c i) :=
  inferInstanceAs (Decidable (_ → _ → ∀ _ ∈ _, _))

section Identity

/-- The operations pooled or about to be added, under their hashes. -/
def hashedOperations (s : State) (adds : List (BalanceOf × RelayUserOpParam)) :
    List (String × UserOperation) :=
  s.standardPool.values.map (fun entry => (entry.userOpHash, entry.userOp)) ++
    adds.map fun add => (add.2.userOpHash, add.2.userOp)

/-- Operations under one hash are one operation. -/
def HashesIdentify (hashed : List (String × UserOperation)) : Prop :=
  ∀ first ∈ hashed, ∀ second ∈ hashed, first.1 = second.1 → first.2 = second.2

instance (hashed : List (String × UserOperation)) : Decidable (HashesIdentify hashed) :=
  inferInstanceAs (Decidable (∀ _ ∈ _, ∀ _ ∈ _, _ → _))

variable {hashed : List (String × UserOperation)} {s : State}

/-- All pooled entries are among the given operations. -/
def PoolKnown (hashed : List (String × UserOperation)) (s : State) : Prop :=
  ∀ entry ∈ s.standardPool.values, (entry.userOpHash, entry.userOp) ∈ hashed

/-- The update writes none but the given operations. -/
def WritesKnown (hashed : List (String × UserOperation)) : Update → Prop
  | .mempool (.doUpdateMempoolState entry _) => (entry.userOpHash, entry.userOp) ∈ hashed
  | .mempool (.updateEntryStatus entry _) => (entry.userOpHash, entry.userOp) ∈ hashed
  | _ => True

theorem allowsAttempt_writesKnown (hashed : List (String × UserOperation)) :
    AllowsAttempt (PoolKnown hashed) (WritesKnown hashed) where
  markBundling _ := trivial
  removeUserOp _ := trivial
  removeUserOpsForBannedAddr _ := trivial
  addBundleTxnConfirmation _ _ := trivial
  updateEntryStatus _ hs entry hentry _ := hs entry hentry
  reputation _ := trivial

theorem poolKnown_update (h : PoolKnown hashed s) {u : Update} (hu : WritesKnown hashed u) :
    PoolKnown hashed (u.apply s).1 := by
  cases u with
  | reputation update =>
    intro entry hentry
    change entry ∈ (update.apply s).standardPool.values at hentry
    rw [reputation_standardPool] at hentry
    exact h entry hentry
  | mempool update =>
    cases update with
    | doUpdateMempoolState written old =>
      intro entry hentry
      cases old with
      | none =>
        rcases (s.standardPool.mem_insert written entry).mp hentry with rfl | ⟨hpooled, _⟩
        · exact hu
        · exact h entry hpooled
      | some old =>
        rcases (KeyedRecord.mem_insert _ written entry).mp hentry with rfl | ⟨hpooled, _⟩
        · exact hu
        · exact h entry ((s.standardPool.mem_delete _ _).mp hpooled).1
    | updateEntryStatus written status =>
      intro entry hentry
      rcases (s.standardPool.mem_insert _ entry).mp hentry with rfl | ⟨hpooled, _⟩
      · exact hu
      · exact h entry hpooled
    | removeUserOp removed =>
      intro entry hentry
      exact h entry ((s.standardPool.mem_delete _ _).mp hentry).1
    | removeUserOpsForBannedAddr opsToRemove =>
      intro entry hentry
      exact h entry ((s.standardPool.mem_foldl_delete _ _).mp hentry).1
    | markBundling userOpHashes =>
      intro entry hentry
      have hmap : (markBundling s.standardPool userOpHashes).1.values.map
          (fun entry => (entry.userOpHash, entry.userOp)) =
            s.standardPool.values.map fun entry => (entry.userOpHash, entry.userOp) :=
        map_markBundling (fun _ _ => rfl) _ _
      have hmem := List.mem_map_of_mem (f := fun entry => (entry.userOpHash, entry.userOp)) hentry
      change _ ∈ (markBundling s.standardPool userOpHashes).1.values.map _ at hmem
      rw [hmap] at hmem
      obtain ⟨stored, hstored, hsame⟩ := List.mem_map.mp hmem
      exact hsame ▸ h stored hstored
    | clearState =>
      intro entry hentry
      cases hentry
    | addBundleTxnConfirmation transactionHash signerIndex => exact h

theorem addUserOp_writesKnown {config : StakeConfig} {balanceOf : BalanceOf}
    {param : RelayUserOpParam} (hparam : (param.userOpHash, param.userOp) ∈ hashed) :
    (addUserOp config balanceOf param).detach.Guarantees (fun _ => True) (WritesKnown hashed)
      fun _ => True := by
  refine addUserOp_guarantees ?_ (fun _ => trivial) fun _ => trivial
  intro handedOut
  refine (replaceOrAddUserOpChecks_found config param _ handedOut).mono (fun _ h => h)
    (fun _ h => h.elim) ?_
  intro r hchecks checked hchecked
  rw [(hchecks checked hchecked).1]
  exact hparam

end Identity

section Protocol

/-- After a crash an attempt removes only what it has just looked up. -/
def crashProtocol (crash : CrashedHandleOps) :
    Program.Protocol State Update (Option State) where
  onRead _ s := some s
  onUpdate _ _ := none
  allowed lastRead
    | .mempool (.removeUserOp entry) => ∃ s ∈ lastRead,
        findBySenderNonce crash.failedOp.sender crash.failedOp.nonce s.standardPool = some entry
    | .mempool (.removeUserOpsForBannedAddr opsToRemove) =>
        ∃ s ∈ lastRead, ∃ addr ∈ truthy crash.addressToBan,
          opsToRemove = s.standardPool.values.filter (spells addr)
    | .mempool (.addBundleTxnConfirmation _ _) => True
    | .reputation _ => True
    | _ => False

variable (crash : CrashedHandleOps)

theorem handleCrash_follows (lastRead : Option State) :
    (handleCrash (some crash)).Follows (crashProtocol crash) (fun _ _ => True) lastRead := by
  have hremove (lastRead : Option State) : (removeUserOp (.userOp crash.failedOp)).Follows
      (crashProtocol crash) (fun _ _ => True) lastRead := by
    refine Program.Follows.read_bind ?_
    intro s
    cases hfind : findEntry (.userOp crash.failedOp) s.standardPool with
    | none => exact trivial
    | some entry =>
      refine ⟨⟨s, rfl, hfind⟩, ?_⟩
      intro r
      cases r with
      | ok _ => exact trivial
      | error _ => exact trivial
  have hban : (banAddress crash.addressToBan).Follows (crashProtocol crash) (fun _ _ => True)
      lastRead := by
    unfold banAddress
    cases haddr : truthy crash.addressToBan with
    | none => exact trivial
    | some addr =>
      intro s
      refine ⟨⟨s, rfl, addr, haddr, rfl⟩, ?_⟩
      intro r
      cases r with
      | ok _ => exact ⟨trivial, fun _ => trivial⟩
      | error _ => exact trivial
  refine hban.bind ?_ fun _ _ _ => trivial
  intro lastRead _ _
  exact (hremove lastRead).bind (fun _ _ _ => trivial) fun _ _ _ => trivial

theorem fromSendBundle_follows {services : Services} {ready : BundleReadyToSend}
    {res : SendBundleReturnWithSigner}
    (hres : services.sendBundle ready.bundle ready.storageMap = .ok res)
    (hcrash : res.crashedHandleOps = some crash) (lastRead : Option State) :
    (fromSendBundle services (some ready)).detach.Follows (crashProtocol crash) (fun _ _ => True)
      lastRead := by
  have hsend : fromSendBundle services (some ready) =
      afterSendBundle res >>= fun _ => pure ⟨res.transactionHash, res.userOpHashes⟩ := by
    unfold fromSendBundle
    dsimp only
    rw [hres]
    rfl
  have hclose : (afterSendBundle res).Follows (crashProtocol crash) (fun _ _ => True) lastRead := by
    unfold afterSendBundle
    rw [hcrash]
    refine (handleCrash_follows crash lastRead).bind ?_ fun _ _ _ => trivial
    intro lastRead _ _
    unfold MempoolManager.addBundleTxnConfirmation
    split
    · exact trivial
    · exact ⟨trivial, fun _ => trivial⟩
  rw [hsend]
  have hreturn := hclose.bind (f := fun _ => pure (⟨res.transactionHash, res.userOpHashes⟩ :
    SendBundleReturn)) (R := fun _ _ => True) (fun _ _ _ => trivial) fun _ _ _ => trivial
  exact hreturn.bind (fun _ _ _ => trivial) fun _ _ _ => trivial

end Protocol

section Run

variable {ready : BundleReadyToSend} {crash : CrashedHandleOps}
  {hashed : List (String × UserOperation)} {c : Config State Update JsError} {i : ℕ}

/-- From the crash on: the attempt keeps to its protocol, what it is about to
remove is to blame, and all operations in sight are known by their hashes. -/
structure Watched (ready : BundleReadyToSend) (crash : CrashedHandleOps)
    (hashed : List (String × UserOperation)) (c : Config State Update JsError)
    (lastRead : Option State) : Prop where
  follows : c.At 0 fun p => p.Follows (crashProtocol crash) (fun _ _ => True) lastRead
  found : ∀ entry, c.pending 0 = some (.mempool (.removeUserOp entry)) → Blamed ready crash entry
  lastRead : ∀ s, lastRead = some s → PoolKnown hashed s
  pool : PoolKnown hashed c.state
  writes : ∀ j, c.At j fun p =>
    p.Guarantees (PoolKnown hashed) (WritesKnown hashed) fun _ => True

theorem poolKnown_step (hpool : PoolKnown hashed c.state)
    (hwrites : c.At i fun p =>
      p.Guarantees (PoolKnown hashed) (WritesKnown hashed) fun _ => True) :
    PoolKnown hashed (c.step Update.apply i).state :=
  Config.state_step (I := PoolKnown hashed) (P := fun _ u => WritesKnown hashed u) Update.apply
    (fun _ _ h hu => poolKnown_update h hu) hpool fun _ hu => hwrites.of_pending hu

theorem watched_step_read {lastRead : Option State} {next : State → Async PUnit}
    (h : Watched ready crash hashed c lastRead) (hfinds : FindsBlamed ready crash c 0)
    (hthread : c.threads[0]? = some (.getState next)) :
    Watched ready crash hashed (c.step Update.apply 0) (some c.state) := by
  have hnext := Config.step_threads_read Update.apply hthread
  have hfollows := h.follows _ hthread c.state
  refine ⟨?_, ?_, ?_, poolKnown_step h.pool (h.writes 0), ?_⟩
  · intro p hp
    cases hnext.symm.trans hp
    exact hfollows
  · intro entry hpending
    obtain ⟨rest, hrest⟩ := Config.pending_eq_some_iff.mp hpending
    rw [Option.some.inj (hnext.symm.trans hrest)] at hfollows
    obtain ⟨s, hs, hfind⟩ := hfollows.1
    cases hs
    exact hfinds rfl (by rw [hpending]; rfl) entry hfind
  · intro s hs
    cases hs
    exact h.pool
  · exact fun j => (h.writes j).step_guarantees Update.apply h.pool 0

theorem watched_step_update {lastRead : Option State} {u : Update}
    {next : Except JsError PUnit → Async PUnit} (h : Watched ready crash hashed c lastRead)
    (hthread : c.threads[0]? = some (.updateState u next)) :
    Watched ready crash hashed (c.step Update.apply 0) none := by
  have hnext := Config.step_threads_update Update.apply hthread
  have hfollows := (h.follows _ hthread).2 (Update.apply u c.state).2
  refine ⟨?_, ?_, nofun, poolKnown_step h.pool (h.writes 0), ?_⟩
  · intro p hp
    cases hnext.symm.trans hp
    exact hfollows
  · intro entry hpending
    obtain ⟨rest, hrest⟩ := Config.pending_eq_some_iff.mp hpending
    rw [Option.some.inj (hnext.symm.trans hrest)] at hfollows
    obtain ⟨s, hs, _⟩ := hfollows.1
    cases hs
  · exact fun j => (h.writes j).step_guarantees Update.apply h.pool 0

theorem watched_step_add {lastRead : Option State} (h : Watched ready crash hashed c lastRead)
    (hi : i ≠ 0) : Watched ready crash hashed (c.step Update.apply i) lastRead := by
  refine ⟨?_, ?_, h.lastRead, poolKnown_step h.pool (h.writes i), ?_⟩
  · intro p hp
    rw [Config.step_threads_of_ne Update.apply hi] at hp
    exact h.follows p hp
  · intro entry hpending
    rw [Config.pending_step_of_ne Update.apply hi] at hpending
    exact h.found entry hpending
  · exact fun j => (h.writes j).step_guarantees Update.apply h.pool i

/-- Blame passes to what is pooled under the same hash. -/
theorem Blamed.of_same_hash {entry stored : MempoolEntry} (h : Blamed ready crash entry)
    (hhash : stored.userOpHash = entry.userOpHash) (hop : stored.userOp = entry.userOp) :
    Blamed ready crash stored := by
  unfold Blamed spells at *
  rw [hhash, hop]
  exact h

/-- An update of the attempt removes only what is to blame. -/
theorem blamed_of_removed {lastRead : Option State} {u : Update}
    (hidentify : HashesIdentify hashed) (h : Watched ready crash hashed c lastRead)
    (hpending : c.pending 0 = some u) {entry : MempoolEntry}
    (hentry : entry ∈ c.state.standardPool.values)
    (hgone : (u.apply c.state).1.standardPool.get entry.userOpHash = none) :
    Blamed ready crash entry := by
  obtain ⟨next, hthread⟩ := Config.pending_eq_some_iff.mp hpending
  have hallowed := (h.follows _ hthread).1
  have hstays : c.state.standardPool.get entry.userOpHash ≠ none := by
    rw [c.state.standardPool.get_key hentry]
    exact Option.some_ne_none entry
  have hknown := h.pool entry hentry
  cases u with
  | reputation update =>
    change (update.apply c.state).standardPool.get entry.userOpHash = none at hgone
    rw [reputation_standardPool] at hgone
    exact absurd hgone hstays
  | mempool update =>
    cases update with
    | removeUserOp removed =>
      obtain ⟨s, hs, hfind⟩ := hallowed
      have hsame : entry.userOpHash = removed.userOpHash := by
        by_contra hne
        exact hstays ((c.state.standardPool.get_delete_ne hne).symm.trans hgone)
      have hremoved := h.lastRead s hs removed (findBySenderNonce_eq_some hfind).1
      exact (h.found removed hpending).of_same_hash hsame
        (hidentify _ hknown _ hremoved hsame)
    | removeUserOpsForBannedAddr opsToRemove =>
      obtain ⟨s, hs, addr, haddr, rfl⟩ := hallowed
      have hmatch : ∃ removed ∈ s.standardPool.values.filter (spells addr),
          entry.userOpHash = removed.userOpHash := by
        by_contra hnone
        push Not at hnone
        have hleft := (c.state.standardPool.mem_foldl_delete _ entry).mpr ⟨hentry, hnone⟩
        exact (KeyedRecord.get_eq_none_iff _ _).mp hgone entry hleft rfl
      obtain ⟨removed, hremoved, hsame⟩ := hmatch
      obtain ⟨hpooled, hspells⟩ := List.mem_filter.mp hremoved
      have hblamed : Blamed ready crash removed := Or.inr ⟨addr, haddr, hspells⟩
      exact hblamed.of_same_hash hsame
        (hidentify _ hknown _ (h.lastRead s hs removed hpooled) hsame)
    | addBundleTxnConfirmation transactionHash signerIndex => exact absurd hgone hstays
    | _ => exact hallowed.elim

theorem removesBlamed_of_watched {lastRead : Option State} (hidentify : HashesIdentify hashed)
    (h : Watched ready crash hashed c lastRead) (i : ℕ) : RemovesBlamed ready crash c i := by
  intro _ entry hentry hgone
  cases hpending : c.pending 0 with
  | none =>
    rw [Config.step_state_of_not_pending Update.apply hpending,
      c.state.standardPool.get_key hentry] at hgone
    cases hgone
  | some u =>
    rw [Config.step_state_of_pending Update.apply hpending] at hgone
    exact blamed_of_removed hidentify h hpending hentry hgone

theorem watched_step (hidentify : HashesIdentify hashed) (c : Config State Update JsError) (i : ℕ)
    (h : ∃ lastRead, Watched ready crash hashed c lastRead) (hfinds : FindsBlamed ready crash c i) :
    RemovesBlamed ready crash c i ∧
      ∃ lastRead, Watched ready crash hashed (c.step Update.apply i) lastRead := by
  obtain ⟨lastRead, h⟩ := h
  refine ⟨removesBlamed_of_watched hidentify h i, ?_⟩
  by_cases hi : i = 0
  · subst hi
    rcases Config.step_cases Update.apply c 0 with hs | ⟨next, hthread, _⟩ | ⟨u, next, hthread, _⟩
    · rw [hs]
      exact ⟨lastRead, h⟩
    · exact ⟨_, watched_step_read h hfinds hthread⟩
    · exact ⟨_, watched_step_update h hthread⟩
  · exact ⟨lastRead, watched_step_add h hi⟩

variable (config : StakeConfig) (services : Services) (force : Bool)
  (adds : List (BalanceOf × RelayUserOpParam)) (s : State)

theorem writesKnown_initially (j : ℕ) : (attemptAmong config services force adds s).At j fun p =>
    p.Guarantees (PoolKnown (hashedOperations s adds)) (WritesKnown (hashedOperations s adds))
      fun _ => True := by
  intro p hp
  by_cases hj : j = 0
  · subst hj
    cases hp
    exact (allowsAttempt_writesKnown _).doAttemptBundle_guarantees services force
  · obtain ⟨add, hadd, rfl⟩ := add_of_ne_zero config services force adds s hj hp
    have hknown : (add.2.userOpHash, add.2.userOp) ∈ hashedOperations s adds :=
      List.mem_append_right _ (List.mem_map_of_mem (f := fun add : BalanceOf × RelayUserOpParam =>
        (add.2.userOpHash, add.2.userOp)) hadd)
    exact (addUserOp_writesKnown hknown).mono (fun _ _ => trivial) (fun _ hu => hu) fun _ hr => hr

theorem poolKnown_initially : PoolKnown (hashedOperations s adds) s := by
  intro entry hentry
  exact List.mem_append_left _ (List.mem_map_of_mem (f := fun entry : MempoolEntry =>
    (entry.userOpHash, entry.userOp)) hentry)

theorem known_exec (schedule : List ℕ) :
    let c := (attemptAmong config services force adds s).exec Update.apply schedule
    PoolKnown (hashedOperations s adds) c.state ∧ ∀ j, c.At j fun p =>
      p.Guarantees (PoolKnown (hashedOperations s adds)) (WritesKnown (hashedOperations s adds))
        fun _ => True :=
  invariant_run (Config.step Update.apply)
    (I := fun c => PoolKnown (hashedOperations s adds) c.state ∧ ∀ j, c.At j fun p =>
      p.Guarantees (PoolKnown (hashedOperations s adds)) (WritesKnown (hashedOperations s adds))
        fun _ => True)
    (fun _ i h => ⟨poolKnown_step h.1 (h.2 i),
      fun j => (h.2 j).step_guarantees Update.apply h.1 i⟩)
    ⟨poolKnown_initially adds s, writesKnown_initially config services force adds s⟩ schedule

/-- After a crash, an attempt among admissions removes nothing but the failed
operation that was submitted and the entries of the banned address, as long as
its look-up by sender and nonce finds one of these. -/
theorem only_blamed_removed {res : SendBundleReturnWithSigner} (before after : List ℕ)
    (hidentify : HashesIdentify (hashedOperations s adds))
    (hready : ((attemptAmong config services force adds s).exec Update.apply before).threads[0]? =
      some (fromSendBundle services (some ready)).detach)
    (hres : services.sendBundle ready.bundle ready.storageMap = .ok res)
    (hcrash : res.crashedHandleOps = some crash)
    (hfinds : AllSteps (Config.step Update.apply) (FindsBlamed ready crash)
      ((attemptAmong config services force adds s).exec Update.apply before) after) :
    AllSteps (Config.step Update.apply) (RemovesBlamed ready crash)
      ((attemptAmong config services force adds s).exec Update.apply before) after := by
  obtain ⟨hpool, hwrites⟩ := known_exec config services force adds s before
  have hfollows := fromSendBundle_follows crash hres hcrash none
  refine AllSteps.of_invariant (Config.step Update.apply)
    (I := fun c => ∃ lastRead, Watched ready crash (hashedOperations s adds) c lastRead)
    (fun c i h hfinds => watched_step hidentify c i h hfinds) ?_ hfinds
  refine ⟨none, ?_, ?_, nofun, hpool, hwrites⟩
  · intro p hp
    cases hready.symm.trans hp
    exact hfollows
  · intro entry hpending
    obtain ⟨rest, hrest⟩ := Config.pending_eq_some_iff.mp hpending
    rw [Option.some.inj (hready.symm.trans hrest)] at hfollows
    obtain ⟨s, hs, _⟩ := hfollows.1
    cases hs

end Run

section Concrete

/-- Everything is included, and handleOps fails on the first operation
without an address to ban. -/
def firstFails : Services :=
  { firstCrashes with
    sendBundle := fun _ _ => .ok ⟨"", [], 0, some ⟨none, plainOp account 1 10 none none⟩⟩ }

def replacement : RelayUserOpParam := plainParam (plainOp account 1 20 none none) hash₂

/-- An attempt on one operation, and a replacement of it. -/
def sentAndReplaced : Config State Update JsError :=
  attemptAmong plainConfig firstFails true [(richDeposits, replacement)]
    (run (Operation.perform plainConfig 5) (State.initial [] []) [plainAdd account hash₁])

/-- What is sent of a single operation that re-validates. -/
def readyWith (entry : MempoolEntry) : BundleReadyToSend :=
  ⟨[(entry, plainResult)], .empty, [], []⟩

/-- Without a replacement in between, the crash removes the submitted operation only. -/
theorem only_blamed_removed_before_replacement :
    AllSteps (Config.step Update.apply)
      (RemovesBlamed (readyWith (newEntry (plainParam (plainOp account 1 10 none none) hash₁)))
        ⟨none, plainOp account 1 10 none none⟩)
      (sentAndReplaced.exec Update.apply (List.replicate 6 0)) [0, 0, 1, 1, 1, 1, 1] :=
  only_blamed_removed plainConfig firstFails true _ _ (List.replicate 6 0) [0, 0, 1, 1, 1, 1, 1]
    (by decide +kernel) rfl rfl rfl (by decide +kernel)

/-- The replacement of the submitted operation arrives while the bundle is
sent, and the crash of the submitted one removes it. -/
theorem replacement_removed :
    ¬∀ (config : StakeConfig) (bundleSize : ℕ) (whiteList blackList : List String)
      (ops : List Operation) (services : Services) (force : Bool)
      (adds : List (BalanceOf × RelayUserOpParam)) (before after : List ℕ)
      (ready : BundleReadyToSend) (res : SendBundleReturnWithSigner) (crash : CrashedHandleOps),
      let c := (attemptAmong config services force adds
        (run (Operation.perform config bundleSize) (State.initial whiteList blackList)
          ops)).exec Update.apply before
      HashesIdentify (hashedOperations (run (Operation.perform config bundleSize)
        (State.initial whiteList blackList) ops) adds) →
      c.threads[0]? = some (fromSendBundle services (some ready)).detach →
      services.sendBundle ready.bundle ready.storageMap = .ok res →
      res.crashedHandleOps = some crash →
      AllSteps (Config.step Update.apply) (RemovesBlamed ready crash) c after := by
  intro h
  have hall := h plainConfig 5 [] [] [plainAdd account hash₁] firstFails true
    [(richDeposits, replacement)] (List.replicate 6 0) [1, 1, 1, 1, 1, 0, 0]
    (readyWith (newEntry (plainParam (plainOp account 1 10 none none) hash₁))) _ _
    (by decide +kernel) rfl rfl rfl
  exact absurd hall (by decide +kernel)

end Concrete

end Bundler.BlamedOperations
