import Bundler.BannedAddresses
import Bundler.BundleManager
import Bundler.Interleavings

/-!
The ban that follows a crashed bundle, among concurrent admissions. The
attempt looks up the entries of the address to ban, removes them, and then
raises the counters of the address. No entry of it is left when the look-up
finds every such entry, whatever its spelling, none is written between the
removal and the raise, and afterwards none comes in by an admission that is
past its checks or by a replacement.
-/
namespace Bundler.BanEnforcement

open KeyedRecords AsyncPrograms DataModel StateService ReputationManager DepositManager
  MempoolHelper MempoolManager BundleBuilder BundleManager AdmissionLaws BannedAddresses Operations
  Runs Interleavings
open AllowsSettling (settlesEntries)

/-- One attempt and any number of admissions, before any of them has started. -/
def attemptAmong (config : StakeConfig) (services : Services) (force : Bool)
    (adds : List (BalanceOf × RelayUserOpParam)) (s : State) : Config State Update JsError :=
  ⟨s, (doAttemptBundle services force).detach ::
    adds.map fun add => (addUserOp config add.1 add.2).detach⟩

section Protocol

/-- How far the attempt has come with its ban: still working, with the state
if it has just read it, or done with the removal or the raise. -/
inductive BanPhase
  | working (lastRead : Option State)
  | removed (lookedUp : State) (opsToRemove : List MempoolEntry)
  | raised

def BanPhase.isRemoved : BanPhase → Bool
  | .removed _ _ => true
  | _ => false

def BanPhase.isWorking : BanPhase → Bool
  | .working _ => true
  | _ => false

/-- The removal comes right after a look-up, and the raise of the address
looked up right after the removal. No entry is written from then on. -/
def banProtocol : Program.Protocol State Update BanPhase where
  onRead
    | .raised, _ => .raised
    | _, s => .working (some s)
  onUpdate
    | .working lastRead, update =>
        match update, lastRead with
        | .mempool (.removeUserOpsForBannedAddr opsToRemove), some s => .removed s opsToRemove
        | _, _ => .working none
    | _, _ => .raised
  allowed
    | .working lastRead, update =>
        (∀ addr, update ≠ .reputation (.crashedHandleOps addr)) ∧
          ∀ opsToRemove, update = .mempool (.removeUserOpsForBannedAddr opsToRemove) →
            lastRead.isSome
    | .removed s opsToRemove, update =>
        ∃ addr, update = .reputation (.crashedHandleOps addr) ∧
          opsToRemove = s.standardPool.values.filter (spells addr)
    | .raised, update => ClosesAttempt update

def BeforeBan : Update → Prop
  | .mempool (.removeUserOpsForBannedAddr _) => False
  | .reputation (.crashedHandleOps _) => False
  | _ => True

theorem beforeBan_of_settles {update : Update} (h : SettlesEntries update) : BeforeBan update := by
  unfold BeforeBan
  split
  · exact h
  · exact h
  · trivial

theorem follows_beforeBan {α : Type} {p : Async α}
    (hp : p.Guarantees (fun _ => True) BeforeBan fun _ => True) (lastRead : Option State) :
    p.Follows banProtocol (fun phase _ => phase.isWorking ∧ True) (.working lastRead) := by
  refine hp.follows (K := fun phase : BanPhase => phase.isWorking) ?_ ?_ rfl
  · intro phase s hphase
    cases phase with
    | working lastRead => rfl
    | removed s opsToRemove => cases hphase
    | raised => cases hphase
  · intro phase update hphase hbefore
    cases phase with
    | removed s opsToRemove => cases hphase
    | raised => cases hphase
    | working lastRead =>
      refine ⟨⟨?_, ?_⟩, ?_⟩
      · rintro addr rfl
        exact hbefore
      · rintro opsToRemove rfl
        exact hbefore.elim
      · cases update with
        | reputation update => rfl
        | mempool update =>
          cases update with
          | removeUserOpsForBannedAddr ops => exact hbefore.elim
          | _ => rfl

theorem follows_closing {α : Type} {p : Async α}
    (hp : p.Guarantees (fun _ => True) ClosesAttempt fun _ => True) {phase : BanPhase}
    (hphase : ¬phase.isRemoved) :
    p.Follows banProtocol (fun phase _ => ¬phase.isRemoved ∧ True) phase := by
  refine hp.follows (K := fun phase : BanPhase => ¬phase.isRemoved) ?_ ?_ hphase
  · intro phase s hphase
    cases phase with
    | removed s opsToRemove => exact absurd rfl hphase
    | working lastRead => exact nofun
    | raised => exact nofun
  · intro phase update hphase hcloses
    cases phase with
    | removed s opsToRemove => exact absurd rfl hphase
    | raised => exact ⟨hcloses, nofun⟩
    | working lastRead =>
      refine ⟨⟨?_, ?_⟩, ?_⟩
      · rintro addr rfl
        exact hcloses
      · rintro opsToRemove rfl
        exact hcloses.elim
      · cases update with
        | reputation update => exact nofun
        | mempool update =>
          cases update with
          | removeUserOpsForBannedAddr ops => exact hcloses.elim
          | _ => exact nofun

theorem banAddress_follows (addressToBan : Option String) (lastRead : Option State) :
    (banAddress addressToBan).Follows banProtocol
      (fun phase r => r = .ok ⟨⟩ → ¬phase.isRemoved) (.working lastRead) := by
  unfold banAddress
  cases truthy addressToBan with
  | none => exact nofun
  | some addr =>
    intro s
    refine ⟨⟨nofun, fun _ _ => rfl⟩, ?_⟩
    intro r
    cases r with
    | ok _ =>
      refine ⟨⟨addr, rfl, rfl⟩, ?_⟩
      intro r _
      exact nofun
    | error _ => exact nofun

theorem afterSendBundle_follows (res : SendBundleReturnWithSigner) (lastRead : Option State) :
    (afterSendBundle res).Follows banProtocol (fun _ _ => True) (.working lastRead) := by
  have hcrash : (handleCrash res.crashedHandleOps).Follows banProtocol
      (fun phase r => r = .ok ⟨⟩ → ¬phase.isRemoved) (.working lastRead) := by
    cases res.crashedHandleOps with
    | none => exact nofun
    | some crash =>
      refine (banAddress_follows crash.addressToBan lastRead).bind ?_ nofun
      intro phase _ hphase
      exact (follows_closing (removeUserOp_guarantees (fun _ => trivial) _) (hphase rfl)).weaken
        fun _ _ h _ => h.1
  refine hcrash.bind ?_ fun _ _ _ => trivial
  intro phase _ hphase
  have hclosing : (addBundleTxnConfirmation res.transactionHash res.signerIndex).Guarantees
      (fun _ => True) ClosesAttempt fun _ => True :=
    addBundleTxnConfirmation_guarantees (fun _ _ => trivial) _ _
  exact (follows_closing hclosing (hphase rfl)).weaken fun _ _ _ => trivial

/-- A part of the attempt that comes before the ban, and then the rest. -/
theorem follows_beforeBan_bind {α β : Type} {p : Async α} {f : α → Async β}
    (hp : p.Guarantees (fun _ => True) BeforeBan fun _ => True)
    (hf : ∀ a lastRead, (f a).Follows banProtocol (fun _ _ => True) (.working lastRead))
    (lastRead : Option State) :
    (p >>= f).Follows banProtocol (fun _ _ => True) (.working lastRead) := by
  refine (follows_beforeBan hp lastRead).bind ?_ fun _ _ _ => trivial
  rintro phase a ⟨hphase, _⟩
  cases phase with
  | working lastRead => exact hf a lastRead
  | removed s opsToRemove => cases hphase
  | raised => cases hphase

/-- Settling entries is such a part. -/
theorem follows_settling_bind {α β : Type} {p : Async α} {f : α → Async β}
    (hp : p.Guarantees (fun _ => True) SettlesEntries fun _ => True)
    (hf : ∀ a lastRead, (f a).Follows banProtocol (fun _ _ => True) (.working lastRead))
    (lastRead : Option State) :
    (p >>= f).Follows banProtocol (fun _ _ => True) (.working lastRead) :=
  follows_beforeBan_bind (hp.weaken fun _ => beforeBan_of_settles) hf lastRead

theorem sendReady_follows (services : Services) (ready : BundleReadyToSend) :
    ∀ lastRead, (sendReady services ready).Follows banProtocol (fun _ _ => True)
      (.working lastRead) := by
  refine follows_settling_bind (settlesEntries.returnNotIncluded_guarantees _) fun _ => ?_
  refine follows_settling_bind (settlesEntries.removeMarked_guarantees _) fun _ => ?_
  refine follows_beforeBan_bind trivial fun res => ?_
  intro lastRead
  exact (afterSendBundle_follows res lastRead).bind (fun _ _ _ => trivial) fun _ _ _ => trivial

theorem attemptWith_follows (services : Services) (entries : List MempoolEntry)
    (lastRead : Option State) :
    (attemptWith services entries).Follows banProtocol (fun _ _ => True) (.working lastRead) := by
  unfold attemptWith
  split
  · exact trivial
  · refine follows_settling_bind (settlesEntries.handlePastEvents_guarantees _)
      (fun _ _ => ?_) lastRead
    intro s
    exact follows_beforeBan_bind ((createBundle_readOnly _ _ _).guarantees _ _)
      (fun ready => sendReady_follows services ready) (some s)

theorem doAttemptBundle_follows (services : Services) (force : Bool) (lastRead : Option State) :
    (doAttemptBundle services force).detach.Follows banProtocol (fun _ _ => True)
      (.working lastRead) := by
  have hattempt := follows_beforeBan_bind (getEntries_guarantees (fun _ => trivial) services force)
    (attemptWith_follows services) lastRead
  exact hattempt.bind (fun _ _ _ => trivial) fun _ _ _ => trivial

end Protocol

section Updates

variable {addr : String} {s : State} {update : Update}

/-- No pooled entry is of the address. -/
def NoneInvolves (addr : String) (s : State) : Prop :=
  ∀ entry ∈ s.standardPool.values, ¬involves addr entry.userOp

instance (addr : String) (s : State) : Decidable (NoneInvolves addr s) :=
  inferInstanceAs (Decidable (∀ _ ∈ _, _))

/-- The update writes an entry of the address. -/
def writesEntryOf (addr : String) : Update → Bool
  | .mempool (.doUpdateMempoolState entry _) => involves addr entry.userOp
  | _ => false

/-- An admission that writes no entry of the address brings none. -/
theorem pooled_of_admits (hadmits : AdmitsEntry update) (hwrite : ¬writesEntryOf addr update)
    {entry : MempoolEntry} (hentry : entry ∈ (update.apply s).1.standardPool.values)
    (hinvolves : involves addr entry.userOp) : entry ∈ s.standardPool.values := by
  cases update with
  | reputation update =>
    change entry ∈ (update.apply s).standardPool.values at hentry
    rw [reputation_standardPool] at hentry
    exact hentry
  | mempool update =>
    cases update with
    | doUpdateMempoolState written old =>
      cases old with
      | none =>
        rcases (s.standardPool.mem_insert written entry).mp hentry with rfl | ⟨hpooled, _⟩
        · exact absurd hinvolves hwrite
        · exact hpooled
      | some old =>
        rcases (KeyedRecord.mem_insert _ written entry).mp hentry with rfl | ⟨hpooled, _⟩
        · exact absurd hinvolves hwrite
        · exact ((s.standardPool.mem_delete _ _).mp hpooled).1
    | _ => exact hadmits.elim

theorem noneInvolves_admits (h : NoneInvolves addr s) (hadmits : AdmitsEntry update)
    (hwrite : ¬writesEntryOf addr update) : NoneInvolves addr (update.apply s).1 :=
  fun entry hentry hinvolves => h entry (pooled_of_admits hadmits hwrite hentry hinvolves) hinvolves

theorem banned_admits (h : Banned addr s) (hadmits : AdmitsEntry update) :
    Banned addr (update.apply s).1 := by
  cases update with
  | mempool update =>
    refine h.of_seenMore ?_ ?_ ?_
    · exact mempool_whiteList s update
    · exact mempool_blackList s update
    · change SeenMore _ (update.apply s).1.reputationEntries
      rw [mempool_reputationEntries]
      exact seenMore_refl _
  | reputation update =>
    cases update with
    | updateSeenStatus other action =>
      cases action with
      | increment => exact h.of_seenMore rfl rfl (seenMore_updateSeenStatus _ other)
      | decrement => exact hadmits.elim
    | updateSeenStatusBatch others =>
      exact h.of_seenMore rfl rfl (seenMore_updateSeenStatusBatch _ others)
    | _ => exact hadmits.elim

theorem closes_keeps (hnone : NoneInvolves addr s) (hbanned : Banned addr s)
    (hcloses : ClosesAttempt update) :
    NoneInvolves addr (update.apply s).1 ∧ Banned addr (update.apply s).1 := by
  cases update with
  | reputation update => exact hcloses.elim
  | mempool update =>
    cases update with
    | removeUserOp entry =>
      refine ⟨?_, hbanned⟩
      intro other hother
      exact hnone other ((s.standardPool.mem_delete _ _).mp hother).1
    | addBundleTxnConfirmation transactionHash signerIndex => exact ⟨hnone, hbanned⟩
    | _ => exact hcloses.elim

end Updates

section BeforeRaise

variable {addr : String} {c : Config State Update JsError} {i : ℕ}

def isRemoval : Update → Bool
  | .mempool (.removeUserOpsForBannedAddr _) => true
  | _ => false

/-- The attempt has looked up the entries to remove and is about to remove them. -/
def AboutToRemove (c : Config State Update JsError) : Prop := (c.pending 0).any isRemoval

instance (c : Config State Update JsError) : Decidable (AboutToRemove c) :=
  inferInstanceAs (Decidable (_ = true))

/-- The attempt has removed the entries and is about to raise the counters
of the address. -/
def AboutToRaise (addr : String) (c : Config State Update JsError) : Prop :=
  c.pending 0 = some (.reputation (.crashedHandleOps addr))

def raises (addr : String) : Update → Bool
  | .reputation (.crashedHandleOps other) => other = addr
  | _ => false

theorem raises_iff (update : Update) :
    raises addr update = true ↔ update = .reputation (.crashedHandleOps addr) := by
  constructor
  · intro h
    unfold raises at h
    split at h
    · rw [decide_eq_true_eq] at h
      rw [h]
    · cases h
  · rintro rfl
    exact decide_eq_true rfl

instance (addr : String) (c : Config State Update JsError) : Decidable (AboutToRaise addr c) :=
  decidable_of_iff ((c.pending 0).any (raises addr) = true) (by
    unfold AboutToRaise
    cases c.pending 0 with
    | none => exact iff_of_false nofun nofun
    | some update => exact (raises_iff update).trans Option.some_inj.symm)

/-- At the look-up every pooled entry of the address spells it exactly like
that, and from then to the raise no entry of the address is written. -/
def KeepsOut (addr : String) (c : Config State Update JsError) (i : ℕ) : Prop :=
  (i = 0 → AboutToRemove (c.step Update.apply 0) →
      ∀ entry ∈ c.state.standardPool.values, involves addr entry.userOp → spells addr entry) ∧
    (AboutToRemove c ∨ AboutToRaise addr c →
      c.Writes (fun _ update => ¬writesEntryOf addr update) i)

instance (addr : String) (c : Config State Update JsError) (i : ℕ) :
    Decidable (KeepsOut addr c i) :=
  inferInstanceAs (Decidable (_ ∧ _))

/-- Every thread but the attempt is an admission. -/
def AddsAdmit (c : Config State Update JsError) : Prop :=
  ∀ j, j ≠ 0 → c.At j fun p => p.Guarantees (fun _ => True) AdmitsEntry fun _ => True

/-- The pooled entries of the address were there at the look-up, spelled the same. -/
def LookedUp (addr : String) (lookedUp s : State) : Prop :=
  ∀ entry ∈ s.standardPool.values, involves addr entry.userOp →
    entry ∈ lookedUp.standardPool.values ∧ spells addr entry

/-- The attempt keeps to its protocol; what it is about to remove covers the
entries of the address, and none is left once they have been removed. -/
structure Cleared (addr : String) (c : Config State Update JsError) (phase : BanPhase) : Prop where
  follows : c.At 0 fun p => p.Follows banProtocol (fun _ _ => True) phase
  lookedUp : ∀ s, phase = .working (some s) → AboutToRemove c → LookedUp addr s c.state
  removed : phase.isRemoved → AboutToRaise addr c → NoneInvolves addr c.state

theorem onUpdate_working (lastRead : Option State) (u : Update) :
    banProtocol.onUpdate (.working lastRead) u = .working none ∨
      ∃ s opsToRemove, (lastRead = some s ∧
        u = .mempool (.removeUserOpsForBannedAddr opsToRemove)) ∧
        banProtocol.onUpdate (.working lastRead) u = .removed s opsToRemove := by
  cases u with
  | reputation update => exact Or.inl rfl
  | mempool update =>
    cases update with
    | removeUserOpsForBannedAddr opsToRemove =>
      cases lastRead with
      | none => exact Or.inl rfl
      | some s => exact Or.inr ⟨s, opsToRemove, ⟨rfl, rfl⟩, rfl⟩
    | _ => exact Or.inl rfl

theorem addsAdmit_step (h : AddsAdmit c) (i : ℕ) : AddsAdmit (c.step Update.apply i) :=
  fun j hj => (h j hj).step_guarantees Update.apply trivial i

theorem noneInvolves_removed {lookedUp s : State} (h : LookedUp addr lookedUp s) :
    NoneInvolves addr (Update.apply (.mempool (.removeUserOpsForBannedAddr
      (lookedUp.standardPool.values.filter (spells addr)))) s).1 := by
  intro entry hentry hinvolves
  obtain ⟨hpooled, hleft⟩ := (s.standardPool.mem_foldl_delete _ entry).mp hentry
  obtain ⟨hfound, hspells⟩ := h entry hpooled hinvolves
  exact hleft entry (List.mem_filter.mpr ⟨hfound, hspells⟩) rfl

/-- The attempt raises the counters of the address it has looked up. -/
theorem lookedUp_of_aboutToRaise {s : State} {opsToRemove : List MempoolEntry}
    (h : c.At 0 fun p => p.Follows banProtocol (fun _ _ => True) (.removed s opsToRemove))
    (habout : AboutToRaise addr c) : opsToRemove = s.standardPool.values.filter (spells addr) := by
  obtain ⟨next, hthread⟩ := Config.pending_eq_some_iff.mp habout
  obtain ⟨other, hraise, hops⟩ := (h _ hthread).1
  cases hraise
  exact hops

/-- A read of the attempt. -/
theorem cleared_step_read {phase : BanPhase} {next : State → Async PUnit}
    (h : Cleared addr c phase) (hkeeps : KeepsOut addr c 0)
    (hthread : c.threads[0]? = some (.getState next)) :
    Cleared addr (c.step Update.apply 0) (banProtocol.onRead phase c.state) := by
  have hstate : (c.step Update.apply 0).state = c.state :=
    Config.step_state_of_not_pending Update.apply (by unfold Config.pending; rw [hthread])
  refine ⟨?_, ?_, ?_⟩
  · intro p hp
    rw [Config.step_threads_read Update.apply hthread] at hp
    cases hp
    exact h.follows _ hthread c.state
  · intro s hphase habout
    have hread : s = c.state := by
      cases phase with
      | raised => cases hphase
      | working lastRead =>
        cases hphase
        rfl
      | removed s' opsToRemove =>
        cases hphase
        rfl
    subst hread
    rw [hstate]
    exact fun entry hentry hinvolves => ⟨hentry, hkeeps.1 rfl habout entry hentry hinvolves⟩
  · intro hphase
    cases phase <;> cases hphase

/-- An update of the attempt. -/
theorem cleared_step_update {phase : BanPhase} {u : Update}
    {next : Except JsError PUnit → Async PUnit} (h : Cleared addr c phase)
    (hthread : c.threads[0]? = some (.updateState u next)) :
    Cleared addr (c.step Update.apply 0) (banProtocol.onUpdate phase u) := by
  have hpending : c.pending 0 = some u := Config.pending_eq_some_iff.mpr ⟨next, hthread⟩
  have hstate := Config.step_state_of_pending Update.apply hpending
  have hfollows : (c.step Update.apply 0).At 0 fun p =>
      p.Follows banProtocol (fun _ _ => True) (banProtocol.onUpdate phase u) := by
    intro p hp
    rw [Config.step_threads_update Update.apply hthread] at hp
    cases hp
    exact (h.follows _ hthread).2 _
  refine ⟨hfollows, ?_, ?_⟩
  · intro s hphase
    cases phase with
    | removed s' opsToRemove => cases hphase
    | raised => cases hphase
    | working lastRead =>
      rcases onUpdate_working lastRead u with hnone | ⟨_, _, _, hremoved⟩
      · cases hnone.symm.trans hphase
      · cases hremoved.symm.trans hphase
  · intro hphase habout
    cases phase with
    | removed s' opsToRemove => cases hphase
    | raised => cases hphase
    | working lastRead =>
      rcases onUpdate_working lastRead u with hnone | ⟨s, opsToRemove, ⟨rfl, rfl⟩, hremoved⟩
      · rw [hnone] at hphase
        cases hphase
      · have hbefore : AboutToRemove c := by
          unfold AboutToRemove
          rw [hpending]
          rfl
        have hops := lookedUp_of_aboutToRaise hfollows habout
        rw [hstate, hops]
        exact noneInvolves_removed (h.lookedUp s rfl hbefore)

/-- A step of one of the admissions. -/
theorem cleared_step_add {phase : BanPhase} (h : Cleared addr c phase) (hadds : AddsAdmit c)
    (hi : i ≠ 0) (hkeeps : KeepsOut addr c i) : Cleared addr (c.step Update.apply i) phase := by
  have hattempt : (c.step Update.apply i).pending 0 = c.pending 0 :=
    Config.pending_step_of_ne Update.apply hi
  have hremove : AboutToRemove (c.step Update.apply i) ↔ AboutToRemove c := by
    unfold AboutToRemove
    rw [hattempt]
  have hraise : AboutToRaise addr (c.step Update.apply i) ↔ AboutToRaise addr c := by
    unfold AboutToRaise
    rw [hattempt]
  have hpooled (habout : AboutToRemove c ∨ AboutToRaise addr c) :
      ∀ entry ∈ (c.step Update.apply i).state.standardPool.values, involves addr entry.userOp →
        entry ∈ c.state.standardPool.values := by
    cases hpending : c.pending i with
    | none =>
      rw [Config.step_state_of_not_pending Update.apply hpending]
      exact fun entry hentry _ => hentry
    | some u =>
      rw [Config.step_state_of_pending Update.apply hpending]
      intro entry hentry hinvolves
      exact pooled_of_admits ((hadds i hi).of_pending hpending) (hkeeps.2 habout u hpending)
        hentry hinvolves
  refine ⟨?_, ?_, ?_⟩
  · intro p hp
    rw [Config.step_threads_of_ne Update.apply hi] at hp
    exact h.follows p hp
  · intro s hphase habout entry hentry hinvolves
    have hbefore := hremove.mp habout
    exact h.lookedUp s hphase hbefore entry (hpooled (Or.inl hbefore) entry hentry hinvolves)
      hinvolves
  · intro hphase habout entry hentry hinvolves
    have hbefore := hraise.mp habout
    exact h.removed hphase hbefore entry (hpooled (Or.inr hbefore) entry hentry hinvolves)
      hinvolves

theorem cleared_exec {phase : BanPhase} (hcleared : Cleared addr c phase) (hadds : AddsAdmit c)
    {schedule : List ℕ}
    (hkeeps : AllSteps (Config.step Update.apply) (KeepsOut addr) c schedule) :
    (∃ phase, Cleared addr (c.exec Update.apply schedule) phase) ∧
      AddsAdmit (c.exec Update.apply schedule) := by
  have hstep : ∀ c i, (∃ phase, Cleared addr c phase) ∧ AddsAdmit c → KeepsOut addr c i →
      (∃ phase, Cleared addr (c.step Update.apply i) phase) ∧
        AddsAdmit (c.step Update.apply i) := by
    rintro c i ⟨⟨phase, hcleared⟩, hadds⟩ hkeeps
    refine ⟨?_, addsAdmit_step hadds i⟩
    by_cases hi : i = 0
    · subst hi
      rcases Config.step_cases Update.apply c 0 with hs | ⟨next, hthread, _⟩ | ⟨u, next, hthread, _⟩
      · rw [hs]
        exact ⟨phase, hcleared⟩
      · exact ⟨_, cleared_step_read hcleared hkeeps hthread⟩
      · exact ⟨_, cleared_step_update hcleared hthread⟩
    · exact ⟨phase, cleared_step_add hcleared hadds hi hkeeps⟩
  exact (allStates_of_allSteps (Config.step Update.apply) hstep ⟨⟨phase, hcleared⟩, hadds⟩
    hkeeps).last

end BeforeRaise

section AfterRaise

variable {addr : String} {c : Config State Update JsError} {i : ℕ}

/-- The update replaces a pooled entry by one of the address. -/
def replacesFor (addr : String) : Update → Bool
  | .mempool (.doUpdateMempoolState entry (some _)) => involves addr entry.userOp
  | _ => false

/-- What holds once the counters of the address have been raised. -/
structure Enforced (addr : String) (c : Config State Update JsError) : Prop where
  follows : c.At 0 fun p => p.Follows banProtocol (fun _ _ => True) .raised
  checks : ∀ j, j ≠ 0 → c.At j fun p =>
    p.Guarantees (Banned addr) (fun u => AdmitsEntry u ∧ WritesNoNew addr u) fun _ => True
  banned : Banned addr c.state
  noneInvolves : NoneInvolves addr c.state

theorem not_writesEntryOf {update : Update} (hnew : WritesNoNew addr update)
    (hreplaces : ¬replacesFor addr update) : ¬writesEntryOf addr update := by
  cases update with
  | reputation update => exact nofun
  | mempool update =>
    cases update with
    | doUpdateMempoolState entry old =>
      cases old with
      | none => exact hnew
      | some old => exact hreplaces
    | _ => exact nofun

theorem enforced_step (h : Enforced addr c)
    (hreplaces : c.Writes (fun _ update => ¬replacesFor addr update) i) :
    Enforced addr (c.step Update.apply i) := by
  have hstate : NoneInvolves addr (c.step Update.apply i).state ∧
      Banned addr (c.step Update.apply i).state := by
    cases hpending : c.pending i with
    | none =>
      rw [Config.step_state_of_not_pending Update.apply hpending]
      exact ⟨h.noneInvolves, h.banned⟩
    | some u =>
      rw [Config.step_state_of_pending Update.apply hpending]
      by_cases hi : i = 0
      · subst hi
        obtain ⟨next, hthread⟩ := Config.pending_eq_some_iff.mp hpending
        exact closes_keeps h.noneInvolves h.banned (h.follows _ hthread).1
      · obtain ⟨hadmits, hnew⟩ := (h.checks i hi).of_pending hpending
        have hwrite := not_writesEntryOf hnew (hreplaces u hpending)
        exact ⟨noneInvolves_admits h.noneInvolves hadmits hwrite, banned_admits h.banned hadmits⟩
  refine ⟨?_, ?_, hstate.2, hstate.1⟩
  · exact h.follows.step Update.apply i (fun _ hp => hp) (fun _ _ hnext => hnext c.state)
      fun _ _ _ _ hnext => hnext.2 _
  · exact fun j hj => (h.checks j hj).step_guarantees Update.apply h.banned i

/-- The raise puts the ban into force. -/
theorem enforced_of_raise {phase : BanPhase} (hcleared : Cleared addr c phase)
    (hadds : AddsAdmit c) (habout : AboutToRaise addr c) (hbans : CrashBans addr c.state)
    (hchecks : ∀ j, j ≠ 0 → c.At j (StillChecks addr)) :
    Enforced addr (c.step Update.apply 0) := by
  obtain ⟨next, hthread⟩ := Config.pending_eq_some_iff.mp habout
  have hstate := Config.step_state_of_pending Update.apply habout
  have hraise := hcleared.follows _ hthread
  cases phase with
  | working lastRead => exact absurd rfl (hraise.1.1 addr)
  | raised => exact hraise.1.elim
  | removed s opsToRemove =>
    refine ⟨?_, ?_, ?_, ?_⟩
    · intro p hp
      rw [Config.step_threads_update Update.apply hthread] at hp
      cases hp
      exact hraise.2 _
    · intro j hj p hp
      rw [Config.step_threads_of_ne Update.apply (Ne.symm hj)] at hp
      have hboth := Program.Guarantees.and (hadds j hj p hp) (hchecks j hj p hp)
      exact hboth.mono (fun _ hbanned => ⟨trivial, hbanned⟩) (fun _ hu => hu) fun _ _ => trivial
    · rw [hstate]
      exact banned_crashedHandleOps hbans
    · rw [hstate]
      exact hcleared.removed rfl habout

end AfterRaise

section Runs

variable (config : StakeConfig) (services : Services) (force : Bool)
  (adds : List (BalanceOf × RelayUserOpParam)) (s : State) {addr : String} {before after : List ℕ}

theorem cleared_initially (addr : String) :
    Cleared addr (attemptAmong config services force adds s) (.working none) := by
  refine ⟨?_, nofun, nofun⟩
  intro p hp
  cases hp
  exact doAttemptBundle_follows services force none

theorem add_of_ne_zero {j : ℕ} (hj : j ≠ 0) {p : Async PUnit}
    (hp : (attemptAmong config services force adds s).threads[j]? = some p) :
    ∃ add ∈ adds, p = (addUserOp config add.1 add.2).detach := by
  cases j with
  | zero => exact absurd rfl hj
  | succ k =>
    have hmem : p ∈ adds.map fun add => (addUserOp config add.1 add.2).detach :=
      List.mem_of_getElem? hp
    obtain ⟨add, hadd, rfl⟩ := List.mem_map.mp hmem
    exact ⟨add, hadd, rfl⟩

theorem addsAdmit_initially : AddsAdmit (attemptAmong config services force adds s) := by
  intro j hj p hp
  obtain ⟨add, _, rfl⟩ := add_of_ne_zero config services force adds s hj hp
  exact addUserOp_admitsEntry

/-- An admission that has not taken a step yet still checks the address. -/
theorem stillChecks_of_not_begun (hdescribes : ∀ add ∈ adds, DescribesEntities add.2)
    (hzero : toLowerCase addr ≠ zeroAddress) {j : ℕ} (hj : j ≠ 0) (hbefore : j ∉ before) :
    ((attemptAmong config services force adds s).exec Update.apply before).At j
      (StillChecks addr) := by
  intro p hp
  rw [Config.exec_threads_of_not_mem Update.apply hbefore] at hp
  obtain ⟨add, hadd, rfl⟩ := add_of_ne_zero config services force adds s hj hp
  exact addUserOp_stillChecks (hdescribes add hadd) hzero

/-- No entry of the address is left from the raise on, when the look-up finds
all of them, none is written from then to the raise, the raise bans, and after
it no admission is past its check of the address and none replaces an entry. -/
theorem ban_enforced
    (hbefore : AllSteps (Config.step Update.apply) (KeepsOut addr)
      (attemptAmong config services force adds s) before)
    (habout : AboutToRaise addr
      ((attemptAmong config services force adds s).exec Update.apply before))
    (hbans : CrashBans addr
      ((attemptAmong config services force adds s).exec Update.apply before).state)
    (hchecks : ∀ j, j ≠ 0 →
      ((attemptAmong config services force adds s).exec Update.apply before).At j
        (StillChecks addr))
    (hafter : AllSteps (Config.step Update.apply)
      (Config.Writes fun _ update => ¬replacesFor addr update)
      ((attemptAmong config services force adds s).exec Update.apply (before ++ [0])) after) :
    AllStates (Config.step Update.apply) (fun c => NoneInvolves addr c.state)
      ((attemptAmong config services force adds s).exec Update.apply (before ++ [0])) after := by
  obtain ⟨⟨phase, hcleared⟩, hadds⟩ := cleared_exec
    (cleared_initially config services force adds s addr)
    (addsAdmit_initially config services force adds s) hbefore
  have henforced := enforced_of_raise hcleared hadds habout hbans hchecks
  have hall := allStates_of_allSteps (Config.step Update.apply)
    (fun _ _ h hreplaces => enforced_step h hreplaces) henforced
    (by rwa [Config.exec_append] at hafter)
  rw [Config.exec_append]
  exact hall.imp (Config.step Update.apply) fun _ => Enforced.noneInvolves

end Runs

section Concrete

def secondOf (sender : String) : RelayUserOpParam :=
  plainParam (plainOp sender 2 10 none none) hash₂

/-- Two operations of one account, whose addresses differ in a letter's case. -/
def twoSpellings : List Operation :=
  [plainAdd account hash₁, .mempool (.addUserOp richDeposits (secondOf checksummed))]

/-- The first of two accounts is to be banned, and an operation of it comes
after that. -/
def lateAdd : Config State Update JsError :=
  attemptAmong plainConfig firstCrashes true [(richDeposits, secondOf account)]
    (run (Operation.perform plainConfig 5) (State.initial [] [])
      [plainAdd account hash₁, plainAdd otherAccount hash₂])

theorem ban_enforced_on_late_add :
    AllStates (Config.step Update.apply) (fun c => NoneInvolves account c.state)
      (lateAdd.exec Update.apply (List.replicate 10 0 ++ [0])) [1, 1, 0, 0] := by
  refine ban_enforced plainConfig firstCrashes true _ _ (by decide +kernel) (by decide +kernel)
    (by decide +kernel) ?_ (by decide +kernel)
  intro j hj
  exact stillChecks_of_not_begun plainConfig firstCrashes true _ _ (by decide) (by decide) hj
    (by simpa using hj)

/-- One account pooled under both spellings, of which the first is to be banned. -/
def bothSpelled : Config State Update JsError :=
  attemptAmong plainConfig firstCrashes true []
    (run (Operation.perform plainConfig 5) (State.initial [] []) twoSpellings)

theorem other_spelling_left :
    ¬∀ (config : StakeConfig) (bundleSize : ℕ) (whiteList blackList : List String)
      (ops : List Operation) (services : Services) (force : Bool)
      (adds : List (BalanceOf × RelayUserOpParam)) (addr : String) (before after : List ℕ),
      toLowerCase addr ∉
        (run (Operation.perform config bundleSize) (State.initial whiteList blackList)
          ops).whiteList →
      AboutToRaise addr ((attemptAmong config services force adds
        (run (Operation.perform config bundleSize) (State.initial whiteList blackList)
          ops)).exec Update.apply before) →
      Config.Finished ((attemptAmong config services force adds
        (run (Operation.perform config bundleSize) (State.initial whiteList blackList)
          ops)).exec Update.apply (before ++ 0 :: after)) →
      NoneInvolves addr ((attemptAmong config services force adds
        (run (Operation.perform config bundleSize) (State.initial whiteList blackList)
          ops)).exec Update.apply (before ++ 0 :: after)).state := by
  intro h
  have hrun : toLowerCase account ∉ bothSpelled.state.whiteList ∧
      AboutToRaise account (bothSpelled.exec Update.apply (List.replicate 10 0)) ∧
      Config.Finished (bothSpelled.exec Update.apply (List.replicate 10 0 ++ [0, 0])) ∧
      ¬NoneInvolves account (bothSpelled.exec Update.apply
        (List.replicate 10 0 ++ [0, 0])).state := by
    decide +kernel
  obtain ⟨hlisted, habout, hfinished, hleft⟩ := hrun
  exact hleft (h plainConfig 5 [] [] twoSpellings firstCrashes true [] account
    (List.replicate 10 0) [0] hlisted habout hfinished)

end Concrete

end Bundler.BanEnforcement
