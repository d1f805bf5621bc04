import Bundler.BundleManager
import Bundler.Interleavings
import Bundler.Operations

/-!
Which of several bundling attempts gets an entry. An attempt reads the pool,
selects pending entries and marks them in a second access, and the automatic
attempts and the ones asked for over the debug interface do not exclude each
other. As long as no attempt marks an entry that another one has selected
and not yet marked, an entry handed out twice has been pending in between.
-/
namespace Bundler.HandOut

open KeyedRecords AsyncPrograms DataModel StateService MempoolManager BundleBuilder BundleManager
  Operations Runs Interleavings

/-- The entry is in the pool under the hash, as pending. -/
def PendingIn (s : State) (userOpHash : String) : Prop :=
  ∃ entry, s.standardPool.get userOpHash = some entry ∧ isPending entry

instance (s : State) (userOpHash : String) : Decidable (PendingIn s userOpHash) :=
  decidable_of_iff ((s.standardPool.get userOpHash).any isPending = true)
    (Option.any_eq_true _ _)

/-- Attempts of given kinds running concurrently, before any of them has started. -/
def attempting (s : State) (attempts : List (Services × Bool)) : Config State Update JsError :=
  ⟨s, attempts.map fun attempt => (doAttemptBundle attempt.1 attempt.2).detach⟩

section Selections

/-- The entries attempt i has selected and is about to mark. -/
def selection (c : Config State Update JsError) (i : ℕ) : List String :=
  match c.pending i with
  | some (.mempool (.markBundling userOpHashes)) => userOpHashes
  | _ => []

/-- The step in which attempt i marks the entry, and then returns it. -/
def HandsOut (c : Config State Update JsError) (i : ℕ) (userOpHash : String) : Prop :=
  userOpHash ∈ selection c i ∧ (markBundling c.state.standardPool (selection c i)).2 = .ok ⟨⟩

/-- No other attempt is waiting to mark an entry that attempt i marks. -/
def SelectionsApart (c : Config State Update JsError) (i : ℕ) : Prop :=
  ∀ j < c.threads.length, i ≠ j → ∀ userOpHash ∈ selection c i, userOpHash ∉ selection c j

instance (c : Config State Update JsError) (i : ℕ) : Decidable (SelectionsApart c i) :=
  inferInstanceAs (Decidable (∀ j < _, _ → _))

/-- An entry handed out by two attempts has been pending in between. -/
def Exclusive (c : Config State Update JsError) (schedule : List ℕ) : Prop :=
  ∀ before i between j after userOpHash, schedule = before ++ i :: (between ++ j :: after) →
    i ≠ j → HandsOut (c.exec Update.apply before) i userOpHash →
    HandsOut ((c.exec Update.apply (before ++ [i])).exec Update.apply between) j userOpHash →
    SomeState (Config.step Update.apply) (fun c => PendingIn c.state userOpHash)
      (c.exec Update.apply (before ++ [i])) between

theorem mem_selection_iff (c : Config State Update JsError) (i : ℕ) (userOpHash : String) :
    userOpHash ∈ selection c i ↔
      ∃ userOpHashes, c.pending i = some (.mempool (.markBundling userOpHashes)) ∧
        userOpHash ∈ userOpHashes := by
  unfold selection
  constructor
  · intro h
    split at h
    · rename_i userOpHashes hpending
      exact ⟨userOpHashes, hpending, h⟩
    · cases h
  · rintro ⟨userOpHashes, hpending, h⟩
    rw [hpending]
    exact h

end Selections

section Protocol

/-- Entries are marked right after a read that had them pending. -/
def handOutProtocol : Program.Protocol State Update (Option State) where
  onRead _ s := some s
  onUpdate _ _ := none
  allowed lastRead update := ∀ userOpHashes, update = .mempool (.markBundling userOpHashes) →
    ∃ s, lastRead = some s ∧ ∀ userOpHash ∈ userOpHashes, PendingIn s userOpHash

def KeepsToHandOut {α : Type} (p : Async α) : Prop :=
  ∀ lastRead, p.Follows handOutProtocol (fun _ _ => True) lastRead

theorem selectEntries_pending (services : Services) (force : Bool) (s : State) :
    ∀ entry ∈ selectEntries services force s.standardPool, PendingIn s entry.userOpHash := by
  intro entry hentry
  have hfilter : entry ∈ s.standardPool.values.filter isPending := by
    unfold selectEntries allPending nextPending at hentry
    split at hentry
    · exact hentry
    · exact List.mem_of_mem_take hentry
  obtain ⟨hmem, hpending⟩ := List.mem_filter.mp hfilter
  exact ⟨entry, s.standardPool.get_key hmem, hpending⟩

theorem handOut_keeps (services : Services) (force : Bool) :
    KeepsToHandOut (handOut (selectEntries services force)) := by
  intro _ s
  refine ⟨?_, ?_⟩
  · intro userOpHashes hmark
    cases hmark
    refine ⟨s, rfl, ?_⟩
    intro userOpHash huserOpHash
    obtain ⟨entry, hentry, rfl⟩ := List.mem_map.mp huserOpHash
    exact selectEntries_pending services force s entry hentry
  · intro r
    cases r with
    | ok _ => exact trivial
    | error _ => exact trivial

theorem getEntries_keeps (services : Services) (force : Bool) :
    KeepsToHandOut (getEntries services force) := by
  intro _ s
  change Program.Follows _ _ (if s.standardPool.values.length = 0 then pure [] else
    if force then getAllPending else getNextPending services.bundleSize) (some s)
  have hhandOut := handOut_keeps services force (some s)
  split
  · exact trivial
  · cases force with
    | false => exact hhandOut
    | true => exact hhandOut

def NotMarking (update : Update) : Prop :=
  ∀ userOpHashes, update ≠ .mempool (.markBundling userOpHashes)

theorem allowsSending_notMarking : AllowsSending (fun _ => True) NotMarking where
  removeUserOp _ := nofun
  updateEntryStatus _ _ _ _ _ := nofun
  updateSeenStatus _ := nofun
  updateIncludedStatus _ := nofun
  removeUserOpsForBannedAddr _ := nofun
  crashedHandleOps _ := nofun
  addBundleTxnConfirmation _ _ := nofun

theorem doAttemptBundle_keeps (services : Services) (force : Bool) :
    KeepsToHandOut (doAttemptBundle services force).detach := by
  intro lastRead
  have hattempt : (doAttemptBundle services force).Follows handOutProtocol (fun _ _ => True)
      lastRead := by
    refine Program.Follows.bind (getEntries_keeps services force lastRead) ?_
      fun _ _ _ => trivial
    intro lastRead entries _
    have hrest : (attemptWith services entries).Follows handOutProtocol
        (fun _ _ => True ∧ True) lastRead := by
      -- From the hand-out on an attempt marks nothing.
      have hnothing := allowsSending_notMarking.attemptWith_guarantees services entries
      refine hnothing.follows (K := fun _ => True) (fun _ _ _ => trivial) ?_ trivial
      intro g update _ hnot
      exact ⟨fun userOpHashes hmark => absurd hmark (hnot userOpHashes), trivial⟩
    exact hrest.weaken fun _ _ _ => trivial
  exact hattempt.bind (fun _ _ _ => trivial) fun _ _ _ => trivial

end Protocol

section Run

variable {c : Config State Update JsError} {i j : ℕ} {userOpHash : String}

/-- What is left of attempt j still marks only what it has just read as pending. -/
def Keeps (c : Config State Update JsError) (j : ℕ) : Prop :=
  c.At j fun p => ∃ lastRead, p.Follows handOutProtocol (fun _ _ => True) lastRead

theorem keeps_step (h : Keeps c j) (i : ℕ) : Keeps (c.step Update.apply i) j := by
  refine Config.At.step Update.apply h i (fun _ hp => hp) ?_ ?_
  · rintro _ next ⟨_, hnext⟩
    exact ⟨_, hnext c.state⟩
  · rintro _ update next _ ⟨_, hnext⟩
    exact ⟨_, hnext.2 _⟩

theorem keeps_exec (h : Keeps c j) (schedule : List ℕ) : Keeps (c.exec Update.apply schedule) j :=
  invariant_run (Config.step Update.apply) (I := fun c => Keeps c j)
    (fun _ i hc => keeps_step hc i) h schedule

theorem keeps_attempting (s : State) (attempts : List (Services × Bool)) (j : ℕ) :
    Keeps (attempting s attempts) j := by
  intro p hp
  have hmem : p ∈ attempts.map fun attempt => (doAttemptBundle attempt.1 attempt.2).detach :=
    List.mem_of_getElem? hp
  obtain ⟨attempt, _, rfl⟩ := List.mem_map.mp hmem
  exact ⟨none, doAttemptBundle_keeps attempt.1 attempt.2 none⟩

theorem selection_step_of_ne (hij : i ≠ j) :
    selection (c.step Update.apply i) j = selection c j := by
  unfold selection
  rw [Config.pending_step_of_ne Update.apply hij]

/-- An attempt comes to select an entry only by a read that finds it pending. -/
theorem selection_step (hkeeps : Keeps c j)
    (hselected : userOpHash ∈ selection (c.step Update.apply i) j) :
    userOpHash ∈ selection c j ∨ PendingIn c.state userOpHash := by
  by_cases hij : i = j
  · subst hij
    obtain ⟨userOpHashes, hpending, hmem⟩ := (mem_selection_iff _ _ _).mp hselected
    obtain ⟨rest, hthread⟩ := (Config.pending_eq_some_iff).mp hpending
    rcases Config.step_cases Update.apply c i with h | ⟨next, hnext, _⟩ | ⟨u, next, hnext, _⟩
    · rw [h] at hselected
      exact Or.inl hselected
    · rw [Config.step_threads_read Update.apply hnext] at hthread
      obtain ⟨_, hfollows⟩ := hkeeps _ hnext
      have hmark := hfollows c.state
      rw [Option.some.inj hthread] at hmark
      obtain ⟨s, hread, hall⟩ := hmark.1 userOpHashes rfl
      cases hread
      exact Or.inr (hall userOpHash hmem)
    · rw [Config.step_threads_update Update.apply hnext] at hthread
      obtain ⟨_, hfollows⟩ := hkeeps _ hnext
      have hmark := hfollows.2 (Update.apply u c.state).2
      rw [Option.some.inj hthread] at hmark
      obtain ⟨s, hread, _⟩ := hmark.1 userOpHashes rfl
      cases hread
  · rw [selection_step_of_ne hij] at hselected
    exact Or.inl hselected

/-- An attempt that does not yet select an entry marks it only after a state
that has it pending. -/
theorem selected_after_pending (hkeeps : Keeps c j) (hnot : userOpHash ∉ selection c j)
    {schedule : List ℕ} (hend : userOpHash ∈ selection (c.exec Update.apply schedule) j) :
    SomeState (Config.step Update.apply) (fun c => PendingIn c.state userOpHash) c schedule := by
  induction schedule generalizing c with
  | nil => exact absurd hend hnot
  | cons i schedule ih =>
    by_cases hselected : userOpHash ∈ selection (c.step Update.apply i) j
    · rcases selection_step hkeeps hselected with h | h
      · exact absurd h hnot
      · exact ⟨[], i :: schedule, rfl, h⟩
    · obtain ⟨done, rest, rfl, h⟩ := ih (keeps_step hkeeps i) hselected hend
      exact ⟨i :: done, rest, rfl, h⟩

end Run

/-- In a run in which every attempt marks its entries while no other attempt
has selected one of them, no entry is handed out twice without having been
pending in between. -/
theorem exclusive_hand_out (s : State) (attempts : List (Services × Bool)) (schedule : List ℕ)
    (hapart : AllSteps (Config.step Update.apply) SelectionsApart (attempting s attempts)
      schedule) : Exclusive (attempting s attempts) schedule := by
  intro before i between j after userOpHash hschedule hij hfirst hsecond
  subst hschedule
  have hmark := ((allSteps_append _ _ _ _ _).mp hapart).2.1
  have hkeeps := keeps_exec (keeps_attempting s attempts j) (before ++ [i])
  refine selected_after_pending hkeeps ?_ hsecond.1
  rw [Config.exec_append]
  change userOpHash ∉ selection (Config.step Update.apply _ i) j
  rw [selection_step_of_ne hij]
  by_cases hj : j < (run (Config.step Update.apply) (attempting s attempts) before).threads.length
  · exact hmark j hj hij userOpHash hfirst.1
  · intro hselected
    obtain ⟨_, hpending, _⟩ := (mem_selection_iff _ _ _).mp hselected
    obtain ⟨_, hthread⟩ := (Config.pending_eq_some_iff).mp hpending
    exact hj (List.getElem?_eq_some_iff.mp hthread).1

section Concrete

def twoPooled : List Operation := [plainAdd account hash₁, plainAdd otherAccount hash₂]

/-- Attempts take one entry at a time, and every bundle is sent. -/
def allSent : Services where
  bundleSize := 1
  pastEvents := ⟨[], .ok ⟨⟩⟩
  builder := hundredEach
  sendBundle := fun _ _ => .ok ⟨hash₁, [], 0, none⟩

theorem exclusive_in_turn :
    Exclusive (attempting (run (Operation.perform plainConfig 5) (State.initial [] []) twoPooled)
      [(allSent, false), (allSent, true)]) [0, 0, 0, 1, 1, 1] :=
  exclusive_hand_out _ _ _ (by decide)

/-- An automatic attempt and a requested one each read the pool before the
other has marked anything. -/
theorem handed_out_to_both :
    ¬∀ (config : ReputationManager.StakeConfig) (bundleSize : ℕ) (ops : List Operation)
      (auto requested : Services) (schedule : List ℕ),
      Exclusive (attempting
        (run (Operation.perform config bundleSize) (State.initial [] []) ops)
        [(auto, false), (requested, true)]) schedule := by
  intro h
  obtain ⟨done, rest, hsplit, hpending⟩ := h plainConfig 5 twoPooled allSent allSent
    [0, 0, 1, 1, 0, 1] [0, 0, 1, 1] 0 [] 1 [] hash₁ rfl (by decide) ⟨by decide, rfl⟩
    ⟨by decide, rfl⟩
  obtain rfl : done = [] := (List.append_eq_nil_iff.mp hsplit.symm).1
  exact absurd hpending (by decide)

end Concrete

end Bundler.HandOut
