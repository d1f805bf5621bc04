import Bundler.HandOut
import Bundler.TurnTaking

/-!
The bundle manager in automatic mode. Setting the mode starts or clears an
interval; at each tick of a running interval one more attempt asks for the
mutex, under which the attempts run one after the other, each of them to its
end whether or not it rejects. What else accesses the store, attempts asked
for over the debug interface among it, does not take the mutex.
-/
namespace Bundler.AutoBundling

open KeyedRecords AsyncPrograms DataModel StateService MempoolManager BundleBuilder BundleManager
  Operations Runs Interleavings TurnTaking HandOut

inductive BundleMode
  | auto
  | manual
  deriving DecidableEq, Repr

/-- The mode, the interval that is remembered, and the intervals that tick. -/
structure Timers where
  bundleMode : BundleMode
  interval : Option ℕ
  running : List ℕ
  nextId : ℕ
  deriving DecidableEq, Repr

namespace Timers

def stopAutoBundler (t : Timers) : Timers :=
  match t.interval with
  | some interval =>
      { t with running := t.running.filter (· ≠ interval), interval := none }
  | none => t

/-- An interval once started gets an identifier of its own. -/
def startAutoBundler (t : Timers) : Timers :=
  let stopped := t.stopAutoBundler
  { stopped with
    running := stopped.running ++ [stopped.nextId]
    interval := some stopped.nextId
    nextId := stopped.nextId + 1 }

def setBundlingMode (t : Timers) (mode : BundleMode) : Timers :=
  let t := { t with bundleMode := mode }
  if mode = .auto then t.startAutoBundler else t.stopAutoBundler

end Timers

def createBundleManager (isAutoBundle : Bool) : Timers :=
  let t : Timers := ⟨if isAutoBundle then .auto else .manual, none, [], 0⟩
  if t.bundleMode = .auto then t.startAutoBundler else t

/-- What runs under the mutex; an error is only logged. -/
def autoBundle (services : Services) : Async PUnit :=
  tryCatch (doAttemptBundle services false).detach fun _ => pure ⟨⟩

structure AutoBundler where
  timers : Timers
  programs : Config State Update JsError

inductive Action
  | setBundlingMode (mode : BundleMode)
  | tick (interval : ℕ) (services : Services)
  | access (thread : ℕ)

/-- One thing that happens; the first threads run outside the mutex. -/
def step (outside : ℕ) (b : AutoBundler) : Action → AutoBundler
  | .setBundlingMode mode => { b with timers := b.timers.setBundlingMode mode }
  | .tick interval services =>
      if interval ∈ b.timers.running then
        { b with programs := begin b.programs (autoBundle services) }
      else b
  | .access i => { b with programs := stepInTurn Update.apply outside b.programs i }

def start (isAutoBundle : Bool) (s : State) (outside : List (Async PUnit)) : AutoBundler :=
  ⟨createBundleManager isAutoBundle, ⟨s, outside⟩⟩

section Intervals

def Action.setting : Action → Option BundleMode
  | .setBundlingMode mode => some mode
  | _ => none

/-- The tick of this interval, if it is one. -/
def Action.ticks (interval : Option ℕ) : Action → Bool
  | .tick i _ => interval = some i
  | _ => false

/-- The modes set from the start on. -/
def modes (isAutoBundle : Bool) (actions : List Action) : List BundleMode :=
  (if isAutoBundle then .auto else .manual) :: actions.filterMap Action.setting

/-- The interval that is to tick after these settings: that of the last one,
if it was to automatic. -/
def lastInterval (modes : List BundleMode) : Option ℕ :=
  if modes.getLast? = some .auto then some (modes.count .auto - 1) else none

/-- One interval runs, or none, and it is the one that is remembered. -/
structure KeepsOne (t : Timers) (modes : List BundleMode) : Prop where
  interval : t.interval = lastInterval modes
  running : t.running = t.interval.toList
  nextId : t.nextId = modes.count .auto

variable {t : Timers} {modes : List BundleMode}

theorem stopAutoBundler_of_running (h : t.running = t.interval.toList) :
    t.stopAutoBundler = { t with interval := none, running := [] } := by
  unfold Timers.stopAutoBundler
  cases hinterval : t.interval with
  | none =>
    rw [hinterval] at h
    cases t
    cases h
    cases hinterval
    rfl
  | some interval =>
    rw [hinterval] at h
    simp [h]

theorem KeepsOne.setBundlingMode (h : KeepsOne t modes) (mode : BundleMode) :
    KeepsOne (t.setBundlingMode mode) (modes ++ [mode]) := by
  have hstop := stopAutoBundler_of_running (t := { t with bundleMode := mode }) h.running
  cases mode with
  | auto =>
    have hset : t.setBundlingMode .auto = ⟨.auto, some t.nextId, [t.nextId], t.nextId + 1⟩ := by
      simp [Timers.setBundlingMode, Timers.startAutoBundler, hstop]
    rw [hset]
    refine ⟨?_, rfl, ?_⟩
    · simp [lastInterval, h.nextId]
    · simp [h.nextId]
  | manual =>
    have hset : t.setBundlingMode .manual = ⟨.manual, none, [], t.nextId⟩ := by
      simp [Timers.setBundlingMode, hstop]
    rw [hset]
    refine ⟨by simp [lastInterval], rfl, ?_⟩
    simp [h.nextId]

theorem keepsOne_create (isAutoBundle : Bool) :
    KeepsOne (createBundleManager isAutoBundle) (AutoBundling.modes isAutoBundle []) := by
  cases isAutoBundle with
  | false => exact ⟨rfl, rfl, rfl⟩
  | true => exact ⟨rfl, rfl, rfl⟩

theorem keepsOne_run {b : AutoBundler} (outside : ℕ) (h : KeepsOne b.timers modes)
    (actions : List Action) :
    KeepsOne (run (step outside) b actions).timers
      (modes ++ actions.filterMap Action.setting) := by
  induction actions generalizing b modes with
  | nil => simpa using h
  | cons a actions ih =>
    cases a with
    | setBundlingMode mode =>
      have hrest := ih (b := step outside b (.setBundlingMode mode)) (h.setBundlingMode mode)
      rwa [List.append_assoc] at hrest
    | tick interval services =>
      refine ih ?_
      simp only [step]
      split
      · exact h
      · exact h
    | access i => exact ih (b := step outside b (.access i)) h

/-- As long as the mode is not set, attempts begin on the ticks of the one
interval that runs. -/
theorem length_run {b : AutoBundler} (outside : ℕ) (h : KeepsOne b.timers modes)
    {actions : List Action} (hkeep : ∀ a ∈ actions, a.setting = none) :
    (run (step outside) b actions).programs.threads.length =
      b.programs.threads.length + actions.countP (Action.ticks (lastInterval modes)) := by
  induction actions generalizing b with
  | nil => rfl
  | cons a actions ih =>
    obtain ⟨ha, hrest⟩ := List.forall_mem_cons.mp hkeep
    rw [run_cons, List.countP_cons]
    cases a with
    | setBundlingMode mode => cases ha
    | tick interval services =>
      have hrunning : interval ∈ b.timers.running ↔ lastInterval modes = some interval := by
        rw [h.running, h.interval, Option.mem_toList]
      by_cases htick : lastInterval modes = some interval
      · have hstep : step outside b (.tick interval services) =
            { b with programs := begin b.programs (autoBundle services) } :=
          if_pos (hrunning.mpr htick)
        rw [hstep, ih (b := ⟨b.timers, begin b.programs (autoBundle services)⟩) h hrest]
        simp [TurnTaking.begin, Action.ticks, htick]
        omega
      · have hstep : step outside b (.tick interval services) = b :=
          if_neg fun hmem => htick (hrunning.mp hmem)
        rw [hstep, ih h hrest]
        simp [Action.ticks, htick]
    | access i =>
      rw [ih (b := step outside b (.access i)) h hrest]
      have hlen : (stepInTurn Update.apply outside b.programs i).threads.length =
          b.programs.threads.length := length_stepInTurn i
      simp [step, hlen, Action.ticks]

end Intervals

/-- However often the mode was set, one interval ticks if it was last set to
automatic, and none if to manual; until it is set again, attempts begin on
the ticks of that interval and on no others. -/
theorem attempts_of_last_interval (isAutoBundle : Bool) (s : State) (outside : List (Async PUnit))
    (actions later : List Action) (hkeep : ∀ a ∈ later, a.setting = none) :
    let b := run (step outside.length) (start isAutoBundle s outside) actions
    b.timers.running = (lastInterval (modes isAutoBundle actions)).toList ∧
      (run (step outside.length) b later).programs.threads.length =
        b.programs.threads.length +
          later.countP (Action.ticks (lastInterval (modes isAutoBundle actions))) := by
  have hone : KeepsOne (run (step outside.length) (start isAutoBundle s outside) actions).timers
      (modes isAutoBundle actions) :=
    keepsOne_run _ (b := start isAutoBundle s outside) (keepsOne_create isAutoBundle) actions
  refine ⟨?_, length_run _ hone hkeep⟩
  rw [hone.running, hone.interval]

section HandOuts

variable {b : AutoBundler} {outside i j : ℕ} {userOpHash : String}

def Fresh (p : Async PUnit) : Prop := ∃ services, p = autoBundle services

/-- What the attempts under the mutex keep to, whatever else runs. -/
structure InTurn (outside : ℕ) (c : Config State Update JsError) : Prop where
  waits : Waits outside Fresh c
  keeps : ∀ i, outside ≤ i → Keeps c i

/-- An attempt under the mutex marks the entry in its next access. -/
def HandsOutInTurn (outside : ℕ) (b : AutoBundler) (i : ℕ) (userOpHash : String) : Prop :=
  outside ≤ i ∧ HasTurn outside b.programs i ∧ HandsOut b.programs i userOpHash

theorem autoBundle_keeps (services : Services) : KeepsToHandOut (autoBundle services) := by
  intro lastRead
  exact (doAttemptBundle_keeps services false lastRead).tryCatch (fun _ _ _ => trivial)
    fun _ _ _ => trivial

theorem inTurn_start (s : State) (outside : List (Async PUnit)) :
    InTurn outside.length ⟨s, outside⟩ := by
  have hnone : ∀ i, outside.length ≤ i → outside[i]? = none :=
    fun i hi => List.getElem?_eq_none hi
  constructor
  · intro i hi _ p hp
    cases (hnone i hi).symm.trans hp
  · intro i hi p hp
    cases (hnone i hi).symm.trans hp

theorem inTurn_step (h : InTurn outside b.programs) (a : Action) :
    InTurn outside (step outside b a).programs := by
  cases a with
  | setBundlingMode mode => exact h
  | tick interval services =>
    simp only [step]
    split
    · refine ⟨h.waits.begin ⟨services, rfl⟩, fun i hi => ?_⟩
      exact at_begin (h.keeps i hi) ⟨none, autoBundle_keeps services none⟩
    · exact h
  | access k =>
    refine ⟨h.waits.stepInTurn k, fun i hi => ?_⟩
    show Keeps (stepInTurn Update.apply outside b.programs k) i
    unfold stepInTurn
    split
    · exact keeps_step (h.keeps i hi) k
    · exact h.keeps i hi

theorem selection_of_fresh {c : Config State Update JsError}
    (h : c.At j fun p => Fresh p ∨ Config.isDone p) : userOpHash ∉ selection c j := by
  intro hselected
  obtain ⟨_, hpending, _⟩ := (mem_selection_iff _ _ _).mp hselected
  obtain ⟨next, hthread⟩ := (Config.pending_eq_some_iff).mp hpending
  rcases h _ hthread with ⟨services, hfresh⟩ | hdone
  · cases hfresh
  · cases hdone

theorem selection_of_begin {c : Config State Update JsError} {p : Async PUnit} (hp : Fresh p)
    (hselected : userOpHash ∈ selection (begin c p) j) : userOpHash ∈ selection c j := by
  obtain ⟨marked, hpending, hmem⟩ := (mem_selection_iff _ _ _).mp hselected
  obtain ⟨next, hthread⟩ := (Config.pending_eq_some_iff).mp hpending
  by_cases hlt : j < c.threads.length
  · rw [threads_begin_of_lt hlt] at hthread
    have hbefore : c.pending j = some (.mempool (.markBundling marked)) :=
      Config.pending_eq_some_iff.mpr ⟨next, hthread⟩
    exact (mem_selection_iff _ _ _).mpr ⟨marked, hbefore, hmem⟩
  · have hfresh : (begin c p).At j Fresh :=
      at_begin (fun q hq => absurd (List.getElem?_eq_some_iff.mp hq).1 hlt) hp
    exact absurd hselected (selection_of_fresh fun q hq => Or.inl (hfresh q hq))

/-- Once one of the attempts has marked its entries, none of them selects any. -/
theorem nothing_selected (h : InTurn outside b.programs) (hi : outside ≤ i)
    (hturn : HasTurn outside b.programs i) (hfirst : userOpHash ∈ selection b.programs i)
    (hj : outside ≤ j) :
    userOpHash ∉ selection (step outside b (.access i)).programs j := by
  have hstep : (step outside b (.access i)).programs = b.programs.step Update.apply i :=
    if_pos (Or.inr hturn)
  rw [hstep]
  obtain ⟨marked, hpending, _⟩ := (mem_selection_iff _ _ _).mp hfirst
  obtain ⟨next, hthread⟩ := (Config.pending_eq_some_iff).mp hpending
  by_cases hij : i = j
  · -- The next thing the attempt would mark it has to read first.
    subst hij
    intro hselected
    obtain ⟨_, hagain, _⟩ := (mem_selection_iff _ _ _).mp hselected
    obtain ⟨_, hrest⟩ := (Config.pending_eq_some_iff).mp hagain
    rw [Config.step_threads_update Update.apply hthread] at hrest
    obtain ⟨_, hfollows⟩ := h.keeps i hi _ hthread
    have hmark := hfollows.2 (Update.apply (.mempool (.markBundling marked)) b.programs.state).2
    rw [Option.some.inj hrest] at hmark
    obtain ⟨_, hread, _⟩ := hmark.1 _ rfl
    cases hread
  · rw [selection_step_of_ne hij]
    refine selection_of_fresh (h.waits.alone hi hj hij hthread ?_ Bool.false_ne_true)
    rintro ⟨services, hfresh⟩
    cases hfresh

theorem selection_action (h : InTurn outside b.programs) (hj : outside ≤ j) {a : Action}
    (hselected : userOpHash ∈ selection (step outside b a).programs j) :
    userOpHash ∈ selection b.programs j ∨ PendingIn b.programs.state userOpHash := by
  cases a with
  | setBundlingMode mode => exact Or.inl hselected
  | tick interval services =>
    simp only [step] at hselected
    split at hselected
    · exact Or.inl (selection_of_begin ⟨services, rfl⟩ hselected)
    · exact Or.inl hselected
  | access k =>
    change userOpHash ∈ selection (stepInTurn Update.apply outside b.programs k) j at hselected
    unfold stepInTurn at hselected
    split at hselected
    · exact selection_step (h.keeps j hj) hselected
    · exact Or.inl hselected

/-- The attempts come to select an entry only after a state that has it pending. -/
theorem pending_before_selected (h : InTurn outside b.programs) (hj : outside ≤ j)
    (hnot : userOpHash ∉ selection b.programs j) {actions : List Action}
    (hend : userOpHash ∈ selection (run (step outside) b actions).programs j) :
    SomeState (step outside) (fun b => PendingIn b.programs.state userOpHash) b actions := by
  induction actions generalizing b with
  | nil => exact absurd hend hnot
  | cons a actions ih =>
    by_cases hselected : userOpHash ∈ selection (step outside b a).programs j
    · rcases selection_action h hj hselected with hbefore | hpending
      · exact absurd hbefore hnot
      · exact ⟨[], a :: actions, rfl, hpending⟩
    · obtain ⟨done, rest, rfl, hpending⟩ := ih (inTurn_step h a) hselected hend
      exact ⟨a :: done, rest, rfl, hpending⟩

end HandOuts

/-- Whatever else accesses the store and however the mode is set, the attempts
of the auto bundler hand no entry out twice, be it twice in one attempt or in
two of them, without its having been pending in between. -/
theorem handed_out_anew (isAutoBundle : Bool) (s : State) (outside : List (Async PUnit))
    (before between : List Action) (i j : ℕ) (userOpHash : String)
    (hfirst : HandsOutInTurn outside.length
      (run (step outside.length) (start isAutoBundle s outside) before) i userOpHash)
    (hsecond : HandsOutInTurn outside.length
      (run (step outside.length) (start isAutoBundle s outside)
        (before ++ .access i :: between)) j userOpHash) :
    SomeState (step outside.length) (fun b => PendingIn b.programs.state userOpHash)
      (run (step outside.length) (start isAutoBundle s outside) (before ++ [.access i]))
      between := by
  obtain ⟨hi, hturn, hselected, _⟩ := hfirst
  obtain ⟨hj, _, hagain, _⟩ := hsecond
  have hinTurn : InTurn outside.length
      (run (step outside.length) (start isAutoBundle s outside) before).programs :=
    invariant_run (step outside.length) (I := fun b => InTurn outside.length b.programs)
      (fun _ a h => inTurn_step h a) (inTurn_start s outside) before
  rw [run_append] at hagain
  rw [run_append]
  exact pending_before_selected (inTurn_step hinTurn (.access i)) hj
    (nothing_selected hinTurn hi hturn hselected hj) hagain

section Concrete

/-- No entry fits, and what an attempt was handed out goes back. -/
def nothingFits : Services where
  bundleSize := 1
  pastEvents := ⟨[], .ok ⟨⟩⟩
  builder := { hundredEach with maxBundleGas := 0 }
  sendBundle := fun _ _ => .ok ⟨"", [], 0, none⟩

theorem second_interval_ticks :
    let b := run (step 0) (start true (State.initial [] []) []) [.setBundlingMode .auto]
    b.timers.running = [1] ∧
      (run (step 0) b [.tick 0 nothingFits, .tick 1 nothingFits]).programs.threads.length = 1 :=
  attempts_of_last_interval true (State.initial [] []) [] [.setBundlingMode .auto]
    [.tick 0 nothingFits, .tick 1 nothingFits] (by decide)

def twoWaiting : State :=
  run (Operation.perform plainConfig 5) (State.initial [] []) twoPooled

/-- Two attempts, the second of which was waiting when the interval was cleared. -/
theorem returned_then_handed_out :
    SomeState (step 0) (fun b => PendingIn b.programs.state hash₁)
      (run (step 0) (start true twoWaiting [])
        ([.tick 0 nothingFits, .tick 0 nothingFits, .access 0, .access 0] ++ [.access 0]))
      [.setBundlingMode .manual, .access 0, .access 0, .access 0, .access 0, .access 0,
        .access 1, .access 1] :=
  handed_out_anew true twoWaiting []
    [.tick 0 nothingFits, .tick 0 nothingFits, .access 0, .access 0] _ 0 1 hash₁
    ⟨le_refl 0, by decide, by decide, rfl⟩ ⟨Nat.zero_le 1, by decide, by decide, rfl⟩

end Concrete

end Bundler.AutoBundling
