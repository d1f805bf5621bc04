import Bundler.EventManager

/-!
Catching up with past events while the listener is called and the chain
grows. A call passes every log of the three kinds from its first block on
to handleEvent, whatever else goes on. It misses what lies before that
block, and there the listener may have moved lastBlock past blocks of which
it handled one event of one kind. As long as no delivery moves it past a log
that nobody passes, and no call starts past one that another call still has
to pass, no call misses any.
-/
namespace Bundler.MissedLogs

open KeyedRecords AsyncPrograms DataModel StateService EventManager Runs Interleavings

/-- Who takes part: a call of handlePastEvents, the listener called with the
log at a place of the chain, or the chain itself. -/
inductive Party
  | handlePastEvents
  | userOperationEvent (place : ℕ)
  | mine (skipped : ℕ) (contents : List (EventArgs × String))
  deriving DecidableEq

def Party.program (via : Delivery) : Party → EventAsync PUnit
  | .handlePastEvents => EventManager.handlePastEvents
  | .userOperationEvent place => initEventListener via place
  | .mine skipped contents => Program.update (.mine skipped contents)

/-- A fresh event manager among the parties. -/
def watching (via : Delivery) (s : State) (chain : Chain) (parties : List Party) :
    Config EventStore EventUpdate JsError :=
  ⟨EventStore.initial s chain, parties.map (Party.program via)⟩

/-- The first block to watch: it is determined by the head at the first step
of a call of handlePastEvents. -/
def firstWatched (parties : List Party) : Config EventStore EventUpdate JsError → List ℕ → ℕ
  | c, [] => firstBlock c.state.chain.head
  | c, i :: schedule =>
      if parties[i]? = some .handlePastEvents then firstBlock c.state.chain.head
      else firstWatched parties (c.step EventUpdate.apply i) schedule

/-- The log is of one of the three kinds, and in no block before the first. -/
def Watched (first : ℕ) (log : EventLog) : Prop := log.args.kind.isSome ∧ first ≤ log.blockNumber

instance (first : ℕ) (log : EventLog) : Decidable (Watched first log) :=
  inferInstanceAs (Decidable (_ ∧ _))

/-- All logs to be watched in the blocks before this one have been passed to handleEvent. -/
def CaughtUpTo (first fromBlock : ℕ) (store : EventStore) : Prop :=
  ∀ log ∈ store.chain.logs, Watched first log → log.blockNumber < fromBlock → log ∈ store.passed

instance (first fromBlock : ℕ) (store : EventStore) :
    Decidable (CaughtUpTo first fromBlock store) :=
  inferInstanceAs (Decidable (∀ _ ∈ _, _ → _ → _))

/-- Some thread still has to pass the log to handleEvent before it can return. -/
def UnderWay (log : EventLog) (c : Config EventStore EventUpdate JsError) : Prop :=
  ∃ j < c.threads.length, c.At j fun p => p.Issues (· = .handleEvent log)

/-- All logs to be watched in the blocks before this one have been passed, or
a thread still has to pass them. -/
def Covered (first fromBlock : ℕ) (c : Config EventStore EventUpdate JsError) : Prop :=
  ∀ log ∈ c.state.chain.logs, Watched first log → log.blockNumber < fromBlock →
    log ∈ c.state.passed ∨ UnderWay log c

/-- The block that an update moves lastBlock to. -/
def movesTo : EventUpdate → Option ℕ
  | .setLastBlock lastBlock => lastBlock
  | _ => none

/-- The listener moves lastBlock for an event only when all logs up to the
event's block are passed or about to be. When a call starts, no other thread
still has to pass a log before its block; if it finds lastBlock unset, as a
delivery may have left it since the first call, these logs are all passed. -/
def KeepsUp (parties : List Party) (first : ℕ) (c : Config EventStore EventUpdate JsError)
    (i : ℕ) : Prop :=
  match parties[i]? with
  | some .handlePastEvents => c.threads[i]? = some handlePastEvents →
      ∀ log ∈ c.state.chain.logs, Watched first log → log.blockNumber < (started c.state).2 →
        UnderWay log c ∨ c.state.lastBlock.filter (· ≠ 0) = none → log ∈ c.state.passed
  | some (.userOperationEvent place) => ∀ ev ∈ c.state.chain.logs[place]?,
      c.Writes (fun _ u => (movesTo u).isSome → Covered first (ev.blockNumber + 1) c) i
  | _ => True

section Passing

variable {ev : EventLog} {store : EventStore} {update : EventUpdate}

theorem passed_update (h : ev ∈ store.passed) (update : EventUpdate) :
    ev ∈ (update.apply store).1.passed := by
  cases update with
  | handleEvent other => exact List.mem_append_left [other] h
  | _ => exact h

theorem passed_of_handleEvent (h : update = .handleEvent ev) (store : EventStore) :
    ev ∈ (update.apply store).1.passed := by
  rw [h]
  exact List.mem_append_right store.passed (List.mem_singleton_self ev)

theorem handleEvent_issues (via : Delivery) (ev : EventLog) :
    (handleEvent via ev).Issues (· = .handleEvent ev) := by
  have hmark : (Program.update (.handleEvent ev) : EventAsync PUnit).Issues
      (· = .handleEvent ev) := Or.inl rfl
  exact hmark.bind _

/-- A loop over events that has come to its end passed all of them. -/
theorem passed_of_forM {c : Config EventStore EventUpdate JsError} {i : ℕ}
    {events : List EventLog} {after : List ℕ}
    (hloop : c.threads[i]? = some (events.forM (handleEvent .eventLog)))
    (hdone : (c.exec EventUpdate.apply after).threads[i]? = some (.done (.ok ⟨⟩)))
    (hev : ev ∈ events) : ev ∈ (c.exec EventUpdate.apply after).state.passed := by
  refine Config.done_of_issues EventUpdate.apply (I := fun store => ev ∈ store.passed)
    (fun _ update h => passed_update h update)
    (fun store _ h => passed_of_handleEvent h store) ?_ hdone
  intro p hp
  cases hloop.symm.trans hp
  exact Program.Issues.forM hev (handleEvent_issues .eventLog ev)

/-- A call passes all logs it finds from its block on. -/
theorem passed_of_call {c : Config EventStore EventUpdate JsError} {i fromBlock : ℕ}
    (hcall : c.threads[i]? = some (pastEventsFrom fromBlock)) {after : List ℕ}
    (hdone : (c.exec EventUpdate.apply (i :: after)).threads[i]? = some (.done (.ok ⟨⟩)))
    (hev : ev ∈ pastEvents c.state.chain fromBlock) :
    ev ∈ (c.exec EventUpdate.apply (i :: after)).state.passed :=
  passed_of_forM (c := c.step EventUpdate.apply i)
    (Config.step_threads_read EventUpdate.apply hcall) hdone hev

theorem passed_exec {c : Config EventStore EventUpdate JsError} (h : ev ∈ c.state.passed)
    (schedule : List ℕ) : ev ∈ (c.exec EventUpdate.apply schedule).state.passed := by
  refine invariant_run (Config.step EventUpdate.apply) (I := fun c => ev ∈ c.state.passed)
    ?_ h schedule
  intro c i hc
  exact Config.state_step EventUpdate.apply (I := fun store => ev ∈ store.passed)
    (P := fun _ _ => True) (fun _ update h _ => passed_update h update) hc fun _ _ => trivial

end Passing

section Growth

variable {c : Config EventStore EventUpdate JsError} {first fromBlock : ℕ}

theorem head_le_step (c : Config EventStore EventUpdate JsError) (i : ℕ) :
    c.state.chain.head ≤ (c.step EventUpdate.apply i).state.chain.head := by
  refine Config.state_step EventUpdate.apply
    (I := fun store => c.state.chain.head ≤ store.chain.head) (P := fun _ _ => True) ?_ le_rfl
    fun _ _ => trivial
  intro store update h _
  cases update with
  | mine skipped contents =>
    change c.state.chain.head ≤ store.chain.head + skipped + 1
    omega
  | _ => exact h

/-- A chain grows by logs of later blocks. -/
theorem logs_grow (c : Config EventStore EventUpdate JsError) (i : ℕ) :
    ∃ later, (c.step EventUpdate.apply i).state.chain.logs = c.state.chain.logs ++ later ∧
      ∀ log ∈ later, c.state.chain.head < log.blockNumber := by
  cases hpending : c.pending i with
  | none =>
    rw [Config.step_state_of_not_pending EventUpdate.apply hpending]
    exact ⟨[], (List.append_nil _).symm, fun _ hlog => absurd hlog List.not_mem_nil⟩
  | some update =>
    rw [Config.step_state_of_pending EventUpdate.apply hpending]
    cases update with
    | mine skipped contents =>
      refine ⟨_, rfl, fun log hlog => ?_⟩
      have hblock := blockNumber_of_mem_blockLogs hlog
      omega
    | _ => exact ⟨[], (List.append_nil _).symm, fun _ hlog => absurd hlog List.not_mem_nil⟩

theorem logs_step {log : EventLog} {i : ℕ}
    (h : log ∈ (c.step EventUpdate.apply i).state.chain.logs) :
    log ∈ c.state.chain.logs ∨ c.state.chain.head < log.blockNumber := by
  obtain ⟨later, hlogs, hlater⟩ := logs_grow c i
  rw [hlogs] at h
  exact (List.mem_append.mp h).imp_right (hlater log)

/-- A log keeps its place. -/
theorem place_step {ev : EventLog} {place : ℕ} (h : c.state.chain.logs[place]? = some ev) (i : ℕ) :
    (c.step EventUpdate.apply i).state.chain.logs[place]? = some ev := by
  obtain ⟨later, hlogs, _⟩ := logs_grow c i
  rw [hlogs, List.getElem?_append_left (List.getElem?_eq_some_iff.mp h).1]
  exact h

theorem passed_step {log : EventLog} (h : log ∈ c.state.passed) (i : ℕ) :
    log ∈ (c.step EventUpdate.apply i).state.passed := passed_exec h [i]

theorem underWay_step {log : EventLog} (h : UnderWay log c) (i : ℕ) :
    log ∈ (c.step EventUpdate.apply i).state.passed ∨
      UnderWay log (c.step EventUpdate.apply i) := by
  obtain ⟨j, hj, hissues⟩ := h
  have hnext := Config.issues_step EventUpdate.apply (I := fun store => log ∈ store.passed)
    (fun _ update h => passed_update h update) (fun store _ h => passed_of_handleEvent h store)
    (Or.inr hissues) i
  refine hnext.imp_right fun hleft => ⟨j, ?_, hleft⟩
  rw [Config.length_step]
  exact hj

theorem caughtUpTo_step (h : CaughtUpTo first fromBlock c.state)
    (hhead : fromBlock ≤ c.state.chain.head + 1) (i : ℕ) :
    CaughtUpTo first fromBlock (c.step EventUpdate.apply i).state := by
  intro log hlog hwatched hblock
  rcases logs_step hlog with hold | hnew
  · exact passed_step (h log hold hwatched hblock) i
  · omega

theorem covered_step (h : Covered first fromBlock c)
    (hhead : fromBlock ≤ c.state.chain.head + 1) (i : ℕ) :
    Covered first fromBlock (c.step EventUpdate.apply i) := by
  intro log hlog hwatched hblock
  rcases logs_step hlog with hold | hnew
  · rcases h log hold hwatched hblock with hpassed | hunderWay
    · exact Or.inl (passed_step hpassed i)
    · exact underWay_step hunderWay i
  · omega

end Growth

section Tracking

/-- The log that an update notes as passed. -/
def passes : EventUpdate → Option EventLog
  | .handleEvent ev => some ev
  | _ => none

/-- The update passes no log but this one, and moves lastBlock just behind it. -/
def Concerns (ev : EventLog) (u : EventUpdate) : Prop :=
  (∀ log ∈ passes u, log = ev) ∧ ∀ fromBlock ∈ movesTo u, fromBlock = ev.blockNumber + 1

/-- The update concerns no log of a later block. -/
def Below (head : ℕ) (u : EventUpdate) : Prop :=
  (∀ log ∈ passes u, log.blockNumber ≤ head) ∧ ∀ fromBlock ∈ movesTo u, fromBlock ≤ head + 1

theorem Concerns.below {ev : EventLog} {u : EventUpdate} (h : Concerns ev u) {head : ℕ}
    (hev : ev.blockNumber ≤ head) : Below head u := by
  constructor
  · intro log hlog
    rw [h.1 log hlog]
    exact hev
  · intro fromBlock hmoves
    have hblock := h.2 fromBlock hmoves
    omega

variable {ev : EventLog}

theorem concerns_of_none {u : EventUpdate} (hpasses : passes u = none) (hmoves : movesTo u = none) :
    Concerns ev u := by
  constructor
  · intro log hlog
    cases hpasses.symm.trans hlog
  · intro fromBlock hfrom
    cases hmoves.symm.trans hfrom

theorem includedAddress_concerns (data : Option String) :
    (includedAddress data).Guarantees (fun _ => True) (Concerns ev) fun _ => True := by
  cases data with
  | none => exact trivial
  | some data =>
    unfold includedAddress
    dsimp only
    split
    · exact Program.within_guarantees (fun _ => concerns_of_none rfl rfl) _
    · exact trivial

theorem settleEntry_concerns (userOpHash : String) (success : Bool) :
    (settleEntry userOpHash success).Guarantees (fun _ => True) (Concerns ev) fun _ => True := by
  cases success with
  | true => exact Program.within_guarantees (fun _ => concerns_of_none rfl rfl) _
  | false => exact Program.within_guarantees (fun _ => concerns_of_none rfl rfl) _

theorem getEventAggregator_concerns (transactionHash : Option String) :
    (getEventAggregator transactionHash).Guarantees (fun _ => True) (Concerns ev)
      fun _ => True := by
  refine Program.Guarantees.read_bind fun store _ => ?_
  split
  · exact ⟨concerns_of_none rfl rfl, fun r => by cases r <;> exact trivial⟩
  · exact trivial

theorem handleArgs_concerns (transactionHash : Option String) (args : EventArgs) :
    (handleArgs transactionHash args).Guarantees (fun _ => True) (Concerns ev)
      fun _ => True := by
  cases args with
  | userOperationEvent userOpHash sender paymaster success =>
    exact (settleEntry_concerns userOpHash success).seq fun _ =>
      (includedAddress_concerns sender).seq fun _ => (includedAddress_concerns paymaster).seq
        fun _ => (getEventAggregator_concerns transactionHash).seq includedAddress_concerns
  | accountDeployed factory => exact includedAddress_concerns factory
  | signatureAggregatorChanged aggregator => exact ⟨concerns_of_none rfl rfl, fun _ => trivial⟩
  | other => exact trivial

theorem handleEvent_concerns (via : Delivery) (ev : EventLog) :
    (handleEvent via ev).Guarantees (fun _ => True) (Concerns ev) fun _ => True := by
  have hpass : Concerns ev (.handleEvent ev) := by
    constructor
    · intro log hlog
      exact (Option.some.inj hlog).symm
    · intro fromBlock hfrom
      cases hfrom
  have hmove : Concerns ev (.setLastBlock ((via.blockNumber ev).map (· + 1))) := by
    constructor
    · intro log hlog
      cases hlog
    · intro fromBlock hfrom
      cases via with
      | eventLog => exact (Option.some.inj hfrom).symm
      | payload => cases hfrom
  have hfirst : (Program.update (.handleEvent ev) : EventAsync PUnit).Guarantees (fun _ => True)
      (Concerns ev) fun _ => True := ⟨hpass, fun _ => trivial⟩
  exact hfirst.seq fun _ => (handleArgs_concerns _ _).seq fun _ => ⟨hmove, fun _ => trivial⟩

/-- A call that has started at a block but not noted it yet. -/
def startAt (fromBlock : ℕ) : EventAsync PUnit :=
  (do
    Program.update (.setLastBlock (some fromBlock))
    pure fromBlock : EventAsync ℕ) >>= pastEventsFrom

theorem handlePastEvents_eq : handlePastEvents = .getState fun store =>
    if store.lastBlock.filter (· ≠ 0) = none then startAt (started store).2
    else pastEventsFrom (started store).2 := by
  refine congrArg Program.getState (funext fun store => ?_)
  unfold started
  dsimp only [Program.bind]
  cases store.lastBlock.filter (· ≠ 0) with
  | none => rfl
  | some lastBlock => rfl

/-- What is left of a delivery after its first step concerns the log it is
called with, if there is one at its place. -/
def Delivering (chain : Chain) (place : ℕ) (p : EventAsync PUnit) : Prop :=
  p.Guarantees (fun _ => True)
    (fun u => ∀ fromBlock ∈ movesTo u,
      ∃ ev, chain.logs[place]? = some ev ∧ fromBlock = ev.blockNumber + 1)
    fun _ => True

theorem initEventListener_delivering {via : Delivery} {place : ℕ}
    {next : EventStore → EventAsync PUnit} (h : initEventListener via place = .getState next)
    (store : EventStore) : Delivering store.chain place (next store) := by
  unfold Delivering
  obtain rfl := Program.getState.inj h
  dsimp only [Program.bind]
  split
  · rename_i ev hev
    split
    · exact (handleEvent_concerns via ev).weaken
        fun u hu fromBlock hmoves => ⟨ev, hev, hu.2 fromBlock hmoves⟩
    · exact trivial
  · exact trivial

/-- Where a call can stand: at its first step, at the noting of its block, at
its query, or at the handling of what it was answered up to a head. -/
inductive Calling (first : ℕ) (c : Config EventStore EventUpdate JsError) :
    EventAsync PUnit → Prop
  | fresh : Calling first c handlePastEvents
  | starting {fromBlock : ℕ} : CaughtUpTo first fromBlock c.state →
      fromBlock ≤ c.state.chain.head + 1 → Calling first c (startAt fromBlock)
  | querying {fromBlock : ℕ} : CaughtUpTo first fromBlock c.state →
      fromBlock ≤ c.state.chain.head + 1 → Calling first c (pastEventsFrom fromBlock)
  | handling {head : ℕ} {p : EventAsync PUnit} : head ≤ c.state.chain.head →
      Covered first (head + 1) c → p.Guarantees (fun _ => True) (Below head) (fun _ => True) →
      Calling first c p

/-- What is left of a party is what its program can come to. -/
def InOrder (via : Delivery) (first : ℕ) (c : Config EventStore EventUpdate JsError)
    (p : EventAsync PUnit) : Party → Prop
  | .handlePastEvents => Calling first c p
  | .userOperationEvent place =>
      p = initEventListener via place ∨ Delivering c.state.chain place p
  | .mine _ _ => p.Guarantees (fun _ => True) (fun u => movesTo u = none) fun _ => True

/-- lastBlock is behind no log that nobody passes. -/
structure Tracking (via : Delivery) (parties : List Party) (first : ℕ)
    (c : Config EventStore EventUpdate JsError) : Prop where
  lastBlock : ∀ fromBlock ∈ c.state.lastBlock,
    fromBlock ≤ c.state.chain.head + 1 ∧ Covered first fromBlock c
  threads : ∀ j, c.At j fun p => ∃ party, parties[j]? = some party ∧ InOrder via first c p party

variable {via : Delivery} {parties : List Party} {first : ℕ}
  {c : Config EventStore EventUpdate JsError}

/-- A call that has queried still has to pass all it was answered. -/
theorem covered_of_query {i fromBlock : ℕ} (hcaught : CaughtUpTo first fromBlock c.state)
    (hthread : c.threads[i]? = some (pastEventsFrom fromBlock)) :
    Covered first (c.state.chain.head + 1) (c.step EventUpdate.apply i) := by
  intro log hlog hwatched hblock
  rcases logs_step hlog with hold | hnew
  · by_cases hfrom : fromBlock ≤ log.blockNumber
    · have hnext := Config.step_threads_read EventUpdate.apply hthread
      refine Or.inr ⟨i, (List.getElem?_eq_some_iff.mp hnext).1, fun p hp => ?_⟩
      cases hnext.symm.trans hp
      exact Program.Issues.forM (mem_pastEvents.mpr ⟨hold, hwatched.1, hfrom⟩)
        (handleEvent_issues .eventLog log)
    · exact Or.inl (passed_step (hcaught log hold hwatched (by omega)) i)
  · omega

/-- Everything but the place of a thread in its program stays true of it. -/
theorem InOrder.stay {p : EventAsync PUnit} {party : Party} (h : InOrder via first c p party)
    (i : ℕ) : InOrder via first (c.step EventUpdate.apply i) p party := by
  have hhead := head_le_step c i
  cases party with
  | handlePastEvents =>
    cases h with
    | fresh => exact Calling.fresh
    | starting hcaught hblock =>
      exact Calling.starting (caughtUpTo_step hcaught hblock i) (by omega)
    | querying hcaught hblock =>
      exact Calling.querying (caughtUpTo_step hcaught hblock i) (by omega)
    | handling hle hcovered hp =>
      exact Calling.handling (hle.trans hhead) (covered_step hcovered (by omega) i) hp
  | userOperationEvent place =>
    refine h.imp_right fun hp => hp.weaken fun u hu fromBlock hmoves => ?_
    obtain ⟨ev, hev, hblock⟩ := hu fromBlock hmoves
    exact ⟨ev, place_step hev i, hblock⟩
  | mine skipped contents => exact h

namespace Tracking

/-- A call that starts has missed nothing before its block. -/
theorem caughtUpTo_started (h : Tracking via parties first c) {i : ℕ}
    (hparty : parties[i]? = some .handlePastEvents)
    (hthread : c.threads[i]? = some handlePastEvents) (hstep : KeepsUp parties first c i) :
    CaughtUpTo first (started c.state).2 c.state ∧
      (started c.state).2 ≤ c.state.chain.head + 1 := by
  unfold KeepsUp at hstep
  rw [hparty] at hstep
  have hpassed := hstep hthread
  unfold started at hpassed ⊢
  cases hset : c.state.lastBlock.filter (· ≠ 0) with
  | none =>
    rw [hset] at hpassed
    refine ⟨fun log hlog hwatched hblock => hpassed log hlog hwatched hblock (Or.inr rfl), ?_⟩
    change max 1 (c.state.chain.head - LAST_1000_BLOCKS) ≤ _
    omega
  | some lastBlock =>
    rw [hset] at hpassed
    have hlast : lastBlock ∈ c.state.lastBlock := (Option.mem_filter_iff.mp hset).1
    obtain ⟨hhead, hcovered⟩ := h.lastBlock lastBlock hlast
    refine ⟨fun log hlog hwatched hblock => ?_, hhead⟩
    rcases hcovered log hlog hwatched hblock with hnow | hunderWay
    · exact hnow
    · exact hpassed log hlog hwatched hblock (Or.inl hunderWay)

/-- An update moves lastBlock behind no log that nobody passes. -/
theorem covered_of_pending (h : Tracking via parties first c) {i : ℕ}
    (hstep : KeepsUp parties first c i) {u : EventUpdate} (hpending : c.pending i = some u)
    {fromBlock : ℕ} (hmoves : fromBlock ∈ movesTo u) :
    fromBlock ≤ c.state.chain.head + 1 ∧ Covered first fromBlock c := by
  obtain ⟨next, hthread⟩ := Config.pending_eq_some_iff.mp hpending
  obtain ⟨party, hparty, hp⟩ := h.threads i _ hthread
  generalize hleft : Program.updateState u next = p at hp
  cases party with
  | handlePastEvents =>
    cases hp with
    | fresh => cases hleft
    | starting hcaught hblock =>
      obtain ⟨rfl, _⟩ := Program.updateState.inj hleft
      cases hmoves
      exact ⟨hblock, fun log hlog hwatched hbefore => Or.inl (hcaught log hlog hwatched hbefore)⟩
    | querying hcaught hblock => cases hleft
    | handling hle hcovered hp =>
      subst hleft
      have hbound := hp.1.2 fromBlock hmoves
      refine ⟨by omega, fun log hlog hwatched hbefore => hcovered log hlog hwatched (by omega)⟩
  | userOperationEvent place =>
    rcases hp with hfresh | hp
    · rw [hfresh] at hleft
      cases hleft
    · subst hleft
      obtain ⟨ev, hev, rfl⟩ := hp.1 fromBlock hmoves
      unfold KeepsUp at hstep
      rw [hparty] at hstep
      have hknown := c.state.chain.known ev (List.mem_of_getElem? hev)
      exact ⟨by omega, hstep ev hev u hpending (Option.isSome_iff_exists.mpr ⟨_, hmoves⟩)⟩
  | mine skipped contents =>
    subst hleft
    cases hp.1.symm.trans hmoves

/-- A read takes a party on in its program, and misses nothing either. -/
theorem inOrder_read (h : Tracking via parties first c) {i : ℕ}
    (hstep : KeepsUp parties first c i) {next : EventStore → EventAsync PUnit}
    (hthread : c.threads[i]? = some (.getState next)) {party : Party}
    (hparty : parties[i]? = some party) (hp : InOrder via first c (.getState next) party) :
    InOrder via first (c.step EventUpdate.apply i) (next c.state) party := by
  have hstays {p : EventAsync PUnit} (hp : InOrder via first c p party) := hp.stay i
  generalize hleft : Program.getState next = p at hp
  cases party with
  | handlePastEvents =>
    cases hp with
    | fresh =>
      rw [hleft] at hthread
      obtain ⟨hcaught, hblock⟩ := h.caughtUpTo_started hparty hthread hstep
      obtain rfl := Program.getState.inj (hleft.trans handlePastEvents_eq)
      dsimp only
      split
      · exact hstays (Calling.starting hcaught hblock)
      · exact hstays (Calling.querying hcaught hblock)
    | starting hcaught hblock => cases hleft
    | @querying fromBlock hcaught hblock =>
      rw [hleft] at hthread
      have hnext : next = fun store =>
          (pastEvents store.chain fromBlock).forM (handleEvent .eventLog) :=
        Program.getState.inj hleft
      rw [hnext]
      refine Calling.handling (head_le_step c i) (covered_of_query hcaught hthread) ?_
      refine Program.Guarantees.forM fun ev hev => ?_
      exact (handleEvent_concerns .eventLog ev).weaken fun _ hu =>
        hu.below (c.state.chain.known ev (mem_pastEvents.mp hev).1)
    | handling hle hcovered hp =>
      subst hleft
      exact hstays (Calling.handling hle hcovered (hp c.state trivial))
  | userOperationEvent place =>
    rcases hp with hfresh | hp
    · exact hstays (Or.inr (initEventListener_delivering (hfresh.symm.trans hleft.symm) c.state))
    · subst hleft
      exact hstays (Or.inr (hp c.state trivial))
  | mine skipped contents =>
    subst hleft
    exact hstays (hp c.state trivial)

/-- So does an update. -/
theorem inOrder_update (i : ℕ) {u : EventUpdate}
    {next : Except JsError PUnit → EventAsync PUnit} {party : Party}
    (hp : InOrder via first c (.updateState u next) party) :
    InOrder via first (c.step EventUpdate.apply i) (next (u.apply c.state).2) party := by
  have hstays {p : EventAsync PUnit} (hp : InOrder via first c p party) := hp.stay i
  generalize hleft : Program.updateState u next = p at hp
  cases party with
  | handlePastEvents =>
    cases hp with
    | fresh => cases hleft
    | @starting fromBlock hcaught hblock =>
      obtain ⟨rfl, rfl⟩ := Program.updateState.inj hleft
      exact hstays (Calling.querying hcaught hblock)
    | querying hcaught hblock => cases hleft
    | handling hle hcovered hp =>
      subst hleft
      exact hstays (Calling.handling hle hcovered (hp.2 _))
  | userOperationEvent place =>
    rcases hp with hfresh | hp
    · rw [hfresh] at hleft
      cases hleft
    · subst hleft
      exact hstays (Or.inr (hp.2 _))
  | mine skipped contents =>
    subst hleft
    exact hstays (hp.2 _)

theorem step (h : Tracking via parties first c) {i : ℕ} (hstep : KeepsUp parties first c i) :
    Tracking via parties first (c.step EventUpdate.apply i) where
  lastBlock := by
    have hhead := head_le_step c i
    have hkept (fromBlock : ℕ)
        (hblock : fromBlock ≤ c.state.chain.head + 1 ∧ Covered first fromBlock c) :
        fromBlock ≤ (c.step EventUpdate.apply i).state.chain.head + 1 ∧
          Covered first fromBlock (c.step EventUpdate.apply i) :=
      ⟨by omega, covered_step hblock.2 hblock.1 i⟩
    intro fromBlock hlast
    refine hkept fromBlock ?_
    cases hpending : c.pending i with
    | none =>
      rw [Config.step_state_of_not_pending EventUpdate.apply hpending] at hlast
      exact h.lastBlock fromBlock hlast
    | some u =>
      rw [Config.step_state_of_pending EventUpdate.apply hpending] at hlast
      cases u with
      | setLastBlock lastBlock => exact h.covered_of_pending hstep hpending hlast
      | _ => exact h.lastBlock fromBlock hlast
  threads := by
    intro j
    refine (h.threads j).step_thread EventUpdate.apply i ?_ ?_ ?_
    · rintro p ⟨party, hparty, hp⟩
      exact ⟨party, hparty, hp.stay i⟩
    · rintro rfl next hthread ⟨party, hparty, hp⟩
      exact ⟨party, hparty, h.inOrder_read hstep hthread hparty hp⟩
    · rintro rfl u next _ ⟨party, hparty, hp⟩
      exact ⟨party, hparty, inOrder_update i hp⟩

theorem initial (via : Delivery) (s : State) (chain : Chain) (parties : List Party) (first : ℕ) :
    Tracking via parties first (watching via s chain parties) where
  lastBlock := by
    intro fromBlock hlast
    cases hlast
  threads := by
    intro j p hp
    obtain ⟨party, hparty, rfl⟩ := Option.map_eq_some_iff.mp (List.getElem?_map.symm.trans hp)
    refine ⟨party, hparty, ?_⟩
    cases party with
    | handlePastEvents => exact Calling.fresh
    | userOperationEvent place => exact Or.inl rfl
    | mine skipped contents => exact ⟨rfl, fun _ => trivial⟩

end Tracking

/-- A chain with one log, in the block at its head. -/
def oneLog (block : ℕ) : Chain where
  head := block
  logs := [⟨.accountDeployed "", block, 0, ""⟩]
  ordered := List.pairwise_singleton _ _
  known := by simp

theorem pastEvents_oneLog (block fromBlock : ℕ) : pastEvents (oneLog block) fromBlock =
    if fromBlock ≤ block then [⟨.accountDeployed "", block, 0, ""⟩] else [] := by
  by_cases h : fromBlock ≤ block
  · simp [pastEvents, filters, queryFilter, oneLog, EventArgs.kind, List.filter_cons, h]
  · simp [pastEvents, filters, queryFilter, oneLog, EventArgs.kind, h]

/-- A call about to query stands nowhere else in its program. -/
theorem Calling.caughtUpTo {fromBlock : ℕ} (h : Calling first c (pastEventsFrom fromBlock)) :
    CaughtUpTo first fromBlock c.state := by
  generalize hleft : pastEventsFrom fromBlock = p at h
  cases h with
  | fresh =>
    have hstart := congrFun (Program.getState.inj (hleft.trans handlePastEvents_eq))
      (EventStore.initial (State.initial [] []) Chain.genesis)
    cases hstart
  | starting hcaught hblock => cases hleft
  | @querying other hcaught hblock =>
    have hsame := congrFun (Program.getState.inj hleft)
      (EventStore.initial (State.initial [] []) (oneLog other))
    change (pastEvents (oneLog other) fromBlock).forM (handleEvent .eventLog) =
      (pastEvents (oneLog other) other).forM (handleEvent .eventLog) at hsame
    rw [pastEvents_oneLog, pastEvents_oneLog, if_pos le_rfl] at hsame
    have hle : fromBlock ≤ other := by
      by_contra hlt
      rw [if_neg hlt] at hsame
      cases hsame
    exact fun log hlog hwatched hbefore => hcaught log hlog hwatched (by omega)
  | @handling head _ hle hcovered hp =>
    subst hleft
    have hquery := hp (EventStore.initial (State.initial [] []) (oneLog (fromBlock + head + 1)))
      trivial
    change ((pastEvents (oneLog (fromBlock + head + 1)) fromBlock).forM
      (handleEvent .eventLog)).Guarantees _ _ _ at hquery
    rw [pastEvents_oneLog, if_pos (by omega)] at hquery
    have hbound := hquery.1.1 _ rfl
    change fromBlock + head + 1 ≤ head at hbound
    omega

/-- In every run whose steps keep up: when a call of handlePastEvents returns,
all logs of the three kinds from the first block up to the head it queried
have been passed to handleEvent. -/
theorem none_missed (via : Delivery) (s : State) (chain : Chain) (parties : List Party)
    (before after : List ℕ) (i fromBlock : ℕ) (hparty : parties[i]? = some .handlePastEvents)
    (hcall : ((watching via s chain parties).exec EventUpdate.apply before).threads[i]? =
      some (pastEventsFrom fromBlock))
    (hdone : ((watching via s chain parties).exec EventUpdate.apply
      (before ++ i :: after)).threads[i]? = some (.done (.ok ⟨⟩)))
    (hsteps : AllSteps (Config.step EventUpdate.apply)
      (KeepsUp parties (firstWatched parties (watching via s chain parties) before))
      (watching via s chain parties) before) :
    ∀ log ∈ ((watching via s chain parties).exec EventUpdate.apply before).state.chain.logs,
      Watched (firstWatched parties (watching via s chain parties) before) log →
      log ∈ ((watching via s chain parties).exec EventUpdate.apply
        (before ++ i :: after)).state.passed := by
  have hrun := (allStates_of_allSteps (Config.step EventUpdate.apply)
    (I := Tracking via parties _) (fun _ _ h hstep => Tracking.step h hstep)
    (Tracking.initial via s chain parties _) hsteps).last
  obtain ⟨party, hsame, hcalling⟩ := hrun.threads i _ hcall
  obtain rfl := Option.some.inj (hparty.symm.trans hsame)
  rw [Config.exec_append] at hdone ⊢
  intro log hlog hwatched
  by_cases hblock : fromBlock ≤ log.blockNumber
  · exact passed_of_call hcall hdone (mem_pastEvents.mpr ⟨hlog, hwatched.1, hblock⟩)
  · exact passed_exec (Calling.caughtUpTo hcalling log hlog hwatched (by omega)) (i :: after)

end Tracking

section Concrete

def deployed : EventArgs × String := (.accountDeployed account, hash₁)

def included : EventArgs × String :=
  (.userOperationEvent hash₁ account zeroAddress true, hash₁)

/-- An account is deployed after the first call, and an operation included
more than a thousand blocks later; the listener hears of the operation, and
there is a second call. -/
def deployedUnheard : List Party :=
  [.handlePastEvents, .mine 0 [deployed], .mine 1500 [included], .userOperationEvent 1,
    .handlePastEvents]

def deploymentLog : EventLog := ⟨.accountDeployed account, 1, 0, hash₁⟩

/-- The deployment is there before the first call, and the listener hears of
the operation, in the next block, before the second one. -/
def deployedHeard : List Party :=
  [.handlePastEvents, .mine 0 [deployed], .mine 0 [included], .userOperationEvent 1,
    .handlePastEvents]

def heard : Config EventStore EventUpdate JsError :=
  watching .eventLog (State.initial [] []) Chain.genesis deployedHeard

def heardSteps : List ℕ := [1, 0, 0, 0, 0, 0, 2, 3, 3, 3, 3, 3, 3, 4]

/-- A step keeps up for sure where everything before lastBlock has been passed,
and at the writes of the listener everything up to the head. -/
theorem keepsUp_of_caughtUpTo {parties : List Party} {first : ℕ}
    {c : Config EventStore EventUpdate JsError} {i : ℕ}
    (hstart : CaughtUpTo first (started c.state).2 c.state)
    (hwrites : parties[i]? ≠ some .handlePastEvents → c.Writes (fun store u =>
      (movesTo u).isSome → CaughtUpTo first (store.chain.head + 1) store) i) :
    KeepsUp parties first c i := by
  unfold KeepsUp
  split
  · exact fun _ log hlog hwatched hblock _ => hstart log hlog hwatched hblock
  · rename_i place hparty
    intro ev _ u hpending hmoves log hlog hwatched _
    have hlistens : parties[i]? ≠ some .handlePastEvents := by simp [hparty]
    have hknown := c.state.chain.known log hlog
    exact Or.inl (hwrites hlistens u hpending hmoves log hlog hwatched (by omega))
  · exact trivial

theorem heard_caughtUpTo :
    AllSteps (Config.step EventUpdate.apply)
      (fun c i => CaughtUpTo 1 (started c.state).2 c.state ∧
        (deployedHeard[i]? ≠ some .handlePastEvents → c.Writes (fun store u =>
          (movesTo u).isSome → CaughtUpTo 1 (store.chain.head + 1) store) i))
      heard heardSteps := by
  decide +kernel

theorem none_missed_when_heard :
    deploymentLog ∈ (heard.exec EventUpdate.apply (heardSteps ++ [4])).state.passed := by
  have hfirst : firstWatched deployedHeard heard heardSteps = 1 := by decide +kernel
  refine none_missed .eventLog (State.initial [] []) Chain.genesis deployedHeard heardSteps [] 4 3
    rfl rfl rfl ?_ deploymentLog (by decide +kernel) ?_
  · change AllSteps _ (KeepsUp deployedHeard (firstWatched deployedHeard heard _)) heard _
    rw [hfirst]
    exact heard_caughtUpTo.mono _ fun _ _ h => keepsUp_of_caughtUpTo h.1 h.2
  · change Watched (firstWatched deployedHeard heard _) deploymentLog
    rw [hfirst]
    decide

/-- No call returns before every log to be watched has been passed, whatever
block it queries from. -/
def NoneMissed (via : Delivery) : Prop :=
  ∀ (s : State) (chain : Chain) (parties : List Party) (before after : List ℕ) (i fromBlock : ℕ),
    parties[i]? = some .handlePastEvents →
    ((watching via s chain parties).exec EventUpdate.apply before).threads[i]? =
      some (pastEventsFrom fromBlock) →
    ((watching via s chain parties).exec EventUpdate.apply
      (before ++ i :: after)).threads[i]? = some (.done (.ok ⟨⟩)) →
    ∀ log ∈ ((watching via s chain parties).exec EventUpdate.apply before).state.chain.logs,
      Watched (firstWatched parties (watching via s chain parties) before) log →
      log ∈ ((watching via s chain parties).exec EventUpdate.apply
        (before ++ i :: after)).state.passed

/-- However the listener hands over the event, the second call queries from
a block after the deployment, which no call has passed to handleEvent. -/
theorem deployment_missed : ¬NoneMissed .eventLog ∧ ¬NoneMissed .payload := by
  constructor
  · intro h
    have hall := h (State.initial [] []) Chain.genesis deployedUnheard
      [0, 0, 0, 1, 2, 3, 3, 3, 3, 3, 3, 4] [] 4 _ rfl rfl rfl
    exact absurd hall (by decide)
  · intro h
    have hall := h (State.initial [] []) Chain.genesis deployedUnheard
      [0, 0, 0, 1, 2, 3, 3, 3, 3, 3, 4, 4] [4, 4, 4, 4, 4, 4, 4] 4 _ rfl rfl rfl
    exact absurd hall (by decide)

end Concrete

end Bundler.MissedLogs
