import Bundler.EventManager

/-!
Catching up with past events, call after call, on a growing chain. The
answers to the three queries of a call are handled kind by kind, and each
log moves lastBlock behind its own block. So lastBlock goes back where a
log of a later kind is in an earlier block, and the next call queries
blocks again that were handled already.
-/
namespace Bundler.PastLogs

open KeyedRecords AsyncPrograms DataModel StateService EventManager Runs

/-- Blocks with their contents, each after a number of empty ones. -/
abbrev Blocks := List (ℕ × List (EventArgs × String))

def mineAll (store : EventStore) (blocks : Blocks) : EventStore :=
  { store with
    chain := blocks.foldl (fun chain block => chain.mine block.1 block.2) store.chain }

/-- The chain grows, or handlePastEvents is called; it may also grow between
the call's request for the block number and its queries. -/
inductive CatchUp
  | mine (blocks : Blocks)
  | handlePastEvents (awaited : Blocks)

def CatchUp.perform (store : EventStore) : CatchUp → EventStore
  | .mine blocks => mineAll store blocks
  | .handlePastEvents awaited =>
      match Program.run EventUpdate.apply startBlock store with
      | (store, .ok fromBlock) =>
          (Program.run EventUpdate.apply (pastEventsFrom fromBlock) (mineAll store awaited)).1
      | (store, .error _) => store

/-- No log was passed to handleEvent twice, and lastBlock never decreased. -/
def HandlesOnce (store : EventStore) : Prop :=
  store.passed.Nodup ∧ store.cursors.Pairwise (· ≤ ·)

/-- The place of a kind in the order of the queries. -/
def rank : EventKind → ℕ
  | .userOperationEvent => 0
  | .accountDeployed => 1
  | .signatureAggregatorChanged => 2

/-- From the block on, no log is of a kind queried later than that of a log
in a later block. -/
def KindsInOrder (chain : Chain) (fromBlock : ℕ) : Prop :=
  ∀ log ∈ chain.logs, ∀ later ∈ chain.logs,
    fromBlock ≤ log.blockNumber → log.blockNumber < later.blockNumber →
    ∀ kind ∈ log.args.kind, ∀ laterKind ∈ later.args.kind, rank kind ≤ rank laterKind

/-- A call finds the kinds in order from the block it queries from. -/
def QueriesInOrder (store : EventStore) : CatchUp → Prop
  | .mine _ => True
  | .handlePastEvents awaited =>
      KindsInOrder (mineAll store awaited).chain (started store).2

section Concrete

instance (store : EventStore) : Decidable (HandlesOnce store) :=
  inferInstanceAs (Decidable (_ ∧ _))

instance (chain : Chain) (fromBlock : ℕ) : Decidable (KindsInOrder chain fromBlock) :=
  inferInstanceAs (Decidable (∀ _ ∈ _, ∀ _ ∈ _, _ → _ → ∀ _ ∈ _, ∀ _ ∈ _, _))

instance (store : EventStore) (action : CatchUp) : Decidable (QueriesInOrder store action) := by
  unfold QueriesInOrder
  split <;> infer_instance

end Concrete

section Queries

variable {chain : Chain} {fromBlock : ℕ}

theorem queryFilter_ordered (kind : EventKind) :
    (queryFilter chain kind fromBlock).Pairwise EventLog.Before :=
  chain.ordered.filter _

theorem EventLog.Before.le {log later : EventLog} (h : log.Before later) :
    log.blockNumber ≤ later.blockNumber := by
  rcases h with h | h
  · omega
  · omega

theorem EventLog.Before.ne {log later : EventLog} (h : log.Before later) : log ≠ later := by
  rintro rfl
  rcases h with h | h
  · omega
  · omega

theorem mem_queryFilter {kind : EventKind} {log : EventLog} :
    log ∈ queryFilter chain kind fromBlock ↔
      log ∈ chain.logs ∧ log.args.kind = some kind ∧ fromBlock ≤ log.blockNumber := by
  unfold queryFilter
  rw [List.mem_filter, decide_eq_true_eq]

/-- The queries go out in the order of the ranks. -/
theorem pairwise_filters_iff {R : EventKind → EventKind → Prop} :
    filters.Pairwise R ↔ ∀ kind other, rank kind < rank other → R kind other := by
  constructor
  · intro h kind other hrank
    have hpairs : (R .userOperationEvent .accountDeployed ∧
        R .userOperationEvent .signatureAggregatorChanged) ∧
          R .accountDeployed .signatureAggregatorChanged := by
      simpa [filters] using h
    obtain ⟨⟨hfirst, hsecond⟩, hthird⟩ := hpairs
    cases kind <;> cases other <;>
      first | exact hfirst | exact hsecond | exact hthird | exact absurd hrank (by decide)
  · intro h
    have hranked : filters.Pairwise fun kind other => rank kind < rank other := by decide
    exact hranked.imp fun hrank => h _ _ hrank

/-- The answers are in block order exactly when the kinds are in order. -/
theorem pastEvents_pairwise_iff :
    (pastEvents chain fromBlock).Pairwise (fun log later => log.blockNumber ≤ later.blockNumber) ↔
      KindsInOrder chain fromBlock := by
  unfold pastEvents
  rw [List.pairwise_flatMap]
  have hsame : ∀ kind ∈ filters, (queryFilter chain kind fromBlock).Pairwise
      fun log later => log.blockNumber ≤ later.blockNumber :=
    fun kind _ => (queryFilter_ordered kind).imp EventLog.Before.le
  rw [pairwise_filters_iff]
  constructor
  · rintro ⟨_, hpairs⟩ log hlog later hlater hfrom hblock kind hkind laterKind hlaterKind
    by_contra hrank
    have hother : rank laterKind < rank kind := by omega
    have hle := hpairs laterKind kind hother
      later (mem_queryFilter.mpr ⟨hlater, hlaterKind, by omega⟩)
      log (mem_queryFilter.mpr ⟨hlog, hkind, hfrom⟩)
    omega
  · intro h
    refine ⟨hsame, ?_⟩
    intro kind other hrank log hlog later hlater
    by_contra hblock
    obtain ⟨hlog, hkind, _⟩ := mem_queryFilter.mp hlog
    obtain ⟨hlater, hother, hfrom⟩ := mem_queryFilter.mp hlater
    have := h later hlater log hlog hfrom (by omega) other hother kind hkind
    omega

theorem pastEvents_nodup : (pastEvents chain fromBlock).Nodup := by
  unfold pastEvents List.Nodup
  rw [List.pairwise_flatMap, pairwise_filters_iff]
  refine ⟨fun kind _ => (queryFilter_ordered kind).imp EventLog.Before.ne, ?_⟩
  rintro kind other hrank log hlog _ hother rfl
  obtain ⟨_, hkind, _⟩ := mem_queryFilter.mp hlog
  obtain ⟨_, hsame, _⟩ := mem_queryFilter.mp hother
  cases hkind.symm.trans hsame
  omega

end Queries

section Handling

variable (events : List EventLog) (store : EventStore)

/-- Handling events appends them to what was passed, and moves lastBlock
behind each of them in turn. -/
theorem handled_passed : (events.foldl (handled .eventLog) store).passed =
    store.passed ++ events := by
  induction events generalizing store with
  | nil => exact (List.append_nil _).symm
  | cons ev events ih =>
    rw [List.foldl_cons, ih]
    exact List.append_assoc _ [ev] events

theorem handled_cursors : (events.foldl (handled .eventLog) store).cursors =
    store.cursors ++ events.map fun ev => ev.blockNumber + 1 := by
  induction events generalizing store with
  | nil => exact (List.append_nil _).symm
  | cons ev events ih =>
    rw [List.foldl_cons, ih]
    exact List.append_assoc _ [ev.blockNumber + 1] _

theorem handled_lastBlock (last : EventLog) :
    ((events ++ [last]).foldl (handled .eventLog) store).lastBlock =
      some (last.blockNumber + 1) := by
  rw [List.foldl_append]
  rfl

theorem perform_handlePastEvents (awaited : Blocks) :
    CatchUp.perform store (.handlePastEvents awaited) =
      (pastEvents (mineAll store awaited).chain (started store).2).foldl (handled .eventLog)
        (mineAll (started store).1 awaited) := by
  unfold CatchUp.perform
  dsimp only
  rw [startBlock_run]
  dsimp only
  rw [pastEventsFrom_run]
  unfold started
  cases store.lastBlock.filter (· ≠ 0) with
  | none => rfl
  | some lastBlock => rfl

end Handling

section Runs

/-- All that was passed is in blocks before lastBlock, and lastBlock took no
greater value so far. -/
structure CaughtUp (store : EventStore) : Prop where
  once : store.passed.Nodup
  increasing : store.cursors.Pairwise (· ≤ ·)
  behind : ∀ log ∈ store.passed, log.blockNumber < store.lastBlock.getD 0
  atMost : ∀ cursor ∈ store.cursors, cursor ≤ store.lastBlock.getD 0

theorem caughtUp_started {store : EventStore} (h : CaughtUp store) :
    CaughtUp (started store).1 ∧ (started store).1.lastBlock.getD 0 = (started store).2 := by
  unfold started
  cases hlast : store.lastBlock.filter (· ≠ 0) with
  | some lastBlock =>
    have hsome := (Option.filter_eq_some_iff.mp hlast).1
    refine ⟨h, ?_⟩
    dsimp only
    rw [hsome]
    rfl
  | none =>
    have hzero : store.lastBlock.getD 0 = 0 := by
      cases hstore : store.lastBlock with
      | none => rfl
      | some lastBlock =>
        rw [hstore] at hlast
        by_contra hne
        have hkept : (some lastBlock).filter (· ≠ 0) = some lastBlock :=
          Option.filter_eq_some_iff.mpr ⟨rfl, decide_eq_true hne⟩
        cases hlast.symm.trans hkept
    refine ⟨⟨h.once, ?_, ?_, ?_⟩, rfl⟩
    · refine List.pairwise_append.mpr ⟨h.increasing, List.pairwise_singleton _ _, ?_⟩
      intro cursor hcursor _ _
      have := h.atMost cursor hcursor
      omega
    · intro log hlog
      have := h.behind log hlog
      omega
    · intro cursor hcursor
      rcases List.mem_append.mp hcursor with hold | hnew
      · have := h.atMost cursor hold
        omega
      · rw [List.mem_singleton.mp hnew]
        rfl

/-- Events in block order, none of them before lastBlock, keep it so. -/
theorem caughtUp_handled {store : EventStore} (h : CaughtUp store) {events : List EventLog}
    (hnodup : events.Nodup)
    (hordered : events.Pairwise fun log later => log.blockNumber ≤ later.blockNumber)
    (hfrom : ∀ ev ∈ events, store.lastBlock.getD 0 ≤ ev.blockNumber) :
    CaughtUp (events.foldl (handled .eventLog) store) := by
  have honce : (store.passed ++ events).Nodup := by
    refine List.nodup_append.mpr ⟨h.once, hnodup, ?_⟩
    rintro log hlog _ hev rfl
    have hbehind := h.behind log hlog
    have hahead := hfrom log hev
    omega
  have hincreasing : (store.cursors ++ events.map fun ev : EventLog => ev.blockNumber + 1).Pairwise
      (· ≤ ·) := by
    refine List.pairwise_append.mpr ⟨h.increasing, ?_, ?_⟩
    · exact List.pairwise_map.mpr (hordered.imp fun hle => by omega)
    · intro cursor hcursor next hnext
      obtain ⟨ev, hev, rfl⟩ := List.mem_map.mp hnext
      have hatMost := h.atMost cursor hcursor
      have hahead := hfrom ev hev
      omega
  rcases List.eq_nil_or_concat' events with rfl | ⟨init, last, rfl⟩
  · exact h
  · have hlast : ∀ ev ∈ init ++ [last], ev.blockNumber ≤ last.blockNumber := by
      intro ev hev
      rcases List.mem_append.mp hev with hinit | hlast
      · exact (List.pairwise_append.mp hordered).2.2 ev hinit last (List.mem_singleton_self _)
      · rw [List.mem_singleton.mp hlast]
    have hcursor := handled_lastBlock init store last
    refine ⟨?_, ?_, ?_, ?_⟩
    · rw [handled_passed]
      exact honce
    · rw [handled_cursors]
      exact hincreasing
    · rw [handled_passed, hcursor]
      intro log hlog
      change log.blockNumber < last.blockNumber + 1
      rcases List.mem_append.mp hlog with hold | hnew
      · have hbehind := h.behind log hold
        have hahead := hfrom last (by simp)
        omega
      · have := hlast log hnew
        omega
    · rw [handled_cursors, hcursor]
      intro cursor hmem
      change cursor ≤ last.blockNumber + 1
      rcases List.mem_append.mp hmem with hold | hnew
      · have hatMost := h.atMost cursor hold
        have hahead := hfrom last (by simp)
        omega
      · obtain ⟨ev, hev, rfl⟩ := List.mem_map.mp hnew
        have := hlast ev hev
        omega

theorem caughtUp_perform {store : EventStore} (action : CatchUp) (h : CaughtUp store)
    (horder : QueriesInOrder store action) : CaughtUp (CatchUp.perform store action) := by
  cases action with
  | mine blocks => exact ⟨h.once, h.increasing, h.behind, h.atMost⟩
  | handlePastEvents awaited =>
    obtain ⟨hstarted, hfrom⟩ := caughtUp_started h
    rw [perform_handlePastEvents]
    have hmined : CaughtUp (mineAll (started store).1 awaited) :=
      ⟨hstarted.once, hstarted.increasing, hstarted.behind, hstarted.atMost⟩
    refine caughtUp_handled hmined pastEvents_nodup (pastEvents_pairwise_iff.mpr horder) ?_
    intro ev hev
    obtain ⟨_, _, hblock⟩ := mem_pastEvents.mp hev
    exact hfrom.trans_le hblock

/-- Where lastBlock did not decrease, the call found the kinds in order. -/
theorem queriesInOrder_of_increasing (store : EventStore) (action : CatchUp)
    (h : HandlesOnce (CatchUp.perform store action)) : QueriesInOrder store action := by
  cases action with
  | mine blocks => exact trivial
  | handlePastEvents awaited =>
    have hcursors := h.2
    rw [perform_handlePastEvents, handled_cursors] at hcursors
    have hevents := List.pairwise_map.mp (List.pairwise_append.mp hcursors).2.1
    exact pastEvents_pairwise_iff.mp (hevents.imp fun hle => by omega)

/-- Over any number of calls while the chain grows, no log is handled twice
and lastBlock never decreases exactly when each call finds the kinds in order. -/
theorem handled_once_iff (s : State) (chain : Chain) (actions : List CatchUp) :
    AllStates CatchUp.perform HandlesOnce (EventStore.initial s chain) actions ↔
      AllSteps CatchUp.perform QueriesInOrder (EventStore.initial s chain) actions := by
  constructor
  · exact fun h => h.allSteps CatchUp.perform queriesInOrder_of_increasing
  · intro h
    have hinitial : CaughtUp (EventStore.initial s chain) :=
      ⟨List.nodup_nil, List.Pairwise.nil, nofun, nofun⟩
    have hall := allStates_of_allSteps CatchUp.perform
      (fun _ action hcaught horder => caughtUp_perform action hcaught horder) hinitial h
    exact hall.imp CatchUp.perform fun _ hcaught => ⟨hcaught.once, hcaught.increasing⟩

end Runs

section Concrete

/-- An account is deployed in one block, and its operation included in the next. -/
def deployedThenIncluded : Blocks :=
  [(0, [(.accountDeployed account, hash₁)]),
    (0, [(.userOperationEvent hash₁ account zeroAddress true, hash₂)])]

/-- The second call handles the event of the operation again. -/
theorem handled_twice :
    ¬∀ (s : State) (chain : Chain) (actions : List CatchUp),
      AllStates CatchUp.perform HandlesOnce (EventStore.initial s chain) actions := by
  intro h
  have hall := h (State.initial [] []) Chain.genesis
    [.mine deployedThenIncluded, .handlePastEvents [], .handlePastEvents []]
  exact absurd hall.last (by decide)

end Concrete

end Bundler.PastLogs
