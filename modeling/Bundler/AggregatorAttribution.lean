import Bundler.EventManager

/-!
Which aggregator an operation's event is attributed to. The aggregator is
announced before the operations of its transaction, and remembered with that
transaction. But a catch-up handles all UserOperationEvents first, so it
finds only what was remembered before it, until the first event of another
transaction resets that.
-/
namespace Bundler.AggregatorAttribution

open AsyncPrograms DataModel StateService EventManager

/-- The aggregator a SignatureAggregatorChanged announces. -/
def announced : EventArgs → Option String
  | .signatureAggregatorChanged aggregator => some aggregator
  | _ => none

/-- The last aggregator announced before the event in its transaction. -/
def precedingAggregator (chain : Chain) (ev : EventLog) : Option String :=
  ((chain.logs.filter fun log => log.Before ev ∧ log.transactionHash = ev.transactionHash).filterMap
    fun log => announced log.args).getLast?

/-- What getEventAggregator answers for the event once the others are handled. -/
def answeredAfter (store : EventStore) (done : List EventLog) (ev : EventLog) :
    Except JsError (Option String) :=
  (Program.run EventUpdate.apply (getEventAggregator (some ev.transactionHash))
    (Program.run EventUpdate.apply (done.forM (handleEvent .eventLog)) store).1).2

/-- Every UserOperationEvent that a call handles is attributed to the
aggregator announced for it. -/
def AttributesRightly (store : EventStore) (fromBlock : ℕ) : Prop :=
  ∀ done ev rest, pastEvents store.chain fromBlock = done ++ ev :: rest →
    ev.args.kind = some .userOperationEvent →
      answeredAfter store done ev = .ok (precedingAggregator store.chain ev)

/-- The event is in the transaction whose aggregator is remembered. -/
def remembered (store : EventStore) (ev : EventLog) : Bool :=
  store.eventAggregatorTxHash = some ev.transactionHash

/-- The first events of the remembered transaction have its aggregator, and
nothing was announced for any event after them. -/
structure NothingAnnounced (store : EventStore) (fromBlock : ℕ) : Prop where
  leading : ∀ ev ∈ (queryFilter store.chain .userOperationEvent fromBlock).takeWhile
      (remembered store), precedingAggregator store.chain ev = store.eventAggregator
  others : ∀ ev ∈ (queryFilter store.chain .userOperationEvent fromBlock).dropWhile
      (remembered store), ∀ log ∈ store.chain.logs, log.Before ev →
        log.transactionHash = ev.transactionHash → announced log.args = none

section Attribution

variable {store : EventStore} {chain : Chain} {fromBlock : ℕ} {ev : EventLog}

theorem answeredAfter_eq (store : EventStore) (done : List EventLog) (ev : EventLog) :
    answeredAfter store done ev =
      .ok (aggregatorFor (done.foldl (handled .eventLog) store) (some ev.transactionHash)) := by
  unfold answeredAfter
  rw [Program.run_forM EventUpdate.apply (handleEvent_run .eventLog), getEventAggregator_run]

theorem precedingAggregator_eq_none_iff :
    precedingAggregator chain ev = none ↔ ∀ log ∈ chain.logs, log.Before ev →
      log.transactionHash = ev.transactionHash → announced log.args = none := by
  unfold precedingAggregator
  rw [List.getLast?_eq_none_iff, List.filterMap_eq_nil_iff]
  simp only [List.mem_filter, decide_eq_true_eq, and_imp]

/-- The UserOperationEvents come first among the answers to the queries. -/
theorem pastEvents_split (chain : Chain) (fromBlock : ℕ) :
    ∃ others, pastEvents chain fromBlock =
      queryFilter chain .userOperationEvent fromBlock ++ others ∧
        ∀ ev ∈ others, ev.args.kind ≠ some .userOperationEvent := by
  refine ⟨queryFilter chain .accountDeployed fromBlock ++
    (queryFilter chain .signatureAggregatorChanged fromBlock ++ []), rfl, ?_⟩
  intro ev hev
  unfold queryFilter at hev
  simp only [List.append_nil, List.mem_append, List.mem_filter, decide_eq_true_eq] at hev
  rcases hev with ⟨_, hkind, _⟩ | ⟨_, hkind, _⟩
  · rw [hkind]
    decide
  · rw [hkind]
    decide

/-- So the events handled before one of them are of that kind as well. -/
theorem splits_iff {P : List EventLog → EventLog → Prop} :
    (∀ done ev rest, pastEvents chain fromBlock = done ++ ev :: rest →
        ev.args.kind = some .userOperationEvent → P done ev) ↔
      ∀ done ev rest, queryFilter chain .userOperationEvent fromBlock = done ++ ev :: rest →
        P done ev := by
  obtain ⟨others, hsplit, hothers⟩ := pastEvents_split chain fromBlock
  rw [hsplit]
  constructor
  · intro h done ev rest hdone
    refine h done ev (rest ++ others) ?_ ?_
    · rw [hdone, List.append_assoc]
      rfl
    · have hev : ev ∈ queryFilter chain .userOperationEvent fromBlock := hdone ▸ by simp
      exact (decide_eq_true_eq.mp (List.mem_filter.mp hev).2).1
  · intro h done ev rest hdone hkind
    have hcut := List.append_eq_append_iff.mp hdone
    rcases hcut with ⟨between, rfl, hbetween⟩ | ⟨between, hfirst, hrest⟩
    · have hev : ev ∈ others := hbetween ▸ by simp
      exact absurd hkind (hothers ev hev)
    · cases between with
      | nil =>
        have hev : ev ∈ [] ++ others := hrest ▸ List.mem_cons_self
        exact absurd hkind (hothers ev hev)
      | cons first between =>
        obtain ⟨rfl, _⟩ := List.cons_eq_cons.mp hrest
        exact h done ev between hfirst

/-- The remembered aggregator answers for the events of its transaction up to
the first other one, which resets it. -/
theorem answers_iff {events : List EventLog}
    (hevents : ∀ ev ∈ events, ev.args.kind = some .userOperationEvent)
    (expected : EventLog → Option String) (store : EventStore) :
    (∀ done ev rest, events = done ++ ev :: rest →
        aggregatorFor (done.foldl (handled .eventLog) store) (some ev.transactionHash) =
          expected ev) ↔
      (∀ ev ∈ events.takeWhile (remembered store), expected ev = store.eventAggregator) ∧
        ∀ ev ∈ events.dropWhile (remembered store), expected ev = none := by
  induction events generalizing store with
  | nil => simp
  | cons first events ih =>
    rw [List.forall_mem_cons] at hevents
    have hsplits : (∀ done ev rest, first :: events = done ++ ev :: rest →
        aggregatorFor (done.foldl (handled .eventLog) store) (some ev.transactionHash) =
          expected ev) ↔
        aggregatorFor store (some first.transactionHash) = expected first ∧
          ∀ done ev rest, events = done ++ ev :: rest →
            aggregatorFor (done.foldl (handled .eventLog) (handled .eventLog store first))
              (some ev.transactionHash) = expected ev := by
      constructor
      · intro h
        exact ⟨h [] first events rfl, fun done ev rest hrest =>
          h (first :: done) ev rest (by rw [hrest]; rfl)⟩
      · rintro ⟨hfirst, hrest⟩ done ev rest hdone
        rcases List.cons_eq_append_iff.mp hdone with ⟨rfl, hcons⟩ | ⟨done, rfl, hafter⟩
        · obtain ⟨rfl, _⟩ := List.cons_eq_cons.mp hcons
          exact hfirst
        · exact hrest done ev rest hafter
    have hkept : (handled .eventLog store first).eventAggregator =
        aggregatorFor store (some first.transactionHash) ∧
          (handled .eventLog store first).eventAggregatorTxHash = some first.transactionHash := by
      cases hargs : first.args with
      | userOperationEvent userOpHash sender paymaster success =>
        unfold handled
        rw [hargs]
        exact ⟨rfl, rfl⟩
      | accountDeployed factory => cases hargs ▸ hevents.1
      | signatureAggregatorChanged aggregator => cases hargs ▸ hevents.1
      | other => cases hargs ▸ hevents.1
    rw [hsplits, ih hevents.2]
    by_cases hfirst : remembered store first
    · have htx : store.eventAggregatorTxHash = some first.transactionHash :=
        of_decide_eq_true hfirst
      have hanswer : aggregatorFor store (some first.transactionHash) = store.eventAggregator :=
        if_neg (not_not.mpr htx.symm)
      have hsame : remembered (handled .eventLog store first) = remembered store := by
        funext ev
        unfold remembered
        rw [hkept.2, htx]
      rw [hkept.1, hanswer, hsame, List.takeWhile_cons_of_pos hfirst,
        List.dropWhile_cons_of_pos hfirst, List.forall_mem_cons, and_assoc, eq_comm]
    · have htx : some first.transactionHash ≠ store.eventAggregatorTxHash :=
        fun htx => hfirst (decide_eq_true htx.symm)
      have hanswer : aggregatorFor store (some first.transactionHash) = none := if_pos htx
      have hall : ∀ Q : EventLog → Prop,
          ((∀ ev ∈ events.takeWhile (remembered (handled .eventLog store first)), Q ev) ∧
            ∀ ev ∈ events.dropWhile (remembered (handled .eventLog store first)), Q ev) ↔
              ∀ ev ∈ events, Q ev := by
        intro Q
        rw [← List.forall_mem_append, List.takeWhile_append_dropWhile]
      rw [hkept.1, hanswer, hall, List.takeWhile_cons_of_neg hfirst,
        List.dropWhile_cons_of_neg hfirst, List.forall_mem_cons, eq_comm]
      simp

end Attribution

/-- Every operation is attributed rightly exactly when nothing was announced
for it that had to be found. -/
theorem attributes_rightly_iff (store : EventStore) (fromBlock : ℕ) :
    AttributesRightly store fromBlock ↔ NothingAnnounced store fromBlock := by
  have hkinds : ∀ ev ∈ queryFilter store.chain .userOperationEvent fromBlock,
      ev.args.kind = some .userOperationEvent :=
    fun ev hev => (decide_eq_true_eq.mp (List.mem_filter.mp hev).2).1
  unfold AttributesRightly
  rw [splits_iff]
  simp only [answeredAfter_eq, Except.ok.injEq]
  rw [answers_iff hkinds]
  constructor
  · rintro ⟨hleading, hothers⟩
    exact ⟨hleading, fun ev hev => precedingAggregator_eq_none_iff.mp (hothers ev hev)⟩
  · intro h
    exact ⟨h.leading, fun ev hev => precedingAggregator_eq_none_iff.mpr (h.others ev hev)⟩

section Concrete

/-- One transaction: an aggregator is announced, then an operation included. -/
def aggregatedChain : Chain :=
  Chain.genesis.mine 0
    [(.signatureAggregatorChanged sponsor, hash₂),
      (.userOperationEvent hash₁ account zeroAddress true, hash₂)]

end Concrete

/-- A fresh manager does not find the aggregator. -/
theorem aggregator_not_found :
    ¬AttributesRightly (.initial (State.initial [] []) aggregatedChain) 1 := by
  intro h
  have hanswer := h [] ⟨.userOperationEvent hash₁ account zeroAddress true, 1, 1, hash₂⟩
    [⟨.signatureAggregatorChanged sponsor, 1, 0, hash₂⟩] (by decide) rfl
  rw [answeredAfter_eq] at hanswer
  exact absurd (Except.ok.inj hanswer) (by decide)

end Bundler.AggregatorAttribution
