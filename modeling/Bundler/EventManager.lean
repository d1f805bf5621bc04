import Bundler.Interleavings
import Bundler.StrandedOperations

/-!
The event manager: what it does for an event of the entry point, the live
listener, and the catching up with past events from the block it got to.
The chain of logs only grows, and a query is answered from the chain as it
is at its access: the three queries of one call go out together and see one
head. The store keeps, beside the source's variables, which logs were passed
to handleEvent and which values lastBlock took.
-/
namespace Bundler.EventManager

open KeyedRecords AsyncPrograms DataModel StateService ReputationManager MempoolManager
  BundleManager StrandedOperations

inductive EventKind
  | userOperationEvent
  | accountDeployed
  | signatureAggregatorChanged
  deriving DecidableEq, Repr

/-- The decoded arguments that are read. Other events of the entry point have none. -/
inductive EventArgs
  | userOperationEvent (userOpHash sender paymaster : String) (success : Bool)
  | accountDeployed (factory : String)
  | signatureAggregatorChanged (aggregator : String)
  | other
  deriving DecidableEq, Repr

def EventArgs.kind : EventArgs → Option EventKind
  | .userOperationEvent _ _ _ _ => some .userOperationEvent
  | .accountDeployed _ => some .accountDeployed
  | .signatureAggregatorChanged _ => some .signatureAggregatorChanged
  | .other => none

structure EventLog where
  args : EventArgs
  blockNumber : ℕ
  index : ℕ
  transactionHash : String
  deriving DecidableEq, Repr

def EventLog.Before (log later : EventLog) : Prop :=
  log.blockNumber < later.blockNumber ∨
    log.blockNumber = later.blockNumber ∧ log.index < later.index

instance (log later : EventLog) : Decidable (log.Before later) :=
  inferInstanceAs (Decidable (_ ∨ _))

section Chains

/-- The logs of the blocks up to the head, in chain order. -/
structure Chain where
  head : ℕ
  logs : List EventLog
  ordered : logs.Pairwise EventLog.Before
  known : ∀ log ∈ logs, log.blockNumber ≤ head

def Chain.genesis : Chain := ⟨0, [], List.Pairwise.nil, nofun⟩

/-- The logs of one block, each with the hash of its transaction. -/
def blockLogs (number : ℕ) (contents : List (EventArgs × String)) : List EventLog :=
  contents.mapIdx fun index content => ⟨content.1, number, index, content.2⟩

theorem blockNumber_of_mem_blockLogs {number : ℕ} {contents : List (EventArgs × String)}
    {log : EventLog} (h : log ∈ blockLogs number contents) : log.blockNumber = number := by
  obtain ⟨_, _, rfl⟩ := List.mem_mapIdx.mp h
  rfl

theorem blockLogs_ordered (number : ℕ) (contents : List (EventArgs × String)) :
    (blockLogs number contents).Pairwise EventLog.Before := by
  unfold blockLogs
  rw [List.pairwise_iff_getElem]
  intro i j hi hj hij
  rw [List.getElem_mapIdx, List.getElem_mapIdx]
  exact Or.inr ⟨rfl, hij⟩

/-- The chain with one more block, after some empty ones. -/
def Chain.mine (chain : Chain) (skipped : ℕ) (contents : List (EventArgs × String)) : Chain where
  head := chain.head + skipped + 1
  logs := chain.logs ++ blockLogs (chain.head + skipped + 1) contents
  ordered := by
    refine List.pairwise_append.mpr ⟨chain.ordered, blockLogs_ordered _ _, ?_⟩
    intro log hlog later hlater
    have hold := chain.known log hlog
    have hnew := blockNumber_of_mem_blockLogs hlater
    exact Or.inl (by omega)
  known := by
    intro log hlog
    rcases List.mem_append.mp hlog with hold | hnew
    · have := chain.known log hold
      omega
    · have := blockNumber_of_mem_blockLogs hnew
      omega

def queryFilter (chain : Chain) (kind : EventKind) (fromBlock : ℕ) : List EventLog :=
  chain.logs.filter fun log => log.args.kind = some kind ∧ fromBlock ≤ log.blockNumber

def filters : List EventKind :=
  [.userOperationEvent, .accountDeployed, .signatureAggregatorChanged]

/-- The answers to the queries, one after the other. -/
def pastEvents (chain : Chain) (fromBlock : ℕ) : List EventLog :=
  filters.flatMap fun kind => queryFilter chain kind fromBlock

theorem mem_filters (kind : EventKind) : kind ∈ filters := by
  cases kind with
  | userOperationEvent => decide
  | accountDeployed => decide
  | signatureAggregatorChanged => decide

theorem mem_pastEvents {chain : Chain} {fromBlock : ℕ} {log : EventLog} :
    log ∈ pastEvents chain fromBlock ↔
      log ∈ chain.logs ∧ log.args.kind.isSome ∧ fromBlock ≤ log.blockNumber := by
  unfold pastEvents queryFilter
  simp only [List.mem_flatMap, List.mem_filter, decide_eq_true_eq]
  constructor
  · rintro ⟨kind, _, hlog, hkind, hfrom⟩
    exact ⟨hlog, Option.isSome_iff_exists.mpr ⟨kind, hkind⟩, hfrom⟩
  · rintro ⟨hlog, hsome, hfrom⟩
    obtain ⟨kind, hkind⟩ := Option.isSome_iff_exists.mp hsome
    exact ⟨kind, mem_filters kind, hlog, hkind, hfrom⟩

end Chains

/-- What handleEvent is handed: a log that was queried, or the payload of the
listener, which holds the log but has no block number or transaction of its own. -/
inductive Delivery
  | eventLog
  | payload
  deriving DecidableEq, Repr

def Delivery.blockNumber : Delivery → EventLog → Option ℕ
  | .eventLog, ev => some ev.blockNumber
  | .payload, _ => none

def Delivery.transactionHash : Delivery → EventLog → Option String
  | .eventLog, ev => some ev.transactionHash
  | .payload, _ => none

/-- The variables of the event manager beside the shared state. A lastBlock
of null or NaN is none here, as both count as unset. -/
structure EventStore where
  state : State
  chain : Chain
  lastBlock : Option ℕ
  eventAggregator : Option String
  eventAggregatorTxHash : Option String
  passed : List EventLog
  cursors : List ℕ

inductive EventUpdate
  | state (update : Update)
  | handleEvent (ev : EventLog)
  | setLastBlock (lastBlock : Option ℕ)
  | setEventAggregator (aggregator transactionHash : Option String)
  | mine (skipped : ℕ) (contents : List (EventArgs × String))

def EventUpdate.apply : EventUpdate → EventStore → EventStore × Except JsError Unit
  | .state update, store =>
      ({ store with state := (update.apply store.state).1 }, (update.apply store.state).2)
  | .handleEvent ev, store => ({ store with passed := store.passed ++ [ev] }, .ok ⟨⟩)
  | .setLastBlock lastBlock, store =>
      ({ store with lastBlock := lastBlock, cursors := store.cursors ++ lastBlock.toList }, .ok ⟨⟩)
  | .setEventAggregator aggregator transactionHash, store =>
      ({ store with
          eventAggregator := aggregator
          eventAggregatorTxHash := transactionHash },
        .ok ⟨⟩)
  | .mine skipped contents, store =>
      ({ store with chain := store.chain.mine skipped contents }, .ok ⟨⟩)

/-- A fresh event manager over a state and a chain. -/
def EventStore.initial (s : State) (chain : Chain) : EventStore :=
  ⟨s, chain, none, none, none, [], []⟩

abbrev EventAsync := Program EventStore EventUpdate JsError

/-- What another manager does, called from here. -/
def onState {α : Type} (p : Async α) : EventAsync α := p.within EventStore.state EventUpdate.state

section Handlers

/-- JavaScript's slice(0, 42). -/
def addressSlice (data : String) : String := String.ofList (data.toList.take 42)

def includedAddress : Option String → EventAsync PUnit
  | some data =>
      if 42 < data.length then onState (updateIncludedStatus (addressSlice data)) else pure ⟨⟩
  | none => pure ⟨⟩

def getEventAggregator (transactionHash : Option String) : EventAsync (Option String) := do
  let store ← Program.read
  if transactionHash ≠ store.eventAggregatorTxHash then
    Program.update (.setEventAggregator none transactionHash)
    pure none
  else pure store.eventAggregator

/-- An entry whose operation succeeded is removed, any other marked as failed. -/
def settleEntry (userOpHash : String) (success : Bool) : EventAsync PUnit :=
  if success then onState (removeUserOp (.hash userOpHash)).detach
  else onState (updateEntryStatus userOpHash .failed)

def handleUserOperationEvent (userOpHash sender paymaster : String) (success : Bool)
    (transactionHash : Option String) : EventAsync PUnit := do
  settleEntry userOpHash success
  includedAddress sender
  includedAddress paymaster
  let aggregator ← getEventAggregator transactionHash
  includedAddress aggregator

def handleAccountDeployedEvent (factory : String) : EventAsync PUnit := includedAddress factory

def handleAggregatorChangedEvent (aggregator : String) (transactionHash : Option String) :
    EventAsync PUnit :=
  Program.update (.setEventAggregator (some aggregator) transactionHash)

/-- The part of handleEvent that depends on the kind of the event. -/
def handleArgs (transactionHash : Option String) : EventArgs → EventAsync PUnit
  | .userOperationEvent userOpHash sender paymaster success =>
      handleUserOperationEvent userOpHash sender paymaster success transactionHash
  | .accountDeployed factory => handleAccountDeployedEvent factory
  | .signatureAggregatorChanged aggregator =>
      handleAggregatorChangedEvent aggregator transactionHash
  | .other => pure ⟨⟩

def handleEvent (via : Delivery) (ev : EventLog) : EventAsync PUnit := do
  Program.update (.handleEvent ev)
  handleArgs (via.transactionHash ev) ev.args
  Program.update (.setLastBlock ((via.blockNumber ev).map (· + 1)))

end Handlers

/-- The listener is called with the log at a place of the chain. -/
def initEventListener (via : Delivery) (place : ℕ) : EventAsync PUnit := do
  let store ← Program.read
  match store.chain.logs[place]? with
  | some ev =>
      if ev.args.kind = some .userOperationEvent then handleEvent via ev else pure ⟨⟩
  | none => pure ⟨⟩

def LAST_1000_BLOCKS : ℕ := 1000

/-- The first block to catch up with, from the head on. -/
def firstBlock (head : ℕ) : ℕ := max 1 (head - LAST_1000_BLOCKS)

def startBlock : EventAsync ℕ := do
  let store ← Program.read
  match store.lastBlock.filter (· ≠ 0) with
  | some lastBlock => pure lastBlock
  | none => do
      Program.update (.setLastBlock (some (firstBlock store.chain.head)))
      pure (firstBlock store.chain.head)

def pastEventsFrom (fromBlock : ℕ) : EventAsync PUnit := do
  let store ← Program.read
  (pastEvents store.chain fromBlock).forM (handleEvent .eventLog)

def handlePastEvents : EventAsync PUnit := startBlock >>= pastEventsFrom

section Effects

/-- The credit for one address argument. -/
def credits : Option String → List EventEffect
  | some data => if 42 < data.length then [.addressIncluded (addressSlice data)] else []
  | none => []

/-- The aggregator that an event of the transaction is attributed to. -/
def aggregatorFor (store : EventStore) (transactionHash : Option String) : Option String :=
  if transactionHash ≠ store.eventAggregatorTxHash then none else store.eventAggregator

/-- All that handleEvent does to the shared state. -/
def effectsOf (aggregator : Option String) : EventArgs → List EventEffect
  | .userOperationEvent userOpHash sender paymaster success =>
      (if success then .userOperationSucceeded userOpHash else .userOperationFailed userOpHash) ::
        (credits sender ++ credits paymaster ++ credits aggregator)
  | .accountDeployed factory => credits factory
  | .signatureAggregatorChanged _ => []
  | .other => []

/-- The aggregator remembered after the event, with its transaction. -/
def aggregatorAfter (store : EventStore) (transactionHash : Option String) :
    EventArgs → Option String × Option String
  | .userOperationEvent _ _ _ _ => (aggregatorFor store transactionHash, transactionHash)
  | .signatureAggregatorChanged aggregator => (some aggregator, transactionHash)
  | _ => (store.eventAggregator, store.eventAggregatorTxHash)

/-- The store after one event. -/
def handled (via : Delivery) (store : EventStore) (ev : EventLog) : EventStore where
  state := (effectsOf (aggregatorFor store (via.transactionHash ev)) ev.args).foldl
    EventEffect.apply store.state
  chain := store.chain
  lastBlock := (via.blockNumber ev).map (· + 1)
  eventAggregator := (aggregatorAfter store (via.transactionHash ev) ev.args).1
  eventAggregatorTxHash := (aggregatorAfter store (via.transactionHash ev) ev.args).2
  passed := store.passed ++ [ev]
  cursors := store.cursors ++ ((via.blockNumber ev).map (· + 1)).toList

theorem onState_run {α : Type} (p : Async α) (store : EventStore) :
    Program.run EventUpdate.apply (onState p) store =
      ({ store with state := (runAlone p store.state).1 }, (runAlone p store.state).2) :=
  Program.run_within (fun s (store : EventStore) => { store with state := s })
    (fun _ _ => rfl) (fun _ _ => rfl) (fun _ _ _ => rfl) (fun _ => rfl) p store

/-- The store after effects on the shared state. -/
def EventStore.after (store : EventStore) (effects : List EventEffect) : EventStore :=
  { store with state := effects.foldl EventEffect.apply store.state }

theorem EventStore.after_append (store : EventStore) (effects effects' : List EventEffect) :
    store.after (effects ++ effects') = (store.after effects).after effects' := by
  unfold EventStore.after
  rw [List.foldl_append]

theorem effect_run (effect : EventEffect) (store : EventStore) :
    Program.run EventUpdate.apply (onState effect.program) store =
      (store.after [effect], .ok ⟨⟩) := by
  have heffect : runAlone effect.program store.state = _ := eventEffect_run effect store.state
  rw [onState_run, heffect]
  rfl

theorem includedAddress_run (data : Option String) (store : EventStore) :
    Program.run EventUpdate.apply (includedAddress data) store =
      (store.after (credits data), .ok ⟨⟩) := by
  cases data with
  | none => rfl
  | some data =>
    unfold includedAddress credits
    dsimp only
    split
    · exact effect_run (.addressIncluded (addressSlice data)) store
    · rfl

theorem getEventAggregator_run (transactionHash : Option String) (store : EventStore) :
    Program.run EventUpdate.apply (getEventAggregator transactionHash) store =
      ({ store with
          eventAggregator := aggregatorFor store transactionHash
          eventAggregatorTxHash := transactionHash },
        .ok (aggregatorFor store transactionHash)) := by
  unfold getEventAggregator aggregatorFor
  rw [Program.run_read_bind]
  split
  · rfl
  · rename_i hsame
    rw [not_not.mp hsame]
    rfl

theorem settleEntry_run (userOpHash : String) (success : Bool) (store : EventStore) :
    Program.run EventUpdate.apply (settleEntry userOpHash success) store =
      (store.after [if success then .userOperationSucceeded userOpHash
        else .userOperationFailed userOpHash], .ok ⟨⟩) := by
  cases success with
  | true => exact effect_run (.userOperationSucceeded userOpHash) store
  | false => exact effect_run (.userOperationFailed userOpHash) store

theorem handleUserOperationEvent_run (userOpHash sender paymaster : String) (success : Bool)
    (transactionHash : Option String) (store : EventStore) :
    Program.run EventUpdate.apply
        (handleUserOperationEvent userOpHash sender paymaster success transactionHash) store =
      ({ store.after (effectsOf (aggregatorFor store transactionHash)
          (.userOperationEvent userOpHash sender paymaster success)) with
          eventAggregator := aggregatorFor store transactionHash
          eventAggregatorTxHash := transactionHash },
        .ok ⟨⟩) := by
  unfold handleUserOperationEvent
  rw [Program.run_bind_of_ok EventUpdate.apply (settleEntry_run userOpHash success store),
    Program.run_bind_of_ok EventUpdate.apply (includedAddress_run _ _),
    Program.run_bind_of_ok EventUpdate.apply (includedAddress_run _ _),
    Program.run_bind_of_ok EventUpdate.apply (getEventAggregator_run _ _), includedAddress_run]
  rw [← EventStore.after_append, ← EventStore.after_append]
  unfold EventStore.after effectsOf
  rw [← List.foldl_append]
  rfl

theorem handleArgs_run (transactionHash : Option String) (args : EventArgs) (store : EventStore) :
    Program.run EventUpdate.apply (handleArgs transactionHash args) store =
      ({ store.after (effectsOf (aggregatorFor store transactionHash) args) with
          eventAggregator := (aggregatorAfter store transactionHash args).1
          eventAggregatorTxHash := (aggregatorAfter store transactionHash args).2 },
        .ok ⟨⟩) := by
  cases args with
  | userOperationEvent userOpHash sender paymaster success =>
    exact handleUserOperationEvent_run _ _ _ _ _ _
  | accountDeployed factory => exact includedAddress_run factory store
  | signatureAggregatorChanged aggregator => rfl
  | other => rfl

theorem handleEvent_run (via : Delivery) (ev : EventLog) (store : EventStore) :
    Program.run EventUpdate.apply (handleEvent via ev) store = (handled via store ev, .ok ⟨⟩) := by
  unfold handleEvent
  have hpassed : Program.run EventUpdate.apply (Program.update (.handleEvent ev)) store =
      ({ store with passed := store.passed ++ [ev] }, .ok ⟨⟩) := rfl
  rw [Program.run_bind_of_ok EventUpdate.apply hpassed,
    Program.run_bind_of_ok EventUpdate.apply (handleArgs_run _ _ _)]
  rfl

/-- The store from which a call queries, with the block it queries from. -/
def started (store : EventStore) : EventStore × ℕ :=
  match store.lastBlock.filter (· ≠ 0) with
  | some lastBlock => (store, lastBlock)
  | none =>
      ({ store with
          lastBlock := some (firstBlock store.chain.head)
          cursors := store.cursors ++ [firstBlock store.chain.head] },
        firstBlock store.chain.head)

theorem startBlock_run (store : EventStore) :
    Program.run EventUpdate.apply startBlock store =
      ((started store).1, .ok (started store).2) := by
  unfold startBlock started
  rw [Program.run_read_bind]
  cases store.lastBlock.filter (· ≠ 0) with
  | none => rfl
  | some lastBlock => rfl

theorem pastEventsFrom_run (fromBlock : ℕ) (store : EventStore) :
    Program.run EventUpdate.apply (pastEventsFrom fromBlock) store =
      ((pastEvents store.chain fromBlock).foldl (handled .eventLog) store, .ok ⟨⟩) := by
  unfold pastEventsFrom
  rw [Program.run_read_bind]
  exact Program.run_forM EventUpdate.apply (handleEvent_run .eventLog) _ store

/-- The effects of events handled one after the other. -/
def effectsAlong (via : Delivery) : EventStore → List EventLog → List EventEffect
  | _, [] => []
  | store, ev :: events =>
      effectsOf (aggregatorFor store (via.transactionHash ev)) ev.args ++
        effectsAlong via (handled via store ev) events

/-- To the shared state, the handling of events is what an attempt to bundle
takes as its past events. -/
theorem afterEvents_effectsAlong (via : Delivery) (events : List EventLog) (store : EventStore) :
    afterEvents ⟨effectsAlong via store events, .ok ⟨⟩⟩ store.state =
      (events.foldl (handled via) store).state := by
  unfold afterEvents
  induction events generalizing store with
  | nil => rfl
  | cons ev events ih =>
    rw [List.foldl_cons, ← ih, effectsAlong, List.foldl_append]
    rfl

end Effects

end Bundler.EventManager
