import Bundler.EventManager

/-!
The credit for inclusion. An address argument is credited only when it is
longer than forty-two characters, which is the length of a standard address,
so the events of such addresses leave all counters as they are.
-/
namespace Bundler.InclusionCredit

open KeyedRecords AsyncPrograms DataModel StateService ReputationManager MempoolManager
  BundleManager StrandedOperations EventManager Operations Runs

/-- The addresses an event is to be credited to. -/
def addresses : EventArgs → List String
  | .userOperationEvent _ sender paymaster _ => [sender, paymaster]
  | .accountDeployed factory => [factory]
  | _ => []

/-- The event includes an operation or deploys an account. -/
def Includes (args : EventArgs) : Prop :=
  args.kind = some .userOperationEvent ∨ args.kind = some .accountDeployed

instance (args : EventArgs) : Decidable (Includes args) := inferInstanceAs (Decidable (_ ∨ _))

/-- A standard address: 0x and forty digits. -/
def Standard (addr : String) : Prop := addr.length = 42

instance (addr : String) : Decidable (Standard addr) := inferInstanceAs (Decidable (_ = _))

/-- Events as they were handed to handleEvent. -/
abbrev Handed := List (Delivery × EventLog)

/-- The handling of one event after the other. -/
def handleAll (events : Handed) : EventAsync PUnit :=
  events.forM fun event => handleEvent event.1 event.2

def storeAfter (store : EventStore) (events : Handed) : EventStore :=
  (Program.run EventUpdate.apply (handleAll events) store).1

/-- How many address arguments of the events are the address, in lower case. -/
def mentions (addr : String) (events : Handed) : ℕ :=
  (events.flatMap fun event => addresses event.2.args).countP
    fun data => toLowerCase data = toLowerCase addr

def seen (reputationEntries : ReputationEntries) (addr : String) : Option ℤ :=
  (reputationEntries.get addr).map ReputationEntry.opsSeen

/-- The inclusions of an address with an entry went up by the number of
mentions, and nothing seen changed. -/
def Credited (before after : ReputationEntries) (addr : String) (mentioned : ℕ) : Prop :=
  (after.get (toLowerCase addr)).map ReputationEntry.opsIncluded =
      ((before.get (toLowerCase addr)).map ReputationEntry.opsIncluded).map (· + (mentioned : ℤ)) ∧
    ∀ other, seen after other = seen before other

section Effects

theorem effect_reputationEntries {effect : EventEffect}
    (h : ∀ addr, effect ≠ .addressIncluded addr) (s : State) :
    (EventEffect.apply s effect).reputationEntries = s.reputationEntries := by
  cases effect with
  | userOperationSucceeded userOpHash => exact userOpRemoved_reputationEntries s _
  | userOperationFailed userOpHash => exact statusUpdated_reputationEntries s _ _
  | addressIncluded addr => exact absurd rfl (h addr)

theorem credits_of_standard {data : Option String} (h : ∀ addr ∈ data, Standard addr) :
    credits data = [] := by
  cases data with
  | none => rfl
  | some addr =>
    have hlength : addr.length = 42 := h addr rfl
    exact if_neg (by omega)

variable {args : EventArgs} {aggregator : Option String}

/-- Of an event with standard addresses only its effect on the mempool is left. -/
theorem effectsOf_of_standard (hargs : ∀ addr ∈ addresses args, Standard addr)
    (haggregator : ∀ addr ∈ aggregator, Standard addr) {effect : EventEffect}
    (heffect : effect ∈ effectsOf aggregator args) (addr : String) :
    effect ≠ .addressIncluded addr := by
  cases args with
  | userOperationEvent userOpHash sender paymaster success =>
    have hsender : credits (some sender) = [] :=
      credits_of_standard fun _ haddr => hargs _ (by cases haddr; exact List.mem_cons_self)
    have hpaymaster : credits (some paymaster) = [] :=
      credits_of_standard fun _ haddr =>
        hargs _ (by cases haddr; exact List.mem_cons_of_mem _ List.mem_cons_self)
    dsimp only [effectsOf] at heffect
    rw [hsender, hpaymaster, credits_of_standard haggregator] at heffect
    rw [List.mem_singleton.mp heffect]
    cases success with
    | true => exact EventEffect.noConfusion
    | false => exact EventEffect.noConfusion
  | accountDeployed factory =>
    have hfactory : credits (some factory) = [] :=
      credits_of_standard fun _ haddr => hargs _ (by cases haddr; exact List.mem_cons_self)
    change effect ∈ credits (some factory) at heffect
    rw [hfactory] at heffect
    cases heffect
  | signatureAggregatorChanged aggregator => cases heffect
  | other => cases heffect

theorem effects_reputationEntries {effects : List EventEffect}
    (h : ∀ effect ∈ effects, ∀ addr, effect ≠ .addressIncluded addr) (s : State) :
    (effects.foldl EventEffect.apply s).reputationEntries = s.reputationEntries := by
  induction effects generalizing s with
  | nil => rfl
  | cons effect effects ih =>
    rw [List.forall_mem_cons] at h
    rw [List.foldl_cons, ih h.2, effect_reputationEntries h.1]

end Effects

section Handling

variable {store : EventStore}

theorem storeAfter_eq (store : EventStore) (events : Handed) :
    storeAfter store events =
      events.foldl (fun store event => handled event.1 store event.2) store :=
  congrArg Prod.fst (Program.run_forM EventUpdate.apply
    (fun event store => handleEvent_run event.1 event.2 store) events store)

theorem aggregatorFor_standard (h : ∀ addr ∈ store.eventAggregator, Standard addr)
    (transactionHash : Option String) : ∀ addr ∈ aggregatorFor store transactionHash,
      Standard addr := by
  unfold aggregatorFor
  split
  · exact nofun
  · exact h

/-- An event that changes no aggregator leaves a standard one. -/
theorem handled_standard (h : ∀ addr ∈ store.eventAggregator, Standard addr) (via : Delivery)
    {ev : EventLog} (hincludes : Includes ev.args) :
    ∀ addr ∈ (handled via store ev).eventAggregator, Standard addr := by
  change ∀ addr ∈ (aggregatorAfter store (via.transactionHash ev) ev.args).1, Standard addr
  unfold Includes at hincludes
  cases hargs : ev.args with
  | userOperationEvent userOpHash sender paymaster success => exact aggregatorFor_standard h _
  | accountDeployed factory => exact h
  | signatureAggregatorChanged aggregator => simp [hargs, EventArgs.kind] at hincludes
  | other => simp [hargs, EventArgs.kind] at hincludes

variable {events : Handed}

/-- No counter changes. -/
theorem storeAfter_reputationEntries (hincludes : ∀ event ∈ events, Includes event.2.args)
    (hstandard : ∀ event ∈ events, ∀ addr ∈ addresses event.2.args, Standard addr)
    (haggregator : ∀ addr ∈ store.eventAggregator, Standard addr) :
    (storeAfter store events).state.reputationEntries = store.state.reputationEntries := by
  rw [storeAfter_eq]
  induction events generalizing store with
  | nil => rfl
  | cons event events ih =>
    rw [List.forall_mem_cons] at hincludes hstandard
    rw [List.foldl_cons, ih hincludes.2 hstandard.2
      (handled_standard haggregator event.1 hincludes.1)]
    exact effects_reputationEntries (fun effect heffect => effectsOf_of_standard hstandard.1
      (aggregatorFor_standard haggregator _) heffect) store.state

/-- Events of standard addresses credit an address that has an entry exactly
when they do not mention it. -/
theorem credited_iff (store : EventStore) (events : Handed) (addr : String)
    (hincludes : ∀ event ∈ events, Includes event.2.args)
    (hstandard : ∀ event ∈ events, ∀ data ∈ addresses event.2.args, Standard data)
    (haggregator : ∀ aggregator ∈ store.eventAggregator, Standard aggregator)
    (hentry : (store.state.reputationEntries.get (toLowerCase addr)).isSome) :
    Credited store.state.reputationEntries (storeAfter store events).state.reputationEntries addr
        (mentions addr events) ↔
      ∀ event ∈ events, ∀ data ∈ addresses event.2.args, toLowerCase data ≠ toLowerCase addr := by
  rw [storeAfter_reputationEntries hincludes hstandard haggregator]
  obtain ⟨entry, hget⟩ := Option.isSome_iff_exists.mp hentry
  have hcount : mentions addr events = 0 ↔
      ∀ event ∈ events, ∀ data ∈ addresses event.2.args, toLowerCase data ≠ toLowerCase addr := by
    unfold mentions
    rw [List.countP_eq_zero]
    simp only [List.mem_flatMap, decide_eq_true_eq]
    constructor
    · exact fun h event hevent data hdata => h data ⟨event, hevent, hdata⟩
    · rintro h data ⟨event, hevent, hdata⟩
      exact h event hevent data hdata
  rw [← hcount]
  unfold Credited
  rw [hget, Option.map_some, Option.map_some, Option.some.injEq]
  constructor
  · intro h
    have := h.1
    omega
  · intro h
    exact ⟨by omega, fun _ => rfl⟩

end Handling

section Concrete

/-- The store after two inclusions, of which the first made the entry. -/
def withEntry : EventStore :=
  .initial (run (Operation.perform plainConfig 5) (State.initial [] [])
    [.reputation (.updateIncludedStatus account)]) Chain.genesis

def inclusionOf (sender : String) : Handed :=
  [(.eventLog, ⟨.userOperationEvent hash₁ sender zeroAddress true, 1, 0, hash₂⟩)]

theorem credited_unless_mentioned :
    Credited withEntry.state.reputationEntries
      (storeAfter withEntry (inclusionOf otherAccount)).state.reputationEntries account
      (mentions account (inclusionOf otherAccount)) :=
  (credited_iff withEntry (inclusionOf otherAccount) account (by decide) (by decide) nofun
    (by decide)).mpr (by decide)

/-- The operation of an account with an entry is included, and not credited. -/
theorem inclusion_not_credited :
    ¬∀ (config : StakeConfig) (bundleSize : ℕ) (whiteList blackList : List String)
      (ops : List Operation) (chain : Chain) (events : Handed) (addr : String),
      let store := EventStore.initial
        (run (Operation.perform config bundleSize) (State.initial whiteList blackList) ops) chain
      (∀ event ∈ events, Includes event.2.args) →
      (∀ event ∈ events, ∀ data ∈ addresses event.2.args, Standard data) →
      (store.state.reputationEntries.get (toLowerCase addr)).isSome →
      Credited store.state.reputationEntries (storeAfter store events).state.reputationEntries addr
        (mentions addr events) := by
  intro h
  have hcredited := h plainConfig 5 [] [] [.reputation (.updateIncludedStatus account)]
    Chain.genesis (inclusionOf account) account (by decide) (by decide) (by decide)
  exact absurd hcredited.1 (by decide)

end Concrete

end Bundler.InclusionCredit
