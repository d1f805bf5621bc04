import Bundler.CriticalSections
import Bundler.StateService
import Mathlib.Data.List.AList

/-!
The shared state as createState keeps it: an object with a value for every
key, behind a mutex. An updateState call hands the values of its keys to its
updateFn and takes over what that returns if it has exactly these keys. So a
call is atomic, calls that wait for each other amount to one after the other,
and those on different keys do not interfere. The named updates of the
managers are calls of this kind.
-/
namespace Bundler.StateStore

open AsyncPrograms DataModel StateService Runs CriticalSections

variable {K : Type} {V : K → Type}

/-- The state object: every key has a value. -/
abbrev Values (V : K → Type) := (key : K) → V key

inductive StateKeys (K : Type)
  | single (key : K)
  | multiple (keys : List K)

def StateKeys.list : StateKeys K → List K
  | .single key => [key]
  | .multiple keys => keys

/-- The arguments of updateState. Objects with some of the keys are lists of
their entries, and an updateFn may throw. -/
structure UpdateCall (V : K → Type) where
  keys : StateKeys K
  updateFn : AList V → Except JsError (AList V)

variable [DecidableEq K]

/-- The values an updateFn is called with. -/
def currentValues (state : Values V) : StateKeys K → AList V
  | .single key => AList.singleton key (state key)
  | .multiple keys => keys.foldl (fun acc key => acc.insert key (state key)) ∅

def validateNonEmpty (updatedValues : AList V) : Bool := updatedValues.keys.length ≠ 0

def validateKeysMatch (updatedKeys expectedKeys : List K) : Bool :=
  let missingKeys := expectedKeys.filter fun key => key ∉ updatedKeys
  if missingKeys.length > 0 then false
  else
    let extraKeys := updatedKeys.filter fun key => key ∉ expectedKeys
    if extraKeys.length > 0 then false else true

/-- Object.assign onto a copy of the state. -/
def assign (state : Values V) (updatedValues : AList V) : Values V :=
  fun key => (updatedValues.lookup key).getD (state key)

def updateState (call : UpdateCall V) (state : Values V) : Values V × Except JsError Bool :=
  match call.updateFn (currentValues state call.keys) with
  | .error e => (state, .error e)
  | .ok updatedValues =>
      if !validateNonEmpty updatedValues ||
          !validateKeysMatch updatedValues.keys call.keys.list then (state, .ok false)
      else (assign state updatedValues, .ok true)

section Locked

/-- The variables of one updateState between acquire and release. -/
structure UpdateVars (V : K → Type) where
  newState : Option (Values V) := none
  currentValues : AList V := ∅
  result : Option (Except JsError Bool) := none

/-- The copy of the state, and the values for the updateFn. -/
def takeCopy (keys : StateKeys K) : UpdateVars V × Values V → UpdateVars V × Values V
  | (vars, state) =>
      ({ vars with newState := some state, currentValues := currentValues state keys }, state)

/-- The call of the updateFn, with its checks. -/
def process (call : UpdateCall V) : UpdateVars V × Values V → UpdateVars V × Values V
  | (vars, state) =>
      match call.updateFn vars.currentValues with
      | .error e => ({ vars with result := some (.error e) }, state)
      | .ok updatedValues =>
          if !validateNonEmpty updatedValues ||
              !validateKeysMatch updatedValues.keys call.keys.list then
            ({ vars with result := some (.ok false) }, state)
          else
            ({ vars with
                newState := vars.newState.map fun newState => assign newState updatedValues },
              state)

/-- The assignment of the new state, unless there is a result already. -/
def commit : UpdateVars V × Values V → UpdateVars V × Values V
  | (vars, state) =>
      match vars.result, vars.newState with
      | none, some newState => ({ vars with result := some (.ok true) }, newState)
      | _, _ => (vars, state)

def updateSection (call : UpdateCall V) : CriticalSection (Values V) (UpdateVars V) where
  start := {}
  steps := [takeCopy call.keys, process call, commit]

/-- Left to itself, a section does what updateState does. -/
theorem updateSection_run (call : UpdateCall V) (state : Values V) :
    ((updateSection call).run state).1.result = some (updateState call state).2 ∧
      ((updateSection call).run state).2 = (updateState call state).1 := by
  unfold CriticalSection.run perform updateSection updateState
  simp only [List.foldl_cons, List.foldl_nil, takeCopy, process]
  cases call.updateFn (currentValues state call.keys) with
  | error e => exact ⟨rfl, rfl⟩
  | ok updatedValues =>
    dsimp only
    split
    · exact ⟨rfl, rfl⟩
    · exact ⟨rfl, rfl⟩

end Locked

section Calls

variable {state : Values V} {call : UpdateCall V} {updatedValues : AList V}

theorem lookup_currentValues (state : Values V) (keys : StateKeys K) (key : K) :
    (currentValues state keys).lookup key = if key ∈ keys.list then some (state key) else none := by
  cases keys with
  | single only =>
    change (AList.singleton only (state only)).lookup key = if key ∈ [only] then _ else none
    rw [← AList.insert_empty]
    by_cases h : key = only
    · subst h
      rw [AList.lookup_insert, if_pos (List.mem_singleton_self key)]
    · rw [AList.lookup_insert_ne h, AList.lookup_empty, if_neg (List.mem_singleton.not.mpr h)]
  | multiple keys =>
    -- the accumulator holds the values of the keys seen so far
    have hfold (acc : AList V) (keys : List K) :
        (keys.foldl (fun acc key => acc.insert key (state key)) acc).lookup key =
          if key ∈ keys then some (state key) else acc.lookup key := by
      induction keys generalizing acc with
      | nil => rfl
      | cons first keys ih =>
        rw [List.foldl_cons, ih]
        by_cases h : key = first
        · subst h
          simp
        · simp [AList.lookup_insert_ne h, h]
    exact (hfold ∅ keys).trans (if_congr Iff.rfl rfl (AList.lookup_empty key))

/-- The returned object has exactly the keys of the call. -/
def SameKeys (updatedValues : AList V) (keys : StateKeys K) : Prop :=
  ∀ key, key ∈ updatedValues.keys ↔ key ∈ keys.list

theorem validateKeysMatch_iff (updatedKeys expectedKeys : List K) :
    validateKeysMatch updatedKeys expectedKeys ↔
      ∀ key, key ∈ updatedKeys ↔ key ∈ expectedKeys := by
  unfold validateKeysMatch
  dsimp only
  have hnone (keys others : List K) : (keys.filter fun key => key ∉ others).length > 0 ↔
      ¬∀ key ∈ keys, key ∈ others := by
    rw [gt_iff_lt, List.length_pos_iff, ne_eq, List.filter_eq_nil_iff]
    simp
  rw [if_congr (hnone _ _) rfl rfl, if_congr (hnone _ _) rfl rfl]
  by_cases hmissing : ∀ key ∈ expectedKeys, key ∈ updatedKeys
  · by_cases hextra : ∀ key ∈ updatedKeys, key ∈ expectedKeys
    · rw [if_neg (not_not.mpr hmissing), if_neg (not_not.mpr hextra)]
      exact iff_of_true rfl fun key => ⟨hextra key, hmissing key⟩
    · rw [if_neg (not_not.mpr hmissing), if_pos hextra]
      exact iff_of_false nofun fun h => hextra fun key => (h key).mp
  · rw [if_pos hmissing]
    exact iff_of_false nofun fun h => hmissing fun key => (h key).mpr

/-- Both checks pass exactly on an object with the right keys. -/
theorem checks_iff (hkeys : call.keys.list ≠ []) :
    (!validateNonEmpty updatedValues ||
        !validateKeysMatch updatedValues.keys call.keys.list) = false ↔
      SameKeys updatedValues call.keys := by
  rw [Bool.or_eq_false_iff, Bool.not_eq_false', Bool.not_eq_false', validateKeysMatch_iff]
  refine and_iff_right_of_imp fun h => ?_
  obtain ⟨key, hkey⟩ := List.exists_mem_of_ne_nil _ hkeys
  have hupdated : key ∈ updatedValues.keys := (h key).mpr hkey
  refine decide_eq_true fun hlength => ?_
  rw [List.length_eq_zero_iff.mp hlength] at hupdated
  cases hupdated

theorem updateState_of_error {e : JsError}
    (h : call.updateFn (currentValues state call.keys) = .error e) :
    updateState call state = (state, .error e) := by
  unfold updateState
  rw [h]

theorem updateState_of_sameKeys (hkeys : call.keys.list ≠ [])
    (h : call.updateFn (currentValues state call.keys) = .ok updatedValues)
    (hsame : SameKeys updatedValues call.keys) :
    updateState call state = (assign state updatedValues, .ok true) := by
  unfold updateState
  rw [h]
  dsimp only
  rw [(checks_iff hkeys).mpr hsame]
  rfl

theorem updateState_of_otherKeys (hkeys : call.keys.list ≠ [])
    (h : call.updateFn (currentValues state call.keys) = .ok updatedValues)
    (hother : ¬SameKeys updatedValues call.keys) : updateState call state = (state, .ok false) := by
  unfold updateState
  rw [h]
  dsimp only
  rw [if_pos (Bool.of_not_eq_false ((checks_iff hkeys).not.mpr hother))]

/-- All an updateState call can do. -/
structure UpdatesAtomically (call : UpdateCall V) (state : Values V) : Prop where
  accepted_iff : (updateState call state).2 = .ok true ↔
    ∃ updatedValues, call.updateFn (currentValues state call.keys) = .ok updatedValues ∧
      SameKeys updatedValues call.keys
  written : ∀ updatedValues,
    call.updateFn (currentValues state call.keys) = .ok updatedValues →
      SameKeys updatedValues call.keys →
        (∀ key ∈ call.keys.list,
            updatedValues.lookup key = some ((updateState call state).1 key)) ∧
          ∀ key ∉ call.keys.list, (updateState call state).1 key = state key
  refused : (∃ updatedValues, call.updateFn (currentValues state call.keys) = .ok updatedValues) →
    (updateState call state).2 ≠ .ok true → updateState call state = (state, .ok false)
  thrown : ∀ e, call.updateFn (currentValues state call.keys) = .error e →
    updateState call state = (state, .error e)

theorem updatesAtomically (hkeys : call.keys.list ≠ []) (state : Values V) :
    UpdatesAtomically call state where
  accepted_iff := by
    constructor
    · intro h
      cases hfn : call.updateFn (currentValues state call.keys) with
      | error e =>
        rw [updateState_of_error hfn] at h
        cases h
      | ok updatedValues =>
        refine ⟨updatedValues, rfl, ?_⟩
        by_contra hother
        rw [updateState_of_otherKeys hkeys hfn hother] at h
        cases h
    · rintro ⟨updatedValues, hfn, hsame⟩
      rw [updateState_of_sameKeys hkeys hfn hsame]
  written := by
    intro updatedValues hfn hsame
    rw [updateState_of_sameKeys hkeys hfn hsame]
    dsimp only [assign]
    constructor
    · intro key hkey
      have hsome : (updatedValues.lookup key).isSome :=
        AList.lookup_isSome.mpr ((hsame key).mpr hkey)
      obtain ⟨value, hvalue⟩ := Option.isSome_iff_exists.mp hsome
      rw [hvalue]
      rfl
    · intro key hkey
      have hnone : updatedValues.lookup key = none :=
        AList.lookup_eq_none.mpr fun h => hkey ((hsame key).mp h)
      rw [hnone]
      rfl
  refused := by
    rintro ⟨updatedValues, hfn⟩ hresult
    refine updateState_of_otherKeys hkeys hfn fun hsame => hresult ?_
    rw [updateState_of_sameKeys hkeys hfn hsame]
  thrown _ h := updateState_of_error h

end Calls

section Commuting

variable {first second : UpdateCall V} {state : Values V}

/-- Accepted is only a call that returns its own keys. -/
theorem exists_of_accepted {call : UpdateCall V} (h : (updateState call state).2 = .ok true) :
    ∃ updatedValues, call.updateFn (currentValues state call.keys) = .ok updatedValues ∧
      SameKeys updatedValues call.keys ∧ call.keys.list ≠ [] := by
  have hkeys : call.keys.list ≠ [] := by
    intro hnil
    unfold updateState at h
    cases hfn : call.updateFn (currentValues state call.keys) with
    | error e =>
      rw [hfn] at h
      cases h
    | ok updatedValues =>
      rw [hfn] at h
      dsimp only at h
      split at h
      · cases h
      · -- without expected keys, one check wants no keys and the other wants some
        rename_i hchecks
        simp [validateNonEmpty, validateKeysMatch, hnil] at hchecks
  obtain ⟨updatedValues, hfn, hsame⟩ := (updatesAtomically hkeys state).accepted_iff.mp h
  exact ⟨updatedValues, hfn, hsame, hkeys⟩

/-- An updateFn sees no other keys than those of its call. -/
theorem currentValues_congr {state' : Values V} {keys : StateKeys K}
    (h : ∀ key ∈ keys.list, state key = state' key) :
    currentValues state keys = currentValues state' keys := by
  cases keys with
  | single key =>
    have hkey : state key = state' key := h key (List.mem_singleton_self key)
    change AList.singleton key (state key) = AList.singleton key (state' key)
    rw [hkey]
  | multiple keys =>
    unfold currentValues
    dsimp only
    refine List.foldl_ext _ _ ∅ fun acc key hkey => ?_
    rw [h key hkey]

theorem assign_comm {updatedFirst updatedSecond : AList V}
    (h : ∀ key ∈ updatedFirst.keys, key ∉ updatedSecond.keys) (state : Values V) :
    assign (assign state updatedFirst) updatedSecond =
      assign (assign state updatedSecond) updatedFirst := by
  funext key
  dsimp only [assign]
  by_cases hfirst : key ∈ updatedFirst.keys
  · have hnone : updatedSecond.lookup key = none := AList.lookup_eq_none.mpr (h key hfirst)
    obtain ⟨value, hvalue⟩ := Option.isSome_iff_exists.mp (AList.lookup_isSome.mpr hfirst)
    rw [hnone, hvalue]
    rfl
  · rw [AList.lookup_eq_none.mpr hfirst]
    rfl

/-- Two accepted calls are accepted in either order, with one outcome. -/
structure Commute (first second : UpdateCall V) (state : Values V) : Prop where
  second_accepted : (updateState second (updateState first state).1).2 = .ok true
  first_accepted : (updateState first (updateState second state).1).2 = .ok true
  state_eq : (updateState second (updateState first state).1).1 =
    (updateState first (updateState second state).1).1

/-- After an accepted call on other keys, a call does what it would have done. -/
theorem updateState_after (hdisjoint : ∀ key ∈ first.keys.list, key ∉ second.keys.list)
    {updatedFirst updatedSecond : AList V} (hfirst : SameKeys updatedFirst first.keys)
    (hkeys : second.keys.list ≠ [])
    (hfn : second.updateFn (currentValues state second.keys) = .ok updatedSecond)
    (hsecond : SameKeys updatedSecond second.keys) :
    updateState second (assign state updatedFirst) =
      (assign (assign state updatedFirst) updatedSecond, .ok true) := by
  have hcurrent : currentValues (assign state updatedFirst) second.keys =
      currentValues state second.keys := by
    refine currentValues_congr fun key hkey => ?_
    have hnone : updatedFirst.lookup key = none :=
      AList.lookup_eq_none.mpr fun h => hdisjoint key ((hfirst key).mp h) hkey
    unfold assign
    rw [hnone]
    rfl
  rw [← hcurrent] at hfn
  exact updateState_of_sameKeys hkeys hfn hsecond

theorem commute_of_disjoint (hdisjoint : ∀ key ∈ first.keys.list, key ∉ second.keys.list)
    (hfirst : (updateState first state).2 = .ok true)
    (hsecond : (updateState second state).2 = .ok true) : Commute first second state := by
  obtain ⟨updatedFirst, hfn, hsame, hkeys⟩ := exists_of_accepted hfirst
  obtain ⟨updatedSecond, hfn', hsame', hkeys'⟩ := exists_of_accepted hsecond
  have hafter := updateState_after hdisjoint hsame hkeys' hfn' hsame'
  have hbefore := updateState_after (fun key h h' => hdisjoint key h' h) hsame' hkeys hfn hsame
  have hcomm : assign (assign state updatedFirst) updatedSecond =
      assign (assign state updatedSecond) updatedFirst :=
    assign_comm (fun key h h' => hdisjoint key ((hsame key).mp h) ((hsame' key).mp h')) state
  have hstate := congrArg Prod.fst (updateState_of_sameKeys hkeys hfn hsame)
  have hstate' := congrArg Prod.fst (updateState_of_sameKeys hkeys' hfn' hsame')
  refine ⟨?_, ?_, ?_⟩
  · rw [hstate, hafter]
  · rw [hstate', hbefore]
  · rw [hstate, hstate', hafter, hbefore]
    exact hcomm

end Commuting

section Concurrent

variable {ι : Type}

/-- The calls one after the other, failing ones included. -/
def applyAll (calls : ι → UpdateCall V) (state : Values V) (order : List ι) : Values V :=
  order.foldl (fun state i => (updateState (calls i) state).1) state

theorem inOrder_eq_applyAll (calls : ι → UpdateCall V) (state : Values V) (order : List ι) :
    inOrder (fun i => updateSection (calls i)) state order = applyAll calls state order := by
  refine List.foldl_ext _ _ state fun state i _ => ?_
  exact (updateSection_run (calls i) state).2

variable [DecidableEq ι]

/-- What has become of concurrent calls while nobody holds the lock: the
state is that of the calls in the order of their acquire, and what a call has
returned it returned at its turn. -/
structure OneAfterTheOther (calls : ι → UpdateCall V) (state : Values V)
    (c : Config (Values V) (UpdateVars V) ι) : Prop where
  nodup : c.acquired.Nodup
  store : c.store = applyAll calls state c.acquired
  finished : ∀ i ∈ c.acquired, ∃ vars, c.phase i = .finished vars
  results : ∀ i vars, c.phase i = .finished vars →
    ∃ before after, c.acquired = before ++ i :: after ∧
      vars.result = some (updateState (calls i) (applyAll calls state before)).2

theorem oneAfterTheOther (calls : ι → UpdateCall V) (state : Values V) (schedule : List ι)
    (hfree : (run (step fun i => updateSection (calls i)) (Config.initial state)
      schedule).holder = none) :
    OneAfterTheOther calls state
      (run (step fun i => updateSection (calls i)) (Config.initial state) schedule) := by
  obtain ⟨hstore, hended⟩ := serializable state schedule hfree
  refine ⟨hended.nodup, hstore.trans (inOrder_eq_applyAll ..), hended.finished, ?_⟩
  intro i vars hvars
  obtain ⟨before, after, hacquired, rfl⟩ := hended.results i vars hvars
  refine ⟨before, after, hacquired, ?_⟩
  rw [inOrder_eq_applyAll]
  exact (updateSection_run (calls i) _).1

/-- A call changes its own keys, all of them or none; concurrent calls come
out as one after the other, and accepted ones on different keys commute. -/
theorem updateState_atomic :
    (∀ (call : UpdateCall V) state, call.keys.list ≠ [] → UpdatesAtomically call state) ∧
      (∀ (calls : ι → UpdateCall V) state schedule,
        (run (step fun i => updateSection (calls i)) (Config.initial state)
            schedule).holder = none →
          OneAfterTheOther calls state
            (run (step fun i => updateSection (calls i)) (Config.initial state) schedule)) ∧
      ∀ (first second : UpdateCall V) state,
        (∀ key ∈ first.keys.list, key ∉ second.keys.list) →
          (updateState first state).2 = .ok true → (updateState second state).2 = .ok true →
            Commute first second state :=
  ⟨fun _ state h => updatesAtomically h state, oneAfterTheOther,
    fun _ _ _ => commute_of_disjoint⟩

end Concurrent

end Bundler.StateStore
