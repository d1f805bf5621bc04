import Bundler.StateStore

/-!
The named updates of the managers as calls of updateState. Each of them reads
and writes the keys it is called with and no others, so its effect on the
state is that of an accepted call, and updates on different keys commute.
Marking entries as bundling assigns to the entries of the pool it is handed,
and returns that pool, unless an entry is missing; this is a call that returns
the marked entries, and throws when the marking does.
-/
namespace Bundler.UpdateFootprints

open AsyncPrograms DataModel StateService StateStore

inductive StateKey
  | standardPool
  | mempoolEntryCount
  | bundleTxs
  | blackList
  | whiteList
  | reputationEntries
  deriving DecidableEq, Repr

abbrev StateKey.Value : StateKey → Type
  | .standardPool => StandardPool
  | .mempoolEntryCount => EntryCount
  | .bundleTxs => BundleTxs
  | .blackList => List String
  | .whiteList => List String
  | .reputationEntries => ReputationEntries

def valuesOf (s : State) : Values StateKey.Value
  | .standardPool => s.standardPool
  | .mempoolEntryCount => s.mempoolEntryCount
  | .bundleTxs => s.bundleTxs
  | .blackList => s.blackList
  | .whiteList => s.whiteList
  | .reputationEntries => s.reputationEntries

def stateOf (values : Values StateKey.Value) : State where
  standardPool := values .standardPool
  mempoolEntryCount := values .mempoolEntryCount
  bundleTxs := values .bundleTxs
  blackList := values .blackList
  whiteList := values .whiteList
  reputationEntries := values .reputationEntries

@[simp] theorem valuesOf_stateOf (values : Values StateKey.Value) :
    valuesOf (stateOf values) = values := by
  funext key
  cases key <;> rfl

/-- The keys an update is called with. -/
def keys : Update → StateKeys StateKey
  | .reputation (.addWhitelist _) => .single .whiteList
  | .reputation (.addBlacklist _) => .single .blackList
  | .reputation _ => .single .reputationEntries
  | .mempool (.updateEntryStatus _ _) => .single .standardPool
  | .mempool (.markBundling _) => .single .standardPool
  | .mempool (.addBundleTxnConfirmation _ _) => .single .bundleTxs
  | .mempool _ => .multiple [.standardPool, .mempoolEntryCount]

/-- The state with the values handed out, and the initial ones elsewhere. -/
def handedOut (current : AList StateKey.Value) : State :=
  stateOf (assign (valuesOf (State.initial [] [])) current)

/-- The values of some keys, as an object. -/
def pick (s : State) (keys : List StateKey) : AList StateKey.Value :=
  StateStore.currentValues (valuesOf s) (.multiple keys)

/-- The updateState call of a named update. Its updateFn knows only the
values handed out. -/
def call (update : Update) : UpdateCall StateKey.Value where
  keys := keys update
  updateFn current := do
    let _ ← (update.apply (handedOut current)).2
    pure (pick (update.apply (handedOut current)).1 (keys update).list)

variable {update : Update} {s s' : State}

/-- An update depends on nothing but the values of its keys. -/
theorem apply_congr (h : ∀ key ∈ (keys update).list, valuesOf s key = valuesOf s' key) :
    ∀ key ∈ (keys update).list,
      valuesOf (update.apply s).1 key = valuesOf (update.apply s').1 key := by
  rcases update with update | update
  · cases update <;>
      simp_all [keys, StateKeys.list, valuesOf, Update.apply, ReputationUpdate.apply]
  · cases update <;>
      simp_all [keys, StateKeys.list, valuesOf, Update.apply, MempoolUpdate.apply]

/-- Whether it throws depends on nothing else either. -/
theorem outcome_congr (h : ∀ key ∈ (keys update).list, valuesOf s key = valuesOf s' key) :
    (update.apply s).2 = (update.apply s').2 := by
  rcases update with update | update
  · rfl
  · cases update with
    | markBundling userOpHashes =>
      have hpool : s.standardPool = s'.standardPool := h .standardPool (List.mem_singleton_self _)
      change (markBundling s.standardPool userOpHashes).2 =
        (markBundling s'.standardPool userOpHashes).2
      rw [hpool]
    | _ => rfl

/-- It leaves the other keys alone. -/
theorem apply_of_notMem {key : StateKey} (h : key ∉ (keys update).list) :
    valuesOf (update.apply s).1 key = valuesOf s key := by
  rcases update with update | update
  · cases update <;> cases key <;> first | rfl | simp [keys, StateKeys.list] at h
  · cases update <;> cases key <;> first | rfl | simp [keys, StateKeys.list] at h

theorem keys_ne_nil (update : Update) : (keys update).list ≠ [] := by
  rcases update with update | update <;> cases update <;> simp [keys, StateKeys.list]

theorem lookup_pick (s : State) (keys : List StateKey) (key : StateKey) :
    (pick s keys).lookup key = if key ∈ keys then some (valuesOf s key) else none :=
  lookup_currentValues (valuesOf s) (.multiple keys) key

theorem sameKeys_pick (s : State) (keys : StateKeys StateKey) :
    SameKeys (pick s keys.list) keys := by
  intro key
  rw [← AList.mem_keys, ← AList.lookup_isSome, lookup_pick]
  by_cases h : key ∈ keys.list <;> simp [h]

/-- The values handed out to a call are those of the state. -/
theorem handedOut_currentValues {keys : StateKeys StateKey} {key : StateKey}
    (h : key ∈ keys.list) :
    valuesOf (handedOut (currentValues (valuesOf s) keys)) key = valuesOf s key := by
  unfold handedOut
  rw [valuesOf_stateOf]
  dsimp only [assign]
  rw [lookup_currentValues, if_pos h]
  rfl

/-- A named update that does not throw is the accepted call on its keys. -/
theorem updateState_call (h : (update.apply s).2 = .ok ⟨⟩) :
    updateState (call update) (valuesOf s) = (valuesOf (update.apply s).1, .ok true) := by
  have hhanded : ∀ key ∈ (keys update).list,
      valuesOf (handedOut (currentValues (valuesOf s) (keys update))) key = valuesOf s key :=
    fun _ => handedOut_currentValues
  have hfn : (call update).updateFn (currentValues (valuesOf s) (keys update)) =
      .ok (pick (update.apply (handedOut (currentValues (valuesOf s) (keys update)))).1
        (keys update).list) := by
    dsimp only [call]
    rw [outcome_congr hhanded, h]
    rfl
  rw [updateState_of_sameKeys (keys_ne_nil update) hfn (sameKeys_pick _ (keys update))]
  refine congrArg (·, _) (funext fun key => ?_)
  dsimp only [assign]
  rw [lookup_pick]
  by_cases hkey : key ∈ (keys update).list
  · rw [if_pos hkey]
    exact apply_congr hhanded key hkey
  · rw [if_neg hkey]
    exact (apply_of_notMem hkey).symm

/-- One that throws is a call that throws. -/
theorem updateState_call_of_error {e : JsError} (h : (update.apply s).2 = .error e) :
    updateState (call update) (valuesOf s) = (valuesOf s, .error e) := by
  refine updateState_of_error ?_
  have hhanded : ∀ key ∈ (keys update).list,
      valuesOf (handedOut (currentValues (valuesOf s) (keys update))) key = valuesOf s key :=
    fun _ => handedOut_currentValues
  dsimp only [call]
  rw [outcome_congr hhanded, h]
  rfl

/-- After an update on other keys, an update does to its own what it would
have done. -/
theorem apply_after {first second : Update}
    (h : ∀ key ∈ (keys first).list, key ∉ (keys second).list) {key : StateKey}
    (hkey : key ∈ (keys first).list) :
    valuesOf (first.apply (second.apply s).1).1 key =
      valuesOf (second.apply (first.apply s).1).1 key := by
  have hsame : ∀ key ∈ (keys first).list, valuesOf (second.apply s).1 key = valuesOf s key :=
    fun key hkey => apply_of_notMem (h key hkey)
  exact (apply_congr hsame key hkey).trans (apply_of_notMem (h key hkey)).symm

/-- Updates on different keys can change places. -/
theorem apply_comm {first second : Update}
    (h : ∀ key ∈ (keys first).list, key ∉ (keys second).list) (s : State) :
    valuesOf (second.apply (first.apply s).1).1 = valuesOf (first.apply (second.apply s).1).1 := by
  funext key
  by_cases hfirst : key ∈ (keys first).list
  · exact (apply_after h hfirst).symm
  · by_cases hsecond : key ∈ (keys second).list
    · exact apply_after (fun key hkey hkey' => h key hkey' hkey) hsecond
    · rw [apply_of_notMem hsecond, apply_of_notMem hfirst, apply_of_notMem hfirst,
        apply_of_notMem hsecond]

end Bundler.UpdateFootprints
