import Bundler.Operations
import Mathlib.Data.List.DropRight
import Mathlib.Tactic.Ring

/-!
The reputation counters against the calls that move them. The first call for
an address only makes its entry, with both counters at zero, unless it is a
crash. So one call is not counted: for good when it is an increment, and
until the next crash when it is an inclusion.
-/
namespace Bundler.CounterTotals

open KeyedRecords AsyncPrograms DataModel StateService ReputationManager Operations Runs

/-- The calls that move the counters of an address. -/
inductive CounterCall
  | updateSeenStatus (addr : String) (action : SeenAction)
  | updateIncludedStatus (addr : String)
  | crashedHandleOps (addr : String)
  deriving DecidableEq, Repr

namespace CounterCall

def addr : CounterCall → String
  | updateSeenStatus addr _ => addr
  | updateIncludedStatus addr => addr
  | crashedHandleOps addr => addr

def program : CounterCall → Async PUnit
  | updateSeenStatus addr action => ReputationManager.updateSeenStatus addr action
  | updateIncludedStatus addr => ReputationManager.updateIncludedStatus addr
  | crashedHandleOps addr => ReputationManager.crashedHandleOps addr

/-- The update of the state a call asks for. -/
def update : CounterCall → ReputationUpdate
  | updateSeenStatus addr action => .updateSeenStatus addr action
  | updateIncludedStatus addr => .updateIncludedStatus addr
  | crashedHandleOps addr => .crashedHandleOps addr

def perform (s : State) (call : CounterCall) : State := (runAlone call.program s).1

def isIncrement : CounterCall → Bool
  | updateSeenStatus _ .increment => true
  | _ => false

def isDecrement : CounterCall → Bool
  | updateSeenStatus _ .decrement => true
  | _ => false

def isIncluded : CounterCall → Bool
  | updateIncludedStatus _ => true
  | _ => false

def isCrash : CounterCall → Bool
  | crashedHandleOps _ => true
  | _ => false

/-- The call is for the address, in whatever letter case. -/
def isFor (addr : String) (call : CounterCall) : Bool := toLowerCase call.addr = toLowerCase addr

end CounterCall

open CounterCall

section Totals

/-- What opsSeen is to be: increments less decrements, and ten thousand for each crash. -/
def seenTotal (own : List CounterCall) : ℤ :=
  own.countP isIncrement - own.countP isDecrement + 10000 * own.countP isCrash

/-- What opsIncluded is to be: the inclusions since the last crash. -/
def includedTotal (own : List CounterCall) : ℤ :=
  (own.rtakeWhile fun call => !isCrash call).countP isIncluded

/-- The calls for one address. -/
def own (addr : String) (calls : List CounterCall) : List CounterCall := calls.filter (isFor addr)

def opsSeen (s : State) (addr : String) : ℤ :=
  ((s.reputationEntries.get (toLowerCase addr)).map ReputationEntry.opsSeen).getD 0

def opsIncluded (s : State) (addr : String) : ℤ :=
  ((s.reputationEntries.get (toLowerCase addr)).map ReputationEntry.opsIncluded).getD 0

/-- Both counters of the address are what the calls add up to. -/
def CountsExactly (calls : List CounterCall) (s : State) (addr : String) : Prop :=
  opsSeen s addr = seenTotal (own addr calls) ∧
    opsIncluded s addr = includedTotal (own addr calls)

/-- No address was decremented more often than it was incremented before. -/
def Balanced (calls : List CounterCall) : Prop :=
  ∀ before, before <+: calls → ∀ addr,
    (own addr before).countP isDecrement ≤ (own addr before).countP isIncrement

/-- After none of the calls opsSeen of any address was negative. -/
def NeverNegative (s : State) (calls : List CounterCall) : Prop :=
  ∀ before, before <+: calls → ∀ addr, 0 ≤ opsSeen (run perform s before) addr

/-- The first call for an address is a crash, or an inclusion that a crash follows. -/
def WellStarted : List CounterCall → Prop
  | [] => True
  | .updateSeenStatus _ _ :: _ => False
  | .updateIncludedStatus _ :: rest => rest.any isCrash
  | .crashedHandleOps _ :: _ => True

end Totals

section Projection

/-- What a call makes of the entry of its address. -/
def called (addr : String) (entry : Option ReputationEntry) : CounterCall → ReputationEntry
  | .updateSeenStatus _ action =>
      match entry with
      | some entry => ⟨addr, entry.opsSeen + (if action = .increment then 1 else -1),
          entry.opsIncluded⟩
      | none => ⟨addr, 0, 0⟩
  | .updateIncludedStatus _ =>
      match entry with
      | some entry => ⟨addr, entry.opsSeen, entry.opsIncluded + 1⟩
      | none => ⟨addr, 0, 0⟩
  | .crashedHandleOps _ =>
      match entry with
      | some entry => ⟨addr, entry.opsSeen + 10000, 0⟩
      | none => ⟨addr, 10000, 0⟩

theorem called_address (addr : String) (entry : Option ReputationEntry) (call : CounterCall) :
    (called addr entry call).address = addr := by
  cases call <;> cases entry <;> rfl

/-- An update writes the entry of its address. -/
theorem update_reputationEntries (s : State) (call : CounterCall) :
    (ReputationUpdate.apply s call.update).reputationEntries = s.reputationEntries.insert
      (called (toLowerCase call.addr) (s.reputationEntries.get (toLowerCase call.addr)) call) := by
  cases call with
  | updateSeenStatus addr action =>
    change StateService.updateSeenStatus s.reputationEntries addr action = _
    unfold StateService.updateSeenStatus called CounterCall.addr
    dsimp only
    cases s.reputationEntries.get (toLowerCase addr) with
    | none => rfl
    | some entry => rfl
  | updateIncludedStatus addr =>
    change StateService.updateIncludedStatus s.reputationEntries addr = _
    unfold StateService.updateIncludedStatus called CounterCall.addr
    dsimp only
    cases s.reputationEntries.get (toLowerCase addr) with
    | none => rfl
    | some entry => rfl
  | crashedHandleOps addr =>
    change StateService.crashedHandleOps s.reputationEntries addr = _
    unfold StateService.crashedHandleOps called CounterCall.addr
    dsimp only
    cases s.reputationEntries.get (toLowerCase addr) with
    | none => rfl
    | some entry => rfl

theorem get_update (s : State) (call : CounterCall) (addr : String) :
    (ReputationUpdate.apply s call.update).reputationEntries.get (toLowerCase addr) =
      if isFor addr call then
        some (called (toLowerCase addr) (s.reputationEntries.get (toLowerCase addr)) call)
      else s.reputationEntries.get (toLowerCase addr) := by
  rw [update_reputationEntries, KeyedRecord.get_insert, called_address]
  by_cases hfor : isFor addr call
  · have hkey : toLowerCase call.addr = toLowerCase addr := of_decide_eq_true hfor
    rw [if_pos hkey.symm, if_pos hfor, hkey]
  · have hkey : toLowerCase addr ≠ toLowerCase call.addr := by
      intro hsame
      exact hfor (decide_eq_true hsame.symm)
    rw [if_neg hkey, if_neg hfor]

/-- A batch writes the entry of each of its addresses, from the entries before it. -/
theorem updateSeenStatusBatch_eq (entries : ReputationEntries) (addrs : List String) :
    StateService.updateSeenStatusBatch entries addrs = addrs.foldl (fun acc addr =>
      acc.insert (called (toLowerCase addr) (entries.get (toLowerCase addr))
        (.updateSeenStatus addr .increment))) entries := by
  unfold StateService.updateSeenStatusBatch
  congr 1
  funext acc addr
  dsimp only
  cases entries.get (toLowerCase addr) with
  | none => rfl
  | some entry => rfl

theorem get_foldl_called (entries acc : ReputationEntries) (addrs : List String) (key : String) :
    (addrs.foldl (fun acc addr => acc.insert (called (toLowerCase addr)
        (entries.get (toLowerCase addr)) (.updateSeenStatus addr .increment))) acc).get key =
    if key ∈ addrs.map toLowerCase then
      some (called key (entries.get key) (.updateSeenStatus key .increment))
    else acc.get key := by
  induction addrs generalizing acc with
  | nil => simp
  | cons addr addrs ih =>
    rw [List.foldl_cons, ih, KeyedRecord.get_insert, called_address, List.map_cons]
    by_cases hsame : key = toLowerCase addr
    · have hcalled : called key (entries.get key) (.updateSeenStatus addr .increment) =
          called key (entries.get key) (.updateSeenStatus key .increment) := rfl
      rw [if_pos hsame, ← hsame, hcalled]
      simp
    · simp only [List.mem_cons, hsame, false_or, if_false]

/-- However often a batch lists an address, it counts it once. -/
theorem get_updateSeenStatusBatch (entries : ReputationEntries) (addrs : List String)
    (key : String) :
    (StateService.updateSeenStatusBatch entries addrs).get key =
      if key ∈ addrs.map toLowerCase then
        some (called key (entries.get key) (.updateSeenStatus key .increment))
      else entries.get key := by
  rw [updateSeenStatusBatch_eq, get_foldl_called]

/-- Only updateSeenStatus looks whether there is an address at all. -/
theorem perform_eq_update (s : State) {call : CounterCall} (hcall : call.addr ≠ "") :
    perform s call = ReputationUpdate.apply s call.update := by
  cases call with
  | updateSeenStatus addr action =>
    have htruthy : truthy (some addr) = some addr := truthy_some hcall
    unfold perform program ReputationManager.updateSeenStatus
    dsimp only
    rw [htruthy]
    rfl
  | updateIncludedStatus addr => rfl
  | crashedHandleOps addr => rfl

/-- The entry of an address after calls is what the calls for it make of it. -/
theorem get_run {s : State} {calls : List CounterCall} (hcalls : ∀ call ∈ calls, call.addr ≠ "")
    (addr : String) :
    (run perform s calls).reputationEntries.get (toLowerCase addr) =
      (own addr calls).foldl (fun entry call => some (called (toLowerCase addr) entry call))
        (s.reputationEntries.get (toLowerCase addr)) := by
  induction calls generalizing s with
  | nil => rfl
  | cons call calls ih =>
    rw [List.forall_mem_cons] at hcalls
    rw [run_cons, ih hcalls.2, perform_eq_update s hcalls.1, get_update]
    unfold own
    by_cases hfor : isFor addr call
    · rw [if_pos hfor, List.filter_cons_of_pos hfor]
      rfl
    · rw [if_neg hfor, List.filter_cons_of_neg hfor]

end Projection

section Counting

theorem seenTotal_concat (calls : List CounterCall) (call : CounterCall) :
    seenTotal (calls ++ [call]) = seenTotal calls + seenTotal [call] := by
  unfold seenTotal
  rw [List.countP_append, List.countP_append, List.countP_append]
  push_cast
  ring

theorem includedTotal_concat (calls : List CounterCall) (call : CounterCall) :
    includedTotal (calls ++ [call]) =
      if isCrash call then 0 else includedTotal calls + [call].countP isIncluded := by
  unfold includedTotal
  rw [List.rtakeWhile_concat]
  cases isCrash call with
  | true => rfl
  | false =>
    change (((calls.rtakeWhile fun call => !isCrash call) ++ [call]).countP isIncluded : ℤ) =
      includedTotal calls + [call].countP isIncluded
    rw [List.countP_append]
    rfl

theorem called_opsSeen (addr : String) (entry : ReputationEntry) (call : CounterCall) :
    (called addr (some entry) call).opsSeen = entry.opsSeen + seenTotal [call] := by
  cases call with
  | updateSeenStatus other action => cases action <;> rfl
  | updateIncludedStatus other => exact (add_zero _).symm
  | crashedHandleOps other =>
    have htotal : seenTotal [.crashedHandleOps other] = 10000 := by
      simp [seenTotal, isIncrement, isDecrement, isCrash]
    rw [htotal]
    rfl

theorem called_opsIncluded (addr : String) (entry : ReputationEntry) (call : CounterCall) :
    (called addr (some entry) call).opsIncluded =
      if isCrash call then 0 else entry.opsIncluded + [call].countP isIncluded := by
  cases call with
  | updateSeenStatus other action => exact (add_zero _).symm
  | updateIncludedStatus other => rfl
  | crashedHandleOps other => rfl

/-- Once there is an entry, its counters move by what the calls add up to,
from zero inclusions if one of them is a crash. -/
theorem foldl_called (addr : String) (entry : ReputationEntry) (calls : List CounterCall) :
    ∃ last, calls.foldl (fun entry call => some (called addr entry call)) (some entry) =
        some last ∧ last.opsSeen = entry.opsSeen + seenTotal calls ∧
      last.opsIncluded =
        (if calls.any isCrash then 0 else entry.opsIncluded) + includedTotal calls := by
  induction calls using List.reverseRecOn with
  | nil => exact ⟨entry, rfl, (add_zero _).symm, (add_zero _).symm⟩
  | append_singleton calls call ih =>
    obtain ⟨last, hlast, hseen, hincluded⟩ := ih
    refine ⟨called addr (some last) call, ?_, ?_, ?_⟩
    · rw [List.foldl_append, hlast]
      rfl
    · rw [called_opsSeen, seenTotal_concat, hseen]
      ring
    · rw [called_opsIncluded, includedTotal_concat, List.any_append, hincluded]
      cases hcrash : isCrash call with
      | true => simp [hcrash]
      | false =>
        simp [hcrash]
        ring

/-- The counters after the calls for one address, from no entry on. -/
def counted (addr : String) (own : List CounterCall) : Option ReputationEntry :=
  own.foldl (fun entry call => some (called addr entry call)) none

/-- Counting starts at zero with the first call, or at ten thousand with a crash. -/
theorem counted_cons (addr : String) (first : CounterCall) (rest : List CounterCall) :
    ∃ last, counted addr (first :: rest) = some last ∧
      last.opsSeen = (if isCrash first then 10000 else 0) + seenTotal rest ∧
      last.opsIncluded = includedTotal rest := by
  obtain ⟨last, hlast, hseen, hincluded⟩ := foldl_called addr (called addr none first) rest
  refine ⟨last, hlast, ?_, ?_⟩
  · rw [hseen]
    cases first <;> rfl
  · have hzero : (called addr none first).opsIncluded = 0 := by cases first <;> rfl
    rw [hincluded, hzero, ite_self, zero_add]

theorem seenTotal_cons (first : CounterCall) (rest : List CounterCall) :
    seenTotal (first :: rest) = seenTotal [first] + seenTotal rest := by
  unfold seenTotal
  rw [← List.singleton_append, List.countP_append, List.countP_append, List.countP_append]
  push_cast
  ring

theorem includedTotal_cons (first : CounterCall) (rest : List CounterCall) :
    includedTotal (first :: rest) =
      (if rest.any isCrash then 0 else ([first].countP isIncluded : ℤ)) + includedTotal rest := by
  induction rest using List.reverseRecOn with
  | nil =>
    change includedTotal ([] ++ [first]) = _
    rw [includedTotal_concat]
    cases first <;> rfl
  | append_singleton rest call ih =>
    rw [← List.cons_append, includedTotal_concat, includedTotal_concat, List.any_append, ih]
    cases hcrash : isCrash call with
    | true => simp [hcrash]
    | false =>
      simp [hcrash]
      ring

/-- opsSeen comes out right exactly when the first call is not one of updateSeenStatus. -/
theorem counted_opsSeen_iff (addr : String) (own : List CounterCall) :
    ((counted addr own).map ReputationEntry.opsSeen).getD 0 = seenTotal own ↔
      ∀ first ∈ own.head?, isCrash first ∨ isIncluded first := by
  cases own with
  | nil => exact iff_of_true rfl nofun
  | cons first rest =>
    obtain ⟨last, hlast, hseen, _⟩ := counted_cons addr first rest
    rw [hlast, Option.map_some, Option.getD_some, hseen, seenTotal_cons, List.head?_cons]
    have hfirst : ((if isCrash first then 10000 else 0 : ℤ) = seenTotal [first]) ↔
        (isCrash first ∨ isIncluded first) := by
      cases first with
      | updateSeenStatus other action =>
        cases action with
        | increment => simp [seenTotal, isIncrement, isDecrement, isCrash, isIncluded]
        | decrement => simp [seenTotal, isIncrement, isDecrement, isCrash, isIncluded]
      | updateIncludedStatus other =>
        simp [seenTotal, isIncrement, isDecrement, isCrash, isIncluded]
      | crashedHandleOps other =>
        simp [seenTotal, isIncrement, isDecrement, isCrash, isIncluded]
    rw [add_right_cancel_iff, hfirst]
    simp

theorem WellStarted.first {own : List CounterCall} (h : WellStarted own) :
    ∀ first ∈ own.head?, isCrash first ∨ isIncluded first := by
  rcases own with _ | ⟨first, rest⟩
  · exact nofun
  · rintro _ ⟨⟩
    cases first with
    | updateSeenStatus other action => exact h.elim
    | updateIncludedStatus other => exact Or.inr rfl
    | crashedHandleOps other => exact Or.inl rfl

/-- Both counters come out right exactly when the calls are well started. -/
theorem counted_iff (addr : String) (own : List CounterCall) :
    (((counted addr own).map ReputationEntry.opsSeen).getD 0 = seenTotal own ∧
        ((counted addr own).map ReputationEntry.opsIncluded).getD 0 = includedTotal own) ↔
      WellStarted own := by
  rw [counted_opsSeen_iff]
  cases own with
  | nil => exact iff_of_true ⟨nofun, rfl⟩ trivial
  | cons first rest =>
    obtain ⟨last, hlast, _, hincluded⟩ := counted_cons addr first rest
    rw [hlast, Option.map_some, Option.getD_some, hincluded, includedTotal_cons, List.head?_cons]
    cases first with
    | updateSeenStatus other action => simp [WellStarted, isCrash, isIncluded]
    | updateIncludedStatus other =>
      cases hany : rest.any isCrash with
      | true => simp [WellStarted, isIncluded, hany]
      | false => simp [WellStarted, isIncluded, hany]
    | crashedHandleOps other => simp [WellStarted, isCrash, isIncluded]

end Counting

section Runs

variable {calls : List CounterCall}

theorem counters_of_empty {s : State} (hempty : s.reputationEntries = .empty)
    (hcalls : ∀ call ∈ calls, call.addr ≠ "") (addr : String) :
    (run perform s calls).reputationEntries.get (toLowerCase addr) =
      counted (toLowerCase addr) (own addr calls) := by
  rw [get_run hcalls, hempty]
  rfl

/-- With no address decremented too often, opsSeen is not negative where it is
what it is to be. -/
theorem seenTotal_nonneg (hbalanced : Balanced calls) {before : List CounterCall}
    (hpre : before <+: calls) (addr : String) : 0 ≤ seenTotal (own addr before) := by
  have := hbalanced before hpre addr
  unfold seenTotal
  omega

/-- From no entries at all, the counters of all addresses are what the calls
add up to, and opsSeen is never negative, exactly when for each address the
first call is a crash or an inclusion that a crash follows. -/
theorem counts_exactly_iff (s : State) (calls : List CounterCall)
    (hempty : s.reputationEntries = .empty) (hcalls : ∀ call ∈ calls, call.addr ≠ "")
    (hbalanced : Balanced calls) :
    ((∀ addr, CountsExactly calls (run perform s calls) addr) ∧ NeverNegative s calls) ↔
      ∀ addr, WellStarted (own addr calls) := by
  have hexact (addr : String) :
      CountsExactly calls (run perform s calls) addr ↔ WellStarted (own addr calls) := by
    unfold CountsExactly opsSeen opsIncluded
    rw [counters_of_empty hempty hcalls]
    exact counted_iff _ _
  constructor
  · intro h addr
    exact (hexact addr).mp (h.1 addr)
  · intro h
    refine ⟨fun addr => (hexact addr).mpr (h addr), ?_⟩
    intro before hpre addr
    have hbefore : ∀ call ∈ before, call.addr ≠ "" :=
      fun call hcall => hcalls call (hpre.subset hcall)
    have hown : own addr before <+: own addr calls := hpre.filter _
    have hfirst : ∀ first ∈ (own addr before).head?, isCrash first ∨ isIncluded first := by
      intro first hhead
      obtain ⟨rest, hrest⟩ := hown
      refine (h addr).first first ?_
      rw [← hrest]
      exact List.mem_head?_append_of_mem_head? hhead
    have hseen := (counted_opsSeen_iff (toLowerCase addr) _).mpr hfirst
    unfold opsSeen
    rw [counters_of_empty hempty hbefore, hseen]
    exact seenTotal_nonneg hbalanced hpre addr

end Runs

section Concrete

theorem balanced_of_no_decrement {calls : List CounterCall}
    (h : ∀ call ∈ calls, ¬isDecrement call) : Balanced calls := by
  intro before hpre addr
  have hnone : (own addr before).countP isDecrement = 0 := by
    refine List.countP_eq_zero.mpr ?_
    intro call hcall
    exact h call (hpre.subset (List.mem_filter.mp hcall).1)
  omega

/-- An inclusion, a crash, and the counting from there on. -/
def crashedEarly : List CounterCall :=
  [.updateIncludedStatus account, .crashedHandleOps checksummed,
    .updateSeenStatus account .increment, .updateIncludedStatus account]

theorem crashedEarly_wellStarted (addr : String) : WellStarted (own addr crashedEarly) := by
  have hsame : ∀ call ∈ crashedEarly, toLowerCase call.addr = toLowerCase account := by decide
  by_cases haddr : toLowerCase account = toLowerCase addr
  · have hall : own addr crashedEarly = crashedEarly := List.filter_eq_self.mpr
      fun call hcall => decide_eq_true ((hsame call hcall).trans haddr)
    rw [hall]
    rfl
  · have hnone : own addr crashedEarly = [] := List.filter_eq_nil_iff.mpr
      fun call hcall hfor => haddr ((hsame call hcall).symm.trans (of_decide_eq_true hfor))
    rw [hnone]
    trivial

theorem crashedEarly_counts :
    (∀ addr, CountsExactly crashedEarly (run perform (State.initial [] []) crashedEarly) addr) ∧
      NeverNegative (State.initial [] []) crashedEarly :=
  (counts_exactly_iff (State.initial [] []) crashedEarly rfl (by decide)
    (balanced_of_no_decrement (by decide))).mpr crashedEarly_wellStarted

/-- The first increment is not counted. -/
theorem first_increment_lost :
    ¬∀ (s : State) (calls : List CounterCall), s.reputationEntries = .empty →
      (∀ call ∈ calls, call.addr ≠ "") → Balanced calls →
      (∀ addr, CountsExactly calls (run perform s calls) addr) ∧ NeverNegative s calls := by
  intro h
  have hcounts := h (State.initial [] []) [.updateSeenStatus account .increment] rfl (by decide)
    (balanced_of_no_decrement (by decide))
  exact absurd (hcounts.1 account).1 (by decide)

end Concrete

end Bundler.CounterTotals
