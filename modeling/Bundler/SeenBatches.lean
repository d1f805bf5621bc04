import Bundler.CounterTotals

/-!
Counting addresses as seen in one batch, against counting them one by one.
A batch computes every entry from the entries before it and does not look
whether an address is empty, so it does the same as the single calls exactly
when no address is empty and none is listed twice, whatever the letter case.
-/
namespace Bundler.SeenBatches

open KeyedRecords AsyncPrograms DataModel StateService ReputationManager Operations Runs
  CounterTotals CounterCall

/-- The calls that count the addresses one after the other. -/
def singleCalls (addrs : List String) : List CounterCall :=
  addrs.map fun addr => .updateSeenStatus addr .increment

def batched (addrs : List String) (s : State) : State :=
  (runAlone (ReputationManager.updateSeenStatusBatch addrs) s).1

section Sightings

/-- How often an address was counted, where none at all stands below zero:
the first sighting only makes the entry. -/
def sightings (entry : Option ReputationEntry) : ℤ := (entry.map ReputationEntry.opsSeen).getD (-1)

@[simp] theorem sightings_called (addr other : String) (entry : Option ReputationEntry) :
    sightings (some (called addr entry (.updateSeenStatus other .increment))) =
      sightings entry + 1 := by
  cases entry with
  | none => rfl
  | some entry => rfl

theorem batched_reputationEntries (addrs : List String) (s : State) :
    (batched addrs s).reputationEntries =
      StateService.updateSeenStatusBatch s.reputationEntries addrs := by
  unfold batched ReputationManager.updateSeenStatusBatch
  by_cases hnone : addrs = []
  · rw [if_pos hnone, hnone]
    rfl
  · rw [if_neg hnone]
    rfl

/-- A batch counts each address it lists once. -/
theorem sightings_batched (addrs : List String) (s : State) (key : String) :
    sightings ((batched addrs s).reputationEntries.get key) =
      sightings (s.reputationEntries.get key) + if key ∈ addrs.map toLowerCase then 1 else 0 := by
  rw [batched_reputationEntries, get_updateSeenStatusBatch]
  by_cases hlisted : key ∈ addrs.map toLowerCase
  · rw [if_pos hlisted, if_pos hlisted, sightings_called]
  · rw [if_neg hlisted, if_neg hlisted, add_zero]

/-- The calls that come to anything. -/
def named (addrs : List String) : List String := addrs.filter (fun addr => addr ≠ "")

theorem perform_empty (s : State) : perform s (.updateSeenStatus "" .increment) = s := rfl

theorem perform_increment {addr : String} (haddr : addr ≠ "") (s : State) :
    (perform s (.updateSeenStatus addr .increment)).reputationEntries =
      s.reputationEntries.insert (called (toLowerCase addr)
        (s.reputationEntries.get (toLowerCase addr)) (.updateSeenStatus addr .increment)) := by
  have hcall : (CounterCall.updateSeenStatus addr .increment).addr ≠ "" := haddr
  rw [perform_eq_update s hcall, update_reputationEntries]
  rfl

theorem sightings_perform {addr : String} (haddr : addr ≠ "") (s : State) (key : String) :
    sightings ((perform s (.updateSeenStatus addr .increment)).reputationEntries.get key) =
      sightings (s.reputationEntries.get key) + if toLowerCase addr = key then 1 else 0 := by
  rw [perform_increment haddr, KeyedRecord.get_insert, called_address]
  by_cases hkey : toLowerCase addr = key
  · rw [if_pos hkey.symm, if_pos hkey, sightings_called, hkey]
  · rw [if_neg (Ne.symm hkey), if_neg hkey, add_zero]

/-- The single calls count each address as often as it is listed. -/
theorem sightings_singleCalls (addrs : List String) (s : State) (key : String) :
    sightings ((run perform s (singleCalls addrs)).reputationEntries.get key) =
      sightings (s.reputationEntries.get key) + ((named addrs).map toLowerCase).count key := by
  induction addrs generalizing s with
  | nil => simp [singleCalls, named]
  | cons addr addrs ih =>
    change sightings ((run perform (perform s (.updateSeenStatus addr .increment))
      (singleCalls addrs)).reputationEntries.get key) = _
    rw [ih]
    by_cases haddr : addr = ""
    · have hrest : named (addr :: addrs) = named addrs := by simp [named, haddr]
      rw [hrest, haddr, perform_empty]
    · have hrest : named (addr :: addrs) = addr :: named addrs := by simp [named, haddr]
      rw [hrest, sightings_perform haddr, List.map_cons, List.count_cons]
      simp only [beq_iff_eq]
      push_cast
      omega

end Sightings

section Agreement

variable (s : State) (addrs : List String)

/-- The batch leaves the same entries as the single calls. -/
def BatchAgrees : Prop :=
  (batched addrs s).reputationEntries = (run perform s (singleCalls addrs)).reputationEntries

variable {s addrs}

theorem BatchAgrees.count_eq (h : BatchAgrees s addrs) (key : String) :
    ((named addrs).map toLowerCase).count key = if key ∈ addrs.map toLowerCase then 1 else 0 := by
  have hbatched := sightings_batched addrs s key
  have hsingle := sightings_singleCalls addrs s key
  rw [h] at hbatched
  split <;> simp_all

theorem BatchAgrees.empty_notMem (h : BatchAgrees s addrs) : "" ∉ addrs := by
  intro hmem
  have hlisted : toLowerCase "" ∈ addrs.map toLowerCase := List.mem_map_of_mem hmem
  have hcount := h.count_eq (toLowerCase "")
  rw [if_pos hlisted] at hcount
  have hnamed : toLowerCase "" ∈ (named addrs).map toLowerCase :=
    List.count_pos_iff.mp (by omega)
  obtain ⟨addr, haddr, hempty⟩ := List.mem_map.mp hnamed
  rw [toLowerCase_eq_empty_iff] at hempty
  simp [named, hempty] at haddr

theorem BatchAgrees.nodup (h : BatchAgrees s addrs) : (addrs.map toLowerCase).Nodup := by
  have hnamed : named addrs = addrs := by
    refine List.filter_eq_self.mpr ?_
    intro addr haddr
    exact decide_eq_true (ne_of_mem_of_not_mem haddr h.empty_notMem)
  rw [List.nodup_iff_count_le_one]
  intro key
  have hcount := h.count_eq key
  rw [hnamed] at hcount
  split at hcount <;> omega

/-- As long as the entries of the remaining addresses are those before the
batch, each single call writes what the batch writes. -/
theorem foldl_called_eq_singleCalls {entries : ReputationEntries} (hne : "" ∉ addrs)
    (hnodup : (addrs.map toLowerCase).Nodup)
    (hsame : ∀ addr ∈ addrs,
      s.reputationEntries.get (toLowerCase addr) = entries.get (toLowerCase addr)) :
    addrs.foldl (fun acc addr => acc.insert (called (toLowerCase addr)
        (entries.get (toLowerCase addr)) (.updateSeenStatus addr .increment)))
      s.reputationEntries = (run perform s (singleCalls addrs)).reputationEntries := by
  induction addrs generalizing s with
  | nil => rfl
  | cons addr addrs ih =>
    rw [List.mem_cons, not_or] at hne
    rw [List.map_cons, List.nodup_cons] at hnodup
    rw [List.forall_mem_cons] at hsame
    have hstep : (perform s (.updateSeenStatus addr .increment)).reputationEntries =
        s.reputationEntries.insert (called (toLowerCase addr) (entries.get (toLowerCase addr))
          (.updateSeenStatus addr .increment)) := by
      rw [perform_increment (Ne.symm hne.1), hsame.1]
    have hrest : ∀ other ∈ addrs,
        (perform s (.updateSeenStatus addr .increment)).reputationEntries.get
          (toLowerCase other) = entries.get (toLowerCase other) := by
      intro other hother
      have hkey : toLowerCase other ≠ toLowerCase addr := by
        intro heq
        exact hnodup.1 (heq ▸ List.mem_map_of_mem hother)
      rw [hstep, KeyedRecord.get_insert, called_address, if_neg hkey, hsame.2 other hother]
    rw [List.foldl_cons, ← hstep]
    exact ih hne.2 hnodup.2 hrest

end Agreement

/-- A batch agrees with the single calls exactly when none of its addresses
is empty and no two of them are the same in lower case. -/
theorem batch_agrees_iff (s : State) (addrs : List String) :
    BatchAgrees s addrs ↔ "" ∉ addrs ∧ (addrs.map toLowerCase).Nodup := by
  constructor
  · intro h
    exact ⟨h.empty_notMem, h.nodup⟩
  · intro h
    unfold BatchAgrees
    rw [batched_reputationEntries, updateSeenStatusBatch_eq]
    exact foldl_called_eq_singleCalls h.1 h.2 fun _ _ => rfl

/-- An address listed in two spellings is counted once by the batch and twice
by the single calls. -/
theorem repeated_address_counted_once :
    ¬BatchAgrees (State.initial [] []) ["0xAA", "0xaa"] := by
  intro h
  exact absurd (h.count_eq "0xaa") (by decide)

end Bundler.SeenBatches
