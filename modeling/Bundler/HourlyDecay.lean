import Bundler.ReputationManager
import Bundler.Runs

/-!
The hourly cron against the decay it is meant for. What it holds on to are
the entries of the moment it was started, so a tick writes for each of their
addresses what comes of its counters then, and for no other address. At
startup there are no entries, and the ticks change nothing.
-/
namespace Bundler.HourlyDecay

open KeyedRecords AsyncPrograms DataModel StateService ReputationManager Runs

section Cron

/-- What the interval's function keeps from the start of the cron on. -/
def startHourlyCron : Async ReputationEntries := do
  let s ← getState
  pure s.reputationEntries

/-- One tick, with an access for each of the entries kept. -/
def hourlyTick (reputationEntries : ReputationEntries) : Async PUnit :=
  reputationEntries.values.forM fun entry => updateState (.reputation (.hourlyCron entry))

/-- What happens while the cron runs. -/
inductive CronAction
  | reputation (update : ReputationUpdate)
  | tick
  deriving DecidableEq, Repr

variable (reputationEntries : ReputationEntries)

def CronAction.program : CronAction → Async PUnit
  | .reputation update => updateState (.reputation update)
  | .tick => hourlyTick reputationEntries

def perform (s : State) (action : CronAction) : State :=
  (runAlone (action.program reputationEntries) s).1

end Cron

section Decay

/-- Exponential backoff: the floor of 23/24 of a counter. -/
def decay (count : ℤ) : ℤ := count * 23 / 24

/-- Both counters are zero. -/
def Spent (entry : ReputationEntry) : Prop := entry.opsSeen = 0 ∧ entry.opsIncluded = 0

instance (entry : ReputationEntry) : Decidable (Spent entry) := inferInstanceAs (Decidable (_ ∧ _))

/-- What a tick is to make of an entry: both counters decay, and an entry
that is spent is removed. -/
def decayed (entry : ReputationEntry) : Option ReputationEntry :=
  if Spent entry then none
  else some ⟨entry.address, decay entry.opsSeen, decay entry.opsIncluded⟩

/-- A tick in this state decays all entries that there are, and makes none. -/
def Decays (reputationEntries : ReputationEntries) (s : State) : Prop :=
  ∀ addr, (perform reputationEntries s .tick).reputationEntries.get addr =
    (s.reputationEntries.get addr).bind decayed

/-- The action, if it is a tick, does that. -/
def TickDecays (reputationEntries : ReputationEntries) (s : State) (action : CronAction) : Prop :=
  action = .tick → Decays reputationEntries s

/-- The decay leaves the counter as it is. -/
def Steady (count : ℤ) : Prop := -24 < count ∧ count ≤ 0

/-- The entry of an address when the cron was started, against the one before
a tick. -/
def Agree : Option ReputationEntry → Option ReputationEntry → Prop
  | none, none => True
  | none, some entry => ¬Spent entry ∧ Steady entry.opsSeen ∧ Steady entry.opsIncluded
  | some kept, none => Spent kept
  | some kept, some entry => (Spent kept ∧ Spent entry) ∨
      (¬Spent kept ∧ ¬Spent entry ∧ decay kept.opsSeen = decay entry.opsSeen ∧
        decay kept.opsSeen = decay entry.opsIncluded)

def TickAgrees (reputationEntries : ReputationEntries) (s : State) (action : CronAction) : Prop :=
  action = .tick →
    ∀ addr, Agree (reputationEntries.get addr) (s.reputationEntries.get addr)

end Decay

section Ticks

/-- What a tick leaves of an address with an entry kept: both counters come
from its opsSeen. -/
def written (kept : ReputationEntry) : Option ReputationEntry :=
  if Spent kept then none else some ⟨kept.address, decay kept.opsSeen, decay kept.opsSeen⟩

theorem get_hourlyCron (entries : ReputationEntries) (kept : ReputationEntry) (addr : String) :
    (StateService.hourlyCron entries kept).get addr =
      if kept.address = addr then written kept else entries.get addr := by
  have hspent : (kept.opsIncluded = 0 ∧ kept.opsSeen = 0) ↔ Spent kept := and_comm
  unfold StateService.hourlyCron written
  by_cases h : Spent kept
  · rw [if_pos (hspent.mpr h), if_pos h, KeyedRecord.get_delete]
    exact if_congr eq_comm rfl rfl
  · rw [if_neg (mt hspent.mp h), if_neg h, KeyedRecord.get_insert]
    exact if_congr eq_comm rfl rfl

theorem get_foldl_hourlyCron {kept : List ReputationEntry}
    (hnodup : (kept.map ReputationEntry.address).Nodup) (entries : ReputationEntries)
    (addr : String) :
    (kept.foldl StateService.hourlyCron entries).get addr =
      (kept.find? fun entry => entry.address = addr).elim (entries.get addr) written := by
  induction kept generalizing entries with
  | nil => rfl
  | cons entry kept ih =>
    rw [List.map_cons, List.nodup_cons] at hnodup
    rw [List.foldl_cons, ih hnodup.2, get_hourlyCron]
    by_cases hentry : entry.address = addr
    · have hnone : (kept.find? fun entry => entry.address = addr) = none := by
        rw [List.find?_eq_none]
        intro other hother hsame
        have haddr : other.address = addr := of_decide_eq_true hsame
        exact hnodup.1 (List.mem_map.mpr ⟨other, hother, haddr.trans hentry.symm⟩)
      rw [hnone, if_pos hentry, List.find?_cons, decide_eq_true hentry]
      rfl
    · rw [if_neg hentry, List.find?_cons, decide_eq_false hentry]

variable (reputationEntries : ReputationEntries) (s : State)

theorem startHourlyCron_run : runAlone startHourlyCron s = (s, .ok s.reputationEntries) := rfl

theorem hourlyTick_run :
    runAlone (hourlyTick reputationEntries) s =
      (reputationEntries.values.foldl (fun s entry => ReputationUpdate.apply s (.hourlyCron entry))
        s, .ok ⟨⟩) :=
  Program.run_forM Update.apply (fun _ _ => rfl) reputationEntries.values s

/-- A tick replaces what was kept, and leaves everything else. -/
theorem get_tick (addr : String) :
    (perform reputationEntries s .tick).reputationEntries.get addr =
      (reputationEntries.get addr).elim (s.reputationEntries.get addr) written := by
  have hfold (kept : List ReputationEntry) (s : State) :
      (kept.foldl (fun s entry => ReputationUpdate.apply s (.hourlyCron entry))
        s).reputationEntries = kept.foldl StateService.hourlyCron s.reputationEntries := by
    induction kept generalizing s with
    | nil => rfl
    | cons entry kept ih => exact ih _
  unfold perform CronAction.program
  dsimp only
  rw [hourlyTick_run, hfold]
  exact get_foldl_hourlyCron reputationEntries.nodup s.reputationEntries addr

/-- The second of two ticks in a row decays nothing further. -/
theorem get_tick_tick (addr : String) :
    (perform reputationEntries (perform reputationEntries s .tick) .tick).reputationEntries.get
        addr = (perform reputationEntries s .tick).reputationEntries.get addr := by
  rw [get_tick, get_tick]
  cases reputationEntries.get addr with
  | none => rfl
  | some kept => rfl

end Ticks

section Agreement

theorem decay_eq_self_iff (count : ℤ) : decay count = count ↔ Steady count := by
  unfold decay Steady
  omega

theorem written_eq_none_iff (kept : ReputationEntry) : written kept = none ↔ Spent kept := by
  unfold written
  by_cases h : Spent kept
  · simp [h]
  · simp [h]

/-- An entry that is not touched is as if it had decayed. -/
theorem eq_decayed_iff (entry : ReputationEntry) :
    some entry = decayed entry ↔
      ¬Spent entry ∧ Steady entry.opsSeen ∧ Steady entry.opsIncluded := by
  rw [← decay_eq_self_iff, ← decay_eq_self_iff]
  unfold decayed
  by_cases h : Spent entry
  · simp [h]
  · rw [if_neg h, Option.some.injEq]
    constructor
    · intro hentry
      refine ⟨h, ?_, ?_⟩
      · exact (congrArg ReputationEntry.opsSeen hentry).symm
      · exact (congrArg ReputationEntry.opsIncluded hentry).symm
    · rintro ⟨_, hseen, hincluded⟩
      rw [hseen, hincluded]

theorem written_eq_decayed_iff {kept entry : ReputationEntry}
    (haddress : kept.address = entry.address) :
    written kept = decayed entry ↔ Agree (some kept) (some entry) := by
  unfold written decayed Agree
  by_cases hkept : Spent kept
  · by_cases hentry : Spent entry
    · simp [hkept, hentry]
    · simp [hkept, hentry]
  · by_cases hentry : Spent entry
    · simp [hkept, hentry]
    · rw [if_neg hkept, if_neg hentry, Option.some.injEq, ReputationEntry.mk.injEq]
      simp [hkept, hentry, haddress]

/-- What a tick leaves of one address is what it is to leave exactly when the
entry kept and the current one agree. -/
theorem elim_written_eq_iff {addr : String} {kept current : Option ReputationEntry}
    (hkept : ∀ entry ∈ kept, entry.address = addr)
    (hcurrent : ∀ entry ∈ current, entry.address = addr) :
    kept.elim current written = current.bind decayed ↔ Agree kept current := by
  cases kept with
  | none =>
    cases current with
    | none => exact iff_of_true rfl trivial
    | some entry => exact eq_decayed_iff entry
  | some kept =>
    cases current with
    | none => exact written_eq_none_iff kept
    | some entry => exact written_eq_decayed_iff ((hkept kept rfl).trans (hcurrent entry rfl).symm)

theorem decays_iff (reputationEntries : ReputationEntries) (s : State) :
    Decays reputationEntries s ↔
      ∀ addr, Agree (reputationEntries.get addr) (s.reputationEntries.get addr) := by
  have haddress (entries : ReputationEntries) (addr : String) :
      ∀ entry ∈ entries.get addr, entry.address = addr :=
    fun entry hentry => ((entries.get_eq_some_iff _ _).mp hentry).2
  apply forall_congr'
  intro addr
  rw [get_tick]
  exact elim_written_eq_iff (haddress _ _) (haddress _ _)

/-- In a run that starts the cron, all ticks decay the entries exactly when at
each of them every address has an entry that agrees with the one at the start. -/
theorem ticks_decay_iff (s : State) (actions : List CronAction) :
    AllSteps (perform s.reputationEntries) (TickDecays s.reputationEntries) s actions ↔
      AllSteps (perform s.reputationEntries) (TickAgrees s.reputationEntries) s actions := by
  have hstep (s₂ : State) (action : CronAction) :
      TickDecays s.reputationEntries s₂ action ↔ TickAgrees s.reputationEntries s₂ action :=
    imp_congr_right fun _ => decays_iff s.reputationEntries s₂
  constructor
  · exact fun h => h.mono _ fun s₂ action => (hstep s₂ action).mp
  · exact fun h => h.mono _ fun s₂ action => (hstep s₂ action).mpr

end Agreement

section Concrete

/-- The cron is started without entries, as at startup. An account is then
seen twice, and its entry does not decay. -/
theorem later_entry_kept :
    ¬∀ (s : State) (actions : List CronAction),
      AllSteps (perform s.reputationEntries) (TickDecays s.reputationEntries) s actions := by
  intro h
  have hsteps := h (State.initial [] []) [.reputation (.updateSeenStatus account .increment),
    .reputation (.updateSeenStatus account .increment), .tick]
  exact absurd (hsteps.2.2.1 rfl account) (by decide)

end Concrete

end Bundler.HourlyDecay
