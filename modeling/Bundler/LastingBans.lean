import Bundler.BannedAddresses
import Bundler.CounterTotals

/-!
How long the ban of a crash lasts. A crash leaves at least ten thousand
operations seen and none included, so the expected inclusions are at least
a thousand, and the slack of the ban is fifty. What is seen afterwards only
raises the expectation, and another crash starts the inclusions again.
-/
namespace Bundler.LastingBans

open KeyedRecords AsyncPrograms DataModel StateService ReputationManager Runs BannedAddresses
  CounterTotals

/-- What may happen to the counters after a crash: anything but a decrement. -/
inductive LaterCall
  | seen (addr : String)
  | seenBatch (addrs : List String)
  | crashed (addr : String)
  | included (addr : String)
  deriving DecidableEq, Repr

namespace LaterCall

def program : LaterCall → Async PUnit
  | seen addr => ReputationManager.updateSeenStatus addr .increment
  | seenBatch addrs => ReputationManager.updateSeenStatusBatch addrs
  | crashed addr => ReputationManager.crashedHandleOps addr
  | included addr => ReputationManager.updateIncludedStatus addr

def perform (s : State) (call : LaterCall) : State := (runAlone call.program s).1

/-- The call is an inclusion of the address, in whatever letter case. -/
def includes (addr : String) : LaterCall → Bool
  | included other => toLowerCase other = toLowerCase addr
  | _ => false

end LaterCall

open LaterCall
open CounterCall (isFor)

/-- What getStatus answers at every point from a state on. -/
def BannedThroughout (addr : String) (s : State) (calls : List LaterCall) : Prop :=
  AllStates perform (fun s => (runAlone (getStatus addr) s).2 = .ok .banned) s calls

/-- The counters of an address some time after a crash, with at most so many
inclusions since. -/
structure Crashed (addr : String) (inclusions : ℕ) (s : State) : Prop where
  notWhite : toLowerCase addr ∉ s.whiteList
  counters : ∃ entry, s.reputationEntries.get (toLowerCase addr) = some entry ∧
    10000 ≤ entry.opsSeen ∧ entry.opsIncluded ≤ inclusions

section Steps

variable {addr : String} {inclusions : ℕ} {s : State}

theorem Crashed.mono {more : ℕ} (h : Crashed addr inclusions s) (hmore : inclusions ≤ more) :
    Crashed addr more s := by
  obtain ⟨entry, hget, hseen, hincluded⟩ := h.counters
  exact ⟨h.notWhite, entry, hget, hseen, by omega⟩

/-- Below 950 inclusions the ban slack is not enough. -/
theorem Crashed.banned (h : Crashed addr inclusions s) (hfew : inclusions < 950) :
    (runAlone (getStatus addr) s).2 = .ok .banned := by
  obtain ⟨entry, hget, hseen, hincluded⟩ := h.counters
  have hbanned : entryStatus entry = .banned := by
    rw [entryStatus_eq_banned_iff]
    unfold minInclusionDenominator banSlack
    omega
  exact congrArg Except.ok
    ((statusIn_eq_banned_iff s addr).mpr ⟨h.notWhite, Or.inr ⟨entry, hget, hbanned⟩⟩)

theorem Crashed.of_seenMore {s' : State} (h : Crashed addr inclusions s)
    (hwhite : s'.whiteList = s.whiteList)
    (hseen : SeenMore s.reputationEntries s'.reputationEntries) : Crashed addr inclusions s' := by
  obtain ⟨entry, hget, hmany, hincluded⟩ := h.counters
  obtain ⟨entry', hget', hmore, hsame⟩ := hseen _ entry hget
  exact ⟨hwhite ▸ h.notWhite, entry', hget', by omega, by omega⟩

/-- A crash makes it so, whatever was included before. -/
theorem crashed_crashedHandleOps (hwhite : toLowerCase addr ∉ s.whiteList)
    (hseen : ∀ entry ∈ s.reputationEntries.get (toLowerCase addr), 0 ≤ entry.opsSeen) :
    Crashed addr 0 (perform s (.crashed addr)) := by
  refine ⟨hwhite, ?_⟩
  have hfor : isFor addr (.crashedHandleOps addr) := decide_eq_true rfl
  have hget := get_update s (.crashedHandleOps addr) addr
  rw [if_pos hfor] at hget
  refine ⟨_, hget, ?_⟩
  unfold called
  cases hentry : s.reputationEntries.get (toLowerCase addr) with
  | none => exact ⟨le_refl _, le_refl _⟩
  | some entry =>
    have hpositive : 0 ≤ entry.opsSeen := hseen entry hentry
    exact ⟨by dsimp only; omega, le_refl _⟩

/-- One call keeps the counters so, an inclusion of the address with one more. -/
theorem crashed_step (h : Crashed addr inclusions s) (call : LaterCall) :
    Crashed addr (inclusions + if includes addr call then 1 else 0) (perform s call) := by
  have hsame {s' : State} (hs' : Crashed addr inclusions s') :
      Crashed addr (inclusions + if includes addr call then 1 else 0) s' :=
    hs'.mono (Nat.le_add_right _ _)
  cases call with
  | seen other =>
    apply hsame
    change Crashed addr inclusions
      (runAlone (ReputationManager.updateSeenStatus other .increment) s).1
    unfold ReputationManager.updateSeenStatus
    cases truthy (some other) with
    | none => exact h
    | some other => exact h.of_seenMore rfl (seenMore_updateSeenStatus _ _)
  | seenBatch addrs =>
    apply hsame
    change Crashed addr inclusions (runAlone (ReputationManager.updateSeenStatusBatch addrs) s).1
    unfold ReputationManager.updateSeenStatusBatch
    split
    · exact h
    · exact h.of_seenMore rfl (seenMore_updateSeenStatusBatch _ _)
  | crashed other =>
    apply hsame
    by_cases hother : toLowerCase other = toLowerCase addr
    · obtain ⟨entry, hget, hseen, _⟩ := h.counters
      have hcrashed : Crashed other 0 (perform s (.crashed other)) := by
        refine crashed_crashedHandleOps (hother ▸ h.notWhite) ?_
        rw [hother, hget]
        rintro _ ⟨⟩
        omega
      have hagain : Crashed addr 0 (perform s (.crashed other)) :=
        ⟨hother ▸ hcrashed.notWhite, hother ▸ hcrashed.counters⟩
      exact hagain.mono (Nat.zero_le _)
    · refine ⟨h.notWhite, ?_⟩
      have hfor : ¬isFor addr (.crashedHandleOps other) := fun h => hother (of_decide_eq_true h)
      have hget := get_update s (.crashedHandleOps other) addr
      rw [if_neg hfor] at hget
      obtain ⟨entry, hentry, hcounters⟩ := h.counters
      exact ⟨entry, hget.trans hentry, hcounters⟩
  | included other =>
    refine ⟨h.notWhite, ?_⟩
    obtain ⟨entry, hentry, hseen, hincluded⟩ := h.counters
    have hget := get_update s (.updateIncludedStatus other) addr
    by_cases hother : toLowerCase other = toLowerCase addr
    · have hincludes : includes addr (.included other) := decide_eq_true hother
      have hfor : isFor addr (.updateIncludedStatus other) := decide_eq_true hother
      rw [if_pos hfor, hentry] at hget
      refine ⟨_, hget, hseen, ?_⟩
      rw [if_pos hincludes]
      unfold called
      dsimp only
      omega
    · have hfor : ¬isFor addr (.updateIncludedStatus other) :=
        fun h => hother (of_decide_eq_true h)
      rw [if_neg hfor, hentry] at hget
      exact ⟨entry, hget, hseen, by omega⟩

/-- The counters along calls with few inclusions of the address left. -/
theorem bannedThroughout_of_crashed {calls : List LaterCall} (h : Crashed addr inclusions s)
    (hfew : inclusions + calls.countP (includes addr) < 950) : BannedThroughout addr s calls := by
  unfold BannedThroughout
  induction calls generalizing s inclusions with
  | nil => exact h.banned (by simpa using hfew)
  | cons call calls ih =>
    rw [List.countP_cons] at hfew
    refine ⟨h.banned (by omega), ih (crashed_step h call) ?_⟩
    omega

end Steps

/-- An address that is not white-listed stays banned from a crash on, until
it was included 950 times. -/
theorem crash_ban_lasts (addr : String) (s : State)
    (hwhite : toLowerCase addr ∉ s.whiteList)
    (hseen : ∀ entry ∈ s.reputationEntries.get (toLowerCase addr), 0 ≤ entry.opsSeen)
    (calls : List LaterCall) (hfew : calls.countP (includes addr) < 950) :
    BannedThroughout addr (perform s (.crashed addr)) calls := by
  apply bannedThroughout_of_crashed (crashed_crashedHandleOps hwhite hseen)
  omega

/-- A crash of the account, with an inclusion of it before another crash. -/
theorem crash_ban_lasts_over_inclusions :
    BannedThroughout account (perform (State.initial [] []) (.crashed account))
      [.seen account, .included account, .seenBatch [account, sponsor], .crashed sponsor] :=
  crash_ban_lasts account (State.initial [] []) (by decide) (by decide)
    [.seen account, .included account, .seenBatch [account, sponsor], .crashed sponsor] (by decide)

end Bundler.LastingBans
