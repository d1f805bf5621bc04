import Mathlib.Data.List.DropRight

/-!
The logs of one operation among those of a bundle. One pass over the logs
keeps two indices: where the logs of the operation start and where they end.
A BeforeExecution log sets both, and from then on a UserOperationEvent of
another operation no longer moves the start.
-/
namespace Bundler.OperationLogs

section Lists

variable {α : Type*} {p q : α → Bool} {l : List α}

/-- The index of the last element of a kind, or -1. -/
def lastIndex (p : α → Bool) (l : List α) : ℤ := (l.rdropWhile fun x => !p x).length - 1

theorem lastIndex_concat (p : α → Bool) (l : List α) (x : α) :
    lastIndex p (l ++ [x]) = if p x then (l.length : ℤ) else lastIndex p l := by
  unfold lastIndex
  rw [List.rdropWhile_concat]
  cases p x with
  | true => simp
  | false => simp

theorem lastIndex_ne (h : l.any p) : lastIndex p l ≠ -1 := by
  obtain ⟨x, hx, hp⟩ := List.any_eq_true.mp h
  have hkept : l.rdropWhile (fun x => !p x) ≠ [] := by
    intro hnil
    have hall := List.rdropWhile_eq_nil_iff.mp hnil x hx
    simp [hp] at hall
  have hpos := List.length_pos_iff.mpr hkept
  unfold lastIndex
  omega

/-- What comes after it are the last elements not of the kind. -/
theorem drop_lastIndex (p : α → Bool) (l : List α) :
    l.drop (lastIndex p l + 1).toNat = l.rtakeWhile fun x => !p x := by
  have happend : l.rdropWhile (fun x => !p x) ++ l.rtakeWhile (fun x => !p x) = l :=
    List.rdropWhile_append_rtakeWhile
  have hlength : (lastIndex p l + 1).toNat = (l.rdropWhile fun x => !p x).length := by
    unfold lastIndex
    omega
  have hdrop : (l.rdropWhile (fun x => !p x) ++ l.rtakeWhile (fun x => !p x)).drop
      (l.rdropWhile fun x => !p x).length = l.rtakeWhile fun x => !p x := List.drop_left
  rw [happend] at hdrop
  rw [hlength, hdrop]

/-- A stronger condition takes the same end exactly when all of it meets the rest. -/
theorem rtakeWhile_and_eq_iff :
    l.rtakeWhile (fun x => p x && q x) = l.rtakeWhile p ↔ ∀ x ∈ l.rtakeWhile p, q x := by
  have htwice : (l.rtakeWhile p).rtakeWhile q = l.rtakeWhile fun x => p x && q x := by
    unfold List.rtakeWhile
    rw [List.reverse_reverse, List.takeWhile_takeWhile]
    congr 2
    funext x
    simp [Bool.and_comm]
  rw [← htwice]
  exact List.rtakeWhile_eq_self_iff

theorem rtakeWhile_congr (h : ∀ x ∈ l, p x = q x) : l.rtakeWhile p = l.rtakeWhile q := by
  induction l using List.reverseRecOn with
  | nil => rfl
  | append_singleton l x ih =>
    rw [List.rtakeWhile_concat, List.rtakeWhile_concat, h x (by simp),
      ih fun y hy => h y (by simp [hy])]

/-- All ways to split a list at one element. -/
theorem forall_splits_iff {P : List α → α → List α → Prop} :
    (∀ before x after, l = before ++ x :: after → P before x after) ↔
      ∀ index : Fin l.length, P (l.take index) l[index] (l.drop (index + 1)) := by
  constructor
  · intro h index
    refine h _ _ _ ?_
    calc
      l = l.take index ++ l.drop index := (List.take_append_drop index l).symm
      _ = l.take index ++ l[index] :: l.drop (index + 1) := by
        rw [List.drop_eq_getElem_cons index.isLt]
        rfl
  · rintro h before x after rfl
    have hsplit := h ⟨before.length, by simp⟩
    simpa using hsplit

end Lists

structure Log where
  address : String
  topics : List String
  data : String
  index : ℕ
  deriving DecidableEq, Repr

structure Fragment where
  type : String
  name : String
  topicHash : String
  deriving DecidableEq, Repr

def beforeExecutionEvent (fragments : List Fragment) : Option Fragment :=
  (fragments.filter fun fragment => fragment.type = "event").find?
    fun fragment => fragment.name = "BeforeExecution"

structure Indices where
  startIndex : ℤ
  endIndex : ℤ
  deriving DecidableEq, Repr

section Scan

variable (beforeExecution : String) (userOpEvent : Log)

/-- The log is a BeforeExecution event. -/
def isBeforeExecution (log : Log) : Bool := log.topics[0]? = some beforeExecution

/-- It is a UserOperationEvent, of any operation. -/
def isUserOperationEvent (log : Log) : Bool := log.topics[0]? = userOpEvent.topics[0]?

/-- It is the UserOperationEvent of our operation. -/
def isOurs (log : Log) : Bool :=
  isUserOperationEvent userOpEvent log && log.topics[1]? = userOpEvent.topics[1]?

def scanLog (indices : Indices) (entry : Log × ℕ) : Indices :=
  if isBeforeExecution beforeExecution entry.1 then ⟨entry.2, entry.2⟩
  else if isUserOperationEvent userOpEvent entry.1 then
    if entry.1.topics[1]? = userOpEvent.topics[1]? then { indices with endIndex := entry.2 }
    else if indices.endIndex = -1 then { indices with startIndex := entry.2 }
    else indices
  else indices

def scan (logs : List Log) : Indices :=
  logs.zipIdx.foldl (scanLog beforeExecution userOpEvent) ⟨-1, -1⟩

end Scan

/-- JavaScript's slice, on indices that are not negative. -/
def slice (logs : List Log) (first last : ℤ) : List Log := (logs.take last.toNat).drop first.toNat

theorem slice_eq_nil {first last : ℤ} (h : last ≤ first) (logs : List Log) :
    slice logs first last = [] := by
  have hlength := List.length_take_le last.toNat logs
  exact List.drop_eq_nil_of_le (by omega)

def filterLogs (fragments : List Fragment) (userOpEvent : Log) (logs : List Log) :
    Except String (List Log) :=
  match beforeExecutionEvent fragments with
  | none => .error "fatal: no BeforeExecution event found"
  | some fragment =>
      let indices := scan fragment.topicHash userOpEvent logs
      if indices.endIndex = -1 then .error "fatal: no UserOperationEvent in logs"
      else .ok (slice logs (indices.startIndex + 1) indices.endIndex)

section Spec

variable (beforeExecution : String) (userOpEvent : Log)

/-- What separates the logs of two operations. -/
def isDelimiter (log : Log) : Bool :=
  isBeforeExecution beforeExecution log ||
    (isUserOperationEvent userOpEvent log && !isOurs userOpEvent log)

/-- The logs since the last delimiter. -/
def ownLogs (before : List Log) : List Log :=
  before.rtakeWhile fun log => !isDelimiter beforeExecution userOpEvent log

/-- The logs since the last BeforeExecution. -/
def sinceBeforeExecution (before : List Log) : List Log :=
  before.rtakeWhile fun log => !isBeforeExecution beforeExecution log

/-- The result is Left when our event is not among the logs, and otherwise
the logs since the delimiter before it. -/
def FiltersExactly (logs : List Log) (result : Except String (List Log)) : Prop :=
  ((∃ error, result = .error error) ↔ ∀ log ∈ logs, ¬isOurs userOpEvent log) ∧
    ∀ before ours after, logs = before ++ ours :: after → isOurs userOpEvent ours →
      result = .ok (ownLogs beforeExecution userOpEvent before)

/-- When a BeforeExecution follows our event, our operation has no logs;
otherwise no other operation comes between the last BeforeExecution before
it, if there is one, and our event. -/
def SeparatedAt (before after : List Log) : Prop :=
  if after.any (isBeforeExecution beforeExecution) then
    ownLogs beforeExecution userOpEvent before = []
  else if before.any (isBeforeExecution beforeExecution) then
    ∀ log ∈ sinceBeforeExecution beforeExecution before, ¬isUserOperationEvent userOpEvent log
  else True

instance (before after : List Log) :
    Decidable (SeparatedAt beforeExecution userOpEvent before after) := by
  unfold SeparatedAt
  infer_instance

/-- Our event is separated from what is around it; without it there is no
BeforeExecution either. -/
def Separated (logs : List Log) : Prop :=
  ((∀ log ∈ logs, ¬isOurs userOpEvent log) →
      ∀ log ∈ logs, ¬isBeforeExecution beforeExecution log) ∧
    ∀ before ours after, logs = before ++ ours :: after → isOurs userOpEvent ours →
      SeparatedAt beforeExecution userOpEvent before after

instance (logs : List Log) : Decidable (Separated beforeExecution userOpEvent logs) :=
  have := decidable_of_iff _ (forall_splits_iff (l := logs) (P := fun before ours after =>
    isOurs userOpEvent ours → SeparatedAt beforeExecution userOpEvent before after)).symm
  inferInstanceAs (Decidable ((_ → _) ∧ _))

end Spec

section Indices

variable {beforeExecution : String} {userOpEvent : Log} {logs before after : List Log}
  {ours : Log}

theorem scan_concat (logs : List Log) (log : Log) :
    scan beforeExecution userOpEvent (logs ++ [log]) =
      scanLog beforeExecution userOpEvent (scan beforeExecution userOpEvent logs)
        (log, logs.length) := by
  unfold scan
  rw [List.zipIdx_append, List.foldl_append, Nat.zero_add]
  rfl

/-- The indices before our event: both at the last BeforeExecution if there
is one, and otherwise the start at the last operation. -/
theorem scan_of_not_ours (hours : ∀ log ∈ logs, ¬isOurs userOpEvent log) :
    scan beforeExecution userOpEvent logs =
      if logs.any (isBeforeExecution beforeExecution) then
        ⟨lastIndex (isBeforeExecution beforeExecution) logs,
          lastIndex (isBeforeExecution beforeExecution) logs⟩
      else ⟨lastIndex (isUserOperationEvent userOpEvent) logs, -1⟩ := by
  induction logs using List.reverseRecOn with
  | nil => rfl
  | append_singleton logs log ih =>
    have hlog : ¬isOurs userOpEvent log := hours log (by simp)
    rw [scan_concat, ih fun other hother => hours other (by simp [hother]), lastIndex_concat,
      lastIndex_concat, List.any_append]
    unfold scanLog
    by_cases hbefore : isBeforeExecution beforeExecution log
    · simp [hbefore]
    · by_cases huser : isUserOperationEvent userOpEvent log
      · have hother : log.topics[1]? ≠ userOpEvent.topics[1]? := by
          intro hsame
          exact hlog (by simp [isOurs, huser, hsame])
        by_cases hany : logs.any (isBeforeExecution beforeExecution)
        · simp [hbefore, huser, hother, hany, lastIndex_ne hany]
        · simp [hbefore, huser, hother, hany]
      · simp [hbefore, huser]

/-- From our event on: a BeforeExecution moves both indices behind it, and
nothing else moves one. -/
theorem scan_of_ours (before : List Log)
    (hdistinct : userOpEvent.topics[0]? ≠ some beforeExecution)
    (hours : isOurs userOpEvent ours) (hafter : ∀ log ∈ after, ¬isOurs userOpEvent log) :
    if after.any (isBeforeExecution beforeExecution) then
      ∃ index : ℕ, before.length < index ∧
        scan beforeExecution userOpEvent (before ++ ours :: after) = ⟨index, index⟩
    else
      scan beforeExecution userOpEvent (before ++ ours :: after) =
        ⟨(scan beforeExecution userOpEvent before).startIndex, before.length⟩ := by
  induction after using List.reverseRecOn with
  | nil =>
    have hsame := Bool.and_eq_true_iff.mp hours
    have hbefore : ¬isBeforeExecution beforeExecution ours := by
      have htopic := of_decide_eq_true hsame.1
      simp only [isBeforeExecution, decide_eq_true_eq, htopic]
      exact hdistinct
    change scan beforeExecution userOpEvent (before ++ [ours]) = _
    rw [scan_concat]
    unfold scanLog
    simp [hbefore, hsame.1, of_decide_eq_true hsame.2]
  | append_singleton after log ih =>
    have hlog : ¬isOurs userOpEvent log := hafter log (by simp)
    have hscan : scan beforeExecution userOpEvent (before ++ ours :: (after ++ [log])) =
        scanLog beforeExecution userOpEvent
          (scan beforeExecution userOpEvent (before ++ ours :: after))
          (log, (before ++ ours :: after).length) := by
      rw [← scan_concat]
      simp
    have hstep : ∀ indices : Indices, indices.endIndex ≠ -1 →
        ¬isBeforeExecution beforeExecution log → ∀ place,
        scanLog beforeExecution userOpEvent indices (log, place) = indices := by
      intro indices hended hbefore place
      unfold scanLog
      by_cases huser : isUserOperationEvent userOpEvent log
      · have hother : log.topics[1]? ≠ userOpEvent.topics[1]? := by
          intro hsame
          exact hlog (by simp [isOurs, huser, hsame])
        simp [hbefore, huser, hother, hended]
      · simp [hbefore, huser]
    specialize ih fun other hother => hafter other (by simp [hother])
    rw [hscan, List.any_append]
    by_cases hbefore : isBeforeExecution beforeExecution log
    · rw [if_pos (by simp [hbefore])]
      refine ⟨(before ++ ours :: after).length, by simp, ?_⟩
      unfold scanLog
      rw [if_pos hbefore]
    · by_cases hany : after.any (isBeforeExecution beforeExecution)
      · rw [if_pos hany] at ih
        obtain ⟨index, hindex, hequal⟩ := ih
        rw [if_pos (by simp [hany])]
        refine ⟨index, hindex, ?_⟩
        rw [hequal]
        exact hstep _ (by change (index : ℤ) ≠ -1; omega) hbefore _
      · rw [if_neg hany] at ih
        rw [if_neg (by simp [hany, hbefore]), ih]
        exact hstep _ (by change (before.length : ℤ) ≠ -1; omega) hbefore _

end Indices

section Result

variable {fragments : List Fragment} {fragment : Fragment} {userOpEvent : Log}
  {logs before after : List Log} {ours : Log}

theorem filterLogs_of_not_ours (hfragment : beforeExecutionEvent fragments = some fragment)
    (hours : ∀ log ∈ logs, ¬isOurs userOpEvent log) :
    (∃ error, filterLogs fragments userOpEvent logs = .error error) ↔
      ∀ log ∈ logs, ¬isBeforeExecution fragment.topicHash log := by
  have hnone : (¬logs.any (isBeforeExecution fragment.topicHash)) ↔
      ∀ log ∈ logs, ¬isBeforeExecution fragment.topicHash log := by simp
  rw [← hnone]
  unfold filterLogs
  rw [hfragment]
  dsimp only
  rw [scan_of_not_ours hours]
  by_cases hany : logs.any (isBeforeExecution fragment.topicHash)
  · rw [if_pos hany, if_neg (lastIndex_ne hany)]
    simp [hany]
  · rw [if_neg hany, if_pos rfl]
    simp [hany]

/-- All that filterLogs returns for an operation whose event is there once. -/
theorem filterLogs_of_ours (hfragment : beforeExecutionEvent fragments = some fragment)
    (hdistinct : userOpEvent.topics[0]? ≠ some fragment.topicHash)
    (hours : isOurs userOpEvent ours) (hbefore : ∀ log ∈ before, ¬isOurs userOpEvent log)
    (hafter : ∀ log ∈ after, ¬isOurs userOpEvent log) :
    filterLogs fragments userOpEvent (before ++ ours :: after) =
      .ok (if after.any (isBeforeExecution fragment.topicHash) then []
        else if before.any (isBeforeExecution fragment.topicHash) then
          sinceBeforeExecution fragment.topicHash before
        else before.rtakeWhile fun log => !isUserOperationEvent userOpEvent log) := by
  have hscan := scan_of_ours before hdistinct hours hafter
  have hslice (start : ℤ) : slice (before ++ ours :: after) start before.length =
      before.drop start.toNat := by
    unfold slice
    rw [Int.toNat_natCast, List.take_left]
  unfold filterLogs
  rw [hfragment]
  dsimp only
  by_cases hany : after.any (isBeforeExecution fragment.topicHash)
  · rw [if_pos hany] at hscan ⊢
    obtain ⟨index, _, hequal⟩ := hscan
    rw [hequal, if_neg (by change (index : ℤ) ≠ -1; omega)]
    exact congrArg Except.ok (slice_eq_nil (by change (index : ℤ) ≤ index + 1; omega) _)
  · rw [if_neg hany] at hscan ⊢
    rw [hscan, if_neg (by change (before.length : ℤ) ≠ -1; omega), hslice,
      scan_of_not_ours hbefore]
    by_cases hsome : before.any (isBeforeExecution fragment.topicHash)
    · rw [if_pos hsome, if_pos hsome]
      exact congrArg Except.ok (drop_lastIndex _ before)
    · rw [if_neg hsome, if_neg hsome]
      exact congrArg Except.ok (drop_lastIndex _ before)

/-- The result against what the operation's own logs are. -/
theorem filterLogs_eq_ownLogs_iff (hfragment : beforeExecutionEvent fragments = some fragment)
    (hdistinct : userOpEvent.topics[0]? ≠ some fragment.topicHash)
    (hours : isOurs userOpEvent ours) (hbefore : ∀ log ∈ before, ¬isOurs userOpEvent log)
    (hafter : ∀ log ∈ after, ¬isOurs userOpEvent log) :
    filterLogs fragments userOpEvent (before ++ ours :: after) =
        .ok (ownLogs fragment.topicHash userOpEvent before) ↔
      SeparatedAt fragment.topicHash userOpEvent before after := by
  have hdelimiter : ∀ log ∈ before, (!isDelimiter fragment.topicHash userOpEvent log) =
      (!isBeforeExecution fragment.topicHash log && !isUserOperationEvent userOpEvent log) := by
    intro log hlog
    simp [isDelimiter, hbefore log hlog]
  rw [filterLogs_of_ours hfragment hdistinct hours hbefore hafter, Except.ok.injEq]
  unfold SeparatedAt ownLogs
  rw [rtakeWhile_congr hdelimiter]
  by_cases hany : after.any (isBeforeExecution fragment.topicHash)
  · rw [if_pos hany, if_pos hany]
    exact eq_comm
  · rw [if_neg hany, if_neg hany]
    by_cases hsome : before.any (isBeforeExecution fragment.topicHash)
    · rw [if_pos hsome, if_pos hsome]
      refine eq_comm.trans (rtakeWhile_and_eq_iff.trans ?_)
      unfold sinceBeforeExecution
      simp
    · rw [if_neg hsome, if_neg hsome, iff_true]
      refine rtakeWhile_congr ?_
      intro log hlog
      have hnot : isBeforeExecution fragment.topicHash log = false := by
        simp only [List.any_eq_true, not_exists, not_and, Bool.not_eq_true] at hsome
        exact hsome log hlog
      simp [hnot]

/-- For an event that is there at most once, filterLogs returns exactly the
logs of its operation when the operations are separated as it expects. -/
theorem filterLogs_exact_iff (fragments : List Fragment) (fragment : Fragment) (userOpEvent : Log)
    (logs : List Log) (hfragment : beforeExecutionEvent fragments = some fragment)
    (hdistinct : userOpEvent.topics[0]? ≠ some fragment.topicHash)
    (honce : logs.countP (isOurs userOpEvent) ≤ 1) :
    FiltersExactly fragment.topicHash userOpEvent logs (filterLogs fragments userOpEvent logs) ↔
      Separated fragment.topicHash userOpEvent logs := by
  have hothers {before after : List Log} {ours : Log} (hsplit : logs = before ++ ours :: after)
      (hours : isOurs userOpEvent ours) : (∀ log ∈ before, ¬isOurs userOpEvent log) ∧
        ∀ log ∈ after, ¬isOurs userOpEvent log := by
    rw [hsplit, List.countP_append, List.countP_cons_of_pos hours] at honce
    exact ⟨List.countP_eq_zero.mp (by omega), List.countP_eq_zero.mp (by omega)⟩
  have hsplit {before after : List Log} {ours : Log} (hlogs : logs = before ++ ours :: after)
      (hours : isOurs userOpEvent ours) :=
    hlogs ▸ filterLogs_eq_ownLogs_iff hfragment hdistinct hours (hothers hlogs hours).1
      (hothers hlogs hours).2
  unfold FiltersExactly Separated
  by_cases hpresent : ∃ log ∈ logs, isOurs userOpEvent log
  · obtain ⟨ours, hmem, hours⟩ := hpresent
    obtain ⟨before, after, hlogs⟩ := List.append_of_mem hmem
    have hsome : ¬∀ log ∈ logs, ¬isOurs userOpEvent log := fun h => h ours hmem hours
    have hright : ¬∃ error, filterLogs fragments userOpEvent logs = .error error := by
      rintro ⟨error, herror⟩
      rw [hlogs, filterLogs_of_ours hfragment hdistinct hours (hothers hlogs hours).1
        (hothers hlogs hours).2] at herror
      cases herror
    constructor
    · intro h
      exact ⟨fun hnone => absurd hnone hsome,
        fun _ _ _ hlogs hours => (hsplit hlogs hours).mp (h.2 _ _ _ hlogs hours)⟩
    · intro h
      exact ⟨iff_of_false hright hsome,
        fun _ _ _ hlogs hours => (hsplit hlogs hours).mpr (h.2 _ _ _ hlogs hours)⟩
  · have hours : ∀ log ∈ logs, ¬isOurs userOpEvent log :=
      fun log hlog hours => hpresent ⟨log, hlog, hours⟩
    have hnone := filterLogs_of_not_ours hfragment hours
    have hsplits {before after : List Log} {ours : Log} (hlogs : logs = before ++ ours :: after) :
        ¬isOurs userOpEvent ours := hours ours (hlogs ▸ by simp)
    constructor
    · intro h
      exact ⟨fun _ => hnone.mp (h.1.mpr hours),
        fun _ _ _ hlogs hours => absurd hours (hsplits hlogs)⟩
    · intro h
      exact ⟨iff_of_true (hnone.mpr (h.1 hours)) hours,
        fun _ _ _ hlogs hours => absurd hours (hsplits hlogs)⟩

end Result

section Concrete

def beforeExecution : Fragment := ⟨"event", "BeforeExecution", "0xbb47"⟩

def logOf (topics : List String) : Log := ⟨"0xe1", topics, "0x", 0⟩

/-- The event of an operation, by its hash. -/
def eventOf (userOpHash : String) : Log := logOf ["0x4962", userOpHash]

def transfer : Log := logOf ["0xddf2"]

/-- The first operation of a bundle is the one whose logs come out right. -/
theorem first_operation_exact :
    FiltersExactly "0xbb47" (eventOf "0x01")
      [logOf ["0xbb47"], transfer, eventOf "0x01", transfer, eventOf "0x02"]
      (filterLogs [beforeExecution] (eventOf "0x01")
        [logOf ["0xbb47"], transfer, eventOf "0x01", transfer, eventOf "0x02"]) :=
  (filterLogs_exact_iff [beforeExecution] beforeExecution (eventOf "0x01") _ rfl
    (by decide) (by decide)).mpr (by decide)

/-- The second operation is given the logs of the first one, its event included. -/
theorem second_operation_mixed :
    ¬∀ (fragments : List Fragment) (fragment : Fragment) (userOpEvent : Log) (logs : List Log),
      beforeExecutionEvent fragments = some fragment →
      userOpEvent.topics[0]? ≠ some fragment.topicHash →
      logs.countP (isOurs userOpEvent) ≤ 1 →
      FiltersExactly fragment.topicHash userOpEvent logs
        (filterLogs fragments userOpEvent logs) := by
  intro h
  have hexact := h [beforeExecution] beforeExecution (eventOf "0x02")
    [logOf ["0xbb47"], transfer, eventOf "0x01", transfer, eventOf "0x02"] rfl (by decide)
    (by decide)
  have hlogs := hexact.2 [logOf ["0xbb47"], transfer, eventOf "0x01", transfer]
    (eventOf "0x02") [] rfl (by decide)
  exact absurd hlogs (by decide)

end Concrete

end Bundler.OperationLogs
