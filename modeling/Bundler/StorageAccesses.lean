import Bundler.AccessMaps
import Bundler.AnsweredSteps
import Bundler.GasRule

/-!
The storage that the calls from the EntryPoint access. Each of these calls opens
a level, and every access behind it, until the next level is opened, is added to
the maps of its contract there. So at the end of a run each level has the
accesses of its own call, and the tracer has lost none.
-/
namespace Bundler.StorageAccesses

open KeyedRecords AsyncPrograms DataModel HexStrings Tracer LevelFrames AccessMaps AnsweredSteps
  GasRule

/-- A step, and the state that the node answers from. -/
abbrev Step := StateDb × StepLog

/-- The access of a step, if it is a step inside a call that accesses a slot. -/
def access? (step : Step) : Option Access :=
  if step.2.depth = 1 then none
  else do
    let opcode ← storageOpcodes.find? fun opcode => opcode.text = step.2.op
    let word ← step.2.stack[0]?
    pure ⟨opcode, hexString step.2.contractAddress, hexString (toWord word),
      hexString (step.1.getState step.2.contractAddress (toWord word))⟩

def accesses (steps : List Step) : List Access := steps.filterMap access?

/-- The event of the EntryPoint that stops the collection. -/
def Stops (step : Step) : Prop :=
  step.2.depth = 1 ∧ step.2.op = "LOG1" ∧
    ∃ topic, step.2.stack[2]? = some topic ∧ wordText topic = stopCollectingTopic

/-- The steps behind a call of the EntryPoint, up to the next one; the calls are
numbered from zero. -/
def DuringCall (steps : List Step) (k : ℕ) (during : List Step) : Prop :=
  ∃ before call after, steps = before ++ call :: (during ++ after) ∧ Opens call.2 ∧
    k = before.countP (fun step => Opens step.2) ∧ (∀ step ∈ during, ¬Opens step.2) ∧
      ∀ next ∈ after.head?, Opens next.2

section Levels

/-- The maps of the calls so far, those of the last one apart. -/
@[ext] structure Levels where
  earlier : List (Record String AccessInfo)
  current : Option (Record String AccessInfo)

namespace Levels

def all (levels : Levels) : List (Record String AccessInfo) :=
  levels.earlier ++ levels.current.toList

/-- A call of the EntryPoint opens a level, and any other step adds its access
to the last one. -/
def step (levels : Levels) (s : Step) : Levels :=
  if Opens s.2 then ⟨levels.all, some .empty⟩
  else ⟨levels.earlier, levels.current.map fun maps => (access? s).toList.foldl addAt maps⟩

theorem step_of_opens {s : Step} (h : Opens s.2) (levels : Levels) :
    levels.step s = ⟨levels.all, some .empty⟩ := if_pos h

theorem step_of_not_opens {s : Step} (h : ¬Opens s.2) (levels : Levels) :
    levels.step s =
      ⟨levels.earlier, levels.current.map fun maps => (access? s).toList.foldl addAt maps⟩ :=
  if_neg h

/-- The steps of one call add their accesses to its level. -/
theorem foldl_step_of_not_opens {during : List Step} (h : ∀ s ∈ during, ¬Opens s.2)
    (levels : Levels) :
    during.foldl step levels =
      ⟨levels.earlier, levels.current.map fun maps => (accesses during).foldl addAt maps⟩ := by
  induction during generalizing levels with
  | nil => simp [accesses]
  | cons s during ih =>
    obtain ⟨hfirst, hrest⟩ := List.forall_mem_cons.mp h
    have haccesses : accesses (s :: during) = (access? s).toList ++ accesses during := by
      unfold accesses
      cases haccess : access? s with
      | none => rw [List.filterMap_cons_none haccess, Option.toList_none, List.nil_append]
      | some access =>
        rw [List.filterMap_cons_some haccess, Option.toList_some, List.singleton_append]
    rw [List.foldl_cons, ih hrest, step_of_not_opens hfirst, haccesses]
    simp [List.foldl_append, Function.comp_def]

theorem length_all_foldl (steps : List Step) (levels : Levels) :
    (steps.foldl step levels).all.length =
      levels.all.length + steps.countP (fun s => Opens s.2) := by
  induction steps generalizing levels with
  | nil => rfl
  | cons s steps ih =>
    rw [List.foldl_cons, ih]
    by_cases hopens : Opens s.2
    · rw [step_of_opens hopens, List.countP_cons_of_pos (by simpa using hopens)]
      simp only [all, List.length_append, Option.toList_some, List.length_singleton]
      omega
    · rw [step_of_not_opens hopens, List.countP_cons_of_neg (by simpa using hopens)]
      cases hcurrent : levels.current with
      | none => simp [all, hcurrent]
      | some maps => simp [all, hcurrent]

/-- The levels of earlier calls stay. -/
theorem earlier_prefix_foldl (steps : List Step) (levels : Levels) :
    levels.earlier <+: (steps.foldl step levels).earlier := by
  induction steps generalizing levels with
  | nil => exact List.prefix_refl _
  | cons s steps ih =>
    have hrest := ih (levels.step s)
    rw [List.foldl_cons]
    by_cases hopens : Opens s.2
    · rw [step_of_opens hopens] at hrest ⊢
      exact (List.prefix_append _ _).trans hrest
    · rw [step_of_not_opens hopens] at hrest ⊢
      exact hrest

/-- At the end of a run each call has the accesses of its own steps. -/
theorem getElem?_all_foldl {steps during : List Step} {k : ℕ} (h : DuringCall steps k during) :
    (steps.foldl step ⟨[], none⟩).all[k]? = some ((accesses during).foldl addAt .empty) := by
  obtain ⟨before, call, after, rfl, hopens, hk, hduring, hafter⟩ := h
  have hlength := length_all_foldl before ⟨[], none⟩
  rw [List.foldl_append, List.foldl_cons, List.foldl_append, step_of_opens hopens,
    foldl_step_of_not_opens hduring, Option.map_some]
  generalize before.foldl step ⟨[], none⟩ = levels at hlength ⊢
  generalize (accesses during).foldl addAt .empty = maps
  have hlevels : levels.all.length = k := by
    rw [hlength, hk]
    exact Nat.zero_add _
  have hlast : (levels.all ++ [maps])[k]? = some maps := by
    rw [← hlevels, List.getElem?_concat_length]
  cases after with
  | nil => exact hlast
  | cons next after =>
    have hlt : k < (levels.all ++ [maps]).length := by
      rw [List.length_append, List.length_singleton]
      omega
    obtain ⟨rest, hrest⟩ : levels.all ++ [maps] <+:
        (after.foldl step ⟨levels.all ++ [maps], some .empty⟩).all :=
      (earlier_prefix_foldl after ⟨levels.all ++ [maps], some .empty⟩).trans
        (List.prefix_append _ _)
    rw [List.foldl_cons, step_of_opens (hafter next rfl)]
    change (after.foldl step ⟨levels.all ++ [maps], some .empty⟩).all[k]? = some maps
    rw [← hrest, List.getElem?_append_left hlt]
    exact hlast

end Levels

end Levels

section Steps

variable {t t' : Collector} {s : Step}

def levels (t : Collector) : Levels :=
  ⟨t.earlierLevels.map TopLevelCallInfo.access, t.currentLevel.map TopLevelCallInfo.access⟩

theorem all_levels (t : Collector) :
    (levels t).all = t.callsFromEntryPoint.map TopLevelCallInfo.access := by
  unfold levels Levels.all Collector.callsFromEntryPoint
  rw [List.map_append]
  cases t.currentLevel with
  | none => rfl
  | some level => rfl

theorem levels_of_sameLevel (h : SameLevel TopLevelCallInfo.access t t') :
    levels t' = levels t := by
  unfold levels
  rw [h.earlierLevels, h.current]

theorem find_text (opcode : StorageOpcode) :
    storageOpcodes.find? (fun other => other.text = opcode.text) = some opcode := by
  cases opcode with
  | sload => decide
  | sstore => decide
  | tload => decide
  | tstore => decide

theorem exists_opcode_iff (op : String) :
    op ∈ ["SLOAD", "SSTORE", "TLOAD", "TSTORE"] ↔ ∃ opcode : StorageOpcode, opcode.text = op := by
  have htexts : storageOpcodes.map StorageOpcode.text =
      ["SLOAD", "SSTORE", "TLOAD", "TSTORE"] := rfl
  have hall (opcode : StorageOpcode) : opcode ∈ storageOpcodes := by
    cases opcode <;> decide
  rw [← htexts, List.mem_map]
  exact ⟨fun ⟨opcode, _, htext⟩ => ⟨opcode, htext⟩,
    fun ⟨opcode, htext⟩ => ⟨opcode, hall opcode, htext⟩⟩

theorem find_none {op : String} (h : op ∉ ["SLOAD", "SSTORE", "TLOAD", "TSTORE"]) :
    storageOpcodes.find? (fun other => other.text = op) = none := by
  rw [List.find?_eq_none]
  intro opcode _ htext
  exact h ((exists_opcode_iff op).mpr ⟨opcode, of_decide_eq_true htext⟩)

/-- The access of a step inside a call is added to the current level. -/
theorem levels_recordStorage (hdepth : s.2.depth ≠ 1) (h : recordStorage t s.1 s.2 = .ok t') :
    levels t' = ⟨(levels t).earlier,
      (levels t).current.map fun maps => (access? s).toList.foldl addAt maps⟩ := by
  unfold recordStorage at h
  unfold access?
  rw [if_neg hdepth]
  by_cases hop : s.2.op ∈ ["SLOAD", "SSTORE", "TLOAD", "TSTORE"]
  · rw [if_pos hop] at h
    obtain ⟨word, hword, hupdate⟩ := except_bind_eq_ok_iff.mp h
    obtain ⟨opcode, htext⟩ := (exists_opcode_iff s.2.op).mp hop
    obtain ⟨level, hlevel, rfl⟩ := updateLevel_ok hupdate
    rw [← htext, find_text, peek_ok hword]
    unfold levels
    simp only [hlevel, record_eq_add]
    rfl
  · rw [if_neg hop] at h
    cases h
    rw [find_none hop]
    ext
    · rfl
    · simp

theorem levels_recordOpcode (h : recordOpcode t s.2 = .ok t') : levels t' = levels t ∧
    t'.stopCollecting = t.stopCollecting := by
  unfold recordOpcode at h
  obtain ⟨t₁, hgas, h⟩ := except_bind_eq_ok_iff.mp h
  obtain ⟨t₂, hother, h⟩ := except_bind_eq_ok_iff.mp h
  cases h
  have hboth : SameLevel TopLevelCallInfo.access t t₂ :=
    (sameLevel_countGas (fun _ _ => rfl) hgas).trans (sameLevel_countOpcode (fun _ _ => rfl) hother)
  have hlevels := levels_of_sameLevel hboth
  exact ⟨hlevels, hboth.stopCollecting⟩

/-- What a step does to the levels, unless it stops the collection. -/
theorem levels_step (hstop : t.stopCollecting = false) (hgoes : ¬Stops s)
    (h : Tracer.step s.1 t s.2 = .ok t') :
    levels t' = (levels t).step s ∧ t'.stopCollecting = false := by
  by_cases hdepth : s.2.depth = 1
  · obtain ⟨t₁, t₂, hbefore, htop, rfl⟩ :=
      step_outside_ok TopLevelCallInfo.access (fun _ _ _ _ => rfl) hstop h hdepth
    have hstop₁ := hbefore.stopCollecting.trans hstop
    rw [← levels_of_sameLevel hbefore]
    rcases recordTopLevel_ok htop with ⟨hop, _, _, rfl⟩ | ⟨hop, hsame⟩
    · rw [Levels.step_of_opens ⟨hdepth, hop⟩, all_levels]
      exact ⟨rfl, hstop₁⟩
    · have haccess : access? s = none := if_pos hdepth
      rcases hsame with rfl | ⟨hlog, htopic, _⟩
      · rw [Levels.step_of_not_opens fun hopens => hop hopens.2, haccess]
        refine ⟨?_, hstop₁⟩
        ext
        · rfl
        · simp [levels]
      · exact absurd ⟨hdepth, hlog, htopic⟩ hgoes
  · obtain ⟨t₁, t₂, t₃, hbefore, hopcode, hstorage, hafter⟩ :=
      step_inside_ok TopLevelCallInfo.access (fun _ _ _ _ => rfl) hstop h hdepth
    obtain ⟨hlevels, hstop₂⟩ := levels_recordOpcode hopcode
    have hstored : SameLevel (fun _ => ()) t₂ t₃ :=
      sameLevel_recordStorage (fun _ _ => rfl) hstorage
    rw [Levels.step_of_not_opens fun hopens => hdepth hopens.1, levels_of_sameLevel hafter,
      levels_recordStorage hdepth hstorage, hlevels, levels_of_sameLevel hbefore]
    refine ⟨rfl, ?_⟩
    rw [hafter.stopCollecting, hstored.stopCollecting, hstop₂, hbefore.stopCollecting, hstop]

/-- The tracer over a sequence of steps. -/
def runFrom (t : Collector) (steps : List Step) : Except JsError Collector :=
  steps.foldlM (fun t s => Tracer.step s.1 t s.2) t

/-- A run does to the levels what its steps do. -/
theorem levels_runFrom {steps : List Step} (hstop : t.stopCollecting = false)
    (hgoes : ∀ s ∈ steps, ¬Stops s) (h : runFrom t steps = .ok t') :
    levels t' = steps.foldl Levels.step (levels t) := by
  induction steps generalizing t with
  | nil =>
    cases h
    rfl
  | cons s steps ih =>
    obtain ⟨hfirst, hrest⟩ := List.forall_mem_cons.mp hgoes
    unfold runFrom at h
    rw [List.foldlM_cons] at h
    obtain ⟨t₁, hstep, h⟩ := except_bind_eq_ok_iff.mp h
    obtain ⟨hlevels, hstop₁⟩ := levels_step hstop hfirst hstep
    rw [List.foldl_cons, ← hlevels]
    exact ih hstop₁ hrest h

end Steps

section Runs

variable {t : Collector} {steps : List Step}

/-- Every step of the kind comes behind a call of the EntryPoint. -/
def BehindCall (kind : Step → Prop) (steps : List Step) : Prop :=
  ∀ before step after, steps = before ++ step :: after → kind step → ∃ call ∈ before, Opens call.2

/-- What the node promises of a sequence of steps; out of gas the EntryPoint
itself would not come to a call. -/
structure AllAnswered (steps : List Step) : Prop where
  step : ∀ s ∈ steps, Answered s.2
  gas : BehindCall (fun s => RunsOut s.2) steps

/-- The run goes on when every step that needs a call has one. -/
theorem exists_runFrom (hstop : t.stopCollecting = false) (hgoes : ∀ s ∈ steps, ¬Stops s)
    (hanswered : ∀ s ∈ steps, Answered s.2) (hlooked : Looked t)
    (hopened : ∀ before s after, steps = before ++ s :: after → 1 < s.2.depth ∨ RunsOut s.2 →
      t.currentLevel.isSome ∨ ∃ call ∈ before, Opens call.2) :
    ∃ t', runFrom t steps = .ok t' := by
  induction steps generalizing t with
  | nil => exact ⟨t, rfl⟩
  | cons s steps ih =>
    obtain ⟨hfirst, hrest⟩ := List.forall_mem_cons.mp hgoes
    obtain ⟨hanswer, hanswers⟩ := List.forall_mem_cons.mp hanswered
    have hnow (hneeds : 1 < s.2.depth ∨ RunsOut s.2) : t.currentLevel.isSome :=
      (hopened [] s steps rfl hneeds).resolve_right (by simp)
    obtain ⟨t₁, hstep, hlooked₁, hopened₁⟩ := exists_step s.1 hstop hanswer hlooked
      (fun hout => hnow (Or.inr hout)) (fun hdeep => hnow (Or.inl hdeep))
    obtain ⟨_, hstop₁⟩ := levels_step hstop hfirst hstep
    have hlater : ∀ before next after, steps = before ++ next :: after →
        1 < next.2.depth ∨ RunsOut next.2 →
          t₁.currentLevel.isSome ∨ ∃ call ∈ before, Opens call.2 := by
      intro before next after hsplit hneeds
      rcases hopened (s :: before) next after (by rw [hsplit]; rfl) hneeds with hsome | hcall
      · exact Or.inl (hopened₁ (Or.inl hsome))
      · obtain ⟨call, hmem, hopens⟩ := hcall
        rcases List.mem_cons.mp hmem with heq | hbefore
        · rw [heq] at hopens
          exact Or.inl (hopened₁ (Or.inr hopens))
        · exact Or.inr ⟨call, hbefore, hopens⟩
    obtain ⟨t', hrun⟩ := ih hstop₁ hrest hanswers hlooked₁ hlater
    refine ⟨t', ?_⟩
    unfold runFrom
    rw [List.foldlM_cons, hstep]
    exact hrun

/-- Unless the collection is stopped, the tracer has one level for each call of
the EntryPoint, with every storage access behind that call. -/
theorem accesses_recorded (steps : List Step)
    (hcalls : BehindCall (fun s => 1 < s.2.depth) steps) (hgoes : ∀ s ∈ steps, ¬Stops s) :
    (AllAnswered steps → ∃ t, runFrom .initial steps = .ok t) ∧
      ∀ t, runFrom .initial steps = .ok t →
        t.callsFromEntryPoint.length = steps.countP (fun s => Opens s.2) ∧
          ∀ k during, DuringCall steps k during → ∃ level, t.callsFromEntryPoint[k]? = some level ∧
            RecordsAccesses level (accesses during) := by
  constructor
  · intro hanswered
    refine exists_runFrom rfl hgoes hanswered.step nofun ?_
    rintro before s after hsplit (hdeep | hout)
    · exact Or.inr (hcalls before s after hsplit hdeep)
    · exact Or.inr (hanswered.gas before s after hsplit hout)
  · intro t hrun
    have hlevels : levels t = steps.foldl Levels.step ⟨[], none⟩ := levels_runFrom rfl hgoes hrun
    have hall := all_levels t
    rw [hlevels] at hall
    constructor
    · have hlength := Levels.length_all_foldl steps ⟨[], none⟩
      rw [hall, List.length_map] at hlength
      rw [hlength]
      exact Nat.zero_add _
    · intro k during hduring
      have hmaps := Levels.getElem?_all_foldl hduring
      rw [hall, List.getElem?_map, Option.map_eq_some_iff] at hmaps
      obtain ⟨level, hlevel, haccess⟩ := hmaps
      exact ⟨level, hlevel, recordsAccesses_of_foldl haccess⟩

end Runs

section Concrete

/-- A call of the account that reads its slot 7, writes it twice, and reads it
again. -/
def readAndWrite : List Step :=
  [(noCode, callStep), (noCode, stepAt 2 "SLOAD" [7]), (noCode, stepAt 2 "SSTORE" [7, 1]),
    (noCode, stepAt 2 "SSTORE" [7, 0]), (noCode, stepAt 2 "SLOAD" [7])]

theorem behindCall_cons {kind : Step → Prop} {call : Step} (hopens : Opens call.2)
    (hkind : ¬kind call) (steps : List Step) : BehindCall kind (call :: steps) := by
  intro before step after hsplit hstep
  cases before with
  | nil =>
    rw [(List.cons.inj hsplit).1] at hkind
    exact absurd hstep hkind
  | cons first before =>
    rw [(List.cons.inj hsplit).1] at hopens
    exact ⟨first, List.mem_cons_self, hopens⟩

/-- The steps whose opcodes do not read memory are answered when the stack has
what they take. -/
theorem answered_stepAt {depth : ℕ} {op : String} {stack : List ℕ} (hdepth : 1 ≤ depth)
    (hstack : stackInputs op ≤ stack.length)
    (hop : ¬startsWith op "LOG" ∧ op ∉ ["KECCAK256", "RETURN", "REVERT"]) :
    Answered (stepAt depth op stack) where
  depth := hdepth
  stack := hstack
  span h := absurd h (not_or.mpr hop)
  topic h := by
    obtain rfl : op = "LOG1" := h
    exact absurd (by decide) hop.1
  method _ _ _ := ⟨_, rfl⟩

theorem allAnswered_readAndWrite : AllAnswered readAndWrite where
  step s hs := by
    unfold readAndWrite at hs
    simp only [List.mem_cons, List.not_mem_nil, or_false] at hs
    rcases hs with hs | hs | hs | hs | hs
    all_goals
      rw [hs]
      exact answered_stepAt (by decide) (by decide) (by decide)
  gas := by
    refine behindCall_cons (by decide) ?_ _
    intro hout
    unfold RunsOut at hout
    exact absurd hout (by decide)

theorem readAndWrite_recorded :
    ∃ t, runFrom .initial readAndWrite = .ok t ∧ ∃ level, t.callsFromEntryPoint[0]? = some level ∧
      RecordsAccesses level (accesses (readAndWrite.drop 1)) := by
  have hcalls : BehindCall (fun s => 1 < s.2.depth) readAndWrite :=
    behindCall_cons (by decide) (by decide) _
  have hgoes : ∀ s ∈ readAndWrite, ¬Stops s := by
    intro s hs hstops
    unfold readAndWrite at hs
    simp only [List.mem_cons, List.not_mem_nil, or_false] at hs
    have hop := hstops.2.1
    rcases hs with hs | hs | hs | hs | hs
    all_goals
      rw [hs] at hop
      exact absurd hop (by decide)
  have hduring : DuringCall readAndWrite 0 (readAndWrite.drop 1) :=
    ⟨[], (noCode, callStep), [], rfl, by decide, rfl, by decide, nofun⟩
  obtain ⟨hreturns, hrecorded⟩ := accesses_recorded readAndWrite hcalls hgoes
  obtain ⟨t, hrun⟩ := hreturns allAnswered_readAndWrite
  exact ⟨t, hrun, (hrecorded t hrun).2 0 _ hduring⟩

end Concrete

end Bundler.StorageAccesses
