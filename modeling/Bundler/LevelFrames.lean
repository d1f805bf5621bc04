import Bundler.AsyncPrograms
import Bundler.Tracer

/-!
What the parts of a step leave of the tracer's levels. Each part records one
thing in the current level, so whatever is seen of a level without that thing
stays as it was.
-/
namespace Bundler.LevelFrames

open AsyncPrograms DataModel Tracer

/-- A call or static call of the EntryPoint, which opens a level. -/
def Opens (log : StepLog) : Prop :=
  log.depth = 1 ∧ (log.op = "CALL" ∨ log.op = "STATICCALL")

instance : DecidablePred Opens := fun _ => inferInstanceAs (Decidable (_ ∧ _))

/-- Two states of the tracer with the same earlier levels, the same opcode
before and the same to be seen of the current level. -/
structure SameLevel {β : Type} (seen : TopLevelCallInfo → β) (t t' : Collector) : Prop where
  earlierLevels : t'.earlierLevels = t.earlierLevels
  current : t'.currentLevel.map seen = t.currentLevel.map seen
  lastOp : t'.lastOp = t.lastOp
  stopCollecting : t'.stopCollecting = t.stopCollecting

variable {β : Type} {seen : TopLevelCallInfo → β} {t t' t'' : Collector} {db : StateDb}
  {log : StepLog}

theorem SameLevel.refl (t : Collector) : SameLevel seen t t := ⟨rfl, rfl, rfl, rfl⟩

theorem SameLevel.trans (h : SameLevel seen t t') (h' : SameLevel seen t' t'') :
    SameLevel seen t t'' :=
  ⟨h'.earlierLevels.trans h.earlierLevels, h'.current.trans h.current, h'.lastOp.trans h.lastOp,
    h'.stopCollecting.trans h.stopCollecting⟩

theorem updateLevel_ok {f : TopLevelCallInfo → TopLevelCallInfo} (h : updateLevel t f = .ok t') :
    ∃ level, t.currentLevel = some level ∧ t' = { t with currentLevel := some (f level) } := by
  unfold updateLevel at h
  split at h
  · rename_i level hlevel
    exact ⟨level, hlevel, (Except.ok.inj h).symm⟩
  · cases h

theorem sameLevel_updateLevel {f : TopLevelCallInfo → TopLevelCallInfo}
    (hf : ∀ level, seen (f level) = seen level) (h : updateLevel t f = .ok t') :
    SameLevel seen t t' := by
  obtain ⟨level, hlevel, rfl⟩ := updateLevel_ok h
  refine ⟨rfl, ?_, rfl, rfl⟩
  rw [hlevel, Option.map_some, Option.map_some, hf]

theorem sameLevel_pushOpcode : SameLevel seen t (pushOpcode t log) := ⟨rfl, rfl, rfl, rfl⟩

theorem sameLevel_recordOog (hseen : ∀ level, seen { level with oog := some true } = seen level)
    (h : recordOog t log = .ok t') : SameLevel seen t t' := by
  unfold recordOog at h
  split at h
  · exact sameLevel_updateLevel hseen h
  · cases h
    exact .refl t

theorem sameLevel_recordReturn (h : recordReturn t log = .ok t') : SameLevel seen t t' := by
  unfold recordReturn at h
  dsimp only at h
  split at h
  · cases h
    exact .refl t
  · split at h
    · obtain ⟨_, _, h⟩ := except_bind_eq_ok_iff.mp h
      cases h
      exact ⟨rfl, rfl, rfl, rfl⟩
    · cases h
      exact ⟨rfl, rfl, rfl, rfl⟩

theorem sameLevel_recordExtCodeAccess
    (hseen : ∀ level accessInfo, seen { level with extCodeAccessInfo := accessInfo } = seen level)
    (h : recordExtCodeAccess t log = .ok t') : SameLevel seen t t' := by
  unfold recordExtCodeAccess at h
  split at h
  · cases h
    exact .refl t
  · split at h
    · cases h
    · dsimp only at h
      split at h
      · cases h
        exact .refl t
      · exact sameLevel_updateLevel (fun level => hseen level _) h

theorem sameLevel_recordContractSize
    (hseen : ∀ level sizes, seen { level with contractSize := sizes } = seen level)
    (h : recordContractSize t db log = .ok t') : SameLevel seen t t' := by
  unfold recordContractSize at h
  split at h
  · obtain ⟨_, _, hupdate⟩ := except_bind_eq_ok_iff.mp h
    refine sameLevel_updateLevel (fun level => ?_) hupdate
    split
    · exact hseen level _
    · rfl
  · cases h
    exact .refl t

theorem sameLevel_countGas
    (hseen : ∀ level opcodes, seen { level with opcodes := opcodes } = seen level)
    (h : countGas t log = .ok t') : SameLevel seen t t' := by
  unfold countGas at h
  split at h
  · exact sameLevel_updateLevel (fun level => hseen level _) h
  · cases h
    exact .refl t

theorem sameLevel_countOpcode
    (hseen : ∀ level opcodes, seen { level with opcodes := opcodes } = seen level)
    (h : countOpcode t log = .ok t') : SameLevel seen t t' := by
  unfold countOpcode at h
  split at h
  · exact sameLevel_updateLevel (fun level => hseen level _) h
  · cases h
    exact .refl t

theorem sameLevel_recordStorage
    (hseen : ∀ level access, seen { level with access := access } = seen level)
    (h : recordStorage t db log = .ok t') : SameLevel seen t t' := by
  unfold recordStorage at h
  split at h
  · obtain ⟨_, _, hupdate⟩ := except_bind_eq_ok_iff.mp h
    exact sameLevel_updateLevel (fun level => hseen level _) hupdate
  · cases h
    exact .refl t

theorem sameLevel_recordKeccak (h : recordKeccak t log = .ok t') : SameLevel seen t t' := by
  unfold recordKeccak at h
  split at h
  · obtain ⟨_, _, h⟩ := except_bind_eq_ok_iff.mp h
    split at h
    · obtain ⟨_, _, hinput⟩ := except_bind_eq_ok_iff.mp h
      cases hinput
      exact ⟨rfl, rfl, rfl, rfl⟩
    · cases h
      exact .refl t
  · cases h
    exact .refl t

theorem sameLevel_recordLog (h : recordLog t log = .ok t') : SameLevel seen t t' := by
  unfold recordLog at h
  split at h
  · obtain ⟨_, _, h⟩ := except_bind_eq_ok_iff.mp h
    obtain ⟨_, _, h⟩ := except_bind_eq_ok_iff.mp h
    cases h
    exact ⟨rfl, rfl, rfl, rfl⟩
  · cases h
    exact .refl t

theorem peek_ok {index word : ℕ} (h : log.peek index = .ok word) :
    log.stack[index]? = some word := by
  unfold StepLog.peek at h
  split at h
  · rename_i found hfound
    rw [hfound, Except.ok.inj h]
  · cases h

/-- What the EntryPoint's own step does: a call opens a new level, and the one
event stops the collection. -/
theorem recordTopLevel_ok (h : recordTopLevel t log = .ok t') :
    ((log.op = "CALL" ∨ log.op = "STATICCALL") ∧ ∃ methodSig target, t' = { t with
      earlierLevels := t.callsFromEntryPoint
      currentLevel := some
        { topLevelMethodSig := methodSig
          topLevelTargetAddress := target
          opcodes := .empty
          access := .empty
          contractSize := .empty
          extCodeAccessInfo := .empty } }) ∨
    (¬(log.op = "CALL" ∨ log.op = "STATICCALL") ∧ (t' = t ∨ (log.op = "LOG1" ∧
      (∃ topic, log.stack[2]? = some topic ∧ wordText topic = stopCollectingTopic) ∧
        t' = { t with stopCollecting := true }))) := by
  unfold recordTopLevel at h
  by_cases hop : log.op = "CALL" ∨ log.op = "STATICCALL"
  · rw [if_pos hop] at h
    obtain ⟨_, _, h⟩ := except_bind_eq_ok_iff.mp h
    obtain ⟨_, _, h⟩ := except_bind_eq_ok_iff.mp h
    obtain ⟨_, _, h⟩ := except_bind_eq_ok_iff.mp h
    exact Or.inl ⟨hop, _, _, (Except.ok.inj h).symm⟩
  · rw [if_neg hop] at h
    refine Or.inr ⟨hop, ?_⟩
    split at h
    · rename_i hlog
      obtain ⟨topic, htopic, h⟩ := except_bind_eq_ok_iff.mp h
      by_cases hstops : wordText topic = stopCollectingTopic
      · rw [if_pos hstops] at h
        exact Or.inr ⟨hlog, ⟨topic, peek_ok htopic, hstops⟩, (Except.ok.inj h).symm⟩
      · rw [if_neg hstops] at h
        exact Or.inl (Except.ok.inj h).symm
    · exact Or.inl (Except.ok.inj h).symm

section Steps

variable (seen : TopLevelCallInfo → β)
  (hseen : ∀ level oog accessInfo sizes, seen { level with
    oog := oog, extCodeAccessInfo := accessInfo, contractSize := sizes } = seen level)
  (hstop : t.stopCollecting = false) (h : step db t log = .ok t')

include hseen hstop h

/-- The EntryPoint's own step, seen without what is not a matter of opcodes or
storage. -/
theorem step_outside_ok (hdepth : log.depth = 1) :
    ∃ t₁ t₂, SameLevel seen t t₁ ∧ recordTopLevel t₁ log = .ok t₂ ∧
      t' = { t₂ with lastOp := "" } := by
  unfold step at h
  rw [if_neg (by rw [hstop]; exact Bool.false_ne_true)] at h
  obtain ⟨t₁, hoog, h⟩ := except_bind_eq_ok_iff.mp h
  obtain ⟨t₂, hreturn, h⟩ := except_bind_eq_ok_iff.mp h
  rw [if_pos hdepth] at h
  obtain ⟨t₃, htop, h⟩ := except_bind_eq_ok_iff.mp h
  have hbefore : SameLevel seen t t₂ :=
    sameLevel_pushOpcode.trans ((sameLevel_recordOog
      (fun level => hseen level _ level.extCodeAccessInfo level.contractSize) hoog).trans
        (sameLevel_recordReturn hreturn))
  exact ⟨t₂, t₃, hbefore, htop, (Except.ok.inj h).symm⟩

/-- The same for a step inside a call. -/
theorem step_inside_ok (hdepth : log.depth ≠ 1) :
    ∃ t₁ t₂ t₃, SameLevel seen t t₁ ∧ recordOpcode t₁ log = .ok t₂ ∧
      recordStorage t₂ db log = .ok t₃ ∧ SameLevel seen t₃ t' := by
  unfold step at h
  rw [if_neg (by rw [hstop]; exact Bool.false_ne_true)] at h
  obtain ⟨t₁, hoog, h⟩ := except_bind_eq_ok_iff.mp h
  obtain ⟨t₂, hreturn, h⟩ := except_bind_eq_ok_iff.mp h
  rw [if_neg hdepth] at h
  obtain ⟨t₃, hcode, h⟩ := except_bind_eq_ok_iff.mp h
  obtain ⟨t₄, hsize, h⟩ := except_bind_eq_ok_iff.mp h
  obtain ⟨t₅, hopcode, h⟩ := except_bind_eq_ok_iff.mp h
  obtain ⟨t₆, hstorage, h⟩ := except_bind_eq_ok_iff.mp h
  obtain ⟨t₇, hkeccak, hlog⟩ := except_bind_eq_ok_iff.mp h
  have hbefore : SameLevel seen t t₂ :=
    sameLevel_pushOpcode.trans ((sameLevel_recordOog
      (fun level => hseen level _ level.extCodeAccessInfo level.contractSize) hoog).trans
        (sameLevel_recordReturn hreturn))
  have hsizes : SameLevel seen t₂ t₄ :=
    (sameLevel_recordExtCodeAccess
      (fun level accessInfo => hseen level level.oog accessInfo level.contractSize) hcode).trans
      (sameLevel_recordContractSize
        (fun level sizes => hseen level level.oog level.extCodeAccessInfo sizes) hsize)
  exact ⟨t₄, t₅, t₆, hbefore.trans hsizes, hopcode, hstorage,
    (sameLevel_recordKeccak hkeccak).trans (sameLevel_recordLog hlog)⟩

end Steps

end Bundler.LevelFrames
