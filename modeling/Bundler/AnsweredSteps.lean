import Bundler.LevelFrames

/-!
Steps that the tracer processes. It asks the node for words of the stack and for
memory, and a step of a call needs the level of the call. When all of this is
there no part of the step throws, and the next step can be processed as well.
-/
namespace Bundler.AnsweredSteps

open AsyncPrograms DataModel HexStrings Tracer LevelFrames

section Answers

variable {t : Collector} {db : StateDb} {log : StepLog}

/-- The topics of a log opcode. -/
def topicCount (op : String) : ℕ := (String.ofList (op.toList.drop 3)).toNat?.getD 0

/-- The words that an opcode takes from the stack, of those the tracer asks
for. -/
def stackInputs (op : String) : ℕ :=
  if startsWith op "LOG" then 2 + topicCount op
  else if startsWith op "EXT" then 1
  else if op ∈ ["CALL", "CALLCODE"] then 7
  else if op ∈ ["DELEGATECALL", "STATICCALL"] then 6
  else if op ∈ ["SSTORE", "TSTORE", "KECCAK256", "RETURN", "REVERT"] then 2
  else if op ∈ ["SLOAD", "TLOAD"] then 1
  else 0

/-- What the node promises of a step: depths count from one, the machine checks
the stack before a step, and the memory that an opcode spans can be read. -/
structure Answered (log : StepLog) : Prop where
  depth : 1 ≤ log.depth
  stack : stackInputs log.op ≤ log.stack.length
  span : startsWith log.op "LOG" ∨ log.op ∈ ["KECCAK256", "RETURN", "REVERT"] →
    ∃ bytes, log.memoryAt 0 1 = .ok bytes
  topic : log.op = "LOG1" → 2 < log.stack.length
  method : log.op ∈ ["CALL", "STATICCALL"] → ∀ ofs, log.stack[3]? = some ofs →
    ∃ bytes, log.memorySlice ofs (ofs + 4) = .ok bytes

def RunsOut (log : StepLog) : Prop := log.gas < log.cost ∨ log.op = "SSTORE" ∧ log.gas < 2300

/-- The words of a step that looked at a contract are there. -/
def Looked (t : Collector) : Prop :=
  ∀ info ∈ t.lastThreeOpcodes, startsWith info.opcode "EXT" → info.stackTop3 ≠ []

/-- A call has been opened, and what the steps before left can be used. -/
structure Ready (t : Collector) : Prop where
  opened : t.currentLevel.isSome
  looked : Looked t

theorem exists_peek {index : ℕ} (h : index < log.stack.length) :
    ∃ word, log.peek index = .ok word ∧ log.stack[index]? = some word := by
  refine ⟨log.stack[index], ?_, List.getElem?_eq_getElem h⟩
  unfold StepLog.peek
  rw [List.getElem?_eq_getElem h]

theorem ready_updateLevel (h : Ready t) (f : TopLevelCallInfo → TopLevelCallInfo) :
    ∃ t', updateLevel t f = .ok t' ∧ Ready t' := by
  obtain ⟨level, hlevel⟩ := Option.isSome_iff_exists.mp h.opened
  refine ⟨{ t with currentLevel := some (f level) }, ?_, rfl, h.looked⟩
  unfold updateLevel
  rw [hlevel]

theorem ready_recordExtCodeAccess (log : StepLog) (h : Ready t) :
    ∃ t', recordExtCodeAccess t log = .ok t' ∧ Ready t' := by
  unfold recordExtCodeAccess
  split
  · exact ⟨t, rfl, h⟩
  · rename_i info hinfo
    obtain ⟨hlast, hext⟩ := Option.filter_eq_some_iff.mp hinfo
    have hmem : info ∈ t.lastThreeOpcodes :=
      List.dropLast_subset _ (List.mem_of_getLast? hlast)
    split
    · rename_i hnone
      exact absurd (List.head?_eq_none_iff.mp hnone) (h.looked info hmem hext)
    · dsimp only
      split
      · exact ⟨t, rfl, h⟩
      · exact ready_updateLevel h _

theorem stackInputs_of_ext {op : String} (h : startsWith op "EXT") : 1 ≤ stackInputs op := by
  unfold stackInputs
  by_cases hlog : startsWith op "LOG"
  · rw [if_pos hlog]
    omega
  · rw [if_neg hlog, if_pos h]

theorem ready_recordContractSize (db : StateDb) (hlog : Answered log) (h : Ready t) :
    ∃ t', recordContractSize t db log = .ok t' ∧ Ready t' := by
  unfold recordContractSize
  split
  · rename_i hop
    have hcalls : ∀ op ∈ ["CALL", "CALLCODE", "DELEGATECALL", "STATICCALL"],
        6 ≤ stackInputs op := by decide
    have hindex : (if startsWith log.op "EXT" then 0 else 1) < log.stack.length := by
      have hstack := hlog.stack
      split
      · rename_i hext
        have hinputs := stackInputs_of_ext hext
        omega
      · rename_i hext
        have hinputs := hcalls log.op (hop.resolve_left hext)
        omega
    obtain ⟨word, hword, _⟩ := exists_peek hindex
    rw [hword]
    exact ready_updateLevel h _
  · exact ⟨t, rfl, h⟩

theorem ready_recordOpcode (log : StepLog) (h : Ready t) :
    ∃ t', recordOpcode t log = .ok t' ∧ Ready t' := by
  obtain ⟨t₁, hgas, hready⟩ : ∃ t', countGas t log = .ok t' ∧ Ready t' := by
    unfold countGas
    split
    · exact ready_updateLevel h _
    · exact ⟨t, rfl, h⟩
  obtain ⟨t₂, hother, hready₂⟩ : ∃ t', countOpcode t₁ log = .ok t' ∧ Ready t' := by
    unfold countOpcode
    split
    · exact ready_updateLevel hready _
    · exact ⟨t₁, rfl, hready⟩
  refine ⟨{ t₂ with lastOp := log.op }, ?_, hready₂.opened, hready₂.looked⟩
  unfold recordOpcode
  rw [hgas]
  change (do let t ← countOpcode t₁ log; pure { t with lastOp := log.op }) = _
  rw [hother]
  rfl

theorem ready_recordStorage (db : StateDb) (hlog : Answered log) (h : Ready t) :
    ∃ t', recordStorage t db log = .ok t' ∧ Ready t' := by
  unfold recordStorage
  split
  · rename_i hop
    have haccesses : ∀ op ∈ ["SLOAD", "SSTORE", "TLOAD", "TSTORE"], 1 ≤ stackInputs op := by decide
    have hstack := hlog.stack
    have hinputs := haccesses log.op hop
    obtain ⟨word, hword, _⟩ := exists_peek (by omega : 0 < log.stack.length)
    rw [hword]
    exact ready_updateLevel h _
  · exact ⟨t, rfl, h⟩

theorem ready_recordKeccak (hlog : Answered log) (h : Ready t) :
    ∃ t', recordKeccak t log = .ok t' ∧ Ready t' := by
  unfold recordKeccak
  split
  · rename_i hop
    have hinputs : stackInputs "KECCAK256" = 2 := by decide
    have hstack := hlog.stack
    rw [hop, hinputs] at hstack
    obtain ⟨len, hlen, _⟩ := exists_peek (by omega : 1 < log.stack.length)
    obtain ⟨input, hinput⟩ := hlog.span (Or.inr (by simp [hop]))
    rw [hlen]
    change ∃ t', (if 20 < len ∧ len < 512 then _ else _) = Except.ok t' ∧ Ready t'
    split
    · rw [hinput]
      exact ⟨_, rfl, h.opened, h.looked⟩
    · exact ⟨t, rfl, h⟩
  · exact ⟨t, rfl, h⟩

theorem exists_mapM_peek {indices : List ℕ} (h : ∀ i ∈ indices, 2 + i < log.stack.length) :
    ∃ topics, indices.mapM (fun i => log.peek (2 + i)) = .ok topics := by
  induction indices with
  | nil => exact ⟨[], rfl⟩
  | cons i indices ih =>
    obtain ⟨hfirst, hrest⟩ := List.forall_mem_cons.mp h
    obtain ⟨topic, htopic, _⟩ := exists_peek hfirst
    obtain ⟨topics, htopics⟩ := ih hrest
    refine ⟨topic :: topics, ?_⟩
    rw [List.mapM_cons, htopic, htopics]
    rfl

theorem ready_recordLog (hlog : Answered log) (h : Ready t) :
    ∃ t', recordLog t log = .ok t' ∧ Ready t' := by
  unfold recordLog
  split
  · rename_i hop
    have hstack := hlog.stack
    unfold stackInputs at hstack
    rw [if_pos hop] at hstack
    have hindices : ∀ i ∈ List.range (topicCount log.op), 2 + i < log.stack.length := by
      intro i hi
      have hlt := List.mem_range.mp hi
      omega
    obtain ⟨topics, htopics⟩ := exists_mapM_peek hindices
    obtain ⟨data, hdata⟩ := hlog.span (Or.inl hop)
    unfold topicCount at htopics
    dsimp only
    rw [htopics, hdata]
    exact ⟨_, rfl, h.opened, h.looked⟩
  · exact ⟨t, rfl, h⟩

theorem exists_recordOog (hruns : RunsOut log → t.currentLevel.isSome) :
    ∃ t', recordOog t log = .ok t' ∧ t'.lastThreeOpcodes = t.lastThreeOpcodes ∧
      (t.currentLevel.isSome → t'.currentLevel.isSome) := by
  unfold recordOog
  split
  · rename_i hout
    obtain ⟨level, hlevel⟩ := Option.isSome_iff_exists.mp (hruns hout)
    unfold updateLevel
    rw [hlevel]
    exact ⟨_, rfl, rfl, fun _ => rfl⟩
  · exact ⟨t, rfl, rfl, id⟩

theorem exists_recordReturn (hlog : Answered log) :
    ∃ t', recordReturn t log = .ok t' ∧ (t'.lastThreeOpcodes = t.lastThreeOpcodes ∨
      t'.lastThreeOpcodes = []) ∧ t'.currentLevel = t.currentLevel := by
  have hanswer (type : ExitType) (hop : log.op ∈ ["KECCAK256", "RETURN", "REVERT"]) :
      ∃ t', (do
        let t ←
          if log.depth = 1 then do
            let output ← log.memoryAt 0 1
            pure { t with calls := t.calls ++ [.inr ⟨type, 0, hexSlice output 4000⟩] }
          else pure t
        pure { t with lastThreeOpcodes := [] } : Except JsError Collector) = .ok t' ∧
          t'.lastThreeOpcodes = [] ∧ t'.currentLevel = t.currentLevel := by
    obtain ⟨output, houtput⟩ := hlog.span (Or.inr hop)
    rw [houtput]
    split
    · exact ⟨_, rfl, rfl, rfl⟩
    · exact ⟨_, rfl, rfl, rfl⟩
  unfold recordReturn
  dsimp only
  by_cases hrevert : log.op = "REVERT"
  · obtain ⟨t', hok, hcleared, hcurrent⟩ := hanswer .revert (by simp [hrevert])
    rw [if_pos hrevert]
    exact ⟨t', hok, Or.inr hcleared, hcurrent⟩
  · rw [if_neg hrevert]
    by_cases hreturn : log.op = "RETURN"
    · obtain ⟨t', hok, hcleared, hcurrent⟩ := hanswer .returned (by simp [hreturn])
      rw [if_pos hreturn]
      exact ⟨t', hok, Or.inr hcleared, hcurrent⟩
    · rw [if_neg hreturn]
      exact ⟨t, rfl, Or.inl rfl, rfl⟩

theorem looked_pushOpcode (hlog : Answered log) (h : Looked t) : Looked (pushOpcode t log) := by
  have hpushed : ∀ info ∈ t.lastThreeOpcodes ++ [⟨log.op, log.stack.take 3⟩],
      startsWith info.opcode "EXT" → info.stackTop3 ≠ [] := by
    intro info hinfo hext
    rcases List.mem_append.mp hinfo with hold | hnew
    · exact h info hold hext
    · obtain rfl := List.mem_singleton.mp hnew
      have hinputs := stackInputs_of_ext hext
      have hstack := hlog.stack
      intro hnil
      have hlength := congrArg List.length hnil
      rw [List.length_take, List.length_nil] at hlength
      dsimp only at hinputs
      omega
  unfold pushOpcode Looked
  dsimp only
  split
  · exact fun info hinfo => hpushed info (List.mem_of_mem_tail hinfo)
  · exact hpushed

/-- The EntryPoint's own step is processed, and opens a level if it is a call. -/
theorem exists_recordTopLevel (hlog : Answered log) :
    ∃ t', recordTopLevel t log = .ok t' ∧ t'.lastThreeOpcodes = t.lastThreeOpcodes ∧
      (t.currentLevel.isSome ∨ log.op = "CALL" ∨ log.op = "STATICCALL" →
        t'.currentLevel.isSome) := by
  have hstack := hlog.stack
  unfold recordTopLevel
  by_cases hop : log.op = "CALL" ∨ log.op = "STATICCALL"
  · have hinputs : 6 ≤ stackInputs log.op := by
      rcases hop with hcall | hcall
      · rw [hcall]
        decide
      · rw [hcall]
        decide
    obtain ⟨target, htarget, _⟩ := exists_peek (by omega : 1 < log.stack.length)
    obtain ⟨ofs, hofs, hword⟩ := exists_peek (by omega : 3 < log.stack.length)
    obtain ⟨methodSig, hmethod⟩ := hlog.method (by simpa using hop) ofs hword
    rw [if_pos hop, htarget, hofs]
    change ∃ t', (do
      let methodSig ← log.memorySlice ofs (ofs + 4)
      pure _) = Except.ok t' ∧ _
    rw [hmethod]
    exact ⟨_, rfl, rfl, fun _ => rfl⟩
  · rw [if_neg hop]
    split
    · rename_i hlog1
      obtain ⟨topic, htopic, _⟩ := exists_peek (hlog.topic hlog1)
      rw [htopic]
      refine ⟨_, rfl, ?_, ?_⟩
      · split
        · rfl
        · rfl
      · intro hopened
        have hsome := hopened.resolve_right hop
        split
        · exact hsome
        · exact hsome
    · exact ⟨t, rfl, rfl, fun hopened => hopened.resolve_right hop⟩

/-- A step that is answered is processed, if a call has been opened before a
step that needs one. -/
theorem exists_step (db : StateDb) (hstop : t.stopCollecting = false) (hlog : Answered log)
    (hlooked : Looked t) (hruns : RunsOut log → t.currentLevel.isSome)
    (hinside : 1 < log.depth → t.currentLevel.isSome) :
    ∃ t', Tracer.step db t log = .ok t' ∧ Looked t' ∧
      (t.currentLevel.isSome ∨ Opens log → t'.currentLevel.isSome) := by
  obtain ⟨t₁, hoog, hlast₁, hopened₁⟩ := exists_recordOog (t := pushOpcode t log) hruns
  obtain ⟨t₂, hreturn, hlast₂, hcurrent₂⟩ := exists_recordReturn (t := t₁) hlog
  have hlooked₂ : Looked t₂ := by
    unfold Looked
    rcases hlast₂ with hsame | hcleared
    · rw [hsame, hlast₁]
      exact looked_pushOpcode hlog hlooked
    · rw [hcleared]
      exact nofun
  have hopened₂ (hopened : t.currentLevel.isSome) : t₂.currentLevel.isSome := by
    rw [hcurrent₂]
    exact hopened₁ hopened
  unfold Tracer.step
  rw [if_neg (by rw [hstop]; exact Bool.false_ne_true), hoog]
  change ∃ t', (do
    let t ← recordReturn t₁ log
    if log.depth = 1 then _ else _) = Except.ok t' ∧ _
  rw [hreturn]
  by_cases hdepth : log.depth = 1
  · obtain ⟨t₃, htop, hlast₃, hopened₃⟩ := exists_recordTopLevel (t := t₂) hlog
    change ∃ t', (if log.depth = 1 then _ else _) = Except.ok t' ∧ _
    rw [if_pos hdepth, htop]
    refine ⟨_, rfl, ?_, ?_⟩
    · unfold Looked
      dsimp only
      rw [hlast₃]
      exact hlooked₂
    · intro hopened
      refine hopened₃ ?_
      rcases hopened with hsome | hopens
      · exact Or.inl (hopened₂ hsome)
      · exact Or.inr hopens.2
  · have hready₂ : Ready t₂ := by
      have hlow := hlog.depth
      exact ⟨hopened₂ (hinside (by omega)), hlooked₂⟩
    obtain ⟨t₃, hcode, hready₃⟩ := ready_recordExtCodeAccess log hready₂
    obtain ⟨t₄, hsize, hready₄⟩ := ready_recordContractSize db hlog hready₃
    obtain ⟨t₅, hopcode, hready₅⟩ := ready_recordOpcode log hready₄
    obtain ⟨t₆, hstorage, hready₆⟩ := ready_recordStorage db hlog hready₅
    obtain ⟨t₇, hkeccak, hready₇⟩ := ready_recordKeccak hlog hready₆
    obtain ⟨t₈, hlogged, hready₈⟩ := ready_recordLog hlog hready₇
    refine ⟨t₈, ?_, hready₈.looked, fun _ => hready₈.opened⟩
    change (if log.depth = 1 then _ else _) = _
    rw [if_neg hdepth]
    simp only [except_bind_eq_ok_iff]
    exact ⟨t₃, hcode, t₄, hsize, t₅, hopcode, t₆, hstorage, t₇, hkeccak, hlogged⟩

end Answers

end Bundler.AnsweredSteps
