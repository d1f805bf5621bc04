import Bundler.LevelFrames
import Bundler.TracerResultParser

/-!
The rule on GAS, which only a call may follow. The tracer counts GAS at the
step behind it, unless the name of that step's opcode contains CALL; so it is
counted in a call from the EntryPoint just when some GAS is followed by an opcode
without these letters. CALLER, CALLVALUE and the three that read call data have
them and are no calls.
-/
namespace Bundler.GasRule

open KeyedRecords AsyncPrograms DataModel Validation Tracer LevelFrames TracerResultParser

/-- Two states of the tracer with the same levels, but for what is recorded of
accesses and code, and with the same opcode before. -/
structure SameOpcodes (t t' : Collector) : Prop where
  earlierLevels : t'.earlierLevels = t.earlierLevels
  opcodes : t'.currentLevel.map (fun level => (level.topLevelMethodSig, level.opcodes)) =
    t.currentLevel.map fun level => (level.topLevelMethodSig, level.opcodes)
  lastOp : t'.lastOp = t.lastOp
  stopCollecting : t'.stopCollecting = t.stopCollecting

section Parts

variable {t t' t'' : Collector} {db : StateDb} {log : StepLog}

theorem SameOpcodes.refl (t : Collector) : SameOpcodes t t := ⟨rfl, rfl, rfl, rfl⟩

theorem SameOpcodes.trans (h : SameOpcodes t t') (h' : SameOpcodes t' t'') : SameOpcodes t t'' :=
  ⟨h'.earlierLevels.trans h.earlierLevels, h'.opcodes.trans h.opcodes, h'.lastOp.trans h.lastOp,
    h'.stopCollecting.trans h.stopCollecting⟩

/-- What keeps the method and the opcodes of the level. -/
theorem sameOpcodes_of_sameLevel
    (h : SameLevel (fun level => (level.topLevelMethodSig, level.opcodes)) t t') :
    SameOpcodes t t' :=
  ⟨h.earlierLevels, h.current, h.lastOp, h.stopCollecting⟩

theorem sameOpcodes_recordStorage (h : recordStorage t db log = .ok t') : SameOpcodes t t' :=
  sameOpcodes_of_sameLevel (sameLevel_recordStorage (fun _ _ => rfl) h)

theorem mem_keys_countSlot {list : Record String ℕ} {key other : String} :
    other ∈ (countSlot list key).keys ↔ other = key ∨ other ∈ list.keys := by
  unfold countSlot
  rw [← Record.isSome_lookup_iff, ← Record.isSome_lookup_iff, Record.lookup_assign]
  split
  · rename_i heq
    exact iff_of_true rfl (Or.inl heq)
  · rename_i hne
    exact (or_iff_right hne).symm

/-- The level's opcodes have GAS. -/
def CountsGas (t : Collector) : Prop :=
  ∃ level, t.currentLevel = some level ∧ "GAS" ∈ level.opcodes.keys

/-- The current level is of a call with this method. -/
def InLevel (t : Collector) (methodSig : String) : Prop :=
  ∃ level, t.currentLevel = some level ∧ level.topLevelMethodSig = methodSig

theorem SameOpcodes.countsGas_iff (h : SameOpcodes t t') : CountsGas t' ↔ CountsGas t := by
  have hview (t : Collector) : CountsGas t ↔ ∃ pair ∈ t.currentLevel.map
      (fun level => (level.topLevelMethodSig, level.opcodes)), "GAS" ∈ pair.2.keys := by
    unfold CountsGas
    simp
  rw [hview, hview, h.opcodes]

theorem SameOpcodes.inLevel_iff (h : SameOpcodes t t') (methodSig : String) :
    InLevel t' methodSig ↔ InLevel t methodSig := by
  have hview (t : Collector) : InLevel t methodSig ↔ ∃ pair ∈ t.currentLevel.map
      (fun level => (level.topLevelMethodSig, level.opcodes)), pair.1 = methodSig := by
    unfold InLevel
    simp
  rw [hview, hview, h.opcodes]

/-- A change that counts an opcode of the level. -/
theorem counted_updateLevel {opcode : String}
    (h : updateLevel t (fun level => { level with opcodes := countSlot level.opcodes opcode }) =
      .ok t') :
    (CountsGas t' ↔ CountsGas t ∨ opcode = "GAS") ∧
      (∀ methodSig, InLevel t' methodSig ↔ InLevel t methodSig) ∧ t'.lastOp = t.lastOp ∧
        t'.stopCollecting = t.stopCollecting := by
  obtain ⟨level, hlevel, rfl⟩ := updateLevel_ok h
  refine ⟨?_, fun methodSig => ?_, rfl, rfl⟩
  · unfold CountsGas
    simp only [hlevel, Option.some.injEq, exists_eq_left', mem_keys_countSlot]
    rw [or_comm, eq_comm]
  · unfold InLevel
    simp only [hlevel, Option.some.injEq, exists_eq_left']

theorem countGas_ok (h : countGas t log = .ok t') :
    (CountsGas t' ↔ CountsGas t ∨ (t.lastOp = "GAS" ∧ ¬includes log.op "CALL")) ∧
      (∀ methodSig, InLevel t' methodSig ↔ InLevel t methodSig) ∧
        t'.stopCollecting = t.stopCollecting := by
  unfold countGas at h
  split at h
  · rename_i hgas
    obtain ⟨hcounts, hin, _, hstop⟩ := counted_updateLevel h
    refine ⟨?_, hin, hstop⟩
    rw [hcounts]
    exact or_congr_right (iff_of_true rfl (by simpa using hgas))
  · rename_i hgas
    cases h
    exact ⟨(or_iff_left (by simpa using hgas)).symm, fun _ => Iff.rfl, rfl⟩

theorem countOpcode_ok (h : countOpcode t log = .ok t') :
    (CountsGas t' ↔ CountsGas t) ∧ (∀ methodSig, InLevel t' methodSig ↔ InLevel t methodSig) ∧
      t'.stopCollecting = t.stopCollecting := by
  unfold countOpcode at h
  split at h
  · rename_i hother
    obtain ⟨hcounts, hin, _, hstop⟩ := counted_updateLevel h
    exact ⟨hcounts.trans (or_iff_left hother.1), hin, hstop⟩
  · cases h
    exact ⟨Iff.rfl, fun _ => Iff.rfl, rfl⟩

/-- GAS is counted at a step behind it whose name does not contain CALL. -/
theorem recordOpcode_ok (h : recordOpcode t log = .ok t') :
    (CountsGas t' ↔ CountsGas t ∨ (t.lastOp = "GAS" ∧ ¬includes log.op "CALL")) ∧
      (∀ methodSig, InLevel t' methodSig ↔ InLevel t methodSig) ∧ t'.lastOp = log.op ∧
        t'.stopCollecting = t.stopCollecting := by
  unfold recordOpcode at h
  obtain ⟨t₁, hgas, h⟩ := except_bind_eq_ok_iff.mp h
  obtain ⟨t₂, hother, h⟩ := except_bind_eq_ok_iff.mp h
  cases h
  obtain ⟨hcounts, hin, hstop⟩ := countGas_ok hgas
  obtain ⟨hcounts', hin', hstop'⟩ := countOpcode_ok hother
  exact ⟨hcounts'.trans hcounts, fun methodSig => (hin' methodSig).trans (hin methodSig), rfl,
    hstop'.trans hstop⟩

end Parts

section Runs

variable {db : StateDb} {t t' : Collector}

/-- What a step inside a call leaves. -/
theorem step_ok {log : StepLog} (hstop : t.stopCollecting = false) (hdepth : log.depth ≠ 1)
    (h : step db t log = .ok t') :
    (CountsGas t' ↔ CountsGas t ∨ (t.lastOp = "GAS" ∧ ¬includes log.op "CALL")) ∧
      (∀ methodSig, InLevel t' methodSig ↔ InLevel t methodSig) ∧ t'.lastOp = log.op ∧
        t'.stopCollecting = false := by
  obtain ⟨t₁, t₂, t₃, hfirst, hopcode, hstorage, hlast⟩ :=
    step_inside_ok (fun level => (level.topLevelMethodSig, level.opcodes))
      (fun _ _ _ _ => rfl) hstop h hdepth
  have hbefore := sameOpcodes_of_sameLevel hfirst
  have hafter := (sameOpcodes_recordStorage hstorage).trans (sameOpcodes_of_sameLevel hlast)
  obtain ⟨hcounts, hin, hop, hstop'⟩ := recordOpcode_ok hopcode
  rw [hbefore.countsGas_iff, hbefore.lastOp] at hcounts
  refine ⟨hafter.countsGas_iff.trans hcounts, fun methodSig => ?_, hafter.lastOp.trans hop, ?_⟩
  · rw [hafter.inLevel_iff, hin, hbefore.inLevel_iff]
  · rw [hafter.stopCollecting, hstop', hbefore.stopCollecting, hstop]

/-- Some GAS step has a step right behind it whose opcode is of this kind. -/
def GasFollowedBy (kind : String → Prop) (steps : List StepLog) : Prop :=
  ∃ before gas next rest, steps = before ++ gas :: next :: rest ∧ gas.op = "GAS" ∧ kind next.op

/-- The step that comes first is of this kind. -/
def StartsWith (kind : String → Prop) (steps : List StepLog) : Prop :=
  ∃ next ∈ steps.head?, kind next.op

theorem gasFollowedBy_cons {kind : String → Prop} {log : StepLog} {steps : List StepLog} :
    GasFollowedBy kind (log :: steps) ↔
      (log.op = "GAS" ∧ StartsWith kind steps) ∨ GasFollowedBy kind steps := by
  constructor
  · rintro ⟨before, gas, next, rest, heq, hgas, hkind⟩
    cases before with
    | nil =>
      cases heq
      exact Or.inl ⟨hgas, next, rfl, hkind⟩
    | cons first before =>
      cases heq
      exact Or.inr ⟨before, gas, next, rest, rfl, hgas, hkind⟩
  · rintro (⟨hgas, next, hnext, hkind⟩ | ⟨before, gas, next, rest, rfl, hgas, hkind⟩)
    · obtain ⟨rest, rfl⟩ := List.head?_eq_some_iff.mp hnext
      exact ⟨[], log, next, rest, rfl, hgas, hkind⟩
    · exact ⟨log :: before, gas, next, rest, rfl, hgas, hkind⟩

/-- Over a run, GAS is counted when some GAS is followed by a name without
CALL. -/
theorem run_ok {steps : List StepLog} (hstop : t.stopCollecting = false)
    (hdepth : ∀ log ∈ steps, log.depth ≠ 1) (h : steps.foldlM (step db) t = .ok t') :
    (CountsGas t' ↔ CountsGas t ∨
        (t.lastOp = "GAS" ∧ StartsWith (fun op => ¬includes op "CALL") steps) ∨
        GasFollowedBy (fun op => ¬includes op "CALL") steps) ∧
      ∀ methodSig, InLevel t' methodSig ↔ InLevel t methodSig := by
  induction steps generalizing t with
  | nil =>
    cases h
    refine ⟨(or_iff_left ?_).symm, fun _ => Iff.rfl⟩
    rintro (⟨_, _, hnext, _⟩ | ⟨before, _, _, _, heq, _⟩)
    · cases hnext
    · cases before with
      | nil => cases heq
      | cons _ _ => cases heq
  | cons log steps ih =>
    obtain ⟨hfirst, hrest⟩ := List.forall_mem_cons.mp hdepth
    rw [List.foldlM_cons] at h
    obtain ⟨t₁, hstep, h⟩ := except_bind_eq_ok_iff.mp h
    obtain ⟨hcounts, hin, hlast, hstop₁⟩ := step_ok hstop hfirst hstep
    obtain ⟨hcounts', hin'⟩ := ih hstop₁ hrest h
    refine ⟨?_, fun methodSig => (hin' methodSig).trans (hin methodSig)⟩
    rw [hcounts', hcounts, hlast, gasFollowedBy_cons, or_assoc]
    have hstarts : StartsWith (fun op => ¬includes op "CALL") (log :: steps) ↔
        ¬includes log.op "CALL" := ⟨fun ⟨_, hnext, hkind⟩ => by cases hnext; exact hkind,
      fun hkind => ⟨log, rfl, hkind⟩⟩
    rw [hstarts]

end Runs

section Rule

variable {db : StateDb} {t t' : Collector}

/-- A call from the EntryPoint opens a level with nothing in it. -/
theorem opens_level {call : StepLog} (hstop : t.stopCollecting = false) (hdepth : call.depth = 1)
    (hop : call.op = "CALL" ∨ call.op = "STATICCALL") (h : step db t call = .ok t') :
    ¬CountsGas t' ∧ t'.lastOp = "" ∧ t'.stopCollecting = false := by
  obtain ⟨t₁, t₂, hbefore, htop, rfl⟩ :=
    step_outside_ok (fun level => (level.topLevelMethodSig, level.opcodes))
      (fun _ _ _ _ => rfl) hstop h hdepth
  rcases recordTopLevel_ok htop with ⟨_, methodSig, target, rfl⟩ | ⟨hother, _⟩
  · refine ⟨?_, rfl, hbefore.stopCollecting.trans hstop⟩
    rintro ⟨_, ⟨⟩, hgas⟩
    cases hgas
  · exact absurd hop hother

/-- The opcodes of a call that an entity's check reads are not to have GAS. -/
theorem throws_of_gas {lib : Library} {userOp : UserOperation}
    {tracerResults : BundlerCollectorReturn} {validationResult : ValidationResult}
    {epAddress : String} {entity : Entity} {level : TopLevelCallInfo}
    (hlevel : findLevel lib tracerResults entity = some level)
    (hgas : "GAS" ∈ level.opcodes.keys) :
    ∃ e, tracerResultParser lib userOp tracerResults validationResult epAddress = .error e := by
  cases hresult : tracerResultParser lib userOp tracerResults validationResult epAddress with
  | error e => exact ⟨e, rfl⟩
  | ok result =>
    obtain ⟨_, _, _, _, hentities⟩ := tracerResultParser_ok_iff.mp ⟨result, hresult⟩
    have hmem : entity ∈ entities := by cases entity <;> decide
    obtain ⟨_, hchecks⟩ := checkEntity_ok_iff.mp (hentities entity hmem)
    obtain ⟨_, hopcodes, _⟩ := hchecks level hlevel
    obtain ⟨hbanned, _⟩ := then_ok_iff.mp (forM_ok_iff.mp hopcodes "GAS" hgas)
    exact absurd (by decide) (requireCond_ok_iff.mp hbanned)

/-- GAS is among the opcodes of the level, so that the parser throws for the
entity that the level is the call of. -/
def GasCaught (t : Collector) : Prop :=
  ∃ level, t.currentLevel = some level ∧ "GAS" ∈ level.opcodes.keys ∧
    ∀ (lib : Library) (userOp : UserOperation) (tracerResults : BundlerCollectorReturn)
      (validationResult : ValidationResult) (epAddress : String) (entity : Entity),
      findLevel lib tracerResults entity = some level →
        ∃ e, tracerResultParser lib userOp tracerResults validationResult epAddress = .error e

theorem gasCaught_iff : GasCaught t ↔ CountsGas t := by
  constructor
  · rintro ⟨level, hlevel, hgas, _⟩
    exact ⟨level, hlevel, hgas⟩
  · rintro ⟨level, hlevel, hgas⟩
    exact ⟨level, hlevel, hgas, fun _ _ _ _ _ _ h => throws_of_gas h hgas⟩

def callOpcodes : List String := ["CALL", "CALLCODE", "DELEGATECALL", "STATICCALL"]

theorem includes_of_mem {op : String} (h : op ∈ callOpcodes) : includes op "CALL" := by
  unfold callOpcodes at h
  rcases List.mem_cons.mp h with rfl | h
  · decide
  rcases List.mem_cons.mp h with rfl | h
  · decide
  rcases List.mem_cons.mp h with rfl | h
  · decide
  · obtain rfl := List.mem_singleton.mp h
    decide

theorem gasFollowedBy_or {kind other : String → Prop} {steps : List StepLog} :
    GasFollowedBy (fun op => kind op ∨ other op) steps ↔
      GasFollowedBy kind steps ∨ GasFollowedBy other steps := by
  constructor
  · rintro ⟨before, gas, next, rest, heq, hgas, hkind | hother⟩
    · exact Or.inl ⟨before, gas, next, rest, heq, hgas, hkind⟩
    · exact Or.inr ⟨before, gas, next, rest, heq, hgas, hother⟩
  · rintro (⟨before, gas, next, rest, heq, hgas, h⟩ | ⟨before, gas, next, rest, heq, hgas, h⟩)
    · exact ⟨before, gas, next, rest, heq, hgas, Or.inl h⟩
    · exact ⟨before, gas, next, rest, heq, hgas, Or.inr h⟩

/-- In a call from the EntryPoint, GAS without a call behind it is caught just
when some GAS has an opcode behind it without CALL in its name, or none has one
with CALL in its name that is no call. -/
theorem gas_rule_iff {call : StepLog} {steps : List StepLog} (hstop : t.stopCollecting = false)
    (hcall : call.depth = 1) (hop : call.op = "CALL" ∨ call.op = "STATICCALL")
    (hdepth : ∀ log ∈ steps, 1 < log.depth) (hrun : (call :: steps).foldlM (step db) t = .ok t') :
    (GasFollowedBy (fun op => op ∉ callOpcodes) steps → GasCaught t') ↔
      GasFollowedBy (fun op => ¬includes op "CALL") steps ∨
        ¬GasFollowedBy (fun op => includes op "CALL" ∧ op ∉ callOpcodes) steps := by
  rw [List.foldlM_cons] at hrun
  obtain ⟨t₁, hfirst, hrun⟩ := except_bind_eq_ok_iff.mp hrun
  obtain ⟨hfresh, hlast, hstop₁⟩ := opens_level hstop hcall hop hfirst
  obtain ⟨hcounts, _⟩ := run_ok hstop₁ (fun log hlog => (hdepth log hlog).ne') hrun
  have hcaught : GasCaught t' ↔ GasFollowedBy (fun op => ¬includes op "CALL") steps := by
    rw [gasCaught_iff, hcounts, or_iff_right hfresh, hlast]
    exact or_iff_right fun h => absurd h.1 (by decide)
  have hkinds : GasFollowedBy (fun op => op ∉ callOpcodes) steps ↔
      GasFollowedBy (fun op => ¬includes op "CALL") steps ∨
        GasFollowedBy (fun op => includes op "CALL" ∧ op ∉ callOpcodes) steps := by
    rw [← gasFollowedBy_or]
    have hsplit (op : String) : op ∉ callOpcodes ↔
        ¬includes op "CALL" ∨ (includes op "CALL" ∧ op ∉ callOpcodes) := by
      by_cases hincludes : includes op "CALL"
      · exact ⟨fun h => Or.inr ⟨hincludes, h⟩, fun h => h.elim (absurd hincludes) And.right⟩
      · exact iff_of_true (fun h => hincludes (includes_of_mem h)) (Or.inl hincludes)
    simp only [← hsplit]
  rw [hcaught, hkinds]
  tauto

end Rule

section Concrete

/-- A step with the selector of validateUserOp in memory. -/
def stepAt (depth : ℕ) (op : String) (stack : List ℕ) : StepLog where
  op := op
  stack := stack
  gas := 100000
  cost := 100
  depth := depth
  memorySlice start stop := .ok (ByteStrings.slice [0x19, 0x82, 0x2f, 0x7c] start stop)
  contractAddress := []

def noCode : StateDb := ⟨fun _ => [], fun _ _ => []⟩

/-- The EntryPoint calls the account. -/
def callStep : StepLog := stepAt 1 "CALL" [100000, 0xa1, 0, 0, 4, 0, 0]

def gasThen (op : String) : List StepLog := [stepAt 2 "GAS" [], stepAt 2 op [0]]

theorem gas_then_timestamp_caught :
    ∃ t, (callStep :: gasThen "TIMESTAMP").foldlM (step noCode) .initial = .ok t ∧
      GasCaught t := by
  have hdepth : ∀ log ∈ gasThen "TIMESTAMP", 1 < log.depth := by decide
  have hnoCall : GasFollowedBy (fun op => ¬includes op "CALL") (gasThen "TIMESTAMP") :=
    ⟨[], _, _, [], rfl, rfl, by decide⟩
  have hcaught {t : Collector}
      (hrun : (callStep :: gasThen "TIMESTAMP").foldlM (step noCode) .initial = .ok t) :
      GasCaught t :=
    (gas_rule_iff rfl rfl (Or.inl rfl) hdepth hrun).mpr (Or.inl hnoCall)
      ⟨[], _, _, [], rfl, rfl, by decide⟩
  exact ⟨_, rfl, hcaught rfl⟩

/-- CALLER is no call, but its name begins like one. -/
theorem gas_then_caller_missed :
    GasFollowedBy (fun op => op ∉ callOpcodes) (gasThen "CALLER") ∧
      ∃ t, (callStep :: gasThen "CALLER").foldlM (step noCode) .initial = .ok t ∧
        ¬GasCaught t ∧
          ∃ result, tracerResultParser (libraryWith id) (plainOp account 1 10 none none) t.result
            { returnInfo := ⟨60000, 0, false, 0, 0⟩, senderInfo := some ⟨account, 0, 0⟩ }
            entryPoint = .ok result := by
  refine ⟨⟨[], _, _, [], rfl, rfl, by decide⟩, _, rfl, ?_, _, rfl⟩
  rintro ⟨level, hlevel, hgas, _⟩
  cases hlevel
  exact absurd hgas (by decide)

end Concrete

end Bundler.GasRule
