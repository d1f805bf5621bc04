import Bundler.TracerResultParser

/-!
The rules on calls hold at every depth. The two searches go over the entries
of parseCallStack only, so they see every call of a trace just because every
call has an entry that carries its own target, caller, value and method.
-/
namespace Bundler.CallRules

open DataModel NestedTraces Tracer CallStack TracerResultParser

/-- A call of another contract to the EntryPoint is a deposit or carries no
method. -/
def AllowedIntoEntryPoint (abi : AbiDecoder) (entryPointAddress : String) (call : MethodInfo) :
    Prop :=
  call.to = entryPointAddress → call.from ≠ entryPointAddress →
    ¬includes call.type "CREATE" ∧
      (decodedMethod abi call.method = "0x" ∨ decodedMethod abi call.method = "depositTo")

/-- A call to another contract carries no value, unless it creates one. -/
def CarriesNoValue (entryPointAddress : String) (call : MethodInfo) : Prop :=
  call.to ≠ entryPointAddress → ¬includes call.type "CREATE" → call.value.getD 0 = 0

variable {abi : AbiDecoder} {entryPointAddress : String} {entry : CallEntry} {call : MethodInfo}

theorem allowed_of_describes (h : Describes abi entry call)
    (hentry : ¬(entry.to = some entryPointAddress ∧ entry.from ≠ some entryPointAddress ∧
      entry.method ≠ "0x" ∧ entry.method ≠ "depositTo")) :
    AllowedIntoEntryPoint abi entryPointAddress call := by
  intro hto hfrom
  rw [h.to, h.from, hto] at hentry
  have hmethod : entry.method = "0x" ∨ entry.method = "depositTo" := by
    by_contra hother
    obtain ⟨hplain, hdeposit⟩ := not_or.mp hother
    exact hentry ⟨rfl, fun heq => hfrom (Option.some.inj heq), hplain, hdeposit⟩
  by_cases hcreate : includes call.type "CREATE"
  · rw [h.created hcreate] at hmethod
    exact absurd hmethod (by decide)
  · rw [h.method hcreate] at hmethod
    exact ⟨hcreate, hmethod⟩

theorem carriesNoValue_of_describes (h : Describes abi entry call)
    (hentry : ¬(entry.to ≠ some entryPointAddress ∧ ¬entry.value.getD 0 = 0)) :
    CarriesNoValue entryPointAddress call := by
  intro hto hcreate
  rw [h.to, h.value hcreate] at hentry
  by_contra hvalue
  exact hentry ⟨fun heq => hto (Option.some.inj heq), hvalue⟩

/-- Each element on one side belongs to one on the other. -/
theorem exists_of_forall₂ {α β : Type} {R : α → β → Prop} {items : List α} {others : List β}
    (h : List.Forall₂ R items others) {b : β} (hb : b ∈ others) : ∃ a ∈ items, R a b := by
  induction h with
  | nil => cases hb
  | cons hfirst _ ih =>
    rcases List.mem_cons.mp hb with rfl | hb
    · exact ⟨_, List.mem_cons_self, hfirst⟩
    · obtain ⟨a, ha, hab⟩ := ih hb
      exact ⟨a, List.mem_cons_of_mem _ ha, hab⟩

/-- No entry of an accepted trace breaks a rule. -/
theorem entries_of_checkCalls {lib : Library} {tracerResults : BundlerCollectorReturn}
    (h : checkCalls lib tracerResults entryPointAddress = .ok ()) :
    ∀ entry ∈ parseCallStack lib.abi tracerResults.calls,
      ¬(entry.to = some entryPointAddress ∧ entry.from ≠ some entryPointAddress ∧
        entry.method ≠ "0x" ∧ entry.method ≠ "depositTo") ∧
      ¬(entry.to ≠ some entryPointAddress ∧ ¬entry.value.getD 0 = 0) := by
  obtain ⟨hinto, hvalue⟩ := then_ok_iff.mp h
  have hinto := List.find?_eq_none.mp (requireCond_ok_iff.mp hinto)
  have hvalue := List.find?_eq_none.mp (requireCond_ok_iff.mp hvalue)
  intro entry hentry
  exact ⟨fun h => hinto entry hentry (decide_eq_true h),
    fun h => hvalue entry hentry (decide_eq_true h)⟩

variable (lib : Library) (userOp : UserOperation) (tracerResults : BundlerCollectorReturn)
  (validationResult : Validation.ValidationResult) (epAddress : String)
  (forest : List (CallTree MethodInfo ExitInfo)) (exit : ExitInfo)

/-- Every call has one entry, and what is accepted keeps the rules on calls at
every depth. -/
theorem call_rules (hcalls : tracerResults.calls = wellNested forest exit) :
    (∃ entries last, parseCallStack lib.abi tracerResults.calls = entries ++ [last] ∧
        List.Forall₂ (Describes lib.abi) entries (callsOf forest) ∧ IsTopLevel lib.abi last) ∧
      ((∃ result, tracerResultParser lib userOp tracerResults validationResult epAddress =
          .ok result) →
        ∀ call ∈ callsOf forest, AllowedIntoEntryPoint lib.abi (toLowerCase epAddress) call ∧
          CarriesNoValue (toLowerCase epAddress) call) := by
  obtain ⟨entries, last, hstack, hentries, hlast⟩ :=
    parseCallStack_wellNested lib.abi forest exit
  rw [hcalls]
  refine ⟨⟨entries, last, hstack, hentries, hlast⟩, fun haccepted call hcall => ?_⟩
  obtain ⟨_, hcheck, _⟩ := tracerResultParser_ok_iff.mp haccepted
  have hkept := entries_of_checkCalls hcheck
  rw [hcalls, hstack] at hkept
  obtain ⟨entry, hentry, hdescribes⟩ := exists_of_forall₂ hentries hcall
  obtain ⟨hinto, hvalue⟩ := hkept entry (List.mem_append_left _ hentry)
  exact ⟨allowed_of_describes hdescribes hinto, carriesNoValue_of_describes hdescribes hvalue⟩

section Concrete

/-- An account that deposits for itself while it is validated. -/
def depositingForest : List (CallTree MethodInfo ExitInfo) :=
  [.node (callTo entryPoint account "0x19822f7c" 0)
    [.node (callTo account entryPoint "0xb760faf9" 5) [] (returning "0x")] (returning hash₁)]

/-- It uses neither storage nor opcodes that count. -/
def depositingLevel : TopLevelCallInfo where
  topLevelMethodSig := selector .account
  topLevelTargetAddress := account
  opcodes := .empty
  access := .empty
  contractSize := .empty
  extCodeAccessInfo := .empty

def depositingTrace : BundlerCollectorReturn where
  callsFromEntryPoint := [depositingLevel]
  keccak := []
  calls := wellNested depositingForest (returning "0x")
  logs := []

def unstakedEntities : Validation.ValidationResult :=
  ⟨⟨60000, 0, false, 0, 0⟩, none, none, none, none⟩

theorem depositing_accepted :
    ∃ result, tracerResultParser (libraryWith id) (plainOp account 1 10 none none) depositingTrace
      unstakedEntities entryPoint = .ok result := by
  refine tracerResultParser_ok_iff.mpr ⟨List.cons_ne_nil _ _, rfl, _, rfl, ?_⟩
  intro entity _
  refine checkEntity_ok_iff.mpr ⟨fun haccount => by rw [haccount]; rfl, ?_⟩
  intro level hlevel
  cases entity with
  | factory => cases hlevel
  | account =>
    cases hlevel
    exact ⟨rfl, rfl, rfl, rfl, rfl, rfl⟩
  | paymaster => cases hlevel

theorem depositing_call_rules :
    (∃ entries last,
      parseCallStack depositDecoder (wellNested depositingForest (returning "0x")) =
          entries ++ [last] ∧
        List.Forall₂ (Describes depositDecoder) entries (callsOf depositingForest) ∧
          IsTopLevel depositDecoder last) ∧
      ∀ call ∈ callsOf depositingForest,
        AllowedIntoEntryPoint depositDecoder (toLowerCase entryPoint) call ∧
          CarriesNoValue (toLowerCase entryPoint) call := by
  have hrules := call_rules (libraryWith id) (plainOp account 1 10 none none) depositingTrace
    unstakedEntities entryPoint depositingForest (returning "0x") rfl
  exact ⟨hrules.1, hrules.2 depositing_accepted⟩

end Concrete

end Bundler.CallRules
