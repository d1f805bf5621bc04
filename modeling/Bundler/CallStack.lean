import Bundler.AsyncPrograms
import Bundler.DeepHexlify
import Bundler.NestedTraces
import Bundler.Tracer

/-!
The entries that parseCallStack makes of the records of a trace. Enters are put
on a stack and an exit takes the last of them, so in a well-nested trace every
call has an entry of its own, in the order in which the calls return, and the
exit of the top level, which nothing entered, has the last one.
-/
namespace Bundler.CallStack

open AsyncPrograms DataModel DeepHexlify NestedTraces Tracer

/-- What the parser uses of the ABIs it knows. A function that throws, and a
function or an error that is not known, has no result. -/
structure AbiDecoder where
  /-- The name of the function with a selector or a name. -/
  getFunction : String → Option String
  parseError : String → Option JsValue
  decodeFunctionResult : String → String → Option JsValue

structure CallEntry where
  «to» : Option String
  «from» : Option String
  type : String
  method : String
  revert : Option JsValue := none
  returned : Option JsValue := none
  value : Option BigNumberish := none

variable (abi : AbiDecoder)

def decodedMethod (method : String) : String := (abi.getFunction method).getD method

/-- The entry for an exit and the call on top of the stack; what exits with an
empty stack is the top level. -/
def callEntry (top : Option MethodInfo) (c : ExitInfo) : CallEntry :=
  let type := (top.map MethodInfo.type).getD "top"
  let method := (top.map MethodInfo.method).getD "validateUserOp"
  if includes type "CREATE" then
    { «to» := top.map MethodInfo.to
      «from» := top.map MethodInfo.from
      type := type
      method := ""
      returned := some (.string ("len=" ++ toString c.data.length)) }
  else if c.type = .revert then
    { «to» := top.map MethodInfo.to
      «from» := top.map MethodInfo.from
      type := type
      method := decodedMethod abi method
      value := top.bind MethodInfo.value
      revert := some ((abi.parseError c.data).getD (.string c.data)) }
  else
    { «to» := top.map MethodInfo.to
      «from» := top.map MethodInfo.from
      type := type
      value := top.bind MethodInfo.value
      method := decodedMethod abi method
      returned := some ((abi.decodeFunctionResult (decodedMethod abi method) c.data).getD
        (.string c.data)) }

def recordType : CallRecord → String
  | .inl info => info.type
  | .inr info => info.type.text

/-- The entries so far and the stack, its top first. -/
abbrev ParseState := List CallEntry × List MethodInfo

/-- A record whose type is REVERT or RETURN takes the top off the stack, any
other is put on it. -/
def parseRecord (state : ParseState) : CallRecord → ParseState
  | .inl info => (state.1, info :: state.2)
  | .inr info => (state.1 ++ [callEntry abi state.2.head? info], state.2.tail)

def parseCallStack (calls : List CallRecord) : List CallEntry :=
  ((calls.filter fun x => !startsWith (recordType x) "depth").foldl (parseRecord abi) ([], [])).1

theorem exitType_isExit (type : ExitType) :
    includes type.text "REVERT" ∨ includes type.text "RETURN" := by
  cases type with
  | revert => exact Or.inl (by decide)
  | returned => exact Or.inr (by decide)

/-- The test of the type tells the two kinds of records apart. -/
theorem isExit_iff (c : CallRecord) :
    (includes (recordType c) "REVERT" ∨ includes (recordType c) "RETURN") ↔ c.isRight := by
  cases c with
  | inl info =>
    obtain ⟨_, hrevert, hreturn⟩ := info.isCallType
    have hneither : ¬(includes info.type "REVERT" ∨ includes info.type "RETURN") := by
      rintro (h | h)
      · exact hrevert h
      · exact hreturn h
    exact iff_of_false hneither Bool.false_ne_true
  | inr info => exact iff_of_true (exitType_isExit info.type) rfl

theorem not_startsWith_depth (c : CallRecord) : startsWith (recordType c) "depth" = false := by
  cases c with
  | inl info => exact Bool.eq_false_iff.mpr info.isCallType.1
  | inr info =>
    have htext (type : ExitType) : startsWith type.text "depth" = false := by
      cases type <;> decide
    exact htext info.type

/-- The entries are made of the exits with their enters. -/
theorem parseCallStack_eq (calls : List CallRecord) :
    parseCallStack abi calls =
      (matchExits calls).map fun call => callEntry abi call.1 call.2 := by
  have hfold (calls : List CallRecord) (m : Matching MethodInfo ExitInfo) :
      calls.foldl (parseRecord abi)
          (m.matched.map fun call => callEntry abi call.1 call.2, m.opened) =
        ((calls.foldl Matching.record m).matched.map fun call => callEntry abi call.1 call.2,
          (calls.foldl Matching.record m).opened) := by
    induction calls generalizing m with
    | nil => rfl
    | cons c calls ih =>
      rw [List.foldl_cons, List.foldl_cons, ← ih]
      cases c with
      | inl info => rfl
      | inr info => simp [parseRecord, Matching.record]
  have hfilter : (calls.filter fun x => !startsWith (recordType x) "depth") = calls := by
    refine List.filter_eq_self.mpr fun c _ => ?_
    rw [not_startsWith_depth]
    rfl
  unfold parseCallStack matchExits
  rw [hfilter]
  exact congrArg Prod.fst (hfold calls ⟨[], []⟩)

/-- An entry carries what was recorded when its call was entered. -/
structure Describes (entry : CallEntry) (call : MethodInfo) : Prop where
  «to» : entry.to = some call.to
  «from» : entry.from = some call.from
  type : entry.type = call.type
  value : ¬includes call.type "CREATE" → entry.value = call.value
  method : ¬includes call.type "CREATE" → entry.method = decodedMethod abi call.method
  created : includes call.type "CREATE" → entry.method = ""

/-- The entry of the top level, which no call was entered for. -/
structure IsTopLevel (entry : CallEntry) : Prop where
  «to» : entry.to = none
  «from» : entry.from = none
  type : entry.type = "top"
  value : entry.value = none
  method : entry.method = decodedMethod abi "validateUserOp"

theorem describes_callEntry (call : MethodInfo) (c : ExitInfo) :
    Describes abi (callEntry abi (some call) c) call := by
  unfold callEntry
  dsimp only [Option.map_some, Option.getD_some]
  split
  · rename_i hcreate
    exact ⟨rfl, rfl, rfl, fun h => absurd hcreate h, fun h => absurd hcreate h, fun _ => rfl⟩
  · rename_i hcreate
    split
    · exact ⟨rfl, rfl, rfl, fun _ => rfl, fun _ => rfl, fun h => absurd h hcreate⟩
    · exact ⟨rfl, rfl, rfl, fun _ => rfl, fun _ => rfl, fun h => absurd h hcreate⟩

theorem isTopLevel_callEntry (c : ExitInfo) : IsTopLevel abi (callEntry abi none c) := by
  unfold callEntry
  rw [if_neg (by decide)]
  split
  · exact ⟨rfl, rfl, rfl, rfl, rfl⟩
  · exact ⟨rfl, rfl, rfl, rfl, rfl⟩

/-- A well-nested trace: calls with calls inside them, and the exit of the top
level. -/
def wellNested (forest : List (CallTree MethodInfo ExitInfo)) (exit : ExitInfo) : List CallRecord :=
  forestRecords forest ++ [.inr exit]

/-- The calls of a well-nested trace, as they return. -/
def callsOf (forest : List (CallTree MethodInfo ExitInfo)) : List MethodInfo :=
  (forestReturned forest).map Prod.fst

/-- Every call has an entry of its own, and the top level the last one. -/
theorem parseCallStack_wellNested (forest : List (CallTree MethodInfo ExitInfo))
    (exit : ExitInfo) :
    ∃ entries last, parseCallStack abi (wellNested forest exit) = entries ++ [last] ∧
      List.Forall₂ (Describes abi) entries (callsOf forest) ∧ IsTopLevel abi last := by
  refine ⟨(forestReturned forest).map fun call => callEntry abi (some call.1) call.2,
    callEntry abi none exit, ?_, ?_, isTopLevel_callEntry abi exit⟩
  · unfold wellNested
    rw [parseCallStack_eq, matchExits_forest, List.map_append, List.map_map]
    rfl
  · unfold callsOf
    rw [List.forall₂_map_left_iff, List.forall₂_map_right_iff, List.forall₂_same]
    exact fun call _ => describes_callEntry abi call.1 call.2

end Bundler.CallStack
