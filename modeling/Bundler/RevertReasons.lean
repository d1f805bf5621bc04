import Bundler.BundleManager
import Mathlib.Data.List.Infix
import Mathlib.Data.List.TakeWhile

/-!
The text a revert is decoded to. A revert comes as the ABI decoders take it
apart: an Error, a Panic, or an error of a known interface with its
arguments, of which those of type bytes are reverts in turn.
-/
namespace Bundler.RevertReasons

open DataModel BundleManager

mutual

/-- Revert data, with the data itself where it can be returned. Parameters
that do not decode are none. -/
inductive RevertData
  | error (message : Option String)
  | panic (code : Option ℕ)
  | parsed (data name : String) (args : List ErrorArg)
  | unknown (data : String)

/-- An argument by its ABI type; any other than bytes and string comes as
the text it is joined as. -/
inductive ErrorArg
  | bytes (revert : RevertData)
  | string (text : String)
  | other (text : String)

end

def panicCodes : ℕ → Option String
  | 0x01 => some "assert(false)"
  | 0x11 => some "arithmetic overflow/underflow"
  | 0x12 => some "divide by zero"
  | 0x21 => some "invalid enum value"
  | 0x22 => some "storage byte array that is incorrectly encoded"
  | 0x31 => some ".pop() on an empty array."
  | 0x32 => some "array sout-of-bounds or negative index"
  | 0x41 => some "memory overflow"
  | 0x51 => some "zero-initialized variable of internal function type"
  | _ => none

/-- JavaScript's join(','). -/
def join : List String → String
  | [] => ""
  | [text] => text
  | text :: texts => text ++ "," ++ join texts

mutual

/-- Parameters that do not decode throw; the catch around the arguments of a
known error turns that into what an unknown one gives. -/
def decodeRevertReason (nullIfNoMatch : Bool) : RevertData → Except JsError (Option String)
  | .error (some message) => .ok (some ("Error(" ++ message ++ ")"))
  | .error none => .error (.other "BUFFER_OVERRUN" none)
  | .panic (some code) =>
      .ok (some ("Panic(" ++ (panicCodes code).getD (toString code) ++ " + ')"))
  | .panic none => .error (.other "BUFFER_OVERRUN" none)
  | .parsed data name args =>
      match decodeArgs args with
      | .ok texts => .ok (some (name ++ "(" ++ join texts ++ ")"))
      | .error _ => .ok (if nullIfNoMatch then none else some data)
  | .unknown data => .ok (if nullIfNoMatch then none else some data)

def decodeArgs : List ErrorArg → Except JsError (List String)
  | [] => .ok []
  | arg :: args => do
      let text ← decodeArg arg
      let texts ← decodeArgs args
      pure (text :: texts)

/-- A revert that decodes to null is joined as the empty text. -/
def decodeArg : ErrorArg → Except JsError String
  | .bytes revert => do
      let text ← decodeRevertReason true revert
      pure (text.getD "")
  | .string text => .ok ("\"" ++ text ++ "\"")
  | .other text => .ok text

end

/-- The entry point's FailedOp(opIndex, reason). -/
def failedOp (data : String) (opIndex : ℕ) (reason : String) : RevertData :=
  .parsed data "FailedOp" [.other (toString opIndex), .string reason]

/-- The entry point's FailedOpWithRevert(opIndex, reason, inner). -/
def failedOpWithRevert (data : String) (opIndex : ℕ) (reason : String) (inner : RevertData) :
    RevertData :=
  .parsed data "FailedOpWithRevert" [.other (toString opIndex), .string reason, .bytes inner]

/-- The reason blames the account or its factory. -/
def startsWithAA1OrAA2 (reason : String) : Prop :=
  "AA1".toList <+: reason.toList ∨ "AA2".toList <+: reason.toList

/-- A FailedOp or FailedOpWithRevert whose reason does. -/
def BlamesAccount (revert : RevertData) : Prop :=
  ∃ data opIndex reason, startsWithAA1OrAA2 reason ∧
    (revert = failedOp data opIndex reason ∨
      ∃ inner, revert = failedOpWithRevert data opIndex reason inner)

/-- What the regular expression of isAccountOrFactoryError matches. -/
def Recognized (text : List Char) : Prop :=
  ∃ digits last, digits ≠ [] ∧ (∀ c ∈ digits, c.isDigit) ∧ (last = '1' ∨ last = '2') ∧
    text = "FailedOpWithRevert(".toList ++ (digits ++ (",\"AA".toList ++ [last]))

section Infixes

variable {α : Type} {a c : α} {part l rest : List α}

theorem infix_append_iff_of_not_mem (hc : c ∉ l) :
    c :: part <:+: l ++ rest ↔ c :: part <:+: rest := by
  induction l with
  | nil => rfl
  | cons x l ih =>
    rw [List.mem_cons, not_or] at hc
    rw [List.cons_append, List.infix_cons_iff, ih hc.2, List.cons_prefix_cons]
    exact or_iff_right fun h => hc.1 h.1

theorem infix_concat_iff_of_ne (hc : c ≠ a) :
    part ++ [c] <:+: l ++ [a] ↔ part ++ [c] <:+: l := by
  rw [List.infix_concat_iff]
  refine or_iff_right fun h => ?_
  have hlast : c ∈ (l ++ [a]).getLast? := by
    obtain ⟨front, hfront⟩ := h
    rw [← hfront, ← List.append_assoc, List.getLast?_concat]
    rfl
  rw [List.getLast?_concat] at hlast
  exact hc (Option.some.inj hlast).symm

end Infixes

section Recognition

theorem startsWithFailedOp_iff (text : List Char) :
    startsWithFailedOp text ↔ ∃ found, Recognized found ∧ found <+: text := by
  unfold startsWithFailedOp
  simp only [Bool.and_eq_true, Bool.or_eq_true, List.isPrefixOf_iff_prefix]
  constructor
  · rintro ⟨⟨⟨rest, rfl⟩, hhead⟩, hrest⟩
    rw [List.drop_left] at hhead hrest
    have hdigits : rest.takeWhile Char.isDigit ≠ [] := by
      cases rest with
      | nil => cases hhead
      | cons c rest =>
        have hc : c.isDigit := hhead
        rw [List.takeWhile_cons_of_pos hc]
        exact List.cons_ne_nil _ _
    have hfound (last : Char) (hlast : last = '1' ∨ last = '2')
        (h : ",\"AA".toList ++ [last] <+: rest.dropWhile Char.isDigit) :
        ∃ found, Recognized found ∧ found <+: "FailedOpWithRevert(".toList ++ rest := by
      refine ⟨_, ⟨rest.takeWhile Char.isDigit, last, hdigits, ?_, hlast, rfl⟩, ?_⟩
      · intro c hc
        exact List.mem_takeWhile_imp hc
      · rw [List.prefix_append_right_inj]
        nth_rewrite 2 [← List.takeWhile_append_dropWhile (p := Char.isDigit) (l := rest)]
        rwa [List.prefix_append_right_inj]
    rcases hrest with h | h
    · exact hfound '2' (Or.inr rfl) h
    · exact hfound '1' (Or.inl rfl) h
  · rintro ⟨_, ⟨digits, last, hne, hdigits, hlast, rfl⟩, rest, rfl⟩
    rw [List.append_assoc, List.append_assoc, List.drop_left,
      List.dropWhile_append_of_pos hdigits]
    refine ⟨⟨List.prefix_append _ _, ?_⟩, ?_⟩
    · cases digits with
      | nil => exact absurd rfl hne
      | cons c digits => exact hdigits c List.mem_cons_self
    · rcases hlast with rfl | rfl
      · exact Or.inr (List.prefix_append _ rest)
      · exact Or.inl (List.prefix_append _ rest)

theorem isAccountOrFactoryError_iff (code : ℤ) (message : String) :
    isAccountOrFactoryError code message ↔
      code = ValidationErrors.simulateValidation.code ∧
        ∃ found, Recognized found ∧ found <:+: message.toList := by
  unfold isAccountOrFactoryError
  rw [Bool.and_eq_true, decide_eq_true_eq, List.any_eq_true]
  refine and_congr_right fun _ => ?_
  simp only [List.mem_tails, startsWithFailedOp_iff, List.infix_iff_prefix_suffix]
  constructor
  · rintro ⟨tail, htail, found, hfound, hstarts⟩
    exact ⟨found, hfound, tail, hstarts, htail⟩
  · rintro ⟨found, hfound, tail, hstarts, htail⟩
    exact ⟨tail, htail, found, hfound, hstarts⟩

end Recognition

section FailedOps

variable {nullIfNoMatch : Bool} {data reason message : String} {opIndex : ℕ} {inner : RevertData}

theorem decode_failedOp : decodeRevertReason nullIfNoMatch (failedOp data opIndex reason) =
    .ok (some ("FailedOp(" ++ (toString opIndex ++ "," ++ ("\"" ++ reason ++ "\"")) ++ ")")) := rfl

/-- What FailedOpWithRevert decodes to when its bytes decode. -/
theorem decode_failedOpWithRevert {text : Option String}
    (hinner : decodeRevertReason true inner = .ok text) :
    decodeRevertReason nullIfNoMatch (failedOpWithRevert data opIndex reason inner) =
      .ok (some ("FailedOpWithRevert" ++ "(" ++ (toString opIndex ++ "," ++
        ("\"" ++ reason ++ "\"" ++ "," ++ text.getD "")) ++ ")")) := by
  have hargs : decodeArgs [.other (toString opIndex), .string reason, .bytes inner] =
      .ok [toString opIndex, "\"" ++ reason ++ "\"", text.getD ""] := by
    simp only [decodeArgs, decodeArg, hinner]
    rfl
  simp only [failedOpWithRevert, decodeRevertReason, hargs]
  rfl

theorem isDigit_toString {n : ℕ} {c : Char} (hc : c ∈ (toString n).toList) : c.isDigit := by
  rw [show (toString n).toList = Nat.toDigits 10 n from Nat.toList_repr] at hc
  exact Nat.isDigit_of_mem_toDigits (by decide) (by decide) hc

theorem toString_ne_nil (n : ℕ) : (toString n).toList ≠ [] := by
  rw [show (toString n).toList = Nat.toDigits 10 n from Nat.toList_repr]
  exact Nat.toDigits_ne_nil

/-- The text of a FailedOpWithRevert whose reason begins with AA1 or AA2 is
recognized as an account or factory error. -/
theorem isAccountOrFactoryError_failedOpWithRevert {text : Option String}
    (hinner : decodeRevertReason true inner = .ok text) (hreason : startsWithAA1OrAA2 reason)
    (hmessage : decodeRevertReason nullIfNoMatch
      (failedOpWithRevert data opIndex reason inner) = .ok (some message)) :
    isAccountOrFactoryError ValidationErrors.simulateValidation.code message := by
  rw [decode_failedOpWithRevert hinner] at hmessage
  obtain rfl := Option.some.inj (Except.ok.inj hmessage)
  obtain ⟨last, hlast, tail, htail⟩ : ∃ last, (last = '1' ∨ last = '2') ∧
      "AA".toList ++ [last] <+: reason.toList := by
    rcases hreason with h | h
    · exact ⟨'1', Or.inl rfl, h⟩
    · exact ⟨'2', Or.inr rfl, h⟩
  refine (isAccountOrFactoryError_iff _ _).mpr ⟨rfl, _, ⟨(toString opIndex).toList, last,
    toString_ne_nil opIndex, fun c hc => isDigit_toString hc, hlast, rfl⟩, ?_⟩
  refine List.IsPrefix.isInfix ⟨tail ++ ("\",".toList ++ (text.getD "").toList ++ ")".toList), ?_⟩
  simp [← htail]

/-- That of a FailedOp is not, whatever its reason blames, unless the reason
has such a text in it. -/
theorem isAccountOrFactoryError_failedOp {code : ℤ}
    (hmessage : decodeRevertReason nullIfNoMatch (failedOp data opIndex reason) =
      .ok (some message)) :
    isAccountOrFactoryError code message ↔
      code = ValidationErrors.simulateValidation.code ∧
        ∃ found, Recognized found ∧ found <:+: reason.toList := by
  rw [decode_failedOp] at hmessage
  obtain rfl := Option.some.inj (Except.ok.inj hmessage)
  rw [isAccountOrFactoryError_iff]
  refine and_congr_right fun _ => exists_congr fun found => and_congr_right fun hfound => ?_
  obtain ⟨digits, last, _, _, hlast, hfound⟩ := hfound
  have hfront : found =
      'F' :: ("ailedOpWithRevert(".toList ++ (digits ++ (",\"AA".toList ++ [last]))) := hfound
  have hback : found = "FailedOpWithRevert(".toList ++ digits ++ ",\"AA".toList ++ [last] := by
    rw [hfound, List.append_assoc, List.append_assoc]
  have htext : ("FailedOp(" ++ (toString opIndex ++ "," ++ ("\"" ++ reason ++ "\"")) ++
      ")").toList = 'F' :: ("ailedOp(".toList ++ (toString opIndex).toList ++ ",\"".toList ++
        (reason.toList ++ ['"'] ++ [')'])) := by
    simp
  have hfirst : ¬found <+: 'F' :: ("ailedOp(".toList ++ (toString opIndex).toList ++
      ",\"".toList ++ (reason.toList ++ ['"'] ++ [')'])) := by
    rw [hfront]
    simp
  have hF : 'F' ∉ "ailedOp(".toList ++ (toString opIndex).toList ++ ",\"".toList := by
    simp only [List.mem_append, not_or]
    exact ⟨⟨by decide, fun h => absurd (isDigit_toString h) (by decide)⟩, by decide⟩
  have hlast_ne : last ≠ '"' ∧ last ≠ ')' := by
    rcases hlast with rfl | rfl
    · decide
    · decide
  rw [htext, List.infix_cons_iff, or_iff_right hfirst, hfront, infix_append_iff_of_not_mem hF,
    ← hfront, hback, infix_concat_iff_of_ne hlast_ne.2, infix_concat_iff_of_ne hlast_ne.1]

end FailedOps

end Bundler.RevertReasons
