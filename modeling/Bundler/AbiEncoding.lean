import Bundler.ByteStrings

/-!
The standard ABI encoding of a tuple. Static values are words in the head.
Dynamic bytes have an offset there and are in the tail, with their length
before them and zeros behind up to a whole number of words. A sum over the
bytes of an encoding is a sum over its parts.
-/
namespace Bundler.AbiEncoding

open ByteStrings

inductive AbiValue
  | word (bytes : List ℕ)
  | dynamic (data : List ℕ)

/-- Zeros up to a whole number of words. -/
def padRight (data : List ℕ) : List ℕ :=
  data ++ List.replicate ((data.length + 31) / 32 * 32 - data.length) 0

def tail : AbiValue → List ℕ
  | .word _ => []
  | .dynamic data => toBytes 32 data.length ++ padRight data

/-- The heads of the values, with the tails from this offset on. -/
def heads : ℕ → List AbiValue → List ℕ
  | _, [] => []
  | offset, .word bytes :: values => bytes ++ heads offset values
  | offset, .dynamic data :: values =>
      toBytes 32 offset ++ heads (offset + (tail (.dynamic data)).length) values

def encode (values : List AbiValue) : List ℕ :=
  heads (32 * values.length) values ++ values.flatMap tail

def AbiValue.IsBytes : AbiValue → Prop
  | .word bytes => ByteStrings.IsBytes bytes
  | .dynamic data => ByteStrings.IsBytes data

theorem isBytes_tail {value : AbiValue} (h : value.IsBytes) : IsBytes (tail value) := by
  cases value with
  | word bytes => exact nofun
  | dynamic data =>
    exact isBytes_append.mpr ⟨isBytes_toBytes _ _,
      isBytes_append.mpr ⟨h, isBytes_replicate (by omega) _⟩⟩

theorem isBytes_heads {values : List AbiValue} (h : ∀ value ∈ values, value.IsBytes)
    (offset : ℕ) : IsBytes (heads offset values) := by
  induction values generalizing offset with
  | nil => exact nofun
  | cons value values ih =>
    obtain ⟨hvalue, hrest⟩ := List.forall_mem_cons.mp h
    cases value with
    | word bytes => exact isBytes_append.mpr ⟨hvalue, ih hrest _⟩
    | dynamic data => exact isBytes_append.mpr ⟨isBytes_toBytes _ _, ih hrest _⟩

theorem isBytes_encode {values : List AbiValue} (h : ∀ value ∈ values, value.IsBytes) :
    IsBytes (encode values) := by
  refine isBytes_append.mpr ⟨isBytes_heads h _, fun byte hbyte => ?_⟩
  obtain ⟨value, hvalue, htail⟩ := List.mem_flatMap.mp hbyte
  exact isBytes_tail (h value hvalue) byte htail

end Bundler.AbiEncoding
