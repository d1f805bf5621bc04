import Mathlib.Algebra.Order.Group.Nat
import Mathlib.Data.Int.Notation

/-!
Numbers of the runtime. A Number is a double, so Number of a BigInt rounds
it to 53 bits, and a product of two Numbers is rounded once more. The text
of a Number has the fewest decimal digits that read back as it, and an
exponent when it has more than 21 places.
-/
namespace Bundler.Numbers

/-- Number of a BigInt. -/
def number (value : ℤ) : Float := Float.ofInt value

/-- The magnitude of a Number that is whole; none when it is infinite. -/
def magnitude (x : Float) : Option ℕ :=
  match x.toModel.unpack with
  | .zero _ => some 0
  | .finite _ mantissa exponent _ =>
      some (mantissa * 2 ^ exponent.toNat / 2 ^ (-exponent).toNat)
  | .infinity _ => none
  | .notANumber => none

/-- The decimal places of a natural number. -/
def places (value : ℕ) : ℕ := (Nat.toDigits 10 value).length

/-- A magnitude rounded to its first digits, with the number of zeros that
stand for the others. -/
def leading (value count : ℕ) : ℕ × ℕ :=
  let zeros := places value - count
  ((value + 10 ^ zeros / 2) / 10 ^ zeros, zeros)

/-- The fewest digits that read back as the Number. Seventeen are enough
for every double. -/
def shortest (value : ℕ) : ℕ × ℕ :=
  (((List.range 17).map fun count => leading value (count + 1)).find? fun digits =>
    Float.ofNat (digits.1 * 10 ^ digits.2) == Float.ofNat value).getD (value, 0)

/-- The digits with a point after the first, unless it is the only one. -/
def pointed : List Char → List Char
  | first :: second :: digits => first :: '.' :: second :: digits
  | digits => digits

def magnitudeText (value : ℕ) : String :=
  let (digits, zeros) := shortest value
  let rounded := digits * 10 ^ zeros
  if rounded < 10 ^ 21 then toString rounded
  else
    let significant := ((Nat.toDigits 10 digits).reverse.dropWhile fun c => c = '0').reverse
    String.ofList (pointed significant) ++ "e+" ++ toString (places rounded - 1)

/-- The text of a Number that is whole or infinite. -/
def numberText (x : Float) : String :=
  (if x < 0 then "-" else "") ++ ((magnitude x).map magnitudeText).getD "Infinity"

example : numberText (number (2 ^ 53 + 1)) = "9007199254740992" := by decide +kernel

example : numberText (number (-10 ^ 23)) = "-1e+23" := by decide +kernel

end Bundler.Numbers
