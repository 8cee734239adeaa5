import DocQuery.Number.Basic
import DocQuery.Number.Shortest

/-!
# Number text

Integers are written in decimal. A double is written with its shortest digits: in full, with at
least one digit after the point, for decimal exponents from -5 to 15, and in scientific notation
with a signed exponent outside.
-/

namespace DocQuery

def decimalText (n : Nat) : List Char := Nat.toDigits 10 n

namespace Decimal

/-- Positional notation; at least one digit stands on either side of the point. -/
def positional (d : Decimal) : List Char :=
  let digits := decimalText d.digits
  match d.power with
  | .ofNat k => digits ++ List.replicate k '0' ++ ".0".toList
  | .negSucc k =>
    let places := k + 1
    let padded := List.replicate (places + 1 - digits.length) '0' ++ digits
    padded.take (padded.length - places) ++ '.' :: padded.drop (padded.length - places)

/-- Scientific notation: one digit, the others after a point, and the exponent with its sign. -/
def scientific (d : Decimal) (exponent : Int) : List Char :=
  let mantissa := match decimalText d.digits with
    | first :: second :: more => first :: '.' :: second :: more
    | digits => digits
  mantissa ++ 'e' :: (if exponent < 0 then '-' else '+') :: decimalText exponent.natAbs

def text (d : Decimal) : List Char :=
  let exponent := d.power + ((decimalText d.digits).length : Int) - 1
  if -5 ≤ exponent ∧ exponent < 16 then d.positional else d.scientific exponent

end Decimal

def Double.text (x : Double) : List Char :=
  if x.negative then '-' :: x.shortest.text else x.shortest.text

def Number.text : Number → List Char
  | .natural n _ => decimalText n
  | .negative n _ _ => '-' :: decimalText n
  | .double x => x.text

end DocQuery
