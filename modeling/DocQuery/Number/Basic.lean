import DocQuery.Number.Double

/-!
# Numbers of a document

A number is a natural number of 64 bits, a negative integer of 64 bits, or a finite double. The
three kinds stay apart: `1` and `1.0` are different numbers with equal values.
-/

namespace DocQuery

inductive Number where
  | natural (n : Nat) (fits : n < 1 <<< 64)
  | negative (n : Nat) (nonzero : 0 < n) (fits : n ≤ 1 <<< 63)
  | double (x : Double)
deriving DecidableEq

namespace Number

/-- The exact value in units of `2 ^ -1074`. -/
def units : Number → Int
  | .natural n _ => n * unitsPerOne
  | .negative n _ _ => -(n * unitsPerOne)
  | .double x => x.units

/-- The value of the nearest double, in units of `2 ^ -1074`; a half goes to the even one. -/
def doubleUnits : Number → Int
  | .natural n _ => (Magnitude.ofNat n).units
  | .negative n _ _ => -((Magnitude.ofNat n).units : Int)
  | .double x => x.units

/-- The value as a signed integer of 64 bits, where the number is one. -/
def signed? : Number → Option Int
  | .natural n _ => if n < 1 <<< 63 then some n else none
  | .negative n _ _ => some (-n)
  | .double _ => none

/-- The value as an unsigned integer of 64 bits, where the number is one. -/
def unsigned? : Number → Option Nat
  | .natural n _ => some n
  | _ => none

/-- Sameness of kind and value; the two zeros of the doubles are the same. -/
def same : Number → Number → Bool
  | .natural m _, .natural n _ => m == n
  | .negative m _ _, .negative n _ _ => m == n
  | .double x, .double y => x.units == y.units
  | _, _ => false

/-- Numeric order: exact between two integers that share a 64-bit kind, and by nearest doubles
otherwise. -/
def order (a b : Number) : Ordering :=
  match a.signed?, b.signed? with
  | some x, some y => compare x y
  | _, _ =>
    match a.unsigned?, b.unsigned? with
    | some x, some y => compare x y
    | _, _ => compare a.doubleUnits b.doubleUnits

end Number

end DocQuery
