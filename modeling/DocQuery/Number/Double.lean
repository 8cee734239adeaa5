import DocQuery.Number.Magnitude

/-!
# Finite doubles

A finite binary64 number is a sign and a magnitude whose scale fits the format. Both zeros exist.
Every finite double is a whole number of units of `2 ^ -1074`, which makes comparison exact integer
comparison.
-/

namespace DocQuery

structure Double where
  negative : Bool
  magnitude : Magnitude
  finite : magnitude.scale ≤ 2045
deriving DecidableEq

namespace Double

/-- The double of that sign and magnitude, unless the magnitude overflows. -/
def ofMagnitude? (negative : Bool) (magnitude : Magnitude) : Option Double :=
  if h : magnitude.scale ≤ 2045 then some ⟨negative, magnitude, h⟩ else none

def zero (negative : Bool) : Double := ⟨negative, .zero, by decide⟩

/-- The exact value in units of `2 ^ -1074`; both zeros give `0`. -/
def units (x : Double) : Int := if x.negative then -(x.magnitude.units : Int) else x.magnitude.units

end Double

end DocQuery
