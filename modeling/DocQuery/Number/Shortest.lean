import DocQuery.Number.Double

/-!
# Shortest decimals

`Double.shortest` gives the decimal with the fewest digits that reads back as the double under
correct rounding, and of those with equally few the one nearest to it. All arithmetic is exact:
the unit `2 ^ -1074` is a whole number of units of `10 ^ -1074`.
-/

namespace DocQuery

structure Decimal where
  digits : Nat
  power : Int
deriving DecidableEq

namespace Decimal

/-- Moves the final zeros of the digits into the power. -/
def trim (d : Decimal) : Decimal := go d.digits d.digits d.power
where
  go : Nat → Nat → Int → Decimal
  | 0, digits, power => ⟨digits, power⟩
  | fuel + 1, digits, power =>
    if digits ≠ 0 ∧ digits % 10 = 0 then go fuel (digits / 10) (power + 1) else ⟨digits, power⟩

end Decimal

/-- The number of decimal digits of `n`, and `1` for `0`. -/
def decimalLength (n : Nat) : Nat := (Nat.toDigits 10 n).length

namespace Double

/-- One unit of `2 ^ -1074`, in units of `10 ^ -1074`. -/
def decimalUnit : Nat := Nat.pow 5 1074

/-- The decimals that read back as a positive double, in quarters of `10 ^ -1074`; the ends belong
to the interval when the significand is even. -/
structure Interval where
  lower : Nat
  centre : Nat
  upper : Nat
  closed : Bool

/-- Halfway to the neighbour below and to the neighbour above. Just above a power of two the
neighbour below is half as far. -/
def interval (m : Magnitude) : Interval :=
  let step := 1 <<< m.scale
  let below := if m.significand = 1 <<< 52 ∧ m.scale ≠ 0 then step else 2 * step
  { lower := (4 * m.units - below) * decimalUnit
    centre := 4 * m.units * decimalUnit
    upper := (4 * m.units + 2 * step) * decimalUnit
    closed := m.significand % 2 == 0 }

def Interval.contains (i : Interval) (x : Nat) : Bool :=
  if i.closed then i.lower ≤ x && x ≤ i.upper else i.lower < x && x < i.upper

/-- The decimal of `count` digits in the interval that is nearest to its centre; a half goes to the
even digit. -/
def Interval.decimal? (i : Interval) (length count : Nat) : Option Decimal :=
  let shift := length - count
  let step := 4 * tenTo shift
  let down := i.centre / step
  let power : Int := (shift : Int) - 1074
  let lowGap := i.centre - down * step
  let highGap := (down + 1) * step - i.centre
  match i.contains (down * step), i.contains ((down + 1) * step) with
  | true, true =>
    some (if lowGap < highGap ∨ lowGap = highGap ∧ down % 2 = 0 then ⟨down, power⟩ else ⟨down + 1, power⟩)
  | true, false => some ⟨down, power⟩
  | false, true => some ⟨down + 1, power⟩
  | false, false => none

/-- The shortest decimal of the magnitude, without final zeros. Seventeen digits always do. -/
def shortest (x : Double) : Decimal :=
  if x.magnitude.isZero then ⟨0, 0⟩
  else
    let i := interval x.magnitude
    let length := decimalLength (i.centre / 4)
    (((List.range 17).findSome? fun n => i.decimal? length (n + 1)).getD ⟨i.centre / 4, -1074⟩).trim

end Double

end DocQuery
