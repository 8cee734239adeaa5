import DocQuery.Number.Basic
import DocQuery.Text.Digit

/-!
# Number literals

A literal is a sign, the digits of a whole part, and perhaps a fraction and an exponent. An integer
that fits 64 bits is read exactly. Everything else becomes a double in three steps, each rounded:
the leading digits that fit 64 bits, their nearest double, and one product or quotient with a power
of ten. So the double is not always the one nearest to the literal.
-/

namespace DocQuery

structure Exponent where
  negative : Bool
  digits : List Nat

/-- A number as written; an absent fraction or exponent is `none`. -/
structure Literal where
  negative : Bool
  whole : List Nat
  fraction : Option (List Nat)
  exponent : Option Exponent

namespace Literal

/-- Appends digits to a significand while it fits 64 bits; gives the digits left over. -/
def extend : Nat → List Nat → Nat × List Nat
  | s, [] => (s, [])
  | s, d :: digits => if s * 10 + d < 1 <<< 64 then extend (s * 10 + d) digits else (s, d :: digits)

/-- Divides `n` times by the double nearest to `10 ^ 308`. -/
def shrink : Nat → Magnitude → Magnitude
  | 0, m => m
  | n + 1, m => if m.isZero then m else shrink n (m.div (.powerOfTen 308))

/-- The double that `significand * 10 ^ power` is read as; `none` where it overflows. -/
def scaled? (negative : Bool) (significand : Nat) (power : Int) : Option Double :=
  let start := Magnitude.ofNat significand
  match power with
  | .ofNat k =>
    if start.isZero then some (.zero negative)
    else if k ≤ 308 then Double.ofMagnitude? negative (start.mul (.powerOfTen k))
    else none
  | .negSucc k =>
    -- `k + 1 = 308 * steps + last` with `1 ≤ last ≤ 308`
    let steps := k / 308
    let last := k % 308 + 1
    Double.ofMagnitude? negative ((shrink steps start).div (.powerOfTen last))

/-- Written exponents above this bound are not added up. -/
def exponentBound : Nat := 1 <<< 31 - 1

/-- The number that a literal writes; `none` where it is out of range. -/
def number? (literal : Literal) : Option Number :=
  let (start, dropped) := extend 0 literal.whole
  let (significand, power) : Nat × Int := match literal.fraction with
    | none => (start, dropped.length)
    | some digits =>
      let (s, unread) := extend start digits
      (s, (dropped.length : Int) - (digits.length - unread.length))
  match literal.exponent with
  | some e =>
    let written := ofDigits 10 e.digits
    if written ≤ exponentBound then
      (scaled? literal.negative significand (if e.negative then power - written else power + written)).map
        .double
    else if significand ≠ 0 ∧ !e.negative then none
    else some (.double (.zero literal.negative))
  | none =>
    if literal.fraction.isSome ∨ dropped ≠ [] then
      (scaled? literal.negative significand power).map .double
    else if literal.negative then
      if h : 0 < significand ∧ significand ≤ 1 <<< 63 then some (.negative significand h.1 h.2)
      else (scaled? true significand 0).map .double
    else if h : significand < 1 <<< 64 then some (.natural significand h)
    else none

end Literal

end DocQuery
