import DocQuery.Json.Basic

/-!
# Order of values

Numbers are ordered among themselves, and so are strings, by their UTF-8 bytes. No other two values
are ordered.
-/

namespace DocQuery

/-- Lexicographic order of byte strings; a proper beginning comes first. -/
def orderBytes : List UInt8 → List UInt8 → Ordering
  | [], [] => .eq
  | [], _ :: _ => .lt
  | _ :: _, [] => .gt
  | a :: as, b :: bs => (compare a b).then (orderBytes as bs)

def orderText (a b : String) : Ordering :=
  orderBytes a.toUTF8.data.toList b.toUTF8.data.toList

/-- The order of two values, where they have one. -/
def Json.order? : Json → Json → Option Ordering
  | .number a, .number b => some (a.order b)
  | .string a, .string b => some (orderText a b)
  | _, _ => none

/-- The pairs of values that have an order: two numbers, or two strings. -/
inductive Json.Comparable : Json → Json → Prop
  | numbers (m n : Number) : Comparable (.number m) (.number n)
  | strings (s t : String) : Comparable (.string s) (.string t)

theorem Json.comparable_iff {v w : Json} : Comparable v w ↔ ∃ order, v.order? w = some order := by
  constructor
  · rintro (_ | _) <;> exact ⟨_, rfl⟩
  · rintro ⟨order, ordered⟩
    cases v <;> cases w
    case number.number m n => exact .numbers m n
    case string.string s t => exact .strings s t
    all_goals cases ordered

end DocQuery
