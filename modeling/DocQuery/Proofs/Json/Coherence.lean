import DocQuery.Proofs.Json.Equality
import DocQuery.Proofs.Json.Order
import DocQuery.Proofs.Text.Encoding

/-!
# The order of values as a whole

Two values have an order exactly if both are numbers or both are strings; turning the two round turns
the order round, and they are equal if neither comes first. Strings are totally ordered, by their bytes
and so by the codes of their characters (`order_coherent`).
-/

namespace DocQuery.Json

def Before (v w : Json) : Prop := v.order? w = some .lt

/-- The two have an order, and the first does not come after the second. -/
def AtMost (v w : Json) : Prop := ∃ order, v.order? w = some order ∧ order ≠ .gt

variable {v w : Json} {s t u : String}

/-! ### Pairs of values -/

theorem order?_swap (v w : Json) : w.order? v = (v.order? w).map Ordering.swap := by
  cases v <;> cases w
  case number.number m n => exact congrArg some (Number.order_swap m n).symm
  case string.string s t => exact congrArg some (orderText_swap s t).symm
  all_goals rfl

theorem equal_iff_of_order? {order : Ordering} (ordered : v.order? w = some order) :
    order = .eq ↔ v.equal w = true := by
  have bound : Comparable w w := by
    rcases comparable_iff.mpr ⟨order, ordered⟩ with _ | _
    · exact .numbers _ _
    · exact .strings _ _
  rw [equal_iff_order? bound, ordered, Option.some.injEq]

/-! ### Strings -/

theorem atMost_strings_iff : AtMost (.string s) (.string t) ↔ orderText s t ≠ .gt := by
  constructor
  · rintro ⟨_, ⟨⟩, before⟩
    exact before
  · intro before
    exact ⟨_, rfl, before⟩

theorem before_strings_iff :
    Before (.string s) (.string t) ↔ List.Lex (· < ·) (bytesOf s) (bytesOf t) :=
  Option.some_inj.trans orderBytes_eq_lt_iff

theorem atMost_total (s t : String) :
    AtMost (.string s) (.string t) ∨ AtMost (.string t) (.string s) := by
  rw [atMost_strings_iff, atMost_strings_iff, ← orderText_swap s t]
  cases orderText s t <;> decide

theorem atMost_antisymm (before : AtMost (.string s) (.string t))
    (after : AtMost (.string t) (.string s)) : s = t := by
  rw [atMost_strings_iff] at before after
  rw [← orderText_swap s t] at after
  apply orderText_eq_iff.mp
  cases ordered : orderText s t with
  | eq => rfl
  | lt => exact absurd (by rw [ordered]; rfl) after
  | gt => exact absurd ordered before

/-- A text comes before every longer text that starts with it. -/
theorem before_of_start (start : s.toList <+: t.toList) (apart : s ≠ t) :
    Before (.string s) (.string t) := by
  obtain ⟨rest, split⟩ := start
  rw [before_strings_iff, lex_bytesOf_iff, ← split, List.map_append]
  cases rest with
  | nil =>
    rw [List.append_nil] at split
    exact absurd (String.toList_inj.mp split) apart
  | cons c rest =>
    have longer := (lex_append_left_iff (r := (· < ·)) (s.toList.map Char.toNat)).mpr
      (List.Lex.nil : List.Lex (· < ·) [] ((c :: rest).map Char.toNat))
    rwa [List.append_nil] at longer

/-- Two values have an order exactly if both are numbers or both are strings. Turning the two round
turns their order round, and neither comes first exactly if they are equal. Strings are totally ordered,
as their bytes in UTF-8 and as the codes of their characters; the start of a string comes before it. -/
theorem order_coherent :
    (∀ v w : Json,
        ((∃ order, v.order? w = some order) ↔
            (∃ m n, v = .number m ∧ w = .number n) ∨ ∃ s t, v = .string s ∧ w = .string t) ∧
          w.order? v = (v.order? w).map Ordering.swap ∧
          ∀ order, v.order? w = some order → (order = .eq ↔ v.equal w = true)) ∧
      (∀ s t : String,
        (AtMost (.string s) (.string t) ∨ AtMost (.string t) (.string s)) ∧
          (AtMost (.string s) (.string t) → AtMost (.string t) (.string s) → s = t) ∧
          (∀ u, AtMost (.string s) (.string t) → AtMost (.string t) (.string u) →
            AtMost (.string s) (.string u)) ∧
          (Before (.string s) (.string t) ↔ List.Lex (· < ·) (bytesOf s) (bytesOf t)) ∧
          (Before (.string s) (.string t) ↔
            List.Lex (· < ·) (s.toList.map Char.toNat) (t.toList.map Char.toNat)) ∧
          (s.toList <+: t.toList → s ≠ t → Before (.string s) (.string t))) := by
  refine ⟨fun v w => ⟨?_, order?_swap v w, fun _ => equal_iff_of_order?⟩, fun s t => ⟨atMost_total s t,
    atMost_antisymm, fun u before after => ?_, before_strings_iff,
    before_strings_iff.trans lex_bytesOf_iff, before_of_start⟩⟩
  · rw [← comparable_iff]
    constructor
    · rintro (⟨m, n⟩ | ⟨s, t⟩)
      · exact .inl ⟨m, n, rfl, rfl⟩
      · exact .inr ⟨s, t, rfl, rfl⟩
    · rintro (⟨m, n, rfl, rfl⟩ | ⟨s, t, rfl, rfl⟩)
      · exact .numbers m n
      · exact .strings s t
  · exact atMost_strings_iff.mpr
      (orderText_trans (atMost_strings_iff.mp before) (atMost_strings_iff.mp after))

/-- The last character of the first plane comes before the first one of the next plane. -/
theorem order_coherent_planes :
    let s := String.ofList [Char.ofNat 0xffff]
    let t := String.ofList [Char.ofNat 0x10000]
    Before (.string s) (.string t) ∧ (Json.string t).order? (.string s) = some .gt ∧
      (Json.string s).equal (.string t) = false ∧ Before (.string t) (.string (t ++ s)) ∧
      AtMost (.string s) (.string (t ++ s)) := by
  intro s t
  obtain ⟨pairs, texts⟩ := order_coherent
  obtain ⟨_, turned, equal⟩ := pairs (.string s) (.string t)
  obtain ⟨_, _, trans, _, codes, _⟩ := texts s t
  obtain ⟨_, _, _, _, _, starts⟩ := texts t (t ++ s)
  have low : Before (.string s) (.string t) := codes.mpr (by decide)
  have longer : Before (.string t) (.string (t ++ s)) := starts (by simp) (by decide)
  refine ⟨low, by rw [turned, low]; rfl, ?_, longer,
    trans _ ⟨.lt, low, by decide⟩ ⟨.lt, longer, by decide⟩⟩
  exact Bool.eq_false_iff.mpr fun same => nomatch (equal .lt low).mpr same

end DocQuery.Json
