import DocQuery.Json.Equality
import DocQuery.Json.Order

/-!
# Order and equality

The order of byte strings is the lexicographic one (`orderBytes_eq_compareLex`). A value is equal to a
number or a string exactly if it has an order with it and neither comes first (`equal_iff_order?`).
-/

namespace DocQuery

theorem orderBytes_eq_compareLex (as bs : List UInt8) :
    orderBytes as bs = List.compareLex compare as bs := by
  induction as generalizing bs with
  | nil => cases bs <;> rfl
  | cons a as ih =>
    cases bs with
    | nil => rfl
    | cons b bs => rw [orderBytes, List.compareLex_cons_cons, ih]

theorem orderBytes_eq_lt_iff {as bs : List UInt8} :
    orderBytes as bs = .lt ↔ List.Lex (· < ·) as bs := by
  induction as generalizing bs with
  | nil => cases bs <;> simp [orderBytes]
  | cons a as ih =>
    cases bs with
    | nil => simp [orderBytes]
    | cons b bs =>
      rw [orderBytes, Ordering.then_eq_lt, Std.compare_eq_lt, Std.compare_eq_iff_eq, ih,
        List.cons_lex_cons_iff]

theorem orderBytes_eq_iff {as bs : List UInt8} : orderBytes as bs = .eq ↔ as = bs := by
  rw [orderBytes_eq_compareLex]
  exact Std.LawfulEqCmp.compare_eq_iff_eq

theorem orderText_swap (s t : String) : (orderText s t).swap = orderText t s := by
  rw [orderText, orderText, orderBytes_eq_compareLex, orderBytes_eq_compareLex]
  exact Std.OrientedCmp.eq_swap.symm

theorem orderText_trans {s t u : String} (before : orderText s t ≠ .gt) (after : orderText t u ≠ .gt) :
    orderText s u ≠ .gt := by
  rw [orderText, orderBytes_eq_compareLex] at before after ⊢
  exact Ordering.ne_gt_iff_isLE.mpr (Std.TransCmp.isLE_trans (Ordering.ne_gt_iff_isLE.mp before)
    (Ordering.ne_gt_iff_isLE.mp after))

theorem orderText_eq_iff {s t : String} : orderText s t = .eq ↔ s = t := by
  unfold orderText
  rw [orderBytes_eq_iff]
  constructor
  · intro same
    apply String.toByteArray_inj.mp
    apply ByteArray.ext
    exact Array.toList_inj.mp same
  · rintro rfl
    rfl

namespace Json

theorem equal_iff_order? {v bound : Json} (ordered : Comparable bound bound) :
    v.equal bound = true ↔ v.order? bound = some .eq := by
  cases ordered with
  | numbers n => cases v <;> simp [equal, order?]
  | strings t => cases v <;> simp [equal, order?, orderText_eq_iff]

end Json

end DocQuery
