import DocQuery.Proofs.Text.Written
import Mathlib.Data.List.Lex

/-!
# The order of encoded texts

Of two characters the one with the smaller code has the smaller encoding in UTF-8, whatever follows the
two (`lex_utf8EncodeChar`). So the bytes of two texts are in the order of the codes of their characters
(`lex_bytesOf_iff`).
-/

namespace DocQuery

theorem ofNat_lt_ofNat {m n : Nat} (less : m < n) (fits : n < 256) : UInt8.ofNat m < UInt8.ofNat n := by
  rw [UInt8.lt_iff_toNat_lt, UInt8.toNat_ofNat_of_lt' fits,
    UInt8.toNat_ofNat_of_lt' (Nat.lt_trans less fits)]
  exact less

/-- Lists of bytes are in order by their heads, or by what follows equal heads. -/
theorem lex_ofNat_cons {m n : Nat} {as bs : List UInt8} (below : m ≤ n) (fits : n < 256)
    (rest : m = n → List.Lex (· < ·) as bs) :
    List.Lex (· < ·) (UInt8.ofNat m :: as) (UInt8.ofNat n :: bs) := by
  rcases Nat.lt_or_eq_of_le below with less | rfl
  · exact .rel (ofNat_lt_ofNat less fits)
  · exact .cons (rest rfl)

theorem lex_utf8EncodeChar {c d : Char} (less : c.toNat < d.toNat) (as bs : List UInt8) :
    List.Lex (· < ·) (String.utf8EncodeChar c ++ as) (String.utf8EncodeChar d ++ bs) := by
  have last : d.val.toNat < 0x110000 := by
    rcases d.valid with low | ⟨_, high⟩
    · exact Nat.lt_trans low (by decide)
    · exact high
  change c.val.toNat < d.val.toNat at less
  unfold String.utf8EncodeChar
  generalize c.val.toNat = m at less ⊢
  generalize d.val.toNat = n at less last ⊢
  dsimp only
  -- A longer encoding starts with a larger byte. Encodings of one length are compared byte by byte.
  by_cases one : m ≤ 0x7f
  · rw [if_pos one]
    split
    · exact lex_ofNat_cons (by omega) (by omega) fun _ => by omega
    · split
      · exact .rel (ofNat_lt_ofNat (by omega) (by omega))
      · split <;> exact .rel (ofNat_lt_ofNat (by omega) (by omega))
  rw [if_neg one, if_neg (show ¬n ≤ 0x7f by omega)]
  by_cases two : m ≤ 0x7ff
  · rw [if_pos two]
    split
    · refine lex_ofNat_cons (by omega) (by omega) fun _ => ?_
      exact lex_ofNat_cons (by omega) (by omega) fun _ => by omega
    · split <;> exact .rel (ofNat_lt_ofNat (by omega) (by omega))
  rw [if_neg two, if_neg (show ¬n ≤ 0x7ff by omega)]
  by_cases three : m ≤ 0xffff
  · rw [if_pos three]
    split
    · refine lex_ofNat_cons (by omega) (by omega) fun _ => ?_
      refine lex_ofNat_cons (by omega) (by omega) fun _ => ?_
      exact lex_ofNat_cons (by omega) (by omega) fun _ => by omega
    · exact .rel (ofNat_lt_ofNat (by omega) (by omega))
  rw [if_neg three, if_neg (show ¬n ≤ 0xffff by omega)]
  refine lex_ofNat_cons (by omega) (by omega) fun _ => ?_
  refine lex_ofNat_cons (by omega) (by omega) fun _ => ?_
  refine lex_ofNat_cons (by omega) (by omega) fun _ => ?_
  exact lex_ofNat_cons (by omega) (by omega) fun _ => by omega

theorem lex_append_left_iff {α : Type} {r : α → α → Prop} [Std.Irrefl r] (front : List α)
    {as bs : List α} : List.Lex r (front ++ as) (front ++ bs) ↔ List.Lex r as bs := by
  induction front with
  | nil => rfl
  | cons a front ih => exact List.lex_cons_iff.trans ih

theorem lex_flatMap_iff {cs ds : List Char} :
    List.Lex (· < ·) (cs.flatMap String.utf8EncodeChar) (ds.flatMap String.utf8EncodeChar) ↔
      List.Lex (· < ·) (cs.map Char.toNat) (ds.map Char.toNat) := by
  induction cs generalizing ds with
  | nil =>
    cases ds with
    | nil => simp
    | cons d ds =>
      obtain ⟨b, rest, encoded⟩ := List.exists_cons_of_ne_nil (String.utf8EncodeChar_ne_nil (c := d))
      rw [List.flatMap_cons, encoded]
      exact iff_of_true .nil .nil
  | cons c cs ih =>
    cases ds with
    | nil => exact iff_of_false List.not_lex_nil List.not_lex_nil
    | cons d ds =>
      simp only [List.flatMap_cons, List.map_cons]
      rcases Nat.lt_trichotomy c.toNat d.toNat with less | same | greater
      · exact iff_of_true (lex_utf8EncodeChar less _ _) (.rel less)
      · obtain rfl : c = d := Char.toNat_inj.mp same
        rw [lex_append_left_iff, List.lex_cons_iff]
        exact ih
      · exact iff_of_false (asymm (lex_utf8EncodeChar greater _ _)) (asymm (List.Lex.rel greater))

theorem lex_bytesOf_iff {s t : String} :
    List.Lex (· < ·) (bytesOf s) (bytesOf t) ↔
      List.Lex (· < ·) (s.toList.map Char.toNat) (t.toList.map Char.toNat) := by
  rw [← lex_flatMap_iff, ← bytesOf_ofList, ← bytesOf_ofList, String.ofList_toList,
    String.ofList_toList]

end DocQuery
