import DocQuery.Proofs.Text.Lines
import DocQuery.Proofs.Text.WhiteSpace
import Mathlib.Data.List.Basic

/-!
# Lines that are written

A text that was trimmed and holds no line feed comes back from a line of its own: it cannot be broken
in two, its last byte is no carriage return, and it cannot be trimmed further.
-/

namespace DocQuery

theorem bytesOf_ofList (cs : List Char) :
    bytesOf (String.ofList cs) = cs.flatMap String.utf8EncodeChar := by
  rw [bytesOf, String.toUTF8_eq_toByteArray, String.toByteArray_ofList, List.utf8Encode,
    List.data_toByteArray]

/-! ### Trimmed texts -/

theorem trim_trim (s : String) : trim (trim s) = trim s := by
  obtain ⟨before, after, _, _, _, start, stop⟩ := trimChars_eq_iff.mp (rfl : trimChars s.toList = _)
  have trimmed : trimChars (trimChars s.toList) = trimChars s.toList :=
    trimChars_eq_iff.mpr ⟨[], [], by simp, nofun, nofun, start, stop⟩
  rw [trim, trim, String.toList_ofList, trimmed]

theorem mem_of_mem_trim {s : String} {b : UInt8} (member : b ∈ bytesOf (trim s)) : b ∈ bytesOf s := by
  obtain ⟨before, after, split, _⟩ := trimChars_eq_iff.mp (rfl : trimChars s.toList = _)
  rw [← String.ofList_toList (s := s), bytesOf_ofList, split, List.flatMap_append,
    List.flatMap_append]
  rw [trim, bytesOf_ofList] at member
  exact List.mem_append_left _ (List.mem_append_right _ member)

/-- An ASCII byte is in the encoding of its own character only. -/
theorem eq_of_mem_utf8EncodeChar {c : Char} {b : UInt8} (low : b.toNat < 128)
    (member : b ∈ String.utf8EncodeChar c) : c.toNat = b.toNat := by
  have high : ∀ n : Nat, 128 ≤ n → n < 256 → b ≠ UInt8.ofNat n := by
    rintro n atLeast below rfl
    rw [UInt8.toNat_ofNat_of_lt' below] at low
    omega
  unfold String.utf8EncodeChar at member
  dsimp only at member
  split at member
  · rename_i small
    obtain rfl := List.mem_singleton.mp member
    exact (UInt8.toNat_ofNat_of_lt' (Nat.lt_of_le_of_lt small (by decide))).symm
  · -- every byte of a longer encoding has its highest bit set
    exfalso
    split at member
    · simp only [List.mem_cons, List.not_mem_nil, or_false] at member
      rcases member with same | same <;> exact high _ (by omega) (by omega) same
    · split at member
      · simp only [List.mem_cons, List.not_mem_nil, or_false] at member
        rcases member with same | same | same <;> exact high _ (by omega) (by omega) same
      · simp only [List.mem_cons, List.not_mem_nil, or_false] at member
        rcases member with same | same | same | same <;> exact high _ (by omega) (by omega) same

/-- Only the carriage return itself is encoded with that byte at the end. -/
theorem eq_of_getLast?_utf8EncodeChar {c : Char}
    (last : (String.utf8EncodeChar c).getLast? = some carriageReturn) : c = '\r' := by
  have same := eq_of_mem_utf8EncodeChar (by decide) (List.mem_of_getLast? last)
  exact Char.ext (UInt32.toNat_inj.mp same)

theorem dropReturn_trim (s : String) : dropReturn (bytesOf (trim s)) = bytesOf (trim s) := by
  obtain ⟨_, _, _, _, _, _, stop⟩ := trimChars_eq_iff.mp (rfl : trimChars s.toList = _)
  refine if_neg fun returned => ?_
  rw [trim, bytesOf_ofList] at returned
  cases ended : (trimChars s.toList).getLast? with
  | none =>
    rw [List.getLast?_eq_none_iff.mp ended] at returned
    cases returned
  | some c =>
    obtain ⟨front, split⟩ := List.getLast?_eq_some_iff.mp ended
    rw [split, List.flatMap_append, List.flatMap_singleton,
      List.getLast?_append_of_ne_nil _ String.utf8EncodeChar_ne_nil] at returned
    obtain rfl := eq_of_getLast?_utf8EncodeChar returned
    have dark := stop '\r' ended
    have blank : isWhiteSpace '\r' = true := by decide
    rw [blank] at dark
    cases dark

/-! ### Line feeds and carriage returns in texts -/

theorem bytesOf_append (s t : String) : bytesOf (s ++ t) = bytesOf s ++ bytesOf t := by
  rw [← String.ofList_toList (s := s), ← String.ofList_toList (s := t), ← String.ofList_append,
    bytesOf_ofList, bytesOf_ofList, bytesOf_ofList, List.flatMap_append]

theorem lineFeed_mem_bytesOf_iff {s : String} : lineFeed ∈ bytesOf s ↔ '\n' ∈ s.toList := by
  rw [← String.ofList_toList (s := s), bytesOf_ofList, String.toList_ofList, List.mem_flatMap]
  constructor
  · rintro ⟨c, member, encoded⟩
    have same := eq_of_mem_utf8EncodeChar (by decide) encoded
    obtain rfl : c = '\n' := Char.ext (UInt32.toNat_inj.mp same)
    exact member
  · intro member
    exact ⟨'\n', member, by decide⟩

/-- What stands before a carriage return at the end of a text is a text. -/
theorem exists_of_bytesOf_eq_append_return {s : String} {line : List UInt8}
    (encoded : bytesOf s = line ++ [carriageReturn]) : ∃ t, s = t ++ "\r" ∧ bytesOf t = line := by
  rw [← String.ofList_toList (s := s), bytesOf_ofList] at encoded
  cases ended : s.toList.getLast? with
  | none =>
    rw [List.getLast?_eq_none_iff.mp ended] at encoded
    exact absurd encoded.symm (List.append_ne_nil_of_right_ne_nil _ (List.cons_ne_nil _ _))
  | some c =>
    obtain ⟨front, split⟩ := List.getLast?_eq_some_iff.mp ended
    rw [split, List.flatMap_append, List.flatMap_singleton] at encoded
    have last : (String.utf8EncodeChar c).getLast? = some carriageReturn := by
      rw [← List.getLast?_append_of_ne_nil (front.flatMap String.utf8EncodeChar)
        String.utf8EncodeChar_ne_nil, encoded, List.getLast?_concat]
    obtain rfl := eq_of_getLast?_utf8EncodeChar last
    refine ⟨String.ofList front, ?_, ?_⟩
    · rw [← String.ofList_toList (s := s), split, String.ofList_append]
    · rw [bytesOf_ofList]
      exact List.append_cancel_right encoded

end DocQuery
