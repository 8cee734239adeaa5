import DocQuery.Text.WhiteSpace

/-!
# Trimmed text

What is left of a text between the white space at its ends is the only part of it that neither starts
nor ends with white space and has nothing but white space around it (`trimChars_eq_iff`).
-/

namespace DocQuery

theorem dropWhile_eq_iff {p : Char → Bool} {cs t : List Char} :
    cs.dropWhile p = t ↔
      ∃ before, cs = before ++ t ∧ (∀ c ∈ before, p c = true) ∧ ∀ c ∈ t.head?, p c = false := by
  constructor
  · rintro rfl
    refine ⟨cs.takeWhile p, List.takeWhile_append_dropWhile.symm,
      List.all_eq_true.mp List.all_takeWhile, ?_⟩
    intro c first
    have stop := List.head?_dropWhile_not p cs
    rw [Option.mem_def.mp first] at stop
    simpa using stop
  · rintro ⟨before, rfl, passed, stop⟩
    rw [List.dropWhile_append_of_pos passed]
    cases t with
    | nil => rfl
    | cons c rest => exact List.dropWhile_cons_of_neg (by simp [stop c rfl])

theorem trimEnd_eq_iff {cs t : List Char} :
    trimEnd cs = t ↔
      ∃ after, cs = t ++ after ∧ (∀ c ∈ after, isWhiteSpace c = true) ∧
        ∀ c ∈ t.getLast?, isWhiteSpace c = false := by
  rw [trimEnd, List.reverse_eq_iff, dropWhile_eq_iff, List.head?_reverse]
  constructor
  · rintro ⟨before, split, passed, stop⟩
    refine ⟨before.reverse, ?_, fun c member => passed c (List.mem_reverse.mp member), stop⟩
    rw [← List.reverse_reverse cs, split, List.reverse_append, List.reverse_reverse]
  · rintro ⟨after, rfl, passed, stop⟩
    exact ⟨after.reverse, List.reverse_append,
      fun c member => passed c (List.mem_reverse.mp member), stop⟩

theorem trimChars_eq_iff {cs t : List Char} :
    trimChars cs = t ↔
      ∃ before after, cs = before ++ t ++ after ∧ (∀ c ∈ before, isWhiteSpace c = true) ∧
        (∀ c ∈ after, isWhiteSpace c = true) ∧ (∀ c ∈ t.head?, isWhiteSpace c = false) ∧
          ∀ c ∈ t.getLast?, isWhiteSpace c = false := by
  rw [trimChars, trimEnd_eq_iff]
  constructor
  · rintro ⟨after, rest, blank, stop⟩
    obtain ⟨before, split, blank', start⟩ := dropWhile_eq_iff.mp rest
    refine ⟨before, after, by rw [split, List.append_assoc], blank', blank, ?_, stop⟩
    intro c first
    exact start c (by rw [List.head?_append, first]; rfl)
  · rintro ⟨before, after, rfl, blank', blank, start, stop⟩
    cases t with
    | nil =>
      have all : ∀ c ∈ before ++ [] ++ after, isWhiteSpace c = true := by
        intro c member
        rw [List.append_nil] at member
        exact (List.mem_append.mp member).elim (blank' c) (blank c)
      refine ⟨[], dropWhile_eq_iff.mpr ⟨_, (List.append_nil _).symm, all, nofun⟩, nofun, nofun⟩
    | cons c rest =>
      refine ⟨after, dropWhile_eq_iff.mpr ⟨before, List.append_assoc .., blank', ?_⟩, blank, stop⟩
      rintro _ ⟨⟩
      exact start c rfl

theorem trim_pad {left right : String} (blank : ∀ c ∈ left.toList, isWhiteSpace c = true)
    (blank' : ∀ c ∈ right.toList, isWhiteSpace c = true) (s : String) :
    trim (left ++ s ++ right) = trim s := by
  obtain ⟨t, trimmed⟩ : ∃ t, trimChars s.toList = t := ⟨_, rfl⟩
  obtain ⟨before, after, split, passed, passed', start, stop⟩ := trimChars_eq_iff.mp trimmed
  have padded : trimChars (left ++ s ++ right).toList = t := by
    refine trimChars_eq_iff.mpr ⟨left.toList ++ before, after ++ right.toList, ?_,
      List.forall_mem_append.mpr ⟨blank, passed⟩, List.forall_mem_append.mpr ⟨passed', blank'⟩,
      start, stop⟩
    rw [String.toList_append, String.toList_append, split]
    simp only [List.append_assoc]
  rw [trim, padded, trim, trimmed]

end DocQuery
