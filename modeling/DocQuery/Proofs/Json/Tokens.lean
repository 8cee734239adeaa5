import DocQuery.Json.Reader
import DocQuery.Json.Writer

/-!
# Written tokens

Integers and strings read back from what is written for them. An integer needs a rest that does not
go on with it (`EndsNumber`), and has no zero in front (`head?_digits`). A string ends itself
(`readChars_body`).
-/

namespace DocQuery

namespace Json

/-! ### Integers -/

/-- What follows is no part of a number before it. -/
def EndsNumber (rest : List Char) : Prop :=
  ∀ c ∈ rest.head?, c.isDigit = false ∧ c ≠ '.' ∧ c ≠ 'e' ∧ c ≠ 'E'

theorem endsNumber_nil : EndsNumber [] := nofun

theorem endsNumber_cons {c : Char} (stop : c.isDigit = false ∧ c ≠ '.' ∧ c ≠ 'e' ∧ c ≠ 'E')
    (rest : List Char) : EndsNumber (c :: rest) := by
  rintro _ ⟨⟩
  exact stop

def digit (c : Char) : Nat := c.toNat - '0'.toNat

theorem ofDigits_decimalText (n : Nat) : ofDigits 10 ((decimalText n).map digit) = n := by
  have value : Nat.ofDigitChars 10 (decimalText n) 0 = n := Nat.ofDigitChars_ten_toDigits
  rw [Nat.ofDigitChars_eq_foldl] at value
  rw [ofDigits, List.foldl_map]
  simpa only [digit, Nat.mul_comm] using value

theorem isDigit_of_mem_decimalText {n : Nat} {c : Char} (member : c ∈ decimalText n) :
    c.isDigit = true := Nat.isDigit_of_mem_toDigits (by decide) (by decide) member

theorem decimalText_head (n : Nat) : ∃ c cs, decimalText n = c :: cs ∧ c.isDigit = true := by
  obtain ⟨c, cs, written⟩ := List.exists_cons_of_ne_nil (Nat.toDigits_ne_nil (n := n) (b := 10))
  exact ⟨c, cs, written, isDigit_of_mem_decimalText (written ▸ List.mem_cons_self)⟩

/-- Only zero itself is written with a zero in front. -/
theorem head?_digits {n : Nat} (positive : 0 < n) : ((decimalText n).map digit).head? ≠ some 0 := by
  induction n using Nat.strongRecOn with
  | ind n ih =>
    by_cases small : n < 10
    · have value : digit n.digitChar = n := Nat.toNat_digitChar_sub_48_of_lt_ten small
      rw [decimalText, Nat.toDigits_of_lt_base small, List.map_singleton, value]
      intro zero
      have zero := Option.some.inj zero
      omega
    · have shorter := ih (n / 10) (by omega) (by omega)
      obtain ⟨c, cs, written, _⟩ := decimalText_head (n / 10)
      rw [written] at shorter
      rw [decimalText] at written
      rw [decimalText, Nat.toDigits_of_base_le (by decide) (by omega), written]
      exact shorter

theorem le_foldl_digits (digits : List Nat) (s : Nat) :
    s ≤ digits.foldl (fun n d => n * 10 + d) s := by
  induction digits generalizing s with
  | nil => exact Nat.le_refl s
  | cons d digits ih =>
    have rest := ih (s * 10 + d)
    rw [List.foldl_cons]
    omega

theorem extend_of_lt {digits : List Nat} {s : Nat}
    (fits : digits.foldl (fun n d => n * 10 + d) s < 1 <<< 64) :
    Literal.extend s digits = (digits.foldl (fun n d => n * 10 + d) s, []) := by
  induction digits generalizing s with
  | nil => rfl
  | cons d digits ih =>
    have next : s * 10 + d < 1 <<< 64 := Nat.lt_of_le_of_lt (le_foldl_digits digits _) fits
    rw [Literal.extend, if_pos next, ih fits, List.foldl_cons]

theorem extend_decimalText {n : Nat} (fits : n < 1 <<< 64) :
    Literal.extend 0 ((decimalText n).map digit) = (n, []) := by
  have value := ofDigits_decimalText n
  rw [ofDigits] at value
  rw [extend_of_lt (by rw [value]; exact fits), value]

theorem readDigits_append {ds rest : List Char} (digits : ∀ c ∈ ds, c.isDigit = true)
    (stop : EndsNumber rest) : readDigits (ds ++ rest) = (ds.map digit, rest) := by
  have halted : rest.takeWhile Char.isDigit = [] ∧ rest.dropWhile Char.isDigit = rest := by
    cases rest with
    | nil => exact ⟨rfl, rfl⟩
    | cons c rest =>
      have other := (stop c rfl).1
      simp [other]
  rw [readDigits, List.takeWhile_append_of_pos digits, List.dropWhile_append_of_pos digits,
    halted.1, halted.2, List.append_nil]
  rfl

theorem readWhole_decimalText (n : Nat) {rest : List Char} (stop : EndsNumber rest) :
    readWhole (decimalText n ++ rest) = .ok ((decimalText n).map digit, rest) := by
  have some : readSomeDigits (decimalText n ++ rest) = .ok ((decimalText n).map digit, rest) := by
    rw [readSomeDigits, readDigits_append (fun _ => isDigit_of_mem_decimalText) stop]
    cases written : decimalText n with
    | nil => exact absurd written Nat.toDigits_ne_nil
    | cons c cs => rfl
  rw [readWhole, some]
  split
  · -- a zero in front of other digits is never written
    rename_i second others remaining same
    obtain ⟨digits, _⟩ := Prod.mk.inj (Except.ok.inj same)
    rcases Nat.eq_zero_or_pos n with rfl | positive
    · cases digits
    · exact absurd (by rw [digits]; rfl) (head?_digits positive)
  · rfl

theorem readLiteral_decimalText (negative : Bool) (n : Nat) {rest : List Char}
    (stop : EndsNumber rest) :
    readLiteral negative (decimalText n ++ rest) =
      .ok (⟨negative, (decimalText n).map digit, none, none⟩, rest) := by
  have fraction : readFraction rest = .ok (none, rest) := by
    unfold readFraction
    split
    · exact absurd rfl (stop '.' rfl).2.1
    · rfl
  have exponent : readExponent rest = .ok (none, rest) := by
    unfold readExponent
    split
    · exact absurd rfl (stop 'e' rfl).2.2.1
    · exact absurd rfl (stop 'E' rfl).2.2.2
    · rfl
  rw [readLiteral, readWhole_decimalText n stop]
  simp only [fraction, exponent]

theorem readNumber_natural {n : Nat} (fits : n < 1 <<< 64) {rest : List Char}
    (stop : EndsNumber rest) :
    readNumber false (decimalText n ++ rest) = .ok (.number (.natural n fits), rest) := by
  have number : (⟨false, (decimalText n).map digit, none, none⟩ : Literal).number? =
      some (.natural n fits) := by
    unfold Literal.number?
    simp only [extend_decimalText fits]
    exact dif_pos fits
  rw [readNumber, readLiteral_decimalText false n stop]
  simp only [number]

theorem readNumber_negative {n : Nat} (nonzero : 0 < n) (fits : n ≤ 1 <<< 63) {rest : List Char}
    (stop : EndsNumber rest) :
    readNumber true (decimalText n ++ rest) = .ok (.number (.negative n nonzero fits), rest) := by
  have below : n < 1 <<< 64 := Nat.lt_of_le_of_lt fits (by decide)
  have number : (⟨true, (decimalText n).map digit, none, none⟩ : Literal).number? =
      some (.negative n nonzero fits) := by
    unfold Literal.number?
    simp only [extend_decimalText below]
    exact dif_pos ⟨nonzero, fits⟩
  rw [readNumber, readLiteral_decimalText true n stop]
  simp only [number]

/-! ### Strings -/

theorem hexValue?_hexDigit : ∀ d < 16, hexValue? (hexDigit d) = some d := by decide

theorem readHex_low {n : Nat} (low : n < 0x20) (rest : List Char) :
    readHex ('0' :: '0' :: hexDigit (n / 16) :: hexDigit (n % 16) :: rest) = .ok (n, rest) := by
  have zero : hexValue? '0' = some 0 := by decide
  rw [readHex, zero, hexValue?_hexDigit (n / 16) (by omega), hexValue?_hexDigit (n % 16) (by omega)]
  have whole : ((0 * 16 + 0) * 16 + n / 16) * 16 + n % 16 = n := by omega
  simp only [whole]

theorem readEscape_control {c : Char} (control : c.toNat < 0x20) (rest : List Char) :
    readEscape ('u' :: '0' :: '0' :: hexDigit (c.toNat / 16) :: hexDigit (c.toNat % 16) :: rest) =
      .ok (c, rest) := by
  have low : isLowSurrogate c.toNat = false := by
    simp only [isLowSurrogate, Bool.and_eq_false_iff, decide_eq_false_iff_not]
    omega
  have high : isHighSurrogate c.toNat = false := by
    simp only [isHighSurrogate, Bool.and_eq_false_iff, decide_eq_false_iff_not]
    omega
  rw [readEscape, readHex_low control rest]
  simp only [low, high, Bool.false_eq_true, if_false, Char.ofNat_toNat]

/-- Whether it is escaped or not, a written character is read in one step. -/
theorem readChars_escape (c : Char) (budget : Nat) (before rest : List Char) :
    readChars (budget + 1) before (escape c ++ rest) = readChars budget (c :: before) rest := by
  by_cases named : c ∈ ['"', '\\', '\x08', '\x0c', '\n', '\r', '\t']
  · simp only [List.mem_cons, List.not_mem_nil, or_false] at named
    rcases named with rfl | rfl | rfl | rfl | rfl | rfl | rfl <;> rfl
  · simp only [List.mem_cons, List.not_mem_nil, or_false, not_or] at named
    obtain ⟨quote, backslash, backspace, formFeed, newline, carriage, tab⟩ := named
    rw [escape, if_neg quote, if_neg backslash, if_neg backspace, if_neg formFeed, if_neg newline,
      if_neg carriage, if_neg tab]
    by_cases control : c.toNat < 0x20
    · rw [if_pos control, List.cons_append, readChars, if_neg (by decide), if_pos rfl]
      simp only [List.cons_append, List.nil_append, readEscape_control control]
    · rw [if_neg control, List.singleton_append, readChars, if_neg quote, if_neg backslash,
        if_neg control]

theorem readChars_body (s : List Char) (before rest : List Char) {budget : Nat}
    (enough : s.length < budget) :
    readChars budget before (s.flatMap escape ++ '"' :: rest) =
      .ok (String.ofList (before.reverse ++ s), rest) := by
  induction s generalizing before budget with
  | nil =>
    obtain ⟨budget, rfl⟩ := Nat.exists_eq_succ_of_ne_zero (Nat.ne_of_gt enough)
    rw [List.append_nil]
    rfl
  | cons c s ih =>
    obtain ⟨budget, rfl⟩ := Nat.exists_eq_succ_of_ne_zero (Nat.ne_of_gt (Nat.zero_lt_of_lt enough))
    rw [List.flatMap_cons, List.append_assoc, readChars_escape,
      ih (c :: before) (Nat.lt_of_succ_lt_succ enough), List.reverse_cons, List.append_assoc]
    rfl

theorem readChars_writeString (s : String) (rest : List Char) {budget : Nat}
    (enough : s.toList.length < budget) :
    readChars budget [] (s.toList.flatMap escape ++ '"' :: rest) = .ok (s, rest) := by
  rw [readChars_body s.toList [] rest enough, List.reverse_nil, List.nil_append,
    String.ofList_toList]

theorem writeString_append (s : String) (rest : List Char) :
    writeString s ++ rest = '"' :: (s.toList.flatMap escape ++ '"' :: rest) := by
  simp [writeString]

theorem length_le_flatMap_escape (cs : List Char) : cs.length ≤ (cs.flatMap escape).length := by
  induction cs with
  | nil => exact Nat.le_refl 0
  | cons c cs ih =>
    have some : 0 < (escape c).length := by
      unfold escape
      repeat' split
      all_goals exact Nat.succ_pos _
    rw [List.flatMap_cons, List.length_append, List.length_cons]
    omega

theorem length_writeString (s : String) : s.toList.length + 2 ≤ (writeString s).length := by
  have body := length_le_flatMap_escape s.toList
  simp only [writeString, List.length_cons, List.length_append, List.length_nil]
  omega

end Json

end DocQuery
