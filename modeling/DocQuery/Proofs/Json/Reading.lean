import DocQuery.Proofs.Json.Tokens
import DocQuery.Proofs.Json.Tree

/-!
# Written values

A value without doubles reads back from its text (`parse_text`): every container that is opened is
closed again, and what follows a value cannot be taken for a part of it. Reading may leave entries
out, as long as all the entries of the value count (`Selects`).
-/

namespace DocQuery.Json

mutual
/-- No number of the value is a double. -/
def doubleFree : Json → Bool
  | .number (.double _) => false
  | .array items => doubleFreeItems items
  | .object entries => doubleFreeEntries entries
  | _ => true

def doubleFreeItems : List Json → Bool
  | [] => true
  | v :: rest => doubleFree v && doubleFreeItems rest

def doubleFreeEntries : List (String × Json) → Bool
  | [] => true
  | (_, v) :: rest => doubleFree v && doubleFreeEntries rest
end

theorem doubleFreeItems_iff {items : List Json} :
    doubleFreeItems items = true ↔ ∀ v ∈ items, v.doubleFree = true := by
  induction items with
  | nil => simp [doubleFreeItems]
  | cons v rest ih => rw [doubleFreeItems, Bool.and_eq_true, ih, List.forall_mem_cons]

theorem doubleFreeEntries_iff {entries : List (String × Json)} :
    doubleFreeEntries entries = true ↔ ∀ e ∈ entries, e.2.doubleFree = true := by
  induction entries with
  | nil => simp [doubleFreeEntries]
  | cons e rest ih =>
    obtain ⟨key, v⟩ := e
    rw [doubleFreeEntries, Bool.and_eq_true, ih, List.forall_mem_cons]

/-- All entries of a value at a place count. -/
inductive Selects {Place : Type} (selection : Selection Place) : Place → Json → Prop
  | scalar {place : Place} {v : Json} :
      v.isArray = false → v.isObject = false → Selects selection place v
  | array {place : Place} {items : List Json} :
      (∀ v ∈ items, Selects selection (selection.item place) v) →
        Selects selection place (.array items)
  | object {place : Place} {entries : List (String × Json)} (inner : String → Place) :
      (∀ e ∈ entries, selection.entry place e.1 = some (inner e.1)) →
        (∀ e ∈ entries, Selects selection (inner e.1) e.2) →
          Selects selection place (.object entries)

/-- At a place where all entries and elements stay at that place, every value counts. -/
theorem selects_of_constant {Place : Type} {selection : Selection Place} {place : Place}
    (entry : ∀ key, selection.entry place key = some place) (item : selection.item place = place)
    (v : Json) : Selects selection place v := by
  induction v with
  | array items ih => exact .array (item.symm ▸ ih)
  | object entries ih => exact .object (fun _ => place) (fun e _ => entry e.1) ih
  | _ => exact .scalar rfl rfl

section

variable {Place : Type} {selection : Selection Place} {place : Place} {budget depth : Nat}

/-! ### Single steps -/

theorem skipBlanks_cons {c : Char} (dark : isBlank c = false) (rest : List Char) :
    skipBlanks (c :: rest) = c :: rest := List.dropWhile_cons_of_neg (by rw [dark]; decide)

theorem readItems_last {cs rest : List Char} {v : Json} (before : List Json)
    (value : readValue selection budget depth place cs = .ok (v, ']' :: rest)) :
    readItems selection (budget + 1) depth place before cs = .ok ((v :: before).reverse, rest) := by
  rw [readItems, value]
  rfl

theorem readItems_more {cs rest : List Char} {v : Json} (before : List Json)
    (value : readValue selection budget depth place cs = .ok (v, ',' :: rest)) :
    readItems selection (budget + 1) depth place before cs =
      readItems selection budget depth place (v :: before) rest := by
  rw [readItems, value]
  rfl

theorem readEntries_last {inner : Place} {cs rest rest' : List Char} {key : String} {v : Json}
    (before : List (String × Json)) (name : readChars budget [] cs = .ok (key, ':' :: rest))
    (counts : selection.entry place key = some inner)
    (value : readValue selection budget depth inner rest = .ok (v, '\x7d' :: rest')) :
    readEntries selection (budget + 1) depth place before ('"' :: cs) =
      .ok (((key, v) :: before).reverse, rest') := by
  have colon : skipBlanks (':' :: rest) = ':' :: rest := skipBlanks_cons (by decide) rest
  have brace : skipBlanks ('\x7d' :: rest') = '\x7d' :: rest' := skipBlanks_cons (by decide) rest'
  rw [readEntries, skipBlanks_cons (by decide)]
  simp only [name, colon, counts, value, Except.map, brace]

theorem readEntries_more {inner : Place} {cs rest rest' : List Char} {key : String} {v : Json}
    (before : List (String × Json)) (name : readChars budget [] cs = .ok (key, ':' :: rest))
    (counts : selection.entry place key = some inner)
    (value : readValue selection budget depth inner rest = .ok (v, ',' :: rest')) :
    readEntries selection (budget + 1) depth place before ('"' :: cs) =
      readEntries selection budget depth place ((key, v) :: before) rest' := by
  have colon : skipBlanks (':' :: rest) = ':' :: rest := skipBlanks_cons (by decide) rest
  have comma : skipBlanks (',' :: rest') = ',' :: rest' := skipBlanks_cons (by decide) rest'
  rw [readEntries, skipBlanks_cons (by decide)]
  simp only [name, colon, counts, value, Except.map, comma]

theorem isBlank_of_isDigit {c : Char} (decimal : c.isDigit = true) : isBlank c = false := by
  apply Bool.eq_false_iff.mpr
  intro blank
  simp only [isBlank, Bool.or_eq_true, beq_iff_eq] at blank
  rcases blank with ((rfl | rfl) | rfl) | rfl <;> cases decimal

theorem readValue_digit {c : Char} (decimal : c.isDigit = true) (rest : List Char) :
    readValue selection (budget + 1) depth place (c :: rest) = readNumber false (c :: rest) := by
  rw [readValue, skipBlanks_cons (isBlank_of_isDigit decimal)]
  split
  case h_9 =>
    rename_i same
    obtain ⟨rfl, rfl⟩ := List.cons.inj same
    exact if_pos decimal
  -- No other kind of value starts with a digit.
  all_goals
    rename_i same
    cases same <;> cases decimal

theorem readValue_array {c : Char} {rest : List Char} (dark : isBlank c = false) (filled : c ≠ ']') :
    readValue selection (budget + 1) (depth + 1) place ('[' :: c :: rest) =
      (readItems selection budget depth (selection.item place) [] (c :: rest)).map
        fun (items, rest) => (.array items, rest) := by
  rw [readValue, skipBlanks_cons (by decide)]
  simp only [skipBlanks_cons dark]
  split
  · rename_i rest same
    exact absurd (List.cons.inj same).1 filled
  · rfl

theorem readValue_object (rest : List Char) :
    readValue selection (budget + 1) (depth + 1) place ('\x7b' :: '"' :: rest) =
      (readEntries selection budget depth place [] ('"' :: rest)).map
        fun (entries, rest) => (.object entries, rest) := by
  have quote : skipBlanks ('"' :: rest) = '"' :: rest := skipBlanks_cons (by decide) rest
  rw [readValue, skipBlanks_cons (by decide)]
  simp only [quote]
  rfl

theorem readValue_string (s : String) (rest : List Char) (enough : s.toList.length < budget) :
    readValue selection (budget + 1) depth place (writeString s ++ rest) = .ok (.string s, rest) := by
  rw [writeString_append, readValue, skipBlanks_cons (by decide)]
  simp only [readChars_writeString s rest enough]
  rfl

theorem readValue_number {n : Number} (whole : (number n).doubleFree = true) {rest : List Char}
    (stop : EndsNumber rest) :
    readValue selection (budget + 1) depth place (n.text ++ rest) = .ok (.number n, rest) := by
  cases n with
  | natural n fits =>
    obtain ⟨c, cs, written, decimal⟩ := decimalText_head n
    rw [Number.text, written, List.cons_append, readValue_digit decimal, ← List.cons_append,
      ← written]
    exact readNumber_natural fits stop
  | negative n nonzero fits =>
    rw [Number.text, List.cons_append, readValue, skipBlanks_cons (by decide)]
    exact readNumber_negative nonzero fits stop
  | double => cases whole

/-! ### Whole values -/

/-- The value reads back from its text, in whatever depth and with whatever budget suffice for it. -/
def ReadsBack (selection : Selection Place) (place : Place) (v : Json) : Prop :=
  ∀ budget depth rest, (write v).length ≤ budget → v.depth ≤ depth → EndsNumber rest →
    readValue selection budget depth place (write v ++ rest) = .ok (v, rest)

theorem readItems_write {items : List Json} {v : Json} (before : List Json) (rest : List Char)
    (each : ∀ w ∈ v :: items, ReadsBack selection place w)
    (enough : (write v ++ writeItems items).length ≤ budget)
    (shallow : depthItems (v :: items) ≤ depth) :
    readItems selection budget depth place before (write v ++ writeItems items ++ rest) =
      .ok (before.reverse ++ v :: items, rest) := by
  -- on the elements behind the first: the reader moves one of them at a time to `before`
  induction items generalizing v before budget with
  | nil =>
    obtain ⟨first, _⟩ := List.forall_mem_cons.mp each
    simp only [writeItems, List.length_append, List.length_singleton] at enough
    obtain ⟨budget, rfl⟩ := Nat.exists_eq_add_of_le' (Nat.le_trans (Nat.le_add_left ..) enough)
    have value : readValue selection budget depth place (write v ++ ']' :: rest) =
        .ok (v, ']' :: rest) := by
      refine first budget depth _ (by omega) ?_ (endsNumber_cons (by decide) rest)
      exact Nat.le_trans (Nat.le_max_left ..) shallow
    rw [List.append_assoc, writeItems, List.singleton_append, readItems_last before value]
    simp
  | cons w items ih =>
    obtain ⟨first, others⟩ := List.forall_mem_cons.mp each
    simp only [writeItems, List.length_append, List.length_cons] at enough
    obtain ⟨budget, rfl⟩ : ∃ more, budget = more + 1 := ⟨budget - 1, by omega⟩
    have value : readValue selection budget depth place
        (write v ++ ',' :: (write w ++ writeItems items ++ rest)) =
          .ok (v, ',' :: (write w ++ writeItems items ++ rest)) := by
      refine first budget depth _ (by omega) ?_ (endsNumber_cons (by decide) _)
      exact Nat.le_trans (Nat.le_max_left ..) shallow
    have split : write v ++ writeItems (w :: items) ++ rest =
        write v ++ ',' :: (write w ++ writeItems items ++ rest) := by simp [writeItems]
    rw [split, readItems_more before value, ih (v :: before) others (by simp; omega)
      (Nat.le_trans (Nat.le_max_right ..) shallow), List.reverse_cons, List.append_assoc]
    rfl

theorem readEntries_write {entries : List (String × Json)} {key : String} {v : Json}
    {inner : String → Place} (before : List (String × Json)) (rest : List Char)
    (counts : ∀ e ∈ (key, v) :: entries, selection.entry place e.1 = some (inner e.1))
    (each : ∀ e ∈ (key, v) :: entries, ReadsBack selection (inner e.1) e.2)
    (enough : (writeString key ++ ':' :: (write v ++ writeEntries entries)).length ≤ budget)
    (shallow : depthEntries ((key, v) :: entries) ≤ depth) :
    readEntries selection budget depth place before
        (writeString key ++ ':' :: (write v ++ writeEntries entries) ++ rest) =
      .ok (before.reverse ++ (key, v) :: entries, rest) := by
  induction entries generalizing key v before budget with
  | nil =>
    obtain ⟨here, _⟩ := List.forall_mem_cons.mp counts
    have first : ReadsBack selection (inner key) v := each _ List.mem_cons_self
    have quoted := length_writeString key
    simp only [writeEntries, List.length_append, List.length_cons, List.length_nil] at enough
    obtain ⟨budget, rfl⟩ : ∃ more, budget = more + 1 := ⟨budget - 1, by omega⟩
    have short : key.toList.length < budget := by omega
    have name := readChars_writeString key (':' :: (write v ++ '\x7d' :: rest)) short
    have value : readValue selection budget depth (inner key) (write v ++ '\x7d' :: rest) =
        .ok (v, '\x7d' :: rest) := by
      refine first budget depth _ (by omega) ?_ (endsNumber_cons (by decide) rest)
      exact Nat.le_trans (Nat.le_max_left ..) shallow
    have split : writeString key ++ ':' :: (write v ++ writeEntries []) ++ rest =
        writeString key ++ ':' :: (write v ++ '\x7d' :: rest) := by simp [writeEntries]
    rw [split, writeString_append, readEntries_last before name here value]
    simp
  | cons e entries ih =>
    obtain ⟨key', w⟩ := e
    obtain ⟨here, counts⟩ := List.forall_mem_cons.mp counts
    obtain ⟨first, others⟩ := List.forall_mem_cons.mp each
    have first : ReadsBack selection (inner key) v := first
    have quoted := length_writeString key
    simp only [writeEntries, List.length_append, List.length_cons] at enough
    obtain ⟨budget, rfl⟩ : ∃ more, budget = more + 1 := ⟨budget - 1, by omega⟩
    let later := writeString key' ++ ':' :: (write w ++ writeEntries entries) ++ rest
    have short : key.toList.length < budget := by omega
    have name := readChars_writeString key (':' :: (write v ++ ',' :: later)) short
    have value : readValue selection budget depth (inner key) (write v ++ ',' :: later) =
        .ok (v, ',' :: later) := by
      refine first budget depth _ (by omega) ?_ (endsNumber_cons (by decide) later)
      exact Nat.le_trans (Nat.le_max_left ..) shallow
    have split : writeString key ++ ':' :: (write v ++ writeEntries ((key', w) :: entries)) ++ rest =
        writeString key ++ ':' :: (write v ++ ',' :: later) := by simp [writeEntries, later]
    rw [split, writeString_append, readEntries_more before name here value,
      ih ((key, v) :: before) counts others (by simp; omega)
        (Nat.le_trans (Nat.le_max_right ..) shallow), List.reverse_cons, List.append_assoc]
    rfl

/-- No written value starts like a blank or like the end of an array. -/
theorem write_head {v : Json} (whole : v.doubleFree = true) :
    ∃ c cs, write v = c :: cs ∧ isBlank c = false ∧ c ≠ ']' := by
  cases v with
  | null => exact ⟨_, _, rfl, by decide, by decide⟩
  | bool value => cases value <;> exact ⟨_, _, rfl, by decide, by decide⟩
  | number n =>
    cases n with
    | natural n fits =>
      obtain ⟨c, cs, written, decimal⟩ := decimalText_head n
      refine ⟨c, cs, written, isBlank_of_isDigit decimal, ?_⟩
      rintro rfl
      cases decimal
    | negative n nonzero fits => exact ⟨_, _, rfl, by decide, by decide⟩
    | double => cases whole
  | string s => exact ⟨_, _, rfl, by decide, by decide⟩
  | array items => cases items <;> exact ⟨_, _, rfl, by decide, by decide⟩
  | object entries => cases entries <;> exact ⟨_, _, rfl, by decide, by decide⟩

theorem readsBack_scalar {v : Json} (whole : v.doubleFree = true) (noArray : v.isArray = false)
    (noObject : v.isObject = false) : ReadsBack selection place v := by
  intro budget depth rest enough _ stop
  have filled : 0 < (write v).length := by
    obtain ⟨c, cs, written, _⟩ := write_head whole
    exact written ▸ Nat.succ_pos _
  obtain ⟨budget, rfl⟩ : ∃ less, budget = less + 1 := ⟨budget - 1, by omega⟩
  cases v with
  | null => rfl
  | bool value => cases value <;> rfl
  | number n => exact readValue_number whole stop
  | string s =>
    have quoted := length_writeString s
    have written : (writeString s).length ≤ budget + 1 := enough
    exact readValue_string s rest (by omega)
  | array => cases noArray
  | object => cases noObject

theorem readsBack_array {items : List Json}
    (each : ∀ v ∈ items, v.doubleFree = true ∧ ReadsBack selection (selection.item place) v) :
    ReadsBack selection place (.array items) := by
  intro budget depth rest enough shallow _
  rw [Json.depth] at shallow
  obtain ⟨depth, rfl⟩ : ∃ less, depth = less + 1 := ⟨depth - 1, by omega⟩
  match items with
  | [] =>
    have brackets : 2 ≤ budget := enough
    obtain ⟨budget, rfl⟩ : ∃ less, budget = less + 1 := ⟨budget - 1, by omega⟩
    rfl
  | v :: items =>
    obtain ⟨c, cs, head, dark, filled⟩ := write_head (each v List.mem_cons_self).1
    rw [write, List.length_cons] at enough
    obtain ⟨budget, rfl⟩ : ∃ less, budget = less + 1 := ⟨budget - 1, by omega⟩
    have body := readItems_write [] rest (fun w member => (each w member).2)
      (Nat.le_of_succ_le_succ enough) (Nat.le_of_succ_le_succ shallow)
    rw [write, List.cons_append, head, List.cons_append, List.cons_append,
      readValue_array dark filled, ← List.cons_append, ← List.cons_append, ← head, body]
    rfl

theorem readsBack_object {entries : List (String × Json)} {inner : String → Place}
    (counts : ∀ e ∈ entries, selection.entry place e.1 = some (inner e.1))
    (each : ∀ e ∈ entries, ReadsBack selection (inner e.1) e.2) :
    ReadsBack selection place (.object entries) := by
  intro budget depth rest enough shallow _
  rw [Json.depth] at shallow
  obtain ⟨depth, rfl⟩ : ∃ less, depth = less + 1 := ⟨depth - 1, by omega⟩
  match entries with
  | [] =>
    have braces : 2 ≤ budget := enough
    obtain ⟨budget, rfl⟩ : ∃ less, budget = less + 1 := ⟨budget - 1, by omega⟩
    rfl
  | (key, v) :: entries =>
    rw [write, List.length_cons] at enough
    obtain ⟨budget, rfl⟩ : ∃ less, budget = less + 1 := ⟨budget - 1, by omega⟩
    have body := readEntries_write [] rest counts each (Nat.le_of_succ_le_succ enough)
      (Nat.le_of_succ_le_succ shallow)
    rw [write, List.cons_append]
    rw [List.append_assoc, writeString_append] at body ⊢
    rw [readValue_object, body]
    rfl

/-- Reading a written value gives it back, and leaves what stands behind it. -/
theorem readsBack_of_selects {v : Json} (whole : v.doubleFree = true)
    (counts : Selects selection place v) : ReadsBack selection place v := by
  induction counts with
  | scalar noArray noObject => exact readsBack_scalar whole noArray noObject
  | array _ ih =>
    rw [doubleFree, doubleFreeItems_iff] at whole
    exact readsBack_array fun v member => ⟨whole v member, ih v member (whole v member)⟩
  | object inner names _ ih =>
    rw [doubleFree, doubleFreeEntries_iff] at whole
    exact readsBack_object names fun e member => ih e member (whole e member)

theorem readSelected_text {v : Json} (whole : v.doubleFree = true)
    (counts : Selects selection place v) (shallow : v.depth ≤ maxDepth) :
    readSelected selection place v.text = .ok v := by
  have back := readsBack_of_selects whole counts (2 * (write v).length + 2) maxDepth [] (by omega)
    shallow endsNumber_nil
  rw [List.append_nil] at back
  simp only [readSelected, text, String.toList_ofList, back]
  rfl

end

/-- A value without doubles reads back from its text, unless it nests deeper than the reader goes. -/
theorem parse_text {v : Json} (settled : v.Settled) (whole : v.doubleFree = true)
    (shallow : v.depth ≤ maxDepth) : parse v.text = .ok v := by
  have counts : Selects Selection.everything () v :=
    selects_of_constant (fun _ => rfl) rfl v
  rw [parse, read, readSelected_text whole counts shallow, Except.map, settle_of_settled settled]

end DocQuery.Json
