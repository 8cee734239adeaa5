import DocQuery.Proofs.Scan.Composition
import DocQuery.Proofs.Text.Written

/-!
# Counting and printing

A scan keeps as many texts as it counts matches, and each of them fits on a line: it is not empty,
has white space at neither end, and no line feed in it (`tidy_walk`). So the number that a counting
scan writes is the number of lines that a printing scan of the same input writes
(`printing_and_counting`).
-/

namespace DocQuery.Scan

structure LineText (text : String) : Prop where
  filled : text ≠ ""
  unbroken : lineFeed ∉ bytesOf text
  starts : ∀ c ∈ text.toList.head?, isWhiteSpace c = false
  stops : ∀ c ∈ text.toList.getLast?, isWhiteSpace c = false

/-- Every match that was counted was kept, and its text fits on a line. -/
structure Tidy (t : Trace) : Prop where
  counted : t.summary.matched = t.kept.length
  texts : ∀ text ∈ t.kept, LineText text

section

variable {p : Predicate} {line : List UInt8} {d : Document} {t : Trace} {texts : List String}

/-! ### Kept texts -/

theorem lineText_of_readLine (unbroken : lineFeed ∉ line) (read : readLine line = .ok (some d)) :
    LineText d.text := by
  obtain ⟨s, decoded, ⟨_, wrong⟩ | ⟨filled, v, _, found⟩⟩ := readLine_ok read
  · cases wrong
  · obtain rfl := Option.some.inj found
    obtain rfl := decode?_eq_some_iff.mp decoded
    obtain ⟨_, _, _, _, _, starts, stops⟩ := trimChars_eq_iff.mp (rfl : trimChars s.toList = _)
    rw [← String.toList_ofList (l := trimChars s.toList)] at starts stops
    exact ⟨filled, mt mem_of_mem_trim unbroken, starts, stops⟩

theorem tidy_advance (unbroken : lineFeed ∉ line) (tidy : Tidy t) : Tidy (advance p line t) := by
  obtain ⟨counted, texts⟩ := tidy
  unfold advance
  split
  · rename_i d read
    split
    · have text : LineText d.text := lineText_of_readLine unbroken read
      refine ⟨?_, List.forall_mem_cons.mpr ⟨text, texts⟩⟩
      rw [Trace.keep, List.length_cons, counted]
    · exact ⟨counted, texts⟩
    · exact ⟨counted, texts⟩
  · exact ⟨counted, texts⟩

theorem tidy_walk {lines : List (List UInt8)} (unbroken : ∀ line ∈ lines, lineFeed ∉ line)
    (strict : Bool) (p : Predicate) (number : Nat) : Tidy (walk strict p number lines) := by
  induction lines generalizing number with
  | nil => exact ⟨rfl, nofun⟩
  | cons line rest ih =>
    obtain ⟨first, others⟩ := List.forall_mem_cons.mp unbroken
    rcases bad_or_good strict p line with ⟨problem, bad⟩ | good
    · rw [walk_bad bad]
      exact ⟨rfl, nofun⟩
    · rw [walk_good good]
      exact tidy_advance first (ih others _)

/-! ### Written lines -/

theorem splitOn_writeLines (unbroken : ∀ text ∈ texts, lineFeed ∉ bytesOf text) :
    (writeLines texts).splitOn lineFeed = texts.map bytesOf ++ [[]] := by
  induction texts with
  | nil => rfl
  | cons text rest ih =>
    obtain ⟨first, others⟩ := List.forall_mem_cons.mp unbroken
    rw [writeLines_cons, List.splitOn_append_cons_self_of_not_mem first, ih others, List.map_cons,
      List.cons_append]

theorem count_writeLines (unbroken : ∀ text ∈ texts, lineFeed ∉ bytesOf text) :
    (writeLines texts).count lineFeed = texts.length := by
  induction texts with
  | nil => rfl
  | cons text rest ih =>
    obtain ⟨first, others⟩ := List.forall_mem_cons.mp unbroken
    rw [writeLines_cons, List.count_append, List.count_eq_zero_of_not_mem first,
      List.count_cons_self, ih others, Nat.zero_add, List.length_cons]

end

/-! ### Whole scans -/

/-- Counting gives the same counts or the same failure as printing. When they succeed, the number
written is the number of line feeds printed. What is printed, whether they succeed or not, are lines
that each end with a line feed and hold a text without white space at its ends. -/
theorem printing_and_counting (q : Json) (strict : Bool) (input : List UInt8) :
    let printing := run ⟨false, strict⟩ (Query.compile q) input
    let counting := run ⟨true, strict⟩ (Query.compile q) input
    counting.result = printing.result ∧
      (∀ summary, printing.result = .ok summary →
        counting.output = bytesOf (toString (printing.output.count lineFeed)) ++ [lineFeed]) ∧
      (∀ failure, printing.result = .error failure → counting.output = []) ∧
      ∃ lines : List String, printing.output.splitOn lineFeed = lines.map bytesOf ++ [[]] ∧
        ∀ line ∈ lines, LineText line := by
  intro printing counting
  let t := walk strict (Query.compile q) 1 (splitLines input)
  have printed : printing = t.report false := run_eq_report ..
  have counted : counting = t.report true := run_eq_report ..
  have tidy : Tidy t := tidy_walk (fun _ member => lineFeed_not_mem member) ..
  have unbroken : ∀ text ∈ t.kept, lineFeed ∉ bytesOf text :=
    fun text member => (tidy.texts text member).unbroken
  rw [printed, counted, Trace.output_of_printing]
  refine ⟨?_, fun summary completed => ?_, fun failure failed => ?_, t.kept,
    splitOn_writeLines unbroken, tidy.texts⟩
  · unfold Trace.report
    cases t.failure <;> rfl
  · obtain ⟨unfailed, rfl⟩ := Trace.result_ok_iff.mp completed
    rw [Trace.report_of_none unfailed, count_writeLines unbroken, ← tidy.counted]
    simp [writeLines]
  · rw [Trace.report_of_failure (Trace.result_error_iff.mp failed)]
    rfl

/-- Two matches between blanks of several kinds, and a document that does not match. With a line after
them that is no document the same lines are printed, and no number. -/
theorem printing_and_counting_two :
    let q : Json := .object [("a", .object [("$gt", .number (.natural 1 (by decide)))])]
    let input := bytesOf "\t\x7b\"a\":2\x7d\u2003\r\n\x7b\"a\":0\x7d\n\n\u0085\x7b\"a\":3\x7d\n"
    let scan (countOnly : Bool) := run ⟨countOnly, false⟩ (Query.compile q)
    (scan false input).result = .ok ⟨3, 2, 0⟩ ∧ (scan true input).result = .ok ⟨3, 2, 0⟩ ∧
      (scan true input).output = bytesOf "2\n" ∧ LineText "\x7b\"a\":3\x7d" ∧
      ∃ failure, (scan true (input ++ bytesOf "none")).result = .error failure ∧
        (scan true (input ++ bytesOf "none")).output = [] := by
  intro q input scan
  have counted : (scan false input).result.toOption = some ⟨3, 2, 0⟩ := by decide +kernel
  have completed : (scan false input).result = .ok ⟨3, 2, 0⟩ := ok_of_toOption counted
  have written : (scan false input).output.count lineFeed = 2 := by decide +kernel
  have pieces : (scan false input).output.splitOn lineFeed =
      [bytesOf "\x7b\"a\":2\x7d", bytesOf "\x7b\"a\":3\x7d"] ++ [[]] := by decide +kernel
  obtain ⟨same, number, _, lines, split, texts⟩ := printing_and_counting q false input
  have number := number _ completed
  rw [written] at number
  have text : LineText "\x7b\"a\":3\x7d" := by
    have mapped := List.append_cancel_right (pieces.symm.trans split)
    have member : bytesOf "\x7b\"a\":3\x7d" ∈ lines.map bytesOf := mapped ▸ by simp
    obtain ⟨line, member, encoded⟩ := List.mem_map.mp member
    exact bytesOf_injective encoded ▸ texts line member
  have fifth : (scan false (input ++ bytesOf "none")).failingLine? = some 5 := by decide +kernel
  obtain ⟨failure, failed, _⟩ := Report.failingLine?_eq_some_iff.mp fifth
  obtain ⟨same', _, silent, _⟩ := printing_and_counting q false (input ++ bytesOf "none")
  exact ⟨completed, same.trans completed, number.trans (by decide +kernel), text, failure,
    same'.trans failed, silent _ failed⟩

end DocQuery.Scan
