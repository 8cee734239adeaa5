import DocQuery.Proofs.Scan.Composition
import DocQuery.Proofs.Text.Written
import Mathlib.Logic.Relation

/-!
# The layout of lines

A scan sees of a line what reading it gives, and no white space around the text of a line is part of
that (`readLine_pad`), nor is the carriage return of a line end (`readLine_append_return`). So how the
lines of an input end and are indented has no part in its report, and blank lines have none but for the
number of a bad line (`report_of_layout`).
-/

namespace DocQuery.Scan

/-- White space that does not end a line. -/
def Blank (s : String) : Prop := ∀ c ∈ s.toList, isWhiteSpace c = true ∧ c ≠ '\n'

/-- The same failure of an input that has more lines put in behind some of its lines. -/
def Failure.moved (behind lines : Nat) (failure : Failure) : Failure :=
  if failure.line ≤ behind then failure else failure.later lines

/-- What is written and warned of, and the counts or the problem of a failure without its line. -/
def Report.unplaced (report : Report) : List UInt8 × Option Nat × Except Problem Summary :=
  (report.output, report.warning, report.result.mapError Failure.problem)

/-- Inputs that differ in the layout of one line. -/
inductive Relaid : List UInt8 → List UInt8 → Prop
  /-- A carriage return before a line feed. -/
  | returned (before after : List UInt8) :
      Relaid (before ++ lineFeed :: after) (before ++ carriageReturn :: lineFeed :: after)
  /-- A line feed after the last line. -/
  | ended (input : List UInt8) : Relaid input (input ++ [lineFeed])
  /-- White space before and after the text of a line, up to its line feed. -/
  | padded {before after : List UInt8} {text left right : String} : WholeLines before →
      lineFeed ∉ bytesOf text → (after = [] ∨ after.head? = some lineFeed) → Blank left →
        Blank right →
          Relaid (before ++ bytesOf text ++ after) (before ++ bytesOf (left ++ text ++ right) ++ after)

/-- Inputs that differ in the layout of one line, or in blank lines at one place. -/
inductive Respaced : List UInt8 → List UInt8 → Prop
  | relaid {input other : List UInt8} : Relaid input other → Respaced input other
  | blanks {before : List UInt8} {blanks : List String} (after : List UInt8) : WholeLines before →
      (∀ s ∈ blanks, Blank s) → Respaced (before ++ after) (before ++ (writeLines blanks ++ after))

section

variable {strict : Bool} {p : Predicate} {options : Options} {number : Nat}
variable {line piece other before after : List UInt8} {s : String}

theorem Blank.unbroken (blank : Blank s) : lineFeed ∉ bytesOf s :=
  fun broken => (blank _ (lineFeed_mem_bytesOf_iff.mp broken)).2 rfl

theorem blank_empty : Blank "" := nofun

theorem blank_return : Blank "\r" := by simp [Blank, isWhiteSpace]

/-! ### One line -/

theorem readLine_congr {t : String} (same : trim s = trim t) :
    readLine (bytesOf s) = readLine (bytesOf t) := by
  unfold readLine
  rw [decode?_eq_some_iff.mpr rfl, decode?_eq_some_iff.mpr rfl]
  dsimp only
  rw [same]

theorem readLine_pad {left right : String} (blank : Blank left) (blank' : Blank right) (s : String) :
    readLine (bytesOf (left ++ s ++ right)) = readLine (bytesOf s) :=
  readLine_congr (trim_pad (fun c member => (blank c member).1) (fun c member => (blank' c member).1) s)

theorem readLine_of_blank (blank : Blank s) : readLine (bytesOf s) = .ok none := by
  have padded := readLine_pad blank blank_empty ""
  rw [String.append_empty, String.append_empty] at padded
  rw [padded]
  rfl

/-- Bytes that are no text are none before a carriage return either. -/
theorem readLine_append_return (line : List UInt8) :
    readLine (line ++ [carriageReturn]) = readLine line := by
  cases decoded : decode? line with
  | some s =>
    obtain rfl := decode?_eq_some_iff.mp decoded
    have split : bytesOf s ++ [carriageReturn] = bytesOf ("" ++ s ++ "\r") := by
      rw [String.empty_append, bytesOf_append]
      rfl
    rw [split, readLine_pad blank_empty blank_return]
  | none =>
    have undecoded : decode? (line ++ [carriageReturn]) = none := by
      refine Option.eq_none_iff_forall_ne_some.mpr fun s found => ?_
      obtain ⟨t, _, encoded⟩ := exists_of_bytesOf_eq_append_return (decode?_eq_some_iff.mp found)
      rw [decode?_eq_some_iff.mpr encoded] at decoded
      cases decoded
    rw [readLine, readLine, decoded, undecoded]

theorem readLine_dropReturn (line : List UInt8) : readLine (dropReturn line) = readLine line := by
  unfold dropReturn
  split
  · rename_i returned
    obtain ⟨front, rfl⟩ := List.getLast?_eq_some_iff.mp returned
    rw [List.dropLast_concat, readLine_append_return]
  · rfl

theorem walk_cons_congr (same : readLine line = readLine other) (rest : List (List UInt8)) :
    walk strict p number (line :: rest) = walk strict p number (other :: rest) := by
  rw [walk, walk, same]

/-! ### One line among others -/

theorem walk_piece (unbroken : lineFeed ∉ piece) (after : List UInt8) :
    walk strict p number (splitLines (piece ++ lineFeed :: after)) =
      walk strict p number (piece :: splitLines after) := by
  rw [splitLines_cons unbroken]
  exact walk_cons_congr (readLine_dropReturn piece) _

theorem walk_last (unbroken : lineFeed ∉ piece) :
    walk strict p number (splitLines piece) = walk strict p number [piece] := by
  rw [splitLines_of_not_mem unbroken]
  split
  · rename_i empty
    rw [empty]
    rfl
  · rfl

theorem walk_line_congr (unbroken : lineFeed ∉ piece) (unbroken' : lineFeed ∉ other)
    (same : readLine piece = readLine other) (closed : after = [] ∨ after.head? = some lineFeed) :
    walk strict p number (splitLines (piece ++ after)) =
      walk strict p number (splitLines (other ++ after)) := by
  rcases closed with rfl | first
  · rw [List.append_nil, List.append_nil, walk_last unbroken, walk_last unbroken']
    exact walk_cons_congr same []
  · obtain ⟨rest, rfl⟩ := List.head?_eq_some_iff.mp first
    rw [walk_piece unbroken, walk_piece unbroken']
    exact walk_cons_congr same _

theorem run_line_congr (whole : WholeLines before) (unbroken : lineFeed ∉ piece)
    (unbroken' : lineFeed ∉ other) (same : readLine piece = readLine other)
    (closed : after = [] ∨ after.head? = some lineFeed) :
    run options p (before ++ (piece ++ after)) = run options p (before ++ (other ++ after)) := by
  rw [run_eq_report, run_eq_report, walk_splitLines_append whole, walk_splitLines_append whole,
    walk_line_congr unbroken unbroken' same closed]

theorem run_ended (options : Options) (p : Predicate) (input : List UInt8) :
    run options p (input ++ [lineFeed]) = run options p input := by
  obtain ⟨whole, piece, rfl, ended, unbroken⟩ := exists_whole_append input
  rw [List.append_assoc, run_eq_report, run_eq_report, walk_splitLines_append ended,
    walk_splitLines_append ended, walk_piece unbroken, walk_last unbroken]
  rfl

theorem run_relaid {input other : List UInt8} (relaid : Relaid input other) :
    run options p other = run options p input := by
  cases relaid with
  | returned before after =>
    obtain ⟨whole, piece, rfl, ended, unbroken⟩ := exists_whole_append before
    have unbroken' : lineFeed ∉ piece ++ [carriageReturn] :=
      fun broken => (List.mem_append.mp broken).elim unbroken (by decide)
    have same : run options p (whole ++ (piece ++ [carriageReturn] ++ lineFeed :: after)) =
        run options p (whole ++ (piece ++ lineFeed :: after)) :=
      run_line_congr ended unbroken' unbroken (readLine_append_return piece) (.inr rfl)
    simpa only [List.append_assoc, List.singleton_append] using same
  | ended => exact run_ended options p input
  | padded whole unbroken closed blank blank' =>
    rw [List.append_assoc, List.append_assoc]
    refine run_line_congr whole ?_ unbroken (readLine_pad blank blank' _) closed
    rw [bytesOf_append, bytesOf_append]
    intro broken
    rcases List.mem_append.mp broken with broken | broken
    · exact (List.mem_append.mp broken).elim blank.unbroken unbroken
    · exact blank'.unbroken broken

/-! ### Blank lines -/

theorem walk_blanks {blanks : List String} (blank : ∀ s ∈ blanks, Blank s) (after : List UInt8) :
    walk strict p number (splitLines (writeLines blanks ++ after)) =
      walk strict p (number + blanks.length) (splitLines after) := by
  induction blanks generalizing number with
  | nil => rfl
  | cons s rest ih =>
    obtain ⟨first, others⟩ := List.forall_mem_cons.mp blank
    have next : number + 1 + rest.length = number + (s :: rest).length := by
      rw [List.length_cons]
      omega
    rw [writeLines_cons, List.append_assoc, List.cons_append, walk_piece first.unbroken, walk,
      readLine_of_blank first, ← next]
    exact ih others

end

/-- Lines that stand between two traces move what comes after them, and change nothing else. -/
theorem Trace.report_spread {t u : Trace} {n : Nat} (b : Nat) (countOnly : Bool)
    (early : ∀ failure, t.failure = some failure → failure.line ≤ n)
    (late : ∀ failure, u.failure = some failure → 1 ≤ failure.line) :
    let original := (t.andThen (u.later n)).report countOnly
    let spread := (t.andThen ((u.later b).later n)).report countOnly
    spread.output = original.output ∧ spread.warning = original.warning ∧
      spread.result = original.result.mapError (·.moved n b) := by
  dsimp only
  cases first : t.failure with
  | some failure =>
    rw [andThen_of_failure first, andThen_of_failure first, report_of_failure first]
    exact ⟨rfl, rfl, congrArg Except.error (if_pos (early failure first)).symm⟩
  | none =>
    cases second : u.failure with
    | none =>
      have second' : (u.later b).failure = none := by rw [later, second, Option.map_none]
      rw [report_andThen_of_none first second', report_andThen_of_none first second, output_later]
      exact ⟨rfl, rfl, rfl⟩
    | some failure =>
      have second' : (u.later b).failure = some (failure.later b) := by
        rw [later, second, Option.map_some]
      have behind : ¬(failure.later n).line ≤ n := by
        have atLeast := late failure second
        dsimp only [Failure.later]
        omega
      have same : (failure.later b).later n = (failure.later n).later b := by
        simp only [Failure.later, Nat.add_right_comm]
      rw [report_andThen_of_failure first second', report_andThen_of_failure first second,
        output_later]
      exact ⟨rfl, rfl, congrArg Except.error (same.trans (if_neg behind).symm)⟩

/-! ### Whole scans -/

theorem run_blanks (options : Options) (p : Predicate) {before : List UInt8} {blanks : List String}
    (whole : WholeLines before) (blank : ∀ s ∈ blanks, Blank s) (after : List UInt8) :
    let original := run options p (before ++ after)
    let spread := run options p (before ++ (writeLines blanks ++ after))
    spread.output = original.output ∧ spread.warning = original.warning ∧
      spread.result = original.result.mapError (·.moved (splitLines before).length blanks.length) := by
  dsimp only
  rw [run_eq_report, run_eq_report, walk_splitLines_append whole, walk_splitLines_append whole,
    walk_blanks blank, walk_later]
  refine Trace.report_spread _ _ (fun failure failed => ?_) fun failure failed => (line_of_walk failed).1
  have bounds := line_of_walk failed
  omega

theorem problem_moved (behind lines : Nat) (failure : Failure) :
    (failure.moved behind lines).problem = failure.problem := by
  unfold Failure.moved
  split <;> rfl

theorem run_respaced {options : Options} {p : Predicate} {input other : List UInt8}
    (respaced : Respaced input other) :
    (run options p input).unplaced = (run options p other).unplaced := by
  cases respaced with
  | relaid relaid => rw [run_relaid relaid]
  | @blanks before blanks after whole blank =>
    obtain ⟨output, warning, result⟩ := run_blanks options p whole blank after
    rw [Report.unplaced, Report.unplaced, output, warning, result]
    cases (run options p (before ++ after)).result with
    | ok summary => rfl
    | error failure =>
      have same := problem_moved (splitLines before).length blanks.length failure
      exact congrArg (fun problem => (_, _, Except.error problem)) same.symm

theorem eq_of_eqvGen {α β : Type} {r : α → α → Prop} {a b : α} (v : α → β)
    (agrees : ∀ a b, r a b → v a = v b) (joined : Relation.EqvGen r a b) : v a = v b :=
  (eq_equivalence.comap v).eqvGen_iff.mp (joined.mono agrees)

/-- Whatever is changed in how the lines of an input end, whether the last one ends at all, and what
white space stands around their texts, the report is the same. Blank lines that are put in or taken
out, at any places, change at most the line of a failure: those put in at one place make it so many
lines later if it is behind them. -/
theorem report_of_layout (options : Options) (q : Json) :
    let scan := run options (Query.compile q)
    (∀ input other, Relation.EqvGen Relaid input other → scan input = scan other) ∧
      (∀ input other, Relation.EqvGen Respaced input other →
        (scan input).unplaced = (scan other).unplaced) ∧
      ∀ before after blanks, WholeLines before → (∀ s ∈ blanks, Blank s) →
        (scan (before ++ (writeLines blanks ++ after))).result =
          (scan (before ++ after)).result.mapError
            (·.moved (splitLines before).length blanks.length) := by
  intro scan
  refine ⟨fun input other relaid => ?_, fun input other respaced => ?_,
    fun before after blanks whole blank => (run_blanks _ _ whole blank after).2.2⟩
  · exact eq_of_eqvGen scan (fun _ _ step => (run_relaid step).symm) relaid
  · exact eq_of_eqvGen (fun input => (scan input).unplaced) (fun _ _ => run_respaced) respaced

/-- A match before a line that is no document, and the same with other line ends and white space around
the second line. Two blank lines between them make the second line the fourth. -/
theorem report_of_layout_second :
    let q : Json := .object [("a", .object [("$gt", .number (.natural 1 (by decide)))])]
    let line := bytesOf "\x7b\"a\":2\x7d"
    let input := line ++ lineFeed :: bytesOf "none"
    let other := line ++ [carriageReturn, lineFeed] ++ bytesOf ("\u00a0" ++ "none" ++ "\t") ++ [lineFeed]
    let spread := line ++ [lineFeed] ++ (writeLines ["", " \r"] ++ bytesOf "none")
    let scan := run ⟨false, true⟩ (Query.compile q)
    Relation.EqvGen Relaid input other ∧ scan input = scan other ∧
      Relation.EqvGen Respaced input spread ∧ (scan input).unplaced = (scan spread).unplaced ∧
        ∃ problem, (scan input).result = .error ⟨2, problem⟩ ∧
          (scan spread).result = .error ⟨4, problem⟩ := by
  intro q line input other spread scan
  have blank : ∀ s ∈ ["", " \r"], Blank s := by simp [Blank, isWhiteSpace]
  have blank' : Blank "\u00a0" ∧ Blank "\t" := by simp [Blank, isWhiteSpace]
  have whole : WholeLines (line ++ [lineFeed]) := .inr List.getLast?_concat
  have whole' : WholeLines (line ++ [carriageReturn, lineFeed]) := .inr (by simp)
  have split : input = line ++ [lineFeed] ++ bytesOf "none" := by simp [input]
  have relaid : Relation.EqvGen Relaid input other := by
    have returned : Relaid input (line ++ [carriageReturn, lineFeed] ++ bytesOf "none") := by
      simpa [input] using Relaid.returned line (bytesOf "none")
    have padded : Relaid (line ++ [carriageReturn, lineFeed] ++ bytesOf "none" ++ [lineFeed]) other :=
      .padded whole' (by decide +kernel) (.inr rfl) blank'.1 blank'.2
    exact .trans _ _ _ (.rel _ _ returned) (.trans _ _ _ (.rel _ _ (.ended _)) (.rel _ _ padded))
  have respaced : Relation.EqvGen Respaced input spread := by
    rw [split]
    exact .rel _ _ (.blanks _ whole blank)
  obtain ⟨same, unplaced, moved⟩ := report_of_layout ⟨false, true⟩ q
  have second : (scan input).failingLine? = some 2 := by decide +kernel
  obtain ⟨⟨number, problem⟩, failed, rfl⟩ := Report.failingLine?_eq_some_iff.mp second
  have lines : (splitLines (line ++ [lineFeed])).length = 1 := by decide +kernel
  have fourth := moved (line ++ [lineFeed]) (bytesOf "none") _ whole blank
  rw [← split, lines] at fourth
  exact ⟨relaid, same _ _ relaid, respaced, unplaced _ _ respaced, problem, failed,
    fourth.trans (congrArg (Except.mapError _) failed)⟩

end DocQuery.Scan
