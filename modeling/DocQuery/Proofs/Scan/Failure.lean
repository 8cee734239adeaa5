import DocQuery.Command.Run
import DocQuery.Proofs.Scan.Completion

/-!
# Failing scans

A scan fails exactly if one of its lines is bad, and then at the first bad line (`run_failed`). What
it has written by then is what a scan of the lines before it writes, and the lines after it are never
looked at.
-/

namespace DocQuery.Scan

/-- What is wrong with a line: it is no text, its text is neither blank nor a document, or, under
`strict`, its document cannot be evaluated. -/
inductive BadLine (strict : Bool) (p : Predicate) (line : List UInt8) : Problem → Prop
  | unreadable : (∀ s, bytesOf s ≠ line) → BadLine strict p line .unreadable
  | unparsable {s : String} {cause : ReadError} : bytesOf s = line → trim s ≠ "" →
      Json.parse (trim s) = .error cause → BadLine strict p line (.unparsable cause)
  | unevaluable {s : String} {v : Json} {cause : Fault} : bytesOf s = line → trim s ≠ "" →
      Json.parse (trim s) = .ok v → strict = true → p.evaluate v = .error cause →
        BadLine strict p line (.unevaluable cause)

def GoodLine (strict : Bool) (p : Predicate) (line : List UInt8) : Prop :=
  ∀ problem, ¬BadLine strict p line problem

/-- What a line that is not bad adds to the trace of the lines after it. -/
def advance (p : Predicate) (line : List UInt8) (t : Trace) : Trace :=
  match readLine line with
  | .ok (some document) =>
    match p.evaluate document.value with
    | .ok true => t.keep document.text
    | .ok false => t.skip
    | .error _ => t.fault
  | _ => t

section

variable {strict : Bool} {p : Predicate} {line : List UInt8} {number : Nat}

/-! ### One line -/

theorem badLine_of_readLine {problem : Problem} (read : readLine line = .error problem) :
    BadLine strict p line problem := by
  unfold readLine at read
  split at read
  · rename_i undecoded
    obtain rfl := Except.error.inj read
    refine .unreadable fun s encoded => ?_
    rw [decode?_eq_some_iff.mpr encoded] at undecoded
    cases undecoded
  · rename_i s decoded
    have encoded := decode?_eq_some_iff.mp decoded
    dsimp only at read
    split at read
    · cases read
    · rename_i filled
      split at read
      · rename_i cause unparsed
        obtain rfl := Except.error.inj read
        exact .unparsable encoded (mt String.isEmpty_iff.mpr filled) unparsed
      · cases read

theorem walk_bad {problem : Problem} (bad : BadLine strict p line problem)
    (rest : List (List UInt8)) : walk strict p number (line :: rest) = .failed number problem := by
  unfold walk
  cases bad with
  | unreadable undecoded =>
    have read : readLine line = .error .unreadable := by
      unfold readLine
      split
      · rfl
      · rename_i s decoded
        exact absurd (decode?_eq_some_iff.mp decoded) (undecoded s)
    rw [read]
  | unparsable encoded filled unparsed => rw [← encoded, readLine_of_error filled unparsed]
  | unevaluable encoded filled parsed failing faulted =>
    rw [← encoded, readLine_of_ok filled parsed]
    simp only [faulted, failing, if_true]

theorem walk_good (good : GoodLine strict p line) (rest : List (List UInt8)) :
    walk strict p number (line :: rest) = advance p line (walk strict p (number + 1) rest) := by
  unfold advance
  rw [walk]
  cases read : readLine line with
  | error problem => exact absurd (badLine_of_readLine read) (good problem)
  | ok document? =>
    cases document? with
    | none => rfl
    | some d =>
      dsimp only
      cases verdict : p.evaluate d.value with
      | ok answer => cases answer <;> rfl
      | error cause =>
        obtain ⟨s, decoded, ⟨_, wrong⟩ | ⟨filled, v, parsed, found⟩⟩ := readLine_ok read
        · cases wrong
        · obtain rfl := Option.some.inj found
          have lenient : ¬strict = true := fun failing =>
            good _ (.unevaluable (decode?_eq_some_iff.mp decoded) filled parsed failing verdict)
          dsimp only
          rw [if_neg lenient]

/-! ### Lines before the first bad one -/

theorem advance_failure (t : Trace) : (advance p line t).failure = t.failure := by
  unfold advance
  split
  · split <;> rfl
  · rfl

theorem advance_kept {t u : Trace} (same : t.kept = u.kept) :
    (advance p line t).kept = (advance p line u).kept := by
  unfold advance
  split
  · split
    · exact congrArg (List.cons _) same
    · exact same
    · exact same
  · exact same

theorem foldr_failure (lines : List (List UInt8)) (t : Trace) :
    (lines.foldr (advance p) t).failure = t.failure := by
  induction lines with
  | nil => rfl
  | cons line rest ih => rw [List.foldr_cons, advance_failure, ih]

theorem foldr_kept {t u : Trace} (same : t.kept = u.kept) (lines : List (List UInt8)) :
    (lines.foldr (advance p) t).kept = (lines.foldr (advance p) u).kept := by
  induction lines with
  | nil => exact same
  | cons line rest ih => exact advance_kept ih

theorem walk_append {before : List (List UInt8)} (good : ∀ l ∈ before, GoodLine strict p l)
    (rest : List (List UInt8)) :
    walk strict p number (before ++ rest) =
      before.foldr (advance p) (walk strict p (number + before.length) rest) := by
  induction before generalizing number with
  | nil => rfl
  | cons line before ih =>
    obtain ⟨first, others⟩ := List.forall_mem_cons.mp good
    rw [List.cons_append, walk_good first, ih others, List.foldr_cons, List.length_cons,
      Nat.add_right_comm, Nat.add_assoc]

/-! ### Whole scans -/

/-- A line is the first bad one, and the failure is about it. -/
structure FirstBad (strict : Bool) (p : Predicate) (before : List (List UInt8))
    (line : List UInt8) (failure : Failure) : Prop where
  earlier : ∀ l ∈ before, GoodLine strict p l
  bad : BadLine strict p line failure.problem
  number : failure.line = before.length + 1

theorem exists_firstBad {lines : List (List UInt8)}
    (bad : ∃ l ∈ lines, ∃ problem, BadLine strict p l problem) :
    ∃ before line after failure, lines = before ++ line :: after ∧
      FirstBad strict p before line failure := by
  induction lines with
  | nil => simp at bad
  | cons first rest ih =>
    by_cases here : ∃ problem, BadLine strict p first problem
    · obtain ⟨problem, here⟩ := here
      exact ⟨[], first, rest, ⟨1, problem⟩, rfl, nofun, here, rfl⟩
    · obtain ⟨l, member, problem, bad⟩ := bad
      have later : l ∈ rest := by
        rcases List.mem_cons.mp member with rfl | later
        · exact absurd ⟨problem, bad⟩ here
        · exact later
      obtain ⟨before, line, after, failure, rfl, found⟩ := ih ⟨l, later, problem, bad⟩
      have good : ∀ l ∈ first :: before, GoodLine strict p l :=
        List.forall_mem_cons.mpr ⟨not_exists.mp here, found.earlier⟩
      exact ⟨first :: before, line, after, ⟨before.length + 2, failure.problem⟩, rfl, good,
        found.bad, rfl⟩

end

theorem writeLines_cons (text : String) (texts : List String) :
    writeLines (text :: texts) = bytesOf text ++ lineFeed :: writeLines texts := by
  rw [writeLines, List.flatMap_cons, List.append_assoc]
  rfl

theorem writeLines_append (lines others : List String) :
    writeLines (lines ++ others) = writeLines lines ++ writeLines others := List.flatMap_append

def Report.failingLine? (report : Report) : Option Nat :=
  match report.result with
  | .ok _ => none
  | .error failure => some failure.line

theorem Report.failingLine?_eq_some_iff {report : Report} {n : Nat} :
    report.failingLine? = some n ↔ ∃ failure, report.result = .error failure ∧ failure.line = n := by
  unfold failingLine?
  cases report.result <;> simp

theorem Report.failingLine?_eq_none_iff {report : Report} :
    report.failingLine? = none ↔ ∃ summary, report.result = .ok summary := by
  unfold failingLine?
  cases report.result <;> simp

variable {options : Options} {p : Predicate} {input : List UInt8}

theorem run_of_good (good : ∀ l ∈ splitLines input, GoodLine options.strict p l) :
    ∃ summary, run options p input =
      { output := writeLines (if options.countOnly then [toString summary.matched]
          else ((splitLines input).foldr (advance p) .done).kept)
        warning := summary.warning
        result := .ok summary } := by
  have walked : walk options.strict p 1 (splitLines input ++ []) = _ := walk_append good []
  rw [List.append_nil, walk] at walked
  have ended : ((splitLines input).foldr (advance p) .done).failure = none := foldr_failure _ _
  refine ⟨((splitLines input).foldr (advance p) .done).summary, ?_⟩
  simp only [run, linesOf_eq, walked, ended]
  rfl

theorem run_of_firstBad {before after : List (List UInt8)} {line : List UInt8} {failure : Failure}
    (lines : splitLines input = before ++ line :: after)
    (first : FirstBad options.strict p before line failure) :
    run options p input =
      { output := writeLines (if options.countOnly then []
          else (before.foldr (advance p) .done).kept)
        warning := none
        result := .error failure } := by
  obtain ⟨good, bad, number⟩ := first
  have walked : walk options.strict p 1 (splitLines input) =
      before.foldr (advance p) (.failed failure.line failure.problem) := by
    rw [lines, walk_append good, walk_bad bad, number, Nat.add_comm]
  have ended : (before.foldr (advance p) (.failed failure.line failure.problem)).failure =
      some failure := foldr_failure _ _
  have kept : (before.foldr (advance p) (.failed failure.line failure.problem)).kept =
      (before.foldr (advance p) .done).kept := foldr_kept (t := .failed ..) (u := .done) rfl before
  simp only [run, linesOf_eq, walked, ended, kept]

/-- What a scan was doing when it met a problem. -/
def activity : Problem → String
  | .unreadable => "read line "
  | .unparsable _ => "parse document on line "
  | .unevaluable _ => "evaluate document on line "

theorem scanMessage_eq (failure : Failure) :
    Command.scanMessage failure = activity failure.problem ++ toString failure.line := by
  obtain ⟨line, problem⟩ := failure
  cases problem <;> rfl

theorem run_failure_iff {failure : Failure} :
    (run options p input).result = .error failure ↔
      ∃ before line after, splitLines input = before ++ line :: after ∧
        FirstBad options.strict p before line failure := by
  constructor
  · intro failed
    by_cases bad : ∃ l ∈ splitLines input, ∃ problem, BadLine options.strict p l problem
    · obtain ⟨before, line, after, found, lines, first⟩ := exists_firstBad bad
      rw [run_of_firstBad lines first] at failed
      obtain rfl := Except.error.inj failed
      exact ⟨before, line, after, lines, first⟩
    · have good : ∀ l ∈ splitLines input, GoodLine options.strict p l :=
        fun l member problem wrong => bad ⟨l, member, problem, wrong⟩
      obtain ⟨summary, completed⟩ := run_of_good good
      rw [completed] at failed
      cases failed
  · rintro ⟨before, line, after, lines, first⟩
    rw [run_of_firstBad lines first]

/-- A scan fails exactly if some line is bad, and then the failure names the first bad line and what
is wrong with it. Up to that line the input is scanned as if it ended there, though no count is
written, and an input that starts with the same lines gives the same report. -/
theorem run_failed (options : Options) (q : Json) (input : List UInt8) :
    ((∃ failure, (run options (Query.compile q) input).result = .error failure) ↔
        ∃ l ∈ splitLines input, ∃ problem, BadLine options.strict (Query.compile q) l problem) ∧
      ∀ failure, (run options (Query.compile q) input).result = .error failure →
        ∃ earlier later line after, input = earlier ++ later ∧
          splitLines input = splitLines earlier ++ line :: after ∧
          FirstBad options.strict (Query.compile q) (splitLines earlier) line failure ∧
          Command.scanMessage failure = activity failure.problem ++ toString failure.line ∧
          (∃ summary, (run options (Query.compile q) earlier).result = .ok summary) ∧
          (run options (Query.compile q) input).output =
            (if options.countOnly then [] else (run options (Query.compile q) earlier).output) ∧
          ∀ other, (splitLines other).take failure.line = (splitLines input).take failure.line →
            run options (Query.compile q) other = run options (Query.compile q) input := by
  refine ⟨⟨?_, fun bad => ?_⟩, fun failure failed => ?_⟩
  · rintro ⟨failure, failed⟩
    obtain ⟨before, line, after, lines, first⟩ := run_failure_iff.mp failed
    exact ⟨line, by simp [lines], failure.problem, first.bad⟩
  · obtain ⟨before, line, after, failure, lines, first⟩ := exists_firstBad bad
    exact ⟨failure, run_failure_iff.mpr ⟨before, line, after, lines, first⟩⟩
  · obtain ⟨before, line, after, lines, first⟩ := run_failure_iff.mp failed
    obtain ⟨earlier, later, split, _, cut⟩ := splitLines_cut lines
    obtain rfl : splitLines earlier = before := by simpa [splitLines_nil] using cut []
    obtain ⟨summary, completed⟩ := run_of_good first.earlier
    refine ⟨earlier, later, line, after, split, lines, first, scanMessage_eq failure,
      ⟨summary, by rw [completed]⟩, ?_, fun other start => ?_⟩
    · rw [run_of_firstBad lines first, completed]
      cases options.countOnly <;> rfl
    · have start : (splitLines other).take failure.line = splitLines earlier ++ [line] := by
        rw [start, lines, first.number, List.take_length_add_append, List.take_succ_cons,
          List.take_zero]
      have others : splitLines other =
          splitLines earlier ++ line :: (splitLines other).drop failure.line := by
        rw [← List.singleton_append, ← List.append_assoc, ← start, List.take_append_drop]
      rw [run_of_firstBad others first, run_of_firstBad lines first]

/-- A match, a blank line, and a document that cannot be evaluated in front of one that cannot be
read. -/
theorem run_failed_third :
    let q : Json := .object [("a", .object [("$gt", .number (.natural 1 (by decide)))])]
    let input := bytesOf "\x7b\"a\":2\x7d\n \r\n\x7b\"a\":\"x\"\x7d\nnone"
    let options : Options := ⟨false, true⟩
    ∃ failure, (run options (Query.compile q) input).result = .error failure ∧ failure.line = 3 ∧
      ∃ earlier later line after, input = earlier ++ later ∧
        splitLines input = splitLines earlier ++ line :: after ∧
        FirstBad true (Query.compile q) (splitLines earlier) line failure ∧
        (run options (Query.compile q) input).output =
          (run options (Query.compile q) earlier).output := by
  intro q input options
  have third : (run options (Query.compile q) input).failingLine? = some 3 := by decide +kernel
  obtain ⟨failure, failed, number⟩ := Report.failingLine?_eq_some_iff.mp third
  obtain ⟨earlier, later, line, after, split, lines, first, _, _, output, _⟩ :=
    (run_failed options q input).2 failure failed
  exact ⟨failure, failed, number, earlier, later, line, after, split, lines, first, output⟩

end DocQuery.Scan
