import DocQuery.Proofs.Scan.Strictness

/-!
# Scans of inputs in parts

The trace of lines in two parts is the trace of the first part followed by that of the second, whose
line numbers go on from the first (`walk_andThen`, `walk_later`). So an input that ends with a line
feed can be scanned before what comes after it, and the two reports make the report of the whole
(`run_append`).
-/

namespace DocQuery.Scan

def Summary.add (s u : Summary) : Summary :=
  ⟨s.scanned + u.scanned, s.matched + u.matched, s.faults + u.faults⟩

/-- The same problem, with so many more lines before it. -/
def Failure.later (lines : Nat) (failure : Failure) : Failure :=
  { failure with line := failure.line + lines }

namespace Trace

/-- One trace after another. A failure ends the first, and nothing follows it. -/
def andThen (t u : Trace) : Trace :=
  match t.failure with
  | some _ => t
  | none => ⟨t.summary.add u.summary, t.kept ++ u.kept, u.failure⟩

/-- The trace of lines that so many other lines stand before. -/
def later (lines : Nat) (t : Trace) : Trace := { t with failure := t.failure.map (·.later lines) }

/-- What a scan with this trace reports. -/
def report (countOnly : Bool) (t : Trace) : Report :=
  match t.failure with
  | none =>
    { output := writeLines (if countOnly then [toString t.summary.matched] else t.kept)
      warning := t.summary.warning
      result := .ok t.summary }
  | some failure =>
    { output := writeLines (if countOnly then [] else t.kept)
      warning := none
      result := .error failure }

variable {t u : Trace} {countOnly : Bool} {failure : Failure} {summary : Summary}

theorem andThen_of_failure (ended : t.failure = some failure) : t.andThen u = t := by
  simp only [andThen, ended]

theorem andThen_of_none (unfailed : t.failure = none) :
    t.andThen u = ⟨t.summary.add u.summary, t.kept ++ u.kept, u.failure⟩ := by
  simp only [andThen, unfailed]

theorem done_andThen (u : Trace) : done.andThen u = u := by
  rw [andThen_of_none rfl]
  simp [done, Summary.add]

theorem report_of_none (unfailed : t.failure = none) :
    t.report countOnly =
      { output := writeLines (if countOnly then [toString t.summary.matched] else t.kept)
        warning := t.summary.warning
        result := .ok t.summary } := by
  simp only [report, unfailed]

theorem report_of_failure (ended : t.failure = some failure) :
    t.report countOnly =
      { output := writeLines (if countOnly then [] else t.kept)
        warning := none
        result := .error failure } := by
  simp only [report, ended]

theorem output_of_printing (t : Trace) : (t.report false).output = writeLines t.kept := by
  unfold report
  cases t.failure <;> rfl

theorem result_ok_iff :
    (t.report countOnly).result = .ok summary ↔ t.failure = none ∧ t.summary = summary := by
  unfold report
  cases t.failure <;> simp

theorem result_error_iff :
    (t.report countOnly).result = .error failure ↔ t.failure = some failure := by
  unfold report
  cases t.failure <;> simp

/-! ### Reports of two traces -/

theorem report_andThen_of_none (first : t.failure = none) (second : u.failure = none) (n : Nat) :
    (t.andThen (u.later n)).report countOnly =
      { output :=
          if countOnly then bytesOf (toString (t.summary.add u.summary).matched) ++ [lineFeed]
          else (t.report countOnly).output ++ (u.report countOnly).output
        warning := (t.summary.add u.summary).warning
        result := .ok (t.summary.add u.summary) } := by
  have both : t.andThen (u.later n) = ⟨t.summary.add u.summary, t.kept ++ u.kept, none⟩ := by
    rw [andThen_of_none first, later, second]
    rfl
  rw [both, report_of_none rfl]
  cases countOnly with
  | true => simp [writeLines]
  | false =>
    rw [output_of_printing, output_of_printing, if_neg Bool.false_ne_true,
      if_neg Bool.false_ne_true, writeLines_append]

theorem report_andThen_of_failure (first : t.failure = none) (second : u.failure = some failure)
    (n : Nat) :
    (t.andThen (u.later n)).report countOnly =
      { output := if countOnly then [] else (t.report countOnly).output ++ (u.report countOnly).output
        warning := none
        result := .error (failure.later n) } := by
  have both : t.andThen (u.later n) =
      ⟨t.summary.add u.summary, t.kept ++ u.kept, some (failure.later n)⟩ := by
    rw [andThen_of_none first, later, second]
    rfl
  rw [both, report_of_failure rfl]
  cases countOnly with
  | true => rfl
  | false =>
    rw [output_of_printing, output_of_printing, if_neg Bool.false_ne_true,
      if_neg Bool.false_ne_true, writeLines_append]

theorem output_later (u : Trace) (n : Nat) :
    ((u.later n).report countOnly).output = (u.report countOnly).output := by
  unfold report later
  cases u.failure <;> rfl

end Trace

/-! ### Traces of lines in two parts -/

theorem run_eq_report (options : Options) (p : Predicate) (input : List UInt8) :
    run options p input = (walk options.strict p 1 (splitLines input)).report options.countOnly := by
  rw [run, linesOf_eq]
  rfl

theorem advance_andThen (p : Predicate) (line : List UInt8) (t u : Trace) :
    (advance p line t).andThen u = advance p line (t.andThen u) := by
  obtain ⟨summary, kept, failure⟩ := t
  unfold advance
  split
  · split <;> cases failure <;>
      simp [Trace.andThen, Trace.keep, Trace.skip, Trace.fault, Summary.add, Nat.add_right_comm]
  · rfl

theorem advance_later (p : Predicate) (line : List UInt8) (n : Nat) (t : Trace) :
    (advance p line t).later n = advance p line (t.later n) := by
  unfold advance
  split
  · split <;> rfl
  · rfl

/-- A line either ends every scan that comes to it, or ends none. -/
theorem bad_or_good (strict : Bool) (p : Predicate) (line : List UInt8) :
    (∃ problem, BadLine strict p line problem) ∨ GoodLine strict p line := by
  by_cases bad : ∃ problem, BadLine strict p line problem
  · exact .inl bad
  · exact .inr (not_exists.mp bad)

theorem walk_andThen (strict : Bool) (p : Predicate) (number : Nat)
    (lines others : List (List UInt8)) :
    walk strict p number (lines ++ others) =
      (walk strict p number lines).andThen (walk strict p (number + lines.length) others) := by
  induction lines generalizing number with
  | nil => exact (Trace.done_andThen _).symm
  | cons line rest ih =>
    rcases bad_or_good strict p line with ⟨problem, bad⟩ | good
    · rw [List.cons_append, walk_bad bad, walk_bad bad]
      rfl
    · rw [List.cons_append, walk_good good, walk_good good, ih, advance_andThen, List.length_cons,
        Nat.add_right_comm, Nat.add_assoc]

theorem walk_later (strict : Bool) (p : Predicate) (number n : Nat) (lines : List (List UInt8)) :
    walk strict p (number + n) lines = (walk strict p number lines).later n := by
  induction lines generalizing number with
  | nil => rfl
  | cons line rest ih =>
    rcases bad_or_good strict p line with ⟨problem, bad⟩ | good
    · rw [walk_bad bad, walk_bad bad]
      rfl
    · rw [walk_good good, walk_good good, Nat.add_right_comm, ih, advance_later]

theorem line_of_walk {strict : Bool} {p : Predicate} {number : Nat} {lines : List (List UInt8)}
    {failure : Failure} (failed : (walk strict p number lines).failure = some failure) :
    number ≤ failure.line ∧ failure.line < number + lines.length := by
  induction lines generalizing number with
  | nil => cases failed
  | cons line rest ih =>
    rw [List.length_cons]
    rcases bad_or_good strict p line with ⟨problem, bad⟩ | good
    · rw [walk_bad bad] at failed
      obtain rfl := Option.some.inj failed
      dsimp only
      omega
    · rw [walk_good good, advance_failure] at failed
      have bounds := ih failed
      omega

/-- After whole lines, a scan goes on as it would begin, with their number added to its own. -/
theorem walk_splitLines_append {first : List UInt8} (whole : WholeLines first) (strict : Bool)
    (p : Predicate) (second : List UInt8) :
    walk strict p 1 (splitLines (first ++ second)) =
      (walk strict p 1 (splitLines first)).andThen
        ((walk strict p 1 (splitLines second)).later (splitLines first).length) := by
  rw [splitLines_append whole, walk_andThen, walk_later]

/-! ### Whole scans -/

/-- An input that is empty or ends with a line feed stands before any other. If its scan fails, the
scan of both is the same. Else the scan of both succeeds or fails as the scan of the second does: the
counts are added, with the warning that their sum calls for, what is written is joined, and a failure
is found so many lines later as the first has lines, which is as many as it has line feeds. -/
theorem run_append (options : Options) (q : Json) {first : List UInt8} (whole : WholeLines first)
    (second : List UInt8) :
    let scan := run options (Query.compile q)
    (splitLines first).length = first.count lineFeed ∧
      (∀ failure, (scan first).result = .error failure → scan (first ++ second) = scan first) ∧
      ∀ summary, (scan first).result = .ok summary →
        ((∃ total, (scan (first ++ second)).result = .ok total) ↔
            ∃ other, (scan second).result = .ok other) ∧
          (∀ other, (scan second).result = .ok other →
            scan (first ++ second) =
              { output :=
                  if options.countOnly then
                    bytesOf (toString (summary.matched + other.matched)) ++ [lineFeed]
                  else (scan first).output ++ (scan second).output
                warning := (summary.add other).warning
                result := .ok (summary.add other) }) ∧
          ∀ failure, (scan second).result = .error failure →
            scan (first ++ second) =
              { output :=
                  if options.countOnly then [] else (scan first).output ++ (scan second).output
                warning := none
                result := .error (failure.later (splitLines first).length) } := by
  intro scan
  let t := walk options.strict (Query.compile q) 1 (splitLines first)
  let u := walk options.strict (Query.compile q) 1 (splitLines second)
  let n := (splitLines first).length
  have before : scan first = t.report options.countOnly := run_eq_report ..
  have after : scan second = u.report options.countOnly := run_eq_report ..
  have both : scan (first ++ second) = (t.andThen (u.later n)).report options.countOnly :=
    (run_eq_report ..).trans (congrArg _ (walk_splitLines_append whole ..))
  rw [before, after, both]
  refine ⟨length_splitLines whole, fun failure failed => ?_, fun summary completed => ?_⟩
  · rw [Trace.andThen_of_failure (Trace.result_error_iff.mp failed)]
  · obtain ⟨unfailed, rfl⟩ := Trace.result_ok_iff.mp completed
    refine ⟨?_, fun other ended => ?_, fun failure failed => ?_⟩
    · cases second : u.failure with
      | none =>
        rw [Trace.report_andThen_of_none unfailed second, Trace.report_of_none second]
        exact iff_of_true ⟨_, rfl⟩ ⟨_, rfl⟩
      | some failure =>
        rw [Trace.report_andThen_of_failure unfailed second, Trace.report_of_failure second]
        exact iff_of_false nofun nofun
    · obtain ⟨second, rfl⟩ := Trace.result_ok_iff.mp ended
      exact Trace.report_andThen_of_none unfailed second n
    · exact Trace.report_andThen_of_failure unfailed (Trace.result_error_iff.mp failed) n

/-- A match and a blank line, twice and before a line that is no document. That line fails the scan as
the third, and as the first when it stands before them. -/
theorem run_append_third :
    let q : Json := .object [("a", .object [("$gt", .number (.natural 1 (by decide)))])]
    let good := bytesOf "\x7b\"a\":2\x7d\r\n\n"
    let bad := bytesOf "none\n"
    let scan := run ⟨false, true⟩ (Query.compile q)
    WholeLines good ∧ WholeLines bad ∧
      scan (good ++ good) = ⟨(scan good).output ++ (scan good).output, none, .ok ⟨2, 2, 0⟩⟩ ∧
      ∃ problem, (scan bad).result = .error ⟨1, problem⟩ ∧
        scan (good ++ bad) =
            ⟨(scan good).output ++ (scan bad).output, none, .error ⟨3, problem⟩⟩ ∧
        scan (bad ++ good) = scan bad := by
  intro q good bad scan
  have wholeGood : WholeLines good := .inr (by decide +kernel)
  have wholeBad : WholeLines bad := .inr (by decide +kernel)
  have counted : (scan good).result.toOption = some ⟨1, 1, 0⟩ := by decide +kernel
  have completed : (scan good).result = .ok ⟨1, 1, 0⟩ := ok_of_toOption counted
  have first : (scan bad).failingLine? = some 1 := by decide +kernel
  obtain ⟨⟨number, problem⟩, failed, rfl⟩ := Report.failingLine?_eq_some_iff.mp first
  obtain ⟨two, _, parts⟩ := run_append ⟨false, true⟩ q wholeGood good
  obtain ⟨_, joined, _⟩ := parts _ completed
  obtain ⟨_, _, parts⟩ := run_append ⟨false, true⟩ q wholeGood bad
  obtain ⟨_, _, later⟩ := parts _ completed
  obtain ⟨_, stopped, _⟩ := run_append ⟨false, true⟩ q wholeBad good
  have lines : (splitLines good).length = 2 := two.trans (by decide +kernel)
  have third := later _ failed
  rw [lines] at third
  exact ⟨wholeGood, wholeBad, joined _ completed, problem, failed, third, stopped _ failed⟩

end DocQuery.Scan
