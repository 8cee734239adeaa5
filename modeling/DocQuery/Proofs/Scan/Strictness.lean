import DocQuery.Proofs.Scan.Failure

/-!
# Strict and lenient scans

A strict scan and a lenient one of the same input agree up to the first document that faults. Without
such a document in front of their end they give the same report. With one the strict scan fails there
and has written the beginning of what the lenient scan writes (`strict_against_lenient`).
-/

namespace DocQuery.Scan

/-- The line is the text of that value, perhaps with white space at its ends. -/
def LineHolds (line : List UInt8) (v : Json) : Prop :=
  ∃ s, bytesOf s = line ∧ trim s ≠ "" ∧ Json.parse (trim s) = .ok v

/-- The lines before a line are good to a strict scan, and the document of that line faults. -/
structure FirstFault (p : Predicate) (lines before : List (List UInt8)) (cause : Fault) : Prop where
  earlier : ∀ l ∈ before, GoodLine true p l
  here : ∃ line after v, lines = before ++ line :: after ∧ LineHolds line v ∧
    p.evaluate v = .error cause

section

variable {p : Predicate} {line : List UInt8} {lines before : List (List UInt8)} {cause : Fault}
variable {countOnly : Bool} {input : List UInt8}

/-! ### Lines -/

theorem BadLine.to_strict {problem : Problem} (bad : BadLine false p line problem) :
    BadLine true p line problem := by
  cases bad with
  | unreadable undecoded => exact .unreadable undecoded
  | unparsable encoded filled unparsed => exact .unparsable encoded filled unparsed
  | unevaluable _ _ _ failing => cases failing

theorem BadLine.lenient_or_fault {problem : Problem} (bad : BadLine true p line problem) :
    BadLine false p line problem ∨
      ∃ v cause, problem = .unevaluable cause ∧ LineHolds line v ∧ p.evaluate v = .error cause := by
  cases bad with
  | unreadable undecoded => exact .inl (.unreadable undecoded)
  | unparsable encoded filled unparsed => exact .inl (.unparsable encoded filled unparsed)
  | unevaluable encoded filled parsed _ faulted =>
    exact .inr ⟨_, _, rfl, ⟨_, encoded, filled, parsed⟩, faulted⟩

theorem GoodLine.to_lenient (good : GoodLine true p line) : GoodLine false p line :=
  fun problem bad => good problem bad.to_strict

theorem GoodLine.answers {v : Json} (good : GoodLine true p line) (holds : LineHolds line v) :
    ∃ answer, p.evaluate v = .ok answer := by
  obtain ⟨s, encoded, filled, parsed⟩ := holds
  cases verdict : p.evaluate v with
  | ok answer => exact ⟨answer, rfl⟩
  | error cause => exact absurd (.unevaluable encoded filled parsed rfl verdict) (good _)

theorem goodLine_of_holds {v : Json} (holds : LineHolds line v) : GoodLine false p line := by
  obtain ⟨s, rfl, filled, parsed⟩ := holds
  intro problem bad
  cases bad with
  | unreadable undecoded => exact undecoded s rfl
  | unparsable encoded _ unparsed =>
    rw [bytesOf_injective encoded, parsed] at unparsed
    cases unparsed
  | unevaluable _ _ _ failing => cases failing

theorem advance_fault {v : Json} (holds : LineHolds line v) (faulted : p.evaluate v = .error cause)
    (t : Trace) : advance p line t = t.fault := by
  obtain ⟨s, rfl, filled, parsed⟩ := holds
  rw [advance, readLine_of_ok filled parsed]
  simp only [faulted]

/-! ### What the lines before the end add -/

theorem advance_kept_append (t : Trace) :
    (advance p line t).kept = (advance p line .done).kept ++ t.kept := by
  unfold advance
  split
  · split <;> rfl
  · rfl

theorem foldr_kept_append (lines : List (List UInt8)) (t : Trace) :
    (lines.foldr (advance p) t).kept = (lines.foldr (advance p) .done).kept ++ t.kept := by
  induction lines with
  | nil => rfl
  | cons line rest ih =>
    rw [List.foldr_cons, List.foldr_cons, advance_kept_append, ih, ← List.append_assoc,
      ← advance_kept_append]

theorem le_faults_foldr (lines : List (List UInt8)) (t : Trace) :
    t.summary.faults ≤ (lines.foldr (advance p) t).summary.faults := by
  induction lines with
  | nil => exact Nat.le_refl _
  | cons line rest ih =>
    refine Nat.le_trans ih ?_
    rw [List.foldr_cons]
    unfold advance
    split
    · split
      · exact Nat.le_refl _
      · exact Nat.le_refl _
      · exact Nat.le_succ _
    · exact Nat.le_refl _

/-! ### Scans without a fault in front of their end -/

theorem run_eq_of_good (good : ∀ l ∈ splitLines input, GoodLine true p l) :
    run ⟨countOnly, true⟩ p input = run ⟨countOnly, false⟩ p input := by
  have strict : walk true p 1 (splitLines input ++ []) = _ := walk_append good []
  have lenient : walk false p 1 (splitLines input ++ []) = _ :=
    walk_append (fun l member => (good l member).to_lenient) []
  rw [List.append_nil] at strict lenient
  simp only [run, linesOf_eq, strict, lenient, walk]

theorem run_eq_of_firstBad {after : List (List UInt8)} {failure : Failure}
    (lines : splitLines input = before ++ line :: after) (first : FirstBad true p before line failure)
    (bad : BadLine false p line failure.problem) :
    run ⟨countOnly, true⟩ p input = run ⟨countOnly, false⟩ p input := by
  have lenient : FirstBad false p before line failure :=
    ⟨fun l member => (first.earlier l member).to_lenient, bad, first.number⟩
  rw [run_of_firstBad lines first, run_of_firstBad lines lenient]

/-- The two scans give the same report, unless some document faults in front of their end. -/
theorem same_or_firstFault (p : Predicate) (input : List UInt8) :
    (∀ countOnly, run ⟨countOnly, true⟩ p input = run ⟨countOnly, false⟩ p input) ∨
      ∃ before cause, FirstFault p (splitLines input) before cause := by
  by_cases bad : ∃ l ∈ splitLines input, ∃ problem, BadLine true p l problem
  · obtain ⟨before, line, after, failure, lines, first⟩ := exists_firstBad bad
    rcases first.bad.lenient_or_fault with lenient | ⟨v, cause, _, holds, faulted⟩
    · exact .inl fun _ => run_eq_of_firstBad lines first lenient
    · exact .inr ⟨before, cause, first.earlier, line, after, v, lines, holds, faulted⟩
  · have good : ∀ l ∈ splitLines input, GoodLine true p l :=
      fun l member problem wrong => bad ⟨l, member, problem, wrong⟩
    exact .inl fun _ => run_eq_of_good good

theorem faults_of_strict {summary : Summary}
    (completed : (run ⟨countOnly, true⟩ p input).result = .ok summary) : summary.faults = 0 := by
  obtain ⟨t, rfl, ended, rfl, _⟩ := run_of_ok completed
  obtain ⟨_, _, accounts⟩ := walk_accounts ended
  exact accounts.unfailing rfl

/-! ### Scans with a fault -/

theorem FirstFault.run_strict (first : FirstFault p (splitLines input) before cause) :
    run ⟨countOnly, true⟩ p input =
      { output := writeLines (if countOnly then [] else (before.foldr (advance p) .done).kept)
        warning := none
        result := .error ⟨before.length + 1, .unevaluable cause⟩ } := by
  obtain ⟨good, line, after, v, lines, ⟨s, encoded, filled, parsed⟩, faulted⟩ := first
  exact run_of_firstBad lines ⟨good, .unevaluable encoded filled parsed rfl faulted, rfl⟩

theorem FirstFault.walk_lenient (first : FirstFault p lines before cause) (number : Nat) :
    ∃ later : Trace, walk false p number lines = before.foldr (advance p) later.fault := by
  obtain ⟨good, line, after, v, rfl, holds, faulted⟩ := first
  refine ⟨walk false p (number + before.length + 1) after, ?_⟩
  rw [walk_append (fun l member => (good l member).to_lenient), walk_good (goodLine_of_holds holds),
    advance_fault holds faulted]

theorem FirstFault.faults_lenient {summary : Summary}
    (first : FirstFault p (splitLines input) before cause)
    (completed : (run ⟨countOnly, false⟩ p input).result = .ok summary) : 0 < summary.faults := by
  obtain ⟨t, rfl, _, rfl, _⟩ := run_of_ok completed
  obtain ⟨later, walked⟩ := first.walk_lenient 1
  rw [linesOf_eq, walked]
  exact Nat.lt_of_lt_of_le (Nat.succ_pos later.summary.faults) (le_faults_foldr before later.fault)

theorem FirstFault.output_lenient (first : FirstFault p (splitLines input) before cause) :
    (run ⟨countOnly, true⟩ p input).output <+: (run ⟨countOnly, false⟩ p input).output := by
  rw [first.run_strict]
  cases countOnly with
  | true => exact List.nil_prefix
  | false =>
    obtain ⟨later, walked⟩ := first.walk_lenient 1
    have written : (run ⟨false, false⟩ p input).output =
        writeLines (before.foldr (advance p) later.fault).kept := by
      unfold run
      rw [linesOf_eq, walked]
      dsimp only
      split <;> rfl
    rw [written, foldr_kept_append before later.fault, writeLines_append]
    exact List.prefix_append _ _

theorem FirstFault.lt_lenient {other : Failure} (first : FirstFault p (splitLines input) before cause)
    (failed : (run ⟨countOnly, false⟩ p input).result = .error other) :
    before.length + 1 < other.line := by
  obtain ⟨before', line', after', lines', _, bad, number⟩ := run_failure_iff.mp failed
  obtain ⟨good, line, after, v, lines, holds, _⟩ := first
  have early : ∀ l ∈ before ++ [line], GoodLine false p l := by
    intro l member
    rcases List.mem_append.mp member with old | last
    · exact (good l old).to_lenient
    · obtain rfl := List.mem_singleton.mp last
      exact goodLine_of_holds holds
  rw [lines, ← List.singleton_append, ← List.append_assoc] at lines'
  have longer : (before ++ [line]).length ≤ before'.length := by
    rcases List.append_eq_append_iff.mp lines' with ⟨between, rfl, _⟩ | ⟨between, whole, rest⟩
    · simp
    · -- otherwise the bad line is one of the good lines
      cases between with
      | nil => simp [whole]
      | cons l between =>
        obtain ⟨rfl, _⟩ := List.cons.inj rest
        exact absurd bad (early _ (by simp [whole]) _)
  rw [List.length_append, List.length_singleton] at longer
  omega

end

/-! ### Whole scans -/

/-- A strict scan succeeds exactly if a lenient one does and counts no fault, and then they give the
same report. In any case it writes the beginning of what the lenient scan writes. If it fails, either
the lenient scan fails on that line too and they give the same report, or it fails on the first line
whose document faults, with that fault. -/
theorem strict_against_lenient (q : Json) (countOnly : Bool) (input : List UInt8) :
    let p := Query.compile q
    let strict := run ⟨countOnly, true⟩ p input
    let lenient := run ⟨countOnly, false⟩ p input
    (∀ summary, strict.result = .ok summary ↔ lenient.result = .ok summary ∧ summary.faults = 0) ∧
      (∀ summary, strict.result = .ok summary → strict = lenient) ∧
      strict.output <+: lenient.output ∧
      ∀ failure, strict.result = .error failure →
        (lenient.failingLine? = some failure.line → strict = lenient) ∧
        (lenient.failingLine? ≠ some failure.line →
          ∃ before line after v cause, splitLines input = before ++ line :: after ∧
            (∀ l ∈ before, ∀ u, LineHolds l u → ∃ answer, p.evaluate u = .ok answer) ∧
            LineHolds line v ∧ p.evaluate v = .error cause ∧
            failure = ⟨before.length + 1, .unevaluable cause⟩ ∧
            Command.scanMessage failure =
              "evaluate document on line " ++ toString (before.length + 1)) := by
  intro p strict lenient
  rcases same_or_firstFault p input with same | ⟨before, cause, first⟩
  · have same : strict = lenient := same countOnly
    refine ⟨fun summary => ⟨fun completed => ?_, fun ⟨completed, _⟩ => same ▸ completed⟩,
      fun _ _ => same, same ▸ List.prefix_rfl, fun failure failed => ⟨fun _ => same, fun apart => ?_⟩⟩
    · exact ⟨same ▸ completed, faults_of_strict completed⟩
    · exact absurd (Report.failingLine?_eq_some_iff.mpr ⟨failure, same ▸ failed, rfl⟩) apart
  · have ended : strict.result = .error ⟨before.length + 1, .unevaluable cause⟩ := by
      simp only [strict, first.run_strict]
    have never : ∀ summary, strict.result ≠ .ok summary := by
      intro summary completed
      rw [ended] at completed
      cases completed
    refine ⟨fun summary => ⟨fun completed => absurd completed (never summary), ?_⟩,
      fun summary completed => absurd completed (never summary), first.output_lenient,
      fun failure failed => ?_⟩
    · rintro ⟨completed, none⟩
      have some := first.faults_lenient completed
      omega
    · rw [ended] at failed
      obtain rfl := Except.error.inj failed
      refine ⟨fun sameLine => ?_, fun _ => ?_⟩
      · obtain ⟨other, failed, number⟩ := Report.failingLine?_eq_some_iff.mp sameLine
        have later := first.lt_lenient failed
        dsimp only at number
        omega
      · obtain ⟨good, line, after, v, lines, holds, faulted⟩ := first
        exact ⟨before, line, after, v, cause, lines, fun l member u => (good l member).answers, holds,
          faulted, rfl, scanMessage_eq _⟩

/-- A match, a fault, and a line that is no document: the strict scan fails on the second line, and the
lenient one on the third. Without the fault both fail on the second line, and without the other line
too both succeed. -/
theorem strict_against_lenient_third :
    let q : Json := .object [("a", .object [("$gt", .number (.natural 1 (by decide)))])]
    let good := bytesOf "\x7b\"a\":2\x7d\n"
    let bad := good ++ bytesOf "none\n"
    let input := good ++ bytesOf "\x7b\"a\":\"x\"\x7d\nnone\n"
    let scan (strict : Bool) (input : List UInt8) := run ⟨false, strict⟩ (Query.compile q) input
    ((scan true input).failingLine? = some 2 ∧ (scan false input).failingLine? = some 3 ∧
        ∃ cause, (scan true input).result = .error ⟨2, .unevaluable cause⟩) ∧
      ((scan true bad).failingLine? = some 2 ∧ (scan false bad).failingLine? = some 2 ∧
        scan true bad = scan false bad) ∧
        (scan true good).failingLine? = none ∧ scan true good = scan false good := by
  intro q good bad input scan
  have second : (scan true input).failingLine? = some 2 := by decide +kernel
  have third : (scan false input).failingLine? = some 3 := by decide +kernel
  have strictBad : (scan true bad).failingLine? = some 2 := by decide +kernel
  have lenientBad : (scan false bad).failingLine? = some 2 := by decide +kernel
  have completed : (scan true good).failingLine? = none := by decide +kernel
  refine ⟨⟨second, third, ?_⟩, ⟨strictBad, lenientBad, ?_⟩, completed, ?_⟩
  · obtain ⟨failure, ended, number⟩ := Report.failingLine?_eq_some_iff.mp second
    have apart : (scan false input).failingLine? ≠ some failure.line := by
      rw [third, number]
      decide
    obtain ⟨before, _, _, _, cause, _, _, _, _, rfl, _⟩ :=
      ((strict_against_lenient q false input).2.2.2 failure ended).2 apart
    exact ⟨cause, number ▸ ended⟩
  · obtain ⟨failure, ended, number⟩ := Report.failingLine?_eq_some_iff.mp strictBad
    exact ((strict_against_lenient q false bad).2.2.2 failure ended).1 (number.symm ▸ lenientBad)
  · obtain ⟨summary, ended⟩ := Report.failingLine?_eq_none_iff.mp completed
    exact (strict_against_lenient q false good).2.1 summary ended

end DocQuery.Scan
