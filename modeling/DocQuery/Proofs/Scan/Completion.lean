import DocQuery.Scan.Basic
import DocQuery.Query.Compile
import DocQuery.Proofs.Predicate.Verdict
import DocQuery.Proofs.Text.Lines

/-!
# Completed scans

A scan that does not fail has read every document of its input, in order. Its counts are the numbers
of documents, matches and faults, and what it writes is either the number of matches or the lines of
the documents that match (`run_completed`).
-/

namespace DocQuery.Scan

/-! ### Documents of lines -/

/-- The documents of lines: the texts of the lines without white space at their ends, but for those
that are then empty, each with the value that it means. -/
structure LinesHold (lines : List (List UInt8)) (documents : List Document) : Prop where
  texts : ∃ texts : List String, texts.map bytesOf = lines ∧
    documents.map Document.text = (texts.map trim).filter (· ≠ "")
  values : ∀ d ∈ documents, Json.parse d.text = .ok d.value

theorem linesHold_nil : LinesHold [] [] := ⟨⟨[], rfl, rfl⟩, nofun⟩

/-- All that a line can hold: nothing, or the document of its text. -/
theorem readLine_ok {line : List UInt8} {found : Option Document} (read : readLine line = .ok found) :
    ∃ s, decode? line = some s ∧
      (trim s = "" ∧ found = none ∨
        trim s ≠ "" ∧ ∃ v, Json.parse (trim s) = .ok v ∧ found = some ⟨trim s, v⟩) := by
  unfold readLine at read
  split at read
  · cases read
  · rename_i s decoded
    refine ⟨s, decoded, ?_⟩
    dsimp only at read
    split at read
    · rename_i empty
      cases read
      exact .inl ⟨String.isEmpty_iff.mp empty, rfl⟩
    · rename_i filled
      refine .inr ⟨mt String.isEmpty_iff.mpr filled, ?_⟩
      split at read
      · cases read
      · rename_i v parsed
        cases read
        exact ⟨v, parsed, rfl⟩

theorem readLine_of_error {s : String} {cause : ReadError} (filled : trim s ≠ "")
    (unparsed : Json.parse (trim s) = .error cause) :
    readLine (bytesOf s) = .error (.unparsable cause) := by
  unfold readLine
  rw [decode?_eq_some_iff.mpr rfl]
  dsimp only
  rw [if_neg (mt String.isEmpty_iff.mp filled), unparsed]

theorem readLine_of_ok {s : String} {v : Json} (filled : trim s ≠ "")
    (parsed : Json.parse (trim s) = .ok v) : readLine (bytesOf s) = .ok (some ⟨trim s, v⟩) := by
  unfold readLine
  rw [decode?_eq_some_iff.mpr rfl]
  dsimp only
  rw [if_neg (mt String.isEmpty_iff.mp filled), parsed]

theorem LinesHold.blank {line : List UInt8} {rest : List (List UInt8)} {documents : List Document}
    (read : readLine line = .ok none) (others : LinesHold rest documents) :
    LinesHold (line :: rest) documents := by
  obtain ⟨⟨texts, written, kept⟩, values⟩ := others
  obtain ⟨s, decoded, ⟨blank, _⟩ | ⟨_, v, _, wrong⟩⟩ := readLine_ok read
  · refine ⟨⟨s :: texts, ?_, ?_⟩, values⟩
    · rw [List.map_cons, written, decode?_eq_some_iff.mp decoded]
    · simp [blank, kept]
  · cases wrong

theorem LinesHold.document {line : List UInt8} {d : Document} {rest : List (List UInt8)}
    {documents : List Document} (read : readLine line = .ok (some d))
    (others : LinesHold rest documents) : LinesHold (line :: rest) (d :: documents) := by
  obtain ⟨⟨texts, written, kept⟩, values⟩ := others
  obtain ⟨s, decoded, ⟨_, wrong⟩ | ⟨filled, v, parsed, found⟩⟩ := readLine_ok read
  · cases wrong
  · obtain rfl := Option.some.inj found
    refine ⟨⟨s :: texts, ?_, ?_⟩, List.forall_mem_cons.mpr ⟨parsed, values⟩⟩
    · rw [List.map_cons, written, decode?_eq_some_iff.mp decoded]
    · simp [filled, kept]

theorem bytesOf_injective {s s' : String} (same : bytesOf s = bytesOf s') : s = s' := by
  have decoded := decode?_eq_some_iff.mpr same
  rw [decode?_eq_some_iff.mpr rfl] at decoded
  exact (Option.some.inj decoded).symm

/-- Lines hold no other documents. -/
theorem LinesHold.unique {lines : List (List UInt8)} {documents others : List Document}
    (held : LinesHold lines documents) (held' : LinesHold lines others) : documents = others := by
  obtain ⟨⟨texts, written, kept⟩, values⟩ := held
  obtain ⟨⟨texts', written', kept'⟩, values'⟩ := held'
  obtain rfl : texts = texts' :=
    (List.map_inj_right fun _ _ => bytesOf_injective).mp (written.trans written'.symm)
  have same := kept.trans kept'.symm
  clear kept kept'
  induction documents generalizing others with
  | nil => exact (List.map_eq_nil_iff.mp same.symm).symm
  | cons d rest ih =>
    cases others with
    | nil => cases same
    | cons e others =>
      obtain ⟨first, values⟩ := List.forall_mem_cons.mp values
      obtain ⟨first', values'⟩ := List.forall_mem_cons.mp values'
      obtain ⟨text, same⟩ := List.cons.inj same
      rw [ih values values' same]
      obtain ⟨text₁, value₁⟩ := d
      obtain ⟨text₂, value₂⟩ := e
      dsimp only at text first first'
      subst text
      obtain rfl := Except.ok.inj (first.symm.trans first')
      rfl

/-! ### What a scan has counted and kept -/

def matching (p : Predicate) (d : Document) : Bool := gives true (p.evaluate d.value)

def faulting (p : Predicate) (d : Document) : Bool := !(p.evaluate d.value).isOk

/-- The trace accounts for the documents: every count is right, and the lines of those that match
are kept in order. Under `strict` there was no fault. -/
structure Accounts (strict : Bool) (p : Predicate) (documents : List Document) (t : Trace) : Prop where
  scanned : t.summary.scanned = documents.length
  matched : t.summary.matched = documents.countP (matching p)
  faults : t.summary.faults = documents.countP (faulting p)
  kept : t.kept = (documents.filter (matching p)).map Document.text
  unfailing : strict = true → t.summary.faults = 0

section

variable {strict : Bool} {p : Predicate} {d : Document} {documents : List Document} {t : Trace}

theorem accounts_done : Accounts strict p [] .done := ⟨rfl, rfl, rfl, rfl, fun _ => rfl⟩

theorem Accounts.keep (yes : p.evaluate d.value = .ok true) (others : Accounts strict p documents t) :
    Accounts strict p (d :: documents) (t.keep d.text) := by
  have accepted : matching p d = true := gives_iff.mpr yes
  have answered : faulting p d = false := by rw [faulting, yes]; rfl
  constructor
  · simp [Trace.keep, others.scanned]
  · simp [Trace.keep, others.matched, accepted]
  · simp [Trace.keep, others.faults, answered]
  · simp [Trace.keep, others.kept, accepted]
  · exact others.unfailing

theorem Accounts.skip (no : p.evaluate d.value = .ok false) (others : Accounts strict p documents t) :
    Accounts strict p (d :: documents) t.skip := by
  have refused : matching p d = false := by rw [matching, no]; rfl
  have answered : faulting p d = false := by rw [faulting, no]; rfl
  constructor
  · simp [Trace.skip, others.scanned]
  · simp [Trace.skip, others.matched, refused]
  · simp [Trace.skip, others.faults, answered]
  · simp [Trace.skip, others.kept, refused]
  · exact others.unfailing

theorem Accounts.fault {cause : Fault} (none : p.evaluate d.value = .error cause)
    (lenient : strict = false) (others : Accounts strict p documents t) :
    Accounts strict p (d :: documents) t.fault := by
  have refused : matching p d = false := by rw [matching, none]; rfl
  have unanswered : faulting p d = true := by rw [faulting, none]; rfl
  constructor
  · simp [Trace.fault, others.scanned]
  · simp [Trace.fault, others.matched, refused]
  · simp [Trace.fault, others.faults, unanswered]
  · simp [Trace.fault, others.kept, refused]
  · intro failing
    rw [lenient] at failing
    cases failing

end

/-- A scan that does not fail accounts for the documents of all its lines. -/
theorem walk_accounts {strict : Bool} {p : Predicate} {number : Nat} {lines : List (List UInt8)}
    (completed : (walk strict p number lines).failure = none) :
    ∃ documents, LinesHold lines documents ∧
      Accounts strict p documents (walk strict p number lines) := by
  induction lines generalizing number with
  | nil => exact ⟨[], linesHold_nil, accounts_done⟩
  | cons line rest ih =>
    unfold walk at completed ⊢
    cases read : readLine line with
    | error problem => simp [read, Trace.failed] at completed
    | ok document? =>
      rw [read] at completed
      cases document? with
      | none =>
        obtain ⟨documents, held, accounts⟩ := ih completed
        exact ⟨documents, held.blank read, accounts⟩
      | some d =>
        dsimp only at completed ⊢
        cases verdict : p.evaluate d.value with
        | ok answer =>
          rw [verdict] at completed
          cases answer with
          | true =>
            obtain ⟨documents, held, accounts⟩ := ih completed
            exact ⟨d :: documents, held.document read, accounts.keep verdict⟩
          | false =>
            obtain ⟨documents, held, accounts⟩ := ih completed
            exact ⟨d :: documents, held.document read, accounts.skip verdict⟩
        | error cause =>
          rw [verdict] at completed
          cases strict with
          | true => simp [Trace.failed] at completed
          | false =>
            obtain ⟨documents, held, accounts⟩ := ih completed
            exact ⟨d :: documents, held.document read, accounts.fault verdict rfl⟩

/-! ### Whole scans -/

theorem matching_eq_holds (p : Predicate) (d : Document) : matching p d = p.holds d.value :=
  Bool.eq_iff_iff.mpr (gives_iff.trans Predicate.holds_iff.symm)

theorem matching_add_faulting_le (p : Predicate) (documents : List Document) :
    documents.countP (matching p) + documents.countP (faulting p) ≤ documents.length := by
  have apart : documents.countP (faulting p) ≤ documents.countP fun d => !matching p d := by
    refine List.countP_mono_left fun d _ unanswered => ?_
    unfold faulting at unanswered
    unfold matching gives
    split <;> simp_all [Except.isOk, Except.toBool]
  rw [List.length_eq_countP_add_countP (matching p)]
  simpa using apart

theorem filter_values (p : Predicate) (documents : List Document) :
    p.filter (documents.map Document.value) =
      (documents.filter fun d => p.holds d.value).map Document.value := by
  rw [Predicate.filter, List.filter_map]
  rfl

theorem run_of_ok {options : Options} {p : Predicate} {input : List UInt8} {summary : Summary}
    (completed : (run options p input).result = .ok summary) :
    ∃ t, walk options.strict p 1 (linesOf input) = t ∧ t.failure = none ∧ t.summary = summary ∧
      (run options p input).output =
        if options.countOnly then writeLines [toString summary.matched] else writeLines t.kept := by
  unfold run at completed ⊢
  generalize walk options.strict p 1 (linesOf input) = t at completed ⊢
  refine ⟨t, rfl, ?_⟩
  cases ended : t.failure with
  | some failure => simp [ended] at completed
  | none =>
    simp only [ended, Except.ok.injEq] at completed ⊢
    subst completed
    refine ⟨trivial, rfl, ?_⟩
    cases options.countOnly <;> rfl

/-- A scan gives the warning that its counts call for, and none if it fails. -/
theorem run_warning (options : Options) (p : Predicate) (input : List UInt8) :
    (run options p input).warning = (run options p input).result.toOption.bind Summary.warning := by
  unfold run
  dsimp only
  split <;> rfl

/-- A scan that does not fail has read the documents that its input's lines hold, and they hold no
others. It counts them, those that the query matches and those that it faults on, and writes the number
or the lines of those that a filter by the query keeps. -/
theorem run_completed {options : Options} {q : Json} {input : List UInt8} {summary : Summary}
    (completed : (run options (Query.compile q) input).result = .ok summary) :
    ∃ documents, LinesHold (splitLines input) documents ∧
      (∀ others, LinesHold (splitLines input) others → others = documents) ∧
      summary.scanned = documents.length ∧
      summary.matched = documents.countP (matching (Query.compile q)) ∧
      summary.faults = documents.countP (faulting (Query.compile q)) ∧
      summary.matched + summary.faults ≤ summary.scanned ∧
      (options.strict = true → summary.faults = 0) ∧
      ∃ kept, kept = documents.filter (fun d => (Query.compile q).holds d.value) ∧
        kept.map Document.value = (Query.compile q).filter (documents.map Document.value) ∧
        (run options (Query.compile q) input).output =
          if options.countOnly then bytesOf (toString summary.matched) ++ [lineFeed]
          else kept.flatMap fun d => bytesOf d.text ++ [lineFeed] := by
  obtain ⟨t, walked, ended, rfl, output⟩ := run_of_ok completed
  rw [← walked] at ended
  obtain ⟨documents, held, accounts⟩ := walk_accounts ended
  rw [walked] at accounts
  rw [linesOf_eq] at held
  refine ⟨documents, held, fun others other => other.unique held, accounts.scanned, accounts.matched,
    accounts.faults, ?_, accounts.unfailing, _, rfl, (filter_values _ documents).symm, ?_⟩
  · rw [accounts.scanned, accounts.matched, accounts.faults]
    exact matching_add_faulting_le _ documents
  · have same : documents.filter (matching (Query.compile q)) =
        documents.filter fun d => (Query.compile q).holds d.value :=
      List.filter_congr fun d _ => matching_eq_holds _ d
    rw [output, accounts.kept, same]
    cases options.countOnly with
    | true => simp [writeLines]
    | false => simp [writeLines, List.flatMap_map]

theorem ok_of_toOption {ε α : Type} {result : Except ε α} {value : α}
    (found : result.toOption = some value) : result = .ok value := by
  cases result with
  | error e => cases found
  | ok other => exact congrArg Except.ok (Option.some.inj found)

/-- A match before a blank line, a fault, and a document that does not match on a line of its own
that lacks its line feed. -/
theorem run_completed_three :
    let q : Json := .object [("a", .object [("$gt", .number (.natural 1 (by decide)))])]
    let input := bytesOf "\x7b\"a\":2\x7d\r\n\n \x7b\"a\":\"x\"\x7d\n\x7b\"a\":0\x7d"
    (run ⟨false, false⟩ (Query.compile q) input).result = .ok ⟨3, 1, 1⟩ ∧
      ∃ documents, LinesHold (splitLines input) documents ∧ documents.length = 3 ∧
        documents.countP (matching (Query.compile q)) = 1 ∧
        documents.countP (faulting (Query.compile q)) = 1 := by
  intro q input
  have counted : (run ⟨false, false⟩ (Query.compile q) input).result.toOption = some ⟨3, 1, 1⟩ := by
    decide +kernel
  have completed := ok_of_toOption counted
  obtain ⟨documents, held, _, scanned, matched, faults, _⟩ := run_completed completed
  exact ⟨completed, documents, held, scanned.symm, matched.symm, faults.symm⟩

end DocQuery.Scan
