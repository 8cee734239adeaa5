import DocQuery.Proofs.Query.Connectives
import DocQuery.Proofs.Scan.Completion
import DocQuery.Proofs.Text.Written

/-!
# Scans of what a scan has written

What a scan writes are lines that read back as the documents they came from. So a second scan of them
keeps those that both queries match, as the conjunction of the two does in one scan
(`output_output`), and the same query keeps them all (`rerun`).
-/

namespace DocQuery.Scan

/-- The documents of lines, up to the first line that cannot be read or parsed. -/
def documentsOf : List (List UInt8) → List Document
  | [] => []
  | line :: rest =>
    match readLine line with
    | .error _ => []
    | .ok none => documentsOf rest
    | .ok (some document) => document :: documentsOf rest

/-- A lenient scan keeps the matches among its documents, also if it fails after them. -/
theorem walk_lenient_kept (p : Predicate) (number : Nat) (lines : List (List UInt8)) :
    (walk false p number lines).kept =
      ((documentsOf lines).filter (matching p)).map Document.text := by
  induction lines generalizing number with
  | nil => rfl
  | cons line rest ih =>
    unfold walk documentsOf
    cases readLine line with
    | error problem => rfl
    | ok document? =>
      cases document? with
      | none => exact ih _
      | some d =>
        dsimp only
        cases verdict : p.evaluate d.value with
        | ok answer =>
          cases answer with
          | true =>
            have accepted : matching p d = true := gives_iff.mpr verdict
            rw [List.filter_cons_of_pos accepted, List.map_cons, ← ih]
            rfl
          | false =>
            have refused : ¬matching p d = true := mt gives_iff.mp (by simp [verdict])
            rw [List.filter_cons_of_neg refused, ← ih]
            rfl
        | error cause =>
          have refused : ¬matching p d = true := mt gives_iff.mp (by simp [verdict])
          rw [List.filter_cons_of_neg refused, ← ih]
          rfl

/-! ### Documents that are written -/

/-- A document whose text, on a line of its own, is read as that document. -/
structure Readable (d : Document) : Prop where
  read : readLine (bytesOf d.text) = .ok (some d)
  unbroken : lineFeed ∉ bytesOf d.text
  unreturned : dropReturn (bytesOf d.text) = bytesOf d.text

theorem readable_of_readLine {line : List UInt8} {d : Document} (unbroken : lineFeed ∉ line)
    (read : readLine line = .ok (some d)) : Readable d := by
  obtain ⟨s, decoded, ⟨_, wrong⟩ | ⟨filled, v, parsed, found⟩⟩ := readLine_ok read
  · cases wrong
  · obtain rfl := Option.some.inj found
    obtain rfl := decode?_eq_some_iff.mp decoded
    have same := trim_trim s
    have filled : trim (trim s) ≠ "" := by rw [same]; exact filled
    have parsed : Json.parse (trim (trim s)) = .ok v := by rw [same]; exact parsed
    have read := readLine_of_ok filled parsed
    rw [same] at read
    exact ⟨read, mt mem_of_mem_trim unbroken, dropReturn_trim s⟩

theorem readable_of_documentsOf {lines : List (List UInt8)}
    (unbroken : ∀ line ∈ lines, lineFeed ∉ line) : ∀ d ∈ documentsOf lines, Readable d := by
  induction lines with
  | nil => exact nofun
  | cons line rest ih =>
    obtain ⟨first, others⟩ := List.forall_mem_cons.mp unbroken
    unfold documentsOf
    split
    · exact nofun
    · exact ih others
    · rename_i d read
      exact List.forall_mem_cons.mpr ⟨readable_of_readLine first read, ih others⟩

section

variable {documents : List Document}

theorem splitLines_writeLines (readable : ∀ d ∈ documents, Readable d) :
    splitLines (writeLines (documents.map Document.text)) =
      documents.map fun d => bytesOf d.text := by
  induction documents with
  | nil => rfl
  | cons d rest ih =>
    obtain ⟨first, others⟩ := List.forall_mem_cons.mp readable
    rw [List.map_cons, writeLines, List.flatMap_cons, List.append_assoc, List.singleton_append,
      splitLines_cons first.unbroken, first.unreturned, List.map_cons]
    exact congrArg _ (ih others)

theorem documentsOf_texts (readable : ∀ d ∈ documents, Readable d) :
    documentsOf (documents.map fun d => bytesOf d.text) = documents := by
  induction documents with
  | nil => rfl
  | cons d rest ih =>
    obtain ⟨first, others⟩ := List.forall_mem_cons.mp readable
    rw [List.map_cons, documentsOf, first.read]
    exact congrArg _ (ih others)

/-- Documents that match are all counted and kept, under `strict` as well. -/
theorem walk_texts {strict : Bool} {p : Predicate} (readable : ∀ d ∈ documents, Readable d)
    (matched : ∀ d ∈ documents, matching p d = true) (number : Nat) :
    walk strict p number (documents.map fun d => bytesOf d.text) =
      { summary := ⟨documents.length, documents.length, 0⟩
        kept := documents.map Document.text
        failure := none } := by
  induction documents generalizing number with
  | nil => rfl
  | cons d rest ih =>
    obtain ⟨first, others⟩ := List.forall_mem_cons.mp readable
    obtain ⟨yes, matched⟩ := List.forall_mem_cons.mp matched
    rw [List.map_cons, walk, first.read]
    dsimp only
    rw [gives_iff.mp yes]
    dsimp only
    rw [ih others matched]
    rfl

end

/-! ### Whole scans -/

/-- What a lenient scan that does not only count writes, whether it fails or not. -/
def output (q : Json) (input : List UInt8) : List UInt8 :=
  (run ⟨false, false⟩ (Query.compile q) input).output

theorem output_eq (q : Json) (input : List UInt8) :
    output q input = writeLines
      (((documentsOf (splitLines input)).filter (matching (Query.compile q))).map Document.text) := by
  rw [← walk_lenient_kept _ 1, ← linesOf_eq]
  unfold output run
  dsimp only
  split <;> rfl

theorem readable_of_input (input : List UInt8) : ∀ d ∈ documentsOf (splitLines input), Readable d :=
  readable_of_documentsOf fun _ member => lineFeed_not_mem member

theorem matching_allOf (q₁ q₂ : Json) (d : Document) :
    matching (Query.compile (Query.allOf [q₁, q₂])) d =
      (matching (Query.compile q₂) d && matching (Query.compile q₁) d) := by
  rw [Bool.eq_iff_iff, Bool.and_eq_true, matching_eq_holds, matching_eq_holds, matching_eq_holds,
    Query.holds_allOf_iff]
  simp [and_comm]

theorem output_output (q₁ q₂ : Json) (input : List UInt8) :
    output q₂ (output q₁ input) = output (Query.allOf [q₁, q₂]) input := by
  have readable : ∀ d ∈ (documentsOf (splitLines input)).filter (matching (Query.compile q₁)),
      Readable d := fun d member => readable_of_input input d (List.mem_of_mem_filter member)
  rw [output_eq q₁, output_eq q₂, splitLines_writeLines readable, documentsOf_texts readable,
    List.filter_filter, output_eq (Query.allOf [q₁, q₂]), funext (matching_allOf q₁ q₂)]

theorem rerun (q : Json) (input : List UInt8) (strict : Bool) :
    ∃ n, run ⟨false, strict⟩ (Query.compile q) (output q input) =
      { output := output q input
        warning := none
        result := .ok ⟨n, n, 0⟩ } := by
  let documents := (documentsOf (splitLines input)).filter (matching (Query.compile q))
  have readable : ∀ d ∈ documents, Readable d :=
    fun d member => readable_of_input input d (List.mem_of_mem_filter member)
  have matched : ∀ d ∈ documents, matching (Query.compile q) d = true :=
    fun d member => List.of_mem_filter member
  have walked : walk strict (Query.compile q) 1 (documents.map fun d => bytesOf d.text) = _ :=
    walk_texts readable matched 1
  refine ⟨documents.length, ?_⟩
  rw [output_eq, run, linesOf_eq, splitLines_writeLines readable, walked]
  rfl

/-- A scan of what a scan has written is a scan by the conjunction of the two queries, whatever the
first input and the queries are. A scan of what the same query has written finds only matches, under
`strict` as well, and writes it once more. -/
theorem piping_conjunction :
    (∀ (q₁ q₂ : Json) (input : List UInt8),
        output q₂ (output q₁ input) = output (Query.allOf [q₁, q₂]) input) ∧
      ∀ (q : Json) (input : List UInt8) (strict : Bool),
        ∃ n, run ⟨false, strict⟩ (Query.compile q) (output q input) =
          { output := output q input
            warning := none
            result := .ok ⟨n, n, 0⟩ } :=
  ⟨output_output, rerun⟩

end DocQuery.Scan
