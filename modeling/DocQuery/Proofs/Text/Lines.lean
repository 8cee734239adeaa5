import DocQuery.Text.Bytes

/-!
# Lines of bytes

The lines of bytes are the pieces between line feeds, each but the last without the carriage return
at its end (`linesOf_eq`). The last piece has no line feed, and is a line only if it holds something.
-/

namespace DocQuery

/-- A line without the carriage return before its line feed. -/
def dropReturn (line : List UInt8) : List UInt8 :=
  if line.getLast? = some carriageReturn then line.dropLast else line

/-- The lines of the pieces between line feeds. -/
def pieceLines (pieces : List (List UInt8)) : List (List UInt8) :=
  pieces.dropLast.map dropReturn ++ pieces.getLast?.toList.filter fun last => !last.isEmpty

def splitLines (bytes : List UInt8) : List (List UInt8) := pieceLines (bytes.splitOn lineFeed)

theorem pieceLines_cons (piece : List UInt8) {rest : List (List UInt8)} (more : rest ≠ []) :
    pieceLines (piece :: rest) = dropReturn piece :: pieceLines rest := by
  rw [pieceLines, List.dropLast_cons_of_ne_nil more, List.getLast?_cons_of_ne_nil more]
  rfl

theorem endLine_eq (line : List UInt8) : endLine line = dropReturn line.reverse := by
  cases line with
  | nil => rfl
  | cons b line =>
    rw [dropReturn, List.getLast?_reverse, List.head?_cons]
    by_cases ended : b = carriageReturn
    · simp [endLine, ended]
    · simp [endLine, ended]

theorem modifyHead_nil_append (pieces : List (List UInt8)) :
    pieces.modifyHead ([].reverse ++ ·) = pieces := by
  cases pieces <;> rfl

/-- What was gathered of the current line is the start of the first piece. -/
theorem linesFrom_eq (line bytes : List UInt8) :
    linesFrom line bytes = pieceLines ((bytes.splitOn lineFeed).modifyHead (line.reverse ++ ·)) := by
  induction bytes generalizing line with
  | nil =>
    rw [linesFrom, List.splitOn_nil, List.modifyHead_cons, List.append_nil]
    cases line <;> simp [pieceLines]
  | cons b rest ih =>
    rw [linesFrom, List.splitOn_cons_eq_if_modifyHead]
    by_cases ends : b = lineFeed
    · have more : rest.splitOn lineFeed ≠ [] := List.splitOn_ne_nil _ _
      rw [if_pos ends, if_pos (beq_iff_eq.mpr ends), List.modifyHead_cons, List.append_nil,
        pieceLines_cons _ more, endLine_eq, ih, modifyHead_nil_append]
    · rw [if_neg ends, if_neg (mt beq_iff_eq.mp ends), ih, List.modifyHead_modifyHead]
      simp [Function.comp_def]

theorem linesOf_eq (bytes : List UInt8) : linesOf bytes = splitLines bytes := by
  rw [linesOf, linesFrom_eq, modifyHead_nil_append, splitLines]

/-! ### One line after another -/

theorem splitLines_of_not_mem {bytes : List UInt8} (unbroken : lineFeed ∉ bytes) :
    splitLines bytes = if bytes = [] then [] else [bytes] := by
  rw [splitLines, List.splitOn_eq_singleton unbroken]
  cases bytes <;> rfl

theorem splitLines_nil : splitLines [] = [] := rfl

theorem splitLines_cons {piece : List UInt8} (unbroken : lineFeed ∉ piece) (rest : List UInt8) :
    splitLines (piece ++ lineFeed :: rest) = dropReturn piece :: splitLines rest := by
  rw [splitLines, List.splitOn_append_cons_self_of_not_mem unbroken,
    pieceLines_cons _ (List.splitOn_ne_nil _ _), splitLines]

/-- Induction over the line feeds of bytes. -/
theorem induct_lines {motive : List UInt8 → Prop}
    (last : ∀ bytes, lineFeed ∉ bytes → motive bytes)
    (line : ∀ piece rest, lineFeed ∉ piece → motive rest → motive (piece ++ lineFeed :: rest))
    (bytes : List UInt8) : motive bytes := by
  by_cases broken : lineFeed ∈ bytes
  · obtain ⟨piece, rest, rfl, unbroken⟩ := List.eq_append_cons_of_mem broken
    have shorter : rest.length < (piece ++ lineFeed :: rest).length := by simp; omega
    exact line piece rest unbroken (induct_lines last line rest)
  · exact last bytes broken
termination_by bytes.length

theorem mem_of_mem_dropReturn {piece : List UInt8} {b : UInt8} (member : b ∈ dropReturn piece) :
    b ∈ piece := by
  unfold dropReturn at member
  split at member
  · exact List.dropLast_subset piece member
  · exact member

theorem lineFeed_not_mem {bytes line : List UInt8} (member : line ∈ splitLines bytes) :
    lineFeed ∉ line := by
  induction bytes using induct_lines with
  | last bytes unbroken =>
    rw [splitLines_of_not_mem unbroken] at member
    split at member
    · cases member
    · obtain rfl := List.mem_singleton.mp member
      exact unbroken
  | line piece rest unbroken ih =>
    rw [splitLines_cons unbroken] at member
    rcases List.mem_cons.mp member with rfl | later
    · exact fun broken => unbroken (mem_of_mem_dropReturn broken)
    · exact ih later

/-- Before each of its lines an input can be cut in two, and what follows the cut has no part in the
lines before it. -/
theorem splitLines_cut {bytes line : List UInt8} {before after : List (List UInt8)}
    (lines : splitLines bytes = before ++ line :: after) :
    ∃ earlier later, bytes = earlier ++ later ∧ splitLines later = line :: after ∧
      ∀ rest, splitLines (earlier ++ rest) = before ++ splitLines rest := by
  induction before generalizing bytes with
  | nil => exact ⟨[], bytes, rfl, lines, fun _ => rfl⟩
  | cons first before ih =>
    by_cases broken : lineFeed ∈ bytes
    · obtain ⟨piece, rest, rfl, unbroken⟩ := List.eq_append_cons_of_mem broken
      rw [splitLines_cons unbroken, List.cons_append] at lines
      obtain ⟨rfl, others⟩ := List.cons.inj lines
      obtain ⟨earlier, later, rfl, found, cut⟩ := ih others
      refine ⟨piece ++ lineFeed :: earlier, later, by simp, found, fun rest => ?_⟩
      rw [List.append_assoc, List.cons_append, splitLines_cons unbroken, cut, List.cons_append]
    · -- without a line feed there is one line at most, and here there are two
      rw [splitLines_of_not_mem broken] at lines
      split at lines <;> simp at lines

/-! ### Bytes that end where a line ends -/

def WholeLines (bytes : List UInt8) : Prop := bytes = [] ∨ bytes.getLast? = some lineFeed

theorem WholeLines.of_cons {piece rest : List UInt8}
    (whole : WholeLines (piece ++ lineFeed :: rest)) : WholeLines rest := by
  rcases whole with empty | ended
  · exact absurd (List.append_eq_nil_iff.mp empty).2 (List.cons_ne_nil _ _)
  · cases rest with
    | nil => exact .inl rfl
    | cons b rest =>
      exact .inr (by simpa [List.getLast?_append, List.getLast?_cons_cons] using ended)

theorem WholeLines.eq_nil {bytes : List UInt8} (whole : WholeLines bytes)
    (unbroken : lineFeed ∉ bytes) : bytes = [] := by
  rcases whole with empty | ended
  · exact empty
  · exact absurd (List.mem_of_getLast? ended) unbroken

theorem WholeLines.cons (piece : List UInt8) {rest : List UInt8} (whole : WholeLines rest) :
    WholeLines (piece ++ lineFeed :: rest) := by
  refine .inr ?_
  rcases whole with rfl | ended
  · simp
  · simp [List.getLast?_append, List.getLast?_cons, ended]

/-- Bytes are whole lines and a piece of a line. -/
theorem exists_whole_append (bytes : List UInt8) :
    ∃ whole piece, bytes = whole ++ piece ∧ WholeLines whole ∧ lineFeed ∉ piece := by
  induction bytes using induct_lines with
  | last bytes unbroken => exact ⟨[], bytes, rfl, .inl rfl, unbroken⟩
  | line piece rest _ ih =>
    obtain ⟨whole, last, rfl, ended, unbroken⟩ := ih
    exact ⟨piece ++ lineFeed :: whole, last, by simp, ended.cons piece, unbroken⟩

theorem splitLines_append {bytes : List UInt8} (whole : WholeLines bytes) (rest : List UInt8) :
    splitLines (bytes ++ rest) = splitLines bytes ++ splitLines rest := by
  induction bytes using induct_lines with
  | last bytes unbroken =>
    obtain rfl := whole.eq_nil unbroken
    rfl
  | line piece others unbroken ih =>
    rw [List.append_assoc, List.cons_append, splitLines_cons unbroken, splitLines_cons unbroken,
      ih whole.of_cons, List.cons_append]

/-- Such bytes have a line for each of their line feeds. -/
theorem length_splitLines {bytes : List UInt8} (whole : WholeLines bytes) :
    (splitLines bytes).length = bytes.count lineFeed := by
  induction bytes using induct_lines with
  | last bytes unbroken =>
    obtain rfl := whole.eq_nil unbroken
    rfl
  | line piece rest unbroken ih =>
    rw [splitLines_cons unbroken, List.length_cons, ih whole.of_cons, List.count_append,
      List.count_eq_zero_of_not_mem unbroken, List.count_cons_self, Nat.zero_add]

end DocQuery
