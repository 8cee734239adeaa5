import DocQuery.Json.Reader
import DocQuery.Number.Text
import DocQuery.Predicate.Test
import DocQuery.Text.Bytes
import DocQuery.Text.WhiteSpace

/-!
# Scanning

A scan reads documents, one to a line, and keeps the lines whose documents match. Blank lines are
passed over, though they count as lines. A line that cannot be read, or whose document cannot be
parsed, ends the scan; under `strict` so does a document that the query cannot be evaluated on.
What was written before the end stays written. A scan that comes to the end of its lines warns of the
documents that it passed over because of a fault.
-/

namespace DocQuery.Scan

structure Options where
  /-- Write only the number of matching documents. -/
  countOnly : Bool
  /-- Fail on the first fault. -/
  strict : Bool

/-- How many documents a scan has read, kept, and failed to evaluate. -/
structure Summary where
  scanned : Nat
  matched : Nat
  faults : Nat
deriving DecidableEq

/-- The faults to warn of at the end of a scan, if there are any. -/
def Summary.warning (s : Summary) : Option Nat := if 0 < s.faults then some s.faults else none

inductive Problem where
  | unreadable
  | unparsable (cause : ReadError)
  | unevaluable (cause : Fault)

/-- The first bad line, counted from one. -/
structure Failure where
  line : Nat
  problem : Problem

/-- A document and the line that holds it, without white space at its ends. -/
structure Document where
  text : String
  value : Json

/-- The document of a line; none if the line is blank. -/
def readLine (line : List UInt8) : Except Problem (Option Document) :=
  match decode? line with
  | none => .error .unreadable
  | some s =>
    let text := trim s
    if text.isEmpty then .ok none
    else
      match Json.parse text with
      | .error cause => .error (.unparsable cause)
      | .ok value => .ok (some ⟨text, value⟩)

/-- What a scan has done by its end: its counts, the lines it kept, and where it failed, if it
did. -/
structure Trace where
  summary : Summary
  kept : List String
  failure : Option Failure

namespace Trace

def done : Trace := ⟨⟨0, 0, 0⟩, [], none⟩

def failed (line : Nat) (problem : Problem) : Trace := ⟨⟨0, 0, 0⟩, [], some ⟨line, problem⟩⟩

/-- Counts a document before the others that it does not match. -/
def skip (t : Trace) : Trace :=
  { t with summary := { t.summary with scanned := t.summary.scanned + 1 } }

/-- Counts a document before the others, and keeps its line. -/
def keep (text : String) (t : Trace) : Trace :=
  { t with
    summary := { t.summary with
      scanned := t.summary.scanned + 1
      matched := t.summary.matched + 1 }
    kept := text :: t.kept }

/-- Counts a document before the others that faulted. -/
def fault (t : Trace) : Trace :=
  { t with
    summary := { t.summary with
      scanned := t.summary.scanned + 1
      faults := t.summary.faults + 1 } }

end Trace

def walk (strict : Bool) (p : Predicate) : Nat → List (List UInt8) → Trace
  | _, [] => .done
  | number, line :: rest =>
    match readLine line with
    | .error problem => .failed number problem
    | .ok none => walk strict p (number + 1) rest
    | .ok (some document) =>
      match p.evaluate document.value with
      | .ok true => (walk strict p (number + 1) rest).keep document.text
      | .ok false => (walk strict p (number + 1) rest).skip
      | .error cause =>
        if strict then .failed number (.unevaluable cause)
        else (walk strict p (number + 1) rest).fault

/-- What a scan has written and warned of, and its counts or its failure. -/
structure Report where
  output : List UInt8
  /-- The number of faults in its warning, if it has given one. -/
  warning : Option Nat
  result : Except Failure Summary

def writeLines (lines : List String) : List UInt8 :=
  lines.flatMap fun line => bytesOf line ++ [lineFeed]

/-- Scans the lines of an input. A count is written, and a warning given, at the end of a scan that
does not fail. -/
def run (options : Options) (p : Predicate) (input : List UInt8) : Report :=
  let trace := walk options.strict p 1 (linesOf input)
  match trace.failure with
  | none =>
    { output :=
        writeLines (if options.countOnly then [String.ofList (decimalText trace.summary.matched)]
          else trace.kept)
      warning := trace.summary.warning
      result := .ok trace.summary }
  | some failure =>
    { output := writeLines (if options.countOnly then [] else trace.kept)
      warning := none
      result := .error failure }

end DocQuery.Scan
