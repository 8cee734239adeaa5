import DocQuery.Json.Basic
import DocQuery.Json.Skip

/-!
# Reading JSON text

`Json.read` gives the tree as written, with every entry of every object; `Json.parse` gives the
value it means. `Json.readSelected` leaves out the entries that do not count and passes over their
values. Containers nest at most 127 deep, save in what is passed over.
-/

namespace DocQuery.Json

def maxDepth : Nat := 127

/-- Which entries of a text count. A place stands for what the way to a value tells about it. -/
structure Selection (Place : Type) where
  /-- The place of an entry's value, from that of its object; none if the entry does not count. -/
  entry : Place → String → Option Place
  /-- The place of the elements of an array, from that of the array. -/
  item : Place → Place

def Selection.everything : Selection Unit := ⟨fun _ _ => some (), id⟩

def readNumber (negative : Bool) (cs : List Char) : Reading Json :=
  match readLiteral negative cs with
  | .error e => .error e
  | .ok (literal, rest) =>
    match literal.number? with
    | none => .error .malformed
    | some n => .ok (.number n, rest)

mutual
/-- Reads a value at a place, in which containers may nest `depth` deep. The budget bounds the
calls. -/
def readValue {Place : Type} (selection : Selection Place) :
    Nat → Nat → Place → List Char → Reading Json
  | 0, _, _, _ => .error .endOfText
  | budget + 1, depth, place, cs =>
    match skipBlanks cs with
    | [] => .error .endOfText
    | 'n' :: rest => (readWord "ull".toList rest).map (.null, ·)
    | 't' :: rest => (readWord "rue".toList rest).map (.bool true, ·)
    | 'f' :: rest => (readWord "alse".toList rest).map (.bool false, ·)
    | '"' :: rest => (readChars budget [] rest).map fun (s, rest) => (.string s, rest)
    | '[' :: rest =>
      match depth with
      | 0 => .error .malformed
      | depth + 1 =>
        match skipBlanks rest with
        | ']' :: rest => .ok (.array [], rest)
        | rest =>
          (readItems selection budget depth (selection.item place) [] rest).map
            fun (items, rest) => (.array items, rest)
    | '\x7b' :: rest =>
      match depth with
      | 0 => .error .malformed
      | depth + 1 =>
        match skipBlanks rest with
        | '\x7d' :: rest => .ok (.object [], rest)
        | rest =>
          (readEntries selection budget depth place [] rest).map
            fun (entries, rest) => (.object entries, rest)
    | '-' :: rest => readNumber true rest
    | c :: rest => if c.isDigit then readNumber false (c :: rest) else .error .malformed

/-- Reads elements up to the closing bracket, given those before them in reverse. -/
def readItems {Place : Type} (selection : Selection Place) :
    Nat → Nat → Place → List Json → List Char → Reading (List Json)
  | 0, _, _, _, _ => .error .endOfText
  | budget + 1, depth, place, before, cs =>
    match readValue selection budget depth place cs with
    | .error e => .error e
    | .ok (v, rest) =>
      match skipBlanks rest with
      | [] => .error .endOfText
      | ']' :: rest => .ok ((v :: before).reverse, rest)
      | ',' :: rest => readItems selection budget depth place (v :: before) rest
      | _ => .error .malformed

/-- Reads entries up to the closing brace, given those that count before them in reverse. -/
def readEntries {Place : Type} (selection : Selection Place) :
    Nat → Nat → Place → List (String × Json) → List Char → Reading (List (String × Json))
  | 0, _, _, _, _ => .error .endOfText
  | budget + 1, depth, place, before, cs =>
    match skipBlanks cs with
    | [] => .error .endOfText
    | '"' :: rest =>
      match readChars budget [] rest with
      | .error e => .error e
      | .ok (key, rest) =>
        match skipBlanks rest with
        | [] => .error .endOfText
        | ':' :: rest =>
          let reading : Reading (List (String × Json)) :=
            match selection.entry place key with
            | none => (skip budget .value [] rest).map (before, ·)
            | some inner =>
              (readValue selection budget depth inner rest).map
                fun (v, rest) => ((key, v) :: before, rest)
          match reading with
          | .error e => .error e
          | .ok (before, rest) =>
            match skipBlanks rest with
            | [] => .error .endOfText
            | '\x7d' :: rest => .ok (before.reverse, rest)
            | ',' :: rest => readEntries selection budget depth place before rest
            | _ => .error .malformed
        | _ => .error .malformed
    | _ => .error .malformed
end

/-- The tree that a text writes at a place, repeated keys and all, without the entries that do not
count. Only blanks may follow it. -/
def readSelected {Place : Type} (selection : Selection Place) (place : Place) (text : String) :
    Except ReadError Json :=
  let cs := text.toList
  match readValue selection (2 * cs.length + 2) maxDepth place cs with
  | .error e => .error e
  | .ok (value, rest) => if (skipBlanks rest).isEmpty then .ok value else .error .malformed

/-- The tree that a text writes, repeated keys and all. -/
def read (text : String) : Except ReadError Json := readSelected .everything () text

/-- The value that a text means. -/
def parse (text : String) : Except ReadError Json := (read text).map settle

end DocQuery.Json
