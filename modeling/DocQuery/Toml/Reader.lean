import DocQuery.Toml.Quoted
import DocQuery.Toml.Scalar
import DocQuery.Toml.Table

/-!
# Reading TOML

A document is a list of lines, each a header, a key with a value, or nothing, and each perhaps with
a comment. Arrays and inline tables may span lines, break before and after an equals sign, and end
with a comma; dotted keys stay on one line. Containers nest at most 80 deep, and a dotted key has at
most 80 parts.
-/

namespace DocQuery.Toml

/-- What is read off the front of a text, and the rest; none if the text is not TOML. -/
abbrev Reading (α : Type) := Option (α × List Char)

/-- Bounds the depth of containers and the parts of a dotted key. -/
def limit : Nat := 80

def skipBlanks (cs : List Char) : List Char := cs.dropWhile isBlank

def skipComment (cs : List Char) : List Char :=
  match cs with
  | '#' :: rest => rest.dropWhile isPlain
  | rest => rest

/-- Drops blanks, comments and line ends, as they may stand between the parts of a container. -/
def skipGaps : Nat → List Char → List Char
  | 0, cs => cs
  | budget + 1, cs =>
    let rest := skipComment (skipBlanks cs)
    match newline? rest with
    | some rest => skipGaps budget rest
    | none => rest

/-! ### Keys -/

def isBare (c : Char) : Bool := c.isAlphanum || c == '-' || c == '_'

def readPart (cs : List Char) : Reading String :=
  match readLine? cs with
  | some part => some part
  | none =>
    match cs.takeWhile isBare with
    | [] => none
    | part => some (String.ofList part, cs.dropWhile isBare)

def readParts : Nat → List Char → Reading (List String)
  | 0, _ => none
  | budget + 1, cs =>
    match readPart (skipBlanks cs) with
    | none => none
    | some (part, rest) =>
      match skipBlanks rest with
      | '.' :: rest => (readParts budget rest).map fun (parts, rest) => (part :: parts, rest)
      | rest => some ([part], rest)

/-- Reads a dotted key: its path, its last part, and the blanks after it. -/
def readKey (cs : List Char) : Reading (List String × String) :=
  match readParts limit cs with
  | none => none
  | some (parts, rest) => parts.getLast?.map fun last => ((parts.dropLast, last), rest)

/-! ### Values -/

def isWord (c : Char) : Bool :=
  c.isAlphanum || c == '_' || c == '+' || c == '-' || c == '.' || c == ':'

/-- Splits off an unquoted word. A blank may stand between a date and a time. -/
def splitWord (cs : List Char) : List Char × List Char :=
  let word := cs.takeWhile isWord
  let rest := cs.dropWhile isWord
  match date? word, rest with
  | some (_, []), ' ' :: c :: rest =>
    if c.isDigit then
      (word ++ ' ' :: (c :: rest).takeWhile isWord, (c :: rest).dropWhile isWord)
    else (word, ' ' :: c :: rest)
  | _, rest => (word, rest)

mutual
/-- Reads a value, in which containers may nest `depth` deep. The budget bounds the calls. -/
def readValue : Nat → Nat → List Char → Reading Json
  | 0, _, _ => none
  | budget + 1, depth, cs =>
    match cs with
    | '[' :: rest =>
      match depth with
      | 0 => none
      | depth + 1 => (readItems budget depth [] rest).map fun (items, rest) => (.array items, rest)
    | '\x7b' :: rest =>
      match depth with
      | 0 => none
      | depth + 1 =>
        (readEntries budget depth [] rest).map fun (entries, rest) =>
          ((Node.table .header entries).toJson, rest)
    | cs =>
      match readString? cs with
      | some (s, rest) => some (.string s, rest)
      | none =>
        let (word, rest) := splitWord cs
        (scalar? word).map (·, rest)

/-- Reads elements up to the closing bracket, given those before them in reverse. -/
def readItems : Nat → Nat → List Json → List Char → Reading (List Json)
  | 0, _, _, _ => none
  | budget + 1, depth, before, cs =>
    match skipGaps cs.length cs with
    | ']' :: rest => some (before.reverse, rest)
    | cs =>
      match readValue budget depth cs with
      | none => none
      | some (v, rest) =>
        match skipGaps rest.length rest with
        | ',' :: rest => readItems budget depth (v :: before) rest
        | ']' :: rest => some ((v :: before).reverse, rest)
        | _ => none

/-- Reads the entries of an inline table up to its closing brace, given the table so far. -/
def readEntries : Nat → Nat → Entries → List Char → Reading Entries
  | 0, _, _, _ => none
  | budget + 1, depth, table, cs =>
    match skipGaps cs.length cs with
    | '\x7d' :: rest => some (table, rest)
    | cs =>
      match readKey cs with
      | none => none
      | some ((path, key), rest) =>
        match skipGaps rest.length rest with
        | '=' :: rest =>
          match readValue budget depth (skipGaps rest.length rest) with
          | none => none
          | some (v, rest) =>
            match table.assign path key v with
            | none => none
            | some table =>
              match skipGaps rest.length rest with
              | ',' :: rest => readEntries budget depth table rest
              | '\x7d' :: rest => some (table, rest)
              | _ => none
        | _ => none
end

/-! ### Documents -/

def readHeader (cs : List Char) : Reading Header :=
  match cs with
  | '[' :: rest =>
    match readKey rest with
    | some ((path, key), ']' :: ']' :: rest) => some (⟨path, key, true⟩, rest)
    | _ => none
  | rest =>
    match readKey rest with
    | some ((path, key), ']' :: rest) => some (⟨path, key, false⟩, rest)
    | _ => none

def readStatement (d : Draft) (cs : List Char) : Reading Draft :=
  match cs with
  | '[' :: rest =>
    match readHeader rest with
    | some (header, rest) => (d.openTable header).map (·, rest)
    | none => none
  | cs =>
    match readKey cs with
    | some ((path, key), '=' :: rest) =>
      match readValue (2 * rest.length + 2) limit (skipBlanks rest) with
      | some (v, rest) => (d.assign path key v).map (·, rest)
      | none => none
    | _ => none

def readLines : Nat → Draft → List Char → Option Draft
  | 0, d, cs => if cs.isEmpty then some d else none
  | budget + 1, d, cs =>
    match skipGaps cs.length cs with
    | [] => some d
    | cs =>
      match readStatement d cs with
      | none => none
      | some (d, rest) =>
        match skipComment (skipBlanks rest) with
        | [] => some d
        | rest =>
          match newline? rest with
          | some rest => readLines budget d rest
          | none => none

def skipMark : List Char → List Char
  | '\uFEFF' :: rest => rest
  | cs => cs

/-- The entries of the document that a text writes, in the order of their keys' bytes. -/
def parse? (text : String) : Option (List (String × Json)) :=
  let cs := skipMark text.toList
  match readLines (cs.length + 1) .empty cs with
  | some d => d.close.map fun root => sortEntries (entriesToJson root)
  | none => none

end DocQuery.Toml
