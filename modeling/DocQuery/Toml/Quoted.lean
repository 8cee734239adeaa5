import DocQuery.Text.Digit

/-!
# TOML strings

Basic strings have escapes and literal strings have none; either kind may span lines between triple
quotes. Control characters other than the tab are refused, and so is a carriage return without its
line feed.
-/

namespace DocQuery.Toml

/-- A line ends with a line feed, with or without a carriage return before it. -/
def newline? : List Char → Option (List Char)
  | '\n' :: rest => some rest
  | '\r' :: '\n' :: rest => some rest
  | _ => none

def isBlank (c : Char) : Bool := c == ' ' || c == '\t'

/-- A character that strings and comments may hold as it is. -/
def isPlain (c : Char) : Bool := c == '\t' || (0x20 ≤ c.toNat && c.toNat != 0x7F)

/-- Reads exactly `count` hexadecimal digits on top of a number. -/
def readHex (count : Nat) (n : Nat) (cs : List Char) : Option (Nat × List Char) :=
  match count, cs with
  | 0, rest => some (n, rest)
  | _ + 1, [] => none
  | count + 1, c :: rest =>
    match digitValue? 16 c with
    | some d => readHex count (n * 16 + d) rest
    | none => none

def readCodePoint (count : Nat) (cs : List Char) : Option (Char × List Char) :=
  match readHex count 0 cs with
  | some (n, rest) => if n.isValidChar then some (Char.ofNat n, rest) else none
  | none => none

def readEscape : List Char → Option (Char × List Char)
  | 'b' :: rest => some ('\x08', rest)
  | 't' :: rest => some ('\t', rest)
  | 'n' :: rest => some ('\n', rest)
  | 'f' :: rest => some ('\x0c', rest)
  | 'r' :: rest => some ('\r', rest)
  | 'e' :: rest => some ('\x1b', rest)
  | '"' :: rest => some ('"', rest)
  | '\\' :: rest => some ('\\', rest)
  | 'x' :: rest => readCodePoint 2 rest
  | 'u' :: rest => readCodePoint 4 rest
  | 'U' :: rest => readCodePoint 8 rest
  | _ => none

/-- Reads the rest of a basic string on one line, given its characters in reverse. -/
def readBasic : Nat → List Char → List Char → Option (String × List Char)
  | 0, _, _ => none
  | _ + 1, _, [] => none
  | budget + 1, before, c :: rest =>
    if c = '"' then some (String.ofList before.reverse, rest)
    else if c = '\\' then
      match readEscape rest with
      | some (escaped, rest) => readBasic budget (escaped :: before) rest
      | none => none
    else if isPlain c then readBasic budget (c :: before) rest
    else none

/-- Reads the rest of a literal string on one line, given its characters in reverse. -/
def readLiteral : List Char → List Char → Option (String × List Char)
  | _, [] => none
  | before, c :: rest =>
    if c = '\'' then some (String.ofList before.reverse, rest)
    else if isPlain c then readLiteral (c :: before) rest
    else none

def skipLines : Nat → List Char → List Char
  | 0, cs => cs
  | budget + 1, cs =>
    match cs with
    | [] => []
    | c :: rest =>
      if isBlank c then skipLines budget rest
      else
        match newline? (c :: rest) with
        | some rest => skipLines budget rest
        | none => c :: rest

/-- The rest after a line-ending backslash, which takes the white space that follows with it. -/
def afterLineEscape? (cs : List Char) : Option (List Char) :=
  (newline? (cs.dropWhile isBlank)).map fun rest => skipLines rest.length rest

/-- The text and the rest, where a string between triple quotes ends here: up to two more quotes
belong to it. -/
def closing? (quote : Char) (before cs : List Char) : Option (String × List Char) :=
  let run := cs.takeWhile (· == quote)
  if run.length < 3 then none
  else
    let extra := min (run.length - 3) 2
    some (String.ofList (before.reverse ++ run.take extra), cs.drop (extra + 3))

/-- Reads the rest of a basic string between triple quotes, given its characters in reverse. -/
def readBasicLines : Nat → List Char → List Char → Option (String × List Char)
  | 0, _, _ => none
  | _ + 1, _, [] => none
  | budget + 1, before, c :: rest =>
    match closing? '"' before (c :: rest) with
    | some done => some done
    | none =>
      if c = '\\' then
        match readEscape rest with
        | some (escaped, rest) => readBasicLines budget (escaped :: before) rest
        | none =>
          match afterLineEscape? rest with
          | some rest => readBasicLines budget before rest
          | none => none
      else if isPlain c || c == '\n' then readBasicLines budget (c :: before) rest
      else
        match c, rest with
        | '\r', '\n' :: rest => readBasicLines budget ('\n' :: '\r' :: before) rest
        | _, _ => none

/-- Reads the rest of a literal string between triple quotes, given its characters in reverse. -/
def readLiteralLines : Nat → List Char → List Char → Option (String × List Char)
  | 0, _, _ => none
  | _ + 1, _, [] => none
  | budget + 1, before, c :: rest =>
    match closing? '\'' before (c :: rest) with
    | some done => some done
    | none =>
      if isPlain c || c == '\n' then readLiteralLines budget (c :: before) rest
      else
        match c, rest with
        | '\r', '\n' :: rest => readLiteralLines budget ('\n' :: '\r' :: before) rest
        | _, _ => none

/-- Drops the line end right after the opening quotes. -/
def afterOpening (cs : List Char) : List Char := (newline? cs).getD cs

def readLine? : List Char → Option (String × List Char)
  | '"' :: rest => readBasic (rest.length + 1) [] rest
  | '\'' :: rest => readLiteral [] rest
  | _ => none

def readString? : List Char → Option (String × List Char)
  | '"' :: '"' :: '"' :: rest =>
    let rest := afterOpening rest
    readBasicLines (rest.length + 1) [] rest
  | '\'' :: '\'' :: '\'' :: rest =>
    let rest := afterOpening rest
    readLiteralLines (rest.length + 1) [] rest
  | cs => readLine? cs

end DocQuery.Toml
