import DocQuery.Number.Literal
import DocQuery.Text.Digit

/-!
# Tokens of JSON text

Blanks, words, strings and number literals. A text is refused either because it ends too early or
because it is malformed, and the first problem from the left decides which.
-/

namespace DocQuery

inductive ReadError where
  | endOfText
  | malformed
deriving DecidableEq

namespace Json

/-- What is read off the front of a text, and the rest. -/
abbrev Reading (α : Type) := Except ReadError (α × List Char)

/-- The only characters that may stand between tokens. -/
def isBlank (c : Char) : Bool := c == ' ' || c == '\t' || c == '\n' || c == '\r'

def skipBlanks (cs : List Char) : List Char := cs.dropWhile isBlank

def readWord : List Char → List Char → Except ReadError (List Char)
  | [], rest => .ok rest
  | _ :: _, [] => .error .endOfText
  | c :: word, d :: rest => if c = d then readWord word rest else .error .malformed

/-! ### Strings -/

/-- Reads four hexadecimal digits. The text ends too early when fewer than four bytes are left. -/
def readHex : List Char → Reading Nat
  | a :: b :: c :: d :: rest =>
    match hexValue? a, hexValue? b, hexValue? c, hexValue? d with
    | some a, some b, some c, some d => .ok (((a * 16 + b) * 16 + c) * 16 + d, rest)
    | _, _, _, _ => .error .malformed
  | short => if (String.ofList short).utf8ByteSize < 4 then .error .endOfText else .error .malformed

def isHighSurrogate (n : Nat) : Bool := 0xD800 ≤ n && n ≤ 0xDBFF

def isLowSurrogate (n : Nat) : Bool := 0xDC00 ≤ n && n ≤ 0xDFFF

/-- Reads the low half of a surrogate pair and gives the pair's character. -/
def readLowHalf (high : Nat) : List Char → Reading Char
  | [] => .error .endOfText
  | '\\' :: [] => .error .endOfText
  | '\\' :: 'u' :: rest =>
    match readHex rest with
    | .error e => .error e
    | .ok (low, rest) =>
      if isLowSurrogate low then
        .ok (Char.ofNat ((high - 0xD800) * 0x400 + (low - 0xDC00) + 0x10000), rest)
      else .error .malformed
  | _ => .error .malformed

def readEscape : List Char → Reading Char
  | [] => .error .endOfText
  | '"' :: rest => .ok ('"', rest)
  | '\\' :: rest => .ok ('\\', rest)
  | '/' :: rest => .ok ('/', rest)
  | 'b' :: rest => .ok ('\x08', rest)
  | 'f' :: rest => .ok ('\x0c', rest)
  | 'n' :: rest => .ok ('\n', rest)
  | 'r' :: rest => .ok ('\r', rest)
  | 't' :: rest => .ok ('\t', rest)
  | 'u' :: rest =>
    match readHex rest with
    | .error e => .error e
    | .ok (unit, rest) =>
      if isLowSurrogate unit then .error .malformed
      else if isHighSurrogate unit then readLowHalf unit rest
      else .ok (Char.ofNat unit, rest)
  | _ => .error .malformed

/-- Reads the rest of a string and its closing quotation mark, given the characters before it in
reverse. The budget bounds the steps. -/
def readChars : Nat → List Char → List Char → Reading String
  | 0, _, _ => .error .endOfText
  | _ + 1, _, [] => .error .endOfText
  | budget + 1, before, c :: rest =>
    if c = '"' then .ok (String.ofList before.reverse, rest)
    else if c = '\\' then
      match readEscape rest with
      | .error e => .error e
      | .ok (escaped, rest) => readChars budget (escaped :: before) rest
    else if c.toNat < 0x20 then .error .malformed
    else readChars budget (c :: before) rest

/-! ### Numbers -/

def readDigits (cs : List Char) : List Nat × List Char :=
  ((cs.takeWhile Char.isDigit).map (fun c => c.toNat - '0'.toNat), cs.dropWhile Char.isDigit)

def readSomeDigits (cs : List Char) : Reading (List Nat) :=
  match readDigits cs with
  | ([], []) => .error .endOfText
  | ([], _ :: _) => .error .malformed
  | (digits, rest) => .ok (digits, rest)

/-- Reads the digits before the point; a zero stands alone. -/
def readWhole (cs : List Char) : Reading (List Nat) :=
  match readSomeDigits cs with
  | .ok (0 :: _ :: _, _) => .error .malformed
  | other => other

/-- Reads the point and the digits after it, if there is a point. -/
def readFraction : List Char → Reading (Option (List Nat))
  | '.' :: rest =>
    match readSomeDigits rest with
    | .error e => .error e
    | .ok (digits, rest) => .ok (some digits, rest)
  | rest => .ok (none, rest)

def readPower (cs : List Char) : Reading (Option Exponent) :=
  let (negative, rest) := match cs with
    | '+' :: rest => (false, rest)
    | '-' :: rest => (true, rest)
    | rest => (false, rest)
  match readSomeDigits rest with
  | .error e => .error e
  | .ok (digits, rest) => .ok (some ⟨negative, digits⟩, rest)

def readExponent : List Char → Reading (Option Exponent)
  | 'e' :: rest => readPower rest
  | 'E' :: rest => readPower rest
  | rest => .ok (none, rest)

def readLiteral (negative : Bool) (cs : List Char) : Reading Literal :=
  match readWhole cs with
  | .error e => .error e
  | .ok (whole, rest) =>
    match readFraction rest with
    | .error e => .error e
    | .ok (fraction, rest) =>
      match readExponent rest with
      | .error e => .error e
      | .ok (exponent, rest) => .ok (⟨negative, whole, fraction, exponent⟩, rest)

end Json

end DocQuery
