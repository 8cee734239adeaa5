import DocQuery.Json.Basic
import DocQuery.Number.Text

/-!
# Compact JSON text

Values are written without blanks, entries in order. Strings escape the quotation mark, the
backslash and the control characters below U+0020, and nothing else.
-/

namespace DocQuery.Json

def hexDigit (n : Nat) : Char := Nat.digitChar n

def escape (c : Char) : List Char :=
  if c = '"' then ['\\', '"']
  else if c = '\\' then ['\\', '\\']
  else if c = '\x08' then ['\\', 'b']
  else if c = '\x0c' then ['\\', 'f']
  else if c = '\n' then ['\\', 'n']
  else if c = '\r' then ['\\', 'r']
  else if c = '\t' then ['\\', 't']
  else if c.toNat < 0x20 then
    ['\\', 'u', '0', '0', hexDigit (c.toNat / 16), hexDigit (c.toNat % 16)]
  else [c]

def writeString (s : String) : List Char := '"' :: (s.toList.flatMap escape ++ ['"'])

mutual
def write : Json → List Char
  | .null => "null".toList
  | .bool true => "true".toList
  | .bool false => "false".toList
  | .number n => n.text
  | .string s => writeString s
  | .array [] => ['[', ']']
  | .array (v :: rest) => '[' :: (write v ++ writeItems rest)
  | .object [] => ['\x7b', '\x7d']
  | .object ((k, v) :: rest) => '\x7b' :: (writeString k ++ ':' :: (write v ++ writeEntries rest))

/-- The elements after the first, and the closing bracket. -/
def writeItems : List Json → List Char
  | [] => [']']
  | v :: rest => ',' :: (write v ++ writeItems rest)

/-- The entries after the first, and the closing brace. -/
def writeEntries : List (String × Json) → List Char
  | [] => ['\x7d']
  | (k, v) :: rest => ',' :: (writeString k ++ ':' :: (write v ++ writeEntries rest))
end

def text (value : Json) : String := String.ofList value.write

end DocQuery.Json
