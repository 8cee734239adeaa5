import DocQuery.Json.Token

/-!
# Passing over JSON text

`skip` passes over a value whose meaning does not matter. Only its form counts: a number may have
any size, an escape may be half of a surrogate pair, and containers may nest to any depth.
-/

namespace DocQuery.Json

def skipEscape : List Char → Except ReadError (List Char)
  | 'u' :: rest => (readHex rest).map (·.2)
  | cs => (readEscape cs).map (·.2)

/-- Passes over the rest of a string and its closing quotation mark. The budget bounds the steps. -/
def skipChars : Nat → List Char → Except ReadError (List Char)
  | 0, _ => .error .endOfText
  | _ + 1, [] => .error .endOfText
  | budget + 1, c :: rest =>
    if c = '"' then .ok rest
    else if c = '\\' then
      match skipEscape rest with
      | .error e => .error e
      | .ok rest => skipChars budget rest
    else if c.toNat < 0x20 then .error .malformed
    else skipChars budget rest

def skipScalar (budget : Nat) : List Char → Except ReadError (List Char)
  | 'n' :: rest => readWord "ull".toList rest
  | 't' :: rest => readWord "rue".toList rest
  | 'f' :: rest => readWord "alse".toList rest
  | '"' :: rest => skipChars budget rest
  | '-' :: rest => (readLiteral true rest).map (·.2)
  | [] => .error .endOfText
  | c :: rest => if c.isDigit then (readLiteral false (c :: rest)).map (·.2) else .error .malformed

/-- A container whose closing bracket is still to come. -/
inductive Container where
  | array
  | object

/-- What a text has to go on with. -/
inductive Awaited where
  | value
  | entry
  /-- What follows a value: a comma or the closing bracket of the innermost container. -/
  | next

/-- Passes over what is awaited and the rest of the containers that are open, innermost first. The
budget bounds the steps. -/
def skip : Nat → Awaited → List Container → List Char → Except ReadError (List Char)
  | 0, _, _, _ => .error .endOfText
  | budget + 1, .value, containers, cs =>
    match skipBlanks cs with
    | '[' :: rest =>
      match skipBlanks rest with
      | ']' :: rest => skip budget .next containers rest
      | rest => skip budget .value (.array :: containers) rest
    | '\x7b' :: rest =>
      match skipBlanks rest with
      | '\x7d' :: rest => skip budget .next containers rest
      | rest => skip budget .entry (.object :: containers) rest
    | cs =>
      match skipScalar budget cs with
      | .error e => .error e
      | .ok rest => skip budget .next containers rest
  | budget + 1, .entry, containers, cs =>
    match skipBlanks cs with
    | [] => .error .endOfText
    | '"' :: rest =>
      match skipChars budget rest with
      | .error e => .error e
      | .ok rest =>
        match skipBlanks rest with
        | [] => .error .endOfText
        | ':' :: rest => skip budget .value containers rest
        | _ => .error .malformed
    | _ => .error .malformed
  | _ + 1, .next, [], cs => .ok cs
  | budget + 1, .next, .array :: containers, cs =>
    match skipBlanks cs with
    | [] => .error .endOfText
    | ']' :: rest => skip budget .next containers rest
    | ',' :: rest => skip budget .value (.array :: containers) rest
    | _ => .error .malformed
  | budget + 1, .next, .object :: containers, cs =>
    match skipBlanks cs with
    | [] => .error .endOfText
    | '\x7d' :: rest => skip budget .next containers rest
    | ',' :: rest => skip budget .entry (.object :: containers) rest
    | _ => .error .malformed

end DocQuery.Json
