import DocQuery.Json.Basic
import DocQuery.Text.Digit

/-!
# Unquoted TOML values

Booleans, integers, floats, dates and times, each from the characters of one word. An integer may
range from `-2 ^ 63` to `2 ^ 64 - 1`. A float is the nearest double, and one that overflows is
refused; infinities and NaN become `null`. A date or time becomes an object that holds its normal
text.
-/

namespace DocQuery.Toml

/-- Splits off a sign; true is minus. -/
def splitSign : List Char → Bool × List Char
  | '+' :: rest => (false, rest)
  | '-' :: rest => (true, rest)
  | rest => (false, rest)

/-- The values of digits of a base; single underscores may stand between two digits. -/
def digits? (base : Nat) : List Char → Option (List Nat)
  | [] => none
  | [c] => (digitValue? base c).map ([·])
  | c :: '_' :: rest =>
    match digitValue? base c, digits? base rest with
    | some d, some ds => some (d :: ds)
    | _, _ => none
  | c :: rest =>
    match digitValue? base c, digits? base rest with
    | some d, some ds => some (d :: ds)
    | _, _ => none

def wholeDigits? (cs : List Char) : Option (List Nat) :=
  match digits? 10 cs with
  | some (0 :: _ :: _) => none
  | other => other

/-! ### Integers -/

def numberOfInt? : Int → Option Number
  | .ofNat n => if h : n < 1 <<< 64 then some (.natural n h) else none
  | .negSucc n => if h : n < 1 <<< 63 then some (.negative (n + 1) (Nat.succ_pos n) h) else none

def integer? : List Char → Option Number
  | '0' :: 'x' :: rest => (digits? 16 rest).bind fun ds => numberOfInt? (ofDigits 16 ds)
  | '0' :: 'o' :: rest => (digits? 8 rest).bind fun ds => numberOfInt? (ofDigits 8 ds)
  | '0' :: 'b' :: rest => (digits? 2 rest).bind fun ds => numberOfInt? (ofDigits 2 ds)
  | word =>
    let (negative, rest) := splitSign word
    (wholeDigits? rest).bind fun ds =>
      let n : Int := ofDigits 10 ds
      numberOfInt? (if negative then -n else n)

/-! ### Floats -/

/-- The double nearest to `significand * 10 ^ power`; `none` where it overflows. A power far from
the range of the doubles is not computed. -/
def nearestDouble? (negative : Bool) (significand : Nat) (power : Int) : Option Double :=
  let length : Int := (Nat.toDigits 10 significand).length
  if significand = 0 ∨ power + length < -400 then some (.zero negative)
  else if 400 < power + length then none
  else
    Double.ofMagnitude? negative <|
      match power with
      | .ofNat k => .nearest (significand * tenTo k * unitsPerOne) 1
      | .negSucc k => .nearest (significand * unitsPerOne) (tenTo (k + 1))

def fraction? : List Char → Option (List Nat)
  | [] => some []
  | '.' :: rest => digits? 10 rest
  | _ => none

def power? : List Char → Option Int
  | [] => some 0
  | _ :: rest =>
    let (negative, rest) := splitSign rest
    (digits? 10 rest).map fun ds => if negative then -(ofDigits 10 ds : Int) else ofDigits 10 ds

/-- A finite float; a fraction or an exponent has to be there. -/
def finite? (negative : Bool) (cs : List Char) : Option Double :=
  let isLetter := fun c => c == 'e' || c == 'E'
  let mantissa := cs.takeWhile fun c => !isLetter c
  let exponent := cs.dropWhile fun c => !isLetter c
  let whole := mantissa.takeWhile (· != '.')
  let rest := mantissa.dropWhile (· != '.')
  if rest.isEmpty && exponent.isEmpty then none
  else
    match wholeDigits? whole, fraction? rest, power? exponent with
    | some ws, some fs, some power =>
      nearestDouble? negative (ofDigits 10 (ws ++ fs)) (power - fs.length)
    | _, _, _ => none

def float? (word : List Char) : Option Json :=
  let (negative, rest) := splitSign word
  if rest = "inf".toList ∨ rest = "nan".toList then some .null
  else (finite? negative rest).map fun x => .number (.double x)

/-! ### Dates and times -/

def twoDigits? (a b : Char) : Option Nat :=
  match digitValue? 10 a, digitValue? 10 b with
  | some a, some b => some (a * 10 + b)
  | _, _ => none

def isLeapYear (year : Nat) : Bool := year % 4 == 0 && (year % 100 != 0 || year % 400 == 0)

def daysInMonth (year month : Nat) : Nat :=
  if month = 2 then if isLeapYear year then 29 else 28
  else if month = 4 ∨ month = 6 ∨ month = 9 ∨ month = 11 then 30
  else 31

def date? : List Char → Option (List Char × List Char)
  | y1 :: y2 :: y3 :: y4 :: '-' :: m1 :: m2 :: '-' :: d1 :: d2 :: rest =>
    match twoDigits? y1 y2, twoDigits? y3 y4, twoDigits? m1 m2, twoDigits? d1 d2 with
    | some century, some years, some month, some day =>
      if 1 ≤ month ∧ month ≤ 12 ∧ 1 ≤ day ∧ day ≤ daysInMonth (century * 100 + years) month then
        some ([y1, y2, y3, y4, '-', m1, m2, '-', d1, d2], rest)
      else none
    | _, _, _, _ => none
  | _ => none

/-- The text of a fraction of a second, with its point: nine digits at most, no zeros at the end,
and nothing for zero. -/
def fractionText (digits : List Char) : List Char :=
  match ((digits.take 9).reverse.dropWhile (· == '0')).reverse with
  | [] => []
  | kept => '.' :: kept

/-- Splits off a time. Seconds may be missing, and only seconds have a fraction. -/
def time? : List Char → Option (List Char × List Char)
  | h1 :: h2 :: ':' :: m1 :: m2 :: rest =>
    match twoDigits? h1 h2, twoDigits? m1 m2 with
    | some hour, some minute =>
      if 23 < hour ∨ 59 < minute then none
      else
        match rest with
        | ':' :: s1 :: s2 :: rest =>
          match twoDigits? s1 s2 with
          | some second =>
            if 60 < second then none
            else
              let clock := [h1, h2, ':', m1, m2, ':', s1, s2]
              match rest with
              | '.' :: rest =>
                let digits := rest.takeWhile Char.isDigit
                if digits.isEmpty then none
                else some (clock ++ fractionText digits, rest.dropWhile Char.isDigit)
              | rest => some (clock, rest)
          | none => none
        | rest => some ([h1, h2, ':', m1, m2, ':', '0', '0'], rest)
    | _, _ => none
  | _ => none

def offset? : List Char → Option (List Char)
  | [] => some []
  | ['Z'] => some ['Z']
  | ['z'] => some ['Z']
  | [sign, h1, h2, ':', m1, m2] =>
    match twoDigits? h1 h2, twoDigits? m1 m2 with
    | some hour, some minute =>
      if 23 < hour ∨ 59 < minute then none
      else if sign = '+' then some [sign, h1, h2, ':', m1, m2]
      else if sign = '-' then
        some [if hour = 0 ∧ minute = 0 then '+' else '-', h1, h2, ':', m1, m2]
      else none
    | _, _ => none
  | _ => none

def isDateSeparator (c : Char) : Bool := c == 'T' || c == 't' || c == ' '

/-- The normal text of a date, a time, or both. -/
def datetime? (word : List Char) : Option (List Char) :=
  match date? word with
  | some (date, []) => some date
  | some (date, separator :: rest) =>
    if isDateSeparator separator then
      match time? rest with
      | some (time, rest) => (offset? rest).map fun offset => date ++ 'T' :: (time ++ offset)
      | none => none
    else none
  | none =>
    match time? word with
    | some (time, []) => some time
    | _ => none

/-- The key under which the text of a date or time is held. -/
def datetimeKey : String := "$__toml_private_datetime"

def scalar? (word : List Char) : Option Json :=
  if word = "true".toList then some (.bool true)
  else if word = "false".toList then some (.bool false)
  else
    match integer? word with
    | some n => some (.number n)
    | none =>
      match float? word with
      | some v => some v
      | none =>
        (datetime? word).map fun text => .object [(datetimeKey, .string (String.ofList text))]

end DocQuery.Toml
