/-!
# Bytes of text

Texts are read from and written to lists of bytes in UTF-8. Lines end at a line feed, and the
carriage return before it goes with it; the last line may lack its line feed.
-/

namespace DocQuery

def bytesOf (s : String) : List UInt8 := s.toUTF8.data.toList

/-- The text that bytes encode, unless they are no UTF-8. -/
def decode? (bytes : List UInt8) : Option String := String.fromUTF8? ⟨bytes.toArray⟩

theorem decode?_eq_some_iff {bytes : List UInt8} {s : String} :
    decode? bytes = some s ↔ bytesOf s = bytes := by
  unfold decode? String.fromUTF8? bytesOf
  constructor
  · intro h
    split at h
    · obtain rfl := Option.some.inj h
      rfl
    · cases h
  · rintro rfl
    have valid : (⟨s.toUTF8.data.toList.toArray⟩ : ByteArray).IsValidUTF8 := s.isValidUTF8
    rw [dif_pos valid]
    rfl

def lineFeed : UInt8 := 10

def carriageReturn : UInt8 := 13

/-- The line whose bytes were gathered in reverse, ended by a line feed. -/
def endLine : List UInt8 → List UInt8
  | [] => []
  | b :: line => if b = carriageReturn then line.reverse else (b :: line).reverse

/-- The lines of the rest of the bytes, given the current line's bytes in reverse. -/
def linesFrom (line : List UInt8) : List UInt8 → List (List UInt8)
  | [] => if line.isEmpty then [] else [line.reverse]
  | b :: rest =>
    if b = lineFeed then endLine line :: linesFrom [] rest else linesFrom (b :: line) rest

def linesOf (bytes : List UInt8) : List (List UInt8) := linesFrom [] bytes

end DocQuery
