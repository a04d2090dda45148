/-!
# Texts as bytes

* `Text.bytes`, `Text.ofBytes?`: **the bytes of a text**, and the text of bytes;
* `Text.Defect`, `Text.defect?`: where bytes cease to be a text.
-/

namespace BatchRun

namespace Text

/-- The bytes of a text. -/
def bytes (s : String) : List UInt8 := s.toUTF8.data.toList

/-- The text of bytes, if they are one. -/
def ofBytes? (bs : List UInt8) : Option String := String.fromUTF8? bs.toByteArray

/-- The wording for a stream of bytes that are no text. -/
def notText : String := "stream did not contain valid UTF-8"

/-- The place where bytes cease to be a text: a character starts there, of which so many bytes are
there before a wrong one, or all that are left. -/
structure Defect where
  position : Nat
  /-- None if the bytes merely stop too early. -/
  length : Option Nat
  deriving DecidableEq, Inhabited

/-- The wording of a defect. -/
def Defect.message (d : Defect) : String :=
  match d.length with
  | some n => s!"invalid utf-8 sequence of {n} bytes from index {d.position}"
  | none => s!"incomplete utf-8 byte sequence from index {d.position}"

/-- The bytes that may follow in a character. -/
def tail : UInt8 × UInt8 := (0x80, 0xBF)

/-- The ranges of the bytes that follow the first byte of a character. -/
def following? (lead : UInt8) : Option (List (UInt8 × UInt8)) :=
  if lead ≤ 0x7F then some []
  else if 0xC2 ≤ lead ∧ lead ≤ 0xDF then some [tail]
  else if lead = 0xE0 then some [(0xA0, 0xBF), tail]
  else if lead = 0xED then some [(0x80, 0x9F), tail]
  else if 0xE1 ≤ lead ∧ lead ≤ 0xEF then some [tail, tail]
  else if lead = 0xF0 then some [(0x90, 0xBF), tail, tail]
  else if 0xF1 ≤ lead ∧ lead ≤ 0xF3 then some [tail, tail, tail]
  else if lead = 0xF4 then some [(0x80, 0x8F), tail, tail]
  else none

/-- The first defect in bytes, behind a character that has started at a position, with so many of
its bytes seen and others due. -/
def defectFrom (position seen : Nat) (due : List (UInt8 × UInt8)) : List UInt8 → Option Defect
  | [] => if due.isEmpty then none else some ⟨position, none⟩
  | b :: rest =>
    match due with
    | [] =>
      match following? b with
      | none => some ⟨position, some 1⟩
      | some [] => defectFrom (position + 1) 0 [] rest
      | some (range :: due) => defectFrom position 1 (range :: due) rest
    | (low, high) :: due =>
      if b < low ∨ high < b then some ⟨position, some seen⟩
      else if due.isEmpty then defectFrom (position + seen + 1) 0 [] rest
      else defectFrom position (seen + 1) due rest

/-- The first defect in bytes, if they are no text. -/
def defect? (bs : List UInt8) : Option Defect := defectFrom 0 0 [] bs

end Text

end BatchRun
