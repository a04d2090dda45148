import BatchRun.Decimal.Literal

/-!
# Texts that a reader would not take for a string

A string is written without quotes only if a reader takes it for a string again. It does not do so
when the text spells null, a truth value, an integer in one of four bases or a number, and digits
after a leading zero are left to nobody's reading.

* **`Yaml.isAmbiguous`**.
-/

namespace BatchRun

namespace Yaml

/-- The spellings of null; the empty text is one. -/
def nullWords : List String := ["", "~", "null", "Null", "NULL"]

/-- The spellings of the truth values. -/
def truthWords : List String := ["true", "True", "TRUE", "false", "False", "FALSE"]

/-- The spellings of infinity and of what is not a number. -/
def specialWords : List String :=
  [".inf", ".Inf", ".INF", "+.inf", "+.Inf", "+.INF", "-.inf", "-.Inf", "-.INF",
   ".nan", ".NaN", ".NAN"]

/-- Digits after a leading zero, behind an optional sign. -/
def isZeroPadded (cs : List Char) : Bool :=
  match (Decimal.splitSign cs).2 with
  | '0' :: c :: rest => (c :: rest).all Decimal.isDigit
  | _ => false

/-- The value of a digit, letters counting on from ten. -/
def digitValue? (c : Char) : Option Nat :=
  if '0' ≤ c ∧ c ≤ '9' then some (c.toNat - 48)
  else if 'a' ≤ c ∧ c ≤ 'z' then some (c.toNat - 87)
  else if 'A' ≤ c ∧ c ≤ 'Z' then some (c.toNat - 55)
  else none

/-- The number of digits in a base. -/
def natInBase? (base : Nat) (cs : List Char) : Option Nat :=
  if cs.isEmpty then none
  else
    cs.foldl (fun (acc : Option Nat) (c : Char) =>
      match acc, digitValue? c with
      | some n, some d => if d < base then some (n * base + d) else none
      | _, _ => none) (some 0)

/-- The base that a mark after a zero stands for. -/
def baseOf? (mark : Char) : Option Nat :=
  if mark = 'x' then some 16 else if mark = 'o' then some 8 else if mark = 'b' then some 2
  else none

/-- An integer in a marked base that fits 128 bits. -/
def isBasedInteger (cs : List Char) : Bool :=
  match Decimal.splitSign cs with
  | (negative, '0' :: mark :: digits) =>
    match (baseOf? mark).bind fun (b : Nat) => natInBase? b digits with
    | some n => if negative then n ≤ Nat.pow 2 127 else n < Nat.pow 2 128
    | none => false
  | _ => false

/-- A finite number in decimal. -/
def isFiniteNumber (cs : List Char) : Bool :=
  ((Decimal.Literal.parse? cs).bind Decimal.Literal.finite?).isSome

/-- Whether a reader would not take a text for a string. -/
def isAmbiguous (s : String) : Bool :=
  nullWords.contains s || truthWords.contains s || specialWords.contains s
    || isZeroPadded s.toList || isBasedInteger s.toList || isFiniteNumber s.toList

end Yaml

end BatchRun
