import BatchRun.Decimal.Binary64

/-!
# Decimal literals

A literal is a sign and either digits with an optional point and exponent, or the name of an
infinity or of what is not a number. A point needs a digit on at least one of its sides.

* `Decimal.Literal`, **`Decimal.Literal.parse?`**;
* `Decimal.Literal.finite?`: the double nearest to a literal, unless that is not finite.
-/

namespace BatchRun

namespace Decimal

/-- What a literal denotes. -/
inductive Literal where
  /-- `digits * 10 ^ exponent`, up to its sign. -/
  | number (negative : Bool) (digits : Nat) (exponent : Int)
  | infinity (negative : Bool)
  | notANumber
  deriving DecidableEq

def isDigit (c : Char) : Bool := '0' ≤ c && c ≤ '9'

/-- The number of a run of digits. -/
def natOfDigits (ds : List Char) : Nat :=
  ds.foldl (fun (n : Nat) (c : Char) => n * 10 + (c.toNat - 48)) 0

/-- A sign, if there is one, and the characters after it. -/
def splitSign : List Char → Bool × List Char
  | '-' :: rest => (true, rest)
  | '+' :: rest => (false, rest)
  | cs => (false, cs)

/-- An integer in decimal with an optional sign. -/
def parseInt? (cs : List Char) : Option Int :=
  let (negative, ds) := splitSign cs
  if ds.isEmpty || !ds.all isDigit then none
  else some (if negative then -(natOfDigits ds : Int) else natOfDigits ds)

/-- An exponent with its mark, if one is there; nothing may follow it. -/
def parseExponent? : List Char → Option Int
  | [] => some 0
  | c :: rest => if c = 'e' ∨ c = 'E' then parseInt? rest else none

namespace Literal

/-- A literal without its sign. -/
def parseUnsigned? (negative : Bool) (cs : List Char) : Option Literal :=
  let word := cs.map Char.toLower
  if word = "inf".toList ∨ word = "infinity".toList then some (infinity negative)
  else if word = "nan".toList then some notANumber
  else
    let (whole, rest) := cs.span isDigit
    let (part, rest) := match rest with
      | '.' :: rest => rest.span isDigit
      | rest => ([], rest)
    if whole.isEmpty && part.isEmpty then none
    else
      (parseExponent? rest).map fun (x : Int) =>
        number negative (natOfDigits (whole ++ part)) (x - part.length)

/-- The literal that a text is, if it is one. -/
def parse? (cs : List Char) : Option Literal :=
  let (negative, rest) := splitSign cs
  parseUnsigned? negative rest

/-- The double nearest to a literal, unless that is not finite. -/
def finite? : Literal → Option Binary64
  | number negative digits exponent => Binary64.ofDecimal? negative digits exponent
  | infinity _ => none
  | notANumber => none

end Literal

end Decimal

end BatchRun
