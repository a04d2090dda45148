/-!
# Finite binary64 numbers

A finite double is a sign and a rank: the position of its absolute value in the increasing list
of all non-negative finite doubles, which is also its bit pattern without the sign bit. Everything
is exact arithmetic on natural numbers, so closed instances evaluate.

* `Binary64`, `Binary64.parts`: the significand and the power of two that a rank stands for;
* `rankOfRatio`: **the rank nearest to a fraction**, a tie going to the even neighbour;
* `Binary64.ofDecimal?`: reading `digits * 10 ^ exponent`, `none` when it rounds to infinity;
* `Binary64.same`: equality of values, under which the two zeros agree.
-/

namespace BatchRun

/-- The first rank past the finite doubles. -/
def infinityRank : Nat := 9218868437227405312

/-- A finite double. -/
structure Binary64 where
  negative : Bool
  rank : Nat
  finite : rank < infinityRank
  deriving DecidableEq

namespace Binary64

instance : Inhabited Binary64 := ⟨⟨false, 0, by decide⟩⟩

/-- The significand and the exponent of the power of two whose product is the absolute value. -/
def partsOfRank (rank : Nat) : Nat × Int :=
  let field : Nat := rank / Nat.pow 2 52
  let fraction : Nat := rank % Nat.pow 2 52
  if field = 0 then (fraction, -1074) else (Nat.pow 2 52 + fraction, (field : Int) - 1075)

def parts (x : Binary64) : Nat × Int := partsOfRank x.rank

/-- Zero of either sign. -/
def isZero (x : Binary64) : Bool := x.rank == 0

/-- Equality of values: `0` and `-0` are the same value. -/
def same (x y : Binary64) : Bool :=
  x.rank == y.rank && (x.rank == 0 || x.negative == y.negative)

theorem same_self (x : Binary64) : x.same x = true := by simp [same]

end Binary64

/-- `num / den` as a quotient rounded to nearest, a tie going to the even neighbour. -/
def roundQuotient (num den : Nat) : Nat :=
  let q := num / den
  let r := num % den
  if 2 * r < den then q
  else if den < 2 * r then q + 1
  else if q % 2 = 0 then q else q + 1

/-- The numerator and the denominator of `num / (den * 2 ^ q)`. -/
def shiftRatio (num den : Nat) (q : Int) : Nat × Nat :=
  if q < 0 then (num * Nat.pow 2 q.natAbs, den) else (num, den * Nat.pow 2 q.natAbs)

/-- The rank of the double nearest to `num / den`; at least `infinityRank` when that is out of
range. -/
def rankOfRatio (num den : Nat) : Nat :=
  if num = 0 then 0
  else
    let low : Int := (num.log2 : Int) - (den.log2 : Int) - 53
    let q := max low (-1074)
    let (n, d) := shiftRatio num den q
    let q := if n / d < Nat.pow 2 53 then q else q + 1
    let (n, d) := shiftRatio num den q
    (q + 1074).toNat * Nat.pow 2 52 + roundQuotient n d

/-- How many decimal digits a number has. -/
def decimalLength (n : Nat) : Nat := (Nat.toDigits 10 n).length

/-- The rank of the double nearest to `digits * 10 ^ exponent`. Exponents far out of range are
settled without computing the power. -/
def rankOfDecimal (digits : Nat) (exponent : Int) : Nat :=
  let size : Int := (decimalLength digits : Int) + exponent
  if digits = 0 then 0
  else if 310 < size then infinityRank
  else if size < -330 then 0
  else if 0 ≤ exponent then rankOfRatio (digits * Nat.pow 10 exponent.natAbs) 1
  else rankOfRatio digits (Nat.pow 10 exponent.natAbs)

namespace Binary64

/-- The double nearest to `± digits * 10 ^ exponent`, unless that is an infinity. -/
def ofDecimal? (negative : Bool) (digits : Nat) (exponent : Int) : Option Binary64 :=
  let rank := rankOfDecimal digits exponent
  if h : rank < infinityRank then some ⟨negative, rank, h⟩ else none

end Binary64

end BatchRun
