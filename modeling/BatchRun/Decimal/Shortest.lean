import BatchRun.Decimal.Binary64

/-!
# The shortest decimal text of a double

Of all decimals that read back as a given double, `Binary64.shortest` picks one with the fewest
digits, and of those the nearest to the exact value. For each digit count from 1 to 17 the two
neighbours of the value on that decimal grid are tested against the interval of reals that round
to it.

* `Binary64.shortest`: the digits and the exponent of ten;
* `Layout`, `Binary64.render`: where positional notation ends and how an exponent is written.
-/

namespace BatchRun

/-- A non-negative fraction. -/
structure Ratio where
  num : Nat
  den : Nat

namespace Ratio

/-- `m * 2 ^ q`. -/
def ofBinary (m : Nat) (q : Int) : Ratio :=
  if q < 0 then ⟨m, Nat.pow 2 q.natAbs⟩ else ⟨m * Nat.pow 2 q.natAbs, 1⟩

/-- `m * 10 ^ k`. -/
def ofDecimal (m : Nat) (k : Int) : Ratio :=
  if k < 0 then ⟨m, Nat.pow 10 k.natAbs⟩ else ⟨m * Nat.pow 10 k.natAbs, 1⟩

def lt (x y : Ratio) : Bool := x.num * y.den < y.num * x.den

def le (x y : Ratio) : Bool := x.num * y.den ≤ y.num * x.den

/-- The distance between two fractions. -/
def dist (x y : Ratio) : Ratio :=
  let a := x.num * y.den
  let b := y.num * x.den
  ⟨(a - b) + (b - a), x.den * y.den⟩

/-- The greatest `p` with `10 ^ p` at most the fraction, which is positive and above
`10 ^ (-330)`. -/
def decimalExponent (x : Ratio) : Int :=
  (decimalLength (x.num * Nat.pow 10 330 / x.den) : Int) - 331

end Ratio

namespace Binary64

/-- The ends of the interval of reals that round to the double of a positive rank, and whether the
ends belong to it. -/
def interval (rank : Nat) : Ratio × Ratio × Bool :=
  let (m, q) := partsOfRank rank
  let low := if m = Nat.pow 2 52 ∧ q ≠ -1074 then Ratio.ofBinary (4 * m - 1) (q - 2)
    else Ratio.ofBinary (2 * m - 1) (q - 1)
  (low, Ratio.ofBinary (2 * m + 1) (q - 1), m % 2 == 0)

/-- Whether a fraction rounds to the double of a positive rank. -/
def reads (rank : Nat) (x : Ratio) : Bool :=
  let (low, high, closed) := interval rank
  if closed then low.le x && x.le high else low.lt x && x.lt high

/-- The grid point of spacing `10 ^ k` that reads back as the double of a positive rank and lies
nearest to it, if one of the value's two neighbours does. -/
def onGrid (rank : Nat) (k : Int) : Option Nat :=
  let (m, q) := partsOfRank rank
  let value := Ratio.ofBinary m q
  let unit := Ratio.ofDecimal 1 k
  let below := value.num * unit.den / (value.den * unit.num)
  let lowHit := reads rank (Ratio.ofDecimal below k) && below != 0
  let highHit := reads rank (Ratio.ofDecimal (below + 1) k)
  match lowHit, highHit with
  | false, false => none
  | true, false => some below
  | false, true => some (below + 1)
  | true, true =>
    let down := value.dist (Ratio.ofDecimal below k)
    let up := value.dist (Ratio.ofDecimal (below + 1) k)
    if down.lt up then some below
    else if up.lt down then some (below + 1)
    else if below % 2 = 0 then some below else some (below + 1)

/-- The shortest digits of a positive rank: the first digit count whose grid has a hit. -/
def shortestOfRank (rank : Nat) : Nat × Int :=
  let (m, q) := partsOfRank rank
  let p := (Ratio.ofBinary m q).decimalExponent
  let hit := (List.range 17).findSome? fun (i : Nat) =>
    let k := p - (i : Int)
    (onGrid rank k).map fun d => (d, k)
  hit.getD (0, 0)

/-- The digits and the exponent of ten of the shortest decimal that reads back. -/
def shortest (x : Binary64) : Nat × Int := shortestOfRank x.rank

end Binary64

/-- How a format lays out the digits of a number that is not an integer of the format. -/
structure Layout where
  /-- Least power of ten of the first digit that is still written positionally. -/
  least : Int
  /-- First power of ten of the first digit that is written with an exponent. -/
  bound : Int
  /-- The text between `e` and the digits of a positive exponent. -/
  plus : String

namespace Layout

/-- The zeros that a trailing-zero run of a digit text adds to the exponent. -/
def stripZeros : List Char → List Char × Nat
  | [] => ([], 0)
  | c :: rest =>
    match stripZeros rest with
    | ([], n) => if c = '0' then ([], n + 1) else ([c], n)
    | (kept, n) => (c :: kept, n)

/-- Digits `ds` with the decimal point `point` places after their start. -/
def positional (ds : List Char) (point : Int) : List Char :=
  if point ≤ 0 then
    '0' :: '.' :: List.replicate point.natAbs '0' ++ ds
  else
    let n := point.toNat
    if ds.length ≤ n then ds ++ List.replicate (n - ds.length) '0' ++ ['.', '0']
    else ds.take n ++ '.' :: ds.drop n

/-- Digits in scientific notation, the first digit standing for `10 ^ power`. -/
def scientific (layout : Layout) (ds : List Char) (power : Int) : List Char :=
  let body := match ds with
    | [] => []
    | [d] => [d]
    | d :: rest => d :: '.' :: rest
  let sign := if power < 0 then ['-'] else layout.plus.toList
  body ++ 'e' :: sign ++ Nat.toDigits 10 power.natAbs

end Layout

/-- The text of a double in a layout. -/
def Binary64.render (layout : Layout) (x : Binary64) : String :=
  let sign := if x.negative then ['-'] else []
  if x.isZero then String.ofList (sign ++ ['0', '.', '0'])
  else
    let (digits, exponent) := x.shortest
    let (ds, zeros) := Layout.stripZeros (Nat.toDigits 10 digits)
    let point : Int := (ds.length : Int) + exponent + (zeros : Int)
    let power := point - 1
    let body := if layout.least ≤ power ∧ power < layout.bound then Layout.positional ds point
      else layout.scientific ds power
    String.ofList (sign ++ body)

end BatchRun
