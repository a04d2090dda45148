/-!
# Spans of time

Spans are counted in milliseconds and written in the largest unit that leaves a whole part.

* `Time.span`: **`0ns`, `999ms`, `60s`, `1.5s`**;
* `Timed`: something that comes after a wait.
-/

namespace BatchRun

namespace Time

/-- The digits of a fraction of a thousandth, without trailing zeros. -/
def fractionDigits (thousandths : Nat) : List Char :=
  let digits := [thousandths / 100, thousandths / 10 % 10, thousandths % 10]
  ((digits.reverse.dropWhile (· == 0)).reverse).map Nat.digitChar

/-- A span in milliseconds as text. -/
def span (ms : Nat) : String :=
  if ms = 0 then "0ns"
  else if ms < 1000 then s!"{ms}ms"
  else
    match fractionDigits (ms % 1000) with
    | [] => s!"{ms / 1000}s"
    | digits => s!"{ms / 1000}." ++ String.ofList digits ++ "s"

end Time

/-- Something that comes some milliseconds after what came before it. -/
structure Timed (α : Type) where
  wait : Nat
  value : α
  deriving DecidableEq, Inhabited

namespace Timed

variable {α : Type}

/-- How long it takes until all of it has come. -/
def total : List (Timed α) → Nat
  | [] => 0
  | x :: rest => x.wait + total rest

/-- Things that come together after a wait. -/
def together (wait : Nat) : List α → List (Timed α)
  | [] => []
  | x :: rest => ⟨wait, x⟩ :: rest.map fun (y : α) => ⟨0, y⟩

end Timed

end BatchRun
