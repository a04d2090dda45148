import BatchRun.Log.Level
import BatchRun.Text.Blank

/-!
# Filters of events

A filter is a list of directives, separated by commas. A directive names the least weighty level
that passes, for all targets or for those that begin with a given one, and may ask for fields. Of
the directives that concern an event the most specific one decides.

* `Threshold`, `Threshold.parse?`: **a level, `off`, or a digit**;
* `Directive`, `Directive.parse?`;
* `Filter.parse?`, **`Filter.admits`**.
-/

namespace BatchRun

/-- The rank of the least weighty level that passes; at zero nothing does. -/
structure Threshold where
  rank : Nat
  deriving DecidableEq, Inhabited

namespace Threshold

/-- The thresholds by name. -/
def names : List (String × Threshold) :=
  [("off", ⟨0⟩), ("error", ⟨1⟩), ("warn", ⟨2⟩), ("info", ⟨3⟩), ("debug", ⟨4⟩), ("trace", ⟨5⟩)]

/-- Everything passes. -/
def all : Threshold := ⟨5⟩

/-- An ASCII letter in lower case. -/
def lower (s : String) : String := s.map Char.toLower

/-- A number of decimal digits, which may have a plus sign. -/
def number? (cs : List Char) : Option Nat :=
  let digits := match cs with
    | '+' :: rest => rest
    | cs => cs
  if digits.isEmpty || !digits.all Char.isDigit then none
  else some (digits.foldl (fun (n : Nat) (c : Char) => n * 10 + (c.toNat - 48)) 0)

/-- The threshold that a text gives, in any case; an empty text stands for errors. -/
def parse? (s : String) : Option Threshold :=
  match number? s.toList with
  | some n => if n ≤ 5 then some ⟨n⟩ else none
  | none =>
    if s = "" then some ⟨1⟩
    else (names.find? fun (p : String × Threshold) => p.1 == lower s).map Prod.snd

end Threshold

/-- One directive of a filter. -/
structure Directive where
  target : Option String
  /-- The names of fields that an event must have. -/
  fields : List String
  /-- Whether it only concerns what happens inside a span, or a value of a field. -/
  narrowed : Bool
  threshold : Threshold
  deriving DecidableEq, Inhabited

namespace Directive

/-- What is read of a directive so far; the numbers are places in its text. -/
inductive Stage where
  | start
  | levelOrTarget
  | span (start : Nat)
  | field (start : Nat)
  | fieldsEnded
  | spanEnded
  | level (start : Nat)

/-- A part of a text, by its places. -/
def part (text : List Char) (start stop : Nat) : String :=
  String.ofList ((text.take stop).drop start)

/-- Whether a directive may begin with a character. -/
def mayBegin (c : Char) : Bool :=
  c == '-' || c == ':' || c == '_' || c.isAlphanum || c.toNat ≥ 0x80

/-- The directive with one more field, unless the field has no text. -/
def withField (d : Directive) (field : String) : Option Directive :=
  if field = "" then none
  else
    match field.splitOn "=" with
    | [name] => some { d with fields := d.fields ++ [name] }
    | name :: _ => some { d with fields := d.fields ++ [name], narrowed := true }
    | [] => none

/-- Reads the next character, which stands at a place of the text. -/
def step (text : List Char) (d : Directive) (i : Nat) (c : Char) :
    Stage → Option (Directive × Stage)
  | .start =>
    if c = '[' then some (d, .span (i + 1))
    else if mayBegin c then some (d, .levelOrTarget)
    else none
  | .levelOrTarget =>
    if c = '=' then some ({ d with target := some (part text 0 i) }, .level (i + 1))
    else if c = '[' then some ({ d with target := some (part text 0 i) }, .span (i + 1))
    else some (d, .levelOrTarget)
  | .span start =>
    if c = ']' then some ({ d with narrowed := true }, .spanEnded)
    else if c = '{' then
      some ({ d with narrowed := d.narrowed || start < i }, .field (i + 1))
    else some (d, .span start)
  | .field start =>
    if c = '}' then (d.withField (part text start i)).map fun (d : Directive) => (d, .fieldsEnded)
    else some (d, .field start)
  | .fieldsEnded => if c = ']' then some (d, .spanEnded) else none
  | .spanEnded => if c = '=' then some (d, .level (i + 1)) else none
  | .level start => some (d, .level start)

/-- Reads the characters from a place on. -/
def steps (text : List Char) : Directive → Nat → Stage → List Char → Option (Directive × Stage)
  | d, _, stage, [] => some (d, stage)
  | d, i, stage, c :: rest =>
    match step text d i c stage with
    | none => none
    | some (d, stage) => steps text d (i + 1) stage rest

/-- The directive at the end of its text. -/
def finish (text : List Char) (d : Directive) : Stage → Option Directive
  | .levelOrTarget =>
    let whole := String.ofList text
    match Threshold.parse? whole with
    | some t => some { d with threshold := t }
    | none => some { d with target := some whole }
  | .level start =>
    let name := part text start text.length
    if name = "" then some d
    else (Threshold.parse? name).map fun (t : Threshold) => { d with threshold := t }
  | .spanEnded => some d
  | _ => none

/-- The directive that a text gives. Blanks around it take part in what it names. -/
def parse? (s : String) : Option Directive :=
  let text := s.toList
  let trimmed := ((text.dropWhile Text.isBlank).reverse.dropWhile Text.isBlank).reverse
  match steps text ⟨none, [], false, .all⟩ 0 .start trimmed with
  | none => none
  | some (d, stage) => finish text d stage

/-- Whether a directive concerns an event. -/
def concerns (d : Directive) (target : String) (fields : List String) : Bool :=
  !d.narrowed && d.fields.all (fields.contains ·) &&
    match d.target with
    | some t => target.startsWith t
    | none => true

/-- How specific a directive is: by the length of its target, and by the number of its fields. -/
def weight (d : Directive) : Nat × Nat :=
  (match d.target with
    | some t => t.utf8ByteSize + 1
    | none => 0, d.fields.length)

/-- Whether a list of names comes before another in lexicographic order, or is the same. -/
def namesLe : List String → List String → Bool
  | [], _ => true
  | _ :: _, [] => false
  | a :: as, b :: bs => a < b || (a == b && namesLe as bs)

/-- Whether the first directive is more specific than the second or comes in its place. Where both
are of the same weight the order of the field names decides. -/
def overrides (d e : Directive) : Bool :=
  if e.weight.1 != d.weight.1 then e.weight.1 < d.weight.1
  else if e.weight.2 != d.weight.2 then e.weight.2 < d.weight.2
  else namesLe e.fields d.fields

end Directive

/-- The directives of a filter, in order. -/
structure Filter where
  directives : List Directive
  deriving DecidableEq, Inhabited

namespace Filter

/-- The filter that a text gives; parts without text are passed over. -/
def parse? (s : String) : Option Filter :=
  let parts := (s.splitOn ",").filter fun (part : String) => part != ""
  (parts.mapM Directive.parse?).map Filter.mk

/-- The directive that decides on an event: the most specific, of equals the last. -/
def deciding? (f : Filter) (target : String) (fields : List String) : Option Directive :=
  (f.directives.filter fun (d : Directive) => d.concerns target fields).foldl
    (fun (best : Option Directive) (d : Directive) =>
      match best with
      | some e => if d.overrides e then some d else best
      | none => some d) none

/-- Whether an event passes. -/
def admits (f : Filter) (level : Level) (target : String) (fields : List String) : Bool :=
  match f.deciding? target fields with
  | some d => level.rank ≤ d.threshold.rank
  | none => false

end Filter

end BatchRun
