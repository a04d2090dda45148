import BatchRun.Text.Blank

/-!
# Instants

An instant is read from a date, a time of day and an offset from universal time, and written in
universal time to the second.

* `Instant.parse`: the reading, with `Instant.Problem` for what is wrong with a text;
* **`Instant.render`**: the instant in universal time.
-/

namespace BatchRun

/-- Minutes since the first of January 1970, the second in that minute. -/
structure Instant where
  minute : Int
  second : Nat
  deriving DecidableEq, Inhabited

namespace Instant

/-- What is wrong with the text of an instant. -/
inductive Problem where
  | outOfRange
  | invalid
  | tooShort
  | tooLong
  deriving DecidableEq, Inhabited

/-- The wording of a problem. -/
def Problem.message : Problem → String
  | outOfRange => "input is out of range"
  | invalid => "input contains invalid characters"
  | tooShort => "premature end of input"
  | tooLong => "trailing input"

/-- The value of a decimal digit. -/
def digit? (c : Char) : Option Nat :=
  if c.isDigit then some (c.toNat - '0'.toNat) else none

/-- The value of at most `width` digits in front, and the rest. -/
def digitsValue : Nat → Nat → List Char → Nat × List Char
  | 0, acc, s => (acc, s)
  | _ + 1, acc, [] => (acc, [])
  | width + 1, acc, c :: s =>
    match digit? c with
    | some d => digitsValue width (acc * 10 + d) s
    | none => (acc, c :: s)

/-- A number of at least one and at most `width` digits. -/
def number (width : Nat) (s : List Char) : Except Problem (Nat × List Char) :=
  match s.dropWhile Text.isBlank with
  | [] => .error .tooShort
  | c :: rest =>
    if c.isDigit then .ok (digitsValue width 0 (c :: rest)) else .error .invalid

/-- A number within bounds. -/
def bounded (low high : Nat) (s : List Char) : Except Problem (Nat × List Char) := do
  let (n, rest) ← number 2 s
  if low ≤ n ∧ n ≤ high then .ok (n, rest) else .error .outOfRange

/-- A mark, before which there may be blanks. -/
def mark (c : Char) (s : List Char) : Except Problem (List Char) :=
  match s.dropWhile Text.isBlank with
  | [] => .error .tooShort
  | d :: rest => if d = c then .ok rest else .error .invalid

/-- The rest after a fraction of a second. -/
def skipFraction : List Char → Except Problem (List Char)
  | '.' :: rest =>
    match rest with
    | [] => .error .tooShort
    | c :: _ => if c.isDigit then .ok (rest.dropWhile Char.isDigit) else .error .invalid
  | s => .ok s

/-- Two digits, which must be there. -/
def twoDigits (high : Nat) : List Char → Except Problem (Nat × List Char)
  | a :: b :: rest =>
    match digit? a, digit? b with
    | some x, some y =>
      if x * 10 + y ≤ high then .ok (x * 10 + y, rest) else .error .outOfRange
    | _, _ => .error .invalid
  | _ => .error .tooShort

/-- The offset from universal time in minutes. -/
def offset (s : List Char) : Except Problem (Int × List Char) :=
  match s with
  | [] => .error .tooShort
  | c :: rest =>
    if c = 'Z' ∨ c = 'z' then .ok (0, rest)
    else if c = '+' ∨ c = '-' ∨ c.toNat = 0x2212 then do
      let (hours, rest) ← twoDigits 99 rest
      let (minutes, rest) ← twoDigits 59 (rest.dropWhile fun c => c == ':' || Text.isBlank c)
      let total : Int := hours * 60 + minutes
      if hours < 24 then .ok (if c = '+' then total else -total, rest) else .error .outOfRange
    else .error .invalid

/-- Whether a year has a leap day. -/
def isLeap (year : Nat) : Bool := year % 4 == 0 && (year % 100 != 0 || year % 400 == 0)

/-- The number of days of a month. -/
def daysOfMonth (year month : Nat) : Nat :=
  if month = 2 then if isLeap year then 29 else 28
  else if month = 4 ∨ month = 6 ∨ month = 9 ∨ month = 11 then 30
  else 31

/-- The days from the first of March of year zero to a date, years being counted from March. -/
def dayNumber (year month day : Nat) : Int :=
  let y : Int := if month ≤ 2 then (year : Int) - 1 else year
  let m : Int := (((month + 9) % 12 : Nat) : Int)
  y * 365 + y / 4 - y / 100 + y / 400 + (m * 153 + 2) / 5 + (day : Int) - 1

/-- The day number of the first of January 1970. -/
def epochDay : Int := dayNumber 1970 1 1

/-- The instant that a text gives. -/
def parseChars (s : List Char) : Except Problem Instant := do
  let (year, s) ← number 4 s
  let (month, s) ← bounded 1 12 (← mark '-' s)
  let (day, s) ← bounded 1 31 (← mark '-' s)
  let s ← match s with
    | [] => .error .tooShort
    | c :: rest =>
      if c = 'T' ∨ c = 't' ∨ c = ' ' then Except.ok rest else .error .invalid
  let (hour, s) ← bounded 0 23 s
  let (minute, s) ← bounded 0 59 (← mark ':' s)
  let (second, s) ← bounded 0 60 (← mark ':' s)
  let s ← skipFraction s
  let (shift, s) ← offset (s.dropWhile Text.isBlank)
  if !(s.dropWhile Text.isBlank).isEmpty then .error .tooLong
  else if day ≤ daysOfMonth year month then
    let days := dayNumber year month day - epochDay
    .ok ⟨days * 1440 + (hour * 60 + minute : Nat) - shift, second⟩
  else .error .outOfRange

/-- The instant that a text gives. -/
def parse (s : String) : Except Problem Instant := parseChars s.toList

/-- A number with leading zeros. -/
def padded (width n : Nat) : String :=
  let digits := toString n
  String.ofList (List.replicate (width - digits.length) '0') ++ digits

/-- Year, month and day of a day number. -/
def civil (days : Int) : Int × Nat × Nat :=
  let cycle := days.fdiv 146097
  let inCycle := (days - cycle * 146097).toNat
  let century := min 3 (inCycle / 36524)
  let inCentury := inCycle - century * 36524
  let leap := min 24 (inCentury / 1461)
  let inLeap := inCentury - leap * 1461
  let yearIn := min 3 (inLeap / 365)
  let dayOfYear := inLeap - yearIn * 365
  let m := (dayOfYear * 5 + 2) / 153
  let day := dayOfYear - (m * 153 + 2) / 5 + 1
  let month := if m < 10 then m + 3 else m - 9
  let year := cycle * 400 + (century * 100 + leap * 4 + yearIn : Nat)
  (if month ≤ 2 then year + 1 else year, month, day)

/-- The instant in universal time. -/
def render (t : Instant) : String :=
  let (year, month, day) := civil (t.minute.fdiv 1440 + epochDay)
  let inDay := (t.minute.fmod 1440).toNat
  padded 4 year.toNat ++ "-" ++ padded 2 month ++ "-" ++ padded 2 day ++ "T"
    ++ padded 2 (inDay / 60) ++ ":" ++ padded 2 (inDay % 60) ++ ":" ++ padded 2 t.second ++ "Z"

end Instant

end BatchRun
