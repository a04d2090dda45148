import BatchRun.Yaml.Cursor
import BatchRun.Yaml.Writer
import Mathlib.Data.List.TakeWhile

/-!
# Steps in a text

* `Cursor.head_of_rest`, `peek_one_of_rest`: what stands ahead;
* `Cursor.skipMany`: where a number of characters leads on one line, blanks included
  (`skipBlank_eq_skip`);
* `Cursor.nextLine`: where a line feed and the indentation after it lead;
* `StartsToken`: the characters that start a token; `EndsScalar`, `Follows`: what may follow one.
-/

namespace BatchRun

namespace Yaml

namespace Cursor

variable {p : Cursor} {c : Char} {cs ds : List Char}

/-! ## What stands ahead -/

theorem start_rest (h : ∀ c ∈ cs, isEndMark c = false) : (Cursor.start cs).rest = cs :=
  List.takeWhile_eq_self_iff.2 fun c hc => by rw [h c hc]; rfl

theorem head_of_rest (h : p.rest = c :: cs) : p.head = c := by rw [head, h]; rfl

theorem head_of_nil (h : p.rest = []) : p.head = endMark := by rw [head, h]; rfl

theorem head_eq (p : Cursor) : p.head = p.rest.headD endMark := rfl

theorem peek_one_of_rest (h : p.rest = c :: cs) : p.peek 1 = cs.headD endMark := by
  rw [peek, h]
  cases cs <;> rfl

theorem peek_eq (p : Cursor) (n : Nat) : p.peek n = p.rest.getD n endMark := rfl

/-! ## Along a line -/

@[simp] theorem skip_rest (p : Cursor) : p.skip.rest = p.rest.drop 1 := rfl
@[simp] theorem skip_column (p : Cursor) : p.skip.column = p.column + 1 := rfl
@[simp] theorem skip_line (p : Cursor) : p.skip.line = p.line := rfl
@[simp] theorem skip_index (p : Cursor) : p.skip.index = p.index + 1 := rfl
@[simp] theorem skip_fresh (p : Cursor) : p.skip.fresh = false := rfl

theorem skip_rest_of_rest (h : p.rest = c :: cs) : p.skip.rest = cs := by rw [skip_rest, h]; rfl

theorem skipBlank_eq_skip (h : p.fresh = false) : p.skipBlank = p.skip := by
  rw [skip, skipBlank, h]

theorem skipMany_zero (p : Cursor) : skipMany 0 p = p := rfl

theorem skipMany_succ (n : Nat) (p : Cursor) : skipMany (n + 1) p = skipMany n p.skip := rfl

theorem skipMany_add (m n : Nat) (p : Cursor) : skipMany (m + n) p = skipMany n (skipMany m p) := by
  induction m generalizing p with
  | zero => rw [Nat.zero_add, skipMany_zero]
  | succ m ih => rw [Nat.add_right_comm, skipMany_succ, ih, skipMany_succ]

@[simp] theorem skipMany_rest (n : Nat) (p : Cursor) : (skipMany n p).rest = p.rest.drop n := by
  induction n generalizing p with
  | zero => rw [skipMany_zero, List.drop_zero]
  | succ n ih => rw [skipMany_succ, ih, skip_rest, List.drop_drop, Nat.add_comm]

@[simp] theorem skipMany_column (n : Nat) (p : Cursor) :
    (skipMany n p).column = p.column + n := by
  induction n generalizing p with
  | zero => rfl
  | succ n ih => rw [skipMany_succ, ih, skip_column]; omega

@[simp] theorem skipMany_index (n : Nat) (p : Cursor) : (skipMany n p).index = p.index + n := by
  induction n generalizing p with
  | zero => rfl
  | succ n ih => rw [skipMany_succ, ih, skip_index]; omega

@[simp] theorem skipMany_line (n : Nat) (p : Cursor) : (skipMany n p).line = p.line := by
  induction n generalizing p with
  | zero => rfl
  | succ n ih => rw [skipMany_succ, ih, skip_line]

theorem skipMany_fresh {n : Nat} (h : p.fresh = false ∨ n ≠ 0) : (skipMany n p).fresh = false := by
  induction n generalizing p with
  | zero => exact h.resolve_right (fun h => h rfl)
  | succ n ih => exact ih (.inl rfl)

theorem skipMany_rest_append (h : p.rest = cs ++ ds) : (skipMany cs.length p).rest = ds := by
  rw [skipMany_rest, h, List.drop_left]

theorem atAnyMarker_of_column (h : 0 < p.column) : p.atAnyMarker = false := by
  have : (p.column == 0) = false := beq_eq_false_iff_ne.2 (by omega)
  simp [atAnyMarker, atMarker, this]

/-! ## To the next line -/

/-- Past a number of blanks. -/
def skipSpaces (n : Nat) (p : Cursor) : Cursor :=
  { p with rest := p.rest.drop n, index := p.index + n, column := p.column + n }

theorem skipBlank_skipSpaces (n : Nat) (p : Cursor) :
    p.skipBlank.skipSpaces n = p.skipSpaces (n + 1) := by
  simp [skipSpaces, skipBlank, Nat.add_assoc, Nat.add_comm 1]

theorem skipSpaces_rest {n : Nat} (h : p.rest = spaces n ++ cs) : (p.skipSpaces n).rest = cs := by
  simp [skipSpaces, h, spaces]

/-- Past a line feed and `indent` spaces. -/
def nextLine (indent : Nat) (p : Cursor) : Cursor :=
  ⟨p.rest.drop (indent + 1), p.index + indent + 1, p.line + 1, indent, true⟩

theorem skipBreak_of_newline (h : p.rest = '\n' :: cs) : p.skipBreak = p.nextLine 0 := by
  rw [skipBreak, head_of_rest h]
  rfl

theorem nextLine_skipSpaces (n : Nat) (p : Cursor) :
    (p.nextLine 0).skipSpaces n = p.nextLine n := by
  simp [nextLine, skipSpaces, Nat.add_assoc, Nat.add_comm 1]

theorem nextLine_skipBlank (n : Nat) (p : Cursor) :
    (p.nextLine n).skipBlank = p.nextLine (n + 1) := by
  simp [nextLine, skipBlank, Nat.add_assoc]

theorem nextLine_rest {n : Nat} (h : p.rest = '\n' :: (spaces n ++ cs)) :
    (p.nextLine n).rest = cs := by
  rw [nextLine, h]
  simp [spaces]

theorem nextLine_zero_rest (h : p.rest = '\n' :: cs) : (p.nextLine 0).rest = cs := by
  rw [nextLine, h]
  rfl

end Cursor

/-! ## Starts of tokens -/

/-- A character that is no blank, no break, no end and starts no comment. -/
structure StartsToken (c : Char) : Prop where
  wordEnd : isWordEnd c = false
  hash : c ≠ '#'

namespace StartsToken

variable {c : Char}

theorem ne_space (h : StartsToken c) : c ≠ ' ' := by
  rintro rfl
  exact absurd h.wordEnd (by decide)

theorem ne_tab (h : StartsToken c) : c ≠ '\t' := by
  rintro rfl
  exact absurd h.wordEnd (by decide)

theorem isSpaceOrTab (h : StartsToken c) : isSpaceOrTab c = false :=
  (Bool.or_eq_false_iff.1 h.wordEnd).1

theorem isLineBreak (h : StartsToken c) : isLineBreak c = false :=
  (Bool.or_eq_false_iff.1 (Bool.or_eq_false_iff.1 h.wordEnd).2).1

theorem isEndMark (h : StartsToken c) : isEndMark c = false :=
  (Bool.or_eq_false_iff.1 (Bool.or_eq_false_iff.1 h.wordEnd).2).2

end StartsToken

/-- What may stand behind a scalar: the colon of a key, or the end of the line. -/
inductive EndsScalar : List Char → Prop where
  | colon {c : Char} (blank : isWordEnd c = true) (rest : List Char) : EndsScalar (':' :: c :: rest)
  | newline (rest : List Char) : EndsScalar ('\n' :: rest)

namespace EndsScalar

variable {cs : List Char}

theorem exists_cons (h : EndsScalar cs) :
    ∃ c rest, cs = c :: rest ∧ (c = ':' ∨ c = '\n') := by
  cases h with
  | colon _ rest => exact ⟨':', _, rfl, .inl rfl⟩
  | newline rest => exact ⟨'\n', _, rfl, .inr rfl⟩

theorem skipToLineEnd (h : EndsScalar cs) {p : Cursor} (hp : p.rest = cs) (tabsToo : Bool) :
    p.skipToLineEnd tabsToo = .ok (⟨false, false⟩, p) := by
  obtain ⟨c, rest, rfl, hc⟩ := h.exists_cons
  rw [Cursor.skipToLineEnd, Cursor.skipToLineEndFrom, Cursor.head_of_rest hp]
  obtain rfl | rfl := hc <;> rfl

theorem finishLine (h : EndsScalar cs) {p : Cursor} (hp : p.rest = cs) : p.finishLine = .ok p := by
  rw [Cursor.finishLine, h.skipToLineEnd hp]
  rfl

end EndsScalar

/-- What may follow the last line of a node in a block of indentation `outer`: the end of the text,
or a token that is no deeper than the block. -/
inductive Follows (outer : Int) : Nat → List Char → Prop where
  | stop : Follows outer 0 []
  | token {column : Nat} {c : Char} (start : StartsToken c) (le : (column : Int) ≤ outer)
      (rest : List Char) : Follows outer column (c :: rest)

namespace Follows

variable {outer : Int} {column : Nat} {body : List Char}

theorem isSpaceOrTab (h : Follows outer column body) :
    isSpaceOrTab (body.headD endMark) = false := by
  cases h with
  | stop => rfl
  | token start => exact start.isSpaceOrTab

theorem isLineBreak (h : Follows outer column body) : isLineBreak (body.headD endMark) = false := by
  cases h with
  | stop => rfl
  | token start => exact start.isLineBreak

theorem ne_space (h : Follows outer column body) : body.headD endMark ≠ ' ' := by
  intro hspace
  have hblank := h.isSpaceOrTab
  rw [hspace] at hblank
  cases hblank

theorem ne_hash (h : Follows outer column body) : body.headD endMark ≠ '#' := by
  cases h with
  | stop => decide
  | token start => exact start.hash

theorem skipToLineEnd (h : Follows outer column body) {p : Cursor} (hp : p.rest = body)
    (tabsToo : Bool) : p.skipToLineEnd tabsToo = .ok (⟨false, false⟩, p) := by
  obtain ⟨hspace, htab⟩ := Bool.or_eq_false_iff.1 h.isSpaceOrTab
  have hhash : (body.headD endMark == '#') = false := beq_eq_false_iff_ne.2 h.ne_hash
  rw [Cursor.skipToLineEnd, Cursor.skipToLineEndFrom]
  simp only [Cursor.head_eq, hp, hspace, htab, hhash, Bool.false_and, Bool.false_eq_true, if_false]

theorem finishLine (h : Follows outer column body) {p : Cursor} (hp : p.rest = body) :
    p.finishLine = .ok p := by
  rw [Cursor.finishLine, h.skipToLineEnd hp]
  rfl

theorem mono {inner : Int} (h : Follows outer column body) (hle : outer ≤ inner) :
    Follows inner column body := by
  cases h with
  | stop => exact .stop
  | token start le rest => exact .token start (Int.le_trans le hle) rest

end Follows

end Yaml

end BatchRun
