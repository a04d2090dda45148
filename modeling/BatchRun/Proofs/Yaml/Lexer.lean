import BatchRun.Proofs.Yaml.Cursor
import BatchRun.Yaml.Token.Lexer

/-!
# Reading tokens in block structure

Between two tokens of a text without flow collections the state is given by the blocks that are
open, the position, and whether a key may start there.

* `Frame`, `Frame.close`: the open blocks and the tokens read, and what a column ends;
* `Lexer.inBlock`: the state of a frame, a position and the spot of a key;
* `Lexer.settle`, `Lexer.token`: a step is going to the next token and reading it;
* `Lexer.Leads`, `lexFrom_of_leads`: the steps between two tokens, `lexFrom_of_error`: those to a
  token that is refused;
* **`Place.Leads`**: how a text leads from one place to another, whatever the state remembers
  besides.
-/

namespace BatchRun

namespace Yaml

/-! ## Open blocks -/

/-- The blocks around a position, the innermost one first, and the tokens so far, the last one
first. A frame hangs if what follows has to be indented by one column at least. -/
structure Frame where
  indent : Int
  outer : List Int
  hanging : Bool
  out : List Token

namespace Frame

/-- The least column of what follows. -/
def least (f : Frame) : Int := if f.hanging then f.indent + 1 else f.indent

def levels (f : Frame) : List Level :=
  (if f.hanging then [⟨f.indent, false⟩] else []) ++ f.outer.map fun (i : Int) => ⟨i, true⟩

def emit (t : Token) (f : Frame) : Frame := { f with out := t :: f.out }

/-- Several tokens in the order of the text. -/
def emits (ts : List Token) (f : Frame) : Frame := { f with out := ts.reverse ++ f.out }

def hang (f : Frame) : Frame := { f with hanging := true }

def steady (f : Frame) : Frame := { f with hanging := false }

/-- Asks what follows to be indented, if there is a block. -/
def demand (f : Frame) : Frame := if f.outer = [] ∧ f.hanging = false then f else f.hang

/-- Ends the blocks deeper than a column. -/
def closeFrom (column : Int) : List Int → Int → List Token → Frame
  | [], indent, out => ⟨indent, [], false, out⟩
  | i :: outer, indent, out =>
    if indent ≤ column then ⟨indent, i :: outer, false, out⟩
    else closeFrom column outer i (.blockEnd :: out)

/-- The frame at a column. -/
def close (column : Int) (f : Frame) : Frame :=
  if f.hanging ∧ f.least ≤ column then f else closeFrom column f.outer f.indent f.out

/-- The frame after a block has been started at a column, if none stands there yet. -/
def enter (column : Nat) (t : Token) (f : Frame) : Frame :=
  if f.indent < column then ⟨column, f.indent :: f.outer, false, t :: f.out⟩
  else f.steady

variable {f : Frame} {column : Int}

theorem closeFrom_of_le {indent : Int} (h : indent ≤ column) (outer : List Int) (out : List Token) :
    closeFrom column outer indent out = ⟨indent, outer, false, out⟩ := by
  cases outer with
  | nil => rfl
  | cons i outer => rw [closeFrom, if_pos h]

theorem demand_of_ne_nil (h : f.outer ≠ []) : f.demand = f.hang := if_neg fun hbare => h hbare.1

theorem close_of_least_le (h : f.least ≤ column) : f.close column = f := by
  rw [close]
  by_cases hang : f.hanging = true
  · rw [if_pos ⟨hang, h⟩]
  · rw [if_neg fun h => hang h.1]
    rw [Bool.not_eq_true] at hang
    rw [least, hang, if_neg (by simp)] at h
    rw [closeFrom_of_le h, ← hang]

theorem close_eq (h : f.hanging = true → column ≤ f.indent) :
    f.close column = closeFrom column f.outer f.indent f.out := by
  rw [close, if_neg]
  rintro ⟨hang, hle⟩
  have := h hang
  rw [least, hang, if_pos rfl] at hle
  omega

end Frame

/-! ## Spots of keys -/

namespace KeySpot

/-- A key at the spot is out of reach at a position. -/
def isFar (p : Cursor) (s : KeySpot) : Bool := s.line < p.line || s.index + 1024 < p.index

/-- The spot, given up if it is out of reach. -/
def fade (p : Cursor) (s : KeySpot) : KeySpot := { s with possible := s.possible && !s.isFar p }

theorem fade_of_not_far {p : Cursor} {s : KeySpot} (h : s.isFar p = false) : s.fade p = s := by
  rw [fade, h]
  simp

theorem fade_possible {p : Cursor} {s : KeySpot} (h : s.possible = false ∨ s.line < p.line) :
    (s.fade p).possible = false := by
  rw [fade]
  obtain h | h := h
  · simp [h]
  · simp [isFar, h]

end KeySpot

/-! ## States in a block -/

namespace Lexer

/-- What a state remembers of no use outside flow collections: that a mapping has been started,
and where a colon needs no blank after it. -/
structure Rest where
  mappingStarted : Bool
  adjacent : Nat

/-- The state of a frame outside flow collections. -/
def inBlock (f : Frame) (p : Cursor) (allowed : Bool) (s : KeySpot) (x : Rest) : Lexer :=
  ⟨p, f.out, f.out.length, allowed, [s], f.least, f.levels, 0, x.mappingStarted, false, x.adjacent,
    false, false⟩

variable (f : Frame) (p q : Cursor) (allowed : Bool) (s : KeySpot) (x : Rest)

@[simp] theorem inBlock_pos : (inBlock f p allowed s x).pos = p := rfl
@[simp] theorem inBlock_keyAllowed : (inBlock f p allowed s x).keyAllowed = allowed := rfl
@[simp] theorem inBlock_indent : (inBlock f p allowed s x).indent = f.least := rfl
@[simp] theorem inBlock_inFlow : (inBlock f p allowed s x).inFlow = false := rfl
@[simp] theorem inBlock_spot : (inBlock f p allowed s x).spot = s := rfl
@[simp] theorem inBlock_marginProperty : (inBlock f p allowed s x).marginProperty = false := rfl
@[simp] theorem inBlock_fuel : (inBlock f p allowed s x).fuel = p.rest.length + 2 := rfl

@[simp] theorem inBlock_moveTo : (inBlock f p allowed s x).moveTo q = inBlock f q allowed s x := rfl

@[simp] theorem inBlock_allowKey (a : Bool) :
    (inBlock f p allowed s x).allowKey a = inBlock f p a s x := rfl

@[simp] theorem inBlock_emit (t : Token) :
    (inBlock f p allowed s x).emit t = inBlock (f.emit t) p allowed s x := rfl

@[simp] theorem inBlock_setSpot (s' : KeySpot) :
    (inBlock f p allowed s x).setSpot s' = inBlock f p allowed s' x := rfl

theorem inBlock_levels : (inBlock f p allowed s x).levels = f.levels := rfl

variable {f p q allowed s x}

theorem inBlock_dropKey (h : s.possible = false) :
    (inBlock f p allowed s x).dropKey = .ok (inBlock f p allowed s x) := by
  rw [dropKey, inBlock_spot, inBlock_setSpot, h, if_neg (by simp), ← h]

theorem inBlock_closeBlocks (column : Int) :
    (inBlock f p allowed s x).closeBlocks column = inBlock (f.close column) p allowed s x := by
  have hgo (outer : List Int) (i : Int) (out : List Token) :
      closeBlocks.go column (outer.map fun (i : Int) => ⟨i, true⟩)
        (inBlock ⟨i, outer, false, out⟩ p allowed s x) =
      inBlock (Frame.closeFrom column outer i out) p allowed s x := by
    induction outer generalizing i out with
    | nil => rfl
    | cons o outer ih =>
      rw [List.map_cons, closeBlocks.go, Frame.closeFrom]
      simp only [inBlock_indent, Frame.least, Bool.false_eq_true, if_false]
      split
      · rfl
      · exact ih o (.blockEnd :: out)
  obtain ⟨indent, outer, hanging, out⟩ := f
  rw [closeBlocks, inBlock_inFlow, if_neg (by simp), inBlock_levels, Frame.close]
  cases hanging with
  | false => exact hgo outer indent out
  | true =>
    rw [Frame.levels, if_pos rfl, List.singleton_append, closeBlocks.go, inBlock_indent]
    by_cases hle : Frame.least ⟨indent, outer, true, out⟩ ≤ column
    · rw [if_pos hle, if_pos ⟨rfl, hle⟩]
    · rw [if_neg hle, if_neg fun h => hle h.2]
      exact hgo outer indent out

theorem inBlock_closeColumns :
    (inBlock f p allowed s x).closeColumns = inBlock f.steady p allowed s x := by
  obtain ⟨indent, outer, hanging, out⟩ := f
  cases hanging <;> cases outer <;> rfl

theorem inBlock_openColumn :
    (inBlock f p allowed s x).openColumn = inBlock f.demand p allowed s x := by
  obtain ⟨indent, outer, hanging, out⟩ := f
  cases hanging <;> cases outer <;> rfl

theorem inBlock_openBlock {column : Nat} (h : f.least ≤ column) (number : Option Nat) (t : Token) :
    (inBlock f p allowed s x).openBlock column number t =
      if f.indent < column then
        let l := inBlock ⟨column, f.indent :: f.outer, false, f.out⟩ p allowed s x
        match number with
        | some n => l.emitAt n t
        | none => l.emit t
      else inBlock f.steady p allowed s x := by
  obtain ⟨indent, outer, hanging, out⟩ := f
  rw [openBlock, inBlock_inFlow, if_neg (by simp), inBlock_levels]
  cases hanging with
  | true =>
    have hle : (indent + 1 : Int) ≤ column := h
    have hlt : indent < column := by omega
    simp only [Frame.levels, if_true, List.singleton_append, inBlock, Frame.least, hle, decide_true,
      Bool.not_false, Bool.and_self, hlt]
    rfl
  | false =>
    simp only [Frame.levels, Bool.false_eq_true, if_false, List.nil_append]
    cases outer with
    | nil =>
      simp only [List.map_nil, inBlock_indent, Frame.least, Bool.false_eq_true, if_false]
      split <;> rfl
    | cons i outer =>
      simp only [List.map_cons, Bool.not_true, Bool.and_false, Bool.false_eq_true, if_false,
        inBlock_indent, Frame.least]
      split <;> rfl

theorem inBlock_enter {column : Nat} (h : f.least ≤ column) (t : Token) :
    (inBlock f p allowed s x).openBlock column none t =
      inBlock (f.enter column t) p allowed s x := by
  rw [inBlock_openBlock h, Frame.enter]
  split <;> rfl

theorem inBlock_emitAt {late early : List Token} (h : f.out = late ++ early) (t : Token) :
    (inBlock f p allowed s x).emitAt early.length t =
      inBlock { f with out := late ++ t :: early } p allowed s x := by
  have hlate : f.out.length - early.length = late.length := by
    rw [h, List.length_append]
    omega
  rw [emitAt]
  simp only [inBlock, hlate]
  rw [h, List.take_left, List.drop_left]
  simp only [List.length_append, List.length_cons]
  rfl

/-! ## Steps -/

/-- Goes to the next token and ends the blocks that its column ends. -/
def settle (l : Lexer) : Except Problem Lexer := do
  let l ← l.staleKeys
  let l ← l.skipToToken l.fuel
  let l ← l.staleKeys
  .ok (l.closeBlocks l.pos.column)

/-- Reads the token at the position. -/
def token (l : Lexer) : Except Problem Lexer :=
  if isEndMark l.pos.head then l.finish
  else if l.pos.column == 0 && l.pos.head == '%' then l.directive
  else if l.pos.atMarker '-' then l.marker .documentStart
  else if l.pos.atMarker '.' then l.endMarker
  else if (l.pos.column : Int) < l.indent then .error .indentation
  else l.content

theorem next_eq (l : Lexer) : l.next = (do
    let l ← l.skipToToken l.fuel
    let l ← l.staleKeys
    (l.closeBlocks l.pos.column).token) := rfl

/-- On the way to the next token the keys that are no longer possible are dropped twice, before what
stands in front of the token is passed and after that. -/
theorem exists_of_settle {l m : Lexer} (h : l.settle = .ok m) :
    ∃ l₁ l₂ l₃, l.staleKeys = .ok l₁ ∧ l₁.skipToToken l₁.fuel = .ok l₂ ∧ l₂.staleKeys = .ok l₃ ∧
      l₃.closeBlocks l₃.pos.column = m ∧ l₁.next = m.token := by
  simp only [settle, bind, Except.bind] at h
  cases h₁ : l.staleKeys with
  | error problem => simp [h₁] at h
  | ok l₁ =>
    cases h₂ : l₁.skipToToken l₁.fuel with
    | error problem => simp [h₁, h₂] at h
    | ok l₂ =>
      cases h₃ : l₂.staleKeys with
      | error problem => simp [h₁, h₂, h₃] at h
      | ok l₃ =>
        simp only [h₁, h₂, h₃, Except.ok.injEq] at h
        refine ⟨l₁, l₂, l₃, rfl, h₂, h₃, h, ?_⟩
        simp only [next_eq, bind, Except.bind, h₂, h₃, h]

theorem lexFrom_succ {l m l' : Lexer} (hl : l.finished = false) (hs : l.settle = .ok m)
    (ht : m.token = .ok l') (n : Nat) : lexFrom (n + 1) l = lexFrom n l' := by
  obtain ⟨l₁, _, _, h₁, _, _, _, hnext⟩ := exists_of_settle hs
  rw [lexFrom, hl, if_neg (by simp)]
  simp only [h₁, hnext, ht]

/-- The steps between two tokens, at each of which some of the text is passed. -/
inductive Leads : Lexer → Lexer → Prop where
  | refl (m : Lexer) : Leads m m
  | step {m l n o : Lexer} (token : m.token = .ok l) (live : l.finished = false)
      (settle : l.settle = .ok n) (shorter : n.pos.rest.length < m.pos.rest.length)
      (rest : Leads n o) : Leads m o

theorem Leads.trans {m n o : Lexer} (h : Leads m n) (h' : Leads n o) : Leads m o := by
  induction h with
  | refl => exact h'
  | step token live settle shorter _ ih => exact .step token live settle shorter (ih h')

/-- **The tokens of a text are those read when its end is reached.** -/
theorem lexFrom_of_leads {l m n o : Lexer} (hl : l.finished = false) (hs : l.settle = .ok m)
    (h : Leads m n) (ht : n.token = .ok o) (ho : o.finished = true) {fuel : Nat}
    (hfuel : m.pos.rest.length + 1 < fuel) : lexFrom fuel l = ⟨o.out.reverse, none⟩ := by
  obtain ⟨fuel, rfl⟩ : ∃ k, fuel = k + 2 := ⟨fuel - 2, by omega⟩
  induction h generalizing l fuel with
  | refl =>
    rw [lexFrom_succ hl hs ht, lexFrom, if_pos ho]
  | step token live settle shorter _ ih =>
    rw [lexFrom_succ hl hs token]
    obtain ⟨fuel, rfl⟩ : ∃ k, fuel = k + 1 := ⟨fuel - 1, by omega⟩
    exact ih live settle ht fuel (by omega)

/-! ## Texts that fail -/

theorem delivered_le {l : Lexer} {s : KeySpot} (hmem : s ∈ l.keys) (hs : s.possible = true) :
    l.delivered ≤ s.number := by
  have hfold (keys : List KeySpot) (n : Nat) : keys.foldl (fun (n : Nat) (s : KeySpot) =>
      if s.possible then min n s.number else n) n ≤ n := by
    induction keys generalizing n with
    | nil => exact Nat.le_refl n
    | cons t keys ih =>
      refine Nat.le_trans (ih _) ?_
      dsimp only
      split
      · exact Nat.min_le_left _ _
      · exact Nat.le_refl n
  rw [delivered]
  generalize l.count = n
  generalize l.keys = keys at hmem
  induction keys generalizing n with
  | nil => cases hmem
  | cons t keys ih =>
    rw [List.foldl_cons]
    obtain rfl | hmem := List.mem_cons.1 hmem
    · rw [if_pos hs]
      exact Nat.le_trans (hfold _ _) (Nat.min_le_right _ _)
    · exact ih _ hmem

theorem skipToToken_keys {fuel : Nat} {l m : Lexer} (h : l.skipToToken fuel = .ok m) :
    m.keys = l.keys := by
  induction fuel generalizing l with
  | zero =>
    cases h
    rfl
  | succ fuel ih =>
    rw [skipToToken] at h
    split at h
    · cases hline : l.pos.finishLine with
      | error problem => simp [hline, bind, Except.bind] at h
      | ok p =>
        simp only [hline, bind, Except.bind] at h
        split at h
        · rw [ih h]
          rfl
        · cases h
    · split at h
      · rw [ih h]
        rfl
      · split at h
        · rw [ih h]
          split <;> rfl
        · split at h
          · rw [ih h]
            rfl
          · cases h
            rfl

theorem closeBlocks_keys (column : Int) (l : Lexer) : (l.closeBlocks column).keys = l.keys := by
  have hgo (levels : List Level) (l : Lexer) :
      (closeBlocks.go column levels l).keys = l.keys := by
    induction levels generalizing l with
    | nil => rfl
    | cons level levels ih =>
      rw [closeBlocks.go]
      split
      · rfl
      · rw [ih]
        split <;> rfl
  rw [closeBlocks]
  split
  · rfl
  · exact hgo _ _

theorem exists_mem_of_staleKeys {l m : Lexer} (h : l.staleKeys = .ok m) {s : KeySpot}
    (hmem : s ∈ m.keys) (hs : s.possible = true) :
    ∃ t ∈ l.keys, t.possible = true ∧ t.number = s.number := by
  rw [staleKeys] at h
  split at h
  · cases h
  · cases h
    obtain ⟨t, ht, rfl⟩ := List.mem_map.1 hmem
    exact ⟨t, ht, (Bool.and_eq_true_iff.1 hs).1, rfl⟩

/-- **When a text fails, no token from the place of an undecided key on counts.** -/
theorem lexFrom_of_error {l m n : Lexer} {problem : Problem} (hl : l.finished = false)
    (hs : l.settle = .ok m) (h : Leads m n) (ht : n.token = .error problem) {s : KeySpot}
    (hmem : s ∈ n.keys) (hspot : s.possible = true) {fuel : Nat}
    (hfuel : m.pos.rest.length < fuel) :
    ∃ ts, lexFrom fuel l = ⟨ts, some problem⟩ ∧ ts.length ≤ s.number := by
  obtain ⟨fuel, rfl⟩ : ∃ k, fuel = k + 1 := ⟨fuel - 1, by omega⟩
  induction h generalizing l fuel with
  | @refl n =>
    obtain ⟨l₁, l₂, l₃, h₁, h₂, h₃, rfl, hnext⟩ := exists_of_settle hs
    rw [closeBlocks_keys] at hmem
    obtain ⟨t, hkey, hpossible, hnumber⟩ := exists_mem_of_staleKeys h₃ hmem hspot
    rw [skipToToken_keys h₂] at hkey
    refine ⟨l₁.out.reverse.take l₁.delivered, ?_, ?_⟩
    · rw [lexFrom, hl, if_neg (by simp)]
      simp only [h₁, hnext, ht]
    · rw [← hnumber]
      exact Nat.le_trans (List.length_take_le _ _) (delivered_le hkey hpossible)
  | step token live settle shorter _ ih =>
    rw [lexFrom_succ hl hs token]
    obtain ⟨fuel, rfl⟩ : ∃ k, fuel = k + 1 := ⟨fuel - 1, by omega⟩
    exact ih live settle ht hmem fuel (by omega)

/-! ## Going to the next token -/

theorem staleKeys_of_keys {l : Lexer} (hl : l.inFlow = false) (hkeys : l.keys = [s])
    (h : s.required = false ∨ s.possible = false ∨ s.isFar l.pos = false) :
    l.staleKeys = .ok { l with keys := [s.fade l.pos] } := by
  have hnone : (s.possible && s.isFar l.pos && s.required) = false := by
    obtain h | h | h := h <;> simp [h]
  have hfade : (s.possible && !(s.possible && s.isFar l.pos)) = (s.possible && !s.isFar l.pos) := by
    cases s.possible <;> rfl
  have hstale : (s.possible && !l.inFlow &&
      (decide (s.line < l.pos.line) || decide (s.index + 1024 < l.pos.index))) =
      (s.possible && s.isFar l.pos) := by
    rw [hl, Bool.not_false, Bool.and_true, KeySpot.isFar]
  rw [staleKeys]
  simp only [hkeys, List.any_cons, List.any_nil, Bool.or_false, List.map_cons, List.map_nil]
  rw [hstale, hnone, if_neg (by simp), hfade]
  rfl

theorem inBlock_staleKeys (h : s.required = false ∨ s.possible = false ∨ s.isFar p = false) :
    (inBlock f p allowed s x).staleKeys = .ok (inBlock f p allowed (s.fade p) x) :=
  staleKeys_of_keys rfl rfl h

theorem skipToToken_here {l : Lexer} {outer : Int} {column : Nat} {body : List Char}
    (hbody : Follows outer column body) (hp : l.pos.rest = body) (fuel : Nat) :
    l.skipToToken fuel = .ok l := by
  cases fuel with
  | zero => rfl
  | succ fuel =>
    have hblank := hbody.isSpaceOrTab
    have htab : (body.headD endMark == '\t') = false := (Bool.or_eq_false_iff.1 hblank).2
    have hhash : (body.headD endMark == '#') = false := beq_eq_false_iff_ne.2 hbody.ne_hash
    rw [skipToToken]
    simp only [Cursor.head_eq, hp, htab, hblank, hbody.isLineBreak, hhash, Bool.false_and,
      Bool.false_eq_true, if_false]

theorem inBlock_skipToToken_here {outer : Int} {column : Nat} {body : List Char}
    (hbody : Follows outer column body) (hp : p.rest = body) (fuel : Nat) :
    (inBlock f p allowed s x).skipToToken fuel = .ok (inBlock f p allowed s x) :=
  skipToToken_here hbody hp fuel

theorem inBlock_skipToToken_spaces {outer : Int} {column n : Nat} {body : List Char}
    (hbody : Follows outer column body) (hp : p.rest = spaces n ++ body) {fuel : Nat}
    (hfuel : n ≤ fuel) : (inBlock f p allowed s x).skipToToken fuel =
      .ok (inBlock f (p.skipSpaces n) allowed s x) := by
  induction n generalizing p fuel with
  | zero => exact inBlock_skipToToken_here hbody hp fuel
  | succ n ih =>
    obtain ⟨fuel, rfl⟩ : ∃ k, fuel = k + 1 := ⟨fuel - 1, by omega⟩
    have hp : p.rest = ' ' :: (spaces n ++ body) := hp
    have hskip : p.skipBlank.rest = spaces n ++ body := by rw [Cursor.skipBlank, hp]; rfl
    rw [skipToToken]
    simp only [inBlock_pos, Cursor.head_of_rest hp, show (' ' == '\t') = false from rfl,
      show isSpaceOrTab ' ' = true from rfl, Bool.false_and, Bool.false_eq_true, if_false, if_true,
      inBlock_moveTo]
    rw [ih hskip (by omega), Cursor.skipBlank_skipSpaces]

/-- A line feed and the indentation of the next line are skipped; a key may start there. -/
theorem inBlock_skipToToken_newline {outer : Int} {column : Nat} {body : List Char}
    (hbody : Follows outer column body) (hp : p.rest = '\n' :: (spaces column ++ body)) {fuel : Nat}
    (hfuel : column < fuel) : (inBlock f p allowed s x).skipToToken fuel =
      .ok (inBlock f (p.nextLine column) true s x) := by
  obtain ⟨fuel, rfl⟩ : ∃ k, fuel = k + 1 := ⟨fuel - 1, by omega⟩
  rw [skipToToken]
  simp only [inBlock_pos, Cursor.head_of_rest hp, show ('\n' == '\t') = false from rfl,
    show isSpaceOrTab '\n' = false from rfl, show isLineBreak '\n' = true from rfl,
    Bool.false_and, Bool.false_eq_true, if_false, if_true, inBlock_moveTo, inBlock_inFlow,
    inBlock_allowKey, Cursor.skipBreak_of_newline hp]
  rw [inBlock_skipToToken_spaces hbody (Cursor.nextLine_zero_rest hp) (by omega),
    Cursor.nextLine_skipSpaces]

/-- Where going to the next token leads, the spot of a key being out of reach there. -/
theorem inBlock_settle {q : Cursor} {a : Bool}
    (hs : s.possible = false ∨ s.required = false ∧ s.line < q.line)
    (hskip : ∀ s, (inBlock f p allowed s x).skipToToken (p.rest.length + 2) =
      .ok (inBlock f q a s x)) :
    ∃ s', (inBlock f p allowed s x).settle = .ok (inBlock (f.close q.column) q a s' x) ∧
      s'.possible = false := by
  have hloose (q : Cursor) : s.required = false ∨ s.possible = false ∨ s.isFar q = false :=
    hs.elim (fun h => .inr (.inl h)) fun h => .inl h.1
  have hloose' : (s.fade p).required = false ∨ (s.fade p).possible = false ∨
      (s.fade p).isFar q = false :=
    hs.elim (fun h => .inr (.inl (KeySpot.fade_possible (.inl h)))) fun h => .inl h.1
  refine ⟨(s.fade p).fade q, ?_, KeySpot.fade_possible ?_⟩
  · rw [settle, inBlock_staleKeys (hloose p)]
    simp only [bind, Except.bind, inBlock_fuel, hskip, inBlock_staleKeys hloose', inBlock_pos,
      inBlock_closeBlocks]
  · exact hs.imp (fun h => KeySpot.fade_possible (.inl h)) fun h => h.2

theorem inBlock_settle_near (hnear : s.isFar p = false) (hleast : f.least ≤ p.column)
    (hskip : (inBlock f p allowed s x).skipToToken (p.rest.length + 2) =
      .ok (inBlock f p allowed s x)) :
    (inBlock f p allowed s x).settle = .ok (inBlock f p allowed s x) := by
  rw [settle, inBlock_staleKeys (.inr (.inr hnear)), KeySpot.fade_of_not_far hnear]
  simp only [bind, Except.bind, inBlock_fuel, hskip, inBlock_staleKeys (.inr (.inr hnear)),
    KeySpot.fade_of_not_far hnear, inBlock_pos, inBlock_closeBlocks, Frame.close_of_least_le hleast]

/-! ## Reading a token -/

theorem inBlock_token {c : Char} {rest : List Char} (hp : p.rest = c :: rest) (hc : StartsToken c)
    (hpercent : c ≠ '%') (hmarker : p.atAnyMarker = false) (hleast : f.least ≤ p.column) :
    (inBlock f p allowed s x).token = (inBlock f p allowed s x).content := by
  obtain ⟨hhyphens, hpoints⟩ := Bool.or_eq_false_iff.1 hmarker
  have hpercent : (c == '%') = false := beq_eq_false_iff_ne.2 hpercent
  rw [token]
  simp only [inBlock_pos, Cursor.head_of_rest hp, hc.isEndMark, hpercent, Bool.and_false, hhyphens,
    hpoints, Bool.false_eq_true, if_false, inBlock_indent]
  exact if_neg (Int.not_lt.2 hleast)

end Lexer

/-! ## Places -/

/-- A place in a text, in block structure: what is open, what stands ahead, in which column, and
whether a key may start. -/
structure Place where
  frame : Frame
  rest : List Char
  column : Nat
  allowed : Bool

namespace Place

/-- The state is at a token, in the frame of the place, and no key is under way. -/
def Holds (a : Place) (m : Lexer) : Prop :=
  ∃ p s x, m = .inBlock a.frame p a.allowed s x ∧ s.possible = false ∧ p.rest = a.rest ∧
    p.column = a.column

/-- From every state at the first place steps lead to a state at the second one. -/
def Leads (a b : Place) : Prop := ∀ m, a.Holds m → ∃ m', Lexer.Leads m m' ∧ b.Holds m'

theorem Leads.trans {a b c : Place} (h : Leads a b) (h' : Leads b c) : Leads a c := by
  intro m hm
  obtain ⟨m', hm', hb⟩ := h m hm
  obtain ⟨m'', hm'', hc⟩ := h' m' hb
  exact ⟨m'', hm'.trans hm'', hc⟩

end Place

end Yaml

end BatchRun
