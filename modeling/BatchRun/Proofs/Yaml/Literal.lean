import BatchRun.Proofs.Yaml.Cursor
import BatchRun.Proofs.Yaml.Style
import BatchRun.Yaml.Token.Scalar
import Mathlib.Tactic.Set

/-!
# Literal blocks are read back

* `Below`, `skipEmptyLines_below`: empty lines and the indentation of the line after them;
* `Lines`, `exists_lines`: a text line by line, with the line feeds at its end;
* `readBlockLines_line`, `readBlockLines_run`: one line of a block, and all of them;
* `Chomps`, `readHeader_run`: the header;
* **`readBlockScalar_run`**: a literal block with its header.
-/

namespace BatchRun

namespace Yaml

open Cursor

variable {p : Cursor} {cs ds rest : List Char}

/-! ## Indentation -/

theorem skipIndent_run {m indent : Nat} (hp : p.rest = spaces m ++ rest)
    (hle : p.column + m ≤ indent) (hrest : p.column + m = indent ∨ rest.headD endMark ≠ ' ')
    {fuel : Nat} (hfuel : m ≤ fuel) :
    skipIndent indent fuel p = p.skipSpaces m := by
  induction m generalizing p fuel with
  | zero =>
    cases fuel with
    | zero => rfl
    | succ fuel =>
      have hp : p.rest = rest := hp
      rw [skipIndent, head_eq, hp, if_neg]
      · rfl
      · rw [Bool.and_eq_true, decide_eq_true_eq, beq_iff_eq]
        rintro ⟨hlt, hspace⟩
        exact hrest.elim (by omega) fun h => h hspace
  | succ m ih =>
    obtain ⟨fuel, rfl⟩ : ∃ n, fuel = n + 1 := ⟨fuel - 1, by omega⟩
    have hp : p.rest = ' ' :: (spaces m ++ rest) := hp
    have hskip : p.skipBlank.rest = spaces m ++ rest := by rw [skipBlank, hp]; rfl
    have hcolumn : p.skipBlank.column = p.column + 1 := rfl
    rw [skipIndent, head_of_rest hp, if_pos (by simp; omega),
      ih hskip (by omega) (by rw [hcolumn]; exact hrest.imp_left (by omega)) (by omega),
      skipBlank_skipSpaces]

/-- Empty lines are counted and the indentation of the line after them is passed. -/
theorem skipEmptyLines_run {n m indent : Nat} (hp : p.rest = Gap.feeds n ++ (spaces m ++ rest))
    (hcolumn : p.column = 0) (hle : m ≤ indent) (hrest : m = indent ∨ rest.headD endMark ≠ ' ')
    (hbreak : isLineBreak (rest.headD endMark) = false) {fuel : Nat} (hfuel : n < fuel)
    (count : Nat) : ∃ q, skipEmptyLines indent fuel count p = (count + n, q) ∧ q.rest = rest ∧
      q.column = m ∧ p.line ≤ q.line := by
  obtain ⟨fuel, rfl⟩ : ∃ k, fuel = k + 1 := ⟨fuel - 1, by omega⟩
  induction n generalizing p fuel count with
  | zero =>
    have hp : p.rest = spaces m ++ rest := hp
    have hlength : m ≤ p.rest.length := by rw [hp, List.length_append]; simp [spaces]
    have hskip : skipIndent indent p.rest.length p = p.skipSpaces m :=
      skipIndent_run hp (by omega) (by rwa [hcolumn, Nat.zero_add]) hlength
    have hq := skipSpaces_rest hp
    refine ⟨p.skipSpaces m, ?_, hq, by simp [skipSpaces, hcolumn], Nat.le_refl _⟩
    rw [skipEmptyLines, hskip, head_eq, hq, hbreak]
    rfl
  | succ n ih =>
    obtain ⟨fuel, rfl⟩ : ∃ k, fuel = k + 1 := ⟨fuel - 1, by omega⟩
    have hp : p.rest = '\n' :: (Gap.feeds n ++ (spaces m ++ rest)) := hp
    have hskip : skipIndent indent p.rest.length p = p :=
      skipIndent_run (m := 0) hp (by omega) (.inr (by simp)) (Nat.zero_le _)
    obtain ⟨q, hq, hqrest, hqcolumn, hqline⟩ :=
      ih (nextLine_zero_rest hp) rfl (count + 1) fuel (by omega)
    refine ⟨q, ?_, hqrest, hqcolumn, ?_⟩
    · rw [skipEmptyLines, hskip, head_of_rest hp, skipBreak_of_newline hp, hq, Nat.add_assoc,
        Nat.add_comm 1]
      rfl
    · have : p.line + 1 ≤ q.line := hqline
      omega

/-- The position is behind the indentation of a later line. -/
structure Below (p : Cursor) (column : Nat) (ahead : List Char) (q : Cursor) : Prop where
  rest : q.rest = ahead
  column : q.column = column
  line : p.line < q.line

theorem Below.of_le {p' q : Cursor} {column : Nat} {ahead : List Char}
    (h : Below p column ahead q) (hle : p'.line ≤ p.line) : Below p' column ahead q :=
  ⟨h.rest, h.column, Nat.lt_of_le_of_lt hle h.line⟩

theorem skipEmptyLines_below {n m indent : Nat}
    (hp : p.rest = '\n' :: (Gap.feeds n ++ (spaces m ++ rest))) (hle : m ≤ indent)
    (hrest : m = indent ∨ rest.headD endMark ≠ ' ')
    (hbreak : isLineBreak (rest.headD endMark) = false) :
    ∃ q, skipEmptyLines indent ((Gap.feeds n ++ (spaces m ++ rest)).length + 1) 0 (p.nextLine 0) =
      (n, q) ∧ Below p m rest q := by
  have hfuel : n < (Gap.feeds n ++ (spaces m ++ rest)).length + 1 := by
    rw [Gap.feeds, List.length_append, List.length_replicate]
    omega
  obtain ⟨q, hskip, hqrest, hqcolumn, hqline⟩ :=
    skipEmptyLines_run (nextLine_zero_rest hp) rfl hle hrest hbreak hfuel 0
  rw [Nat.zero_add] at hskip
  exact ⟨q, hskip, hqrest, hqcolumn, Nat.lt_of_succ_le hqline⟩

/-! ## Words -/

theorem takeWhile_run {accept : Char → Bool} {c : Char} (hds : ∀ c ∈ ds, accept c = true)
    (hc : accept c = false) (hp : p.rest = ds ++ c :: rest) {fuel : Nat}
    (hfuel : ds.length < fuel) :
    Cursor.takeWhile accept fuel p = (ds, p.skipMany ds.length) := by
  obtain ⟨fuel, rfl⟩ : ∃ k, fuel = k + 1 := ⟨fuel - 1, by omega⟩
  induction ds generalizing p fuel with
  | nil =>
    have hp : p.rest = c :: rest := hp
    rw [Cursor.takeWhile, head_of_rest hp, hc]
    rfl
  | cons d ds ih =>
    obtain ⟨hd, hds⟩ := List.forall_mem_cons.1 hds
    obtain ⟨fuel, rfl⟩ : ∃ k, fuel = k + 1 := ⟨fuel - 1, by simp at hfuel; omega⟩
    have hskip : p.skip.rest = ds ++ c :: rest := by rw [skip_rest, hp]; rfl
    rw [Cursor.takeWhile, head_of_rest hp, hd, if_pos rfl, ih hds hskip fuel (by simpa using hfuel)]
    rfl

theorem word_run {accept : Char → Bool} {c : Char} (hds : ∀ c ∈ ds, accept c = true)
    (hc : accept c = false) (hp : p.rest = ds ++ c :: rest) :
    p.word accept = (ds, p.skipMany ds.length) :=
  takeWhile_run hds hc hp (by rw [hp, List.length_append, List.length_cons]; omega)

/-! ## Lines of a text -/

/-- The only breaks of the text are line feeds. -/
def OnlyFeeds (cs : List Char) : Prop := ∀ c ∈ cs, isBreak c = true → c = '\n'

theorem OnlyFeeds.isBreak_eq_false {c : Char} (h : OnlyFeeds cs) (hc : c ∈ cs) (hn : c ≠ '\n') :
    isBreak c = false := by
  rw [← Bool.not_eq_true]
  exact fun hbreak => hn (h c hc hbreak)

/-- A line that is not empty. -/
structure IsLine (line : List Char) : Prop where
  ne_nil : line ≠ []
  within : ∀ c ∈ line, isLineEnd c = false
  unbroken : ∀ c ∈ line, isBreak c = false

/-- A text starts with a line that is not empty and ends with `n` line feeds, before which it is
`core`. -/
inductive Lines : List Char → List Char → Nat → Prop where
  | last {line : List Char} (isLine : IsLine line) (n : Nat) : Lines (line ++ Gap.feeds n) line n
  | cons {line cs core : List Char} {n : Nat} (isLine : IsLine line) (e : Nat)
      (more : Lines cs core n) :
      Lines (line ++ '\n' :: (Gap.feeds e ++ cs)) (line ++ '\n' :: (Gap.feeds e ++ core)) n

theorem exists_feeds (cs : List Char) : ∃ n more, cs = Gap.feeds n ++ more ∧
    more.head? ≠ some '\n' := by
  induction cs with
  | nil => exact ⟨0, [], rfl, by simp⟩
  | cons c cs ih =>
    by_cases hc : c = '\n'
    · obtain ⟨n, more, rfl, hmore⟩ := ih
      exact ⟨n + 1, more, by rw [hc]; rfl, hmore⟩
    · exact ⟨0, c :: cs, rfl, by simpa using hc⟩

theorem exists_line (cs : List Char) : ∃ line more, cs = line ++ more ∧ '\n' ∉ line ∧
    (more = [] ∨ ∃ rest, more = '\n' :: rest) := by
  induction cs with
  | nil => exact ⟨[], [], rfl, by simp, .inl rfl⟩
  | cons c cs ih =>
    by_cases hc : c = '\n'
    · exact ⟨[], c :: cs, rfl, by simp, .inr ⟨cs, by rw [hc]⟩⟩
    · obtain ⟨line, more, rfl, hline, hmore⟩ := ih
      exact ⟨c :: line, more, rfl, by simp [hline, Ne.symm hc], hmore⟩

theorem exists_lines {c : Char} (hprint : ∀ d ∈ c :: cs, isPrintable d = true)
    (hfeeds : OnlyFeeds (c :: cs)) (hc : c ≠ '\n') : ∃ core n, Lines (c :: cs) core n := by
  induction hsize : cs.length using Nat.strongRecOn generalizing c cs with
  | _ size ih => ?_
  obtain ⟨line, more, rfl, hline, hmore⟩ := exists_line cs
  have hmem {d : Char} (hd : d ∈ c :: line) : d ∈ c :: (line ++ more) ∧ d ≠ '\n' := by
    refine ⟨List.mem_append_left more hd, ?_⟩
    rintro rfl
    exact (List.mem_cons.1 hd).elim (fun h => hc h.symm) hline
  have hisLine : IsLine (c :: line) :=
    ⟨List.cons_ne_nil _ _, fun d hd => isLineEnd_eq_false (hprint d (hmem hd).1) (hmem hd).2,
      fun d hd => hfeeds.isBreak_eq_false (hmem hd).1 (hmem hd).2⟩
  obtain rfl | ⟨rest, rfl⟩ := hmore
  · exact ⟨c :: line, 0, .last hisLine 0⟩
  · obtain ⟨e, more, rfl, hmore⟩ := exists_feeds rest
    cases more with
    | nil =>
      rw [List.append_nil]
      exact ⟨c :: line, e + 1, .last hisLine (e + 1)⟩
    | cons d more =>
      have hmore' {x : Char} (hx : x ∈ d :: more) :
          x ∈ c :: (line ++ '\n' :: (Gap.feeds e ++ d :: more)) := by
        simp only [List.mem_append, List.mem_cons] at hx ⊢
        exact .inr (.inr (.inr (.inr hx)))
      have hshort : more.length < size := by
        rw [← hsize]
        simp only [List.length_append, List.length_cons]
        omega
      obtain ⟨core, n, hcore⟩ := ih _ hshort (fun x hx => hprint x (hmore' hx))
        (fun x hx => hfeeds x (hmore' hx)) (by simpa using hmore) rfl
      exact ⟨_, n, .cons hisLine e hcore⟩

theorem Lines.head {core : List Char} {n : Nat} (h : Lines cs core n) :
    ∃ c tail, cs = c :: tail ∧ isLineEnd c = false ∧ isBreak c = false := by
  cases h with
  | last isLine | cons isLine =>
    obtain ⟨c, tail, rfl⟩ := List.exists_cons_of_ne_nil isLine.ne_nil
    exact ⟨c, _, rfl, isLine.within c List.mem_cons_self, isLine.unbroken c List.mem_cons_self⟩

theorem Lines.eq_append {core : List Char} {n : Nat} (h : Lines cs core n) :
    cs = core ++ Gap.feeds n := by
  induction h with
  | last => rfl
  | cons _ e _ ih => rw [ih, List.append_assoc, List.cons_append, List.append_assoc]

theorem Lines.getLast? {core : List Char} {n : Nat} (h : Lines cs core n) :
    ∃ c, core.getLast? = some c ∧ isBreak c = false := by
  induction h with
  | last isLine =>
    exact ⟨_, List.getLast?_eq_some_getLast isLine.ne_nil, isLine.unbroken _ (List.getLast_mem _)⟩
  | cons _ e _ ih =>
    obtain ⟨c, hc, hbreak⟩ := ih
    exact ⟨c, by simp [List.getLast?_append, List.getLast?_cons, hc], hbreak⟩

/-! ## Written lines -/

/-- The line feed that ends a block whose text does not end in one. -/
def closing (cs : List Char) : List Char := if cs.getLast?.any isBreak then [] else ['\n']

theorem closing_feeds (cs : List Char) (n : Nat) : closing (cs ++ Gap.feeds (n + 1)) = [] := by
  have hlast : (cs ++ Gap.feeds (n + 1)).getLast? = some '\n' := by
    rw [Gap.feeds, List.replicate_succ', ← List.append_assoc, List.getLast?_append]
    rfl
  rw [closing, hlast]
  rfl

theorem closing_append {more : List Char} (h : more ≠ []) :
    closing (cs ++ more) = closing more := by
  rw [closing, closing, List.getLast?_append, List.getLast?_eq_some_getLast h]
  rfl

variable {indent : Nat}

theorem literalBody_feeds (n : Nat) (cs : List Char) :
    literalBody indent true (Gap.feeds n ++ cs) = Gap.feeds n ++ literalBody indent true cs := by
  induction n with
  | zero => rfl
  | succ n ih =>
    rw [Gap.feeds, List.replicate_succ, List.cons_append, literalBody, if_pos (by decide)]
    exact congrArg _ ih

theorem literalBody_line (hline : ∀ c ∈ ds, isBreak c = false) (cs : List Char) :
    literalBody indent false (ds ++ cs) = ds ++ literalBody indent false cs := by
  induction ds with
  | nil => rfl
  | cons d ds ih =>
    obtain ⟨hd, hline⟩ := List.forall_mem_cons.1 hline
    rw [List.cons_append, literalBody, hd, if_neg (by simp), if_neg (by simp), ih hline]
    rfl

theorem literalBody_indented {c : Char} (hc : isBreak c = false) (cs : List Char) :
    literalBody indent true (c :: cs) = spaces indent ++ literalBody indent false (c :: cs) := by
  rw [literalBody, literalBody, hc]
  rfl

theorem literalBody_newline (cs : List Char) :
    literalBody indent false ('\n' :: cs) = '\n' :: literalBody indent true cs := by
  rw [literalBody, if_pos (by decide)]

theorem length_le_length_literalBody (indent : Nat) (afterBreak : Bool) (cs : List Char) :
    cs.length ≤ (literalBody indent afterBreak cs).length := by
  induction cs generalizing afterBreak with
  | nil => exact Nat.zero_le _
  | cons c cs ih =>
    have htrue := ih true
    have hfalse := ih false
    rw [literalBody]
    split
    · simpa using htrue
    · split
      · rw [List.length_append, List.length_cons, List.length_cons]
        omega
      · simpa using hfalse

/-- The text of a block behind the indentation of its first line, the last line being ended. -/
def ended (indent : Nat) (cs : List Char) : List Char := literalBody indent false cs ++ closing cs

theorem length_le_length_ended (indent : Nat) (cs : List Char) :
    cs.length ≤ (ended indent cs).length := by
  rw [ended, List.length_append]
  exact Nat.le_add_right_of_le (length_le_length_literalBody indent false cs)

theorem Lines.literalBody_append {core : List Char} {n : Nat} (h : Lines cs core n)
    (indent : Nat) (pre : List Char) :
    literalBody indent true cs ++ closing (pre ++ cs) = spaces indent ++ ended indent cs := by
  obtain ⟨c, tail, rfl, -, hc⟩ := h.head
  rw [literalBody_indented hc, closing_append (List.cons_ne_nil _ _), ended, List.append_assoc]

theorem IsLine.ended_last {line : List Char} (h : IsLine line) (n : Nat) :
    ended indent (line ++ Gap.feeds n) = line ++ '\n' :: Gap.feeds (n - 1) := by
  rw [ended, literalBody_line h.unbroken, List.append_assoc]
  cases n with
  | zero =>
    have hlast := List.getLast?_eq_some_getLast h.ne_nil
    have hclosing : closing line = ['\n'] := by
      rw [closing, hlast, Option.any_some, h.unbroken _ (List.getLast_mem _), if_neg (by simp)]
    rw [show line ++ Gap.feeds 0 = line from List.append_nil line, hclosing]
    rfl
  | succ n =>
    have hbody : literalBody indent false (Gap.feeds (n + 1)) = '\n' :: Gap.feeds n := by
      have hfeeds : literalBody indent true (Gap.feeds n ++ []) = Gap.feeds n ++ [] :=
        literalBody_feeds n []
      rw [List.append_nil] at hfeeds
      exact (literalBody_newline (Gap.feeds n)).trans (congrArg _ hfeeds)
    rw [closing_feeds line, hbody, List.append_nil]
    rfl

theorem IsLine.ended_cons {line core : List Char} {n : Nat} (h : IsLine line) (e : Nat)
    (more : Lines cs core n) : ended indent (line ++ '\n' :: (Gap.feeds e ++ cs)) =
      line ++ '\n' :: (Gap.feeds e ++ (spaces indent ++ ended indent cs)) := by
  rw [ended, literalBody_line h.unbroken, literalBody_newline, literalBody_feeds,
    List.append_cons line, ← List.append_assoc _ (Gap.feeds e)]
  have hmore := more.literalBody_append indent (line ++ ['\n'] ++ Gap.feeds e)
  simp only [List.append_assoc, List.cons_append, List.nil_append] at hmore ⊢
  rw [hmore]

theorem Lines.ended_head {core : List Char} {n : Nat} (h : Lines cs core n) (indent : Nat) :
    ∃ c more, cs.head? = some c ∧ ended indent cs = c :: more ∧ isLineEnd c = false := by
  obtain ⟨c, tail, rfl, hend, hc⟩ := h.head
  refine ⟨c, literalBody indent false tail ++ closing (c :: tail), rfl, ?_, hend⟩
  rw [ended, literalBody, hc]
  rfl

/-! ## Contents -/

namespace BlockText

/-- The line feeds between what was read and the next line. -/
def joint (t : BlockText) : List Char := (if t.broken then ['\n'] else []) ++ Gap.feeds t.empty

theorem reverse_joint (t : BlockText) : t.joint.reverse = t.joint := by
  rw [joint, List.reverse_append]
  cases t.broken with
  | false => simp [Gap.feeds]
  | true =>
    simp only [Gap.feeds, if_true, List.reverse_replicate, List.reverse_singleton]
    rw [← List.replicate_succ', List.singleton_append, ← List.replicate_succ]

/-- The contents with one more line and the empty lines behind it. -/
def push (t : BlockText) (line : List Char) (e : Nat) (blank : Bool) : BlockText :=
  ⟨line.reverse ++ t.joint ++ t.seen, true, e, blank⟩

theorem reverse_seen_push (t : BlockText) (line : List Char) (e : Nat) (blank : Bool) :
    (t.push line e blank).seen.reverse = t.seen.reverse ++ (t.joint ++ line) := by
  simp [push, reverse_joint]

theorem joint_push (t : BlockText) (line : List Char) (e : Nat) (blank : Bool) :
    (t.push line e blank).joint = '\n' :: Gap.feeds e := rfl

end BlockText

theorem readBlockLines_end (h : p.column ≠ indent) (fuel : Nat) (t : BlockText) :
    readBlockLines true indent fuel t p = (t, p) := by
  cases fuel with
  | zero => rfl
  | succ fuel => rw [readBlockLines, if_pos (.inl h)]

/-- **One line of a block** and the empty lines behind it. -/
theorem readBlockLines_line {line : List Char} {e m : Nat} (hline : IsLine line)
    (hp : p.rest = line ++ '\n' :: (Gap.feeds e ++ (spaces m ++ rest)))
    (hcolumn : p.column = indent) (hindent : 0 < indent) (hle : m ≤ indent)
    (hrest : m = indent ∨ rest.headD endMark ≠ ' ')
    (hbreak : isLineBreak (rest.headD endMark) = false) (fuel : Nat) (t : BlockText) :
    ∃ blank q, readBlockLines true indent (fuel + 1) t p =
      readBlockLines true indent fuel (t.push line e blank) q ∧ Below p m rest q := by
  obtain ⟨c, tail, rfl⟩ := List.exists_cons_of_ne_nil hline.ne_nil
  have hend : isEndMark c = false :=
    (Bool.or_eq_false_iff.1 (hline.within c List.mem_cons_self)).2
  have hword : p.word (fun (c : Char) => !isLineEnd c) =
      (c :: tail, p.skipMany (c :: tail).length) :=
    word_run (fun d hd => by rw [hline.within d hd]; rfl) rfl hp
  have hq := skipMany_rest_append hp
  obtain ⟨q, hskip, hbelow⟩ := skipEmptyLines_below hq hle hrest hbreak
  refine ⟨isSpaceOrTab c, q, ?_, hbelow.of_le (Nat.le_of_eq (skipMany_line _ p).symm)⟩
  rw [readBlockLines, head_of_rest hp, hend, if_neg (by simp [hcolumn])]
  simp only [hword, Bool.not_true, Bool.false_and, Bool.false_eq_true, if_false]
  rw [if_neg (by simp; omega), head_of_rest hq, if_neg (by decide), skipBreak_of_newline hq,
    nextLine_zero_rest hq, hskip]
  rfl

variable {outer : Int} {column : Nat} {body core : List Char}

/-- **The lines of a block are read back, the line feeds at its end being counted.** -/
theorem readBlockLines_run {n : Nat} (hcs : Lines cs core n) (hbody : Follows outer column body)
    (hlt : column < indent) (hp : p.rest = ended indent cs ++ (spaces column ++ body))
    (hcolumn : p.column = indent) {fuel : Nat} (hfuel : cs.length < fuel) (t : BlockText) :
    ∃ t' q, readBlockLines true indent fuel t p = (t', q) ∧
      t'.seen.reverse = t.seen.reverse ++ (t.joint ++ core) ∧ t'.broken = true ∧
      t'.empty = n - 1 ∧ Below p column body q := by
  obtain ⟨fuel, rfl⟩ : ∃ k, fuel = k + 1 := ⟨fuel - 1, by omega⟩
  induction hcs generalizing p fuel t with
  | @last line isLine n =>
    rw [isLine.ended_last, List.append_assoc] at hp
    obtain ⟨blank, q, hread, hq⟩ := readBlockLines_line isLine hp hcolumn (by omega)
      (Nat.le_of_lt hlt) (.inr hbody.ne_space) hbody.isLineBreak fuel t
    have hend : q.column ≠ indent := by
      rw [hq.column]
      omega
    exact ⟨_, q, hread.trans (readBlockLines_end hend fuel _), t.reverse_seen_push line _ blank,
      rfl, rfl, hq⟩
  | @cons line cs core n isLine e more ih =>
    obtain ⟨fuel, rfl⟩ : ∃ k, fuel = k + 1 := by
      refine ⟨fuel - 1, ?_⟩
      simp only [List.length_append, List.length_cons] at hfuel
      omega
    obtain ⟨d, tail, -, hd, hdend⟩ := more.ended_head indent
    rw [isLine.ended_cons e more] at hp
    simp only [List.append_assoc, List.cons_append] at hp
    obtain ⟨blank, r, hread, hr⟩ := readBlockLines_line isLine hp hcolumn (by omega)
      (Nat.le_refl indent) (.inl rfl) (by rw [hd]; exact (Bool.or_eq_false_iff.1 hdend).1) _ t
    obtain ⟨t', q, hrun, hseen, hbroken, hempty, hq⟩ :=
      ih hr.rest hr.column (t.push line e blank) fuel (by simp at hfuel; omega)
    refine ⟨t', q, hread.trans hrun, ?_, hbroken, hempty, hq.of_le (Nat.le_of_lt hr.line)⟩
    rw [hseen, t.reverse_seen_push, t.joint_push]
    simp

/-! ## The header -/

/-- The marks of a way to treat the line feeds at the end. -/
inductive Chomps : List Char → Chomping → Prop where
  | strip : Chomps ['-'] .strip
  | clip : Chomps [] .clip
  | keep : Chomps ['+'] .keep

/-- How `n` line feeds behind some contents have to be treated. -/
def chompingOf (n : Nat) : Chomping := if n = 0 then .strip else if n = 1 then .clip else .keep

theorem reverse_feeds (n : Nat) : (Gap.feeds n).reverse = Gap.feeds n := List.reverse_replicate ..

theorem Lines.chomps {n : Nat} (h : Lines cs core n) (pre : List Char) :
    Chomps (chomping (pre ++ cs)) (chompingOf n) := by
  obtain ⟨c, hc, hbreak⟩ := h.getLast?
  obtain ⟨core, rfl⟩ := List.getLast?_eq_some_iff.1 hc
  rw [chomping, h.eq_append, ← List.append_assoc, List.reverse_append, reverse_feeds,
    ← List.append_assoc, List.reverse_append]
  match n with
  | 0 =>
    simp only [Gap.feeds, List.replicate_zero, List.nil_append, List.reverse_singleton,
      List.singleton_append]
    cases (pre ++ core).reverse with
    | nil => simpa only [hbreak] using .strip
    | cons d ds => simpa only [hbreak] using .strip
  | 1 =>
    simp only [Gap.feeds, List.replicate_one, List.reverse_singleton, List.singleton_append]
    simpa only [hbreak] using .clip
  | n + 2 =>
    simp only [Gap.feeds, List.replicate_succ, List.cons_append]
    exact .keep

theorem chomps_feeds (n : Nat) : Chomps (chomping (Gap.feeds (n + 1))) .keep := by
  rw [chomping, reverse_feeds]
  cases n with
  | zero => exact .keep
  | succ n => exact .keep

theorem readHeader_run {marks : List Char} {mode : Chomping} (hmarks : Chomps marks mode)
    (hp : p.rest = indentMark cs ++ (marks ++ '\n' :: rest)) :
    readHeader p = .ok (mode, if cs.head?.any Traits.isGap then 2 else 0,
      p.skipMany (indentMark cs ++ marks).length) := by
  rw [indentMark] at hp ⊢
  generalize cs.head?.any Traits.isGap = marked at hp ⊢
  cases marked with
  | false =>
    have hp : p.rest = marks ++ '\n' :: rest := hp
    cases hmarks with
    | clip =>
      have hp : p.rest = '\n' :: rest := hp
      simp [readHeader, readIncrement, chompingOf?, isDecimalDigit, bind, Except.bind,
        head_of_rest hp, skipMany]
    | strip | keep =>
      have hskip : p.skip.rest = '\n' :: rest := by rw [skip_rest, hp]; rfl
      simp [readHeader, readIncrement, chompingOf?, isDecimalDigit, bind, Except.bind,
        head_of_rest hp, head_of_rest hskip, skipMany]
  | true =>
    have hp : p.rest = '2' :: (marks ++ '\n' :: rest) := hp
    have hskip : p.skip.rest = marks ++ '\n' :: rest := by rw [skip_rest, hp]; rfl
    cases hmarks with
    | clip =>
      have hskip : p.skip.rest = '\n' :: rest := hskip
      simp [readHeader, readIncrement, chompingOf?, isDecimalDigit, bind, Except.bind,
        head_of_rest hp, head_of_rest hskip, skipMany]
    | strip | keep =>
      simp [readHeader, readIncrement, chompingOf?, isDecimalDigit, bind, Except.bind,
        head_of_rest hp, head_of_rest hskip, skipMany]

/-! ## Whole scalars -/

theorem chomped_eq {n : Nat} {t : BlockText} {q : Cursor} (hbroken : t.broken = true)
    (hempty : t.empty = n - 1) (hq : q.column < indent) :
    chomped (chompingOf n) indent t q = t.seen.reverse ++ Gap.feeds n := by
  have hend : (isEndMark q.head && decide (max indent 1 ≤ q.column)) = false := by
    rw [Bool.and_eq_false_iff]
    right
    rw [decide_eq_false_iff_not]
    omega
  rw [chomped, hbroken, hempty, hend]
  match n with
  | 0 => rfl
  | 1 => rfl
  | n + 2 => rfl

theorem skipFirstLines_run {c : Char} {m : Nat} (hp : p.rest = spaces m ++ c :: rest)
    (hc : c ≠ ' ') (hbreak : isLineBreak c = false) (hcolumn : p.column = 0) (fuel : Nat) :
    skipFirstLines (fuel + 1) 0 0 p = (m, 0, p.skipSpaces m) := by
  have hfold (n : Nat) (p : Cursor) : (List.replicate n ' ').foldl
      (fun (p : Cursor) (_ : Char) => p.skipBlank) p = p.skipSpaces n := by
    induction n generalizing p with
    | zero => rfl
    | succ n ih => rw [List.replicate_succ, List.foldl_cons, ih, skipBlank_skipSpaces]
  have htake : p.rest.takeWhile (fun (c : Char) => c == ' ') = List.replicate m ' ' := by
    rw [hp, spaces, List.takeWhile_append_of_pos (by simp), List.takeWhile_cons]
    simp [hc]
  rw [skipFirstLines, htake, hfold, head_of_rest (skipSpaces_rest hp), hbreak]
  simp [skipSpaces, hcolumn]

/-- The indentation of a block below a structure of indentation `outer`. -/
def blockIndent (outer : Int) : Nat := outer.toNat + 2

theorem blockIndent_eq_given (outer : Int) :
    (if outer < 0 then 2 else outer.toNat + 2 : Nat) = blockIndent outer := by
  rw [blockIndent]
  split
  · rw [Int.toNat_of_nonpos (by omega)]
  · rfl

theorem Follows.lt_blockIndent (h : Follows outer column body) : column < blockIndent outer := by
  rw [blockIndent]
  cases h with
  | stop => omega
  | token start le => omega

theorem readBlockScalar_marked {mode : Chomping} {q s : Cursor} {n : Nat}
    (hheader : readHeader p = .ok (mode, 2, q)) (hq : q.rest = '\n' :: rest)
    (htab : rest.headD endMark ≠ '\t')
    (hskip : skipEmptyLines (blockIndent outer) (rest.length + 1) 0 (q.nextLine 0) = (n, s))
    (hs : s.column < blockIndent outer → (s.column : Int) ≤ outer ∨ isEndMark s.head = true) :
    readBlockScalar true outer p =
      if isEndMark s.head then
        .ok (String.ofList (emptyBlock mode (s.line == p.line) true n), s)
      else
        let r := readBlockLines true (blockIndent outer) (rest.length + 1) ⟨[], false, n, false⟩ s
        .ok (String.ofList (chomped mode (blockIndent outer) r.1 r.2), r.2) := by
  have htab : (q.nextLine 0).head ≠ '\t' := by rwa [head_eq, nextLine_zero_rest hq]
  rw [readBlockScalar, hheader]
  simp only [bind, Except.bind, (EndsScalar.newline rest).finishLine hq, head_of_rest hq,
    show isLineEnd '\n' = true from rfl, Bool.not_true, Bool.false_eq_true, if_false,
    show isLineBreak '\n' = true from rfl, skipBreak_of_newline hq, beq_iff_eq, htab,
    nextLine_zero_rest hq, show (2 : Nat) ≠ 0 by decide, blockIndent_eq_given, hskip]
  split
  · rfl
  · next hend =>
    rw [if_neg]
    rintro ⟨hlt, hgt⟩
    exact (hs hlt).elim (by omega) hend

theorem readBlockScalar_unmarked {mode : Chomping} {q s : Cursor}
    (hheader : readHeader p = .ok (mode, 0, q)) (hq : q.rest = '\n' :: rest)
    (htab : rest.headD endMark ≠ '\t')
    (hskip : skipFirstLines (rest.length + 1) 0 0 (q.nextLine 0) = (blockIndent outer, 0, s))
    (hs : s.column = blockIndent outer) (hend : isEndMark s.head = false) :
    readBlockScalar true outer p =
      let r := readBlockLines true (blockIndent outer) (rest.length + 1) ⟨[], false, 0, false⟩ s
      .ok (String.ofList (chomped mode (blockIndent outer) r.1 r.2), r.2) := by
  have htab : (q.nextLine 0).head ≠ '\t' := by rwa [head_eq, nextLine_zero_rest hq]
  have hindent : max (max (blockIndent outer) (outer + 1).toNat) (if 0 < outer then 1 else 0) =
      blockIndent outer := by
    rw [blockIndent]
    split <;> omega
  rw [readBlockScalar, hheader]
  simp only [bind, Except.bind, (EndsScalar.newline rest).finishLine hq, head_of_rest hq,
    show isLineEnd '\n' = true from rfl, Bool.not_true, Bool.false_eq_true, if_false,
    show isLineBreak '\n' = true from rfl, skipBreak_of_newline hq, beq_iff_eq, htab,
    nextLine_zero_rest hq, if_true, hskip, hindent, hend, hs]
  rw [if_neg (by omega)]

/-- From the first line that is not empty the block is read back, given the empty lines before
it. -/
theorem readBlockLines_chomped {n : Nat} (hcs : Lines cs core n) (e : Nat)
    (hbody : Follows outer column body)
    (hp : p.rest = ended (blockIndent outer) cs ++ (spaces column ++ body))
    (hcolumn : p.column = blockIndent outer) {fuel : Nat} (hfuel : cs.length < fuel) :
    ∃ t q, readBlockLines true (blockIndent outer) fuel ⟨[], false, e, false⟩ p = (t, q) ∧
      chomped (chompingOf n) (blockIndent outer) t q = Gap.feeds e ++ cs ∧
      Below p column body q := by
  have hlt := hbody.lt_blockIndent
  obtain ⟨t, q, hread, hseen, hbroken, hempty, hq⟩ :=
    readBlockLines_run hcs hbody hlt hp hcolumn hfuel ⟨[], false, e, false⟩
  refine ⟨t, q, hread, ?_, hq⟩
  rw [chomped_eq hbroken hempty (by rw [hq.column]; exact hlt), hseen, hcs.eq_append]
  simp [BlockText.joint]

theorem readBlockScalar_feeds {q : Cursor} {n : Nat} (hheader : readHeader p = .ok (.keep, 2, q))
    (hline : q.line = p.line)
    (hq : q.rest = '\n' :: (Gap.feeds (n + 1) ++ (spaces column ++ body)))
    (hbody : Follows outer column body) :
    ∃ s, readBlockScalar true outer p = .ok (String.ofList (Gap.feeds (n + 1)), s) ∧
      Below p column body s := by
  have hlt := hbody.lt_blockIndent
  obtain ⟨s, hskip, hs⟩ := skipEmptyLines_below hq (Nat.le_of_lt hlt) (.inr hbody.ne_space)
    hbody.isLineBreak
  have hs : Below p column body s := hs.of_le (Nat.le_of_eq hline.symm)
  have hcolumn := hs.column
  have hsame : (s.line == p.line) = false := beq_eq_false_iff_ne.2 (Nat.ne_of_gt hs.line)
  refine ⟨s, ?_, hs⟩
  rw [readBlockScalar_marked hheader hq (by simp [Gap.feeds, List.replicate_succ]) hskip,
    readBlockLines_end (by omega), hsame]
  · split
    · simp [emptyBlock]
    · next hend => simp [chomped, hend]
  · intro _
    cases hbody with
    | stop => exact .inr (by rw [head_of_nil hs.rest]; rfl)
    | token start le => exact .inl (by omega)

theorem readBlockScalar_seen {q : Cursor} {n : Nat} (hcs : Lines cs core n)
    (hspace : cs.head? ≠ some ' ') (hheader : readHeader p = .ok (chompingOf n, 0, q))
    (hline : q.line = p.line) (hq : q.rest = '\n' :: (spaces (blockIndent outer) ++
      (ended (blockIndent outer) cs ++ (spaces column ++ body))))
    (hbody : Follows outer column body) :
    ∃ s, readBlockScalar true outer p = .ok (String.ofList cs, s) ∧ Below p column body s := by
  obtain ⟨c, more, hc, hmore, hend⟩ := hcs.ended_head (blockIndent outer)
  obtain ⟨hbreak, hend⟩ := Bool.or_eq_false_iff.1 hend
  have hq' := hq
  rw [hmore, List.cons_append] at hq'
  have hskip := skipFirstLines_run (nextLine_zero_rest hq') (fun h => hspace (h ▸ hc)) hbreak rfl
    (spaces (blockIndent outer) ++ c :: (more ++ (spaces column ++ body))).length
  rw [nextLine_skipSpaces] at hskip
  have hrest : (q.nextLine (blockIndent outer)).rest = c :: (more ++ (spaces column ++ body)) :=
    nextLine_rest hq'
  have hfuel : cs.length <
      (spaces (blockIndent outer) ++ c :: (more ++ (spaces column ++ body))).length + 1 := by
    have hlong := length_le_length_ended (blockIndent outer) cs
    rw [← List.cons_append, ← hmore, List.length_append, List.length_append]
    omega
  obtain ⟨t, s, hread, htext, hs⟩ :=
    readBlockLines_chomped hcs 0 hbody (nextLine_rest hq) rfl hfuel
  refine ⟨s, ?_, hs.of_le (hline ▸ Nat.le_succ _)⟩
  rw [readBlockScalar_unmarked hheader hq' (by simp [blockIndent, spaces, List.replicate_succ])
    hskip rfl (by rw [head_of_rest hrest]; exact hend), hread]
  simp only [htext]
  rfl

/-- A text that starts with empty lines or spaces, with the indentation in the header. -/
theorem readBlockScalar_told {q : Cursor} {e n : Nat} (hcs : Lines cs core n)
    (hheader : readHeader p = .ok (chompingOf n, 2, q)) (hline : q.line = p.line)
    (hq : q.rest = '\n' :: (Gap.feeds e ++ (spaces (blockIndent outer) ++
      (ended (blockIndent outer) cs ++ (spaces column ++ body)))))
    (hbody : Follows outer column body) :
    ∃ s, readBlockScalar true outer p = .ok (String.ofList (Gap.feeds e ++ cs), s) ∧
      Below p column body s := by
  obtain ⟨c, more, -, hmore, hend⟩ := hcs.ended_head (blockIndent outer)
  obtain ⟨hbreak, hend⟩ := Bool.or_eq_false_iff.1 hend
  obtain ⟨r, hskip, hr⟩ := skipEmptyLines_below hq (Nat.le_refl _) (.inl rfl)
    (by rw [hmore]; exact hbreak)
  have hfuel : cs.length < (Gap.feeds e ++ (spaces (blockIndent outer) ++
      (ended (blockIndent outer) cs ++ (spaces column ++ body)))).length + 1 := by
    have hlong := length_le_length_ended (blockIndent outer) cs
    simp only [List.length_append]
    omega
  obtain ⟨t, s, hread, htext, hs⟩ :=
    readBlockLines_chomped hcs e hbody hr.rest hr.column hfuel
  have htab : (Gap.feeds e ++ (spaces (blockIndent outer) ++
      (ended (blockIndent outer) cs ++ (spaces column ++ body)))).headD endMark ≠ '\t' := by
    cases e <;> simp [Gap.feeds, blockIndent, spaces, List.replicate_succ]
  have hcolumn := hr.column
  have hrhead : isEndMark r.head = false := by
    rw [head_eq, hr.rest, hmore]
    exact hend
  refine ⟨s, ?_, hs.of_le (hline ▸ Nat.le_of_lt hr.line)⟩
  rw [readBlockScalar_marked hheader hq htab hskip (fun h => by omega), hrhead,
    if_neg (by simp), hread]
  simp only [htext]

/-- **A literal block is read back, and the position is at the start of what follows.** -/
theorem readBlockScalar_run (hcs : LiteralText cs) (hfeeds : OnlyFeeds cs)
    (hbody : Follows outer column body)
    (hp : p.rest = indentMark cs ++ (chomping cs ++ '\n' ::
      (literalBody (blockIndent outer) true cs ++ (closing cs ++ (spaces column ++ body))))) :
    ∃ q, readBlockScalar true outer p = .ok (String.ofList cs, q) ∧ Below p column body q := by
  have hheader {mode : Chomping} (hmode : Chomps (chomping cs) mode) := readHeader_run hmode hp
  set q := p.skipMany (indentMark cs ++ chomping cs).length
  have hline : q.line = p.line := skipMany_line _ p
  have hq : q.rest = '\n' :: (literalBody (blockIndent outer) true cs ++
      (closing cs ++ (spaces column ++ body))) := by
    rw [← List.append_assoc] at hp
    exact skipMany_rest_append hp
  obtain ⟨e, more, rfl, hmore⟩ := exists_feeds cs
  rw [literalBody_feeds] at hq
  cases more with
  | nil =>
    obtain ⟨n, rfl⟩ : ∃ n, e = n + 1 := by
      cases e with
      | zero => exact absurd hcs.newline (by simp [Gap.feeds])
      | succ n => exact ⟨n, rfl⟩
    rw [List.append_nil] at hheader hq ⊢
    rw [show closing (Gap.feeds (n + 1)) = [] from closing_feeds [] n] at hq
    exact readBlockScalar_feeds (hheader (chomps_feeds n)) hline (by simpa [literalBody] using hq)
      hbody
  | cons c tail =>
    have hmem {x : Char} (hx : x ∈ c :: tail) : x ∈ Gap.feeds e ++ c :: tail :=
      List.mem_append_right _ hx
    have hc : c ≠ '\n' := by simpa using hmore
    obtain ⟨core, n, hlines⟩ := exists_lines (fun x hx => hcs.printable x (hmem hx))
      (fun x hx => hfeeds x (hmem hx)) hc
    have hq : q.rest = '\n' :: (Gap.feeds e ++ (spaces (blockIndent outer) ++
        (ended (blockIndent outer) (c :: tail) ++ (spaces column ++ body)))) := by
      have happend := hlines.literalBody_append (blockIndent outer) (Gap.feeds e)
      rw [hq, List.append_assoc, ← List.append_assoc (literalBody _ _ _), happend,
        List.append_assoc]
    have hheader := hheader (hlines.chomps (Gap.feeds e))
    -- the header tells the indentation unless the first line shows it
    cases hgap : (Gap.feeds e ++ c :: tail).head?.any Traits.isGap with
    | false =>
      obtain rfl : e = 0 := by
        cases e with
        | zero => rfl
        | succ e => cases hgap
      have hspace : c ≠ ' ' := by
        rintro rfl
        cases hgap
      rw [hgap] at hheader
      have hread := readBlockScalar_seen hlines (by simpa using hspace) hheader hline hq hbody
      exact hread
    | true =>
      rw [hgap, if_pos rfl] at hheader
      exact readBlockScalar_told hlines hheader hline hq hbody

end Yaml

end BatchRun
