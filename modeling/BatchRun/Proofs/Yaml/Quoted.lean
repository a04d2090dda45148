import BatchRun.Proofs.Yaml.Cursor
import BatchRun.Proofs.Yaml.Style
import BatchRun.Yaml.Token.Scalar

/-!
# Quoted texts are read back

* `Shows`: what stands for a character between quotes is read as that character, `shows_escape`,
  `shows_double`;
* `readQuotedWord_run`, `readQuotedGap_run`: one word, and the spaces behind it;
* `words`: a text word by word;
* **`readQuotedFrom_run`**: a text that is shown character by character is read back;
* `spread`: what a reader finds between single quotes when breaks have been followed by an
  indentation.
-/

namespace BatchRun

namespace Yaml

open Cursor

/-! ## Single characters -/

/-- The quote of a style. -/
def quoteMark (single : Bool) : Char := if single then '\'' else '"'

/-- What stands for a character between quotes is read as that character. -/
structure Shows (single : Bool) (enc : List Char) (c : Char) : Prop where
  start : ∃ a rest, enc = a :: rest ∧ isWordEnd a = false
  step : ∀ fuel seen p rest, p.rest = enc ++ rest →
    readQuotedWord single (fuel + 1) seen p =
      readQuotedWord single fuel (c :: seen) (p.skipMany enc.length)

theorem shows_self {single : Bool} {c : Char} (h : isWordEnd c = false)
    (hq : c ≠ quoteMark single) (hb : single = false → c ≠ '\\') : Shows single [c] c := by
  refine ⟨⟨c, [], rfl, h⟩, fun fuel seen p rest hp => ?_⟩
  have hhead : p.head = c := head_of_rest hp
  rw [readQuotedWord, hhead]
  cases single with
  | true =>
    have hq : c ≠ '\'' := hq
    simp [h, hq, skipMany]
  | false =>
    have hq : c ≠ '"' := hq
    simp [h, hq, hb rfl, skipMany]

theorem shows_double : Shows true ['\'', '\''] '\'' := by
  refine ⟨⟨'\'', _, rfl, by decide⟩, fun fuel seen p rest hp => ?_⟩
  have hhead : p.head = '\'' := head_of_rest hp
  have hnext : p.peek 1 = '\'' := peek_one_of_rest hp
  rw [readQuotedWord, hhead, hnext]
  rfl

/-! ### Escapes -/

theorem hexDigit?_upperHexDigit {d : Nat} (h : d < 16) : hexDigit? (upperHexDigit d) = some d := by
  have hall : ∀ d < 16, hexDigit? (upperHexDigit d) = some d := by decide
  exact hall d h

theorem hexDigits_length (k n : Nat) : (hexDigits k n).length = k := by
  induction k generalizing n with
  | zero => rfl
  | succ k ih => rw [hexDigits, List.length_append, ih]; rfl

theorem hexNumber?_hexDigits (k n : Nat) :
    hexNumber? (hexDigits k n) = some (n % Nat.pow 16 k) := by
  induction k generalizing n with
  | zero => simp [hexDigits, hexNumber?, Nat.pow, Nat.mod_one]
  | succ k ih =>
    rw [hexDigits, hexNumber?, List.foldl_append]
    have ih := ih (n / 16)
    rw [hexNumber?] at ih
    rw [ih]
    simp only [List.foldl_cons, List.foldl_nil,
      hexDigit?_upperHexDigit (Nat.mod_lt n (by decide : 0 < 16))]
    change some (n / 16 % Nat.pow 16 k * 16 + n % 16) = some (n % (Nat.pow 16 k * 16))
    rw [Nat.mul_comm (Nat.pow 16 k), Nat.mod_mul, Nat.add_comm, Nat.mul_comm]

theorem map_peek_range {p : Cursor} {cs rest : List Char} (h : p.rest = cs ++ rest) :
    (List.range cs.length).map p.peek = cs := by
  apply List.ext_getElem
  · simp
  · intro i hi hi'
    simp [Cursor.peek_eq, h, List.getD, List.getElem?_append_left hi', List.getElem?_eq_getElem hi']

theorem isCodePoint_toNat (c : Char) : isCodePoint c.toNat = true := by
  have h := c.valid
  rw [isCodePoint]
  simpa [UInt32.isValidChar, Nat.isValidChar] using h

theorem escapedChar?_escapeLetter {n : Nat} {l : Char} (h : escapeLetter? n = some l) :
    escapedChar? l = some (Char.ofNat n) ∧ isLineBreak l = false := by
  unfold escapeLetter? at h
  split at h <;> cases h <;> exact ⟨rfl, rfl⟩

theorem shows_of_readEscape {c mark : Char} {cs : List Char} (hmark : isLineBreak mark = false)
    (h : ∀ p : Cursor, ∀ rest, p.rest = '\\' :: mark :: (cs ++ rest) →
      readEscape p = .ok (c, p.skipMany (cs.length + 2))) : Shows false ('\\' :: mark :: cs) c := by
  refine ⟨⟨'\\', _, rfl, by decide⟩, fun fuel seen p rest hp => ?_⟩
  have hhead : p.head = '\\' := head_of_rest hp
  have hnext : p.peek 1 = mark := peek_one_of_rest hp
  rw [readQuotedWord, hhead, hnext, hmark, h p rest hp]
  rfl

theorem shows_letter {c l : Char} (h : escapedChar? l = some c) (hbreak : isLineBreak l = false) :
    Shows false ['\\', l] c := by
  refine shows_of_readEscape hbreak fun p rest hp => ?_
  have hpeek : p.peek 1 = l := peek_one_of_rest hp
  rw [readEscape, hpeek, h]
  rfl

theorem shows_number {c mark : Char} {ds : List Char} (hmark : escapedChar? mark = none)
    (hbreak : isLineBreak mark = false) (hlength : escapeLength? mark = some ds.length)
    (hvalue : hexNumber? ds = some c.toNat) : Shows false ('\\' :: mark :: ds) c := by
  refine shows_of_readEscape hbreak fun p rest hp => ?_
  have hpeek : p.peek 1 = mark := peek_one_of_rest hp
  have hrest : (p.skipMany 2).rest = ds ++ rest := by rw [skipMany_rest, hp]; rfl
  rw [readEscape, hpeek, hmark, hlength]
  simp only [map_peek_range hrest, hvalue, isCodePoint_toNat, if_true, Char.ofNat_toNat]
  rw [Nat.add_comm ds.length 2, skipMany_add]

/-- **Between double quotes every character but a space is shown.** -/
theorem shows_escape {c : Char} (hs : c ≠ ' ') : Shows false (escape c) c := by
  rw [escape]
  split
  · next h =>
    simp only [Bool.and_eq_true, Bool.not_eq_true', bne_iff_ne] at h
    obtain ⟨⟨⟨hprint, hbreak⟩, hq⟩, hb⟩ := h
    have hn : c ≠ '\n' := by rintro rfl; exact absurd hbreak (by decide)
    exact shows_self (isWordEnd_eq_false hprint hs hn) hq fun _ => hb
  · split
    · next l hl =>
      obtain ⟨hchar, hbreak⟩ := escapedChar?_escapeLetter hl
      rw [Char.ofNat_toNat] at hchar
      exact shows_letter hchar hbreak
    · have hlt : c.toNat < 16 ^ 8 := by
        have := c.valid
        simp only [UInt32.isValidChar, Nat.isValidChar] at this
        change c.val.toNat < _
        omega
      have hhex {mark : Char} {k : Nat} (hmark : escapedChar? mark = none)
          (hbreak : isLineBreak mark = false) (hk : escapeLength? mark = some k)
          (hlt : c.toNat < 16 ^ k) : Shows false ('\\' :: mark :: hexDigits k c.toNat) c :=
        shows_number hmark hbreak (by rw [hexDigits_length, hk])
          ((hexNumber?_hexDigits k c.toNat).trans (congrArg some (Nat.mod_eq_of_lt hlt)))
      split
      · next h => exact hhex rfl rfl rfl (by omega)
      · split
        · next h => exact hhex rfl rfl rfl (by omega)
        · exact hhex rfl rfl rfl hlt

/-! ## Words and gaps -/

/-- Where a word between quotes ends: at a space or at the closing quote. -/
inductive EndsQuotedWord (single : Bool) : List Char → Prop where
  | space (rest : List Char) : EndsQuotedWord single (' ' :: rest)
  | quote {rest : List Char} (next : rest.headD endMark ≠ '\'') :
      EndsQuotedWord single (quoteMark single :: rest)

variable {single : Bool} {enc : Char → List Char} {p : Cursor} {cs ws rest : List Char}

theorem readQuotedWord_end (h : EndsQuotedWord single p.rest) (fuel : Nat) (seen : List Char) :
    readQuotedWord single fuel seen p = .ok (seen, false, p) := by
  cases fuel with
  | zero => rfl
  | succ fuel =>
    generalize hrest : p.rest = rest at h
    cases h with
    | space rest =>
      rw [readQuotedWord, head_of_rest hrest]
      rfl
    | quote next =>
      rw [readQuotedWord, head_of_rest hrest, peek_one_of_rest hrest]
      cases single with
      | true =>
        have hnext := beq_eq_false_iff_ne.2 next
        simp only [hnext]
        rfl
      | false => rfl

theorem readQuotedWord_run (hshow : ∀ c ∈ ws, Shows single (enc c) c)
    (hrest : EndsQuotedWord single rest) (hp : p.rest = ws.flatMap enc ++ rest) {fuel : Nat}
    (hfuel : ws.length ≤ fuel) (seen : List Char) :
    readQuotedWord single fuel seen p =
      .ok (ws.reverse ++ seen, false, p.skipMany (ws.flatMap enc).length) := by
  induction ws generalizing p fuel seen with
  | nil =>
    have hp : p.rest = rest := hp
    exact readQuotedWord_end (hp ▸ hrest) fuel seen
  | cons c ws ih =>
    obtain ⟨hc, hws⟩ := List.forall_mem_cons.1 hshow
    obtain ⟨fuel, rfl⟩ : ∃ n, fuel = n + 1 := ⟨fuel - 1, by simp at hfuel; omega⟩
    rw [List.flatMap_cons, List.append_assoc] at hp
    rw [hc.step fuel seen p _ hp, ih hws (skipMany_rest_append hp) (by simpa using hfuel),
      List.flatMap_cons, List.length_append, skipMany_add]
    simp

theorem readQuotedGap_run {n : Nat} {a : Char} (ha : isWordEnd a = false)
    (hp : p.rest = spaces n ++ a :: rest) (hfresh : p.fresh = false) {fuel : Nat}
    (hfuel : n ≤ fuel) (indent : Int) (g : Gap) :
    readQuotedGap indent fuel false g p =
      .ok (false, { g with blanks := spaces n ++ g.blanks }, p.skipMany n) := by
  induction n generalizing p fuel g with
  | zero =>
    have hp : p.rest = a :: rest := hp
    obtain ⟨hblank, hend⟩ := Bool.or_eq_false_iff.1 ha
    cases fuel with
    | zero => rfl
    | succ fuel =>
      rw [readQuotedGap, head_of_rest hp, hblank, (Bool.or_eq_false_iff.1 hend).1]
      rfl
  | succ n ih =>
    obtain ⟨fuel, rfl⟩ : ∃ m, fuel = m + 1 := ⟨fuel - 1, by omega⟩
    have hp : p.rest = ' ' :: (spaces n ++ a :: rest) := hp
    rw [readQuotedGap, head_of_rest hp, skipBlank_eq_skip hfresh]
    have hskip : p.skip.rest = spaces n ++ a :: rest := by rw [skip_rest, hp]; rfl
    simp only [show isSpaceOrTab ' ' = true from rfl, if_true, Bool.not_false]
    rw [ih hskip rfl (by omega), skipMany_succ, spaces, spaces, List.replicate_succ']
    simp

/-- A text is made of words, which may be empty, and the spaces between them. -/
inductive Words : List Char → Prop where
  | last {ws : List Char} (word : ∀ c ∈ ws, c ≠ ' ') : Words ws
  | cons {ws more : List Char} (n : Nat) (word : ∀ c ∈ ws, c ≠ ' ')
      (start : more.head? ≠ some ' ') (more_words : Words more) :
      Words (ws ++ (spaces (n + 1) ++ more))

theorem words (cs : List Char) : Words cs := by
  induction cs with
  | nil => exact .last (fun _ hc => absurd hc List.not_mem_nil)
  | cons c cs ih =>
    have hempty : ∀ d ∈ ([] : List Char), d ≠ ' ' := fun _ hd => absurd hd List.not_mem_nil
    have hhead {ws : List Char} (word : ∀ d ∈ ws, d ≠ ' ') : ws.head? ≠ some ' ' :=
      fun h => word ' ' (List.mem_of_head? h) rfl
    by_cases hc : c = ' '
    · subst hc
      cases ih with
      | last word => exact .cons 0 hempty (hhead word) (.last word)
      | @cons ws more n word start more_words =>
        cases ws with
        | nil => exact .cons (n + 1) hempty start more_words
        | cons a ws =>
          exact .cons 0 hempty (@hhead (a :: ws) word) (.cons n word start more_words)
    · cases ih with
      | last word => exact .last (List.forall_mem_cons.2 ⟨hc, word⟩)
      | cons n word start more_words =>
        exact .cons n (List.forall_mem_cons.2 ⟨hc, word⟩) start more_words

theorem flatMap_spaces (hspace : enc ' ' = [' ']) (n : Nat) :
    (spaces n).flatMap enc = spaces n := by
  induction n with
  | zero => rfl
  | succ n ih =>
    rw [spaces, List.replicate_succ, List.flatMap_cons, hspace]
    exact congrArg _ ih

theorem isWordEnd_quoteMark (single : Bool) : isWordEnd (quoteMark single) = false := by
  cases single <;> rfl

/-- What stands for a text up to the closing quote starts with no break and no end. -/
theorem exists_cons_of_shows (rest : List Char) (hspace : enc ' ' = [' '])
    (hshow : ∀ c ∈ cs, c ≠ ' ' → Shows single (enc c) c) :
    ∃ a more, cs.flatMap enc ++ quoteMark single :: rest = a :: more ∧
      (isWordEnd a = true → a = ' ' ∧ cs.head? = some ' ') := by
  cases cs with
  | nil =>
    refine ⟨_, _, rfl, fun h => ?_⟩
    rw [isWordEnd_quoteMark] at h
    cases h
  | cons c cs =>
    by_cases hc : c = ' '
    · subst hc
      rw [List.flatMap_cons, hspace]
      exact ⟨' ', _, rfl, fun _ => ⟨rfl, rfl⟩⟩
    · obtain ⟨a, more, henc, ha⟩ := (hshow c List.mem_cons_self hc).start
      rw [List.flatMap_cons, henc]
      refine ⟨a, _, rfl, fun h => ?_⟩
      rw [ha] at h
      cases h

theorem ne_nil_of_shows {c : Char} (hspace : enc ' ' = [' '])
    (h : c ≠ ' ' → Shows single (enc c) c) : enc c ≠ [] := by
  by_cases hc : c = ' '
  · rw [hc, hspace]
    exact List.cons_ne_nil _ _
  · obtain ⟨a, rest, henc, -⟩ := (h hc).start
    rw [henc]
    exact List.cons_ne_nil _ _

theorem length_le_length_flatMap (h : ∀ c ∈ ws, enc c ≠ []) :
    ws.length ≤ (ws.flatMap enc).length := by
  induction ws with
  | nil => exact Nat.zero_le _
  | cons c ws ih =>
    obtain ⟨hc, hws⟩ := List.forall_mem_cons.1 h
    have hpos := List.length_pos_of_ne_nil hc
    have := ih hws
    rw [List.flatMap_cons, List.length_append, List.length_cons]
    omega

theorem readQuotedFrom_word {p q : Cursor} {indent : Int} {fuel : Nat} {seen seen' : List Char}
    (hcolumn : 0 < p.column) (hend : isEndMark p.head = false) (hindent : indent ≤ p.column)
    (hword : readQuotedWord single p.rest.length seen p = .ok (seen', false, q)) :
    readQuotedFrom single indent (fuel + 1) seen p =
      if q.head = quoteMark single then .ok (seen'.reverse, q.skip)
      else (readQuotedGap indent q.rest.length false Gap.none q).bind fun r =>
        readQuotedFrom single indent fuel
          (if r.1 then r.2.1.folded.reverse ++ seen' else r.2.1.blanks ++ seen') r.2.2 := by
  rw [readQuotedFrom, atAnyMarker_of_column hcolumn, hend, if_neg (by simp), if_neg (by simp),
    if_neg (by omega), hword]
  simp only [bind, Except.bind, beq_iff_eq]
  rfl

theorem isEndMark_of_shows (hspace : enc ' ' = [' '])
    (hshow : ∀ c ∈ cs, c ≠ ' ' → Shows single (enc c) c)
    (hp : p.rest = cs.flatMap enc ++ quoteMark single :: rest) : isEndMark p.head = false := by
  obtain ⟨a, more, hrest, ha⟩ := exists_cons_of_shows rest hspace hshow
  rw [head_of_rest (hp.trans hrest)]
  cases hword : isWordEnd a with
  | true => rw [(ha hword).1]; rfl
  | false => exact (Bool.or_eq_false_iff.1 (Bool.or_eq_false_iff.1 hword).2).2

theorem length_le_of_shows (hspace : enc ' ' = [' '])
    (hshow : ∀ c ∈ cs, c ≠ ' ' → Shows single (enc c) c) (hp : p.rest = cs.flatMap enc ++ rest) :
    cs.length ≤ p.rest.length := by
  have hle : cs.length ≤ (cs.flatMap enc).length :=
    length_le_length_flatMap fun c hc => ne_nil_of_shows hspace (hshow c hc)
  rw [hp, List.length_append]
  omega

/-- **A text that is shown character by character is read back up to its closing quote.** -/
theorem readQuotedFrom_run (hspace : enc ' ' = [' '])
    (hshow : ∀ c ∈ cs, c ≠ ' ' → Shows single (enc c) c)
    (hp : p.rest = cs.flatMap enc ++ quoteMark single :: rest)
    (hnext : rest.headD endMark ≠ '\'') (hfresh : p.fresh = false) (hcolumn : 0 < p.column)
    {indent : Int} (hindent : indent ≤ p.column) {fuel : Nat} (hfuel : cs.length < fuel)
    (seen : List Char) :
    readQuotedFrom single indent fuel seen p =
      .ok (seen.reverse ++ cs, p.skipMany ((cs.flatMap enc).length + 1)) := by
  have hend := isEndMark_of_shows hspace hshow hp
  obtain ⟨fuel, rfl⟩ : ∃ m, fuel = m + 1 := ⟨fuel - 1, by omega⟩
  induction words cs generalizing p fuel seen with
  | @last ws hws =>
    have hword := readQuotedWord_run (fun c hc => hshow c hc (hws c hc))
      (EndsQuotedWord.quote hnext) hp (length_le_of_shows hspace hshow hp) seen
    rw [readQuotedFrom_word hcolumn hend hindent hword,
      if_pos (head_of_rest (skipMany_rest_append hp))]
    simp only [List.reverse_append, List.reverse_reverse, skipMany_add]
    rfl
  | @cons ws more n hws hmore _ ih =>
    have hshowWord : ∀ c ∈ ws, c ≠ ' ' → Shows single (enc c) c := fun c hc =>
      hshow c (List.mem_append_left _ hc)
    have hshowMore : ∀ c ∈ more, c ≠ ' ' → Shows single (enc c) c := fun c hc =>
      hshow c (List.mem_append_right _ (List.mem_append_right _ hc))
    obtain ⟨a, tail, htail, ha⟩ := exists_cons_of_shows rest hspace hshowMore
    have ha : isWordEnd a = false := by
      rw [← Bool.not_eq_true]
      exact fun h => hmore (ha h).2
    rw [List.flatMap_append, List.flatMap_append, flatMap_spaces hspace, List.append_assoc,
      List.append_assoc, htail] at hp
    have hword := readQuotedWord_run (fun c hc => hshowWord c hc (hws c hc))
      (EndsQuotedWord.space _) hp (length_le_of_shows hspace hshowWord hp) seen
    have hq := skipMany_rest_append hp
    set q := p.skipMany (ws.flatMap enc).length with hqdef
    have hhead : q.head ≠ quoteMark single := by
      rw [head_of_rest (c := ' ') hq]
      cases single <;> decide
    have hqfresh : q.fresh = false := skipMany_fresh (.inl hfresh)
    have hqlength : n + 1 ≤ q.rest.length := by
      rw [hq, List.length_append]
      simp [spaces]
    have hqmore : (q.skipMany (n + 1)).rest = more.flatMap enc ++ quoteMark single :: rest := by
      rw [htail, skipMany_rest, hq]
      simp [spaces]
    have hlong : more.length < fuel := by
      simp only [spaces, List.length_append, List.length_replicate] at hfuel
      omega
    obtain ⟨fuel, rfl⟩ : ∃ m, fuel = m + 1 := ⟨fuel - 1, by omega⟩
    rw [readQuotedFrom_word hcolumn hend hindent hword, if_neg hhead,
      readQuotedGap_run ha hq hqfresh hqlength indent Gap.none]
    simp only [Except.bind, Gap.none, List.append_nil, Bool.false_eq_true, if_false]
    rw [ih hshowMore hqmore (skipMany_fresh (.inl hqfresh)) (by rw [skipMany_column]; omega)
      (by rw [skipMany_column, hqdef, skipMany_column]; omega)
      (spaces (n + 1) ++ (ws.reverse ++ seen)) (isEndMark_of_shows hspace hshowMore hqmore) fuel
      hlong, hqdef, ← skipMany_add, ← skipMany_add, List.flatMap_append, List.flatMap_append,
      flatMap_spaces hspace]
    simp [spaces, Nat.add_assoc]

/-! ## Whole scalars -/

theorem readQuoted_eq {inFlow : Bool} (hspace : enc ' ' = [' '])
    (hshow : ∀ c ∈ cs, c ≠ ' ' → Shows single (enc c) c)
    (hp : p.rest = quoteMark single :: (cs.flatMap enc ++ quoteMark single :: rest))
    (hnext : rest.headD endMark ≠ '\'') {indent : Int} (hindent : indent ≤ p.column)
    (hend : ∀ q : Cursor, q.rest = rest → q.line = p.line →
      q.finishLine = .ok q ∧ mayFollowQuoted inFlow p.line q = true) :
    readQuoted single inFlow indent p =
      .ok (String.ofList cs, p.skipMany ((cs.flatMap enc).length + 2)) := by
  have hskip : p.skip.rest = cs.flatMap enc ++ quoteMark single :: rest := by
    rw [skip_rest, hp]
    rfl
  have hlength : cs.length < p.rest.length + 1 := by
    have hle := length_le_of_shows hspace hshow hskip
    rw [skip_rest, List.length_drop] at hle
    omega
  have hindent' : indent ≤ p.skip.column := by rw [skip_column]; omega
  have hread := readQuotedFrom_run hspace hshow hskip hnext (skip_fresh p)
    (by rw [skip_column]; omega) hindent' hlength []
  have hq : (p.skip.skipMany ((cs.flatMap enc).length + 1)).rest = rest := by
    rw [skipMany_rest, hskip, ← List.drop_drop, List.drop_left]
    rfl
  obtain ⟨hline, hmay⟩ := hend _ hq (by rw [skipMany_line, skip_line])
  rw [readQuoted, hread]
  simp only [bind, Except.bind, hline, hmay, if_true]
  rfl

/-- **A quoted scalar is read back, and the position is behind its closing quote.** -/
theorem readQuoted_run (hspace : enc ' ' = [' '])
    (hshow : ∀ c ∈ cs, c ≠ ' ' → Shows single (enc c) c)
    (hp : p.rest = quoteMark single :: (cs.flatMap enc ++ quoteMark single :: rest))
    (hrest : EndsScalar rest) {indent : Int} (hindent : indent ≤ p.column) :
    readQuoted single false indent p =
      .ok (String.ofList cs, p.skipMany ((cs.flatMap enc).length + 2)) := by
  obtain ⟨c, tail, rfl, hc⟩ := hrest.exists_cons
  refine readQuoted_eq hspace hshow hp ?_ hindent fun q hq hline => ⟨hrest.finishLine hq, ?_⟩
  · rw [List.headD_cons]
    obtain rfl | rfl := hc <;> decide
  · rw [mayFollowQuoted, head_of_rest hq, hline]
    obtain rfl | rfl := hc <;> simp [isLineEnd, isLineBreak]

/-- What stands for a character between single quotes. -/
def doubled (c : Char) : List Char := if c = '\'' then ['\'', '\''] else [c]

theorem shows_doubled {c : Char} (h : isPrintable c = true) (hn : c ≠ '\n') (hs : c ≠ ' ') :
    Shows true (doubled c) c := by
  rw [doubled]
  split
  · next hq => exact hq ▸ shows_double
  · next hq => exact shows_self (isWordEnd_eq_false h hs hn) hq (by simp)

/-- What a reader finds between single quotes: the text with an indentation behind its breaks. -/
def spread (indent : Nat) (afterBreak : Bool) : List Char → List Char
  | [] => if afterBreak then spaces indent else []
  | c :: rest =>
    if isBreak c then c :: spread indent true rest
    else (if afterBreak then spaces indent else []) ++ c :: spread indent false rest

theorem singleQuotedTail_eq (indent : Nat) (afterBreak : Bool) (cs : List Char) :
    singleQuotedTail indent afterBreak cs =
      (spread indent afterBreak cs).flatMap doubled ++ ['\''] := by
  have hspaces (n : Nat) : (spaces n).flatMap doubled = spaces n := flatMap_spaces rfl n
  induction cs generalizing afterBreak with
  | nil => cases afterBreak <;> simp [singleQuotedTail, spread, hspaces]
  | cons c rest ih =>
    rw [singleQuotedTail, spread]
    split
    · next hbreak =>
      have hq : c ≠ '\'' := by rintro rfl; exact absurd hbreak (by decide)
      rw [ih, List.flatMap_cons, doubled, if_neg hq]
      rfl
    · rw [ih]
      cases afterBreak <;> simp [hspaces, doubled]

theorem length_le_length_spread (indent : Nat) (afterBreak : Bool) (cs : List Char) :
    cs.length + (if afterBreak then indent else 0) ≤ (spread indent afterBreak cs).length := by
  induction cs generalizing afterBreak with
  | nil => cases afterBreak <;> simp [spread, spaces]
  | cons c rest ih =>
    have htrue := ih true
    have hfalse := ih false
    by_cases hbreak : isBreak c = true <;> cases afterBreak <;>
      simp [spread, hbreak, spaces] at htrue hfalse ⊢ <;> omega

theorem spread_of_unbroken {indent : Nat} (h : ∀ c ∈ cs, isBreak c = false) :
    spread indent false cs = cs := by
  induction cs with
  | nil => rfl
  | cons c rest ih =>
    obtain ⟨hc, hrest⟩ := List.forall_mem_cons.1 h
    rw [spread, hc, if_neg (by simp), if_neg (by simp), ih hrest]
    rfl

/-- **A text comes back from between single quotes just if it has no break.** -/
theorem spread_eq_iff {indent : Nat} (h : 0 < indent) :
    spread indent false cs = cs ↔ ∀ c ∈ cs, isBreak c = false := by
  refine ⟨fun heq => ?_, spread_of_unbroken⟩
  induction cs with
  | nil => simp
  | cons c rest ih =>
    rw [spread] at heq
    split at heq
    · have hle := length_le_length_spread indent true rest
      rw [(List.cons.inj heq).2] at hle
      simp at hle
      omega
    · next hbreak =>
      rw [if_neg (by simp), List.nil_append] at heq
      exact List.forall_mem_cons.2 ⟨by simpa using hbreak, ih (List.cons.inj heq).2⟩

theorem mem_of_mem_spread {indent : Nat} {afterBreak : Bool} {c : Char}
    (h : c ∈ spread indent afterBreak cs) : c = ' ' ∨ c ∈ cs := by
  induction cs generalizing afterBreak with
  | nil =>
    cases afterBreak with
    | false => cases h
    | true => exact .inl (List.eq_of_mem_replicate h)
  | cons a rest ih =>
    rw [spread] at h
    split at h
    · obtain rfl | h := List.mem_cons.1 h
      · exact .inr List.mem_cons_self
      · exact (ih h).imp_right (List.mem_cons_of_mem a)
    · obtain h | h := List.mem_append.1 h
      · cases afterBreak with
        | false => cases h
        | true => exact .inl (List.eq_of_mem_replicate h)
      · obtain rfl | h := List.mem_cons.1 h
        · exact .inr List.mem_cons_self
        · exact (ih h).imp_right (List.mem_cons_of_mem a)

end Yaml

end BatchRun
