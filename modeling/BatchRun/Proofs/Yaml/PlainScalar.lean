import BatchRun.Proofs.Yaml.Quoted

/-!
# Plain texts are read back

* `readPlainWord_run`, `readPlainGap_run`: one word, and the spaces behind it;
* `readPlainFrom_run`: all words of a plain text;
* **`readPlain_colon`**, **`readPlain_newline`**: a plain text before the colon of a key, and one
  at the end of its line.
-/

namespace BatchRun

namespace Yaml

open Cursor

variable {p : Cursor} {cs ws rest : List Char}

/-! ## Words and gaps -/

/-- Whether a word of a plain scalar ends here. -/
def endsPlainWord (cs : List Char) : Bool :=
  isWordEnd (cs.headD endMark) || (cs.headD endMark == ':' && isWordEnd (cs.getD 1 endMark))

theorem endsPlainWord_iff (p : Cursor) :
    (isWordEnd p.head || !continuesPlain false p) = endsPlainWord p.rest := by
  rw [endsPlainWord, continuesPlain, head_eq, peek_eq]
  cases (p.rest.headD endMark == ':') <;> simp

theorem EndsScalar.endsPlainWord (h : EndsScalar rest) : endsPlainWord rest = true := by
  cases h with
  | colon blank => simp [Yaml.endsPlainWord, blank]
  | newline => simp [Yaml.endsPlainWord, isWordEnd, isLineEnd, isLineBreak]

theorem readPlainWord_run (hws : ∀ pre post, ws = pre ++ post → post ≠ [] →
      endsPlainWord (post ++ rest) = false) (hrest : endsPlainWord rest = true)
    (hp : p.rest = ws ++ rest) {fuel : Nat} (hfuel : ws.length ≤ fuel) (seen : List Char) :
    readPlainWord false fuel seen p = (ws.reverse ++ seen, p.skipMany ws.length) := by
  induction ws generalizing p fuel seen with
  | nil =>
    cases fuel with
    | zero => rfl
    | succ fuel =>
      have hp : p.rest = rest := hp
      rw [readPlainWord, endsPlainWord_iff, hp, hrest]
      rfl
  | cons c ws ih =>
    obtain ⟨fuel, rfl⟩ : ∃ n, fuel = n + 1 := ⟨fuel - 1, by simp at hfuel; omega⟩
    have hstop : Yaml.endsPlainWord p.rest = false := by
      rw [hp]
      exact hws [] (c :: ws) rfl (List.cons_ne_nil _ _)
    have hskip : p.skip.rest = ws ++ rest := by rw [skip_rest, hp]; rfl
    rw [readPlainWord, endsPlainWord_iff, hstop, head_of_rest hp]
    simp only [Bool.false_eq_true, if_false]
    rw [ih (fun pre post h => hws (c :: pre) post (by rw [h]; rfl)) hskip (by simpa using hfuel)]
    simp [skipMany]

theorem readPlainGap_run {n : Nat} {a : Char} (ha : isWordEnd a = false)
    (hp : p.rest = spaces n ++ a :: rest) (hfresh : p.fresh = false) {fuel : Nat}
    (hfuel : n ≤ fuel) (indent : Int) (g : Gap) :
    readPlainGap indent fuel g p =
      .ok ({ g with blanks := spaces n ++ g.blanks }, p.skipMany n) := by
  induction n generalizing p fuel g with
  | zero =>
    have hp : p.rest = a :: rest := hp
    obtain ⟨hblank, hend⟩ := Bool.or_eq_false_iff.1 ha
    cases fuel with
    | zero => rfl
    | succ fuel =>
      rw [readPlainGap, head_of_rest hp, hblank, (Bool.or_eq_false_iff.1 hend).1]
      rfl
  | succ n ih =>
    obtain ⟨fuel, rfl⟩ : ∃ m, fuel = m + 1 := ⟨fuel - 1, by omega⟩
    have hp : p.rest = ' ' :: (spaces n ++ a :: rest) := hp
    have hskip : p.skip.rest = spaces n ++ a :: rest := by rw [skip_rest, hp]; rfl
    rw [readPlainGap, head_of_rest hp, skipBlank_eq_skip hfresh, hfresh]
    simp only [show isSpaceOrTab ' ' = true from rfl, if_true, Bool.not_false]
    rw [ih hskip rfl (by omega), skipMany_succ, spaces, spaces, List.replicate_succ']
    simp

/-- The line feed behind a plain scalar and the indentation of the next line are passed. -/
theorem readPlainGap_newline {outer : Int} {column : Nat} {body : List Char}
    (hbody : Follows outer column body) (hp : p.rest = '\n' :: (spaces column ++ body))
    (hfresh : p.fresh = false) {fuel : Nat} (hfuel : column < fuel) (indent : Int) :
    ∃ g, readPlainGap indent fuel Gap.none p = .ok (g, p.nextLine column) := by
  obtain ⟨fuel, rfl⟩ : ∃ m, fuel = m + 1 := ⟨fuel - 1, by omega⟩
  have hspaces (n : Nat) (g : Gap) {fuel : Nat} (hfuel : column ≤ fuel + n) (hn : n ≤ column) :
      readPlainGap indent fuel g (p.nextLine n) = .ok (g, p.nextLine column) := by
    induction fuel generalizing n with
    | zero =>
      obtain rfl : n = column := by omega
      rfl
    | succ fuel ih =>
      by_cases hlast : n = column
      · subst hlast
        rw [readPlainGap, head_eq, nextLine_rest hp, hbody.isSpaceOrTab, hbody.isLineBreak]
        rfl
      · obtain ⟨m, rfl⟩ : ∃ m, column = n + 1 + m := ⟨column - n - 1, by omega⟩
        have hhead : (p.nextLine n).head = ' ' := by
          rw [show n + 1 + m = n + (1 + m) by omega, spaces, List.replicate_add,
            List.append_assoc] at hp
          rw [head_eq, nextLine_rest hp, Nat.add_comm 1 m]
          rfl
        rw [readPlainGap, hhead]
        simp only [show isSpaceOrTab ' ' = true from rfl, if_true]
        rw [if_neg (by simp [nextLine]), if_neg (by simp), nextLine_skipBlank]
        exact ih (n + 1) (by omega) (by omega)
  rw [readPlainGap, head_of_rest hp, hfresh, skipBreak_of_newline hp]
  exact ⟨_, hspaces 0 _ (by omega) (by omega)⟩

/-! ## All words -/

theorem PlainRun.ne_nil (h : PlainRun cs) : cs ≠ [] := by
  obtain ⟨c, rest, rfl, -⟩ := h.head
  exact List.cons_ne_nil _ _

theorem PlainRun.tail {n : Nat} {more : List Char} (h : PlainRun (ws ++ (spaces (n + 1) ++ more)))
    (hmore : more.head? ≠ some ' ') : PlainRun more := by
  have hmem {c : Char} (hc : c ∈ more) : c ∈ ws ++ (spaces (n + 1) ++ more) :=
    List.mem_append_right _ (List.mem_append_right _ hc)
  have hsplit : ws ++ (spaces (n + 1) ++ more) = (ws ++ spaces n) ++ ' ' :: more := by
    rw [spaces, List.replicate_succ', spaces]
    simp
  have hne : more ≠ [] := by
    rintro rfl
    apply h.last
    rw [hsplit]
    simp
  refine ⟨fun c hc => h.printable c (hmem hc), fun c hc => h.unbroken c (hmem hc), ?_, ?_, ?_, ?_⟩
  · cases more with
    | nil => exact absurd rfl hne
    | cons c rest =>
      refine ⟨c, rest, rfl, by simpa using hmore, ?_⟩
      rintro rfl
      exact h.hash _ _ hsplit
  · have hlast := h.last
    rwa [List.getLast?_append, List.getLast?_append, List.getLast?_eq_some_getLast hne] at *
  · rintro pre post rfl
    exact h.colon (ws ++ (spaces (n + 1) ++ pre)) post (by simp)
  · rintro pre post rfl
    exact h.hash (ws ++ (spaces (n + 1) ++ pre)) post (by simp)

theorem PlainRun.word {more : List Char} (h : PlainRun (ws ++ more)) (hws : ∀ c ∈ ws, c ≠ ' ')
    (rest pre post : List Char) (hpost : ws = pre ++ post) (hne : post ≠ []) :
    endsPlainWord (post ++ (more ++ rest)) = false := by
  subst hpost
  cases post with
  | nil => exact absurd rfl hne
  | cons c post =>
    have hmem : c ∈ pre ++ c :: post := by simp
    have hmem' : c ∈ pre ++ c :: post ++ more := List.mem_append_left _ hmem
    have hword : isWordEnd c = false :=
      isWordEnd_eq_false (h.printable c hmem') (hws c hmem) (h.ne_newline hmem')
    have hcolon (hc : c = ':') : isWordEnd ((post ++ (more ++ rest)).headD endMark) = false := by
      subst hc
      have hend := h.colon pre (post ++ more) (by simp)
      simpa using isWordEnd_head_eq_false hend rest
    rw [endsPlainWord, List.cons_append, List.headD_cons, hword, Bool.false_or]
    by_cases hc : c = ':'
    · have := hcolon hc
      rw [Bool.and_eq_false_iff]
      right
      rw [← this]
      cases post ++ (more ++ rest) <;> rfl
    · simp [hc]

/-- What is done behind a word of a plain scalar. -/
def plainEnd (indent : Int) (fuel : Nat) (seen : List Char) (p : Cursor) :
    Except Problem (List Char × Cursor) :=
  if !(isSpaceOrTab p.head || isLineBreak p.head) then .ok (seen.reverse, p)
  else (readPlainGap indent p.rest.length Gap.none p).bind fun r =>
    if (r.2.column : Int) < indent then .ok (seen.reverse, r.2)
    else readPlainFrom false indent fuel seen r.1 r.2

theorem readPlainFrom_word {indent : Int} {fuel : Nat} {seen : List Char} {g : Gap}
    (hmarker : p.atAnyMarker = false) (hhash : p.head ≠ '#')
    (hword : endsPlainWord p.rest = false) :
    readPlainFrom false indent (fuel + 1) seen g p =
      let r := readPlainWord false p.rest.length
        (if p.fresh then g.folded.reverse ++ seen else g.blanks ++ seen) p
      plainEnd indent fuel r.1 r.2 := by
  rw [readPlainFrom, hmarker, endsPlainWord_iff, hword]
  simp only [beq_iff_eq, hhash, Bool.false_or, Bool.false_and, Bool.false_eq_true, if_false,
    Bool.not_false, Bool.true_and, decide_eq_true_eq]
  rfl

/-- **All words of a plain text are read.** -/
theorem readPlainFrom_run (hcs : PlainRun cs) (hrest : EndsScalar rest) (hp : p.rest = cs ++ rest)
    (hmarker : p.atAnyMarker = false) {indent : Int} (hindent : indent ≤ p.column + 1) {fuel : Nat}
    (hfuel : cs.length ≤ fuel) {seen before : List Char} {g : Gap}
    (hbefore : (if p.fresh then g.folded.reverse ++ seen else g.blanks ++ seen) = before) :
    ∃ left, readPlainFrom false indent fuel seen g p =
      plainEnd indent left (cs.reverse ++ before) (p.skipMany cs.length) := by
  obtain ⟨fuel, rfl⟩ : ∃ m, fuel = m + 1 := by
    have := List.length_pos_of_ne_nil hcs.ne_nil
    exact ⟨fuel - 1, by omega⟩
  have hhash : p.head ≠ '#' := by
    obtain ⟨c, tail, rfl, -, hc⟩ := hcs.head
    rw [head_of_rest hp]
    exact hc
  induction words cs generalizing p fuel seen before g with
  | @last ws hws =>
    have hword := (show PlainRun (ws ++ []) by rwa [List.append_nil]).word hws rest
    have hstart : endsPlainWord p.rest = false := hp ▸ hword [] ws rfl hcs.ne_nil
    refine ⟨fuel, ?_⟩
    rw [readPlainFrom_word hmarker hhash hstart, hbefore,
      readPlainWord_run hword hrest.endsPlainWord hp (by rw [hp, List.length_append]; omega)]
  | @cons ws more n hws hmore _ ih =>
    have hwne : ws ≠ [] := by
      rintro rfl
      obtain ⟨c, tail, heq, hc, -⟩ := hcs.head
      exact hc (List.cons.inj heq).1.symm
    have hmorePlain := hcs.tail hmore
    obtain ⟨a, tail, htail, ha, hahash⟩ := hmorePlain.head
    have hamem : a ∈ more := htail ▸ List.mem_cons_self
    have haword : isWordEnd a = false :=
      isWordEnd_eq_false (hmorePlain.printable a hamem) ha (hmorePlain.ne_newline hamem)
    have hword := hcs.word hws rest
    rw [List.append_assoc] at hp
    have hstart : endsPlainWord p.rest = false := hp ▸ hword [] ws rfl hwne
    have hspaces : endsPlainWord (spaces (n + 1) ++ more ++ rest) = true := by
      simp [spaces, endsPlainWord, isWordEnd, isSpaceOrTab, List.replicate_succ]
    rw [readPlainFrom_word hmarker hhash hstart, hbefore,
      readPlainWord_run hword hspaces hp (by rw [hp, List.length_append]; omega)]
    have hq := skipMany_rest_append hp
    rw [List.append_assoc, htail] at hq
    set q := p.skipMany ws.length with hqdef
    have hqfresh : q.fresh = false :=
      skipMany_fresh (.inr fun h => hwne (List.length_eq_zero_iff.1 h))
    have hqlength : n + 1 ≤ q.rest.length := by
      rw [hq, List.length_append]
      simp [spaces]
    have hqmore : (q.skipMany (n + 1)).rest = more ++ rest := by
      rw [skipMany_rest, hq, htail]
      simp [spaces]
    have hqcolumn : (q.skipMany (n + 1)).column = p.column + ws.length + (n + 1) := by
      rw [skipMany_column, hqdef, skipMany_column]
    have hqmarker := atAnyMarker_of_column (p := q.skipMany (n + 1)) (by omega)
    have hqhash : (q.skipMany (n + 1)).head ≠ '#' := by
      rw [head_eq, hqmore, htail]
      exact hahash
    have hlong : more.length ≤ fuel ∧ 0 < more.length := by
      refine ⟨?_, List.length_pos_of_ne_nil hmorePlain.ne_nil⟩
      simp only [spaces, List.length_append, List.length_replicate] at hfuel
      omega
    obtain ⟨fuel, rfl⟩ : ∃ m, fuel = m + 1 := ⟨fuel - 1, by omega⟩
    obtain ⟨left, hleft⟩ := ih hmorePlain hqmore hqmarker (by omega) rfl fuel hlong.1 hqhash
    refine ⟨left, ?_⟩
    rw [plainEnd, head_of_rest (c := ' ') hq]
    simp only [show isSpaceOrTab ' ' = true from rfl, Bool.true_or, Bool.not_true,
      Bool.false_eq_true, if_false, readPlainGap_run haword hq hqfresh hqlength, Except.bind]
    rw [if_neg (by omega), hleft, skipMany_fresh (.inl hqfresh), hqdef, ← skipMany_add,
      ← skipMany_add]
    simp [spaces, Gap.none, Nat.add_assoc]

/-! ## Whole scalars -/

theorem PlainText.atAnyMarker (hcs : PlainText cs) (hrest : EndsScalar rest)
    (hp : p.rest = cs ++ rest) : p.atAnyMarker = false := by
  obtain ⟨e, tail, rfl, he⟩ := hrest.exists_cons
  have hne (mark : Char) (hmark : mark = '-' ∨ mark = '.') : p.atMarker mark = false := by
    have hemark : e ≠ mark := by obtain rfl | rfl := he <;> obtain rfl | rfl := hmark <;> decide
    have hmarker := hcs.marker
    match cs, hcs.ne_nil with
    | [a], _ => simp [atMarker, peek_eq, hp, hemark]
    | [a, b], _ => simp [atMarker, peek_eq, hp, hemark]
    | a :: b :: c :: more, _ =>
      rw [atMarker, head_of_rest hp, peek_eq, peek_eq, hp]
      by_cases ha : a = mark
      · subst ha
        by_cases hb : b = a
        · subst hb
          by_cases hc : c = b
          · subst hc
            obtain rfl | rfl := hmark <;> cases hmarker
          · simp [hc]
        · simp [hb]
      · simp [ha]
  rw [Cursor.atAnyMarker, hne '-' (.inl rfl), hne '.' (.inr rfl)]
  rfl

variable (hcs : PlainText cs)

include hcs

theorem readPlain_run (hrest : EndsScalar rest) (hp : p.rest = cs ++ rest) {indent : Int}
    (hindent : indent ≤ p.column + 1) :
    ∃ left, readPlain false indent p = (plainEnd indent left cs.reverse (p.skipMany cs.length)).map
      fun (r : List Char × Cursor) => (String.ofList r.1, r.2) := by
  have hfuel : cs.length ≤ p.rest.length + 1 := by rw [hp, List.length_append]; omega
  obtain ⟨left, hleft⟩ := readPlainFrom_run hcs.toPlainRun hrest hp (hcs.atAnyMarker hrest hp)
    hindent hfuel
    (show (if p.fresh then Gap.none.folded.reverse ++ [] else Gap.none.blanks ++ []) = []
      by cases p.fresh <;> rfl)
  refine ⟨left, ?_⟩
  rw [readPlain, if_neg (by simp), hleft, List.append_nil]

/-- **A plain text before a colon is read back, and the position is at the colon.** -/
theorem readPlain_colon {c : Char} (hblank : isWordEnd c = true)
    (hp : p.rest = cs ++ ':' :: c :: rest) {indent : Int} (hindent : indent ≤ p.column + 1) :
    readPlain false indent p = .ok (String.ofList cs, p.skipMany cs.length) := by
  obtain ⟨left, hleft⟩ := readPlain_run hcs (.colon hblank rest) hp hindent
  have hq : (p.skipMany cs.length).head = ':' := head_of_rest (skipMany_rest_append hp)
  rw [hleft, plainEnd, hq]
  simp [isSpaceOrTab, isLineBreak, Except.map]

/-- **A plain text at the end of its line is read back, and the position is at the start of what
follows.** -/
theorem readPlain_newline {outer : Int} {column : Nat} {body : List Char}
    (hbody : Follows outer column body) (hp : p.rest = cs ++ '\n' :: (spaces column ++ body))
    (hindent : outer ≤ p.column) :
    readPlain false (outer + 1) p =
      .ok (String.ofList cs, (p.skipMany cs.length).nextLine column) := by
  obtain ⟨left, hleft⟩ := readPlain_run hcs (.newline _) hp (Int.add_le_add_right hindent 1)
  have hq := skipMany_rest_append hp
  have hqfresh : (p.skipMany cs.length).fresh = false :=
    skipMany_fresh (.inr fun h => hcs.ne_nil (List.length_eq_zero_iff.1 h))
  have hlength : column < (p.skipMany cs.length).rest.length := by
    rw [hq, List.length_cons, List.length_append, spaces, List.length_replicate]
    omega
  obtain ⟨g, hg⟩ := readPlainGap_newline hbody hq hqfresh hlength (outer + 1)
  rw [hleft, plainEnd, head_of_rest hq, hg]
  simp only [show isLineBreak '\n' = true from rfl, Bool.or_true, Bool.not_true, Bool.false_eq_true,
    if_false, Except.bind]
  cases hbody with
  | token start le tail =>
    have hlt : (((p.skipMany cs.length).nextLine column).column : Int) < outer + 1 := by
      simp only [nextLine]
      omega
    rw [if_pos hlt, List.reverse_reverse]
    rfl
  | stop =>
    have hend : ((p.skipMany cs.length).nextLine 0).rest = [] := nextLine_rest hq
    split
    · rw [List.reverse_reverse]
      rfl
    · cases left with
      | zero => rw [readPlainFrom, List.reverse_reverse]; rfl
      | succ left =>
        have hhead := head_of_nil hend
        rw [readPlainFrom, endsPlainWord_iff, hend]
        simp [atAnyMarker, atMarker, hhead, endMark, endsPlainWord, isWordEnd, isLineEnd, isEndMark,
          Except.map]

end Yaml

end BatchRun
