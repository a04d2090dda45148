import BatchRun.Slug.Basic
import Mathlib.Data.List.DropRight

/-!
# The words of a text

The words of folded characters are their longest runs of letters and digits. Joining a text is
putting single dashes between its words; trimming is dropping dashes at the end, and it may be done
before or after a cut.

* `Slug.words`, `Slug.joined`;
* **`Slug.joinWords_eq`**: what the scan of the characters gives is the words with single dashes
  between them;
* `Slug.trimDashes_take_trimDashes`: a text that has been trimmed is cut like the untrimmed one.
-/

namespace BatchRun

namespace Slug

/-- The longest runs of letters and digits, in order. -/
def words (cs : List Char) : List (List Char) :=
  (cs.splitOnP fun c => !isWordChar c).filter fun w => !w.isEmpty

/-- The words with single dashes between them. -/
def joined (cs : List Char) : List Char := ['-'].intercalate (words cs)

/-- Words, each with a dash before it. -/
def dashed (ws : List (List Char)) : List Char := ws.flatMap ('-' :: ·)

variable {c : Char} {cs : List Char}

theorem ne_dash_of_isWordChar (hc : isWordChar c = true) : c ≠ '-' := by
  rintro rfl
  simp [isWordChar] at hc

/-! ## Words -/

theorem words_cons_of_separator (hc : isWordChar c = false) (cs : List Char) :
    words (c :: cs) = words cs := by
  rw [words, List.splitOnP_cons_eq_if_modifyHead, if_pos (by simp [hc])]
  rfl

theorem words_cons_of_wordChar (hc : isWordChar c = true) {w : List Char} {ws : List (List Char)}
    (hsplit : cs.splitOnP (fun c => !isWordChar c) = w :: ws) :
    words (c :: cs) = (c :: w) :: ws.filter fun w => !w.isEmpty := by
  rw [words, List.splitOnP_cons_eq_if_modifyHead, if_neg (by simp [hc]), hsplit]
  rfl

theorem intercalate_dash_cons (w : List Char) (ws : List (List Char)) :
    ['-'].intercalate (w :: ws) = w ++ dashed ws := by
  induction ws generalizing w with
  | nil => simp [dashed]
  | cons v ws ih => rw [List.intercalate_cons_cons, ih, dashed, dashed]; simp

/-! ## The scan -/

/-- After a gap comes each further word behind a dash; without a gap the word at hand is continued
first. -/
theorem joinWords_started (cs : List Char) :
    joinWords true true cs = dashed (words cs) ∧
      ∃ w ws, cs.splitOnP (fun c => !isWordChar c) = w :: ws ∧
        joinWords true false cs = w ++ dashed (ws.filter fun w => !w.isEmpty) := by
  induction cs with
  | nil => exact ⟨rfl, [], [], rfl, rfl⟩
  | cons c cs ih =>
    obtain ⟨hgap, w, ws, hsplit, hword⟩ := ih
    cases hc : isWordChar c with
    | true =>
      refine ⟨?_, c :: w, ws, ?_, ?_⟩
      · rw [words_cons_of_wordChar hc hsplit, joinWords, if_pos hc, if_pos (by decide), hword]
        rfl
      · rw [List.splitOnP_cons_eq_if_modifyHead, if_neg (by simp [hc]), hsplit]
        rfl
      · rw [joinWords, if_pos hc, if_neg (by decide), hword]
        rfl
    | false =>
      refine ⟨?_, [], cs.splitOnP fun c => !isWordChar c, ?_, ?_⟩
      · rw [words_cons_of_separator hc, joinWords, if_neg (by simp [hc]), hgap]
      · rw [List.splitOnP_cons_eq_if_modifyHead, if_pos (by simp [hc])]
      · rw [joinWords, if_neg (by simp [hc]), hgap]
        rfl

/-- **The scan joins the words by single dashes**, whatever separators come first. -/
theorem joinWords_eq (gap : Bool) (cs : List Char) : joinWords false gap cs = joined cs := by
  induction cs generalizing gap with
  | nil => rfl
  | cons c cs ih =>
    cases hc : isWordChar c with
    | true =>
      obtain ⟨_, w, ws, hsplit, hword⟩ := joinWords_started cs
      rw [joined, words_cons_of_wordChar hc hsplit, intercalate_dash_cons, joinWords, if_pos hc,
        Bool.and_false, if_neg (by decide), hword]
      rfl
    | false =>
      rw [joinWords, if_neg (by simp [hc]), ih, joined, joined, words_cons_of_separator hc]

/-! ## Trimming -/

theorem trimDashes_cons (c : Char) (cs : List Char) :
    trimDashes (c :: cs) = if c = '-' ∧ trimDashes cs = [] then [] else c :: trimDashes cs := by
  rw [trimDashes]
  cases trimDashes cs <;> simp

theorem trimDashes_cons_of_wordChar (hc : isWordChar c = true) (cs : List Char) :
    trimDashes (c :: cs) = c :: trimDashes cs := by
  rw [trimDashes_cons, if_neg fun h => ne_dash_of_isWordChar hc h.1]

theorem trimDashes_concat (cs : List Char) (c : Char) :
    trimDashes (cs ++ [c]) = if c = '-' then trimDashes cs else cs ++ [c] := by
  induction cs with
  | nil => rfl
  | cons d cs ih =>
    rw [List.cons_append, trimDashes_cons, trimDashes_cons, ih]
    by_cases hc : c = '-' <;> simp [hc]

theorem trimDashes_eq (cs : List Char) : trimDashes cs = cs.rdropWhile (· == '-') := by
  induction cs using List.reverseRecOn with
  | nil => rfl
  | append_singleton cs c ih => rw [trimDashes_concat, List.rdropWhile_concat, ih]; simp

theorem trimDashes_prefix_self (cs : List Char) : trimDashes cs <+: cs :=
  trimDashes_eq cs ▸ List.rdropWhile_prefix _ cs

/-- **A text that has been trimmed is cut like the untrimmed one.** -/
theorem trimDashes_take_trimDashes (n : Nat) (cs : List Char) :
    trimDashes ((trimDashes cs).take n) = trimDashes (cs.take n) := by
  induction cs using List.reverseRecOn with
  | nil => rfl
  | append_singleton cs c ih =>
    rw [trimDashes_concat]
    split_ifs with hc
    · rw [ih]
      by_cases hn : n ≤ cs.length
      · rw [List.take_append_of_le_length hn]
      · -- the cut is behind the dash
        rw [List.take_of_length_le (by omega), List.take_of_length_le (by simp; omega),
          trimDashes_concat, if_pos hc]
    · rfl

theorem filter_trimDashes (cs : List Char) :
    (trimDashes cs).filter isWordChar = cs.filter isWordChar := by
  induction cs using List.reverseRecOn with
  | nil => rfl
  | append_singleton cs c ih =>
    rw [trimDashes_concat]
    split_ifs with hc
    · rw [ih, List.filter_append, hc]
      simp [isWordChar]
    · rfl

end Slug

end BatchRun
