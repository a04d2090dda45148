import BatchRun.Proofs.Slug.Words
import Mathlib.Computability.Language

/-!
# The language of slugs

A slug consists of words with single dashes between them: `[a-z0-9]+(-[a-z0-9]+)*`.

* `Slug.language`: the texts of this form, `Slug.mem_language_iff_words`: their words;
* `Slug.IsSlug`: the same texts character by character, as proofs by induction want them
  (`Slug.mem_language_iff`);
* `Slug.joined_cases`: what the words of a text are joined to is a slug, if there are any;
* **`Slug.IsSlug.trimDashes_take`**: a slug that is cut and trimmed is a slug, or nothing is left;
* `Slug.IsSlug.joined_eq`: a slug is joined to itself.
-/

open Computability

namespace BatchRun

namespace Slug

/-- One or more lower-case letters and digits, `[a-z0-9]+`. -/
def word : Language Char :=
  {w | w ≠ [] ∧ ∀ c ∈ w, ('a' ≤ c ∧ c ≤ 'z') ∨ ('0' ≤ c ∧ c ≤ '9')}

/-- Words with single dashes between them, `[a-z0-9]+(-[a-z0-9]+)*`. -/
def language : Language Char := word * ({['-']} * word)∗

/-- A slug, read from its first character on. -/
inductive IsSlug : List Char → Prop where
  | last {c : Char} (hc : isWordChar c = true) : IsSlug [c]
  | letter {c : Char} {cs : List Char} (hc : isWordChar c = true) (hcs : IsSlug cs) :
      IsSlug (c :: cs)
  | gap {c : Char} {cs : List Char} (hc : isWordChar c = true) (hcs : IsSlug cs) :
      IsSlug (c :: '-' :: cs)

variable {c : Char} {w cs : List Char} {ws : List (List Char)}

/-! ## Words -/

theorem mem_word_iff : w ∈ word ↔ w ≠ [] ∧ ∀ c ∈ w, isWordChar c = true := by
  have hchar (c : Char) : isWordChar c = true ↔ ('a' ≤ c ∧ c ≤ 'z') ∨ ('0' ≤ c ∧ c ≤ '9') := by
    simp [isWordChar]
  simp only [hchar]
  rfl

theorem mem_dash_word_iff : cs ∈ ({['-']} * word : Language Char) ↔ ∃ w ∈ word, cs = '-' :: w := by
  rw [Language.mem_mul]
  constructor
  · rintro ⟨_, rfl, w, hw, rfl⟩
    exact ⟨w, hw, rfl⟩
  · rintro ⟨w, hw, rfl⟩
    exact ⟨['-'], rfl, w, hw, rfl⟩

/-- **A slug is a first word and further words behind dashes.** -/
theorem mem_language_iff_words :
    cs ∈ language ↔ ∃ w ws, w ∈ word ∧ (∀ v ∈ ws, v ∈ word) ∧ cs = w ++ dashed ws := by
  rw [language, Language.mem_mul]
  constructor
  · rintro ⟨w, hw, _, hrest, rfl⟩
    obtain ⟨parts, rfl, hparts⟩ := Language.mem_kstar.1 hrest
    have htail : ∀ part ∈ parts, part.tail ∈ word ∧ '-' :: part.tail = part := by
      intro part hpart
      obtain ⟨v, hv, rfl⟩ := mem_dash_word_iff.1 (hparts part hpart)
      exact ⟨hv, rfl⟩
    refine ⟨w, parts.map List.tail, hw, List.forall_mem_map.2 fun part hpart =>
      (htail part hpart).1, ?_⟩
    rw [dashed, List.flatMap_map, List.flatMap_def,
      List.map_congr_left fun part hpart => (htail part hpart).2, List.map_id']
  · rintro ⟨w, ws, hw, hws, rfl⟩
    refine ⟨w, hw, dashed ws, Language.mem_kstar.2 ⟨ws.map ('-' :: ·), ?_, fun v hv => ?_⟩, rfl⟩
    · rw [dashed, List.flatMap_def]
    · obtain ⟨u, hu, rfl⟩ := List.mem_map.1 hv
      exact mem_dash_word_iff.2 ⟨u, hws u hu, rfl⟩

/-! ## Slugs character by character -/

theorem isSlug_append {rest : List Char} (hw : w ∈ word)
    (hrest : rest = [] ∨ ∃ cs, IsSlug cs ∧ rest = '-' :: cs) : IsSlug (w ++ rest) := by
  obtain ⟨hne, hall⟩ := mem_word_iff.1 hw
  clear hw
  induction w with
  | nil => exact absurd rfl hne
  | cons c w ih =>
    obtain ⟨hc, hw⟩ := List.forall_mem_cons.1 hall
    cases w with
    | nil =>
      rcases hrest with rfl | ⟨cs, hcs, rfl⟩
      · exact .last hc
      · exact .gap hc hcs
    | cons d w => exact .letter hc (ih (List.cons_ne_nil d w) hw)

theorem isSlug_append_dashed (hw : w ∈ word) (hws : ∀ v ∈ ws, v ∈ word) :
    IsSlug (w ++ dashed ws) := by
  induction ws generalizing w with
  | nil => exact isSlug_append hw (.inl rfl)
  | cons v ws ih =>
    obtain ⟨hv, hws⟩ := List.forall_mem_cons.1 hws
    exact isSlug_append hw (.inr ⟨v ++ dashed ws, ih hv hws, rfl⟩)

theorem IsSlug.exists_words (h : IsSlug cs) :
    ∃ w ws, w ∈ word ∧ (∀ v ∈ ws, v ∈ word) ∧ cs = w ++ dashed ws := by
  have hsingle {c : Char} (hc : isWordChar c = true) : [c] ∈ word :=
    mem_word_iff.2 ⟨by simp, by simpa using hc⟩
  induction h with
  | last hc => exact ⟨_, [], hsingle hc, by simp, rfl⟩
  | @letter c _ hc _ ih =>
    obtain ⟨w, ws, hw, hws, rfl⟩ := ih
    have hall : ∀ d ∈ c :: w, isWordChar d = true :=
      List.forall_mem_cons.2 ⟨hc, (mem_word_iff.1 hw).2⟩
    exact ⟨c :: w, ws, mem_word_iff.2 ⟨by simp, hall⟩, hws, rfl⟩
  | gap hc _ ih =>
    obtain ⟨w, ws, hw, hws, rfl⟩ := ih
    exact ⟨_, w :: ws, hsingle hc, List.forall_mem_cons.2 ⟨hw, hws⟩, rfl⟩

/-- **The language, character by character.** -/
theorem mem_language_iff : cs ∈ language ↔ IsSlug cs := by
  rw [mem_language_iff_words]
  constructor
  · rintro ⟨w, ws, hw, hws, rfl⟩
    exact isSlug_append_dashed hw hws
  · exact IsSlug.exists_words

theorem IsSlug.ne_nil (h : IsSlug cs) : cs ≠ [] := by
  cases h <;> simp

theorem IsSlug.chars (h : IsSlug cs) : ∀ c ∈ cs, isWordChar c = true ∨ c = '-' := by
  induction h with
  | last hc => simp [hc]
  | letter hc _ ih => exact List.forall_mem_cons.2 ⟨.inl hc, ih⟩
  | gap hc _ ih => exact List.forall_mem_cons.2 ⟨.inl hc, List.forall_mem_cons.2 ⟨.inr rfl, ih⟩⟩

/-! ## What a text is joined to -/

theorem isWordChar_of_mem_splitOnP (hw : w ∈ cs.splitOnP fun c => !isWordChar c) :
    ∀ c ∈ w, isWordChar c = true := by
  induction cs generalizing w with
  | nil => simp_all
  | cons d cs ih =>
    rw [List.splitOnP_cons_eq_if_modifyHead] at hw
    split_ifs at hw with hd
    · rcases List.mem_cons.1 hw with rfl | hw
      · simp
      · exact ih hw
    · obtain ⟨v, vs, hsplit⟩ :=
        List.exists_cons_of_ne_nil (List.splitOnP_ne_nil (fun c => !isWordChar c) cs)
      rw [hsplit] at hw ih
      rcases List.mem_cons.1 hw with rfl | hw
      · exact List.forall_mem_cons.2 ⟨by simpa using hd, ih List.mem_cons_self⟩
      · exact ih (List.mem_cons_of_mem _ hw)

theorem mem_word_of_mem_words (hw : w ∈ words cs) : w ∈ word := by
  obtain ⟨hsplit, hne⟩ := List.mem_filter.1 hw
  exact mem_word_iff.2 ⟨by simpa using hne, isWordChar_of_mem_splitOnP hsplit⟩

/-- **Joined words are a slug**, unless there are none. -/
theorem joined_cases (cs : List Char) : joined cs = [] ∨ IsSlug (joined cs) := by
  have hwords : ∀ w ∈ words cs, w ∈ word := fun w => mem_word_of_mem_words
  rw [joined]
  generalize words cs = ws at hwords
  cases ws with
  | nil => exact .inl rfl
  | cons w ws =>
    obtain ⟨hw, hws⟩ := List.forall_mem_cons.1 hwords
    rw [intercalate_dash_cons]
    exact .inr (isSlug_append_dashed hw hws)

theorem IsSlug.joinWords_started (h : IsSlug cs) :
    joinWords true false cs = cs ∧ joinWords true true cs = '-' :: cs := by
  induction h with
  | last hc => simp [joinWords, hc]
  | letter hc _ ih => simp [joinWords, hc, ih.1]
  | gap hc _ ih =>
    have hdash : isWordChar '-' = false := by decide
    simp [joinWords, hc, hdash, ih.2]

/-- **A slug is joined to itself.** -/
theorem IsSlug.joined_eq (h : IsSlug cs) : joined cs = cs := by
  rw [← joinWords_eq false]
  cases h with
  | last hc => simp [joinWords, hc]
  | letter hc hcs => simp [joinWords, hc, hcs.joinWords_started.1]
  | gap hc hcs =>
    have hdash : isWordChar '-' = false := by decide
    simp [joinWords, hc, hdash, hcs.joinWords_started.2]

/-! ## Cutting a slug -/

theorem IsSlug.trimDashes_eq (h : IsSlug cs) : trimDashes cs = cs := by
  induction h with
  | last hc => exact trimDashes_cons_of_wordChar hc []
  | letter hc _ ih => rw [trimDashes_cons_of_wordChar hc, ih]
  | gap hc hcs ih =>
    rw [trimDashes_cons_of_wordChar hc, trimDashes_cons, ih, if_neg fun h => hcs.ne_nil h.2]

/-- **A slug that is cut and trimmed is a slug**, or nothing is left of it. -/
theorem IsSlug.trimDashes_take (h : IsSlug cs) (m : Nat) :
    trimDashes (cs.take m) = [] ∨ IsSlug (trimDashes (cs.take m)) := by
  induction h generalizing m with
  | last hc =>
    cases m with
    | zero => exact .inl rfl
    | succ m =>
      rw [List.take_succ_cons, trimDashes_cons_of_wordChar hc, List.take_nil]
      exact .inr (.last hc)
  | letter hc _ ih =>
    cases m with
    | zero => exact .inl rfl
    | succ m =>
      rw [List.take_succ_cons, trimDashes_cons_of_wordChar hc]
      rcases ih m with hnil | hslug
      · rw [hnil]
        exact .inr (.last hc)
      · exact .inr (.letter hc hslug)
  | gap hc _ ih =>
    -- the cut may fall before the character, before the dash, or behind it
    match m with
    | 0 => exact .inl rfl
    | 1 =>
      rw [List.take_succ_cons, trimDashes_cons_of_wordChar hc, List.take_zero]
      exact .inr (.last hc)
    | m + 2 =>
      rw [List.take_succ_cons, List.take_succ_cons, trimDashes_cons_of_wordChar hc,
        trimDashes_cons]
      rcases ih m with hnil | hslug
      · rw [if_pos ⟨rfl, hnil⟩]
        exact .inr (.last hc)
      · rw [if_neg fun h => hslug.ne_nil h.2]
        exact .inr (.gap hc hslug)

end Slug

end BatchRun
