import BatchRun.Text.Blank
import Mathlib.Data.List.Forall2

/-!
# Texts without their trailing blanks

* `Text.Trimmed`: what is missing at the end of a text is blank, and what is left does not end in a
  blank;
* **`Text.trimmed_iff`**: there is exactly one such text, `Text.trimEnd`.
-/

namespace BatchRun

namespace Text

/-- The text without its trailing blanks: only blanks are missing, and only at the end, and what is
left does not end in a blank. -/
structure Trimmed (raw trimmed : String) : Prop where
  missing : ∃ blanks, raw.toList = trimmed.toList ++ blanks ∧ ∀ c ∈ blanks, isBlank c = true
  last : ∀ c ∈ trimmed.toList.getLast?, isBlank c = false

theorem trimEndChars_of_blank {cs : List Char} (h : ∀ c ∈ cs, isBlank c = true) :
    trimEndChars cs = [] := by
  induction cs with
  | nil => rfl
  | cons c rest ih =>
    obtain ⟨hc, hrest⟩ := List.forall_mem_cons.1 h
    rw [trimEndChars, ih hrest]
    exact if_pos hc

theorem trimEndChars_append (cs : List Char) {blanks : List Char}
    (h : ∀ c ∈ blanks, isBlank c = true) : trimEndChars (cs ++ blanks) = trimEndChars cs := by
  induction cs with
  | nil => exact trimEndChars_of_blank h
  | cons c rest ih => rw [List.cons_append, trimEndChars, trimEndChars, ih]

theorem exists_trimEndChars (cs : List Char) :
    ∃ blanks, cs = trimEndChars cs ++ blanks ∧ ∀ c ∈ blanks, isBlank c = true := by
  induction cs with
  | nil => exact ⟨[], rfl, List.forall_mem_nil _⟩
  | cons c rest ih =>
    obtain ⟨blanks, hrest, hblanks⟩ := ih
    rw [trimEndChars]
    cases hkept : trimEndChars rest with
    | nil =>
      rw [hkept, List.nil_append] at hrest
      by_cases hc : isBlank c = true
      · exact ⟨c :: rest, by rw [if_pos hc]; rfl, List.forall_mem_cons.2 ⟨hc, hrest ▸ hblanks⟩⟩
      · exact ⟨blanks, by rw [if_neg hc, hrest]; rfl, hblanks⟩
    | cons d kept =>
      rw [hkept] at hrest
      exact ⟨blanks, by rw [hrest]; rfl, hblanks⟩

theorem getLast?_trimEndChars (cs : List Char) :
    ∀ c ∈ (trimEndChars cs).getLast?, isBlank c = false := by
  induction cs with
  | nil => exact nofun
  | cons c rest ih =>
    rw [trimEndChars]
    cases hkept : trimEndChars rest with
    | nil =>
      by_cases hc : isBlank c = true
      · rw [if_pos hc]
        exact nofun
      · rw [if_neg hc]
        rintro _ ⟨⟩
        exact Bool.eq_false_iff.2 hc
    | cons d kept =>
      rw [hkept] at ih
      exact ih

/-- **The text without its trailing blanks is there, and it is the only one.** -/
theorem trimmed_iff {raw trimmed : String} : Trimmed raw trimmed ↔ trimmed = trimEnd raw := by
  constructor
  · rintro ⟨⟨blanks, hraw, hblanks⟩, hlast⟩
    obtain ⟨others, hkept, hothers⟩ := exists_trimEndChars trimmed.toList
    have hsame : trimEndChars trimmed.toList = trimmed.toList := by
      cases others with
      | nil => rw [List.append_nil] at hkept; exact hkept.symm
      | cons c rest =>
        -- the last character of what is left would be blank
        have hend : trimmed.toList.getLast? = (c :: rest).getLast? := by
          rw [hkept, List.getLast?_append, List.getLast?_cons]
          rfl
        have hmem := List.getLast_mem (List.cons_ne_nil c rest)
        have hnot := hlast _ (hend.trans (List.getLast?_eq_some_getLast (List.cons_ne_nil c rest)))
        rw [hothers _ hmem] at hnot
        cases hnot
    rw [trimEnd, hraw, trimEndChars_append _ hblanks, hsame, String.ofList_toList]
  · rintro rfl
    refine ⟨?_, ?_⟩
    · rw [trimEnd, String.toList_ofList]
      exact exists_trimEndChars raw.toList
    · rw [trimEnd, String.toList_ofList]
      exact getLast?_trimEndChars raw.toList

theorem forall₂_trimmed_iff {raws trimmed : List String} :
    List.Forall₂ Trimmed raws trimmed ↔ raws.map trimEnd = trimmed := by
  have hsame : Trimmed = fun (raw trimmed : String) => trimEnd raw = trimmed := by
    funext raw trimmed
    exact propext (trimmed_iff.trans eq_comm)
  rw [hsame, ← List.forall₂_map_left_iff, List.forall₂_eq_eq_eq]

end Text

end BatchRun
