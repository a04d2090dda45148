import BatchRun.Proofs.Slug.Language
import Mathlib.Data.List.Chain

/-!
# What the slug of a text is

The slug of a text is its folded text, joined, cut and trimmed (`Slug.toList_slugify`). Of the
folding nothing is used but that letters, digits and dashes fold to themselves
(`Slug.folded_eq_toList`).

* **`slugify_slugify`**: a slug is in the language or empty and not too long, every such text is its
  own slug, and the slug of a slug is the slug of the text under the lesser limit;
* **`slugify_eq_cut`**: a slug is the joined text as far as it fits, less one dash where the cut is
  behind one; no letter or digit is lost, and a lesser limit gives a prefix.
-/

namespace BatchRun

namespace Slug

variable {c : Char} {cs : List Char} {slug : String}

/-! ## Texts that are slugs already -/

theorem folded_eq_toList {text : String}
    (h : ∀ c ∈ text.toList, isWordChar c = true ∨ c = '-') : folded text = text.toList := by
  have hfold : ∀ c ∈ text.toList, fold c = [c] := by
    intro c hc
    rcases h c hc with hword | rfl
    · rw [fold, if_pos hword]
    · decide
  rw [folded, List.flatMap_congr hfold, List.flatMap_singleton']

theorem joined_folded_eq (h : slug.toList = [] ∨ IsSlug slug.toList) :
    joined (folded slug) = slug.toList := by
  rcases h with hnil | hslug
  · rw [folded, hnil]
    rfl
  · rw [folded_eq_toList hslug.chars, hslug.joined_eq]

/-! ## Slugs of texts -/

theorem toList_slugify (text : String) (m : Nat) :
    (slugify text m).toList = trimDashes ((joined (folded text)).take m) := by
  rw [slugify, String.toList_ofList, joinWords_eq]

theorem slugify_cases (text : String) (m : Nat) :
    (slugify text m).toList = [] ∨ IsSlug (slugify text m).toList := by
  rw [toList_slugify]
  rcases joined_cases (folded text) with hnil | hslug
  · rw [hnil, List.take_nil]
    exact .inl rfl
  · exact hslug.trimDashes_take m

theorem length_slugify_le (text : String) (m : Nat) : (slugify text m).length ≤ m := by
  rw [← String.length_toList, toList_slugify]
  exact (trimDashes_prefix_self _).length_le.trans (List.length_take_le m _)

theorem slugify_eq_self {m : Nat} (h : IsSlug slug.toList) (hlength : slug.length ≤ m) :
    slugify slug m = slug := by
  rw [← String.toList_inj, toList_slugify, joined_folded_eq (.inr h), List.take_of_length_le,
    h.trimDashes_eq]
  rwa [String.length_toList]

/-- **The slug of a slug** is the slug under the lesser limit. -/
theorem slugify_slugify_eq (text : String) (m n : Nat) :
    slugify (slugify text m) n = slugify text (min m n) := by
  rw [← String.toList_inj, toList_slugify, joined_folded_eq (slugify_cases text m),
    toList_slugify, trimDashes_take_trimDashes, toList_slugify, List.take_take, Nat.min_comm]

end Slug

/-- **Slugs are in their language, and slugging them again only cuts them.** -/
theorem slugify_slugify (text : String) (m n : Nat) :
    (slugify text m = "" ∨ (slugify text m).toList ∈ Slug.language) ∧
      (slugify text m).length ≤ m ∧
      (∀ slug : String, slug.toList ∈ Slug.language → slug.length ≤ m → slugify slug m = slug) ∧
      slugify (slugify text m) n = slugify text (min m n) := by
  refine ⟨?_, Slug.length_slugify_le text m, fun slug hslug hlength => ?_,
    Slug.slugify_slugify_eq text m n⟩
  · rcases Slug.slugify_cases text m with hnil | hslug
    · exact .inl (String.toList_eq_nil_iff.1 hnil)
    · exact .inr (Slug.mem_language_iff.2 hslug)
  · exact Slug.slugify_eq_self (Slug.mem_language_iff.1 hslug) hlength

/-- A cut behind a dash drops it, also when it cuts a slug. -/
theorem slugify_slugify_behind_dash :
    "ab-c".toList ∈ Slug.language ∧ slugify "ab-c" 4 = "ab-c" ∧
      slugify (slugify "Ab, c d" 4) 3 = "ab" := by
  have hslug : "ab-c".toList ∈ Slug.language :=
    Slug.mem_language_iff.2 (.letter (by decide) (.gap (by decide) (.last (by decide))))
  obtain ⟨_, _, hself, hagain⟩ := slugify_slugify "Ab, c d" 4 3
  refine ⟨hslug, hself "ab-c" hslug (by decide), ?_⟩
  rw [hagain]
  decide +kernel

namespace Slug

/-! ## What is left of a text -/

/-- The words of the folded text with single dashes between them, before any cut. -/
def whole (text : String) : List Char := joined (folded text)

/-- Without the dash at the end, if there is one. -/
def withoutDash (cs : List Char) : List Char := if cs.getLast? = some '-' then cs.dropLast else cs

/-- No two dashes stand in a row. -/
def SingleDashes (cs : List Char) : Prop := cs.IsChain fun a b => ¬ (a = '-' ∧ b = '-')

theorem IsSlug.ne_dash_of_mem_head? (h : IsSlug cs) : ∀ c ∈ cs.head?, c ≠ '-' := by
  cases h <;> simpa using ne_dash_of_isWordChar ‹_›

theorem IsSlug.singleDashes (h : IsSlug cs) : SingleDashes cs := by
  induction h with
  | last _ => exact .singleton _
  | letter hc _ ih =>
    exact List.isChain_cons.2 ⟨fun _ _ hdash => ne_dash_of_isWordChar hc hdash.1, ih⟩
  | gap hc hcs ih =>
    refine List.isChain_cons.2 ⟨fun _ _ hdash => ne_dash_of_isWordChar hc hdash.1, ?_⟩
    exact List.isChain_cons.2 ⟨fun d hd hdash => hcs.ne_dash_of_mem_head? d hd hdash.2, ih⟩

theorem trimDashes_of_singleDashes (h : SingleDashes cs) : trimDashes cs = withoutDash cs := by
  rcases List.eq_nil_or_concat' cs with rfl | ⟨cs, c, rfl⟩
  · rfl
  rw [trimDashes_concat, withoutDash, List.getLast?_concat, List.dropLast_concat]
  by_cases hc : c = '-'
  · rw [if_pos hc, if_pos (congrArg some hc)]
    -- what stands before the dash does not end with another one
    rcases List.eq_nil_or_concat' cs with rfl | ⟨cs, d, rfl⟩
    · rfl
    have hd : d ≠ '-' := fun hd =>
      (List.isChain_append.1 h).2.2 d List.getLast?_concat c rfl ⟨hd, hc⟩
    rw [trimDashes_concat, if_neg hd]
  · rw [if_neg hc, if_neg fun h => hc (Option.some.inj h)]

theorem singleDashes_whole (text : String) : SingleDashes (whole text) := by
  rcases joined_cases (folded text) with hnil | hslug
  · rw [whole, hnil]
    exact .nil
  · exact hslug.singleDashes

theorem trimDashes_whole (text : String) : trimDashes (whole text) = whole text := by
  rcases joined_cases (folded text) with hnil | hslug
  · rw [whole, hnil]
    rfl
  · exact hslug.trimDashes_eq

/-- **A lesser limit gives a prefix.** -/
theorem slugify_prefix_slugify (text : String) {m n : Nat} (h : m ≤ n) :
    (slugify text m).toList <+: (slugify text n).toList := by
  have hcut : (slugify text m).toList = trimDashes ((slugify text n).toList.take m) := by
    rw [toList_slugify, toList_slugify, trimDashes_take_trimDashes, List.take_take,
      Nat.min_eq_left h]
  rw [hcut]
  exact (trimDashes_prefix_self _).trans (List.take_prefix m _)

end Slug

/-- **A slug is the whole text as far as it fits**, less a dash at the end of the cut. -/
theorem slugify_eq_cut (text : String) (m : Nat) :
    (slugify text m).toList =
        (if (Slug.whole text).length ≤ m then Slug.whole text
          else Slug.withoutDash ((Slug.whole text).take m)) ∧
      (slugify text m).toList.filter Slug.isWordChar =
        ((Slug.whole text).take m).filter Slug.isWordChar ∧
      ∀ n, m ≤ n → (slugify text m).toList <+: (slugify text n).toList := by
  have hcut : (slugify text m).toList = Slug.trimDashes ((Slug.whole text).take m) :=
    Slug.toList_slugify text m
  refine ⟨?_, ?_, fun n => Slug.slugify_prefix_slugify text⟩
  · rw [hcut]
    split_ifs with hfits
    · rw [List.take_of_length_le hfits, Slug.trimDashes_whole]
    · exact Slug.trimDashes_of_singleDashes ((Slug.singleDashes_whole text).take m)
  · rw [hcut, Slug.filter_trimDashes]

/-- The cut at three characters of `ab-c` is behind the dash. -/
theorem slugify_eq_cut_behind_dash :
    Slug.whole "Ab, c" = "ab-c".toList ∧ (slugify "Ab, c" 3).toList = "ab".toList ∧
      (slugify "Ab, c" 3).toList <+: (slugify "Ab, c" 4).toList := by
  have hwhole : Slug.whole "Ab, c" = "ab-c".toList := by decide +kernel
  obtain ⟨hcut, _, hprefix⟩ := slugify_eq_cut "Ab, c" 3
  rw [hwhole] at hcut
  exact ⟨hwhole, hcut.trans (by decide), hprefix 4 (by decide)⟩

end BatchRun
