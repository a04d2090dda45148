import BatchRun.Proofs.Digest.Fingerprint
import BatchRun.Proofs.Manifest.Shortcuts
import BatchRun.Proofs.Slug.Cut
import BatchRun.Proofs.Text.Map

/-!
# The names that shortcuts give

A job is named by the slug of its name or, where there is none, by a fingerprint of its command and
its environment. Labels are slugs, too.

* `Shortcuts.identifyingTexts_inj`: the texts of the fingerprint tell the command from the
  environment;
* **`Shortcuts.generatedName_eq_iff`**: two generated names are the same only for the same command
  and environment or where the digests collide;
* `Shortcuts.mem_toPatch_at_iff`: what the patch of shortcuts does at one place;
* **`Shortcuts.toPatch_names`**: the server accepts every name and every label of the patch.
-/

namespace BatchRun

open Pointer

namespace Shortcuts

variable {command command' : List String} {env env' : TextMap}

/-! ## Generated names -/

theorem flatMap_pair_inj {ps qs : List (String × String)}
    (h : (ps.flatMap fun (p : String × String) => [p.1, p.2]) =
      qs.flatMap fun (p : String × String) => [p.1, p.2]) : ps = qs := by
  have hpart : PrefixFree (fun _ => True) fun (p : String × String) => [p.1, p.2] :=
    prefixFree_of_length 2 (fun _ => rfl) fun p q hpq => by simpa [Prod.ext_iff] using hpq
  have hne (p : String × String) : [p.1, p.2] ≠ [] := by simp
  exact flatMap_inj hpart hne (fun _ _ => trivial) (fun _ _ => trivial) h

/-- **The texts tell the command from the environment**: the number in front says where the one
ends and the other begins. -/
theorem identifyingTexts_inj (h : identifyingTexts command env = identifyingTexts command' env') :
    command = command' ∧ env = env' := by
  rw [identifyingTexts, identifyingTexts, List.cons_append, List.cons_append] at h
  obtain ⟨hcount, hrest⟩ := List.cons.inj h
  have hlength : command.length = command'.length := by
    have hindex := index?_toString command.length
    rw [hcount, index?_toString] at hindex
    exact (Option.some.inj hindex).symm
  obtain ⟨hcommand, henv⟩ := List.append_inj hrest hlength
  refine ⟨hcommand, TextMap.eq_of_perm ?_⟩
  rw [flatMap_pair_inj henv]

theorem generatedName_eq_iff_fingerprint :
    generatedName command env = generatedName command' env' ↔
      fingerprint (identifyingTexts command env) = fingerprint (identifyingTexts command' env') :=
  String.append_right_inj _

/-- **A generated name stands for one command and one environment**: different ones are fed to the
digest as different bytes, so that only a collision of the first eight bytes of the digest gives
them one name. The order in which variables are put in does not matter. -/
theorem generatedName_eq_iff
    (h : ∀ text ∈ identifyingTexts command env, Fingerprint.Fits text)
    (h' : ∀ text ∈ identifyingTexts command' env', Fingerprint.Fits text) :
    (Fingerprint.preimage (identifyingTexts command env) =
        Fingerprint.preimage (identifyingTexts command' env') ↔
      command = command' ∧ ∀ entry, entry ∈ env.pairs ↔ entry ∈ env'.pairs) ∧
    (generatedName command env = generatedName command' env' ↔
      (command = command' ∧ env = env') ∨
        Sha256.Collide (Fingerprint.preimage (identifyingTexts command env))
          (Fingerprint.preimage (identifyingTexts command' env'))) ∧
    ∀ entries entries' : List (String × String), (entries.map Prod.fst).Nodup →
      entries.Perm entries' →
      generatedName command (.ofList entries) = generatedName command (.ofList entries') := by
  refine ⟨?_, ?_, fun entries entries' hnodup hperm => ?_⟩
  · rw [← TextMap.eq_iff_mem]
    constructor
    · exact fun hpre => identifyingTexts_inj (Fingerprint.preimage_inj h h' hpre)
    · rintro ⟨rfl, rfl⟩
      rfl
  · rw [generatedName_eq_iff_fingerprint, fingerprint_eq_iff h h']
    refine or_congr_left ⟨identifyingTexts_inj, ?_⟩
    rintro ⟨rfl, rfl⟩
    rfl
  · rw [TextMap.ofList_eq_of_perm hnodup hperm]

/-- Arguments that look like a variable are told from that variable. -/
theorem generatedName_eq_iff_lookalike :
    Fingerprint.preimage (identifyingTexts ["sh"] (.ofList [("A", "b")])) ≠
        Fingerprint.preimage (identifyingTexts ["sh", "A", "b"] .empty) ∧
      generatedName ["sh"] (.ofList [("A", "b"), ("B", "c")]) =
        generatedName ["sh"] (.ofList [("B", "c"), ("A", "b")]) := by
  obtain ⟨hpre, _, horder⟩ := @generatedName_eq_iff ["sh"] ["sh", "A", "b"]
    (.ofList [("A", "b")]) .empty (by decide +kernel) (by decide +kernel)
  exact ⟨fun h => absurd (hpre.1 h).1 (by decide),
    horder [("A", "b"), ("B", "c")] [("B", "c"), ("A", "b")] (by decide) (.swap ..)⟩

/-! ## The name and the labels of a job -/

variable {s : Shortcuts} {op : PatchOp} {value : Document}

/-- **What the patch does at one place**, apart from the end of the environment. -/
theorem mem_toPatch_at_iff {place : List String} (hplace : place ≠ envPlace ++ ["-"]) :
    op ∈ s.toPatch ∧ op.path = render place ↔
      ∃ value, s.Sets place value ∧ op = .add (render place) value := by
  rw [mem_toPatch_iff]
  constructor
  · rintro ⟨⟨us, value, hsets, rfl⟩ | happend, hpath⟩
    · obtain rfl : us = place := render_injective hpath
      exact ⟨value, hsets, rfl⟩
    · obtain ⟨p, _, rfl⟩ := List.mem_map.1 happend
      exact absurd (render_injective hpath).symm hplace
  · rintro ⟨value, hsets, rfl⟩
    exact ⟨.inl ⟨place, value, hsets, rfl⟩, rfl⟩

theorem sets_name_iff :
    s.Sets ["metadata", "generateName"] value ↔ value = .string s.baseName := by
  constructor
  · exact fun h => h.unique .name rfl
  · rintro rfl
    exact .name

theorem sets_label_iff {key : String} : s.Sets ["metadata", "labels", key] value ↔
    ∃ given, (key, given) ∈ s.labels.pairs ∧ value = .string (slugifyLabel given) := by
  constructor
  · generalize hplace : ["metadata", "labels", key] = place
    intro h
    cases h with
    | label given =>
      simp at hplace
      exact ⟨_, hplace ▸ given, rfl⟩
    | _ => simp [containerPlace, podPlace] at hplace
  · rintro ⟨given, hgiven, rfl⟩
    exact .label hgiven

theorem isWordChar_of_mem_hexDigits {d : Char} (h : d ∈ Fingerprint.hexDigits) :
    Slug.isWordChar d = true := by
  have hall : Fingerprint.hexDigits.all Slug.isWordChar = true := by decide
  exact List.all_eq_true.1 hall d h

theorem generatedName_mem_language (command : List String) (env : TextMap) :
    (generatedName command env).toList ∈ Slug.language := by
  have hfirst : "kubejob".toList ∈ Slug.word := by
    have hall : "kubejob".toList.all Slug.isWordChar = true := by decide
    exact Slug.mem_word_iff.2 ⟨by decide, List.all_eq_true.1 hall⟩
  have hsecond : (fingerprint (identifyingTexts command env)).toList ∈ Slug.word := by
    refine Slug.mem_word_iff.2 ⟨fun hnil => ?_, fun d hd =>
      isWordChar_of_mem_hexDigits (mem_hexDigits_of_mem_fingerprint d hd)⟩
    have hlength := length_fingerprint (identifyingTexts command env)
    rw [← String.length_toList, hnil] at hlength
    cases hlength
  refine Slug.mem_language_iff_words.2 ⟨_, [_], hfirst, List.forall_mem_singleton.2 hsecond, ?_⟩
  rw [generatedName, String.toList_append, Slug.dashed, List.flatMap_singleton]
  rfl

theorem length_generatedName (command : List String) (env : TextMap) :
    (generatedName command env).length = 24 := by
  rw [generatedName, String.length_append, length_fingerprint]
  rfl

theorem baseName_of_slug {text : String} (hname : s.name = some text)
    (hslug : slugifyName text ≠ "") : s.baseName = slugifyName text := by
  rw [baseName, hname]
  exact if_neg hslug

theorem baseName_of_no_slug (h : ∀ text, s.name = some text → slugifyName text = "") :
    s.baseName = generatedName s.command s.env := by
  rw [baseName]
  cases hname : s.name with
  | none => rfl
  | some text => exact if_pos (h text hname)

theorem baseName_cases (s : Shortcuts) :
    (∃ text, s.name = some text ∧ slugifyName text ≠ "" ∧ s.baseName = slugifyName text) ∨
      s.baseName = generatedName s.command s.env := by
  by_cases h : ∃ text, s.name = some text ∧ slugifyName text ≠ ""
  · obtain ⟨text, hname, hslug⟩ := h
    exact .inl ⟨text, hname, hslug, baseName_of_slug hname hslug⟩
  · exact .inr (baseName_of_no_slug fun text hname =>
      by_contra fun hslug => h ⟨text, hname, hslug⟩)

theorem isSlug_baseName (s : Shortcuts) : Slug.IsSlug s.baseName.toList := by
  rcases s.baseName_cases with ⟨text, _, hslug, h⟩ | h
  · rw [h]
    exact (Slug.slugify_cases text Slug.nameLength).resolve_left fun hnil =>
      hslug (String.toList_eq_nil_iff.1 hnil)
  · rw [h]
    exact Slug.mem_language_iff.1 (generatedName_mem_language s.command s.env)

theorem length_baseName_le (s : Shortcuts) : s.baseName.length ≤ Slug.nameLength := by
  rcases s.baseName_cases with ⟨text, _, _, h⟩ | h
  · rw [h]
    exact Slug.length_slugify_le text Slug.nameLength
  · rw [h, length_generatedName]
    decide

/-- **The server accepts every name and every label of the patch.** -/
theorem toPatch_names (s : Shortcuts) :
    (∃ name : String,
      (∀ op, op ∈ s.toPatch ∧ op.path = "/metadata/generateName" ↔
        op = .add "/metadata/generateName" (.string name)) ∧
      name ≠ "" ∧ name.length ≤ 45 ∧ name.toList ∈ Slug.language ∧
      (∀ text, s.name = some text → slugifyName text ≠ "" → name = slugifyName text) ∧
      ((∀ text, s.name = some text → slugifyName text = "") →
        ∃ digits : String, name = "kubejob-" ++ digits ∧ digits.length = 16 ∧
          ∀ d ∈ digits.toList, d ∈ "0123456789abcdef".toList)) ∧
    ∀ key : String,
      (∀ op, op ∈ s.toPatch ∧ op.path = Pointer.child "/metadata/labels" key ↔
        ∃ given, (key, given) ∈ s.labels.pairs ∧
          op = .add (Pointer.child "/metadata/labels" key) (.string (slugifyLabel given))) ∧
      ∀ given, (slugifyLabel given = "" ∨ (slugifyLabel given).toList ∈ Slug.language) ∧
        (slugifyLabel given).length ≤ 63 := by
  refine ⟨⟨s.baseName, fun op => ?_, fun hnil => ?_, s.length_baseName_le,
    Slug.mem_language_iff.2 s.isSlug_baseName, fun text => baseName_of_slug, fun h => ?_⟩,
    fun key => ⟨fun op => ?_, fun given => ⟨?_, Slug.length_slugify_le given Slug.labelLength⟩⟩⟩
  · have hpath : render ["metadata", "generateName"] = "/metadata/generateName" := by
      decide +kernel
    rw [← hpath, mem_toPatch_at_iff (by decide)]
    simp only [sets_name_iff, exists_eq_left]
  · exact s.isSlug_baseName.ne_nil (String.toList_eq_nil_iff.2 hnil)
  · exact ⟨_, baseName_of_no_slug h, length_fingerprint _, mem_hexDigits_of_mem_fingerprint⟩
  · rw [← render_label, mem_toPatch_at_iff (by simp [envPlace])]
    simp only [sets_label_iff]
    constructor
    · rintro ⟨_, ⟨given, hgiven, rfl⟩, rfl⟩
      exact ⟨given, hgiven, rfl⟩
    · rintro ⟨given, hgiven, rfl⟩
      exact ⟨_, ⟨given, hgiven, rfl⟩, rfl⟩
  · exact (Slug.slugify_cases given Slug.labelLength).imp String.toList_eq_nil_iff.1
      Slug.mem_language_iff.2

/-- A name of symbols alone gives way to a fingerprint. -/
theorem toPatch_names_symbols :
    ∃ digits : String, digits.length = 16 ∧
      .add "/metadata/generateName" (.string ("kubejob-" ++ digits)) ∈
        toPatch { standard with name := some "!?" } := by
  have hslug : ∀ text, some "!?" = some text → slugifyName text = "" := by
    rintro _ ⟨⟩
    decide +kernel
  obtain ⟨⟨name, hop, _, _, _, _, hdigits⟩, _⟩ := toPatch_names { standard with name := some "!?" }
  obtain ⟨digits, rfl, hlength, _⟩ := hdigits hslug
  exact ⟨digits, hlength, ((hop _).2 rfl).1⟩

end Shortcuts

end BatchRun
