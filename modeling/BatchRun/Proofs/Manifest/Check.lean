import BatchRun.Manifest.Compose
import BatchRun.Proofs.Manifest.Survey

/-!
# What the check of a base manifest answers

* `Lists`: strictly ascending texts, exactly those with a property, `lists_sortTexts`;
* `lists_missingPlaces`, `lists_conflictingPlaces`: the two reports on a manifest;
* `checkPlaces_of_covers`, `checkPlaces_of_not_covers`: what is asked of a manifest;
* `Checked`: the three answers to a base, **`checkBase_eq_iff`**: the check gives the one that is
  right, `checkBase_eq_ok_iff`.
-/

namespace BatchRun

open Document Pointer

/-! ## Sorted lists of texts -/

/-- The texts are strictly ascending and are exactly those with a property. -/
def Lists (Holds : String → Prop) (texts : List String) : Prop :=
  texts.Pairwise (fun (a b : String) => a < b) ∧ ∀ text, text ∈ texts ↔ Holds text

variable {Holds : String → Prop} {texts texts' : List String}

theorem Lists.unique (h : Lists Holds texts) (h' : Lists Holds texts') : texts = texts' := by
  have hnodup {xs : List String} (hx : Lists Holds xs) : xs.Nodup := by
    refine hx.1.imp fun {a b} hlt => ?_
    rintro rfl
    exact String.lt_irrefl a hlt
  have hperm : texts.Perm texts' := (List.perm_ext_iff_of_nodup (hnodup h) (hnodup h')).2
    fun text => (h.2 text).trans (h'.2 text).symm
  exact hperm.eq_of_pairwise (fun _ _ _ _ hab hba => absurd (String.lt_trans hab hba)
    (String.lt_irrefl _)) h.1 h'.1

theorem Lists.ne_nil_iff (h : Lists Holds texts) : texts ≠ [] ↔ ∃ text, Holds text := by
  rw [ne_eq, List.eq_nil_iff_forall_not_mem]
  simp only [h.2, not_forall, not_not]

theorem lists_sortTexts (hnodup : texts.Nodup) (hmem : ∀ text, text ∈ texts ↔ Holds text) :
    Lists Holds (Validate.sortTexts texts) := by
  have hperm : (Validate.sortTexts texts).Perm texts := List.mergeSort_perm _ _
  have hsorted : (Validate.sortTexts texts).Pairwise fun (a b : String) => a ≤ b := by
    have h : (Validate.sortTexts texts).Pairwise fun (a b : String) => decide (a ≤ b) = true :=
      List.pairwise_mergeSort (by simpa using fun a b c => String.le_trans)
        (by simpa using String.le_total) texts
    simpa using h
  refine ⟨?_, fun text => hperm.mem_iff.trans (hmem text)⟩
  exact hsorted.imp₂ (fun _ _ hle hne => Std.lt_of_le_of_ne hle hne) (hperm.nodup_iff.2 hnodup)

theorem Reports.lists {report : String → Document → String} {S : List String → Document → Prop}
    (h : Reports report [] S texts)
    (hinj : ∀ us vs x y, S us x → S vs y → report (render us) x = report (render vs) y → us = vs) :
    Lists (fun text => ∃ us x, S us x ∧ report (render us) x = text) (Validate.sortTexts texts) := by
  obtain ⟨nodes, hnodup, hmem, rfl⟩ := h
  refine lists_sortTexts ?_ fun text => ?_
  · refine List.Nodup.map_on ?_ (hnodup.of_map _)
    rintro ⟨us, x⟩ hx ⟨vs, y⟩ hy heq
    have huv : us = vs := hinj us vs x y ((hmem us x).1 hx) ((hmem vs y).1 hy) heq
    exact List.inj_on_of_nodup_map hnodup hx hy huv
  · simp [← hmem]

/-! ## The two reports -/

/-- The document lacks the place that a pointer leads to, and no place on the way. -/
def ReportsLack (template d : Document) (pointer : String) : Prop :=
  ∃ place, Outermost template d place ∧ render place = pointer

/-- The text says where a leaf of the template holds something else, and what it has to hold. -/
def ReportsConflict (template d : Document) (text : String) : Prop :=
  ∃ place x, Differs template d place x ∧ Validate.conflictText (render place) x = text

theorem proper_template : Template.document.Proper := by
  simp [Template.document, Template.podSpec, Template.container]

theorem lists_missingPlaces (d : Document) :
    Lists (ReportsLack Template.document d) (missingPlaces d) := by
  have h := (Validate.reports_missing proper_template d []).lists
    fun us vs _ _ _ _ heq => render_injective heq
  refine ⟨h.1, fun pointer => (h.2 pointer).trans ?_⟩
  constructor
  · rintro ⟨us, x, ⟨hout, _⟩, htext⟩
    exact ⟨us, hout, htext⟩
  · rintro ⟨us, hout, htext⟩
    obtain ⟨x, hx, _⟩ := hout.1
    exact ⟨us, x, ⟨hout, hx⟩, htext⟩

theorem toList_conflictText (pointer : String) (x : Document) :
    (Validate.conflictText pointer x).toList =
      pointer.toList ++ ' ' :: ("must have value ".toList ++ x.toJson.toList) := by
  simp only [Validate.conflictText, toString, String.toList_append, List.append_assoc]
  rfl

theorem takeWhile_conflictText {pointer : String} (h : ' ' ∉ pointer.toList) (x : Document) :
    (Validate.conflictText pointer x).toList.takeWhile (· ≠ ' ') = pointer.toList := by
  have hpos : ∀ c ∈ pointer.toList, decide (c ≠ ' ') = true := by
    rintro c hc
    rw [decide_eq_true_eq]
    rintro rfl
    exact h hc
  rw [toList_conflictText, List.takeWhile_append_of_pos hpos]
  simp

theorem conflictText_injective {p q : String} {x y : Document} (hp : ' ' ∉ p.toList)
    (hq : ' ' ∉ q.toList) (h : Validate.conflictText p x = Validate.conflictText q y) : p = q := by
  rw [← String.toList_inj, ← takeWhile_conflictText hp x, h, takeWhile_conflictText hq y]

theorem blank_notMem_template {place : List String} {x : Document}
    (h : resolve? place Template.document = some x) : ' ' ∉ (render place).toList := by
  have hall : ∀ us ∈ places Template.document, ' ' ∉ renderChars us := by decide +kernel
  rw [toList_render]
  exact hall place (mem_places h)

theorem lists_conflictingPlaces {d : Document} (hd : d.Proper) (h : Covers Template.document d) :
    Lists (ReportsConflict Template.document d) (conflictingPlaces d) :=
  (Validate.reports_conflicts proper_template hd h []).lists fun _ _ _ _ hx hy htext =>
    render_injective (conflictText_injective (blank_notMem_template hx.2.1)
      (blank_notMem_template hy.2.1) htext)

/-! ## The checks -/

variable {d : Document}

theorem missingPlaces_eq_nil_iff : missingPlaces d = [] ↔ Covers Template.document d := by
  rw [← not_iff_not, ← ne_eq, (lists_missingPlaces d).ne_nil_iff, covers_iff_outermost]
  simp [ReportsLack]

theorem checkPlaces_of_covers (h : Covers Template.document d) : checkPlaces d = .ok () := by
  rw [checkPlaces, missingPlaces_eq_nil_iff.2 h]

theorem checkPlaces_of_not_covers (h : ¬ Covers Template.document d) :
    checkPlaces d = .error (.missingPlaces (missingPlaces d)) := by
  rw [checkPlaces]
  split
  · rename_i hnil
    exact absurd (missingPlaces_eq_nil_iff.1 hnil) h
  · rfl

theorem checkBase_of_not_covers (h : ¬ Covers Template.document d) :
    checkBase d = .error (.missingPlaces (missingPlaces d)) := by
  rw [checkBase]
  split
  · rename_i hnil
    exact absurd (missingPlaces_eq_nil_iff.1 hnil) h
  · rfl

theorem checkBase_of_covers (h : Covers Template.document d) : checkBase d =
    if conflictingPlaces d = [] then .ok () else .error (.conflictingPlaces (conflictingPlaces d)) := by
  rw [checkBase, missingPlaces_eq_nil_iff.2 h]
  cases conflictingPlaces d <;> rfl

theorem conflictingPlaces_eq_nil_iff (hd : d.Proper) (h : Covers Template.document d) :
    conflictingPlaces d = [] ↔ ∀ place x, ¬ Differs Template.document d place x := by
  rw [← not_iff_not, ← ne_eq, (lists_conflictingPlaces hd h).ne_nil_iff]
  simp [ReportsConflict]

/-- The three answers to a base, by how a template stands to it: it is accepted if the template
embeds in it; otherwise the error names the outermost places that it lacks, and only if it lacks
none, the leaves that hold something else. -/
inductive Checked (template base : Document) : Except ManifestError Unit → Prop where
  | accepted (embeds : Embeds template base) : Checked template base (.ok ())
  | lacking {paths : List String} (lacks : ∃ place, Lacks template base place)
      (lists : Lists (ReportsLack template base) paths) :
      Checked template base (.error (.missingPlaces paths))
  | conflicting {conflicts : List String} (complete : ∀ place, ¬ Lacks template base place)
      (differs : ∃ place x, Differs template base place x)
      (lists : Lists (ReportsConflict template base) conflicts) :
      Checked template base (.error (.conflictingPlaces conflicts))

theorem checked_checkBase (hd : d.Proper) : Checked Template.document d (checkBase d) := by
  by_cases hcovers : Covers Template.document d
  · rw [checkBase_of_covers hcovers]
    split
    · rename_i hnil
      exact .accepted (embeds_iff.2 ⟨hcovers, (conflictingPlaces_eq_nil_iff hd hcovers).1 hnil⟩)
    · rename_i hne
      rw [conflictingPlaces_eq_nil_iff hd hcovers] at hne
      exact .conflicting (covers_iff.1 hcovers) (by simpa using hne)
        (lists_conflictingPlaces hd hcovers)
  · rw [checkBase_of_not_covers hcovers]
    rw [covers_iff] at hcovers
    exact .lacking (by simpa using hcovers) (lists_missingPlaces d)

theorem Checked.unique {template : Document} {r r' : Except ManifestError Unit}
    (h : Checked template d r) (h' : Checked template d r') : r = r' := by
  cases h with
  | accepted embeds =>
    cases h' with
    | accepted _ => rfl
    | lacking lacks _ =>
      obtain ⟨place, hplace⟩ := lacks
      exact absurd hplace (covers_iff.1 embeds.covers place)
    | conflicting _ differs _ =>
      obtain ⟨place, x, hx⟩ := differs
      exact absurd hx embeds.not_differs
  | lacking lacks lists =>
    obtain ⟨place, hplace⟩ := lacks
    cases h' with
    | accepted embeds => exact absurd hplace (covers_iff.1 embeds.covers place)
    | lacking _ lists' => rw [lists.unique lists']
    | conflicting complete _ _ => exact absurd hplace (complete place)
  | conflicting complete differs lists =>
    obtain ⟨place, x, hx⟩ := differs
    cases h' with
    | accepted embeds => exact absurd hx embeds.not_differs
    | lacking lacks _ =>
      obtain ⟨place, hplace⟩ := lacks
      exact absurd hplace (complete place)
    | conflicting _ _ lists' => rw [lists.unique lists']

theorem checkBase_eq_ok_iff (hd : d.Proper) :
    checkBase d = .ok () ↔ Embeds Template.document d := by
  constructor
  · intro h
    have hchecked := checked_checkBase hd
    rw [h] at hchecked
    cases hchecked with
    | accepted embeds => exact embeds
  · exact fun h => (checked_checkBase hd).unique (.accepted h)

/-- **The check of a base gives the answer that is right for it**, and no other. -/
theorem checkBase_eq_iff {base : Document} (h : base.Proper) (r : Except ManifestError Unit) :
    checkBase base = r ↔ Checked Template.document base r := by
  constructor
  · rintro rfl
    exact checked_checkBase h
  · exact fun hr => (checked_checkBase h).unique hr

/-- A second container, a number for the kind and a restart policy that the template forbids. -/
def conflicted : Document :=
  .object [("kind", .int 1), ("apiVersion", .string "batch/v1"),
    ("metadata", .object [("name", .null), ("labels", .object [("team", .string "a")])]),
    ("spec", .object [("completions", .int 1), ("parallelism", .int 1),
      ("template", .object [("spec", .object
        [("restartPolicy", .array []),
         ("containers", .array
          [.object [("env", .array [.null]), ("name", .string "kubejob")], .null])])])])]

theorem checkBase_eq_iff_conflicted :
    Checked Template.document conflicted (.error (.conflictingPlaces
      ["/kind must have value \"Job\"",
        "/spec/template/spec/restartPolicy must have value \"Never\""])) := by
  have hmissing : missingPlaces conflicted = [] := by decide +kernel
  have hraw : (diff conflicted Template.document).filterMap Validate.conflict? =
      ["/kind must have value \"Job\"",
        "/spec/template/spec/restartPolicy must have value \"Never\""] := by decide +kernel
  refine (checkBase_eq_iff (by simp [conflicted]) _).1 ?_
  rw [checkBase, hmissing, conflictingPlaces, hraw, Validate.sortTexts,
    List.mergeSort_of_pairwise (by decide)]

end BatchRun
