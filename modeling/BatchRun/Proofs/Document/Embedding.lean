import BatchRun.Proofs.Document.Children
import BatchRun.Proofs.Document.Place

/-!
# Embedding a template in a document

A template embeds in a document that has at least its members and items and the same leaves.

* `Document.Embeds`;
* `Document.Covers`, `Document.Lacks`, `Document.Outermost`: the places of a template, whatever
  the leaves hold, and the first ones on their ways that are not there;
* `Document.Differs`: the leaves that hold something else;
* `outermost_cons_iff`, `differs_cons_iff`: one token of a place at a time;
* **`Document.embeds_iff`**: a template embeds if its places are covered and no leaf differs.
-/

namespace BatchRun

namespace Document

/-- Where the first document is an object or an array, so is the second. -/
def Fits : Document → Document → Prop
  | .object _, y => ∃ ms, y = .object ms
  | .array _, y => ∃ xs, y = .array xs
  | _, _ => True

/-- The document is neither an object nor an array. -/
def IsLeaf : Document → Prop
  | .object _ | .array _ => False
  | _ => True

/-- The document has every place of the template, with an object or an array where the template
has one. -/
def Covers (template d : Document) : Prop :=
  ∀ place x, resolve? place template = some x → ∃ y, resolve? place d = some y ∧ x.Fits y

/-- The document has nothing at a place of the template, or no object or array where the template
has one. -/
def Lacks (template d : Document) (place : List String) : Prop :=
  ∃ x, resolve? place template = some x ∧ ¬ ∃ y, resolve? place d = some y ∧ x.Fits y

/-- The document lacks a place and none of those on the way to it. -/
def Outermost (template d : Document) (place : List String) : Prop :=
  Lacks template d place ∧ ∀ above, above <+: place → Lacks template d above → above = place

/-- At a leaf of the template the document holds something else. -/
def Differs (template d : Document) (place : List String) (x : Document) : Prop :=
  x.IsLeaf ∧ resolve? place template = some x ∧
    ∃ y, resolve? place d = some y ∧ same y x = false

/-- The document has at least the members and items of the template, and the same leaves. -/
structure Embeds (template d : Document) : Prop where
  object : ∀ place ms, resolve? place template = some (.object ms) →
    ∃ ns : Members, resolve? place d = some (.object ns) ∧ Members.keys ms ⊆ ns.keys
  array : ∀ place xs, resolve? place template = some (.array xs) →
    ∃ ys, resolve? place d = some (.array ys) ∧ xs.length ≤ ys.length
  leaf : ∀ place x, x.IsLeaf → resolve? place template = some x →
    ∃ y, resolve? place d = some y ∧ same y x = true

variable {t d v w x : Document} {k : String} {us : List String}

@[simp] theorem not_isLeaf_object (ms : Members) : ¬ (Document.object ms).IsLeaf := id

@[simp] theorem not_isLeaf_array (xs : List Document) : ¬ (Document.array xs).IsLeaf := id

theorem IsLeaf.step?_eq_none (h : x.IsLeaf) (k : String) : x.step? k = none := by
  cases x with
  | object _ | array _ => exact h.elim
  | _ => rfl

theorem covers_iff : Covers t d ↔ ∀ place, ¬ Lacks t d place := by
  constructor
  · rintro h place ⟨x, hx, hnot⟩
    exact hnot (h place x hx)
  · intro h place x hx
    by_contra hnot
    exact h place ⟨x, hx, hnot⟩

/-! ## One token at a time -/

theorem lacks_nil_iff : Lacks t d [] ↔ ¬ t.Fits d := by simp [Lacks, resolve?]

theorem lacks_cons_iff : Lacks t d (k :: us) ↔ ∃ v, t.step? k = some v ∧
    ((d.step? k = none ∧ ∃ x, resolve? us v = some x) ∨
      ∃ w, d.step? k = some w ∧ Lacks v w us) := by
  cases hv : t.step? k with
  | none => simp [Lacks, resolve?, hv]
  | some v => cases hw : d.step? k <;> simp [Lacks, resolve?, hv, hw]

theorem outermost_nil_iff : Outermost t d [] ↔ ¬ t.Fits d := by
  rw [Outermost, lacks_nil_iff]
  exact and_iff_left fun above habove _ => List.prefix_nil.1 habove

theorem outermost_iff_of_not_fits (h : ¬ t.Fits d) : Outermost t d us ↔ us = [] := by
  constructor
  · intro hus
    exact (hus.2 [] List.nil_prefix (lacks_nil_iff.2 h)).symm
  · rintro rfl
    exact outermost_nil_iff.2 h

theorem outermost_cons_iff (h : t.Fits d) : Outermost t d (k :: us) ↔ ∃ v, t.step? k = some v ∧
    ((d.step? k = none ∧ us = []) ∨ ∃ w, d.step? k = some w ∧ Outermost v w us) := by
  -- the root is there, so that only the ways on from the first token count
  have hroot : ¬ Lacks t d [] := fun hl => lacks_nil_iff.1 hl h
  have habove : Outermost t d (k :: us) ↔ Lacks t d (k :: us) ∧
      ∀ vs, vs <+: us → Lacks t d (k :: vs) → vs = us := by
    refine and_congr_right fun _ => ⟨fun hall vs hvs hl => ?_, fun hall above hpre hl => ?_⟩
    · exact List.tail_eq_of_cons_eq (hall (k :: vs) (List.cons_prefix_cons.2 ⟨rfl, hvs⟩) hl)
    · cases above with
      | nil => exact absurd hl hroot
      | cons a vs =>
        obtain ⟨rfl, hvs⟩ := List.cons_prefix_cons.1 hpre
        rw [hall vs hvs hl]
  rw [habove]
  simp only [lacks_cons_iff]
  cases hv : t.step? k with
  | none => simp
  | some v =>
    cases hw : d.step? k with
    | some w => simp [Outermost]
    | none =>
      simp only [Option.some.injEq, reduceCtorEq, false_and, exists_false, or_false, true_and,
        exists_eq_left']
      constructor
      · rintro ⟨_, hall⟩
        exact (hall [] List.nil_prefix ⟨v, rfl⟩).symm
      · rintro rfl
        exact ⟨⟨v, rfl⟩, fun vs hvs _ => List.prefix_nil.1 hvs⟩

theorem exists_outermost (h : Lacks t d us) : ∃ vs, Outermost t d vs := by
  induction us generalizing t d with
  | nil => exact ⟨[], outermost_nil_iff.2 (lacks_nil_iff.1 h)⟩
  | cons k us ih =>
    by_cases hfits : t.Fits d
    · obtain ⟨v, hv, ⟨hw, _⟩ | ⟨w, hw, hlacks⟩⟩ := lacks_cons_iff.1 h
      · exact ⟨[k], (outermost_cons_iff hfits).2 ⟨v, hv, .inl ⟨hw, rfl⟩⟩⟩
      · obtain ⟨vs, hvs⟩ := ih hlacks
        exact ⟨k :: vs, (outermost_cons_iff hfits).2 ⟨v, hv, .inr ⟨w, hw, hvs⟩⟩⟩
    · exact ⟨[], outermost_nil_iff.2 hfits⟩

theorem covers_iff_outermost : Covers t d ↔ ∀ place, ¬ Outermost t d place := by
  rw [covers_iff]
  constructor
  · exact fun h place hout => h place hout.1
  · intro h place hlacks
    obtain ⟨vs, hvs⟩ := exists_outermost hlacks
    exact h vs hvs

theorem Covers.fits (h : Covers t d) : t.Fits d := by
  obtain ⟨y, hy, hfits⟩ := h [] t rfl
  cases hy
  exact hfits

theorem Covers.step? (h : Covers t d) (hv : t.step? k = some v) :
    ∃ w, d.step? k = some w ∧ Covers v w := by
  have hplace (place : List String) (x : Document) (hx : resolve? place v = some x) :
      ∃ y, (d.step? k).bind (resolve? place) = some y ∧ x.Fits y :=
    h (k :: place) x (by rw [resolve?, hv]; exact hx)
  cases hw : d.step? k with
  | none =>
    obtain ⟨y, hy, _⟩ := hplace [] v rfl
    rw [hw] at hy
    cases hy
  | some w =>
    rw [hw] at hplace
    exact ⟨w, rfl, hplace⟩

/-- Where the template has an object or an array, so have all documents that cover it. -/
theorem Covers.alikeAt {e : Document} (hd : Covers t d) (he : Covers t e)
    (hx : resolve? us t = some x) (hleaf : ¬ x.IsLeaf) : AlikeAt d e us := by
  obtain ⟨v, hv, hxv⟩ := hd us x hx
  obtain ⟨w, hw, hxw⟩ := he us x hx
  rw [AlikeAt, hv, hw]
  cases x with
  | object _ =>
    obtain ⟨ms, rfl⟩ := hxv
    obtain ⟨ns, rfl⟩ := hxw
    exact .some (.object ms ns)
  | array _ =>
    obtain ⟨xs, rfl⟩ := hxv
    obtain ⟨ys, rfl⟩ := hxw
    exact .some (.array xs ys)
  | _ => exact absurd trivial hleaf

theorem exists_not_isLeaf_above {place : List String} (hx : resolve? us d = some x)
    (hleaf : ¬ x.IsLeaf) (h : place <+: us) : ∃ y, resolve? place d = some y ∧ ¬ y.IsLeaf := by
  obtain ⟨rest, rfl⟩ := h
  rw [resolve?_append] at hx
  obtain ⟨y, hy, hyx⟩ := Option.bind_eq_some_iff.1 hx
  refine ⟨y, hy, fun hl => ?_⟩
  cases rest with
  | nil =>
    cases hyx
    exact hleaf hl
  | cons k rest =>
    obtain ⟨z, hz, _⟩ := resolve?_cons_eq_some hyx
    rw [hl.step?_eq_none] at hz
    cases hz

theorem differs_nil_iff : Differs t d [] x ↔ x = t ∧ t.IsLeaf ∧ same d t = false := by
  constructor
  · rintro ⟨hleaf, ht, y, hy, hsame⟩
    cases ht
    cases hy
    exact ⟨rfl, hleaf, hsame⟩
  · rintro ⟨rfl, hleaf, hsame⟩
    exact ⟨hleaf, rfl, d, rfl, hsame⟩

theorem differs_cons_iff : Differs t d (k :: us) x ↔
    ∃ v w, t.step? k = some v ∧ d.step? k = some w ∧ Differs v w us x := by
  cases hv : t.step? k with
  | none => simp [Differs, resolve?, hv]
  | some v => cases hw : d.step? k <;> simp [Differs, resolve?, hv, hw]

/-! ## Embedding -/

theorem Embeds.covers (h : Embeds t d) : Covers t d := by
  intro place x hx
  cases x with
  | object ms =>
    obtain ⟨ns, hns, _⟩ := h.object place ms hx
    exact ⟨_, hns, ns, rfl⟩
  | array xs =>
    obtain ⟨ys, hys, _⟩ := h.array place xs hx
    exact ⟨_, hys, ys, rfl⟩
  | _ =>
    obtain ⟨y, hy, _⟩ := h.leaf place _ (by exact trivial) hx
    exact ⟨y, hy, trivial⟩

theorem Embeds.not_differs (h : Embeds t d) : ¬ Differs t d us x := by
  rintro ⟨hleaf, hx, y, hy, hsame⟩
  obtain ⟨y', hy', hsame'⟩ := h.leaf us x hleaf hx
  rw [hy] at hy'
  cases hy'
  rw [hsame] at hsame'
  cases hsame'

theorem exists_step?_of_mem_keys {ms : Members} (h : k ∈ ms.keys) :
    ∃ v, (Document.object ms).step? k = some v := by
  cases hv : ms.get? k with
  | none => exact absurd h (Members.get?_eq_none_iff.1 hv)
  | some v => exact ⟨v, hv⟩

/-- **A template embeds if its places are covered and no leaf differs.** -/
theorem embeds_iff : Embeds t d ↔ Covers t d ∧ ∀ place x, ¬ Differs t d place x := by
  refine ⟨fun h => ⟨h.covers, fun _ _ => h.not_differs⟩, fun ⟨hcovers, hsame⟩ => ?_⟩
  -- what a node of the template has below it is a place of the template too
  have hbelow {place : List String} {x y v : Document} (hx : resolve? place t = some x)
      (hy : resolve? place d = some y) (k : String) (hv : x.step? k = some v) :
      ∃ w, y.step? k = some w := by
    have hplace : resolve? (place ++ [k]) t = some v := by
      rw [resolve?_append, hx, Option.bind_some, resolve?, hv]
      rfl
    obtain ⟨w, hw, _⟩ := hcovers _ _ hplace
    rw [resolve?_append, hy, Option.bind_some] at hw
    obtain ⟨z, hz, _⟩ := resolve?_cons_eq_some hw
    exact ⟨z, hz⟩
  refine ⟨fun place ms hx => ?_, fun place xs hx => ?_, fun place x hleaf hx => ?_⟩
  · obtain ⟨y, hy, ns, rfl⟩ := hcovers place _ hx
    refine ⟨ns, hy, fun k hk => ?_⟩
    obtain ⟨v, hv⟩ := exists_step?_of_mem_keys hk
    obtain ⟨w, hw⟩ := hbelow hx hy k hv
    exact Members.mem_keys_of_get? hw
  · obtain ⟨y, hy, ys, rfl⟩ := hcovers place _ hx
    refine ⟨ys, hy, ?_⟩
    by_contra hlt
    have hlen : ys.length < xs.length := by omega
    obtain ⟨w, hw⟩ := hbelow (v := xs[ys.length]) hx hy (toString ys.length)
      (by simp [Document.step?, hlen])
    simp [Document.step?] at hw
  · obtain ⟨y, hy, _⟩ := hcovers place x hx
    refine ⟨y, hy, ?_⟩
    by_contra hne
    exact hsame place x ⟨hleaf, hx, y, hy, by simpa using hne⟩

end Document

end BatchRun
