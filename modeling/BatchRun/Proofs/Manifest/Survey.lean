import BatchRun.Manifest.Validate
import BatchRun.Proofs.Document.Children
import BatchRun.Proofs.Document.Embedding
import Mathlib.Data.List.Nodup

/-!
# What the two passes over a template report

One pass goes through the template and notes what a document lacks, the other one compares the
document with the template and notes the values that would have to be replaced. Either of them
reports nodes of the template, each once.

* `Reports`: texts that report the nodes of a template with some property, `Reports.children`;
* `Validate.missing_eq`, `Validate.conflicts_eq`: one level of each pass, for objects and arrays
  alike;
* **`Validate.reports_missing`**: the first pass reports the outermost places that are lacked;
* **`Validate.reports_conflicts`**: where the places are covered, the second pass reports the leaves
  that differ.
-/

namespace BatchRun

open Document Pointer

/-- The texts report, one each, the nodes below a place that have a property; a report is made from
the pointer to the node and the value of the template there. -/
def Reports (report : String → Document → String) (place : List String)
    (Holds : List String → Document → Prop) (texts : List String) : Prop :=
  ∃ nodes : List (List String × Document), (nodes.map Prod.fst).Nodup ∧
    (∀ us x, (us, x) ∈ nodes ↔ Holds us x) ∧
    texts = nodes.map fun (n : List String × Document) => report (render (place ++ n.1)) n.2

namespace Reports

variable {report : String → Document → String} {place : List String}
  {Holds Holds' Below : List String → Document → Prop} {texts texts' : List String}

theorem congr (h : Reports report place Holds texts) (hiff : ∀ us x, Holds' us x ↔ Holds us x) :
    Reports report place Holds' texts := by
  obtain ⟨nodes, hnodup, hmem, htexts⟩ := h
  exact ⟨nodes, hnodup, fun us x => (hmem us x).trans (hiff us x).symm, htexts⟩

theorem nil (h : ∀ us x, ¬ Holds us x) : Reports report place Holds [] :=
  ⟨[], List.nodup_nil, fun us x => by simp [h us x], rfl⟩

theorem single (v : Document) (h : ∀ us x, Holds us x ↔ us = [] ∧ x = v) :
    Reports report place Holds [report (render place) v] :=
  ⟨[([], v)], by simp, fun us x => by simp [h us x], by simp⟩

theorem cons {k : String} (hfirst : Reports report (place ++ [k]) Below texts)
    (hrest : Reports report place Holds texts') (hk : ∀ us x, ¬ Holds (k :: us) x) :
    Reports report place (fun us x => (∃ vs, us = k :: vs ∧ Below vs x) ∨ Holds us x)
      (texts ++ texts') := by
  obtain ⟨nodes, hnodup, hmem, rfl⟩ := hfirst
  obtain ⟨nodes', hnodup', hmem', rfl⟩ := hrest
  refine ⟨nodes.map (fun (n : List String × Document) => (k :: n.1, n.2)) ++ nodes', ?_,
    fun us x => ?_, ?_⟩
  · rw [List.map_append, List.map_map]
    refine List.nodup_append.2 ⟨?_, hnodup', ?_⟩
    · have hcons := hnodup.map (f := List.cons k) fun _ _ h => List.tail_eq_of_cons_eq h
      rwa [List.map_map] at hcons
    · rintro us hus vs hvs rfl
      obtain ⟨n, _, rfl⟩ := List.mem_map.1 hus
      obtain ⟨⟨ws, x⟩, hx, hws⟩ := List.mem_map.1 hvs
      have hws' : ws = k :: n.1 := hws
      exact hk n.1 x (hws' ▸ (hmem' ws x).1 hx)
  · refine List.mem_append.trans (or_congr ?_ (hmem' us x))
    simp [← hmem, and_comm, eq_comm]
  · simp [Function.comp_def]

theorem children {nodes : List (String × Document)} (hnodup : (nodes.map Prod.fst).Nodup)
    {Below : String × Document → List String → Document → Prop}
    {below : String × Document → List String}
    (h : ∀ n ∈ nodes, Reports report (place ++ [n.1]) (Below n) (below n)) :
    Reports report place (fun us x => ∃ n ∈ nodes, ∃ vs, us = n.1 :: vs ∧ Below n vs x)
      (nodes.flatMap below) := by
  induction nodes with
  | nil => exact nil fun us x => by simp
  | cons n nodes ih =>
    obtain ⟨hn, hnodup⟩ := List.nodup_cons.1 hnodup
    obtain ⟨hfirst, hrest⟩ := List.forall_mem_cons.1 h
    rw [List.flatMap_cons]
    refine (cons hfirst (ih hnodup hrest) ?_).congr fun us x => by simp
    rintro us x ⟨m, hm, vs, hvs, _⟩
    exact hn (List.mem_map.2 ⟨m, hm, (List.cons.inj hvs).1.symm⟩)

end Reports

namespace Validate

variable {t d v w : Document} {place : List String} {k : String}

/-! ## What is lacked -/

/-- What is noted of one child of the template, given what the document has there. -/
def missingChild (pointer : String) (v : Document) : Option Document → List String
  | some w => missing pointer v w
  | none => [pointer]

theorem missingMembers_eq (ms ns : Members) :
    missingMembers (render place) ms ns = ms.flatMap fun n =>
      missingChild (render (place ++ [n.1])) n.2 (ns.get? n.1) := by
  induction ms with
  | nil => rfl
  | cons n ms ih =>
    obtain ⟨k, v⟩ := n
    rw [missingMembers, ih, List.flatMap_cons, render_append]
    cases ns.get? k <;> rfl

theorem missingItems_eq (i : Nat) (xs ys : List Document) :
    missingItems (render place) i xs (ys.drop i) = (itemNodes i xs).flatMap fun n =>
      missingChild (render (place ++ [n.1])) n.2 ((Document.array ys).step? n.1) := by
  induction xs generalizing i with
  | nil => simp [missingItems, itemNodes]
  | cons x xs ih =>
    have hstep : (Document.array ys).step? (toString i) = ys[i]? := by
      rw [step?, index?_toString, Option.bind_some]
    rw [itemNodes, List.flatMap_cons, ← ih, hstep, render_append, ← item_eq_child]
    cases hy : ys[i]? with
    | none =>
      have hlen : ys.length ≤ i := List.getElem?_eq_none_iff.1 hy
      rw [List.drop_eq_nil_of_le hlen, List.drop_eq_nil_of_le (by omega)]
      rfl
    | some y =>
      obtain ⟨hlt, rfl⟩ := List.getElem?_eq_some_iff.1 hy
      rw [List.drop_eq_getElem_cons hlt]
      rfl

theorem missing_eq (h : t.Fits d) :
    missing (render place) t d = t.children.flatMap fun n =>
      missingChild (render (place ++ [n.1])) n.2 (d.step? n.1) := by
  cases t with
  | object ms =>
    obtain ⟨ns, rfl⟩ := h
    exact missingMembers_eq ms ns
  | array xs =>
    obtain ⟨ys, rfl⟩ := h
    exact missingItems_eq 0 xs ys
  | _ => simp [missing, children]

theorem missing_of_not_fits (h : ¬ t.Fits d) (pointer : String) :
    missing pointer t d = [pointer] := by
  cases t with
  | object ms =>
    cases d with
    | object ns => exact absurd ⟨ns, rfl⟩ h
    | _ => rfl
  | array xs =>
    cases d with
    | array ys => exact absurd ⟨ys, rfl⟩ h
    | _ => rfl
  | _ => exact absurd trivial h

theorem reports_missingChild
    (ih : ∀ w, Reports (fun pointer _ => pointer) place
      (fun us x => Outermost v w us ∧ resolve? us v = some x) (missing (render place) v w))
    (o : Option Document) :
    Reports (fun pointer _ => pointer) place
      (fun us x => ((o = none ∧ us = []) ∨ ∃ w, o = some w ∧ Outermost v w us) ∧
        resolve? us v = some x)
      (missingChild (render place) v o) := by
  cases o with
  | none =>
    refine Reports.single v fun us x => ?_
    constructor
    · rintro ⟨⟨_, rfl⟩ | ⟨w, hw, _⟩, hx⟩
      · exact ⟨rfl, (Option.some.inj hx).symm⟩
      · cases hw
    · rintro ⟨rfl, rfl⟩
      exact ⟨.inl ⟨rfl, rfl⟩, rfl⟩
  | some w => exact (ih w).congr fun us x => by simp

/-- **The first pass reports the outermost places that a document lacks**, each once. -/
theorem reports_missing (ht : t.Proper) (d : Document) (place : List String) :
    Reports (fun pointer _ => pointer) place
      (fun us x => Outermost t d us ∧ resolve? us t = some x) (missing (render place) t d) := by
  induction ht using Proper.induction_children generalizing d place with
  | node t ht ih =>
    by_cases hfits : t.Fits d
    · rw [missing_eq hfits]
      refine (Reports.children (nodup_children ht) fun n hn =>
        reports_missingChild (fun w => ih n hn w _) (d.step? n.1)).congr fun us x => ?_
      cases us with
      | nil => simp [outermost_nil_iff, hfits]
      | cons k us =>
        rw [outermost_cons_iff hfits]
        constructor
        · rintro ⟨⟨v, hv, hout⟩, hx⟩
          rw [resolve?, hv, Option.bind_some] at hx
          exact ⟨(k, v), (mem_children_iff ht).2 hv, us, rfl, hout, hx⟩
        · rintro ⟨⟨k', v⟩, hmem, vs, hvs, hout, hx⟩
          cases hvs
          have hv := (mem_children_iff ht).1 hmem
          exact ⟨⟨v, hv, hout⟩, by rw [resolve?, hv]; exact hx⟩
    · rw [missing_of_not_fits hfits]
      refine Reports.single t fun us x => ?_
      rw [outermost_iff_of_not_fits hfits]
      constructor
      · rintro ⟨rfl, hx⟩
        exact ⟨rfl, (Option.some.inj hx).symm⟩
      · rintro ⟨rfl, rfl⟩
        exact ⟨rfl, rfl⟩

/-! ## What differs -/

/-- The wording of a report. -/
def conflictText (pointer : String) (value : Document) : String :=
  s!"{pointer} must have value {value.toJson}"

/-- What the comparison of a document with a template reports. -/
def conflicts (pointer : String) (d t : Document) : List String :=
  (Diff.between pointer d t).filterMap conflict?

/-- What the comparison reports below one child of the document, given what the template has
there. -/
def conflictsChild (pointer : String) (w : Document) : Option Document → List String
  | some v => conflicts pointer w v
  | none => []

theorem conflicts_additions (pointer : String) (i : Nat) (xs : List Document) :
    (Diff.additions pointer i xs).filterMap conflict? = [] := by
  induction xs generalizing i with
  | nil => rfl
  | cons x xs ih => exact ih (i + 1)

theorem conflicts_removals (pointer : String) (i n : Nat) :
    (Diff.removals pointer i n).filterMap conflict? = [] := by
  induction n with
  | zero => rfl
  | succ n ih => exact ih

theorem conflicts_surplus (pointer : String) (i : Nat) (ys : List Document) :
    (Diff.items pointer i ys []).filterMap conflict? = [] := by
  cases ys with
  | nil => rfl
  | cons y ys => exact conflicts_removals pointer i (ys.length + 1)

theorem conflicts_newMembers (pointer : String) (old ms : Members) :
    (Diff.newMembers pointer old ms).filterMap conflict? = [] := by
  induction ms with
  | nil => rfl
  | cons n ms ih =>
    obtain ⟨k, v⟩ := n
    rw [Diff.newMembers]
    split
    · exact ih
    · exact ih

theorem conflicts_members (ns ms : Members) :
    (Diff.members (render place) ns ms).filterMap conflict? = ns.flatMap fun n =>
      conflictsChild (render (place ++ [n.1])) n.2 (ms.get? n.1) := by
  induction ns with
  | nil => rfl
  | cons n ns ih =>
    obtain ⟨k, w⟩ := n
    rw [Diff.members, List.filterMap_append, ih, List.flatMap_cons, render_append]
    cases ms.get? k <;> rfl

theorem conflicts_items (i : Nat) (ys xs : List Document) :
    (Diff.items (render place) i ys (xs.drop i)).filterMap conflict? =
      (itemNodes i ys).flatMap fun n =>
        conflictsChild (render (place ++ [n.1])) n.2 ((Document.array xs).step? n.1) := by
  induction ys generalizing i with
  | nil => exact conflicts_additions _ i _
  | cons y ys ih =>
    have hstep : (Document.array xs).step? (toString i) = xs[i]? := by
      rw [step?, index?_toString, Option.bind_some]
    rw [itemNodes, List.flatMap_cons, ← ih, hstep, render_append, ← item_eq_child]
    cases hx : xs[i]? with
    | none =>
      have hlen : xs.length ≤ i := List.getElem?_eq_none_iff.1 hx
      rw [List.drop_eq_nil_of_le hlen, List.drop_eq_nil_of_le (by omega), conflicts_surplus,
        conflicts_surplus]
      rfl
    | some x =>
      obtain ⟨hlt, rfl⟩ := List.getElem?_eq_some_iff.1 hx
      rw [List.drop_eq_getElem_cons hlt, Diff.items, List.filterMap_append]
      rfl

/-- One level of the comparison: the children of the document, one after another. -/
theorem conflicts_eq (hleaf : ¬ t.IsLeaf) (h : t.Fits d) :
    conflicts (render place) d t = d.children.flatMap fun n =>
      conflictsChild (render (place ++ [n.1])) n.2 (t.step? n.1) := by
  cases t with
  | object ms =>
    obtain ⟨ns, rfl⟩ := h
    rw [conflicts, Diff.between, List.filterMap_append, conflicts_newMembers, List.append_nil]
    exact conflicts_members ns ms
  | array xs =>
    obtain ⟨ys, rfl⟩ := h
    exact conflicts_items 0 ys xs
  | _ => exact absurd trivial hleaf

theorem conflicts_of_isLeaf (h : t.IsLeaf) (pointer : String) (d : Document) :
    conflicts pointer d t = if same d t then [] else [conflictText pointer t] := by
  have hbetween : Diff.between pointer d t = if same d t then [] else [.replace pointer t] := by
    cases t with
    | object _ | array _ => exact h.elim
    | _ => rw [Diff.between] <;> simp
  rw [conflicts, hbetween]
  split <;> rfl

/-- **The second pass reports the leaves that differ**, each once, where no place is lacked. -/
theorem reports_conflicts (ht : t.Proper) (hd : d.Proper) (hcovers : Covers t d)
    (place : List String) :
    Reports conflictText place (Differs t d) (conflicts (render place) d t) := by
  induction ht using Proper.induction_children generalizing d place with
  | node t ht ih =>
    by_cases hleaf : t.IsLeaf
    · rw [conflicts_of_isLeaf hleaf]
      have hbelow (k : String) (us : List String) (x : Document) : ¬ Differs t d (k :: us) x := by
        rw [differs_cons_iff]
        rintro ⟨v, _, hv, _⟩
        rw [hleaf.step?_eq_none] at hv
        cases hv
      split
      · rename_i hsame
        refine Reports.nil fun us x => ?_
        cases us with
        | nil => simp [differs_nil_iff, hsame]
        | cons k us => exact hbelow k us x
      · rename_i hsame
        refine Reports.single t fun us x => ?_
        cases us with
        | nil => simp [differs_nil_iff, hleaf, hsame]
        | cons k us => simp [hbelow]
    · rw [conflicts_eq hleaf hcovers.fits]
      have hchild (n : String × Document) (hn : n ∈ d.children) :
          Reports conflictText (place ++ [n.1])
            (fun us x => ∃ v, t.step? n.1 = some v ∧ Differs v n.2 us x)
            (conflictsChild (render (place ++ [n.1])) n.2 (t.step? n.1)) := by
        cases hv : t.step? n.1 with
        | none => exact Reports.nil fun us x => by simp
        | some v =>
          obtain ⟨w, hw, hcovers'⟩ := hcovers.step? hv
          obtain rfl : w = n.2 := by
            have hn' := (mem_children_iff hd).1 hn
            rw [hw] at hn'
            exact Option.some.inj hn'
          refine (ih (n.1, v) ((mem_children_iff ht).2 hv) (hd.of_mem_children hn) hcovers' _).congr
            fun us x => by simp
      refine (Reports.children (nodup_children hd) hchild).congr fun us x => ?_
      cases us with
      | nil => simp [differs_nil_iff, hleaf]
      | cons k us =>
        rw [differs_cons_iff]
        constructor
        · rintro ⟨v, w, hv, hw, hdiff⟩
          exact ⟨(k, w), (mem_children_iff hd).2 hw, us, rfl, v, hv, hdiff⟩
        · rintro ⟨⟨k', w⟩, hmem, vs, hvs, v, hv, hdiff⟩
          cases hvs
          exact ⟨v, w, hv, (mem_children_iff hd).1 hmem, hdiff⟩

end Validate

end BatchRun
