import BatchRun.Proofs.Document.Pointer
import BatchRun.Proofs.Document.Proper

/-!
# The children of a document

The members of an object and the items of an array alike are reached by one token each.

* `Document.children`: the tokens with what they lead to;
* **`Document.mem_children_iff`**, `Document.nodup_children`: they are what `Document.step?` finds,
  each token once;
* `Document.Proper.induction_children`: induction from the children to the document;
* `Document.places`, `Document.mem_places`: whatever can be resolved is among all places;
* **`Document.same_of_alikeAt`**: documents that are alike at every place are equal.
-/

namespace BatchRun

namespace Document

/-- Items with the tokens that lead to them, from index `i` on. -/
def itemNodes (i : Nat) : List Document → List (String × Document)
  | [] => []
  | x :: xs => (toString i, x) :: itemNodes (i + 1) xs

/-- The tokens that lead on from a document, with what they lead to. -/
def children : Document → List (String × Document)
  | .object ms => ms
  | .array xs => itemNodes 0 xs
  | _ => []

theorem mem_itemNodes_iff {i : Nat} {xs : List Document} {k : String} {v : Document} :
    (k, v) ∈ itemNodes i xs ↔ ∃ j, k = toString (i + j) ∧ xs[j]? = some v := by
  induction xs generalizing i with
  | nil => simp [itemNodes]
  | cons x xs ih =>
    rw [itemNodes, List.mem_cons, ih]
    constructor
    · rintro (h | ⟨j, hk, hv⟩)
      · cases h
        exact ⟨0, rfl, rfl⟩
      · exact ⟨j + 1, by rw [hk, Nat.add_right_comm, Nat.add_assoc], hv⟩
    · rintro ⟨_ | j, hk, hv⟩
      · cases hv
        exact .inl (by rw [hk, Nat.add_zero])
      · exact .inr ⟨j, by rw [hk, Nat.add_right_comm, Nat.add_assoc], hv⟩

theorem nodup_itemNodes (i : Nat) (xs : List Document) : ((itemNodes i xs).map Prod.fst).Nodup := by
  induction xs generalizing i with
  | nil => exact List.nodup_nil
  | cons x xs ih =>
    refine List.nodup_cons.2 ⟨fun hmem => ?_, ih (i + 1)⟩
    obtain ⟨⟨k, v⟩, hkv, hk⟩ := List.mem_map.1 hmem
    obtain ⟨j, rfl, _⟩ := mem_itemNodes_iff.1 hkv
    have hij : i + 1 + j = i := by simpa using congrArg Pointer.index? hk
    omega

variable {d : Document}

/-- **The children of a proper document are what one token leads to.** -/
theorem mem_children_iff (hd : d.Proper) {k : String} {v : Document} :
    (k, v) ∈ d.children ↔ d.step? k = some v := by
  cases d with
  | object ms => exact (Members.get?_eq_some_iff hd.distinct_keys).symm
  | array xs =>
    rw [children, mem_itemNodes_iff, step?, Option.bind_eq_some_iff]
    simp only [Pointer.index?_eq_some_iff, Nat.zero_add]
  | _ => simp [children, step?]

theorem nodup_children (hd : d.Proper) : (d.children.map Prod.fst).Nodup := by
  cases d with
  | object ms => exact hd.distinct_keys
  | array xs => exact nodup_itemNodes 0 xs
  | _ => exact List.nodup_nil

theorem Proper.of_mem_children (hd : d.Proper) {n : String × Document} (hn : n ∈ d.children) :
    n.2.Proper := by
  cases d with
  | object ms => exact hd.of_mem_members hn
  | array xs =>
    obtain ⟨j, _, hj⟩ := mem_itemNodes_iff.1 hn
    exact hd.of_mem (List.mem_of_getElem? hj)
  | _ => cases hn

theorem Proper.step? {k : String} {v : Document} (hd : d.Proper) (hv : d.step? k = some v) :
    v.Proper := hd.of_mem_children ((mem_children_iff hd).2 hv)

theorem Proper.resolve? {us : List String} {v : Document} (hd : d.Proper)
    (hv : resolve? us d = some v) : v.Proper := by
  induction us generalizing d with
  | nil =>
    cases hv
    exact hd
  | cons k us ih =>
    obtain ⟨w, hw, hv⟩ := Option.bind_eq_some_iff.1 hv
    exact ih (hd.step? hw) hv

@[elab_as_elim] theorem Proper.induction_children {motive : (d : Document) → d.Proper → Prop}
    (node : ∀ (d : Document) (hd : d.Proper),
      (∀ n (hn : n ∈ d.children), motive n.2 (hd.of_mem_children hn)) → motive d hd)
    {d : Document} (hd : d.Proper) : motive d hd := by
  induction hd with
  | @array xs items ih =>
    refine node _ (.array items) fun n hn => ?_
    obtain ⟨j, _, hj⟩ := mem_itemNodes_iff.1 hn
    exact ih n.2 (List.mem_of_getElem? hj)
  | @object ms distinct values ih => exact node _ (.object distinct values) ih
  | _ => exact node _ (by constructor) nofun

/-! ## All places -/

mutual

/-- The places of a document. -/
def places : Document → List (List String)
  | .object ms => [] :: memberPlaces ms
  | .array xs => [] :: itemPlaces 0 xs
  | _ => [[]]

/-- The places below the members of an object. -/
def memberPlaces : Members → List (List String)
  | [] => []
  | (k, v) :: rest => (places v).map (k :: ·) ++ memberPlaces rest

/-- The places below the items of an array, from index `i` on. -/
def itemPlaces (i : Nat) : List Document → List (List String)
  | [] => []
  | x :: xs => (places x).map (toString i :: ·) ++ itemPlaces (i + 1) xs

end

theorem nil_mem_places (d : Document) : [] ∈ places d := by
  cases d <;> simp [places]

theorem mem_memberPlaces {ms : Members} {k : String} {v : Document} {us : List String}
    (hv : (k, v) ∈ ms) (hus : us ∈ places v) : k :: us ∈ memberPlaces ms := by
  induction ms with
  | nil => cases hv
  | cons n ms ih =>
    obtain ⟨k', v'⟩ := n
    rw [memberPlaces, List.mem_append]
    rcases List.mem_cons.1 hv with h | h
    · cases h
      exact .inl (List.mem_map_of_mem hus)
    · exact .inr (ih h)

theorem mem_itemPlaces {i j : Nat} {xs : List Document} {x : Document} {us : List String}
    (hx : xs[j]? = some x) (hus : us ∈ places x) : toString (i + j) :: us ∈ itemPlaces i xs := by
  induction xs generalizing i j with
  | nil => cases hx
  | cons y ys ih =>
    rw [itemPlaces, List.mem_append]
    cases j with
    | zero =>
      cases hx
      exact .inl (List.mem_map_of_mem hus)
    | succ j =>
      rw [Nat.add_succ, ← Nat.succ_add]
      exact .inr (ih hx)

theorem mem_places {us : List String} {x : Document} (h : resolve? us d = some x) :
    us ∈ places d := by
  induction us generalizing d with
  | nil => exact nil_mem_places d
  | cons k us ih =>
    obtain ⟨y, hy, hx⟩ := Option.bind_eq_some_iff.1 h
    cases d with
    | object ms => exact List.mem_cons_of_mem _ (mem_memberPlaces (Members.mem_of_get? hy) (ih hx))
    | array xs =>
      obtain ⟨i, hi, hxi⟩ := Option.bind_eq_some_iff.1 hy
      have hitem := mem_itemPlaces (i := 0) hxi (ih hx)
      rw [Nat.zero_add, ← Pointer.index?_eq_some_iff.1 hi] at hitem
      exact List.mem_cons_of_mem _ hitem
    | _ => cases hy

/-! ## Equality by places -/

/-- Two documents are objects both or arrays both, or equal. -/
inductive Alike : Document → Document → Prop where
  | object (ms ns : Members) : Alike (.object ms) (.object ns)
  | array (xs ys : List Document) : Alike (.array xs) (.array ys)
  | same {x y : Document} (h : same x y = true) : Alike x y

/-- Both documents have nothing at a place, or what they have there is alike. -/
def AlikeAt (d e : Document) (place : List String) : Prop :=
  Option.Rel Alike (resolve? place d) (resolve? place e)

theorem alikeAt_of_eq {e : Document} {place : List String} (hd : d.Proper)
    (h : resolve? place e = resolve? place d) : AlikeAt d e place := by
  rw [AlikeAt, h]
  cases hx : resolve? place d with
  | none => exact .none
  | some x => exact .some (.same (same_refl (hd.resolve? hx)))

/-- **Proper documents that are alike at every place are equal.** -/
theorem same_of_alikeAt {e : Document} (hd : d.Proper) (he : e.Proper)
    (h : ∀ place, AlikeAt d e place) : same d e = true := by
  induction hd using Proper.induction_children generalizing e with
  | node d hd ih =>
    -- below one token both have nothing, or values that are equal by the induction
    have hstep (k : String) : Agree (d.step? k) (e.step? k) := by
      have hroot := h [k]
      rw [AlikeAt, resolve?, resolve?] at hroot
      cases hv : d.step? k with
      | none =>
        cases hw : e.step? k with
        | none => exact .none
        | some w =>
          rw [hv, hw] at hroot
          cases hroot
      | some v =>
        cases hw : e.step? k with
        | none =>
          rw [hv, hw] at hroot
          cases hroot
        | some w =>
          refine .some (ih (k, v) ((mem_children_iff hd).2 hv) (he.step? hw) fun place => ?_)
          have hplace := h (k :: place)
          rwa [AlikeAt, resolve?, resolve?, hv, hw] at hplace
    have hroot : Alike d e := Option.rel_some_some.1 (h [])
    cases hroot with
    | same hsame => exact hsame
    | object ms ns => exact (same_object_iff hd.distinct_keys he.distinct_keys).2 hstep
    | array xs ys =>
      refine same_array_of_agree fun i => ?_
      simpa [Document.step?] using hstep (toString i)

end Document

end BatchRun
