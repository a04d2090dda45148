import BatchRun.Proofs.Document.Members
import Mathlib.Data.List.Forall2
import Mathlib.Data.List.Perm.Subperm

/-!
# Proper documents and their equality

In a proper document no object has two members of one key; whatever is read from a text is proper,
since a repeated key overwrites the earlier value.

* `Document.Proper`: the keys of every object are distinct, `proper_ofPairs`;
* `Document.same_refl`: a proper document is equal to itself;
* **`Document.same_object_iff`**: two objects are equal if every key leads to equal values or is
  missing in both.
-/

namespace BatchRun

namespace Document

/-- No object has two members of one key. -/
inductive Proper : Document → Prop where
  | null : Proper .null
  | bool (b : Bool) : Proper (.bool b)
  | int (i : Int) : Proper (.int i)
  | float (x : Binary64) : Proper (.float x)
  | string (s : String) : Proper (.string s)
  | array {xs : List Document} (items : ∀ x ∈ xs, Proper x) : Proper (.array xs)
  | object {ms : Members} (distinct : ms.keys.Nodup) (values : ∀ p ∈ ms, Proper p.2) :
      Proper (.object ms)

namespace Proper

variable {xs : List Document} {ms : Members}

theorem of_mem (h : Proper (.array xs)) {x : Document} (hx : x ∈ xs) : Proper x := by
  cases h with
  | array items => exact items x hx

theorem distinct_keys (h : Proper (.object ms)) : ms.keys.Nodup := by
  cases h with
  | object distinct _ => exact distinct

theorem of_mem_members (h : Proper (.object ms)) {p : String × Document} (hp : p ∈ ms) :
    Proper p.2 := by
  cases h with
  | object _ values => exact values p hp

theorem of_get? (h : Proper (.object ms)) {key : String} {v : Document}
    (hv : ms.get? key = some v) : Proper v := h.of_mem_members (Members.mem_of_get? hv)

end Proper

attribute [simp] Proper.null Proper.bool Proper.int Proper.float Proper.string

@[simp] theorem proper_array_iff {xs : List Document} :
    Proper (.array xs) ↔ ∀ x ∈ xs, Proper x := ⟨fun h _ hx => h.of_mem hx, .array⟩

@[simp] theorem proper_object_iff {ms : Members} :
    Proper (.object ms) ↔ ms.keys.Nodup ∧ ∀ p ∈ ms, Proper p.2 :=
  ⟨fun h => ⟨h.distinct_keys, fun _ hp => h.of_mem_members hp⟩, fun h => .object h.1 h.2⟩

theorem Proper.insert {ms : Members} {v : Document} (h : Proper (.object ms)) (key : String)
    (hv : v.Proper) : Proper (.object (ms.insert key v)) := by
  have hn := Members.nodup_insert key v h.distinct_keys
  refine .object hn fun p hp => ?_
  have hget := Members.get?_of_mem hn hp
  by_cases hk : p.1 = key
  · rw [hk, Members.get?_insert_self] at hget
    cases hget
    exact hv
  · rw [Members.get?_insert_of_ne _ _ hk] at hget
    exact h.of_get? hget

theorem proper_ofPairs {pairs : List (String × Document)} (h : ∀ p ∈ pairs, Proper p.2) :
    Proper (ofPairs pairs) := by
  have hfold (ms : Members) (hms : Proper (.object ms)) : Proper (.object
      (pairs.foldl (fun (ms : Members) (p : String × Document) => ms.insert p.1 p.2) ms)) := by
    induction pairs generalizing ms with
    | nil => exact hms
    | cons p rest ih =>
      obtain ⟨hp, hrest⟩ := List.forall_mem_cons.1 h
      exact ih hrest _ (hms.insert p.1 hp)
  exact hfold [] (by simp)

/-! ## Equality -/

theorem sameItems_iff {xs ys : List Document} :
    sameItems xs ys = true ↔ List.Forall₂ (fun x y => same x y = true) xs ys := by
  induction xs generalizing ys with
  | nil => cases ys <;> simp [sameItems]
  | cons x xs ih => cases ys <;> simp [sameItems, ih]

theorem sameMembers_iff {ms ns : Members} :
    sameMembers ms ns = true ↔ ∀ p ∈ ms, ∃ w, ns.get? p.1 = some w ∧ same p.2 w = true := by
  induction ms with
  | nil => simp [sameMembers]
  | cons p rest ih =>
    obtain ⟨k, v⟩ := p
    rw [sameMembers, Bool.and_eq_true, ih, List.forall_mem_cons]
    refine and_congr ?_ Iff.rfl
    cases ns.get? k <;> simp

/-- Two look-ups agree: both find nothing, or they find equal values. -/
def Agree (v w : Option Document) : Prop := Option.Rel (fun a b => same a b = true) v w

theorem agree_some_iff {v w : Document} : Agree (some v) (some w) ↔ same v w = true :=
  Option.rel_some_some

/-- **Two objects are equal if every key leads to equal values or is missing in both.** -/
theorem same_object_iff {ms ns : Members} (hm : ms.keys.Nodup) (hn : ns.keys.Nodup) :
    same (.object ms) (.object ns) = true ↔ ∀ key, Agree (ms.get? key) (ns.get? key) := by
  rw [same, Bool.and_eq_true, beq_iff_eq, sameMembers_iff]
  constructor
  · rintro ⟨hlen, hsame⟩ key
    have hsub : ms.keys ⊆ ns.keys := by
      intro k hk
      obtain ⟨p, hp, rfl⟩ := List.mem_map.1 hk
      obtain ⟨w, hw, _⟩ := hsame p hp
      exact Members.mem_keys_of_get? hw
    -- as many distinct keys on both sides, so none is left over on the right
    have hperm : ms.keys.Perm ns.keys :=
      (hm.subperm hsub).perm_of_length_le (by simp [Members.keys, hlen])
    cases hv : ms.get? key with
    | some v =>
      obtain ⟨w, hw, hvw⟩ := hsame (key, v) (Members.mem_of_get? hv)
      rw [hw]
      exact .some hvw
    | none =>
      have hkey : key ∉ ns.keys := fun h => Members.get?_eq_none_iff.1 hv (hperm.mem_iff.2 h)
      rw [Members.get?_eq_none_iff.2 hkey]
      exact .none
  · intro h
    have hkeys : ∀ k, k ∈ ms.keys ↔ k ∈ ns.keys := by
      intro k
      have hk := h k
      rw [← not_iff_not, ← Members.get?_eq_none_iff, ← Members.get?_eq_none_iff]
      generalize ms.get? k = v at hk ⊢
      generalize ns.get? k = w at hk ⊢
      cases hk <;> simp
    refine ⟨?_, fun p hp => ?_⟩
    · simpa [Members.keys] using ((List.perm_ext_iff_of_nodup hm hn).2 hkeys).length_eq
    · have hp' := h p.1
      rw [Members.get?_of_mem hm hp] at hp'
      generalize ns.get? p.1 = w at hp' ⊢
      cases hp' with
      | some hvw => exact ⟨_, rfl, hvw⟩

theorem same_array_of_agree {xs ys : List Document} (h : ∀ i : Nat, Agree xs[i]? ys[i]?) :
    same (.array xs) (.array ys) = true := by
  rw [same, sameItems_iff]
  induction xs generalizing ys with
  | nil =>
    cases ys with
    | nil => exact .nil
    | cons y ys => cases h 0
  | cons x xs ih =>
    cases ys with
    | nil => cases h 0
    | cons y ys =>
      have hhead : same x y = true := agree_some_iff.1 (h 0)
      exact .cons hhead (ih fun i => h (i + 1))

theorem same_refl {d : Document} (h : d.Proper) : same d d = true := by
  induction h with
  | null => rfl
  | bool b => simp [same]
  | int i => simp [same]
  | float x => simp [same, Binary64.same_self]
  | string s => simp [same]
  | @array xs _ ih => exact sameItems_iff.2 (List.forall₂_same.2 ih)
  | @object ms distinct _ ih =>
    rw [same_object_iff distinct distinct]
    intro key
    cases hv : ms.get? key with
    | none => exact .none
    | some v => exact .some (ih (key, v) (Members.mem_of_get? hv))

end Document

end BatchRun
