import BatchRun.Patch.Diff
import BatchRun.Proofs.Document.Children
import BatchRun.Proofs.Document.Frame
import Mathlib.Data.List.Nodup
import Mathlib.Data.List.Pairwise

/-!
# A difference is exact

A difference has one operation for each place where the two documents disagree first, and no other
operation: none can be left out, and none undoes or repeats what another one does.

* `Document.alikeAt_of_same`: equal documents are alike at every place;
* `PatchOp.Records`: what an operation says of the values at its place, `PatchOp.ApartFrom`;
* `Diff.part`, `Diff.Branches`: one level of a difference, for objects and arrays alike;
* `Diff.Exact`, `Diff.exact`: the operations below one place;
* **`diff_exact`**.
-/

namespace BatchRun

open Document Pointer

/-! ## Equal documents -/

namespace Document

variable {a b : Document}

theorem agree_getElem?_of_sameItems {xs ys : List Document} (h : sameItems xs ys = true) (i : Nat) :
    Agree xs[i]? ys[i]? := by
  rw [sameItems_iff] at h
  induction h generalizing i with
  | nil => exact .none
  | cons hxy _ ih =>
    cases i with
    | zero => exact .some hxy
    | succ i => exact ih i

theorem agree_step?_of_same (ha : a.Proper) (hb : b.Proper) (h : same a b = true) (k : String) :
    Agree (a.step? k) (b.step? k) := by
  cases a with
  | object ms =>
    cases b with
    | object ns => exact (same_object_iff ha.distinct_keys hb.distinct_keys).1 h k
    | _ => cases h
  | array xs =>
    cases b with
    | array ys =>
      rw [step?, step?]
      cases index? k with
      | none => exact .none
      | some i => exact agree_getElem?_of_sameItems h i
    | _ => cases h
  | _ =>
    cases b with
    | object | array => cases h
    | _ => exact .none

/-- **Equal documents are alike at every place.** -/
theorem alikeAt_of_same (ha : a.Proper) (hb : b.Proper) (h : same a b = true)
    (place : List String) : AlikeAt a b place := by
  induction place generalizing a b with
  | nil => exact .some (.same h)
  | cons k rest ih =>
    rw [AlikeAt, resolve?, resolve?]
    have hstep := agree_step?_of_same ha hb h k
    cases hv : a.step? k with
    | none =>
      rw [hv] at hstep
      cases hw : b.step? k with
      | none => exact .none
      | some w => rw [hw] at hstep; cases hstep
    | some v =>
      rw [hv] at hstep
      cases hw : b.step? k with
      | none => rw [hw] at hstep; cases hstep
      | some w =>
        rw [hw] at hstep
        exact ih (ha.step? hv) (hb.step? hw) (agree_some_iff.1 hstep)

@[simp] theorem apart_append_iff {ps ts us : List String} :
    Apart (ps ++ ts) (ps ++ us) ↔ Apart ts us := by
  simp [Apart, List.prefix_append_right_inj]

end Document

/-! ## What an operation says -/

namespace PatchOp

/-- What an operation says of the values that two documents have at its place: a value of the first
one only is removed, one of the second only is added, and one that is not alike in the two is
replaced. -/
inductive Records : Option Document → Option Document → PatchOp → Prop where
  | remove (path : String) (x : Document) : Records (some x) none (.remove path)
  | add (path : String) (y : Document) : Records none (some y) (.add path y)
  | replace (path : String) {x y : Document} (differ : ¬ Alike x y) :
      Records (some x) (some y) (.replace path y)

theorem Records.not_alike {x y : Option Document} {op : PatchOp} (h : op.Records x y) :
    ¬ Option.Rel Alike x y := by
  cases h with
  | remove | add => nofun
  | replace _ differ => exact fun hrel => differ (Option.rel_some_some.1 hrel)

/-- Neither of the places of two operations lies on the way to the other. -/
def ApartFrom (op op' : PatchOp) : Prop :=
  ∀ ts us, parse op.path = .ok ts → parse op'.path = .ok us → Document.Apart ts us

instance : Std.Symm ApartFrom := ⟨fun _ _ h ts us hts hus => (h us ts hus hts).symm⟩

theorem apart_of_paths {op op' : PatchOp} {ts us : List String} (hop : op.path = render ts)
    (hop' : op'.path = render us) (h : Document.Apart ts us) : op.ApartFrom op' := by
  intro ts' us' hts hus
  rw [hop, parse_render] at hts
  rw [hop', parse_render] at hus
  cases hts
  cases hus
  exact h

end PatchOp

namespace Diff

variable {place : List String} {a b : Document}

/-! ## One level -/

/-- The operations for one token, given what it leads to in the two documents. -/
def part (pointer : String) : Option Document → Option Document → Patch
  | some v, some w => between pointer v w
  | some _, none => [.remove pointer]
  | none, some w => [.add pointer w]
  | none, none => []

/-- The difference of two documents is made of the operations for the tokens that lead on from
them, one token after another. -/
def Branches (pointer : String) (a b : Document) : Prop :=
  ∃ ks : List String, ks.Nodup ∧ (∀ k, k ∉ ks → a.step? k = none ∧ b.step? k = none) ∧
    between pointer a b = ks.flatMap fun k => part (child pointer k) (a.step? k) (b.step? k)

theorem members_eq (pointer : String) (ms ns : Members) :
    members pointer ms ns =
      ms.flatMap fun n => part (child pointer n.1) (some n.2) (ns.get? n.1) := by
  induction ms with
  | nil => rfl
  | cons n ms ih =>
    obtain ⟨k, v⟩ := n
    rw [members, ih, List.flatMap_cons]
    cases ns.get? k <;> rfl

theorem newMembers_eq (pointer : String) (ms ns : Members) :
    newMembers pointer ms ns =
      (ns.filter fun n => (ms.get? n.1).isNone).flatMap fun n =>
        part (child pointer n.1) none (some n.2) := by
  induction ns with
  | nil => rfl
  | cons n ns ih =>
    obtain ⟨k, v⟩ := n
    rw [newMembers, List.filter_cons]
    cases hk : ms.get? k with
    | some w => exact ih
    | none => rw [ih]; rfl

theorem branches_object (pointer : String) {ms ns : Members} (hm : ms.keys.Nodup)
    (hn : ns.keys.Nodup) : Branches pointer (.object ms) (.object ns) := by
  let new : Members := ns.filter fun n => (ms.get? n.1).isNone
  have hnew (n : String × Document) : n ∈ new ↔ n ∈ ns ∧ ms.get? n.1 = none := by
    simp [new, List.mem_filter]
  refine ⟨ms.keys ++ new.keys, ?_, fun k hk => ?_, ?_⟩
  · refine List.nodup_append.2 ⟨hm, hn.sublist (List.filter_sublist.map _), ?_⟩
    rintro k hk _ hk' rfl
    obtain ⟨n, hmem, rfl⟩ := List.mem_map.1 hk'
    exact Members.get?_eq_none_iff.1 ((hnew n).1 hmem).2 hk
  · rw [List.mem_append, not_or] at hk
    have hms : ms.get? k = none := Members.get?_eq_none_iff.2 hk.1
    refine ⟨hms, Members.get?_eq_none_iff.2 fun hns => hk.2 ?_⟩
    obtain ⟨n, hmem, rfl⟩ := List.mem_map.1 hns
    exact Members.mem_keys_of_mem ((hnew n).2 ⟨hmem, hms⟩)
  · rw [between, members_eq, newMembers_eq, List.flatMap_append, Members.keys, Members.keys,
      List.flatMap_map, List.flatMap_map]
    refine congrArg₂ _ (List.flatMap_congr fun n hmem => ?_) (List.flatMap_congr fun n hmem => ?_)
    · rw [step?, step?, Members.get?_of_mem hm hmem]
    · obtain ⟨hns, hms⟩ := (hnew n).1 hmem
      rw [step?, step?, hms, Members.get?_of_mem hn hns]

/-- The operations for the items from an index on, given the index counted from there. -/
def itemPart (pointer : String) (i : Nat) (xs ys : List Document) (j : Nat) : Patch :=
  part (item pointer (i + j)) xs[j]? ys[j]?

theorem additions_eq (pointer : String) (i : Nat) (ys : List Document) :
    additions pointer i ys = (List.range ys.length).flatMap (itemPart pointer i [] ys) := by
  induction ys generalizing i with
  | nil => rfl
  | cons y ys ih =>
    rw [additions, ih, List.length_cons, List.range_succ_eq_map, List.flatMap_cons,
      List.flatMap_map]
    refine congrArg (_ :: ·) (List.flatMap_congr fun j _ => ?_)
    rw [itemPart, itemPart, Nat.add_assoc, Nat.add_comm 1]
    rfl

theorem removals_eq (pointer : String) (i : Nat) (xs : List Document) :
    removals pointer i xs.length =
      (List.range xs.length).reverse.flatMap (itemPart pointer i xs []) := by
  -- the last item goes first, so the count goes down from the length
  have hcount (n : Nat) (hn : n ≤ xs.length) : removals pointer i n =
      (List.range n).reverse.flatMap (itemPart pointer i xs []) := by
    induction n with
    | zero => rfl
    | succ n ih =>
      rw [removals, ih (by omega), List.range_succ, List.reverse_append, List.reverse_singleton,
        List.singleton_append, List.flatMap_cons, itemPart, List.getElem?_eq_getElem (by omega)]
      rfl
  exact hcount _ (Nat.le_refl _)

theorem exists_indices (pointer : String) (i : Nat) (xs ys : List Document) :
    ∃ js : List Nat, js.Nodup ∧ (∀ j, j ∉ js → xs[j]? = none ∧ ys[j]? = none) ∧
      items pointer i xs ys = js.flatMap (itemPart pointer i xs ys) := by
  induction xs generalizing i ys with
  | nil =>
    refine ⟨List.range ys.length, List.nodup_range, fun j hj => ?_, ?_⟩
    · exact ⟨rfl, List.getElem?_eq_none (by simpa using hj)⟩
    · rw [items, additions_eq]
  | cons x xs ih =>
    cases ys with
    | nil =>
      refine ⟨(List.range (xs.length + 1)).reverse, List.nodup_reverse.2 List.nodup_range,
        fun j hj => ?_, removals_eq pointer i (x :: xs)⟩
      exact ⟨List.getElem?_eq_none (by simpa using hj), rfl⟩
    | cons y ys =>
      obtain ⟨js, hnodup, hnone, hjs⟩ := ih (i + 1) ys
      refine ⟨0 :: js.map Nat.succ, ?_, fun j hj => ?_, ?_⟩
      · exact List.nodup_cons.2 ⟨by simp, hnodup.map fun _ _ => Nat.succ.inj⟩
      · cases j with
        | zero => simp at hj
        | succ j => exact hnone j (by simpa using hj)
      · rw [items, hjs, List.flatMap_cons, List.flatMap_map]
        refine congrArg₂ _ rfl (List.flatMap_congr fun j _ => ?_)
        rw [itemPart, itemPart, Nat.add_assoc, Nat.add_comm 1]
        rfl

theorem branches_array (pointer : String) (xs ys : List Document) :
    Branches pointer (.array xs) (.array ys) := by
  obtain ⟨js, hnodup, hnone, hjs⟩ := exists_indices pointer 0 xs ys
  refine ⟨js.map toString, hnodup.map fun i j h => ?_, fun k hk => ?_, ?_⟩
  · simpa using congrArg index? h
  · rw [step?, step?]
    cases hi : index? k with
    | none => exact ⟨rfl, rfl⟩
    | some i =>
      rw [index?_eq_some_iff] at hi
      exact hnone i fun hmem => hk (hi ▸ List.mem_map_of_mem hmem)
  · rw [between, hjs, List.flatMap_map]
    refine List.flatMap_congr fun j _ => ?_
    rw [itemPart, Nat.zero_add, item_eq_child, step?, step?, index?_toString]
    rfl

/-! ## All levels -/

/-- The operations are those for two values at a place: each of them records what the values have
below there, no two of them meet, and where the values are not alike, there is one at that place or
on the way to it. -/
structure Exact (place : List String) (x y : Option Document) (p : Patch) : Prop where
  records : ∀ op ∈ p, ∃ us, op.path = render (place ++ us) ∧
    op.Records (x.bind (resolve? us)) (y.bind (resolve? us))
  apart : p.Pairwise PatchOp.ApartFrom
  covers : ∀ us, ¬ Option.Rel Alike (x.bind (resolve? us)) (y.bind (resolve? us)) →
    ∃ op ∈ p, ∃ vs, op.path = render (place ++ vs) ∧ vs <+: us

variable {x y : Option Document} {op : PatchOp}

theorem Exact.single (hpath : op.path = render place) (h : op.Records x y) :
    Exact place x y [op] := by
  have hroot (z : Option Document) : z.bind (resolve? []) = z := by cases z <;> rfl
  refine ⟨fun op' hop' => ?_, List.pairwise_singleton _ _, fun us _ => ?_⟩
  · rw [List.mem_singleton.1 hop']
    exact ⟨[], by rw [hpath, List.append_nil], by rwa [hroot, hroot]⟩
  · exact ⟨op, List.mem_singleton_self op, [], by rw [hpath, List.append_nil], List.nil_prefix⟩

theorem Exact.nil (h : ∀ us, Option.Rel Alike (x.bind (resolve? us)) (y.bind (resolve? us))) :
    Exact place x y [] :=
  ⟨nofun, .nil, fun us hus => absurd (h us) hus⟩

theorem Exact.of_branches (halike : Alike a b) (h : Branches (render place) a b)
    (hparts : ∀ k, Exact (place ++ [k]) (a.step? k) (b.step? k)
      (part (render (place ++ [k])) (a.step? k) (b.step? k))) :
    Exact place (some a) (some b) (between (render place) a b) := by
  obtain ⟨ks, hnodup, hnone, hks⟩ := h
  simp only [← render_append] at hks
  rw [hks]
  refine ⟨fun op hop => ?_, List.pairwise_flatMap.2 ⟨fun k _ => (hparts k).apart, ?_⟩,
    fun us hus => ?_⟩
  · obtain ⟨k, _, hop⟩ := List.mem_flatMap.1 hop
    obtain ⟨us, hpath, hrecords⟩ := (hparts k).records op hop
    exact ⟨k :: us, by rw [hpath, List.append_assoc]; rfl, hrecords⟩
  · -- operations for different tokens part at these tokens
    refine hnodup.imp fun {k l} hkl op hop op' hop' => ?_
    obtain ⟨us, hus, _⟩ := (hparts k).records op hop
    obtain ⟨vs, hvs, _⟩ := (hparts l).records op' hop'
    refine PatchOp.apart_of_paths hus hvs ?_
    simp [hkl]
  · cases us with
    | nil => exact absurd (.some halike) hus
    | cons k us =>
      by_cases hk : k ∈ ks
      · obtain ⟨op, hop, vs, hpath, hpre⟩ := (hparts k).covers us hus
        refine ⟨op, List.mem_flatMap.2 ⟨k, hk, hop⟩, k :: vs, ?_,
          List.cons_prefix_cons.2 ⟨rfl, hpre⟩⟩
        rw [hpath, List.append_assoc]
        rfl
      · obtain ⟨ha, hb⟩ := hnone k hk
        refine absurd ?_ hus
        change Option.Rel Alike ((a.step? k).bind _) ((b.step? k).bind _)
        rw [ha, hb]
        exact .none

theorem Exact.of_replacement (ha : a.Proper) (hb : b.Proper)
    (hkind : Alike a b → same a b = true)
    (h : between (render place) a b = if same a b then [] else [.replace (render place) b]) :
    Exact place (some a) (some b) (between (render place) a b) := by
  rw [h]
  split
  · rename_i hsame
    exact .nil (alikeAt_of_same ha hb hsame)
  · rename_i hsame
    exact .single rfl (.replace _ fun halike => hsame (hkind halike))

/-- **The difference of two proper documents is exact at every place.** -/
theorem exact (ha : a.Proper) (hb : b.Proper) (place : List String) :
    Exact place (some a) (some b) (between (render place) a b) := by
  induction ha using Proper.induction_children generalizing b place with
  | node a ha ih =>
    have hparts (k : String) : Exact (place ++ [k]) (a.step? k) (b.step? k)
        (part (render (place ++ [k])) (a.step? k) (b.step? k)) := by
      cases hv : a.step? k with
      | none =>
        cases hw : b.step? k with
        | none => exact .nil fun _ => .none
        | some w => exact .single rfl (.add _ w)
      | some v =>
        cases hw : b.step? k with
        | none => exact .single rfl (.remove _ v)
        | some w => exact ih (k, v) ((mem_children_iff ha).2 hv) (hb.step? hw) _
    cases a with
    | object ms =>
      cases b with
      | object ns =>
        exact .of_branches (.object ms ns)
          (branches_object _ ha.distinct_keys hb.distinct_keys) hparts
      | _ => exact .of_replacement ha hb (fun | .same h => h) (by rw [between] <;> simp)
    | array xs =>
      cases b with
      | array ys => exact .of_branches (.array xs ys) (branches_array _ xs ys) hparts
      | _ => exact .of_replacement ha hb (fun | .same h => h) (by rw [between] <;> simp)
    | _ => exact .of_replacement ha hb (fun | .same h => h) (by rw [between] <;> simp)

end Diff

/-- **A difference is exact.** It is empty just for equal documents; no two of its operations have
the same place or one on the way to the other; each of them records what the two documents have at
its place; and wherever the documents are not alike, exactly one operation is at that place or on
the way to it. -/
theorem diff_exact {a b : Document} (ha : a.Proper) (hb : b.Proper) :
    (diff a b = [] ↔ same a b = true) ∧
      (diff a b).Pairwise (fun op op' => op.path ≠ op'.path ∧ op.ApartFrom op') ∧
      (∀ op ∈ diff a b, ∃ place, parse op.path = .ok place ∧
        op.Records (resolve? place a) (resolve? place b)) ∧
      ∀ pointer place, parse pointer = .ok place → ¬ AlikeAt a b place →
        ∃! op, op ∈ diff a b ∧ ∃ above, parse op.path = .ok above ∧ above <+: place := by
  obtain ⟨hrecords, hapart, hcovers⟩ := Diff.exact ha hb []
  have hplace (op : PatchOp) (hop : op ∈ diff a b) : ∃ place, parse op.path = .ok place ∧
      op.Records (resolve? place a) (resolve? place b) := by
    obtain ⟨place, hpath, hop⟩ := hrecords op hop
    exact ⟨place, by rw [hpath]; exact parse_render _, hop⟩
  have hne {op op' : PatchOp} (hop : op ∈ diff a b) (h : op.ApartFrom op') :
      op.path ≠ op'.path := by
    intro heq
    obtain ⟨place, hparse, _⟩ := hplace op hop
    exact (h place place hparse (heq ▸ hparse)).1 (List.prefix_refl place)
  refine ⟨⟨fun hnil => ?_, fun hsame => ?_⟩, ?_, hplace, fun _ place _ hdiffer => ?_⟩
  · refine same_of_alikeAt ha hb fun place => ?_
    by_contra hdiffer
    obtain ⟨op, hop, _⟩ := hcovers place hdiffer
    have hop' : op ∈ diff a b := hop
    rw [hnil] at hop'
    cases hop'
  · refine List.eq_nil_iff_forall_not_mem.2 fun op hop => ?_
    obtain ⟨place, _, hop⟩ := hplace op hop
    exact hop.not_alike (alikeAt_of_same ha hb hsame place)
  · exact hapart.imp_of_mem fun hop _ h => ⟨hne hop h, h⟩
  · obtain ⟨op, hop, above, hpath, hpre⟩ := hcovers place hdiffer
    have hparse : parse op.path = .ok above := by rw [hpath]; exact parse_render _
    refine ⟨op, ⟨hop, above, hparse, hpre⟩, ?_⟩
    rintro op' ⟨hop', above', hparse', hpre'⟩
    by_contra hother
    -- two ways to one place cannot be apart
    have happart := hapart.forall hop' hop hother above' above hparse' hparse
    exact (List.prefix_or_prefix_of_prefix hpre' hpre).elim happart.1 happart.2

/-- The value below a key with a slash and one with a tilde becomes an array, and an item is
dropped beside it: one operation is on the way to what has been below that key. -/
theorem diff_exact_nested :
    (Document.object [("a/b", .array [.object [("~", .object [("0", .null)])], .int 3])]).Proper ∧
      (Document.object [("a/b", .array [.object [("~", .array [])]])]).Proper ∧
      ∃! op, op ∈ diff
          (.object [("a/b", .array [.object [("~", .object [("0", .null)])], .int 3])])
          (.object [("a/b", .array [.object [("~", .array [])]])]) ∧
        ∃ above, parse op.path = .ok above ∧ above <+: ["a/b", "0", "~", "0"] := by
  have hsource : (Document.object
      [("a/b", .array [.object [("~", .object [("0", .null)])], .int 3])]).Proper := by simp
  have htarget : (Document.object [("a/b", .array [.object [("~", .array [])]])]).Proper := by simp
  obtain ⟨_, _, _, hone⟩ := diff_exact hsource htarget
  exact ⟨hsource, htarget, hone _ ["a/b", "0", "~", "0"] (parse_render _) nofun⟩

end BatchRun
