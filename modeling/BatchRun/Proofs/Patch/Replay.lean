import BatchRun.Patch.Diff
import BatchRun.Proofs.Document.Proper
import BatchRun.Proofs.Patch.Turns
import Mathlib.Data.List.Induction

/-!
# Replaying a difference

The operations of a difference are applied to a document that changes under them. At each moment
only the value at one place has changed, and the operations still to come address either another
member or an item that has not moved.

* `Diff.Replays`: the difference of two values, replayed wherever the first stands, puts an equal
  of the second there;
* `Diff.members_turns`, `newMembers_turns`, `items_turns`, `additions_turns`, `removals_turns`: one
  loop each;
* `Diff.replays`: the difference of any two proper documents;
* **`diff_apply`**: the difference of two documents turns the first into an equal of the second.
-/

namespace BatchRun

namespace Diff

open Document Pointer

/-- The difference of two values, replayed wherever the first stands, puts an equal of the second
there and leaves the rest of the document alone. -/
def Replays (a b : Document) : Prop :=
  ∀ (ts : List String) (d : Document), resolve? ts d = some a →
    ∃ a', Patch.Turns (between (render ts) a b) d (setAt a' ts d) ∧ same a' b = true

variable {ts : List String} {d : Document}

/-! ## Items -/

theorem additions_turns {xs : List Document} (h : resolve? ts d = some (.array xs))
    (ys : List Document) :
    Patch.Turns (additions (render ts) xs.length ys) d (setAt (.array (xs ++ ys)) ts d) := by
  induction ys generalizing xs d with
  | nil =>
    rw [List.append_nil, setAt_resolve? h]
    exact .nil d
  | cons y ys ih =>
    refine .cons (PatchOp.apply_add_item h y) ?_
    have hnext := ih (resolve?_setAt h (.array (xs ++ [y])))
    rw [setAt_setAt] at hnext
    simpa using hnext

theorem removals_turns {xs : List Document} (zs : List Document)
    (h : resolve? ts d = some (.array (xs ++ zs))) :
    Patch.Turns (removals (render ts) xs.length zs.length) d (setAt (.array xs) ts d) := by
  -- the last item goes first, so the induction takes the list from its end
  induction zs using List.reverseRecOn generalizing d with
  | nil =>
    rw [List.append_nil] at h
    rw [setAt_resolve? h]
    exact .nil d
  | append_singleton zs z ih =>
    rw [List.length_append, List.length_singleton, removals, ← List.length_append]
    rw [← List.append_assoc] at h
    refine .cons (PatchOp.apply_remove_last h) ?_
    have hnext := ih (resolve?_setAt h (.array (xs ++ zs)))
    rw [setAt_setAt] at hnext
    exact hnext

/-- The items in front have been dealt with; what comes of the others is equal to the target. -/
theorem items_turns {xs ys : List Document} (hreplay : ∀ x ∈ xs, ∀ y ∈ ys, Replays x y)
    (hys : ∀ y ∈ ys, y.Proper) (front : List Document)
    (h : resolve? ts d = some (.array (front ++ xs))) :
    ∃ zs, Patch.Turns (items (render ts) front.length xs ys) d (setAt (.array (front ++ zs)) ts d) ∧
      sameItems zs ys = true := by
  induction xs generalizing ys front d with
  | nil =>
    rw [List.append_nil] at h
    refine ⟨ys, ?_, ?_⟩
    · rw [items]
      exact additions_turns h ys
    · exact sameItems_iff.2 (List.forall₂_same.2 fun y hy => same_refl (hys y hy))
  | cons x xs ih =>
    cases ys with
    | nil =>
      refine ⟨[], ?_, rfl⟩
      rw [items, List.append_nil]
      exact removals_turns (x :: xs) h
    | cons y ys =>
      -- the item itself stands at its own place
      have hplace : resolve? (ts ++ [toString front.length]) d = some x := by
        rw [resolve?_append, h]
        simp [resolve?, step?]
      obtain ⟨x', hturns, hsame⟩ := hreplay x (by simp) y (by simp) _ _ hplace
      have hset : setAt x' (ts ++ [toString front.length]) d =
          setAt (.array ((front ++ [x']) ++ xs)) ts d := by
        rw [setAt_append h]
        simp [setAt, step?, setStep]
      rw [hset, render_append, ← item_eq_child] at hturns
      have hrest : ∀ a ∈ xs, ∀ b ∈ ys, Replays a b := fun a ha b hb =>
        hreplay a (List.mem_cons_of_mem _ ha) b (List.mem_cons_of_mem _ hb)
      obtain ⟨zs, hnext, hzs⟩ := ih hrest (fun b hb => hys b (List.mem_cons_of_mem _ hb))
        (front ++ [x']) (resolve?_setAt h (.array ((front ++ [x']) ++ xs)))
      rw [setAt_setAt] at hnext
      refine ⟨x' :: zs, ?_, ?_⟩
      · rw [items]
        simpa using hturns.append hnext
      · simp [sameItems, hsame, hzs]

/-! ## Members -/

/-- What is done for one member of the first object. -/
def member (path : String) (k : String) (v : Document) (ns : Members) : Patch :=
  match ns.get? k with
  | some w => between (child path k) v w
  | none => [.remove (child path k)]

theorem members_cons (path : String) (k : String) (v : Document) (rest ns : Members) :
    members path ((k, v) :: rest) ns = member path k v ns ++ members path rest ns := rfl

/-- One member becomes what the target has under its key, and no other key is touched. -/
theorem member_turns {k : String} {v : Document} {cur ns : Members}
    (hreplay : ∀ w, ns.get? k = some w → Replays v w) (hcur : cur.keys.Nodup)
    (hv : cur.get? k = some v) (h : resolve? ts d = some (.object cur)) :
    ∃ cur' : Members, Patch.Turns (member (render ts) k v ns) d (setAt (.object cur') ts d) ∧
      cur'.keys.Nodup ∧ Agree (cur'.get? k) (ns.get? k) ∧
      ∀ other, other ≠ k → cur'.get? other = cur.get? other := by
  rw [member]
  cases hw : ns.get? k with
  | none =>
    refine ⟨cur.swapErase k, .single (PatchOp.apply_remove_member h hv),
      Members.nodup_swapErase hcur hv, ?_,
      fun other hne => Members.get?_swapErase_of_ne hcur hv hne⟩
    rw [Members.get?_swapErase_self hcur hv]
    exact .none
  | some w =>
    have hplace : resolve? (ts ++ [k]) d = some v := by
      rw [resolve?_append, h]
      simpa [resolve?, step?] using hv
    obtain ⟨v', hturns, hsame⟩ := hreplay w hw _ _ hplace
    have hset : setAt v' (ts ++ [k]) d = setAt (.object (cur.insert k v')) ts d := by
      rw [setAt_append h]
      simp [setAt, step?, setStep, hv]
    rw [hset, render_append] at hturns
    refine ⟨cur.insert k v', hturns, Members.nodup_insert k v' hcur, ?_,
      fun other hne => Members.get?_insert_of_ne v' cur hne⟩
    rw [Members.get?_insert_self]
    exact .some hsame

theorem members_turns {ns rest : Members}
    (hreplay : ∀ p ∈ rest, ∀ w, ns.get? p.1 = some w → Replays p.2 w) (hrest : rest.keys.Nodup)
    {cur : Members} (hcur : cur.keys.Nodup) (hhas : ∀ p ∈ rest, cur.get? p.1 = some p.2)
    (h : resolve? ts d = some (.object cur)) :
    ∃ cur' : Members, Patch.Turns (members (render ts) rest ns) d (setAt (.object cur') ts d) ∧
      cur'.keys.Nodup ∧ (∀ k ∈ rest.keys, Agree (cur'.get? k) (ns.get? k)) ∧
      ∀ k, k ∉ rest.keys → cur'.get? k = cur.get? k := by
  induction rest generalizing cur d with
  | nil =>
    refine ⟨cur, ?_, hcur, by simp, fun _ _ => rfl⟩
    rw [setAt_resolve? h]
    exact .nil d
  | cons p rest ih =>
    obtain ⟨k, v⟩ := p
    obtain ⟨hk, hrest'⟩ := List.nodup_cons.1 hrest
    obtain ⟨hv, hhas'⟩ := List.forall_mem_cons.1 hhas
    obtain ⟨hreplayv, hreplay'⟩ := List.forall_mem_cons.1 hreplay
    obtain ⟨cur₁, hturns₁, hcur₁, hagree₁, hother₁⟩ := member_turns hreplayv hcur hv h
    -- the members still to come have other keys, so they stand as before
    have hhas₁ : ∀ q ∈ rest, cur₁.get? q.1 = some q.2 := fun q hq => by
      have hq' : q.1 ∈ Members.keys rest := Members.mem_keys_of_mem hq
      have hne : q.1 ≠ k := fun e => hk (show k ∈ Members.keys rest from e ▸ hq')
      rw [hother₁ q.1 hne]
      exact hhas' q hq
    obtain ⟨cur₂, hturns₂, hcur₂, hagree₂, hother₂⟩ :=
      ih hreplay' hrest' hcur₁ hhas₁ (resolve?_setAt h (.object cur₁))
    rw [setAt_setAt] at hturns₂
    refine ⟨cur₂, ?_, hcur₂, fun key hkey => ?_, fun key hkey => ?_⟩
    · rw [members_cons]
      exact hturns₁.append hturns₂
    · rcases List.mem_cons.1 hkey with rfl | hkey
      · rw [hother₂ _ hk]
        exact hagree₁
      · exact hagree₂ key hkey
    · rw [Members.keys_cons, List.mem_cons, not_or] at hkey
      rw [hother₂ key hkey.2, hother₁ key hkey.1]

/-- The members that the first object does not have are added, and no other key is touched. -/
theorem newMembers_turns (old : Members) {rest : Members} (hrest : rest.keys.Nodup) {cur : Members}
    (hcur : cur.keys.Nodup) (h : resolve? ts d = some (.object cur)) :
    ∃ cur' : Members, Patch.Turns (newMembers (render ts) old rest) d (setAt (.object cur') ts d) ∧
      cur'.keys.Nodup ∧
      (∀ k ∈ rest.keys, old.get? k = none → cur'.get? k = rest.get? k) ∧
      ∀ k, k ∉ rest.keys ∨ old.get? k ≠ none → cur'.get? k = cur.get? k := by
  induction rest generalizing cur d with
  | nil =>
    refine ⟨cur, ?_, hcur, by simp, fun _ _ => rfl⟩
    rw [setAt_resolve? h]
    exact .nil d
  | cons p rest ih =>
    obtain ⟨k, v⟩ := p
    obtain ⟨hk, hrest'⟩ := List.nodup_cons.1 hrest
    rw [newMembers]
    cases ho : old.get? k with
    | some w =>
      obtain ⟨cur', hturns, hcur', hnew, hold⟩ := ih hrest' hcur h
      refine ⟨cur', hturns, hcur', fun key hkey hnone => ?_, fun key hkey => hold key ?_⟩
      · have hne : k ≠ key := by
          rintro rfl
          rw [ho] at hnone
          cases hnone
        have hkey' : key ∈ Members.keys rest := by simpa [Ne.symm hne] using hkey
        rw [Members.get?_cons, if_neg hne]
        exact hnew key hkey' hnone
      · exact hkey.imp_left fun hmem hr => hmem (List.mem_cons_of_mem _ hr)
    | none =>
      obtain ⟨cur', hturns, hcur', hnew, hold⟩ :=
        ih hrest' (Members.nodup_insert k v hcur) (resolve?_setAt h (.object (cur.insert k v)))
      rw [setAt_setAt] at hturns
      refine ⟨cur', .cons (PatchOp.apply_add_member h k v) hturns, hcur',
        fun key hkey hnone => ?_, fun key hkey => ?_⟩
      · rcases List.mem_cons.1 hkey with rfl | hkey
        · rw [hold _ (.inl hk), Members.get?_insert_self, Members.get?_cons, if_pos rfl]
        · have hne : k ≠ key := fun e => hk (show k ∈ Members.keys rest from e ▸ hkey)
          rw [hnew key hkey hnone, Members.get?_cons, if_neg hne]
      · have hne : key ≠ k := by
          rintro rfl
          rcases hkey with hkey | hkey
          · exact hkey List.mem_cons_self
          · exact hkey ho
        rw [hold key (hkey.imp_left fun hmem hr => hmem (List.mem_cons_of_mem _ hr)),
          Members.get?_insert_of_ne v cur hne]

/-! ## Documents -/

theorem replays_of_replacement {a b : Document} (hb : b.Proper)
    (h : ∀ path, between path a b = if same a b then [] else [.replace path b]) : Replays a b := by
  intro ts d ha
  rw [h]
  split
  · rename_i hsame
    refine ⟨a, ?_, hsame⟩
    rw [setAt_resolve? ha]
    exact .nil d
  · exact ⟨b, .single (PatchOp.apply_replace ha b), same_refl hb⟩

theorem replays_array {xs ys : List Document} (hreplay : ∀ x ∈ xs, ∀ y ∈ ys, Replays x y)
    (hys : ∀ y ∈ ys, y.Proper) : Replays (.array xs) (.array ys) := by
  intro ts d h
  obtain ⟨zs, hturns, hsame⟩ := items_turns hreplay hys [] h
  exact ⟨.array zs, hturns, hsame⟩

theorem replays_object {ms ns : Members}
    (hreplay : ∀ p ∈ ms, ∀ w, ns.get? p.1 = some w → Replays p.2 w)
    (hms : Proper (.object ms)) (hns : Proper (.object ns)) :
    Replays (.object ms) (.object ns) := by
  intro ts d h
  obtain ⟨cur₁, hturns₁, hcur₁, hagree, hother⟩ := members_turns hreplay hms.distinct_keys
    hms.distinct_keys (fun p hp => Members.get?_of_mem hms.distinct_keys hp) h
  obtain ⟨cur₂, hturns₂, hcur₂, hnew, hold⟩ := newMembers_turns ms hns.distinct_keys hcur₁
    (resolve?_setAt h (.object cur₁))
  rw [setAt_setAt] at hturns₂
  refine ⟨.object cur₂, hturns₁.append hturns₂,
    (same_object_iff hcur₂ hns.distinct_keys).2 fun key => ?_⟩
  by_cases hkm : key ∈ ms.keys
  · rw [hold key (.inr fun hnone => Members.get?_eq_none_iff.1 hnone hkm)]
    exact hagree key hkm
  · have hnone : ms.get? key = none := Members.get?_eq_none_iff.2 hkm
    by_cases hkn : key ∈ ns.keys
    · rw [hnew key hkn hnone]
      cases hw : ns.get? key with
      | none => exact .none
      | some w => exact .some (same_refl (hns.of_get? hw))
    · rw [hold key (.inl hkn), hother key hkm, hnone, Members.get?_eq_none_iff.2 hkn]
      exact .none

/-- **The difference of two proper documents can be replayed wherever the first stands.** -/
theorem replays {a b : Document} (ha : a.Proper) (hb : b.Proper) : Replays a b := by
  induction ha generalizing b with
  | @array xs _ ih =>
    cases hb with
    | @array ys hys => exact replays_array (fun x hx y hy => ih x hx (hys y hy)) hys
    | _ =>
      refine replays_of_replacement (by constructor <;> assumption) fun _ => ?_
      rw [between] <;> simp
  | @object ms distinct values ih =>
    cases hb with
    | @object ns hdistinct hvalues =>
      have hns : Proper (.object ns) := .object hdistinct hvalues
      exact replays_object (fun p hp w hw => ih p hp (hns.of_get? hw)) (.object distinct values) hns
    | _ =>
      refine replays_of_replacement (by constructor <;> assumption) fun _ => ?_
      rw [between] <;> simp
  | _ =>
    refine replays_of_replacement hb fun _ => ?_
    rw [between] <;> simp

end Diff

open Document in
/-- **The difference of two documents turns the first into an equal of the second.** -/
theorem diff_apply {source target : Document} (hs : source.Proper) (ht : target.Proper) :
    ∃ result, Patch.apply (diff source target) source = .ok result ∧
      same result target = true := by
  obtain ⟨result, hturns, hsame⟩ := Diff.replays hs ht [] source rfl
  exact ⟨result, Patch.apply_eq_ok_iff.2 hturns, hsame⟩

open Document in
/-- Items are dropped and edited below a key with a slash, an object becomes a number under the
empty key, and a key of an index and one of a dash come and go. -/
theorem diff_apply_edited :
    ∃ result,
      Patch.apply
        (diff
          (.object [("a/b", .array [.int 1, .object [("~1", .null)], .int 3]),
            ("", .object [("0", .bool true)]), ("-", .string "x")])
          (.object [("0", .array [.int 7]), ("", .int 2),
            ("a/b", .array [.int 1, .object [("~1", .bool false), ("", .null)]])]))
        (.object [("a/b", .array [.int 1, .object [("~1", .null)], .int 3]),
          ("", .object [("0", .bool true)]), ("-", .string "x")]) = .ok result ∧
      same result
        (.object [("0", .array [.int 7]), ("", .int 2),
          ("a/b", .array [.int 1, .object [("~1", .bool false), ("", .null)]])]) = true :=
  diff_apply (by simp) (by simp)

end BatchRun
