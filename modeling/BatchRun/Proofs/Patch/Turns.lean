import BatchRun.Patch.Basic
import BatchRun.Proofs.Document.Place
import BatchRun.Proofs.Document.Pointer

/-!
# What a patch turns a document into

* `Patch.Turns`: every operation succeeds on the document that the ones before it have made;
* **`Patch.apply_eq_ok_iff`**: a patch succeeds exactly if it turns the document into its result;
* `Patch.Fails`, **`Patch.apply_eq_error_iff`**: it fails exactly if one operation fails on what
  those before it have made, and this is the one that is reported;
* `PatchOp.apply_replace`, `apply_add_member`, `apply_remove_member`, `apply_add_item`,
  `apply_remove_last`: one operation below a place that is there.
-/

namespace BatchRun

/-- Every operation succeeds, one after another, and the last one makes the second document. -/
inductive Patch.Turns : Patch → Document → Document → Prop where
  | nil (d : Document) : Turns [] d d
  | cons {op : PatchOp} {rest : Patch} {d e f : Document} (first : op.apply d = .ok e)
      (others : Turns rest e f) : Turns (op :: rest) d f

namespace Patch

variable {p q : Patch} {d e f : Document}

theorem Turns.append (hp : Turns p d e) (hq : Turns q e f) : Turns (p ++ q) d f := by
  induction hp with
  | nil d => exact hq
  | cons first _ ih => exact .cons first (ih hq)

theorem turns_append_iff : Turns (p ++ q) d f ↔ ∃ e, Turns p d e ∧ Turns q e f := by
  refine ⟨fun h => ?_, fun ⟨_, hp, hq⟩ => hp.append hq⟩
  induction p generalizing d with
  | nil => exact ⟨d, .nil d, h⟩
  | cons op p ih =>
    cases h with
    | cons first others =>
      obtain ⟨e, hp, hq⟩ := ih others
      exact ⟨e, .cons first hp, hq⟩

theorem Turns.single {op : PatchOp} (h : op.apply d = .ok e) : Turns [op] d e := .cons h (.nil e)

theorem applyFrom_eq_ok_iff {index : Nat} : applyFrom index p d = .ok e ↔ Turns p d e := by
  induction p generalizing index d with
  | nil =>
    rw [applyFrom, Except.ok.injEq]
    constructor
    · rintro rfl
      exact .nil d
    · rintro ⟨⟩
      rfl
  | cons op rest ih =>
    rw [applyFrom]
    cases h : op.apply d with
    | ok e' =>
      refine ih.trans ⟨fun hrest => .cons h hrest, fun hall => ?_⟩
      cases hall with
      | cons first others =>
        rw [h] at first
        cases first
        exact others
    | error cause =>
      refine ⟨fun hfail => by simp at hfail, fun hall => ?_⟩
      cases hall with
      | cons first _ =>
        rw [h] at first
        cases first

/-- **A patch succeeds exactly if it turns the document into its result.** -/
theorem apply_eq_ok_iff : apply p d = .ok e ↔ Turns p d e := applyFrom_eq_ok_iff

/-- The first operations succeed, and the one after them fails. -/
inductive Fails : Patch → Document → Failure → Prop where
  | intro {done rest : Patch} {op : PatchOp} {cause : PatchError} {d e : Document}
      (turns : Turns done d e) (fails : op.apply e = .error cause) :
      Fails (done ++ op :: rest) d ⟨done.length, op, cause⟩

theorem turns_or_fails (p : Patch) (d : Document) :
    (∃ e, Turns p d e) ∨ ∃ failure, Fails p d failure := by
  induction p generalizing d with
  | nil => exact .inl ⟨d, .nil d⟩
  | cons op rest ih =>
    cases hop : op.apply d with
    | error cause => exact .inr ⟨_, .intro (.nil d) hop⟩
    | ok e =>
      rcases ih e with ⟨f, hrest⟩ | ⟨failure, hrest⟩
      · exact .inl ⟨f, .cons hop hrest⟩
      · cases hrest with
        | intro turns fails => exact .inr ⟨_, .intro (.cons hop turns) fails⟩

theorem applyFrom_of_turns {index : Nat} (h : Turns p d e) (q : Patch) :
    applyFrom index (p ++ q) d = applyFrom (index + p.length) q e := by
  induction h generalizing index with
  | nil d => rfl
  | cons first _ ih =>
    rw [List.cons_append, applyFrom, first]
    refine ih.trans ?_
    rw [List.length_cons, Nat.add_assoc, Nat.add_comm 1]

/-- **A patch fails exactly if one operation fails on what those before it have made**, and this is
the one that is reported. -/
theorem apply_eq_error_iff {failure : Failure} : apply p d = .error failure ↔ Fails p d failure := by
  have hfails {f : Failure} : Fails p d f → apply p d = .error f := by
    rintro ⟨turns, fails⟩
    rw [apply, applyFrom_of_turns turns, applyFrom, fails, Nat.zero_add]
  refine ⟨fun h => ?_, hfails⟩
  rcases turns_or_fails p d with ⟨e, hturns⟩ | ⟨f, hf⟩
  · rw [apply_eq_ok_iff.2 hturns] at h
    cases h
  · rw [hfails hf] at h
    cases h
    exact hf

theorem Turns.unique (h : Turns p d e) (h' : Turns p d f) : e = f :=
  Except.ok.inj ((apply_eq_ok_iff.2 h).symm.trans (apply_eq_ok_iff.2 h'))

end Patch

/-! ## One operation -/

namespace PatchOp

open Document Pointer

variable {ts : List String} {d x : Document} {ms : Members} {xs : List Document}

theorem apply_of_change? {op : PatchOp} {e : Document} (hpath : op.path = render ts)
    (h : op.change? ts d = some e) : op.apply d = .ok e := by
  rw [PatchOp.apply, hpath, parse_render]
  simp [h]

theorem apply_replace (h : resolve? ts d = some x) (value : Document) :
    (replace (render ts) value).apply d = .ok (setAt value ts d) := by
  refine apply_of_change? rfl ?_
  rw [change?, replaceAt?_eq, h]
  rfl

theorem apply_add_child (h : resolve? ts d = some x) (token : String) {value y : Document}
    (hput : put? token value x = some y) :
    (add (child (render ts) token) value).apply d = .ok (setAt y ts d) := by
  refine apply_of_change? (render_append ts token).symm ?_
  rw [change?, addAt?_append value h, hput]
  rfl

theorem apply_remove_child (h : resolve? ts d = some x) (token : String) {y : Document}
    (hdrop : drop? token x = some y) :
    (remove (child (render ts) token)).apply d = .ok (setAt y ts d) := by
  refine apply_of_change? (render_append ts token).symm ?_
  rw [change?, removeAt?_append h, hdrop]
  rfl

theorem apply_add_member (h : resolve? ts d = some (.object ms)) (key : String)
    (value : Document) :
    (add (child (render ts) key) value).apply d =
      .ok (setAt (.object (ms.insert key value)) ts d) :=
  apply_add_child h key rfl

theorem apply_remove_member (h : resolve? ts d = some (.object ms)) {key : String}
    {value : Document} (hkey : ms.get? key = some value) :
    (remove (child (render ts) key)).apply d = .ok (setAt (.object (ms.swapErase key)) ts d) := by
  refine apply_remove_child h key ?_
  rw [drop?, hkey]

theorem apply_add_item (h : resolve? ts d = some (.array xs)) (value : Document) :
    (add (item (render ts) xs.length) value).apply d =
      .ok (setAt (.array (xs ++ [value])) ts d) := by
  rw [item_eq_child]
  refine apply_add_child h _ ?_
  rw [put?, if_neg (toString_ne_dash _), index?_toString]
  simp

theorem apply_remove_last (h : resolve? ts d = some (.array (xs ++ [x]))) :
    (remove (item (render ts) xs.length)).apply d = .ok (setAt (.array xs) ts d) := by
  rw [item_eq_child]
  refine apply_remove_child h _ ?_
  rw [drop?, index?_toString]
  simp [List.eraseIdx_append_of_length_le]

end PatchOp

end BatchRun
