import BatchRun.Proofs.Document.Children
import BatchRun.Proofs.Document.Frame
import BatchRun.Proofs.Patch.Turns

/-!
# What one operation does

* `PatchOp.Effect`: the four things that an operation can do to a document, each with what it needs
  of the document, **`PatchOp.apply_eq_ok_iff`** and `PatchOp.effect_of_apply`;
* `PatchOp.Proper`, `Patch.Proper`: every value that is put into a document is proper;
* `PatchOp.apply_proper`, `Patch.Turns.proper`: the document stays proper.
-/

namespace BatchRun

/-! ## Proper documents stay proper -/

namespace Document

variable {token : String} {ts : List String} {d x y value : Document}

theorem Proper.setStep (h : d.Proper) (hy : y.Proper) (token : String) :
    (setStep token y d).Proper := by
  cases d with
  | object ms => exact h.insert token hy
  | array xs =>
    rw [Document.setStep]
    split
    · refine proper_array_iff.2 fun z hz => ?_
      rcases List.mem_or_eq_of_mem_set hz with hz | rfl
      · exact h.of_mem hz
      · exact hy
    · exact h
  | _ => exact h

theorem Proper.setAt (h : d.Proper) (hy : y.Proper) (ts : List String) : (setAt y ts d).Proper := by
  induction ts generalizing d with
  | nil => exact hy
  | cons t ts ih =>
    rw [Document.setAt]
    split
    · rename_i x hx
      exact h.setStep (ih (h.step? hx)) t
    · exact h

theorem Proper.put? (h : x.Proper) (hv : value.Proper) (hy : put? token value x = some y) :
    y.Proper := by
  cases x with
  | object ms =>
    cases hy
    exact h.insert token hv
  | array xs =>
    rw [Document.put?] at hy
    split at hy
    · cases hy
      refine proper_array_iff.2 fun z hz => ?_
      rcases List.mem_append.1 hz with hz | hz
      · exact h.of_mem hz
      · rw [List.mem_singleton.1 hz]
        exact hv
    · obtain ⟨i, _, hi⟩ := Option.bind_eq_some_iff.1 hy
      split at hi
      · cases hi
        refine proper_array_iff.2 fun z hz => ?_
        rcases List.mem_append.1 hz with hz | hz
        · exact h.of_mem (List.mem_of_mem_take hz)
        · rcases List.mem_cons.1 hz with rfl | hz
          · exact hv
          · exact h.of_mem (List.mem_of_mem_drop hz)
      · cases hi
  | _ => cases hy

theorem Proper.drop? (h : x.Proper) (hy : drop? token x = some y) : y.Proper := by
  cases x with
  | object ms =>
    rw [Document.drop?] at hy
    split at hy
    · rename_i v hv
      cases hy
      refine .object (Members.nodup_swapErase h.distinct_keys hv) fun p hp => ?_
      exact h.of_mem_members ((Members.swapErase_perm hv).mem_iff.2 (List.mem_cons_of_mem _ hp))
    · cases hy
  | array xs =>
    obtain ⟨i, _, hi⟩ := Option.bind_eq_some_iff.1 hy
    split at hi
    · cases hi
      exact proper_array_iff.2 fun z hz => h.of_mem (List.mem_of_mem_eraseIdx hz)
    · cases hi
  | _ => cases hy

end Document

/-! ## The effect of an operation -/

open Document

namespace PatchOp

/-- The value that an operation puts into a document is proper. -/
def Proper : PatchOp → Prop
  | add _ value => value.Proper
  | replace _ value => value.Proper
  | remove _ => True

/-- What an operation can do to a document at a place. -/
inductive Effect (ts : List String) (d : Document) : PatchOp → Document → Prop where
  /-- A value takes the place of the one that is there. -/
  | overwritten {path : String} {value x : Document} (there : resolve? ts d = some x) :
      Effect ts d (.replace path value) (setAt value ts d)
  /-- A value takes the place of the whole document. -/
  | renewed {path : String} {value : Document} (root : ts = []) :
      Effect ts d (.add path value) value
  /-- A value is put into an object or an array. -/
  | extended {path token : String} {parent : List String} {value x y : Document}
      (place : ts = parent ++ [token]) (there : resolve? parent d = some x)
      (put : put? token value x = some y) : Effect ts d (.add path value) (setAt y parent d)
  /-- A value is dropped from an object or an array. -/
  | reduced {path token : String} {parent : List String} {x y : Document}
      (place : ts = parent ++ [token]) (there : resolve? parent d = some x)
      (drop : drop? token x = some y) : Effect ts d (.remove path) (setAt y parent d)

variable {op : PatchOp} {ts : List String} {d e : Document}

/-- **An operation succeeds if its text is a pointer and the change at that place succeeds.** -/
theorem apply_eq_ok_iff :
    op.apply d = .ok e ↔ ∃ ts, Pointer.parse op.path = .ok ts ∧ op.change? ts d = some e := by
  rw [PatchOp.apply]
  cases Pointer.parse op.path with
  | error cause => simp
  | ok ts => cases h : op.change? ts d <;> simp [h]

theorem effect_of_change? (h : op.change? ts d = some e) : Effect ts d op e := by
  cases op with
  | add path value =>
    rcases List.eq_nil_or_concat' ts with rfl | ⟨parent, token, rfl⟩
    · cases h
      exact .renewed rfl
    · obtain ⟨x, y, hx, hy, rfl⟩ := exists_put?_of_addAt? h
      exact .extended rfl hx hy
  | replace path value =>
    rw [change?, replaceAt?_eq] at h
    obtain ⟨x, hx, rfl⟩ := Option.map_eq_some_iff.1 h
    exact .overwritten hx
  | remove path =>
    rcases List.eq_nil_or_concat' ts with rfl | ⟨parent, token, rfl⟩
    · cases h
    · obtain ⟨x, y, hx, hy, rfl⟩ := exists_drop?_of_removeAt? h
      exact .reduced rfl hx hy

theorem effect_of_apply (h : op.apply d = .ok e) :
    ∃ ts, Pointer.parse op.path = .ok ts ∧ Effect ts d op e := by
  obtain ⟨ts, hts, hchange⟩ := apply_eq_ok_iff.1 h
  exact ⟨ts, hts, effect_of_change? hchange⟩

theorem Effect.proper (h : Effect ts d op e) (hop : op.Proper) (hd : d.Proper) : e.Proper := by
  cases h with
  | overwritten there => exact hd.setAt hop ts
  | renewed root => exact hop
  | extended place there put => exact hd.setAt ((hd.resolve? there).put? hop put) _
  | reduced place there drop => exact hd.setAt ((hd.resolve? there).drop? drop) _

theorem apply_proper (h : op.apply d = .ok e) (hop : op.Proper) (hd : d.Proper) : e.Proper := by
  obtain ⟨ts, _, heffect⟩ := effect_of_apply h
  exact heffect.proper hop hd

end PatchOp

namespace Patch

variable {p q : Patch} {op : PatchOp} {d e : Document}

/-- Every value that the patch puts into a document is proper. -/
def Proper (p : Patch) : Prop := ∀ op ∈ p, op.Proper

theorem proper_cons_iff : Proper (op :: p) ↔ op.Proper ∧ Proper p := List.forall_mem_cons

theorem proper_append_iff : Proper (p ++ q) ↔ Proper p ∧ Proper q := List.forall_mem_append

theorem Turns.proper (h : Turns p d e) (hp : Proper p) (hd : d.Proper) : e.Proper := by
  induction h with
  | nil d => exact hd
  | cons first _ ih =>
    obtain ⟨hop, hrest⟩ := proper_cons_iff.1 hp
    exact ih hrest (PatchOp.apply_proper first hop hd)

end Patch

end BatchRun
