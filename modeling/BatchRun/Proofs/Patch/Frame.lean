import BatchRun.Proofs.Patch.Effect

/-!
# What a patch leaves alone

An operation is seen at its own place, on the way to it and below it. Elsewhere it is not seen,
unless it moves the items of an array on the way.

* `PatchOp.ShiftsAt`: an item is put into an array or dropped from it, `PatchOp.Spares`,
  `Patch.Spares`;
* `PatchOp.resolve?_of_spares` for one operation, **`Patch.Turns.resolve?_of_spares`** for a patch:
  a spared place holds what it held;
* `PatchOp.resolve?_of_writes`, **`Patch.Turns.resolve?_of_written`**: a value that is put at a place
  is there as long as the place is spared.
-/

namespace BatchRun

open Document

namespace PatchOp

variable {op : PatchOp} {ts us parent : List String} {d e : Document}

/-- The operation puts an item into the array that stands at a place, or drops one from it. -/
def ShiftsAt (parent : List String) (d : Document) : PatchOp → Prop
  | add path _ | remove path =>
    ∃ token xs, Pointer.parse path = .ok (parent ++ [token]) ∧ resolve? parent d = some (.array xs)
  | replace _ _ => False

/-- The place of the operation is apart from another one, and the operation moves no items on the
way to that. -/
structure Spares (us : List String) (d : Document) (op : PatchOp) : Prop where
  apart : ∀ ts, Pointer.parse op.path = .ok ts → Apart ts us
  still : ∀ parent, parent <+: us → ¬ op.ShiftsAt parent d

/-- **A spared place holds what it held**, whatever is done elsewhere in a proper document. -/
theorem resolve?_of_spares (h : op.apply d = .ok e) (hd : d.Proper) (hs : op.Spares us d) :
    resolve? us e = resolve? us d := by
  obtain ⟨ts, hts, heffect⟩ := effect_of_apply h
  have hapart := hs.apart ts hts
  cases heffect with
  | overwritten there => exact resolve?_setAt_of_apart hapart _ d
  | renewed root =>
    subst root
    exact absurd hapart (not_apart_nil_left us)
  | extended place there put =>
    subst place
    refine resolve?_setAt_parent hapart there fun hparent u hu => step?_put?_of_ne put hu ?_
    rintro xs rfl
    exact hs.still _ hparent ⟨_, xs, hts, there⟩
  | reduced place there drop =>
    subst place
    refine resolve?_setAt_parent hapart there fun hparent u hu => step?_drop?_of_ne drop hu ?_ ?_
    · rintro xs rfl
      exact hs.still _ hparent ⟨_, xs, hts, there⟩
    · rintro ms rfl
      exact (hd.resolve? there).distinct_keys

/-- The operation puts a value at a place: it adds or replaces it. -/
inductive Writes : PatchOp → String → Document → Prop where
  | add (path : String) (value : Document) : Writes (.add path value) path value
  | replace (path : String) (value : Document) : Writes (.replace path value) path value

/-- What an operation puts at a place is there, unless it is put after the last item of an
array. -/
theorem resolve?_of_writes {path : String} {value : Document} (hw : op.Writes path value)
    (hts : Pointer.parse path = .ok ts) (h : op.apply d = .ok e)
    (hdash : ∀ parent xs, ts = parent ++ ["-"] → resolve? parent d ≠ some (.array xs)) :
    resolve? ts e = some value := by
  obtain ⟨us, hus, heffect⟩ := effect_of_apply h
  obtain rfl : ts = us := by
    cases hw <;> exact Except.ok.inj (hts.symm.trans hus)
  cases hw with
  | add =>
    cases heffect with
    | renewed root =>
      subst root
      rfl
    | extended place there put =>
      subst place
      rw [resolve?_append, resolve?_setAt there, Option.bind_some, resolve?, step?_put? put]
      · rfl
      · rintro rfl xs rfl
        exact hdash _ xs rfl there
  | replace =>
    cases heffect with
    | overwritten there => exact resolve?_setAt there value

end PatchOp

namespace Patch

variable {p : Patch} {op : PatchOp} {us : List String} {d e f : Document}

/-- Every operation of a patch spares a place in the document that it is applied to. -/
def Spares (us : List String) : Patch → Document → Prop
  | [], _ => True
  | op :: rest, d => op.Spares us d ∧ ∀ e, op.apply d = .ok e → Spares us rest e

/-- **A spared place holds what it held.** -/
theorem Turns.resolve?_of_spares (h : Turns p d e) (hp : Proper p) (hd : d.Proper)
    (hs : Spares us p d) : resolve? us e = resolve? us d := by
  induction h with
  | nil d => rfl
  | cons first _ ih =>
    obtain ⟨hop, hrest⟩ := proper_cons_iff.1 hp
    rw [ih hrest (PatchOp.apply_proper first hop hd) (hs.2 _ first),
      PatchOp.resolve?_of_spares first hd hs.1]

/-- **What is put at a place is there** as long as the place is spared. -/
theorem Turns.resolve?_of_written {path : String} {value : Document} {ts : List String}
    (hfirst : op.apply d = .ok e) (hothers : Turns p e f) (hw : op.Writes path value)
    (hts : Pointer.parse path = .ok ts) (hop : op.Proper) (hp : Proper p) (hd : d.Proper)
    (hdash : ∀ parent xs, ts = parent ++ ["-"] → resolve? parent d ≠ some (.array xs))
    (hs : Spares ts p e) : resolve? ts f = some value := by
  rw [hothers.resolve?_of_spares hp (PatchOp.apply_proper hfirst hop hd) hs]
  exact PatchOp.resolve?_of_writes hw hts hfirst hdash

end Patch

end BatchRun
