import BatchRun.Proofs.Document.Place
import BatchRun.Proofs.Document.Pointer

/-!
# Reading one place after a change at another

Two places are apart if neither lies on the way to the other. What is put at one of them is not
seen at the other, unless items of an array on the way to the other move.

* `Document.Apart`, `Document.resolve?_setAt_of_apart`;
* `Document.exists_put?_of_addAt?`, `exists_drop?_of_removeAt?`: an addition and a removal change
  the value one token above their place;
* **`Document.resolve?_setAt_parent`**: the frame of such a change.
-/

namespace BatchRun

namespace Document

/-- Neither place lies on the way to the other. -/
def Apart (ts us : List String) : Prop := ¬ ts <+: us ∧ ¬ us <+: ts

instance (ts us : List String) : Decidable (Apart ts us) :=
  inferInstanceAs (Decidable (_ ∧ _))

theorem Apart.symm {ts us : List String} (h : Apart ts us) : Apart us ts := ⟨h.2, h.1⟩

@[simp] theorem not_apart_nil_left (us : List String) : ¬ Apart [] us :=
  fun h => h.1 List.nil_prefix

@[simp] theorem not_apart_nil_right (ts : List String) : ¬ Apart ts [] :=
  fun h => h.2 List.nil_prefix

@[simp] theorem apart_cons_iff {t u : String} {ts us : List String} :
    Apart (t :: ts) (u :: us) ↔ t ≠ u ∨ Apart ts us := by
  by_cases h : t = u
  · simp [Apart, List.cons_prefix_cons, h]
  · simp [Apart, List.cons_prefix_cons, h, Ne.symm h]

theorem apart_or_prefix (ts us : List String) : Apart ts us ∨ ts <+: us ∨ us <+: ts := by
  by_cases h : ts <+: us
  · exact .inr (.inl h)
  · by_cases h' : us <+: ts
    · exact .inr (.inr h')
    · exact .inl ⟨h, h'⟩

theorem Apart.append_left {ts us : List String} (h : Apart ts us) (vs : List String) :
    Apart (ts ++ vs) us := by
  refine ⟨fun hpre => h.1 ((List.prefix_append ts vs).trans hpre), fun hpre => ?_⟩
  exact (List.prefix_or_prefix_of_prefix (List.prefix_append ts vs) hpre).elim h.1 h.2

/-- A place apart from one inside an array or object leads elsewhere, or inside it to another
token. -/
theorem Apart.parent {parent us : List String} {t : String} (h : Apart (parent ++ [t]) us) :
    Apart parent us ∨ ∃ u rest, us = parent ++ u :: rest ∧ u ≠ t := by
  rcases apart_or_prefix parent us with hapart | ⟨rest, rfl⟩ | hbelow
  · exact .inl hapart
  · right
    cases rest with
    | nil =>
      rw [List.append_nil] at h
      exact absurd (List.prefix_append _ _) h.2
    | cons u rest =>
      refine ⟨u, rest, rfl, fun hu => h.1 ?_⟩
      rw [hu]
      exact ⟨rest, by simp⟩
  · exact absurd (hbelow.trans (List.prefix_append _ _)) h.2

/-! ## Overwriting -/

theorem step?_setStep_of_ne {t u : String} (h : u ≠ t) (y d : Document) :
    (setStep t y d).step? u = d.step? u := by
  cases d with
  | object ms => exact Members.get?_insert_of_ne y ms h
  | array xs =>
    cases ht : Pointer.index? t with
    | none => rw [setStep, ht]
    | some i =>
      rw [setStep, ht]
      refine Option.bind_congr fun j hj => List.getElem?_set_ne ?_
      rintro rfl
      rw [Pointer.index?_eq_some_iff] at ht hj
      exact h (hj.trans ht.symm)
  | _ => rfl

theorem resolve?_setAt_of_apart {ts us : List String} (h : Apart ts us) (y d : Document) :
    resolve? us (setAt y ts d) = resolve? us d := by
  induction ts generalizing us d with
  | nil => exact absurd h (not_apart_nil_left us)
  | cons t ts ih =>
    cases us with
    | nil => exact absurd h (not_apart_nil_right _)
    | cons u us =>
      cases hs : d.step? t with
      | none => rw [setAt, hs]
      | some x =>
        rw [setAt_cons hs, resolve?, resolve?]
        by_cases htu : u = t
        · subst htu
          have hapart : Apart ts us := by simpa using h
          rw [step?_setStep hs, hs, Option.bind_some, Option.bind_some, ih hapart]
        · rw [step?_setStep_of_ne htu]

/-! ## Putting and dropping -/

variable {t u : String} {value x y d e : Document} {parent ts us : List String}

theorem exists_put?_of_addAt? (h : addAt? value (parent ++ [t]) d = some e) :
    ∃ x y, resolve? parent d = some x ∧ put? t value x = some y ∧ e = setAt y parent d := by
  rw [addAt?_concat] at h
  obtain ⟨y, hy, rfl⟩ := Option.map_eq_some_iff.1 h
  obtain ⟨x, hx, hput⟩ := Option.bind_eq_some_iff.1 hy
  exact ⟨x, y, hx, hput, rfl⟩

theorem exists_drop?_of_removeAt? (h : removeAt? (parent ++ [t]) d = some e) :
    ∃ x y, resolve? parent d = some x ∧ drop? t x = some y ∧ e = setAt y parent d := by
  rw [removeAt?_concat] at h
  obtain ⟨y, hy, rfl⟩ := Option.map_eq_some_iff.1 h
  obtain ⟨x, hx, hdrop⟩ := Option.bind_eq_some_iff.1 hy
  exact ⟨x, y, hx, hdrop, rfl⟩

/-- What is put into an object is under its token, and so is what is put into an array, unless it
is put after the last item. -/
theorem step?_put? (h : put? t value x = some y) (hdash : t = "-" → ∀ xs, x ≠ .array xs) :
    y.step? t = some value := by
  cases x with
  | object ms =>
    cases h
    exact Members.get?_insert_self t value ms
  | array xs =>
    have ht : t ≠ "-" := fun ht => hdash ht xs rfl
    rw [put?, if_neg ht] at h
    obtain ⟨i, hi, hy⟩ := Option.bind_eq_some_iff.1 h
    split at hy
    · rename_i hle
      cases hy
      simp [step?, hi, hle]
    · cases hy
  | _ => cases h

theorem step?_put?_of_ne (h : put? t value x = some y) (hu : u ≠ t)
    (hx : ∀ xs, x ≠ .array xs) : y.step? u = x.step? u := by
  cases x with
  | object ms =>
    cases h
    exact Members.get?_insert_of_ne value ms hu
  | array xs => exact absurd rfl (hx xs)
  | _ => cases h

theorem step?_drop?_of_ne (h : drop? t x = some y) (hu : u ≠ t) (hx : ∀ xs, x ≠ .array xs)
    (hn : ∀ ms : Members, x = .object ms → ms.keys.Nodup) : y.step? u = x.step? u := by
  cases x with
  | object ms =>
    rw [drop?] at h
    split at h
    · rename_i v hv
      cases h
      exact Members.get?_swapErase_of_ne (hn ms rfl) hv hu
    · cases h
  | array xs => exact absurd rfl (hx xs)
  | _ => cases h

/-- **A change of the value under one token is not seen at a place apart**, if under the tokens on
the way to that place nothing changes. -/
theorem resolve?_setAt_parent (hapart : Apart (parent ++ [t]) us) (hx : resolve? parent d = some x)
    (hstep : parent <+: us → ∀ u, u ≠ t → y.step? u = x.step? u) :
    resolve? us (setAt y parent d) = resolve? us d := by
  rcases hapart.parent with hapart | ⟨u, rest, rfl, hu⟩
  · exact resolve?_setAt_of_apart hapart y d
  · rw [resolve?_append, resolve?_append, resolve?_setAt hx, hx, Option.bind_some,
      Option.bind_some, resolve?, resolve?, hstep (List.prefix_append _ _) u hu]

end Document

end BatchRun
