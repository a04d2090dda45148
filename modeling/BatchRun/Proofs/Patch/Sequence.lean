import BatchRun.Proofs.Patch.Effect

/-!
# Patches one after another

A patch is applied to a copy of a document, operation by operation. The same operations can be done
to the document itself: each of them either does its change or leaves everything as it was, so that
the document that is left is the one before the first failure.

* `Document.changeAt_eq`: a change in place looks up, changes and overwrites,
  `Document.changeAt_attempt`: it leaves no traces if it is tested beforehand and fails;
* **`PatchOp.applyInPlace_eq`**: an operation in place;
* `Patch.apply_append`: two patches, `Patch.fails_iff`: the operation that fails first;
* `Patch.apply_eq_ok_iff_while`, `Patch.apply_eq_error_iff_while`: operations in place;
* **`Patch.apply_sequential`**.
-/

namespace BatchRun

/-! ## Changes in place -/

namespace Document

theorem changeStep_eq (token : String) (change : Change) (d : Document) :
    changeStep token change d = match d.step? token with
      | some x => (setStep token (change x).1 d, (change x).2)
      | none => (d, false) := by
  cases d with
  | object ms =>
    rw [changeStep, step?]
    cases Members.get? token ms <;> rfl
  | array xs =>
    rw [changeStep, step?]
    cases hi : Pointer.index? token with
    | none => rfl
    | some i =>
      simp only [Option.bind_some]
      cases xs[i]? with
      | none => rfl
      | some x => simp only [setStep, hi]
  | _ => rfl

/-- A change in place looks up, changes and overwrites, whether or not it succeeds. -/
theorem changeAt_eq (ts : List String) (change : Change) (d : Document) :
    changeAt ts change d = match resolve? ts d with
      | some x => (setAt (change x).1 ts d, (change x).2)
      | none => (d, false) := by
  induction ts generalizing d with
  | nil => rfl
  | cons t ts ih =>
    rw [changeAt, changeStep_eq, resolve?]
    cases hx : d.step? t with
    | none => rfl
    | some x =>
      simp only [Option.bind_some, ih x]
      cases resolve? ts x with
      | none => simp only [setStep_step? hx]
      | some y => simp only [setAt_cons hx]

/-- **A change that is tested beforehand leaves no traces if it fails**: what is written back is
what was there, in the same order. -/
theorem changeAt_attempt (ts : List String) (f : Document → Option Document) (d : Document) :
    changeAt ts (attempt f) d = match (resolve? ts d).bind f with
      | some y => (setAt y ts d, true)
      | none => (d, false) := by
  rw [changeAt_eq]
  cases hx : resolve? ts d with
  | none => rfl
  | some x =>
    simp only [attempt, Option.bind_some]
    cases f x with
    | none => simp only [setAt_resolve? hx]
    | some y => rfl

end Document

/-! ## One operation -/

namespace PatchOp

open Document

theorem changeInPlace_eq (op : PatchOp) (ts : List String) (d : Document) :
    op.changeInPlace ts d = match op.change? ts d with
      | some e => (e, true)
      | none => (d, false) := by
  -- a place other than the root is one token below another place
  rcases List.eq_nil_or_concat' ts with rfl | ⟨parent, token, rfl⟩
  · cases op <;> rfl
  · cases op with
    | add path value =>
      simp only [changeInPlace, change?, List.getLast?_concat, List.dropLast_concat,
        changeAt_attempt, addAt?_concat]
      cases (resolve? parent d).bind (put? token value) <;> rfl
    | replace path value =>
      simp only [changeInPlace, change?, changeAt_attempt, replaceAt?_eq]
      cases resolve? (parent ++ [token]) d <;> rfl
    | remove path =>
      simp only [changeInPlace, change?, List.getLast?_concat, List.dropLast_concat,
        changeAt_attempt, removeAt?_concat]
      cases (resolve? parent d).bind (drop? token) <;> rfl

/-- **An operation in place does what it does to a copy, and leaves everything as it was if it
fails.** -/
theorem applyInPlace_eq (op : PatchOp) (d : Document) :
    op.applyInPlace d = match op.apply d with
      | .ok e => (e, none)
      | .error cause => (d, some cause) := by
  rw [applyInPlace, PatchOp.apply]
  cases Pointer.parse op.path with
  | error cause => rfl
  | ok ts =>
    simp only [changeInPlace_eq]
    cases op.change? ts d <;> rfl

end PatchOp

/-! ## Patches -/

namespace Patch

variable {p : Patch} {d e : Document} {f : Failure}

/-- A failure among operations that come after others. -/
def Failure.behind (count : Nat) (f : Failure) : Failure := { f with index := count + f.index }

theorem fails_iff : Fails p d f ↔
    p[f.index]? = some f.op ∧ ∃ e, Turns (p.take f.index) d e ∧ f.op.apply e = .error f.cause := by
  constructor
  · rintro ⟨turns, fails⟩
    exact ⟨by simp, _, by simpa using turns, fails⟩
  · rintro ⟨hop, e, turns, fails⟩
    obtain ⟨hlt, hget⟩ := List.getElem?_eq_some_iff.1 hop
    have hlength : (p.take f.index).length = f.index := List.length_take_of_le (Nat.le_of_lt hlt)
    have hfails : Fails (p.take f.index ++ f.op :: p.drop (f.index + 1)) d
        ⟨(p.take f.index).length, f.op, f.cause⟩ := .intro turns fails
    rwa [← hget, ← List.drop_eq_getElem_cons hlt, List.take_append_drop, hget, hlength] at hfails

/-- **Two patches are applied one after the other**, and a failure of the second is counted on from
the first. -/
theorem apply_append (p q : Patch) (d : Document) : apply (p ++ q) d =
    (apply p d).bind fun e => (apply q e).mapError (Failure.behind p.length) := by
  rcases turns_or_fails p d with ⟨e, hp⟩ | ⟨f, hp⟩
  · rw [apply_eq_ok_iff.2 hp]
    change _ = (apply q e).mapError _
    rcases turns_or_fails q e with ⟨e', hq⟩ | ⟨f, hq⟩
    · rw [apply_eq_ok_iff.2 hq]
      exact apply_eq_ok_iff.2 (hp.append hq)
    · rw [apply_eq_error_iff.2 hq]
      cases hq with
      | @intro done rest op cause _ _ turns fails =>
        have hfails : Fails ((p ++ done) ++ op :: rest) d ⟨(p ++ done).length, op, cause⟩ :=
          .intro (hp.append turns) fails
        rw [List.append_assoc, List.length_append] at hfails
        exact apply_eq_error_iff.2 hfails
  · rw [apply_eq_error_iff.2 hp]
    cases hp with
    | intro turns fails =>
      refine apply_eq_error_iff.2 ?_
      rw [List.append_assoc]
      exact .intro turns fails

/-! ## Operations in place -/

theorem applyWhile_of_turns (h : Turns p d e) (done : Nat) (q : Patch) :
    applyWhile done (p ++ q) d = applyWhile (done + p.length) q e := by
  induction h generalizing done with
  | nil d => rfl
  | cons first _ ih =>
    rw [List.cons_append, applyWhile, PatchOp.applyInPlace_eq, first]
    refine (ih _).trans ?_
    rw [List.length_cons, Nat.add_assoc, Nat.add_comm 1]

theorem applyWhile_eq_of_turns (h : Turns p d e) (done : Nat) :
    applyWhile done p d = (e, done + p.length, none) := by
  have hall := applyWhile_of_turns h done []
  rwa [List.append_nil] at hall

/-- The document that is left is the one that the operations before the failure make. -/
theorem applyWhile_eq_of_fails (h : Fails p d f) (done : Nat) :
    ∃ e, Turns (p.take f.index) d e ∧
      applyWhile done p d = (e, done + f.index, some f.cause) := by
  cases h with
  | intro turns fails =>
    refine ⟨_, by simpa using turns, ?_⟩
    rw [applyWhile_of_turns turns, applyWhile, PatchOp.applyInPlace_eq, fails]

theorem apply_eq_ok_iff_while : apply p d = .ok e ↔ applyWhile 0 p d = (e, p.length, none) := by
  rcases turns_or_fails p d with ⟨e', hp⟩ | ⟨f, hp⟩
  · rw [apply_eq_ok_iff.2 hp, applyWhile_eq_of_turns hp]
    simp
  · obtain ⟨e', _, hwhile⟩ := applyWhile_eq_of_fails hp 0
    rw [apply_eq_error_iff.2 hp, hwhile]
    simp

theorem apply_eq_error_iff_while : apply p d = .error f ↔ p[f.index]? = some f.op ∧
    ∃ e, Turns (p.take f.index) d e ∧ applyWhile 0 p d = (e, f.index, some f.cause) := by
  rcases turns_or_fails p d with ⟨e', hp⟩ | ⟨f', hp⟩
  · rw [apply_eq_ok_iff.2 hp, applyWhile_eq_of_turns hp]
    simp
  · obtain ⟨e', hturns, hwhile⟩ := applyWhile_eq_of_fails hp 0
    obtain ⟨hop', _⟩ := fails_iff.1 hp
    rw [Nat.zero_add] at hwhile
    rw [apply_eq_error_iff.2 hp, hwhile]
    constructor
    · rintro ⟨⟩
      exact ⟨hop', e', hturns, rfl⟩
    · rintro ⟨hop, e, _, heq⟩
      obtain ⟨i, op, cause⟩ := f
      cases heq
      rw [hop'] at hop
      cases hop
      rfl

/-- **Patches are applied in sequence, and all or nothing.** Two patches together do what they do
one after the other, a failure of the second being counted on from the first. A failure is reported
just if the operation with its index fails on what those before it have made. An operation in place
leaves the document as it was if it fails; so operations in place succeed just if the patch does,
and otherwise stop at the operation that the patch reports, with what those before it have made. -/
theorem apply_sequential (p : Patch) (d : Document) :
    (∀ q, apply (p ++ q) d =
      (apply p d).bind fun e => (apply q e).mapError (Failure.behind p.length)) ∧
    (∀ f, apply p d = .error f ↔ p[f.index]? = some f.op ∧
      ∃ e, Turns (p.take f.index) d e ∧ f.op.apply e = .error f.cause) ∧
    (∀ op : PatchOp, op.applyInPlace d = match op.apply d with
      | .ok e => (e, none)
      | .error cause => (d, some cause)) ∧
    (∀ e, apply p d = .ok e ↔ applyWhile 0 p d = (e, p.length, none)) ∧
    ∀ f, apply p d = .error f ↔ p[f.index]? = some f.op ∧
      ∃ e, Turns (p.take f.index) d e ∧ applyWhile 0 p d = (e, f.index, some f.cause) := by
  exact ⟨fun q => apply_append p q d, fun f => apply_eq_error_iff.trans fails_iff,
    fun op => op.applyInPlace_eq d, fun e => apply_eq_ok_iff_while,
    fun f => apply_eq_error_iff_while⟩

end Patch

end BatchRun
