import BatchRun.Document.Along
import BatchRun.Proofs.Document.Members

/-!
# Overwriting the value at a place

`setAt` overwrites the value at a place that is there. Look-up and overwriting obey the laws of a
field, and every change at a place is an overwriting of some place on the way.

* `Document.setStep`, **`Document.updateStep?_eq`**: a change under a token looks up, changes and
  overwrites;
* `Document.setAt`, `resolve?_setAt`, `setAt_setAt`, `setAt_resolve?`, `setAt_append`;
* `Document.replaceAt?_eq`, `addAt?_concat`, `removeAt?_concat`: each change looks up and overwrites;
* `Document.resolve?_eq_along`: a place whose tokens are no indices;
* `Document.KeyChain`, **`Document.along_eq_some_iff`**: member names lead where the same tokens
  lead, if these are looked up in objects only.
-/

namespace BatchRun

namespace Document

/-! ## Tokens that are keys -/

theorem step?_eq_member? {key : String} (h : Pointer.index? key = none) (d : Document) :
    d.step? key = d.member? key := by
  cases d with
  | array xs => rw [step?, h, Option.bind_none, member?.eq_def]
  | _ => rfl

theorem along_cons (key : String) (rest : List String) (d : Document) :
    along (key :: rest) d = (d.member? key).bind (along rest) := by
  rw [along]
  cases d.member? key <;> rfl

theorem resolve?_eq_along {path : List String} (h : ∀ key ∈ path, Pointer.index? key = none)
    (d : Document) : resolve? path d = along path d := by
  induction path generalizing d with
  | nil => rfl
  | cons key rest ih =>
    rw [resolve?, along_cons, step?_eq_member? (h key List.mem_cons_self)]
    exact Option.bind_congr fun inner _ => ih (fun k hk => h k (List.mem_cons_of_mem _ hk)) inner

theorem member?_eq_some_iff {key : String} {d x : Document} :
    d.member? key = some x ↔ ∃ ms : Members, d = .object ms ∧ ms.get? key = some x := by
  cases d <;> simp [member?]

/-- A chain of keys: wherever it leads, its next key is looked up in an object. -/
def KeyChain : List String → Document → Prop
  | [], _ => True
  | key :: rest, d => ∃ ms : Members, d = .object ms ∧ ∀ x, ms.get? key = some x → KeyChain rest x

section

variable {keys : List String} {d x : Document}

theorem KeyChain.resolve?_eq_along (h : KeyChain keys d) : resolve? keys d = along keys d := by
  induction keys generalizing d with
  | nil => rfl
  | cons key rest ih =>
    obtain ⟨ms, rfl, hrest⟩ := h
    rw [resolve?, step?, along_cons, member?]
    exact Option.bind_congr fun y hy => ih (hrest y hy)

theorem keyChain_of_along (h : along keys d = some x) : KeyChain keys d := by
  induction keys generalizing d with
  | nil => trivial
  | cons key rest ih =>
    rw [along_cons] at h
    obtain ⟨y, hy, hx⟩ := Option.bind_eq_some_iff.1 h
    obtain ⟨ms, rfl, hget⟩ := member?_eq_some_iff.1 hy
    refine ⟨ms, rfl, fun z hz => ?_⟩
    rw [hget] at hz
    cases hz
    exact ih hx

/-- **Member names lead to a value just if they are a chain of keys and lead there as tokens.** -/
theorem along_eq_some_iff : along keys d = some x ↔ KeyChain keys d ∧ resolve? keys d = some x := by
  constructor
  · intro h
    have hchain : KeyChain keys d := keyChain_of_along h
    exact ⟨hchain, hchain.resolve?_eq_along.trans h⟩
  · rintro ⟨hchain, h⟩
    exact hchain.resolve?_eq_along.symm.trans h

end

/-! ## One token -/

/-- The document with the value under a token overwritten. -/
def setStep (token : String) (value : Document) : Document → Document
  | .object ms => .object (Members.insert token value ms)
  | .array xs =>
    match Pointer.index? token with
    | some i => .array (xs.set i value)
    | none => .array xs
  | d => d

theorem updateItem?_eq (f : Document → Option Document) (i : Nat) (xs : List Document) :
    updateItem? f i xs = (xs[i]?.bind f).map fun (w : Document) => xs.set i w := by
  induction xs generalizing i with
  | nil => simp [updateItem?]
  | cons x rest ih =>
    cases i with
    | zero => simp [updateItem?]
    | succ i => simp [updateItem?, ih, Function.comp_def]

/-- **A change under a token looks up, changes and overwrites.** -/
theorem updateStep?_eq (token : String) (f : Document → Option Document) (d : Document) :
    d.updateStep? token f =
      ((d.step? token).bind f).map fun (w : Document) => setStep token w d := by
  cases d with
  | object ms => simp [updateStep?, step?, setStep, Members.update?_eq, Function.comp_def]
  | array xs =>
    cases hi : Pointer.index? token with
    | none => simp [updateStep?, step?, hi]
    | some i => simp [updateStep?, step?, setStep, hi, updateItem?_eq, Function.comp_def]
  | _ => rfl

theorem step?_setStep {token : String} {d x : Document} (h : d.step? token = some x)
    (y : Document) : (setStep token y d).step? token = some y := by
  cases d with
  | object ms => simp [setStep, step?]
  | array xs =>
    obtain ⟨i, hi, hx⟩ := Option.bind_eq_some_iff.1 h
    obtain ⟨hlt, _⟩ := List.getElem?_eq_some_iff.1 hx
    simp [setStep, step?, hi, hlt]
  | _ => cases h

theorem setStep_setStep (token : String) (y z d : Document) :
    setStep token z (setStep token y d) = setStep token z d := by
  cases d with
  | object ms => simp [setStep, Members.insert_insert]
  | array xs => cases hi : Pointer.index? token <;> simp [setStep, hi]
  | _ => rfl

theorem setStep_step? {token : String} {d x : Document} (h : d.step? token = some x) :
    setStep token x d = d := by
  cases d with
  | object ms => rw [setStep, Members.insert_get? h]
  | array xs =>
    obtain ⟨i, hi, hx⟩ := Option.bind_eq_some_iff.1 h
    obtain ⟨hlt, rfl⟩ := List.getElem?_eq_some_iff.1 hx
    simp [setStep, hi]
  | _ => rfl

/-! ## A place -/

/-- The document with the value at a place overwritten, if there is such a place. -/
def setAt (value : Document) : List String → Document → Document
  | [], _ => value
  | token :: rest, d =>
    match d.step? token with
    | some x => setStep token (setAt value rest x) d
    | none => d

@[simp] theorem setAt_nil (value d : Document) : setAt value [] d = value := rfl

theorem setAt_cons {token : String} {d x : Document} (h : d.step? token = some x)
    (value : Document) (rest : List String) :
    setAt value (token :: rest) d = setStep token (setAt value rest x) d := by
  rw [setAt, h]

theorem resolve?_cons_eq_some {token : String} {rest : List String} {d x : Document}
    (h : resolve? (token :: rest) d = some x) :
    ∃ y, d.step? token = some y ∧ resolve? rest y = some x := Option.bind_eq_some_iff.1 h

theorem resolve?_append (ts us : List String) (d : Document) :
    resolve? (ts ++ us) d = (resolve? ts d).bind (resolve? us) := by
  induction ts generalizing d with
  | nil => rfl
  | cons t ts ih =>
    rw [List.cons_append, resolve?, resolve?]
    cases d.step? t with
    | none => rfl
    | some y => exact ih y

theorem resolve?_setAt {ts : List String} {d x : Document} (h : resolve? ts d = some x)
    (y : Document) : resolve? ts (setAt y ts d) = some y := by
  induction ts generalizing d with
  | nil => rfl
  | cons t ts ih =>
    obtain ⟨z, hz, hx⟩ := resolve?_cons_eq_some h
    rw [setAt_cons hz, resolve?, step?_setStep hz, Option.bind_some]
    exact ih hx

theorem setAt_setAt (y z : Document) (ts : List String) (d : Document) :
    setAt z ts (setAt y ts d) = setAt z ts d := by
  induction ts generalizing d with
  | nil => rfl
  | cons t ts ih =>
    cases hs : d.step? t with
    | none =>
      have hd : setAt y (t :: ts) d = d := by rw [setAt, hs]
      rw [hd]
    | some x =>
      rw [setAt_cons hs, setAt_cons (step?_setStep hs _), setAt_cons hs, ih, setStep_setStep]

theorem setAt_resolve? {ts : List String} {d x : Document} (h : resolve? ts d = some x) :
    setAt x ts d = d := by
  induction ts generalizing d with
  | nil => exact (Option.some.inj h).symm
  | cons t ts ih =>
    obtain ⟨z, hz, hx⟩ := resolve?_cons_eq_some h
    rw [setAt_cons hz, ih hx, setStep_step? hz]

theorem setAt_append {ts : List String} {d x : Document} (h : resolve? ts d = some x)
    (y : Document) (us : List String) : setAt y (ts ++ us) d = setAt (setAt y us x) ts d := by
  induction ts generalizing d with
  | nil =>
    cases h
    rfl
  | cons t ts ih =>
    obtain ⟨z, hz, hx⟩ := resolve?_cons_eq_some h
    rw [List.cons_append, setAt_cons hz, setAt_cons hz, ih hx]

/-! ## Changes -/

theorem replaceAt?_eq (value : Document) (ts : List String) (d : Document) :
    replaceAt? value ts d = (resolve? ts d).map fun _ => setAt value ts d := by
  induction ts generalizing d with
  | nil => rfl
  | cons t ts ih =>
    rw [replaceAt?, updateStep?_eq, resolve?]
    cases hs : d.step? t with
    | none => rfl
    | some x => simp [ih, setAt_cons hs, Function.comp_def]

theorem addAt?_cons (value : Document) (t : String) {ts : List String} (h : ts ≠ [])
    (d : Document) : addAt? value (t :: ts) d = d.updateStep? t (addAt? value ts) := by
  obtain ⟨next, rest, rfl⟩ := List.exists_cons_of_ne_nil h
  rfl

theorem removeAt?_cons (t : String) {ts : List String} (h : ts ≠ []) (d : Document) :
    removeAt? (t :: ts) d = d.updateStep? t (removeAt? ts) := by
  obtain ⟨next, rest, rfl⟩ := List.exists_cons_of_ne_nil h
  rfl

/-- **A change that is handed on from token to token changes what stands above its last token.** -/
theorem handedOn_concat {change : List String → Document → Option Document}
    (hcons : ∀ s ts, ts ≠ [] → ∀ d, change (s :: ts) d = d.updateStep? s (change ts))
    (ts : List String) (t : String) (d : Document) : change (ts ++ [t]) d =
      ((resolve? ts d).bind (change [t])).map fun (y : Document) => setAt y ts d := by
  induction ts generalizing d with
  | nil => simp [resolve?]
  | cons s ts ih =>
    rw [List.cons_append, hcons s (ts ++ [t]) (by simp), updateStep?_eq, resolve?]
    cases hs : d.step? s with
    | none => rfl
    | some x => simp [ih, setAt_cons hs, Function.comp_def]

theorem addAt?_concat (value : Document) (ts : List String) (t : String) (d : Document) :
    addAt? value (ts ++ [t]) d =
      ((resolve? ts d).bind (put? t value)).map fun (y : Document) => setAt y ts d :=
  handedOn_concat (fun s _ h => addAt?_cons value s h) ts t d

theorem removeAt?_concat (ts : List String) (t : String) (d : Document) :
    removeAt? (ts ++ [t]) d =
      ((resolve? ts d).bind (drop? t)).map fun (y : Document) => setAt y ts d :=
  handedOn_concat (fun s _ h => removeAt?_cons s h) ts t d

theorem addAt?_append (value : Document) {ts : List String} {d x : Document}
    (h : resolve? ts d = some x) (t : String) :
    addAt? value (ts ++ [t]) d = (put? t value x).map fun (y : Document) => setAt y ts d := by
  rw [addAt?_concat, h, Option.bind_some]

theorem removeAt?_append {ts : List String} {d x : Document} (h : resolve? ts d = some x)
    (t : String) :
    removeAt? (ts ++ [t]) d = (drop? t x).map fun (y : Document) => setAt y ts d := by
  rw [removeAt?_concat, h, Option.bind_some]

end Document

end BatchRun
