import BatchRun.Proofs.Patch.Sequence

/-!
# Pointers made of keys

A pointer that is put together from escaped keys takes them literally, whatever they look like: it
leads where the keys lead as member names, and an addition there sets this member and no other.

* `Document.SetsMember`: a document with one member set at the end of a chain of keys,
  `Document.SetsMember.resolve?_of_apart`: nothing else has changed,
  `Document.SetsMember.unique`: there is only one such document;
* `PatchOp.exists_apply_add`: an addition below an object that is there makes it;
* **`Pointer.render_addresses_keys`**.
-/

namespace BatchRun

namespace Document

variable {keys place : List String} {value d e f : Document} {ms : Members}

/-- The second document is the first with one member set, at the end of a chain of keys. Every
object on the way keeps its members in their order, but for the one that leads on. -/
inductive SetsMember (value : Document) : List String → Document → Document → Prop where
  | here (key : String) (ms : Members) :
      SetsMember value [key] (.object ms) (.object (ms.insert key value))
  | inside {key : String} {keys : List String} {ms : Members} {x y : Document}
      (there : ms.get? key = some x) (sets : SetsMember value keys x y) :
      SetsMember value (key :: keys) (.object ms) (.object (ms.insert key y))

theorem SetsMember.along (h : SetsMember value keys d e) : along keys e = some value := by
  induction h with
  | here key ms => simp [member?, Document.along]
  | inside _ _ ih => rw [along_cons, member?, Members.get?_insert_self, Option.bind_some, ih]

/-- **Nothing else has changed** but what holds the member. -/
theorem SetsMember.resolve?_of_apart (h : SetsMember value keys d e) (hapart : Apart keys place) :
    resolve? place e = resolve? place d := by
  induction h generalizing place with
  | here key ms =>
    cases place with
    | nil => exact absurd hapart (not_apart_nil_right _)
    | cons k place =>
      have hne : key ≠ k := by simpa using hapart
      rw [resolve?, resolve?, step?, step?, Members.get?_insert_of_ne value ms hne.symm]
  | @inside key keys ms x y there _ ih =>
    cases place with
    | nil => exact absurd hapart (not_apart_nil_right _)
    | cons k place =>
      rw [resolve?, resolve?, step?, step?]
      by_cases hk : k = key
      · subst hk
        have hbelow : Apart keys place := by simpa using hapart
        rw [Members.get?_insert_self, there, Option.bind_some, Option.bind_some, ih hbelow]
      · rw [Members.get?_insert_of_ne y ms hk]

theorem SetsMember.unique (h : SetsMember value keys d e) (h' : SetsMember value keys d f) :
    e = f := by
  induction h generalizing f with
  | here key ms =>
    cases h' with
    | here => rfl
    | inside _ sets => cases sets
  | inside there sets ih =>
    cases h' with
    | here => cases sets
    | inside there' sets' =>
      rw [there] at there'
      cases there'
      rw [ih sets']

theorem setsMember_setAt (h : along keys d = some (.object ms)) (key : String) (value : Document) :
    SetsMember value (keys ++ [key]) d (setAt (.object (ms.insert key value)) keys d) := by
  induction keys generalizing d with
  | nil =>
    cases h
    exact .here key ms
  | cons k rest ih =>
    rw [along_cons] at h
    obtain ⟨x, hx, hms⟩ := Option.bind_eq_some_iff.1 h
    obtain ⟨ns, rfl, hget⟩ := member?_eq_some_iff.1 hx
    have hstep : (Document.object ns).step? k = some x := hget
    rw [setAt_cons hstep]
    exact .inside hget (ih hms)

end Document

open Document Pointer

/-- **An addition below an object that is there sets the member**, be it new or not, in a copy and
in place alike. -/
theorem PatchOp.exists_apply_add {keys : List String} {d : Document} {ms : Members}
    (h : along keys d = some (.object ms)) (key : String) (value : Document) :
    ∃ e, (PatchOp.add (render (keys ++ [key])) value).apply d = .ok e ∧
      (PatchOp.add (render (keys ++ [key])) value).applyInPlace d = (e, none) ∧
      SetsMember value (keys ++ [key]) d e := by
  have hparent : resolve? keys d = some (.object ms) := (along_eq_some_iff.1 h).2
  have happly := apply_add_member hparent key value
  rw [← render_append] at happly
  refine ⟨_, happly, ?_, setsMember_setAt h key value⟩
  rw [applyInPlace_eq, happly]

/-- **Escaped keys are taken literally.** Put together, each behind a slash, they are a pointer that
has just these keys as its tokens; no other text has them, and no other keys have this text. What the
keys lead to as member names is what the pointer leads to, as long as only objects are on the way.
An addition at one key more makes of a document that has an object there the one with this member
set, where the member has the value and what is apart from it is as it was. -/
theorem Pointer.render_addresses_keys (keys : List String) :
    render keys = String.join (keys.map fun (key : String) => "/" ++ escape key) ∧
      (∀ text, parse text = .ok keys ↔ text = render keys) ∧
      (∀ others, render others = render keys → others = keys) ∧
      (∀ d x, along keys d = some x ↔ KeyChain keys d ∧ resolve? keys d = some x) ∧
      ∀ d ms key value, along keys d = some (.object ms) →
        ∃ e, (PatchOp.add (render (keys ++ [key])) value).apply d = .ok e ∧
          (PatchOp.add (render (keys ++ [key])) value).applyInPlace d = (e, none) ∧
          (∀ f, SetsMember value (keys ++ [key]) d f ↔ f = e) ∧
          along (keys ++ [key]) e = some value ∧
          ∀ place, Apart (keys ++ [key]) place → resolve? place e = resolve? place d := by
  refine ⟨render_eq_join keys, fun _ => parse_eq_ok_iff, fun _ => render_injective,
    fun _ _ => along_eq_some_iff, fun d ms key value hparent => ?_⟩
  obtain ⟨e, hcopy, hplace, hsets⟩ := PatchOp.exists_apply_add hparent key value
  refine ⟨e, hcopy, hplace, fun f => ⟨fun hf => hf.unique hsets, ?_⟩, hsets.along,
    fun _ => hsets.resolve?_of_apart⟩
  rintro rfl
  exact hsets

/-- The first key is empty, the second looks like an escape, and beside it stands the key that is
written as the second one looks. -/
theorem Pointer.render_addresses_keys_lookalike :
    along ["", "~1"] (.object [("", .object [("~1", .object [("0", .null)]), ("/", .bool true)])]) =
        some (.object [("0", .null)]) ∧
      ∃ e, (PatchOp.add "//~01/~0~1" (.int 7)).apply
          (.object [("", .object [("~1", .object [("0", .null)]), ("/", .bool true)])]) = .ok e ∧
        along ["", "~1", "~/"] e = some (.int 7) ∧ resolve? ["", "/"] e = some (.bool true) := by
  have htext : render (["", "~1"] ++ ["~/"]) = "//~01/~0~1" := by decide +kernel
  have hparent : along ["", "~1"]
      (.object [("", .object [("~1", .object [("0", .null)]), ("/", .bool true)])]) =
        some (.object [("0", .null)]) := rfl
  obtain ⟨_, _, _, _, hadd⟩ := render_addresses_keys ["", "~1"]
  obtain ⟨e, happly, _, _, hmember, hothers⟩ := hadd _ _ "~/" (.int 7) hparent
  rw [htext] at happly
  exact ⟨hparent, e, happly, hmember, (hothers ["", "/"] (by decide)).trans rfl⟩

end BatchRun
