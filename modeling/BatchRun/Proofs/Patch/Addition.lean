import BatchRun.Proofs.Document.Embedding
import BatchRun.Proofs.Patch.Frame

/-!
# Additions beside a template

An addition may give a document something that a template does not have: a member under a new key,
or an item after the last one. It cannot fail on a document that has the places of the template,
and it leaves these places alone.

* `PatchOp.Furthers`: an addition beside what a template has;
* `PatchOp.Furthers.exists_apply` for one operation, **`Patch.turns_of_furthers`** for a patch: it
  succeeds and the places of the template stay covered, with the same leaves;
* `PatchOp.spares_of_new`, `PatchOp.spares_of_apart`: what such an addition leaves alone.
-/

namespace BatchRun

open Document Pointer

namespace Document

variable {t d x y z v w : Document} {k : String} {parent place us : List String}

theorem Fits.setStep (h : w.Fits v) (k : String) (u : Document) : w.Fits (setStep k u v) := by
  cases w with
  | object ms =>
    obtain ⟨ns, rfl⟩ := h
    exact ⟨_, rfl⟩
  | array xs =>
    obtain ⟨ys, rfl⟩ := h
    rw [Document.setStep]
    cases index? k with
    | none => exact ⟨_, rfl⟩
    | some i => exact ⟨_, rfl⟩
  | _ => trivial

/-- **A change at a place of a template that keeps what is under the tokens of the template** keeps
every place of the template, and every leaf as it is. -/
theorem resolve?_setAt_of_covers (h : Covers t d) (hz : resolve? parent t = some z)
    (hleaf : ¬ z.IsLeaf) (hx : resolve? parent d = some x) (hfits : z.Fits y)
    (hkeep : ∀ k, z.step? k ≠ none → y.step? k = x.step? k) (hw : resolve? place t = some w) :
    ∃ v, resolve? place (setAt y parent d) = some v ∧ w.Fits v ∧
      (w.IsLeaf → resolve? place d = some v) := by
  obtain ⟨v, hv, hwv⟩ := h place w hw
  rcases apart_or_prefix parent place with hapart | ⟨rest, rfl⟩ | ⟨rest, rfl⟩
  · exact ⟨v, by rw [resolve?_setAt_of_apart hapart, hv], hwv, fun _ => hv⟩
  · rw [resolve?_append, hz, Option.bind_some] at hw
    cases rest with
    | nil =>
      cases hw
      rw [List.append_nil]
      exact ⟨y, resolve?_setAt hx y, hfits, fun hl => absurd hl hleaf⟩
    | cons k us =>
      obtain ⟨u, hu, _⟩ := resolve?_cons_eq_some hw
      have hsame : resolve? (parent ++ k :: us) (setAt y parent d) =
          resolve? (parent ++ k :: us) d := by
        rw [resolve?_append, resolve?_append, resolve?_setAt hx, hx, Option.bind_some,
          Option.bind_some, resolve?, resolve?, hkeep k (by simp [hu])]
      exact ⟨v, by rw [hsame, hv], hwv, fun _ => hv⟩
  · -- the place lies on the way to the change, where only the value below one token is new
    rw [resolve?_append, hw, Option.bind_some] at hz
    cases rest with
    | nil =>
      cases hz
      rw [List.append_nil] at hx ⊢
      exact ⟨y, resolve?_setAt hx y, hfits, fun hl => absurd hl hleaf⟩
    | cons k us =>
      rw [resolve?_append, hv, Option.bind_some] at hx
      obtain ⟨u, hu, _⟩ := resolve?_cons_eq_some hx
      refine ⟨setAt y (k :: us) v, ?_, ?_, fun hl => ?_⟩
      · rw [setAt_append hv]
        exact resolve?_setAt hv _
      · rw [setAt_cons hu]
        exact hwv.setStep k _
      · obtain ⟨u', hu', _⟩ := resolve?_cons_eq_some hz
        rw [hl.step?_eq_none] at hu'
        cases hu'

/-- The place is that of a member which an object of the template does not have. -/
def New (t : Document) (place : List String) : Prop :=
  ∃ parent ms key, place = parent ++ [key] ∧ resolve? parent t = some (.object ms) ∧
    Members.get? key ms = none

theorem New.resolve?_eq_none (h : New t place) : resolve? place t = none := by
  obtain ⟨parent, ms, key, rfl, there, new⟩ := h
  rw [resolve?_append, there, Option.bind_some, resolve?, step?, new]
  rfl

theorem New.eq_or_apart (h : New t place) (hus : New t us) : place = us ∨ Apart place us := by
  -- what lies on the way to a new place is in the template, and a new place is not
  have honly {ts vs : List String} (hts : New t ts) (hvs : New t vs) (hpre : ts <+: vs) :
      ts = vs := by
    obtain ⟨parent, ms, key, rfl, there, _⟩ := hvs
    rcases List.prefix_concat_iff.1 hpre with heq | ⟨rest, rfl⟩
    · exact heq
    · rw [resolve?_append, hts.resolve?_eq_none] at there
      cases there
  rcases apart_or_prefix place us with hapart | hpre | hpre
  · exact .inr hapart
  · exact .inl (honly h hus hpre)
  · exact .inl (honly hus h hpre).symm

end Document

/-! ## One addition -/

/-- The operation adds a member that a template does not have, or an item to one of its arrays,
after the last one. -/
inductive PatchOp.Furthers (t : Document) : PatchOp → Prop where
  | member {place : List String} {value : Document} (new : New t place) :
      Furthers t (.add (render place) value)
  | item {parent : List String} {xs : List Document} {value : Document}
      (there : resolve? parent t = some (.array xs)) :
      Furthers t (.add (render (parent ++ ["-"])) value)

/-- The document has the places of a template and its leaves are those of another document. -/
structure Document.Keeps (t d e : Document) : Prop where
  covers : Covers t e
  leaves : ∀ place x, Differs t e place x → Differs t d place x

variable {t d e : Document} {op : PatchOp} {p : Patch} {us : List String}

theorem Document.keeps_setAt {parent : List String} {x y z : Document} (h : Covers t d)
    (hz : resolve? parent t = some z) (hleaf : ¬ z.IsLeaf) (hx : resolve? parent d = some x)
    (hfits : z.Fits y) (hkeep : ∀ k, z.step? k ≠ none → y.step? k = x.step? k) :
    Keeps t d (setAt y parent d) := by
  refine ⟨fun place w hw => ?_, fun place w hdiff => ?_⟩
  · obtain ⟨v, hv, hwv, _⟩ := resolve?_setAt_of_covers h hz hleaf hx hfits hkeep hw
    exact ⟨v, hv, hwv⟩
  · obtain ⟨hl, hw, u, hu, hne⟩ := hdiff
    obtain ⟨v, hv, _, hsame⟩ := resolve?_setAt_of_covers h hz hleaf hx hfits hkeep hw
    rw [hu] at hv
    cases hv
    exact ⟨hl, hw, u, hsame hl, hne⟩

/-- **An addition beside a template succeeds** on a document that has the places of the template. -/
theorem PatchOp.Furthers.exists_apply (h : op.Furthers t) (hd : Covers t d) :
    ∃ e, op.apply d = .ok e ∧ Keeps t d e := by
  cases h with
  | @member _ value new =>
    obtain ⟨parent, ms, key, rfl, there, new⟩ := new
    obtain ⟨x, hx, ns, rfl⟩ := hd parent _ there
    rw [render_append]
    refine ⟨_, apply_add_member hx key value,
      keeps_setAt hd there (not_isLeaf_object ms) hx ⟨_, rfl⟩ fun k hk => ?_⟩
    refine Members.get?_insert_of_ne value ns ?_
    rintro rfl
    exact hk new
  | @item parent xs value there =>
    obtain ⟨x, hx, ys, rfl⟩ := hd parent _ there
    rw [render_append]
    refine ⟨_, apply_add_child hx "-" rfl,
      keeps_setAt hd there (not_isLeaf_array xs) hx ⟨_, rfl⟩ fun k hk => ?_⟩
    -- an item of the template is one of those in front of the new one
    obtain ⟨v, hv⟩ := Option.ne_none_iff_exists'.1 hk
    obtain ⟨w, hw, _⟩ := hd (parent ++ [k]) v (by
      rw [resolve?_append, there, Option.bind_some, resolve?, hv]
      rfl)
    rw [resolve?_append, hx, Option.bind_some] at hw
    obtain ⟨u, hu, _⟩ := resolve?_cons_eq_some hw
    obtain ⟨i, hi, hyi⟩ := Option.bind_eq_some_iff.1 hu
    obtain ⟨hlt, _⟩ := List.getElem?_eq_some_iff.1 hyi
    simp [step?, hi, List.getElem?_append_left hlt]

theorem PatchOp.Furthers.covers_of_apply (h : op.Furthers t) (hd : Covers t d)
    (happly : op.apply d = .ok e) : Covers t e := by
  obtain ⟨e', he', hkeeps⟩ := h.exists_apply hd
  rw [happly] at he'
  cases he'
  exact hkeeps.covers

theorem PatchOp.resolve?_of_new {place : List String} {value : Document} (h : New t place)
    (hd : Covers t d) (happly : (PatchOp.add (render place) value).apply d = .ok e) :
    resolve? place e = some value := by
  obtain ⟨parent, ms, key, rfl, there, _⟩ := h
  obtain ⟨x, hx, ns, rfl⟩ := hd parent _ there
  rw [render_append, apply_add_member hx] at happly
  cases happly
  rw [resolve?_append, resolve?_setAt hx, Option.bind_some, resolve?, step?,
    Members.get?_insert_self]
  rfl

theorem PatchOp.spares_of_new {place : List String} (h : New t place) (value : Document)
    (hd : Covers t d) (hapart : Apart place us) :
    (PatchOp.add (render place) value).Spares us d := by
  refine ⟨fun ts hts => ?_, ?_⟩
  · rw [path, parse_render] at hts
    cases hts
    exact hapart
  · rintro above _ ⟨token, xs, hparse, hxs⟩
    obtain ⟨parent, ms, key, rfl, there, _⟩ := h
    rw [parse_render] at hparse
    obtain ⟨rfl, _⟩ := List.append_singleton_inj.1 (Except.ok.inj hparse)
    obtain ⟨x, hx, ns, rfl⟩ := hd parent _ there
    rw [hxs] at hx
    cases hx

theorem PatchOp.spares_of_apart {parent : List String} (token : String) (value : Document)
    (hapart : Apart parent us) :
    (PatchOp.add (render (parent ++ [token])) value).Spares us d := by
  refine ⟨fun ts hts => ?_, ?_⟩
  · rw [path, parse_render] at hts
    cases hts
    exact hapart.append_left [token]
  · rintro above habove ⟨_, _, hparse, _⟩
    rw [parse_render] at hparse
    obtain ⟨rfl, _⟩ := List.append_singleton_inj.1 (Except.ok.inj hparse)
    exact hapart.1 habove

/-! ## Many additions -/

/-- **Additions beside a template succeed**, one after another. -/
theorem Patch.turns_of_furthers (h : ∀ op ∈ p, op.Furthers t) (hd : Covers t d) :
    ∃ e, Turns p d e ∧ Keeps t d e := by
  induction p generalizing d with
  | nil => exact ⟨d, .nil d, hd, fun _ _ hdiff => hdiff⟩
  | cons op p ih =>
    obtain ⟨hop, hp⟩ := List.forall_mem_cons.1 h
    obtain ⟨e, he, hkeeps⟩ := hop.exists_apply hd
    obtain ⟨f, hf, hkeeps'⟩ := ih hp hkeeps.covers
    exact ⟨f, .cons he hf, hkeeps'.covers,
      fun place x hdiff => hkeeps.leaves place x (hkeeps'.leaves place x hdiff)⟩

theorem Patch.Turns.covers_of_furthers (hturns : Turns p d e) (h : ∀ op ∈ p, op.Furthers t)
    (hd : Covers t d) : Covers t e := by
  obtain ⟨e', he', hkeeps⟩ := turns_of_furthers h hd
  rw [hturns.unique he']
  exact hkeeps.covers

theorem Patch.spares_of_furthers (h : ∀ op ∈ p, op.Furthers t) (hd : Covers t d)
    (hs : ∀ op ∈ p, ∀ e, Covers t e → op.Spares us e) : Spares us p d := by
  induction p generalizing d with
  | nil => trivial
  | cons op p ih =>
    obtain ⟨hop, hp⟩ := List.forall_mem_cons.1 h
    obtain ⟨hsop, hsp⟩ := List.forall_mem_cons.1 hs
    refine ⟨hsop d hd, fun e he => ih hp ?_ hsp⟩
    obtain ⟨e', he', hkeeps⟩ := hop.exists_apply hd
    rw [he] at he'
    cases he'
    exact hkeeps.covers

/-- What one of the additions puts at a new place is there in the end, if all others spare it. -/
theorem Patch.Turns.resolve?_of_mem {place : List String} {value : Document}
    (hturns : Turns p d e) (h : ∀ op ∈ p, op.Furthers t) (hp : Proper p) (hd : d.Proper)
    (hcovers : Covers t d) (hnew : New t place) (hmem : PatchOp.add (render place) value ∈ p)
    (hs : ∀ op ∈ p, op = .add (render place) value ∨ ∀ e, Covers t e → op.Spares place e) :
    resolve? place e = some value := by
  induction hturns with
  | nil => cases hmem
  | @cons op rest d e f happly hothers ih =>
    obtain ⟨hop, hrest⟩ := List.forall_mem_cons.1 h
    obtain ⟨hpop, hprest⟩ := proper_cons_iff.1 hp
    obtain ⟨_, hsrest⟩ := List.forall_mem_cons.1 hs
    have he : e.Proper := PatchOp.apply_proper happly hpop hd
    have hcovers' : Covers t e := hop.covers_of_apply hcovers happly
    by_cases hlater : PatchOp.add (render place) value ∈ rest
    · exact ih hrest hprest he hcovers' hlater hsrest
    · -- this is the last time that the value is put there
      obtain rfl : PatchOp.add (render place) value = op := by simpa [hlater] using hmem
      rw [hothers.resolve?_of_spares hprest he
        (spares_of_furthers hrest hcovers' fun later hmem' =>
          (hsrest later hmem').resolve_left ?_)]
      · exact PatchOp.resolve?_of_new hnew hcovers happly
      · rintro rfl
        exact hlater hmem'

end BatchRun
