import BatchRun.Proofs.Manifest.Base
import BatchRun.Proofs.Manifest.Shortcuts

/-!
# What composing gives

The shortcuts cannot fail on a base, so that a manifest fails over its overrides only.

* `Composed`: the three results, **`ManifestBase.compose_eq_iff`**: composing gives the one that is
  right;
* `Patch.Outlasts`: nothing after an override touches its place,
  **`ManifestBase.compose_eq_written`**: then the manifest has its value there.
-/

namespace BatchRun

open Document Pointer

variable {overrides : Patch} {d manifest : Document} {r r' : Except ManifestError Document}

/-! ## The three results -/

/-- The three results, by what the overrides make of a base with its shortcuts: one of them fails;
or all succeed, but the manifest does not have all places of the template and the error names the
outermost ones that it lacks; or it has them all. -/
inductive Composed (overrides : Patch) (d : Document) : Except ManifestError Document → Prop where
  | rejected {failure : Patch.Failure} (fails : Patch.Fails overrides d failure) :
      Composed overrides d (.error (.patch failure))
  | incomplete {manifest : Document} {paths : List String}
      (turns : Patch.Turns overrides d manifest)
      (lacks : ∃ place, Lacks Template.document manifest place)
      (lists : Lists (ReportsLack Template.document manifest) paths) :
      Composed overrides d (.error (.missingPlaces paths))
  | complete {manifest : Document} (turns : Patch.Turns overrides d manifest)
      (covers : Covers Template.document manifest) : Composed overrides d (.ok manifest)

theorem exists_composed (overrides : Patch) (d : Document) : ∃ r, Composed overrides d r := by
  rcases Patch.turns_or_fails overrides d with ⟨manifest, hturns⟩ | ⟨failure, hfails⟩
  · by_cases hcovers : Covers Template.document manifest
    · exact ⟨_, .complete hturns hcovers⟩
    · have hlacks : ∃ place, Lacks Template.document manifest place := by
        simpa [covers_iff] using hcovers
      exact ⟨_, .incomplete hturns hlacks (lists_missingPlaces manifest)⟩
  · exact ⟨_, .rejected hfails⟩

/-- An operation that turns one document into another puts its value under its own token, and nothing
after it touches the place. -/
structure Patch.Outlasts (path : String) (after : Patch) (d e : Document) : Prop where
  /-- The token `-` names no item of an array, it only appends one. -/
  named : ∀ parent xs, Pointer.parse path = .ok (parent ++ ["-"]) →
    resolve? parent d ≠ some (.array xs)
  spared : ∀ ts, Pointer.parse path = .ok ts → Patch.Spares ts after e

namespace ManifestBase

variable {base : ManifestBase} {s : Shortcuts}

theorem compose_of_composed (h : Patch.Turns s.toPatch base.document d)
    (hr : Composed overrides d r) : base.compose s overrides = r := by
  cases hr with
  | rejected fails =>
    rw [compose, patched_of_turns h]
    change (patched overrides d).bind _ = _
    rw [patched, Patch.apply_eq_error_iff.2 fails]
    rfl
  | @incomplete manifest paths turns lacks lists =>
    have hnot : ¬ Covers Template.document manifest := by simpa [covers_iff] using lacks
    rw [compose_of_turns h turns, checkPlaces_of_not_covers hnot,
      (lists_missingPlaces manifest).unique lists]
    rfl
  | complete turns covers =>
    rw [compose_of_turns h turns, checkPlaces_of_covers covers]
    rfl

/-- **On every base the shortcuts succeed, and composing gives the one result that is right** for
what they have made of the base. -/
theorem compose_eq_iff (base : ManifestBase) (s : Shortcuts) (overrides : Patch) :
    ∃ d, Patch.Turns s.toPatch base.document d ∧
      ∀ r, base.compose s overrides = r ↔ Composed overrides d r := by
  obtain ⟨d, hturns, _⟩ := s.turns_toPatch base.covers
  refine ⟨d, hturns, fun r => ⟨?_, compose_of_composed hturns⟩⟩
  rintro rfl
  obtain ⟨r, hr⟩ := exists_composed overrides d
  rw [compose_of_composed hturns hr]
  exact hr

/-! ## Overrides -/

theorem turns_of_compose (h : base.compose s overrides = .ok manifest) :
    Patch.Turns (s.toPatch ++ overrides) base.document manifest := by
  obtain ⟨d, hturns, _⟩ := s.turns_toPatch base.covers
  obtain ⟨r, hr⟩ := exists_composed overrides d
  rw [compose_of_composed hturns hr] at h
  subst h
  cases hr with
  | complete turns _ => exact hturns.append turns

/-- **An override wins** over the base, the shortcuts and the overrides before it, as long as those
after it leave its place alone. -/
theorem compose_eq_written {before after : Patch} {op : PatchOp} {path : String}
    {value : Document} (hbase : base.document.Proper)
    (hoverrides : Patch.Proper (before ++ op :: after)) (hwrites : op.Writes path value)
    (hcompose : base.compose s (before ++ op :: after) = .ok manifest)
    (hlasts : ∀ d e, Patch.Turns (s.toPatch ++ before) base.document d → op.apply d = .ok e →
      Patch.Outlasts path after d e) :
    ∃ ts, Pointer.parse path = .ok ts ∧ resolve? ts manifest = some value := by
  have hturns := turns_of_compose hcompose
  rw [← List.append_assoc] at hturns
  obtain ⟨d, hbefore, hrest⟩ := Patch.turns_append_iff.1 hturns
  obtain ⟨hpbefore, hprest⟩ := Patch.proper_append_iff.1 hoverrides
  obtain ⟨hpop, hpafter⟩ := Patch.proper_cons_iff.1 hprest
  have hd : d.Proper :=
    hbefore.proper (Patch.proper_append_iff.2 ⟨s.proper_toPatch, hpbefore⟩) hbase
  cases hrest with
  | @cons _ _ _ e _ hop hafter =>
    obtain ⟨ts, hts, _⟩ := PatchOp.effect_of_apply hop
    have hpath : op.path = path := by cases hwrites <;> rfl
    rw [hpath] at hts
    have hout := hlasts d e hbefore hop
    refine ⟨ts, hts, Patch.Turns.resolve?_of_written hop hafter hwrites hts hpop hpafter hd
      (fun parent xs hdash => ?_) (hout.spared ts hts)⟩
    exact hout.named parent xs (hdash ▸ hts)

/-- The image of an override wins over the shortcut, though a label is added and the second container
replaced after it. -/
theorem compose_eq_written_image : ∃ manifest,
    labelled.compose { Shortcuts.standard with image := some "busybox" }
      ([.remove "/metadata/labels/team"] ++
        .add "/spec/template/spec/containers/0/image" (.string "alpine") ::
        [.add "/metadata/labels/app" (.string "b"),
          .replace "/spec/template/spec/containers/1" (.bool true)]) = .ok manifest ∧
    resolve? ["spec", "template", "spec", "containers", "0", "image"] manifest =
      some (.string "alpine") := by
  have himage : Pointer.parse "/spec/template/spec/containers/0/image" =
      .ok ["spec", "template", "spec", "containers", "0", "image"] := by cbv
  have hsecond : Pointer.parse "/spec/template/spec/containers/1" =
      .ok ["spec", "template", "spec", "containers", "1"] := by cbv
  have happ : "/metadata/labels/app" = render (["metadata", "labels"] ++ ["app"]) := by
    decide +kernel
  have houtlasts (d e : Document) :
      Patch.Outlasts "/spec/template/spec/containers/0/image"
        [.add "/metadata/labels/app" (.string "b"),
          .replace "/spec/template/spec/containers/1" (.bool true)] d e := by
    refine ⟨fun parent xs hdash => ?_, fun ts hts => ?_⟩
    · rw [himage] at hdash
      have hlast := congrArg List.getLast? (Except.ok.inj hdash)
      simp at hlast
    · rw [himage] at hts
      cases hts
      refine ⟨happ ▸ PatchOp.spares_of_apart "app" _ (by decide), fun _ _ =>
        ⟨⟨fun us hus => ?_, fun parent _ hshift => hshift⟩, fun _ _ => trivial⟩⟩
      rw [PatchOp.path, hsecond] at hus
      cases hus
      decide
  obtain ⟨manifest, hmanifest⟩ := exists_eq_ok_of_isOk (r := labelled.compose
    { Shortcuts.standard with image := some "busybox" }
    ([.remove "/metadata/labels/team"] ++
      .add "/spec/template/spec/containers/0/image" (.string "alpine") ::
      [.add "/metadata/labels/app" (.string "b"),
        .replace "/spec/template/spec/containers/1" (.bool true)])) (by decide +kernel)
  obtain ⟨ts, hts, hvalue⟩ := compose_eq_written (by simp [labelled])
    (by simp [Patch.Proper, PatchOp.Proper]) (.add _ _) hmanifest fun d e _ _ => houtlasts d e
  rw [himage] at hts
  cases hts
  exact ⟨manifest, hmanifest, hvalue⟩

end ManifestBase

end BatchRun
