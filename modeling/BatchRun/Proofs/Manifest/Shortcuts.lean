import BatchRun.Proofs.Manifest.Check
import BatchRun.Proofs.Patch.Addition
import BatchRun.Proofs.Text.Map

/-!
# What shortcuts do to a base

* `Shortcuts.Sets`: the places that shortcuts set, with their values;
* `Shortcuts.mem_toPatch_iff`: the patch of shortcuts sets these and appends the environment;
* `Shortcuts.turns_toPatch`: **on a base this patch cannot fail**;
* `Shortcuts.PutOn`: a manifest is a base with shortcuts put on it, and nothing else has changed,
  `Shortcuts.PutOn.same`: there is only one such manifest;
* **`ManifestBase.compose_shortcuts`**: that is what is composed from a base and shortcuts alone.
-/

namespace BatchRun

open Document Pointer

namespace Shortcuts

/-- The place of the pod specification. -/
def podPlace : List String := ["spec", "template", "spec"]

/-- The place of the first container. -/
def containerPlace : List String := ["spec", "template", "spec", "containers", "0"]

/-- The place of the environment of the first container. -/
def envPlace : List String := ["spec", "template", "spec", "containers", "0", "env"]

/-- A variable as an item of an environment. -/
def variableItem (p : String × String) : Document :=
  .object [("name", .string p.1), ("value", .string p.2)]

/-- The places that shortcuts set, each with its value; what is not given is not set. -/
inductive Sets (s : Shortcuts) : List String → Document → Prop where
  | ns : Sets s ["metadata", "namespace"] (.string s.ns)
  | name : Sets s ["metadata", "generateName"] (.string s.baseName)
  | label {key value : String} (given : (key, value) ∈ s.labels.pairs) :
      Sets s ["metadata", "labels", key] (.string (slugifyLabel value))
  | image {image : String} (given : s.image = some image) :
      Sets s (containerPlace ++ ["image"]) (.string image)
  | pullPolicy {policy : PullPolicy} (given : s.pullPolicy = some policy) :
      Sets s (containerPlace ++ ["imagePullPolicy"]) (.string policy.name)
  | serviceAccount {account : String} (given : s.serviceAccount = some account) :
      Sets s (podPlace ++ ["serviceAccountName"]) (.string account)
  | command (given : s.command ≠ []) :
      Sets s (containerPlace ++ ["command"]) (.ofStrings s.command)

/-- The addition of a variable to the environment of the first container. -/
def appendVariable (p : String × String) : PatchOp :=
  .add (render (envPlace ++ ["-"])) (variableItem p)

variable {s : Shortcuts} {op : PatchOp} {place us : List String} {value : Document}

/-! ## The places that are set -/

theorem Sets.new (h : s.Sets place value) : New Template.document place := by
  cases h with
  | ns => exact ⟨["metadata"], _, "namespace", rfl, rfl, rfl⟩
  | name => exact ⟨["metadata"], _, "generateName", rfl, rfl, rfl⟩
  | @label key _ _ => exact ⟨["metadata", "labels"], _, key, rfl, rfl, rfl⟩
  | image _ => exact ⟨containerPlace, _, "image", rfl, rfl, rfl⟩
  | pullPolicy _ => exact ⟨containerPlace, _, "imagePullPolicy", rfl, rfl, rfl⟩
  | serviceAccount _ => exact ⟨podPlace, _, "serviceAccountName", rfl, rfl, rfl⟩
  | command _ => exact ⟨containerPlace, _, "command", rfl, rfl, rfl⟩

theorem Sets.unique {v w : Document} (hv : s.Sets place v) (hw : s.Sets us w) (h : place = us) :
    v = w := by
  cases hv with
  | @label key _ given =>
    cases hw with
    | @label key' _ given' =>
      obtain rfl : key = key' := by simpa using h
      rw [TextMap.eq_of_mem_pairs given given']
    | _ => simp [containerPlace, podPlace] at h
  | _ => cases hw <;> simp_all [containerPlace, podPlace]

theorem Sets.eq_or_apart {v w : Document} (hv : s.Sets place v) (hw : s.Sets us w) :
    (place = us ∧ v = w) ∨ Apart place us :=
  (hv.new.eq_or_apart hw.new).imp_left fun h => ⟨h, hv.unique hw h⟩

theorem Sets.apart_envPlace (h : s.Sets place value) : Apart place envPlace := by
  cases h <;> simp [containerPlace, podPlace, envPlace]

/-! ## The patch of shortcuts -/

/-- The operation sets one of the places that shortcuts set. -/
def SetsBy (s : Shortcuts) (op : PatchOp) : Prop :=
  ∃ place value, s.Sets place value ∧ op = .add (render place) value

/-- What is set before the environment is appended. -/
def earlySettings (s : Shortcuts) : Patch :=
  .add "/metadata/namespace" (.string s.ns)
    :: addText (containerPointer ++ "/image") s.image
    ++ s.labels.pairs.map fun (p : String × String) =>
        PatchOp.add (Pointer.child "/metadata/labels" p.1) (.string (slugifyLabel p.2))

/-- What is set after the environment is appended. -/
def lateSettings (s : Shortcuts) : Patch :=
  addText (containerPointer ++ "/imagePullPolicy") (s.pullPolicy.map PullPolicy.name)
    ++ addText (podPointer ++ "/serviceAccountName") s.serviceAccount
    ++ (if s.command.isEmpty then []
        else [.add (containerPointer ++ "/command") (.ofStrings s.command)])
    ++ [.add "/metadata/generateName" (.string s.baseName)]

theorem toPatch_eq (s : Shortcuts) :
    s.toPatch = s.earlySettings ++ s.env.pairs.map appendVariable ++ s.lateSettings := by
  have hpath : render (envPlace ++ ["-"]) = containerPointer ++ "/env/-" := by decide +kernel
  have hitems : appendVariable = fun (p : String × String) =>
      PatchOp.add (containerPointer ++ "/env/-")
        (.object [("name", .string p.1), ("value", .string p.2)]) := by
    funext p
    rw [appendVariable, hpath, variableItem]
  rw [toPatch, earlySettings, lateSettings, hitems]
  simp only [List.append_assoc]

theorem mem_addText_iff {path : String} {text : Option String} :
    op ∈ addText path text ↔ ∃ t, text = some t ∧ op = .add path (.string t) := by
  cases text <;> simp [addText]

theorem render_label (key : String) :
    render ["metadata", "labels", key] = child "/metadata/labels" key := by
  have hlabels : render ["metadata", "labels"] = "/metadata/labels" := by decide +kernel
  rw [← hlabels, ← render_append, List.cons_append, List.cons_append, List.nil_append]

theorem mem_earlySettings_iff : op ∈ s.earlySettings ↔
    op = .add (render ["metadata", "namespace"]) (.string s.ns) ∨
      (∃ image, s.image = some image ∧
        op = .add (render (containerPlace ++ ["image"])) (.string image)) ∨
      ∃ key value, (key, value) ∈ s.labels.pairs ∧
        op = .add (render ["metadata", "labels", key]) (.string (slugifyLabel value)) := by
  have hns : render ["metadata", "namespace"] = "/metadata/namespace" := by decide +kernel
  have himage : render (containerPlace ++ ["image"]) = containerPointer ++ "/image" := by
    decide +kernel
  simp [earlySettings, mem_addText_iff, hns, himage, render_label, eq_comm]

theorem mem_lateSettings_iff : op ∈ s.lateSettings ↔
    (∃ policy, s.pullPolicy = some policy ∧
        op = .add (render (containerPlace ++ ["imagePullPolicy"])) (.string policy.name)) ∨
      (∃ account, s.serviceAccount = some account ∧
        op = .add (render (podPlace ++ ["serviceAccountName"])) (.string account)) ∨
      (s.command ≠ [] ∧
        op = .add (render (containerPlace ++ ["command"])) (.ofStrings s.command)) ∨
      op = .add (render ["metadata", "generateName"]) (.string s.baseName) := by
  have hpolicy : render (containerPlace ++ ["imagePullPolicy"]) =
      containerPointer ++ "/imagePullPolicy" := by decide +kernel
  have haccount : render (podPlace ++ ["serviceAccountName"]) =
      podPointer ++ "/serviceAccountName" := by decide +kernel
  have hcommand : render (containerPlace ++ ["command"]) = containerPointer ++ "/command" := by
    decide +kernel
  have hname : render ["metadata", "generateName"] = "/metadata/generateName" := by
    decide +kernel
  by_cases hnil : s.command = [] <;>
    simp [lateSettings, mem_addText_iff, hpolicy, haccount, hcommand, hname, hnil]

/-- **The patch sets what the shortcuts set**, before and after the environment. -/
theorem setsBy_iff : s.SetsBy op ↔ op ∈ s.earlySettings ∨ op ∈ s.lateSettings := by
  rw [mem_earlySettings_iff, mem_lateSettings_iff]
  constructor
  · rintro ⟨place, value, h, rfl⟩
    cases h with
    | ns => exact .inl (.inl rfl)
    | image given => exact .inl (.inr (.inl ⟨_, given, rfl⟩))
    | label given => exact .inl (.inr (.inr ⟨_, _, given, rfl⟩))
    | pullPolicy given => exact .inr (.inl ⟨_, given, rfl⟩)
    | serviceAccount given => exact .inr (.inr (.inl ⟨_, given, rfl⟩))
    | command given => exact .inr (.inr (.inr (.inl ⟨given, rfl⟩)))
    | name => exact .inr (.inr (.inr (.inr rfl)))
  · rintro ((rfl | ⟨_, given, rfl⟩ | ⟨_, _, given, rfl⟩) |
      (⟨_, given, rfl⟩ | ⟨_, given, rfl⟩ | ⟨given, rfl⟩ | rfl))
    · exact ⟨_, _, .ns, rfl⟩
    · exact ⟨_, _, .image given, rfl⟩
    · exact ⟨_, _, .label given, rfl⟩
    · exact ⟨_, _, .pullPolicy given, rfl⟩
    · exact ⟨_, _, .serviceAccount given, rfl⟩
    · exact ⟨_, _, .command given, rfl⟩
    · exact ⟨_, _, .name, rfl⟩

theorem mem_toPatch_iff : op ∈ s.toPatch ↔ s.SetsBy op ∨ op ∈ s.env.pairs.map appendVariable := by
  rw [toPatch_eq, List.mem_append, List.mem_append, setsBy_iff]
  tauto

theorem SetsBy.proper (h : s.SetsBy op) : op.Proper := by
  obtain ⟨place, value, hsets, rfl⟩ := h
  cases hsets <;> simp [PatchOp.Proper, ofStrings]

theorem proper_appendVariable (p : String × String) : (appendVariable p).Proper := by
  simp [appendVariable, variableItem, PatchOp.Proper]

theorem furthers_appendVariable (p : String × String) :
    (appendVariable p).Furthers Template.document :=
  @PatchOp.Furthers.item _ envPlace _ _ rfl

theorem SetsBy.furthers (h : s.SetsBy op) : op.Furthers Template.document := by
  obtain ⟨place, value, hsets, rfl⟩ := h
  exact .member hsets.new

theorem furthers_of_mem_toPatch (h : op ∈ s.toPatch) : op.Furthers Template.document := by
  rcases mem_toPatch_iff.1 h with h | h
  · exact h.furthers
  · obtain ⟨p, _, rfl⟩ := List.mem_map.1 h
    exact furthers_appendVariable p

theorem proper_toPatch (s : Shortcuts) : Patch.Proper s.toPatch := by
  intro op hop
  rcases mem_toPatch_iff.1 hop with h | h
  · exact h.proper
  · obtain ⟨p, _, rfl⟩ := List.mem_map.1 h
    exact proper_appendVariable p

variable {base d e manifest : Document}

/-- **On what has the places of the template the patch of shortcuts cannot fail.** -/
theorem turns_toPatch (s : Shortcuts) (h : Covers Template.document base) :
    ∃ manifest, Patch.Turns s.toPatch base manifest ∧
      Keeps Template.document base manifest :=
  Patch.turns_of_furthers (fun _ => furthers_of_mem_toPatch) h

/-! ## What they do to a base -/

/-- A manifest is a base with shortcuts put on it. -/
structure PutOn (s : Shortcuts) (base manifest : Document) : Prop where
  /-- What the shortcuts set is there. -/
  sets : ∀ place value, s.Sets place value → resolve? place manifest = some value
  /-- The environment is that of the base with the variables after it, by name. -/
  env : ∃ xs, resolve? envPlace base = some (.array xs) ∧
    resolve? envPlace manifest = some (.array (xs ++ s.env.pairs.map variableItem))
  /-- Every other place holds what it held, or still nothing. -/
  others : ∀ place, Apart envPlace place →
    (∀ changed value, s.Sets changed value → Apart changed place) →
    resolve? place manifest = resolve? place base

theorem resolve?_of_turns_appendVariable {ps : List (String × String)} {xs : List Document}
    (h : Patch.Turns (ps.map appendVariable) d e) (hxs : resolve? envPlace d = some (.array xs)) :
    resolve? envPlace e = some (.array (xs ++ ps.map variableItem)) := by
  induction ps generalizing d xs with
  | nil =>
    cases h
    simpa using hxs
  | cons p ps ih =>
    cases h with
    | cons first others =>
      rw [appendVariable, render_append, PatchOp.apply_add_child hxs "-" rfl] at first
      cases first
      rw [ih others (resolve?_setAt hxs _), List.map_cons, List.append_assoc]
      rfl

theorem resolve?_envPlace_of_turns {p : Patch} (h : Patch.Turns p d e)
    (hp : ∀ op ∈ p, s.SetsBy op) (hproper : d.Proper) (hcovers : Covers Template.document d) :
    resolve? envPlace e = resolve? envPlace d := by
  refine h.resolve?_of_spares (fun op hop => (hp op hop).proper) hproper
    (Patch.spares_of_furthers (fun op hop => (hp op hop).furthers) hcovers fun op hop e he => ?_)
  obtain ⟨place, value, hsets, rfl⟩ := hp op hop
  exact PatchOp.spares_of_new hsets.new value he hsets.apart_envPlace

/-- **The environment grows by the variables.** -/
theorem exists_env_of_turns (hproper : base.Proper) (hcovers : Covers Template.document base)
    (h : Patch.Turns s.toPatch base manifest) :
    ∃ xs, resolve? envPlace base = some (.array xs) ∧
      resolve? envPlace manifest = some (.array (xs ++ s.env.pairs.map variableItem)) := by
  rw [toPatch_eq] at h
  obtain ⟨e, hfront, hlate⟩ := Patch.turns_append_iff.1 h
  obtain ⟨d, hearly, hvars⟩ := Patch.turns_append_iff.1 hfront
  have hsets {op : PatchOp} (hop : op ∈ s.earlySettings ∨ op ∈ s.lateSettings) : s.SetsBy op :=
    setsBy_iff.2 hop
  have hdproper : d.Proper := hearly.proper (fun _ hop => (hsets (.inl hop)).proper) hproper
  have hdcovers : Covers Template.document d :=
    hearly.covers_of_furthers (fun _ hop => (hsets (.inl hop)).furthers) hcovers
  have hvariable : ∀ op ∈ s.env.pairs.map appendVariable,
      op.Proper ∧ op.Furthers Template.document :=
    List.forall_mem_map.2 fun p _ => ⟨proper_appendVariable p, furthers_appendVariable p⟩
  obtain ⟨x, hx, xs, rfl⟩ := hcovers envPlace (.array []) rfl
  refine ⟨xs, hx, ?_⟩
  rw [resolve?_envPlace_of_turns hlate (fun _ hop => hsets (.inr hop))
    (hvars.proper (fun op hop => (hvariable op hop).1) hdproper)
    (hvars.covers_of_furthers (fun op hop => (hvariable op hop).2) hdcovers)]
  refine resolve?_of_turns_appendVariable hvars ?_
  rw [resolve?_envPlace_of_turns hearly (fun _ hop => hsets (.inl hop)) hproper hcovers, hx]

theorem putOn_of_turns (hproper : base.Proper) (hcovers : Covers Template.document base)
    (h : Patch.Turns s.toPatch base manifest) : s.PutOn base manifest := by
  refine ⟨fun place value hsets => ?_, exists_env_of_turns hproper hcovers h,
    fun place henv hothers => ?_⟩
  · refine h.resolve?_of_mem (fun _ => furthers_of_mem_toPatch) s.proper_toPatch hproper hcovers
      hsets.new (mem_toPatch_iff.2 (.inl ⟨place, value, hsets, rfl⟩)) fun op hop => ?_
    rcases mem_toPatch_iff.1 hop with ⟨other, value', hsets', rfl⟩ | happend
    · rcases hsets'.eq_or_apart hsets with ⟨rfl, rfl⟩ | hapart
      · exact .inl rfl
      · exact .inr fun e he => PatchOp.spares_of_new hsets'.new value' he hapart
    · obtain ⟨p, _, rfl⟩ := List.mem_map.1 happend
      exact .inr fun e _ => PatchOp.spares_of_apart "-" _ hsets.apart_envPlace.symm
  · refine h.resolve?_of_spares s.proper_toPatch hproper
      (Patch.spares_of_furthers (fun _ => furthers_of_mem_toPatch) hcovers fun op hop e he => ?_)
    rcases mem_toPatch_iff.1 hop with ⟨other, value, hsets, rfl⟩ | happend
    · exact PatchOp.spares_of_new hsets.new value he (hothers other value hsets)
    · obtain ⟨p, _, rfl⟩ := List.mem_map.1 happend
      exact PatchOp.spares_of_apart "-" _ henv

/-- **What shortcuts do to a base is determined** by what is asked of the manifest. -/
theorem PutOn.same {other : Document} (h : s.PutOn base manifest) (h' : s.PutOn base other)
    (hproper : manifest.Proper) (hproper' : other.Proper)
    (hcovers : Covers Template.document manifest) (hcovers' : Covers Template.document other) :
    same manifest other = true := by
  refine same_of_alikeAt hproper hproper' fun place => ?_
  by_cases hinner : ∃ x, resolve? place Template.document = some x ∧ ¬ x.IsLeaf
  · -- an object or an array of the template is one in both, whatever it has
    obtain ⟨x, hx, hleaf⟩ := hinner
    exact hcovers.alikeAt hcovers' hx hleaf
  · refine alikeAt_of_eq hproper ?_
    have habove {us : List String} {x : Document} (hx : resolve? us Template.document = some x)
        (hleaf : ¬ x.IsLeaf) : ¬ place <+: us :=
      fun hpre => hinner (exists_not_isLeaf_above hx hleaf hpre)
    have hbelow {us : List String} {v : Document} (hv : resolve? us manifest = some v)
        (hv' : resolve? us other = some v) (hpre : us <+: place) :
        resolve? place other = resolve? place manifest := by
      obtain ⟨rest, rfl⟩ := hpre
      rw [resolve?_append, resolve?_append, hv, hv']
    by_cases hset : ∃ changed value, s.Sets changed value ∧ changed <+: place
    · obtain ⟨changed, value, hsets, hpre⟩ := hset
      exact hbelow (h.sets changed value hsets) (h'.sets changed value hsets) hpre
    by_cases henv : envPlace <+: place
    · obtain ⟨xs, hxs, hv⟩ := h.env
      obtain ⟨xs', hxs', hv'⟩ := h'.env
      rw [hxs] at hxs'
      cases hxs'
      exact hbelow hv hv' henv
    have hothers : ∀ changed value, s.Sets changed value → Apart changed place := by
      refine fun changed value hsets => ⟨fun hpre => hset ⟨changed, value, hsets, hpre⟩, ?_⟩
      obtain ⟨parent, ms, key, hchanged, hparent, _⟩ := hsets.new
      rw [hchanged, List.prefix_concat_iff]
      rintro (rfl | hpre)
      · exact hset ⟨_, value, hchanged ▸ hsets, List.prefix_rfl⟩
      · exact habove hparent (not_isLeaf_object ms) hpre
    have hapart : Apart envPlace place := ⟨henv, habove rfl (not_isLeaf_array [])⟩
    rw [h'.others place hapart hothers, h.others place hapart hothers]

end Shortcuts

/-! ## Composing -/

namespace ManifestBase

theorem covers (base : ManifestBase) : Covers Template.document base.document := by
  by_contra h
  have hchecked := base.checked
  rw [checkBase_of_not_covers h] at hchecked
  cases hchecked

theorem patched_of_turns {p : Patch} {d e : Document} (h : Patch.Turns p d e) :
    patched p d = .ok e := by
  rw [patched, Patch.apply_eq_ok_iff.2 h]

/-- Once shortcuts and overrides have been applied, only the places of the template are checked. -/
theorem compose_of_turns {base : ManifestBase} {s : Shortcuts} {overrides : Patch}
    {d manifest : Document} (hshortcuts : Patch.Turns s.toPatch base.document d)
    (hoverrides : Patch.Turns overrides d manifest) :
    base.compose s overrides = (checkPlaces manifest).map fun _ => manifest := by
  rw [compose, patched_of_turns hshortcuts]
  change (patched overrides d).bind _ = _
  rw [patched_of_turns hoverrides]
  change (checkPlaces manifest).bind (fun _ => .ok manifest) = _
  cases checkPlaces manifest <;> rfl

/-- **A base and shortcuts give the base with the shortcuts put on it**, which is a base again, and
nothing else is such a document. -/
theorem compose_shortcuts (base : ManifestBase) (h : base.document.Proper) (s : Shortcuts) :
    ∃ manifest, base.compose s [] = .ok manifest ∧ manifest.Proper ∧
      checkBase manifest = .ok () ∧ s.PutOn base.document manifest ∧
      ∀ other : Document, other.Proper → checkBase other = .ok () →
        s.PutOn base.document other → same manifest other = true := by
  obtain ⟨manifest, hturns, hkeeps⟩ := s.turns_toPatch base.covers
  have hproper : manifest.Proper := hturns.proper s.proper_toPatch h
  have hputOn : s.PutOn base.document manifest :=
    Shortcuts.putOn_of_turns h base.covers hturns
  have hembeds : Embeds Template.document manifest := by
    have hbase := embeds_iff.1 ((checkBase_eq_ok_iff h).1 base.checked)
    exact embeds_iff.2 ⟨hkeeps.covers, fun place x hdiff =>
      hbase.2 place x (hkeeps.leaves place x hdiff)⟩
  refine ⟨manifest, ?_, hproper, (checkBase_eq_ok_iff hproper).2 hembeds, hputOn,
    fun other hother hcheck hputOn' => ?_⟩
  · rw [compose_of_turns hturns (.nil manifest), checkPlaces_of_covers hkeeps.covers]
    rfl
  · exact hputOn.same hputOn' hproper hother hkeeps.covers
      ((checkBase_eq_ok_iff hother).1 hcheck).covers

/-- A base with a label, a variable and a container of its own. -/
def labelled : ManifestBase where
  document := .object
    [("apiVersion", .string "batch/v1"), ("kind", .string "Job"),
     ("metadata", .object [("labels", .object [("team", .string "a")])]),
     ("spec", .object [("parallelism", .int 1), ("completions", .int 1),
       ("template", .object [("spec", .object
         [("restartPolicy", .string "Never"),
          ("containers", .array
            [.object [("name", .string "kubejob"), ("env", .array [.null])], .null])])])])]
  checked := by cbv

/-- A key with a slash and a tilde is one label, and the label of the base stays. -/
theorem compose_shortcuts_labelled : labelled.document.Proper ∧ ∃ s : Shortcuts, ∃ manifest,
    s.labels.pairs = [("a/b~c", "x y")] ∧ labelled.compose s [] = .ok manifest ∧
    checkBase manifest = .ok () ∧
    resolve? ["metadata", "labels", "a/b~c"] manifest = some (.string "x-y") ∧
    resolve? ["metadata", "labels", "team"] manifest = some (.string "a") := by
  have hproper : labelled.document.Proper := by simp [labelled]
  obtain ⟨manifest, hok, _, hcheck, hputOn, _⟩ := compose_shortcuts labelled hproper
    ⟨"jobs", none, .ofList [("a/b~c", "x y")], .empty, none, none, [], none⟩
  have hlabels : (TextMap.ofList [("a/b~c", "x y")]).pairs = [("a/b~c", "x y")] := by
    decide +kernel
  have hslug : slugifyLabel "x y" = "x-y" := by decide +kernel
  refine ⟨hproper, _, manifest, hlabels, hok, hcheck, ?_, (hputOn.others _ ?_ ?_).trans rfl⟩
  · rw [← hslug]
    exact hputOn.sets _ _ (.label (by rw [hlabels]; exact List.mem_singleton_self _))
  · decide
  · intro changed value hsets
    cases hsets with
    | label given =>
      rw [hlabels] at given
      cases List.mem_singleton.1 given
      decide
    | _ => decide

end ManifestBase

end BatchRun
