import BatchRun.Document.Json
import BatchRun.Proofs.Manifest.Base
import BatchRun.Proofs.Yaml.Entries
import BatchRun.Proofs.Yaml.Nodes

/-!
# A written document is read back

The nodes of a written document are made into a document again, which is the written one just if
its strings and keys are read back.

* `toDocument_scalarNode_iff`, `keyText_scalarNode_iff`: strings and keys;
* `array_iff`, `object_iff`: collections, and `Restored.of_writable`: any document;
* **`load_toYaml_iff_faithful`**: the round trip, also of a manifest shown beforehand;
* `misread_signs`: a string that is not read back.
-/

namespace BatchRun

namespace Yaml

open Node

/-! ## Strings and keys -/

theorem realDocument_ne_string {t s : String} : realDocument t ≠ .ok (.string s) := by
  rw [realDocument]
  intro h
  split at h
  · cases h
  · split at h <;> cases h

theorem toDocument_eq_string_iff {n : Node} {s : String} :
    n.toDocument = .ok (.string s) ↔ n = .string s := by
  refine ⟨fun h => ?_, fun h => by rw [h, toDocument]⟩
  cases n with
  | string t =>
    rw [toDocument] at h
    cases h
    rfl
  | real t => exact absurd (by rwa [toDocument] at h) realDocument_ne_string
  | array xs =>
    rw [toDocument] at h
    cases hxs : itemDocuments xs <;> rw [hxs] at h <;> cases h
  | mapping es =>
    rw [toDocument] at h
    cases hes : entryMembers [] es <;> rw [hes] at h <;> cases h
  | null | bool | int | invalid => rw [toDocument] at h; cases h

variable {k : Nat} {s : String}

theorem readBack_eq_iff (hk : 0 < k) :
    readBack k s = s ↔ (styleOf s = .singleQuoted → ∀ c ∈ s.toList, isBreak c = false) := by
  rw [readBack]
  split
  · next h =>
    rw [← spread_eq_iff hk]
    simp only [h, true_imp_iff]
    exact ⟨fun heq => by simpa using congrArg String.toList heq,
      fun heq => by rw [heq, String.ofList_toList]⟩
  · next h => simp [h]

/-- **A string is read as itself just if it is read back.** -/
theorem toDocument_scalarNode_iff (hk : 0 < k) :
    (scalarNode k s).toDocument = .ok (.string s) ↔ IsReadBack s := by
  rw [toDocument_eq_string_iff, scalarNode]
  by_cases hplain : styleOf s = .plain
  · have hquoted : styleOf s ≠ .singleQuoted := by rw [hplain]; decide
    rw [readBack, if_neg hquoted]
    simp only [hplain, decide_true, resolve]
    exact ⟨fun h => ⟨fun _ => h, fun hq => absurd hq hquoted⟩, fun h => h.plain hplain⟩
  · simp only [hplain, decide_false, resolve, Bool.not_false, if_true, Node.string.injEq]
    rw [readBack_eq_iff hk]
    exact ⟨fun h => ⟨fun hp => absurd hp hplain, h⟩, fun h => h.quoted⟩

/-- **A key is read as itself just if it is read back.** -/
theorem keyText_scalarNode_iff (hk : 0 < k) :
    (scalarNode k s).keyText = .ok s ↔ IsKeyReadBack s := by
  refine ⟨fun h => ?_, scalarNode_keyText⟩
  rw [scalarNode] at h
  by_cases hplain : styleOf s = .plain
  · have hquoted : styleOf s ≠ .singleQuoted := by rw [hplain]; decide
    rw [readBack, if_neg hquoted] at h
    simp only [hplain, decide_true, resolve] at h
    exact ⟨fun _ => h, fun hq => absurd hq hquoted⟩
  · simp only [hplain, decide_false, resolve, Bool.not_false, if_true, keyText] at h
    exact ⟨fun hp => absurd hp hplain, (readBack_eq_iff hk).1 (Except.ok.inj h)⟩

/-! ## Documents -/

/-- A document is made of its nodes again just if it is faithful. -/
structure Restored (d : Document) : Prop where
  node : ∀ k, 0 < k → ((nodeOf k d).toDocument = .ok d ↔ d.Faithful)
  value : ∀ indent, (valueNode indent d).toDocument = .ok d ↔ d.Faithful

theorem IsFlat.toDocument_iff {d : Document} (h : IsFlat d) {k : Nat} (hk : 0 < k) :
    (flatNode k d).toDocument = .ok d ↔ d.Faithful := by
  cases h with
  | null => exact ⟨fun _ => .null, fun _ => rfl⟩
  | bool b => exact ⟨fun _ => .bool b, fun _ => rfl⟩
  | int i => exact ⟨fun _ => .int i, fun _ => rfl⟩
  | float x => exact ⟨fun _ => .float x, fun _ => realDocument_render (.inl rfl) x⟩
  | string => exact (toDocument_scalarNode_iff hk).trans Document.faithful_string_iff.symm
  | array => exact ⟨fun _ => .array (fun _ hx => absurd hx List.not_mem_nil), fun _ => rfl⟩
  | object =>
    exact ⟨fun _ => .object (fun _ hp => absurd hp List.not_mem_nil)
      (fun _ hp => absurd hp List.not_mem_nil), fun _ => rfl⟩

theorem IsFlat.restored {d : Document} (h : IsFlat d) : Restored d := by
  have hnode (k : Nat) (hk : 0 < k) := h.toDocument_iff hk
  have hvalue (indent : Nat) := h.toDocument_iff (Nat.succ_pos (indent + 1))
  cases h <;> exact ⟨hnode, hvalue⟩

theorem itemDocuments_iff {xs : List Document} (h : ∀ x ∈ xs, Restored x) (indent : Nat) :
    itemDocuments (itemNodes indent xs) = .ok xs ↔ ∀ x ∈ xs, x.Faithful := by
  induction xs with
  | nil => simp [itemNodes, itemDocuments]
  | cons x xs ih =>
    obtain ⟨hx, hxs⟩ := List.forall_mem_cons.1 h
    rw [itemNodes, itemDocuments_cons_iff, ih hxs, hx.node _ (Nat.succ_pos _), List.forall_mem_cons]

theorem forall₂_entryNodes_iff {ms : Members} (h : ∀ p ∈ ms, Restored p.2) (indent : Nat) :
    List.Forall₂ IsMember (entryNodes indent ms) ms ↔
      (∀ p ∈ ms, IsKeyReadBack p.1) ∧ ∀ p ∈ ms, p.2.Faithful := by
  induction ms with
  | nil => simp [entryNodes]
  | cons p ms ih =>
    obtain ⟨hp, hms⟩ := List.forall_mem_cons.1 h
    have hvalue :
        (if isSimpleKey p.1 then valueNode indent p.2 else nodeOf (indent + 2) p.2).toDocument =
          .ok p.2 ↔ p.2.Faithful := by
      split
      · exact hp.value indent
      · exact hp.node _ (Nat.succ_pos _)
    rw [entryNodes, List.forall₂_cons, ih hms, IsMember, keyText_scalarNode_iff (Nat.succ_pos _),
      hvalue, List.forall_mem_cons, List.forall_mem_cons, and_and_and_comm]

theorem length_entryNodes (indent : Nat) (ms : Members) :
    (entryNodes indent ms).length = ms.length := by
  induction ms with
  | nil => rfl
  | cons p ms ih => rw [entryNodes, List.length_cons, ih, List.length_cons]

theorem map_eq_ok_iff {α β ε : Type} {f : α → β} (hf : Function.Injective f) {r : Except ε α}
    {a : α} : r.map f = .ok (f a) ↔ r = .ok a := by
  cases r with
  | error e => simp [Except.map]
  | ok b => simp [Except.map, hf.eq_iff]

theorem array_iff {xs : List Document} (h : ∀ x ∈ xs, Restored x) (indent : Nat) :
    (Node.array (itemNodes indent xs)).toDocument = .ok (.array xs) ↔
      (Document.array xs).Faithful := by
  rw [toDocument, map_eq_ok_iff fun _ _ => Document.array.inj, itemDocuments_iff h,
    Document.hereditary_faithful.array]

theorem object_iff {ms : Members} (hnodup : ms.keys.Nodup) (h : ∀ p ∈ ms, Restored p.2)
    (indent : Nat) : (Node.mapping (entryNodes indent ms)).toDocument = .ok (.object ms) ↔
      (Document.object ms).Faithful := by
  rw [toDocument, map_eq_ok_iff fun _ _ => Document.object.inj,
    entryMembers_eq_ok_iff hnodup (length_entryNodes indent ms), forall₂_entryNodes_iff h,
    Document.hereditary_faithful.object]

theorem Restored.of_writable {d : Document} (h : d.Writable) : Restored d := by
  induction h with
  | null => exact IsFlat.null.restored
  | bool b => exact (IsFlat.bool b).restored
  | int fits => exact (IsFlat.int _).restored
  | float x => exact (IsFlat.float x).restored
  | string even => exact (IsFlat.string even).restored
  | @array xs _ ih =>
    cases xs with
    | nil => exact IsFlat.array.restored
    | cons x xs => exact ⟨fun k _ => array_iff ih k, array_iff ih⟩
  | @object ms distinct _ _ ih =>
    cases ms with
    | nil => exact IsFlat.object.restored
    | cons m ms =>
      exact ⟨fun k _ => object_iff distinct ih k, fun k => object_iff distinct ih (k + 2)⟩

theorem toDocument_rootNode_iff {d : Document} (h : d.Writable) :
    (rootNode d).toDocument = .ok d ↔ d.Faithful := by
  have hflat (hd : IsFlat d) := hd.toDocument_iff (Nat.succ_pos 1)
  cases h with
  | null => exact hflat .null
  | bool b => exact hflat (.bool b)
  | int fits => exact hflat (.int _)
  | float x => exact hflat (.float x)
  | string even => exact hflat (.string even)
  | @array xs items =>
    cases xs with
    | nil => exact hflat .array
    | cons x xs => exact array_iff (fun y hy => .of_writable (items y hy)) 0
  | @object ms distinct _ values =>
    cases ms with
    | nil => exact hflat .object
    | cons m ms => exact object_iff distinct (fun p hp => .of_writable (values p hp)) 0

theorem parse_of_problem {text : String} {problem : Problem}
    (h : parseDocuments text = .error problem) : parse text = .error (.problem problem) := by
  unfold parse
  simp only [h]

theorem parse_toYaml_iff {d : Document} (h : d.Writable) : parse d.toYaml = .ok d ↔ d.Faithful := by
  obtain ⟨duplicate, hdup, hparse⟩ := parseDocuments_toYaml h
  cases duplicate with
  | none =>
    rw [parse_of_root hparse]
    exact toDocument_rootNode_iff h
  | some key =>
    rw [parse_of_problem hparse]
    exact ⟨fun hok => (nomatch hok), fun hd => absurd (hdup hd) (by simp)⟩

/-- **A written document is read back just if it is faithful**; and what is shown of a manifest
beforehand is read as the manifest just if that is faithful. -/
theorem load_toYaml_iff_faithful {d : Document} (h : d.Writable) :
    (load d.toYaml = .ok d ↔ d.Faithful) ∧
      ∀ c : JobConfig, c.manifest = .ok d →
        ∃ text, c.preview = .ok text ∧ (load text = .ok d ↔ d.Faithful) := by
  have hload : load d.toYaml = .ok d ↔ d.Faithful := load_eq_ok_iff.trans (parse_toYaml_iff h)
  refine ⟨hload, fun c hc => ⟨d.toYaml, ?_, hload⟩⟩
  rw [JobConfig.preview, hc]
  rfl

theorem load_toYaml_iff_faithful_standard : ∃ manifest text,
    JobConfig.standard.manifest = .ok manifest ∧ manifest.Writable ∧ manifest.Faithful ∧
      load manifest.toYaml = .ok manifest ∧
      JobConfig.standard.preview = .ok text ∧ load text = .ok manifest := by
  have hall : (JobConfig.standard.manifest.toOption.any fun (d : Document) =>
      decide (d.Writable ∧ d.Faithful)) = true := by
    decide +kernel
  obtain ⟨manifest, hmanifest⟩ := JobConfig.standard_composes
  rw [hmanifest] at hall
  obtain ⟨hwritable, hfaithful⟩ := of_decide_eq_true hall
  obtain ⟨hload, hpreview⟩ := load_toYaml_iff_faithful hwritable
  obtain ⟨text, htext, hiff⟩ := hpreview .standard hmanifest
  exact ⟨manifest, text, hmanifest, hwritable, hfaithful, hload.2 hfaithful, htext,
    hiff.2 hfaithful⟩

/-- A string with two signs is written without quotes and taken for an integer. -/
theorem misread_signs :
    (Document.object [("v", .string "++5")]).Writable ∧
      (load (Document.object [("v", .string "++5")]).toYaml).toOption.map Document.toJson =
        some "\x7b\"v\":5\x7d" ∧
      load (Document.object [("v", .string "++5")]).toYaml ≠
        .ok (.object [("v", .string "++5")]) := by
  have hwritable : (Document.object [("v", .string "++5")]).Writable := by decide +kernel
  have hjson : (load (Document.object [("v", .string "++5")]).toYaml).toOption.map
      Document.toJson = some "\x7b\"v\":5\x7d" := by
    decide +kernel
  refine ⟨hwritable, hjson, fun hload => ?_⟩
  rw [load_eq_ok_iff, parse_toYaml_iff hwritable] at hload
  revert hload
  decide +kernel

end Yaml

end BatchRun
