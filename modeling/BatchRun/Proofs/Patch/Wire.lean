import BatchRun.Manifest.File
import BatchRun.Proofs.Document.Typed

/-!
# The grammar of patches

An operation is spelled by an object that has a member `op` with one of three names, a member
`path` with a text and, except for a removal, a member `value`. It has them in any order and among
any others, and the value may be null.

* `PatchOp.Spells`, **`PatchOp.ofDocument_object_iff`**: the objects that are read as an operation;
* `PatchOp.named?`, `PatchOp.named?_of_ofDocument`: the name in whatever is read as an operation;
* `Patch.ofDocument_toDocument`: a patch is read back, whatever documents it holds;
* **`Patch.read_grammar`**.
-/

namespace BatchRun

/-! ## Operations -/

namespace PatchOp

variable {ms : Members} {kind : Kind} {op : PatchOp} {d : Document}

/-- An object has the members that an operation needs. -/
inductive Spells (ms : Members) : PatchOp → Prop where
  | add {path : String} {value : Document} (hop : ("op", .string "add") ∈ ms)
      (hpath : ("path", .string path) ∈ ms) (hvalue : ("value", value) ∈ ms) :
      Spells ms (.add path value)
  | replace {path : String} {value : Document} (hop : ("op", .string "replace") ∈ ms)
      (hpath : ("path", .string path) ∈ ms) (hvalue : ("value", value) ∈ ms) :
      Spells ms (.replace path value)
  | remove {path : String} (hop : ("op", .string "remove") ∈ ms)
      (hpath : ("path", .string path) ∈ ms) : Spells ms (.remove path)

/-- What an element of a patch names as its operation: its member `op`, or its first item. -/
def named? : Document → Option Document
  | .object ms => Members.get? "op" ms
  | .array xs => xs.head?
  | _ => none

/-- The name of a kind of operation. -/
def Kind.name : Kind → String
  | .add => "add"
  | .replace => "replace"
  | .remove => "remove"

theorem Kind.name_operation (kind : Kind) (path : String) (value : Document) :
    (kind.operation path value).name = kind.name := by
  cases kind <;> rfl

theorem Kind.ofDocument_eq_ok_iff : Kind.ofDocument d = .ok kind ↔ d = .string kind.name := by
  constructor
  · intro h
    cases d with
    | string s =>
      rw [Kind.ofDocument] at h
      split_ifs at h with hadd hreplace hremove <;> cases h
      · rw [hadd, name]
      · rw [hreplace, name]
      · rw [hremove, name]
    | _ => cases h
  · rintro rfl
    cases kind <;> rfl

theorem checkMembers_path (hn : ms.keys.Nodup) {path : String}
    (hpath : ("path", .string path) ∈ ms) :
    checkMembers [("path", admits Document.asString)] ms = .ok () := by
  refine checkMembers_of_forall fun p hp check hcheck => ?_
  rw [fieldCheck?] at hcheck
  split_ifs at hcheck with hkey
  · obtain ⟨key, value⟩ := p
    obtain rfl : "path" = key := hkey
    have hvalue := (Members.get?_of_mem hn hp).symm.trans (Members.get?_of_mem hn hpath)
    cases hcheck
    cases hvalue
    rfl
  · cases hcheck

theorem exists_of_ofMembers (h : ofMembers kind ms = .ok op) : ∃ path value,
    ms.get? "path" = some (.string path) ∧ (kind = .remove ∨ ms.get? "value" = some value) ∧
      op = kind.operation path value := by
  obtain ⟨_, _, hread⟩ := bind_eq_ok_iff.1 h
  cases hpath : ms.get? "path" with
  | none =>
    rw [hpath] at hread
    cases hread
  | some d =>
    rw [hpath] at hread
    obtain ⟨path, hd, hop⟩ := bind_eq_ok_iff.1 hread
    obtain rfl := Document.asString_eq_ok_iff.1 hd
    refine ⟨path, (ms.get? "value").getD .null, rfl, ?_⟩
    cases hvalue : ms.get? "value" with
    | none =>
      cases kind <;> rw [hvalue] at hop <;> cases hop
      exact ⟨.inl rfl, rfl⟩
    | some value =>
      refine ⟨.inr rfl, ?_⟩
      cases kind <;> rw [hvalue] at hop <;> cases hop <;> rfl

theorem exists_of_ofItems {items : List Document} (h : ofItems kind items = .ok op) :
    ∃ path value, op = kind.operation path value := by
  cases items with
  | nil => cases h
  | cons d rest =>
    obtain ⟨path, _, hop⟩ := bind_eq_ok_iff.1 h
    refine ⟨path, rest.headD .null, ?_⟩
    rcases rest with _ | ⟨value, _ | ⟨_, _⟩⟩ <;> cases kind <;> cases hop <;> rfl

theorem ofMembers_eq_ok_iff (hn : ms.keys.Nodup) : ofMembers kind ms = .ok op ↔
    ∃ path value, ms.get? "path" = some (.string path) ∧
      (kind = .remove ∨ ms.get? "value" = some value) ∧ op = kind.operation path value := by
  refine ⟨exists_of_ofMembers, ?_⟩
  rintro ⟨path, value, hpath, hvalue, rfl⟩
  refine bind_eq_ok_iff.2 ⟨(), checkMembers_path hn (Members.mem_of_get? hpath), ?_⟩
  rw [hpath]
  refine bind_eq_ok_iff.2 ⟨path, rfl, ?_⟩
  rcases hvalue with rfl | hvalue
  · rfl
  · rw [hvalue]
    cases kind <;> rfl

theorem spells_iff (hn : ms.keys.Nodup) : Spells ms op ↔ ∃ kind : Kind,
    ms.get? "op" = some (.string kind.name) ∧ ∃ path value,
      ms.get? "path" = some (.string path) ∧ (kind = .remove ∨ ms.get? "value" = some value) ∧
        op = kind.operation path value := by
  simp only [Members.get?_eq_some_iff hn]
  constructor
  · intro h
    cases h with
    | add hop hpath hvalue => exact ⟨.add, hop, _, _, hpath, .inr hvalue, rfl⟩
    | replace hop hpath hvalue => exact ⟨.replace, hop, _, _, hpath, .inr hvalue, rfl⟩
    | remove hop hpath => exact ⟨.remove, hop, _, .null, hpath, .inl rfl, rfl⟩
  · rintro ⟨kind, hop, path, value, hpath, hvalue, rfl⟩
    cases kind with
    | add => exact .add hop hpath (hvalue.resolve_left nofun)
    | replace => exact .replace hop hpath (hvalue.resolve_left nofun)
    | remove => exact .remove hop hpath

theorem ofDocument_object_iff_kind : ofDocument (.object ms) = .ok op ↔
    ∃ kind : Kind, ms.get? "op" = some (.string kind.name) ∧ ofMembers kind ms = .ok op := by
  rw [ofDocument]
  cases hop : Members.get? "op" ms with
  | none => exact ⟨nofun, nofun⟩
  | some d => simp only [bind_eq_ok_iff, Kind.ofDocument_eq_ok_iff, Option.some.injEq]

/-- **An object is read as an operation just if it spells it.** -/
theorem ofDocument_object_iff (hn : ms.keys.Nodup) :
    ofDocument (.object ms) = .ok op ↔ Spells ms op := by
  simp only [ofDocument_object_iff_kind, ofMembers_eq_ok_iff hn, spells_iff hn]

theorem named?_of_ofDocument (h : ofDocument d = .ok op) :
    named? d = some (.string op.name) := by
  cases d with
  | object ms =>
    obtain ⟨kind, hop, hparts⟩ := ofDocument_object_iff_kind.1 h
    obtain ⟨path, value, _, _, rfl⟩ := exists_of_ofMembers hparts
    rw [Kind.name_operation]
    exact hop
  | array xs =>
    cases xs with
    | nil => cases h
    | cons first items =>
      obtain ⟨kind, hkind, hparts⟩ := bind_eq_ok_iff.1 h
      obtain rfl := Kind.ofDocument_eq_ok_iff.1 hkind
      obtain ⟨path, value, rfl⟩ := exists_of_ofItems hparts
      rw [Kind.name_operation]
      rfl
  | _ => cases h

theorem ofDocument_toDocument (op : PatchOp) : ofDocument op.toDocument = .ok op := by
  cases op <;> rfl

end PatchOp

/-! ## Patches -/

namespace Patch

variable {p : Patch} {d : Document} {mss : List Members}

theorem ofDocument_array_eq_ok_iff {xs : List Document} : ofDocument (.array xs) = .ok p ↔
    List.Forall₂ (fun (x : Document) (op : PatchOp) => PatchOp.ofDocument x = .ok op) xs p :=
  Document.asList_eq_ok_iff

/-- **A patch is read back, whatever documents it holds.** -/
theorem ofDocument_toDocument (patch : Patch) : ofDocument patch.toDocument = .ok patch :=
  Document.asList_map PatchOp.ofDocument_toDocument patch

theorem read_eq_ok_iff : read d = .ok p ↔ ofDocument d = .ok p := by
  rw [read]
  cases ofDocument d with
  | ok q => simp only [Except.mapError, Except.ok.injEq]
  | error m => exact ⟨nofun, nofun⟩

theorem exists_read_eq_error (h : ∀ p, read d ≠ .ok p) :
    ∃ reason, read d = .error (.notAPatch reason) := by
  rw [read]
  cases hd : ofDocument d with
  | ok p => exact absurd (read_eq_ok_iff.2 hd) (h p)
  | error m => exact ⟨m.message, rfl⟩

theorem read_objects_iff (hn : ∀ ms ∈ mss, ms.keys.Nodup) :
    read (.array (mss.map .object)) = .ok p ↔ List.Forall₂ PatchOp.Spells mss p := by
  rw [read_eq_ok_iff, ofDocument_array_eq_ok_iff, List.forall₂_map_left_iff]
  induction mss generalizing p with
  | nil => simp only [List.forall₂_nil_left_iff]
  | cons ms rest ih =>
    obtain ⟨hms, hrest⟩ := List.forall_mem_cons.1 hn
    simp only [List.forall₂_cons_left_iff, PatchOp.ofDocument_object_iff hms, ih hrest]

/-- What is read is an array each element of which names the operation that it stands for. -/
theorem exists_of_read (h : read d = .ok p) : ∃ xs, d = .array xs ∧
    List.Forall₂ (fun x op => PatchOp.named? x = some (.string op.name)) xs p := by
  cases d with
  | array xs =>
    rw [read_eq_ok_iff, ofDocument_array_eq_ok_iff] at h
    exact ⟨xs, rfl, h.imp fun _ _ hx => PatchOp.named?_of_ofDocument hx⟩
  | _ => cases h

/-- **Patches are read by their grammar.** An array of objects is read as a patch just if each of
them spells an operation, in their order; any other array of objects is rejected for not being a
patch, and so is whatever is no array. Whatever an element is, the operation that is read is the one
that the element names. What a patch is written as is read back. -/
theorem read_grammar (hn : ∀ ms ∈ mss, ms.keys.Nodup) :
    (∀ p, read (.array (mss.map .object)) = .ok p ↔ List.Forall₂ PatchOp.Spells mss p) ∧
    ((∃ p, read (.array (mss.map .object)) = .ok p) ↔
      ∀ ms ∈ mss, ∃ op, PatchOp.Spells ms op) ∧
    ((∃ ms ∈ mss, ¬ ∃ op, PatchOp.Spells ms op) →
      ∃ reason, read (.array (mss.map .object)) = .error (.notAPatch reason)) ∧
    (∀ d : Document, (∀ xs, d ≠ .array xs) → ∃ reason, read d = .error (.notAPatch reason)) ∧
    (∀ d p, read d = .ok p → ∃ xs, d = .array xs ∧
      List.Forall₂ (fun x op => PatchOp.named? x = some (.string op.name)) xs p) ∧
    ∀ p, read p.toDocument = .ok p := by
  refine ⟨fun p => read_objects_iff hn, ?_, ?_, fun d hd => ?_, fun d p => exists_of_read,
    fun p => read_eq_ok_iff.2 (ofDocument_toDocument p)⟩
  · simp only [read_objects_iff hn, exists_forall₂_iff]
  · rintro ⟨ms, hms, hbad⟩
    refine exists_read_eq_error fun p hp => hbad ?_
    exact exists_forall₂_iff.1 ⟨p, (read_objects_iff hn).1 hp⟩ ms hms
  · refine exists_read_eq_error fun p hp => ?_
    obtain ⟨xs, hxs, _⟩ := exists_of_read hp
    exact hd xs hxs

/-- The members come in reverse, a null value first and one that nobody knows in between; and
nothing is moved. -/
theorem read_grammar_reversed :
    (∀ ms ∈ ([[("value", .null), ("path", .string "/a"), ("from", .int 3), ("op", .string "add")]] :
        List Members), ms.keys.Nodup) ∧
      read (.array [.object [("value", .null), ("path", .string "/a"), ("from", .int 3),
        ("op", .string "add")]]) = .ok [.add "/a" .null] ∧
      (∀ ms ∈ ([[("op", .string "move"), ("from", .string "/a"), ("path", .string "/b")]] :
        List Members), ms.keys.Nodup) ∧
      ∃ reason, read (.array [.object [("op", .string "move"), ("from", .string "/a"),
        ("path", .string "/b")]]) = .error (.notAPatch reason) := by
  have hadd : ∀ ms ∈ ([[("value", .null), ("path", .string "/a"), ("from", .int 3),
      ("op", .string "add")]] : List Members), ms.keys.Nodup := by simp
  have hmove : ∀ ms ∈ ([[("op", .string "move"), ("from", .string "/a"),
      ("path", .string "/b")]] : List Members), ms.keys.Nodup := by simp
  obtain ⟨haccepted, _⟩ := read_grammar hadd
  obtain ⟨_, _, hrejected, _⟩ := read_grammar hmove
  refine ⟨hadd, (haccepted _).2 (.cons (.add ?_ ?_ ?_) .nil), hmove,
    hrejected ⟨_, List.mem_singleton_self _, ?_⟩⟩
  · simp
  · simp
  · simp
  · rintro ⟨op, h⟩
    cases h <;> simp_all

end Patch

end BatchRun
