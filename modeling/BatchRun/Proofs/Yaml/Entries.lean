import BatchRun.Proofs.Document.Members
import BatchRun.Proofs.Document.Pointer
import BatchRun.Proofs.Yaml.Keys
import BatchRun.Yaml.Reader

/-!
# What becomes of the entries of a mapping

The keys of a mapping are distinct nodes, but the keys of an object are texts, and two nodes may
have one text. Then the entry that comes later overwrites the other one.

* `IsMember`, `entryMembers_eq`: each entry is read as a member, and all are put together;
* `entryMembers_eq_ok_iff`: entries with distinct keys are read in their order;
* `Node.Within`, `Node.Within.exists_toDocument`: the nodes that a document is made of;
* **`entries_of_parse`**: all entries stay just if their keys have distinct texts;
* `merged_entries`: two entries that become one member.
-/

namespace BatchRun

namespace Yaml

open Node

/-! ## Collections -/

/-- An entry is read as a member. -/
def IsMember (e : Node × Node) (p : String × Document) : Prop :=
  e.1.keyText = .ok p.1 ∧ e.2.toDocument = .ok p.2

theorem itemDocuments_cons_iff {n : Node} {ns : List Node} {x : Document} {xs : List Document} :
    itemDocuments (n :: ns) = .ok (x :: xs) ↔ n.toDocument = .ok x ∧ itemDocuments ns = .ok xs := by
  rw [itemDocuments]
  cases hn : n.toDocument with
  | error e => simp [bind, Except.bind]
  | ok d => cases hns : itemDocuments ns <;> simp [bind, Except.bind]

theorem forall₂_of_itemDocuments {ns : List Node} {xs : List Document}
    (h : itemDocuments ns = .ok xs) :
    List.Forall₂ (fun (n : Node) (x : Document) => n.toDocument = .ok x) ns xs := by
  induction ns generalizing xs with
  | nil =>
    cases h
    exact .nil
  | cons n ns ih =>
    rw [itemDocuments] at h
    obtain ⟨x, hn, hrest⟩ := bind_eq_ok_iff.1 h
    obtain ⟨xs', hns, hxs⟩ := bind_eq_ok_iff.1 hrest
    cases hxs
    exact .cons hn (ih hns)

theorem entryMembers_cons {ms : Members} {e : Node × Node} {p : String × Document}
    {es : List (Node × Node)} (h : IsMember e p) :
    entryMembers ms (e :: es) = entryMembers (ms.insert p.1 p.2) es := by
  obtain ⟨hkey, hvalue⟩ := h
  rw [entryMembers, hkey, hvalue]
  rfl

theorem exists_isMember {done ns : Members} {es : List (Node × Node)}
    (h : entryMembers done es = .ok ns) : ∀ e ∈ es, ∃ p, IsMember e p := by
  induction es generalizing done with
  | nil => exact List.forall_mem_nil _
  | cons e es ih =>
    rw [entryMembers] at h
    obtain ⟨key, hkey, hrest⟩ := bind_eq_ok_iff.1 h
    obtain ⟨x, hvalue, hes⟩ := bind_eq_ok_iff.1 hrest
    exact List.forall_mem_cons.2 ⟨⟨(key, x), hkey, hvalue⟩, ih hes⟩

theorem keyTexts_eq {es : List (Node × Node)} {ms : Members} (h : List.Forall₂ IsMember es ms) :
    (es.map fun (e : Node × Node) => e.1.keyText) = ms.keys.map .ok := by
  induction h with
  | nil => rfl
  | cons hp _ ih => rw [List.map_cons, ih, hp.1, Members.keys_cons, List.map_cons]

theorem entryMembers_eq {done ms : Members} {es : List (Node × Node)}
    (h : List.Forall₂ IsMember es ms) : entryMembers done es = .ok (done.insertAll ms) := by
  induction h generalizing done with
  | nil => rw [entryMembers, Members.insertAll, List.foldl_nil]
  | cons hp _ ih => rw [entryMembers_cons hp, ih, Members.insertAll_cons]

theorem entryMembers_of_forall₂ {done ms : Members} {es : List (Node × Node)}
    (h : List.Forall₂ IsMember es ms) (hnodup : (Members.keys (done ++ ms)).Nodup) :
    entryMembers done es = .ok (done ++ ms) := by
  rw [entryMembers_eq h, Members.insertAll_of_nodup hnodup]

/-- **Entries are read as as many members with distinct keys just if each is read as its own.** -/
theorem entryMembers_eq_ok_iff {ms : Members} {es : List (Node × Node)} (hnodup : ms.keys.Nodup)
    (hlength : es.length = ms.length) :
    entryMembers [] es = .ok ms ↔ List.Forall₂ IsMember es ms := by
  refine ⟨fun h => ?_, fun h => entryMembers_of_forall₂ h hnodup⟩
  obtain ⟨ns, hns⟩ := exists_forall₂_iff.2 (exists_isMember h)
  obtain rfl : Members.ofList ns = ms := Except.ok.inj ((entryMembers_eq hns).symm.trans h)
  -- no member has been lost, so that none has overwritten another
  rw [hns.length_eq, eq_comm, Members.length_ofList_iff] at hlength
  rwa [Members.ofList_of_nodup hlength]

theorem exists_of_toDocument_array {ns : List Node} {d : Document}
    (h : (Node.array ns).toDocument = .ok d) : ∃ xs, d = .array xs ∧
      List.Forall₂ (fun (n : Node) (x : Document) => n.toDocument = .ok x) ns xs := by
  rw [toDocument] at h
  cases hns : itemDocuments ns with
  | error e => rw [hns] at h; cases h
  | ok xs =>
    rw [hns] at h
    cases h
    exact ⟨xs, rfl, forall₂_of_itemDocuments hns⟩

theorem exists_of_toDocument_mapping {es : List (Node × Node)} {d : Document}
    (h : (Node.mapping es).toDocument = .ok d) : ∃ entries : Members,
      d = .object (Members.ofList entries) ∧ List.Forall₂ IsMember es entries := by
  rw [toDocument] at h
  cases hes : entryMembers [] es with
  | error e => rw [hes] at h; cases h
  | ok ms =>
    obtain ⟨entries, hentries⟩ := exists_forall₂_iff.2 (exists_isMember hes)
    rw [entryMembers_eq hentries] at h
    cases h
    exact ⟨entries, rfl, hentries⟩

/-! ## The nodes of a document -/

namespace Node

/-- A node is another one, or is inside its items or values. -/
inductive Within (n : Node) : Node → Prop where
  | self : Within n n
  | item {x : Node} {xs : List Node} (hx : x ∈ xs) (within : Within n x) : Within n (.array xs)
  | value {e : Node × Node} {es : List (Node × Node)} (he : e ∈ es) (within : Within n e.2) :
      Within n (.mapping es)

variable {n root : Node}

theorem Within.proper (h : n.Within root) (hroot : root.Proper) : n.Proper := by
  induction h with
  | self => exact hroot
  | item hx _ ih =>
    cases hroot with
    | array items => exact ih (items _ hx)
  | value he _ ih =>
    cases hroot with
    | mapping _ values => exact ih (values _ he)

theorem Within.exists_toDocument (h : n.Within root) {d : Document}
    (hroot : root.toDocument = .ok d) : ∃ x, n.toDocument = .ok x := by
  induction h generalizing d with
  | self => exact ⟨d, hroot⟩
  | item hx _ ih =>
    obtain ⟨xs, _, hxs⟩ := exists_of_toDocument_array hroot
    obtain ⟨y, hy⟩ := exists_forall₂_iff.1 ⟨xs, hxs⟩ _ hx
    exact ih hy
  | value he _ ih =>
    obtain ⟨entries, _, hentries⟩ := exists_of_toDocument_mapping hroot
    obtain ⟨p, _, hvalue⟩ := exists_forall₂_iff.1 ⟨entries, hentries⟩ _ he
    exact ih hvalue

end Node

/-! ## Texts of keys -/

/-- No two keys have one text. -/
def DistinctTexts (es : List (Node × Node)) : Prop :=
  (es.map fun (e : Node × Node) => e.1.keyText).Nodup

variable {text : String} {es : List (Node × Node)} {entries : Members} {n root : Node}
  {rest : List Node} {d : Document}

theorem distinctTexts_iff (h : List.Forall₂ IsMember es entries) :
    DistinctTexts es ↔ entries.keys.Nodup := by
  rw [DistinctTexts, keyTexts_eq h]
  exact List.nodup_map_iff fun _ _ => Except.ok.inj

theorem distinctTexts_of_strings (hdistinct : (es.map Prod.fst).Nodup)
    (h : ∀ e ∈ es, ∃ s, e.1 = .string s) : DistinctTexts es := by
  have hkeys : (es.map Prod.fst).map keyText = es.map fun (e : Node × Node) => e.1.keyText :=
    List.map_map
  rw [DistinctTexts, ← hkeys]
  refine hdistinct.map_on fun k hk l hl heq => ?_
  obtain ⟨e, he, rfl⟩ := List.mem_map.1 hk
  obtain ⟨f, hf, rfl⟩ := List.mem_map.1 hl
  obtain ⟨s, hs⟩ := h e he
  obtain ⟨t, ht⟩ := h f hf
  rw [hs, ht] at heq ⊢
  rw [Except.ok.inj heq]

/-- If no text of a key comes twice, each node inside is found again in the document. -/
theorem Node.Within.exists_place (h : n.Within root) (hroot : root.toDocument = .ok d)
    (hdistinct : ∀ es, (Node.mapping es).Within root → DistinctTexts es) :
    ∃ x place, n.toDocument = .ok x ∧ Document.resolve? place d = some x := by
  induction h generalizing d with
  | self => exact ⟨d, [], hroot, rfl⟩
  | item hx _ ih =>
    obtain ⟨xs, rfl, hxs⟩ := exists_of_toDocument_array hroot
    obtain ⟨i, y, hi, hy⟩ := exists_getElem?_of_forall₂ hxs hx
    obtain ⟨x, place, hn, hplace⟩ := ih hy fun es hes => hdistinct es (.item hx hes)
    refine ⟨x, toString i :: place, hn, ?_⟩
    rw [Document.resolve?, Document.step?, Pointer.index?_toString, Option.bind_some, hi]
    exact hplace
  | value he _ ih =>
    obtain ⟨entries, rfl, hentries⟩ := exists_of_toDocument_mapping hroot
    obtain ⟨i, p, hi, _, hvalue⟩ := exists_getElem?_of_forall₂ hentries he
    obtain ⟨x, place, hn, hplace⟩ := ih hvalue fun es hes => hdistinct es (.value he hes)
    have hkeys : entries.keys.Nodup := (distinctTexts_iff hentries).1 (hdistinct _ .self)
    refine ⟨x, p.1 :: place, hn, ?_⟩
    rw [Document.resolve?, Document.step?, Members.ofList_of_nodup hkeys,
      Members.get?_of_mem hkeys (List.mem_of_getElem? hi)]
    exact hplace

theorem parse_of_root (h : parseDocuments text = .ok (root :: rest)) :
    parse text = root.toDocument := by
  unfold parse
  simp only [h]

theorem load_eq_ok_iff : load text = .ok d ↔ parse text = .ok d := by
  unfold load
  cases parse text with
  | error e => exact ⟨nofun, nofun⟩
  | ok x =>
    constructor
    · rintro ⟨⟩
      rfl
    · rintro ⟨⟩
      rfl

/-- **What becomes of the entries of a mapping.** The keys of every mapping of a text that is read
are distinct nodes. Each entry is read as a member, and these are put together to an object, a later
one overwriting an earlier one of the same key. So the object has as many members as the mapping
has entries just if the keys have distinct texts, as they do if they all are strings; and then the
members are those of the entries, in their order. If this is so for every mapping inside the
document, each of these objects is found in it. -/
theorem entries_of_parse (hroots : parseDocuments text = .ok (root :: rest)) (h : parse text = .ok d)
    (hes : (Node.mapping es).Within root) :
    (es.map Prod.fst).Nodup ∧ ∃ entries : Members, List.Forall₂ IsMember es entries ∧
      (Node.mapping es).toDocument = .ok (.object (Members.ofList entries)) ∧
      ((Members.ofList entries).length = es.length ↔ DistinctTexts es) ∧
      (DistinctTexts es → Members.ofList entries = entries) ∧
      ((∀ e ∈ es, ∃ s, e.1 = .string s) → DistinctTexts es) ∧
      ((∀ fs, (Node.mapping fs).Within root → DistinctTexts fs) →
        ∃ place, Document.resolve? place d = some (.object entries)) := by
  have hroot : root.toDocument = .ok d := (parse_of_root hroots).symm.trans h
  have hproper := hes.proper (proper_of_parseDocuments hroots root List.mem_cons_self)
  have hdistinct : (es.map Prod.fst).Nodup := by
    cases hproper with
    | mapping distinct _ => exact distinct
  obtain ⟨x, hx⟩ := hes.exists_toDocument hroot
  obtain ⟨entries, rfl, hentries⟩ := exists_of_toDocument_mapping hx
  have htexts := distinctTexts_iff hentries
  refine ⟨hdistinct, entries, hentries, hx, ?_, fun hd => ?_, distinctTexts_of_strings hdistinct,
    fun hall => ?_⟩
  · rw [hentries.length_eq, Members.length_ofList_iff, htexts]
  · exact Members.ofList_of_nodup (htexts.1 hd)
  · obtain ⟨y, place, hy, hplace⟩ := hes.exists_place hroot hall
    obtain rfl := Except.ok.inj (hx.symm.trans hy)
    rw [Members.ofList_of_nodup (htexts.1 (hall es hes))] at hplace
    exact ⟨place, hplace⟩

/-- Keys of three kinds, two of them in a mapping inside. -/
theorem entries_of_parse_mixed :
    parseDocuments "a:\n  1: x\n  true: y\n" = .ok [.mapping [(.string "a",
        .mapping [(.int 1, .string "x"), (.bool true, .string "y")])]] ∧
      parse "a:\n  1: x\n  true: y\n" =
        .ok (.object [("a", .object [("1", .string "x"), ("true", .string "y")])]) ∧
      (Node.mapping [(.int 1, .string "x"), (.bool true, .string "y")]).Within (.mapping
        [(.string "a", .mapping [(.int 1, .string "x"), (.bool true, .string "y")])]) ∧
      ∃ entries : Members,
        List.Forall₂ IsMember [(.int 1, .string "x"), (.bool true, .string "y")] entries ∧
        (Node.mapping [(.int 1, .string "x"), (.bool true, .string "y")]).toDocument =
          .ok (.object entries) := by
  have hroots : parseDocuments "a:\n  1: x\n  true: y\n" = .ok [.mapping [(.string "a",
      .mapping [(.int 1, .string "x"), (.bool true, .string "y")])]] := by decide +kernel
  have hparse : parse "a:\n  1: x\n  true: y\n" =
      .ok (.object [("a", .object [("1", .string "x"), ("true", .string "y")])]) :=
    parse_of_root hroots
  have hwithin : (Node.mapping [(.int 1, .string "x"), (.bool true, .string "y")]).Within (.mapping
      [(.string "a", .mapping [(.int 1, .string "x"), (.bool true, .string "y")])]) :=
    .value List.mem_cons_self .self
  obtain ⟨_, entries, hentries, hobject, _, hall, _⟩ := entries_of_parse hroots hparse hwithin
  have htexts : DistinctTexts [(.int 1, .string "x"), (.bool true, .string "y")] := by
    have hne : Int.repr 1 ≠ "true" := by decide
    simp [DistinctTexts, keyText, hne]
  rw [hall htexts] at hobject
  exact ⟨hroots, hparse, hwithin, entries, hentries, hobject⟩

/-- An integer and a string are distinct keys that have one text: an entry is lost. -/
theorem merged_entries :
    parseDocuments "1: a\n\"1\": b\n" =
        .ok [.mapping [(.int 1, .string "a"), (.string "1", .string "b")]] ∧
      parse "1: a\n\"1\": b\n" = .ok (.object [("1", .string "b")]) := by
  have hroots : parseDocuments "1: a\n\"1\": b\n" =
      .ok [.mapping [(.int 1, .string "a"), (.string "1", .string "b")]] := by decide +kernel
  exact ⟨hroots, parse_of_root hroots⟩

end Yaml

end BatchRun
