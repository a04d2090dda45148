import BatchRun.Proofs.Decimal.Nearest
import BatchRun.Proofs.Yaml.Entries

/-!
# What becomes of real numbers

A plain scalar is a real number if it is a decimal literal, or one of the spellings of an infinity
or of what is not a number that begin with a point. A literal is read as the double it belongs to,
and as null if there is none. The spellings with a point have no literal, and a single one anywhere
in the first document leaves the whole text unread.

* `Node.IsScalar`, `Node.Convertible`: nodes that stand for a value, and so do their keys;
* `Decimal.Literal.ReadAs`, `readAs_of_parse`: the document that a literal is read as;
* `Node.exists_toDocument_iff`: a node is read just if it is convertible and **no spelling with a
  point is inside**;
* **`load_of_parseDocuments`**: so is a text, and its real numbers are read as their literals;
* `load_infinity`: a text that is not read, although all of its nodes stand for values.
-/

namespace BatchRun

namespace Decimal

/-- **The document that a literal is read as**: the double it belongs to, null for one that is too
great, and null for what is not finite. -/
inductive Literal.ReadAs : Literal → Document → Prop where
  | number {digits : Nat} {exponent : Int} {x : Binary64}
      (nearest : Nearest x.parts.1 x.parts.2 (digits * 10 ^ exponent)) :
      ReadAs (.number x.negative digits exponent) (.float x)
  | overflow (negative : Bool) {digits : Nat} {exponent : Int}
      (great : overflowPoint ≤ digits * 10 ^ exponent) :
      ReadAs (.number negative digits exponent) .null
  | infinity (negative : Bool) : ReadAs (.infinity negative) .null
  | notANumber : ReadAs .notANumber .null

end Decimal

namespace Yaml

open Node Decimal

/-! ## Real numbers -/

theorem readAs_of_parse {s : String} {literal : Literal}
    (h : Literal.parse? s.toList = some literal) :
    ∃ x, realDocument s = .ok x ∧ literal.ReadAs x := by
  unfold realDocument
  simp only [h]
  cases literal with
  | number negative digits exponent =>
    cases hx : Literal.finite? (.number negative digits exponent) with
    | some x =>
      obtain ⟨rfl, hnearest⟩ := Binary64.nearest_of_ofDecimal hx
      exact ⟨_, rfl, .number hnearest⟩
    | none => exact ⟨_, rfl, .overflow negative (Binary64.ofDecimal_eq_none_iff.1 hx)⟩
  | infinity negative => exact ⟨_, rfl, .infinity negative⟩
  | notANumber => exact ⟨_, rfl, .notANumber⟩

theorem exists_literal_of_realDocument {s : String} {x : Document} (h : realDocument s = .ok x) :
    ∃ literal, Literal.parse? s.toList = some literal ∧ literal.ReadAs x := by
  cases hs : Literal.parse? s.toList with
  | none =>
    unfold realDocument at h
    simp only [hs] at h
    cases h
  | some literal =>
    obtain ⟨y, hy, hread⟩ := readAs_of_parse hs
    obtain rfl := Except.ok.inj (hy.symm.trans h)
    exact ⟨literal, rfl, hread⟩

theorem parse_boundlessWords : ∀ s ∈ boundlessWords, Literal.parse? s.toList = none := by decide

theorem realDocument_of_mem {s : String} (h : s ∈ boundlessWords) :
    realDocument s = .error .number := by
  unfold realDocument
  simp only [parse_boundlessWords s h]

theorem mem_of_realDocument_error {s : String} {e : ReadError} (h : isReal s = true)
    (he : realDocument s = .error e) : e = .number ∧ s ∈ boundlessWords := by
  cases hs : Literal.parse? s.toList with
  | some literal =>
    obtain ⟨x, hx, _⟩ := readAs_of_parse hs
    rw [hx] at he
    cases he
  | none =>
    unfold realDocument at he
    simp only [hs] at he
    cases he
    rw [isReal, hs] at h
    exact ⟨rfl, by simpa using h⟩

/-! ## Nodes that stand for values -/

namespace Node

/-- Neither a collection nor invalid. -/
def IsScalar : Node → Prop
  | array _ | mapping _ | invalid => False
  | _ => True

/-- The node and all nodes inside stand for values, and all keys are scalars. -/
inductive Convertible : Node → Prop where
  | null : Convertible .null
  | bool (b : Bool) : Convertible (.bool b)
  | int (i : Int) : Convertible (.int i)
  | real (s : String) : Convertible (.real s)
  | string (s : String) : Convertible (.string s)
  | array {xs : List Node} (items : ∀ x ∈ xs, Convertible x) : Convertible (.array xs)
  | mapping {es : List (Node × Node)} (keys : ∀ e ∈ es, e.1.IsScalar)
      (values : ∀ e ∈ es, Convertible e.2) : Convertible (.mapping es)

theorem exists_keyText_iff {n : Node} : (∃ s, n.keyText = .ok s) ↔ n.IsScalar := by
  cases n <;> simp [keyText, IsScalar]

theorem itemDocuments_error {xs : List Node} {e : ReadError} (h : itemDocuments xs = .error e) :
    ∃ x ∈ xs, x.toDocument = .error e := by
  induction xs with
  | nil => cases h
  | cons x xs ih =>
    rw [itemDocuments] at h
    obtain hx | ⟨d, _, hrest⟩ := bind_eq_error_iff.1 h
    · exact ⟨x, List.mem_cons_self, hx⟩
    · obtain hxs | ⟨ds, _, hok⟩ := bind_eq_error_iff.1 hrest
      · obtain ⟨y, hy, hread⟩ := ih hxs
        exact ⟨y, List.mem_cons_of_mem x hy, hread⟩
      · cases hok

theorem entryMembers_error {done : Members} {es : List (Node × Node)} {e : ReadError}
    (h : entryMembers done es = .error e) :
    ∃ p ∈ es, p.1.keyText = .error e ∨ p.2.toDocument = .error e := by
  induction es generalizing done with
  | nil => cases h
  | cons p es ih =>
    rw [entryMembers] at h
    obtain hkey | ⟨key, _, hrest⟩ := bind_eq_error_iff.1 h
    · exact ⟨p, List.mem_cons_self, .inl hkey⟩
    · obtain hvalue | ⟨d, _, hes⟩ := bind_eq_error_iff.1 hrest
      · exact ⟨p, List.mem_cons_self, .inr hvalue⟩
      · obtain ⟨q, hq, hread⟩ := ih hes
        exact ⟨q, List.mem_cons_of_mem p hq, hread⟩

variable {n root : Node}

/-- **Only a spelling with a point leaves a convertible node unread.** -/
theorem Convertible.of_error (h : root.Convertible) (hroot : root.Proper) {e : ReadError}
    (he : root.toDocument = .error e) :
    e = .number ∧ ∃ s ∈ boundlessWords, (Node.real s).Within root := by
  induction h with
  | null | bool | int | string => cases he
  | real s =>
    cases hroot with
    | real denotes =>
      rw [toDocument] at he
      obtain ⟨rfl, hs⟩ := mem_of_realDocument_error denotes he
      exact ⟨rfl, s, hs, .self⟩
  | array _ ih =>
    cases hroot with
    | array items =>
      obtain ⟨x, hx, hread⟩ := itemDocuments_error (map_eq_error_iff.1 he)
      obtain ⟨rfl, s, hs, hwithin⟩ := ih x hx (items x hx) hread
      exact ⟨rfl, s, hs, .item hx hwithin⟩
  | mapping keys _ ih =>
    cases hroot with
    | mapping _ values =>
      obtain ⟨p, hp, hread⟩ := entryMembers_error (map_eq_error_iff.1 he)
      obtain hkey | hvalue := hread
      · obtain ⟨t, ht⟩ := exists_keyText_iff.2 (keys p hp)
        rw [ht] at hkey
        cases hkey
      · obtain ⟨rfl, s, hs, hwithin⟩ := ih p hp (values p hp) hvalue
        exact ⟨rfl, s, hs, .value hp hwithin⟩

theorem Convertible.of_toDocument (hroot : root.Proper) {d : Document}
    (h : root.toDocument = .ok d) : root.Convertible := by
  induction hroot generalizing d with
  | null => exact .null
  | bool b => exact .bool b
  | int i => exact .int i
  | real => exact .real _
  | string s => exact .string s
  | array _ ih =>
    obtain ⟨xs, _, hxs⟩ := exists_of_toDocument_array h
    refine .array fun x hx => ?_
    obtain ⟨y, hy⟩ := exists_forall₂_iff.1 ⟨xs, hxs⟩ x hx
    exact ih x hx hy
  | mapping _ _ ih =>
    obtain ⟨entries, _, hentries⟩ := exists_of_toDocument_mapping h
    have hmembers := exists_forall₂_iff.1 ⟨entries, hentries⟩
    refine .mapping (fun e he => ?_) fun e he => ?_
    · obtain ⟨p, hkey, _⟩ := hmembers e he
      exact exists_keyText_iff.1 ⟨p.1, hkey⟩
    · obtain ⟨p, _, hvalue⟩ := hmembers e he
      exact ih e he hvalue
  | invalid => cases h

/-- **A node is read just if it is convertible and no spelling with a point is inside.** -/
theorem exists_toDocument_iff (hroot : root.Proper) :
    (∃ d, root.toDocument = .ok d) ↔
      root.Convertible ∧ ∀ s ∈ boundlessWords, ¬ (Node.real s).Within root := by
  constructor
  · rintro ⟨d, hd⟩
    refine ⟨.of_toDocument hroot hd, fun s hs hwithin => ?_⟩
    obtain ⟨x, hx⟩ := hwithin.exists_toDocument hd
    rw [toDocument, realDocument_of_mem hs] at hx
    cases hx
  · rintro ⟨hconvertible, hno⟩
    cases hd : root.toDocument with
    | ok d => exact ⟨d, rfl⟩
    | error e =>
      obtain ⟨_, s, hs, hwithin⟩ := hconvertible.of_error hroot hd
      exact absurd hwithin (hno s hs)

end Node

/-! ## Texts -/

variable {text : String} {roots : List Node}

theorem parse_of_nil (h : parseDocuments text = .ok []) : parse text = .ok .null := by
  unfold parse
  simp only [h]

/-- **When a text is read, and what becomes of its real numbers.** Let the loader accept a text.
It is read as a document just if its first document, if there is one, is made of values with
scalars for keys, and none of its real numbers is a spelling with a point. If one of them is, at
whatever depth, the whole text is not read, although it is made of values. If the text is read,
each real number inside is a literal; it is read as the double that is nearest to it, or as null if
it is too great or not finite, and this is what is found in the document, as far as no mapping has
two keys of one text. -/
theorem load_of_parseDocuments (h : parseDocuments text = .ok roots) :
    ((∃ d, load text = .ok d) ↔ ∀ root ∈ roots.head?,
      root.Convertible ∧ ∀ s ∈ boundlessWords, ¬ (Node.real s).Within root) ∧
    (∀ root ∈ roots.head?, root.Convertible →
      ∀ s ∈ boundlessWords, (Node.real s).Within root →
        load text = .error (.serialization (some "yaml") "invalid float literal")) ∧
    ∀ d, load text = .ok d → ∀ root ∈ roots.head?, ∀ s, (Node.real s).Within root →
      ∃ literal x, Literal.parse? s.toList = some literal ∧ literal.ReadAs x ∧
        (Node.real s).toDocument = .ok x ∧
        ((∀ es, (Node.mapping es).Within root → DistinctTexts es) →
          ∃ place, Document.resolve? place d = some x) := by
  cases roots with
  | nil =>
    -- nothing is in the text, and it is read as null
    have hnull : load text = .ok .null := load_eq_ok_iff.2 (parse_of_nil h)
    refine ⟨iff_of_true ⟨_, hnull⟩ ?_, ?_, fun d _ => ?_⟩ <;> simp
  | cons root rest =>
    have hproper : root.Proper := proper_of_parseDocuments h root List.mem_cons_self
    have hparse : parse text = root.toDocument := parse_of_root h
    simp only [List.head?_cons, Option.mem_some_iff, forall_eq']
    refine ⟨?_, fun hconvertible s hs hwithin => ?_, fun d hd s hwithin => ?_⟩
    · simp only [load_eq_ok_iff, hparse]
      exact exists_toDocument_iff hproper
    · have hnone := mt (exists_toDocument_iff hproper).1 fun hno => hno.2 s hs hwithin
      cases hroot : root.toDocument with
      | ok d => exact absurd ⟨d, hroot⟩ hnone
      | error e =>
        obtain ⟨rfl, _⟩ := hconvertible.of_error hproper hroot
        rw [load, hparse, hroot]
        rfl
    · rw [load_eq_ok_iff, hparse] at hd
      obtain ⟨x, hx⟩ := hwithin.exists_toDocument hd
      obtain ⟨literal, hs, hread⟩ := exists_literal_of_realDocument hx
      refine ⟨literal, x, hs, hread, hx, fun hdistinct => ?_⟩
      obtain ⟨y, place, hy, hplace⟩ := hwithin.exists_place hd hdistinct
      obtain rfl := Except.ok.inj (hx.symm.trans hy)
      exact ⟨place, hplace⟩

/-- A literal that is too great, inside an array inside a mapping. -/
theorem load_of_parseDocuments_overflow :
    parseDocuments "a:\n  - 1e999\n" =
        .ok [.mapping [(.string "a", .array [.real "1e999"])]] ∧
      ∃ d, load "a:\n  - 1e999\n" = .ok d ∧
        ∃ literal x place, Literal.parse? "1e999".toList = some literal ∧ literal.ReadAs x ∧
          Document.resolve? place d = some x := by
  have hroots : parseDocuments "a:\n  - 1e999\n" =
      .ok [.mapping [(.string "a", .array [.real "1e999"])]] := by decide +kernel
  obtain ⟨hread, _, hreals⟩ := load_of_parseDocuments hroots
  simp only [List.head?_cons, Option.mem_some_iff, forall_eq'] at hread hreals
  obtain ⟨d, hd⟩ : ∃ d, load "a:\n  - 1e999\n" = .ok d := by
    refine hread.2 ⟨.mapping ?_ ?_, fun s hs hwithin => ?_⟩
    · simp [IsScalar]
    · simp only [List.forall_mem_singleton]
      exact .array (by simp only [List.forall_mem_singleton]; exact .real _)
    · obtain _ | _ | ⟨he, hwithin⟩ := hwithin
      rw [List.mem_singleton.1 he] at hwithin
      obtain _ | ⟨hx, hwithin⟩ | _ := hwithin
      rw [List.mem_singleton.1 hx] at hwithin
      cases hwithin
      exact absurd hs (by decide)
  obtain ⟨literal, x, hs, hx, _, hplace⟩ := hreals d hd "1e999"
    (.value List.mem_cons_self (.item List.mem_cons_self .self))
  obtain ⟨place, hplace⟩ := hplace fun es hes => by
    obtain _ | _ | ⟨he, hes⟩ := hes
    · simp [DistinctTexts]
    · rw [List.mem_singleton.1 he] at hes
      obtain _ | ⟨hx, hes⟩ | _ := hes
      rw [List.mem_singleton.1 hx] at hes
      cases hes
  exact ⟨hroots, d, hd, literal, x, place, hs, hx, hplace⟩

/-- All nodes of a text stand for values, but an infinity with a point leaves the text unread;
without the point it is read as null. -/
theorem load_infinity :
    parseDocuments "a: .inf\n" = .ok [.mapping [(.string "a", .real ".inf")]] ∧
      (Node.mapping [(.string "a", .real ".inf")]).Convertible ∧
      load "a: .inf\n" = .error (.serialization (some "yaml") "invalid float literal") ∧
      load "a: inf\n" = .ok (.object [("a", .null)]) := by
  have hpoint : parseDocuments "a: .inf\n" = .ok [.mapping [(.string "a", .real ".inf")]] := by
    decide +kernel
  have hword : parseDocuments "a: inf\n" = .ok [.mapping [(.string "a", .real "inf")]] := by
    decide +kernel
  refine ⟨hpoint, .mapping (by simp [IsScalar]) ?_, ?_, ?_⟩
  · simp only [List.forall_mem_singleton]
    exact .real _
  · rw [load, parse_of_root hpoint]
    rfl
  · rw [load_eq_ok_iff, parse_of_root hword]
    rfl

end Yaml

end BatchRun
