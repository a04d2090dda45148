import BatchRun.Proofs.Document.Proper
import BatchRun.Proofs.Yaml.Literal
import BatchRun.Proofs.Yaml.Words

/-!
# Documents that are read back

What the text of a document is read as is settled by its strings and keys, each by itself. All
conditions on them can be computed.

* `EvenLines`, `Document.Writable`: the documents whose texts are followed here;
* `IsReadBack`, `IsKeyReadBack`, **`Document.Faithful`**: the strings, the keys and the documents
  that are read back;
* `isReadBack_of_start`: a string without breaks that does not start like a number is read back;
* `Document.Hereditary`: a property of all parts of a document is decided part by part.
-/

namespace BatchRun

namespace Yaml

/-! ## Strings and keys -/

/-- Line feeds are the only breaks of a string in a literal block. -/
def EvenLines (s : String) : Prop := styleOf s = .literal → OnlyFeeds s.toList

/-- A string is read back: without quotes it is taken for a string, and between single quotes it has
no breaks. -/
structure IsReadBack (s : String) : Prop where
  plain : styleOf s = .plain → resolvePlain s = .string s
  quoted : styleOf s = .singleQuoted → ∀ c ∈ s.toList, isBreak c = false

/-- A key is read back: without quotes it stands for its own text, whatever it is taken for. -/
structure IsKeyReadBack (s : String) : Prop where
  plain : styleOf s = .plain → (resolvePlain s).keyText = .ok s
  quoted : styleOf s = .singleQuoted → ∀ c ∈ s.toList, isBreak c = false

theorem resolvePlain_of_styleOf {s : String} (hstart : ∀ c ∈ s.toList.head?, startsNumber c = false)
    (h : styleOf s = .plain) : resolvePlain s = .string s := by
  obtain ⟨c, rest, hs, -⟩ := (plainText_of_styleOf h).head
  exact resolvePlain_of_start hs (hstart c (by rw [hs]; rfl)) (isAmbiguous_of_styleOf h)

/-- **A string without breaks that does not start like a number is read back**, also as a key. -/
theorem isReadBack_of_start {s : String} (hstart : ∀ c ∈ s.toList.head?, startsNumber c = false)
    (hbreaks : ∀ c ∈ s.toList, isBreak c = false) : IsReadBack s ∧ IsKeyReadBack s := by
  have hplain (h : styleOf s = .plain) := resolvePlain_of_styleOf hstart h
  exact ⟨⟨hplain, fun _ => hbreaks⟩, ⟨fun h => by rw [hplain h]; rfl, fun _ => hbreaks⟩⟩

instance (s : String) : Decidable (EvenLines s) :=
  decidable_of_iff (styleOf s = .literal → s.toList.all (fun c => !isBreak c || c == '\n') = true)
    (by simp [EvenLines, OnlyFeeds, or_iff_not_imp_left])

instance (n : Node) (s : String) : Decidable (n = .string s) :=
  match n with
  | .string t => decidable_of_iff (t = s) (by simp)
  | .null | .bool _ | .int _ | .real _ | .array _ | .mapping _ | .invalid => .isFalse (by simp)

instance decidableEqOk {ε α : Type} [DecidableEq α] (r : Except ε α) (a : α) :
    Decidable (r = .ok a) :=
  match r with
  | .ok b => decidable_of_iff (b = a) (by simp)
  | .error _ => .isFalse (by simp)

instance (s : String) : Decidable (IsReadBack s) :=
  decidable_of_iff ((styleOf s = .plain → resolvePlain s = .string s) ∧
    (styleOf s = .singleQuoted → s.toList.all (fun c => !isBreak c) = true))
    ⟨fun h => ⟨h.1, by simpa using h.2⟩, fun h => ⟨h.plain, by simpa using h.quoted⟩⟩

instance (s : String) : Decidable (IsKeyReadBack s) :=
  decidable_of_iff ((styleOf s = .plain → (resolvePlain s).keyText = .ok s) ∧
    (styleOf s = .singleQuoted → s.toList.all (fun c => !isBreak c) = true))
    ⟨fun h => ⟨h.1, by simpa using h.2⟩, fun h => ⟨h.plain, by simpa using h.quoted⟩⟩

end Yaml

open Yaml

namespace Document

/-! ## Properties of all parts -/

/-- A property that an array or an object has if its parts have it. -/
structure Hereditary (P : Document → Prop) (K : Members → Prop) : Prop where
  null : P .null
  bool : ∀ b, P (.bool b)
  float : ∀ x, P (.float x)
  array : ∀ {xs : List Document}, P (.array xs) ↔ ∀ x ∈ xs, P x
  object : ∀ {ms : Members}, P (.object ms) ↔ K ms ∧ ∀ p ∈ ms, P p.2

namespace Hereditary

variable {P : Document → Prop} {K : Members → Prop} [∀ i, Decidable (P (.int i))]
  [∀ s, Decidable (P (.string s))] [DecidablePred K]

mutual

/-- A property of all parts is decided part by part. -/
def decide (h : Hereditary P K) : (d : Document) → Decidable (P d)
  | .null => .isTrue h.null
  | .bool b => .isTrue (h.bool b)
  | .int _ => inferInstance
  | .float x => .isTrue (h.float x)
  | .string _ => inferInstance
  | .array xs => @decidable_of_iff _ _ h.array.symm (decideItems h xs)
  | .object ms =>
    @decidable_of_iff _ _ h.object.symm (@instDecidableAnd _ _ _ (decideMembers h ms))

def decideItems (h : Hereditary P K) : (xs : List Document) → Decidable (∀ x ∈ xs, P x)
  | [] => .isTrue fun _ hx => absurd hx List.not_mem_nil
  | x :: xs =>
    @decidable_of_iff _ _ List.forall_mem_cons.symm
      (@instDecidableAnd _ _ (decide h x) (decideItems h xs))

def decideMembers (h : Hereditary P K) :
    (ms : List (String × Document)) → Decidable (∀ p ∈ ms, P p.2)
  | [] => .isTrue fun _ hp => absurd hp List.not_mem_nil
  | (_, d) :: ms =>
    @decidable_of_iff _ _ List.forall_mem_cons.symm
      (@instDecidableAnd _ _ (decide h d) (decideMembers h ms))

end

end Hereditary

/-! ## Documents -/

/-- A document whose integers fit 64 bits with their sign, whose objects have distinct keys, and
whose literal blocks have no breaks but line feeds. -/
inductive Writable : Document → Prop where
  | null : Writable .null
  | bool (b : Bool) : Writable (.bool b)
  | int {i : Int} (fits : signed64? i = some i) : Writable (.int i)
  | float (x : Binary64) : Writable (.float x)
  | string {s : String} (even : EvenLines s) : Writable (.string s)
  | array {xs : List Document} (items : ∀ x ∈ xs, Writable x) : Writable (.array xs)
  | object {ms : Members} (distinct : ms.keys.Nodup) (keys : ∀ p ∈ ms, EvenLines p.1)
      (values : ∀ p ∈ ms, Writable p.2) : Writable (.object ms)

/-- All strings and keys of a document are read back. -/
inductive Faithful : Document → Prop where
  | null : Faithful .null
  | bool (b : Bool) : Faithful (.bool b)
  | int (i : Int) : Faithful (.int i)
  | float (x : Binary64) : Faithful (.float x)
  | string {s : String} (text : IsReadBack s) : Faithful (.string s)
  | array {xs : List Document} (items : ∀ x ∈ xs, Faithful x) : Faithful (.array xs)
  | object {ms : Members} (keys : ∀ p ∈ ms, IsKeyReadBack p.1) (values : ∀ p ∈ ms, Faithful p.2) :
      Faithful (.object ms)

theorem hereditary_writable :
    Hereditary Writable fun ms => ms.keys.Nodup ∧ ∀ p ∈ ms, EvenLines p.1 where
  null := .null
  bool := .bool
  float := .float
  array := ⟨fun | .array items => items, .array⟩
  object := ⟨fun | .object distinct keys values => ⟨⟨distinct, keys⟩, values⟩,
    fun h => .object h.1.1 h.1.2 h.2⟩

theorem hereditary_faithful : Hereditary Faithful fun ms => ∀ p ∈ ms, IsKeyReadBack p.1 where
  null := .null
  bool := .bool
  float := .float
  array := ⟨fun | .array items => items, .array⟩
  object := ⟨fun | .object keys values => ⟨keys, values⟩, fun h => .object h.1 h.2⟩

theorem writable_int_iff {i : Int} : Writable (.int i) ↔ signed64? i = some i :=
  ⟨fun | .int fits => fits, .int⟩

theorem writable_string_iff {s : String} : Writable (.string s) ↔ EvenLines s :=
  ⟨fun | .string even => even, .string⟩

theorem faithful_string_iff {s : String} : Faithful (.string s) ↔ IsReadBack s :=
  ⟨fun | .string text => text, .string⟩

instance (i : Int) : Decidable (Writable (.int i)) := decidable_of_iff _ writable_int_iff.symm

instance (s : String) : Decidable (Writable (.string s)) :=
  decidable_of_iff _ writable_string_iff.symm

instance (i : Int) : Decidable (Faithful (.int i)) := .isTrue (.int i)

instance (s : String) : Decidable (Faithful (.string s)) :=
  decidable_of_iff _ faithful_string_iff.symm

instance : DecidablePred Writable := hereditary_writable.decide

instance : DecidablePred Faithful := hereditary_faithful.decide

end Document

end BatchRun
