import BatchRun.Document.Json
import BatchRun.Proofs.Document.Depth
import BatchRun.Proofs.Yaml.Brackets
import BatchRun.Proofs.Yaml.Numeral

/-!
# The tokens of compact JSON

* `shows_jsonEscape`: what stands for a character in a JSON string is read as that character;
* `FlowWord.numeral`: the text of a number stands without quotes in collections, too;
* `Piece.ofDocument`: a document as a piece, `Piece.ofDocument_text`, `Piece.ofDocument_depth`;
* **`Piece.ofDocument_isNode`**: every document is read as a node;
* **`tokenize_toJson`**, `tokenize_toJson_deep`: the tokens of the compact text of a document.
-/

namespace BatchRun

namespace Yaml

open Decimal

/-! ## Strings -/

/-- What stands for a character in a JSON string: an escape by letter or by number, or the
character. -/
inductive JsonEscape (c : Char) : List Char → Prop where
  | letter {l : Char} (char : escapedChar? l = some c) (inner : isLineEnd l = false) :
      JsonEscape c ['\\', l]
  | number (low : c.toNat < 32) : JsonEscape c
      ['\\', 'u', '0', '0', Json.hexDigit (c.toNat / 16), Json.hexDigit (c.toNat % 16)]
  | self (quote : c ≠ '"') (backslash : c ≠ '\\') (high : 32 ≤ c.toNat) : JsonEscape c [c]

theorem jsonEscape (c : Char) : JsonEscape c (Json.escape c) := by
  have hcontrol {n : Nat} (h : c.toNat = n) : c = Char.ofNat n := by rw [← h, Char.ofNat_toNat]
  rw [Json.escape]
  split
  · next h => rw [h]; exact .letter rfl rfl
  split
  · next h => rw [h]; exact .letter rfl rfl
  split
  · next h => rw [h]; exact .letter rfl rfl
  split
  · next h => rw [h]; exact .letter rfl rfl
  split
  · next h => rw [h]; exact .letter rfl rfl
  split
  · next h => rw [hcontrol h]; exact .letter rfl rfl
  split
  · next h => rw [hcontrol h]; exact .letter rfl rfl
  split
  · next h => exact .number h
  · next hquote hback _ _ _ _ _ hlow => exact .self hquote hback (Nat.not_lt.1 hlow)

theorem hexNumber?_jsonDigits {n : Nat} (h : n < 32) :
    hexNumber? ['0', '0', Json.hexDigit (n / 16), Json.hexDigit (n % 16)] = some n := by
  have hall : ∀ n < 32,
      hexNumber? ['0', '0', Json.hexDigit (n / 16), Json.hexDigit (n % 16)] = some n := by decide
  exact hall n h

/-- **What stands for a character in a JSON string is read as that character.** -/
theorem shows_jsonEscape {c : Char} (hs : c ≠ ' ') : Shows false (Json.escape c) c := by
  have henc := jsonEscape c
  generalize Json.escape c = enc at henc ⊢
  cases henc with
  | letter char inner => exact shows_letter char (Bool.or_eq_false_iff.1 inner).1
  | number low => exact shows_number rfl rfl rfl (hexNumber?_jsonDigits low)
  | self quote backslash high =>
    have hne (d : Char) (hd : d.toNat < 32) : c ≠ d := by
      rintro rfl
      omega
    have hend : c.toNat ≠ 0 := by omega
    refine shows_self ?_ quote fun _ => backslash
    simp [isWordEnd, isSpaceOrTab, isLineEnd, isLineBreak, isEndMark, hs, hend,
      hne '\t' (by decide), hne '\n' (by decide), hne '\r' (by decide)]

theorem isEndMark_jsonEscape (c : Char) : ∀ d ∈ Json.escape c, isEndMark d = false := by
  have hdigit : ∀ n < 16, isEndMark (Json.hexDigit n) = false := by decide
  have henc := jsonEscape c
  generalize Json.escape c = enc at henc ⊢
  cases henc with
  | letter char inner =>
    rw [List.forall_mem_cons, List.forall_mem_singleton]
    exact ⟨rfl, (Bool.or_eq_false_iff.1 inner).2⟩
  | number low =>
    simp only [List.forall_mem_cons]
    exact ⟨rfl, rfl, rfl, rfl, hdigit _ (by omega), hdigit _ (by omega),
      fun _ hd => absurd hd List.not_mem_nil⟩
  | self quote backslash high =>
    rw [List.forall_mem_singleton, isEndMark, beq_eq_false_iff_ne]
    omega

/-! ## Numbers -/

theorem IsNumeral.isBare {c : Char} (h : IsNumeral c) : IsBare c := by
  obtain h | rfl | rfl | rfl | rfl := h
  · refine .inl ?_
    rw [isNameChar, isDecimalDigit]
    change (isDigit c || _ || _ || _ || _) = true
    rw [h]
    rfl
  all_goals decide

theorem FlowWord.of_start {cs rest : List Char} {c : Char} (h : cs = c :: rest)
    (hname : isNameChar c = true) (hhyphen : c ≠ '-') (hrest : ∀ d ∈ rest, IsBare d) :
    FlowWord cs :=
  ⟨⟨c, rest, h, hname, fun hc => absurd hc hhyphen⟩,
    h ▸ List.forall_mem_cons.2 ⟨.inl hname, hrest⟩⟩

theorem FlowWord.of_names {cs rest : List Char} {c : Char} (h : cs = c :: rest)
    (hnames : (c :: rest).all isNameChar = true) (hhyphen : c ≠ '-') : FlowWord cs := by
  rw [List.all_eq_true, List.forall_mem_cons] at hnames
  exact .of_start h hnames.1 hhyphen fun d hd => .inl (hnames.2 d hd)

theorem FlowWord.numeral {sign rest : List Char} {c : Char} (hsign : sign = [] ∨ sign = ['-'])
    (hc : isDigit c = true) (hrest : ∀ c ∈ rest, IsNumeral c) : FlowWord (sign ++ c :: rest) := by
  have hname : isNameChar c = true := by
    rw [isNameChar]
    change (isDigit c || _ || _ || _ || _) = true
    rw [hc]
    rfl
  have hhyphen : c ≠ '-' := by
    rintro rfl
    cases hc
  have hword : FlowWord (c :: rest) := .of_start rfl hname hhyphen fun d hd => (hrest d hd).isBare
  obtain rfl | rfl := hsign
  · exact hword
  · exact ⟨⟨'-', c :: rest, rfl, rfl, fun _ => ⟨c, rest, rfl, hhyphen⟩⟩,
      List.forall_mem_cons.2 ⟨by decide, hword.chars⟩⟩

/-! ## Documents as pieces of text -/

namespace Piece

mutual

/-- The compact text of a document as a piece. -/
def ofDocument : Document → Piece
  | .null => .word "null".toList
  | .bool b => .word (if b then "true" else "false").toList
  | .int i => .word (Json.intChars i)
  | .float x => .word (x.render Json.layout).toList
  | .string s => .quoted Json.escape s.toList
  | .array xs => .bracketed false (ofItems xs)
  | .object ms => .bracketed true (ofMembers ms)

def ofItems : List Document → List Piece
  | [] => []
  | x :: xs => ofDocument x :: ofItems xs

def ofMembers : List (String × Document) → List Piece
  | [] => []
  | (key, d) :: ms => .member Json.escape key.toList (ofDocument d) :: ofMembers ms

end

theorem mem_ofItems {xs : List Document} {a : Piece} :
    a ∈ ofItems xs ↔ ∃ x ∈ xs, ofDocument x = a := by
  induction xs with
  | nil => simp [ofItems]
  | cons x xs ih => simp [ofItems, ih, eq_comm]

theorem mem_ofMembers {ms : Members} {a : Piece} :
    a ∈ ofMembers ms ↔ ∃ p ∈ ms, .member Json.escape p.1.toList (ofDocument p.2) = a := by
  induction ms with
  | nil => simp [ofMembers]
  | cons p ms ih => simp [ofMembers, ih, eq_comm]

/-- **The text of the piece is the compact text of the document.** -/
theorem ofDocument_text (d : Document) : (ofDocument d).text = Json.chars d := by
  induction d using Document.induction with
  | null | int | float | string => rfl
  | bool b => cases b <;> rfl
  | array xs ih =>
    have hitems : (listed (ofItems xs)).text = Json.itemChars xs := by
      induction xs with
      | nil => rfl
      | cons x xs ihxs =>
        obtain ⟨hx, hxs⟩ := List.forall_mem_cons.1 ih
        cases xs with
        | nil => rw [ofItems, ofItems, listed_singleton, hx, Json.itemChars]
        | cons y ys =>
          rw [Json.itemChars, ← ihxs hxs, ← hx, ofItems, ofItems, listed_cons]
    rw [ofDocument, bracketed, hitems, Json.chars]
    rfl
  | object ms ih =>
    have hmembers : (listed (ofMembers ms)).text = Json.memberChars ms := by
      induction ms with
      | nil => rfl
      | cons p ms ihms =>
        obtain ⟨hp, hms⟩ := List.forall_mem_cons.1 ih
        cases ms with
        | nil =>
          rw [ofMembers, ofMembers, listed_singleton, member, hp, Json.memberChars]
          rfl
        | cons q ms =>
          rw [Json.memberChars, ← ihms hms, ← hp, ofMembers, ofMembers, listed_cons, member]
          rfl
    rw [ofDocument, bracketed, hmembers, Json.chars]
    rfl

theorem ofDocument_depth (d : Document) : (ofDocument d).depth = d.depth := by
  induction d using Document.induction with
  | null | bool | int | float | string => rfl
  | array xs ih =>
    have hitems : (listed (ofItems xs)).depth = Document.itemDepth xs := by
      induction xs with
      | nil => rfl
      | cons x xs ihxs =>
        obtain ⟨hx, hxs⟩ := List.forall_mem_cons.1 ih
        rw [Document.itemDepth, ← hx, ← ihxs hxs]
        rfl
    rw [ofDocument, bracketed, hitems, Document.depth]
  | object ms ih =>
    have hmembers : (listed (ofMembers ms)).depth = Document.memberDepth ms := by
      induction ms with
      | nil => rfl
      | cons p ms ihms =>
        obtain ⟨hp, hms⟩ := List.forall_mem_cons.1 ih
        rw [Document.memberDepth, ← hp, ← ihms hms]
        rfl
    rw [ofDocument, bracketed, hmembers, Document.depth]

/-! ## Documents as nodes -/

theorem word_of_numeral {cs sign rest : List Char} {c : Char} (h : cs = sign ++ c :: rest)
    (hsign : sign = [] ∨ sign = ['-']) (hc : isDigit c = true) (hrest : ∀ c ∈ rest, IsNumeral c) :
    (word cs).IsNode := h ▸ .word (.numeral hsign hc hrest)

theorem isNode_quoted (s : String) : (quoted Json.escape s.toList).IsNode :=
  .quoted (fun c _ => isEndMark_jsonEscape c) rfl fun _ _ => shows_jsonEscape

theorem isPart_member (key : String) {value : Piece} (h : value.IsNode) :
    (member Json.escape key.toList value).IsPart true :=
  h.member (fun c _ => isEndMark_jsonEscape c) rfl fun _ _ => shows_jsonEscape

/-- **Every document is read as a node.** -/
theorem ofDocument_isNode (d : Document) : (ofDocument d).IsNode := by
  induction d using Document.induction with
  | null =>
    have hnull : "null".toList = ['n', 'u', 'l', 'l'] := rfl
    exact .word (.of_names hnull rfl (by decide))
  | bool b =>
    have htrue : "true".toList = ['t', 'r', 'u', 'e'] := rfl
    have hfalse : "false".toList = ['f', 'a', 'l', 's', 'e'] := rfl
    cases b with
    | true => exact .word (.of_names htrue rfl (by decide))
    | false => exact .word (.of_names hfalse rfl (by decide))
  | int i =>
    obtain ⟨sign, c, rest, heq, hsign, hc, hrest⟩ := exists_intChars i
    exact word_of_numeral heq hsign hc fun d hd => .inl (hrest d hd)
  | float x =>
    obtain ⟨sign, c, rest, heq, hsign, hc, hrest, -⟩ :=
      exists_render (show Json.layout.plus.toList = [] ∨ _ from .inr rfl) x
    exact word_of_numeral heq hsign hc hrest
  | string s => exact isNode_quoted s
  | array xs ih =>
    refine .bracketed fun a ha => ?_
    obtain ⟨x, hx, rfl⟩ := mem_ofItems.1 ha
    exact (ih x hx).isPart
  | object ms ih =>
    refine .bracketed fun a ha => ?_
    obtain ⟨p, hp, rfl⟩ := mem_ofMembers.1 ha
    exact isPart_member p.1 (ih p hp)

end Piece

/-! ## The whole text -/

theorem toJson_eq (d : Document) : d.toJson = String.ofList (Piece.ofDocument d).text := by
  rw [Piece.ofDocument_text]
  rfl

/-- **The tokens of the compact text of a document that is not too deep.** -/
theorem tokenize_toJson {d : Document} (h : d.depth ≤ Lexer.flowLimit) :
    tokenize d.toJson = ⟨.streamStart :: ((Piece.ofDocument d).tokens ++ [.streamEnd]), none⟩ := by
  rw [toJson_eq]
  exact (Piece.ofDocument_isNode d).tokenize (by rwa [Piece.ofDocument_depth])

/-- **Of the tokens of a document that is too deep no more than the first one counts.** -/
theorem tokenize_toJson_deep {d : Document} (h : Lexer.flowLimit < d.depth) :
    ∃ ts, tokenize d.toJson = ⟨ts, some .tooDeep⟩ ∧ ts.length ≤ 1 := by
  rw [← Piece.ofDocument_depth] at h
  rw [toJson_eq]
  cases d with
  | array xs =>
    refine Piece.tokenize_deep (fun a ha => ?_) h
    obtain ⟨x, -, rfl⟩ := Piece.mem_ofItems.1 ha
    exact (Piece.ofDocument_isNode x).isPart
  | object ms =>
    refine Piece.tokenize_deep (fun a ha => ?_) h
    obtain ⟨p, -, rfl⟩ := Piece.mem_ofMembers.1 ha
    exact Piece.isPart_member p.1 (Piece.ofDocument_isNode p.2)
  | null | bool | int | float | string => exact absurd h (Nat.not_lt_zero _)

end Yaml

end BatchRun
