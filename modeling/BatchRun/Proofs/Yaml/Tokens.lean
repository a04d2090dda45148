import BatchRun.Proofs.Yaml.Faithful
import BatchRun.Proofs.Yaml.Nesting
import BatchRun.Proofs.Yaml.Numeral
import Mathlib.Data.String.Basic

/-!
# The tokens of a written document

* `readBack`: what a reader finds where a string has been written;
* `nodeTokens`, `valueTokens`: the tokens of a document;
* `reads_scalar`, `keyText_scalar`: a string as a node and as a key;
* **`tokenize_toYaml`**: the tokens of the text of a document.
-/

namespace BatchRun

namespace Yaml

open Cursor

/-! ## The tokens of a document -/

/-- What a reader finds where a string has been written: between single quotes, further lines have
been indented. -/
def readBack (indent : Nat) (s : String) : String :=
  if styleOf s = .singleQuoted then String.ofList (spread indent false s.toList) else s

def scalarToken (indent : Nat) (s : String) : Token :=
  .scalar (styleOf s = .plain) (readBack indent s)

/-- The tokens of a scalar or of empty brackets. -/
def flatTokens (indent : Nat) : Document → List Token
  | .null => [.scalar true "null"]
  | .bool b => [.scalar true (if b then "true" else "false")]
  | .int i => [.scalar true (String.ofList (Json.intChars i))]
  | .float x => [.scalar true (x.render layout)]
  | .string s => [scalarToken indent s]
  | .array _ => [.flowSequenceStart, .flowSequenceEnd]
  | .object _ => [.flowMappingStart, .flowMappingEnd]

mutual

/-- The tokens of a node behind a dash or the colon of a long key. -/
def nodeTokens (inner : Nat) : Document → List Token
  | .array (x :: xs) => .blockSequenceStart :: itemTokens inner (x :: xs) ++ [.blockEnd]
  | .object (m :: ms) => .blockMappingStart :: memberTokens inner (m :: ms) ++ [.blockEnd]
  | d => flatTokens inner d

/-- The tokens of a node behind the colon of a short key. -/
def valueTokens (indent : Nat) : Document → List Token
  | .array (x :: xs) => itemTokens indent (x :: xs)
  | .object (m :: ms) => .blockMappingStart :: memberTokens (indent + 2) (m :: ms) ++ [.blockEnd]
  | d => flatTokens (indent + 2) d

def itemTokens (indent : Nat) : List Document → List Token
  | [] => []
  | x :: rest => .blockEntry :: nodeTokens (indent + 2) x ++ itemTokens indent rest

def memberTokens (indent : Nat) : List (String × Document) → List Token
  | [] => []
  | (key, value) :: rest =>
    [.key, scalarToken (indent + 2) key, .value] ++
      (if isSimpleKey key then valueTokens indent value else nodeTokens (indent + 2) value) ++
      memberTokens indent rest

end

/-- The tokens of a whole document. -/
def rootTokens : Document → List Token
  | .array (x :: xs) => nodeTokens 0 (.array (x :: xs))
  | .object (m :: ms) => nodeTokens 0 (.object (m :: ms))
  | d => flatTokens 2 d

/-! ## Characters of the text -/

theorem isEndMark_of_isPrintable {c : Char} (h : isPrintable c = true) : isEndMark c = false := by
  rw [isEndMark, beq_eq_false_iff_ne]
  intro hz
  rw [isPrintable] at h
  simp [hz] at h

theorem isEndMark_of_all {cs : List Char} (h : (cs.all fun (c : Char) => !isEndMark c) = true) :
    ∀ c ∈ cs, isEndMark c = false := fun c hc => by simpa using List.all_eq_true.1 h c hc

theorem isEndMark_escape {c d : Char} (h : d ∈ escape c) : isEndMark d = false := by
  have hhex (k n : Nat) : ∀ d ∈ hexDigits k n, isEndMark d = false := by
    have hall : ∀ m < 16, isEndMark (upperHexDigit m) = false := by decide
    induction k generalizing n with
    | zero => simp [hexDigits]
    | succ k ih =>
      rw [hexDigits, List.forall_mem_append]
      refine ⟨ih _, ?_⟩
      rw [List.forall_mem_singleton]
      exact hall _ (Nat.mod_lt _ (by decide))
  have hcons {mark : Char} {ds : List Char} (hmark : isEndMark mark = false)
      (hds : ∀ d ∈ ds, isEndMark d = false) (h : d ∈ '\\' :: mark :: ds) : isEndMark d = false := by
    obtain rfl | h := List.mem_cons.1 h
    · rfl
    · obtain rfl | h := List.mem_cons.1 h
      · exact hmark
      · exact hds d h
  rw [escape] at h
  split at h
  · next hprint =>
    rw [List.mem_singleton.1 h]
    simp only [Bool.and_eq_true] at hprint
    exact isEndMark_of_isPrintable hprint.1.1.1
  · split at h
    · next l hl =>
      refine hcons ?_ (fun d hd => absurd hd List.not_mem_nil) h
      unfold escapeLetter? at hl
      split at hl <;> cases hl <;> rfl
    · split at h
      · exact hcons rfl (hhex _ _) h
      · split at h
        · exact hcons rfl (hhex _ _) h
        · exact hcons rfl (hhex _ _) h

theorem length_escape_le (c : Char) : (escape c).length ≤ 4 * c.utf8Size := by
  have hpos := c.utf8Size_pos
  rw [escape]
  split
  · rw [List.length_singleton]
    omega
  · split
    · simp
      omega
    · split
      · rw [List.length_cons, List.length_cons, hexDigits_length]
        omega
      · next h =>
        have htwo : 2 ≤ c.utf8Size := by
          have hbig (n : UInt32) (hn : n.toNat ≤ 0xFF) : ¬c.val ≤ n := fun hle =>
            h (Nat.le_trans (UInt32.le_iff_toNat_le.1 hle) hn)
          rw [Char.utf8Size, if_neg (hbig _ (by decide))]
          split
          · exact Nat.le_refl 2
          · split <;> decide
        split
        · rw [List.length_cons, List.length_cons, hexDigits_length]
          omega
        · next h =>
          have hfour : c.utf8Size = 4 := by
            have hbig (n : UInt32) (hn : n.toNat ≤ 0xFFFF) : ¬c.val ≤ n := fun hle =>
              h (Nat.le_trans (UInt32.le_iff_toNat_le.1 hle) hn)
            rw [Char.utf8Size, if_neg (hbig _ (by decide)), if_neg (hbig _ (by decide)),
              if_neg (hbig _ (by decide))]
          rw [List.length_cons, List.length_cons, hexDigits_length, hfour]
          omega

/-! ## Strings -/

section Strings

variable {s : String}

theorem length_le_utf8ByteSize (s : String) : s.toList.length ≤ s.utf8ByteSize := by
  conv_rhs => rw [← String.ofList_toList (s := s), String.utf8ByteSize_ofList]
  induction s.toList with
  | nil => exact Nat.le_refl 0
  | cons c cs ih =>
    have := c.utf8Size_pos
    rw [List.length_cons, String.utf8Len_cons]
    omega

theorem length_flatMap_escape_le (s : String) :
    (s.toList.flatMap escape).length ≤ 4 * s.utf8ByteSize := by
  conv_rhs => rw [← String.ofList_toList (s := s), String.utf8ByteSize_ofList]
  induction s.toList with
  | nil => exact Nat.le_refl 0
  | cons c cs ih =>
    have := length_escape_le c
    rw [List.flatMap_cons, List.length_append, String.utf8Len_cons]
    omega

theorem styled_plain (h : styleOf s = .plain) (k : Nat) : scalar k s = s.toList := by
  rw [scalar, h]
  rfl

theorem styled_singleQuoted (h : styleOf s = .singleQuoted) (k : Nat) :
    scalar k s = quoted true doubled (spread k false s.toList) := by
  rw [scalar, h, styled, singleQuotedTail_eq]
  rfl

theorem styled_doubleQuoted (h : styleOf s = .doubleQuoted) (k : Nat) :
    scalar k s = quoted false escape s.toList := by
  rw [scalar, h, styled, doubleQuoted, List.cons_append]
  rfl

theorem styled_literal (h : styleOf s = .literal) (k : Nat) : scalar k s = literal k s.toList := by
  rw [scalar, h]
  rfl

theorem shows_spread (h : styleOf s = .singleQuoted) (k : Nat) :
    ∀ c ∈ spread k false s.toList, c ≠ ' ' → Shows true (doubled c) c := by
  intro c hc hs
  have htext := quotedText_of_styleOf h
  obtain hspace | hc := mem_of_mem_spread hc
  · exact absurd hspace hs
  · exact shows_doubled (htext.printable c hc) (fun hn => htext.newline (hn ▸ hc)) hs

theorem closeLine_of_getLast {cs : List Char} {c : Char} (h : cs.getLast? = some c)
    (hc : isBreak c = false) : closeLine cs = cs ++ ['\n'] := by
  rw [closeLine, h, Option.any_some, hc, if_neg (by simp)]

theorem closeLine_quoted (single : Bool) (enc : Char → List Char) (cs : List Char) :
    closeLine (quoted single enc cs) = quoted single enc cs ++ ['\n'] := by
  refine closeLine_of_getLast (c := quoteMark single) ?_ (by cases single <;> rfl)
  rw [quoted, ← List.cons_append]
  exact List.getLast?_concat ..

theorem getLast?_literalBody {cs : List Char} (hne : cs ≠ []) (k : Nat) (afterBreak : Bool) :
    (literalBody k afterBreak cs).getLast? = cs.getLast? := by
  induction cs generalizing afterBreak with
  | nil => exact absurd rfl hne
  | cons c cs ih =>
    have hstep (b : Bool) : (c :: literalBody k b cs).getLast? = (c :: cs).getLast? := by
      cases cs with
      | nil => rfl
      | cons d cs =>
        have hlast := ih (List.cons_ne_nil _ _) b
        rw [List.getLast?_cons, List.getLast?_cons, hlast]
    rw [literalBody]
    split
    · exact hstep true
    · split
      · rw [List.getLast?_append, hstep, List.getLast?_cons]
        rfl
      · exact hstep false

theorem closeLine_literal {cs : List Char} (hne : cs ≠ []) (k : Nat) :
    closeLine (literal k cs) = literalText k cs := by
  have hlast : (literal k cs).getLast? = cs.getLast? := by
    have hbody := getLast?_literalBody hne k true
    have hsome : ∃ c, cs.getLast? = some c := ⟨_, List.getLast?_eq_some_getLast hne⟩
    obtain ⟨c, hc⟩ := hsome
    rw [literal, List.getLast?_append, List.getLast?_cons, hbody, hc]
    rfl
  rw [closeLine, literalText, closing, hlast]
  split <;> simp

theorem mem_literalBody {cs : List Char} {k : Nat} {afterBreak : Bool} {c : Char}
    (h : c ∈ literalBody k afterBreak cs) : c = ' ' ∨ c ∈ cs := by
  induction cs generalizing afterBreak with
  | nil => cases h
  | cons a cs ih =>
    have hcons {b : Bool} (h : c ∈ a :: literalBody k b cs) : c = ' ' ∨ c ∈ a :: cs := by
      obtain rfl | h := List.mem_cons.1 h
      · exact .inr List.mem_cons_self
      · exact (ih h).imp_right (List.mem_cons_of_mem a)
    rw [literalBody] at h
    split at h
    · exact hcons h
    · split at h
      · obtain h | h := List.mem_append.1 h
        · exact .inl (List.eq_of_mem_replicate h)
        · exact hcons h
      · exact hcons h

theorem isEndMark_literal {cs : List Char} (h : ∀ c ∈ cs, isPrintable c = true) (k : Nat) :
    ∀ c ∈ literal k cs, isEndMark c = false := by
  have hmark : ∀ c ∈ indentMark cs, isEndMark c = false := by
    rw [indentMark]
    split <;> exact isEndMark_of_all (by decide)
  have hchomping : ∀ c ∈ chomping cs, isEndMark c = false := by
    unfold chomping
    split
    · exact isEndMark_of_all (by decide)
    · split <;> exact isEndMark_of_all (by decide)
    · split
      · exact isEndMark_of_all (by decide)
      · split <;> exact isEndMark_of_all (by decide)
  rw [literal]
  simp only [List.forall_mem_cons, List.forall_mem_append]
  refine ⟨⟨⟨rfl, hmark⟩, hchomping⟩, rfl, fun c hc => ?_⟩
  obtain rfl | hc := mem_literalBody hc
  · rfl
  · exact isEndMark_of_isPrintable (h c hc)

theorem isEndMark_quoted {single : Bool} {enc : Char → List Char} {cs : List Char}
    (h : ∀ c ∈ cs, ∀ d ∈ enc c, isEndMark d = false) :
    ∀ c ∈ quoted single enc cs, isEndMark c = false := by
  have hmark : isEndMark (quoteMark single) = false := by cases single <;> rfl
  rw [quoted, List.forall_mem_cons, List.forall_mem_append, List.forall_mem_singleton]
  refine ⟨hmark, fun d hd => ?_, hmark⟩
  obtain ⟨c, hc, hd⟩ := List.mem_flatMap.1 hd
  exact h c hc d hd

theorem PlainText.clean {cs : List Char} (h : PlainText cs) : ∀ c ∈ cs, isEndMark c = false :=
  fun c hc => isEndMark_of_isPrintable (h.printable c hc)

theorem isEndMark_scalar (k : Nat) (s : String) : ∀ c ∈ scalar k s, isEndMark c = false := by
  cases h : styleOf s with
  | plain =>
    rw [styled_plain h]
    exact (plainText_of_styleOf h).clean
  | singleQuoted =>
    rw [styled_singleQuoted h]
    have htext := quotedText_of_styleOf h
    refine isEndMark_quoted fun c hc d hd => ?_
    have hclean : isEndMark c = false := by
      obtain rfl | hc := mem_of_mem_spread hc
      · rfl
      · exact isEndMark_of_isPrintable (htext.printable c hc)
    rw [doubled] at hd
    split at hd
    · simp only [List.mem_cons, List.not_mem_nil, or_false, or_self] at hd
      rw [hd]
      rfl
    · rw [List.mem_singleton.1 hd]
      exact hclean
  | doubleQuoted =>
    rw [styled_doubleQuoted h]
    exact isEndMark_quoted fun c _ d hd => isEndMark_escape hd
  | literal =>
    rw [styled_literal h]
    exact isEndMark_literal (literalText_of_styleOf h).printable k

theorem isEndMark_closeLine {cs : List Char} (h : ∀ c ∈ cs, isEndMark c = false) :
    ∀ c ∈ closeLine cs, isEndMark c = false := by
  rw [closeLine]
  split
  · exact h
  · rw [List.forall_mem_append, List.forall_mem_singleton]
    exact ⟨h, rfl⟩

variable {outer : Int} {col : Nat} {allowed : Bool}

theorem reads_plain {cs : List Char} (hcs : PlainText cs) (hdeep : outer < col) :
    Reads outer col allowed (cs ++ ['\n']) [.scalar true (String.ofList cs)] := by
  refine ⟨?_, fun rest => ?_, fun {f column body} hindent hend => ?_⟩
  · rw [List.forall_mem_append, List.forall_mem_singleton]
    exact ⟨hcs.clean, rfl⟩
  · rw [List.append_assoc]
    exact hcs.opens (.newline _)
  · exact Place.leads_plain hcs hend (hindent ▸ hdeep)

/-- **A string as a node.** -/
theorem reads_scalar (heven : EvenLines s) (hdeep : outer < col) :
    Reads outer col allowed (closeLine (scalar (blockIndent outer) s))
      [scalarToken (blockIndent outer) s] := by
  have hclean := isEndMark_closeLine (isEndMark_scalar (blockIndent outer) s)
  cases h : styleOf s with
  | plain =>
    have htext := plainText_of_styleOf h
    have hlast : closeLine s.toList = s.toList ++ ['\n'] :=
      closeLine_of_getLast (List.getLast?_eq_some_getLast htext.ne_nil)
        (htext.unbroken _ (List.getLast_mem _))
    have htoken : scalarToken (blockIndent outer) s = .scalar true (String.ofList s.toList) := by
      simp [scalarToken, readBack, h]
    rw [styled_plain h, hlast, htoken]
    exact reads_plain htext hdeep
  | singleQuoted =>
    have htoken : scalarToken (blockIndent outer) s =
        .scalar false (String.ofList (spread (blockIndent outer) false s.toList)) := by
      simp [scalarToken, readBack, h]
    rw [styled_singleQuoted h, closeLine_quoted] at hclean ⊢
    rw [htoken]
    refine ⟨hclean, fun rest => ?_, fun {f column body} hindent hend => ?_⟩
    · rw [List.append_assoc]
      exact opens_quoted
    · exact Place.leads_quoted rfl (shows_spread h _) hend (hindent ▸ hdeep)
  | doubleQuoted =>
    have htoken : scalarToken (blockIndent outer) s = .scalar false (String.ofList s.toList) := by
      simp [scalarToken, readBack, h]
    rw [styled_doubleQuoted h, closeLine_quoted] at hclean ⊢
    rw [htoken]
    refine ⟨hclean, fun rest => ?_, fun {f column body} hindent hend => ?_⟩
    · rw [List.append_assoc]
      exact opens_quoted
    · exact Place.leads_quoted rfl (fun c _ => shows_escape) hend (hindent ▸ hdeep)
  | literal =>
    have htext := literalText_of_styleOf h
    have hne : s.toList ≠ [] := fun hnil => by
      have := htext.newline
      rw [hnil] at this
      cases this
    have htoken : scalarToken (blockIndent outer) s = .scalar false (String.ofList s.toList) := by
      simp [scalarToken, readBack, h]
    rw [styled_literal h, closeLine_literal hne] at hclean ⊢
    rw [htoken]
    refine ⟨hclean, fun rest => ?_, fun {f column body} hindent hend => ?_⟩
    · exact .of_head ⟨by decide, by decide⟩ (by decide) (by decide) (by decide) _
    · subst hindent
      exact Place.leads_literal htext (heven h) hend hdeep

/-- **A string as a key on the line of its value.** -/
theorem keyText_scalar (hsimple : isSimpleKey s = true) (k : Nat) :
    KeyText (scalar k s) (scalarToken k s) := by
  rw [isSimpleKey, Bool.and_eq_true, decide_eq_true_eq] at hsimple
  obtain ⟨hbreaks, hshort⟩ := hsimple
  have hunbroken : ∀ c ∈ s.toList, isBreak c = false := by simpa using hbreaks
  have hlength := length_le_utf8ByteSize s
  cases h : styleOf s with
  | plain =>
    have htoken : scalarToken k s = .scalar true (String.ofList s.toList) := by
      simp [scalarToken, readBack, h]
    rw [styled_plain h, htoken]
    exact keyText_plain (plainText_of_styleOf h) (by omega)
  | singleQuoted =>
    have hspread : spread k false s.toList = s.toList := spread_of_unbroken hunbroken
    have htoken : scalarToken k s = .scalar false (String.ofList s.toList) := by
      simp [scalarToken, readBack, h, hspread]
    have hshow := shows_spread h k
    rw [hspread] at hshow
    rw [styled_singleQuoted h, hspread, htoken]
    refine keyText_quoted rfl hshow ?_
    have hdoubled (cs : List Char) : (cs.flatMap doubled).length ≤ 2 * cs.length := by
      induction cs with
      | nil => exact Nat.le_refl 0
      | cons c cs ih =>
        have hc : (doubled c).length ≤ 2 := by rw [doubled]; split <;> simp
        rw [List.flatMap_cons, List.length_append, List.length_cons]
        omega
    have := hdoubled s.toList
    rw [quoted, List.length_cons, List.length_append, List.length_singleton]
    omega
  | doubleQuoted =>
    have htoken : scalarToken k s = .scalar false (String.ofList s.toList) := by
      simp [scalarToken, readBack, h]
    rw [styled_doubleQuoted h, htoken]
    refine keyText_quoted rfl (fun c _ => shows_escape) ?_
    have := length_flatMap_escape_le s
    rw [quoted, List.length_cons, List.length_append, List.length_singleton]
    omega
  | literal =>
    have := hunbroken _ (literalText_of_styleOf h).newline
    cases this

end Strings

/-! ## Nodes without parts -/

variable {outer : Int} {col : Nat} {allowed : Bool}

theorem plainText_word {c : Char} {rest : List Char}
    (h : ((c :: rest).all fun (a : Char) => 97 ≤ a.toNat && a.toNat ≤ 122) = true) :
    PlainText (c :: rest) := by
  have h : ∀ a ∈ c :: rest, 97 ≤ a.toNat ∧ a.toNat ≤ 122 := fun a ha => by
    simpa using List.all_eq_true.1 h a ha
  have hne {a : Char} (ha : a.toNat < 97) : a ∉ c :: rest := by
    intro hmem
    have := h a hmem
    omega
  have hc {a : Char} (ha : a.toNat < 97) : c ≠ a := fun heq => hne ha (heq ▸ List.mem_cons_self)
  refine .of_solid (fun a ha => ?_) (hne (by decide)) (hne (by decide)) ?_ ?_ ?_
  · have := h a ha
    omega
  · exact not_opener_of_range (by decide) (h c List.mem_cons_self)
  · rcases rest with _ | ⟨a, _ | ⟨b, rest⟩⟩
    · rfl
    · rfl
    · simp [Traits.startsLikeMarker, hc (a := '-') (by decide), hc (a := '.') (by decide)]
  · rintro (h | h)
    · exact absurd h (hc (by decide))
    · exact absurd h (hc (by decide))

theorem reads_brackets (mapping : Bool) (hdeep : outer < col) :
    Reads outer col allowed [openingMark mapping, closingMark mapping, '\n']
      [openingToken mapping, closingToken mapping] := by
  have hclean : ∀ c ∈ [openingMark mapping, closingMark mapping, '\n'], isEndMark c = false := by
    cases mapping <;> exact isEndMark_of_all (by decide)
  refine ⟨hclean, fun rest => ?_, fun {f column body} hindent hend => ?_⟩
  · cases mapping <;> exact .of_head ⟨by decide, by decide⟩ (by decide) (by decide) (by decide) _
  · exact Place.leads_brackets hend (hindent ▸ hdeep)

/-- A document without parts: a scalar or an empty collection. -/
inductive IsFlat : Document → Prop where
  | null : IsFlat .null
  | bool (b : Bool) : IsFlat (.bool b)
  | int (i : Int) : IsFlat (.int i)
  | float (x : Binary64) : IsFlat (.float x)
  | string {s : String} (even : EvenLines s) : IsFlat (.string s)
  | array : IsFlat (.array [])
  | object : IsFlat (.object [])

/-- **A document without parts is read as one scalar or as two brackets.** -/
theorem IsFlat.reads {d : Document} (h : IsFlat d) (hdeep : outer < col) :
    Reads outer col allowed (flat (blockIndent outer) d) (flatTokens (blockIndent outer) d) := by
  cases h with
  | null =>
    have hword : PlainText ['n', 'u', 'l', 'l'] := plainText_word (by decide)
    exact reads_plain hword hdeep
  | bool b =>
    cases b with
    | true =>
      have hword : PlainText ['t', 'r', 'u', 'e'] := plainText_word (by decide)
      exact reads_plain hword hdeep
    | false =>
      have hword : PlainText ['f', 'a', 'l', 's', 'e'] := plainText_word (by decide)
      exact reads_plain hword hdeep
  | int i => exact reads_plain (plainText_intChars i) hdeep
  | float x =>
    have htoken : flatTokens (blockIndent outer) (.float x) =
        [.scalar true (String.ofList (x.render layout).toList)] := by
      rw [flatTokens, String.ofList_toList]
    rw [htoken]
    exact reads_plain (plainText_render (.inl rfl) x) hdeep
  | string even => exact reads_scalar even hdeep
  | array => exact reads_brackets false hdeep
  | object => exact reads_brackets true hdeep

/-! ## Documents -/

/-- The text of a node behind a dash or the colon of a long key, without the space before it. -/
def nodeText (inner : Nat) : Document → List Char
  | .array (x :: xs) => blockItems inner (x :: xs)
  | .object (m :: ms) => blockMembers inner (m :: ms)
  | d => flat inner d

theorem afterIndicator_eq (inner : Nat) (d : Document) :
    afterIndicator inner d = ' ' :: nodeText inner d := by
  rcases d with _ | _ | _ | _ | _ | (_ | _) | (_ | _) <;> simp [afterIndicator, nodeText]

/-- A document is read as its tokens wherever it may stand. -/
structure Legible (d : Document) : Prop where
  node : ∀ col : Nat, Reads col (col + 2) true (nodeText (col + 2) d) (nodeTokens (col + 2) d)
  member : ∀ {col : Nat} {key : List Char} {t : Token}, KeyText key t →
    (∀ c ∈ key, isEndMark c = false) →
    Runs .blockMappingStart col (key ++ ':' :: afterKey col d)
      ([.key, t, .value] ++ valueTokens col d)

theorem IsFlat.legible {d : Document} (h : IsFlat d) : Legible d := by
  have hdeep (col : Nat) : (col : Int) < (col + 2 : Nat) := by push_cast; omega
  have hindent (col : Nat) : blockIndent col = col + 2 := rfl
  have hnode (col : Nat) : Reads col (col + 2) true (flat (col + 2) d) (flatTokens (col + 2) d) :=
    h.reads (hdeep col)
  have hvalue (col n : Nat) :
      Reads col (col + n + 2) false (flat (col + 2) d) (flatTokens (col + 2) d) :=
    h.reads (show (col : Int) < (col + n + 2 : Nat) by push_cast; omega)
  cases h <;>
    exact ⟨hnode, fun {col key t} hkey hclean => hkey.member hclean (hvalue col key.length)⟩

theorem runs_items {xs : List Document} (hne : xs ≠ []) (h : ∀ x ∈ xs, Legible x) (col : Nat) :
    Runs .blockSequenceStart col (blockItems col xs) (itemTokens col xs) := by
  induction xs with
  | nil => exact absurd rfl hne
  | cons x xs ih =>
    obtain ⟨hx, hxs⟩ := List.forall_mem_cons.1 h
    have hitem := (hx.node col).item
    rw [← afterIndicator_eq] at hitem
    cases xs with
    | nil =>
      rw [blockItems, itemTokens, itemTokens, List.append_nil]
      exact hitem
    | cons y xs =>
      rw [blockItems, itemTokens]
      exact hitem.append (ih (List.cons_ne_nil _ _) hxs)

theorem runs_member {key : String} {d : Document} (hkey : EvenLines key) (h : Legible d)
    (col : Nat) :
    Runs .blockMappingStart col (blockMember col (key, d)) (memberTokens col [(key, d)]) := by
  rw [blockMember, memberTokens, memberTokens, List.append_nil, blockKey]
  split
  · next hsimple =>
    rw [List.append_assoc]
    exact h.member (keyText_scalar hsimple (col + 2)) (isEndMark_scalar (col + 2) key)
  · have hdeep : (col : Int) < (col + 2 : Nat) := by push_cast; omega
    have hread : Reads col (col + 2) true (closeLine (scalar (col + 2) key))
        [scalarToken (col + 2) key] := reads_scalar hkey hdeep
    have hlong := hread.long_member (h.node col)
    rw [afterIndicator_eq]
    simpa using hlong

theorem runs_members {ms : Members} (hne : ms ≠ []) (hkeys : ∀ p ∈ ms, EvenLines p.1)
    (h : ∀ p ∈ ms, Legible p.2) (col : Nat) :
    Runs .blockMappingStart col (blockMembers col ms) (memberTokens col ms) := by
  induction ms with
  | nil => exact absurd rfl hne
  | cons m ms ih =>
    obtain ⟨hm, hms⟩ := List.forall_mem_cons.1 h
    obtain ⟨hkey, hkeys⟩ := List.forall_mem_cons.1 hkeys
    have hmember := runs_member hkey hm col
    cases ms with
    | nil =>
      rw [blockMembers]
      exact hmember
    | cons n ms =>
      have hsplit :
          memberTokens col (m :: n :: ms) = memberTokens col [m] ++ memberTokens col (n :: ms) := by
        simp [memberTokens]
      rw [blockMembers, hsplit]
      exact hmember.append (ih (List.cons_ne_nil _ _) hkeys hms)

/-- **Wherever a document stands, it is read as its tokens.** -/
theorem Legible.of_writable {d : Document} (h : d.Writable) : Legible d := by
  induction h with
  | null => exact IsFlat.null.legible
  | bool b => exact (IsFlat.bool b).legible
  | int fits => exact (IsFlat.int _).legible
  | float x => exact (IsFlat.float x).legible
  | string even => exact (IsFlat.string even).legible
  | @array xs _ ih =>
    cases xs with
    | nil => exact IsFlat.array.legible
    | cons x xs =>
      have hruns := runs_items (List.cons_ne_nil x xs) ih
      refine ⟨fun col => (hruns (col + 2)).nested (by push_cast; omega) (by omega), ?_⟩
      intro col key t hkey hclean
      exact hkey.member_below hclean (hruns col)
  | @object ms _ keys _ ih =>
    cases ms with
    | nil => exact IsFlat.object.legible
    | cons m ms =>
      have hruns := runs_members (List.cons_ne_nil m ms) keys ih
      have hnested (col : Nat) : Reads col (col + 2) true (nodeText (col + 2) (.object (m :: ms)))
          (nodeTokens (col + 2) (.object (m :: ms))) :=
        (hruns (col + 2)).nested (by push_cast; omega) (by omega)
      refine ⟨hnested, ?_⟩
      intro col key t hkey hclean
      exact hkey.member_nested hclean (hnested col)

/-! ## The whole text -/

theorem tokenize_of_reads {text : List Char} {ts : List Token} (h : Reads (-1) 0 true text ts) :
    tokenize (String.ofList text) = ⟨.streamStart :: ts ++ [.streamEnd], none⟩ := by
  have hend : (Place.start text).frame.EndsAt 0 [] := ⟨.stop, .inr ⟨rfl, rfl⟩⟩
  have hleads := h.leads rfl hend
  have hopens := h.opens []
  rw [List.append_nil] at hopens
  rw [show text ++ (spaces 0 ++ []) = text from List.append_nil text] at hleads
  rw [tokenize_of_leads h.clean hopens hleads]
  simp [Place.start, Frame.closeFrom, Frame.close]

theorem tokenize_of_runs {start : Token} {text : List Char} {ts : List Token}
    (h : Runs start 0 text ts) : tokenize (String.ofList text) =
      ⟨.streamStart :: (start :: ts ++ [.blockEnd]) ++ [.streamEnd], none⟩ := by
  have hadmits : (Place.start text).frame.Admits 0 :=
    ⟨show (-1 : Int) ≤ 0 by decide, .inl (show (-1 : Int) < 0 by decide)⟩
  have hleads := h.leads hadmits .stop
  have hopens := h.opens []
  rw [List.append_nil] at hopens
  rw [show text ++ (spaces 0 ++ []) = text from List.append_nil text] at hleads
  rw [tokenize_of_leads h.clean hopens hleads]
  simp [Place.start, Frame.enter, Frame.closeFrom, Frame.close]

/-- **The tokens of the text of a document.** -/
theorem tokenize_toYaml {d : Document} (h : d.Writable) :
    tokenize d.toYaml = ⟨.streamStart :: rootTokens d ++ [.streamEnd], none⟩ := by
  have hflat (h : IsFlat d) : tokenize (String.ofList (flat 2 d)) =
      ⟨.streamStart :: flatTokens 2 d ++ [.streamEnd], none⟩ :=
    tokenize_of_reads (h.reads (by decide))
  cases h with
  | null => exact hflat .null
  | bool b => exact hflat (.bool b)
  | int fits => exact hflat (.int _)
  | float x => exact hflat (.float x)
  | string even => exact hflat (.string even)
  | @array xs items =>
    cases xs with
    | nil => exact hflat .array
    | cons x xs =>
      exact tokenize_of_runs
        (runs_items (List.cons_ne_nil x xs) (fun y hy => .of_writable (items y hy)) 0)
  | @object ms _ keys values =>
    cases ms with
    | nil => exact hflat .object
    | cons m ms =>
      exact tokenize_of_runs (runs_members (List.cons_ne_nil m ms) keys
        (fun p hp => .of_writable (values p hp)) 0)

end Yaml

end BatchRun
