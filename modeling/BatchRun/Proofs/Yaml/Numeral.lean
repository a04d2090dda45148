import BatchRun.Proofs.Decimal.Text
import BatchRun.Proofs.Yaml.Style
import BatchRun.Yaml.Reader

/-!
# Numbers are read back

* `PlainText.numeral`: the text of a number may stand without quotes;
* `natInBase?_digits`, `natInBase?_eq_none`: what an integer is made of;
* **`resolvePlain_intChars`**: an integer of 64 bits is read as itself, `readInt`: any integer;
* **`resolvePlain_render`**: a double is read as a real number, which is the same double
  (`realDocument_render`).
-/

namespace BatchRun

namespace Yaml

open Decimal

/-! ## The text of a number -/

/-- The characters of numbers. -/
def IsNumeral (c : Char) : Prop := isDigit c = true ∨ c = '.' ∨ c = 'e' ∨ c = '-' ∨ c = '+'

theorem isDigit_iff {c : Char} : isDigit c = true ↔ 48 ≤ c.toNat ∧ c.toNat ≤ 57 := by
  rw [isDigit, Bool.and_eq_true, decide_eq_true_eq, decide_eq_true_eq]
  rfl

theorem IsNumeral.toNat {c : Char} (h : IsNumeral c) :
    43 ≤ c.toNat ∧ c.toNat ≤ 57 ∨ c.toNat = 101 := by
  obtain h | rfl | rfl | rfl | rfl := h
  · have := isDigit_iff.1 h
    omega
  all_goals decide

/-- **The text of a number may stand without quotes.** -/
theorem PlainText.numeral {sign rest : List Char} {c : Char} (hsign : sign = [] ∨ sign = ['-'])
    (hc : isDigit c = true) (hrest : ∀ c ∈ rest, IsNumeral c) : PlainText (sign ++ c :: rest) := by
  have hall : ∀ a ∈ sign ++ c :: rest, IsNumeral a := by
    rw [List.forall_mem_append, List.forall_mem_cons]
    refine ⟨?_, .inl hc, hrest⟩
    obtain rfl | rfl := hsign <;> simp [IsNumeral]
  have hsolid (a : Char) (ha : a ∈ sign ++ c :: rest) : 33 ≤ a.toNat ∧ a.toNat ≤ 126 := by
    have := (hall a ha).toNat
    omega
  have hne {a : Char} (ha : a.toNat < 43 ∨ a.toNat = 58) : a ∉ sign ++ c :: rest := by
    intro hmem
    have := (hall a hmem).toNat
    omega
  have hhyphen : c ≠ '-' := by rintro rfl; cases hc
  have hpoint : c ≠ '.' := by rintro rfl; cases hc
  obtain rfl | rfl := hsign
  · refine .of_solid hsolid (hne (by decide)) (hne (by decide)) ?_ ?_ ?_
    · exact not_opener_of_range (by decide) (isDigit_iff.1 hc)
    · rcases rest with _ | ⟨a, _ | ⟨b, rest⟩⟩
      · rfl
      · rfl
      · simp only [Traits.startsLikeMarker, Bool.and_eq_false_iff, beq_eq_false_iff_ne,
          Bool.or_eq_false_iff]
        exact .inr ⟨hhyphen, hpoint⟩
    · rintro (rfl | rfl) <;> cases hc
  · refine .of_solid hsolid (hne (by decide)) (hne (by decide)) rfl ?_ fun _ => List.cons_ne_nil _ _
    rcases rest with _ | ⟨a, rest⟩
    · rfl
    · simp [Traits.startsLikeMarker, Ne.symm hhyphen]

theorem isNumeral_of_spells {cs : List Char} {digits : Nat} {exponent : Int}
    (h : Spells cs digits exponent) : (∀ c ∈ cs, IsNumeral c) ∧ ('.' ∈ cs ∨ 'e' ∈ cs) := by
  have hpower {tail : List Char} {x : Int} (h : Power tail x) :
      (∀ c ∈ tail, IsNumeral c) ∧ (tail ≠ [] → 'e' ∈ tail) := by
    cases h with
    | absent => simp
    | present chars _ =>
      refine ⟨List.forall_mem_cons.2 ⟨.inr (.inr (.inl rfl)), fun c hc => ?_⟩, by simp⟩
      obtain h | h | h := chars c hc
      · exact .inr (.inr (.inr (.inl h)))
      · exact .inr (.inr (.inr (.inr h)))
      · exact .inl h
  cases h with
  | pointed _ digits power =>
    refine ⟨?_, .inl (by simp)⟩
    rw [List.forall_mem_append, List.forall_mem_cons, List.forall_mem_append]
    exact ⟨fun c hc => .inl (digits c (List.mem_append_left _ hc)), .inr (.inl rfl),
      fun c hc => .inl (digits c (List.mem_append_right _ hc)), (hpower power).1⟩
  | bare _ digits power mark =>
    refine ⟨List.forall_mem_append.2 ⟨fun c hc => .inl (digits c hc), (hpower power).1⟩, ?_⟩
    exact .inr (List.mem_append_right _ ((hpower power).2 mark))

/-! ## Integers -/

theorem digitValue?_of_isDigit {c : Char} (h : isDigit c = true) :
    digitValue? c = some (c.toNat - 48) := if_pos (by simpa [isDigit] using h)

/-- One more digit of an integer. -/
def addDigit (base : Nat) (acc : Option Nat) (c : Char) : Option Nat :=
  match acc, digitValue? c with
  | some n, some d => if d < base then some (n * base + d) else none
  | _, _ => none

theorem natInBase?_eq (base : Nat) (cs : List Char) :
    natInBase? base cs = if cs.isEmpty then none else cs.foldl (addDigit base) (some 0) := rfl

theorem foldl_addDigit_none (base : Nat) (cs : List Char) :
    cs.foldl (addDigit base) none = none := by
  induction cs with
  | nil => rfl
  | cons c cs ih => exact ih

theorem natInBase?_digits {ds : List Char} (hd : AllDigits ds) (hne : ds ≠ []) :
    natInBase? 10 ds = some (natOfDigits ds) := by
  have hfold (n : Nat) : ds.foldl (addDigit 10) (some n) =
      some (ds.foldl (fun (n : Nat) (c : Char) => n * 10 + (c.toNat - 48)) n) := by
    induction ds generalizing n with
    | nil => rfl
    | cons c ds ih =>
      have hc := hd c List.mem_cons_self
      have hlt : c.toNat - 48 < 10 := by
        have := isDigit_iff.1 hc
        omega
      have hstep : addDigit 10 (some n) c = some (n * 10 + (c.toNat - 48)) := by
        simp only [addDigit, digitValue?_of_isDigit hc]
        exact if_pos hlt
      rw [List.foldl_cons, List.foldl_cons, hstep]
      cases ds with
      | nil => rfl
      | cons d ds =>
        exact ih (fun a ha => hd a (List.mem_cons_of_mem _ ha)) (List.cons_ne_nil _ _) _
  rw [natInBase?_eq, if_neg (by simpa using hne)]
  exact hfold 0

theorem natInBase?_eq_none {base : Nat} {ds : List Char} {c : Char} (hc : c ∈ ds)
    (hbad : ∀ d, digitValue? c = some d → base ≤ d) : natInBase? base ds = none := by
  have hstep (acc : Option Nat) : addDigit base acc c = none := by
    cases acc with
    | none => rfl
    | some n =>
      unfold addDigit
      cases hvalue : digitValue? c with
      | none => rfl
      | some d => exact if_neg (Nat.not_lt.2 (hbad d hvalue))
  obtain ⟨pre, post, rfl⟩ := List.append_of_mem hc
  rw [natInBase?_eq, if_neg (by simp), List.foldl_append, List.foldl_cons, hstep,
    foldl_addDigit_none]

/-- A text that starts with a hyphen or a digit other than zero has no mark of a base. -/
theorem parseMarked?_eq_none {cs : List Char} (hplus : cs.head? ≠ some '+')
    (hhex : ∀ rest, cs ≠ '0' :: 'x' :: rest) (hoctal : ∀ rest, cs ≠ '0' :: 'o' :: rest) :
    parseMarked? cs = none := by
  rw [parseMarked?.eq_def]
  split
  · exact absurd rfl (hhex _)
  · exact absurd rfl (hoctal _)
  · exact absurd rfl hplus
  · rfl

theorem parseInteger?_of_splitSign {cs ds : List Char} {negative : Bool} (base : Nat)
    (h : splitSign cs = (negative, ds)) : parseInteger? base cs = (natInBase? base ds).bind
      fun (n : Nat) => signed64? (if negative then -(n : Int) else n) := by
  rw [parseInteger?, h]

theorem parseInteger?_intChars (i : Int) : parseInteger? 10 (Json.intChars i) = signed64? i := by
  have hnat := natInBase?_digits (allDigits_toDigits i.natAbs) Nat.toDigits_ne_nil
  rw [natOfDigits_toDigits] at hnat
  by_cases hneg : i < 0
  · have hvalue : -(i.natAbs : Int) = i := by omega
    have hsign : splitSign ('-' :: Nat.toDigits 10 i.natAbs) =
        (true, Nat.toDigits 10 i.natAbs) := rfl
    rw [Json.intChars, if_pos hneg, parseInteger?_of_splitSign 10 hsign, hnat, Option.bind_some,
      if_pos rfl, hvalue]
  · have hvalue : (i.natAbs : Int) = i := by omega
    rw [Json.intChars, if_neg hneg, parseInteger?_of_splitSign 10 (splitSign_toDigits _), hnat,
      Option.bind_some, if_neg (by simp), hvalue]

theorem exists_intChars (i : Int) : ∃ sign c rest, Json.intChars i = sign ++ c :: rest ∧
    (sign = [] ∨ sign = ['-']) ∧ isDigit c = true ∧ AllDigits rest := by
  obtain ⟨c, rest, hcs⟩ :=
    List.exists_cons_of_ne_nil (Nat.toDigits_ne_nil (n := i.natAbs) (b := 10))
  have hd := allDigits_toDigits i.natAbs
  rw [hcs] at hd
  obtain ⟨hc, hrest⟩ := List.forall_mem_cons.1 hd
  by_cases hneg : i < 0
  · exact ⟨['-'], c, rest, by rw [Json.intChars, if_pos hneg, hcs]; rfl, .inr rfl, hc, hrest⟩
  · exact ⟨[], c, rest, by rw [Json.intChars, if_neg hneg, hcs]; rfl, .inl rfl, hc, hrest⟩

theorem plainText_intChars (i : Int) : PlainText (Json.intChars i) := by
  obtain ⟨sign, c, rest, heq, hsign, hc, hrest⟩ := exists_intChars i
  rw [heq]
  exact .numeral hsign hc fun d hd => .inl (hrest d hd)

theorem resolvePlain_numeral {sign rest : List Char} {c : Char} (hsign : sign = [] ∨ sign = ['-'])
    (hc : isDigit c = true) (hrest : ∀ c ∈ rest, IsNumeral c) :
    resolvePlain (String.ofList (sign ++ c :: rest)) =
      match parseInteger? 10 (sign ++ c :: rest) with
      | some i => .int i
      | none =>
        if isReal (String.ofList (sign ++ c :: rest)) then
          .real (String.ofList (sign ++ c :: rest))
        else .string (String.ofList (sign ++ c :: rest)) := by
  have hmarked : parseMarked? (sign ++ c :: rest) = none := by
    refine parseMarked?_eq_none ?_ ?_ ?_
    · obtain rfl | rfl := hsign
      · rintro ⟨⟩
        cases hc
      · rintro ⟨⟩
    all_goals
      intro tail heq
      obtain rfl | rfl := hsign
      · obtain ⟨-, rfl⟩ := List.cons.inj heq
        have := (hrest _ List.mem_cons_self).toNat
        revert this
        decide
      · cases heq
  have hword (word : String)
      (hw : (word.toList.head?.all fun (d : Char) => d != '-' && !isDigit d) = true) :
      String.ofList (sign ++ c :: rest) ≠ word := by
    rintro rfl
    rw [String.toList_ofList] at hw
    obtain rfl | rfl := hsign <;> simp [hc] at hw
  rw [resolvePlain, String.toList_ofList, hmarked]
  simp only
  rw [if_neg (by simp only [hword "~" (by decide), hword "null" (by decide), or_self,
      not_false_iff]), if_neg (hword "true" (by decide))]
  exact if_neg (hword "false" (by decide))

theorem resolvePlain_intChars_eq (i : Int) : resolvePlain (String.ofList (Json.intChars i)) =
    match signed64? i with
    | some i => .int i
    | none => .real (String.ofList (Json.intChars i)) := by
  have hparse := parseInteger?_intChars i
  have hreal : isReal (String.ofList (Json.intChars i)) = true := by
    rw [isReal, String.toList_ofList, parse?_intChars]
    simp
  obtain ⟨sign, c, rest, heq, hsign, hc, hrest⟩ := exists_intChars i
  rw [heq] at hparse hreal ⊢
  rw [resolvePlain_numeral hsign hc fun d hd => .inl (hrest d hd), hparse]
  simp only [hreal, if_true]

/-- **An integer of 64 bits is read as itself.** -/
theorem resolvePlain_intChars {i : Int} (h : signed64? i = some i) :
    resolvePlain (String.ofList (Json.intChars i)) = .int i := by
  rw [resolvePlain_intChars_eq, h]

/-- What an integer is read as: itself if it fits 64 bits, and else the double nearest to it. -/
def readInt (i : Int) : Document :=
  match signed64? i with
  | some i => .int i
  | none =>
    match Binary64.ofDecimal? (i < 0) i.natAbs 0 with
    | some x => .float x
    | none => .null

theorem readInt_of_signed {i : Int} (h : signed64? i = some i) : readInt i = .int i := by
  rw [readInt, h]

/-- **An integer is read as a document in any case.** -/
theorem toDocument_intChars (i : Int) :
    (resolvePlain (String.ofList (Json.intChars i))).toDocument = .ok (readInt i) := by
  rw [resolvePlain_intChars_eq, readInt]
  cases signed64? i with
  | some j => rfl
  | none =>
    change realDocument (String.ofList (Json.intChars i)) = _
    rw [realDocument, String.toList_ofList, parse?_intChars]
    simp only [Literal.finite?]
    cases Binary64.ofDecimal? (decide (i < 0)) i.natAbs 0 <;> rfl

/-! ## Doubles -/

section Doubles

variable {layout : Layout} (hplus : layout.plus.toList = [] ∨ layout.plus.toList = ['+'])
  (x : Binary64)

include hplus

theorem exists_render : ∃ sign c rest,
    (x.render layout).toList = sign ++ c :: rest ∧ (sign = [] ∨ sign = ['-']) ∧
      isDigit c = true ∧ (∀ d ∈ rest, IsNumeral d) ∧ ('.' ∈ rest ∨ 'e' ∈ rest) := by
  obtain ⟨digits, exponent, hs, -⟩ := x.exists_spells hplus
  obtain ⟨c, rest, heq, hc⟩ := hs.exists_cons
  have hchars : (∀ d ∈ c :: rest, IsNumeral d) ∧ ('.' ∈ c :: rest ∨ 'e' ∈ c :: rest) := by
    rw [← heq]
    exact isNumeral_of_spells hs
  obtain ⟨hnumeral, hmark⟩ := hchars
  refine ⟨if x.negative then ['-'] else [], c, rest, by rw [Binary64.render_toList, heq], ?_, hc,
    fun d hd => hnumeral d (List.mem_cons_of_mem _ hd), ?_⟩
  · cases x.negative
    · exact .inl rfl
    · exact .inr rfl
  · refine hmark.imp (fun h => (List.mem_cons.1 h).resolve_left ?_)
      fun h => (List.mem_cons.1 h).resolve_left ?_
    all_goals
      rintro rfl
      cases hc

theorem plainText_render : PlainText (x.render layout).toList := by
  obtain ⟨sign, c, rest, heq, hsign, hc, hrest, -⟩ := exists_render hplus x
  rw [heq]
  exact .numeral hsign hc hrest

/-- **A double is read as a real number.** -/
theorem resolvePlain_render : resolvePlain (x.render layout) = .real (x.render layout) := by
  obtain ⟨literal, hliteral, -⟩ := x.exists_literal_render hplus
  have hreal : isReal (x.render layout) = true := by rw [isReal, hliteral]; simp
  obtain ⟨sign, c, rest, heq, hsign, hc, hrest, hmark⟩ := exists_render hplus x
  have hinteger : parseInteger? 10 (sign ++ c :: rest) = none := by
    have hnat : natInBase? 10 (c :: rest) = none := by
      obtain h | h := hmark
      · exact natInBase?_eq_none (List.mem_cons_of_mem c h) (by decide)
      · exact natInBase?_eq_none (List.mem_cons_of_mem c h) (by decide)
    obtain rfl | rfl := hsign
    · rw [List.nil_append, parseInteger?_of_splitSign 10 (splitSign_of_isDigit hc rest), hnat]
      rfl
    · have hsign : splitSign (['-'] ++ c :: rest) = (true, c :: rest) := rfl
      rw [parseInteger?_of_splitSign 10 hsign, hnat]
      rfl
  have hofList : x.render layout = String.ofList (sign ++ c :: rest) := by
    rw [← heq, String.ofList_toList]
  rw [hofList] at hreal ⊢
  rw [resolvePlain_numeral hsign hc hrest, hinteger]
  simp only [hreal, if_true]

theorem realDocument_render : realDocument (x.render layout) = .ok (.float x) := by
  obtain ⟨literal, hliteral, hfinite⟩ := x.exists_literal_render hplus
  rw [realDocument, hliteral]
  simp only [hfinite]

end Doubles

end Yaml

end BatchRun
