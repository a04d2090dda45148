import BatchRun.Decimal.Literal
import BatchRun.Document.Json
import BatchRun.Proofs.Decimal.Shortest

/-!
# Numbers are read back from their texts

* `natOfDigits_toDigits`, `parseInt?_of_splitSign`: integers;
* `Decimal.Spells`: the texts with a point or an exponent, and the decimals they stand for;
* `spells_positional`, `spells_scientific`, `Binary64.exists_spells`: what is written for a double
  is such a text, of the value that was found for it;
* **`exists_literal_render`**: what is written for a double is a literal of that double.
-/

namespace BatchRun

namespace Decimal

/-! ## Digits -/

theorem natOfDigits_eq (ds : List Char) : natOfDigits ds = Nat.ofDigitChars 10 ds 0 := by
  rw [natOfDigits, Nat.ofDigitChars_eq_foldl]
  simp only [Nat.mul_comm]
  rfl

theorem natOfDigits_toDigits (n : Nat) : natOfDigits (Nat.toDigits 10 n) = n := by
  rw [natOfDigits_eq, Nat.ofDigitChars_ten_toDigits]

theorem natOfDigits_append (ds es : List Char) :
    natOfDigits (ds ++ es) = natOfDigits ds * 10 ^ es.length + natOfDigits es := by
  simp only [natOfDigits_eq]
  rw [Nat.ofDigitChars_append, Nat.ofDigitChars_eq_ofDigitChars_zero, Nat.mul_comm]

theorem natOfDigits_replicate (n : Nat) : natOfDigits (List.replicate n '0') = 0 := by
  rw [natOfDigits_eq, Nat.ofDigitChars_replicate_zero, Nat.mul_zero]

/-- All characters are digits. -/
def AllDigits (cs : List Char) : Prop := ∀ c ∈ cs, isDigit c = true

theorem allDigits_toDigits (n : Nat) : AllDigits (Nat.toDigits 10 n) := fun _ hc =>
  Nat.isDigit_of_mem_toDigits (by norm_num) le_rfl hc

theorem allDigits_replicate (n : Nat) : AllDigits (List.replicate n '0') := by
  intro c hc
  rw [List.eq_of_mem_replicate hc]
  rfl

theorem AllDigits.append {cs ds : List Char} (hc : AllDigits cs) (hd : AllDigits ds) :
    AllDigits (cs ++ ds) := List.forall_mem_append.2 ⟨hc, hd⟩

theorem span_isDigit {ds rest : List Char} (hd : AllDigits ds)
    (hr : ∀ c ∈ rest.head?, isDigit c = false) : (ds ++ rest).span isDigit = (ds, rest) := by
  rw [List.span_eq_takeWhile_dropWhile, List.takeWhile_append_of_pos hd,
    List.dropWhile_append_of_pos hd]
  cases rest with
  | nil => simp
  | cons c rest => simp [hr c rfl]

/-! ## Integers -/

theorem splitSign_of_isDigit {c : Char} (h : isDigit c = true) (cs : List Char) :
    splitSign (c :: cs) = (false, c :: cs) := by
  rw [splitSign.eq_3] <;> rintro _ ⟨⟩ <;> cases h

theorem splitSign_toDigits (n : Nat) :
    splitSign (Nat.toDigits 10 n) = (false, Nat.toDigits 10 n) := by
  cases hcs : Nat.toDigits 10 n with
  | nil => exact absurd hcs Nat.toDigits_ne_nil
  | cons c cs =>
    exact splitSign_of_isDigit (allDigits_toDigits n c (hcs ▸ List.mem_cons_self)) cs

theorem parseInt?_of_splitSign {cs : List Char} {negative : Bool} {n : Nat}
    (h : splitSign cs = (negative, Nat.toDigits 10 n)) :
    parseInt? cs = some (if negative then -(n : Int) else n) := by
  have hall : (Nat.toDigits 10 n).all isDigit = true := List.all_eq_true.2 (allDigits_toDigits n)
  have hne : (Nat.toDigits 10 n).isEmpty = false :=
    Bool.eq_false_iff.2 fun h => Nat.toDigits_ne_nil (List.isEmpty_iff.1 h)
  rw [parseInt?, h]
  simp [hall, hne, natOfDigits_toDigits]

/-! ## Texts with a point or an exponent -/

/-- The end of a number: nothing, or a power of ten. -/
inductive Power : List Char → Int → Prop where
  | absent : Power [] 0
  | present {cs : List Char} {x : Int} (chars : ∀ c ∈ cs, c = '-' ∨ c = '+' ∨ isDigit c = true)
      (value : parseInt? cs = some x) : Power ('e' :: cs) x

/-- Digits with a point or a power of ten, and the decimal that they stand for. -/
inductive Spells : List Char → Nat → Int → Prop where
  | pointed {whole part tail : List Char} {x : Int} (nonempty : whole ≠ [])
      (digits : AllDigits (whole ++ part)) (power : Power tail x) :
      Spells (whole ++ '.' :: (part ++ tail)) (natOfDigits (whole ++ part)) (x - part.length)
  | bare {whole tail : List Char} {x : Int} (nonempty : whole ≠ []) (digits : AllDigits whole)
      (power : Power tail x) (mark : tail ≠ []) : Spells (whole ++ tail) (natOfDigits whole) x

theorem Power.parseExponent? {cs : List Char} {x : Int} (h : Power cs x) :
    parseExponent? cs = some x := by
  cases h with
  | absent => rfl
  | present _ value => rw [Decimal.parseExponent?, if_pos (.inl rfl), value]

theorem Power.head_isDigit {cs : List Char} {x : Int} (h : Power cs x) :
    ∀ c ∈ cs.head?, isDigit c = false := by
  cases h with
  | absent => simp
  | present =>
    rintro _ ⟨⟩
    rfl

variable {cs : List Char} {digits : Nat} {exponent : Int}

theorem Spells.exists_cons (h : Spells cs digits exponent) :
    ∃ c rest, cs = c :: rest ∧ isDigit c = true := by
  cases h with
  | @pointed whole _ _ _ nonempty digits =>
    cases whole with
    | nil => exact absurd rfl nonempty
    | cons c _ => exact ⟨c, _, rfl, digits c (by simp)⟩
  | @bare whole _ _ nonempty digits =>
    cases whole with
    | nil => exact absurd rfl nonempty
    | cons c _ => exact ⟨c, _, rfl, digits c (by simp)⟩

theorem map_toLower_ne {c : Char} (h : isDigit c = true) (rest word : List Char) {w : Char}
    (hw : isDigit w = false) : (c :: rest).map Char.toLower ≠ w :: word := by
  have hlower : c.toLower = c := by
    refine dif_neg ?_
    rintro ⟨hge, _⟩
    have hle := (Bool.and_eq_true_iff.1 h).2
    rw [decide_eq_true_eq, Char.le_def] at hle
    exact absurd (UInt32.le_trans hge hle) (by decide)
  rw [List.map_cons, hlower]
  rintro ⟨⟩
  rw [h] at hw
  cases hw

theorem not_name {cs : List Char} (h : ∃ c rest, cs = c :: rest ∧ isDigit c = true) :
    ¬ (cs.map Char.toLower = "inf".toList ∨ cs.map Char.toLower = "infinity".toList) ∧
      cs.map Char.toLower ≠ "nan".toList := by
  obtain ⟨c, rest, rfl, hc⟩ := h
  exact ⟨not_or.2 ⟨map_toLower_ne hc rest _ rfl, map_toLower_ne hc rest _ rfl⟩,
    map_toLower_ne hc rest _ rfl⟩

theorem parseUnsigned?_digits {whole tail : List Char} {x : Int} (hne : whole ≠ [])
    (hd : AllDigits whole) (power : Power tail x) (negative : Bool) :
    Literal.parseUnsigned? negative (whole ++ tail) =
      some (.number negative (natOfDigits whole) x) := by
  have hspan : (whole ++ tail).span isDigit = (whole, tail) := span_isDigit hd power.head_isDigit
  have hstart : ∃ c rest, whole ++ tail = c :: rest ∧ isDigit c = true := by
    obtain ⟨c, rest, rfl⟩ := List.exists_cons_of_ne_nil hne
    exact ⟨c, rest ++ tail, rfl, hd c List.mem_cons_self⟩
  obtain ⟨hname, hnan⟩ := not_name hstart
  rw [Literal.parseUnsigned?]
  simp only [hname, hnan, if_false, hspan]
  have hexponent := power.parseExponent?
  cases power with
  | absent => simp [hne, hexponent]
  | present => simp [hne, hexponent]

/-- **A number is read as the decimal it stands for.** -/
theorem Spells.parseUnsigned? (h : Spells cs digits exponent) (negative : Bool) :
    Literal.parseUnsigned? negative cs = some (.number negative digits exponent) := by
  have hstart := h.exists_cons
  cases h with
  | @pointed whole part tail x nonempty digits power =>
    have hspan : (whole ++ '.' :: (part ++ tail)).span isDigit = (whole, '.' :: (part ++ tail)) :=
      span_isDigit (fun c hc => digits c (List.mem_append_left _ hc)) (by rintro _ ⟨⟩; rfl)
    have hpart : (part ++ tail).span isDigit = (part, tail) :=
      span_isDigit (fun c hc => digits c (List.mem_append_right _ hc)) power.head_isDigit
    obtain ⟨hname, hnan⟩ := not_name hstart
    rw [Literal.parseUnsigned?]
    simp only [hname, hnan, if_false, hspan, hpart]
    simp [nonempty, power.parseExponent?]
  | bare nonempty digits power => exact parseUnsigned?_digits nonempty digits power negative

/-! ## What is written for a double -/

theorem stripZeros_spec (cs : List Char) :
    cs = (Layout.stripZeros cs).1 ++ List.replicate (Layout.stripZeros cs).2 '0' := by
  induction cs with
  | nil => rfl
  | cons c rest ih =>
    rw [Layout.stripZeros]
    split
    · next n heq =>
      rw [heq] at ih
      rw [List.nil_append] at ih
      split
      · next hc => rw [hc, ih]; rfl
      · rw [ih]; rfl
    · next kept n _ heq =>
      rw [heq] at ih
      rw [List.cons_append, ← ih]

theorem natOfDigits_append_replicate (ds : List Char) (n : Nat) :
    natOfDigits (ds ++ List.replicate n '0') = natOfDigits ds * 10 ^ n := by
  rw [natOfDigits_append, natOfDigits_replicate, List.length_replicate, Nat.add_zero]

variable {ds : List Char}

theorem natOfDigits_replicate_append (n : Nat) :
    natOfDigits (List.replicate n '0' ++ ds) = natOfDigits ds := by
  rw [natOfDigits_append, natOfDigits_replicate, Nat.zero_mul, Nat.zero_add]

theorem spells_positional (hd : AllDigits ds) (point : Int) :
    ∃ digits exponent, Spells (Layout.positional ds point) digits exponent ∧
      (digits : ℚ) * 10 ^ exponent = natOfDigits ds * 10 ^ (point - ds.length) := by
  rw [Layout.positional]
  split
  · next hpoint =>
    obtain ⟨n, rfl⟩ : ∃ n : Nat, point = -n := ⟨point.natAbs, by omega⟩
    rw [Int.natAbs_neg, Int.natAbs_natCast]
    have hs := @Spells.pointed ['0'] (List.replicate n '0' ++ ds) [] 0 (List.cons_ne_nil _ _)
      ((allDigits_replicate 1).append ((allDigits_replicate n).append hd)) .absent
    rw [List.append_nil] at hs
    refine ⟨_, _, hs, ?_⟩
    have hdigits : natOfDigits (['0'] ++ (List.replicate n '0' ++ ds)) = natOfDigits ds := by
      rw [show ['0'] = List.replicate 1 '0' from rfl, natOfDigits_replicate_append,
        natOfDigits_replicate_append]
    rw [hdigits, List.length_append, List.length_replicate]
    congr 2
    push_cast
    ring
  · next hpoint =>
    obtain ⟨n, rfl⟩ : ∃ n : Nat, point = n := ⟨point.natAbs, by omega⟩
    dsimp only
    rw [Int.toNat_natCast]
    split
    · next hle =>
      have hs := @Spells.pointed (ds ++ List.replicate (n - ds.length) '0') ['0'] [] 0 ?_
        ((hd.append (allDigits_replicate _)).append (allDigits_replicate 1)) .absent
      · refine ⟨_, _, hs, ?_⟩
        rw [show ['0'] = List.replicate 1 '0' from rfl, natOfDigits_append_replicate,
          natOfDigits_append_replicate, show (n : Int) - ds.length = (n - ds.length : Nat) by omega,
          List.length_replicate]
        push_cast
        rw [zpow_natCast]
        norm_num
        ring
      · intro hnil
        have := congrArg List.length hnil
        simp only [List.length_append, List.length_replicate, List.length_nil] at this
        omega
    · next hlt =>
      have hs := @Spells.pointed (ds.take n) (ds.drop n) [] 0 ?_
        (by rwa [List.take_append_drop]) .absent
      · rw [List.append_nil] at hs
        refine ⟨_, _, hs, ?_⟩
        rw [List.take_append_drop, List.length_drop]
        congr 2
        omega
      · intro hnil
        have := congrArg List.length hnil
        simp only [List.length_take, List.length_nil] at this
        omega

theorem power_scientific {plus : List Char} (hplus : plus = [] ∨ plus = ['+']) (power : Int) :
    Power ('e' :: ((if power < 0 then ['-'] else plus) ++ Nat.toDigits 10 power.natAbs)) power := by
  have hdigits : ∀ c ∈ Nat.toDigits 10 power.natAbs, c = '-' ∨ c = '+' ∨ isDigit c = true :=
    fun c hc => .inr (.inr (allDigits_toDigits _ c hc))
  have hvalue (h : ¬ power < 0) : power = power.natAbs := by omega
  split
  · next hneg =>
    refine .present (List.forall_mem_cons.2 ⟨.inl rfl, hdigits⟩) ?_
    have hsign : splitSign ('-' :: Nat.toDigits 10 power.natAbs) =
        (true, Nat.toDigits 10 power.natAbs) := rfl
    rw [List.singleton_append, parseInt?_of_splitSign hsign, if_pos rfl]
    congr 1
    omega
  · next hneg =>
    have heq : (if false = true then -(power.natAbs : Int) else power.natAbs) = power := by
      rw [if_neg (by simp), ← hvalue hneg]
    obtain rfl | rfl := hplus
    · refine .present hdigits ?_
      rw [List.nil_append, parseInt?_of_splitSign (splitSign_toDigits _), heq]
    · refine .present (List.forall_mem_cons.2 ⟨.inr (.inl rfl), hdigits⟩) ?_
      have hsign : splitSign ('+' :: Nat.toDigits 10 power.natAbs) =
          (false, Nat.toDigits 10 power.natAbs) := rfl
      rw [List.singleton_append, parseInt?_of_splitSign hsign, heq]

theorem spells_scientific {layout : Layout} (hplus : layout.plus.toList = [] ∨
    layout.plus.toList = ['+']) (hd : AllDigits ds) (hne : ds ≠ []) (power : Int) :
    ∃ digits exponent, Spells (layout.scientific ds power) digits exponent ∧
      (digits : ℚ) * 10 ^ exponent = natOfDigits ds * 10 ^ (power + 1 - ds.length) := by
  have hpower := power_scientific hplus power
  unfold Layout.scientific
  match ds, hd, hne with
  | [d], hd, hne =>
    have hs := @Spells.bare [d] _ _ hne hd hpower (List.cons_ne_nil _ _)
    refine ⟨natOfDigits [d], power, by simpa using hs, ?_⟩
    simp
  | d :: e :: rest, hd, hne =>
    have hs := @Spells.pointed [d] (e :: rest) _ _ (List.cons_ne_nil _ _) hd hpower
    refine ⟨natOfDigits (d :: e :: rest), power - (rest.length + 1), by simpa using hs, ?_⟩
    rw [List.length_cons, List.length_cons]
    congr 2
    push_cast
    ring

end Decimal

open Decimal

/-- The text of a double without its sign. -/
def Binary64.renderUnsigned (layout : Layout) (x : Binary64) : List Char :=
  if x.isZero then ['0', '.', '0']
  else
    let (ds, zeros) := Layout.stripZeros (Nat.toDigits 10 x.shortest.1)
    let point : Int := (ds.length : Int) + x.shortest.2 + (zeros : Int)
    if layout.least ≤ point - 1 ∧ point - 1 < layout.bound then Layout.positional ds point
    else layout.scientific ds (point - 1)

theorem Binary64.render_toList (layout : Layout) (x : Binary64) :
    (x.render layout).toList =
      (if x.negative then ['-'] else []) ++ x.renderUnsigned layout := by
  rw [Binary64.render, Binary64.renderUnsigned]
  split <;> rw [String.toList_ofList]

/-- **What is written for a double spells a decimal that is rounded to it.** -/
theorem Binary64.exists_spells {layout : Layout} (hplus : layout.plus.toList = [] ∨
    layout.plus.toList = ['+']) (x : Binary64) :
    ∃ digits exponent, Spells (x.renderUnsigned layout) digits exponent ∧
      rankOfDecimal digits exponent = x.rank := by
  rw [Binary64.renderUnsigned]
  split
  · next hzero =>
    refine ⟨_, _, @Spells.pointed ['0'] ['0'] [] 0 (List.cons_ne_nil _ _) (allDigits_replicate 2)
      .absent, ?_⟩
    rw [show natOfDigits (['0'] ++ ['0']) = 0 from rfl, rankOfDecimal, if_pos rfl]
    exact (beq_iff_eq.1 hzero).symm
  · next hzero =>
    have hrank : 0 < x.rank := Nat.pos_of_ne_zero fun h => hzero (beq_iff_eq.2 h)
    have hnear := nearest_shortestOfRank hrank
    have hm := partsOfRank_pos hrank
    have hround {digits : Nat} {exponent : Int} (h : (digits : ℚ) * 10 ^ exponent =
        x.shortest.1 * 10 ^ x.shortest.2) : rankOfDecimal digits exponent = x.rank := by
      rw [rankOfDecimal_eq hm (onGrid_partsOfRank x.rank) (partsOfRank_le x.finite) (h ▸ hnear),
        gridRank_partsOfRank]
    have hstrip := stripZeros_spec (Nat.toDigits 10 x.shortest.1)
    set ds := (Layout.stripZeros (Nat.toDigits 10 x.shortest.1)).1
    set zeros := (Layout.stripZeros (Nat.toDigits 10 x.shortest.1)).2
    have hall : AllDigits ds := fun c hc =>
      allDigits_toDigits _ c (hstrip ▸ List.mem_append_left _ hc)
    have hvalue : x.shortest.1 = natOfDigits ds * 10 ^ zeros := by
      rw [← natOfDigits_append_replicate, ← hstrip, natOfDigits_toDigits]
    have hne : ds ≠ [] := by
      intro hnil
      rw [hnil, show natOfDigits [] = 0 from rfl, Nat.zero_mul] at hvalue
      have hpos := hnear.pos hm
      have hzero : shortestOfRank x.rank = x.shortest := rfl
      rw [hzero, hvalue] at hpos
      simp at hpos
    have hscale : (natOfDigits ds : ℚ) * 10 ^ (x.shortest.2 + zeros) =
        x.shortest.1 * 10 ^ x.shortest.2 := by
      rw [hvalue, zpow_add₀ (by norm_num), zpow_natCast]
      push_cast
      ring
    dsimp only
    split
    · obtain ⟨digits, exponent, hs, heq⟩ :=
        spells_positional hall (ds.length + x.shortest.2 + zeros)
      refine ⟨digits, exponent, hs, hround ?_⟩
      rw [heq, ← hscale]
      congr 2
      ring
    · obtain ⟨digits, exponent, hs, heq⟩ :=
        spells_scientific hplus hall hne (ds.length + x.shortest.2 + zeros - 1)
      refine ⟨digits, exponent, hs, hround ?_⟩
      rw [heq, ← hscale]
      congr 2
      ring

theorem parse?_intChars (i : Int) :
    Literal.parse? (Json.intChars i) = some (.number (decide (i < 0)) i.natAbs 0) := by
  have hdigits (negative : Bool) : Literal.parseUnsigned? negative (Nat.toDigits 10 i.natAbs) =
      some (.number negative i.natAbs 0) := by
    have h := parseUnsigned?_digits Nat.toDigits_ne_nil (allDigits_toDigits i.natAbs) .absent
      negative
    rwa [List.append_nil, natOfDigits_toDigits] at h
  rw [Json.intChars]
  split
  · next hneg =>
    rw [decide_eq_true hneg]
    exact hdigits true
  · next hneg =>
    rw [decide_eq_false hneg, Literal.parse?, splitSign_toDigits]
    exact hdigits false

/-- **What is written for a double is a literal of that double.** -/
theorem Binary64.exists_literal_render {layout : Layout} (hplus : layout.plus.toList = [] ∨
    layout.plus.toList = ['+']) (x : Binary64) :
    ∃ literal, Literal.parse? (x.render layout).toList = some literal ∧
      literal.finite? = some x := by
  obtain ⟨digits, exponent, hs, hrank⟩ := x.exists_spells hplus
  refine ⟨.number x.negative digits exponent, ?_, ?_⟩
  · rw [Binary64.render_toList]
    obtain ⟨c, rest, hcs, hc⟩ := hs.exists_cons
    cases x.negative with
    | true => exact hs.parseUnsigned? true
    | false =>
      rw [Literal.parse?, if_neg (by simp), List.nil_append, hcs, splitSign_of_isDigit hc, ← hcs]
      exact hs.parseUnsigned? false
  · rw [Literal.finite?, Binary64.ofDecimal?, dif_pos (hrank ▸ x.finite)]
    simp only [hrank]

end BatchRun
