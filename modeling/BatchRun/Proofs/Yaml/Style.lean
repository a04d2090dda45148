import BatchRun.Yaml.Cursor
import BatchRun.Yaml.Writer
import Mathlib.Data.List.Basic

/-!
# What a style guarantees about a text

* `isWordEnd_eq_false`: characters that are shown as they are belong to words, blanks and line
  feeds apart;
* `PlainRun`, `PlainText`: texts that may stand without quotes, `plainText_of_styleOf`;
* `QuotedText`: texts that may stand between single quotes;
* `LiteralText`: texts that may stand in a literal block.
-/

namespace BatchRun

namespace Yaml

/-! ## Characters -/

/-- A character that is shown as it is belongs to a word unless it is a blank or a line feed. -/
theorem isWordEnd_eq_false {c : Char} (h : isPrintable c = true) (hs : c ≠ ' ') (hn : c ≠ '\n') :
    isWordEnd c = false := by
  have ht : c ≠ '\t' := by rintro rfl; cases h
  have hr : c ≠ '\r' := by rintro rfl; cases h
  have hz : c.toNat ≠ 0 := by
    intro hz
    rw [isPrintable] at h
    simp [hz] at h
  simp [isWordEnd, isSpaceOrTab, isLineEnd, isLineBreak, isEndMark, hs, hn, ht, hr, hz]

theorem isLineBreak_eq_false {c : Char} (h : isPrintable c = true) (hn : c ≠ '\n') :
    isLineBreak c = false := by
  have hr : c ≠ '\r' := by rintro rfl; cases h
  simp [isLineBreak, hn, hr]

theorem isLineEnd_eq_false {c : Char} (h : isPrintable c = true) (hn : c ≠ '\n') :
    isLineEnd c = false := by
  have hz : c.toNat ≠ 0 := by
    intro hz
    rw [isPrintable] at h
    simp [hz] at h
  simp [isLineEnd, isLineBreak_eq_false h hn, isEndMark, hz]

theorem isWordEnd_head_eq_false {cs : List Char} (h : endsWord cs = false) (rest : List Char) :
    isWordEnd ((cs ++ rest).headD endMark) = false := by
  cases cs with
  | nil => cases h
  | cons c cs =>
    simp only [endsWord, Bool.or_eq_false_iff, beq_eq_false_iff_ne, isBreak] at h
    obtain ⟨⟨⟨hs, ht⟩, hz⟩, ⟨⟨⟨hn, hr⟩, _⟩, _⟩, _⟩ := h
    simp [isWordEnd, isSpaceOrTab, isLineEnd, isLineBreak, isEndMark, hs, ht, hz, hn, hr]

/-! ## Plain texts -/

/-- Words with spaces between them, none of which starts a comment or ends like a key. -/
structure PlainRun (cs : List Char) : Prop where
  printable : ∀ c ∈ cs, isPrintable c = true
  unbroken : ∀ c ∈ cs, isBreak c = false
  head : ∃ c rest, cs = c :: rest ∧ c ≠ ' ' ∧ c ≠ '#'
  last : cs.getLast? ≠ some ' '
  colon : ∀ pre post, cs = pre ++ ':' :: post → endsWord post = false
  hash : ∀ pre post, cs ≠ pre ++ ' ' :: '#' :: post

/-- Words that may start a node. -/
structure PlainText (cs : List Char) : Prop extends PlainRun cs where
  marker : Traits.startsLikeMarker cs = false
  opener : ∀ c ∈ cs.head?, Traits.openers.contains c = false
  mark : ∀ c rest, cs = c :: rest → c = '-' ∨ c = '?' ∨ c = ':' → endsWord rest = false

theorem PlainRun.ne_newline {cs : List Char} (h : PlainRun cs) {c : Char} (hc : c ∈ cs) :
    c ≠ '\n' := by
  rintro rfl
  exact absurd (h.unbroken _ hc) (by decide)

theorem endsWord_eq_false_of_inner {before : Char} {cs : List Char}
    (h : Traits.innerIndicator before cs = false) {pre post : List Char}
    (hcs : cs = pre ++ ':' :: post) : endsWord post = false := by
  induction pre generalizing before cs with
  | nil =>
    subst hcs
    simp only [List.nil_append, Traits.innerIndicator, Bool.or_eq_false_iff] at h
    simpa using h.1.1
  | cons c pre ih =>
    subst hcs
    simp only [List.cons_append, Traits.innerIndicator, Bool.or_eq_false_iff] at h
    exact ih h.2 rfl

theorem ne_hash_of_inner {before : Char} {cs : List Char}
    (h : Traits.innerIndicator before cs = false) (pre post : List Char) :
    before :: cs ≠ pre ++ ' ' :: '#' :: post := by
  induction pre generalizing before cs with
  | nil =>
    rintro ⟨⟩
    simp [Traits.innerIndicator, endsWord] at h
  | cons c pre ih =>
    intro heq
    rw [List.cons_append] at heq
    obtain ⟨-, rfl⟩ := List.cons.inj heq
    cases pre with
    | nil => simp [Traits.innerIndicator, endsWord] at h
    | cons d pre =>
      simp only [List.cons_append, Traits.innerIndicator, Bool.or_eq_false_iff] at h
      exact ih h.2 rfl

variable {s : String}

/-- **What is written without quotes is a plain text.** -/
theorem plainText_of_styleOf (h : styleOf s = .plain) : PlainText s.toList := by
  simp only [styleOf] at h
  split at h
  · split at h <;> cases h
  split at h
  case isFalse => split at h <;> cases h
  next hplain =>
  simp only [Bool.and_eq_true, Bool.not_eq_true', Traits.allowsPlain, Bool.or_eq_false_iff,
    Traits.ofChars] at hplain
  obtain ⟨hamb, ⟨⟨⟨⟨⟨hmarker, hind⟩, hspecial⟩, hbreaks⟩, hlead⟩, htrail⟩⟩ := hplain
  cases hcs : s.toList with
  | nil =>
    have : s = "" := String.toList_eq_nil_iff.1 hcs
    subst this
    exact absurd hamb (by decide)
  | cons c rest =>
    rw [hcs] at hmarker hind hspecial hbreaks hlead htrail
    simp only [Bool.or_eq_false_iff] at hind
    obtain ⟨hopens, hinner⟩ := hind
    simp only [Traits.opensIndicator, Bool.or_eq_false_iff, Bool.and_eq_false_iff] at hopens
    have hmark (hc : c = '-' ∨ c = '?' ∨ c = ':') : endsWord rest = false := by
      refine hopens.2.resolve_left ?_
      obtain rfl | rfl | rfl := hc <;> simp
    refine { printable := ?_, unbroken := ?_, head := ⟨c, rest, rfl, ?_, ?_⟩, last := ?_,
             colon := ?_, hash := ne_hash_of_inner hinner, marker := hmarker, opener := ?_,
             mark := ?_ }
    · simpa using hspecial
    · simpa using hbreaks
    · rintro rfl
      simp [Traits.isGap, Traits.isSpace] at hlead
    · rintro rfl
      exact absurd hopens.1 (by decide)
    · intro hlast
      rw [hlast] at htrail
      simp [Traits.isGap, Traits.isSpace] at htrail
    · intro pre post heq
      cases pre with
      | nil =>
        obtain ⟨rfl, rfl⟩ := List.cons.inj heq
        exact hmark (.inr (.inr rfl))
      | cons d pre => exact endsWord_eq_false_of_inner hinner (List.cons.inj heq).2
    · rintro _ ⟨⟩
      exact hopens.1
    · rintro d rest' heq hd
      obtain ⟨rfl, rfl⟩ := List.cons.inj heq
      exact hmark hd

theorem not_opener_of_range {c : Char} {low high : Nat}
    (hall : (Traits.openers.all fun (d : Char) => d.toNat < low || high < d.toNat) = true)
    (h : low ≤ c.toNat ∧ c.toNat ≤ high) : Traits.openers.contains c = false := by
  rw [List.contains_eq_mem, decide_eq_false_iff_not]
  intro hmem
  have hc := List.all_eq_true.1 hall c hmem
  rw [Bool.or_eq_true, decide_eq_true_eq, decide_eq_true_eq] at hc
  omega

theorem PlainText.of_solid {c : Char} {rest : List Char}
    (hsolid : ∀ a ∈ c :: rest, 33 ≤ a.toNat ∧ a.toNat ≤ 126) (hcolon : ':' ∉ c :: rest)
    (hhash : '#' ∉ c :: rest) (hopener : Traits.openers.contains c = false)
    (hmarker : Traits.startsLikeMarker (c :: rest) = false)
    (hmark : c = '-' ∨ c = '?' → rest ≠ []) : PlainText (c :: rest) := by
  have hspace : ' ' ∉ c :: rest := fun hmem => absurd (hsolid _ hmem) (by decide)
  have hunbroken (a : Char) (ha : a ∈ c :: rest) : isBreak a = false := by
    have hrange := hsolid a ha
    have hne {b : Char} (hb : b.toNat < 33) : a ≠ b := by
      rintro rfl
      omega
    simp [isBreak, hne (b := '\n') (by decide), hne (b := '\r') (by decide)]
    omega
  refine { printable := fun a ha => ?_, unbroken := hunbroken
           head := ⟨c, rest, rfl, fun h => hspace (h ▸ List.mem_cons_self),
             fun h => hhash (h ▸ List.mem_cons_self)⟩
           last := fun h => hspace (List.mem_of_getLast? h)
           colon := fun pre post heq => absurd (heq ▸ by simp) hcolon
           hash := fun pre post heq => hhash (heq ▸ by simp)
           marker := hmarker, opener := ?_, mark := fun a tail heq ha => ?_ }
  · have hrange := hsolid a ha
    simp [isPrintable]
    omega
  · rintro _ ⟨⟩
    exact hopener
  · obtain ⟨rfl, rfl⟩ := List.cons.inj heq
    have hne : rest ≠ [] := by
      obtain h | h | rfl := ha
      · exact hmark (.inl h)
      · exact hmark (.inr h)
      · exact absurd List.mem_cons_self hcolon
    obtain ⟨b, tail, rfl⟩ := List.exists_cons_of_ne_nil hne
    have hb : b ∈ c :: b :: tail := by simp
    have hrange := hsolid b hb
    have htab : b ≠ '\t' := by
      rintro rfl
      exact absurd hrange (by decide)
    have hbspace : b ≠ ' ' := fun h => hspace (h ▸ hb)
    have hz : b.toNat ≠ 0 := by omega
    simp [endsWord, hunbroken b hb, htab, hbspace, hz]

/-! ## Quoted texts -/

/-- A text without line feeds whose characters can all be shown. -/
structure QuotedText (cs : List Char) : Prop where
  printable : ∀ c ∈ cs, isPrintable c = true
  newline : '\n' ∉ cs

theorem quotedText_of_styleOf (h : styleOf s = .singleQuoted) : QuotedText s.toList := by
  simp only [styleOf] at h
  split at h
  · split at h <;> cases h
  next hnewline =>
  split at h
  · cases h
  split at h
  case isFalse => cases h
  next hsingle =>
  simp only [Traits.allowsSingle, Traits.ofChars, Bool.not_eq_true',
    Bool.or_eq_false_iff] at hsingle
  exact ⟨by simpa using hsingle.1.1, by simpa using hnewline⟩

/-! ## Literal texts -/

/-- A text with a line feed whose characters can all be shown, no line of which ends in a
space. -/
structure LiteralText (cs : List Char) : Prop where
  printable : ∀ c ∈ cs, isPrintable c = true
  newline : '\n' ∈ cs
  last : cs.getLast? ≠ some ' '
  trailing : ∀ pre post, cs ≠ pre ++ ' ' :: '\n' :: post

theorem ne_of_not_hasPair {first second : Char → Bool} {a b : Char} {cs : List Char}
    (h : Traits.hasPair first second cs = false) (ha : first a = true) (hb : second b = true)
    (pre post : List Char) : cs ≠ pre ++ a :: b :: post := by
  induction pre generalizing cs with
  | nil =>
    rintro rfl
    simp [Traits.hasPair, ha, hb] at h
  | cons c pre ih =>
    rintro rfl
    cases pre with
    | nil =>
      simp only [List.cons_append, List.nil_append, Traits.hasPair, Bool.or_eq_false_iff] at h
      simp [ha, hb] at h
    | cons d pre =>
      simp only [List.cons_append, Traits.hasPair, Bool.or_eq_false_iff] at h
      exact ih h.2 rfl

theorem literalText_of_styleOf (h : styleOf s = .literal) : LiteralText s.toList := by
  simp only [styleOf] at h
  split at h
  case isFalse =>
    split at h
    · cases h
    · split at h <;> cases h
  next hnewline =>
  split at h
  case isFalse => cases h
  next hblock =>
  simp only [Traits.allowsBlock, Traits.ofChars, Bool.not_eq_true', Bool.or_eq_false_iff] at hblock
  obtain ⟨⟨hspecial, hlast⟩, hpair⟩ := hblock
  refine ⟨by simpa using hspecial, by simpa using hnewline, ?_, ?_⟩
  · intro hspace
    rw [hspace] at hlast
    simp [Traits.isSpace] at hlast
  · exact ne_of_not_hasPair hpair (by simp [Traits.isSpace]) (by decide)

end Yaml

end BatchRun
