import BatchRun.Proofs.Yaml.Numeral

/-!
# Texts that do not start like a number

The text of a number starts with a sign, a digit, a point, or the first letter of a word for
infinity or for what is not a number. Any other text without quotes is taken for a string, since
the remaining words of the format are written between quotes.

* `startsNumber`, `parseUnsigned?_of_start`;
* **`resolvePlain_of_start`**.
-/

namespace BatchRun

namespace Yaml

open Decimal

/-- A character that the text of a number may start with. -/
def startsNumber (c : Char) : Bool := isDigit c || ['+', '-', '.', 'i', 'I', 'n', 'N'].contains c

section Words

variable {s : String} {c : Char}

theorem startsNumber_eq_false_iff : startsNumber c = false ↔ isDigit c = false ∧
    c ≠ '+' ∧ c ≠ '-' ∧ c ≠ '.' ∧ c ≠ 'i' ∧ c ≠ 'I' ∧ c ≠ 'n' ∧ c ≠ 'N' := by
  simp [startsNumber]

theorem splitSign_of_start (h : startsNumber c = false) (rest : List Char) :
    splitSign (c :: rest) = (false, c :: rest) := by
  obtain ⟨-, hplus, hminus, -⟩ := startsNumber_eq_false_iff.1 h
  rw [splitSign.eq_3]
  · rintro _ ⟨⟩
    exact hminus rfl
  · rintro _ ⟨⟩
    exact hplus rfl

theorem toLower_eq {d : Char} (h : c.toLower = d) : c = d ∨ c.toNat + 32 = d.toNat := by
  subst h
  unfold Char.toLower
  split
  · next hc =>
    have hle : c.toNat ≤ 90 := hc.2
    refine .inr ?_
    change c.toNat + 32 = (c.val + 32).toNat
    rw [UInt32.toNat_add]
    exact (Nat.mod_eq_of_lt (show c.toNat + 32 < 2 ^ 32 by omega)).symm
  · exact .inl rfl

theorem parseUnsigned?_of_start (h : startsNumber c = false) (negative : Bool)
    (rest : List Char) : Literal.parseUnsigned? negative (c :: rest) = none := by
  obtain ⟨hdigit, -, -, hpoint, hi, hI, hn, hN⟩ := startsNumber_eq_false_iff.1 h
  have hcapital {d : Char} (hd : c ≠ d) : c.toNat ≠ d.toNat := fun heq => hd (Char.toNat_inj.1 heq)
  have hI : c.toNat ≠ 73 := hcapital hI
  have hN : c.toNat ≠ 78 := hcapital hN
  have hword (d : Char) (tail : List Char) (hd : c ≠ d) (hcase : c.toNat + 32 ≠ d.toNat) :
      (c :: rest).map Char.toLower ≠ d :: tail := fun heq =>
    (toLower_eq (List.cons.inj heq).1).elim hd hcase
  have hinf : (c :: rest).map Char.toLower ≠ "inf".toList :=
    hword 'i' ['n', 'f'] hi (by simpa using hI)
  have hinfinity : (c :: rest).map Char.toLower ≠ "infinity".toList :=
    hword 'i' ['n', 'f', 'i', 'n', 'i', 't', 'y'] hi (by simpa using hI)
  have hnan : (c :: rest).map Char.toLower ≠ "nan".toList :=
    hword 'n' ['a', 'n'] hn (by simpa using hN)
  have hspan : (c :: rest).span isDigit = ([], c :: rest) := by
    rw [List.span_eq_takeWhile_dropWhile, List.takeWhile_cons_of_neg (by simp [hdigit]),
      List.dropWhile_cons_of_neg (by simp [hdigit])]
  rw [Literal.parseUnsigned?]
  simp only
  rw [if_neg (not_or.2 ⟨hinf, hinfinity⟩), if_neg hnan, hspan]
  split
  · next heq => exact absurd (List.cons.inj heq).1 hpoint
  · rfl

theorem ten_le_of_digitValue? (h : isDigit c = false) :
    ∀ d, digitValue? c = some d → 10 ≤ d := by
  intro d hd
  unfold digitValue? at hd
  split at hd
  · next hc => simp [isDigit, hc] at h
  · split at hd
    · next hc =>
      cases hd
      have : 97 ≤ c.toNat := hc.1
      omega
    · split at hd
      · next hc =>
        cases hd
        have : 65 ≤ c.toNat := hc.1
        omega
      · cases hd

/-- **A text that does not start like a number and spells no word of the format is taken for a
string.** -/
theorem resolvePlain_of_start {rest : List Char} (hs : s.toList = c :: rest)
    (h : startsNumber c = false) (hambiguous : isAmbiguous s = false) :
    resolvePlain s = .string s := by
  obtain ⟨hdigit, hplus, -⟩ := startsNumber_eq_false_iff.1 h
  have hmarked : parseMarked? s.toList = none := by
    rw [hs]
    refine parseMarked?_eq_none (fun heq => hplus (Option.some.inj heq)) ?_ ?_
    all_goals
      rintro _ ⟨⟩
      cases hdigit
  have hinteger : parseInteger? 10 s.toList = none := by
    rw [hs, parseInteger?_of_splitSign 10 (splitSign_of_start h rest),
      natInBase?_eq_none List.mem_cons_self (ten_le_of_digitValue? hdigit)]
    rfl
  have hreal : isReal s = false := by
    have hboundless : s ∉ boundlessWords := by
      have hall :
          (boundlessWords.all fun (w : String) => w.toList.head?.all startsNumber) = true := by
        decide
      intro hmem
      have hstart := List.all_eq_true.1 hall s hmem
      rw [hs, List.head?_cons, Option.all_some, h] at hstart
      cases hstart
    have hliteral : Literal.parse? s.toList = none := by
      rw [Literal.parse?, hs, splitSign_of_start h]
      exact parseUnsigned?_of_start h false rest
    rw [isReal, hliteral]
    simpa using hboundless
  have hword (w : String) (hw : isAmbiguous w = true) : s ≠ w := by
    rintro rfl
    rw [hambiguous] at hw
    cases hw
  rw [resolvePlain, hmarked]
  simp only [hword "~" (by decide), hword "null" (by decide), hword "true" (by decide),
    hword "false" (by decide), hinteger, hreal]
  simp

theorem isAmbiguous_of_styleOf (h : styleOf s = .plain) : isAmbiguous s = false := by
  simp only [styleOf] at h
  split at h
  · split at h <;> cases h
  · split at h
    · next hplain =>
      rw [Bool.and_eq_true, Bool.not_eq_true'] at hplain
      exact hplain.1
    · split at h <;> cases h

end Words

end Yaml

end BatchRun
