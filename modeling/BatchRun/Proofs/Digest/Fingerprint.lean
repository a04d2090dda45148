import BatchRun.Digest.Fingerprint
import Mathlib.Tactic.NormNum

/-!
# What a fingerprint depends on

Each text is fed to the digest behind its length, so the bytes can be taken apart into texts again
in one way only. A fingerprint shows the first eight bytes of the digest, each as two digits.

* `PrefixFree`, **`flatMap_inj`**: parts that are told from what follows them can be put in a row;
* `Sha256.littleEndian_inj`: a length is read back from its bytes;
* `Fingerprint.prefixFree_framed`, **`Fingerprint.preimage_inj`**: different sequences of texts are
  fed as different bytes;
* **`fingerprint_eq_iff`**: two fingerprints are the same only for the same texts or where the
  digests collide in their first eight bytes;
* `length_fingerprint`, `mem_hexDigits_of_mem_fingerprint`: it has sixteen lower-case digits.
-/

namespace BatchRun

/-! ## Parts in a row -/

section Parts

variable {α β : Type} {part : α → List β} {P : α → Prop}

/-- The part that stands for a value with `P` is told from what follows it. -/
def PrefixFree (P : α → Prop) (part : α → List β) : Prop :=
  ∀ a b xs ys, P a → P b → part a ++ xs = part b ++ ys → a = b ∧ xs = ys

theorem prefixFree_of_length (n : Nat) (hlength : ∀ a, (part a).length = n)
    (hinj : ∀ a b, part a = part b → a = b) : PrefixFree P part := by
  intro a b xs ys _ _ h
  obtain ⟨hfirst, hrest⟩ := List.append_inj h ((hlength a).trans (hlength b).symm)
  exact ⟨hinj a b hfirst, hrest⟩

/-- **Parts in a row can be taken apart again.** -/
theorem flatMap_inj (hpart : PrefixFree P part) (hne : ∀ a, part a ≠ []) {as bs : List α}
    (has : ∀ a ∈ as, P a) (hbs : ∀ b ∈ bs, P b) (h : as.flatMap part = bs.flatMap part) :
    as = bs := by
  induction as generalizing bs with
  | nil =>
    cases bs with
    | nil => rfl
    | cons b bs => exact absurd (List.append_eq_nil_iff.1 h.symm).1 (hne b)
  | cons a as ih =>
    cases bs with
    | nil => exact absurd (List.append_eq_nil_iff.1 h).1 (hne a)
    | cons b bs =>
      obtain ⟨ha, has'⟩ := List.forall_mem_cons.1 has
      obtain ⟨hb, hbs'⟩ := List.forall_mem_cons.1 hbs
      rw [List.flatMap_cons, List.flatMap_cons] at h
      obtain ⟨hfirst, hrest⟩ := hpart a b _ _ ha hb h
      rw [hfirst, ih has' hbs' hrest]

end Parts

namespace Sha256

/-! ## Digests -/

theorem length_littleEndian (k n : Nat) : (littleEndian k n).length = k := by
  induction k generalizing n with
  | zero => rfl
  | succ k ih => rw [littleEndian, List.length_cons, ih]

/-- **A number that fits is read back from its bytes.** -/
theorem littleEndian_inj {k m n : Nat} (hm : m < 256 ^ k) (hn : n < 256 ^ k)
    (h : littleEndian k m = littleEndian k n) : m = n := by
  induction k generalizing m n with
  | zero => omega
  | succ k ih =>
    rw [littleEndian, littleEndian, List.cons.injEq] at h
    have hlow : m % 256 = n % 256 := by simpa using congrArg UInt8.toNat h.1
    have hhigh : m / 256 = n / 256 :=
      ih (Nat.div_lt_of_lt_mul (by rwa [← Nat.pow_succ']))
        (Nat.div_lt_of_lt_mul (by rwa [← Nat.pow_succ'])) h.2
    omega

theorem length_digest (message : List UInt8) : (digest message).length = 32 := by
  simp [digest, State.toList, bigEndian, length_littleEndian]

/-- Two different messages whose digests have the same first eight bytes. -/
def Collide (x y : List UInt8) : Prop := x ≠ y ∧ (digest x).take 8 = (digest y).take 8

end Sha256

namespace Fingerprint

/-! ## The bytes of texts -/

theorem toList_loop (bytes : ByteArray) (i : Nat) (before : List UInt8) :
    ByteArray.toList.loop bytes i before = before.reverse ++ bytes.data.toList.drop i := by
  induction i, before using ByteArray.toList.loop.induct bytes with
  | case1 i before hi ih =>
    have hlt : i < bytes.data.toList.length := by simpa using hi
    have hget : bytes.get! i = bytes.data.toList[i] :=
      (getElem!_pos bytes.data i (by simpa using hi)).trans (Array.getElem_toList hlt).symm
    rw [ByteArray.toList.loop, if_pos hi, ih, List.drop_eq_getElem_cons hlt, hget,
      List.reverse_cons, List.append_assoc]
    rfl
  | case2 i before hi =>
    have hle : bytes.data.toList.length ≤ i := by simpa using hi
    rw [ByteArray.toList.loop, if_neg hi, List.drop_eq_nil_of_le hle, List.append_nil]

theorem toList_eq_data (bytes : ByteArray) : bytes.toList = bytes.data.toList :=
  toList_loop bytes 0 []

theorem length_toUTF8 (text : String) : text.toUTF8.toList.length = text.utf8ByteSize := by
  rw [toList_eq_data]
  rfl

theorem toUTF8_inj {s t : String} (h : s.toUTF8.toList = t.toUTF8.toList) : s = t := by
  rw [toList_eq_data, toList_eq_data] at h
  exact String.toByteArray_inj.1 (ByteArray.ext (Array.toList_inj.1 h))

/-! ## Frames -/

/-- The length of the text fits the eight bytes before it. -/
def Fits (text : String) : Prop := text.utf8ByteSize < 2 ^ 64

instance : DecidablePred Fits :=
  fun text => inferInstanceAs (Decidable (text.utf8ByteSize < 2 ^ 64))

/-- **A framed text is told from what follows it**: its length comes first. -/
theorem prefixFree_framed : PrefixFree Fits framed := by
  intro s t xs ys hs ht h
  rw [framed, framed, List.append_assoc, List.append_assoc] at h
  obtain ⟨hlength, hrest⟩ := List.append_inj h (by simp only [Sha256.length_littleEndian])
  have hbytes : s.toUTF8.toList.length = t.toUTF8.toList.length := by
    refine Sha256.littleEndian_inj ?_ ?_ hlength
    · rw [length_toUTF8]
      exact hs
    · rw [length_toUTF8]
      exact ht
  obtain ⟨htext, hrest⟩ := List.append_inj hrest hbytes
  exact ⟨toUTF8_inj htext, hrest⟩

theorem framed_ne_nil (text : String) : framed text ≠ [] := by
  simp [framed, Sha256.littleEndian]

/-- **Different sequences of texts are fed as different bytes.** -/
theorem preimage_inj {ss ts : List String} (hss : ∀ s ∈ ss, Fits s) (hts : ∀ t ∈ ts, Fits t)
    (h : preimage ss = preimage ts) : ss = ts :=
  flatMap_inj prefixFree_framed framed_ne_nil hss hts h

/-! ## Hexadecimal digits -/

/-- The lower-case hexadecimal digits. -/
def hexDigits : List Char := "0123456789abcdef".toList

theorem hexByte_eq (b : UInt8) :
    hexByte b = [hexDigits.getD (b.toNat / 16) '0', hexDigits.getD (b.toNat % 16) '0'] := by
  have hdigit : ∀ n < 16, (if n < 10 then Char.ofNat (48 + n) else Char.ofNat (87 + n)) =
      hexDigits.getD n '0' := by decide
  have hb := b.toNat_lt
  rw [← hdigit _ (by omega), ← hdigit _ (by omega)]
  rfl

theorem hexByte_inj {b c : UInt8} (h : hexByte b = hexByte c) : b = c := by
  have hdigit : ∀ m < 16, ∀ n < 16, hexDigits.getD m '0' = hexDigits.getD n '0' → m = n := by
    decide
  have hb := b.toNat_lt
  have hc := c.toNat_lt
  rw [hexByte_eq, hexByte_eq, List.cons.injEq, List.cons.injEq] at h
  have hhigh := hdigit _ (by omega) _ (by omega) h.1
  have hlow := hdigit _ (by omega) _ (by omega) h.2.1
  exact UInt8.toNat_inj.1 (by omega)

theorem flatMap_hexByte_inj {xs ys : List UInt8} (h : xs.flatMap hexByte = ys.flatMap hexByte) :
    xs = ys := by
  have hpart : PrefixFree (fun _ => True) hexByte :=
    prefixFree_of_length 2 (fun _ => rfl) fun _ _ => hexByte_inj
  have hne (b : UInt8) : hexByte b ≠ [] := by simp [hexByte]
  exact flatMap_inj hpart hne (fun _ _ => trivial) (fun _ _ => trivial) h

theorem length_flatMap_hexByte (bytes : List UInt8) :
    (bytes.flatMap hexByte).length = 2 * bytes.length := by
  induction bytes with
  | nil => rfl
  | cons b bytes ih =>
    rw [List.flatMap_cons, List.length_append, ih, List.length_cons, Nat.mul_succ, Nat.add_comm]
    rfl

theorem mem_hexDigits_of_mem_hexByte {b : UInt8} {d : Char} (h : d ∈ hexByte b) :
    d ∈ hexDigits := by
  have hdigit : ∀ n < 16, hexDigits.getD n '0' ∈ hexDigits := by decide
  have hb := b.toNat_lt
  rw [hexByte_eq, List.mem_cons, List.mem_singleton] at h
  rcases h with rfl | rfl
  · exact hdigit _ (by omega)
  · exact hdigit _ (by omega)

end Fingerprint

open Fingerprint

theorem length_fingerprint (texts : List String) : (fingerprint texts).length = 16 := by
  rw [fingerprint, String.length_ofList, length_flatMap_hexByte, List.length_take,
    Sha256.length_digest]
  rfl

theorem mem_hexDigits_of_mem_fingerprint {texts : List String} :
    ∀ d ∈ (fingerprint texts).toList, d ∈ hexDigits := by
  intro d hd
  rw [fingerprint, String.toList_ofList] at hd
  obtain ⟨b, _, hd⟩ := List.mem_flatMap.1 hd
  exact mem_hexDigits_of_mem_hexByte hd

/-- **Two fingerprints are the same only for the same texts**, or where the digests collide. -/
theorem fingerprint_eq_iff {ss ts : List String} (hss : ∀ s ∈ ss, Fits s)
    (hts : ∀ t ∈ ts, Fits t) :
    fingerprint ss = fingerprint ts ↔ ss = ts ∨ Sha256.Collide (preimage ss) (preimage ts) := by
  constructor
  · intro h
    by_cases heq : ss = ts
    · exact .inl heq
    · refine .inr ⟨fun hpre => heq (preimage_inj hss hts hpre), ?_⟩
      exact flatMap_hexByte_inj (String.ofList_inj.1 h)
  · rintro (rfl | ⟨_, hdigest⟩)
    · rfl
    · rw [fingerprint, fingerprint, hdigest]

end BatchRun
