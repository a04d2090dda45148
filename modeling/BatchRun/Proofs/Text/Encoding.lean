import BatchRun.Text.Encoding

/-!
# Texts and their bytes

* **`Text.ofBytes?_eq_some_iff`**: bytes are a text exactly if they are the bytes of that text;
* `Text.bytes_append`, `Text.bytes_ofList`: the bytes of a text are those of its characters;
* `Text.mem_bytes_iff`: a line feed among the bytes is one among the characters;
* **`Text.ofBytes?_append_lineFeed`**: a line is a text with its line feed if it is one without.
-/

namespace BatchRun

namespace Text

/-- **Bytes are a text exactly if they are the bytes of that text.** -/
theorem ofBytes?_eq_some_iff {bs : List UInt8} {s : String} :
    ofBytes? bs = some s ↔ bs = bytes s := by
  unfold ofBytes? String.fromUTF8?
  constructor
  · intro h
    split at h
    · cases h
      show bs = bs.toByteArray.data.toList
      rw [List.data_toByteArray]
    · cases h
  · rintro rfl
    have hbytes : (bytes s).toByteArray = s.toByteArray := by
      refine ByteArray.ext ?_
      rw [List.data_toByteArray]
      exact Array.toArray_toList
    rw [dif_pos (by rw [hbytes]; exact s.isValidUTF8)]
    refine congrArg some (String.toByteArray_inj.1 ?_)
    exact hbytes

@[simp] theorem ofBytes?_bytes (s : String) : ofBytes? (bytes s) = some s :=
  ofBytes?_eq_some_iff.2 rfl

theorem ofBytes?_eq_none_iff {bs : List UInt8} :
    ofBytes? bs = none ↔ ∀ s, bs ≠ bytes s := by
  rw [Option.eq_none_iff_forall_ne_some]
  exact forall_congr' fun s => not_congr ofBytes?_eq_some_iff

theorem bytes_inj {s t : String} : bytes s = bytes t ↔ s = t := by
  constructor
  · intro h
    have hsome := ofBytes?_bytes s
    rw [h, ofBytes?_bytes] at hsome
    exact (Option.some.inj hsome).symm
  · rintro rfl
    rfl

@[simp] theorem bytes_append (s t : String) : bytes (s ++ t) = bytes s ++ bytes t := by
  simp [bytes, String.toByteArray_append, ByteArray.data_append]

theorem bytes_ofList (cs : List Char) :
    bytes (String.ofList cs) = cs.flatMap String.utf8EncodeChar := by
  rw [bytes, String.toUTF8_eq_toByteArray, String.toByteArray_ofList, List.utf8Encode,
    List.data_toByteArray]

theorem bytes_eq_flatMap (s : String) : bytes s = s.toList.flatMap String.utf8EncodeChar := by
  rw [← bytes_ofList, String.ofList_toList]

theorem lineFeed_ne_ofNat {n : Nat} (hlow : 128 ≤ n) (hhigh : n < 256) :
    (10 : UInt8) ≠ UInt8.ofNat n := by
  intro h
  have hnat : 10 = n % 256 := congrArg UInt8.toNat h
  omega

/-- Only one character has a line feed among its bytes: the others have one byte, which is their
number, or several, which are all too high. -/
theorem mem_utf8EncodeChar_iff {c : Char} : 10 ∈ String.utf8EncodeChar c ↔ c = '\n' := by
  constructor
  · intro h
    unfold String.utf8EncodeChar at h
    dsimp only at h
    split at h
    · have hnat : 10 = c.val.toNat % 256 := congrArg UInt8.toNat (List.mem_singleton.1 h)
      have hnumber : c.val.toNat = '\n'.val.toNat := by
        show _ = 10
        omega
      exact Char.ext (UInt32.toNat_inj.1 hnumber)
    · exfalso
      revert h
      split
      · simp only [List.mem_cons, List.not_mem_nil, or_false, not_or, imp_false]
        exact ⟨lineFeed_ne_ofNat (by omega) (by omega), lineFeed_ne_ofNat (by omega) (by omega)⟩
      · split
        · simp only [List.mem_cons, List.not_mem_nil, or_false, not_or, imp_false]
          exact ⟨lineFeed_ne_ofNat (by omega) (by omega), lineFeed_ne_ofNat (by omega) (by omega),
            lineFeed_ne_ofNat (by omega) (by omega)⟩
        · simp only [List.mem_cons, List.not_mem_nil, or_false, not_or, imp_false]
          exact ⟨lineFeed_ne_ofNat (by omega) (by omega), lineFeed_ne_ofNat (by omega) (by omega),
            lineFeed_ne_ofNat (by omega) (by omega), lineFeed_ne_ofNat (by omega) (by omega)⟩
  · rintro rfl
    decide

/-- **A line feed among the bytes is one among the characters.** -/
theorem mem_bytes_iff {s : String} : 10 ∈ bytes s ↔ '\n' ∈ s.toList := by
  rw [bytes_eq_flatMap, List.mem_flatMap]
  simp only [mem_utf8EncodeChar_iff, exists_eq_right]

/-- **Bytes that end with a line feed are a text exactly if those before it are.** -/
theorem ofBytes?_append_lineFeed (bs : List UInt8) :
    ofBytes? (bs ++ [10]) = (ofBytes? bs).map fun (s : String) => s ++ "\n" := by
  cases hbs : ofBytes? bs with
  | some s =>
    rw [ofBytes?_eq_some_iff.1 hbs]
    refine ofBytes?_eq_some_iff.2 ?_
    rw [bytes_append]
    rfl
  | none =>
    refine ofBytes?_eq_none_iff.2 fun s hs => ?_
    refine ofBytes?_eq_none_iff.1 hbs (String.ofList s.toList.dropLast) ?_
    rw [bytes_eq_flatMap] at hs
    rw [bytes_ofList]
    rcases List.eq_nil_or_concat s.toList with hnil | ⟨init, c, hsplit⟩
    · rw [hnil] at hs
      simp at hs
    · rw [List.concat_eq_append] at hsplit
      rw [hsplit, List.flatMap_append, List.flatMap_singleton] at hs
      have hlast : 10 ∈ String.utf8EncodeChar c := by
        have h := congrArg List.getLast? hs
        rw [List.getLast?_concat, List.getLast?_append,
          List.getLast?_eq_some_getLast String.utf8EncodeChar_ne_nil, Option.some_or] at h
        exact Option.some.inj h ▸ List.getLast_mem String.utf8EncodeChar_ne_nil
      obtain rfl := mem_utf8EncodeChar_iff.1 hlast
      rw [hsplit, List.dropLast_concat]
      exact List.append_cancel_right hs

end Text

end BatchRun
