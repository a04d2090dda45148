import BatchRun.Document.Place
import Mathlib.Data.List.Induction

/-!
# Pointer texts and their tokens

* `Pointer.unescapeChars_escapeChars`: escaping is undone exactly;
* `Pointer.splitSlashes_append`: an escaped token holds no slash, so that a text is split only
  between its tokens;
* **`Pointer.parse_render`**: the text of a list of tokens reads back as these tokens;
* **`Pointer.parse_eq_ok_iff`**: no other text does, so that pointers and lists of tokens correspond;
* `Pointer.index?_eq_some_iff`: a token stands for an index exactly if it is its written form, so
  that two tokens of one array never lead to the same item.
-/

namespace BatchRun

namespace Pointer

/-! ## One token -/

theorem unescapeChars_cons {c : Char} (h : c ≠ '~') (rest : List Char) :
    unescapeChars (c :: rest) = (unescapeChars rest).map (c :: ·) := by
  rw [unescapeChars]
  · rw [if_neg h]
  · rintro _ rfl _
    exact h rfl
  · rintro _ rfl _
    exact h rfl

@[simp] theorem unescapeChars_escapeChars (cs : List Char) :
    unescapeChars (escapeChars cs) = some cs := by
  induction cs with
  | nil => rfl
  | cons c cs ih =>
    rw [escapeChars]
    split
    · rename_i hc
      simp [unescapeChars, ih, hc]
    · rename_i hc
      split
      · rename_i hs
        simp [unescapeChars, ih, hs]
      · rw [unescapeChars_cons hc, ih]
        rfl

theorem slash_notMem_escapeChars (cs : List Char) : '/' ∉ escapeChars cs := by
  induction cs with
  | nil => simp [escapeChars]
  | cons c cs ih =>
    rw [escapeChars]
    split
    · simpa using ih
    · split
      · simpa using ih
      · rename_i hs
        simpa [Ne.symm hs] using ih

theorem eq_escapeChars_of_unescapeChars {part cs : List Char} (hslash : '/' ∉ part)
    (h : unescapeChars part = some cs) : part = escapeChars cs := by
  fun_induction unescapeChars part generalizing cs with
  | case1 =>
    cases h
    rfl
  | case2 rest ih | case3 rest ih =>
    obtain ⟨ds, hds, rfl⟩ := Option.map_eq_some_iff.1 h
    simp only [List.mem_cons, not_or] at hslash
    simp [escapeChars, ih hslash.2.2 hds]
  | case4 => cases h
  | case5 c rest _ _ htilde ih =>
    obtain ⟨ds, hds, rfl⟩ := Option.map_eq_some_iff.1 h
    rw [List.mem_cons, not_or] at hslash
    rw [escapeChars, if_neg htilde, if_neg (Ne.symm hslash.1), ← ih hslash.2 hds]

theorem escapeChars_eq_self {cs : List Char} (h : ∀ c ∈ cs, c ≠ '~' ∧ c ≠ '/') :
    escapeChars cs = cs := by
  induction cs with
  | nil => rfl
  | cons c cs ih =>
    obtain ⟨⟨ht, hs⟩, hrest⟩ := List.forall_mem_cons.1 h
    rw [escapeChars, if_neg ht, if_neg hs, ih hrest]

/-! ## Lists of tokens -/

theorem splitSlashes_of_notMem {cs : List Char} (h : '/' ∉ cs) : splitSlashes cs = [cs] := by
  induction cs with
  | nil => rfl
  | cons c cs ih =>
    rw [List.mem_cons, not_or] at h
    rw [splitSlashes, if_neg (Ne.symm h.1), ih h.2]

theorem splitSlashes_append {cs : List Char} (h : '/' ∉ cs) (rest : List Char) :
    splitSlashes (cs ++ '/' :: rest) = cs :: splitSlashes rest := by
  induction cs with
  | nil => simp [splitSlashes]
  | cons c cs ih =>
    rw [List.mem_cons, not_or] at h
    rw [List.cons_append, splitSlashes, if_neg (Ne.symm h.1), ih h.2]

theorem slash_notMem_of_mem_splitSlashes {cs part : List Char} (h : part ∈ splitSlashes cs) :
    '/' ∉ part := by
  fun_induction splitSlashes cs generalizing part with
  | case1 =>
    rw [List.mem_singleton.1 h]
    exact List.not_mem_nil
  | case2 rest ih =>
    rcases List.mem_cons.1 h with rfl | h
    · exact List.not_mem_nil
    · exact ih h
  | case3 c rest hc _ _ =>
    rw [List.mem_singleton.1 h, List.mem_singleton]
    exact Ne.symm hc
  | case4 c rest hc first others hsplit ih =>
    rcases List.mem_cons.1 h with rfl | h
    · rw [List.mem_cons, not_or]
      exact ⟨Ne.symm hc, ih (hsplit ▸ List.mem_cons_self)⟩
    · exact ih (hsplit ▸ List.mem_cons_of_mem _ h)

theorem flatMap_splitSlashes (cs : List Char) :
    ((splitSlashes cs).flatMap fun (part : List Char) => '/' :: part) = '/' :: cs := by
  fun_induction splitSlashes cs with
  | case1 => rfl
  | case2 rest ih => rw [List.flatMap_cons, ih, List.singleton_append]
  | case3 c rest _ hsplit ih =>
    rw [hsplit] at ih
    cases ih
  | case4 c rest _ first others hsplit ih =>
    rw [hsplit, List.flatMap_cons, List.cons_append, List.cons.injEq] at ih
    rw [List.flatMap_cons, List.cons_append, List.cons_append, ih.2]

/-- The characters of the text of a list of tokens. -/
def renderChars (tokens : List String) : List Char :=
  tokens.flatMap fun (t : String) => '/' :: escapeChars t.toList

theorem render_append (ts : List String) (t : String) :
    render (ts ++ [t]) = child (render ts) t := by
  simp [render]

theorem toList_child (p t : String) :
    (child p t).toList = p.toList ++ '/' :: escapeChars t.toList := by
  simp [child, escape]

theorem toList_foldl_child (p : String) (ts : List String) :
    (ts.foldl child p).toList = p.toList ++ renderChars ts := by
  induction ts generalizing p with
  | nil => simp [renderChars]
  | cons t ts ih => simp [ih, toList_child, renderChars]

theorem toList_render (ts : List String) : (render ts).toList = renderChars ts := by
  rw [render, toList_foldl_child]
  rfl

/-- The text of a list of tokens is made of their written forms, each behind a slash. -/
theorem render_eq_join (ts : List String) :
    render ts = String.join (ts.map fun (t : String) => "/" ++ escape t) := by
  have hchild : child = fun (p t : String) => p ++ ("/" ++ escape t) := by
    funext p t
    exact String.append_assoc
  rw [render, hchild, String.join, List.foldl_map]

theorem unescapeAll_splitSlashes (t : String) (ts : List String) :
    unescapeAll (splitSlashes (escapeChars t.toList ++ renderChars ts)) = .ok (t :: ts) := by
  induction ts generalizing t with
  | nil =>
    rw [renderChars, List.flatMap_nil, List.append_nil,
      splitSlashes_of_notMem (slash_notMem_escapeChars _)]
    simp [unescapeAll, Except.map]
  | cons u us ih =>
    have hr : renderChars (u :: us) = '/' :: (escapeChars u.toList ++ renderChars us) := rfl
    rw [hr, splitSlashes_append (slash_notMem_escapeChars _), unescapeAll,
      unescapeChars_escapeChars, ih u]
    simp [Except.map]

/-- **The text of a list of tokens reads back as these tokens.** -/
theorem parse_render (ts : List String) : parse (render ts) = .ok ts := by
  rw [parse, toList_render]
  cases ts with
  | nil => rfl
  | cons t ts =>
    have hr : renderChars (t :: ts) = '/' :: (escapeChars t.toList ++ renderChars ts) := rfl
    rw [hr]
    exact unescapeAll_splitSlashes t ts

/-- Parts without slashes are the written forms of the tokens that they stand for. -/
theorem renderChars_of_unescapeAll {parts : List (List Char)} {ts : List String}
    (hslash : ∀ part ∈ parts, '/' ∉ part) (h : unescapeAll parts = .ok ts) :
    renderChars ts = parts.flatMap fun (part : List Char) => '/' :: part := by
  induction parts generalizing ts with
  | nil =>
    cases h
    rfl
  | cons part parts ih =>
    obtain ⟨hpart, hparts⟩ := List.forall_mem_cons.1 hslash
    rw [unescapeAll] at h
    cases hcs : unescapeChars part with
    | none =>
      rw [hcs] at h
      cases h
    | some cs =>
      cases hus : unescapeAll parts with
      | error cause =>
        rw [hcs, hus] at h
        cases h
      | ok us =>
        rw [hcs, hus] at h
        cases h
        have hrest : renderChars us = parts.flatMap fun (part : List Char) => '/' :: part :=
          ih hparts hus
        rw [eq_escapeChars_of_unescapeChars hpart hcs, List.flatMap_cons, ← hrest, renderChars,
          List.flatMap_cons, String.toList_ofList]
        rfl

/-- **A text is a pointer to the place of some tokens just if it is the text of these tokens.** -/
theorem parse_eq_ok_iff {text : String} {ts : List String} :
    parse text = .ok ts ↔ text = render ts := by
  refine ⟨fun h => ?_, fun h => h ▸ parse_render ts⟩
  rw [← String.toList_inj, toList_render]
  rw [parse] at h
  cases hcs : text.toList with
  | nil =>
    rw [hcs] at h
    cases h
    rfl
  | cons c rest =>
    rw [hcs] at h
    by_cases hc : c = '/'
    · subst hc
      have hparts : unescapeAll (splitSlashes rest) = .ok ts := by simpa using h
      rw [renderChars_of_unescapeAll (fun part => slash_notMem_of_mem_splitSlashes) hparts,
        flatMap_splitSlashes]
    · simp [hc] at h

theorem render_injective {ts us : List String} (h : render ts = render us) : ts = us := by
  have hts := parse_render ts
  rw [h, parse_render] at hts
  cases hts
  rfl

/-! ## Indices -/

theorem isDigit_eq (c : Char) : isDigit c = c.isDigit := rfl

theorem isDigit_of_mem_toString {i : Nat} {c : Char} (h : c ∈ (toString i).toList) :
    c.isDigit = true := by
  rw [Nat.toString_eq_repr, Nat.toList_repr] at h
  exact Nat.isDigit_of_mem_toDigits (by decide) (by decide) h

/-- The pointer to an item is the pointer to a member whose key is the written index. -/
theorem item_eq_child (p : String) (i : Nat) : item p i = child p (toString i) := by
  have hesc : escapeChars (toString i).toList = (toString i).toList := by
    refine escapeChars_eq_self fun c hc => ?_
    have hd := isDigit_of_mem_toString hc
    constructor <;> rintro rfl <;> simp at hd
  rw [child, escape, hesc, String.ofList_toList]
  rfl

theorem head?_toDigits_ne {i : Nat} (h : 0 < i) : (Nat.toDigits 10 i).head? ≠ some '0' := by
  induction i using Nat.strongRecOn with
  | ind i ih =>
    by_cases hi : i < 10
    · rw [Nat.toDigits_of_lt_base hi]
      have hd : ∀ n < 10, 0 < n → [Nat.digitChar n].head? ≠ some '0' := by decide
      exact hd i hi h
    · rw [Nat.toDigits_of_base_le (by decide) (by omega), List.head?_append,
        Option.or_of_isSome (by simp)]
      exact ih (i / 10) (by omega) (by omega)

@[simp] theorem index?_repr (i : Nat) : index? i.repr = some i := by
  have hall : (Nat.toDigits 10 i).all isDigit = true := List.all_eq_true.2 fun c hc => by
    rw [isDigit_eq]
    exact Nat.isDigit_of_mem_toDigits (by decide) (by decide) hc
  have hfold : (Nat.toDigits 10 i).foldl (fun (n : Nat) (d : Char) => n * 10 + (d.toNat - 48)) 0 =
      i := by
    have h := Nat.ofDigitChars_ten_toDigits (n := i)
    rw [Nat.ofDigitChars_eq_foldl] at h
    simpa [Nat.mul_comm] using h
  rcases Nat.eq_zero_or_pos i with rfl | hpos
  · rfl
  · have hhead := head?_toDigits_ne hpos
    rw [index?, Nat.toList_repr]
    -- the leading digit is not a zero, so that only the last branch applies
    generalize Nat.toDigits 10 i = ds at hall hfold hhead
    cases ds with
    | nil =>
      simp at hfold
      omega
    | cons c rest =>
      have hc : c ≠ '0' := by simpa using hhead
      split
      · contradiction
      · simp_all
      · rename_i heq
        cases heq
        rw [if_pos (by simp [hc, hall]), hfold]

theorem index?_toString (i : Nat) : index? (toString i) = some i := index?_repr i

theorem toString_ne_dash (i : Nat) : toString i ≠ "-" := by
  intro h
  have hi := index?_toString i
  rw [h] at hi
  cases hi

theorem exists_digitChar_of_isDigit {c : Char} (h : isDigit c = true) :
    ∃ d < 10, c = Nat.digitChar d := by
  obtain ⟨hlo, hhi⟩ : 48 ≤ c.toNat ∧ c.toNat ≤ 57 := by
    rw [isDigit, Bool.and_eq_true, decide_eq_true_eq, decide_eq_true_eq] at h
    exact ⟨UInt32.le_iff_toNat_le.1 h.1, UInt32.le_iff_toNat_le.1 h.2⟩
  have hchar : ∀ d < 10, Char.ofNat (48 + d) = Nat.digitChar d := by decide
  refine ⟨c.toNat - 48, by omega, ?_⟩
  rw [← hchar _ (by omega), Nat.add_sub_cancel' hlo, Char.ofNat_toNat]

/-- A row of digits without a leading zero is the written form of the number that it spells. -/
theorem toDigits_foldl {cs : List Char} (hdigits : ∀ c ∈ cs, isDigit c = true)
    (hne : cs ≠ []) (hhead : cs.head? ≠ some '0') :
    Nat.toDigits 10 (cs.foldl (fun (n : Nat) (d : Char) => n * 10 + (d.toNat - 48)) 0) = cs := by
  induction cs using List.reverseRecOn with
  | nil => exact absurd rfl hne
  | append_singleton cs c ih =>
    obtain ⟨d, hd, rfl⟩ := exists_digitChar_of_isDigit (hdigits c (by simp))
    have hval : ∀ d < 10, (Nat.digitChar d).toNat - 48 = d := by decide
    rw [List.foldl_append, List.foldl_cons, List.foldl_nil, hval d hd]
    cases cs with
    | nil => simp [Nat.toDigits_of_lt_base hd]
    | cons b bs =>
      have hb : b ≠ '0' := by simpa using hhead
      have hprev := ih (fun c hc => hdigits c (List.mem_append_left _ hc)) (by simp) (by simpa)
      generalize (b :: bs).foldl (fun (n : Nat) (d : Char) => n * 10 + (d.toNat - 48)) 0 = n
        at hprev ⊢
      have hpos : 0 < n := by
        rcases Nat.eq_zero_or_pos n with rfl | hpos
        · cases hprev
          contradiction
        · exact hpos
      rw [Nat.mul_comm, ← Nat.toDigits_append_toDigits (by decide) hpos hd, hprev,
        Nat.toDigits_of_lt_base hd]

theorem eq_toString_of_index? {token : String} {i : Nat} (h : index? token = some i) :
    token = toString i := by
  rw [← String.toList_inj]
  rw [index?] at h
  split at h
  · cases h
  · rename_i hz
    cases h
    rw [hz]
    rfl
  · rename_i c rest _ hcs
    split at h
    · rename_i hcond
      obtain ⟨hc, hall⟩ := Bool.and_eq_true_iff.1 hcond
      rw [List.all_eq_true] at hall
      cases h
      rw [Nat.toString_eq_repr, Nat.toList_repr, hcs,
        toDigits_foldl hall (by simp) (by simpa using hc)]
    · cases h

theorem index?_eq_some_iff {token : String} {i : Nat} :
    index? token = some i ↔ token = toString i :=
  ⟨eq_toString_of_index?, fun h => h ▸ index?_toString i⟩

end Pointer

end BatchRun
