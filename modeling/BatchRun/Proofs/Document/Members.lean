import BatchRun.Document.Place
import Mathlib.Data.List.Dedup
import Mathlib.Data.List.Forall2

/-!
# Keys and look-ups of members

* `Members.keys`, `Members.get?_eq_none_iff`, `Members.get?_of_mem`: with distinct keys a look-up
  finds exactly the members that are there;
* `Members.get?_perm`: **a look-up does not see the order of members**;
* `Members.ofList_of_nodup`, `Members.length_ofList_iff`: members put together, which all stay just
  if their keys are distinct;
* `Members.swapErase_perm`: removal takes out one member and permutes the others;
* `Members.update?_eq`: a change of a value in place is an overwriting insertion.
-/

namespace BatchRun

theorem bind_eq_ok_iff {α β ε : Type} {first : Except ε α} {next : α → Except ε β} {b : β} :
    first >>= next = .ok b ↔ ∃ a, first = .ok a ∧ next a = .ok b := by
  cases first with
  | error e => exact ⟨nofun, nofun⟩
  | ok a =>
    constructor
    · exact fun h => ⟨a, rfl, h⟩
    · rintro ⟨_, ⟨⟩, h⟩
      exact h

theorem bind_eq_error_iff {α β ε : Type} {first : Except ε α} {next : α → Except ε β} {e : ε} :
    first >>= next = .error e ↔ first = .error e ∨ ∃ a, first = .ok a ∧ next a = .error e := by
  cases first with
  | error e' => simp [bind, Except.bind]
  | ok a => simp [bind, Except.bind]

@[simp] theorem map_eq_error_iff {α β ε : Type} {first : Except ε α} {f : α → β} {e : ε} :
    first.map f = .error e ↔ first = .error e := by
  cases first <;> simp [Except.map]

theorem exists_forall₂_iff {α β : Type} {r : α → β → Prop} {xs : List α} :
    (∃ ys, List.Forall₂ r xs ys) ↔ ∀ x ∈ xs, ∃ y, r x y := by
  induction xs with
  | nil => exact ⟨fun _ => List.forall_mem_nil _, fun _ => ⟨[], .nil⟩⟩
  | cons x xs ih =>
    rw [List.forall_mem_cons, ← ih]
    constructor
    · rintro ⟨zs, hzs⟩
      obtain ⟨y, ys, hy, hys, _⟩ := List.forall₂_cons_left_iff.1 hzs
      exact ⟨⟨y, hy⟩, ys, hys⟩
    · rintro ⟨⟨y, hy⟩, ys, hys⟩
      exact ⟨y :: ys, .cons hy hys⟩

theorem exists_getElem?_of_forall₂ {α β : Type} {r : α → β → Prop} {xs : List α} {ys : List β}
    {x : α} (h : List.Forall₂ r xs ys) (hx : x ∈ xs) : ∃ (i : Nat) (y : β), ys[i]? = some y ∧ r x y := by
  obtain ⟨hlength, hr⟩ := List.forall₂_iff_get.1 h
  obtain ⟨i, hi, rfl⟩ := List.getElem_of_mem hx
  have hi' : i < ys.length := hlength ▸ hi
  exact ⟨i, ys[i], List.getElem?_eq_getElem hi', hr i hi hi'⟩

namespace Members

variable {key other : String} {value : Document} {ms ns : Members}

/-- The keys of the members, in order. -/
def keys (ms : Members) : List String := ms.map Prod.fst

@[simp] theorem keys_nil : keys [] = [] := rfl

@[simp] theorem keys_cons (p : String × Document) (ms : Members) :
    keys (p :: ms) = p.1 :: keys ms := rfl

@[simp] theorem get?_cons (key k : String) (v : Document) (ms : Members) :
    get? key ((k, v) :: ms) = if k = key then some v else get? key ms := rfl

theorem mem_keys_of_mem {p : String × Document} (h : p ∈ ms) : p.1 ∈ ms.keys :=
  List.mem_map_of_mem h

/-! ## Look-ups -/

theorem get?_eq_none_iff : ms.get? key = none ↔ key ∉ ms.keys := by
  induction ms with
  | nil => simp
  | cons p rest ih =>
    obtain ⟨k, v⟩ := p
    by_cases hk : k = key
    · simp [hk]
    · simp [hk, ih, Ne.symm hk]

theorem mem_of_get? (h : ms.get? key = some value) : (key, value) ∈ ms := by
  induction ms with
  | nil => simp at h
  | cons p rest ih =>
    obtain ⟨k, v⟩ := p
    rw [get?_cons] at h
    split at h
    · rename_i hk
      cases h
      simp [hk]
    · exact List.mem_cons_of_mem _ (ih h)

theorem mem_keys_of_get? (h : ms.get? key = some value) : key ∈ ms.keys :=
  mem_keys_of_mem (mem_of_get? h)

theorem get?_of_mem (hn : ms.keys.Nodup) (h : (key, value) ∈ ms) : ms.get? key = some value := by
  induction ms with
  | nil => simp at h
  | cons p rest ih =>
    obtain ⟨k, v⟩ := p
    rw [keys_cons, List.nodup_cons] at hn
    rcases List.mem_cons.1 h with h | h
    · cases h
      simp
    · have hkey : key ∈ keys rest := mem_keys_of_mem h
      have hk : k ≠ key := fun e => hn.1 (show k ∈ keys rest from e ▸ hkey)
      rw [get?_cons, if_neg hk]
      exact ih hn.2 h

theorem get?_eq_some_iff (hn : ms.keys.Nodup) : ms.get? key = some value ↔ (key, value) ∈ ms :=
  ⟨mem_of_get?, get?_of_mem hn⟩

/-- **A look-up does not see the order of members.** -/
theorem get?_perm (hn : ms.keys.Nodup) (h : ms.Perm ns) (key : String) :
    ms.get? key = ns.get? key := by
  have hn' : ns.keys.Nodup := (h.map Prod.fst).nodup_iff.1 hn
  ext value
  rw [get?_eq_some_iff hn, get?_eq_some_iff hn', h.mem_iff]

/-! ## Insertion -/

theorem keys_insert_of_mem (value : Document) (h : key ∈ ms.keys) :
    (ms.insert key value).keys = ms.keys := by
  induction ms with
  | nil => simp at h
  | cons p rest ih =>
    obtain ⟨k, v⟩ := p
    by_cases hk : k = key
    · simp [insert, hk]
    · have hr : key ∈ keys rest := by simpa [Ne.symm hk] using h
      simp [insert, hk, ih hr]

theorem insert_of_not_mem (value : Document) (h : key ∉ ms.keys) :
    ms.insert key value = ms ++ [(key, value)] := by
  induction ms with
  | nil => rfl
  | cons p rest ih =>
    obtain ⟨k, v⟩ := p
    rw [keys_cons, List.mem_cons, not_or] at h
    simp [insert, Ne.symm h.1, ih h.2]

theorem nodup_insert (key : String) (value : Document) (hn : ms.keys.Nodup) :
    (ms.insert key value).keys.Nodup := by
  by_cases h : key ∈ ms.keys
  · rw [keys_insert_of_mem value h]
    exact hn
  · rw [insert_of_not_mem value h, keys, List.map_append]
    refine List.nodup_append.2 ⟨hn, by simp, fun a ha b hb e => h ?_⟩
    have hb' : b = key := by simpa using hb
    rw [← hb', ← e]
    exact ha

theorem insert_insert (key : String) (v w : Document) (ms : Members) :
    (ms.insert key v).insert key w = ms.insert key w := by
  induction ms with
  | nil => simp [insert]
  | cons p rest ih =>
    obtain ⟨k, u⟩ := p
    by_cases hk : k = key <;> simp [insert, hk, ih]

theorem insert_get? (h : ms.get? key = some value) : ms.insert key value = ms := by
  induction ms with
  | nil => simp at h
  | cons p rest ih =>
    obtain ⟨k, v⟩ := p
    by_cases hk : k = key
    · simp_all [insert]
    · have hr : get? key rest = some value := by simpa [hk] using h
      simp [insert, hk, ih hr]

theorem mem_keys_insert : other ∈ (ms.insert key value).keys ↔ other = key ∨ other ∈ ms.keys := by
  by_cases h : key ∈ ms.keys
  · rw [keys_insert_of_mem value h, iff_or_self]
    rintro rfl
    exact h
  · rw [insert_of_not_mem value h, keys, List.map_append, List.mem_append, or_comm]
    simp [keys]

/-! ## Insertion of many members -/

/-- Puts members to those that are there, one after the other. -/
def insertAll (done ms : Members) : Members :=
  ms.foldl (fun (ms : Members) (p : String × Document) => ms.insert p.1 p.2) done

theorem insertAll_cons (done : Members) (p : String × Document) (ms : Members) :
    insertAll done (p :: ms) = insertAll (done.insert p.1 p.2) ms := rfl

theorem nodup_insertAll (h : ns.keys.Nodup) (ms : Members) : (insertAll ns ms).keys.Nodup := by
  induction ms generalizing ns with
  | nil => exact h
  | cons p ms ih => exact ih (nodup_insert p.1 p.2 h)

theorem mem_keys_insertAll : key ∈ (insertAll ns ms).keys ↔ key ∈ ns.keys ∨ key ∈ ms.keys := by
  induction ms generalizing ns with
  | nil => simp [insertAll]
  | cons p ms ih =>
    rw [insertAll_cons, ih, mem_keys_insert, keys_cons, List.mem_cons, or_assoc, or_left_comm]

theorem insertAll_of_nodup (h : (keys (ns ++ ms)).Nodup) : insertAll ns ms = ns ++ ms := by
  induction ms generalizing ns with
  | nil => exact (List.append_nil _).symm
  | cons p ms ih =>
    have hnew : p.1 ∉ keys ns := by
      rw [keys, List.map_append, List.map_cons, List.nodup_append] at h
      exact fun hmem => h.2.2 p.1 hmem p.1 List.mem_cons_self rfl
    rw [List.append_cons] at h ⊢
    rw [insertAll_cons, insert_of_not_mem _ hnew]
    exact ih h

theorem ofList_of_nodup (h : ms.keys.Nodup) : ofList ms = ms := insertAll_of_nodup h

theorem length_ofList (ms : Members) : (ofList ms).length = ms.keys.dedup.length := by
  have hempty : keys [] |>.Nodup := List.nodup_nil
  have hn : (ofList ms).keys.Nodup := nodup_insertAll hempty ms
  have hperm : (ofList ms).keys.Perm ms.keys.dedup := by
    refine (List.perm_ext_iff_of_nodup hn (List.nodup_dedup _)).2 fun key => ?_
    rw [List.mem_dedup]
    exact mem_keys_insertAll.trans (or_iff_right List.not_mem_nil)
  rw [← hperm.length_eq, keys, List.length_map]

theorem length_ofList_iff : (ofList ms).length = ms.length ↔ ms.keys.Nodup := by
  constructor
  · intro h
    have hlength : ms.keys.dedup.length = ms.keys.length := by
      rw [← length_ofList, h, keys, List.length_map]
    exact List.dedup_eq_self.1 ((List.dedup_sublist _).eq_of_length hlength)
  · intro h
    rw [ofList_of_nodup h]

/-! ## Change in place -/

theorem update?_eq (key : String) (f : Document → Option Document) (ms : Members) :
    ms.update? key f = ((ms.get? key).bind f).map fun (w : Document) => ms.insert key w := by
  induction ms with
  | nil => rfl
  | cons p rest ih =>
    obtain ⟨k, v⟩ := p
    by_cases hk : k = key
    · simp [update?, insert, hk]
    · simp [update?, insert, hk, ih, Function.comp_def]

/-! ## Removal -/

theorem swapErase_perm (h : ms.get? key = some value) :
    ms.Perm ((key, value) :: ms.swapErase key) := by
  induction ms with
  | nil => simp at h
  | cons p rest ih =>
    obtain ⟨k, v⟩ := p
    by_cases hk : k = key
    · rw [get?_cons, if_pos hk] at h
      cases h
      rw [swapErase, if_pos hk, hk]
      refine List.Perm.cons _ ?_
      cases hl : rest.getLast? with
      | none => simp [List.getLast?_eq_none_iff.1 hl]
      | some last =>
        -- the last member comes before all that stood before it
        obtain ⟨before, rfl⟩ := List.getLast?_eq_some_iff.1 hl
        simp
    · rw [get?_cons, if_neg hk] at h
      rw [swapErase, if_neg hk]
      exact ((ih h).cons _).trans (List.Perm.swap _ _ _)

theorem nodup_cons_swapErase (hn : ms.keys.Nodup) (h : ms.get? key = some value) :
    (key :: (ms.swapErase key).keys).Nodup :=
  ((swapErase_perm h).map Prod.fst).nodup_iff.1 hn

theorem nodup_swapErase (hn : ms.keys.Nodup) (h : ms.get? key = some value) :
    (ms.swapErase key).keys.Nodup := (List.nodup_cons.1 (nodup_cons_swapErase hn h)).2

theorem get?_swapErase_self (hn : ms.keys.Nodup) (h : ms.get? key = some value) :
    (ms.swapErase key).get? key = none :=
  get?_eq_none_iff.2 (List.nodup_cons.1 (nodup_cons_swapErase hn h)).1

theorem get?_swapErase_of_ne (hn : ms.keys.Nodup) (h : ms.get? key = some value)
    (hne : other ≠ key) : (ms.swapErase key).get? other = ms.get? other := by
  rw [get?_perm hn (swapErase_perm h) other, get?_cons, if_neg (Ne.symm hne)]

end Members

end BatchRun
