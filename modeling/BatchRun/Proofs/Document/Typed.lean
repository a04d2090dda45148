import BatchRun.Document.Typed
import BatchRun.Proofs.Document.Members
import BatchRun.Proofs.Text.Map
import Mathlib.Data.List.Forall2

/-!
# Reading fields out of an object

* `Members.get?_of_perm_append`: a look-up sees neither the order of members nor foreign ones;
* `checkMembers_of_perm`, `fieldOr_of_get?`: an object in which every field has the value it wants;
* `Document.asList_eq_ok_iff`: a sequence is read item by item;
* `Document.asTextMap_ofTextMap`, `asList_map`: **what has been written is read back**.
-/

namespace BatchRun

/-! ## Members among others -/

/-- A look-up sees neither the order of the members nor those that have another key. -/
theorem Members.get?_of_perm_append {key : String} {ms extra ns : Members} (hn : ms.keys.Nodup)
    (hextra : key ∉ extra.keys) (h : ns.Perm (ms ++ extra)) : ns.get? key = ms.get? key := by
  have hmem (value : Document) : (key, value) ∈ ns ↔ (key, value) ∈ ms := by
    rw [h.mem_iff, List.mem_append, or_iff_left]
    exact fun hforeign => hextra (mem_keys_of_mem hforeign)
  cases hns : ns.get? key with
  | some value => exact (get?_of_mem hn ((hmem value).1 (mem_of_get? hns))).symm
  | none =>
    refine (get?_eq_none_iff.2 fun hkey => ?_).symm
    obtain ⟨⟨k, value⟩, hp, rfl⟩ := List.mem_map.1 hkey
    exact get?_eq_none_iff.1 hns (mem_keys_of_mem ((hmem value).2 hp))

/-! ## Fields -/

section Fields

variable {α : Type} {fields : List (String × (Document → Except Mismatch Unit))} {key : String}
  {ms : Members} {d : Document} {value : α} {read : Document → Except Mismatch α}

theorem admits_of_ok (h : read d = .ok value) : admits read d = .ok () := by
  rw [admits, h]
  rfl

theorem fieldCheck?_eq_none (h : key ∉ fields.map Prod.fst) : fieldCheck? key fields = none := by
  induction fields with
  | nil => rfl
  | cons field rest ih =>
    rw [List.map_cons, List.mem_cons, not_or] at h
    rw [fieldCheck?, if_neg (Ne.symm h.1)]
    exact ih h.2

theorem checkMembers_of_forall (h : ∀ p ∈ ms, ∀ check, fieldCheck? p.1 fields = some check →
    check p.2 = .ok ()) : checkMembers fields ms = .ok () := by
  induction ms with
  | nil => rfl
  | cons p rest ih =>
    obtain ⟨hp, hrest⟩ := List.forall_mem_cons.1 h
    rw [checkMembers]
    cases hcheck : fieldCheck? p.1 fields with
    | none => exact ih hrest
    | some check =>
      simp only [hp check hcheck]
      exact ih hrest

/-- The fields stand in the order in which they are written, each with a value that it wants. -/
theorem check_of_forall₂ (hn : ms.keys.Nodup) (h : List.Forall₂
    (fun (field : String × (Document → Except Mismatch Unit)) (p : String × Document) =>
      field.1 = p.1 ∧ field.2 p.2 = .ok ()) fields ms) :
    ∀ p ∈ ms, ∀ check, fieldCheck? p.1 fields = some check → check p.2 = .ok () := by
  induction h with
  | nil => exact fun _ hp => absurd hp List.not_mem_nil
  | @cons field q fields rest hfirst _ ih =>
    obtain ⟨hname, hvalue⟩ := hfirst
    obtain ⟨hq, hrest⟩ := List.nodup_cons.1 hn
    intro p hp check hcheck
    rw [fieldCheck?, hname] at hcheck
    rcases List.mem_cons.1 hp with rfl | hp
    · rw [if_pos rfl] at hcheck
      cases hcheck
      exact hvalue
    · have hne : q.1 ≠ p.1 := fun heq => hq (heq ▸ Members.mem_keys_of_mem hp)
      rw [if_neg hne] at hcheck
      exact ih hrest p hp check hcheck

/-- What is written has no mismatch, in any order and among members that are no fields. -/
theorem checkMembers_of_perm {extra ns : Members} (hn : ms.keys.Nodup)
    (hextra : ∀ name ∈ fields.map Prod.fst, name ∉ extra.keys) (hns : ns.Perm (ms ++ extra))
    (h : List.Forall₂
      (fun (field : String × (Document → Except Mismatch Unit)) (p : String × Document) =>
        field.1 = p.1 ∧ field.2 p.2 = .ok ()) fields ms) : checkMembers fields ns = .ok () := by
  refine checkMembers_of_forall fun p hp check hcheck => ?_
  rcases List.mem_append.1 (hns.mem_iff.1 hp) with hp | hp
  · exact check_of_forall₂ hn h p hp check hcheck
  · have hforeign : p.1 ∉ fields.map Prod.fst :=
      fun hname => hextra p.1 hname (Members.mem_keys_of_mem hp)
    rw [fieldCheck?_eq_none hforeign] at hcheck
    cases hcheck

theorem fieldOr_of_get? (default : α) (h : ms.get? key = some d) (hread : read d = .ok value) :
    fieldOr ms key default read = .ok value := by
  rw [fieldOr, h]
  exact hread

end Fields

/-! ## What has been written -/

namespace Document

theorem asPairs_map (ps : List (String × String)) :
    asPairs (ps.map fun (p : String × String) => (p.1, .string p.2)) = .ok ps := by
  induction ps with
  | nil => rfl
  | cons p rest ih =>
    rw [List.map_cons, asPairs, ih]
    rfl

theorem asTextMap_ofTextMap (m : TextMap) : (ofTextMap m).asTextMap = .ok m := by
  rw [ofTextMap, asTextMap, asPairs_map]
  exact congrArg Except.ok (TextMap.ofList_pairs m)

theorem asUnsigned_int (n : Nat) : asUnsigned (.int n) = .ok n := by
  rw [asUnsigned, if_pos (Int.natCast_nonneg n), Int.toNat_natCast]

theorem asString_eq_ok_iff {d : Document} {s : String} : d.asString = .ok s ↔ d = .string s := by
  constructor
  · cases d <;> rintro ⟨⟩
    rfl
  · rintro rfl
    rfl

/-! ## Lists -/

variable {α : Type} {read : Document → Except Mismatch α} {write : α → Document}

theorem asList_eq_ok_iff {xs : List Document} {values : List α} :
    asList read (.array xs) = .ok values ↔
      List.Forall₂ (fun (x : Document) (a : α) => read x = .ok a) xs values := by
  rw [asList]
  induction xs generalizing values with
  | nil =>
    rw [List.forall₂_nil_left_iff]
    exact ⟨fun h => (Except.ok.inj h).symm, congrArg Except.ok ∘ Eq.symm⟩
  | cons x rest ih =>
    simp only [List.mapM_cons, bind_eq_ok_iff, ih, List.forall₂_cons_left_iff]
    constructor
    · rintro ⟨a, ha, others, hothers, ⟨⟩⟩
      exact ⟨a, others, ha, hothers, rfl⟩
    · rintro ⟨a, others, ha, hothers, rfl⟩
      exact ⟨a, ha, others, hothers, rfl⟩

theorem asList_map (h : ∀ a, read (write a) = .ok a) (xs : List α) :
    asList read (.array (xs.map write)) = .ok xs := by
  rw [asList_eq_ok_iff, List.forall₂_map_left_iff, List.forall₂_same]
  exact fun a _ => h a

theorem asList_ofStrings (xs : List String) : asList asString (ofStrings xs) = .ok xs :=
  asList_map (fun (s : String) => (rfl : asString (.string s) = .ok s)) xs

end Document

end BatchRun
