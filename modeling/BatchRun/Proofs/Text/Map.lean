import BatchRun.Text.Map
import Mathlib.Data.List.Nodup

/-!
# Maps of texts by their entries

* `TextMap.eq_iff_mem`: two maps with the same entries are the same map;
* `TextMap.ofList_pairs`: a map is the map of its own entries;
* **`TextMap.ofList_eq_of_perm`**: entries with different names may be put in in any order.
-/

namespace BatchRun

namespace TextMap

variable {m n : TextMap} {entries entries' : List (String × String)}

theorem nodup_keys (m : TextMap) : (m.pairs.map Prod.fst).Nodup := by
  refine List.pairwise_map.2 (m.ascending.imp fun {p q} hlt heq => ?_)
  rw [heq] at hlt
  exact String.lt_irrefl _ hlt

theorem nodup_pairs (m : TextMap) : m.pairs.Nodup :=
  List.Nodup.of_map Prod.fst m.nodup_keys

theorem eq_of_mem_pairs {key v w : String} (hv : (key, v) ∈ m.pairs) (hw : (key, w) ∈ m.pairs) :
    v = w :=
  congrArg Prod.snd (List.inj_on_of_nodup_map m.nodup_keys hv hw rfl)

theorem eq_of_perm (h : m.pairs.Perm n.pairs) : m = n := by
  have hpairs : m.pairs = n.pairs :=
    h.eq_of_pairwise (fun _ _ _ _ hpq hqp => absurd hqp (String.lt_asymm hpq)) m.ascending
      n.ascending
  cases m
  cases n
  cases hpairs
  rfl

/-- **Two maps with the same entries are the same map.** -/
theorem eq_iff_mem : m = n ↔ ∀ p, p ∈ m.pairs ↔ p ∈ n.pairs := by
  constructor
  · rintro rfl p
    exact Iff.rfl
  · intro h
    exact eq_of_perm ((List.perm_ext_iff_of_nodup m.nodup_pairs n.nodup_pairs).2 h)

theorem perm_insertPair {name : String} (value : String) {ps : List (String × String)}
    (h : ∀ p ∈ ps, p.1 ≠ name) : (insertPair name value ps).Perm ((name, value) :: ps) := by
  induction ps with
  | nil => exact .refl _
  | cons p rest ih =>
    obtain ⟨hp, hrest⟩ := List.forall_mem_cons.1 h
    rw [insertPair]
    split_ifs
    · exact .refl _
    · exact ((ih hrest).cons p).trans (.swap ..)

theorem perm_foldl_insert (entries : List (String × String)) (m : TextMap)
    (h : ((m.pairs ++ entries).map Prod.fst).Nodup) :
    (entries.foldl (fun (m : TextMap) (e : String × String) => m.insert e.1 e.2) m).pairs.Perm
      (m.pairs ++ entries) := by
  induction entries generalizing m with
  | nil => simp
  | cons e rest ih =>
    have hnew : ∀ p ∈ m.pairs, p.1 ≠ e.1 := by
      rw [List.map_append, List.nodup_append] at h
      exact fun p hp => h.2.2 _ (List.mem_map_of_mem hp) _ (by simp)
    have hinsert : ((m.insert e.1 e.2).pairs ++ rest).Perm (m.pairs ++ e :: rest) :=
      ((perm_insertPair e.2 hnew).append_right rest).trans List.perm_middle.symm
    rw [List.foldl_cons]
    exact (ih _ ((hinsert.map Prod.fst).nodup_iff.2 h)).trans hinsert

theorem perm_ofList (h : (entries.map Prod.fst).Nodup) : (ofList entries).pairs.Perm entries :=
  perm_foldl_insert entries empty h

/-- **A map is the map of its own entries.** -/
theorem ofList_pairs (m : TextMap) : ofList m.pairs = m :=
  eq_of_perm (perm_ofList m.nodup_keys)

/-- **Entries with different names may be put in in any order.** -/
theorem ofList_eq_of_perm (h : (entries.map Prod.fst).Nodup) (hperm : entries.Perm entries') :
    ofList entries = ofList entries' :=
  eq_of_perm <| ((perm_ofList h).trans hperm).trans
    (perm_ofList ((hperm.map Prod.fst).nodup_iff.1 h)).symm

end TextMap

end BatchRun
