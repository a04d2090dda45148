/-!
# Maps from names to texts

Labels and environment variables are kept as pairs in the order of their names, so that two maps
with the same entries are the same map.

* `TextMap`: pairs with strictly ascending names;
* `TextMap.insert`, **`TextMap.ofList`**: the last value of a name wins.
-/

namespace BatchRun

/-- Pairs whose names ascend. -/
structure TextMap where
  pairs : List (String × String)
  ascending : pairs.Pairwise fun (p q : String × String) => p.1 < q.1
  deriving DecidableEq

namespace TextMap

/-- The map without entries. -/
def empty : TextMap := ⟨[], .nil⟩

instance : Inhabited TextMap := ⟨empty⟩

/-- Puts a pair at its place among ascending pairs, in place of one with the same name. -/
def insertPair (name value : String) : List (String × String) → List (String × String)
  | [] => [(name, value)]
  | p :: rest =>
    if name < p.1 then (name, value) :: p :: rest
    else if p.1 = name then (name, value) :: rest
    else p :: insertPair name value rest

theorem mem_insertPair {name value : String} {ps : List (String × String)}
    {p : String × String} (h : p ∈ insertPair name value ps) : p = (name, value) ∨ p ∈ ps := by
  induction ps with
  | nil => simpa [insertPair] using h
  | cons q rest ih =>
    rw [insertPair] at h
    split at h
    · simpa using h
    · split at h
      · rcases List.mem_cons.1 h with h | h
        · exact .inl h
        · exact .inr (List.mem_cons_of_mem _ h)
      · rcases List.mem_cons.1 h with h | h
        · exact .inr (h ▸ List.mem_cons_self)
        · exact (ih h).imp_right (List.mem_cons_of_mem _)

theorem ascending_insertPair {name value : String} {ps : List (String × String)}
    (h : ps.Pairwise fun (p q : String × String) => p.1 < q.1) :
    (insertPair name value ps).Pairwise fun (p q : String × String) => p.1 < q.1 := by
  induction ps with
  | nil => simp [insertPair]
  | cons q rest ih =>
    obtain ⟨hq, hrest⟩ := List.pairwise_cons.1 h
    rw [insertPair]
    split
    · rename_i hlt
      refine List.pairwise_cons.2 ⟨fun p hp => ?_, h⟩
      rcases List.mem_cons.1 hp with rfl | hp
      · exact hlt
      · exact String.lt_trans hlt (hq p hp)
    · rename_i hlt
      split
      · rename_i heq
        exact List.pairwise_cons.2 ⟨fun p hp => heq ▸ hq p hp, hrest⟩
      · rename_i hne
        refine List.pairwise_cons.2 ⟨fun p hp => ?_, ih hrest⟩
        rcases mem_insertPair hp with rfl | hp
        · exact Std.lt_of_le_of_ne hlt hne
        · exact hq p hp

/-- The map with one more entry. -/
def insert (m : TextMap) (name value : String) : TextMap :=
  ⟨insertPair name value m.pairs, ascending_insertPair m.ascending⟩

/-- The map of a list of entries. -/
def ofList (entries : List (String × String)) : TextMap :=
  entries.foldl (fun (m : TextMap) (e : String × String) => m.insert e.1 e.2) empty

end TextMap

end BatchRun
