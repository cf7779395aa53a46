/-
# First elements by key

`distinctOn key` keeps of a list, for every key, the first element that has it.  What
it keeps is in the order of the list (`distinctOn_sublist`), no key is kept twice
(`nodup_map_distinctOn`), and none is lost (`exists_mem_distinctOn`).
-/

namespace CallResolution

variable {α κ : Type} [DecidableEq κ]

/-- The elements of a list without those whose key an earlier one has. -/
def distinctOn (key : α → κ) : List α → List α
  | [] => []
  | x :: xs => x :: (distinctOn key xs).filter (key · ≠ key x)

theorem distinctOn_sublist (key : α → κ) (xs : List α) : (distinctOn key xs).Sublist xs := by
  induction xs with
  | nil => exact .slnil
  | cons x xs ih => exact .cons_cons x (List.filter_sublist.trans ih)

theorem nodup_map_distinctOn (key : α → κ) (xs : List α) :
    ((distinctOn key xs).map key).Nodup := by
  induction xs with
  | nil => exact .nil
  | cons x xs ih =>
    rw [distinctOn, List.map_cons, List.nodup_cons]
    refine ⟨fun h => ?_, ih.sublist (List.filter_sublist.map key)⟩
    obtain ⟨y, hy, hxy⟩ := List.mem_map.1 h
    simp [hxy] at hy

theorem exists_mem_distinctOn (key : α → κ) {xs : List α} {x : α} (hx : x ∈ xs) :
    ∃ y ∈ distinctOn key xs, key y = key x := by
  induction xs with
  | nil => cases hx
  | cons z xs ih =>
    rw [distinctOn]
    by_cases hz : key x = key z
    · exact ⟨z, List.mem_cons_self, hz.symm⟩
    · obtain ⟨y, hy, hyx⟩ := ih ((List.mem_cons.1 hx).resolve_left fun h => hz (h ▸ rfl))
      exact ⟨y, List.mem_cons_of_mem _ (List.mem_filter.2 ⟨hy, by simp [hyx, hz]⟩), hyx⟩

end CallResolution
