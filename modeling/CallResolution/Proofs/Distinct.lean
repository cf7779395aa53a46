/-
# First elements by place

`firsts key` says by places what `distinctOn key` computes (`distinctOn_eq_firsts`): of
a list it keeps the elements before which no element has the same key.
-/

import CallResolution.Distinct
import Mathlib.Data.List.Basic
import Mathlib.Data.List.Induction

namespace CallResolution

variable {α κ : Type} [DecidableEq κ]

/-- The elements of a list before which no element has the same key. -/
def firsts (key : α → κ) (xs : List α) : List α :=
  (xs.zipIdx.filter fun p => (xs.take p.2).all (key · ≠ key p.1)).map Prod.fst

theorem firsts_append_singleton (key : α → κ) (xs : List α) (x : α) :
    firsts key (xs ++ [x]) =
      firsts key xs ++ if xs.all (key · ≠ key x) then [x] else [] := by
  have htake : ∀ p ∈ xs.zipIdx, (xs ++ [x]).take p.2 = xs.take p.2 := fun p hp => by
    have := (List.mem_zipIdx hp).2.1
    exact List.take_append_of_le_length (by omega)
  rw [firsts, List.zipIdx_append, List.filter_append, List.map_append, firsts]
  congr 1
  · congr 1
    exact List.filter_congr fun p hp => by rw [htake p hp]
  · rw [List.zipIdx_singleton, Nat.zero_add, List.filter_cons, List.filter_nil,
      List.take_left]
    split <;> rfl

theorem distinctOn_append_singleton (key : α → κ) (xs : List α) (x : α) :
    distinctOn key (xs ++ [x]) =
      distinctOn key xs ++ if xs.all (key · ≠ key x) then [x] else [] := by
  induction xs with
  | nil => rfl
  | cons z xs ih =>
    rw [List.cons_append, distinctOn, distinctOn, ih, List.filter_append, List.cons_append,
      List.all_cons]
    congr 2
    by_cases hz : key z = key x
    · split <;> simp [hz]
    · split
      · next h =>
        have hnew : ∀ y ∈ xs, key y ≠ key x := by simpa using h
        simpa [hz, Ne.symm hz] using hnew
      · next h =>
        have hold : ∃ y ∈ xs, key y = key x := by simpa using h
        simpa using fun _ => hold

theorem distinctOn_eq_firsts (key : α → κ) (xs : List α) : distinctOn key xs = firsts key xs := by
  induction xs using List.reverseRecOn with
  | nil => rfl
  | append_singleton xs x ih => rw [distinctOn_append_singleton, firsts_append_singleton, ih]

/-- Only which elements have the same key matters. -/
theorem distinctOn_congr {κ' : Type} [DecidableEq κ'] {key : α → κ} {key' : α → κ'} {xs : List α}
    (h : ∀ x ∈ xs, ∀ y ∈ xs, key x = key y ↔ key' x = key' y) :
    distinctOn key xs = distinctOn key' xs := by
  induction xs with
  | nil => rfl
  | cons z xs ih =>
    rw [distinctOn, distinctOn, ih fun x hx y hy => h x (.tail z hx) y (.tail z hy)]
    congr 1
    refine List.filter_congr fun y hy => ?_
    have hyxs := (distinctOn_sublist key' xs).mem hy
    simp only [ne_eq, decide_not, h y (.tail z hyxs) z (.head xs)]

theorem mem_distinctOn_id [DecidableEq α] {xs : List α} {x : α} :
    x ∈ distinctOn id xs ↔ x ∈ xs := by
  constructor
  · exact fun h => (distinctOn_sublist id xs).mem h
  · intro h
    obtain ⟨y, hy, rfl⟩ := exists_mem_distinctOn id h
    exact hy

theorem distinctOn_id_append_singleton [DecidableEq α] (xs : List α) (x : α) :
    distinctOn id (xs ++ [x]) = distinctOn id xs ++ if x ∈ xs then [] else [x] := by
  rw [distinctOn_append_singleton]
  congr 1
  by_cases hx : x ∈ xs
  · have hold : ¬xs.all (id · ≠ id x) := by simpa using hx
    rw [if_neg hold, if_pos hx]
  · have hnew : xs.all (id · ≠ id x) := by
      simpa using fun y hy (hyx : y = x) => hx (hyx ▸ hy)
    rw [if_pos hnew, if_neg hx]

/-- An element kept of the second of two lists has a key that nothing in the first has. -/
theorem key_ne_of_mem_distinctOn_append {key : α → κ} {xs ys : List α} {x : α}
    (hx : x ∈ distinctOn key (xs ++ ys)) (hxs : x ∉ xs) : ∀ y ∈ xs, key y ≠ key x := by
  induction xs with
  | nil => exact fun y hy => absurd hy List.not_mem_nil
  | cons z xs ih =>
    rw [List.mem_cons, not_or] at hxs
    rw [List.cons_append, distinctOn] at hx
    obtain ⟨hx, hz⟩ := List.mem_filter.1 ((List.mem_cons.1 hx).resolve_left hxs.1)
    exact List.forall_mem_cons.2 ⟨fun hzx => of_decide_eq_true hz hzx.symm, ih hx hxs.2⟩

/-- Nothing is dropped where all keys differ. -/
theorem distinctOn_of_nodup {key : α → κ} {xs : List α} (h : (xs.map key).Nodup) :
    distinctOn key xs = xs := by
  induction xs with
  | nil => rfl
  | cons z xs ih =>
    rw [List.map_cons, List.nodup_cons] at h
    rw [distinctOn, ih h.2, List.filter_eq_self.2]
    intro y hy
    have hne : key y ≠ key z := fun hyz => h.1 (hyz ▸ List.mem_map_of_mem hy)
    simpa using hne

/-- What is kept stands in the order of first places. -/
theorem pairwise_idxOf_distinctOn [DecidableEq α] (xs : List α) :
    (distinctOn id xs).Pairwise fun x y => xs.idxOf x < xs.idxOf y := by
  induction xs with
  | nil => exact .nil
  | cons z xs ih =>
    have hne : ∀ y ∈ (distinctOn id xs).filter (id · ≠ id z), z ≠ y := fun y hy h =>
      of_decide_eq_true (List.mem_filter.1 hy).2 h.symm
    rw [distinctOn, List.pairwise_cons]
    refine ⟨fun y hy => ?_, (ih.filter _).imp_of_mem fun {x y} hx hy hxy => ?_⟩
    · rw [List.idxOf_cons_self, List.idxOf_cons_ne _ (hne y hy)]
      exact Nat.succ_pos _
    · rw [List.idxOf_cons_ne _ (hne x hx), List.idxOf_cons_ne _ (hne y hy)]
      exact Nat.succ_lt_succ hxy

end CallResolution
