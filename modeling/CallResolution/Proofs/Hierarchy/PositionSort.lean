/-
# Reading by position is a stable sort

To read edges position after position is to sort them by position, if the sort leaves edges at one
position in their order.  Such a sort keeps what there is at each position (`filter_mergeSort`), and
a list that is sorted by position is known when this is known for every position
(`eq_of_filter_eq`).  So the direct supertypes of a type are what its edges, sorted in this way, lead
to (`parents_eq_mergeSort`), and are as many and as often as its edges say (`parents_perm`).
-/

import CallResolution.Proofs.Hierarchy.Edges

namespace CallResolution
namespace Hierarchy

section

variable {α : Type} (key : α → UInt16)

theorem mem_iff_of_filter_eq {xs ys : List α}
    (h : ∀ p, xs.filter (key · = p) = ys.filter (key · = p)) {x : α} : x ∈ xs ↔ x ∈ ys := by
  have hx : x ∈ xs.filter (key · = key x) ↔ x ∈ ys.filter (key · = key x) := by rw [h]
  simpa using hx

/-- A list that is sorted by position is known by what there is at each position. -/
theorem eq_of_filter_eq {xs ys : List α} (hxs : xs.Pairwise fun x y => key x ≤ key y)
    (hys : ys.Pairwise fun x y => key x ≤ key y)
    (h : ∀ p, xs.filter (key · = p) = ys.filter (key · = p)) : xs = ys := by
  induction xs generalizing ys with
  | nil =>
    refine (List.eq_nil_iff_forall_not_mem.2 fun y hy => ?_).symm
    exact List.not_mem_nil ((mem_iff_of_filter_eq key h).2 hy)
  | cons x xs ih =>
    cases ys with
    | nil => exact absurd ((mem_iff_of_filter_eq key h).1 List.mem_cons_self) List.not_mem_nil
    | cons y ys =>
      rw [List.pairwise_cons] at hxs hys
      -- both heads are at the lowest position, and each is the first there
      have hx : ∀ z ∈ x :: xs, key x ≤ key z :=
        List.forall_mem_cons.2 ⟨UInt16.le_refl _, hxs.1⟩
      have hy : ∀ z ∈ y :: ys, key y ≤ key z :=
        List.forall_mem_cons.2 ⟨UInt16.le_refl _, hys.1⟩
      have hkey : key y = key x := UInt16.le_antisymm
        (hy x ((mem_iff_of_filter_eq key h).1 List.mem_cons_self))
        (hx y ((mem_iff_of_filter_eq key h).2 List.mem_cons_self))
      have hhead := h (key x)
      simp only [List.filter_cons, hkey, decide_true, if_true] at hhead
      obtain rfl := (List.cons.inj hhead).1
      have htail : ∀ p, xs.filter (key · = p) = ys.filter (key · = p) := fun p => by
        have hp := h p
        rw [List.filter_cons, List.filter_cons] at hp
        split at hp
        · exact (List.cons.inj hp).2
        · exact hp
      rw [ih hxs.2 hys.2 htail]

theorem le_key_trans (x y z : α) (hxy : decide (key x ≤ key y)) (hyz : decide (key y ≤ key z)) :
    decide (key x ≤ key z) :=
  decide_eq_true (UInt16.le_trans (of_decide_eq_true hxy) (of_decide_eq_true hyz))

theorem le_key_total (x y : α) : decide (key x ≤ key y) || decide (key y ≤ key x) := by
  simpa using UInt16.le_total (key x) (key y)

/-- A sort by position leaves what there is at one position in its order. -/
theorem filter_mergeSort (xs : List α) (p : UInt16) :
    (xs.mergeSort fun x y => key x ≤ key y).filter (key · = p) = xs.filter (key · = p) := by
  have hsame : (xs.filter (key · = p)).Pairwise fun x y => decide (key x ≤ key y) := by
    refine List.pairwise_of_forall_mem_list fun x hx y hy => decide_eq_true ?_
    rw [of_decide_eq_true (List.mem_filter.1 hx).2, of_decide_eq_true (List.mem_filter.1 hy).2]
    exact UInt16.le_refl p
  have hsub := (List.sublist_mergeSort (le_key_trans key) (le_key_total key) hsame
    List.filter_sublist).filter (key · = p)
  rw [List.filter_filter, List.filter_congr fun x _ => Bool.and_self _] at hsub
  exact (hsub.eq_of_length ((List.mergeSort_perm xs _).filter _).length_eq.symm).symm

/-- Reading position after position leaves what there is at one position in its order. -/
theorem filter_flatMap_positions (xs : List α) (p : UInt16) :
    (positions.flatMap fun q => xs.filter (key · = q)).filter (key · = p) =
      xs.filter (key · = p) := by
  have hother : ∀ q, decide (q = p) = false →
      (xs.filter (key · = q)).filter (key · = p) = [] := fun q hq => by
    refine List.filter_eq_nil_iff.2 fun x hx => ?_
    rw [of_decide_eq_true (List.mem_filter.1 hx).2, hq]
    exact Bool.false_ne_true
  have hone : positions.filter (· = p) = [p] := by
    have hnodup : positions.Nodup := positions_pairwise.imp UInt16.ne_of_lt
    rw [List.filter_eq, List.count_eq_one_of_mem hnodup (mem_positions p), List.replicate_one]
  rw [List.filter_flatMap, ← flatMap_filter_eq (· = p) _ hother, hone, List.flatMap_singleton,
    List.filter_filter]
  simp only [Bool.and_self]

/-- To sort by position is to read position after position. -/
theorem mergeSort_eq_flatMap (xs : List α) : (xs.mergeSort fun x y => key x ≤ key y) =
    positions.flatMap fun p => xs.filter (key · = p) := by
  refine eq_of_filter_eq key ?_ ?_ fun p => ?_
  · exact (List.pairwise_mergeSort (le_key_trans key) (le_key_total key) xs).imp of_decide_eq_true
  · have hkey : ∀ p, ∀ x ∈ xs.filter (key · = p), key x = p := fun p x hx =>
      of_decide_eq_true (List.mem_filter.1 hx).2
    rw [List.pairwise_flatMap]
    constructor
    · intro p _
      refine List.pairwise_of_forall_mem_list fun x hx y hy => ?_
      rw [hkey p x hx, hkey p y hy]
      exact UInt16.le_refl p
    · refine positions_pairwise.imp fun {p q} hpq x hx y hy => ?_
      rw [hkey p x hx, hkey q y hy]
      exact UInt16.le_of_lt hpq
  · rw [filter_mergeSort, filter_flatMap_positions]

end

/-- **The direct supertypes of a type are what its edges lead to, sorted by position.** -/
theorem parents_eq_mergeSort (h : Hierarchy) (t : TypeId) : h.parents t =
    ((h.edgesFrom t).mergeSort fun e f => e.position ≤ f.position).map Edge.sup := by
  rw [parents_eq, mergeSort_eq_flatMap Edge.position, List.map_flatMap]

/-- The direct supertypes of a type are as many and as often as its edges say. -/
theorem parents_perm (h : Hierarchy) (t : TypeId) :
    (h.parents t).Perm ((h.edgesFrom t).map Edge.sup) := by
  rw [parents_eq_mergeSort]
  exact (List.mergeSort_perm _ _).map _

end Hierarchy
end CallResolution
