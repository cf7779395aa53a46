/-
# The edges of one type

`edgesFrom t` are the edges that lead away from `t`, newest first, and all that the
rest of the hierarchy has no say in: the direct supertypes of `t` are these edges
read position after position (`parents_eq`).  Two hierarchies that agree on the
edges of every type (`SameEdges`) may differ in the order in which types were
declared and in the numbers of their nodes, but agree on all direct supertypes
(`SameEdges.parents`) and on which edges there are (`SameEdges.trail_perm`).

A type whose edges are those of one declaration has the declared supertypes, read by the
position of their places (`parents_eq_filterMap_readingOrder`).  This is their own order,
unless there are more of them than positions (`parents_eq_of_edgesFrom`).
-/

import CallResolution.Hierarchy.Basic
import Mathlib.Data.List.Induction
import Mathlib.Data.List.Sort

namespace CallResolution
namespace Hierarchy

/-- Every position, in ascending order. -/
def positions : List UInt16 := (List.range UInt16.size).map UInt16.ofNat

theorem mem_positions (p : UInt16) : p ∈ positions :=
  List.mem_map.2 ⟨p.toNat, List.mem_range.2 p.toNat_lt_size, UInt16.ofNat_toNat⟩

theorem positions_pairwise : positions.Pairwise (· < ·) := by
  rw [positions, List.pairwise_map]
  refine List.pairwise_lt_range.imp_of_mem fun {a b} ha hb hab => ?_
  rw [List.mem_range] at ha hb
  rwa [UInt16.ofNat_lt_iff_lt ha hb]

/-! ## The values of a map, key after key -/

section

variable {α : Type}

/-- Elements of which nothing comes may be left out. -/
theorem flatMap_filter_eq {β : Type} (p : β → Bool) (f : β → List α)
    (hf : ∀ x, p x = false → f x = []) (xs : List β) : (xs.filter p).flatMap f = xs.flatMap f := by
  induction xs with
  | nil => rfl
  | cons x xs ih =>
    cases hx : p x with
    | true => simp [hx, ih]
    | false => simp [hx, ih, hf x hx]

open Std.DTreeMap.Internal in
theorem values_eq_map_toList (m : Std.TreeMap UInt16 (List α)) :
    m.values = m.toList.map Prod.snd := by
  have h : m.toList = m.inner.inner.toListModel.map fun p => (p.1, p.2) :=
    Impl.Const.toList_eq_toListModel_map
  rw [h, List.map_map]
  exact Impl.values_eq_map_snd

theorem keys_eq_filter (m : Std.TreeMap UInt16 (List α)) : m.keys = positions.filter m.contains := by
  have hkeys : m.keys.Pairwise (· < ·) := m.ordered_keys.imp fun h => by
    rwa [Std.compare_eq_lt] at h
  refine List.Perm.eq_of_pairwise (fun a b _ _ hab hba => ?_) hkeys (positions_pairwise.filter _) ?_
  · exact absurd (UInt16.lt_trans hab hba) (UInt16.lt_irrefl a)
  · refine (List.perm_ext_iff_of_nodup (hkeys.imp UInt16.ne_of_lt)
      ((positions_pairwise.filter _).imp UInt16.ne_of_lt)).2 fun p => ?_
    simp [mem_positions]

/-- The lists of a map one after the other are read position after position. -/
theorem flatten_values (m : Std.TreeMap UInt16 (List α)) :
    m.values.flatten = positions.flatMap (m.getD · []) := by
  have hget : ∀ p ∈ m.toList, p.2 = m.getD p.1 [] := fun p hp => by
    rw [Std.TreeMap.getD_eq_getD_getElem?, Std.TreeMap.mem_toList_iff_getElem?_eq_some.1 hp]
    rfl
  calc m.values.flatten
      = m.toList.flatMap fun p => m.getD p.1 [] := by
        rw [values_eq_map_toList, ← List.flatMap_def]
        exact List.flatMap_congr hget
    _ = m.keys.flatMap (m.getD · []) := by
        rw [← Std.TreeMap.map_fst_toList_eq_keys, List.flatMap_map]
    _ = positions.flatMap (m.getD · []) := by
        rw [keys_eq_filter]
        exact flatMap_filter_eq _ _ (fun p hp => Std.TreeMap.getD_eq_fallback_of_contains_eq_false hp) _

end

/-! ## Direct supertypes -/

/-- The edges that lead away from `t`, newest first. -/
def edgesFrom (h : Hierarchy) (t : TypeId) : List Edge := h.trail.filter (·.sub = t)

/-- The direct supertypes of `t` at each position in turn. -/
theorem parents_eq (h : Hierarchy) (t : TypeId) :
    h.parents t =
      positions.flatMap fun p => ((h.edgesFrom t).filter (·.position = p)).map Edge.sup := by
  rw [parents, flatten_values]
  refine List.flatMap_congr fun p _ => ?_
  simp [h.outgoing_eq, edgesFrom, List.filter_filter, and_comm]

/-- The direct supertypes of a type are a matter of the edges from it. -/
theorem parents_congr {h k : Hierarchy} {t : TypeId} (hedges : h.edgesFrom t = k.edgesFrom t) :
    h.parents t = k.parents t := by
  rw [parents_eq, parents_eq, hedges]

theorem mem_edges {h : Hierarchy} {a b : TypeId} :
    (a, b) ∈ h.edges ↔ ∃ e ∈ h.trail, e.sub = a ∧ e.sup = b := by
  simp [edges]

theorem mem_edges_iff_edgesFrom {h : Hierarchy} {a b : TypeId} :
    (a, b) ∈ h.edges ↔ ∃ e ∈ h.edgesFrom a, e.sup = b := by
  simp [mem_edges, edgesFrom, and_assoc]

/-- A direct supertype is what an edge leads to. -/
theorem mem_parents {h : Hierarchy} {a b : TypeId} : b ∈ h.parents a ↔ (a, b) ∈ h.edges := by
  rw [parents_eq, mem_edges_iff_edgesFrom, List.mem_flatMap]
  constructor
  · rintro ⟨p, -, hb⟩
    obtain ⟨e, he, rfl⟩ := List.mem_map.1 hb
    exact ⟨e, (List.mem_filter.1 he).1, rfl⟩
  · rintro ⟨e, he, rfl⟩
    exact ⟨e.position, mem_positions _, List.mem_map.2 ⟨e, by simp [he], rfl⟩⟩

/-! ## The same edges for every type -/

/-- Both hierarchies have the same edges from each type, recorded in the same order. -/
def SameEdges (h k : Hierarchy) : Prop := ∀ t, h.edgesFrom t = k.edgesFrom t

namespace SameEdges

variable {h k l : Hierarchy}

theorem refl (h : Hierarchy) : h.SameEdges h := fun _ => rfl

theorem symm (e : h.SameEdges k) : k.SameEdges h := fun t => (e t).symm

theorem trans (e : h.SameEdges k) (f : k.SameEdges l) : h.SameEdges l :=
  fun t => (e t).trans (f t)

theorem parents (e : h.SameEdges k) : h.parents = k.parents :=
  funext fun t => parents_congr (e t)

/-- The edges as a whole are the same but for their order. -/
theorem trail_perm (e : h.SameEdges k) : h.trail.Perm k.trail := by
  rw [List.perm_iff_count]
  intro x
  have count_eq : ∀ m : Hierarchy, m.trail.count x = (m.edgesFrom x.sub).count x := fun m => by
    rw [edgesFrom, List.count_filter (by simp)]
  rw [count_eq, count_eq, e]

theorem mem_edges_iff (e : h.SameEdges k) {a b : TypeId} :
    (a, b) ∈ h.edges ↔ (a, b) ∈ k.edges := by
  simp only [mem_edges, e.trail_perm.mem_iff]

end SameEdges

/-! ## What the operations do to the edges of a type -/

/-- The edges of one declaration, newest first. -/
def newEdges (sub : TypeId) (sups : List TypeId) : List Edge :=
  (sups.zipIdx.map fun p => ⟨sub, p.1, .ofNat p.2⟩).reverse

@[simp]
theorem trail_mention (h : Hierarchy) (t : TypeId) : (h.mention t).trail = h.trail := by
  unfold mention; split <;> rfl

@[simp]
theorem trail_addEdge (h : Hierarchy) (e : Edge) : (h.addEdge e).trail = e :: h.trail := rfl

theorem trail_foldl_addEdge (sub : TypeId) (sups : List (TypeId × Nat)) (h : Hierarchy) :
    (sups.foldl (fun h (sup, i) => (h.mention sup).addEdge ⟨sub, sup, .ofNat i⟩) h).trail =
      (sups.map fun p => ⟨sub, p.1, .ofNat p.2⟩).reverse ++ h.trail := by
  induction sups generalizing h with
  | nil => rfl
  | cons p sups ih => simp [ih]

theorem sub_of_mem_newEdges {sub : TypeId} {sups : List TypeId} {e : Edge}
    (he : e ∈ newEdges sub sups) : e.sub = sub := by
  obtain ⟨p, -, rfl⟩ := List.mem_map.1 (List.mem_reverse.1 he)
  rfl

theorem trail_addParents (h : Hierarchy) (sub : TypeId) (sups : List TypeId) :
    (h.addParents sub sups).trail = newEdges sub sups ++ h.trail := by
  rw [addParents, trail_foldl_addEdge, trail_mention, newEdges]

/-- A declaration adds its own edges and leaves those of other types alone. -/
theorem edgesFrom_addParents (h : Hierarchy) (sub : TypeId) (sups : List TypeId) (t : TypeId) :
    (h.addParents sub sups).edgesFrom t =
      if sub = t then newEdges sub sups ++ h.edgesFrom t else h.edgesFrom t := by
  rw [edgesFrom, trail_addParents, List.filter_append, ← edgesFrom]
  split
  · next ht =>
    rw [List.filter_eq_self.2 fun e he => by simp [sub_of_mem_newEdges he, ht]]
  · next ht =>
    rw [List.filter_eq_nil_iff.2 fun e he => by simp [sub_of_mem_newEdges he, ht], List.nil_append]

/-- The same declaration keeps the same edges the same. -/
theorem SameEdges.addParents {h k : Hierarchy} (e : h.SameEdges k) (sub : TypeId)
    (sups : List TypeId) : (h.addParents sub sups).SameEdges (k.addParents sub sups) := by
  intro t
  rw [edgesFrom_addParents, edgesFrom_addParents, e]

/-! ## The supertypes of one declaration -/

/-- A declaration leads to each of the supertypes that it names. -/
theorem exists_mem_newEdges {sub : TypeId} {sups : List TypeId} {t : TypeId} :
    (∃ e ∈ newEdges sub sups, e.sup = t) ↔ t ∈ sups := by
  have hmap : (newEdges sub sups).map Edge.sup = sups.reverse := by
    rw [newEdges, List.map_reverse, List.map_map]
    show (sups.zipIdx.map Prod.fst).reverse = _
    rw [List.zipIdx_map_fst]
  rw [← List.mem_map, hmap, List.mem_reverse]

/-- The places below `n` that have position `p`, the last one first. -/
def placesAt (n : Nat) (p : UInt16) : List Nat := ((List.range n).filter (.ofNat · = p)).reverse

theorem mem_placesAt {n i : Nat} {p : UInt16} : i ∈ placesAt n p ↔ i < n ∧ .ofNat i = p := by
  simp [placesAt]

theorem placesAt_succ (n : Nat) (p : UInt16) :
    placesAt (n + 1) p = if .ofNat n = p then n :: placesAt n p else placesAt n p := by
  rw [placesAt, List.range_succ, List.filter_append, List.reverse_append, List.filter_singleton]
  by_cases hn : UInt16.ofNat n = p <;> simp [hn, placesAt]

/-- The edges at a position lead to the supertypes at the places that have it. -/
theorem newEdges_filter_position (sub : TypeId) (sups : List TypeId) (p : UInt16) :
    ((newEdges sub sups).filter (·.position = p)).map Edge.sup =
      (placesAt sups.length p).filterMap (sups[·]?) := by
  induction sups using List.reverseRecOn with
  | nil => rfl
  | append_singleton sups t ih =>
    have hnew : newEdges sub (sups ++ [t]) =
        ⟨sub, t, .ofNat sups.length⟩ :: newEdges sub sups := by
      simp [newEdges, List.zipIdx_append]
    have hold : (placesAt sups.length p).filterMap ((sups ++ [t])[·]?) =
        (placesAt sups.length p).filterMap (sups[·]?) :=
      List.filterMap_congr fun i hi => List.getElem?_append_left (mem_placesAt.1 hi).1
    rw [hnew, List.filter_cons, List.length_append, List.length_singleton, placesAt_succ]
    by_cases hp : UInt16.ofNat sups.length = p <;> simp [hp, hold, ih]

/-- The places of `n` supertypes in the order in which they are read. -/
def readingOrder (n : Nat) : List Nat := positions.flatMap (placesAt n)

theorem mem_readingOrder {n i : Nat} : i ∈ readingOrder n ↔ i < n := by
  rw [readingOrder, List.mem_flatMap]
  constructor
  · rintro ⟨p, -, hi⟩
    exact (mem_placesAt.1 hi).1
  · intro hi
    exact ⟨.ofNat i, mem_positions _, mem_placesAt.2 ⟨hi, rfl⟩⟩

/-- **A type declared once has its declared supertypes in the order in which places are read.** -/
theorem parents_eq_filterMap_readingOrder {h : Hierarchy} {t : TypeId} {sups : List TypeId}
    (hedges : h.edgesFrom t = newEdges t sups) :
    h.parents t = (readingOrder sups.length).filterMap (sups[·]?) := by
  rw [parents_eq, hedges, readingOrder, List.filterMap_flatMap]
  exact List.flatMap_congr fun p _ => newEdges_filter_position t sups p

/-- Place `i` is read before place `j`.  The position of a place is what is left of it when the
counter has started over. -/
def ReadBefore (i j : Nat) : Prop :=
  i % UInt16.size < j % UInt16.size ∨ i % UInt16.size = j % UInt16.size ∧ j < i

theorem pairwise_readingOrder (n : Nat) : (readingOrder n).Pairwise ReadBefore := by
  rw [readingOrder, List.pairwise_flatMap]
  constructor
  · intro p _
    rw [placesAt, List.pairwise_reverse]
    refine (List.pairwise_lt_range.filter _).imp_of_mem fun {i j} hi hj hij => .inr ⟨?_, hij⟩
    have hi := of_decide_eq_true (List.mem_filter.1 hi).2
    have hj := of_decide_eq_true (List.mem_filter.1 hj).2
    exact congrArg UInt16.toNat (hj.trans hi.symm)
  · refine positions_pairwise.imp fun {p q} hpq i hi j hj => .inl ?_
    rwa [← (mem_placesAt.1 hi).2, ← (mem_placesAt.1 hj).2] at hpq

/-- All places are read, each once. -/
theorem readingOrder_perm (n : Nat) : (readingOrder n).Perm (List.range n) := by
  have hnodup : (readingOrder n).Nodup := (pairwise_readingOrder n).imp fun {i j} hij => by
    rintro rfl
    exact hij.elim (Nat.lt_irrefl _) fun h => Nat.lt_irrefl i h.2
  refine (List.perm_ext_iff_of_nodup hnodup List.nodup_range).2 fun i => ?_
  rw [mem_readingOrder, List.mem_range]

/-- As long as positions do not start over, places are read one after the other. -/
theorem readingOrder_eq_range {n : Nat} (hn : n ≤ UInt16.size) : readingOrder n = List.range n := by
  have hordered : (readingOrder n).Pairwise (· ≤ ·) := by
    refine (pairwise_readingOrder n).imp_of_mem fun {i j} hi hj hij => ?_
    rw [mem_readingOrder] at hi hj
    rw [ReadBefore, Nat.mod_eq_of_lt (by omega), Nat.mod_eq_of_lt (by omega)] at hij
    omega
  exact (readingOrder_perm n).eq_of_pairwise (fun i j _ _ => Nat.le_antisymm) hordered
    List.pairwise_le_range

/-- The elements at all places are the list. -/
theorem filterMap_range_getElem? {α : Type} (xs : List α) :
    (List.range xs.length).filterMap (xs[·]?) = xs := by
  induction xs using List.reverseRecOn with
  | nil => rfl
  | append_singleton xs x ih =>
    have hold : (List.range xs.length).filterMap ((xs ++ [x])[·]?) = xs := by
      rw [List.filterMap_congr fun i hi => List.getElem?_append_left (List.mem_range.1 hi), ih]
    simp [List.range_succ, hold]

/-- **A type declared once has its declared supertypes in their order**, if there is a position for
each of them. -/
theorem parents_eq_of_edgesFrom {h : Hierarchy} {t : TypeId} {sups : List TypeId}
    (hedges : h.edgesFrom t = newEdges t sups) (hlen : sups.length ≤ UInt16.size) :
    h.parents t = sups := by
  rw [parents_eq_filterMap_readingOrder hedges, readingOrder_eq_range hlen, filterMap_range_getElem?]

end Hierarchy
end CallResolution
