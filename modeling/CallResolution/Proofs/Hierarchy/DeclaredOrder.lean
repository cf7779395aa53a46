/-
# Supertypes in declared order

The supertypes of a declaration come back by position, and a position is a place of the
declaration counted in 16 bits.  Up to 65536 supertypes this is the declared order.  With more
of them positions start over, and places that share one are read from the last to the first:
what is read first is the last place that has position 0 (`head?_readingOrder`), no longer the
first place.  Nothing is lost or doubled by it, and other types take no notice
(`parents_addParents`).
-/

import CallResolution.Proofs.Hierarchy.Edges

namespace CallResolution
namespace Hierarchy

/-- A type without direct supertypes has no edges. -/
theorem edgesFrom_eq_nil {h : Hierarchy} {t : TypeId} (hparents : h.parents t = []) :
    h.edgesFrom t = [] := by
  refine List.eq_nil_iff_forall_not_mem.2 fun e he => ?_
  have hmem := mem_parents.2 (mem_edges_iff_edgesFrom.2 ⟨e, he, rfl⟩)
  rw [hparents] at hmem
  exact List.not_mem_nil hmem

/-- What is read first is the last place that has position 0. -/
theorem head?_readingOrder {n : Nat} (hn : 0 < n) :
    (readingOrder n).head? = some ((n - 1) / UInt16.size * UInt16.size) := by
  have hdiv := Nat.div_mul_le_self (n - 1) UInt16.size
  have hmem : (n - 1) / UInt16.size * UInt16.size ∈ readingOrder n :=
    mem_readingOrder.2 (by omega)
  obtain ⟨first, rest, hplaces⟩ := List.exists_cons_of_ne_nil (List.ne_nil_of_mem hmem)
  have hfirst : first < n := mem_readingOrder.1 (hplaces ▸ List.mem_cons_self)
  have hbefore := (List.pairwise_cons.1 (hplaces ▸ pairwise_readingOrder n)).1
  rw [hplaces, List.mem_cons] at hmem
  rw [hplaces, List.head?_cons]
  rcases hmem with heq | hrest
  · rw [heq]
  · -- another place before it would have position 0 as well, and would be a later one
    have hread := hbefore _ hrest
    rw [ReadBefore, Nat.mul_mod_left] at hread
    have hle := Nat.div_le_div_right (c := UInt16.size) (Nat.le_sub_one_of_lt hfirst)
    have hsplit := Nat.div_add_mod' first UInt16.size
    have := Nat.mul_le_mul_right UInt16.size hle
    omega

theorem parents_addParents_eq {h : Hierarchy} {sub : TypeId} (hnew : h.parents sub = [])
    (sups : List TypeId) : (h.addParents sub sups).parents sub =
      (readingOrder sups.length).filterMap (sups[·]?) := by
  refine parents_eq_filterMap_readingOrder ?_
  rw [edgesFrom_addParents, if_pos rfl, edgesFrom_eq_nil hnew, List.append_nil]

/-- The first supertype listed is the declared one at the last place that has position 0. -/
theorem head?_parents_addParents {h : Hierarchy} {sub : TypeId} (hnew : h.parents sub = [])
    {sups : List TypeId} (hsups : 0 < sups.length) :
    ((h.addParents sub sups).parents sub).head? =
      sups[(sups.length - 1) / UInt16.size * UInt16.size]? := by
  obtain ⟨rest, hplaces⟩ := List.head?_eq_some_iff.1 (head?_readingOrder hsups)
  have hdiv := Nat.div_mul_le_self (sups.length - 1) UInt16.size
  rw [parents_addParents_eq hnew, hplaces, List.getElem?_eq_getElem (by omega),
    List.filterMap_cons_some (List.getElem?_eq_getElem (by omega)), List.head?_cons]

/-- **What a declaration gives back.**  Of a type that has no direct supertypes yet, all that are
declared come back, read by the position of their places.  They come back in the declared order
if there is a position for each of them; otherwise they do so only if some are declared twice.
The direct supertypes of all other types are what they were. -/
theorem parents_addParents (h : Hierarchy) (sub : TypeId) (sups : List TypeId)
    (hnew : h.parents sub = []) :
    (∃ places : List Nat, places.Perm (List.range sups.length) ∧ places.Pairwise ReadBefore ∧
      (h.addParents sub sups).parents sub = places.filterMap (sups[·]?)) ∧
    ((h.addParents sub sups).parents sub).Perm sups ∧
    (sups.length ≤ UInt16.size → (h.addParents sub sups).parents sub = sups) ∧
    (sups.Nodup → (h.addParents sub sups).parents sub = sups → sups.length ≤ UInt16.size) ∧
    ∀ t, t ≠ sub → (h.addParents sub sups).parents t = h.parents t := by
  have hread := parents_addParents_eq hnew sups
  refine ⟨⟨_, readingOrder_perm _, pairwise_readingOrder _, hread⟩, ?_, fun hlen => ?_,
    fun hnodup heq => ?_, fun t ht => ?_⟩
  · have hperm := (readingOrder_perm sups.length).filterMap (sups[·]?)
    rwa [filterMap_range_getElem?, ← hread] at hperm
  · rw [hread, readingOrder_eq_range hlen, filterMap_range_getElem?]
  · rcases Nat.eq_zero_or_pos sups.length with hzero | hpos
    · omega
    · have hhead := head?_parents_addParents hnew hpos
      rw [heq, List.head?_eq_getElem?] at hhead
      have hplace := (List.getElem?_inj hpos hnodup).1 hhead
      have hdiv := Nat.lt_div_mul_add (a := sups.length - 1) (b := UInt16.size) (by decide)
      omega
  · exact parents_congr (by rw [edgesFrom_addParents, if_neg ht.symm])

/-- A cat that implements an interface twice and extends a dog.  All of it comes back as declared,
and the dog is what it was. -/
theorem parents_addParents_sample :
    let dog := TypeId.ofName "Dog"
    let cat := TypeId.ofName "Cat"
    let animal := TypeId.ofName "Animal"
    let named := TypeId.ofName "Named"
    let h := (∅ : Hierarchy).addParents dog [animal, named]
    h.parents cat = [] ∧
      (h.addParents cat [animal, named, dog, named]).parents cat = [animal, named, dog, named] ∧
      (h.addParents cat [animal, named, dog, named]).parents dog = [animal, named] := by
  intro dog cat animal named h
  have hnew : h.parents cat = [] := by decide +kernel
  have hdog : h.parents dog = [animal, named] := by decide +kernel
  obtain ⟨-, -, hdeclared, -, hothers⟩ :=
    h.parents_addParents cat [animal, named, dog, named] hnew
  exact ⟨hnew, hdeclared (by decide), (hothers dog (by decide +kernel)).trans hdog⟩

/-- The interfaces "R0", "R1" and so on, one more than there are positions. -/
def overrun : List TypeId :=
  (List.range (UInt16.size + 1)).map fun i => .ofName ("R" ++ toString i)

/-- **The last of 65537 declared supertypes comes back as the first one.** -/
theorem parents_addParents_overrun :
    let sub := TypeId.ofName "A"
    (∅ : Hierarchy).parents sub = [] ∧ overrun.length = 65537 ∧
      overrun.head? = some (.ofName "R0") ∧
      (((∅ : Hierarchy).addParents sub overrun).parents sub).head? = some (.ofName "R65536") ∧
      ((∅ : Hierarchy).addParents sub overrun).parents sub ≠ overrun := by
  intro sub
  have hnew : (∅ : Hierarchy).parents sub = [] := rfl
  have hlen : overrun.length = 65537 := by simp [overrun]
  have hplace : ∀ i < 65537, overrun[i]? = some (.ofName ("R" ++ toString i)) := fun i hi => by
    rw [overrun, List.getElem?_map, List.getElem?_range hi, Option.map_some]
  have hfirst : "R" ++ toString 0 = "R0" := by decide
  have hlast : "R" ++ toString 65536 = "R65536" := by decide
  have hdeclared : overrun.head? = some (.ofName "R0") := by
    rw [List.head?_eq_getElem?, hplace 0 (by decide), hfirst]
  have hread : (((∅ : Hierarchy).addParents sub overrun).parents sub).head? =
      some (.ofName "R65536") := by
    have hposition : (65537 - 1) / UInt16.size * UInt16.size = 65536 := by decide
    rw [head?_parents_addParents hnew (by omega), hlen, hposition, hplace _ (by decide), hlast]
  refine ⟨hnew, hlen, hdeclared, hread, fun heq => ?_⟩
  rw [heq, hdeclared] at hread
  exact absurd hread (by decide +kernel)

end Hierarchy
end CallResolution
