/-
# Numbers stand for types

A numbered hierarchy keeps in two stores which type has a number and which number a type has.  As
long as both say the same, and the links stand for the edges of a hierarchy, the numbered hierarchy
`Describes` it.  Giving a number to a type and recording an edge keep it so (`Describes.number`,
`Describes.addLink`), for no number that was given is taken away (`keeps_number`), and so does a
whole declaration (`Describes.addParents`).  Then all that is read through the numbers is what the
hierarchy says without them.
-/

import CallResolution.Hierarchy.Numbered
import CallResolution.Proofs.Distinct
import CallResolution.Proofs.Hierarchy.PositionSort
import Mathlib.Data.List.Forall2

namespace CallResolution
namespace Hierarchy
namespace Numbered

/-- The link leads between the numbers of the types that the edge leads between. -/
structure StandsFor (types : Array TypeId) (l : Link) (e : Edge) : Prop where
  source : types[l.source]? = some e.sub
  target : types[l.target]? = some e.sup
  position : l.position = e.position

/-- `g` has numbers for the types `ts`, in the order in which they are first mentioned, and its links
stand for the edges of `h`. -/
structure Describes (g : Numbered) (h : Hierarchy) (ts : List TypeId) : Prop where
  index_eq : g.index = h.nodes
  size_eq : g.size = h.size
  index_iff : ∀ (t : TypeId) (n : Nat), g.index[t]? = some n ↔ g.types[n]? = some t
  types_eq : g.types.toList = distinctOn id ts
  links : List.Forall₂ (StandsFor g.types) g.links h.trail

variable {g : Numbered} {h : Hierarchy} {ts : List TypeId}

theorem describes_empty : (∅ : Numbered).Describes ∅ [] where
  index_eq := rfl
  size_eq := rfl
  index_iff t n := by
    show (∅ : Std.TreeMap TypeId Nat)[t]? = some n ↔ (#[] : Array TypeId)[n]? = some t
    simp
  types_eq := rfl
  links := .nil

/-! ## Giving numbers -/

theorem getElem?_push_of_some {types : Array TypeId} {n : Nat} {u : TypeId}
    (hn : types[n]? = some u) (t : TypeId) : (types.push t)[n]? = some u := by
  have hlt := (Array.getElem?_eq_some_iff.1 hn).1
  rwa [Array.getElem?_push_lt hlt, ← Array.getElem?_eq_getElem hlt]

/-- A number that was given stays that of the same type. -/
theorem keeps_number (g : Numbered) (t : TypeId) {n : Nat} {u : TypeId}
    (hn : g.types[n]? = some u) : (g.number t).2.types[n]? = some u := by
  rw [number]
  split
  · exact hn
  · exact getElem?_push_of_some hn t

namespace Describes

theorem mem_types (d : g.Describes h ts) {t : TypeId} : t ∈ g.types ↔ t ∈ ts := by
  rw [← Array.mem_toList_iff, d.types_eq, mem_distinctOn_id]

theorem contains_nodes (d : g.Describes h ts) (t : TypeId) :
    h.nodes.contains t = g.index[t]?.isSome := by
  rw [← d.index_eq, Std.TreeMap.contains_eq_isSome_getElem?]

theorem mem_of_index (d : g.Describes h ts) {t : TypeId} {n : Nat} (hn : g.index[t]? = some n) :
    t ∈ ts :=
  d.mem_types.1 (Array.mem_of_getElem? ((d.index_iff t n).1 hn))

theorem not_mem_of_index (d : g.Describes h ts) {t : TypeId} (ht : g.index[t]? = none) : t ∉ ts := by
  intro hmem
  obtain ⟨n, hn⟩ := Array.mem_iff_getElem?.1 (d.mem_types.2 hmem)
  rw [(d.index_iff t n).2 hn] at ht
  cases ht

/-- A new type takes the next number in both stores. -/
theorem index_iff_push (d : g.Describes h ts) {t : TypeId} (ht : g.index[t]? = none) (u : TypeId)
    (n : Nat) : (g.index.insert t g.types.size)[u]? = some n ↔ (g.types.push t)[n]? = some u := by
  have hfree : g.types[g.types.size]? = none := Array.getElem?_eq_none (Nat.le_refl _)
  simp only [Std.TreeMap.getElem?_insert, Std.LawfulEqCmp.compare_eq_iff_eq, Array.getElem?_push]
  by_cases hut : t = u
  · subst hut
    rw [if_pos rfl, Option.some.injEq]
    split
    · next hn => exact iff_of_true hn.symm rfl
    · next hn =>
      rw [← d.index_iff, ht]
      exact iff_of_false (Ne.symm hn) nofun
  · rw [if_neg hut, d.index_iff]
    split
    · next hn =>
      rw [hn, hfree]
      exact iff_of_false nofun fun heq => hut (Option.some.inj heq)
    · rfl

/-- A new type is described by both stores together. -/
theorem push (d : g.Describes h ts) {t : TypeId} (ht : g.index[t]? = none) :
    Describes { g with index := g.index.insert t g.types.size, types := g.types.push t }
      { h with nodes := h.nodes.insert t h.nodes.size } (ts ++ [t]) where
  index_eq := by
    show g.index.insert t g.size = h.nodes.insert t h.size
    rw [d.index_eq, d.size_eq]
  size_eq := by
    have hnew : ¬h.nodes.contains t = true := by
      rw [d.contains_nodes, ht]
      exact Bool.false_ne_true
    show (g.types.push t).size = (h.nodes.insert t h.nodes.size).size
    rw [Array.size_push, Std.TreeMap.size_insert, if_neg hnew]
    exact congrArg (· + 1) d.size_eq
  index_iff := d.index_iff_push ht
  types_eq := by
    rw [distinctOn_id_append_singleton, if_neg (d.not_mem_of_index ht), Array.toList_push, d.types_eq]
  links := d.links.imp fun l e s =>
    ⟨getElem?_push_of_some s.source t, getElem?_push_of_some s.target t, s.position⟩

/-- **A type mentioned has the number that it had before, or the next one.** -/
theorem number (d : g.Describes h ts) (t : TypeId) :
    (g.number t).1 = (h.number t).1 ∧ (g.number t).2.types[(g.number t).1]? = some t ∧
      (g.number t).2.Describes (h.mention t) (ts ++ [t]) := by
  have hnode : h.nodes[t]? = g.index[t]? := by rw [d.index_eq]
  rw [Numbered.number, Hierarchy.number, mention, d.contains_nodes,
    Std.TreeMap.getD_eq_getD_getElem?, hnode]
  cases ht : g.index[t]? with
  | some n =>
    refine ⟨rfl, (d.index_iff t n).1 ht, { d with types_eq := ?_ }⟩
    rw [distinctOn_id_append_singleton, if_pos (d.mem_of_index ht), List.append_nil, d.types_eq]
  | none => exact ⟨d.size_eq, Array.getElem?_push_size, d.push ht⟩

/-! ## Recording edges -/

theorem addLink (d : g.Describes h ts) {l : Link} {e : Edge} (s : StandsFor g.types l e) :
    (g.addLink l).Describes (h.addEdge e) ts :=
  { d with links := .cons s d.links }

/-- Each supertype has a number before the edge that leads to it is recorded. -/
theorem addLinks (d : g.Describes h ts) {sub : TypeId} {source : Nat}
    (hsource : g.types[source]? = some sub) (sups : List (TypeId × Nat)) :
    (g.addLinks source sups).Describes
      (sups.foldl (fun h (sup, i) => (h.mention sup).addEdge ⟨sub, sup, .ofNat i⟩) h)
      (ts ++ sups.map Prod.fst) := by
  induction sups generalizing g h ts with
  | nil =>
    rw [List.map_nil, List.append_nil]
    exact d
  | cons p sups ih =>
    obtain ⟨-, htarget, dsup⟩ := d.number p.1
    have hkept := g.keeps_number p.1 hsource
    have dlink := dsup.addLink (l := ⟨source, (g.number p.1).1, .ofNat p.2⟩)
      (e := ⟨sub, p.1, .ofNat p.2⟩) ⟨hkept, htarget, rfl⟩
    have drest := ih dlink hkept
    rw [List.append_assoc] at drest
    exact drest

/-- **A declaration is recorded alike with and without numbers.** -/
theorem addParents (d : g.Describes h ts) (sub : TypeId) (sups : List TypeId) :
    (g.addParents sub sups).Describes (h.addParents sub sups) (ts ++ sub :: sups) := by
  obtain ⟨-, hsource, dsub⟩ := d.number sub
  have dsups := dsub.addLinks hsource sups.zipIdx
  rw [List.zipIdx_map_fst, List.append_assoc] at dsups
  exact dsups

end Describes

/-! ## Reading what links stand for -/

section

variable {types : Array TypeId} {ls : List Link} {es : List Edge}

/-- What every link gives for its edge, the links give for the edges. -/
theorem filterMap_of_standsFor {β : Type} {f : Link → Option β} {k : Edge → β}
    (hf : ∀ l e, StandsFor types l e → f l = some (k e))
    (hlinks : List.Forall₂ (StandsFor types) ls es) : ls.filterMap f = es.map k := by
  induction hlinks with
  | nil => rfl
  | cons s _ ih => rw [List.filterMap_cons_some (hf _ _ s), List.map_cons, ih]

/-- A sort by position is the same for links and for edges. -/
theorem mergeSort_of_standsFor (hlinks : List.Forall₂ (StandsFor types) ls es) :
    List.Forall₂ (StandsFor types) (ls.mergeSort fun l m => l.position ≤ m.position)
      (es.mergeSort fun e f => e.position ≤ f.position) := by
  rw [mergeSort_eq_flatMap Link.position, mergeSort_eq_flatMap Edge.position]
  have hplace : ∀ p l e, StandsFor types l e → (decide (l.position = p) ↔ decide (e.position = p)) :=
    fun p l e s => by rw [s.position]
  refine List.rel_flatMap (List.forall₂_same.2 fun p _ => rfl) fun p q hpq => ?_
  subst hpq
  exact List.rel_filter (hplace p) hlinks

end

namespace Describes

/-- Numbers are the same just when they are numbers of the same type. -/
theorem number_eq_iff (d : g.Describes h ts) {m n : Nat} {t u : TypeId}
    (hm : g.types[m]? = some t) (hn : g.types[n]? = some u) : m = n ↔ t = u := by
  constructor
  · rintro rfl
    exact Option.some.inj (hm.symm.trans hn)
  · rintro rfl
    rw [← d.index_iff] at hm hn
    exact Option.some.inj (hm.symm.trans hn)

/-- No edge has an end that has no number. -/
theorem filter_trail_eq_nil (d : g.Describes h ts) {t : TypeId} (ht : g.index[t]? = none)
    {f : Edge → TypeId} (hf : ∀ l e, StandsFor g.types l e → f e ∈ g.types) :
    h.trail.filter (f · = t) = [] := by
  have hne : ∀ l e, StandsFor g.types l e → (false ↔ decide (f e = t)) := fun l e s => by
    have hmem := d.mem_types.1 (hf l e s)
    have : f e ≠ t := fun heq => d.not_mem_of_index ht (heq ▸ hmem)
    simpa using this
  have hlinks := List.rel_filter (p := fun _ => false) hne d.links
  rwa [List.filter_false, List.forall₂_nil_left_iff] at hlinks

/-- **Edges are read alike with and without numbers.** -/
theorem edges (d : g.Describes h ts) : g.edges = h.edges := by
  refine filterMap_of_standsFor (fun l e s => ?_) (List.forall₂_reverse_iff.2 d.links)
  rw [ends?, s.source, s.target]
  rfl

/-- **Direct supertypes are read alike with and without numbers.** -/
theorem parents (d : g.Describes h ts) (t : TypeId) : g.parents t = h.parents t := by
  rw [Numbered.parents, parents_eq_mergeSort, edgesFrom]
  cases ht : g.index[t]? with
  | none =>
    rw [d.filter_trail_eq_nil ht fun l e s => Array.mem_of_getElem? s.source, List.mergeSort_nil,
      List.map_nil]
  | some n =>
    have hn := (d.index_iff t n).1 ht
    have hends : ∀ l e, StandsFor g.types l e → (decide (l.source = n) ↔ decide (e.sub = t)) :=
      fun l e s => by simpa using d.number_eq_iff s.source hn
    have hlinks := mergeSort_of_standsFor (List.rel_filter hends d.links)
    show (g.targets n).filterMap _ = _
    rw [targets, List.filterMap_map]
    exact filterMap_of_standsFor (fun l e s => s.target) hlinks

/-- **Direct subtypes are read alike with and without numbers.** -/
theorem children (d : g.Describes h ts) (t : TypeId) : g.children t = h.children t := by
  rw [Numbered.children, Hierarchy.children]
  cases ht : g.index[t]? with
  | none =>
    rw [d.filter_trail_eq_nil ht fun l e s => Array.mem_of_getElem? s.target]
    rfl
  | some n =>
    have hn := (d.index_iff t n).1 ht
    have hends : ∀ l e, StandsFor g.types l e → (decide (l.target = n) ↔ decide (e.sup = t)) :=
      fun l e s => by simpa using d.number_eq_iff s.target hn
    have hlinks := List.rel_filter hends d.links
    show (g.sources n).filterMap _ = _
    rw [sources, List.filterMap_map]
    exact filterMap_of_standsFor (fun l e s => s.source) hlinks

end Describes
end Numbered
end Hierarchy
end CallResolution
