/-
# What a hierarchy keeps

A hierarchy grows by types that are mentioned and by supertypes that are declared (`Recording`).
Whatever is recorded, in whatever order and however often, comes back as it was: no edge is lost
and none is made up, a type has one number from its first mention on, and looking up from a
subtype, down from a supertype and at all edges together counts the same edges
(`recorded_counts`).  So does a hierarchy that goes through numbers for all of this.
-/

import CallResolution.Proofs.Hierarchy.Numbering
import Mathlib.Data.Finset.Card

namespace CallResolution
namespace Hierarchy

/-! ## Edges counted from three sides -/

theorem count_edges (h : Hierarchy) (a b : TypeId) :
    h.edges.count (a, b) = h.trail.countP fun e => e.sub = a ∧ e.sup = b := by
  rw [edges, List.count_eq_countP, List.countP_map, List.countP_reverse]
  exact List.countP_congr fun e _ => by simp

/-- A type is as often among the direct supertypes of another as edges lead to it from there. -/
theorem count_parents (h : Hierarchy) (a b : TypeId) :
    (h.parents a).count b = h.edges.count (a, b) := by
  rw [(h.parents_perm a).count_eq, count_edges, edgesFrom, List.count_eq_countP, List.countP_map,
    List.countP_filter]
  exact List.countP_congr fun e _ => by simp [and_comm]

/-- A type is as often among the direct subtypes of another as edges lead from it to there. -/
theorem count_children (h : Hierarchy) (a b : TypeId) :
    (h.children b).count a = h.edges.count (a, b) := by
  rw [count_edges, children, List.count_eq_countP, List.countP_map, List.countP_filter]
  exact List.countP_congr fun e _ => by simp

/-! ## Recordings -/

/-- What a hierarchy is told. -/
inductive Recording
  /-- There is a type. -/
  | mention (t : TypeId)
  /-- A type directly extends others. -/
  | declare (sub : TypeId) (sups : List TypeId)

namespace Recording

/-- The types that are mentioned. -/
def types : Recording → List TypeId
  | mention t => [t]
  | declare sub sups => sub :: sups

/-- The edges that are recorded. -/
def edges : Recording → List (TypeId × TypeId)
  | mention _ => []
  | declare sub sups => sups.map (sub, ·)

/-- The hierarchy after the recording. -/
def on (h : Hierarchy) : Recording → Hierarchy
  | mention t => (h.number t).2
  | declare sub sups => h.addParents sub sups

/-- The numbered hierarchy after the recording. -/
def onNumbered (g : Numbered) : Recording → Numbered
  | mention t => (g.number t).2
  | declare sub sups => g.addParents sub sups

end Recording

/-- The hierarchy of what has been recorded. -/
def recorded (rs : List Recording) : Hierarchy := rs.foldl Recording.on ∅

/-- The numbered hierarchy of what has been recorded. -/
def Numbered.recorded (rs : List Recording) : Numbered := rs.foldl Recording.onNumbered ∅

theorem edges_on (h : Hierarchy) (r : Recording) : (r.on h).edges = h.edges ++ r.edges := by
  cases r with
  | mention t => rw [Recording.edges, List.append_nil]; exact edges_mention h t
  | declare sub sups => exact edges_addParents h sub sups

theorem edges_recorded (rs : List Recording) : (recorded rs).edges = rs.flatMap Recording.edges := by
  induction rs using List.reverseRecOn with
  | nil => rfl
  | append_singleton rs r ih =>
    rw [recorded, List.foldl_append, ← recorded, List.flatMap_append, List.flatMap_singleton, ← ih]
    exact edges_on _ r

namespace Numbered

theorem Describes.on {g : Numbered} {h : Hierarchy} {ts : List TypeId} (d : g.Describes h ts)
    (r : Recording) : (r.onNumbered g).Describes (r.on h) (ts ++ r.types) := by
  cases r with
  | mention t => exact (d.number t).2.2
  | declare sub sups => exact d.addParents sub sups

/-- **What is recorded is recorded alike with and without numbers.** -/
theorem describes_recorded (rs : List Recording) :
    (recorded rs).Describes (Hierarchy.recorded rs) (rs.flatMap Recording.types) := by
  induction rs using List.reverseRecOn with
  | nil => exact describes_empty
  | append_singleton rs r ih =>
    rw [recorded, Hierarchy.recorded, List.foldl_append, List.foldl_append, ← recorded,
      ← Hierarchy.recorded, List.flatMap_append, List.flatMap_singleton]
    exact ih.on r

/-- All that can be asked of `h` has the same answer in numbers. -/
structure ReadsAs (g : Numbered) (h : Hierarchy) : Prop where
  index : g.index = h.nodes
  size : g.size = h.size
  number (t : TypeId) : (g.number t).1 = (h.number t).1
  edges : g.edges = h.edges
  parents (t : TypeId) : g.parents t = h.parents t
  children (t : TypeId) : g.children t = h.children t

namespace Describes

variable {g : Numbered} {h : Hierarchy} {ts : List TypeId}

theorem readsAs (d : g.Describes h ts) : g.ReadsAs h :=
  ⟨d.index_eq, d.size_eq, fun t => (d.number t).1, d.edges, d.parents, d.children⟩

/-- There are as many numbers as types have been mentioned. -/
theorem size_eq_card (d : g.Describes h ts) : h.size = ts.toFinset.card := by
  have hnodup : (distinctOn id ts).Nodup := by simpa using nodup_map_distinctOn id ts
  have hsame : (distinctOn id ts).toFinset = ts.toFinset := by
    ext t
    rw [List.mem_toFinset, List.mem_toFinset, mem_distinctOn_id]
  rw [← d.size_eq, Numbered.size, ← Array.length_toList, d.types_eq, ← hsame,
    List.toFinset_card_of_nodup hnodup]

/-- Just the types that have been mentioned have a number, each a single one. -/
theorem mem_iff_existsUnique (d : g.Describes h ts) {t : TypeId} :
    t ∈ ts ↔ ∃! n : Nat, g.types[n]? = some t := by
  rw [← d.mem_types, Array.mem_iff_getElem?]
  refine ⟨fun ⟨n, hn⟩ => ⟨n, hn, fun m hm => (d.number_eq_iff hm hn).2 rfl⟩, ExistsUnique.exists⟩

end Describes
end Numbered

/-- **A hierarchy loses nothing and makes nothing up.**  After any recordings its edges are the
recorded ones in their order, and its size is the number of types mentioned, each of which has
exactly one number; the store that finds the number of a type and the one that finds the type of a
number say the same.  A type is as often among the direct supertypes of another, and this one as
often among its direct subtypes, as there are edges from the one to the other. -/
theorem recorded_counts (rs : List Recording) :
    (recorded rs).edges = rs.flatMap Recording.edges ∧
    (recorded rs).size = (rs.flatMap Recording.types).toFinset.card ∧
    (∀ t, t ∈ rs.flatMap Recording.types ↔
      ∃! n : Nat, (Numbered.recorded rs).types[n]? = some t) ∧
    (∀ (t : TypeId) (n : Nat),
      (recorded rs).nodes[t]? = some n ↔ (Numbered.recorded rs).types[n]? = some t) ∧
    (Numbered.recorded rs).ReadsAs (recorded rs) ∧
    ∀ a b, ((recorded rs).parents a).count b = (recorded rs).edges.count (a, b) ∧
      ((recorded rs).children b).count a = (recorded rs).edges.count (a, b) := by
  have d := Numbered.describes_recorded rs
  refine ⟨edges_recorded rs, d.size_eq_card, fun t => d.mem_iff_existsUnique, fun t n => ?_,
    d.readsAs, fun a b => ⟨count_parents _ a b, count_children _ a b⟩⟩
  rw [← d.index_eq, d.index_iff]

end Hierarchy
end CallResolution
