/-
# The subtype graph

A hierarchy records which types directly extend which.  A type has a node as soon
as anything mentions it (`mention`), declared or not, and nodes are numbered in
order of first mention.  An edge leads from a type to one of its supertypes and
carries the supertype's position in the declaration, a 16-bit counter that starts
over after 65535.  Edges are kept as they come, repeated ones, opposite ones and
loops included.

`parents` lists the direct supertypes of a type by position.  When positions
collide, because supertypes were recorded twice or outran the counter, the newest
edge comes first.  The supertypes of each type are kept by position (`outgoing`)
beside the list of all edges (`trail`), and `outgoing_eq` ties the one to the
other.
-/

import CallResolution.Identity

namespace CallResolution

/-- A step from a type to one of its direct supertypes. -/
structure Edge where
  sub : TypeId
  sup : TypeId
  /-- The place of `sup` in the declaration of `sub`. -/
  position : UInt16
deriving DecidableEq

structure Hierarchy where
  /-- The number of each type mentioned. -/
  nodes : Std.TreeMap TypeId Nat
  /-- Every edge, newest first. -/
  trail : List Edge
  /-- For each type its supertypes at each position, newest first. -/
  outgoing : Std.TreeMap TypeId (Std.TreeMap UInt16 (List TypeId))
  outgoing_eq (t : TypeId) (p : UInt16) : (outgoing.getD t ∅).getD p [] =
    (trail.filter fun e => e.sub = t ∧ e.position = p).map Edge.sup

namespace Hierarchy

/-- No types and no edges. -/
def empty : Hierarchy where
  nodes := ∅
  trail := []
  outgoing := ∅
  outgoing_eq _ _ := by simp

instance : EmptyCollection Hierarchy := ⟨empty⟩

/-- Makes sure that `t` has a node; a new one takes the next number. -/
def mention (h : Hierarchy) (t : TypeId) : Hierarchy :=
  if h.nodes.contains t then h else { h with nodes := h.nodes.insert t h.nodes.size }

/-- The number of the node of `t`, made if `t` has none yet. -/
def number (h : Hierarchy) (t : TypeId) : Nat × Hierarchy :=
  (h.nodes.getD t h.nodes.size, h.mention t)

/-- Records one edge. -/
def addEdge (h : Hierarchy) (e : Edge) : Hierarchy where
  nodes := h.nodes
  trail := e :: h.trail
  outgoing :=
    let sups := h.outgoing.getD e.sub ∅
    h.outgoing.insert e.sub (sups.insert e.position (e.sup :: sups.getD e.position []))
  outgoing_eq t p := by
    rw [Std.TreeMap.getD_insert, List.filter_cons]
    by_cases ht : e.sub = t
    · by_cases hp : e.position = p <;>
        simp [ht, hp, Std.TreeMap.getD_insert, h.outgoing_eq]
    · simp [ht, h.outgoing_eq]

/-- Records that `sub` directly extends `sups`, in their order.  Each of them is
mentioned just before the edge that leads to it. -/
def addParents (h : Hierarchy) (sub : TypeId) (sups : List TypeId) : Hierarchy :=
  sups.zipIdx.foldl (fun h (sup, i) => (h.mention sup).addEdge ⟨sub, sup, .ofNat i⟩)
    (h.mention sub)

/-- How many types have been mentioned. -/
def size (h : Hierarchy) : Nat := h.nodes.size

def isEmpty (h : Hierarchy) : Bool := h.size = 0

/-- Every edge, from subtype to supertype, oldest first. -/
def edges (h : Hierarchy) : List (TypeId × TypeId) := h.trail.reverse.map fun e => (e.sub, e.sup)

/-- The direct supertypes of `t` by position, at one position newest first. -/
def parents (h : Hierarchy) (t : TypeId) : List TypeId :=
  (h.outgoing.getD t ∅).values.flatten

/-- The direct subtypes of `t`, newest first, as often as they extend it. -/
def children (h : Hierarchy) (t : TypeId) : List TypeId :=
  (h.trail.filter fun e => e.sup = t).map Edge.sub

/-! ## What the operations do to the edges -/

@[simp]
theorem edges_empty : (∅ : Hierarchy).edges = [] := rfl

@[simp]
theorem edges_mention (h : Hierarchy) (t : TypeId) : (h.mention t).edges = h.edges := by
  unfold mention; split <;> rfl

@[simp]
theorem edges_addEdge (h : Hierarchy) (e : Edge) :
    (h.addEdge e).edges = h.edges ++ [(e.sub, e.sup)] := by
  simp [edges, addEdge]

theorem edges_foldl_addEdge (sub : TypeId) (sups : List (TypeId × Nat)) (h : Hierarchy) :
    (sups.foldl (fun h (sup, i) => (h.mention sup).addEdge ⟨sub, sup, .ofNat i⟩) h).edges =
      h.edges ++ (sups.map Prod.fst).map (sub, ·) := by
  induction sups generalizing h with
  | nil => simp
  | cons p sups ih => simp [ih]

/-- New edges come last, in the order of the supertypes. -/
@[simp]
theorem edges_addParents (h : Hierarchy) (sub : TypeId) (sups : List TypeId) :
    (h.addParents sub sups).edges = h.edges ++ sups.map (sub, ·) := by
  rw [addParents, edges_foldl_addEdge, edges_mention, List.zipIdx_map_fst]

end Hierarchy
end CallResolution
