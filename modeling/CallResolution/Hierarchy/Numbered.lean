/-
# Types by number

The same hierarchy with numbers in the place of types.  Edges (`Link`) lead from number to number;
one store says which type has a number (`types`), another which number a type has (`index`), and
whoever asks for the supertypes of a type goes through both.  A type without a number takes the next
one.  The supertypes of a type are sorted by position when they are asked for, by a sort that leaves
the newest edge first where positions are equal.
-/

import CallResolution.Hierarchy.Basic

namespace CallResolution
namespace Hierarchy

/-- An edge from the number of a type to the number of one of its direct supertypes. -/
structure Link where
  source : Nat
  target : Nat
  position : UInt16

/-- A hierarchy in which types are known by numbers. -/
structure Numbered where
  /-- The number of each type mentioned. -/
  index : Std.TreeMap TypeId Nat
  /-- The types by number. -/
  types : Array TypeId
  /-- Every edge, newest first. -/
  links : List Link

namespace Numbered

instance : EmptyCollection Numbered := ⟨⟨∅, #[], []⟩⟩

/-- The number of `t`, given to it if it has none yet. -/
def number (g : Numbered) (t : TypeId) : Nat × Numbered :=
  match g.index[t]? with
  | some n => (n, g)
  | none => (g.types.size,
    { g with index := g.index.insert t g.types.size, types := g.types.push t })

/-- Records one edge. -/
def addLink (g : Numbered) (l : Link) : Numbered := { g with links := l :: g.links }

/-- Records that the type with number `source` directly extends `sups`, the first of them at
position `i`. -/
def addLinks (g : Numbered) (source : Nat) (sups : List (TypeId × Nat)) : Numbered :=
  sups.foldl (fun g (sup, i) =>
    let (target, g) := g.number sup
    g.addLink ⟨source, target, .ofNat i⟩) g

/-- Records that `sub` directly extends `sups`, in their order. -/
def addParents (g : Numbered) (sub : TypeId) (sups : List TypeId) : Numbered :=
  let (source, g) := g.number sub
  g.addLinks source sups.zipIdx

/-- How many types have a number. -/
def size (g : Numbered) : Nat := g.types.size

/-- The types that an edge leads between. -/
def ends? (g : Numbered) (l : Link) : Option (TypeId × TypeId) := do
  return (← g.types[l.source]?, ← g.types[l.target]?)

/-- Every edge, from subtype to supertype, oldest first. -/
def edges (g : Numbered) : List (TypeId × TypeId) := g.links.reverse.filterMap g.ends?

/-- The numbers that edges lead to from `n`, by position. -/
def targets (g : Numbered) (n : Nat) : List Nat :=
  ((g.links.filter (·.source = n)).mergeSort (·.position ≤ ·.position)).map Link.target

/-- The numbers that edges lead to `n` from, newest edge first. -/
def sources (g : Numbered) (n : Nat) : List Nat :=
  (g.links.filter (·.target = n)).map Link.source

/-- The direct supertypes of `t`. -/
def parents (g : Numbered) (t : TypeId) : List TypeId :=
  match g.index[t]? with
  | some n => (g.targets n).filterMap (g.types[·]?)
  | none => []

/-- The direct subtypes of `t`. -/
def children (g : Numbered) (t : TypeId) : List TypeId :=
  match g.index[t]? with
  | some n => (g.sources n).filterMap (g.types[·]?)
  | none => []

end Numbered
end Hierarchy
end CallResolution
