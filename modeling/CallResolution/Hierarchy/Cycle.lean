/-
# Inheritance cycles

An edge can lie on a cycle only if its supertype has an edge to go on with.
`core` drops the edges that have none, again and again, until every edge left can
be followed by another one left.  Something is left exactly when some type
transitively extends itself.
-/

import CallResolution.Hierarchy.Basic
import Std.Data.TreeSet

namespace CallResolution
namespace Hierarchy

/-- The edges whose supertype is the subtype of one of the edges. -/
def continued (edges : List (TypeId × TypeId)) : List (TypeId × TypeId) :=
  let subs := Std.TreeSet.ofList (edges.map Prod.fst)
  edges.filter fun e => subs.contains e.2

/-- What is left of the edges when no round drops one any more, at most `fuel` rounds. -/
def core : Nat → List (TypeId × TypeId) → List (TypeId × TypeId)
  | 0, edges => edges
  | fuel + 1, edges =>
    let kept := continued edges
    if kept.length = edges.length then edges else core fuel kept

/-- Whether some type transitively extends itself.  Every round but the last drops
an edge, so there are no more rounds than edges. -/
def isCyclic (h : Hierarchy) : Bool := !(core h.edges.length h.edges).isEmpty

end Hierarchy
end CallResolution
