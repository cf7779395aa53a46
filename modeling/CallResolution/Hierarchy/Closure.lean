/-
# Transitive supertypes

`levels` walks breadth-first from a type along any function `next`: the first
level holds what `next` gives for the start, each further level what it gives for
the level before, types met earlier left out (`newcomers`).  The levels one after
the other are the transitive supertypes of a type, without the type itself, each
listed once, at its first visit.
-/

import CallResolution.Hierarchy.Basic
import Std.Data.TreeSet

namespace CallResolution
namespace Hierarchy

/-- The types not in `seen`, each at its first place, and `seen` with them added. -/
def newcomers (seen : Std.TreeSet TypeId) : List TypeId → List TypeId × Std.TreeSet TypeId
  | [] => ([], seen)
  | t :: ts =>
    if seen.contains t then newcomers seen ts
    else
      let (fresh, seen) := newcomers (seen.insert t) ts
      (t :: fresh, seen)

/-- The levels of the walk that follow `level`, at most `fuel` of them; the walk
ends with the first level that would be empty. -/
def levels (next : TypeId → List TypeId) : Nat → Std.TreeSet TypeId → List TypeId →
    List (List TypeId)
  | 0, _, _ => []
  | fuel + 1, seen, level =>
    match newcomers seen (level.flatMap next) with
    | ([], _) => []
    | (fresh, seen) => fresh :: levels next fuel seen fresh

/-- The transitive supertypes of `t`, nearest first.  Each level holds a supertype that
no earlier level holds, so there are no more levels than edges. -/
def ancestors (h : Hierarchy) (t : TypeId) : List TypeId :=
  (levels h.parents h.trail.length ((∅ : Std.TreeSet TypeId).insert t) [t]).flatten

end Hierarchy
end CallResolution
