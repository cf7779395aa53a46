/-
# Problems of a registry

Declarations may name supertypes that come later, so what `Registry.declare` could not
see is looked for when all are in: supertypes that never came, each reported once, for
the first edge that leads to it; supertypes of the wrong kind, edge by edge in the order
of registration; and at the end, once, an inheritance cycle.
-/

import CallResolution.Hierarchy.Cycle
import CallResolution.Registry.Registration

namespace CallResolution
namespace Registry

/-- The errors of `edges` in order.  Missing supertypes in `reported` are passed over. -/
def edgeErrors (r : Registry) (reported : List TypeId) : List (TypeId × TypeId) → List DeclError
  | [] => []
  | (sub, sup) :: edges =>
    match r.find? sub, r.find? sup with
    | none, _ => r.edgeErrors reported edges
    | some d, some s => (d.supertypeError? s).toList ++ r.edgeErrors reported edges
    | some d, none =>
      if reported.contains sup then r.edgeErrors reported edges
      else .typeNotFound (.supertype sup d.name) :: r.edgeErrors (sup :: reported) edges

/-- All that is wrong with the supertypes of the registered types. -/
def problems (r : Registry) : List DeclError :=
  r.edgeErrors [] r.hierarchy.edges ++ if r.hierarchy.isCyclic then [.inheritanceCycle] else []

end Registry
end CallResolution
