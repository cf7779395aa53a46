/-
# Declaring everything at once

`Declarations.registry` registers the primitives, all declared types and all declared
arrays, in this order, and then looks for problems.  A type may refer to types declared
after it.  Everything found wrong is reported, not only the first.
-/

import CallResolution.Registry.Problems
import CallResolution.Resolver

namespace CallResolution

structure Declarations where
  types : List TypeDecl
  /-- The element types of the arrays. -/
  arrays : List TypeId
  settings : Settings

namespace Declarations

/-- How many types and arrays are declared. -/
def size (d : Declarations) : Nat := d.types.length + d.arrays.length

def isEmpty (d : Declarations) : Bool := d.size = 0

/-- The registrations that the declarations amount to. -/
def registrations (d : Declarations) : List Registration :=
  d.types.map .decl ++ d.arrays.map .array

/-- The registry of the declarations, or all that is wrong with them. -/
def registry (d : Declarations) : Except (List DeclError) Registry :=
  let (refused, r) := Registry.primitives.applyAll d.registrations
  match refused ++ r.problems with
  | [] => .ok r
  | errors => .error errors

/-- A resolver over the declarations. -/
def resolver (d : Declarations) : Except (List DeclError) Resolver :=
  d.registry.map fun r => .of r d.settings

/-- The wording of a failure. -/
def failureMessage (errors : List DeclError) : String :=
  "type registration failed with " ++ toString errors.length ++ " error(s): " ++
    "; ".intercalate (errors.map DeclError.message)

end Declarations
end CallResolution
