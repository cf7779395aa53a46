/-
# Arguments

Resolution sees of an argument only its type, or that it is null.
-/

import CallResolution.Primitive

namespace CallResolution

/-- The type of one argument of a call. -/
inductive Arg where
  | null
  | ofType (t : TypeId)
deriving DecidableEq

namespace Arg

def isNull (a : Arg) : Bool := a = .null

def type? : Arg → Option TypeId
  | null => none
  | ofType t => some t

/-- The argument without regard to what is known of types. -/
def render : Arg → String
  | null => "null"
  | ofType t => t.render

end Arg

/-- One value passed to a call. -/
inductive Value where
  | null
  | primitive (kind : Primitive)
  | object (t : TypeId)
deriving DecidableEq

/-- What resolution sees of a value. -/
def Value.arg : Value → Arg
  | null => .null
  | primitive p => .ofType p.id
  | object t => .ofType t

end CallResolution
