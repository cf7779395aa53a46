/-
# Overloads

An overload is what resolution keeps of a member that can be called.  One overload is
as specific as another when whatever it is called with could be passed on to the
other; overloads are only partially ordered this way.
-/

import CallResolution.Conversion.Applicable

namespace CallResolution

/-- A constructor or method that can be called. -/
structure Overload where
  /-- Absent for constructors. -/
  name : Option String
  params : List TypeId
  /-- The key under which the implementation is invoked. -/
  handle : Handle
  /-- The declaring type. -/
  declaring : TypeId
deriving DecidableEq

namespace Overload

def ofMember (m : Member) : Overload := ⟨m.name, m.params, m.handle, m.owner⟩

def isConstructor (o : Overload) : Bool := o.name.isNone

def arity (o : Overload) : Nat := o.params.length

/-- How messages name the overload. -/
def label (o : Overload) : String := o.name.getD Member.constructorLabel

/-- The parameter types taken for an argument list. -/
def asArgs (o : Overload) : List Arg := o.params.map .ofType

/-- Whether the arguments are of exactly the parameter types.  Null never is. -/
def takesExactly (o : Overload) (args : List Arg) : Bool := o.asArgs = args

/-- Whether `second` can be called with whatever is of the parameter types of `first`. -/
def isAsSpecific (accepts : Acceptance) (first second : Overload) : Bool :=
  accepts second.params first.asArgs

end Overload

/-- `name(A, B)`, or `Owner(A, B)` for a constructor. -/
def Host.signature (h : Host) (o : Overload) : String :=
  o.name.getD (h.nameOf o.declaring) ++ "(" ++ h.argNames o.asArgs ++ ")"

namespace Registry

/-- `name(A, B)`, or `Owner(A, B)` for a constructor. -/
def signature (r : Registry) (o : Overload) : String := r.host.signature o

/-- Whether `o` can be called with the arguments. -/
def accepts (r : Registry) (rules : Rules) (o : Overload) (args : List Arg) : Bool :=
  r.acceptsAll rules o.params args

/-- Whether `second` can be called with whatever is of the parameter types of `first`. -/
def isAsSpecific (r : Registry) (rules : Rules) (first second : Overload) : Bool :=
  first.isAsSpecific (r.acceptsAll rules) second

end Registry
end CallResolution
