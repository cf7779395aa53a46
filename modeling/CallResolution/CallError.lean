/-
# Why a call is not resolved

The causes for which a type has no catalogue or a call finds nothing, or more than one
thing, to invoke.  The wording of each (`Host.errorMessage`) names types as the host
does.
-/

import CallResolution.Overload

namespace CallResolution

/-- Why a type has no members to call. -/
inductive TargetFault where
  /-- No type was given. -/
  | empty
  | unknown
  | primitive
  | array
deriving DecidableEq

/-- Why nothing was found to call. -/
inductive Miss where
  /-- No method has the name. -/
  | unknownName
  /-- There is nothing to choose from. -/
  | noCandidates
  /-- Nothing accepts the arguments. -/
  | noApplicable
deriving DecidableEq

/-- What is to be called, and with what. -/
structure Call where
  /-- The name of the target type. -/
  target : String
  /-- Absent for constructors. -/
  member : Option String
  args : List Arg
deriving DecidableEq

inductive CallError where
  | invalidTarget (target : TypeId) (fault : TargetFault)
  | notFound (call : Call) (reason : Miss)
  /-- Several candidates accept the arguments and none is most specific. -/
  | ambiguous (call : Call) (candidates : List Overload)
  /-- Different members of one type, here by their labels, have the same handle. -/
  | sharedHandle (handle : Handle) (target : String) (first second : String)
  /-- A catalogue is asked for a handle it does not hold. -/
  | danglingHandle (handle : Handle) (target : String)
deriving DecidableEq

namespace TargetFault

def message : TargetFault → String
  | empty => "null target type"
  | unknown => "unknown target type"
  | primitive => "primitive target type"
  | array => "array target type"

end TargetFault

namespace Call

/-- How messages name what is to be called. -/
def path (c : Call) : String :=
  match c.member with
  | some name => c.target ++ "." ++ name
  | none => "constructor " ++ c.target

end Call

namespace CallError

def isInvalidTarget : CallError → Bool
  | invalidTarget .. => true
  | _ => false

def isNotFound : CallError → Bool
  | notFound .. => true
  | _ => false

def isAmbiguous : CallError → Bool
  | ambiguous .. => true
  | _ => false

/-- The fault lies with handles, not with the call. -/
def isInternal : CallError → Bool
  | sharedHandle .. | danglingHandle .. => true
  | _ => false

end CallError

namespace Host

/-- How messages name a target that is none. -/
def targetName (h : Host) (t : TypeId) : String :=
  if t = .empty then "null" else h.nameOf t

/-- Candidates in messages. -/
def signatures (h : Host) (os : List Overload) : String := ", ".intercalate (os.map h.signature)

def errorMessage (h : Host) : CallError → String
  | .invalidTarget t fault => "invalid target '" ++ h.targetName t ++ "': " ++ fault.message
  | .notFound call .unknownName => "no method named " ++ call.path
  | .notFound call .noCandidates => "no public " ++ call.path ++ " declared"
  | .notFound call .noApplicable => "no " ++ call.path ++ " matching (" ++
      h.argNames call.args ++ ")"
  | .ambiguous call candidates => "ambiguous request for " ++ call.path ++ "(" ++
      h.argNames call.args ++ "): " ++ h.signatures candidates
  | .sharedHandle handle target first second => "internal error: handle " ++ handle.describe ++
      " in catalogue of '" ++ target ++ "' is shared by '" ++ first ++ "' and '" ++ second ++ "'"
  | .danglingHandle handle target => "internal error: handle " ++ handle.describe ++
      " in catalogue of '" ++ target ++ "' has no formal-type entry"

end Host

namespace Registry

/-- How messages name a target that is none. -/
def targetName (r : Registry) (t : TypeId) : String := r.host.targetName t

/-- Candidates in messages. -/
def signatures (r : Registry) (os : List Overload) : String := r.host.signatures os

def errorMessage (r : Registry) (e : CallError) : String := r.host.errorMessage e

end Registry
end CallResolution
