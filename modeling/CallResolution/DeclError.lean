/-
# Why a declaration is rejected

The causes for which a registry refuses a declaration or reports one it holds, and
the wording of each (`DeclError.message`).
-/

import CallResolution.Member
import CallResolution.Text.Quoted

namespace CallResolution

/-- What is wrong with a direct supertype. -/
inductive SupertypeFault where
  | baseNotClass
  | implementedNotInterface
  | extendedNotInterface
  /-- Primitives and arrays extend nothing. -/
  | noSupertypesAllowed
  /-- The type extends itself, directly or not. -/
  | cycle
deriving DecidableEq

/-- What is wrong with a declared member. -/
inductive MemberFault where
  | foreignOwner (label : String)
  | emptyName
  | duplicateSignature (label : String)
deriving DecidableEq

/-- A type that is needed and not registered. -/
inductive MissingType where
  | element (id : TypeId)
  | supertype (id : TypeId) (of : String)
deriving DecidableEq

inductive DeclError where
  /-- The name or the identity is taken. -/
  | duplicateType (name : String)
  | typeNotFound (missing : MissingType)
  | invalidSupertype (type supertype : String) (fault : SupertypeFault)
  | invalidMember (type : String) (fault : MemberFault)
deriving DecidableEq

namespace SupertypeFault

def message : SupertypeFault → String
  | baseNotClass => "base class must be a class"
  | implementedNotInterface => "implemented type must be an interface"
  | extendedNotInterface => "interfaces can only extend interfaces"
  | noSupertypesAllowed => "type kind has no supertypes"
  | cycle => "inheritance cycle"

end SupertypeFault

namespace MemberFault

def message : MemberFault → String
  | foreignOwner label => "member " ++ Text.quoted label ++ " is owned by another type"
  | emptyName => "method name is empty"
  | duplicateSignature label => "duplicate signature for " ++ label

end MemberFault

namespace MissingType

/-- How messages name the type: by its identity, and by who extends it. -/
def describe : MissingType → String
  | element id => id.describe
  | supertype id sub => id.describe ++ " (supertype of '" ++ sub ++ "')"

end MissingType

namespace DeclError

/-- A cycle is reported of the hierarchy as a whole, not of a type on it. -/
def inheritanceCycle : DeclError := .invalidSupertype "<hierarchy>" "<cycle>" .cycle

def message : DeclError → String
  | duplicateType name => "duplicate type: " ++ name
  | typeNotFound missing => "type not found: " ++ missing.describe
  | invalidSupertype type supertype fault =>
    "type '" ++ type ++ "' cannot extend '" ++ supertype ++ "': " ++ fault.message
  | invalidMember type fault => "invalid member on '" ++ type ++ "': " ++ fault.message

end DeclError
end CallResolution
