/-
# Conversions

The ways in which an argument can be passed where a parameter of some type is
declared, for primitives and for null.  A primitive fits a parameter of its own
kind, and one it widens to where the rules allow widening.  Null fits classes,
interfaces and arrays.
-/

import CallResolution.Registry.Basic

namespace CallResolution

/-- What conversions are allowed. -/
structure Rules where
  /-- Whether primitives are promoted along `Primitive.widenings`. -/
  widening : Bool
deriving DecidableEq

namespace Rules

/-- Primitives match only their own kind. -/
def strict : Rules := ⟨false⟩

/-- Primitives are promoted. -/
def widen : Rules := ⟨true⟩

instance : Inhabited Rules := ⟨strict⟩

end Rules

/-- How an argument becomes acceptable to a parameter. -/
inductive Conversion where
  /-- The types are the same. -/
  | identity
  /-- Null for a class or an interface. -/
  | nullToReference
  /-- Null for an array. -/
  | nullToArray
  /-- A type for one of its supertypes. -/
  | referenceWidening (target : TypeId)
  | primitiveWidening (source target : Primitive)
  /-- An array for one whose elements its own elements convert to. -/
  | arrayCovariance (element : Conversion)
deriving DecidableEq

namespace Conversion

def isExact (c : Conversion) : Bool := c = .identity

/-- The conversion of arrays whose elements convert by `c`. -/
def ofElement (c : Conversion) : Conversion :=
  if c.isExact then .identity else .arrayCovariance c

end Conversion

/-- The conversion between two primitives. -/
def Primitive.conversion? (rules : Rules) (p target : Primitive) : Option Conversion :=
  if p = target then some .identity
  else if rules.widening && p.widens target then some (.primitiveWidening p target)
  else none

namespace Host

/-- The conversion of null to `formal`. -/
def nullConversion? (h : Host) (formal : TypeId) : Option Conversion :=
  match h.find? formal with
  | some (.ofClass _) | some (.ofInterface _) => some .nullToReference
  | some (.ofArray _) => some .nullToArray
  | some (.ofPrimitive _) | none => none

/-- The conversion between two reference types, along their supertypes. -/
def referenceConversion? (h : Host) (actual formal : TypeId) : Option Conversion :=
  if actual = formal then some .identity
  else if h.conforms actual formal then some (.referenceWidening formal)
  else none

end Host

namespace Registry

/-- The conversion of null to `formal`. -/
def nullConversion? (r : Registry) (formal : TypeId) : Option Conversion :=
  r.host.nullConversion? formal

/-- The conversion between two reference types, along the subtype graph. -/
def referenceConversion? (r : Registry) (actual formal : TypeId) : Option Conversion :=
  r.host.referenceConversion? actual formal

end Registry
end CallResolution
