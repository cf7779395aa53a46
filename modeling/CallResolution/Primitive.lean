/-
# Primitive types

The eleven built-in value types.  A primitive has no members, no supertypes and no
null.  `widenings` lists the primitives a value may be promoted to, nearest first:
a promotion never loses a sign and never narrows the range of the integers.
-/

import CallResolution.Identity

namespace CallResolution

/-- A built-in numeric or truth value type. -/
inductive Primitive where
  | bool
  | int8
  | int16
  | int32
  | int64
  | uint8
  | uint16
  | uint32
  | uint64
  | float
  | double
deriving DecidableEq, Inhabited

namespace Primitive

/-- Every primitive, in the order in which they are registered. -/
def all : List Primitive :=
  [.bool, .int8, .int16, .int32, .int64, .uint8, .uint16, .uint32, .uint64, .float, .double]

theorem mem_all (p : Primitive) : p ∈ all := by cases p <;> decide

/-- The keyword; the 32-bit integers have the short ones. -/
def name : Primitive → String
  | bool => "bool"
  | int8 => "int8"
  | int16 => "int16"
  | int32 => "int"
  | int64 => "int64"
  | uint8 => "uint8"
  | uint16 => "uint16"
  | uint32 => "uint"
  | uint64 => "uint64"
  | float => "float"
  | double => "double"

/-- The primitive with that keyword. -/
def ofName? (name : String) : Option Primitive := all.find? (·.name = name)

theorem ofName?_name (p : Primitive) : ofName? p.name = some p := by cases p <;> decide

/-- A primitive is identified as any type of its name. -/
def id (p : Primitive) : TypeId := .ofName p.name

def isInteger : Primitive → Bool
  | bool | float | double => false
  | _ => true

def isFloating : Primitive → Bool
  | float | double => true
  | _ => false

/-- The primitives that values of a primitive are promoted to, nearest first. -/
def widenings : Primitive → List Primitive
  | int8 => [int16, int32, int64, float, double]
  | int16 => [int32, int64, float, double]
  | int32 => [int64, float, double]
  | int64 => [float, double]
  | uint8 => [uint16, int16, uint32, int32, uint64, int64, float, double]
  | uint16 => [uint32, int32, uint64, int64, float, double]
  | uint32 => [uint64, int64, float, double]
  | uint64 => [float, double]
  | float => [double]
  | double | bool => []

def widens (p target : Primitive) : Bool := p.widenings.contains target

end Primitive
end CallResolution
