/-
# Identities of types and members

A type is known by a 64-bit identity computed from its name, and an array type
by one computed from its element type, so that the same type has the same
identity wherever and whenever it is declared.  A member has a handle of the same
width, computed from its owner, its name and its parameter types; parameters are
mixed in one after the other (`absorbParams`), each with a marker of its position,
so that their order bears on the handle.  Different markers keep the four kinds of
identity apart.
-/

import CallResolution.XXHash64
import Std.Data.TreeMap

namespace CallResolution

namespace Identity

/-- Sixteen lowercase hexadecimal digits after `0x`. -/
def render (bits : UInt64) : String :=
  "0x" ++ String.ofList ((List.range 16).reverse.map fun i =>
    Nat.digitChar ((bits >>> UInt64.ofNat (4 * i)).toNat % 16))

/-- The form in which messages show an identity that has no name. -/
def tagged (bits : UInt64) : String := "TypeHash(" ++ render bits ++ ")"

end Identity

/-- The identity of a type. -/
structure TypeId where
  bits : UInt64
deriving DecidableEq, Inhabited

/-- The invocation handle of a member: a key, never interpreted. -/
structure Handle where
  bits : UInt64
deriving DecidableEq, Inhabited

namespace Identity

/-- What one component is multiplied by before the next is added. -/
def separator : UInt64 := 0x4bc94d6bd06053ad

/-- The marker of named types. -/
def typeMarker : UInt64 := 0x2fac10b63a6cc57c

/-- The marker of array types. -/
def arrayMarker : UInt64 := 0x6c1d5e93b2a7f048

/-- The marker of methods. -/
def methodMarker : UInt64 := 0x7d3c8b4a92e15f6d

/-- The marker of constructors. -/
def constructorMarker : UInt64 := 0x9a7f3d5e2b8c4601

/-- The marker of the first parameter; the `i`-th parameter has `i` times it. -/
def paramMarker : UInt64 := 0x9e3779b97f4a7c15

/-- Mixes a parameter at position `i`, counted from zero, into `acc`. -/
def absorbParam (acc : UInt64) (param : TypeId) (i : Nat) : UInt64 :=
  acc * separator + (paramMarker * (UInt64.ofNat i + 1) ^^^ param.bits)

/-- Mixes parameters into `acc` in order, the first of them at position `i`. -/
def absorbParams (acc : UInt64) (i : Nat) : List TypeId → UInt64
  | [] => acc
  | param :: params => absorbParams (absorbParam acc param i) (i + 1) params

end Identity

namespace TypeId

instance : Ord TypeId := ⟨compareOn TypeId.bits⟩

instance : Std.TransOrd TypeId :=
  inferInstanceAs (Std.TransCmp (compareOn TypeId.bits))

instance : Std.LawfulEqOrd TypeId where
  eq_of_compare {a b} h := by
    have h : compare a.bits b.bits = .eq := h
    have := Std.LawfulEqCmp.eq_of_compare h
    cases a; cases b; simp_all

/-- The identity that stands for no type at all. -/
def empty : TypeId := ⟨0⟩

/-- The identity of the type called `name`. -/
def ofName (name : String) : TypeId :=
  ⟨Identity.typeMarker ^^^ XXHash64.digestText 0 name⟩

/-- The identity of the array type whose elements are `element`. -/
def arrayOf (element : TypeId) : TypeId :=
  ⟨Identity.arrayMarker * Identity.separator + XXHash64.rotateLeft element.bits 17⟩

/-- The hexadecimal form. -/
def render (t : TypeId) : String := Identity.render t.bits

/-- How messages name a type that has no name. -/
def describe (t : TypeId) : String := Identity.tagged t.bits

end TypeId

namespace Handle

instance : Ord Handle := ⟨compareOn Handle.bits⟩

instance : Std.TransOrd Handle :=
  inferInstanceAs (Std.TransCmp (compareOn Handle.bits))

instance : Std.LawfulEqOrd Handle where
  eq_of_compare {a b} h := by
    have h : compare a.bits b.bits = .eq := h
    have := Std.LawfulEqCmp.eq_of_compare h
    cases a; cases b; simp_all

/-- The handle of method `name` of `owner`.  The owner seeds the digest of the
name, so owner and name do not commute. -/
def ofMethod (owner : TypeId) (name : String) (params : List TypeId) : Handle :=
  ⟨Identity.absorbParams (Identity.methodMarker ^^^ XXHash64.digestText owner.bits name) 0 params⟩

/-- The handle of a constructor of `owner`. -/
def ofConstructor (owner : TypeId) (params : List TypeId) : Handle :=
  ⟨Identity.absorbParams (Identity.constructorMarker ^^^ owner.bits) 0 params⟩

/-- The hexadecimal form. -/
def render (h : Handle) : String := Identity.render h.bits

/-- How messages name a handle. -/
def describe (h : Handle) : String := Identity.tagged h.bits

end Handle

end CallResolution
