/-
# Members of types

A member is a constructor, which has no name, or a method, which has one.  Two
members have the same signature when they agree in name and parameter types; who
declares them and who may see them does not matter.
-/

import CallResolution.Identity

namespace CallResolution

/-- Who may use a type or a member. -/
inductive Visibility where
  | everyone
  | subtypes
  | package
  | owner
deriving DecidableEq

namespace Visibility

/-- What is declared without a visibility is public. -/
instance : Inhabited Visibility := ⟨.everyone⟩

def isPublic (v : Visibility) : Bool := v = .everyone

def keyword : Visibility → String
  | everyone => "public"
  | subtypes => "protected"
  | package => "package"
  | owner => "private"

end Visibility

/-- What overloads differ in: the name, absent for constructors, and the parameter types. -/
structure Signature where
  name : Option String
  params : List TypeId
deriving DecidableEq

/-- A constructor or method declared on a type. -/
structure Member where
  /-- Absent for constructors. -/
  name : Option String
  params : List TypeId
  visibility : Visibility
  /-- The declaring type. -/
  owner : TypeId
  /-- The key under which the implementation is invoked. -/
  handle : Handle
deriving DecidableEq

namespace Member

/-- A public constructor of `owner`. -/
def constructor (owner : TypeId) (params : List TypeId) : Member where
  name := none
  params := params
  visibility := .everyone
  owner := owner
  handle := .ofConstructor owner params

/-- A public method of `owner`. -/
def method (owner : TypeId) (name : String) (params : List TypeId) : Member where
  name := some name
  params := params
  visibility := .everyone
  owner := owner
  handle := .ofMethod owner name params

def isConstructor (m : Member) : Bool := m.name.isNone

def isPublic (m : Member) : Bool := m.visibility.isPublic

/-- How messages name members without a name of their own. -/
def constructorLabel : String := "<init>"

/-- How messages name the member. -/
def label (m : Member) : String := m.name.getD constructorLabel

def signature (m : Member) : Signature := ⟨m.name, m.params⟩

/-- The member as `owner` would declare it: same signature and visibility, a handle of its own. -/
def declaredBy (m : Member) (owner : TypeId) : Member :=
  match m.name with
  | none => { constructor owner m.params with visibility := m.visibility }
  | some name => { method owner name m.params with visibility := m.visibility }

end Member
end CallResolution
