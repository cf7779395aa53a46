/-
# Type declarations

What a program declares about one type.  Classes extend at most one class and
implement interfaces, interfaces extend interfaces; both declare methods, and
classes constructors besides.  Arrays and primitives declare nothing.  `parents`
lists the direct supertypes with the base class first.
-/

import CallResolution.Member
import CallResolution.Primitive

namespace CallResolution

/-- A primitive under an identity, which is its own unless it is declared under another one. -/
structure PrimitiveDecl where
  kind : Primitive
  id : TypeId
deriving DecidableEq

structure ClassDecl where
  name : String
  id : TypeId
  visibility : Visibility
  base? : Option TypeId
  interfaces : List TypeId
  constructors : List Member
  methods : List Member
deriving DecidableEq

structure InterfaceDecl where
  name : String
  id : TypeId
  visibility : Visibility
  bases : List TypeId
  methods : List Member
deriving DecidableEq

structure ArrayDecl where
  name : String
  id : TypeId
  element : TypeId
deriving DecidableEq

namespace PrimitiveDecl

/-- A primitive under its own identity. -/
def ofKind (kind : Primitive) : PrimitiveDecl := ⟨kind, kind.id⟩

instance : Coe Primitive PrimitiveDecl := ⟨ofKind⟩

def name (p : PrimitiveDecl) : String := p.kind.name

end PrimitiveDecl

namespace ClassDecl

/-- A public class without supertypes and members. -/
def named (name : String) : ClassDecl := ⟨name, .ofName name, .everyone, none, [], [], []⟩

/-- Declares a public constructor. -/
def addConstructor (c : ClassDecl) (params : List TypeId) : ClassDecl :=
  { c with constructors := c.constructors ++ [.constructor c.id params] }

/-- Declares a public method. -/
def addMethod (c : ClassDecl) (name : String) (params : List TypeId) : ClassDecl :=
  { c with methods := c.methods ++ [.method c.id name params] }

/-- Declares a member of the class, whoever owned it before, among the
constructors or the methods as it is one or the other. -/
def addMember (c : ClassDecl) (m : Member) : ClassDecl :=
  let m := m.declaredBy c.id
  if m.isConstructor then { c with constructors := c.constructors ++ [m] }
  else { c with methods := c.methods ++ [m] }

end ClassDecl

namespace InterfaceDecl

/-- A public interface without supertypes and members. -/
def named (name : String) : InterfaceDecl := ⟨name, .ofName name, .everyone, [], []⟩

/-- Declares a public method. -/
def addMethod (i : InterfaceDecl) (name : String) (params : List TypeId) : InterfaceDecl :=
  { i with methods := i.methods ++ [.method i.id name params] }

end InterfaceDecl

namespace ArrayDecl

/-- The array type of `element`, whose name is `elementName`. -/
def ofElement (element : TypeId) (elementName : String) : ArrayDecl :=
  ⟨elementName ++ "[]", element.arrayOf, element⟩

end ArrayDecl

/-- The declaration of a type. -/
inductive TypeDecl where
  | ofPrimitive (decl : PrimitiveDecl)
  | ofClass (decl : ClassDecl)
  | ofInterface (decl : InterfaceDecl)
  | ofArray (decl : ArrayDecl)
deriving DecidableEq

namespace TypeDecl

def id : TypeDecl → TypeId
  | .ofPrimitive p => p.id
  | .ofClass c => c.id
  | .ofInterface i => i.id
  | .ofArray a => a.id

def name : TypeDecl → String
  | .ofPrimitive p => p.name
  | .ofClass c => c.name
  | .ofInterface i => i.name
  | .ofArray a => a.name

/-- Primitives and arrays are public. -/
def visibility : TypeDecl → Visibility
  | .ofClass c => c.visibility
  | .ofInterface i => i.visibility
  | .ofPrimitive _ | .ofArray _ => .everyone

def isPublic (d : TypeDecl) : Bool := d.visibility.isPublic

def isPrimitive : TypeDecl → Bool
  | .ofPrimitive _ => true
  | _ => false

def isClass : TypeDecl → Bool
  | .ofClass _ => true
  | _ => false

def isInterface : TypeDecl → Bool
  | .ofInterface _ => true
  | _ => false

def isArray : TypeDecl → Bool
  | .ofArray _ => true
  | _ => false

/-- Classes and interfaces are the reference types; arrays are not. -/
def isReference (d : TypeDecl) : Bool := d.isClass || d.isInterface

def primitive? : TypeDecl → Option Primitive
  | .ofPrimitive p => some p.kind
  | _ => none

def element? : TypeDecl → Option TypeId
  | .ofArray a => some a.element
  | _ => none

/-- The direct supertypes: the base class, then the interfaces in declared order. -/
def parents : TypeDecl → List TypeId
  | .ofClass c => c.base?.toList ++ c.interfaces
  | .ofInterface i => i.bases
  | .ofPrimitive _ | .ofArray _ => []

def constructors : TypeDecl → List Member
  | .ofClass c => c.constructors
  | _ => []

/-- The methods declared on the type itself. -/
def methods : TypeDecl → List Member
  | .ofClass c => c.methods
  | .ofInterface i => i.methods
  | .ofPrimitive _ | .ofArray _ => []

/-- All that is declared on the type itself, constructors first. -/
def members (d : TypeDecl) : List Member := d.constructors ++ d.methods

end TypeDecl
end CallResolution
