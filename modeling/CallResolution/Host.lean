/-
# Hosts

All that resolution knows of the types of a program it is told by a host: what is declared under an
identity and what the supertypes of a type are.  The answers to the other questions follow from these
two, unless a host has its own.  Nothing is taken for granted of a host; a registry
(`Registry.host`) is one.

The methods of a type are those it declares and those it inherits, in the order of its lineage; a
method hides every later one of the same name and parameter types (`Member.hidingKey`).
-/

import CallResolution.Argument
import CallResolution.Distinct
import CallResolution.TypeDecl

namespace CallResolution

/-- By what an inherited method is hidden.  Here, unlike in signatures, a member
without a name is as one with an empty name. -/
def Member.hidingKey (m : Member) : String × List TypeId := (m.name.getD "", m.params)

/-- How messages name an argument, when types are named by `nameOf`. -/
def Arg.describe (nameOf : TypeId → String) : Arg → String
  | .null => "null"
  | .ofType t => nameOf t

structure Host where
  /-- The declaration of a type. -/
  find? : TypeId → Option TypeDecl
  /-- The transitive supertypes of a type, nearest first, without the type. -/
  ancestors : TypeId → List TypeId
  /-- Whether the first type is the second or one of its transitive subtypes. -/
  conforms : TypeId → TypeId → Bool := fun sub sup => sub = sup || (ancestors sub).contains sup
  /-- The constructors that a type declares. -/
  constructors : TypeId → List Member := fun t => ((find? t).map TypeDecl.constructors).getD []
  /-- The methods of a type, its own before inherited ones, without the hidden ones. -/
  methods : TypeId → List Member := fun t =>
    distinctOn Member.hidingKey (((t :: ancestors t).filterMap find?).flatMap TypeDecl.methods)
  /-- The name of a type, or its identity if it is not declared. -/
  nameOf : TypeId → String := fun t => ((find? t).map TypeDecl.name).getD t.describe
  /-- An argument list in messages, without the parentheses. -/
  argNames : List Arg → String := fun args => ", ".intercalate (args.map (Arg.describe nameOf))

end CallResolution
