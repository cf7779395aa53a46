/-
# The type registry

A registry holds type declarations by identity, an index from names to identities
and the subtype graph of the declarations.  It is the host of the types it holds: what
it has under an identity is their declaration, and what its graph leads to from a type are
its supertypes.
-/

import CallResolution.Hierarchy.Closure
import CallResolution.Host

namespace CallResolution

structure Registry where
  /-- The declarations by identity. -/
  decls : Std.TreeMap TypeId TypeDecl
  /-- The identity registered last under each name. -/
  names : Std.TreeMap String TypeId
  hierarchy : Hierarchy
  id_eq (t : TypeId) (d : TypeDecl) : decls[t]? = some d → d.id = t

namespace Registry

/-- No declarations. -/
def empty : Registry where
  decls := ∅
  names := ∅
  hierarchy := ∅
  id_eq _ _ h := by simp at h

instance : EmptyCollection Registry := ⟨empty⟩

def find? (r : Registry) (t : TypeId) : Option TypeDecl := r.decls[t]?

theorem id_of_find? {r : Registry} {t : TypeId} {d : TypeDecl} (h : r.find? t = some d) :
    d.id = t :=
  r.id_eq t d h

def contains (r : Registry) (t : TypeId) : Bool := r.decls.contains t

theorem contains_eq (r : Registry) (t : TypeId) : r.contains t = (r.find? t).isSome := by
  simp [contains, find?]

def idOf? (r : Registry) (name : String) : Option TypeId := r.names[name]?

def findNamed? (r : Registry) (name : String) : Option TypeDecl := (r.idOf? name).bind r.find?

/-- How many types are registered. -/
def size (r : Registry) : Nat := r.decls.size

/-- The declarations in the order of their identities. -/
def toList (r : Registry) : List TypeDecl := r.decls.values

/-- The transitive supertypes of `t`, nearest first, without `t`. -/
def ancestors (r : Registry) (t : TypeId) : List TypeId := r.hierarchy.ancestors t

/-- The registry as resolution sees it. -/
def host (r : Registry) : Host where
  find? := r.find?
  ancestors := r.ancestors

@[simp] theorem host_find? (r : Registry) : r.host.find? = r.find? := rfl

@[simp] theorem host_ancestors (r : Registry) : r.host.ancestors = r.ancestors := rfl

/-- Whether `sub` is `sup` or one of its transitive subtypes. -/
def conforms (r : Registry) (sub sup : TypeId) : Bool := r.host.conforms sub sup

/-- The declaration of `t` and those of its supertypes, as far as they are registered. -/
def lineage (r : Registry) (t : TypeId) : List TypeDecl :=
  (t :: r.ancestors t).filterMap r.find?

/-- The constructors that `t` declares. -/
def constructors (r : Registry) (t : TypeId) : List Member := r.host.constructors t

/-- The methods of `t`, its own before inherited ones, without the hidden ones. -/
def methods (r : Registry) (t : TypeId) : List Member := r.host.methods t

/-- The name of `t`, or its identity if it is not registered. -/
def nameOf (r : Registry) (t : TypeId) : String := r.host.nameOf t

/-- An argument list in messages, without the parentheses. -/
def argNames (r : Registry) (args : List Arg) : String := r.host.argNames args

@[simp] theorem host_constructors (r : Registry) : r.host.constructors = r.constructors := rfl

@[simp] theorem host_methods (r : Registry) : r.host.methods = r.methods := rfl

theorem conforms_iff {r : Registry} {sub sup : TypeId} :
    r.conforms sub sup ↔ sub = sup ∨ sup ∈ r.ancestors sub := by
  simp [conforms, host]

theorem constructors_eq (r : Registry) (t : TypeId) :
    r.constructors t = ((r.find? t).map TypeDecl.constructors).getD [] := rfl

theorem methods_eq (r : Registry) (t : TypeId) :
    r.methods t = distinctOn Member.hidingKey ((r.lineage t).flatMap TypeDecl.methods) := rfl

/-- A summary in two counts. -/
def summary (r : Registry) : String :=
  "TypeRegistry \x7b types: " ++ toString r.size ++ ", hierarchy_nodes: " ++
    toString r.hierarchy.size ++ " \x7d"

end Registry
end CallResolution
