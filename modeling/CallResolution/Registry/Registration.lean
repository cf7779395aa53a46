/-
# Registration

`Registry.declare` takes a declaration whose identity and name are both free, whose
direct supertypes, as far as they are registered already, are of a kind it may extend
(`supertypeFault?`), and whose members are its own, have names and differ in signature
(`memberFault?`).  Primitives and array types enter on demand and more than once
without harm; they take over their name from whoever had it, and stay out of the
subtype graph.  What is refused changes nothing.
-/

import CallResolution.DeclError
import CallResolution.Registry.Basic

namespace CallResolution

/-- The first fault among `members` as declarations of `owner` that follow those of `earlier`. -/
def memberFault? (owner : TypeId) (earlier : List Member) : List Member → Option MemberFault
  | [] => none
  | m :: members =>
    if m.owner ≠ owner then some (.foreignOwner m.label)
    else if m.name = some "" then some .emptyName
    else if earlier.any (·.signature = m.signature) then some (.duplicateSignature m.label)
    else memberFault? owner (earlier ++ [m]) members

namespace TypeDecl

/-- What is wrong with `sup` as a direct supertype of `sub`: the base of a class has
to be a class, all else that is extended an interface. -/
def supertypeFault? (sub sup : TypeDecl) : Option SupertypeFault :=
  match sub with
  | .ofClass c =>
    if c.base? = some sup.id then
      if sup.isClass then none else some .baseNotClass
    else if sup.isInterface then none else some .implementedNotInterface
  | .ofInterface _ => if sup.isInterface then none else some .extendedNotInterface
  | .ofPrimitive _ | .ofArray _ => some .noSupertypesAllowed

/-- The error that `supertypeFault?` amounts to. -/
def supertypeError? (sub sup : TypeDecl) : Option DeclError :=
  (sub.supertypeFault? sup).map (.invalidSupertype sub.name sup.name)

/-- The error that the first fault among the members amounts to, constructors first. -/
def memberError? (d : TypeDecl) : Option DeclError :=
  (memberFault? d.id [] d.members).map (.invalidMember d.name)

end TypeDecl

/-- One thing that can be registered. -/
inductive Registration where
  | decl (d : TypeDecl)
  | primitive (p : Primitive)
  | array (element : TypeId)

namespace Registry

/-- Stores a declaration under its identity and its name. -/
def store (r : Registry) (d : TypeDecl) : Registry where
  decls := r.decls.insert d.id d
  names := r.names.insert d.name d.id
  hierarchy := r.hierarchy
  id_eq t e h := by
    rw [Std.TreeMap.getElem?_insert] at h
    split at h
    · next hd => exact (Option.some.inj h) ▸ Std.LawfulEqCmp.eq_of_compare hd
    · exact r.id_eq t e h

theorem find?_store (r : Registry) (d : TypeDecl) (t : TypeId) :
    (r.store d).find? t = if d.id = t then some d else r.find? t := by
  simp [find?, store, Std.TreeMap.getElem?_insert]

theorem idOf?_store (r : Registry) (d : TypeDecl) (name : String) :
    (r.store d).idOf? name = if d.name = name then some d.id else r.idOf? name := by
  simp [idOf?, store, Std.TreeMap.getElem?_insert]

/-- Why `d` cannot be registered: first that its name or identity is taken, then a
supertype of the wrong kind, then a faulty member. -/
def rejection? (r : Registry) (d : TypeDecl) : Option DeclError :=
  if r.contains d.id || r.names.contains d.name then some (.duplicateType d.name)
  else ((d.parents.filterMap r.find?).findSome? d.supertypeError?).or d.memberError?

/-- Registers a declaration and its edges. -/
def declare (r : Registry) (d : TypeDecl) : Except DeclError Registry :=
  match r.rejection? d with
  | some e => .error e
  | none => .ok { r.store d with hierarchy := r.hierarchy.addParents d.id d.parents }

/-- Makes sure that a primitive is registered. -/
def addPrimitive (r : Registry) (p : Primitive) : Registry :=
  if r.contains p.id then r else r.store (.ofPrimitive p)

/-- Makes sure that the array type of `element` is registered, for which `element` has
to be. -/
def addArray (r : Registry) (element : TypeId) : Except DeclError Registry :=
  if r.contains element.arrayOf then .ok r
  else
    match r.find? element with
    | none => .error (.typeNotFound (.element element))
    | some d => .ok (r.store (.ofArray (.ofElement element d.name)))

/-- Carries out one registration. -/
def apply (r : Registry) : Registration → Except DeclError Registry
  | .decl d => r.declare d
  | .primitive p => .ok (r.addPrimitive p)
  | .array element => r.addArray element

/-- Carries out registrations in order.  Refused ones leave the registry as it is;
their errors are collected. -/
def applyAll (r : Registry) : List Registration → List DeclError × Registry
  | [] => ([], r)
  | registration :: rest =>
    match r.apply registration with
    | .ok r => r.applyAll rest
    | .error e =>
      let (es, r) := r.applyAll rest
      (e :: es, r)

/-- Makes sure that every primitive is registered. -/
def addPrimitives (r : Registry) : Registry := Primitive.all.foldl addPrimitive r

/-- The registry of the primitives alone. -/
def primitives : Registry := empty.addPrimitives

end Registry
end CallResolution
