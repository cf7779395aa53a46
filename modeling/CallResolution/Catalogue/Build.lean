/-
# Building a catalogue

Only registered classes and interfaces have catalogues.  Catalogued are the public
constructors of the type and then the public ones of its methods, inherited ones
included.

A public method may be declared on a type that is not public.  Through a public
target it is called all the same.  Through a target that is not public itself, and
unless redirection is off, it gives way to the first public declaration of the same
signature on a public supertype of the target (`publicAncestors`), classes before
interfaces, and is left out if there is none.
-/

import CallResolution.Catalogue.Basic

namespace CallResolution

/-- What is settled once for all calls. -/
structure Settings where
  rules : Rules
  /-- Whether methods of types that are not public give way to public declarations. -/
  redirect : Bool
deriving DecidableEq

namespace Settings

/-- Nothing widens, and methods are redirected. -/
instance : Inhabited Settings := ⟨⟨.strict, true⟩⟩

/-- The settings with primitive widening switched on or off. -/
def withWidening (s : Settings) (on : Bool) : Settings := { s with rules := ⟨on⟩ }

end Settings

/-- The first public declaration of the signature of `m` on `owners`. -/
def publicDeclaration? (owners : List TypeDecl) (m : Member) : Option Member :=
  (owners.flatMap TypeDecl.methods).find? fun n => n.isPublic && n.signature = m.signature

namespace Host

/-- The declaration of a type that can have a catalogue. -/
def targetDecl (h : Host) (t : TypeId) : Except CallError TypeDecl :=
  if t = .empty then .error (.invalidTarget t .empty)
  else
    match h.find? t with
    | none => .error (.invalidTarget t .unknown)
    | some (.ofPrimitive _) => .error (.invalidTarget t .primitive)
    | some (.ofArray _) => .error (.invalidTarget t .array)
    | some d => .ok d

/-- Whether `t` is declared and public. -/
def isExposed (h : Host) (t : TypeId) : Bool := (h.find? t).any TypeDecl.isPublic

/-- The public ones among the declared supertypes of `t`, classes before the others,
otherwise nearest first, by the identities in their declarations. -/
def publicAncestors (h : Host) (t : TypeId) : List TypeId :=
  let ds := ((h.ancestors t).filterMap h.find?).filter TypeDecl.isPublic
  (ds.filter TypeDecl.isClass ++ ds.filter (!·.isClass)).map TypeDecl.id

/-- The public constructors of `t`. -/
def publicConstructors (h : Host) (t : TypeId) : List Member :=
  (h.constructors t).filter Member.isPublic

/-- The public methods of `t`, as they are declared. -/
def publicMethods (h : Host) (t : TypeId) : List Member := (h.methods t).filter Member.isPublic

/-- The public methods of `t`, those of types that are not public replaced by public
declarations on supertypes of `t` or left out. -/
def redirectedMethods (h : Host) (t : TypeId) : List Member :=
  (h.publicMethods t).filterMap fun m =>
    if h.isExposed m.owner then some m
    else publicDeclaration? ((h.publicAncestors t).filterMap h.find?) m

/-- The members of `t` to catalogue, in order. -/
def callableMembers (h : Host) (settings : Settings) (t : TypeId) : List Member :=
  h.publicConstructors t ++
    if settings.redirect && !h.isExposed t then h.redirectedMethods t else h.publicMethods t

/-- The catalogue of `t`. -/
def catalogue (h : Host) (settings : Settings) (t : TypeId) : Except CallError Catalogue :=
  match h.targetDecl t with
  | .error e => .error e
  | .ok d =>
    ((h.callableMembers settings t).map Overload.ofMember).foldlM Catalogue.insert (.empty t d.name)

end Host

namespace Registry

/-- The declaration of a type that can have a catalogue. -/
def targetDecl (r : Registry) (t : TypeId) : Except CallError TypeDecl := r.host.targetDecl t

/-- Whether `t` is registered and public. -/
def isExposed (r : Registry) (t : TypeId) : Bool := r.host.isExposed t

theorem isExposed_of_find? {r : Registry} {t : TypeId} {d : TypeDecl} (hd : r.find? t = some d) :
    r.isExposed t = d.isPublic := by
  rw [isExposed, Host.isExposed, host_find?, hd, Option.any_some]

/-- The public ones among the registered supertypes of `t`. -/
def publicAncestors (r : Registry) (t : TypeId) : List TypeDecl :=
  (r.host.publicAncestors t).filterMap r.find?

theorem filterMap_find?_map_id {r : Registry} {ds : List TypeDecl}
    (h : ∀ d ∈ ds, r.find? d.id = some d) : (ds.map TypeDecl.id).filterMap r.find? = ds := by
  induction ds with
  | nil => rfl
  | cons d ds ih =>
    rw [List.map_cons, List.filterMap_cons_some (h d List.mem_cons_self),
      ih fun e he => h e (List.mem_cons_of_mem d he)]

/-- Declarations are registered under their own identities. -/
theorem publicAncestors_eq (r : Registry) (t : TypeId) : r.publicAncestors t =
    let ds := ((r.ancestors t).filterMap r.find?).filter TypeDecl.isPublic
    ds.filter TypeDecl.isClass ++ ds.filter (!·.isClass) := by
  refine filterMap_find?_map_id fun d hd => ?_
  have hd : d ∈ ((r.ancestors t).filterMap r.find?).filter TypeDecl.isPublic := by
    rcases List.mem_append.1 hd with hd | hd <;> exact (List.mem_filter.1 hd).1
  obtain ⟨u, -, hu⟩ := List.mem_filterMap.1 (List.mem_filter.1 hd).1
  rw [id_of_find? hu, hu]

/-- The public constructors of `t`. -/
def publicConstructors (r : Registry) (t : TypeId) : List Member := r.host.publicConstructors t

/-- The public methods of `t`, as they are declared. -/
def publicMethods (r : Registry) (t : TypeId) : List Member := r.host.publicMethods t

/-- The public methods of `t` after redirection. -/
def redirectedMethods (r : Registry) (t : TypeId) : List Member := r.host.redirectedMethods t

/-- The members of `t` to catalogue, in order. -/
def callableMembers (r : Registry) (settings : Settings) (t : TypeId) : List Member :=
  r.host.callableMembers settings t

/-- The catalogue of `t`. -/
def catalogue (r : Registry) (settings : Settings) (t : TypeId) : Except CallError Catalogue :=
  r.host.catalogue settings t

@[simp] theorem host_targetDecl (r : Registry) : r.host.targetDecl = r.targetDecl := rfl

@[simp] theorem host_isExposed (r : Registry) : r.host.isExposed = r.isExposed := rfl

theorem host_publicAncestors (r : Registry) (t : TypeId) :
    (r.host.publicAncestors t).filterMap r.find? = r.publicAncestors t := rfl

@[simp] theorem host_publicConstructors (r : Registry) :
    r.host.publicConstructors = r.publicConstructors := rfl

@[simp] theorem host_publicMethods (r : Registry) : r.host.publicMethods = r.publicMethods := rfl

@[simp] theorem host_redirectedMethods (r : Registry) :
    r.host.redirectedMethods = r.redirectedMethods := rfl

@[simp] theorem host_callableMembers (r : Registry) :
    r.host.callableMembers = r.callableMembers := rfl

end Registry
end CallResolution
