/-
# Registration in place

A registry in use is changed in place, one store after the other, and what has been changed when an
error comes up stays changed.  `Change.register` registers a declaration in this way.  Whatever may be
wrong is looked for before anything is changed, so a declaration is registered as a whole or not at
all, and it is registered just as `Registry.declare` does it (`register_eq`).
-/

import CallResolution.Registry.Registration

namespace CallResolution

/-- What is done to a registry in place.  It may be given up; what has been changed before stays
changed. -/
abbrev Change := ExceptT DeclError (StateM Registry)

namespace Change

variable {α β : Type}

/-- The outcome of a change, and the registry after it. -/
def on (change : Change α) (r : Registry) : Except DeclError α × Registry := change.run.run r

/-- Gives up if there is an error. -/
def refuse : Option DeclError → Change Unit
  | some e => throw e
  | none => pure ()

/-- Gives up if the supertype is registered and `d` may not extend it. -/
def checkSupertype (d : TypeDecl) (sup : TypeId) : Change Unit := do
  if let some s := (← get).find? sup then refuse (d.supertypeError? s)

/-- Registers a declaration: the checks first, then the edges, the name and the declaration. -/
def register (d : TypeDecl) : Change TypeId := do
  let r ← get
  if r.contains d.id || r.names.contains d.name then throw (.duplicateType d.name)
  d.parents.forM (checkSupertype d)
  refuse d.memberError?
  modify fun r => { r with hierarchy := r.hierarchy.addParents d.id d.parents }
  modify fun r => { r with names := r.names.insert d.name d.id }
  modify fun r => { r with decls := (r.store d).decls, id_eq := (r.store d).id_eq }
  return d.id

/-! ## Step by step -/

theorem on_get_bind (next : Registry → Change α) (r : Registry) :
    (get >>= next).on r = (next r).on r := rfl

theorem on_modify_bind (f : Registry → Registry) (next : Change α) (r : Registry) :
    (modify f >>= fun _ => next).on r = next.on (f r) := rfl

/-- The change looks for an error, gives up if there is one, and changes nothing. -/
def Checks (check : Change Unit) (r : Registry) (e? : Option DeclError) : Prop :=
  check.on r = (e?.elim (.ok ()) .error, r)

theorem Checks.on_bind {check : Change Unit} {r : Registry} {e? : Option DeclError}
    (h : check.Checks r e?) (next : Change α) :
    (check >>= fun _ => next).on r = e?.elim (next.on r) fun e => (.error e, r) := by
  show (check.on r >>= fun x => (ExceptT.bindCont (fun _ => next) x.1).run x.2 : Id _) = _
  rw [h]
  cases e? <;> rfl

theorem checks_refuse (e? : Option DeclError) (r : Registry) : (refuse e?).Checks r e? := by
  cases e? <;> rfl

theorem checks_checkSupertype (d : TypeDecl) (sup : TypeId) (r : Registry) :
    (checkSupertype d sup).Checks r ((r.find? sup).bind d.supertypeError?) := by
  rw [Checks, checkSupertype, on_get_bind]
  cases r.find? sup with
  | none => rfl
  | some s => exact checks_refuse _ r

/-- Of several supertypes the first error counts. -/
theorem checks_forM_checkSupertype (d : TypeDecl) (sups : List TypeId) (r : Registry) :
    (sups.forM (checkSupertype d)).Checks r
      ((sups.filterMap r.find?).findSome? d.supertypeError?) := by
  induction sups with
  | nil => rfl
  | cons sup sups ih =>
    have hfirst := (checks_checkSupertype d sup r).on_bind (sups.forM (checkSupertype d))
    show (checkSupertype d sup >>= fun _ => sups.forM (checkSupertype d)).on r = _
    rw [hfirst, ih]
    cases hsup : r.find? sup with
    | none => simp [hsup]
    | some s => cases hs : d.supertypeError? s <;> simp [hsup, hs]

end Change

namespace Registry

/-- Registers `d` in place. -/
def register (r : Registry) (d : TypeDecl) : Except DeclError TypeId × Registry :=
  (Change.register d).on r

/-- **A declaration is registered in place as a whole or not at all.** -/
theorem register_eq (r : Registry) (d : TypeDecl) : r.register d =
    match r.declare d with
    | .ok s => (.ok d.id, s)
    | .error e => (.error e, r) := by
  rw [register, Change.register, Change.on_get_bind, declare, rejection?]
  split
  · rfl
  · rw [(Change.checks_forM_checkSupertype d d.parents r).on_bind,
      (Change.checks_refuse d.memberError? r).on_bind, Change.on_modify_bind,
      Change.on_modify_bind, Change.on_modify_bind]
    cases (d.parents.filterMap r.find?).findSome? d.supertypeError? with
    | some e => rfl
    | none => cases d.memberError? <;> rfl

end Registry
end CallResolution
