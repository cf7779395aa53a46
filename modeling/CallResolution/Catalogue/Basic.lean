/-
# Catalogues

The catalogue of a type lists what can be called on it in the order in which it was
found, no two entries under one handle.  Constructors, the buckets of methods of one
name, and the names themselves are read off the list in that order.  How they are
stored apart from each other is in `Catalogue.Stores`.
-/

import CallResolution.CallError

namespace CallResolution

/-- What can be called on one type. -/
structure Catalogue where
  target : TypeId
  targetName : String
  /-- The overloads in the order in which they were found. -/
  entries : List Overload
  handles_nodup : (entries.map Overload.handle).Nodup

namespace Catalogue

/-- The catalogue of a type on which nothing can be called. -/
def empty (target : TypeId) (targetName : String) : Catalogue where
  target := target
  targetName := targetName
  entries := []
  handles_nodup := .nil

def size (cat : Catalogue) : Nat := cat.entries.length

def isEmpty (cat : Catalogue) : Bool := cat.entries.isEmpty

/-- The entry under a handle. -/
def find? (cat : Catalogue) (h : Handle) : Option Overload := cat.entries.find? (·.handle = h)

theorem find?_eq_none_iff {cat : Catalogue} {h : Handle} :
    cat.find? h = none ↔ h ∉ cat.entries.map Overload.handle := by
  simp [find?]

/-- The entry under a handle that is taken to be there. -/
def lookup (cat : Catalogue) (h : Handle) : Except CallError Overload :=
  match cat.find? h with
  | some o => .ok o
  | none => .error (.danglingHandle h cat.targetName)

/-- The handles of the entries called `name`; those without a name are constructors. -/
def handlesOf (cat : Catalogue) (name : Option String) : List Handle :=
  (cat.entries.filter (·.name = name)).map Overload.handle

def constructors (cat : Catalogue) : List Handle := cat.handlesOf none

/-- The handles of the methods called `name`, if there are any. -/
def methods? (cat : Catalogue) (name : String) : Option (List Handle) :=
  match cat.handlesOf (some name) with
  | [] => none
  | handles => some handles

/-- The names of the methods, in the order of their first entries. -/
def methodNames (cat : Catalogue) : List String := distinctOn id (cat.entries.filterMap (·.name))

/-- Adds an entry.  The same entry once more changes nothing; a different one under a
handle that is taken is refused. -/
def insert (cat : Catalogue) (o : Overload) : Except CallError Catalogue :=
  match h : cat.find? o.handle with
  | some first =>
    if first = o then .ok cat
    else .error (.sharedHandle o.handle cat.targetName first.label o.label)
  | none => .ok {
      cat with
      entries := cat.entries ++ [o]
      handles_nodup := by
        rw [List.map_append, List.nodup_append]
        refine ⟨cat.handles_nodup, by simp, fun a ha b hb => ?_⟩
        rw [List.map_singleton, List.mem_singleton] at hb
        rintro rfl
        exact find?_eq_none_iff.1 h (hb ▸ ha) }

end Catalogue
end CallResolution
