/-
# The stores of a catalogue

A catalogue is kept in four stores: the handles of the constructors, those of the methods by name,
the names of the methods in the order in which they came, and the overloads by handle.  An insertion
writes them one after the other (`Stores.insert`), or none of them, and nothing but the order of the
writes keeps them in step.  A call reads a list of handles from the first or the second store, and
the overloads under these handles from the last.
-/

import CallResolution.Catalogue.Build
import CallResolution.Selection

namespace CallResolution
namespace Catalogue

structure Stores where
  target : TypeId
  targetName : String
  /-- The handles of the constructors, in order. -/
  constructors : List Handle
  /-- The handles of the methods of each name, in order. -/
  methods : Std.TreeMap String (List Handle)
  /-- The names of the methods, in the order of their first handles. -/
  methodNames : List String
  /-- The overloads by handle. -/
  callables : Std.TreeMap Handle Overload

namespace Stores

def empty (target : TypeId) (targetName : String) : Stores := ⟨target, targetName, [], ∅, [], ∅⟩

def size (s : Stores) : Nat := s.callables.size

def isEmpty (s : Stores) : Bool := s.callables.isEmpty

/-- The overload under a handle. -/
def find? (s : Stores) (h : Handle) : Option Overload := s.callables[h]?

/-- The overload under a handle that is taken to be there. -/
def lookup (s : Stores) (h : Handle) : Except CallError Overload :=
  match s.find? h with
  | some o => .ok o
  | none => .error (.danglingHandle h s.targetName)

/-- The handles of the methods called `name`, if there are any. -/
def methods? (s : Stores) (name : String) : Option (List Handle) := s.methods[name]?

/-- Lists a handle with the constructors or with the methods of its name, which comes last among the
names if it is new. -/
def enlist (s : Stores) (h : Handle) : Option String → Stores
  | none => { s with constructors := s.constructors ++ [h] }
  | some name =>
    match s.methods[name]? with
    | some bucket => { s with methods := s.methods.insert name (bucket ++ [h]) }
    | none => { s with
        methodNames := s.methodNames ++ [name]
        methods := s.methods.insert name [h] }

/-- Adds an overload.  One of the same name, parameters and declaring type under its handle leaves
everything as it is; another one there is an error. -/
def insert (s : Stores) (o : Overload) : Except CallError Stores :=
  match s.callables[o.handle]? with
  | some first =>
    if first.name = o.name ∧ first.params = o.params ∧ first.declaring = o.declaring then .ok s
    else .error (.sharedHandle o.handle s.targetName first.label o.label)
  | none =>
    let s := s.enlist o.handle o.name
    .ok { s with callables := s.callables.insert o.handle o }

/-- The handles of the methods called `name`. -/
def bucket (s : Stores) (name : String) : List Handle := (s.methods? name).getD []

/-- All that is listed: the constructors and, name after name, the methods. -/
def listed (s : Stores) : List Handle := s.constructors ++ s.methodNames.flatMap s.bucket

end Stores
end Catalogue

namespace Host

/-- The stores that are built for the catalogue of `t`. -/
def stores (h : Host) (settings : Settings) (t : TypeId) : Except CallError Catalogue.Stores :=
  match h.targetDecl t with
  | .error e => .error e
  | .ok d =>
    ((h.callableMembers settings t).map Overload.ofMember).foldlM Catalogue.Stores.insert
      (.empty t d.name)

/-- The constructor to call. -/
def selectConstructor (h : Host) (rules : Rules) (s : Catalogue.Stores) (args : List Arg) :
    Except CallError Overload :=
  Selection.select (h.acceptsAll rules) s.lookup ⟨s.targetName, none, args⟩ s.constructors

/-- The method called `name` to call. -/
def selectMethod (h : Host) (rules : Rules) (s : Catalogue.Stores) (name : String)
    (args : List Arg) : Except CallError Overload :=
  Selection.selectNamed (h.acceptsAll rules) s.lookup ⟨s.targetName, some name, args⟩
    (s.methods? name)

end Host
end CallResolution
