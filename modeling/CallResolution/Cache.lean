/-
# The catalogue cache

A catalogue is built at the first request for its type and kept from then on, whatever
registry and settings later requests come with.  A target that can have no catalogue
fails before the cache is looked at, also when one is kept for it.  A build that fails
leaves nothing behind but its count.
-/

import CallResolution.Catalogue.Build

namespace CallResolution

structure Cache where
  /-- The catalogues built so far. -/
  built : Std.TreeMap TypeId Catalogue
  /-- How many builds were begun. -/
  builds : Nat

namespace Cache

/-- Nothing built. -/
def empty : Cache := ⟨∅, 0⟩

instance : EmptyCollection Cache := ⟨empty⟩

/-- The catalogue kept for `t`. -/
def find? (c : Cache) (t : TypeId) : Option Catalogue := c.built[t]?

/-- How many catalogues are kept. -/
def size (c : Cache) : Nat := c.built.size

def isEmpty (c : Cache) : Bool := c.size = 0

/-- A summary in two counts. -/
def summary (c : Cache) : String :=
  "CatalogueCache \x7b catalogues: " ++ toString c.size ++ ", builds: " ++ toString c.builds ++
    " \x7d"

/-- The catalogue of `t`, kept or built now. -/
def fetch (c : Cache) (r : Registry) (settings : Settings) (t : TypeId) :
    Except CallError Catalogue × Cache :=
  match r.targetDecl t with
  | .error e => (.error e, c)
  | .ok _ =>
    match c.find? t with
    | some cat => (.ok cat, c)
    | none =>
      match r.catalogue settings t with
      | .error e => (.error e, { c with builds := c.builds + 1 })
      | .ok cat => (.ok cat, ⟨c.built.insert t cat, c.builds + 1⟩)

end Cache
end CallResolution
