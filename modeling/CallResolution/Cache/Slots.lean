/-
# Slots of the catalogue cache

Each target that is asked for has a slot from then on, which is empty until a build of its catalogue
succeeds.  A build begins after the slot is there and fills it, or leaves it empty for the next
request to try again.  Whoever asks what is kept looks into the slots and passes over empty ones.
Builds are counted by a machine word.
-/

import CallResolution.Catalogue.Stores

namespace CallResolution
namespace Cache

open Catalogue (Stores)

structure Slots where
  /-- What has been built for each target that was asked for. -/
  slots : Std.TreeMap TypeId (Option Stores)
  /-- How many builds were begun. -/
  builds : USize

namespace Slots

instance : EmptyCollection Slots := ⟨⟨∅, 0⟩⟩

/-- The slot of `t`, which is a new and empty one if it has none yet. -/
def slot (c : Slots) (t : TypeId) : Option Stores × Slots :=
  match c.slots[t]? with
  | some found => (found, c)
  | none => (none, { c with slots := c.slots.insert t none })

/-- Puts what has been built into the slot of `t`. -/
def fill (c : Slots) (t : TypeId) (s : Stores) : Slots :=
  { c with slots := c.slots.insert t (some s) }

/-- Begins a build, and keeps what it gives. -/
def build (c : Slots) (h : Host) (settings : Settings) (t : TypeId) :
    Except CallError Stores × Slots :=
  let c := { c with builds := c.builds + 1 }
  match h.stores settings t with
  | .error e => (.error e, c)
  | .ok s => (.ok s, c.fill t s)

/-- The catalogue of `t`, kept or built now. -/
def fetch (c : Slots) (h : Host) (settings : Settings) (t : TypeId) :
    Except CallError Stores × Slots :=
  match h.targetDecl t with
  | .error e => (.error e, c)
  | .ok _ =>
    match c.slot t with
    | (some s, c) => (.ok s, c)
    | (none, c) => c.build h settings t

/-- The catalogue kept for `t`. -/
def find? (c : Slots) (t : TypeId) : Option Stores := c.slots[t]?.join

/-- How many catalogues are kept. -/
def size (c : Slots) : Nat := c.slots.toList.countP (·.2.isSome)

def isEmpty (c : Slots) : Bool := c.size = 0

end Slots
end Cache
end CallResolution
