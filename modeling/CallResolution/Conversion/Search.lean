/-
# Searching for a conversion

Types convert to themselves, declared or not.  Otherwise both have to be
declared: a primitive converts to a primitive, a class or interface to a class
or interface, and an array to an array if its elements convert, where primitives
no longer widen.  `Host.conversionStep` either answers or passes on to the
elements; `Host.searchConversion` follows it.

Declared arrays can name each other, or themselves, as elements.  With `n` types
declared there are `n ^ 2` pairs to pass on from, so a search that has not
answered after `n ^ 2 + 1` steps has come back to a pair, and there is no answer.
A registry counts its types; of the types of a host no more is known than that their
identities have 64 bits.  `searchAnswer?` keeps this apart from the answer that there
is no conversion, and `Registry.searchEnds` tells which searches have an answer.
-/

import CallResolution.Conversion.Basic

namespace CallResolution

/-- One step of the search for a conversion between two types. -/
inductive ConversionStep where
  | answer (conversion? : Option Conversion)
  | elements (actual formal : TypeId)
deriving DecidableEq

namespace Host

/-- The step for a type passed where `formal` is declared. -/
def conversionStep (h : Host) (rules : Rules) (actual formal : TypeId) : ConversionStep :=
  if actual = formal then .answer (some .identity)
  else
    match h.find? actual, h.find? formal with
    | some (.ofPrimitive p), some (.ofPrimitive q) => .answer (p.kind.conversion? rules q.kind)
    | some (.ofArray a), some (.ofArray b) => .elements a.element b.element
    | some d, some e =>
      if d.isReference && e.isReference then .answer (h.referenceConversion? actual formal)
      else .answer none
    | _, _ => .answer none

/-- At most `fuel` steps of the search.  Elements are compared under the strict rules. -/
def searchConversion (h : Host) :
    Nat → Rules → TypeId → TypeId → Option Conversion
  | 0, _, _, _ => none
  | fuel + 1, rules, actual, formal =>
    match h.conversionStep rules actual formal with
    | .answer c? => c?
    | .elements a b => (h.searchConversion fuel .strict a b).map .ofElement

/-- What at most `fuel` steps of the search come to: its answer, once it has got to one. -/
def searchAnswer? (h : Host) :
    Nat → Rules → TypeId → TypeId → Option (Option Conversion)
  | 0, _, _, _ => none
  | fuel + 1, rules, actual, formal =>
    match h.conversionStep rules actual formal with
    | .answer c? => some c?
    | .elements a b => (h.searchAnswer? fuel .strict a b).map (Option.map .ofElement)

/-- The conversion of an argument to a parameter of type `formal`, found in at most `bound` steps. -/
def conversionWithin? (h : Host) (bound : Nat) (rules : Rules) (actual : Arg) (formal : TypeId) :
    Option Conversion :=
  match actual with
  | .null => h.nullConversion? formal
  | .ofType t => h.searchConversion bound rules t formal

/-- As many steps as a search can take that ends. -/
def searchBound : Nat := UInt64.size * UInt64.size + 1

/-- The conversion of an argument to a parameter of type `formal`. -/
def conversion? (h : Host) (rules : Rules) (actual : Arg) (formal : TypeId) : Option Conversion :=
  h.conversionWithin? searchBound rules actual formal

/-! ## One step after the other -/

variable {h : Host} {fuel : Nat} {rules : Rules} {t u x y : TypeId} {c? : Option Conversion}

theorem searchConversion_of_answer (hstep : h.conversionStep rules t u = .answer c?) :
    h.searchConversion (fuel + 1) rules t u = c? := by
  rw [searchConversion, hstep]

theorem searchConversion_of_elements (hstep : h.conversionStep rules t u = .elements x y) :
    h.searchConversion (fuel + 1) rules t u =
      (h.searchConversion fuel .strict x y).map .ofElement := by
  rw [searchConversion, hstep]

theorem searchAnswer?_of_answer (hstep : h.conversionStep rules t u = .answer c?) :
    h.searchAnswer? (fuel + 1) rules t u = some c? := by
  rw [searchAnswer?, hstep]

theorem searchAnswer?_of_elements (hstep : h.conversionStep rules t u = .elements x y) :
    h.searchAnswer? (fuel + 1) rules t u =
      (h.searchAnswer? fuel .strict x y).map (Option.map .ofElement) := by
  rw [searchAnswer?, hstep]

end Host

namespace Registry

/-- The step for a type passed where `formal` is declared. -/
def conversionStep (r : Registry) (rules : Rules) (actual formal : TypeId) : ConversionStep :=
  r.host.conversionStep rules actual formal

/-- At most `fuel` steps of the search. -/
def searchConversion (r : Registry) (fuel : Nat) (rules : Rules) (actual formal : TypeId) :
    Option Conversion :=
  r.host.searchConversion fuel rules actual formal

/-- As many steps as a search can take that ends. -/
def searchBound (r : Registry) : Nat := r.size * r.size + 1

/-- What at most `fuel` steps of the search come to: its answer, once it has got to one. -/
def searchAnswer? (r : Registry) (fuel : Nat) (rules : Rules) (actual formal : TypeId) :
    Option (Option Conversion) :=
  r.host.searchAnswer? fuel rules actual formal

/-- Whether the search for a conversion between two types gets to an answer. -/
def searchEnds (r : Registry) (rules : Rules) (actual formal : TypeId) : Bool :=
  (r.searchAnswer? r.searchBound rules actual formal).isSome

/-- The conversion of arrays from elements `actual` to elements `formal`. -/
def arrayConversion? (r : Registry) (actual formal : TypeId) : Option Conversion :=
  (r.searchConversion r.searchBound .strict actual formal).map .ofElement

/-- The conversion of an argument to a parameter of type `formal`. -/
def conversion? (r : Registry) (rules : Rules) (actual : Arg) (formal : TypeId) :
    Option Conversion :=
  r.host.conversionWithin? r.searchBound rules actual formal

/-- Whether an argument can be passed to a parameter of type `formal`. -/
def converts (r : Registry) (rules : Rules) (actual : Arg) (formal : TypeId) : Bool :=
  (r.conversion? rules actual formal).isSome

variable {r : Registry} {fuel : Nat} {rules : Rules} {t u x y : TypeId} {c? : Option Conversion}

theorem conversion?_null : r.conversion? rules .null u = r.nullConversion? u := rfl

theorem conversion?_ofType :
    r.conversion? rules (.ofType t) u = r.searchConversion r.searchBound rules t u := rfl

theorem searchConversion_of_answer (h : r.conversionStep rules t u = .answer c?) :
    r.searchConversion (fuel + 1) rules t u = c? :=
  Host.searchConversion_of_answer h

theorem searchConversion_of_elements (h : r.conversionStep rules t u = .elements x y) :
    r.searchConversion (fuel + 1) rules t u =
      (r.searchConversion fuel .strict x y).map .ofElement :=
  Host.searchConversion_of_elements h

theorem searchAnswer?_of_answer (h : r.conversionStep rules t u = .answer c?) :
    r.searchAnswer? (fuel + 1) rules t u = some c? :=
  Host.searchAnswer?_of_answer h

theorem searchAnswer?_of_elements (h : r.conversionStep rules t u = .elements x y) :
    r.searchAnswer? (fuel + 1) rules t u =
      (r.searchAnswer? fuel .strict x y).map (Option.map .ofElement) :=
  Host.searchAnswer?_of_elements h

end Registry
end CallResolution
