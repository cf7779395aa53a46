/-
# Applicability of a parameter list

A parameter list accepts an argument list when the two are equally long and each
argument can be passed at its place; there are no default parameters and no
variable arity.
-/

import CallResolution.Conversion.Search

namespace CallResolution

/-- Which lists of parameter types accept which arguments, as a host and the rules settle it. -/
abbrev Acceptance := List TypeId → List Arg → Bool

/-- What accepts arguments place by place, where `converts` tells what can be passed at one. -/
def Acceptance.ofPlaces (converts : Arg → TypeId → Bool) : Acceptance := fun formals actuals =>
  formals.length = actuals.length &&
    (formals.zip actuals).all fun (formal, actual) => converts actual formal

theorem Acceptance.ofPlaces_iff {converts : Arg → TypeId → Bool} {formals : List TypeId}
    {actuals : List Arg} : Acceptance.ofPlaces converts formals actuals ↔
      formals.length = actuals.length ∧
        ∀ place ∈ formals.zip actuals, converts place.2 place.1 := by
  rw [ofPlaces, Bool.and_eq_true, decide_eq_true_eq, List.all_eq_true]

/-- Whether parameters of types `formals` accept the arguments. -/
def Host.acceptsAll (h : Host) (rules : Rules) : Acceptance :=
  .ofPlaces fun actual formal => (h.conversion? rules actual formal).isSome

namespace Registry

/-- Whether parameters of types `formals` accept the arguments. -/
def acceptsAll (r : Registry) (rules : Rules) (formals : List TypeId) (actuals : List Arg) :
    Bool :=
  Acceptance.ofPlaces (r.converts rules) formals actuals

/-- The conversion at each place, if there is one at every place. -/
def conversions? (r : Registry) (rules : Rules) (formals : List TypeId) (actuals : List Arg) :
    Option (List Conversion) :=
  if formals.length = actuals.length then
    (formals.zip actuals).mapM fun (formal, actual) => r.conversion? rules actual formal
  else none

end Registry
end CallResolution
