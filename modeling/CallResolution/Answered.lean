/-
# Calls that are answered

A call looks for conversions one after another, and what was found decides what is looked for next:
places of an argument list up to the first that does not convert, overloads of a bucket up to the
first exact one, and members of the running set up to the first that a candidate does not match.  If
one of these searches goes on for ever, so does the call.

For each part of a call the definitions here say whether all searches end that it makes, and
`constructorAnswer?` and `methodAnswer?` are what is selected if they do, and nothing otherwise.
-/

import CallResolution.Selection

namespace CallResolution

namespace Registry

/-- Whether the search for the conversion of an argument ends.  For null there is none. -/
def conversionEnds (r : Registry) (rules : Rules) (actual : Arg) (formal : TypeId) : Bool :=
  match actual with
  | .null => true
  | .ofType t => r.searchEnds rules t formal

/-- Whether the searches end that are made place by place. -/
def placesEnd (r : Registry) (rules : Rules) : List (TypeId × Arg) → Bool
  | [] => true
  | (formal, actual) :: places =>
    r.conversionEnds rules actual formal &&
      (!r.converts rules actual formal || r.placesEnd rules places)

/-- Whether it comes out if parameters of types `formals` accept the arguments. -/
def acceptsAllEnds (r : Registry) (rules : Rules) (formals : List TypeId) (actuals : List Arg) :
    Bool :=
  formals.length ≠ actuals.length || r.placesEnd rules (formals.zip actuals)

/-- Whether it comes out if `o` can be called with the arguments. -/
def acceptsEnds (r : Registry) (rules : Rules) (o : Overload) (args : List Arg) : Bool :=
  r.acceptsAllEnds rules o.params args

/-- Whether it comes out if one overload is as specific as another. -/
def isAsSpecificEnds (r : Registry) (rules : Rules) (first second : Overload) : Bool :=
  r.acceptsEnds rules second first.asArgs

end Registry

namespace Selection

variable {α : Type}

/-- Whether the comparisons end that a candidate is considered with.  The first member that it does
not match, or is compared with for ever, is its rival. -/
def considerEnds (better ends : α → α → Bool) (front : List α) (candidate : α) : Bool :=
  match front.find? fun member => !(ends candidate member && better candidate member) with
  | none => true
  | some rival => ends candidate rival && ends rival candidate

/-- The same for candidates that are considered in order. -/
def frontEnds (better ends : α → α → Bool) (front : List α) : List α → Bool
  | [] => true
  | candidate :: candidates =>
    considerEnds better ends front candidate &&
      frontEnds better ends (consider better front candidate) candidates

end Selection

namespace Registry

/-- Whether the scan of a bucket ends. -/
def candidatesEnd (r : Registry) (rules : Rules) (cat : Catalogue) (args : List Arg) :
    List Handle → Bool
  | [] => true
  | h :: hs =>
    match cat.find? h with
    | none => true
    | some o =>
      o.takesExactly args || r.acceptsEnds rules o args && r.candidatesEnd rules cat args hs

/-- Whether the most specific of some candidates come out. -/
def frontEnds (r : Registry) (rules : Rules) (candidates : List Overload) : Bool :=
  Selection.frontEnds (r.isAsSpecific rules) (r.isAsSpecificEnds rules) [] candidates

/-- Whether the selection from a bucket ends. -/
def selectEnds (r : Registry) (rules : Rules) (cat : Catalogue) (bucket : List Handle)
    (args : List Arg) : Bool :=
  r.candidatesEnd rules cat args bucket &&
    match r.candidates rules cat args bucket with
    | .ok (.applicable os) => r.frontEnds rules os
    | .ok (.exact _) | .error _ => true

/-- What is selected from a bucket, if the selection ends. -/
def selectAnswer? (r : Registry) (rules : Rules) (cat : Catalogue) (bucket : List Handle)
    (member : Option String) (args : List Arg) : Option (Except CallError Overload) :=
  if r.selectEnds rules cat bucket args then some (r.select rules cat bucket member args) else none

/-- The answer to a call of a constructor. -/
def constructorAnswer? (r : Registry) (rules : Rules) (cat : Catalogue) (args : List Arg) :
    Option (Except CallError Overload) :=
  r.selectAnswer? rules cat cat.constructors none args

/-- The answer to a call of the method called `name`. -/
def methodAnswer? (r : Registry) (rules : Rules) (cat : Catalogue) (name : String)
    (args : List Arg) : Option (Except CallError Overload) :=
  match cat.methods? name with
  | none => some (.error (.notFound ⟨cat.targetName, some name, args⟩ .unknownName))
  | some bucket => r.selectAnswer? rules cat bucket (some name) args

end Registry
end CallResolution
