/-
# Selecting the overload to call

Of the overloads in a bucket, one whose parameters are of exactly the argument types is
called at once.  Otherwise those that accept the arguments compete: a single one is
called, and of several the one that is as specific as each other, if there is one.

Overloads are only partially ordered, and two of them can each be as specific as the
other.  `front` therefore keeps a running set: a candidate as specific as all of the
set takes its place, one that falls behind is dropped, and any other joins it.
-/

import CallResolution.Catalogue.Basic

namespace CallResolution

namespace Selection

variable {α : Type}

/-- The set after one more candidate.  Only the first member that the candidate does not
match decides whether it joins or is dropped. -/
def consider (better : α → α → Bool) (front : List α) (candidate : α) : List α :=
  match front.find? (!better candidate ·) with
  | none => [candidate]
  | some rival => if better rival candidate then front else front ++ [candidate]

/-- The set after all candidates, in order. -/
def front (better : α → α → Bool) (candidates : List α) : List α :=
  candidates.foldl (consider better) []

end Selection

/-- What of a bucket comes into question. -/
inductive Candidates where
  /-- This one is of exactly the argument types. -/
  | exact (o : Overload)
  /-- None is, and these accept the arguments. -/
  | applicable (os : List Overload)

namespace Selection

/-- The candidates of a bucket, whose handles `lookup` leads to overloads.  The first exact one ends
the search, and a handle that leads nowhere fails it. -/
def candidates (accepts : Acceptance) (lookup : Handle → Except CallError Overload)
    (args : List Arg) : List Handle → Except CallError Candidates
  | [] => .ok (.applicable [])
  | h :: hs =>
    match lookup h with
    | .error e => .error e
    | .ok o =>
      if o.takesExactly args then .ok (.exact o)
      else
        match candidates accepts lookup args hs with
        | .ok (.applicable os) =>
          .ok (.applicable (if accepts o.params args then o :: os else os))
        | found => found

/-- The choice among those that accept the arguments. -/
def choose (accepts : Acceptance) (call : Call) : List Overload → Except CallError Overload
  | [] => .error (.notFound call .noApplicable)
  | [only] => .ok only
  | several =>
    match front (Overload.isAsSpecific accepts) several with
    | [best] => .ok best
    | tied => .error (.ambiguous call tied)

/-- The overload of `bucket` to call. -/
def select (accepts : Acceptance) (lookup : Handle → Except CallError Overload) (call : Call)
    (bucket : List Handle) : Except CallError Overload :=
  if bucket.isEmpty then .error (.notFound call .noCandidates)
  else
    match candidates accepts lookup call.args bucket with
    | .error e => .error e
    | .ok (.exact o) => .ok o
    | .ok (.applicable os) => choose accepts call os

/-- The overload to call of the bucket of a name, if the name has one. -/
def selectNamed (accepts : Acceptance) (lookup : Handle → Except CallError Overload) (call : Call) :
    Option (List Handle) → Except CallError Overload
  | none => .error (.notFound call .unknownName)
  | some bucket => select accepts lookup call bucket

end Selection

namespace Registry

/-- The most specific candidates: one, if it is as specific as all others. -/
def front (r : Registry) (rules : Rules) (candidates : List Overload) : List Overload :=
  Selection.front (r.isAsSpecific rules) candidates

/-- The candidates of a bucket. -/
def candidates (r : Registry) (rules : Rules) (cat : Catalogue) (args : List Arg)
    (bucket : List Handle) : Except CallError Candidates :=
  Selection.candidates (r.acceptsAll rules) cat.lookup args bucket

/-- The choice among those that accept the arguments. -/
def choose (r : Registry) (rules : Rules) (call : Call) (os : List Overload) :
    Except CallError Overload :=
  Selection.choose (r.acceptsAll rules) call os

theorem choose_cons_cons (r : Registry) (rules : Rules) (call : Call) (o o' : Overload)
    (os : List Overload) : r.choose rules call (o :: o' :: os) =
      match r.front rules (o :: o' :: os) with
      | [best] => .ok best
      | tied => .error (.ambiguous call tied) := rfl

/-- The overload of `bucket` to call; `member` is what the call names. -/
def select (r : Registry) (rules : Rules) (cat : Catalogue) (bucket : List Handle)
    (member : Option String) (args : List Arg) : Except CallError Overload :=
  Selection.select (r.acceptsAll rules) cat.lookup ⟨cat.targetName, member, args⟩ bucket

/-- The constructor to call. -/
def selectConstructor (r : Registry) (rules : Rules) (cat : Catalogue) (args : List Arg) :
    Except CallError Overload :=
  r.select rules cat cat.constructors none args

/-- The method called `name` to call. -/
def selectMethod (r : Registry) (rules : Rules) (cat : Catalogue) (name : String)
    (args : List Arg) : Except CallError Overload :=
  Selection.selectNamed (r.acceptsAll rules) cat.lookup ⟨cat.targetName, some name, args⟩
    (cat.methods? name)

theorem selectMethod_of_methods? {cat : Catalogue} {name : String} {bucket : List Handle}
    (h : cat.methods? name = some bucket) (r : Registry) (rules : Rules) (args : List Arg) :
    r.selectMethod rules cat name args = r.select rules cat bucket (some name) args := by
  rw [selectMethod, h, select, Selection.selectNamed]

end Registry
end CallResolution
