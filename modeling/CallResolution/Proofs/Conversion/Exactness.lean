/-
# What accepts, what converts and what is exact

Parameters accept arguments, there is a conversion at every place, and the arguments are of exactly
the parameter types: the first two are the same, and the third is that every conversion is identity.

The third goes by the identities of types on one side, and on the other by a conversion that the
search also makes up, of equal kinds of primitives and of arrays whose elements are exact.  In a
registry that plain registrations lead to, these are the same types again: a primitive is registered
under the identity of its name and an array under that of its element, so nothing but a type itself
converts to it by identity (`Regular.conversion?_eq_identity_iff`).
-/

import CallResolution.Overload
import CallResolution.Proofs.Conversion.Growth
import CallResolution.Proofs.Conversion.Termination

namespace CallResolution

theorem mapM_eq_some_iff {α β : Type} {f : α → Option β} {xs : List α} {ys : List β} :
    xs.mapM f = some ys ↔ xs.map f = ys.map some := by
  induction xs generalizing ys with
  | nil => cases ys <;> simp
  | cons x xs ih =>
    rw [List.mapM_cons, List.map_cons]
    cases ys with
    | nil => cases f x <;> cases xs.mapM f <;> simp
    | cons y ys =>
      rw [List.map_cons, List.cons.injEq, ← ih]
      cases f x <;> cases xs.mapM f <;> simp

theorem Overload.takesExactly_iff {o : Overload} {args : List Arg} :
    o.takesExactly args ↔ o.asArgs = args := by
  rw [takesExactly, decide_eq_true_eq]

namespace Conversion

@[simp]
theorem isExact_iff {c : Conversion} : c.isExact ↔ c = identity := by
  rw [isExact, decide_eq_true_eq]

/-- Arrays are exact just when their elements are. -/
theorem ofElement_eq_identity_iff {c : Conversion} : c.ofElement = identity ↔ c = identity := by
  rw [ofElement]
  split
  · next h => exact iff_of_true rfl (isExact_iff.1 h)
  · next h => exact iff_of_false (fun h => nomatch h) (mt isExact_iff.2 h)

end Conversion

namespace Registry

variable {r : Registry}

/-! ## One place -/

/-- Identity leads from a type to itself only, however deep its arrays are. -/
theorem Regular.eq_of_convertsBy_identity (hr : r.Regular) {rules : Rules} {t u : TypeId}
    {c : Conversion} (h : r.ConvertsBy rules t u c) (hc : c = .identity) : t = u := by
  induction h with
  | identity => rfl
  | kind ht hu hpq => exact hr.eq_of_kind_eq ht hu hpq
  | primitive | reference => cases hc
  | array _ ht hu _ ih =>
    rw [hr.eq_arrayOf ht, hr.eq_arrayOf hu, ih (Conversion.ofElement_eq_identity_iff.1 hc)]

/-- It may lead to another type if a primitive is declared under an identity that is not its own. -/
example : (empty.applyAll [.decl (.ofPrimitive ⟨.int32, .ofName "word"⟩),
    .primitive .int32]).2.conversion? .strict (.ofType (.ofName "word")) Primitive.int32.id =
      some .identity := by
  decide +kernel

/-- **Only arguments of the very type convert by identity.** -/
theorem Regular.conversion?_eq_identity_iff (hr : r.Regular) {rules : Rules} {actual : Arg}
    {formal : TypeId} :
    r.conversion? rules actual formal = some .identity ↔ actual = .ofType formal := by
  cases actual with
  | null =>
    refine iff_of_false (fun h => ?_) (fun h => nomatch h)
    rw [conversion?_null, nullConversion?, Host.nullConversion?] at h
    split at h <;> cases h
  | ofType t =>
    rw [hr.conversion?_ofType_iff, Arg.ofType.injEq]
    refine ⟨fun h => hr.eq_of_convertsBy_identity h rfl, ?_⟩
    rintro rfl
    exact .identity

/-! ## All places -/

/-- The conversions of an argument list are those found place by place. -/
theorem conversions?_eq_some_iff {rules : Rules} {formals : List TypeId} {actuals : List Arg}
    {cs : List Conversion} : r.conversions? rules formals actuals = some cs ↔
      formals.length = actuals.length ∧
        List.zipWith (fun formal actual => r.conversion? rules actual formal) formals actuals =
          cs.map some := by
  rw [conversions?]
  split
  · next hlen =>
    rw [mapM_eq_some_iff, and_iff_right hlen]
    exact iff_of_eq (congrArg (· = cs.map some) List.map_zip_eq_zipWith)
  · next hlen => simp [hlen]

/-- There is a conversion for every place, and it is the one of that place. -/
theorem conversions?_places {rules : Rules} {formals : List TypeId} {actuals : List Arg}
    {cs : List Conversion} (h : r.conversions? rules formals actuals = some cs) :
    formals.length = actuals.length ∧ cs.length = formals.length ∧
      ∀ (i : Nat) formal actual, formals[i]? = some formal → actuals[i]? = some actual →
        cs[i]? = r.conversion? rules actual formal := by
  obtain ⟨hlen, hzip⟩ := conversions?_eq_some_iff.1 h
  refine ⟨hlen, ?_, fun i formal actual hf ha => ?_⟩
  · have := congrArg List.length hzip
    rwa [List.length_zipWith, ← hlen, Nat.min_self, List.length_map, eq_comm] at this
  · have hplace := congrArg (·[i]?) hzip
    simp only [List.getElem?_zipWith, hf, ha, List.getElem?_map] at hplace
    obtain ⟨c, hc, hconv⟩ := Option.map_eq_some_iff.1 hplace.symm
    rw [hc, hconv]

/-- **Arguments are of exactly the given types just when all of them convert by identity.** -/
theorem Regular.conversions?_exact_iff (hr : r.Regular) {rules : Rules} {formals : List TypeId}
    {actuals : List Arg} :
    (∃ cs, r.conversions? rules formals actuals = some cs ∧ ∀ c ∈ cs, c.isExact) ↔
      formals.map .ofType = actuals := by
  constructor
  · rintro ⟨cs, hcs, hexact⟩
    obtain ⟨hlen, hlen', hplace⟩ := conversions?_places hcs
    refine List.ext_getElem (by rwa [List.length_map]) fun i hi hi' => ?_
    rw [List.length_map] at hi
    have hc := hplace i _ _ (List.getElem?_eq_getElem hi) (List.getElem?_eq_getElem hi')
    rw [List.getElem?_eq_getElem (hlen' ▸ hi),
      Conversion.isExact_iff.1 (hexact _ (List.getElem_mem _))] at hc
    rw [List.getElem_map, hr.conversion?_eq_identity_iff.1 hc.symm]
  · rintro rfl
    refine ⟨formals.map fun _ => .identity, conversions?_eq_some_iff.2 ⟨by simp, ?_⟩, by simp⟩
    simp only [List.zipWith_map_right, List.zipWith_self, List.map_map, Function.comp_def,
      hr.conversion?_eq_identity_iff.2]

/-- **Three ways to look at applicability.**  In a registry that plain registrations lead to, under
all rules and for parameter and argument lists of any lengths: the search for a conversion ends for
any two types; there are conversions just when the parameters accept the arguments; they are one for
each place, the one of that place; and an overload with these parameters takes the arguments exactly
just when all of them are identity, which no argument of another type converts by. -/
theorem Regular.applicability_views (hr : r.Regular) (rules : Rules) (formals : List TypeId)
    (actuals : List Arg) :
    (∀ t u, r.Terminates rules t u) ∧
    ((r.conversions? rules formals actuals).isSome ↔ r.acceptsAll rules formals actuals) ∧
    (∀ cs, r.conversions? rules formals actuals = some cs →
      formals.length = actuals.length ∧ cs.length = formals.length ∧
        ∀ (i : Nat) formal actual, formals[i]? = some formal → actuals[i]? = some actual →
          cs[i]? = r.conversion? rules actual formal) ∧
    (∀ o : Overload, o.params = formals → (o.takesExactly actuals ↔
      ∃ cs, r.conversions? rules formals actuals = some cs ∧ ∀ c ∈ cs, c.isExact)) ∧
    ∀ actual formal, r.conversion? rules actual formal = some .identity ↔
      actual = .ofType formal := by
  refine ⟨?_, ?_, fun cs => conversions?_places, ?_, fun _ _ => hr.conversion?_eq_identity_iff⟩
  · exact forall_terminates_iff.2 (fun t _ ht => absurd ht (hr.not_selfNested t)) rules
  · rw [Option.isSome_iff_exists, acceptsAll_iff_conversions?]
  · rintro o rfl
    rw [hr.conversions?_exact_iff, Overload.takesExactly_iff, Overload.asArgs]

/-- Arrays of cats and a cat can be passed where arrays of animals and a cat are declared, the cat
by identity; but they are not of exactly these types. -/
theorem applicability_views_sample :
    let cat := TypeId.ofName "Cat"
    let animal := TypeId.ofName "Animal"
    let formals := [animal.arrayOf, cat]
    let actuals := [Arg.ofType cat.arrayOf, Arg.ofType cat]
    ∃ cs, sample.conversions? .strict formals actuals = some cs ∧ cs.length = 2 ∧
      cs[1]? = some .identity ∧ ∀ o : Overload, o.params = formals → ¬o.takesExactly actuals := by
  intro cat animal formals actuals
  obtain ⟨-, haccepts, hplaces, hexact, hidentity⟩ :=
    regular_sample.applicability_views .strict formals actuals
  obtain ⟨cs, hcs⟩ := Option.isSome_iff_exists.1 (haccepts.2 (by decide +kernel))
  obtain ⟨-, hlen, hplace⟩ := hplaces cs hcs
  refine ⟨cs, hcs, hlen, ?_, fun o ho htakes => ?_⟩
  · rw [hplace 1 cat (.ofType cat) rfl rfl, hidentity]
  · obtain ⟨cs, hcs, hall⟩ := (hexact o ho).1 htakes
    obtain ⟨-, hlen, hplace⟩ := hplaces cs hcs
    have hzero : 0 < cs.length := by rw [hlen]; decide
    have hfirst := hplace 0 animal.arrayOf (.ofType cat.arrayOf) rfl rfl
    rw [List.getElem?_eq_getElem hzero, Conversion.isExact_iff.1 (hall _ (List.getElem_mem _))]
      at hfirst
    exact absurd ((hidentity _ _).1 hfirst.symm) (by decide +kernel)

end Registry
end CallResolution
