/-
# The rules of conversion

`ConvertsBy` states rule by rule when a type converts to another and by which
conversion, without a bound on the steps.  The search follows these rules
(`convertsBy_of_search`), and finds whatever they give once it has more steps than
the arrays of its argument nest (`search_of_convertsBy`).  In a registry that plain
registrations lead to the bound of the search is large enough for every type, so there
the search and the rules say the same (`conversion?_ofType_iff`).
-/

import CallResolution.Conversion.Applicable
import CallResolution.Proofs.Registry.Nesting

namespace CallResolution
namespace Registry

/-- `t` converts to `u` by a conversion, under the given rules. -/
inductive ConvertsBy (r : Registry) : Rules → TypeId → TypeId → Conversion → Prop
  /-- A type converts to itself, registered or not. -/
  | identity {rules : Rules} {t : TypeId} : ConvertsBy r rules t t .identity
  /-- One primitive under two identities is the same type. -/
  | kind {rules : Rules} {t u : TypeId} {p q : PrimitiveDecl}
      (ht : r.find? t = some (.ofPrimitive p)) (hu : r.find? u = some (.ofPrimitive q))
      (hpq : p.kind = q.kind) : ConvertsBy r rules t u .identity
  | primitive {rules : Rules} {t u : TypeId} {p q : PrimitiveDecl}
      (ht : r.find? t = some (.ofPrimitive p)) (hu : r.find? u = some (.ofPrimitive q))
      (hrules : rules.widening) (hpq : p.kind.widens q.kind) :
      ConvertsBy r rules t u (.primitiveWidening p.kind q.kind)
  | reference {rules : Rules} {t u : TypeId} {d e : TypeDecl} (ht : r.find? t = some d)
      (hu : r.find? u = some e) (hd : d.isReference) (he : e.isReference)
      (h : u ∈ r.ancestors t) : ConvertsBy r rules t u (.referenceWidening u)
  /-- Elements convert under the strict rules, whatever the rules are. -/
  | array {rules : Rules} {t u : TypeId} {a b : ArrayDecl} {c : Conversion} (htu : t ≠ u)
      (ht : r.find? t = some (.ofArray a)) (hu : r.find? u = some (.ofArray b))
      (h : ConvertsBy r .strict a.element b.element c) : ConvertsBy r rules t u c.ofElement

variable {r : Registry}

/-! ## The search follows the rules -/

/-- A type that is not registered converts only to itself. -/
theorem ConvertsBy.eq_of_find?_eq_none {rules : Rules} {t u : TypeId} {c : Conversion}
    (h : r.ConvertsBy rules t u c) (ht : r.find? t = none) : t = u ∧ c = .identity := by
  cases h with
  | identity => exact ⟨rfl, rfl⟩
  | kind ht' | primitive ht' | reference ht' | array _ ht' => simp [ht] at ht'

theorem convertsBy_of_primitive {rules : Rules} {t u : TypeId} {p q : PrimitiveDecl}
    {c : Conversion} (ht : r.find? t = some (.ofPrimitive p))
    (hu : r.find? u = some (.ofPrimitive q))
    (hc : p.kind.conversion? rules q.kind = some c) : r.ConvertsBy rules t u c := by
  rw [Primitive.conversion?] at hc
  split at hc
  · next hpq =>
    obtain rfl := Option.some.inj hc
    exact .kind ht hu hpq
  · split at hc
    · next hw =>
      rw [Bool.and_eq_true] at hw
      obtain rfl := Option.some.inj hc
      exact .primitive ht hu hw.1 hw.2
    · cases hc

theorem convertsBy_of_reference {rules : Rules} {t u : TypeId} {d e : TypeDecl} {c : Conversion}
    (ht : r.find? t = some d) (hu : r.find? u = some e) (hd : d.isReference) (he : e.isReference)
    (hc : r.referenceConversion? t u = some c) : r.ConvertsBy rules t u c := by
  rw [referenceConversion?, Host.referenceConversion?] at hc
  split at hc
  · next htu =>
    obtain rfl := Option.some.inj hc
    exact htu ▸ .identity
  · next htu =>
    split at hc
    · next hconf =>
      obtain rfl := Option.some.inj hc
      exact .reference ht hu hd he ((conforms_iff.1 hconf).resolve_left htu)
    · cases hc

/-- An answer of one step is a conversion by a rule that does not look into arrays. -/
theorem convertsBy_of_answer {rules : Rules} {t u : TypeId} {c : Conversion}
    (hstep : r.conversionStep rules t u = .answer (some c)) : r.ConvertsBy rules t u c := by
  rw [conversionStep, Host.conversionStep] at hstep
  split at hstep
  · next htu =>
    obtain rfl := Option.some.inj (ConversionStep.answer.inj hstep)
    exact htu ▸ .identity
  · split at hstep
    · next p q ht hu => exact convertsBy_of_primitive ht hu (ConversionStep.answer.inj hstep)
    · cases hstep
    · next d e ht hu =>
      split at hstep
      · next href =>
        rw [Bool.and_eq_true] at href
        exact convertsBy_of_reference ht hu href.1 href.2 (ConversionStep.answer.inj hstep)
      · cases ConversionStep.answer.inj hstep
    · cases ConversionStep.answer.inj hstep

/-- Only from two arrays the search goes on, to their elements. -/
theorem arrays_of_elements {rules : Rules} {t u x y : TypeId}
    (hstep : r.conversionStep rules t u = .elements x y) :
    t ≠ u ∧ ∃ a b, r.find? t = some (.ofArray a) ∧ r.find? u = some (.ofArray b) ∧
      x = a.element ∧ y = b.element := by
  rw [conversionStep, Host.conversionStep] at hstep
  split at hstep
  · cases hstep
  · next htu =>
    split at hstep
    · cases hstep
    · next a b ht hu =>
      obtain ⟨rfl, rfl⟩ := ConversionStep.elements.inj hstep
      exact ⟨htu, a, b, ht, hu, rfl, rfl⟩
    · split at hstep <;> cases hstep
    · cases hstep

/-- **The search finds nothing that the rules do not give.** -/
theorem convertsBy_of_search {fuel : Nat} {rules : Rules} {t u : TypeId} {c : Conversion}
    (hc : r.searchConversion fuel rules t u = some c) : r.ConvertsBy rules t u c := by
  induction fuel generalizing rules t u c with
  | zero => cases hc
  | succ fuel ih =>
    cases hstep : r.conversionStep rules t u with
    | answer c? =>
      rw [searchConversion_of_answer hstep] at hc
      exact convertsBy_of_answer (hc ▸ hstep)
    | elements x y =>
      rw [searchConversion_of_elements hstep] at hc
      obtain ⟨htu, a, b, ht, hu, rfl, rfl⟩ := arrays_of_elements hstep
      obtain ⟨c', hc', rfl⟩ := Option.map_eq_some_iff.1 hc
      exact .array htu ht hu (ih hc')

/-! ## The search follows every rule -/

theorem widens_irrefl (p : Primitive) : p.widens p = false := by cases p <;> decide

theorem conversionStep_self (rules : Rules) (t : TypeId) :
    r.conversionStep rules t t = .answer (some .identity) := if_pos rfl

/-- Between primitives the step answers with their conversion. -/
theorem conversionStep_ofPrimitive {t u : TypeId} {p q : PrimitiveDecl} (rules : Rules)
    (htu : t ≠ u) (ht : r.find? t = some (.ofPrimitive p))
    (hu : r.find? u = some (.ofPrimitive q)) :
    r.conversionStep rules t u = .answer (p.kind.conversion? rules q.kind) := by
  simp only [conversionStep, Host.conversionStep, host_find?, if_neg htu, ht, hu]

/-- Between arrays the step passes on to the elements. -/
theorem conversionStep_ofArray {t u : TypeId} {a b : ArrayDecl} (rules : Rules) (htu : t ≠ u)
    (ht : r.find? t = some (.ofArray a)) (hu : r.find? u = some (.ofArray b)) :
    r.conversionStep rules t u = .elements a.element b.element := by
  simp only [conversionStep, Host.conversionStep, host_find?, if_neg htu, ht, hu]

/-- Between classes and interfaces the step answers along the subtype graph. -/
theorem conversionStep_of_isReference {t u : TypeId} {d e : TypeDecl} (rules : Rules) (htu : t ≠ u)
    (ht : r.find? t = some d) (hu : r.find? u = some e) (hd : d.isReference) (he : e.isReference) :
    r.conversionStep rules t u = .answer (r.referenceConversion? t u) := by
  simp only [conversionStep, Host.conversionStep, host_find?, if_neg htu, ht, hu]
  split
  · next hp _ => rw [Option.some.inj hp] at hd; cases hd
  · next ha _ => rw [Option.some.inj ha] at hd; cases hd
  · next hd' he' =>
    rw [← Option.some.inj hd', ← Option.some.inj he', hd, he]
    rfl
  · next hnone => exact absurd rfl (hnone d e rfl)

/-- **The search finds what the rules give**, if it has a step for each array around the base of the
argument and one for the base. -/
theorem search_of_convertsBy {rules : Rules} {t u : TypeId} {c : Conversion}
    (h : r.ConvertsBy rules t u c) {base : TypeId} {depth fuel : Nat} (hn : r.Nested base t depth)
    (hfuel : depth ≤ fuel) : r.searchConversion (fuel + 1) rules t u = some c := by
  induction h generalizing depth fuel with
  | identity => exact searchConversion_of_answer (conversionStep_self _ _)
  | @kind rules t u p q ht hu hpq =>
    by_cases htu : t = u
    · exact htu ▸ searchConversion_of_answer (conversionStep_self _ _)
    · rw [searchConversion_of_answer (conversionStep_ofPrimitive rules htu ht hu),
        Primitive.conversion?, if_pos hpq]
  | @primitive rules t u p q ht hu hrules hpq =>
    have hne : p.kind ≠ q.kind := by
      intro heq
      simp [heq, widens_irrefl] at hpq
    have htu : t ≠ u := by
      rintro rfl
      exact hne (congrArg _ (TypeDecl.ofPrimitive.inj (find?_unique ht hu)))
    rw [searchConversion_of_answer (conversionStep_ofPrimitive rules htu ht hu)]
    simp [Primitive.conversion?, hne, hrules, hpq]
  | @reference rules t u d e ht hu hd he h =>
    have htu : t ≠ u := by
      rintro rfl
      exact Hierarchy.not_mem_ancestors_self _ _ h
    have hconf : r.host.conforms t u := conforms_iff.2 (.inr h)
    rw [searchConversion_of_answer (conversionStep_of_isReference rules htu ht hu hd he),
      referenceConversion?, Host.referenceConversion?, if_neg htu, if_pos hconf]
  | @array rules t u a b c htu ht hu h ih =>
    cases hn with
    | base hb hd => rw [find?_unique hb ht] at hd; cases hd
    | array ha hn =>
      obtain rfl := TypeDecl.ofArray.inj (find?_unique ha ht)
      obtain ⟨fuel, rfl⟩ : ∃ rest, fuel = rest + 1 := ⟨fuel - 1, by omega⟩
      rw [searchConversion_of_elements (conversionStep_ofArray rules htu ht hu),
        ih hn (by omega : _ ≤ fuel), Option.map_some]

/-- **In a registry that plain registrations lead to, the search and the rules say the same.** -/
theorem Regular.conversion?_ofType_iff (hr : r.Regular) {rules : Rules} {t u : TypeId}
    {c : Conversion} : r.conversion? rules (.ofType t) u = some c ↔ r.ConvertsBy rules t u c := by
  rw [conversion?_ofType]
  refine ⟨convertsBy_of_search, fun h => ?_⟩
  cases ht : r.find? t with
  | none =>
    obtain ⟨rfl, rfl⟩ := h.eq_of_find?_eq_none ht
    exact searchConversion_of_answer (conversionStep_self _ _)
  | some d =>
    obtain ⟨base, depth, hn, hlt⟩ := hr.exists_nested ht
    have hbound : depth ≤ r.size * r.size := by
      have := Nat.le_mul_self r.size
      omega
    exact search_of_convertsBy h hn hbound

/-- A type passes for another when some conversion leads there. -/
theorem Regular.converts_ofType_iff (hr : r.Regular) {rules : Rules} {t u : TypeId} :
    r.converts rules (.ofType t) u ↔ ∃ c, r.ConvertsBy rules t u c := by
  simp only [converts, Option.isSome_iff_exists, hr.conversion?_ofType_iff]

/-- Null passes for every registered type that is no primitive. -/
theorem converts_null_iff {rules : Rules} {u : TypeId} :
    r.converts rules .null u ↔ ∃ d, r.find? u = some d ∧ d.isPrimitive = false := by
  rw [converts, conversion?_null, nullConversion?, Host.nullConversion?, host_find?]
  cases r.find? u with
  | none => simp
  | some d => cases d <;> simp [TypeDecl.isPrimitive]

end Registry
end CallResolution
