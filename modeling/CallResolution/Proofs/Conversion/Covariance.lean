/-
# Arrays convert as their bases do

A registered array type is so many arrays around a base that is no array, in one way only
(`Nested.unique`), and the base and the depth determine it (`Regular.eq_of_nested`).  Going from
arrays to their elements, a conversion takes one array off both sides at a time.  So it ends at both
bases at once, or there is none: arrays of different depth never convert, whatever their bases are.
At the bases the strict rules hold, under which a primitive converts to itself alone, and what is
left is identity or a step up the subtype graph (`Regular.convertsBy_strict_iff`).

Since elements are compared under the strict rules in any case, it does not matter which rules
arrays are converted under (`ConvertsBy.of_array`).
-/

import CallResolution.Proofs.Conversion.Termination

namespace CallResolution

namespace Conversion

/-- `depth` conversions of arrays around a conversion of what the innermost of them hold. -/
def nest (depth : Nat) (c : Conversion) : Conversion := arrayCovariance^[depth] c

/-- How the innermost elements are converted. -/
def innermost : Conversion → Conversion
  | arrayCovariance c => c.innermost
  | c => c

theorem nest_succ (depth : Nat) (c : Conversion) :
    nest (depth + 1) c = arrayCovariance (nest depth c) :=
  Function.iterate_succ_apply' _ _ _

theorem innermost_nest (depth : Nat) (c : Conversion) : (nest depth c).innermost = c.innermost := by
  induction depth with
  | zero => rfl
  | succ depth ih => rw [nest_succ, innermost, ih]

theorem ofElement_identity : ofElement identity = identity := rfl

/-- A conversion that is no identity makes one more conversion of arrays. -/
theorem ofElement_nest (depth : Nat) (t : TypeId) :
    ofElement (nest depth (.referenceWidening t)) = nest (depth + 1) (.referenceWidening t) := by
  rw [nest_succ]
  cases depth with
  | zero => rfl
  | succ depth =>
    rw [nest_succ]
    rfl

end Conversion

namespace Registry

variable {r : Registry}

/-! ## Base and depth -/

theorem Nested.exists_base {base t : TypeId} {depth : Nat} (h : r.Nested base t depth) :
    ∃ d, r.find? base = some d ∧ d.isArray = false := by
  induction h with
  | base h hd => exact ⟨_, h, hd⟩
  | array _ _ ih => exact ih

/-- What is around some base is an array. -/
theorem Nested.exists_array {base t : TypeId} {depth : Nat} (h : r.Nested base t depth)
    (hdepth : 1 ≤ depth) : ∃ a, r.find? t = some (.ofArray a) := by
  cases h with
  | base => omega
  | array ht _ => exact ⟨_, ht⟩

/-- The base is what is left when so many arrays are taken off. -/
theorem nested_iff_peel? {base t : TypeId} {depth : Nat} : r.Nested base t depth ↔
    r.peel? depth t = some base ∧ (r.find? base).any (!·.isArray) := by
  constructor
  · intro h
    obtain ⟨d, hd, hbase⟩ := h.exists_base
    refine ⟨?_, by rw [hd, Option.any_some, hbase]; rfl⟩
    clear hd hbase
    induction h with
    | base => rfl
    | @array t a depth ht _ ih =>
      rw [peel?, element?_eq_some_iff.2 ⟨a, ht, rfl⟩, Option.bind_some, ih]
  · rintro ⟨hpeel, hbase⟩
    induction depth generalizing t with
    | zero =>
      obtain rfl := Option.some.inj hpeel
      obtain ⟨d, hd, hd'⟩ := (Option.any_eq_true _ _).1 hbase
      exact .base hd (by simpa using hd')
    | succ depth ih =>
      obtain ⟨e, he, hpeel⟩ := Option.bind_eq_some_iff.1 hpeel
      obtain ⟨a, ha, rfl⟩ := element?_eq_some_iff.1 he
      exact .array ha (ih hpeel)

/-- **A type has one base and one depth.** -/
theorem Nested.unique {base base' t : TypeId} {depth depth' : Nat} (h : r.Nested base t depth)
    (h' : r.Nested base' t depth') : base = base' ∧ depth = depth' := by
  induction h generalizing base' depth' with
  | base h hd =>
    cases h' with
    | base => exact ⟨rfl, rfl⟩
    | array ht _ => rw [find?_unique h ht] at hd; cases hd
  | array ht _ ih =>
    cases h' with
    | base h hd => rw [find?_unique h ht] at hd; cases hd
    | array ht' he =>
      obtain rfl := TypeDecl.ofArray.inj (find?_unique ht ht')
      obtain ⟨rfl, rfl⟩ := ih he
      exact ⟨rfl, rfl⟩

/-- **Base and depth determine the type**, as an element type determines its array type. -/
theorem Regular.eq_of_nested (hr : r.Regular) {base t u : TypeId} {depth : Nat}
    (ht : r.Nested base t depth) (hu : r.Nested base u depth) : t = u := by
  induction ht generalizing u with
  | base => cases hu; rfl
  | array ht _ ih =>
    cases hu with
    | array hu he => rw [hr.eq_arrayOf ht, hr.eq_arrayOf hu, ih he]

/-! ## Conversions -/

/-- `t` is registered as a class or an interface. -/
def HasReference (r : Registry) (t : TypeId) : Prop := ∃ d, r.find? t = some d ∧ d.isReference

theorem HasReference.eq_base {base t : TypeId} {depth : Nat} (h : r.HasReference t)
    (hn : r.Nested base t depth) : base = t ∧ depth = 0 := by
  cases hn with
  | base => exact ⟨rfl, rfl⟩
  | array ht _ =>
    obtain ⟨d, hd, href⟩ := h
    rw [find?_unique hd ht] at href
    cases href

/-- An array converts, and is converted to, in the same way under all rules. -/
theorem ConvertsBy.of_array {rules : Rules} {t u : TypeId} {a : ArrayDecl} {c : Conversion}
    (h : r.ConvertsBy rules t u c)
    (harray : r.find? t = some (.ofArray a) ∨ r.find? u = some (.ofArray a)) (rules' : Rules) :
    r.ConvertsBy rules' t u c := by
  cases h with
  | identity => exact .identity
  | kind ht hu hpq => exact .kind ht hu hpq
  | primitive ht hu _ _ =>
    rcases harray with ha | ha
    · cases find?_unique ht ha
    · cases find?_unique hu ha
  | reference ht hu hd he hmem => exact .reference ht hu hd he hmem
  | array htu ht hu hel => exact .array htu ht hu hel

/-- Under the strict rules nothing but classes and interfaces converts to another type, and what is
as many arrays around one of them. -/
theorem Regular.convertsBy_strict_iff (hr : r.Regular) {t u a b : TypeId} {m n : Nat}
    (ht : r.Nested a t m) (hu : r.Nested b u n) {c : Conversion} :
    r.ConvertsBy .strict t u c ↔ m = n ∧ (a = b ∧ c = .identity ∨
      (r.HasReference a ∧ r.HasReference b ∧ b ∈ r.ancestors a) ∧
        c = .nest m (.referenceWidening b)) := by
  constructor
  · intro h
    induction ht generalizing u n c with
    | @base d hd hbase =>
      cases h with
      | identity =>
        obtain ⟨rfl, rfl⟩ := Nested.unique (.base hd hbase) hu
        exact ⟨rfl, .inl ⟨rfl, rfl⟩⟩
      | kind ht' hu' hpq =>
        obtain rfl := hr.eq_of_kind_eq ht' hu' hpq
        obtain ⟨rfl, rfl⟩ := Nested.unique (.base hd hbase) hu
        exact ⟨rfl, .inl ⟨rfl, rfl⟩⟩
      | primitive _ _ hrules _ => cases hrules
      | reference ht' hu' hdref heref hmem =>
        obtain ⟨rfl, rfl⟩ := HasReference.eq_base ⟨_, hu', heref⟩ hu
        exact ⟨rfl, .inr ⟨⟨⟨_, ht', hdref⟩, ⟨_, hu', heref⟩, hmem⟩, rfl⟩⟩
      | array _ ht' _ _ => rw [find?_unique hd ht'] at hbase; cases hbase
    | @array t x depth htx hx ih =>
      cases h with
      | identity =>
        obtain ⟨rfl, rfl⟩ := Nested.unique (.array htx hx) hu
        exact ⟨rfl, .inl ⟨rfl, rfl⟩⟩
      | kind ht' hu' hpq =>
        obtain rfl := hr.eq_of_kind_eq ht' hu' hpq
        obtain ⟨rfl, rfl⟩ := Nested.unique (.array htx hx) hu
        exact ⟨rfl, .inl ⟨rfl, rfl⟩⟩
      | primitive _ _ hrules _ => cases hrules
      | reference ht' _ hdref _ _ => rw [find?_unique ht' htx] at hdref; cases hdref
      | @array _ _ _ x' y c htu ht' huy hel =>
        obtain rfl := TypeDecl.ofArray.inj (find?_unique htx ht')
        cases hu with
        | base hu' hbase => rw [find?_unique hu' huy] at hbase; cases hbase
        | array huy' hy =>
          obtain rfl := TypeDecl.ofArray.inj (find?_unique huy huy')
          obtain ⟨rfl, ⟨hab, rfl⟩ | ⟨hup, rfl⟩⟩ := ih hy hel
          · exact ⟨rfl, .inl ⟨hab, Conversion.ofElement_identity⟩⟩
          · exact ⟨rfl, .inr ⟨hup, Conversion.ofElement_nest depth b⟩⟩
  · rintro ⟨rfl, ⟨rfl, rfl⟩ | ⟨⟨hrefa, hrefb, hmem⟩, rfl⟩⟩
    · obtain rfl := hr.eq_of_nested ht hu
      exact .identity
    · have hne : a ≠ b := fun hab => Hierarchy.not_mem_ancestors_self _ _ (hab ▸ hmem)
      induction ht generalizing u with
      | base =>
        cases hu with
        | base =>
          obtain ⟨d, hd, hdref⟩ := hrefa
          obtain ⟨e, he, heref⟩ := hrefb
          exact .reference hd he hdref heref hmem
      | @array t x depth htx hx ih =>
        cases hu with
        | array huy hy =>
          have htu : t ≠ u := by
            rintro rfl
            exact hne (Nested.unique (.array htx hx) (.array huy hy)).1
          rw [← Conversion.ofElement_nest]
          exact .array htu htx huy (ih hy)

/-- Once arrays come in on either side, the same is true under all rules. -/
theorem Regular.convertsBy_iff (hr : r.Regular) {rules : Rules} {t u a b : TypeId} {m n : Nat}
    (ht : r.Nested a t m) (hu : r.Nested b u n) (harrays : 1 ≤ m ∨ 1 ≤ n) {c : Conversion} :
    r.ConvertsBy rules t u c ↔ m = n ∧ (a = b ∧ c = .identity ∨
      (r.HasReference a ∧ r.HasReference b ∧ b ∈ r.ancestors a) ∧
        c = .nest m (.referenceWidening b)) := by
  have harray : ∃ x, r.find? t = some (.ofArray x) ∨ r.find? u = some (.ofArray x) := by
    rcases harrays with hm | hn
    · exact (ht.exists_array hm).imp fun _ => .inl
    · exact (hu.exists_array hn).imp fun _ => .inr
  obtain ⟨x, hx⟩ := harray
  rw [← hr.convertsBy_strict_iff ht hu]
  exact ⟨fun h => h.of_array hx .strict, fun h => h.of_array hx rules⟩

/-- **Arrays convert as their bases do, at any depth.**  In a registry that plain registrations lead
to, every array type is so many arrays around a registered type that is no array.  Let one be `m`
arrays around `a` and another `n` arrays around `b`, and one of them an array.  Then under all rules
the search ends; there is a conversion just when they are equally deep and the bases are the same,
or are classes or interfaces with `b` above `a`; it is identity for the same bases, and otherwise
`n` conversions of arrays around the step up to `b`, so that no primitive is widened inside. -/
theorem Regular.array_covariance (hr : r.Regular) :
    (∀ t x, r.find? t = some (.ofArray x) → ∃ a n, 1 ≤ n ∧ r.Nested a t n ∧
      ∃ d, r.find? a = some d ∧ d.isArray = false) ∧
    ∀ t u a b m n, r.Nested a t m → r.Nested b u n → 1 ≤ m ∨ 1 ≤ n → ∀ rules,
      r.Terminates rules t u ∧
      (r.converts rules (.ofType t) u ↔ m = n ∧
        (a = b ∨ r.HasReference a ∧ r.HasReference b ∧ b ∈ r.ancestors a)) ∧
      (∀ c, r.conversion? rules (.ofType t) u = some c →
        c = (if a = b then .identity else .nest n (.referenceWidening b)) ∧
        ∀ p q, c.innermost ≠ .primitiveWidening p q) ∧
      ∀ rules', r.conversion? rules' (.ofType t) u = r.conversion? rules (.ofType t) u := by
  refine ⟨fun t x ht => ?_, fun t u a b m n ht hu harrays rules => ⟨?_, ?_, fun c hc => ?_, ?_⟩⟩
  · obtain ⟨a, n, hn, -⟩ := hr.exists_nested ht
    refine ⟨a, n, ?_, hn, hn.exists_base⟩
    cases hn with
    | base hbase hd => rw [find?_unique hbase ht] at hd; cases hd
    | array _ _ => omega
  · exact terminates_iff.2 ⟨m + 1, .inl ht.peel?_eq_none⟩
  · simp only [hr.converts_ofType_iff, hr.convertsBy_iff ht hu harrays, exists_and_left, exists_or,
      exists_eq, and_true]
  · rw [hr.conversion?_ofType_iff, hr.convertsBy_iff ht hu harrays] at hc
    obtain ⟨rfl, ⟨hab, rfl⟩ | ⟨⟨-, -, hmem⟩, rfl⟩⟩ := hc
    · rw [if_pos hab]
      exact ⟨rfl, fun _ _ h => nomatch h⟩
    · have hne : a ≠ b := fun hab => Hierarchy.not_mem_ancestors_self _ _ (hab ▸ hmem)
      rw [if_neg hne]
      refine ⟨rfl, fun _ _ h => ?_⟩
      rw [Conversion.innermost_nest] at h
      cases h
  · intro rules'
    refine Option.ext fun c => ?_
    rw [hr.conversion?_ofType_iff, hr.conversion?_ofType_iff, hr.convertsBy_iff ht hu harrays,
      hr.convertsBy_iff ht hu harrays]

/-- The sample with arrays of its arrays of cats and of animals, and with arrays of two primitives
of which one widens to the other. -/
def grids : Registry :=
  let arrays := [(TypeId.ofName "Cat").arrayOf, (TypeId.ofName "Animal").arrayOf,
    Primitive.int32.id, Primitive.int64.id]
  (sample.applyAll (arrays.map .array)).2

/-- Two arrays deep, cats pass for animals.  Integers widen, arrays of them do not. -/
theorem array_covariance_grids :
    let cat := TypeId.ofName "Cat"
    let animal := TypeId.ofName "Animal"
    let int := Primitive.int32.id
    let long := Primitive.int64.id
    (∀ rules, grids.conversion? rules (.ofType cat.arrayOf.arrayOf) animal.arrayOf.arrayOf =
      some (.arrayCovariance (.arrayCovariance (.referenceWidening animal)))) ∧
    grids.converts .widen (.ofType int) long ∧
    ∀ rules, ¬grids.converts rules (.ofType int.arrayOf) long.arrayOf := by
  intro cat animal int long
  have hgrids : grids.Regular := regular_sample.applyAll (by decide +kernel)
  have hreference {t : TypeId} (h : (grids.find? t).any (·.isReference)) :
      grids.HasReference t := by
    rwa [Option.any_eq_true] at h
  have hcats : grids.Nested cat cat.arrayOf.arrayOf 2 :=
    nested_iff_peel?.2 ⟨by decide +kernel, by decide +kernel⟩
  have hanimals : grids.Nested animal animal.arrayOf.arrayOf 2 :=
    nested_iff_peel?.2 ⟨by decide +kernel, by decide +kernel⟩
  have hints : grids.Nested int int.arrayOf 1 :=
    nested_iff_peel?.2 ⟨by decide +kernel, by decide +kernel⟩
  have hlongs : grids.Nested long long.arrayOf 1 :=
    nested_iff_peel?.2 ⟨by decide +kernel, by decide +kernel⟩
  obtain ⟨-, hcov⟩ := hgrids.array_covariance
  have hne : cat ≠ animal := by decide +kernel
  refine ⟨fun rules => ?_, by decide +kernel, fun rules h => ?_⟩
  · obtain ⟨-, hiff, hform, -⟩ := hcov _ _ _ _ _ _ hcats hanimals (.inl (by decide)) rules
    have hup : animal ∈ grids.ancestors cat := by decide +kernel
    obtain ⟨c, hc⟩ := Option.isSome_iff_exists.1 (hiff.2
      ⟨rfl, .inr ⟨hreference (by decide +kernel), hreference (by decide +kernel), hup⟩⟩)
    rw [hc, (hform c hc).1, if_neg hne]
    rfl
  · obtain ⟨-, hiff, -⟩ := hcov _ _ _ _ _ _ hints hlongs (.inl (by decide)) rules
    obtain ⟨-, hsame | ⟨⟨d, hd, href⟩, -⟩⟩ := hiff.1 h
    · exact absurd hsame (by decide +kernel)
    · have hprim : (grids.find? int).all (·.isPrimitive) := by decide +kernel
      rw [hd] at hprim
      cases d <;> cases href <;> cases hprim

end Registry
end CallResolution
