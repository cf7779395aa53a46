/-
# The index of names

Every name in the index leads to a registered type of this name (`Reachable.find?_of_idOf?`), and the
name of a registered type is never lost from it (`Reachable.exists_findNamed?`).  The type that it
leads to may be another one, however.  A declaration is refused if its name is taken, but a primitive
or an array type takes over a name from whoever had it, and an array type gets its name by adding
brackets to that of its element type.  Whoever declares a class "int[]" will not find it by its name
any more when the array type of integers has been registered (`not_foundByName_bracketed`).

So all types are found by their names just when no two have the same name
(`Reachable.foundByName_iff`).  That is so if nothing is declared but classes and interfaces, under
the identities of their names, and no declared name ends in brackets
(`foundByName_of_isPlainlyNamed`): names of arrays then nest as the arrays do (`eq_of_name_eq`).
-/

import CallResolution.Proofs.Registry.Nesting

namespace CallResolution

/-- Declared are classes and interfaces under the identities of their names, and the names are none
that arrays have. -/
def Registration.IsPlainlyNamed : Registration → Prop
  | .decl d => d.isReference ∧ d.id = .ofName d.name ∧ ∀ name, d.name ≠ name ++ "[]"
  | .primitive _ | .array _ => True

/-- An array's name ends in a bracket. -/
theorem ne_append_brackets {s : String} (h : s.toList.getLast? ≠ some ']') (name : String) :
    s ≠ name ++ "[]" := by
  rintro rfl
  apply h
  rw [String.toList_append]
  simp

namespace Primitive

theorem name_ne_append_brackets (p : Primitive) (name : String) : p.name ≠ name ++ "[]" :=
  ne_append_brackets (by cases p <;> decide) name

end Primitive

namespace Registry

variable {r s : Registry}

/-! ## The index and the declarations -/

theorem findNamed?_eq_some_iff {name : String} {d : TypeDecl} :
    r.findNamed? name = some d ↔ r.idOf? name = some d.id ∧ r.find? d.id = some d := by
  unfold findNamed?
  rw [Option.bind_eq_some_iff]
  constructor
  · rintro ⟨t, ht, hd⟩
    obtain rfl := id_of_find? hd
    exact ⟨ht, hd⟩
  · rintro ⟨ht, hd⟩
    exact ⟨d.id, ht, hd⟩

theorem Gains.findNamed?_self {d : TypeDecl} (g : r.Gains d s) : s.findNamed? d.name = some d :=
  findNamed?_eq_some_iff.2 ⟨by rw [g.idOf?, if_pos rfl], g.find?_self⟩

theorem Gains.findNamed?_of_ne {d e : TypeDecl} (g : r.Gains d s) {name : String}
    (hne : d.name ≠ name) (h : r.findNamed? name = some e) : s.findNamed? name = some e := by
  obtain ⟨ht, he⟩ := findNamed?_eq_some_iff.1 h
  refine findNamed?_eq_some_iff.2 ⟨?_, ?_⟩
  · rw [g.idOf?, if_neg hne, ht]
  · rw [g.find?, if_neg (g.id_ne he), he]

/-- **Each name in the index leads to a registered type of this name.** -/
theorem Reachable.find?_of_idOf? (hr : r.Reachable) {name : String} {t : TypeId}
    (h : r.idOf? name = some t) : ∃ d, r.find? t = some d ∧ d.name = name := by
  induction hr with
  | empty =>
    have hnone : (∅ : Registry).idOf? name = none := Std.TreeMap.getElem?_emptyc
    rw [hnone] at h
    cases h
  | @apply r s x hr hx happly ih =>
    rcases apply_cases happly with rfl | ⟨d, -, g⟩
    · exact ih h
    · rw [g.idOf?] at h
      split at h
      · next hname =>
        obtain rfl := Option.some.inj h
        exact ⟨d, g.find?_self, hname⟩
      · obtain ⟨e, he, hname⟩ := ih h
        exact ⟨e, find?_of_apply happly he, hname⟩

/-- A type whose name is taken can be stored only as a primitive or an array. -/
theorem isReference_of_yields {x : Registration} {d e : TypeDecl} (h : x.Yields r d)
    (he : r.findNamed? d.name = some e) : d.isReference = false := by
  cases x with
  | decl c =>
    obtain ⟨rfl, hrej⟩ := h
    have hfree := (rejection?_eq_none_iff.1 hrej).2.1
    rw [(findNamed?_eq_some_iff.1 he).1] at hfree
    cases hfree
  | primitive p => cases h; rfl
  | array t =>
    obtain ⟨c, -, rfl⟩ := h
    rfl

/-- **The name of a registered type leads to it, or to a primitive or array of the same name.** -/
theorem Reachable.exists_findNamed? (hr : r.Reachable) {t : TypeId} {d : TypeDecl}
    (hd : r.find? t = some d) : ∃ e, r.findNamed? d.name = some e ∧ e.name = d.name ∧
      (e = d ∨ e.isReference = false) := by
  induction hr with
  | empty => simp at hd
  | @apply r s x hr hx happly ih =>
    rcases apply_cases happly with rfl | ⟨c, hyields, g⟩
    · exact ih hd
    · rw [g.find?] at hd
      split at hd
      · obtain rfl := Option.some.inj hd
        exact ⟨c, g.findNamed?_self, rfl, .inl rfl⟩
      · obtain ⟨e, he, hname, hholder⟩ := ih hd
        by_cases htaken : c.name = d.name
        · -- the new type takes the name over
          refine ⟨c, htaken ▸ g.findNamed?_self, htaken, .inr ?_⟩
          exact isReference_of_yields hyields (htaken ▸ he)
        · exact ⟨e, g.findNamed?_of_ne htaken he, hname, hholder⟩

/-- Every registered type is found by its own name. -/
def FoundByName (r : Registry) : Prop :=
  ∀ t d, r.find? t = some d → r.idOf? d.name = some t ∧ r.findNamed? d.name = some d

theorem Reachable.foundByName_of_injective (hr : r.Reachable)
    (hinj : ∀ t u d e, r.find? t = some d → r.find? u = some e → d.name = e.name → t = u) :
    r.FoundByName := by
  intro t d hd
  obtain ⟨e, he, hname, -⟩ := hr.exists_findNamed? hd
  obtain ⟨hidOf, hfind⟩ := findNamed?_eq_some_iff.1 he
  obtain rfl := hinj _ _ _ _ hfind hd hname
  obtain rfl := find?_unique hfind hd
  exact ⟨hidOf, he⟩

/-! ## Names that cannot be mistaken -/

/-- A type either has the identity of its name, which does not end in brackets, or is an array with
the name of its element type and brackets. -/
theorem ReachableBy.name_cases (hr : ReachableBy Registration.IsPlainlyNamed r) {t : TypeId}
    {d : TypeDecl} (hd : r.find? t = some d) :
    (t = .ofName d.name ∧ ∀ name, d.name ≠ name ++ "[]") ∨
      ∃ a c, d = .ofArray a ∧ t = a.element.arrayOf ∧ r.find? a.element = some c ∧
        d.name = c.name ++ "[]" := by
  obtain ⟨r', x, hx, hyields, hgrow⟩ := hr.exists_yields hd
  rw [← id_of_find? hd]
  cases x with
  | decl c =>
    obtain ⟨rfl, -⟩ := hyields
    exact .inl hx.2
  | primitive p =>
    cases hyields
    exact .inl ⟨rfl, p.name_ne_append_brackets⟩
  | array u =>
    obtain ⟨c, hc, rfl⟩ := hyields
    exact .inr ⟨_, c, rfl, rfl, hgrow _ _ hc, rfl⟩

theorem ReachableBy.regular_of_isPlainlyNamed (hr : ReachableBy Registration.IsPlainlyNamed r) :
    r.Regular :=
  hr.mono fun x hx => by
    cases x with
    | decl d => exact hx.1
    | primitive _ | array _ => rfl

/-- A name that does not end in brackets is that of one type only. -/
theorem ReachableBy.eq_of_plain_name (hr : ReachableBy Registration.IsPlainlyNamed r)
    {name : String} (hplain : ∀ element, name ≠ element ++ "[]") {u : TypeId} {e : TypeDecl}
    (he : r.find? u = some e) (hname : name = e.name) : .ofName name = u := by
  rcases hr.name_cases he with ⟨hu, -⟩ | ⟨b, c, -, -, -, hb⟩
  · rw [hu, hname]
  · exact absurd (hname.trans hb) (hplain c.name)

/-- **Types of the same name are the same**, by induction on how deep arrays nest. -/
theorem ReachableBy.eq_of_name_eq (hr : ReachableBy Registration.IsPlainlyNamed r)
    {base t u : TypeId} {depth : Nat} (ht : r.Nested base t depth) {d e : TypeDecl}
    (hd : r.find? t = some d) (he : r.find? u = some e) (hname : d.name = e.name) : t = u := by
  induction ht generalizing u d e with
  | base hb harray =>
    obtain rfl := find?_unique hb hd
    rcases hr.name_cases hd with ⟨ht, hplain⟩ | ⟨a, c, rfl, -⟩
    · exact ht.trans (hr.eq_of_plain_name hplain he hname)
    · cases harray
  | @array t a depth ha _ ih =>
    obtain rfl := find?_unique ha hd
    rcases hr.name_cases hd with ⟨ht, hplain⟩ | ⟨a', c, haa', ht, hc, hca⟩
    · exact ht.trans (hr.eq_of_plain_name hplain he hname)
    · obtain rfl := TypeDecl.ofArray.inj haa'
      rcases hr.name_cases he with ⟨-, hplain⟩ | ⟨b, c', -, hu, hc', hcb⟩
      · exact absurd (hname.symm.trans hca) (hplain c.name)
      · have hsame : c.name ++ "[]" = c'.name ++ "[]" := hca.symm.trans (hname.trans hcb)
        rw [ht, hu, ih hc hc' ((String.append_left_inj "[]").1 hsame)]

theorem ReachableBy.foundByName_of_isPlainlyNamed (hr : ReachableBy Registration.IsPlainlyNamed r) :
    r.FoundByName := by
  have hregular := hr.regular_of_isPlainlyNamed
  refine hregular.reachable.foundByName_of_injective fun t u d e hd he hname => ?_
  obtain ⟨base, depth, hnested, -⟩ := hregular.exists_nested hd
  exact hr.eq_of_name_eq hnested hd he hname

/-- **When types are found by their names.**  In a registry that any registrations lead to, a name in
the index leads to a registered type of this name.  The name of a registered type is always in the
index; if it leads to another type, then to a primitive or an array.  So all types are found by their
names just when no two have the same name.  They are in any case if nothing is declared but classes
and interfaces, under the identities of their names, and no declared name ends in brackets; primitives
and arrays are then registered as such only. -/
theorem Reachable.foundByName_iff (hr : r.Reachable) :
    (∀ name t, r.idOf? name = some t → ∃ d, r.find? t = some d ∧ d.name = name) ∧
      (∀ t d, r.find? t = some d → ∃ e, r.findNamed? d.name = some e ∧ e.name = d.name ∧
        (e = d ∨ e.isReference = false)) ∧
      (r.FoundByName ↔
        ∀ t u d e, r.find? t = some d → r.find? u = some e → d.name = e.name → t = u) ∧
      (ReachableBy Registration.IsPlainlyNamed r → r.FoundByName) := by
  refine ⟨fun name t => hr.find?_of_idOf?, fun t d => hr.exists_findNamed?, ⟨?_, ?_⟩, fun h =>
    h.foundByName_of_isPlainlyNamed⟩
  · intro hfound t u d e hd he hname
    have ht := (hfound t d hd).1
    rw [hname, (hfound u e he).1] at ht
    exact (Option.some.inj ht).symm
  · exact hr.foundByName_of_injective

theorem isPlainlyNamed_sample : ReachableBy Registration.IsPlainlyNamed sample := by
  have hprimitives : ReachableBy Registration.IsPlainlyNamed primitives :=
    ReachableBy.empty.addPrimitives fun _ => trivial
  refine hprimitives.applyAll fun x hx => ?_
  rcases List.mem_append.1 hx with hx | hx
  · obtain ⟨d, hd, rfl⟩ := List.mem_map.1 hx
    have hsample : ∀ d ∈ sampleTypes, d.isReference ∧ d.id = .ofName d.name ∧
        d.name.toList.getLast? ≠ some ']' := by decide +kernel
    obtain ⟨href, hid, hlast⟩ := hsample d hd
    exact ⟨href, hid, ne_append_brackets hlast⟩
  · -- what remains are arrays
    rcases List.mem_pair.1 hx with rfl | rfl <;> trivial

/-- All types of the sample are found by their names, arrays of cats among them. -/
theorem foundByName_sample : sample.FoundByName ∧
    ∃ d, sample.find? (TypeId.ofName "Cat").arrayOf = some d ∧ d.name = "Cat[]" ∧
      sample.findNamed? "Cat[]" = some d := by
  have hfound : sample.FoundByName :=
    (Reachable.foundByName_iff regular_sample.reachable).2.2.2 isPlainlyNamed_sample
  obtain ⟨d, hd, hname⟩ : ∃ d, sample.find? (TypeId.ofName "Cat").arrayOf = some d ∧
      d.name = "Cat[]" :=
    ⟨.ofArray (.ofElement (.ofName "Cat") "Cat"), by decide +kernel, by decide +kernel⟩
  exact ⟨hfound, d, hd, hname, hname ▸ (hfound _ d hd).2⟩

/-- A class with the name that the array type of integers will have. -/
def bracketed : Registry :=
  (primitives.applyAll [.decl (.ofClass (.named "int[]")), .array Primitive.int32.id]).2

/-- **A registered type may not be found by its name.**  The name of the class leads to the array type
of integers instead, which was registered later and has the same name. -/
theorem not_foundByName_bracketed : bracketed.Reachable ∧
    (∃ d, bracketed.find? (.ofName "int[]") = some d ∧ d.name = "int[]" ∧
      bracketed.idOf? d.name = some Primitive.int32.id.arrayOf ∧
      bracketed.idOf? d.name ≠ some (.ofName "int[]")) ∧
    ¬bracketed.FoundByName := by
  have hclass : ∃ d, bracketed.find? (.ofName "int[]") = some d ∧ d.name = "int[]" ∧
      bracketed.idOf? d.name = some Primitive.int32.id.arrayOf ∧
      bracketed.idOf? d.name ≠ some (.ofName "int[]") :=
    ⟨.ofClass (.named "int[]"), by decide +kernel, rfl, by decide +kernel, by decide +kernel⟩
  refine ⟨regular_primitives.reachable.applyAll fun _ _ => trivial, hclass, fun hfound => ?_⟩
  obtain ⟨d, hd, -, -, hlost⟩ := hclass
  exact hlost (hfound _ d hd).1

end Registry
end CallResolution
