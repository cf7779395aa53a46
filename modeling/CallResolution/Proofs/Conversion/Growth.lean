/-
# Conversions in growing registries

A conversion rests on declarations that are found and, between classes and interfaces, on a path in
the subtype graph.  Later registrations take away neither, and so each rule of conversion goes on to
give what it gave (`Grows.convertsBy`): no conversion is revoked, and none becomes another one.
Argument lists are compared place by place, so what accepts them goes on to accept them, with the
same conversion at each place (`Regular.conversions_grow`).

Later registrations can add conversions, for a path may appear when a supertype is declared late.
In a registry without problems no declaration is missing on the way up from a registered type, and
so between two registered types nothing is added either (`Regular.conversion?_final`).
-/

import CallResolution.Proofs.Conversion.Relation
import CallResolution.Proofs.Registry.Growth
import CallResolution.Proofs.Registry.Validation
import CallResolution.Proofs.Registry.Walk

namespace CallResolution

theorem mapM_congr {α β : Type} {f g : α → Option β} {xs : List α} (h : ∀ x ∈ xs, f x = g x) :
    xs.mapM f = xs.mapM g := by
  have hmap {k : α → Option β} : (xs.map k).mapM id = xs.mapM k := List.mapM_map
  rw [← hmap, List.map_congr_left h, hmap]

theorem isSome_mapM {α β : Type} {f : α → Option β} {xs : List α} :
    (xs.mapM f).isSome ↔ ∀ x ∈ xs, (f x).isSome := by
  induction xs with
  | nil => simp
  | cons x xs ih =>
    rw [List.mapM_cons, List.forall_mem_cons, ← ih]
    cases f x <;> cases xs.mapM f <;> simp

namespace Registry

variable {r s : Registry}

/-! ## Conversions of one argument -/

/-- Edges from the types of a registry are kept: they belong to declarations that are kept. -/
theorem Grows.extends_of_extends (g : r.Grows s) (hr : r.Reachable) {t u : TypeId}
    (h : r.hierarchy.Extends t u) : s.hierarchy.Extends t u := by
  obtain ⟨d, hd, -⟩ : r.Declares t u := hr.extends_eq ▸ h
  rw [Hierarchy.Extends, Hierarchy.mem_edges_iff_edgesFrom] at h ⊢
  rwa [g.edgesFrom hd]

theorem Grows.mem_ancestors (g : r.Grows s) (hr : r.Reachable) {t u : TypeId}
    (h : u ∈ r.ancestors t) : u ∈ s.ancestors t := by
  rw [ancestors, Hierarchy.mem_ancestors] at h ⊢
  exact ⟨h.1, Relation.TransGen.mono (fun _ _ => g.extends_of_extends hr) _ _ h.2⟩

/-- **Each rule of conversion goes on to give the conversion that it gave.** -/
theorem Grows.convertsBy (g : r.Grows s) (hr : r.Reachable) {rules : Rules} {t u : TypeId}
    {c : Conversion} (h : r.ConvertsBy rules t u c) : s.ConvertsBy rules t u c := by
  induction h with
  | identity => exact .identity
  | kind ht hu hpq => exact .kind (g.find? ht) (g.find? hu) hpq
  | primitive ht hu hrules hpq => exact .primitive (g.find? ht) (g.find? hu) hrules hpq
  | reference ht hu hd he h =>
    exact .reference (g.find? ht) (g.find? hu) hd he (g.mem_ancestors hr h)
  | array htu ht hu _ ih => exact .array htu (g.find? ht) (g.find? hu) ih

theorem Grows.nullConversion? (g : r.Grows s) {u : TypeId} {c : Conversion}
    (h : r.nullConversion? u = some c) : s.nullConversion? u = some c := by
  cases hu : r.find? u with
  | none => simp [Registry.nullConversion?, Host.nullConversion?, hu] at h
  | some d =>
    rwa [Registry.nullConversion?, Host.nullConversion?, host_find?, g.find? hu, ← hu]

/-- No conversion is revoked, and none becomes another one. -/
theorem Grows.conversion? (g : r.Grows s) (hr : r.Regular) (hs : s.Regular) {rules : Rules}
    {x : Arg} {u : TypeId} {c : Conversion} (h : r.conversion? rules x u = some c) :
    s.conversion? rules x u = some c := by
  cases x with
  | null => exact g.nullConversion? h
  | ofType t =>
    rw [hr.conversion?_ofType_iff] at h
    rw [hs.conversion?_ofType_iff]
    exact g.convertsBy hr.reachable h

/-! ## Conversions of argument lists -/

/-- Parameters accept the arguments just when there is a conversion at every place. -/
theorem acceptsAll_iff_conversions? {rules : Rules} {formals : List TypeId} {actuals : List Arg} :
    r.acceptsAll rules formals actuals ↔ ∃ cs, r.conversions? rules formals actuals = some cs := by
  rw [acceptsAll, Acceptance.ofPlaces_iff, conversions?]
  split
  · next hlen =>
    rw [← Option.isSome_iff_exists, isSome_mapM, and_iff_right hlen]
    rfl
  · next hlen => simp [hlen]

theorem Grows.conversions?_eq (g : r.Grows s) (hr : r.Regular) (hs : s.Regular) {rules : Rules}
    {formals : List TypeId} {actuals : List Arg} (h : r.acceptsAll rules formals actuals) :
    s.conversions? rules formals actuals = r.conversions? rules formals actuals := by
  rw [acceptsAll, Acceptance.ofPlaces_iff] at h
  rw [conversions?, conversions?, if_pos h.1, if_pos h.1]
  refine mapM_congr fun (formal, actual) hplace => ?_
  obtain ⟨c, hc⟩ := Option.isSome_iff_exists.1 (h.2 _ hplace)
  exact (g.conversion? hr hs hc).trans hc.symm

/-- **Growing a registry neither revokes nor changes a conversion.**  Whatever plain registrations
follow on plain registrations, taken or refused: what an argument converts to, it converts to
afterwards by the same conversion, and parameters that accept an argument list accept it afterwards,
with the same conversions. -/
theorem Regular.conversions_grow (hr : r.Regular) {later : List Registration}
    (hlater : ∀ x ∈ later, x.isPlain) :
    let s := (r.applyAll later).2
    (∀ rules x u c, r.conversion? rules x u = some c → s.conversion? rules x u = some c) ∧
      ∀ rules formals actuals, r.acceptsAll rules formals actuals →
        s.acceptsAll rules formals actuals ∧
          ∃ cs, r.conversions? rules formals actuals = some cs ∧
            s.conversions? rules formals actuals = some cs := by
  intro s
  have g : r.Grows s := r.grows_applyAll later
  have hs : s.Regular := ReachableBy.applyAll hr hlater
  refine ⟨fun rules x u c => g.conversion? hr hs, fun rules formals actuals h => ?_⟩
  have hsame := g.conversions?_eq hr hs h
  obtain ⟨cs, hcs⟩ := acceptsAll_iff_conversions?.1 h
  exact ⟨acceptsAll_iff_conversions?.2 ⟨cs, hsame.trans hcs⟩, cs, hcs, hsame.trans hcs⟩

/-- Later come kittens and arrays of them; cats once more and arrays of a missing type are refused.
Arrays of cats go on to pass for arrays of animals, cats for named beings, and null for cats. -/
theorem conversions_grow_sample :
    let cat := TypeId.ofName "Cat"
    let animal := TypeId.ofName "Animal"
    let kitten := TypeId.ofName "Kitten"
    let named := TypeId.ofName "Named"
    let later := [.decl (.ofClass { ClassDecl.named "Kitten" with base? := some cat }),
      .array kitten, .decl (.ofClass (ClassDecl.named "Cat")), .array (.ofName "Ghost")]
    let s := (sample.applyAll later).2
    (sample.applyAll later).1.length = 2 ∧ s.size = sample.size + 2 ∧
      s.conversions? .strict [animal.arrayOf, named, cat] [.ofType cat.arrayOf, .ofType cat, .null] =
        some [.arrayCovariance (.referenceWidening animal), .referenceWidening named,
          .nullToReference] := by
  intro cat animal kitten named later s
  have haccepts : sample.acceptsAll .strict [animal.arrayOf, named, cat]
      [.ofType cat.arrayOf, .ofType cat, .null] := by decide +kernel
  have hlater : ∀ x ∈ later, x.isPlain := by decide +kernel
  obtain ⟨-, hlists⟩ := regular_sample.conversions_grow hlater
  obtain ⟨-, cs, hcs, hcs'⟩ := hlists _ _ _ haccepts
  refine ⟨by decide +kernel, by decide +kernel, hcs'.trans (hcs.symm.trans ?_)⟩
  decide +kernel

/-! ## Registries without problems -/

/-- No rule of conversion gives more than it gave, between types that were registered. -/
theorem Grows.convertsBy_of_convertsBy (g : r.Grows s) (hr : r.Regular) (hok : r.problems = [])
    {rules : Rules} {t u : TypeId} {d e : TypeDecl} {c : Conversion} (ht : r.find? t = some d)
    (hu : r.find? u = some e) (h : s.ConvertsBy rules t u c) : r.ConvertsBy rules t u c := by
  induction h generalizing d e with
  | identity => exact .identity
  | kind ht' hu' hpq =>
    obtain rfl := find?_unique ht' (g.find? ht)
    obtain rfl := find?_unique hu' (g.find? hu)
    exact .kind ht hu hpq
  | primitive ht' hu' hrules hpq =>
    obtain rfl := find?_unique ht' (g.find? ht)
    obtain rfl := find?_unique hu' (g.find? hu)
    exact .primitive ht hu hrules hpq
  | reference ht' hu' hd he h =>
    obtain rfl := find?_unique ht' (g.find? ht)
    obtain rfl := find?_unique hu' (g.find? hu)
    rw [g.ancestors_eq fun a => exists_find?_of_visited hok ht] at h
    exact .reference ht hu hd he h
  | array htu ht' hu' _ ih =>
    obtain rfl := find?_unique ht' (g.find? ht)
    obtain rfl := find?_unique hu' (g.find? hu)
    obtain ⟨_, hx⟩ := hr.exists_find?_element ht
    obtain ⟨_, hy⟩ := hr.exists_find?_element hu
    exact .array htu ht hu (ih hx hy)

/-- **Without problems, conversions between registered types are final**: also that there is none
stays so, whatever is registered later. -/
theorem Regular.conversion?_final (hr : r.Regular) (hok : r.problems = [])
    {later : List Registration} (hlater : ∀ x ∈ later, x.isPlain) {t u : TypeId} {d e : TypeDecl}
    (ht : r.find? t = some d) (hu : r.find? u = some e) (rules : Rules) :
    (r.applyAll later).2.conversion? rules (.ofType t) u = r.conversion? rules (.ofType t) u := by
  have g := r.grows_applyAll later
  have hs : (r.applyAll later).2.Regular := ReachableBy.applyAll hr hlater
  refine Option.ext fun c => ?_
  rw [hs.conversion?_ofType_iff, hr.conversion?_ofType_iff]
  exact ⟨g.convertsBy_of_convertsBy hr hok ht hu, g.convertsBy hr.reachable⟩

end Registry
end CallResolution
