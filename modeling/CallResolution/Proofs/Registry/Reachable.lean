/-
# What registrations lead to

A registration that succeeds either finds its type there already or stores one
declaration under an identity that was free (`apply_cases`, with `Gains` for what
storing does and `Registration.Yields` for what is stored).  So declarations are
never replaced (`find?_of_apply`).

`ReachableBy p` are the registries that registrations of the kind `p` lead to, refused
ones among them.  Whatever is stored in one of them was yielded by a registration of this
kind (`ReachableBy.exists_yields`), so that, for one, its members passed their check
(`Reachable.memberError?`).
-/

import CallResolution.Proofs.Hierarchy.Ancestors
import CallResolution.Registry.Registration

namespace CallResolution

namespace Registration

/-- Classes and interfaces are declared, primitives and arrays are registered as such. -/
def isPlain : Registration → Bool
  | .decl d => d.isReference
  | .primitive _ | .array _ => true

/-- The declaration that a registration in `r` stores. -/
def Yields (r : Registry) : Registration → TypeDecl → Prop
  | .decl d, e => e = d ∧ r.rejection? d = none
  | .primitive p, e => e = .ofPrimitive p
  | .array t, e => ∃ d, r.find? t = some d ∧ e = .ofArray (.ofElement t d.name)

end Registration

namespace Registry

open Hierarchy (newEdges)

theorem contains_names (r : Registry) (name : String) :
    r.names.contains name = (r.idOf? name).isSome := by
  simp [idOf?]

theorem find?_unique {r : Registry} {t : TypeId} {d e : TypeDecl} (hd : r.find? t = some d)
    (he : r.find? t = some e) : d = e :=
  Option.some.inj (hd.symm.trans he)

theorem mem_keys {r : Registry} {t : TypeId} {d : TypeDecl} (hd : r.find? t = some d) :
    t ∈ r.decls.keys := by
  rw [Std.TreeMap.mem_keys, ← Std.TreeMap.contains_iff_mem]
  exact (r.contains_eq t).trans (by rw [hd, Option.isSome_some])

/-! ## One registration -/

/-- `s` is `r` with `d` stored under an identity that was free. -/
structure Gains (r : Registry) (d : TypeDecl) (s : Registry) : Prop where
  free : r.find? d.id = none
  find? (t : TypeId) : s.find? t = if d.id = t then some d else r.find? t
  idOf? (name : String) : s.idOf? name = if d.name = name then some d.id else r.idOf? name
  size : s.size = r.size + 1
  edgesFrom (t : TypeId) : s.hierarchy.edgesFrom t =
    if d.id = t then newEdges d.id d.parents ++ r.hierarchy.edgesFrom t
    else r.hierarchy.edgesFrom t

theorem Gains.find?_self {r s : Registry} {d : TypeDecl} (g : r.Gains d s) :
    s.find? d.id = some d := by
  rw [g.find?, if_pos rfl]

/-- What is stored is none of the types that were registered before. -/
theorem Gains.id_ne {r s : Registry} {d e : TypeDecl} (g : r.Gains d s) {t : TypeId}
    (he : r.find? t = some e) : d.id ≠ t := by
  rintro rfl
  rw [g.free] at he
  cases he

/-- A declaration that is stored without supertypes. -/
theorem gains_store {r : Registry} {d : TypeDecl} (hfree : r.find? d.id = none)
    (hparents : d.parents = []) : r.Gains d (r.store d) where
  free := hfree
  find? := find?_store r d
  idOf? := idOf?_store r d
  size := by
    have hc : r.decls.contains d.id = false := by
      rw [← contains, contains_eq, hfree, Option.isSome_none]
    simp [Registry.size, store, Std.TreeMap.size_insert, hc]
  edgesFrom t := by simp [hparents, newEdges, store]

theorem declare_eq_ok {r s : Registry} {d : TypeDecl} : r.declare d = .ok s ↔
    r.rejection? d = none ∧
      s = { r.store d with hierarchy := r.hierarchy.addParents d.id d.parents } := by
  rw [declare]
  split
  · next e he => simp [he]
  · next he => simp [he, eq_comm]

theorem rejection?_eq_none_iff {r : Registry} {d : TypeDecl} : r.rejection? d = none ↔
    r.find? d.id = none ∧ r.idOf? d.name = none ∧
      (∀ t ∈ d.parents, ∀ s, r.find? t = some s → d.supertypeError? s = none) ∧
      d.memberError? = none := by
  rw [rejection?, contains_eq, contains_names]
  split
  · next h =>
    rw [Bool.or_eq_true, Option.isSome_iff_ne_none, Option.isSome_iff_ne_none] at h
    refine ⟨fun h => by simp at h, fun ⟨hid, hname, _⟩ => ?_⟩
    exact absurd h (by simp [hid, hname])
  · next h =>
    rw [Bool.or_eq_true, not_or, Option.isSome_iff_ne_none, Option.isSome_iff_ne_none, not_not,
      not_not] at h
    have hsup : (d.parents.filterMap r.find?).findSome? d.supertypeError? = none ↔
        ∀ t ∈ d.parents, ∀ s, r.find? t = some s → d.supertypeError? s = none := by
      rw [List.findSome?_eq_none_iff]
      refine ⟨fun hall t ht s hs => hall s (List.mem_filterMap.2 ⟨t, ht, hs⟩), fun hall s hs => ?_⟩
      obtain ⟨t, ht, hts⟩ := List.mem_filterMap.1 hs
      exact hall t ht s hts
    rw [Option.or_eq_none_iff, hsup]
    simp only [h, true_and]

theorem gains_declare {r : Registry} {d : TypeDecl} (h : r.rejection? d = none) :
    r.Gains d { r.store d with hierarchy := r.hierarchy.addParents d.id d.parents } := by
  have hfree := (rejection?_eq_none_iff.1 h).1
  refine ⟨hfree, find?_store r d, idOf?_store r d, ?_, fun t => ?_⟩
  · have hc : r.decls.contains d.id = false := by
      rw [← contains, contains_eq, hfree, Option.isSome_none]
    simp [Registry.size, store, Std.TreeMap.size_insert, hc]
  · exact Hierarchy.edgesFrom_addParents _ _ _ _

/-- What `declare` makes of its registry when it takes the declaration. -/
theorem gains_of_declare {r s : Registry} {d : TypeDecl} (h : r.declare d = .ok s) :
    r.Gains d s := by
  obtain ⟨hrej, rfl⟩ := declare_eq_ok.1 h
  exact gains_declare hrej

/-- **What a registration that succeeds does:** nothing, or it stores what it yields. -/
theorem apply_cases {r s : Registry} {x : Registration} (h : r.apply x = .ok s) :
    s = r ∨ ∃ d, x.Yields r d ∧ r.Gains d s := by
  cases x with
  | decl d =>
    obtain ⟨hrej, rfl⟩ := declare_eq_ok.1 h
    exact .inr ⟨d, ⟨rfl, hrej⟩, gains_declare hrej⟩
  | primitive p =>
    obtain rfl : r.addPrimitive p = s := Except.ok.inj h
    rw [addPrimitive]
    split
    · exact .inl rfl
    · next hc =>
      rw [contains_eq, Option.not_isSome_iff_eq_none] at hc
      exact .inr ⟨_, rfl, gains_store hc rfl⟩
  | array t =>
    replace h : r.addArray t = .ok s := h
    rw [addArray] at h
    split at h
    · exact .inl (Except.ok.inj h).symm
    · next hc =>
      rw [contains_eq, Option.not_isSome_iff_eq_none] at hc
      split at h
      · cases h
      · next d hd =>
        obtain rfl := Except.ok.inj h
        exact .inr ⟨_, ⟨d, hd, rfl⟩, gains_store hc rfl⟩

/-- Declarations are never replaced. -/
theorem find?_of_apply {r s : Registry} {x : Registration} (h : r.apply x = .ok s) {t : TypeId}
    {d : TypeDecl} (hd : r.find? t = some d) : s.find? t = some d := by
  rcases apply_cases h with rfl | ⟨e, -, g⟩
  · exact hd
  · rw [g.find?, if_neg (g.id_ne hd), hd]

/-- Edges are never dropped. -/
theorem edges_of_apply {r s : Registry} {x : Registration} (h : r.apply x = .ok s) {a b : TypeId}
    (hab : (a, b) ∈ r.hierarchy.edges) : (a, b) ∈ s.hierarchy.edges := by
  rcases apply_cases h with rfl | ⟨d, -, g⟩
  · exact hab
  · rw [Hierarchy.mem_edges_iff_edgesFrom] at hab ⊢
    obtain ⟨e, he, heb⟩ := hab
    refine ⟨e, ?_, heb⟩
    rw [g.edgesFrom]
    split
    · exact List.mem_append_right _ he
    · exact he

/-! ## Registrations in order -/

/-- All registrations succeed when the first does and the others do after it. -/
theorem applyAll_cons_eq_nil {r s : Registry} {x : Registration} {xs : List Registration} :
    r.applyAll (x :: xs) = ([], s) ↔ ∃ r', r.apply x = .ok r' ∧ r'.applyAll xs = ([], s) := by
  rw [applyAll]
  cases h : r.apply x with
  | error e => simp
  | ok r' => simp

theorem find?_of_applyAll {r s : Registry} {xs : List Registration} (h : r.applyAll xs = ([], s))
    {t : TypeId} {d : TypeDecl} (hd : r.find? t = some d) : s.find? t = some d := by
  induction xs generalizing r with
  | nil => simpa [applyAll] using (Prod.mk.inj h).2 ▸ hd
  | cons x xs ih =>
    obtain ⟨r', hx, hxs⟩ := applyAll_cons_eq_nil.1 h
    exact ih hxs (find?_of_apply hx hd)

theorem edges_of_applyAll {r s : Registry} {xs : List Registration} (h : r.applyAll xs = ([], s))
    {a b : TypeId} (hab : (a, b) ∈ r.hierarchy.edges) : (a, b) ∈ s.hierarchy.edges := by
  induction xs generalizing r with
  | nil => simpa [applyAll] using (Prod.mk.inj h).2 ▸ hab
  | cons x xs ih =>
    obtain ⟨r', hx, hxs⟩ := applyAll_cons_eq_nil.1 h
    exact ih hxs (edges_of_apply hx hab)

/-- What the empty registry becomes by registrations of the kind `p`.  Refused ones change nothing
and need no step. -/
inductive ReachableBy (p : Registration → Prop) : Registry → Prop
  | empty : ReachableBy p ∅
  | apply {r s : Registry} {x : Registration} (hr : ReachableBy p r) (hx : p x)
      (h : r.apply x = .ok s) : ReachableBy p s

/-- Some registrations lead to the registry. -/
def Reachable : Registry → Prop := ReachableBy fun _ => True

/-- Plain registrations lead to the registry. -/
def Regular : Registry → Prop := ReachableBy fun x => x.isPlain

theorem ReachableBy.applyAll {p : Registration → Prop} {r : Registry} (hr : ReachableBy p r)
    {xs : List Registration} (hxs : ∀ x ∈ xs, p x) : ReachableBy p (r.applyAll xs).2 := by
  induction xs generalizing r with
  | nil => exact hr
  | cons x xs ih =>
    have hx := hxs x List.mem_cons_self
    have hxs' := fun y hy => hxs y (List.mem_cons_of_mem _ hy)
    rw [Registry.applyAll]
    split
    · next r' h => exact ih (hr.apply hx h) hxs'
    · exact ih hr hxs'

theorem applyAll_append_snd (r : Registry) (xs ys : List Registration) :
    (r.applyAll (xs ++ ys)).2 = ((r.applyAll xs).2.applyAll ys).2 := by
  induction xs generalizing r with
  | nil => rfl
  | cons x xs ih =>
    rw [List.cons_append, applyAll, applyAll]
    split
    · exact ih _
    · exact ih _

/-- **Reachable is what carrying out a list of registrations leaves**, refused ones among them. -/
theorem reachableBy_iff {p : Registration → Prop} {r : Registry} : ReachableBy p r ↔
    ∃ xs : List Registration, (∀ x ∈ xs, p x) ∧ (empty.applyAll xs).2 = r := by
  constructor
  · intro hr
    induction hr with
    | empty => exact ⟨[], by simp, rfl⟩
    | @apply r s x hr hx h ih =>
      obtain ⟨xs, hxs, rfl⟩ := ih
      refine ⟨xs ++ [x], fun y hy => ?_, ?_⟩
      · rcases List.mem_append.1 hy with hy | hy
        · exact hxs y hy
        · exact List.mem_singleton.1 hy ▸ hx
      · rw [applyAll_append_snd, Registry.applyAll, h]
        rfl
  · rintro ⟨xs, hxs, rfl⟩
    exact ReachableBy.empty.applyAll hxs

theorem ReachableBy.mono {p q : Registration → Prop} (hpq : ∀ x, p x → q x) {r : Registry}
    (hr : ReachableBy p r) : ReachableBy q r := by
  induction hr with
  | empty => exact .empty
  | apply _ hx h ih => exact .apply ih (hpq _ hx) h

theorem Regular.reachable {r : Registry} (hr : r.Regular) : r.Reachable :=
  hr.mono fun _ _ => trivial

theorem ReachableBy.addPrimitives {p : Registration → Prop} {r : Registry} (hr : ReachableBy p r)
    (hp : ∀ q, p (.primitive q)) : ReachableBy p r.addPrimitives := by
  rw [Registry.addPrimitives]
  generalize Primitive.all = qs
  induction qs generalizing r with
  | nil => exact hr
  | cons q qs ih => exact ih (hr.apply (x := .primitive q) (hp q) rfl)

theorem regular_primitives : primitives.Regular :=
  ReachableBy.empty.addPrimitives fun _ => rfl

@[simp]
theorem find?_empty (t : TypeId) : (∅ : Registry).find? t = none := by
  show (∅ : Std.TreeMap TypeId TypeDecl)[t]? = none
  simp

/-- **What is stored came from a registration** in a registry that the present one grew out of. -/
theorem ReachableBy.exists_yields {p : Registration → Prop} {s : Registry} (hs : ReachableBy p s)
    {t : TypeId} {d : TypeDecl} (hd : s.find? t = some d) :
    ∃ r x, p x ∧ x.Yields r d ∧ ∀ u e, r.find? u = some e → s.find? u = some e := by
  induction hs with
  | empty => simp at hd
  | @apply r s x hr hx happly ih =>
    have hstep : ∀ u e, r.find? u = some e → s.find? u = some e := fun _ _ =>
      find?_of_apply happly
    have hold : r.find? t = some d → ∃ r x, p x ∧ Registration.Yields r x d ∧
        ∀ u e, r.find? u = some e → s.find? u = some e := by
      intro hd
      obtain ⟨r', x', hx', hyields, hgrow⟩ := ih hd
      exact ⟨r', x', hx', hyields, fun u e he => hstep u e (hgrow u e he)⟩
    rcases apply_cases happly with rfl | ⟨e, hyields, g⟩
    · exact hold hd
    · rw [g.find?] at hd
      split at hd
      · obtain rfl := Option.some.inj hd
        exact ⟨r, x, hx, hyields, hstep⟩
      · exact hold hd

/-- Plain registrations store primitives under their own identities. -/
theorem Regular.eq_id_of_primitive {r : Registry} (hr : r.Regular) {t : TypeId} {p : PrimitiveDecl}
    (ht : r.find? t = some (.ofPrimitive p)) : t = p.kind.id := by
  have hid : p.id = t := id_of_find? ht
  obtain ⟨r', x, hx, hyields, -⟩ := hr.exists_yields ht
  cases x with
  | decl d =>
    obtain ⟨rfl, -⟩ := hyields
    cases hx
  | primitive q =>
    obtain rfl := TypeDecl.ofPrimitive.inj hyields
    exact hid.symm
  | array u =>
    obtain ⟨d, -, he⟩ := hyields
    cases he

theorem Regular.eq_of_kind_eq {r : Registry} (hr : r.Regular) {t u : TypeId} {p q : PrimitiveDecl}
    (ht : r.find? t = some (.ofPrimitive p)) (hu : r.find? u = some (.ofPrimitive q))
    (hpq : p.kind = q.kind) : t = u := by
  rw [hr.eq_id_of_primitive ht, hr.eq_id_of_primitive hu, hpq]

/-- Every declaration that is stored has passed the check of its members. -/
theorem Reachable.memberError? {r : Registry} (hr : r.Reachable) {t : TypeId} {d : TypeDecl}
    (hd : r.find? t = some d) : d.memberError? = none := by
  obtain ⟨r', x, -, hyields, -⟩ := hr.exists_yields hd
  cases x with
  | decl c =>
    obtain ⟨rfl, hrej⟩ := hyields
    exact (rejection?_eq_none_iff.1 hrej).2.2.2
  | primitive p => cases hyields; rfl
  | array t =>
    obtain ⟨d, -, rfl⟩ := hyields
    rfl

/-! ## A registry to look at -/

/-- Two classes and an interface, supertypes last.  `Cat` hides the public method `feed` of `Animal`
by a private one. -/
def sampleTypes : List TypeDecl :=
  let cat := TypeId.ofName "Cat"
  let animal := TypeId.ofName "Animal"
  let named := TypeId.ofName "Named"
  let feed : Member := { Member.method cat "feed" [] with visibility := .owner }
  [.ofClass { ((((ClassDecl.named "Cat").addConstructor []).addConstructor [cat]).addMethod "meet"
      [cat]).addMember feed with base? := some animal, interfaces := [named] },
    .ofClass (((ClassDecl.named "Animal").addMethod "meet" [animal]).addMethod "feed" []),
    .ofInterface ((InterfaceDecl.named "Named").addMethod "meet" [named])]

/-- The registry of the sample types and of arrays of the classes. -/
def sample : Registry :=
  (primitives.applyAll (sampleTypes.map .decl ++
    [.array (.ofName "Cat"), .array (.ofName "Animal")])).2

theorem regular_sample : sample.Regular :=
  regular_primitives.applyAll (by decide +kernel)

theorem exists_eq_ok {ε α : Type} {x : Except ε α} (h : x.isOk = true) : ∃ a, x = .ok a := by
  cases x with
  | error e => cases h
  | ok a => exact ⟨a, rfl⟩

end Registry
end CallResolution
