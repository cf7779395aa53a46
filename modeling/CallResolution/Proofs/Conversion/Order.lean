/-
# Conversion orders the types

Conversions compose (`ConvertsBy.trans`): by the rules, a type that converts to two
others in turn is of one kind with both, and within a kind the widening table, the
subtype graph and the conversions of elements each compose.  They cannot be undone
(`ConvertsBy.antisymm`) unless a type extends itself, since a promotion has no way
back and an array type is determined by its element type.

Argument lists are compared place by place, so parameter lists are ordered like types:
what is as specific as something else accepts no more than that (`accepts_of_isAsSpecific`).
-/

import CallResolution.Overload
import CallResolution.Proofs.Conversion.Relation
import CallResolution.Proofs.Registry.Validation
import Mathlib.Data.List.Forall2

namespace CallResolution

theorem Primitive.widens_trans {p q s : Primitive} (hpq : p.widens q) (hqs : q.widens s) :
    p.widens s := by
  have h : ∀ p ∈ all, ∀ q ∈ p.widenings, ∀ s ∈ q.widenings, s ∈ p.widenings := by decide
  rw [widens, List.contains_iff_mem] at *
  exact h p (mem_all p) q hpq s hqs

theorem Primitive.widens_asymm {p q : Primitive} (hpq : p.widens q) : q.widens p = false := by
  have h : ∀ p ∈ all, ∀ q ∈ p.widenings, q.widens p = false := by decide
  rw [widens, List.contains_iff_mem] at hpq
  exact h p (mem_all p) q hpq

namespace Registry

variable {r : Registry}

/-! ## Types -/

/-- The transitive supertypes of a supertype are supertypes, or the type itself. -/
theorem mem_ancestors_trans {t u v : TypeId} (htu : u ∈ r.ancestors t) (huv : v ∈ r.ancestors u) :
    v = t ∨ v ∈ r.ancestors t := by
  rw [ancestors, Hierarchy.mem_ancestors] at *
  by_cases hvt : v = t
  · exact .inl hvt
  · exact .inr ⟨hvt, htu.2.trans huv.2⟩

/-- **Conversions compose**, whatever the rules. -/
theorem ConvertsBy.trans {rules : Rules} {t u v : TypeId} {c d : Conversion}
    (h : r.ConvertsBy rules t u c) (h' : r.ConvertsBy rules u v d) :
    ∃ e, r.ConvertsBy rules t v e := by
  induction h generalizing v d with
  | identity => exact ⟨d, h'⟩
  | @kind rules t u p q ht hu hpq =>
    cases h' with
    | identity => exact ⟨_, .kind ht hu hpq⟩
    | kind hu' hv hqs =>
      obtain rfl := TypeDecl.ofPrimitive.inj (find?_unique hu hu')
      exact ⟨_, .kind ht hv (hpq.trans hqs)⟩
    | primitive hu' hv hrules hqs =>
      obtain rfl := TypeDecl.ofPrimitive.inj (find?_unique hu hu')
      exact ⟨_, .primitive ht hv hrules (hpq ▸ hqs)⟩
    | reference hu' hv hd he hmem => rw [← find?_unique hu hu'] at hd; cases hd
    | array huv hu' hv hel => cases find?_unique hu hu'
  | @primitive rules t u p q ht hu hrules hpq =>
    cases h' with
    | identity => exact ⟨_, .primitive ht hu hrules hpq⟩
    | kind hu' hv hqs =>
      obtain rfl := TypeDecl.ofPrimitive.inj (find?_unique hu hu')
      exact ⟨_, .primitive ht hv hrules (hqs ▸ hpq)⟩
    | @primitive _ _ _ q' s hu' hv hrules' hqs =>
      obtain rfl := TypeDecl.ofPrimitive.inj (find?_unique hu hu')
      exact ⟨_, .primitive ht hv hrules (Primitive.widens_trans hpq hqs)⟩
    | reference hu' hv hd he hmem => rw [← find?_unique hu hu'] at hd; cases hd
    | array huv hu' hv hel => cases find?_unique hu hu'
  | @reference rules t u a b ht hu ha hb htu =>
    cases h' with
    | identity => exact ⟨_, .reference ht hu ha hb htu⟩
    | kind hu' => rw [find?_unique hu hu'] at hb; cases hb
    | primitive hu' hv hrules' hqs => rw [find?_unique hu hu'] at hb; cases hb
    | reference hu' hv hd he huv =>
      rcases mem_ancestors_trans htu huv with rfl | htv
      · exact ⟨_, .identity⟩
      · exact ⟨_, .reference ht hv ha he htv⟩
    | array huv hu' hv hel => rw [find?_unique hu hu'] at hb; cases hb
  | @array rules t u a b c htu ht hu hel ih =>
    cases h' with
    | identity => exact ⟨_, .array htu ht hu hel⟩
    | kind hu' => cases find?_unique hu hu'
    | primitive hu' hv hrules' hqs => cases find?_unique hu hu'
    | reference hu' hv hd he huv => rw [← find?_unique hu hu'] at hd; cases hd
    | @array _ _ _ b' s d' huv hu' hv hel' =>
      obtain rfl := TypeDecl.ofArray.inj (find?_unique hu hu')
      obtain ⟨e, he⟩ := ih hel'
      by_cases htv : t = v
      · exact ⟨.identity, htv ▸ ConvertsBy.identity⟩
      · exact ⟨_, .array htv ht hv he⟩

/-- **Conversions have no way back** where no type extends itself. -/
theorem ConvertsBy.antisymm (hr : r.Regular) (hacyclic : r.hierarchy.isCyclic = false)
    {rules : Rules} {t u : TypeId} {c d : Conversion} (h : r.ConvertsBy rules t u c)
    (h' : r.ConvertsBy rules u t d) : t = u := by
  induction h generalizing d with
  | identity => rfl
  | kind ht hu hpq => exact hr.eq_of_kind_eq ht hu hpq
  | @primitive rules t u p q ht hu hrules hpq =>
    cases h' with
    | identity => rfl
    | kind hu' ht' hqp => exact (hr.eq_of_kind_eq hu' ht' hqp).symm
    | @primitive _ _ _ q' p' hu' ht' hrules' hqp =>
      obtain rfl := TypeDecl.ofPrimitive.inj (find?_unique hu hu')
      obtain rfl := TypeDecl.ofPrimitive.inj (find?_unique ht ht')
      rw [Primitive.widens_asymm hpq] at hqp
      cases hqp
    | reference hu' ht' hd he hmem => rw [← find?_unique hu hu'] at hd; cases hd
    | array hut hu' ht' hel => cases find?_unique hu hu'
  | @reference rules t u a b ht hu ha hb htu =>
    cases h' with
    | identity => rfl
    | kind hu' => rw [find?_unique hu hu'] at hb; cases hb
    | primitive hu' ht' hrules' hqs => rw [find?_unique hu hu'] at hb; cases hb
    | reference hu' ht' hd he hut =>
      exact Hierarchy.eq_of_reflTransGen hacyclic (Hierarchy.mem_ancestors.1 htu).2.to_reflTransGen
        (Hierarchy.mem_ancestors.1 hut).2.to_reflTransGen
    | array hut hu' ht' hel => rw [find?_unique hu hu'] at hb; cases hb
  | @array rules t u a b c htu ht hu hel ih =>
    cases h' with
    | identity => rfl
    | kind hu' => cases find?_unique hu hu'
    | primitive hu' ht' hrules' hqs => cases find?_unique hu hu'
    | reference hu' ht' hd he hut => rw [← find?_unique hu hu'] at hd; cases hd
    | @array _ _ _ b' a' d' hut hu' ht' hel' =>
      obtain rfl := TypeDecl.ofArray.inj (find?_unique hu hu')
      obtain rfl := TypeDecl.ofArray.inj (find?_unique ht ht')
      rw [hr.eq_arrayOf ht, hr.eq_arrayOf hu, ih hel']

theorem Regular.converts_refl (hr : r.Regular) (rules : Rules) (t : TypeId) :
    r.converts rules (.ofType t) t :=
  hr.converts_ofType_iff.2 ⟨_, .identity⟩

/-- What passes for a type passes for all that the type passes for. -/
theorem Regular.converts_trans (hr : r.Regular) {rules : Rules} {x : Arg} {t u : TypeId}
    (hxt : r.converts rules x t) (htu : r.converts rules (.ofType t) u) : r.converts rules x u := by
  obtain ⟨c, hc⟩ := hr.converts_ofType_iff.1 htu
  cases x with
  | ofType s =>
    obtain ⟨d, hd⟩ := hr.converts_ofType_iff.1 hxt
    exact hr.converts_ofType_iff.2 (hd.trans hc)
  | null =>
    obtain ⟨d, hd, hprim⟩ := converts_null_iff.1 hxt
    rw [converts_null_iff]
    cases hc with
    | identity => exact ⟨d, hd, hprim⟩
    | kind ht => rw [find?_unique hd ht] at hprim; cases hprim
    | primitive ht hu hrules hpq => rw [find?_unique hd ht] at hprim; cases hprim
    | @reference _ _ _ _ e ht hu hdref he hmem =>
      exact ⟨e, hu, by cases e <;> first | rfl | cases he⟩
    | array htu ht hu hel => exact ⟨_, hu, rfl⟩

/-! ## Parameter lists -/

theorem acceptsAll_iff {rules : Rules} {formals : List TypeId} {actuals : List Arg} :
    r.acceptsAll rules formals actuals ↔
      List.Forall₂ (fun formal actual => r.converts rules actual formal) formals actuals := by
  rw [acceptsAll, Acceptance.ofPlaces_iff, List.forall₂_iff_zip]
  exact and_congr_right fun _ => ⟨fun h _ _ hp => h _ hp, fun h p hp => h hp⟩

theorem Regular.isAsSpecific_refl (hr : r.Regular) (rules : Rules) (o : Overload) :
    r.isAsSpecific rules o o := by
  rw [isAsSpecific, Overload.isAsSpecific, acceptsAll_iff, Overload.asArgs,
    List.forall₂_map_right_iff]
  exact List.forall₂_same.2 fun t _ => hr.converts_refl rules t

/-- What an overload accepts is accepted by all that it is as specific as. -/
theorem Regular.accepts_of_isAsSpecific (hr : r.Regular) {rules : Rules} {o o' : Overload}
    (ho : r.isAsSpecific rules o o') {args : List Arg} (hargs : r.accepts rules o args) :
    r.accepts rules o' args := by
  rw [isAsSpecific, Overload.isAsSpecific, acceptsAll_iff, Overload.asArgs,
    List.forall₂_map_right_iff] at ho
  rw [accepts, acceptsAll_iff] at hargs ⊢
  generalize o.params = params at ho hargs
  generalize o'.params = params' at ho ⊢
  induction ho generalizing args with
  | nil => exact hargs
  | cons htu _ ih =>
    cases hargs with
    | cons hx hxs => exact .cons (hr.converts_trans hx htu) (ih hxs)

theorem Regular.isAsSpecific_trans (hr : r.Regular) {rules : Rules} {o o' o'' : Overload}
    (h : r.isAsSpecific rules o o') (h' : r.isAsSpecific rules o' o'') :
    r.isAsSpecific rules o o'' :=
  hr.accepts_of_isAsSpecific h' h

/-- **Conversion is a preorder, and an order where no problems are found.**  In a registry that
plain registrations lead to every type passes for itself, and what passes for a type, null among
it, passes for all that the type passes for; types that pass for each other are the same, unless
the registry has problems.  So an overload that is as specific as another accepts no argument list
that the other does not. -/
theorem Regular.conversion_order (hr : r.Regular) (rules : Rules) :
    (∀ t, r.converts rules (.ofType t) t) ∧
      (∀ x t u, r.converts rules x t → r.converts rules (.ofType t) u → r.converts rules x u) ∧
      (r.problems = [] → ∀ t u, r.converts rules (.ofType t) u → r.converts rules (.ofType u) t →
        t = u) ∧
      ∀ o o', r.isAsSpecific rules o o' → ∀ args, r.accepts rules o args →
        r.accepts rules o' args := by
  refine ⟨hr.converts_refl rules, fun x t u => hr.converts_trans, fun hok t u htu hut => ?_,
    fun o o' ho args => hr.accepts_of_isAsSpecific ho⟩
  obtain ⟨c, hc⟩ := hr.converts_ofType_iff.1 htu
  obtain ⟨d, hd⟩ := hr.converts_ofType_iff.1 hut
  exact hc.antisymm hr (problems_eq_nil_iff.1 hok).2 hd

/-- Arrays of cats pass for arrays of animals, and therefore not the other way round. -/
theorem conversion_order_sample :
    let cats := (TypeId.ofName "Cat").arrayOf
    let animals := (TypeId.ofName "Animal").arrayOf
    sample.Regular ∧ sample.problems = [] ∧ sample.converts .strict (.ofType cats) animals ∧
      ¬sample.converts .strict (.ofType animals) cats := by
  intro cats animals
  have hok : sample.problems = [] := by decide +kernel
  have hup : sample.converts .strict (.ofType cats) animals := by decide +kernel
  refine ⟨regular_sample, hok, hup, fun hdown => ?_⟩
  obtain ⟨-, -, hantisymm, -⟩ := Regular.conversion_order regular_sample .strict
  exact absurd (hantisymm hok cats animals hup hdown) (by decide +kernel)

end Registry
end CallResolution
