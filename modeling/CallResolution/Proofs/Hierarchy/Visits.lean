/-
# Which supertypes are visited first

Breadth-first order is not the order of subtypes: a type may be listed before one of its own
subtypes, if the start has a shorter way to it.  What is certain is that each type is listed after
one that directly extends it (`exists_extends_before`).  Where a type can be reached in one way
only, this is enough: then every subtype on the way is listed before it
(`idxOf_lt_of_transGen`).
-/

import CallResolution.Proofs.Hierarchy.Cycles

namespace CallResolution
namespace Hierarchy

/-! ## Listed after a direct subtype -/

/-- Whatever the walk lists is a successor of the present level or of something listed before. -/
theorem exists_next_of_levels_eq (next : TypeId → List TypeId) {fuel : Nat}
    {seen : Std.TreeSet TypeId} {level before after : List TypeId} {x : TypeId}
    (h : (levels next fuel seen level).flatten = before ++ x :: after) :
    ∃ p ∈ level ++ before, x ∈ next p := by
  induction fuel generalizing seen level before with
  | zero => simp [levels] at h
  | succ fuel ih =>
    rw [levels_succ] at h
    split at h
    · simp at h
    · rw [List.flatten_cons, List.append_eq_append_iff] at h
      rcases h with ⟨rest, rfl, hrest⟩ | ⟨rest, hfresh, hrest⟩
      · obtain ⟨p, hp, hxp⟩ := ih hrest
        exact ⟨p, List.mem_append_right _ hp, hxp⟩
      · cases rest with
        | nil =>
          have hfirst : (levels next fuel (newcomers seen (level.flatMap next)).2
              (newcomers seen (level.flatMap next)).1).flatten = [] ++ x :: after := hrest.symm
          obtain ⟨p, hp, hxp⟩ := ih hfirst
          rw [List.append_nil] at hfresh hp
          exact ⟨p, List.mem_append_right _ (hfresh ▸ hp), hxp⟩
        | cons y rest =>
          obtain rfl := (List.cons.inj hrest).1
          -- `x` is a newcomer of the present level
          have hx := List.mem_append_right before (List.mem_cons_self (a := x) (l := rest))
          obtain ⟨p, hp, hxp⟩ := List.mem_flatMap.1 (mem_newcomers.1 (hfresh ▸ hx)).1
          exact ⟨p, List.mem_append_left _ hp, hxp⟩

/-- In a list without repetitions all that stands before an element has a lower index. -/
theorem idxOf_lt_idxOf {xs before after : List TypeId} {x y : TypeId} (hxs : xs.Nodup)
    (h : xs = before ++ x :: after) : xs.idxOf y < xs.idxOf x ↔ y ∈ before := by
  have hx : x ∉ before := by
    rw [h, List.nodup_append] at hxs
    exact fun hx => hxs.2.2 x hx x List.mem_cons_self rfl
  rw [h, List.idxOf_append_of_notMem hx, List.idxOf_cons_self, Nat.add_zero]
  constructor
  · intro hlt
    by_contra hy
    rw [List.idxOf_append_of_notMem hy] at hlt
    omega
  · intro hy
    rw [List.idxOf_append_of_mem hy]
    exact List.idxOf_lt_length_of_mem hy

theorem nodup_cons_ancestors (h : Hierarchy) (t : TypeId) : (t :: h.ancestors t).Nodup :=
  List.nodup_cons.2 ⟨h.not_mem_ancestors_self t, h.nodup_ancestors t⟩

/-- **Each supertype is listed after one of its direct subtypes.** -/
theorem exists_extends_before {h : Hierarchy} {t x : TypeId} (hx : x ∈ h.ancestors t) :
    ∃ p ∈ t :: h.ancestors t, h.Extends p x ∧
      (t :: h.ancestors t).idxOf p < (t :: h.ancestors t).idxOf x := by
  obtain ⟨before, after, hsplit⟩ := List.append_of_mem hx
  obtain ⟨p, hp, hpx⟩ := exists_next_of_levels_eq h.parents hsplit
  rw [List.singleton_append] at hp
  have hall : t :: h.ancestors t = (t :: before) ++ x :: after := by
    rw [hsplit, List.cons_append]
  refine ⟨p, ?_, mem_parents.1 hpx, (idxOf_lt_idxOf (h.nodup_cons_ancestors t) hall).2 hp⟩
  rw [hall]
  exact List.mem_append_left _ hp

/-! ## Reached in one way -/

/-- An edge from a type that is listed for `t` to one of a kind. -/
def ExtendsIn (h : Hierarchy) (t : TypeId) (kind : TypeId → Prop) (a b : TypeId) : Prop :=
  a ∈ t :: h.ancestors t ∧ h.Extends a b ∧ kind b

section

variable {h : Hierarchy} {t : TypeId} {kind : TypeId → Prop}
  (hkind : ∀ a ∈ t :: h.ancestors t, ∀ b, h.Extends a b → kind b → kind a)

include hkind in
/-- If only types of a kind lead to types of this kind, the way to one stays in the kind. -/
theorem reflTransGen_extendsIn {a b : TypeId} (ha : a ∈ t :: h.ancestors t)
    (hab : Relation.ReflTransGen h.Extends a b) (hb : kind b) :
    Relation.ReflTransGen (h.ExtendsIn t kind) a b := by
  induction hab with
  | refl => exact .refl
  | @tail c b hac hcb ih =>
    have hc := mem_cons_ancestors.2 ((mem_cons_ancestors.1 ha).trans hac)
    exact (ih (hkind c hc b hcb hb)).tail ⟨hc, hcb, hb⟩

variable (hunique : Relator.RightUnique (h.ExtendsIn t kind))

include hkind hunique in
/-- If moreover each type directly extends at most one of the kind, the listed types of the kind lie
on one way. -/
theorem reflTransGen_or_of_kind {a b : TypeId} (ha : a ∈ t :: h.ancestors t)
    (hb : b ∈ t :: h.ancestors t) (hka : kind a) (hkb : kind b) :
    Relation.ReflTransGen h.Extends a b ∨ Relation.ReflTransGen h.Extends b a := by
  have hway : ∀ x ∈ t :: h.ancestors t, kind x →
      Relation.ReflTransGen (h.ExtendsIn t kind) t x := fun x hx hkx =>
    reflTransGen_extendsIn hkind List.mem_cons_self (mem_cons_ancestors.1 hx) hkx
  have hforget : h.ExtendsIn t kind ≤ h.Extends := fun _ _ hstep => hstep.2.1
  exact (Relation.ReflTransGen.total_of_right_unique hunique (hway a ha hka) (hway b hb hkb)).imp
    (Relation.ReflTransGen.mono hforget a b) (Relation.ReflTransGen.mono hforget b a)

variable (hacyclic : h.isCyclic = false)

include hkind hunique hacyclic in
/-- A type of the kind then has one direct subtype only. -/
theorem extends_unique {p q x : TypeId} (hp : p ∈ t :: h.ancestors t)
    (hq : q ∈ t :: h.ancestors t) (hpx : h.Extends p x) (hqx : h.Extends q x) (hx : kind x) :
    p = q := by
  have hback : ∀ a b, a ∈ t :: h.ancestors t → h.Extends a x → h.Extends b x →
      Relation.ReflTransGen h.Extends a b → a = b := by
    intro a b ha hax hbx hab
    have hkb := hkind b (mem_cons_ancestors.2 ((mem_cons_ancestors.1 ha).trans hab)) x hbx hx
    -- the way from one of the two to the other would start with the step to `x`, and close a cycle
    rcases Relation.ReflTransGen.cases_head (reflTransGen_extendsIn hkind ha hab hkb) with
      heq | ⟨c, hac, hcb⟩
    · exact heq
    · obtain rfl := hunique hac ⟨ha, hax, hx⟩
      have hcb' := Relation.ReflTransGen.mono (fun _ _ hstep => hstep.2.1) c b hcb
      exact absurd (.tail' hcb' hbx) (not_transGen_self hacyclic c)
  rcases reflTransGen_or_of_kind hkind hunique hp hq (hkind p hp x hpx hx) (hkind q hq x hqx hx) with
    hpq | hqp
  · exact hback p q hp hpx hqx hpq
  · exact (hback q p hq hqx hpx hqp).symm

include hkind hunique hacyclic in
/-- **A type of the kind is listed after all of its subtypes that are listed.** -/
theorem idxOf_lt_of_transGen {e x : TypeId} (he : e ∈ t :: h.ancestors t)
    (hex : Relation.TransGen h.Extends e x) (hx : kind x) :
    (t :: h.ancestors t).idxOf e < (t :: h.ancestors t).idxOf x := by
  -- the type before `x` on the way is the one that `x` is listed after
  have hstep : ∀ q ∈ t :: h.ancestors t, ∀ x, h.Extends q x → kind x →
      (t :: h.ancestors t).idxOf q < (t :: h.ancestors t).idxOf x := by
    intro q hq x hqx hx
    have htx := Relation.TransGen.tail' (mem_cons_ancestors.1 hq) hqx
    have hxt : x ≠ t := by
      rintro rfl
      exact not_transGen_self hacyclic x htx
    obtain ⟨p, hp, hpx, hlt⟩ := exists_extends_before (mem_ancestors.2 ⟨hxt, htx⟩)
    rwa [extends_unique hkind hunique hacyclic hp hq hpx hqx hx] at hlt
  induction hex with
  | single hex => exact hstep e he _ hex hx
  | @tail q x heq hqx ih =>
    have hq := mem_cons_ancestors.2 ((mem_cons_ancestors.1 he).trans heq.to_reflTransGen)
    exact (ih (hkind q hq x hqx hx)).trans (hstep q hq x hqx hx)

end

end Hierarchy
end CallResolution
