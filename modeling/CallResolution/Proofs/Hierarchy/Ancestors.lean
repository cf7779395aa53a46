/-
# What the breadth-first walk reaches

The transitive supertypes that the walk lists are those that edges lead to
(`mem_ancestors`), each listed once (`nodup_ancestors`).  Whatever a level of the walk
holds is reached by edges and not seen before (`mem_levels`).  That nothing is missed
is a matter of the bound on the number of levels: as long as the walk goes on, each
level leaves less that was not seen (`length_unseen_newcomers_lt`), so when the bound is
spent every supertype of an edge has been seen, and what has been seen is closed under
edges (`levels_closed`).  A larger bound changes nothing (`levels_fuel_congr`), so the walk depends on
the direct supertypes of what it visits and on nothing else (`ancestors_congr`).
-/

import CallResolution.Hierarchy.Closure
import CallResolution.Proofs.Distinct
import CallResolution.Proofs.Hierarchy.Edges
import Mathlib.Logic.Relation

namespace CallResolution
namespace Hierarchy

/-! ## One level -/

theorem contains_insert {seen : Std.TreeSet TypeId} {t x : TypeId} :
    (seen.insert t).contains x ↔ x = t ∨ seen.contains x := by
  rw [Std.TreeSet.contains_insert, Bool.or_eq_true, beq_iff_eq, Std.LawfulEqCmp.compare_eq_iff_eq,
    eq_comm]

theorem newcomers_fst (seen : Std.TreeSet TypeId) (ts : List TypeId) :
    (newcomers seen ts).1 = (distinctOn id ts).filter fun t => !seen.contains t := by
  induction ts generalizing seen with
  | nil => rfl
  | cons t ts ih =>
    rw [newcomers, distinctOn]
    split
    · next ht =>
      rw [ih, List.filter_cons_of_neg (by simp [ht]), List.filter_filter]
      refine List.filter_congr fun x _ => ?_
      by_cases hx : x = t <;> simp [hx, ht]
    · next ht =>
      rw [List.filter_cons_of_pos (by simp [ht]), List.filter_filter]
      simp only [ih]
      congr 1
      refine List.filter_congr fun x _ => ?_
      by_cases hx : x = t
      · simp [hx]
      · simp [hx, Std.TreeSet.contains_insert, Ne.symm hx]

theorem contains_newcomers_snd {seen : Std.TreeSet TypeId} {ts : List TypeId} {x : TypeId} :
    (newcomers seen ts).2.contains x ↔ seen.contains x ∨ x ∈ ts := by
  induction ts generalizing seen with
  | nil => simp [newcomers]
  | cons t ts ih =>
    rw [newcomers]
    split
    · next ht =>
      rw [ih, List.mem_cons]
      constructor
      · exact Or.imp_right .inr
      · rintro (h | rfl | h)
        · exact .inl h
        · exact .inl ht
        · exact .inr h
    · next ht =>
      rw [ih, List.mem_cons, contains_insert, or_assoc, or_left_comm]

theorem mem_newcomers {seen : Std.TreeSet TypeId} {ts : List TypeId} {x : TypeId} :
    x ∈ (newcomers seen ts).1 ↔ x ∈ ts ∧ seen.contains x = false := by
  rw [newcomers_fst, List.mem_filter, mem_distinctOn_id, Bool.not_eq_true']

theorem nodup_newcomers (seen : Std.TreeSet TypeId) (ts : List TypeId) :
    (newcomers seen ts).1.Nodup := by
  rw [newcomers_fst]
  have h := nodup_map_distinctOn id ts
  rw [List.map_id] at h
  exact h.filter _

/-! ## What is left to see -/

/-- The types among `all` that have not been seen. -/
def unseen (all : List TypeId) (seen : Std.TreeSet TypeId) : List TypeId :=
  all.filter fun t => !seen.contains t

section

variable {all : List TypeId} {seen seen' : Std.TreeSet TypeId}

theorem mem_unseen {t : TypeId} : t ∈ unseen all seen ↔ t ∈ all ∧ seen.contains t = false := by
  rw [unseen, List.mem_filter, Bool.not_eq_true']

theorem length_unseen_le_length (all : List TypeId) (seen : Std.TreeSet TypeId) :
    (unseen all seen).length ≤ all.length :=
  List.length_filter_le _ _

variable (hsub : ∀ t, seen.contains t → seen'.contains t)

include hsub in
theorem unseen_eq_filter :
    unseen all seen' = (unseen all seen).filter fun t => !seen'.contains t := by
  rw [unseen, unseen, List.filter_filter]
  refine List.filter_congr fun t _ => ?_
  cases hs : seen.contains t with
  | true => simp [hsub t hs]
  | false => simp

include hsub in
theorem length_unseen_le : (unseen all seen').length ≤ (unseen all seen).length := by
  rw [unseen_eq_filter hsub]
  exact List.length_filter_le _ _

include hsub in
/-- Whoever sees one type more has less left to see. -/
theorem length_unseen_lt {t : TypeId} (ht : t ∈ unseen all seen) (hseen : seen'.contains t) :
    (unseen all seen').length < (unseen all seen).length := by
  rw [unseen_eq_filter hsub, List.length_filter_lt_length_iff_exists]
  exact ⟨t, ht, by simp [hseen]⟩

end

/-! ## The walk -/

variable (next : TypeId → List TypeId)

/-- The walk goes on as long as there are newcomers. -/
theorem levels_succ (fuel : Nat) (seen : Std.TreeSet TypeId) (level : List TypeId) :
    levels next (fuel + 1) seen level =
      if (newcomers seen (level.flatMap next)).1 = [] then []
      else (newcomers seen (level.flatMap next)).1 ::
        levels next fuel (newcomers seen (level.flatMap next)).2
          (newcomers seen (level.flatMap next)).1 := by
  rw [levels]
  rcases newcomers seen (level.flatMap next) with ⟨_ | ⟨t, ts⟩, seen'⟩ <;> rfl

/-- What the walk lists is new, and reached by steps from its start. -/
theorem mem_levels {fuel : Nat} {seen : Std.TreeSet TypeId} {level : List TypeId} {x : TypeId}
    (hx : x ∈ (levels next fuel seen level).flatten) :
    seen.contains x = false ∧ ∃ a ∈ level, Relation.TransGen (fun a b => b ∈ next a) a x := by
  induction fuel generalizing seen level with
  | zero => simp [levels] at hx
  | succ fuel ih =>
    rw [levels_succ] at hx
    split at hx
    · simp at hx
    · rw [List.flatten_cons, List.mem_append] at hx
      have step : ∀ b ∈ (newcomers seen (level.flatMap next)).1, seen.contains b = false ∧
          ∃ a ∈ level, b ∈ next a := fun b hb => by
        obtain ⟨hb, hnew⟩ := mem_newcomers.1 hb
        exact ⟨hnew, List.mem_flatMap.1 hb⟩
      rcases hx with hx | hx
      · obtain ⟨hnew, a, ha, hax⟩ := step x hx
        exact ⟨hnew, a, ha, .single hax⟩
      · obtain ⟨hnew, b, hb, hbx⟩ := ih hx
        obtain ⟨-, a, ha, hab⟩ := step b hb
        have hnew' : ¬seen.contains x = true := fun h =>
          absurd (contains_newcomers_snd.2 (.inl h)) (ne_true_of_eq_false hnew)
        exact ⟨eq_false_of_ne_true hnew', a, ha, .head hab hbx⟩

theorem nodup_levels (fuel : Nat) (seen : Std.TreeSet TypeId) (level : List TypeId) :
    (levels next fuel seen level).flatten.Nodup := by
  induction fuel generalizing seen level with
  | zero => simp [levels]
  | succ fuel ih =>
    rw [levels_succ]
    split
    · simp
    · rw [List.flatten_cons, List.nodup_append]
      refine ⟨nodup_newcomers _ _, ih _ _, fun a ha b hb => ?_⟩
      rintro rfl
      -- what a later level holds was not seen when the first one was complete
      have hnew := (mem_levels next hb).1
      exact absurd (contains_newcomers_snd.2 (.inr (mem_newcomers.1 ha).1))
        (ne_true_of_eq_false hnew)

/-- All that has been seen, but for the present level, has had its successors seen. -/
def Settled (seen : Std.TreeSet TypeId) (level : List TypeId) : Prop :=
  ∀ x, seen.contains x → x ∉ level → ∀ y ∈ next x, seen.contains y

/-- After a level everything before its newcomers is settled. -/
theorem Settled.newcomers {seen : Std.TreeSet TypeId} {level : List TypeId}
    (h : Settled next seen level) :
    Settled next (Hierarchy.newcomers seen (level.flatMap next)).2
      (Hierarchy.newcomers seen (level.flatMap next)).1 := by
  intro x hx hfresh y hy
  have hold : seen.contains x := by
    by_contra hs
    refine hfresh (mem_newcomers.2 ⟨?_, eq_false_of_ne_true hs⟩)
    exact (contains_newcomers_snd.1 hx).resolve_left hs
  rw [contains_newcomers_snd]
  by_cases hlevel : x ∈ level
  · exact .inr (List.mem_flatMap.2 ⟨x, hlevel, hy⟩)
  · exact .inl (h x hold hlevel y hy)

/-- A level that holds anything leaves less to see. -/
theorem length_unseen_newcomers_lt {all : List TypeId} (hall : ∀ t, ∀ u ∈ next t, u ∈ all)
    {seen : Std.TreeSet TypeId} {level : List TypeId}
    (hne : (newcomers seen (level.flatMap next)).1 ≠ []) :
    (unseen all (newcomers seen (level.flatMap next)).2).length < (unseen all seen).length := by
  obtain ⟨x, hx⟩ := List.exists_mem_of_ne_nil _ hne
  obtain ⟨hmem, hnew⟩ := mem_newcomers.1 hx
  obtain ⟨a, -, hax⟩ := List.mem_flatMap.1 hmem
  exact length_unseen_lt (fun t ht => contains_newcomers_snd.2 (.inl ht))
    (mem_unseen.2 ⟨hall a x hax, hnew⟩) (contains_newcomers_snd.2 (.inr hmem))

/-- **The walk misses nothing.**  If all before the present level is settled, and there is fuel for
every successor yet unseen, then what has been seen or is listed is closed under successors. -/
theorem levels_closed {all : List TypeId} (hall : ∀ t, ∀ u ∈ next t, u ∈ all) {fuel : Nat}
    {seen : Std.TreeSet TypeId} {level : List TypeId} (hset : Settled next seen level)
    (hfuel : (unseen all seen).length ≤ fuel) {x y : TypeId}
    (hx : seen.contains x ∨ x ∈ (levels next fuel seen level).flatten) (hxy : y ∈ next x) :
    seen.contains y ∨ y ∈ (levels next fuel seen level).flatten := by
  induction fuel generalizing seen level with
  | zero =>
    have hnil : unseen all seen = [] := List.eq_nil_of_length_eq_zero (Nat.le_zero.1 hfuel)
    left
    by_contra hy
    exact List.ne_nil_of_mem (mem_unseen.2 ⟨hall x y hxy, eq_false_of_ne_true hy⟩) hnil
  | succ fuel ih =>
    have hsplit : ∀ z, (newcomers seen (level.flatMap next)).2.contains z →
        seen.contains z ∨ z ∈ (newcomers seen (level.flatMap next)).1 := fun z hz => by
      by_cases hs : seen.contains z
      · exact .inl hs
      · exact .inr (mem_newcomers.2
          ⟨(contains_newcomers_snd.1 hz).resolve_left hs, eq_false_of_ne_true hs⟩)
    rw [levels_succ] at hx ⊢
    split
    · next hnil =>
      rw [if_pos hnil] at hx
      have hseen : seen.contains x := by simpa using hx
      have hnext : (newcomers seen (level.flatMap next)).2.contains y :=
        hset.newcomers next x (contains_newcomers_snd.2 (.inl hseen)) (by simp [hnil]) y hxy
      have := hsplit y hnext
      rw [hnil] at this
      exact this
    · next hne =>
      rw [if_neg hne, List.flatten_cons, List.mem_append] at hx
      rw [List.flatten_cons, List.mem_append]
      have hx' : (newcomers seen (level.flatMap next)).2.contains x ∨
          x ∈ (levels next fuel (newcomers seen (level.flatMap next)).2
            (newcomers seen (level.flatMap next)).1).flatten := by
        rcases hx with h | h | h
        · exact .inl (contains_newcomers_snd.2 (.inl h))
        · exact .inl (contains_newcomers_snd.2 (.inr (mem_newcomers.1 h).1))
        · exact .inr h
      have hless := length_unseen_newcomers_lt next hall hne
      rcases ih (hset.newcomers next) (by omega) hx' with h | h
      · exact (hsplit y h).imp_right .inl
      · exact .inr (.inr h)

/-! ## Walks from one type -/

theorem contains_start {a x : TypeId} : ((∅ : Std.TreeSet TypeId).insert a).contains x ↔ x = a := by
  rw [contains_insert, Std.TreeSet.contains_emptyc, Bool.false_eq_true, or_false]

section

variable {all : List TypeId} (hall : ∀ t, ∀ u ∈ next t, u ∈ all)

include hall in
/-- **A walk from one type lists the other types that steps lead to**, given a level for every
successor. -/
theorem mem_levels_iff {fuel : Nat} (hfuel : all.length ≤ fuel) {a b : TypeId} :
    b ∈ (levels next fuel ((∅ : Std.TreeSet TypeId).insert a) [a]).flatten ↔
      b ≠ a ∧ Relation.TransGen (fun x y => y ∈ next x) a b := by
  have hset : Settled next ((∅ : Std.TreeSet TypeId).insert a) [a] := by
    intro z hz hza
    exact absurd (List.mem_singleton.2 (contains_start.1 hz)) hza
  have hclosed : ∀ x y, (x = a ∨ x ∈ (levels next fuel ((∅ : Std.TreeSet TypeId).insert a)
      [a]).flatten) → y ∈ next x →
        y = a ∨ y ∈ (levels next fuel ((∅ : Std.TreeSet TypeId).insert a) [a]).flatten := by
    intro x y hx hxy
    have h := levels_closed next hall hset ((length_unseen_le_length all _).trans hfuel)
      (hx.imp_left contains_start.2) hxy
    rwa [contains_start] at h
  constructor
  · intro hb
    obtain ⟨hnew, c, hc, hcb⟩ := mem_levels next hb
    rw [List.mem_singleton.1 hc] at hcb
    refine ⟨?_, hcb⟩
    rintro rfl
    exact absurd (contains_start.2 rfl) (ne_true_of_eq_false hnew)
  · rintro ⟨hne, hab⟩
    have hreach : b = a ∨ b ∈ (levels next fuel ((∅ : Std.TreeSet TypeId).insert a)
        [a]).flatten := by
      induction hab with
      | single hxy => exact hclosed _ _ (.inl rfl) hxy
      | @tail x y hax hxy ih =>
        by_cases hx : x = a
        · exact hclosed _ _ (.inl hx) hxy
        · exact hclosed _ _ (ih hx) hxy
    exact hreach.resolve_left hne

include hall in
/-- When every successor has been seen there are no newcomers. -/
theorem newcomers_eq_nil {seen : Std.TreeSet TypeId} {level : List TypeId}
    (hseen : (unseen all seen).length = 0) :
    (newcomers seen (level.flatMap next)).1 = [] := by
  by_contra hne
  have hless := length_unseen_newcomers_lt next hall hne
  omega

include hall in
theorem levels_eq_nil {fuel : Nat} {seen : Std.TreeSet TypeId} {level : List TypeId}
    (hseen : (unseen all seen).length = 0) :
    levels next fuel seen level = [] := by
  cases fuel with
  | zero => rfl
  | succ fuel => rw [levels_succ, if_pos (newcomers_eq_nil next hall hseen)]

include hall in
/-- More levels than there are successors yet unseen make no difference. -/
theorem levels_fuel_congr {fuel fuel' : Nat} {seen : Std.TreeSet TypeId} {level : List TypeId}
    (hfuel : (unseen all seen).length ≤ fuel)
    (hfuel' : (unseen all seen).length ≤ fuel') :
    levels next fuel seen level = levels next fuel' seen level := by
  induction fuel generalizing fuel' seen level with
  | zero =>
    have hseen := Nat.le_zero.1 hfuel
    rw [levels_eq_nil next hall hseen, levels_eq_nil next hall hseen]
  | succ fuel ih =>
    cases fuel' with
    | zero =>
      have hseen := Nat.le_zero.1 hfuel'
      rw [levels_eq_nil next hall hseen, levels_eq_nil next hall hseen]
    | succ fuel' =>
      rw [levels_succ, levels_succ]
      split
      · rfl
      · next hne =>
        have hless := length_unseen_newcomers_lt next hall hne
        congr 1
        exact ih (by omega) (by omega)

/-- Only the successors of what is reached matter. -/
theorem levels_congr {next' : TypeId → List TypeId} {reached : TypeId → Prop}
    (hreached : ∀ x, reached x → ∀ y ∈ next x, reached y)
    (hsame : ∀ x, reached x → next x = next' x) {fuel : Nat} {seen : Std.TreeSet TypeId}
    {level : List TypeId} (hlevel : ∀ x ∈ level, reached x) :
    levels next fuel seen level = levels next' fuel seen level := by
  induction fuel generalizing seen level with
  | zero => rfl
  | succ fuel ih =>
    have hnext : level.flatMap next = level.flatMap next' :=
      List.flatMap_congr fun x hx => hsame x (hlevel x hx)
    have hfresh : ∀ x ∈ (newcomers seen (level.flatMap next)).1, reached x := by
      intro x hx
      obtain ⟨a, ha, hax⟩ := List.mem_flatMap.1 (mem_newcomers.1 hx).1
      exact hreached a (hlevel a ha) x hax
    rw [levels_succ, levels_succ, ← hnext, ih hfresh]

end

/-! ## Transitive supertypes -/

/-- An edge leads from `a` to `b`. -/
def Extends (h : Hierarchy) (a b : TypeId) : Prop := (a, b) ∈ h.edges

theorem nodup_ancestors (h : Hierarchy) (t : TypeId) : (h.ancestors t).Nodup :=
  nodup_levels _ _ _ _

/-- Every direct supertype is that of an edge. -/
theorem mem_trail_of_mem_parents {h : Hierarchy} (t : TypeId) :
    ∀ u ∈ h.parents t, u ∈ h.trail.map Edge.sup := by
  intro u hu
  obtain ⟨e, he, -, rfl⟩ := mem_edges.1 (mem_parents.1 hu)
  exact List.mem_map_of_mem he

/-- There is no more left to see than there are edges. -/
theorem length_unseen_trail_le (h : Hierarchy) (seen : Std.TreeSet TypeId) :
    (unseen (h.trail.map Edge.sup) seen).length ≤ h.trail.length := by
  have hle := length_unseen_le_length (h.trail.map Edge.sup) seen
  rwa [List.length_map] at hle

/-- **The transitive supertypes of a type are the other types that edges lead to.** -/
theorem mem_ancestors {h : Hierarchy} {a b : TypeId} :
    b ∈ h.ancestors a ↔ b ≠ a ∧ Relation.TransGen h.Extends a b := by
  have hrel : (fun a b => b ∈ h.parents a) = h.Extends := by
    funext a b
    exact propext mem_parents
  rw [ancestors, mem_levels_iff h.parents mem_trail_of_mem_parents (by rw [List.length_map]), hrel]

/-- A type and its transitive supertypes are all that edges lead to from it. -/
theorem mem_cons_ancestors {h : Hierarchy} {t a : TypeId} :
    a ∈ t :: h.ancestors t ↔ Relation.ReflTransGen h.Extends t a := by
  rw [List.mem_cons, mem_ancestors, Relation.reflTransGen_iff_eq_or_transGen]
  tauto

/-- With the same direct supertypes, of the type itself and of all those above it in the first
hierarchy, a type has the same transitive ones in the same order. -/
theorem ancestors_congr {h k : Hierarchy} {t : TypeId}
    (hsame : ∀ u ∈ t :: h.ancestors t, h.parents u = k.parents u) :
    h.ancestors t = k.ancestors t := by
  have hreached : ∀ x ∈ t :: h.ancestors t, ∀ y ∈ h.parents x, y ∈ t :: h.ancestors t := by
    intro x hx y hxy
    rw [mem_cons_ancestors] at hx ⊢
    exact hx.tail (mem_parents.1 hxy)
  -- the two walks may have different numbers of levels, and both may have the sum of them
  have hle : h.trail.length ≤ h.trail.length + k.trail.length := by omega
  have hle' : k.trail.length ≤ h.trail.length + k.trail.length := by omega
  rw [ancestors, ancestors,
    levels_fuel_congr h.parents mem_trail_of_mem_parents (h.length_unseen_trail_le _)
      ((h.length_unseen_trail_le _).trans hle),
    levels_fuel_congr k.parents mem_trail_of_mem_parents (k.length_unseen_trail_le _)
      ((k.length_unseen_trail_le _).trans hle'),
    levels_congr h.parents hreached hsame]
  exact fun x hx => List.mem_singleton.1 hx ▸ List.mem_cons_self

theorem not_mem_ancestors_self (h : Hierarchy) (t : TypeId) : t ∉ h.ancestors t :=
  fun ht => (mem_ancestors.1 ht).1 rfl

/-- Hierarchies with the same edges for each type have the same supertypes in the same order. -/
theorem SameEdges.ancestors {h k : Hierarchy} (e : h.SameEdges k) : h.ancestors = k.ancestors := by
  funext t
  exact ancestors_congr fun u _ => congrFun e.parents u

end Hierarchy
end CallResolution
