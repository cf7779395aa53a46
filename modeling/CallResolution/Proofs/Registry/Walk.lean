/-
# Walking the declarations

What the subtype graph answers can also be found out from the declarations alone: `walk` starts from
the supertypes that a type declares, works off a queue and goes on with the declared supertypes of
whatever is registered.  The graph is kept in step with the declarations
(`Reachable.edgesFrom_eq`), so both find the same types, and also in the same order as long as no
type declares more supertypes than there are positions for edges (`Reachable.ancestors_walk`).

The two searches are organised differently.  The walk puts types on its queue whether or not they
are new and passes over them later.  Between two levels, however, its queue is what the present
level leads to (`walkFrom_append`), and so it lists the levels one after the other
(`walkFrom_flatMap`).
-/

import CallResolution.Proofs.Registry.Members

namespace CallResolution
namespace Registry

open Hierarchy (levels newcomers newEdges unseen)

variable {r : Registry}

/-! ## The walk -/

/-- The direct supertypes that `t` declares, if it is registered. -/
def declaredParents (r : Registry) (t : TypeId) : List TypeId :=
  ((r.find? t).map TypeDecl.parents).getD []

/-- Works off `queue`.  What has been seen is passed over; anything else is listed, and the
supertypes that it declares are queued. -/
def walkFrom (r : Registry) (seen : Std.TreeSet TypeId) : List TypeId → List TypeId
  | [] => []
  | t :: queue =>
    if seen.contains t then r.walkFrom seen queue
    else t :: r.walkFrom (seen.insert t) (queue ++ r.declaredParents t)
termination_by queue => ((unseen r.decls.keys seen).length, queue.length)
decreasing_by
  · exact Prod.Lex.right _ (Nat.lt_succ_self _)
  · next hnew =>
    have hsub : ∀ u, seen.contains u → (seen.insert t).contains u := fun u hu =>
      Hierarchy.contains_insert.2 (.inr hu)
    cases hd : r.find? t with
    | none =>
      -- nothing is queued
      refine Prod.Lex.right' _ (Hierarchy.length_unseen_le hsub) ?_
      simp [declaredParents, hd]
    | some d =>
      have hfresh := Hierarchy.mem_unseen.2 ⟨mem_keys hd, eq_false_of_ne_true hnew⟩
      exact Prod.Lex.left _ _
        (Hierarchy.length_unseen_lt hsub hfresh (Hierarchy.contains_insert.2 (.inl rfl)))

/-- The types above `t` by the declarations of the registered types, nearest first. -/
def walk (r : Registry) (t : TypeId) : List TypeId :=
  r.walkFrom ((∅ : Std.TreeSet TypeId).insert t) (r.declaredParents t)

/-- After working off `xs` its newcomers are listed, and what they declare is at the end of the
queue. -/
theorem walkFrom_append (r : Registry) (seen : Std.TreeSet TypeId) (xs queue : List TypeId) :
    r.walkFrom seen (xs ++ queue) = (newcomers seen xs).1 ++
      r.walkFrom (newcomers seen xs).2
        (queue ++ (newcomers seen xs).1.flatMap r.declaredParents) := by
  induction xs generalizing seen queue with
  | nil => simp [newcomers]
  | cons t xs ih =>
    rw [List.cons_append, walkFrom, newcomers]
    split
    · exact ih seen queue
    · rw [List.append_assoc, ih]
      simp only [List.cons_append, List.flatMap_cons, List.append_assoc]

theorem walkFrom_eq_append (r : Registry) (seen : Std.TreeSet TypeId) (queue : List TypeId) :
    r.walkFrom seen queue = (newcomers seen queue).1 ++
      r.walkFrom (newcomers seen queue).2 ((newcomers seen queue).1.flatMap r.declaredParents) := by
  have h := r.walkFrom_append seen queue []
  rwa [List.append_nil, List.nil_append] at h

/-- **From one level on the walk lists the levels that follow**, given fuel for all of them. -/
theorem walkFrom_flatMap {all : List TypeId} (hall : ∀ t, ∀ u ∈ r.declaredParents t, u ∈ all)
    {fuel : Nat} {seen : Std.TreeSet TypeId} {level : List TypeId}
    (hfuel : (unseen all seen).length ≤ fuel) :
    r.walkFrom seen (level.flatMap r.declaredParents) =
      (levels r.declaredParents fuel seen level).flatten := by
  induction fuel generalizing seen level with
  | zero =>
    have hseen := Nat.le_zero.1 hfuel
    rw [walkFrom_eq_append, Hierarchy.newcomers_eq_nil r.declaredParents hall hseen, levels]
    simp [walkFrom]
  | succ fuel ih =>
    rw [walkFrom_eq_append, Hierarchy.levels_succ]
    split
    · next hnil => simp [hnil, walkFrom]
    · next hne =>
      have hless := Hierarchy.length_unseen_newcomers_lt r.declaredParents hall hne
      rw [List.flatten_cons, ih (by omega)]

/-! ## The graph beside the declarations -/

/-- `t` is registered and declares `u` as a direct supertype. -/
def Declares (r : Registry) (t u : TypeId) : Prop := ∃ d, r.find? t = some d ∧ u ∈ d.parents

theorem mem_declaredParents {t u : TypeId} : u ∈ r.declaredParents t ↔ r.Declares t u := by
  rw [declaredParents, Declares]
  cases r.find? t <;> simp

/-- **The edges from a type are those of its declaration**, and a type that is not registered has
none. -/
theorem Reachable.edgesFrom_eq (hr : r.Reachable) (t : TypeId) :
    r.hierarchy.edgesFrom t = newEdges t (r.declaredParents t) := by
  induction hr with
  | empty => simp [declaredParents, newEdges]; rfl
  | @apply r s x hr hx h ih =>
    rcases apply_cases h with rfl | ⟨d, -, g⟩
    · exact ih
    · rw [g.edgesFrom, declaredParents, g.find?]
      split
      · next ht =>
        subst ht
        have hnone : r.declaredParents d.id = [] := by rw [declaredParents, g.free]; rfl
        rw [ih, hnone]
        simp [newEdges]
      · exact ih

theorem Reachable.extends_eq (hr : r.Reachable) : r.hierarchy.Extends = r.Declares := by
  funext t u
  rw [Hierarchy.Extends, Hierarchy.mem_edges_iff_edgesFrom, hr.edgesFrom_eq,
    Hierarchy.exists_mem_newEdges, mem_declaredParents]

/-- The graph gives the direct supertypes in declared order, if there is a position for each. -/
theorem Reachable.parents_eq (hr : r.Reachable) {t : TypeId}
    (hlen : (r.declaredParents t).length ≤ UInt16.size) :
    r.hierarchy.parents t = r.declaredParents t :=
  Hierarchy.parents_eq_of_edgesFrom (hr.edgesFrom_eq t) hlen

/-! ## The graph beside the walk -/

theorem Reachable.mem_trail (hr : r.Reachable) (t : TypeId) :
    ∀ u ∈ r.declaredParents t, u ∈ r.hierarchy.trail.map Edge.sup := by
  intro u hu
  rw [mem_declaredParents, ← hr.extends_eq] at hu
  exact Hierarchy.mem_trail_of_mem_parents t u (Hierarchy.mem_parents.2 hu)

/-- The walk lists the levels of a walk along the declared supertypes. -/
theorem Reachable.walk_eq (hr : r.Reachable) (t : TypeId) :
    r.walk t = (levels r.declaredParents r.hierarchy.trail.length
      ((∅ : Std.TreeSet TypeId).insert t) [t]).flatten := by
  have hstart : r.declaredParents t = [t].flatMap r.declaredParents := by simp
  rw [walk, hstart]
  exact walkFrom_flatMap hr.mem_trail (r.hierarchy.length_unseen_trail_le _)

theorem Reachable.nodup_walk (hr : r.Reachable) (t : TypeId) : (r.walk t).Nodup := by
  rw [hr.walk_eq]
  exact Hierarchy.nodup_levels _ _ _ _

theorem Reachable.mem_walk (hr : r.Reachable) {t u : TypeId} :
    u ∈ r.walk t ↔ u ≠ t ∧ Relation.TransGen r.Declares t u := by
  have hrel : (fun x y => y ∈ r.declaredParents x) = r.Declares := by
    funext x y
    exact propext mem_declaredParents
  rw [hr.walk_eq, Hierarchy.mem_levels_iff r.declaredParents hr.mem_trail
    (by rw [List.length_map]), hrel]

theorem Reachable.conforms_iff (hr : r.Reachable) {a b : TypeId} :
    r.conforms a b ↔ Relation.ReflTransGen r.Declares a b := by
  rw [Registry.conforms_iff, eq_comm, ancestors, ← List.mem_cons, Hierarchy.mem_cons_ancestors,
    hr.extends_eq]

/-- **What the subtype graph answers is what a walk of the declarations finds.**  In a registry that
any registrations lead to, the transitive supertypes of a type, registered or not, are the types
that the walk lists, each once; they are in the same order if no registered type declares more than
65536 direct supertypes; and a type conforms to what its declaration and those of registered types
lead to, in any number of steps. -/
theorem Reachable.ancestors_walk (hr : r.Reachable) :
    (∀ t, (r.ancestors t).Nodup ∧ (r.ancestors t).Perm (r.walk t)) ∧
      ((∀ t d, r.find? t = some d → d.parents.length ≤ 65536) →
        ∀ t, r.ancestors t = r.walk t) ∧
      ∀ a b, r.conforms a b ↔ Relation.ReflTransGen r.Declares a b := by
  refine ⟨fun t => ⟨r.hierarchy.nodup_ancestors t, ?_⟩, fun hlen t => ?_, fun a b =>
    hr.conforms_iff⟩
  · refine (List.perm_ext_iff_of_nodup (r.hierarchy.nodup_ancestors t) (hr.nodup_walk t)).2 ?_
    intro u
    rw [hr.mem_walk, Hierarchy.mem_ancestors, hr.extends_eq]
  · have hparents : r.hierarchy.parents = r.declaredParents := by
      funext u
      refine hr.parents_eq ?_
      rw [declaredParents]
      cases hu : r.find? u with
      | none => simp
      | some d => exact hlen u d hu
    rw [hr.walk_eq, ancestors, Hierarchy.ancestors, hparents]

/-- Three interfaces, two of which extend each other.  "Pet" extends "Named" twice and a type that
is not registered, and is not taken a second time. -/
def tangled : Registry :=
  let pet := TypeId.ofName "Pet"
  let named := TypeId.ofName "Named"
  let thing := TypeId.ofName "Thing"
  (primitives.applyAll [
    .decl (.ofInterface { InterfaceDecl.named "Pet" with bases := [named, .ofName "Ghost", named] }),
    .decl (.ofInterface { InterfaceDecl.named "Pet" with bases := [thing] }),
    .decl (.ofInterface { InterfaceDecl.named "Named" with bases := [pet, named, thing] }),
    .decl (.ofInterface (InterfaceDecl.named "Thing"))]).2

theorem ancestors_walk_tangled :
    tangled.walk (.ofName "Pet") = [.ofName "Named", .ofName "Ghost", .ofName "Thing"] ∧
      Relation.ReflTransGen tangled.Declares (.ofName "Pet") (.ofName "Thing") := by
  have hr : tangled.Reachable := Regular.reachable (regular_primitives.applyAll (by decide +kernel))
  obtain ⟨-, horder, hconforms⟩ := hr.ancestors_walk
  constructor
  · rw [← horder (forall_find? (p := fun d => d.parents.length ≤ 65536) (by decide +kernel))]
    decide +kernel
  · exact (hconforms _ _).1 (by decide +kernel)

end Registry
end CallResolution
