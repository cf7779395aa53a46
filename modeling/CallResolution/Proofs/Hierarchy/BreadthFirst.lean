/-
# In which order supertypes are listed

The transitive supertypes of a type are listed level by level (`levels`).  The same list comes from
a search with a queue, which takes one type after the other off the queue and puts on it what this
type newly leads to: to work off a level is to queue the next one (`Search.iterate_step_append`), so
the search is through after one step for the start and one for each type listed
(`Search.exists_iterate_step_eq`).

Each level holds the types at one distance (`mem_newcomers_iff_isLeast`), therefore nearer types
come first (`pairwise_distance`).  Beyond that, all that is listed is listed where the types before
it first lead to it: the list is what is new among the direct supertypes of the start and of all
that is listed, in this order (`ancestors_eq_newcomers`).  So types that are first reached from one
type stand in the order of its direct supertypes, and others in the order of the types that they are
first reached from (`pairwise_reachedFrom?`).
-/

import CallResolution.Proofs.Hierarchy.Visits
import Mathlib.Logic.Function.Iterate
import Mathlib.Order.Lattice.Nat

namespace CallResolution
namespace Hierarchy

/-- Newcomers of two lists are those of the first, and then those of the second that were not among
them. -/
theorem newcomers_append (seen : Std.TreeSet TypeId) (xs ys : List TypeId) :
    newcomers seen (xs ++ ys) =
      ((newcomers seen xs).1 ++ (newcomers (newcomers seen xs).2 ys).1,
        (newcomers (newcomers seen xs).2 ys).2) := by
  induction xs generalizing seen with
  | nil => rfl
  | cons t xs ih =>
    rw [List.cons_append, newcomers, newcomers]
    split
    · exact ih seen
    · rw [ih]
      rfl

/-! ## A search with a queue -/

/-- A search that is under way. -/
structure Search where
  seen : Std.TreeSet TypeId
  /-- The types whose direct supertypes are still to be looked at. -/
  queue : List TypeId
  /-- What has been found. -/
  listed : List TypeId

namespace Search

/-- Only the start has been seen. -/
def start (t : TypeId) : Search := ⟨(∅ : Std.TreeSet TypeId).insert t, [t], []⟩

/-- Takes one type off the queue.  What it newly leads to is listed and queued.  With an empty queue
the search is through. -/
def step (next : TypeId → List TypeId) (s : Search) : Search :=
  match s.queue with
  | [] => s
  | t :: queue =>
    let (fresh, seen) := newcomers s.seen (next t)
    ⟨seen, queue ++ fresh, s.listed ++ fresh⟩

variable (next : TypeId → List TypeId)

/-- **To work off what is on the queue is to queue the next level.** -/
theorem iterate_step_append (seen : Std.TreeSet TypeId) (level queue listed : List TypeId) :
    (step next)^[level.length] ⟨seen, level ++ queue, listed⟩ =
      ⟨(newcomers seen (level.flatMap next)).2,
        queue ++ (newcomers seen (level.flatMap next)).1,
        listed ++ (newcomers seen (level.flatMap next)).1⟩ := by
  induction level generalizing seen queue listed with
  | nil => simp [newcomers]
  | cons t level ih =>
    have hstep : step next ⟨seen, t :: level ++ queue, listed⟩ =
        ⟨(newcomers seen (next t)).2, level ++ queue ++ (newcomers seen (next t)).1,
          listed ++ (newcomers seen (next t)).1⟩ := rfl
    rw [List.length_cons, Function.iterate_succ_apply, hstep, List.append_assoc, ih,
      List.flatMap_cons, newcomers_append, List.append_assoc, List.append_assoc]

theorem iterate_step (seen : Std.TreeSet TypeId) (level listed : List TypeId) :
    (step next)^[level.length] ⟨seen, level, listed⟩ =
      ⟨(newcomers seen (level.flatMap next)).2, (newcomers seen (level.flatMap next)).1,
        listed ++ (newcomers seen (level.flatMap next)).1⟩ := by
  have h := iterate_step_append next seen level [] listed
  rwa [List.append_nil, List.nil_append] at h

/-- From a level on the search lists the levels that follow, given fuel for all of them. -/
theorem exists_iterate_step_eq {all : List TypeId} (hall : ∀ t, ∀ u ∈ next t, u ∈ all) {fuel : Nat}
    {seen : Std.TreeSet TypeId} {level : List TypeId} (listed : List TypeId)
    (hfuel : (unseen all seen).length ≤ fuel) :
    ∃ seen', (step next)^[(levels next fuel seen level).flatten.length + level.length]
      ⟨seen, level, listed⟩ = ⟨seen', [], listed ++ (levels next fuel seen level).flatten⟩ := by
  induction fuel generalizing seen level listed with
  | zero =>
    have hnil : (newcomers seen (level.flatMap next)).1 = [] :=
      newcomers_eq_nil next hall (Nat.le_zero.1 hfuel)
    rw [levels, List.flatten_nil, List.length_nil, Nat.zero_add, iterate_step, hnil]
    exact ⟨_, rfl⟩
  | succ fuel ih =>
    rw [levels_succ]
    split
    · next hnil =>
      rw [List.flatten_nil, List.length_nil, Nat.zero_add, iterate_step, hnil]
      exact ⟨_, rfl⟩
    · next hne =>
      have hless := length_unseen_newcomers_lt next hall hne
      have hunseen : (unseen all (newcomers seen (level.flatMap next)).2).length ≤ fuel := by omega
      obtain ⟨seen', hrest⟩ := ih (listed ++ (newcomers seen (level.flatMap next)).1) hunseen
      refine ⟨seen', ?_⟩
      rw [Function.iterate_add_apply, iterate_step, List.flatten_cons, List.length_append,
        Nat.add_comm, hrest, List.append_assoc]

end Search

/-! ## Distances -/

/-- From `t` some way of `n` edges leads to `u`. -/
def ReachedIn (h : Hierarchy) (t : TypeId) : Nat → TypeId → Prop
  | 0, u => u = t
  | n + 1, u => ∃ p, h.ReachedIn t n p ∧ h.Extends p u

/-- The number of edges on a shortest way from `t` to `u`. -/
noncomputable def distance (h : Hierarchy) (t u : TypeId) : Nat := sInf {n | h.ReachedIn t n u}

section

variable {h : Hierarchy} {t : TypeId} {seen : Std.TreeSet TypeId} {level : List TypeId} {k : Nat}
  (hseen : ∀ x, seen.contains x ↔ ∃ n ≤ k, h.ReachedIn t n x)
  (hlevel : ∀ x, x ∈ level ↔ IsLeast {n | h.ReachedIn t n x} k)

include hseen hlevel

/-- If all up to a distance has been seen, and the level is what is at this distance, then the next
level is what is one edge further away. -/
theorem mem_newcomers_iff_isLeast {x : TypeId} :
    x ∈ (newcomers seen (level.flatMap h.parents)).1 ↔
      IsLeast {n | h.ReachedIn t n x} (k + 1) := by
  rw [mem_newcomers, List.mem_flatMap, ← Bool.not_eq_true, hseen]
  constructor
  · rintro ⟨⟨p, hp, hpx⟩, hnew⟩
    refine ⟨⟨p, ((hlevel p).1 hp).1, mem_parents.1 hpx⟩, fun n hn => ?_⟩
    by_contra hlt
    exact hnew ⟨n, by omega, hn⟩
  · rintro ⟨⟨p, hp, hpx⟩, hleast⟩
    refine ⟨⟨p, (hlevel p).2 ⟨hp, fun n hn => ?_⟩, mem_parents.2 hpx⟩, ?_⟩
    · -- a shorter way to `p` would make a shorter way to `x`
      have := hleast (a := n + 1) ⟨p, hn, hpx⟩
      omega
    · rintro ⟨n, hn, hx⟩
      have := hleast hx
      omega

theorem contains_newcomers_iff_reachedIn {x : TypeId} :
    (newcomers seen (level.flatMap h.parents)).2.contains x ↔ ∃ n ≤ k + 1, h.ReachedIn t n x := by
  rw [contains_newcomers_snd, hseen]
  constructor
  · rintro (⟨n, hn, hx⟩ | hx)
    · exact ⟨n, by omega, hx⟩
    · obtain ⟨p, hp, hpx⟩ := List.mem_flatMap.1 hx
      exact ⟨k + 1, le_rfl, p, ((hlevel p).1 hp).1, mem_parents.1 hpx⟩
  · rintro ⟨n, hn, hx⟩
    by_cases hle : ∃ m ≤ k, h.ReachedIn t m x
    · exact .inl hle
    · refine .inr (mem_newcomers.1 ((mem_newcomers_iff_isLeast hseen hlevel).2 ⟨?_, ?_⟩)).1
      · obtain rfl : n = k + 1 := by
          by_contra hne
          exact hle ⟨n, by omega, hx⟩
        exact hx
      · intro m hm
        by_contra hlt
        exact hle ⟨m, by omega, hm⟩

/-- The levels that follow are further away, and nearer ones come first. -/
theorem pairwise_distance_levels (fuel : Nat) :
    (levels h.parents fuel seen level).flatten.Pairwise
        (fun u v => h.distance t u ≤ h.distance t v) ∧
      ∀ u ∈ (levels h.parents fuel seen level).flatten, k < h.distance t u := by
  induction fuel generalizing seen level k with
  | zero => simp [levels]
  | succ fuel ih =>
    rw [levels_succ]
    split
    · simp
    · obtain ⟨hsorted, hfar⟩ := ih (fun _ => contains_newcomers_iff_reachedIn hseen hlevel)
        fun _ => mem_newcomers_iff_isLeast hseen hlevel
      have hfresh : ∀ u ∈ (newcomers seen (level.flatMap h.parents)).1,
          h.distance t u = k + 1 := fun u hu =>
        ((mem_newcomers_iff_isLeast hseen hlevel).1 hu).csInf_eq
      rw [List.flatten_cons, List.pairwise_append]
      refine ⟨⟨?_, hsorted, fun u hu v hv => ?_⟩, fun u hu => ?_⟩
      · exact List.pairwise_of_forall_mem_list fun u hu v hv => by rw [hfresh u hu, hfresh v hv]
      · have := hfar v hv
        rw [hfresh u hu]
        omega
      · rcases List.mem_append.1 hu with hu | hu
        · rw [hfresh u hu]
          omega
        · have := hfar u hu
          omega

end

/-- **Nearer supertypes come first.** -/
theorem pairwise_distance (h : Hierarchy) (t : TypeId) :
    (h.ancestors t).Pairwise fun u v => h.distance t u ≤ h.distance t v := by
  refine (pairwise_distance_levels (k := 0) (fun x => ?_) (fun x => ?_) _).1
  · rw [contains_start]
    exact ⟨fun hx => ⟨0, le_rfl, hx⟩, fun ⟨n, hn, hx⟩ => by rwa [Nat.le_zero.1 hn] at hx⟩
  · rw [List.mem_singleton]
    exact ⟨fun hx => ⟨hx, fun n _ => Nat.zero_le n⟩, fun hx => hx.1⟩

/-! ## What types are first reached from -/

/-- What is listed is new among the direct supertypes of the level and of all that is listed. -/
theorem levels_eq_newcomers {next : TypeId → List TypeId} {all : List TypeId}
    (hall : ∀ t, ∀ u ∈ next t, u ∈ all) {fuel : Nat} {seen : Std.TreeSet TypeId}
    {level : List TypeId} (hfuel : (unseen all seen).length ≤ fuel) :
    (levels next fuel seen level).flatten =
      (newcomers seen ((level ++ (levels next fuel seen level).flatten).flatMap next)).1 := by
  induction fuel generalizing seen level with
  | zero => rw [newcomers_eq_nil next hall (Nat.le_zero.1 hfuel), levels, List.flatten_nil]
  | succ fuel ih =>
    rw [levels_succ]
    split
    · next hnil => rw [List.flatten_nil, List.append_nil, hnil]
    · next hne =>
      have hless := length_unseen_newcomers_lt next hall hne
      have hunseen : (unseen all (newcomers seen (level.flatMap next)).2).length ≤ fuel := by omega
      rw [List.flatten_cons, List.flatMap_append, newcomers_append, ← ih hunseen]

/-- **The transitive supertypes are what is new among the direct supertypes of the start and of
themselves**, in this order. -/
theorem ancestors_eq_newcomers (h : Hierarchy) (t : TypeId) :
    h.ancestors t = (newcomers ((∅ : Std.TreeSet TypeId).insert t)
      ((t :: h.ancestors t).flatMap h.parents)).1 :=
  levels_eq_newcomers mem_trail_of_mem_parents (h.length_unseen_trail_le _)

/-- The first of `xs` that leads to `u`. -/
def firstTo? (next : TypeId → List TypeId) (xs : List TypeId) (u : TypeId) : Option TypeId :=
  xs.find? fun p => (next p).contains u

theorem firstTo?_cons (next : TypeId → List TypeId) (p : TypeId) (xs : List TypeId) (u : TypeId) :
    firstTo? next (p :: xs) u = if u ∈ next p then some p else firstTo? next xs u := by
  rw [firstTo?, List.find?_cons]
  by_cases hu : u ∈ next p <;> simp [hu, firstTo?]

theorem mem_of_firstTo? {next : TypeId → List TypeId} {xs : List TypeId} {u p : TypeId}
    (h : firstTo? next xs u = some p) : u ∈ next p := by
  simpa using List.find?_some h

/-- Where types stand among all that `xs` leads to is decided by the first of `xs` that leads to
them, and for one and the same by their places in what it leads to. -/
theorem idxOf_lt_of_firstTo? {next : TypeId → List TypeId} {xs : List TypeId} {u v p q : TypeId}
    (hu : firstTo? next xs u = some p) (hv : firstTo? next xs v = some q)
    (huv : (xs.flatMap next).idxOf u < (xs.flatMap next).idxOf v) :
    xs.idxOf p < xs.idxOf q ∨ p = q ∧ (next p).idxOf u < (next p).idxOf v := by
  induction xs with
  | nil => cases hu
  | cons x xs ih =>
    rw [firstTo?_cons] at hu hv
    rw [List.flatMap_cons] at huv
    split at hu
    · next hux =>
      obtain rfl := Option.some.inj hu
      split at hv
      · next hvx =>
        obtain rfl := Option.some.inj hv
        rw [List.idxOf_append_of_mem hux, List.idxOf_append_of_mem hvx] at huv
        exact .inr ⟨rfl, huv⟩
      · next hvx =>
        have hne : x ≠ q := by
          rintro rfl
          exact hvx (mem_of_firstTo? hv)
        rw [List.idxOf_cons_self, List.idxOf_cons_ne _ hne]
        exact .inl (Nat.succ_pos _)
    · next hux =>
      rw [List.idxOf_append_of_notMem hux] at huv
      split at hv
      · next hvx =>
        rw [List.idxOf_append_of_mem hvx] at huv
        have := List.idxOf_lt_length_of_mem hvx
        omega
      · next hvx =>
        rw [List.idxOf_append_of_notMem hvx] at huv
        have hp : x ≠ p := by
          rintro rfl
          exact hux (mem_of_firstTo? hu)
        have hq : x ≠ q := by
          rintro rfl
          exact hvx (mem_of_firstTo? hv)
        rw [List.idxOf_cons_ne _ hp, List.idxOf_cons_ne _ hq]
        exact (ih hu hv (by omega)).imp_left Nat.succ_lt_succ

/-- The type that the walk from `t` first reaches `u` from: of `t` and all that is listed, the first
that `u` is a direct supertype of. -/
def reachedFrom? (h : Hierarchy) (t u : TypeId) : Option TypeId :=
  firstTo? h.parents (t :: h.ancestors t) u

/-- All that is listed is reached from some type. -/
theorem exists_reachedFrom? {h : Hierarchy} {t u : TypeId} (hu : u ∈ h.ancestors t) :
    ∃ p, h.reachedFrom? t u = some p := by
  obtain ⟨p, hp, hpu, -⟩ := exists_extends_before hu
  refine Option.isSome_iff_exists.1 (List.find?_isSome.2 ⟨p, hp, ?_⟩)
  exact List.contains_iff_mem.2 (mem_parents.2 hpu)

/-- **Supertypes stand in the order of the types that they are first reached from**, and those first
reached from one type in the order of its direct supertypes. -/
theorem pairwise_reachedFrom? (h : Hierarchy) (t : TypeId) :
    (h.ancestors t).Pairwise fun u v => ∀ p q,
      h.reachedFrom? t u = some p → h.reachedFrom? t v = some q →
        (t :: h.ancestors t).idxOf p < (t :: h.ancestors t).idxOf q ∨
          p = q ∧ (h.parents p).idxOf u < (h.parents p).idxOf v := by
  have hsub : (newcomers ((∅ : Std.TreeSet TypeId).insert t)
      ((t :: h.ancestors t).flatMap h.parents)).1.Sublist
        (distinctOn id ((t :: h.ancestors t).flatMap h.parents)) := by
    rw [newcomers_fst]
    exact List.filter_sublist
  rw [← ancestors_eq_newcomers] at hsub
  exact ((pairwise_idxOf_distinctOn _).sublist hsub).imp fun huv p q hp hq =>
    idxOf_lt_of_firstTo? hp hq huv

/-! ## The search as a whole -/

/-- **The transitive supertypes of a type are found by a breadth-first search.**  In any hierarchy,
with repeated declarations, parallel edges, loops and cycles among its edges, the search with a
queue is through after one step for the type and one for each supertype listed.  Listed are the
other types that edges lead to, each once; those at a smaller distance come first, and those that
are first reached from the same type stand in the order of its direct supertypes. -/
theorem ancestors_breadthFirst (h : Hierarchy) (t : TypeId) :
    (∃ seen, (Search.step h.parents)^[(h.ancestors t).length + 1] (.start t) =
      ⟨seen, [], h.ancestors t⟩) ∧
    (h.ancestors t).Nodup ∧
    (∀ u, u ∈ h.ancestors t ↔ u ≠ t ∧ Relation.TransGen h.Extends t u) ∧
    (h.ancestors t).Pairwise (fun u v => h.distance t u ≤ h.distance t v) ∧
    (∀ u ∈ h.ancestors t, ∃ p, h.reachedFrom? t u = some p) ∧
    (h.ancestors t).Pairwise fun u v => ∀ p q,
      h.reachedFrom? t u = some p → h.reachedFrom? t v = some q →
        (t :: h.ancestors t).idxOf p < (t :: h.ancestors t).idxOf q ∨
          p = q ∧ (h.parents p).idxOf u < (h.parents p).idxOf v := by
  refine ⟨?_, h.nodup_ancestors t, fun u => mem_ancestors, h.pairwise_distance t,
    fun u => exists_reachedFrom?, h.pairwise_reachedFrom? t⟩
  exact Search.exists_iterate_step_eq h.parents mem_trail_of_mem_parents []
    (h.length_unseen_trail_le _)

/-- "Dog" is declared twice, and once names "Pet" twice; "Pet" and "Dog" extend each other, and
"Named" extends itself. -/
def knotted : Hierarchy :=
  let dog := TypeId.ofName "Dog"
  let pet := TypeId.ofName "Pet"
  let named := TypeId.ofName "Named"
  let thing := TypeId.ofName "Thing"
  let step (h : Hierarchy) (d : TypeId × List TypeId) := h.addParents d.1 d.2
  [(dog, [pet, named, pet]), (named, [named, thing]), (pet, [.ofName "Animal", thing, dog]),
    (dog, [named])].foldl step ∅

/-- Seen from "Dog", "Thing" is reached from "Named", which comes before "Pet", and so it is listed
before "Animal", although "Pet" names "Animal" first. -/
theorem ancestors_breadthFirst_knotted :
    let dog := TypeId.ofName "Dog"
    knotted.ancestors dog =
        [.ofName "Named", .ofName "Pet", .ofName "Thing", .ofName "Animal"] ∧
      knotted.reachedFrom? dog (.ofName "Thing") = some (.ofName "Named") ∧
      knotted.distance dog (.ofName "Pet") ≤ knotted.distance dog (.ofName "Animal") ∧
      ∃ seen, (Search.step knotted.parents)^[5] (.start dog) =
        ⟨seen, [], [.ofName "Named", .ofName "Pet", .ofName "Thing", .ofName "Animal"]⟩ := by
  intro dog
  have hlist : knotted.ancestors dog =
      [.ofName "Named", .ofName "Pet", .ofName "Thing", .ofName "Animal"] := by decide +kernel
  obtain ⟨hsearch, -, -, hsorted, -, -⟩ := knotted.ancestors_breadthFirst dog
  rw [hlist] at hsearch hsorted
  refine ⟨hlist, by decide +kernel, ?_, hsearch⟩
  exact (List.pairwise_cons.1 (List.pairwise_cons.1 hsorted).2).1 _ (by simp)

end Hierarchy
end CallResolution
