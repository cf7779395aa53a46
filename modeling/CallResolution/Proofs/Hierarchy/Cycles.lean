/-
# What the pruning of edges decides

`core` drops edges that cannot be followed.  It never drops an edge of a part that can
be followed for ever (`mem_core`), so a cycle survives; and with a round for every edge
it ends only when every edge left can be followed (`core_continued`), which in a finite
set of edges means that there is a cycle (`exists_cycle`).  Together the pruning decides
whether a type transitively extends itself (`isCyclic_iff`).
-/

import CallResolution.Hierarchy.Cycle
import CallResolution.Proofs.Hierarchy.Ancestors
import Mathlib.Data.Set.Finite.List
import Mathlib.Order.WellFounded

namespace CallResolution
namespace Hierarchy

/-- Each of the edges can be followed by one of them. -/
def Continued (edges : List (TypeId × TypeId)) : Prop := ∀ e ∈ edges, ∃ f ∈ edges, f.1 = e.2

theorem mem_continued {edges : List (TypeId × TypeId)} {e : TypeId × TypeId} :
    e ∈ continued edges ↔ e ∈ edges ∧ ∃ f ∈ edges, f.1 = e.2 := by
  simp [continued]

theorem core_subset (fuel : Nat) (edges : List (TypeId × TypeId)) : core fuel edges ⊆ edges := by
  induction fuel generalizing edges with
  | zero => exact List.Subset.refl edges
  | succ fuel ih =>
    rw [core]
    split
    · exact List.Subset.refl edges
    · exact fun e he => (mem_continued.1 (ih _ he)).1

/-- No round drops an edge of a part whose edges can all be followed within it. -/
theorem mem_core {p : TypeId × TypeId → Prop} {fuel : Nat} {edges : List (TypeId × TypeId)}
    (hp : ∀ e, p e → ∃ f ∈ edges, p f ∧ f.1 = e.2) {e : TypeId × TypeId} (he : e ∈ edges)
    (hpe : p e) : e ∈ core fuel edges := by
  induction fuel generalizing edges with
  | zero => exact he
  | succ fuel ih =>
    have keep : ∀ f ∈ edges, p f → f ∈ continued edges := fun f hf hpf => by
      obtain ⟨g, hg, -, hgf⟩ := hp f hpf
      exact mem_continued.2 ⟨hf, g, hg, hgf⟩
    rw [core]
    split
    · exact he
    · refine ih (fun f hpf => ?_) (keep e he hpe)
      obtain ⟨g, hg, hpg, hgf⟩ := hp f hpf
      exact ⟨g, keep g hg hpg, hpg, hgf⟩

/-- With as many rounds as edges, what is left can be followed for ever. -/
theorem core_continued {fuel : Nat} {edges : List (TypeId × TypeId)} (hfuel : edges.length ≤ fuel) :
    Continued (core fuel edges) := by
  induction fuel generalizing edges with
  | zero =>
    rw [Nat.le_zero, List.length_eq_zero_iff] at hfuel
    rw [core, hfuel]
    exact fun e he => absurd he List.not_mem_nil
  | succ fuel ih =>
    have hle : (continued edges).length ≤ edges.length := List.length_filter_le _ _
    rw [core]
    split
    · next hlen =>
      have hall : continued edges = edges := List.filter_sublist.eq_of_length hlen
      intro e he
      rw [← hall] at he
      exact (mem_continued.1 he).2
    · next hlen => exact ih (by omega)

/-- The second edge starts where the first ends. -/
def Follows (edges : List (TypeId × TypeId)) (e f : {e // e ∈ edges}) : Prop := f.1.1 = e.1.2

theorem transGen_of_follows {edges : List (TypeId × TypeId)} {e f : {e // e ∈ edges}}
    (h : Relation.TransGen (Follows edges) e f) :
    Relation.TransGen (fun a b => (a, b) ∈ edges) e.1.1 f.1.1 := by
  refine h.lift (fun e => e.1.1) fun f g hfg => ?_
  have hmem : (f.1.1, f.1.2) ∈ edges := f.2
  rwa [← show g.1.1 = f.1.2 from hfg] at hmem

/-- **Finitely many edges that can be followed for ever hold a cycle.** -/
theorem exists_cycle {edges : List (TypeId × TypeId)} (hne : edges ≠ []) (hc : Continued edges) :
    ∃ t, Relation.TransGen (fun a b => (a, b) ∈ edges) t t := by
  by_contra hacyclic
  have hirrefl : ∀ e : {e // e ∈ edges}, ¬Relation.TransGen (Follows edges) e e := by
    intro e he
    exact hacyclic ⟨e.1.1, transGen_of_follows he⟩
  -- otherwise some edge would be the last one
  have : Std.Irrefl (Function.swap (Relation.TransGen (Follows edges))) := ⟨hirrefl⟩
  have : Finite {e // e ∈ edges} := edges.finite_toSet
  have hwf := Finite.wellFounded_of_trans_of_irrefl
    (Function.swap (Relation.TransGen (Follows edges)))
  obtain ⟨e, he⟩ := List.exists_mem_of_ne_nil edges hne
  obtain ⟨last, -, hlast⟩ := hwf.has_min Set.univ ⟨⟨e, he⟩, trivial⟩
  obtain ⟨f, hf, hfl⟩ := hc last.1 last.2
  exact hlast ⟨f, hf⟩ trivial (.single hfl)

/-- An edge on a way from `t` back to `t`. -/
def OnCycle (h : Hierarchy) (t : TypeId) (e : TypeId × TypeId) : Prop :=
  Relation.ReflTransGen h.Extends t e.1 ∧ h.Extends e.1 e.2 ∧ Relation.ReflTransGen h.Extends e.2 t

theorem exists_onCycle {h : Hierarchy} {t a : TypeId} (hta : Relation.ReflTransGen h.Extends t a)
    (hat : Relation.TransGen h.Extends a t) : ∃ f ∈ h.edges, h.OnCycle t f ∧ f.1 = a := by
  obtain ⟨b, hab, hbt⟩ := Relation.TransGen.head'_iff.1 hat
  exact ⟨(a, b), hab, ⟨hta, hab, hbt⟩, rfl⟩

/-- The edges of a cycle can be followed by one another. -/
theorem OnCycle.exists_next {h : Hierarchy} {t : TypeId} (ht : Relation.TransGen h.Extends t t)
    {e : TypeId × TypeId} (he : h.OnCycle t e) : ∃ f ∈ h.edges, h.OnCycle t f ∧ f.1 = e.2 := by
  obtain ⟨hte, hstep, het⟩ := he
  rcases Relation.reflTransGen_iff_eq_or_transGen.1 het with heq | htrans
  · rw [← heq]
    exact exists_onCycle .refl ht
  · exact exists_onCycle (hte.tail hstep) htrans

/-- **A hierarchy is cyclic when some type transitively extends itself.** -/
theorem isCyclic_iff (h : Hierarchy) : h.isCyclic ↔ ∃ t, Relation.TransGen h.Extends t t := by
  have hiff : h.isCyclic ↔ core h.edges.length h.edges ≠ [] := by simp [isCyclic]
  rw [hiff]
  constructor
  · intro hne
    obtain ⟨t, ht⟩ := exists_cycle hne (core_continued (Nat.le_refl _))
    exact ⟨t, Relation.TransGen.mono (fun a b hab => core_subset _ _ hab) t t ht⟩
  · rintro ⟨t, ht⟩
    obtain ⟨f, hf, hcycle, -⟩ := exists_onCycle .refl ht
    exact List.ne_nil_of_mem (mem_core (fun e he => he.exists_next ht) hf hcycle)

/-- An edge lies on a cycle when it is a loop or its supertype has its subtype among its own
supertypes. -/
theorem reflTransGen_iff_mem_ancestors {h : Hierarchy} {a b : TypeId} :
    Relation.ReflTransGen h.Extends b a ↔ b = a ∨ a ∈ h.ancestors b := by
  rw [← mem_cons_ancestors, List.mem_cons, eq_comm]

/-- **Cycles are found alike by pruning the edges and by walking up from a type.**  A walk leaves out
the type that it starts from, so a loop is no supertype of its own and has to be asked for. -/
theorem isCyclic_iff_exists_edge (h : Hierarchy) :
    h.isCyclic ↔ ∃ e ∈ h.edges, e.2 = e.1 ∨ e.1 ∈ h.ancestors e.2 := by
  rw [isCyclic_iff]
  constructor
  · rintro ⟨t, ht⟩
    obtain ⟨u, htu, hut⟩ := Relation.TransGen.head'_iff.1 ht
    exact ⟨(t, u), htu, reflTransGen_iff_mem_ancestors.1 hut⟩
  · rintro ⟨⟨a, b⟩, hab, hback⟩
    exact ⟨a, .head' hab (reflTransGen_iff_mem_ancestors.2 hback)⟩

theorem not_transGen_self {h : Hierarchy} (hc : h.isCyclic = false) (t : TypeId) :
    ¬Relation.TransGen h.Extends t t :=
  fun ht => ne_true_of_eq_false hc (h.isCyclic_iff.2 ⟨t, ht⟩)

/-- In a hierarchy without cycles no type is both above and below another. -/
theorem eq_of_reflTransGen {h : Hierarchy} (hc : h.isCyclic = false) {a b : TypeId}
    (hab : Relation.ReflTransGen h.Extends a b) (hba : Relation.ReflTransGen h.Extends b a) :
    a = b := by
  rcases Relation.reflTransGen_iff_eq_or_transGen.1 hab with heq | htrans
  · exact heq.symm
  · exact absurd (htrans.trans_left hba) (not_transGen_self hc a)

theorem SameEdges.isCyclic {h k : Hierarchy} (e : h.SameEdges k) : h.isCyclic = k.isCyclic := by
  have hrel : h.Extends = k.Extends := by
    funext a b
    exact propext e.mem_edges_iff
  rw [Bool.eq_iff_iff, isCyclic_iff, isCyclic_iff, hrel]

end Hierarchy
end CallResolution
