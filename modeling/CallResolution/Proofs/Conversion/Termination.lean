/-
# Which searches for a conversion end

A search goes from arrays to their elements, and elements are whatever the declarations name: an
array type that is declared with an identity of its own can be its own element.  Taking arrays
off two types at a time (`peel?`), the search stops as soon as one of them is no array or both are
the same (`terminates_iff`); if neither ever happens it has no answer.

With `n` types registered, `n ^ 2 + 1` steps tell whether it does: after them the search has come
back to a pair of arrays, and goes round for ever (`forall_of_forall_le_card`).  For the same
reason a type from which arrays can be taken off for ever contains, at some depth, one that
contains itself (`SelfNested`).  Two such types never meet, so all searches end just when there
is at most one (`forall_terminates_iff`).  Plain registrations lead to none.
-/

import CallResolution.Proofs.Conversion.Relation
import CallResolution.Registry.Problems
import Mathlib.Data.Finset.Card
import Mathlib.Data.Finset.Prod
import Mathlib.Data.Set.Finite.Basic
import Mathlib.Order.Preorder.Finite

namespace CallResolution

namespace Host

variable {h : Host}

/-- An answer stays as it is with more steps. -/
theorem searchAnswer?_mono {fuel fuel' : Nat} (hle : fuel ≤ fuel') {rules : Rules} {t u : TypeId}
    {c? : Option Conversion} (hans : h.searchAnswer? fuel rules t u = some c?) :
    h.searchAnswer? fuel' rules t u = some c? := by
  induction fuel generalizing fuel' rules t u c? with
  | zero => cases hans
  | succ fuel ih =>
    obtain ⟨fuel', rfl⟩ : ∃ rest, fuel' = rest + 1 := ⟨fuel' - 1, by omega⟩
    cases hstep : h.conversionStep rules t u with
    | answer c? =>
      rw [searchAnswer?_of_answer hstep] at hans ⊢
      exact hans
    | elements x y =>
      rw [searchAnswer?_of_elements hstep] at hans ⊢
      obtain ⟨d?, hd, rfl⟩ := Option.map_eq_some_iff.1 hans
      rw [ih (Nat.le_of_succ_le_succ hle) hd, Option.map_some]

/-- The search for a conversion gives the answer, and where there is none it gives nothing. -/
theorem searchConversion_eq (fuel : Nat) (rules : Rules) (t u : TypeId) :
    h.searchConversion fuel rules t u = (h.searchAnswer? fuel rules t u).join := by
  induction fuel generalizing rules t u with
  | zero => rfl
  | succ fuel ih =>
    cases hstep : h.conversionStep rules t u with
    | answer c? =>
      rw [searchConversion_of_answer hstep, searchAnswer?_of_answer hstep, Option.join_some]
    | elements x y =>
      rw [searchConversion_of_elements hstep, searchAnswer?_of_elements hstep, ih]
      cases h.searchAnswer? fuel .strict x y <;> rfl

end Host

namespace Registry

variable {r : Registry}

/-! ## Taking arrays off -/

/-- The element type, if `t` is registered as an array. -/
def element? (r : Registry) (t : TypeId) : Option TypeId := (r.find? t).bind TypeDecl.element?

theorem element?_eq_some_iff {t e : TypeId} :
    r.element? t = some e ↔ ∃ a, r.find? t = some (.ofArray a) ∧ a.element = e := by
  rw [element?, Option.bind_eq_some_iff]
  constructor
  · rintro ⟨d, hd, he⟩
    cases d with
    | ofArray a => exact ⟨a, hd, Option.some.inj he⟩
    | ofPrimitive _ | ofClass _ | ofInterface _ => cases he
  · rintro ⟨a, ha, rfl⟩
    exact ⟨_, ha, rfl⟩

/-- What is left of `t` when `depth` arrays are taken off it, if it has so many. -/
def peel? (r : Registry) : Nat → TypeId → Option TypeId
  | 0, t => some t
  | depth + 1, t => (r.element? t).bind (r.peel? depth)

theorem peel?_add (m n : Nat) (t : TypeId) :
    r.peel? (m + n) t = (r.peel? m t).bind (r.peel? n) := by
  induction m generalizing t with
  | zero => rw [Nat.zero_add, peel?, Option.bind_some]
  | succ m ih =>
    rw [Nat.succ_add, peel?, peel?, Option.bind_assoc]
    exact Option.bind_congr fun e _ => ih e

theorem peel?_succ (n : Nat) (t : TypeId) :
    r.peel? (n + 1) t = (r.peel? n t).bind r.element? := by
  rw [peel?_add]
  exact Option.bind_congr fun e _ => Option.bind_fun_some _

/-- The same after more arrays are taken off what is the same. -/
theorem peel?_congr {m n : Nat} {t u : TypeId} (h : r.peel? m t = r.peel? n u) (k : Nat) :
    r.peel? (m + k) t = r.peel? (n + k) u := by
  rw [peel?_add, peel?_add, h]

/-- Only arrays can be taken off. -/
theorem mem_keys_of_element? {t e : TypeId} (h : r.element? t = some e) : t ∈ r.decls.keys := by
  obtain ⟨a, ha, -⟩ := element?_eq_some_iff.1 h
  exact mem_keys ha

/-! ## Searches that end -/

/-- The search for a conversion gets to an answer. -/
def Terminates (r : Registry) (rules : Rules) (t u : TypeId) : Prop :=
  ∃ fuel, (r.searchAnswer? fuel rules t u).isSome

/-- Both are left, both are arrays, and they are not the same: the search passes on to the
elements. -/
def PassesOn (r : Registry) (pair : Option TypeId × Option TypeId) : Prop :=
  (pair.1.bind r.element?).isSome ∧ (pair.2.bind r.element?).isSome ∧ pair.1 ≠ pair.2

/-- What is left of two types when as many arrays are taken off each. -/
def peelBoth (r : Registry) (t u : TypeId) (depth : Nat) : Option TypeId × Option TypeId :=
  (r.peel? depth t, r.peel? depth u)

theorem elements_of_passesOn (rules : Rules) {t u : TypeId} (h : r.PassesOn (some t, some u)) :
    ∃ x y, r.conversionStep rules t u = .elements x y := by
  obtain ⟨ht, hu, htu⟩ := h
  obtain ⟨x, hx⟩ := Option.isSome_iff_exists.1 ht
  obtain ⟨y, hy⟩ := Option.isSome_iff_exists.1 hu
  obtain ⟨a, ha, -⟩ := element?_eq_some_iff.1 hx
  obtain ⟨b, hb, -⟩ := element?_eq_some_iff.1 hy
  have hne : t ≠ u := fun h => htu (congrArg some h)
  exact ⟨a.element, b.element, conversionStep_ofArray rules hne ha hb⟩

/-- **A search has no answer yet** as long as it has passed on at each step. -/
theorem searchAnswer?_eq_none_iff {fuel : Nat} {rules : Rules} {t u : TypeId} :
    r.searchAnswer? fuel rules t u = none ↔ ∀ n < fuel, r.PassesOn (r.peelBoth t u n) := by
  induction fuel generalizing rules t u with
  | zero => exact ⟨fun _ n hn => absurd hn n.not_lt_zero, fun _ => rfl⟩
  | succ fuel ih =>
    cases hstep : r.conversionStep rules t u with
    | answer c? =>
      rw [searchAnswer?_of_answer hstep]
      refine iff_of_false (Option.some_ne_none c?) fun h => ?_
      obtain ⟨x, y, hxy⟩ := elements_of_passesOn rules (h 0 (Nat.succ_pos fuel))
      rw [hstep] at hxy
      cases hxy
    | elements x y =>
      rw [searchAnswer?_of_elements hstep]
      obtain ⟨htu, a, b, ha, hb, rfl, rfl⟩ := arrays_of_elements hstep
      have hx : r.element? t = some a.element := element?_eq_some_iff.2 ⟨a, ha, rfl⟩
      have hy : r.element? u = some b.element := element?_eq_some_iff.2 ⟨b, hb, rfl⟩
      have hfirst : r.PassesOn (r.peelBoth t u 0) := by
        simp [PassesOn, peelBoth, peel?, hx, hy, htu]
      have hnext : ∀ n, r.peelBoth t u (n + 1) = r.peelBoth a.element b.element n := by
        intro n
        rw [peelBoth, peel?, peel?, hx, hy]
        rfl
      rw [Option.map_eq_none_iff, ih, Nat.forall_lt_succ_left]
      simp only [hfirst, true_and, hnext]

theorem not_terminates_iff {rules : Rules} {t u : TypeId} :
    ¬r.Terminates rules t u ↔ ∀ n, r.PassesOn (r.peelBoth t u n) := by
  simp only [Terminates, not_exists, Option.not_isSome_iff_eq_none, searchAnswer?_eq_none_iff]
  exact ⟨fun h n => h (n + 1) n (Nat.lt_succ_self n), fun h _ n _ => h n⟩

/-- **When a search ends**: when no array is left to take off one of the types, or both have become
the same. -/
theorem terminates_iff {rules : Rules} {t u : TypeId} : r.Terminates rules t u ↔
    ∃ n, r.peel? n t = none ∨ r.peel? n u = none ∨ r.peel? n t = r.peel? n u := by
  rw [← not_iff_not, not_terminates_iff, not_exists]
  simp only [not_or]
  constructor
  · intro h n
    obtain ⟨ht, hu, htu⟩ := h n
    refine ⟨fun hnone => ?_, fun hnone => ?_, htu⟩
    · simp [peelBoth, hnone] at ht
    · simp [peelBoth, hnone] at hu
  · intro h n
    rw [PassesOn, peelBoth, ← peel?_succ, ← peel?_succ, Option.isSome_iff_ne_none,
      Option.isSome_iff_ne_none]
    exact ⟨(h (n + 1)).1, (h (n + 1)).2.1, (h n).2.2⟩

/-! ## Coming back to the same pair -/

/-- A sequence in which each term determines the next, and of which so many terms at the beginning
have a property that one of them must come again, has the property throughout. -/
theorem forall_of_forall_le_card {α : Type} [DecidableEq α] {s : Nat → α} {p : α → Prop}
    {f : Finset α} (hstep : ∀ i j, s i = s j → s (i + 1) = s (j + 1)) (hf : ∀ a, p a → a ∈ f)
    (h : ∀ n ≤ f.card, p (s n)) (n : Nat) : p (s n) := by
  have hcard : f.card < (Finset.range (f.card + 1)).card := by simp
  obtain ⟨i, hi, j, hj, hne, hij⟩ :=
    Finset.exists_ne_map_eq_of_card_lt_of_maps_to hcard fun n hn =>
      hf _ (h n (Nat.lt_succ_iff.1 (Finset.mem_range.1 hn)))
  wlog hlt : i < j generalizing i j
  · exact this j hj i hi hne.symm hij.symm (by omega)
  have hreturn : ∀ k, s (i + k) = s (j + k) := by
    intro k
    induction k with
    | zero => exact hij
    | succ k ih => exact hstep _ _ ih
  rw [Finset.mem_range] at hj
  induction n using Nat.strong_induction_on with
  | _ n ih =>
    by_cases hn : n ≤ f.card
    · exact h n hn
    · -- go round once less
      obtain ⟨k, rfl⟩ : ∃ k, n = j + k := ⟨n - j, by omega⟩
      rw [← hreturn]
      exact ih (i + k) (by omega)

/-- The pairs of registered types. -/
def registeredPairs (r : Registry) : Finset (Option TypeId × Option TypeId) :=
  (r.decls.keys.toFinset ×ˢ r.decls.keys.toFinset).image fun p => (some p.1, some p.2)

theorem card_registeredPairs_le (r : Registry) : r.registeredPairs.card ≤ r.size * r.size := by
  have hkeys : r.decls.keys.toFinset.card ≤ r.size := by
    rw [Registry.size, ← Std.TreeMap.length_keys]
    exact List.toFinset_card_le _
  calc r.registeredPairs.card
      ≤ (r.decls.keys.toFinset ×ˢ r.decls.keys.toFinset).card := Finset.card_image_le
    _ = r.decls.keys.toFinset.card * r.decls.keys.toFinset.card := Finset.card_product _ _
    _ ≤ r.size * r.size := Nat.mul_le_mul hkeys hkeys

theorem mem_registeredPairs_of_passesOn {pair : Option TypeId × Option TypeId}
    (h : r.PassesOn pair) : pair ∈ r.registeredPairs := by
  obtain ⟨x, y⟩ := pair
  obtain ⟨hx, hy, -⟩ := h
  obtain ⟨e, he⟩ := Option.isSome_iff_exists.1 hx
  obtain ⟨e', he'⟩ := Option.isSome_iff_exists.1 hy
  obtain ⟨t, rfl, ht⟩ := Option.bind_eq_some_iff.1 he
  obtain ⟨u, rfl, hu⟩ := Option.bind_eq_some_iff.1 he'
  refine Finset.mem_image.2 ⟨(t, u), ?_, rfl⟩
  exact Finset.mem_product.2 ⟨List.mem_toFinset.2 (mem_keys_of_element? ht),
    List.mem_toFinset.2 (mem_keys_of_element? hu)⟩

/-- **The bound of the search is large enough**: a search that has no answer then has none ever. -/
theorem searchEnds_iff {rules : Rules} {t u : TypeId} :
    r.searchEnds rules t u ↔ r.Terminates rules t u := by
  refine ⟨fun h => ⟨_, h⟩, fun h => ?_⟩
  by_contra hnot
  rw [searchEnds, Option.not_isSome_iff_eq_none, searchAnswer?_eq_none_iff] at hnot
  refine not_terminates_iff.2 (fun n => ?_) h
  have hbound := r.card_registeredPairs_le
  refine forall_of_forall_le_card (fun i j hij => ?_) (fun _ => mem_registeredPairs_of_passesOn)
    (fun n hn => hnot n (by rw [searchBound]; omega)) n
  obtain ⟨ht, hu⟩ := Prod.mk.inj hij
  rw [peelBoth, peelBoth, peel?_congr ht, peel?_congr hu]

/-- The answer of a search is what the bounded search finds. -/
theorem conversion?_eq_of_searchAnswer? {fuel : Nat} {rules : Rules} {t u : TypeId}
    {c? : Option Conversion} (h : r.searchAnswer? fuel rules t u = some c?) :
    r.conversion? rules (.ofType t) u = c? := by
  obtain ⟨d?, hd⟩ := Option.isSome_iff_exists.1
    (searchEnds_iff.2 ⟨fuel, Option.isSome_iff_exists.2 ⟨c?, h⟩⟩)
  have hmax := Host.searchAnswer?_mono (Nat.le_max_left fuel r.searchBound) h
  rw [Host.searchAnswer?_mono (Nat.le_max_right fuel r.searchBound) hd] at hmax
  have hsearch : r.conversion? rules (.ofType t) u =
      (r.searchAnswer? r.searchBound rules t u).join := Host.searchConversion_eq _ _ _ _
  rw [hsearch, hd, Option.join_some]
  exact Option.some.inj hmax

/-! ## Types that contain themselves -/

/-- `t` is what is left of `t` when some arrays are taken off it. -/
def SelfNested (r : Registry) (t : TypeId) : Prop := ∃ n, r.peel? (n + 1) t = some t

/-- What is inside a type that contains itself contains itself. -/
theorem SelfNested.of_peel? {t u : TypeId} (h : r.SelfNested t) {k : Nat}
    (hu : r.peel? k t = some u) : r.SelfNested u := by
  obtain ⟨n, hn⟩ := h
  refine ⟨n, ?_⟩
  have hround : r.peel? (k + (n + 1)) t = some u := by
    rw [Nat.add_comm, peel?_add, hn, Option.bind_some, hu]
  rwa [peel?_add, hu, Option.bind_some] at hround

theorem peel?_mul_of_eq_self {t : TypeId} {n : Nat} (h : r.peel? n t = some t) (k : Nat) :
    r.peel? (n * k) t = some t := by
  induction k with
  | zero => rfl
  | succ k ih => rw [Nat.mul_succ, peel?_add, ih, Option.bind_some, h]

/-- Types that contain themselves come back together, as late as wanted. -/
theorem SelfNested.exists_return {t u : TypeId} (ht : r.SelfNested t) (hu : r.SelfNested u)
    (k : Nat) : ∃ n, r.peel? (k + n) t = some t ∧ r.peel? (k + n) u = some u := by
  obtain ⟨m, hm⟩ := ht
  obtain ⟨n, hn⟩ := hu
  have hge : k ≤ (m + 1) * ((n + 1) * k) := by
    rw [← Nat.mul_assoc]
    exact Nat.le_mul_of_pos_left k (Nat.mul_pos (Nat.succ_pos m) (Nat.succ_pos n))
  refine ⟨(m + 1) * ((n + 1) * k) - k, ?_⟩
  rw [Nat.add_sub_cancel' hge]
  refine ⟨peel?_mul_of_eq_self hm _, ?_⟩
  rw [Nat.mul_left_comm]
  exact peel?_mul_of_eq_self hn _

/-- Arrays can be taken off a type that contains itself for ever. -/
theorem SelfNested.peel?_ne_none {t : TypeId} (h : r.SelfNested t) (k : Nat) :
    r.peel? k t ≠ none := by
  obtain ⟨n, hn, -⟩ := h.exists_return h k
  intro hnone
  rw [peel?_add, hnone] at hn
  cases hn

/-- **Inside a type from which arrays can be taken off for ever is one that contains itself.** -/
theorem exists_selfNested {t : TypeId} (h : ∀ n, r.peel? n t ≠ none) :
    ∃ k u, r.peel? k t = some u ∧ r.SelfNested u := by
  have hmem : ∀ n, r.peel? n t ∈ some '' {u | u ∈ r.decls.keys} := by
    intro n
    obtain ⟨e, he⟩ := Option.ne_none_iff_exists'.1 (h (n + 1))
    rw [peel?_succ] at he
    obtain ⟨u, hu, hue⟩ := Option.bind_eq_some_iff.1 he
    exact ⟨u, mem_keys_of_element? hue, hu.symm⟩
  obtain ⟨i, j, hlt, hij⟩ :=
    Set.Finite.exists_lt_map_eq_of_forall_mem hmem ((List.finite_toSet _).image _)
  obtain ⟨u, hu⟩ := Option.ne_none_iff_exists'.1 (h i)
  refine ⟨i, u, hu, j - i - 1, ?_⟩
  have hj : j = i + (j - i - 1 + 1) := by omega
  rw [hj, peel?_add, hu, Option.bind_some] at hij
  exact hij.symm

/-- A search between two types that contain themselves ends only if they are the same. -/
theorem SelfNested.eq_of_terminates {rules : Rules} {t u : TypeId} (ht : r.SelfNested t)
    (hu : r.SelfNested u) (h : r.Terminates rules t u) : t = u := by
  obtain ⟨k, hk⟩ := terminates_iff.1 h
  have hsame := (hk.resolve_left (ht.peel?_ne_none k)).resolve_left (hu.peel?_ne_none k)
  obtain ⟨n, hnt, hnu⟩ := ht.exists_return hu k
  rw [peel?_congr hsame, hnu] at hnt
  exact (Option.some.inj hnt).symm

/-- **When all searches end**: when no two types contain themselves. -/
theorem forall_terminates_iff : (∀ rules t u, r.Terminates rules t u) ↔
    ∀ t u, r.SelfNested t → r.SelfNested u → t = u := by
  constructor
  · intro h t u ht hu
    exact ht.eq_of_terminates hu (h .strict t u)
  · intro h rules t u
    by_contra hnot
    rw [terminates_iff] at hnot
    simp only [not_exists, not_or] at hnot
    obtain ⟨i, v, hv, hvself⟩ := exists_selfNested fun n => (hnot n).1
    obtain ⟨j, w, hw, hwself⟩ := exists_selfNested fun n => (hnot n).2.1
    -- from the later of the two depths on, both types have come to types that contain themselves
    obtain ⟨v', hv'⟩ := Option.ne_none_iff_exists'.1 (hnot (i + j)).1
    obtain ⟨w', hw'⟩ := Option.ne_none_iff_exists'.1 (hnot (i + j)).2.1
    have hv'self : r.SelfNested v' := by
      rw [peel?_add, hv, Option.bind_some] at hv'
      exact hvself.of_peel? hv'
    have hw'self : r.SelfNested w' := by
      rw [Nat.add_comm, peel?_add, hw, Option.bind_some] at hw'
      exact hwself.of_peel? hw'
    exact (hnot (i + j)).2.2 (by rw [hv', hw', h v' w' hv'self hw'self])

/-! ## Plain registrations -/

theorem Nested.peel?_eq_none {base t : TypeId} {depth : Nat} (h : r.Nested base t depth) :
    r.peel? (depth + 1) t = none := by
  induction h with
  | @base d h hd =>
    rw [peel?, element?, h, Option.bind_some]
    cases d with
    | ofArray a => cases hd
    | ofPrimitive _ | ofClass _ | ofInterface _ => rfl
  | @array t a depth h _ ih =>
    rw [peel?, element?_eq_some_iff.2 ⟨a, h, rfl⟩, Option.bind_some, ih]

/-- In a registry that plain registrations lead to, no type contains itself. -/
theorem Regular.not_selfNested (hr : r.Regular) (t : TypeId) : ¬r.SelfNested t := by
  intro h
  obtain ⟨e, he⟩ := Option.ne_none_iff_exists'.1 (h.peel?_ne_none 1)
  obtain ⟨e', ht, -⟩ := Option.bind_eq_some_iff.1 he
  obtain ⟨a, ha, -⟩ := element?_eq_some_iff.1 ht
  obtain ⟨base, depth, hn, -⟩ := hr.exists_nested ha
  exact h.peel?_ne_none _ hn.peel?_eq_none

/-- **Which searches for a conversion end.**  In any registry, the search for a conversion between
two types ends just when no array is left to take off one of them, or both have become the same, and
what it answers is what is found with as many steps as the bound allows.  All searches end just when
no two types contain themselves, so all do in a registry that plain registrations lead to. -/
theorem searches_end_iff (r : Registry) :
    (∀ rules t u, r.Terminates rules t u ↔
      ∃ n, r.peel? n t = none ∨ r.peel? n u = none ∨ r.peel? n t = r.peel? n u) ∧
    (∀ rules t u, r.searchEnds rules t u ↔ r.Terminates rules t u) ∧
    (∀ fuel rules t u c?, r.searchAnswer? fuel rules t u = some c? →
      r.conversion? rules (.ofType t) u = c?) ∧
    ((∀ rules t u, r.Terminates rules t u) ↔
      ∀ t u, r.SelfNested t → r.SelfNested u → t = u) ∧
    (r.Regular → ∀ rules t u, r.Terminates rules t u) := by
  refine ⟨fun _ _ _ => terminates_iff, fun _ _ _ => searchEnds_iff,
    fun _ _ _ _ _ => conversion?_eq_of_searchAnswer?, forall_terminates_iff, fun hr => ?_⟩
  exact forall_terminates_iff.2 fun t _ ht => absurd ht (hr.not_selfNested t)

/-- Two array types, each declared as its own element. -/
def endless : Registry :=
  let left := TypeId.ofName "Left[]"
  let right := TypeId.ofName "Right[]"
  (primitives.applyAll [
    .decl (.ofArray ⟨"Left[]", left, left⟩), .decl (.ofArray ⟨"Right[]", right, right⟩)]).2

theorem selfNested_left : endless.SelfNested (.ofName "Left[]") := ⟨0, by decide +kernel⟩

theorem selfNested_right : endless.SelfNested (.ofName "Right[]") := ⟨0, by decide +kernel⟩

/-- All searches in the sample end, among them those between arrays.  Not all searches among endless
arrays do. -/
theorem searches_end_sample : sample.Regular ∧
    (∀ rules, sample.Terminates rules (TypeId.ofName "Cat").arrayOf
      (TypeId.ofName "Animal").arrayOf) ∧
    ¬∀ rules t u, endless.Terminates rules t u := by
  obtain ⟨-, -, -, -, hplain⟩ := searches_end_iff sample
  obtain ⟨-, -, -, hall, -⟩ := searches_end_iff endless
  refine ⟨regular_sample, fun rules => hplain regular_sample rules _ _, fun h => ?_⟩
  exact absurd (hall.1 h _ _ selfNested_left selfNested_right) (by decide +kernel)

/-- **A search can go on for ever in a registry without problems.**  Neither the registration of the
two arrays nor the search for problems looks at what their elements are. -/
theorem not_terminates_endless : endless.Reachable ∧ endless.problems = [] ∧
    ∀ rules, ¬endless.Terminates rules (.ofName "Left[]") (.ofName "Right[]") := by
  refine ⟨regular_primitives.reachable.applyAll fun _ _ => trivial, by decide +kernel, ?_⟩
  intro rules h
  exact absurd (selfNested_left.eq_of_terminates selfNested_right h) (by decide +kernel)

end Registry
end CallResolution
