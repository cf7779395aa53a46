/-
# The running set of candidates

`Selection.front` reads the candidates once and keeps a set of them.  Two facts carry
through each step: the set is part of the candidates in their order (`front_sublist`),
and each candidate is matched by a member of it (`covers_front`), even after one candidate
has taken the place of all.  For a relation that is reflexive and transitive
the set is therefore a single candidate just when one matches all of them (`least`), and
then it is the last such one (`front_eq_singleton`, `front_ne_singleton`).
-/

import CallResolution.Selection
import Mathlib.Data.List.Induction

namespace CallResolution
namespace Selection

variable {α : Type} {better : α → α → Bool}

variable (better) in
/-- What one more candidate does to the set: it takes the place of all, it is dropped for a member
that matches it, or it joins. -/
theorem consider_cases (front : List α) (c : α) :
    ((∀ m ∈ front, better c m) ∧ consider better front c = [c]) ∨
      (∃ m ∈ front, better c m = false ∧ better m c ∧ consider better front c = front) ∨
      (∃ m ∈ front, better c m = false ∧ better m c = false ∧
        consider better front c = front ++ [c]) := by
  rw [consider]
  split
  · next hnone =>
    refine .inl ⟨fun m hm => ?_, rfl⟩
    simpa using List.find?_eq_none.1 hnone m hm
  · next m hsome =>
    have hm := List.mem_of_find?_eq_some hsome
    have hcm : better c m = false := by simpa using List.find?_some hsome
    split
    · next hmc => exact .inr (.inl ⟨m, hm, hcm, hmc, rfl⟩)
    · next hmc => exact .inr (.inr ⟨m, hm, hcm, by simpa using hmc, rfl⟩)

theorem front_append_singleton (xs : List α) (c : α) :
    front better (xs ++ [c]) = consider better (front better xs) c := by
  simp [front]

/-- The set is part of the candidates, in their order. -/
theorem front_sublist (xs : List α) : (front better xs).Sublist xs := by
  induction xs using List.reverseRecOn with
  | nil => exact .slnil
  | append_singleton xs c ih =>
    rw [front_append_singleton]
    rcases consider_cases better (front better xs) c with
      ⟨-, h⟩ | ⟨m, -, -, -, h⟩ | ⟨m, -, -, -, h⟩ <;> rw [h]
    · exact List.sublist_append_right xs [c]
    · exact ih.trans (List.sublist_append_left xs [c])
    · exact ih.append (List.Sublist.refl [c])

variable (hrefl : ∀ x, better x x) (htrans : ∀ x y z, better x y → better y z → better x z)

variable (better) in
/-- Each of `xs` is matched by a member of `front`. -/
def Covers (front xs : List α) : Prop := ∀ x ∈ xs, ∃ m ∈ front, better m x

include hrefl htrans in
/-- **One more candidate leaves all covered**: what a new member takes the place of, it matches, and
so it matches what that matched. -/
theorem covers_consider {front xs : List α} (h : Covers better front xs) (c : α) :
    Covers better (consider better front c) (xs ++ [c]) := by
  intro x hx
  rcases consider_cases better front c with
    ⟨hall, hc⟩ | ⟨m, hm, -, hmc, hc⟩ | ⟨m, -, -, -, hc⟩ <;> rw [hc]
  · refine ⟨c, List.mem_singleton_self c, ?_⟩
    rcases List.mem_append.1 hx with hx | hx
    · obtain ⟨m, hm, hmx⟩ := h x hx
      exact htrans c m x (hall m hm) hmx
    · exact List.mem_singleton.1 hx ▸ hrefl c
  · rcases List.mem_append.1 hx with hx | hx
    · exact h x hx
    · exact ⟨m, hm, List.mem_singleton.1 hx ▸ hmc⟩
  · rcases List.mem_append.1 hx with hx | hx
    · obtain ⟨m, hm, hmx⟩ := h x hx
      exact ⟨m, List.mem_append_left _ hm, hmx⟩
    · exact ⟨c, List.mem_append_right _ (List.mem_singleton_self c),
        List.mem_singleton.1 hx ▸ hrefl c⟩

include hrefl htrans in
theorem covers_front (xs : List α) : Covers better (front better xs) xs := by
  induction xs using List.reverseRecOn with
  | nil => exact fun _ h => nomatch h
  | append_singleton xs c ih =>
    rw [front_append_singleton]
    exact covers_consider hrefl htrans ih c

include hrefl htrans in
/-- **Each candidate is matched by a member of the set.** -/
theorem exists_better_front {xs : List α} {x : α} (hx : x ∈ xs) :
    ∃ m ∈ front better xs, better m x :=
  covers_front hrefl htrans xs x hx

/-! ## When the set is a single candidate -/

variable (better) in
/-- The candidates that match all of them. -/
def least (xs : List α) : List α := xs.filter fun m => xs.all (better m)

theorem mem_least {xs : List α} {m : α} :
    m ∈ least better xs ↔ m ∈ xs ∧ ∀ x ∈ xs, better m x := by
  simp [least]

/-- With one more candidate, those remain that match it too, and it may be one itself. -/
theorem least_append_singleton (xs : List α) (c : α) :
    least better (xs ++ [c]) = (least better xs).filter (better · c) ++
      if (xs ++ [c]).all (better c) then [c] else [] := by
  rw [least, List.filter_append, least, List.filter_filter]
  congr 1
  · refine List.filter_congr fun m _ => ?_
    rw [List.all_append, List.all_cons, List.all_nil, Bool.and_true, Bool.and_comm]
  · rw [List.filter_cons, List.filter_nil]

include hrefl htrans in
/-- **If some candidates match all, the set is the last of them.** -/
theorem front_eq_singleton {xs : List α} {b : α} (hb : (least better xs).getLast? = some b) :
    front better xs = [b] := by
  induction xs using List.reverseRecOn with
  | nil => simp [least] at hb
  | append_singleton xs c ih =>
    rw [front_append_singleton]
    have hfront : ∀ m ∈ front better xs, m ∈ xs := fun m => (front_sublist xs).mem
    rw [least_append_singleton] at hb
    split at hb
    · next hc =>
      -- the new candidate matches all and is the last one
      rw [List.getLast?_concat] at hb
      obtain rfl := Option.some.inj hb
      rw [List.all_eq_true] at hc
      rcases consider_cases better (front better xs) c with
        ⟨-, h⟩ | ⟨m, hm, hcm, -⟩ | ⟨m, hm, hcm, -⟩
      · exact h
      · rw [hc m (List.mem_append_left _ (hfront m hm))] at hcm
        cases hcm
      · rw [hc m (List.mem_append_left _ (hfront m hm))] at hcm
        cases hcm
    · next hc =>
      rw [List.append_nil] at hb
      have hmem := List.mem_filter.1 (List.mem_of_getLast? hb)
      have hbxs := (mem_least.1 hmem.1).2
      -- whatever matched all so far also matches the new candidate
      have hsame : (least better xs).filter (better · c) = least better xs := by
        refine List.filter_eq_self.2 fun m hm => ?_
        exact htrans m b c ((mem_least.1 hm).2 b (mem_least.1 hmem.1).1) hmem.2
      rw [hsame] at hb
      have hcb : better c b = false := by
        by_contra hne
        refine hc (List.all_eq_true.2 fun x hx => ?_)
        rcases List.mem_append.1 hx with hx | hx
        · exact htrans c b x (by simpa using hne) (hbxs x hx)
        · exact List.mem_singleton.1 hx ▸ hrefl c
      rw [ih hb]
      rcases consider_cases better [b] c with
        ⟨hall, -⟩ | ⟨m, -, -, -, h⟩ | ⟨m, hm, -, hmc, -⟩
      · rw [hall b (List.mem_singleton_self b)] at hcb
        cases hcb
      · exact h
      · rw [List.mem_singleton.1 hm, hmem.2] at hmc
        cases hmc

include hrefl htrans in
/-- **If no candidate matches all, the set is not a single one.** -/
theorem front_ne_singleton {xs : List α} (hnone : least better xs = []) (b : α) :
    front better xs ≠ [b] := by
  intro h
  have hb : b ∈ front better xs := h ▸ List.mem_singleton_self b
  refine List.not_mem_nil (hnone ▸ mem_least.2 ⟨(front_sublist xs).mem hb, fun x hx => ?_⟩)
  obtain ⟨m, hm, hmx⟩ := exists_better_front hrefl htrans hx
  rw [h, List.mem_singleton] at hm
  exact hm ▸ hmx

end Selection
end CallResolution
