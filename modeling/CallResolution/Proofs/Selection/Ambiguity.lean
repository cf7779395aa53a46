/-
# What an ambiguous call names

Each candidate is returned, or another one that is as specific (`front_covers`).  So a candidate
that no other is as specific as is always among those returned (`mem_front_of_unbeaten`), and
every returned one but the first is incomparable with one returned before it
(`exists_incomparable`).  No ambiguity is made up, then, and where two candidates are named they
are incomparable.  Of three this need not be true: the running set compares a candidate only up
to the first member that the candidate does not match, and drops no member unless all are
dropped, so that a member may stay beside one that beats it (`ambiguous_beaten`).  What is
returned is incomparable throughout just when it is the list of the unbeaten candidates
(`pairwise_front_iff`).
-/

import CallResolution.Proofs.Selection.Outcome
import Mathlib.Data.List.Perm.Subperm

namespace CallResolution
namespace Selection

variable {α : Type} {better : α → α → Bool}

variable (better) in
/-- Neither of the candidates matches the other. -/
def Incomparable (a b : α) : Prop := ¬better a b ∧ ¬better b a

instance (a b : α) : Decidable (Incomparable better a b) := inferInstanceAs (Decidable (_ ∧ _))

instance : Std.Symm (Incomparable better) := ⟨fun _ _ h => ⟨h.2, h.1⟩⟩

/-- **Every member of the set but the first is incomparable with an earlier one**: with the one for
which it was let in. -/
theorem exists_incomparable {xs before after : List α} {c : α}
    (h : front better xs = before ++ c :: after) (hbefore : before ≠ []) :
    ∃ m ∈ before, Incomparable better c m := by
  induction xs using List.reverseRecOn generalizing after with
  | nil => simp [front] at h
  | append_singleton xs d ih =>
    rw [front_append_singleton] at h
    rcases consider_cases better (front better xs) d with
      ⟨-, hd⟩ | ⟨m, -, -, -, hd⟩ | ⟨m, hm, hdm, hmd, hd⟩ <;> rw [hd] at h
    · -- the set is the new candidate alone, so nothing is before `c`
      cases before with
      | nil => exact absurd rfl hbefore
      | cons b bs => simp at h
    · exact ih h
    · rcases List.eq_nil_or_concat after with rfl | ⟨after, e, rfl⟩
      · obtain ⟨rfl, hc⟩ := List.append_inj' h rfl
        obtain rfl := List.head_eq_of_cons_eq hc
        exact ⟨m, hm, ne_true_of_eq_false hdm, ne_true_of_eq_false hmd⟩
      · rw [List.concat_eq_append, ← List.cons_append, ← List.append_assoc] at h
        exact ih (List.append_inj' h rfl).1

/-- A set of at most two is incomparable throughout. -/
theorem pairwise_front_of_length_le_two {xs : List α} (h : (front better xs).length ≤ 2) :
    (front better xs).Pairwise (Incomparable better) := by
  match hfront : front better xs with
  | [] => exact .nil
  | [a] => exact List.pairwise_singleton _ a
  | [a, b] =>
    obtain ⟨m, hm, hbm⟩ :=
      exists_incomparable (hfront : _ = [a] ++ b :: []) (List.cons_ne_nil a [])
    obtain rfl := List.mem_singleton.1 hm
    exact List.pairwise_pair.2 (symm hbm)
  | a :: b :: c :: rest =>
    rw [hfront] at h
    simp at h

variable [DecidableEq α]

variable (better) in
/-- The candidates that no other one matches. -/
def unbeaten (xs : List α) : List α := xs.filter fun x => xs.all fun y => !better y x || y = x

theorem mem_unbeaten {xs : List α} {x : α} :
    x ∈ unbeaten better xs ↔ x ∈ xs ∧ ∀ y ∈ xs, better y x → y = x := by
  rw [unbeaten, List.mem_filter, List.all_eq_true]
  refine and_congr_right fun _ => forall₂_congr fun y _ => ?_
  cases better y x <;> simp

variable (hrefl : ∀ x, better x x) (htrans : ∀ x y z, better x y → better y z → better x z)

include hrefl htrans in
/-- **No unbeaten candidate is dropped.** -/
theorem mem_front_of_unbeaten {xs : List α} {x : α} (hx : x ∈ unbeaten better xs) :
    x ∈ front better xs := by
  obtain ⟨hmem, hunbeaten⟩ := mem_unbeaten.1 hx
  obtain ⟨m, hm, hmx⟩ := exists_better_front hrefl htrans hmem
  exact hunbeaten m ((front_sublist xs).mem hm) hmx ▸ hm

include hrefl htrans in
/-- **The set is incomparable throughout just when it is the unbeaten candidates**, for candidates
that the relation orders. -/
theorem pairwise_front_iff {xs : List α} (hnodup : xs.Nodup)
    (hantisymm : ∀ x ∈ xs, ∀ y ∈ xs, better x y → better y x → x = y) :
    (front better xs).Pairwise (Incomparable better) ↔ front better xs = unbeaten better xs := by
  constructor
  · intro hpair
    have hsub : ∀ m ∈ front better xs, m ∈ unbeaten better xs := by
      intro m hm
      have hmxs := (front_sublist xs).mem hm
      refine mem_unbeaten.2 ⟨hmxs, fun y hy hym => ?_⟩
      -- some member matches `y` and therefore `m`, so it is `m`, which then matches `y`
      obtain ⟨n, hn, hny⟩ := exists_better_front hrefl htrans hy
      have hnm : n = m := by
        by_contra hne
        exact (hpair.forall hn hm hne).1 (htrans n y m hny hym)
      exact hantisymm y hy m hmxs hym (hnm ▸ hny)
    have hperm : (front better xs).Perm (unbeaten better xs) :=
      (List.perm_ext_iff_of_nodup (hnodup.sublist (front_sublist xs)) (hnodup.filter _)).2 fun m =>
        ⟨hsub m, mem_front_of_unbeaten hrefl htrans⟩
    exact (hnodup.perm_iff_eq_of_sublist (front_sublist xs) List.filter_sublist).1 hperm
  · intro hfront
    have hne : (front better xs).Pairwise (· ≠ ·) := hnodup.sublist (front_sublist xs)
    refine hne.imp_of_mem fun {a b} ha hb hab => ?_
    have hbeaten : ∀ m ∈ front better xs, ∀ n ∈ front better xs, better n m → n = m := by
      intro m hm n hn
      exact (mem_unbeaten.1 (hfront ▸ hm)).2 n ((front_sublist xs).mem hn)
    exact ⟨fun h => hab (hbeaten b hb a ha h), fun h => hab (hbeaten a ha b hb h).symm⟩

end Selection

namespace Registry

variable {r : Registry}

/-- Neither of the overloads is as specific as the other. -/
def Incomparable (r : Registry) (rules : Rules) (o o' : Overload) : Prop :=
  Selection.Incomparable (r.isAsSpecific rules) o o'

instance (r : Registry) (rules : Rules) (o o' : Overload) : Decidable (r.Incomparable rules o o') :=
  inferInstanceAs (Decidable (Selection.Incomparable _ o o'))

/-- The overloads that no other of them is as specific as. -/
def unbeaten (r : Registry) (rules : Rules) (os : List Overload) : List Overload :=
  Selection.unbeaten (r.isAsSpecific rules) os

/-- The method "meet" of a class "Vet" for patients of the given type. -/
def meeting (patient : TypeId) : Overload :=
  .ofMember (.method (.ofName "Vet") "meet" [patient])

/-- **No candidate is dropped without a better one that stays.**  In a registry that plain
registrations lead to, of any candidates at all some are returned, in their order, and each candidate
is returned or another one is that is as specific as it.  The same is true of what the running set
held at any time: even when it has been replaced as a whole, each of its members is matched by one
that is returned in the end. -/
theorem Regular.front_covers (hr : r.Regular) (rules : Rules) {os : List Overload} (hos : os ≠ []) :
    r.front rules os ≠ [] ∧ (r.front rules os).Sublist os ∧
      (∀ o ∈ os, o ∈ r.front rules os ∨
        ∃ m ∈ r.front rules os, m ≠ o ∧ r.isAsSpecific rules m o) ∧
      ∀ before after, os = before ++ after → ∀ o ∈ r.front rules before,
        ∃ m ∈ r.front rules os, r.isAsSpecific rules m o := by
  have hcovers : Selection.Covers (r.isAsSpecific rules) (r.front rules os) os :=
    Selection.covers_front (hr.isAsSpecific_refl rules) (fun _ _ _ => hr.isAsSpecific_trans) os
  refine ⟨?_, Selection.front_sublist os, fun o ho => ?_, ?_⟩
  · obtain ⟨o, ho⟩ := List.exists_mem_of_ne_nil os hos
    obtain ⟨m, hm, -⟩ := hcovers o ho
    exact List.ne_nil_of_mem hm
  · obtain ⟨m, hm, hmo⟩ := hcovers o ho
    by_cases hsame : m = o
    · exact .inl (hsame ▸ hm)
    · exact .inr ⟨m, hm, hsame, hmo⟩
  · rintro before after rfl o ho
    exact hcovers o (List.mem_append_left after ((Selection.front_sublist before).mem ho))

/-- The method for cats takes the place of those for named beings and for animals, and is as
specific as both. -/
theorem front_covers_meeting :
    let named := meeting (.ofName "Named")
    let animal := meeting (.ofName "Animal")
    let cat := meeting (.ofName "Cat")
    sample.front .strict [named, animal] = [named, animal] ∧
      sample.front .strict [named, animal, cat] = [cat] ∧
      sample.isAsSpecific .strict cat named ∧ sample.isAsSpecific .strict cat animal := by
  intro named animal cat
  have hfirst : sample.front .strict [named, animal] = [named, animal] := by decide +kernel
  have hall : sample.front .strict [named, animal, cat] = [cat] := by decide +kernel
  obtain ⟨-, -, -, hkept⟩ :=
    regular_sample.front_covers .strict (List.cons_ne_nil named [animal, cat])
  have hbetter : ∀ o ∈ [named, animal], sample.isAsSpecific .strict cat o := by
    intro o ho
    obtain ⟨m, hm, hmo⟩ := hkept [named, animal] [cat] rfl o (hfirst ▸ ho)
    rw [hall] at hm
    exact List.mem_singleton.1 hm ▸ hmo
  exact ⟨hfirst, hall, hbetter named (by simp), hbetter animal (by simp)⟩

theorem Regular.converts_antisymm (hr : r.Regular) (hok : r.problems = []) {rules : Rules}
    {t u : TypeId} (htu : r.converts rules (.ofType t) u) (hut : r.converts rules (.ofType u) t) :
    t = u := by
  obtain ⟨c, hc⟩ := hr.converts_ofType_iff.1 htu
  obtain ⟨d, hd⟩ := hr.converts_ofType_iff.1 hut
  exact hc.antisymm hr (problems_eq_nil_iff.1 hok).2 hd

/-- Overloads that are as specific as each other have the same parameters. -/
theorem Regular.params_eq_of_isAsSpecific (hr : r.Regular) (hok : r.problems = []) {rules : Rules}
    {o o' : Overload} (h : r.isAsSpecific rules o o') (h' : r.isAsSpecific rules o' o) :
    o.params = o'.params := by
  rw [isAsSpecific, Overload.isAsSpecific, acceptsAll_iff, Overload.asArgs,
    List.forall₂_map_right_iff] at h h'
  have heq : List.Forall₂ (· = ·) o.params o'.params :=
    List.Forall₂.mp (fun t u htu hut => hr.converts_antisymm hok htu hut) h.flip h'
  rwa [List.forall₂_eq_eq_eq] at heq

/-- **When the candidates of an ambiguity are incomparable.**  In a registry that plain
registrations lead to and that has no problems, for candidates of which no two have the same
parameters: what is returned is incomparable throughout just when it is the list of the candidates
that no other is as specific as.  That is so whenever no more than two are returned, and in any
case every one returned after the first is incomparable with an earlier one. -/
theorem Regular.pairwise_incomparable_iff (hr : r.Regular) (hok : r.problems = []) (rules : Rules)
    {os : List Overload} (hparams : (os.map Overload.params).Nodup) :
    ((r.front rules os).Pairwise (r.Incomparable rules) ↔
        r.front rules os = r.unbeaten rules os) ∧
      ((r.front rules os).length ≤ 2 → (r.front rules os).Pairwise (r.Incomparable rules)) ∧
      ∀ before o after, r.front rules os = before ++ o :: after → before ≠ [] →
        ∃ o' ∈ before, r.Incomparable rules o o' := by
  have hrefl := hr.isAsSpecific_refl rules
  have htrans : ∀ o o' o'', r.isAsSpecific rules o o' → r.isAsSpecific rules o' o'' →
      r.isAsSpecific rules o o'' := fun _ _ _ => hr.isAsSpecific_trans
  refine ⟨?_, Selection.pairwise_front_of_length_le_two, fun _ _ _ => Selection.exists_incomparable⟩
  refine Selection.pairwise_front_iff hrefl htrans hparams.of_map fun o ho o' ho' h h' => ?_
  exact List.inj_on_of_nodup_map hparams ho ho' (hr.params_eq_of_isAsSpecific hok h h')

/-- Of named beings and animals neither are always the other, and both are returned. -/
theorem pairwise_incomparable_meeting :
    (sample.front .strict [meeting (.ofName "Named"), meeting (.ofName "Animal")]).Pairwise
      (sample.Incomparable .strict) := by
  have hparams : ([meeting (.ofName "Named"), meeting (.ofName "Animal")].map
      Overload.params).Nodup := by decide +kernel
  refine (Regular.pairwise_incomparable_iff regular_sample (by decide +kernel) .strict hparams).1.2 ?_
  decide +kernel

/-- **An ambiguity can name an overload that is beaten by another one it names.**  Of the three
below, all of which accept null, the one for arrays of cats is as specific as the one for arrays of
animals.  It is compared with the one for named beings first, and joins. -/
theorem ambiguous_beaten :
    let named := meeting (.ofName "Named")
    let animals := meeting (TypeId.ofName "Animal").arrayOf
    let cats := meeting (TypeId.ofName "Cat").arrayOf
    let os := [named, animals, cats]
    sample.Reachable ∧ sample.problems = [] ∧ (os.map Overload.params).Nodup ∧
      (∀ o ∈ os, sample.accepts .strict o [.null]) ∧
      (∀ call, sample.choose .strict call os = .error (.ambiguous call os)) ∧
      sample.isAsSpecific .strict cats animals ∧
      ¬(sample.front .strict os).Pairwise (sample.Incomparable .strict) := by
  intro named animals cats os
  have hfront : sample.front .strict os = os := by decide +kernel
  have hchoose : ∀ call, sample.choose .strict call os = .error (.ambiguous call os) := by
    intro call
    rw [choose_cons_cons, hfront]
  refine ⟨regular_sample.reachable, ?_, ?_, ?_, hchoose, ?_, ?_⟩ <;> decide +kernel

end Registry
end CallResolution
