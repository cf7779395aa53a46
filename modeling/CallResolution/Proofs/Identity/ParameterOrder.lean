/-
# When the order of parameters counts

Two types exchange their places in a parameter list, at positions `i` and `j`.  Where the handle of
the member changes is a question of one number for each of the two types: its `weight`, the
difference between what it adds at `i` and what it adds at `j`, each carried through the parameters
between the two.  The handle changes just when the weights differ (`absorbParams_exchanged`).
Neither the owner nor the name nor any other parameter plays a part in it.

Weights can be told apart by the lowest bit in which the types differ, if it is not the highest bit
of all and the markers of the positions differ in it too (`weight_ne`): modulo 4 the separator
is 1, so two bits of the weights can be computed as if nothing lay between the positions.  Types
that differ in the highest bit alone have the same weight at any two positions (`weight_eq`), for
there an exclusive sum is a sum and every odd multiple is the same.  Such types need not be made up:
"Cat" and another name of sixteen letters are two, and a class on which two methods take them in one
and in the other order cannot be catalogued (`exchanged_eq_twins`).
-/

import CallResolution.Proofs.Catalogue.Integrity
import CallResolution.Proofs.Identity.Mixing
import CallResolution.Registry.Problems
import Mathlib.Data.Nat.ModEq
import Mathlib.Tactic.LinearCombination

namespace CallResolution
namespace Identity

open scoped UInt64.CommRing

/-- The list with the elements at two places exchanged. -/
def exchanged {α : Type} (xs : List α) (i j : Fin xs.length) : List α :=
  (xs.set i (xs.get j)).set j (xs.get i)

/-- What `t` adds at position `i`, less what it adds at position `j`, up to a factor that is the same
for all types. -/
def weight (i j : Nat) (t : TypeId) : UInt64 :=
  marked i t * separator ^ j - marked j t * separator ^ i

/-! ## What an exchange does -/

theorem exchanged_self {α : Type} (xs : List α) (i : Fin xs.length) : exchanged xs i i = xs := by
  simp [exchanged]

theorem absorbParams_exchanged_of_ne (acc : UInt64) {params : List TypeId}
    {i j : Fin params.length} (hij : i ≠ j) :
    absorbParams acc 0 (exchanged params i j) = absorbParams acc 0 params +
      ((marked i (params.get j) - marked i (params.get i)) * separator ^ (params.length - 1 - i) +
        (marked j (params.get i) - marked j (params.get j)) *
          separator ^ (params.length - 1 - j)) := by
  have hj : (j : Nat) < (params.set i (params.get j)).length := by
    rw [List.length_set]
    exact j.isLt
  have hold : (params.set i (params.get j))[(j : Nat)] = params.get j :=
    List.getElem_set_ne (fun h => hij (Fin.ext h)) hj
  rw [exchanged, absorbParams_set acc 0 hj, absorbParams_set acc 0 i.isLt, hold,
    List.length_set, Nat.zero_add, Nat.zero_add, add_assoc]
  rfl

/-- **An exchange of two parameters is seen just when their weights differ.** -/
theorem absorbParams_exchanged {acc : UInt64} {params : List TypeId} {i j : Fin params.length} :
    absorbParams acc 0 (exchanged params i j) = absorbParams acc 0 params ↔
      weight i j (params.get i) = weight i j (params.get j) := by
  by_cases hij : i = j
  · subst hij
    rw [exchanged_self]
    exact iff_of_true rfl rfl
  have hpow : ∀ k : Fin params.length, separator ^ (params.length - 1 - k) * separator ^ (k : Nat) =
      separator ^ (params.length - 1) := by
    intro k
    rw [← pow_add]
    congr 1
    omega
  -- multiplied by a power of the separator for each position, the change is a difference of weights
  have hweight : ((marked i (params.get j) - marked i (params.get i)) *
        separator ^ (params.length - 1 - i) +
      (marked j (params.get i) - marked j (params.get j)) * separator ^ (params.length - 1 - j)) *
        (separator ^ (i : Nat) * separator ^ (j : Nat)) =
      (weight i j (params.get j) - weight i j (params.get i)) *
        separator ^ (params.length - 1) := by
    rw [weight, weight]
    linear_combination
      (marked i (params.get j) - marked i (params.get i)) * separator ^ (j : Nat) * hpow i +
        (marked j (params.get i) - marked j (params.get j)) * separator ^ (i : Nat) * hpow j
  have hunit : IsUnit (separator ^ (i : Nat) * separator ^ (j : Nat)) :=
    (isUnit_separator.pow i).mul (isUnit_separator.pow j)
  rw [absorbParams_exchanged_of_ne acc hij, add_eq_left, ← hunit.mul_left_eq_zero, hweight,
    (isUnit_separator.pow _).mul_left_eq_zero, sub_eq_zero, eq_comm]

/-! ## Types that differ in the highest bit -/

def highestBit : UInt64 := 0x8000000000000000

theorem highestBit_mul_separator_pow (n : Nat) : highestBit * separator ^ n = highestBit := by
  induction n with
  | zero => rw [pow_zero, mul_one]
  | succ n ih =>
    have hodd : highestBit * separator = highestBit := by decide
    rw [pow_succ, ← mul_assoc, ih, hodd]

/-- In the highest bit there is nothing to carry. -/
theorem xor_highestBit (x : UInt64) : x ^^^ highestBit = x + highestBit := by
  have hmod : (x.toNat ^^^ 2 ^ 63) % 2 ^ 63 = x.toNat % 2 ^ 63 := by
    rw [Nat.xor_mod_two_pow, Nat.mod_self, Nat.xor_zero]
  have hdiv : (x.toNat ^^^ 2 ^ 63) / 2 ^ 63 = x.toNat / 2 ^ 63 ^^^ 1 := by
    rw [Nat.xor_div_two_pow, Nat.div_self (by decide)]
  have hlt : x.toNat < 2 ^ 64 := x.toNat_lt
  have hhigh : highestBit.toNat = 2 ^ 63 := rfl
  apply UInt64.toNat_inj.1
  rw [UInt64.toNat_xor, UInt64.toNat_add, hhigh]
  obtain hzero | hone : x.toNat / 2 ^ 63 = 0 ∨ x.toNat / 2 ^ 63 = 1 := by omega
  · rw [hzero, Nat.zero_xor] at hdiv
    omega
  · rw [hone, Nat.xor_self] at hdiv
    omega

theorem marked_of_xor {t u : TypeId} (h : t.bits ^^^ u.bits = highestBit) (i : Nat) :
    marked i t = marked i u + highestBit := by
  have hbits : t.bits = u.bits ^^^ highestBit := by
    rw [← h, UInt64.xor_comm t.bits, ← UInt64.xor_assoc, UInt64.xor_self, UInt64.zero_xor]
  rw [marked, hbits, ← UInt64.xor_assoc, xor_highestBit, marked]

/-- **Types that differ in the highest bit alone have the same weight.** -/
theorem weight_eq {t u : TypeId} (h : t.bits ^^^ u.bits = highestBit) (i j : Nat) :
    weight i j t = weight i j u := by
  rw [weight, weight, marked_of_xor h, marked_of_xor h]
  linear_combination highestBit_mul_separator_pow j - highestBit_mul_separator_pow i

/-! ## Types that differ in a lower bit -/

/-- `k` is the lowest bit in which the two types differ. -/
def DifferFrom (k : Nat) (t u : TypeId) : Prop :=
  t.bits.toNat % 2 ^ k = u.bits.toNat % 2 ^ k ∧
    t.bits.toNat.testBit k ≠ u.bits.toNat.testBit k

theorem separator_pow_mod_four (n : Nat) : (separator ^ n).toNat % 4 = 1 := by
  induction n with
  | zero => rfl
  | succ n ih =>
    have hsep : separator.toNat % 4 = 1 := by decide
    rw [pow_succ, UInt64.toNat_mul, Nat.mod_mod_of_dvd _ (by decide), Nat.mul_mod, ih, hsep]

/-- Two bits of numbers that agree below them, read off from sums of multiples. -/
theorem modEq_four_of_modEq {a b c d p q k : Nat} (hab : a % 2 ^ k = b % 2 ^ k)
    (hcd : c % 2 ^ k = d % 2 ^ k) (hp : p % 4 = 1) (hq : q % 4 = 1)
    (h : a * p + d * q ≡ b * p + c * q [MOD 2 ^ k * 4]) :
    a / 2 ^ k + d / 2 ^ k ≡ b / 2 ^ k + c / 2 ^ k [MOD 4] := by
  rw [← Nat.div_add_mod a (2 ^ k), ← Nat.div_add_mod b (2 ^ k), ← Nat.div_add_mod c (2 ^ k),
    ← Nat.div_add_mod d (2 ^ k), hab, hcd] at h
  generalize a / 2 ^ k = a' at h ⊢
  generalize b / 2 ^ k = b' at h ⊢
  generalize c / 2 ^ k = c' at h ⊢
  generalize d / 2 ^ k = d' at h ⊢
  have hscaled : 2 ^ k * (a' * p + d' * q) ≡ 2 ^ k * (b' * p + c' * q) [MOD 2 ^ k * 4] := by
    refine Nat.ModEq.add_right_cancel' (b % 2 ^ k * p + d % 2 ^ k * q) ?_
    calc
      _ = (2 ^ k * a' + b % 2 ^ k) * p + (2 ^ k * d' + d % 2 ^ k) * q := by ring
      _ ≡ (2 ^ k * b' + b % 2 ^ k) * p + (2 ^ k * c' + d % 2 ^ k) * q [MOD 2 ^ k * 4] := h
      _ = _ := by ring
  have hp' : p ≡ 1 [MOD 4] := hp
  have hq' : q ≡ 1 [MOD 4] := hq
  calc
    a' + d' ≡ a' * p + d' * q [MOD 4] := by
      simpa using ((hp'.mul_left a').add (hq'.mul_left d')).symm
    _ ≡ b' * p + c' * q [MOD 4] := Nat.ModEq.mul_left_cancel' (Nat.two_pow_pos k).ne' hscaled
    _ ≡ b' + c' [MOD 4] := by
      simpa using (hp'.mul_left b').add (hq'.mul_left c')

/-- Where markers `m`, `n` and types `a`, `b` differ in the lower of two bits, it matters which type
is under which marker. -/
theorem xor_add_xor_ne : ∀ m n a b : Fin 4, m.val % 2 ≠ n.val % 2 → a.val % 2 ≠ b.val % 2 →
    ((m.val ^^^ a.val) + (n.val ^^^ b.val)) % 4 ≠ ((m.val ^^^ b.val) + (n.val ^^^ a.val)) % 4 := by
  decide

theorem marked_mod (k i : Nat) (t : TypeId) : (marked i t).toNat % 2 ^ k =
    (marker i).toNat % 2 ^ k ^^^ t.bits.toNat % 2 ^ k := by
  rw [marked, UInt64.toNat_xor, Nat.xor_mod_two_pow]

theorem marked_div_mod_four (k i : Nat) (t : TypeId) : (marked i t).toNat / 2 ^ k % 4 =
    (marker i).toNat / 2 ^ k % 4 ^^^ t.bits.toNat / 2 ^ k % 4 := by
  rw [marked, UInt64.toNat_xor, Nat.xor_div_two_pow]
  exact Nat.xor_mod_two_pow (n := 2)

theorem mod_two_ne_of_testBit_ne {a b k : Nat} (h : a.testBit k ≠ b.testBit k) :
    a / 2 ^ k % 4 % 2 ≠ b / 2 ^ k % 4 % 2 := by
  rw [Nat.testBit_eq_decide_div_mod_eq, Nat.testBit_eq_decide_div_mod_eq, ne_eq,
    decide_eq_decide] at h
  omega

/-- **Types have different weights if the markers differ in the lowest bit in which the types do.** -/
theorem weight_ne {i j k : Nat} {t u : TypeId} (hk : k < 63) (htypes : DifferFrom k t u)
    (hmarkers : (marker i).toNat.testBit k ≠ (marker j).toNat.testBit k) :
    weight i j t ≠ weight i j u := by
  intro h
  have hlow : ∀ l, (marked l t).toNat % 2 ^ k = (marked l u).toNat % 2 ^ k := fun l => by
    rw [marked_mod, marked_mod, htypes.1]
  have hsum : marked i t * separator ^ j + marked j u * separator ^ i =
      marked i u * separator ^ j + marked j t * separator ^ i := by
    rw [weight, weight] at h
    linear_combination h
  have hnat : (marked i t).toNat * (separator ^ j).toNat +
      (marked j u).toNat * (separator ^ i).toNat ≡
        (marked i u).toNat * (separator ^ j).toNat +
          (marked j t).toNat * (separator ^ i).toNat [MOD 2 ^ 64] := by
    have hmod := congrArg UInt64.toNat hsum
    simpa [Nat.ModEq, UInt64.toNat_add, UInt64.toNat_mul, Nat.add_mod] using hmod
  have hbits : 2 ^ k * 4 ∣ 2 ^ 64 := by
    rw [show 4 = 2 ^ 2 from rfl, ← pow_add]
    exact pow_dvd_pow 2 (by omega)
  have hpairs := modEq_four_of_modEq (hlow i) (hlow j) (separator_pow_mod_four j)
    (separator_pow_mod_four i) (hnat.of_dvd hbits)
  rw [Nat.ModEq, Nat.add_mod, Nat.add_mod (_ / _)] at hpairs
  simp only [marked_div_mod_four] at hpairs
  have hlt : ∀ x : Nat, x % 4 < 4 := fun x => Nat.mod_lt x (by decide)
  exact xor_add_xor_ne ⟨_, hlt _⟩ ⟨_, hlt _⟩ ⟨_, hlt _⟩ ⟨_, hlt _⟩
    (mod_two_ne_of_testBit_ne hmarkers) (mod_two_ne_of_testBit_ne htypes.2) hpairs

/-! ## The order of two parameters -/

/-- **When the order of parameters counts.**  Whatever the owner, the name and the other parameters,
a method and a constructor keep their handles when two parameters are exchanged just if the two types
have the same weight at these positions.  Types that differ in the highest bit alone have the same
weight at any two positions, so their order never counts; types have different weights, so their
order counts, if the markers of the positions differ in the lowest bit in which the types do, unless
this is the highest bit. -/
theorem exchanged_eq_iff (owner : TypeId) (name : String) (params : List TypeId)
    (i j : Fin params.length) :
    (Handle.ofMethod owner name (exchanged params i j) = Handle.ofMethod owner name params ↔
      weight i j (params.get i) = weight i j (params.get j)) ∧
    (Handle.ofConstructor owner (exchanged params i j) = Handle.ofConstructor owner params ↔
      weight i j (params.get i) = weight i j (params.get j)) ∧
    ((params.get i).bits ^^^ (params.get j).bits = highestBit →
      weight i j (params.get i) = weight i j (params.get j)) ∧
    ∀ k < 63, DifferFrom k (params.get i) (params.get j) →
      (marker i).toNat.testBit k ≠ (marker j).toNat.testBit k →
        weight i j (params.get i) ≠ weight i j (params.get j) := by
  refine ⟨?_, ?_, fun h => weight_eq h i j, fun k hk => weight_ne hk⟩
  · rw [Handle.ofMethod, Handle.ofMethod, Handle.mk.injEq, absorbParams_exchanged]
  · rw [Handle.ofConstructor, Handle.ofConstructor, Handle.mk.injEq, absorbParams_exchanged]

/-- The order of "Cat" and "Dog" counts: one of their identities is even and the other is odd, and so
are the markers of the first two positions. -/
theorem exchanged_eq_sample :
    let cat := TypeId.ofName "Cat"
    let dog := TypeId.ofName "Dog"
    let vet := TypeId.ofName "Vet"
    Handle.ofMethod vet "meet" [dog, cat] ≠ Handle.ofMethod vet "meet" [cat, dog] ∧
      Handle.ofConstructor vet [dog, cat] ≠ Handle.ofConstructor vet [cat, dog] := by
  intro cat dog vet
  obtain ⟨hmethod, hconstructor, -, hcounts⟩ :=
    exchanged_eq_iff vet "meet" [cat, dog] ⟨0, by decide⟩ ⟨1, by decide⟩
  have hne := hcounts 0 (by decide) ⟨Nat.mod_one _ |>.trans (Nat.mod_one _).symm, by decide +kernel⟩
    (by decide +kernel)
  exact ⟨fun h => hne (hmethod.1 h), fun h => hne (hconstructor.1 h)⟩

/-- A class that two types can meet in both orders.  The identities of their names differ in the
highest bit alone. -/
def twins : Registry :=
  let cat := TypeId.ofName "Cat"
  let twin := TypeId.ofName "Yizjpfaafbqsynjb"
  (Registry.primitives.applyAll [
    .decl (.ofClass (.named "Cat")), .decl (.ofClass (.named "Yizjpfaafbqsynjb")),
    .decl (.ofClass (((ClassDecl.named "Vet").addMethod "meet" [cat, twin]).addMethod "meet"
      [twin, cat]))]).2

/-- **The order of two parameters may not count.**  With the same owner and name, methods that take
two types in one and in the other order have the same handle, and so have constructors; a class that
declares both methods is registered without a problem and cannot be catalogued. -/
theorem exchanged_eq_twins :
    let cat := TypeId.ofName "Cat"
    let twin := TypeId.ofName "Yizjpfaafbqsynjb"
    let vet := TypeId.ofName "Vet"
    cat ≠ twin ∧ exchanged [cat, twin] ⟨0, by decide⟩ ⟨1, by decide⟩ = [twin, cat] ∧
      Handle.ofMethod vet "meet" [twin, cat] = Handle.ofMethod vet "meet" [cat, twin] ∧
      Handle.ofConstructor vet [twin, cat] = Handle.ofConstructor vet [cat, twin] ∧
      twins.Reachable ∧ twins.problems = [] ∧
      ∃ e, twins.catalogue default vet = .error e ∧ e.isInternal := by
  intro cat twin vet
  obtain ⟨d, hd⟩ := Registry.exists_eq_ok (x := twins.targetDecl vet) (by decide +kernel)
  have herror : ∃ e, twins.catalogue default vet = .error e ∧ e.isInternal := by
    rw [Registry.catalogue, Host.isInternal_catalogue_iff hd, Catalogue.not_handlesDistinct_iff]
    decide +kernel
  exact ⟨by decide +kernel, rfl, by decide +kernel, by decide +kernel,
    Registry.regular_primitives.reachable.applyAll fun _ _ => trivial, by decide +kernel, herror⟩

end Identity
end CallResolution
