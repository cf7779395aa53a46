/-
# What the mixing of identities keeps apart

Identities are numbers modulo `2 ^ 64`, and no number of this width can be different for all
signatures.  Signatures that differ in one component only have different handles, however.  A
parameter is mixed in by a product with the separator, which can be undone because the separator is
odd (`isUnit_separator`), and a sum with the parameter under the marker of its position, which tells
parameters apart (`marked_inj`).  So a difference that one component makes is carried through
whatever is mixed in after it: each further parameter multiplies it by the separator once
(`absorbParams_add`, `absorbParams_set`), and it never becomes zero.  The identity of an array type
is that of its elements rotated and moved, and neither loses anything (`arrayOf_injective`).
-/

import CallResolution.Identity
import Mathlib.Data.UInt
import Mathlib.Logic.Function.Iterate
import Mathlib.Tactic.Ring

namespace CallResolution

namespace XXHash64

theorem toBitVec_rotateLeft (x : UInt64) {k : UInt64} (hpos : 0 < k) (hk : k < 64) :
    (rotateLeft x k).toBitVec = x.toBitVec.rotateLeft k.toNat := by
  have hk' : k.toNat < 64 := UInt64.lt_iff_toNat_lt.1 hk
  have hpos' : 0 < k.toNat := UInt64.lt_iff_toNat_lt.1 hpos
  have hleft : (k.toBitVec % 64).toNat = k.toNat := Nat.mod_eq_of_lt hk'
  have hright : ((64 - k).toBitVec % 64).toNat = 64 - k.toNat := by
    have hsub : (64 - k).toNat = 64 - k.toNat :=
      UInt64.toNat_sub_of_le _ _ (UInt64.le_of_lt hk)
    rw [BitVec.toNat_umod, UInt64.toNat_toBitVec, hsub]
    exact Nat.mod_eq_of_lt (by show 64 - k.toNat < 64; omega)
  rw [BitVec.rotateLeft_eq_rotateLeftAux_of_lt hk', BitVec.rotateLeftAux, rotateLeft,
    UInt64.toBitVec_or, UInt64.toBitVec_shiftLeft, UInt64.toBitVec_shiftRight,
    BitVec.shiftLeft_eq', BitVec.ushiftRight_eq', hleft, hright]

/-- Rotation by `r` moves the bit at place `i` to place `i + r`, counted around. -/
theorem getLsbD_rotateLeft_add (x : BitVec 64) {r i : Nat} (hr : r < 64) (hi : i < 64) :
    (x.rotateLeft r).getLsbD ((i + r) % 64) = x.getLsbD i := by
  rw [BitVec.getLsbD_rotateLeft, Nat.mod_eq_of_lt hr]
  by_cases hwrap : i + r < 64
  · simp [Nat.mod_eq_of_lt hwrap, hwrap]
  · have hplace : (i + r) % 64 = i + r - 64 := by omega
    have hlow : i + r - 64 < r := by omega
    have hback : 64 - r + (i + r - 64) = i := by omega
    simp [hplace, hlow, hback]

/-- Rotation loses no bit. -/
theorem rotateLeft_injective {k : UInt64} (hpos : 0 < k) (hk : k < 64) :
    Function.Injective (rotateLeft · k) := by
  intro x y h
  have hrotated : x.toBitVec.rotateLeft k.toNat = y.toBitVec.rotateLeft k.toNat := by
    rw [← toBitVec_rotateLeft x hpos hk, ← toBitVec_rotateLeft y hpos hk]
    exact congrArg UInt64.toBitVec h
  have hk' : k.toNat < 64 := UInt64.lt_iff_toNat_lt.1 hk
  refine UInt64.eq_of_toBitVec_eq (BitVec.eq_of_getLsbD_eq fun i hi => ?_)
  rw [← getLsbD_rotateLeft_add x.toBitVec hk' hi, hrotated,
    getLsbD_rotateLeft_add y.toBitVec hk' hi]

end XXHash64

theorem TypeId.bits_injective : Function.Injective TypeId.bits := by
  rintro ⟨x⟩ ⟨y⟩ rfl
  rfl

theorem TypeId.arrayOf_injective : Function.Injective TypeId.arrayOf := by
  intro t u h
  have hrotated : XXHash64.rotateLeft t.bits 17 = XXHash64.rotateLeft u.bits 17 :=
    add_left_cancel (TypeId.mk.inj h)
  exact TypeId.bits_injective (XXHash64.rotateLeft_injective (by decide) (by decide) hrotated)

namespace Identity

open scoped UInt64.CommRing

/-- The marker of a parameter at position `i`. -/
def marker (i : Nat) : UInt64 := paramMarker * (UInt64.ofNat i + 1)

/-- A parameter under the marker of its position. -/
def marked (i : Nat) (t : TypeId) : UInt64 := marker i ^^^ t.bits

theorem marked_inj {i : Nat} {t u : TypeId} : marked i t = marked i u ↔ t = u := by
  rw [marked, marked, UInt64.xor_right_inj, TypeId.bits_injective.eq_iff]

theorem absorbParam_eq (acc : UInt64) (t : TypeId) (i : Nat) :
    absorbParam acc t i = acc * separator + marked i t := rfl

/-- The separator is odd. -/
theorem isUnit_separator : IsUnit separator :=
  .of_mul_eq_one 0xd3f20f0a40208825 (by decide)

/-- **A difference of what the parameters are mixed into** is multiplied once for each of them. -/
theorem absorbParams_add (acc diff : UInt64) (k : Nat) (params : List TypeId) :
    absorbParams (acc + diff) k params =
      absorbParams acc k params + diff * separator ^ params.length := by
  induction params generalizing acc diff k with
  | nil => rw [absorbParams, absorbParams, List.length_nil, pow_zero, mul_one]
  | cons t params ih =>
    have hfirst : absorbParam (acc + diff) t k = absorbParam acc t k + diff * separator := by
      rw [absorbParam_eq, absorbParam_eq]
      ring
    rw [absorbParams, absorbParams, hfirst, ih, List.length_cons, pow_succ', mul_assoc]

theorem absorbParams_inj {acc acc' : UInt64} {k : Nat} {params : List TypeId} :
    absorbParams acc k params = absorbParams acc' k params ↔ acc = acc' := by
  have hdiff : absorbParams acc k params =
      absorbParams acc' k params + (acc - acc') * separator ^ params.length := by
    rw [← absorbParams_add, add_sub_cancel]
  rw [hdiff, add_eq_left, (isUnit_separator.pow _).mul_left_eq_zero, sub_eq_zero]

/-- **What another parameter at one position does**, carried through all that is mixed in later. -/
theorem absorbParams_set (acc : UInt64) (k : Nat) {params : List TypeId} {i : Nat}
    (hi : i < params.length) (t : TypeId) :
    absorbParams acc k (params.set i t) = absorbParams acc k params +
      (marked (k + i) t - marked (k + i) params[i]) * separator ^ (params.length - 1 - i) := by
  induction params generalizing acc k i with
  | nil => cases hi
  | cons u params ih =>
    cases i with
    | zero =>
      have hfirst : absorbParam acc t k = absorbParam acc u k + (marked k t - marked k u) := by
        rw [absorbParam_eq, absorbParam_eq]
        ring
      show absorbParams (absorbParam acc t k) (k + 1) params =
        absorbParams (absorbParam acc u k) (k + 1) params + _
      rw [hfirst, absorbParams_add]
      rfl
    | succ i =>
      have hplace : k + 1 + i = k + (i + 1) := by omega
      have hlater : params.length - 1 - i = (u :: params).length - 1 - (i + 1) := by
        rw [List.length_cons]
        omega
      show absorbParams (absorbParam acc u k) (k + 1) (params.set i t) = _
      rw [ih _ _ (Nat.lt_of_succ_lt_succ hi), hplace, hlater]
      rfl

/-- Another parameter at one position is always seen. -/
theorem absorbParams_set_eq_iff {acc : UInt64} {params : List TypeId} {i : Nat}
    (hi : i < params.length) {t : TypeId} :
    absorbParams acc 0 (params.set i t) = absorbParams acc 0 params ↔ t = params[i] := by
  rw [absorbParams_set acc 0 hi, add_eq_left, (isUnit_separator.pow _).mul_left_eq_zero,
    sub_eq_zero, marked_inj]

/-- **Identities that differ in one component are different.**  A method has another handle if one
of its parameters is replaced by another type, and so has a constructor; constructors of different
types with the same parameters have different handles; and types stay different when arrays are
made of them, arrays of these, and so on. -/
theorem eq_iff_of_one_component :
    (∀ (owner : TypeId) (name : String) (params : List TypeId) (i : Fin params.length)
      (t : TypeId), Handle.ofMethod owner name (params.set i t) =
        Handle.ofMethod owner name params ↔ t = params.get i) ∧
    (∀ (owner : TypeId) (params : List TypeId) (i : Fin params.length) (t : TypeId),
      Handle.ofConstructor owner (params.set i t) = Handle.ofConstructor owner params ↔
        t = params.get i) ∧
    (∀ (params : List TypeId) (owner owner' : TypeId),
      Handle.ofConstructor owner params = Handle.ofConstructor owner' params ↔
        owner = owner') ∧
    ∀ (n : Nat) (t u : TypeId), TypeId.arrayOf^[n] t = TypeId.arrayOf^[n] u ↔ t = u := by
  refine ⟨fun owner name params i t => ?_, fun owner params i t => ?_,
    fun params owner owner' => ?_, fun n t u => ?_⟩
  · rw [Handle.ofMethod, Handle.ofMethod, Handle.mk.injEq]
    exact absorbParams_set_eq_iff i.isLt
  · rw [Handle.ofConstructor, Handle.ofConstructor, Handle.mk.injEq]
    exact absorbParams_set_eq_iff i.isLt
  · rw [Handle.ofConstructor, Handle.ofConstructor, Handle.mk.injEq, absorbParams_inj,
      UInt64.xor_right_inj, TypeId.bits_injective.eq_iff]
  · exact (TypeId.arrayOf_injective.iterate n).eq_iff

end Identity
end CallResolution
