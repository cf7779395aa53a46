/-
# Searches of any host

Of a host no more is known than that the identities of its types have 64 bits, so a search for a
conversion can pass on to at most `2 ^ 128` pairs.  One that has not answered by then has come back
to a pair (`reached?`) and never answers: `Host.searchBound` is large enough
(`searchAnswer?_searchBound`).  A registry needs fewer steps, and what it finds in these is what it
finds as a host (`Registry.host_conversion?`).
-/

import CallResolution.Proofs.Conversion.Termination
import Mathlib.Data.Fintype.Prod

namespace CallResolution

namespace Host

variable {h : Host}

/-- What a search passes a pair of types on to. -/
def next? (h : Host) (pair : TypeId × TypeId) : Option (TypeId × TypeId) :=
  match h.conversionStep .strict pair.1 pair.2 with
  | .elements x y => some (x, y)
  | .answer _ => none

/-- The pair that a search of `t` and `u` has passed on to after `n` steps. -/
def reached? (h : Host) (t u : TypeId) (n : Nat) : Option (TypeId × TypeId) :=
  (·.bind h.next?)^[n] (some (t, u))

/-- The rules bear on answers only. -/
theorem conversionStep_elements {rules rules' : Rules} {t u x y : TypeId}
    (hstep : h.conversionStep rules t u = .elements x y) :
    h.conversionStep rules' t u = .elements x y := by
  rw [conversionStep] at hstep ⊢
  split at hstep
  · cases hstep
  · next hne =>
    rw [if_neg hne]
    split at hstep
    · cases hstep
    · exact hstep
    · split at hstep <;> cases hstep
    · cases hstep

theorem searchAnswer?_eq_none_iff {fuel : Nat} {rules : Rules} {t u : TypeId} :
    h.searchAnswer? fuel rules t u = none ↔ (h.reached? t u fuel).isSome := by
  induction fuel generalizing rules t u with
  | zero => exact iff_of_true rfl rfl
  | succ fuel ih =>
    rw [reached?, Function.iterate_succ_apply, Option.bind_some, next?]
    cases hstep : h.conversionStep rules t u with
    | answer c? =>
      rw [searchAnswer?_of_answer hstep]
      split
      · next hstrict => cases hstep.symm.trans (conversionStep_elements hstrict)
      · rw [Function.iterate_fixed rfl]
        exact iff_of_false (Option.some_ne_none c?) Bool.false_ne_true
    | elements x y =>
      rw [searchAnswer?_of_elements hstep, Option.map_eq_none_iff, ih,
        conversionStep_elements hstep, reached?]

theorem isSome_reached?_of_le {t u : TypeId} {m n : Nat} (hle : m ≤ n)
    (hn : (h.reached? t u n).isSome) : (h.reached? t u m).isSome := by
  obtain ⟨k, rfl⟩ := Nat.exists_eq_add_of_le' hle
  cases hm : h.reached? t u m with
  | some pair => rfl
  | none =>
    rw [reached?, Function.iterate_add_apply, ← reached?, hm, Function.iterate_fixed rfl] at hn
    cases hn

/-- There are no more identities than numbers of 64 bits. -/
theorem exists_identities : ∃ f : Finset TypeId, f.card ≤ UInt64.size ∧ ∀ t, t ∈ f := by
  refine ⟨(Finset.univ : Finset (Fin UInt64.size)).image fun i => ⟨.ofFin i⟩, ?_, fun t => ?_⟩
  · exact Finset.card_image_le.trans (le_of_eq (by rw [Finset.card_univ, Fintype.card_fin]))
  · exact Finset.mem_image.2 ⟨t.bits.toFin, Finset.mem_univ _, rfl⟩

theorem exists_identityPairs : ∃ f : Finset (Option (TypeId × TypeId)),
    f.card ≤ UInt64.size * UInt64.size ∧ ∀ pair, pair.isSome → pair ∈ f := by
  obtain ⟨f, hcard, hf⟩ := exists_identities
  refine ⟨(f ×ˢ f).image some, ?_, fun pair hpair => ?_⟩
  · refine Finset.card_image_le.trans ?_
    rw [Finset.card_product]
    exact Nat.mul_le_mul hcard hcard
  · obtain ⟨⟨t, u⟩, rfl⟩ := Option.isSome_iff_exists.1 hpair
    exact Finset.mem_image_of_mem some (Finset.mem_product.2 ⟨hf t, hf u⟩)

/-- **The bound of the search is large enough for any host**: what a search finds in any number of
steps, it finds in these. -/
theorem searchAnswer?_searchBound {fuel : Nat} {rules : Rules} {t u : TypeId}
    {c? : Option Conversion} (hans : h.searchAnswer? fuel rules t u = some c?) :
    h.searchAnswer? searchBound rules t u = some c? := by
  cases hbound : h.searchAnswer? searchBound rules t u with
  | some d? =>
    have hmax := searchAnswer?_mono (Nat.le_max_left fuel searchBound) hans
    rw [searchAnswer?_mono (Nat.le_max_right fuel searchBound) hbound] at hmax
    exact hmax
  | none =>
    obtain ⟨f, hcard, hf⟩ := exists_identityPairs
    have hall : (h.reached? t u fuel).isSome := by
      refine Registry.forall_of_forall_le_card (fun i j hij => ?_) hf (fun n hn => ?_) fuel
      · rw [reached?, reached?, Function.iterate_succ_apply', Function.iterate_succ_apply',
          ← reached?, ← reached?, hij]
      · exact isSome_reached?_of_le (hn.trans (hcard.trans (Nat.le_succ _)))
          (searchAnswer?_eq_none_iff.1 hbound)
    rw [searchAnswer?_eq_none_iff.2 hall] at hans
    cases hans

end Host

namespace Registry

/-- **The host finds what the registry finds**, although its bound is another one. -/
theorem host_conversion? (r : Registry) : r.host.conversion? = r.conversion? := by
  funext rules actual formal
  cases actual with
  | null => rfl
  | ofType t =>
    show r.host.searchConversion Host.searchBound rules t formal =
      r.host.searchConversion r.searchBound rules t formal
    rw [Host.searchConversion_eq, Host.searchConversion_eq]
    cases hend : r.searchAnswer? r.searchBound rules t formal with
    | some c? =>
      have hend : r.host.searchAnswer? r.searchBound rules t formal = some c? := hend
      rw [hend, Host.searchAnswer?_searchBound hend]
    | none =>
      have hend' : r.host.searchAnswer? r.searchBound rules t formal = none := hend
      rw [hend']
      cases hhost : r.host.searchAnswer? Host.searchBound rules t formal with
      | none => rfl
      | some c? =>
        have hends := searchEnds_iff.2 ⟨_, Option.isSome_iff_exists.2 ⟨c?, hhost⟩⟩
        rw [searchEnds, hend] at hends
        cases hends

theorem host_acceptsAll (r : Registry) : r.host.acceptsAll = r.acceptsAll := by
  funext rules
  rw [Host.acceptsAll, host_conversion?]
  rfl

end Registry
end CallResolution
