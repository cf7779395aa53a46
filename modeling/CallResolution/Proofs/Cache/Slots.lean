/-
# Empty slots do not show

A cache of slots `Describes` the cache of finished catalogues when both keep catalogues for the same
types, in stores that hold the same entries, and the word that counts the builds is their number as
far as words go.  That a type has an empty slot makes no difference to this (`slot_eq`), so a
request leaves it so (`Describes.fetch`), and any requests one after the other do
(`describes_answerAll`): the answers are the same, and so is all that can be asked of the cache
after them.
-/

import CallResolution.Cache.Slots
import CallResolution.Proofs.Cache.History

namespace CallResolution
namespace Cache

open Catalogue (Stores)

namespace Slots

variable {c : Slots} {k : Cache}

/-! ## What is kept -/

theorem find?_empty (t : TypeId) : (∅ : Slots).find? t = none := by
  have h : (∅ : Slots).slots[t]? = none := Std.TreeMap.getElem?_emptyc
  rw [find?, h, Option.join_none]

theorem find?_fill (c : Slots) (t u : TypeId) (s : Stores) :
    (c.fill t s).find? u = if t = u then some s else c.find? u := by
  rw [find?, fill, Std.TreeMap.getElem?_insert]
  simp only [Std.LawfulEqCmp.compare_eq_iff_eq]
  split <;> rfl

/-- What is in the slot of a type is what is kept for it, and to make the slot changes nothing of
what is kept. -/
theorem slot_eq (c : Slots) (t : TypeId) : ∃ c', c.slot t = (c.find? t, c') ∧
    c'.builds = c.builds ∧ ∀ u, c'.find? u = c.find? u := by
  rw [slot, find?]
  cases ht : c.slots[t]? with
  | some found => exact ⟨c, rfl, rfl, fun _ => rfl⟩
  | none =>
    refine ⟨_, rfl, rfl, fun u => ?_⟩
    rw [find?, find?, Std.TreeMap.getElem?_insert]
    simp only [Std.LawfulEqCmp.compare_eq_iff_eq]
    split
    · next htu => rw [← htu, ht]; rfl
    · rfl

/-! ## Slots and catalogues side by side -/

/-- The slots that are not empty are those of the types that `k` keeps a catalogue for, and what is
in them is this catalogue. -/
structure Describes (c : Slots) (k : Cache) : Prop where
  find? (t : TypeId) : Option.Rel Stores.Describes (c.find? t) (k.find? t)
  builds : c.builds = .ofNat k.builds

theorem describes_empty : Describes ∅ ∅ where
  find? t := by
    rw [find?_empty, Cache.find?_empty]
    exact .none
  builds := rfl

theorem Describes.isSome_find? (d : c.Describes k) (t : TypeId) :
    (c.find? t).isSome = (k.find? t).isSome := by
  have h := d.find? t
  generalize c.find? t = kept, k.find? t = kept' at h
  cases h <;> rfl

/-- The slots that are not empty are as many as the catalogues. -/
theorem Describes.size (d : c.Describes k) : c.size = k.size := by
  have hperm : ((c.slots.toList.filter (·.2.isSome)).map Prod.fst).Perm k.built.keys := by
    refine (List.perm_ext_iff_of_nodup ?_ Std.TreeMap.nodup_keys).2 fun t => ?_
    · have hkeys : (c.slots.toList.map Prod.fst).Nodup := by
        rw [Std.TreeMap.map_fst_toList_eq_keys]
        exact Std.TreeMap.nodup_keys
      exact hkeys.sublist (List.filter_sublist.map _)
    · rw [Std.TreeMap.mem_keys, Std.TreeMap.mem_iff_isSome_getElem?, ← Cache.find?,
        ← d.isSome_find?, Slots.find?, Option.isSome_iff_exists]
      simp only [List.mem_map, List.mem_filter, Prod.exists,
        Std.TreeMap.mem_toList_iff_getElem?_eq_some, Option.join_eq_some_iff]
      constructor
      · rintro ⟨u, found, ⟨hu, hsome⟩, rfl⟩
        obtain ⟨s, rfl⟩ := Option.isSome_iff_exists.1 hsome
        exact ⟨s, hu⟩
      · rintro ⟨s, hs⟩
        exact ⟨t, some s, ⟨hs, rfl⟩, rfl⟩
  rw [Slots.size, List.countP_eq_length_filter, Cache.size, ← Std.TreeMap.length_keys,
    ← hperm.length_eq, List.length_map]

theorem Describes.isEmpty (d : c.Describes k) : c.isEmpty = k.isEmpty := by
  rw [Slots.isEmpty, Cache.isEmpty, d.size]

/-! ## Requests -/

/-- A build fails in both, or is kept in both. -/
theorem Describes.build (d : c.Describes k) (r : Registry) (settings : Settings) (t : TypeId) :
    let built := match r.catalogue settings t with
      | .error e => (Except.error e, { k with builds := k.builds + 1 })
      | .ok cat => (.ok cat, ⟨k.built.insert t cat, k.builds + 1⟩)
    Stores.SameOutcome (c.build r.host settings t).1 built.1 ∧
      (c.build r.host settings t).2.Describes built.2 := by
  have hbuilds : c.builds + 1 = .ofNat (k.builds + 1) := by rw [d.builds, USize.ofNat_add]; rfl
  have hsame := r.host.stores_catalogue settings t
  rw [Slots.build, Registry.catalogue]
  generalize r.host.stores settings t = built, r.host.catalogue settings t = built' at hsame
  cases hsame with
  | error e => exact ⟨.error e, d.find?, hbuilds⟩
  | ok hs =>
    refine ⟨.ok hs, fun u => ?_, hbuilds⟩
    rw [find?_fill, find?_insert]
    split
    · exact .some hs
    · exact d.find? u

/-- **One request** has the same answer, and leaves the slots in step with the catalogues. -/
theorem Describes.fetch (d : c.Describes k) (r : Registry) (settings : Settings) (t : TypeId) :
    Stores.SameOutcome (c.fetch r.host settings t).1 (k.fetch r settings t).1 ∧
      (c.fetch r.host settings t).2.Describes (k.fetch r settings t).2 := by
  rw [Slots.fetch, Cache.fetch, Registry.host_targetDecl]
  cases r.targetDecl t with
  | error e => exact ⟨.error e, d⟩
  | ok _ =>
    obtain ⟨c', hslot, hbuilds, hfind⟩ := c.slot_eq t
    have d' : c'.Describes k := ⟨fun u => hfind u ▸ d.find? u, hbuilds.trans d.builds⟩
    have ht := d.find? t
    rw [hslot]
    generalize c.find? t = kept, k.find? t = kept' at ht
    cases ht with
    | some hs => exact ⟨.ok hs, d'⟩
    | none => exact d'.build r settings t

/-- The answers to requests that are made one after the other, and the slots after them. -/
def answerAll (c : Slots) : List Fetch → List (Except CallError Stores) × Slots
  | [] => ([], c)
  | f :: fs =>
    let (found, c) := c.fetch f.registry.host f.settings f.target
    let (answers, c) := c.answerAll fs
    (found :: answers, c)

/-- **Any history of requests** has the same answers, and leaves the slots in step. -/
theorem Describes.answerAll (d : c.Describes k) (history : List Fetch) :
    List.Forall₂ Stores.SameOutcome (c.answerAll history).1
        ((k.answerAll history).1.map Prod.snd) ∧
      (c.answerAll history).2.Describes (k.answerAll history).2 := by
  induction history generalizing c k with
  | nil => exact ⟨.nil, d⟩
  | cons f fs ih =>
    obtain ⟨hfirst, d'⟩ := d.fetch f.registry f.settings f.target
    obtain ⟨hrest, d''⟩ := ih d'
    exact ⟨.cons hfirst hrest, d''⟩

/-- **The cache of slots is the cache of finished catalogues** to everyone who asks it.  After any
history of requests, with any registries and settings, both have given the same answers; they keep
catalogues for the same types and so equally many, and have begun as many builds, up to the width of
a word. -/
theorem describes_answerAll (history : List Fetch) :
    let c := (∅ : Slots).answerAll history
    let k := (∅ : Cache).answerAll history
    List.Forall₂ Stores.SameOutcome c.1 (k.1.map Prod.snd) ∧
      (∀ t, Option.Rel Stores.Describes (c.2.find? t) (k.2.find? t)) ∧
      c.2.size = k.2.size ∧ c.2.builds = .ofNat k.2.builds := by
  obtain ⟨hanswers, d⟩ := describes_empty.answerAll history
  exact ⟨hanswers, d.find?, d.size, d.builds⟩

end Slots
end Cache
end CallResolution
