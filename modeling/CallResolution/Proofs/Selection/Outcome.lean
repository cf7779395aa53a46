/-
# What a bucket resolves to

`outcome` says in one case distinction what `select` gives: nothing to choose from, the
first overload of exactly the argument types, nothing that accepts the arguments, the
last overload that is as specific as all that accept them, or an ambiguity.  It does not
mention the running set of candidates, except to name what is ambiguous.

`Regular.select_outcome` proves the two equal for every bucket of every catalogue.  The
scan of the bucket is a search and a filter (`candidates_eq`); the choice among what it
leaves is that of a least candidate (`Regular.choose_eq`), as being as specific is
reflexive and transitive.
-/

import CallResolution.Proofs.Conversion.Order
import CallResolution.Proofs.Selection.Front
import CallResolution.Catalogue.Build

namespace CallResolution

/-- The overloads under the handles of a bucket. -/
def Catalogue.members (cat : Catalogue) (bucket : List Handle) : List Overload :=
  bucket.filterMap cat.find?

theorem Catalogue.exists_find?_of_mem {cat : Catalogue} {h : Handle}
    (hh : h ∈ cat.entries.map Overload.handle) : ∃ o, cat.find? h = some o :=
  Option.ne_none_iff_exists'.1 fun hnone => find?_eq_none_iff.1 hnone hh

namespace Registry

variable {r : Registry}

/-- Those of the overloads that accept the arguments. -/
def applicable (r : Registry) (rules : Rules) (args : List Arg) (os : List Overload) :
    List Overload :=
  os.filter (r.accepts rules · args)

/-- Those of the overloads that are as specific as all of them. -/
def mostSpecific (r : Registry) (rules : Rules) (os : List Overload) : List Overload :=
  os.filter fun o => os.all (r.isAsSpecific rules o)

/-- What the bucket of a call resolves to. -/
def outcome (r : Registry) (rules : Rules) (cat : Catalogue) (bucket : List Handle)
    (member : Option String) (args : List Arg) : Except CallError Overload :=
  let call : Call := ⟨cat.targetName, member, args⟩
  let applicable := r.applicable rules args (cat.members bucket)
  if bucket = [] then .error (.notFound call .noCandidates)
  else
    match (cat.members bucket).find? (·.takesExactly args) with
    | some exact => .ok exact
    | none =>
      if applicable = [] then .error (.notFound call .noApplicable)
      else
        match (r.mostSpecific rules applicable).getLast? with
        | some best => .ok best
        | none => .error (.ambiguous call (r.front rules applicable))

theorem mem_mostSpecific {rules : Rules} {os : List Overload} {o : Overload} :
    o ∈ r.mostSpecific rules os ↔ o ∈ os ∧ ∀ o' ∈ os, r.isAsSpecific rules o o' := by
  simp [mostSpecific]

/-- The scan of a bucket ends at the first exact overload, and otherwise keeps what accepts the
arguments. -/
theorem candidates_eq {rules : Rules} {cat : Catalogue} {args : List Arg} {bucket : List Handle}
    (hb : ∀ h ∈ bucket, h ∈ cat.entries.map Overload.handle) :
    r.candidates rules cat args bucket = .ok
      (match (cat.members bucket).find? (·.takesExactly args) with
      | some exact => .exact exact
      | none => .applicable (r.applicable rules args (cat.members bucket))) := by
  induction bucket with
  | nil => rfl
  | cons h hs ih =>
    obtain ⟨o, ho⟩ := Catalogue.exists_find?_of_mem (hb h List.mem_cons_self)
    have hlookup : cat.lookup h = .ok o := by rw [Catalogue.lookup, ho]
    have hmembers : cat.members (h :: hs) = o :: cat.members hs := List.filterMap_cons_some ho
    rw [candidates] at ih ⊢
    rw [Selection.candidates, hlookup, hmembers, List.find?_cons, applicable, List.filter_cons]
    cases hexact : o.takesExactly args with
    | true => simp only [hexact, if_true]
    | false =>
      simp only [hexact, Bool.false_eq_true, if_false,
        ih fun h hh => hb h (List.mem_cons_of_mem _ hh)]
      cases (cat.members hs).find? (·.takesExactly args) <;> rfl

/-- Among what accepts the arguments, the last overload as specific as all is chosen. -/
theorem Regular.choose_eq (hr : r.Regular) (rules : Rules) (call : Call) (os : List Overload) :
    r.choose rules call os =
      if os = [] then .error (.notFound call .noApplicable)
      else
        match (r.mostSpecific rules os).getLast? with
        | some best => .ok best
        | none => .error (.ambiguous call (r.front rules os)) := by
  have hrefl := hr.isAsSpecific_refl rules
  have htrans : ∀ o o' o'', r.isAsSpecific rules o o' → r.isAsSpecific rules o' o'' →
      r.isAsSpecific rules o o'' := fun _ _ _ => hr.isAsSpecific_trans
  match os with
  | [] => rfl
  | [o] =>
    have ho : r.mostSpecific rules [o] = [o] := by simp [mostSpecific, hrefl o]
    rw [if_neg (List.cons_ne_nil o []), ho]
    rfl
  | o :: o' :: os =>
    rw [choose_cons_cons, if_neg (List.cons_ne_nil o (o' :: os))]
    cases hbest : (r.mostSpecific rules (o :: o' :: os)).getLast? with
    | some best =>
      have hfront : r.front rules (o :: o' :: os) = [best] :=
        Selection.front_eq_singleton hrefl htrans hbest
      rw [hfront]
    | none =>
      rw [List.getLast?_eq_none_iff] at hbest
      split
      · next b hfront => exact absurd hfront (Selection.front_ne_singleton hrefl htrans hbest b)
      · rfl

theorem Regular.select_eq_outcome (hr : r.Regular) (rules : Rules) {cat : Catalogue}
    {bucket : List Handle} (hb : ∀ h ∈ bucket, h ∈ cat.entries.map Overload.handle)
    (member : Option String) (args : List Arg) :
    r.select rules cat bucket member args = r.outcome rules cat bucket member args := by
  cases bucket with
  | nil => rfl
  | cons h hs =>
    have hscan : Selection.candidates (r.acceptsAll rules) cat.lookup args (h :: hs) = _ :=
      candidates_eq hb
    rw [select, Selection.select, outcome, if_neg (by simp), if_neg (List.cons_ne_nil h hs), hscan]
    cases (cat.members (h :: hs)).find? (·.takesExactly args) with
    | some exact => rfl
    | none => exact hr.choose_eq rules _ _

/-- The overload chosen where none is exact is one that is as specific as all that accept the
arguments. -/
theorem Regular.mem_of_select_eq_ok (hr : r.Regular) {rules : Rules} {cat : Catalogue}
    {bucket : List Handle} (hb : ∀ h ∈ bucket, h ∈ cat.entries.map Overload.handle)
    {member : Option String} {args : List Arg}
    (hexact : ∀ o ∈ cat.members bucket, o.takesExactly args = false) {o : Overload}
    (ho : r.select rules cat bucket member args = .ok o) :
    o ∈ r.mostSpecific rules (r.applicable rules args (cat.members bucket)) := by
  have hnone : (cat.members bucket).find? (·.takesExactly args) = none :=
    List.find?_eq_none.2 fun o ho => by simp [hexact o ho]
  rw [hr.select_eq_outcome rules hb, outcome, hnone] at ho
  split at ho
  · cases ho
  · simp only at ho
    split at ho
    · cases ho
    · split at ho
      · next best hbest =>
        obtain rfl := Except.ok.inj ho
        exact List.mem_of_getLast? hbest
      · cases ho

/-- Where none is exact and some overload is as specific as all that accept the arguments, one is
chosen. -/
theorem Regular.exists_select_eq_ok (hr : r.Regular) {rules : Rules} {cat : Catalogue}
    {bucket : List Handle} (hb : ∀ h ∈ bucket, h ∈ cat.entries.map Overload.handle)
    (member : Option String) {args : List Arg}
    (hexact : ∀ o ∈ cat.members bucket, o.takesExactly args = false) {o : Overload}
    (ho : o ∈ r.mostSpecific rules (r.applicable rules args (cat.members bucket))) :
    ∃ o', r.select rules cat bucket member args = .ok o' := by
  have hnone : (cat.members bucket).find? (·.takesExactly args) = none :=
    List.find?_eq_none.2 fun o ho => by simp [hexact o ho]
  have happ : r.applicable rules args (cat.members bucket) ≠ [] :=
    List.ne_nil_of_mem (mem_mostSpecific.1 ho).1
  have hbucket : bucket ≠ [] := by
    rintro rfl
    exact happ rfl
  obtain ⟨best, hbest⟩ := Option.ne_none_iff_exists'.1
    (mt List.getLast?_eq_none_iff.1 (List.ne_nil_of_mem ho))
  refine ⟨best, ?_⟩
  rw [hr.select_eq_outcome rules hb, outcome, hnone, if_neg hbucket]
  simp only [if_neg happ, hbest]

/-- Another order of the bucket has the same candidates, so what is most specific in one order is so
in the other, and one of these is chosen. -/
theorem Regular.exists_select_of_perm (hr : r.Regular) {rules : Rules} {cat : Catalogue}
    {bucket order : List Handle} (horder : order.Perm bucket)
    (hb : ∀ h ∈ bucket, h ∈ cat.entries.map Overload.handle) (member : Option String)
    {args : List Arg} (hexact : ∀ o ∈ cat.members bucket, o.takesExactly args = false)
    {o : Overload} (ho : o ∈ r.mostSpecific rules (r.applicable rules args (cat.members bucket))) :
    ∃ o' ∈ r.mostSpecific rules (r.applicable rules args (cat.members bucket)),
      r.select rules cat order member args = .ok o' := by
  have hmembers : (cat.members order).Perm (cat.members bucket) := horder.filterMap _
  have hcands : (r.applicable rules args (cat.members order)).Perm
      (r.applicable rules args (cat.members bucket)) := hmembers.filter _
  have hbest : ∀ o, o ∈ r.mostSpecific rules (r.applicable rules args (cat.members order)) ↔
      o ∈ r.mostSpecific rules (r.applicable rules args (cat.members bucket)) := by
    intro o
    simp only [mem_mostSpecific, hcands.mem_iff]
  have hb' : ∀ h ∈ order, h ∈ cat.entries.map Overload.handle := by
    intro h hh
    exact hb h (horder.mem_iff.1 hh)
  have hexact' : ∀ o ∈ cat.members order, o.takesExactly args = false := by
    intro o ho
    exact hexact o (hmembers.mem_iff.1 ho)
  obtain ⟨o', ho'⟩ := hr.exists_select_eq_ok hb' member hexact' ((hbest o).2 ho)
  exact ⟨o', (hbest o').1 (hr.mem_of_select_eq_ok hb' hexact' ho'), ho'⟩

/-- **What a bucket resolves to.**  In a registry that plain registrations lead to, under either
rules, for every bucket of handles of a catalogue and every argument list, the outcome is that of
the case distinction `outcome`.  In particular, where no overload of the bucket is of exactly the
argument types, what is chosen accepts the arguments and is as specific as all that do; and if some
overload is such, one is chosen, whatever the order of the bucket, that is as specific as it and it
as specific as that. -/
theorem Regular.select_outcome (hr : r.Regular) (rules : Rules) (cat : Catalogue)
    (bucket : List Handle) (hb : ∀ h ∈ bucket, h ∈ cat.entries.map Overload.handle)
    (member : Option String) (args : List Arg) :
    r.select rules cat bucket member args = r.outcome rules cat bucket member args ∧
      ((∀ o ∈ cat.members bucket, o.takesExactly args = false) →
        let candidates := r.applicable rules args (cat.members bucket)
        (∀ o, r.select rules cat bucket member args = .ok o →
          o ∈ candidates ∧ ∀ o' ∈ candidates, r.isAsSpecific rules o o') ∧
        ∀ o ∈ candidates, (∀ o' ∈ candidates, r.isAsSpecific rules o o') →
          ∀ order : List Handle, order.Perm bucket →
            ∃ o', r.select rules cat order member args = .ok o' ∧ o' ∈ candidates ∧
              r.isAsSpecific rules o o' ∧ r.isAsSpecific rules o' o) := by
  refine ⟨hr.select_eq_outcome rules hb member args, fun hexact => ⟨?_, ?_⟩⟩
  · intro o ho
    exact mem_mostSpecific.1 (hr.mem_of_select_eq_ok hb hexact ho)
  · intro o ho hleast order horder
    obtain ⟨o', ho', hselect⟩ :=
      hr.exists_select_of_perm horder hb member hexact (mem_mostSpecific.2 ⟨ho, hleast⟩)
    obtain ⟨hmem, hall⟩ := mem_mostSpecific.1 ho'
    exact ⟨o', hselect, hmem, hleast o' hmem, hall o ho⟩

/-- Of the three ways for a cat to meet null, the one for cats is the most specific. -/
theorem select_outcome_sample :
    let cat := (sample.catalogue default (.ofName "Cat")).toOption.getD (.empty default "")
    let bucket := (cat.methods? "meet").getD []
    sample.Regular ∧ (∀ h ∈ bucket, h ∈ cat.entries.map Overload.handle) ∧
      (cat.members bucket).map Overload.params =
        [[.ofName "Cat"], [.ofName "Animal"], [.ofName "Named"]] ∧
      (sample.select .strict cat bucket (some "meet") [.null]).toOption.map Overload.params =
        some [.ofName "Cat"] := by
  intro cat bucket
  have hb : ∀ h ∈ bucket, h ∈ cat.entries.map Overload.handle := by decide +kernel
  refine ⟨regular_sample, hb, by decide +kernel, ?_⟩
  rw [(Regular.select_outcome regular_sample .strict cat bucket hb (some "meet") [.null]).1]
  decide +kernel

end Registry
end CallResolution
