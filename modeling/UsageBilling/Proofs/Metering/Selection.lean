import Mathlib.Data.List.Nodup
import UsageBilling.Metering
import UsageBilling.Proofs.Calendar.Cycle

/-! Which records and tracking ids are selected. Sorting records is stable, so selecting some of them
before or after is the same (`filter_mergeSort`), and records that the order tells apart come into one
order whichever order they are in (`RawUsage.sorted_perm`). Tracking ids of one invoice are equal when
they have one identity, so that adding them to a set is a union (`TrackingId.mem_insertAll`). -/

namespace UsageBilling

/-! ### Records in their order -/

theorem filter_mergeSort {α : Type} {le : α → α → Bool} (trans : ∀ a b c, le a b → le b c → le a c)
    (total : ∀ a b, le a b || le b a) (p : α → Bool) (xs : List α) :
    (xs.mergeSort le).filter p = (xs.filter p).mergeSort le := by
  induction xs with
  | nil => simp
  | cons x xs ih =>
      obtain ⟨before, after, hsort, hrest, hbefore⟩ := List.mergeSort_cons trans total x xs
      have hsorted := List.pairwise_mergeSort trans total (x :: xs)
      rw [hsort] at hsorted
      rw [hrest, List.filter_append] at ih
      cases hp : p x with
      | false =>
          rw [hsort, List.filter_append, List.filter_cons_of_neg (by simp [hp]), ih,
            List.filter_cons_of_neg (by simp [hp])]
      | true =>
          obtain ⟨before', after', hsort', hrest', hbefore'⟩ := List.mergeSort_cons trans total x (xs.filter p)
          have hsorted' := List.pairwise_mergeSort trans total (x :: xs.filter p)
          rw [hsort'] at hsorted'
          rw [hrest'] at ih
          have hsplit (us vs : List α) (hus : ∀ b ∈ us, !le x b) (hvs : ∀ b ∈ vs, le x b) :
              (us ++ vs).takeWhile (fun b => !le x b) = us := by
            rw [List.takeWhile_append_of_pos hus]
            cases vs with
            | nil => simp
            | cons v vs => simp [hvs v List.mem_cons_self]
          have hafter : ∀ b ∈ after, le x b := (List.pairwise_cons.mp (List.pairwise_append.mp hsorted).2.1).1
          have hafter' : ∀ b ∈ after', le x b := (List.pairwise_cons.mp (List.pairwise_append.mp hsorted').2.1).1
          have hleft : before.filter p = before' := by
            rw [← hsplit (before.filter p) (after.filter p) (fun b hb => hbefore b (List.mem_filter.mp hb).1)
              (fun b hb => hafter b (List.mem_filter.mp hb).1), ih, hsplit before' after' hbefore' hafter']
          rw [hleft] at ih
          rw [hsort, List.filter_append, List.filter_cons_of_pos hp, List.filter_cons_of_pos hp, hsort',
            hleft, List.append_cancel_left ih]

namespace RawUsage

/-- The order of records compares dates, then unit types, then record ids. -/
theorem order_eq : order = compareLex (compareOn (·.date.ordinal))
    (compareLex (compareOn (·.unitType)) (compareOn (·.recordId))) := rfl

theorem order_isLE_trans (a b c : RawUsage) (hab : (a.order b).isLE) (hbc : (b.order c).isLE) :
    (a.order c).isLE := by
  rw [order_eq] at *
  exact Std.TransCmp.isLE_trans hab hbc

theorem order_swap (a b : RawUsage) : b.order a = (a.order b).swap := by
  rw [order_eq]
  exact Std.OrientedCmp.eq_swap

theorem order_isLE_total (a b : RawUsage) : (a.order b).isLE || (b.order a).isLE := by
  rw [order_swap a b]
  cases a.order b <;> rfl

/-- What the order of records compares. -/
def orderKey (r : RawUsage) : Date × String × Int := (r.date, r.unitType, r.recordId)

theorem order_eq_iff {a b : RawUsage} : a.order b = .eq ↔ a.orderKey = b.orderKey := by
  have hdate : a.date.ordinal = b.date.ordinal ↔ a.date = b.date := ⟨Date.ext, congrArg Date.ordinal⟩
  rw [order, Ordering.then_eq_eq, Ordering.then_eq_eq, Std.compare_eq_iff_eq, Std.compare_eq_iff_eq,
    Std.compare_eq_iff_eq, hdate, orderKey, orderKey, Prod.mk.injEq, Prod.mk.injEq]

/-- Records that the order tells apart come into one order, whichever order they are in. -/
theorem sorted_perm {records records' : List RawUsage} (hperm : records'.Perm records)
    (hdistinct : (records.map orderKey).Nodup) : sorted records' = sorted records := by
  have hsorted (rs : List RawUsage) : (sorted rs).Pairwise fun a b => (a.order b).isLE = true :=
    List.pairwise_mergeSort order_isLE_trans order_isLE_total rs
  have hmem {rs : List RawUsage} {r : RawUsage} (hr : r ∈ sorted rs) : r ∈ rs :=
    (List.mergeSort_perm rs _).mem_iff.mp hr
  refine List.Perm.eq_of_pairwise (fun a b ha hb hab hba => ?_) (hsorted records') (hsorted records)
    ((List.mergeSort_perm records' _).trans (hperm.trans (List.mergeSort_perm records _).symm))
  refine List.inj_on_of_nodup_map hdistinct (hperm.mem_iff.mp (hmem ha)) (hmem hb) (order_eq_iff.mp ?_)
  rw [order_swap a b] at hba
  revert hab hba
  cases a.order b <;> decide

theorem filter_ofSubscription (p : RawUsage → Bool) (records : List RawUsage) (id : String) :
    (ofSubscription records id).filter p = sorted ((records.filter (·.subscriptionId = id)).filter p) :=
  filter_mergeSort order_isLE_trans order_isLE_total p _

end RawUsage

/-! ### Tracking ids -/

namespace TrackingId

theorem order_eq_iff {t u : TrackingId} (h : t.invoiceId = u.invoiceId) : t.order u = .eq ↔ t = u := by
  have hdate : t.recordDate.ordinal = u.recordDate.ordinal ↔ t.recordDate = u.recordDate :=
    ⟨Date.ext, congrArg Date.ordinal⟩
  rw [order, Ordering.then_eq_eq, Ordering.then_eq_eq, Ordering.then_eq_eq, Std.compare_eq_iff_eq,
    Std.compare_eq_iff_eq, Std.compare_eq_iff_eq, Std.compare_eq_iff_eq, hdate]
  cases t
  cases u
  simp only [mk.injEq] at h ⊢
  tauto

theorem isIn_congr {t u : TrackingId} (h : t.order u = .eq) (set : List TrackingId) : t.isIn set = u.isIn set := by
  have hsame : ({ t with invoiceId := u.invoiceId } : TrackingId) = u := by
    apply (order_eq_iff _).mp
    · exact h
    · rfl
  rw [← hsame]
  rfl

theorem mem_insert {inv : Option String} {t : TrackingId} {set : List TrackingId} (ht : t.invoiceId = inv)
    (hset : ∀ u ∈ set, u.invoiceId = inv) (x : TrackingId) : x ∈ insert t set ↔ x = t ∨ x ∈ set := by
  induction set with
  | nil => simp [insert]
  | cons u us ih =>
      have hus := ih fun v hv => hset v (List.mem_cons_of_mem u hv)
      rw [insert]
      cases ho : t.order u with
      | lt => simp
      | gt => 
          simp only [List.mem_cons, hus]
          tauto
      | eq =>
          obtain rfl := (order_eq_iff (ht.trans (hset u List.mem_cons_self).symm)).mp ho
          simp

theorem mem_insertAll {inv : Option String} {ts set : List TrackingId} (hts : ∀ t ∈ ts, t.invoiceId = inv)
    (hset : ∀ u ∈ set, u.invoiceId = inv) (x : TrackingId) : x ∈ insertAll set ts ↔ x ∈ set ∨ x ∈ ts := by
  induction ts generalizing set with
  | nil => simp [insertAll]
  | cons t ts ih =>
      have ht := hts t List.mem_cons_self
      have hinsert := mem_insert ht hset
      rw [insertAll, List.foldl_cons, ← insertAll, ih (fun u hu => hts u (List.mem_cons_of_mem t hu)), hinsert,
        List.mem_cons]
      · tauto
      · intro u hu
        rcases (hinsert u).mp hu with rfl | hu
        · exact ht
        · exact hset u hu

/-- Of tracking ids of one invoice, a set has one just when it is in it. -/
theorem isIn_iff {inv : Option String} {t : TrackingId} {set : List TrackingId} (ht : t.invoiceId = inv)
    (hset : ∀ u ∈ set, u.invoiceId = inv) : t.isIn set = true ↔ t ∈ set := by
  rw [isIn, List.any_eq_true]
  constructor
  · rintro ⟨u, hu, h⟩
    rwa [(order_eq_iff (ht.trans (hset u hu).symm)).mp (by simpa using h)]
  · intro h
    exact ⟨t, h, by simpa using (order_eq_iff rfl).mpr rfl⟩

end TrackingId

end UsageBilling
