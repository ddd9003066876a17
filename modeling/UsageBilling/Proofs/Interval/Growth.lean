import UsageBilling.Proofs.Interval.Repetition
import UsageBilling.Proofs.Interval.Schedule

/-! An interval that is built again later: further events were recorded, all of them after the first target, and
the target may have moved on (`Grows`). The buckets that were reached before stay as they are and later
ones follow them (`Grows.buckets`); each of the old buckets is billed as before (`Grows.billsAs`). -/

namespace UsageBilling.Interval

/-- An interval as it is built after further events, up to the same or a later target. -/
structure Grows (i j : Interval) : Prop where
  usage : i.usage = j.usage
  zone : i.terms.zone = j.terms.zone
  rawUsageStart : i.terms.rawUsageStart = j.terms.rawUsageStart
  target : i.terms.target ≤ j.terms.target
  nonempty : i.events ≠ []
  events : ∃ more, j.events = i.events ++ more ∧
    ∀ e ∈ more, ∀ d, j.dateOf e.event = .ok d → i.terms.target < d
  ended : i.isClosed = true → j.isClosed = true ∧ j.events = i.events
  ongoing : i.isClosed = false → ∀ f, j.endDate = .ok (some f) → i.terms.target < f

/-! ### Boundaries -/

/-- The end of an interval that is built again: it is the same, or the interval had none and ends after the target. -/
def EndStays (target : Date) (finish finish' : Option Date) : Prop :=
  finish = finish' ∨ finish = none ∧ ∀ f, finish' = some f → target < f

theorem beforeEnd_eq {target d : Date} {finish finish' : Option Date} (h : EndStays target finish finish')
    (hd : d ≤ target) : beforeEnd finish' d = beforeEnd finish d := by
  rcases h with rfl | ⟨rfl, hafter⟩
  · rfl
  · cases finish' with
    | none => rfl
    | some f =>
        have hlt := hafter f rfl
        refine decide_eq_true ?_
        rw [Date.lt_def, Date.le_def] at *
        omega

/-- The boundary at the end stays, and it follows further ones only where it lies after the target. -/
theorem endBoundary_grow (start : Date) {target target' : Date} {finish finish' : Option Date}
    (h : EndStays target finish finish') (htarget : target ≤ target') {more : List Date}
    (hmore : ∀ d ∈ more, target < d ∧ beforeEnd finish' d = true) : ∃ later,
    more ++ endBoundary start target' finish' = endBoundary start target finish ++ later ∧
      ∀ d ∈ later, target < d := by
  by_cases hreached : ∃ f, finish' = some f ∧ f ≤ target
  · obtain ⟨f, rfl, hf⟩ := hreached
    obtain rfl : finish = some f := by
      rcases h with rfl | ⟨-, hafter⟩
      · rfl
      · exact absurd (hafter f rfl) (Nat.not_lt.mpr hf)
    obtain rfl : more = [] := by
      refine List.eq_nil_iff_forall_not_mem.mpr fun d hd => ?_
      obtain ⟨hlt, hbefore⟩ := hmore d hd
      have hbefore : d < f := of_decide_eq_true hbefore
      rw [Date.lt_def, Date.le_def] at *
      omega
    refine ⟨[], ?_, by simp⟩
    have hf' : f ≤ target' := Nat.le_trans hf htarget
    rw [List.nil_append, List.append_nil, endBoundary, endBoundary]
    simp only [hf, hf', and_true]
  · have hnone : endBoundary start target finish = [] := by
      refine List.eq_nil_iff_forall_not_mem.mpr fun d hd => ?_
      obtain ⟨rfl, -, hd⟩ := mem_endBoundary.mp hd
      rcases h with rfl | ⟨hopen, -⟩
      · exact hreached ⟨d, rfl, hd⟩
      · cases hopen
    refine ⟨more ++ endBoundary start target' finish', by rw [hnone, List.nil_append], fun d hd => ?_⟩
    rcases List.mem_append.mp hd with hd | hd
    · exact (hmore d hd).1
    · exact Nat.not_le.mp fun hle => hreached ⟨d, (mem_endBoundary.mp hd).1, hle⟩

namespace Grows

variable {i j : Interval}

theorem dateOf_eq (h : Grows i j) : i.dateOf = j.dateOf := by
  funext e
  rw [dateOf, dateOf, h.zone]

theorem firstEvent_eq (h : Grows i j) : i.firstEvent = j.firstEvent := by
  obtain ⟨more, hmore, -⟩ := h.events
  obtain ⟨e, es, he⟩ := List.exists_cons_of_ne_nil h.nonempty
  rw [firstEvent, firstEvent, hmore, he]
  rfl

theorem startDate_eq (h : Grows i j) : i.startDate = j.startDate := by
  rw [startDate, startDate, h.firstEvent_eq, h.dateOf_eq]

/-- An interval that had ended ends as before; one that had not ends after the target. -/
theorem endDate (h : Grows i j) {finish finish' : Option Date} (hi : i.endDate = .ok finish)
    (hj : j.endDate = .ok finish') : EndStays i.terms.target finish finish' := by
  cases hclosed : i.isClosed with
  | true =>
      obtain ⟨hclosed', hevents⟩ := h.ended hclosed
      have hsame : i.endDate = j.endDate := by
        rw [Interval.endDate, Interval.endDate, hclosed, hclosed', hevents, h.dateOf_eq]
      exact Or.inl (Except.ok.inj (hi.symm.trans (hsame.trans hj)))
  | false =>
      rw [Interval.endDate, hclosed] at hi
      refine Or.inr ⟨(Except.ok.inj hi).symm, fun f hf => h.ongoing hclosed f (by rw [hj, hf])⟩

/-- The boundaries stay, and all further ones lie after the target. -/
theorem boundaries (h : Grows i j) {bs bs' : List Date} (hi : i.boundaries = .ok bs) (hj : j.boundaries = .ok bs') :
    bs ≠ [] ∧ ∃ more, bs' = bs ++ more ∧ ∀ d ∈ more, i.terms.target < d := by
  obtain ⟨start, finish, first, hstart, hfinish, hfirst, hcases⟩ := boundaries_eq_ok.mp hi
  obtain ⟨start', finish', first', hstart', hfinish', hfirst', hcases'⟩ := boundaries_eq_ok.mp hj
  obtain rfl : start = start' := Except.ok.inj (hstart.symm.trans (h.startDate_eq.trans hstart'))
  obtain rfl : first = first' := Except.ok.inj (hfirst.symm.trans (h.firstEvent_eq.trans hfirst'))
  have hend := h.endDate hfinish hfinish'
  have htarget := h.target
  rw [← h.usage] at hcases'
  rcases hcases with ⟨hearly, rfl⟩ | ⟨hlate, cycle, hcycle, rfl⟩
  · obtain ⟨rest, rfl, -, hrest⟩ := boundaries_spec hstart' hfinish' hj
    refine ⟨List.cons_ne_nil _ _, rest, rfl, fun d hd => ?_⟩
    have hafter := (hrest d hd).1
    rw [Date.lt_def] at *
    omega
  refine ⟨List.cons_ne_nil _ _, ?_⟩
  have hlate' : ¬ j.terms.target < start := by
    rw [Date.lt_def, Date.le_def] at *
    omega
  obtain ⟨cycle', hcycle', rfl⟩ : ∃ cycle', BillingCycle.datesUpTo start first.cycleDay i.usage.period
      j.terms.target (beforeEnd finish') = .ok cycle' ∧
      bs' = start :: cycle' ++ endBoundary start j.terms.target finish' := by
    rcases hcases' with ⟨hearly, -⟩ | ⟨-, hcycle'⟩
    · exact absurd hearly hlate'
    · exact hcycle'
  obtain ⟨more, rfl, hmore⟩ :=
    BillingCycle.datesUpTo_grow (Nat.not_lt.mp hlate) h.target (fun _ => beforeEnd_eq hend) hcycle hcycle'
  obtain ⟨later, hsame, hlater⟩ := endBoundary_grow start hend h.target hmore
  refine ⟨later, ?_, hlater⟩
  rw [List.cons_append, List.append_assoc, hsame, List.cons_append, List.cons_append, List.append_assoc]

end Grows

/-! ### The event in force -/

/-- Events after a day have no part in which event is in force on it. -/
theorem foldlM_index_of_after {i : Interval} {day : Date} {es : List (IntervalEvent × Nat)} {index found : Nat}
    (hafter : ∀ p ∈ es, ∀ d, i.dateOf p.1.event = .ok d → day < d)
    (h : es.foldlM (fun index (p : IntervalEvent × Nat) => do
      let d ← i.dateOf p.1.event
      return if d ≤ day then p.2 else index) index = .ok found) : found = index := by
  induction es with
  | nil => exact (pure_eq_ok.mp h).symm
  | cons p es ih =>
      obtain ⟨hp, hafter⟩ := List.forall_mem_cons.mp hafter
      obtain ⟨index', hindex, h⟩ := foldlM_cons_eq_ok.mp h
      obtain ⟨d, hd, hindex⟩ := bind_eq_ok.mp hindex
      have hnot : ¬ d ≤ day := Nat.not_le.mpr (hp d hd)
      rw [if_neg hnot] at hindex
      obtain rfl := pure_eq_ok.mp hindex
      exact ih hafter h

theorem foldlM_index_lt {i : Interval} {day : Date} {es : List (IntervalEvent × Nat)} {index found n : Nat}
    (hes : ∀ p ∈ es, p.2 < n) (hindex : index < n)
    (h : es.foldlM (fun index (p : IntervalEvent × Nat) => do
      let d ← i.dateOf p.1.event
      return if d ≤ day then p.2 else index) index = .ok found) : found < n := by
  induction es generalizing index with
  | nil => exact pure_eq_ok.mp h ▸ hindex
  | cons p es ih =>
      obtain ⟨hp, hes⟩ := List.forall_mem_cons.mp hes
      obtain ⟨index', hstep, h⟩ := foldlM_cons_eq_ok.mp h
      obtain ⟨d, -, hstep⟩ := bind_eq_ok.mp hstep
      refine ih hes ?_ h
      rw [← pure_eq_ok.mp hstep]
      split
      · exact hp
      · exact hindex

theorem eventIndexAt_lt {i : Interval} {day : Date} {n : Nat} (hne : i.events ≠ []) (h : i.eventIndexAt day = .ok n) :
    n < i.events.length := by
  refine foldlM_index_lt (fun p hp => ?_) (List.length_pos_iff.mpr hne) h
  exact (List.mem_zipIdx' hp).1

namespace Grows

variable {i j : Interval}

theorem eventIndexAt_eq (h : Grows i j) {day : Date} (hday : day ≤ i.terms.target) {m n : Nat}
    (hi : i.eventIndexAt day = .ok m) (hj : j.eventIndexAt day = .ok n) : m = n := by
  obtain ⟨more, hmore, hafter⟩ := h.events
  rw [eventIndexAt, hmore, List.zipIdx_append, List.foldlM_append] at hj
  obtain ⟨m', hm', hj⟩ := bind_eq_ok.mp hj
  rw [eventIndexAt, h.dateOf_eq] at hi
  obtain rfl : m = m' := Except.ok.inj (hi.symm.trans hm')
  refine (foldlM_index_of_after (fun p hp d hd => ?_) hj).symm
  exact Nat.lt_of_le_of_lt hday (hafter p.1 (List.fst_mem_of_mem_zipIdx hp) d hd)

/-! ### Buckets -/

/-- The buckets that were reached stay, and all further ones end after the target. -/
theorem buckets (h : Grows i j) {bs bs' : List Bucket} (hi : i.computeBuckets = .ok bs)
    (hj : j.computeBuckets = .ok bs') :
    ∃ more, bs' = bs ++ more ∧ ∀ b ∈ more, i.terms.target < b.finish := by
  obtain ⟨ds, hds, hbs⟩ := computeBuckets_eq_ok.mp hi
  obtain ⟨ds', hds', hbs'⟩ := computeBuckets_eq_ok.mp hj
  obtain ⟨hne, days, rfl, hdays⟩ := h.boundaries hds hds'
  obtain ⟨start, finish, -, hstart, hfinish, -⟩ := boundaries_eq_ok.mp hds
  obtain ⟨rest, hrest, hsorted, hreached⟩ := boundaries_spec hstart hfinish hds
  obtain ⟨ps, hps, hpsmore⟩ := spans_append hne days
  rw [hps, List.filter_append, ← h.rawUsageStart] at hbs'
  obtain ⟨us, vs, hus, hvs, rfl⟩ := mapM_append_eq_ok.mp hbs'
  have hspan : ∀ p ∈ spans ds, p.1 ≤ i.terms.target := by
    intro p hp
    have hgrow : ds.Pairwise (· < ·) := hrest ▸ List.pairwise_cons.mpr ⟨fun d hd => (hreached d hd).1, hsorted⟩
    have hlt := (spans_sorted hgrow).1 p hp
    have hle := (hreached p.2 (by simpa [hrest] using (mem_spans hp).2)).2.1
    rw [Date.lt_def, Date.le_def] at *
    omega
  have hsame : bs = us := by
    refine eq_of_mapM_eq_ok hbs hus fun p hp b c hb hc => ?_
    obtain ⟨index, hindex, hb⟩ := bind_eq_ok.mp hb
    obtain ⟨index', hindex', hc⟩ := bind_eq_ok.mp hc
    rw [← pure_eq_ok.mp hb, ← pure_eq_ok.mp hc, h.rawUsageStart,
      h.eventIndexAt_eq (hspan p (List.mem_filter.mp hp).1) hindex hindex']
  refine ⟨vs, by rw [hsame], fun b hb => ?_⟩
  obtain ⟨p, hp, hpb⟩ := exists_of_forall₂_right (mapM_eq_ok.mp hvs) hb
  rw [(bucketOf_eq_ok hpb).2.1]
  exact hdays p.2 (hpsmore p (List.mem_filter.mp hp).1)

theorem getElem?_eventIndex (h : Grows i j) {bs : List Bucket} (hi : i.computeBuckets = .ok bs) {b : Bucket}
    (hb : b ∈ bs) : j.events[b.eventIndex]? = i.events[b.eventIndex]? := by
  obtain ⟨more, hmore, -⟩ := h.events
  obtain ⟨ds, -, hbs⟩ := computeBuckets_eq_ok.mp hi
  obtain ⟨p, -, hpb⟩ := exists_of_forall₂_right (mapM_eq_ok.mp hbs) hb
  rw [hmore, List.getElem?_append_left (eventIndexAt_lt h.nonempty (bucketOf_eq_ok hpb).2.2.2)]

theorem governingUnitTypes_eq (h : Grows i j) {bs bs' : List Bucket} (hi : i.computeBuckets = .ok bs)
    (hj : j.computeBuckets = .ok bs') {b : Bucket} (hb : b ∈ bs) : i.governingUnitTypes b = j.governingUnitTypes b := by
  obtain ⟨ds, hds, -⟩ := computeBuckets_eq_ok.mp hi
  obtain ⟨ds', hds', -⟩ := computeBuckets_eq_ok.mp hj
  obtain ⟨start, finish, -, hstart, hfinish, -⟩ := boundaries_eq_ok.mp hds
  obtain ⟨-, finish', -, -, hfinish', -⟩ := boundaries_eq_ok.mp hds'
  have hindex := h.getElem?_eventIndex hi hb
  rw [governingUnitTypes, governingUnitTypes, hfinish, hfinish', hindex, h.usage, ok_bind, ok_bind]
  cases hclosed : i.isClosed with
  | true =>
      obtain ⟨hclosed', hevents⟩ := h.ended hclosed
      have hsame : finish = finish' := by
        refine Except.ok.inj (hfinish.symm.trans (Eq.trans ?_ hfinish'))
        rw [Interval.endDate, Interval.endDate, hclosed, hclosed', hevents, h.dateOf_eq]
      rw [hsame, hevents]
  | false =>
      have hreached := ((buckets_spec hstart hfinish hi).1 b hb).reached
      rw [Interval.endDate, hclosed] at hfinish
      obtain rfl : none = finish := Except.ok.inj hfinish
      have hne : finish' ≠ some b.finish := by
        rintro rfl
        exact absurd hreached (Nat.not_le.mpr (h.ongoing hclosed _ hfinish'))
      dsimp only
      rw [if_neg (by simp), if_neg (by simp [hne])]

/-- A bucket that was reached is billed as before, where the terms and its records are the same. -/
theorem billsAs (h : Grows i j) {bs bs' : List Bucket} (hi : i.computeBuckets = .ok bs)
    (hj : j.computeBuckets = .ok bs') {b : Bucket} (hb : b ∈ bs) (haccount : i.terms.accountId = j.terms.accountId)
    (hinvoice : i.terms.invoiceId = j.terms.invoiceId) (hmode : i.terms.detailMode = j.terms.detailMode)
    (hzero : i.terms.zeroAmountDisabled = j.terms.zeroAmountDisabled)
    (hrecords : ∀ types, i.terms.rawUsage.filter (RolledUsage.counts b.start b.finish types) =
      j.terms.rawUsage.filter (RolledUsage.counts b.start b.finish types)) : BillsAs i j b where
  usage := h.usage
  event := by rw [h.getElem?_eventIndex hi hb]
  unitTypes := h.governingUnitTypes_eq hi hj hb
  accountId := haccount
  invoiceId := hinvoice
  detailMode := hmode
  zeroAmountDisabled := hzero
  records := hrecords

end Grows
end UsageBilling.Interval
