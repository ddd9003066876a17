import UsageBilling.Interval.Buckets
import UsageBilling.Proofs.Calendar.Cycle

/-! The schedule of an interval. Building freezes the interval; its buckets and the next notification
are those of the frozen one (`built_eq_ok`). The boundaries of the buckets grow from the start of the
interval to its end (`boundaries_sorted`, `boundaries_bounds`), so each bucket ends before the next one
begins, and all lie between the start and the end of the interval (`buckets_pairwise`). -/

namespace UsageBilling.Interval

/-! ### Building -/

/-- The interval once it no longer accumulates. -/
def frozen (i : Interval) (closed : Bool) : Interval :=
  { i with stage := if closed then .closed else .active }

theorem built_eq_ok {i j : Interval} {closed : Bool} : i.built closed = .ok j ↔
    i.stage = .accumulating ∧ i.events ≠ [] ∧
    ∃ buckets next, (i.frozen closed).computeBuckets = .ok buckets ∧
      ({ i.frozen closed with buckets } : Interval).computeNotification = .ok next ∧
      j = { i.frozen closed with buckets, nextNotification := next } := by
  rw [built, build, isBuilt]
  by_cases hstage : i.stage = .accumulating
  · rw [if_neg (by simpa using hstage)]
    by_cases hevents : i.events = []
    · simp [hevents]
    · rw [if_neg hevents, ← frozen]
      dsimp only
      cases hb : (i.frozen closed).computeBuckets with
      | error e => simp
      | ok buckets =>
          dsimp only
          cases hn : ({ i.frozen closed with buckets } : Interval).computeNotification with
          | error e => simp [hn]
          | ok next => simp [hstage, hevents, hn, eq_comm]
  · rw [if_pos (by simpa using hstage)]
    simp [hstage]

/-! ### Boundaries -/

/-- Whether a date lies before an end, if there is one. -/
def beforeEnd (finish : Option Date) (d : Date) : Bool :=
  match finish with
  | some f => d < f
  | none => true

/-- The boundary at the end of an interval, once the target has reached it. -/
def endBoundary (start target : Date) (finish : Option Date) : List Date :=
  match finish with
  | some f => if start < f ∧ f ≤ target then [f] else []
  | none => []

theorem mem_endBoundary {start target b : Date} {finish : Option Date} :
    b ∈ endBoundary start target finish ↔ finish = some b ∧ start < b ∧ b ≤ target := by
  cases finish with
  | none => simp [endBoundary]
  | some f =>
      rw [endBoundary, Option.some.injEq]
      split
      next hf =>
        rw [List.mem_singleton]
        constructor
        · rintro rfl
          exact ⟨rfl, hf⟩
        · rintro ⟨rfl, -⟩
          rfl
      next hf =>
        refine iff_of_false List.not_mem_nil ?_
        rintro ⟨rfl, h⟩
        exact hf h

variable {i : Interval}

theorem boundaries_eq_ok {bs : List Date} : i.boundaries = .ok bs ↔ ∃ start finish first,
    i.startDate = .ok start ∧ i.endDate = .ok finish ∧ i.firstEvent = .ok first ∧
    (i.terms.target < start ∧ bs = [start] ∨ ¬ i.terms.target < start ∧ ∃ cycle,
      BillingCycle.datesUpTo start first.cycleDay i.usage.period i.terms.target (beforeEnd finish) = .ok cycle ∧
      bs = start :: cycle ++ endBoundary start i.terms.target finish) := by
  rw [boundaries]
  constructor
  · intro h
    obtain ⟨start, hstart, h⟩ := bind_eq_ok.mp h
    obtain ⟨finish, hfinish, h⟩ := bind_eq_ok.mp h
    obtain ⟨first, hfirst, h⟩ := bind_eq_ok.mp h
    refine ⟨start, finish, first, hstart, hfinish, hfirst, ?_⟩
    split at h
    next hearly => exact Or.inl ⟨hearly, (pure_eq_ok.mp h).symm⟩
    next hlate =>
      obtain ⟨cycle, hcycle, h⟩ := bind_eq_ok.mp h
      exact Or.inr ⟨hlate, cycle, hcycle, (pure_eq_ok.mp h).symm⟩
  · rintro ⟨start, finish, first, hstart, hfinish, hfirst, h⟩
    refine bind_eq_ok.mpr ⟨start, hstart, bind_eq_ok.mpr ⟨finish, hfinish, bind_eq_ok.mpr ⟨first, hfirst, ?_⟩⟩⟩
    rcases h with ⟨hearly, rfl⟩ | ⟨hlate, cycle, hcycle, rfl⟩
    · rw [if_pos hearly]
      rfl
    · rw [if_neg hlate]
      exact bind_eq_ok.mpr ⟨cycle, hcycle, rfl⟩

/-- The boundaries follow the start one after the other, up to the target and to the end. -/
theorem boundaries_spec {start : Date} {finish : Option Date} {bs : List Date} (hstart : i.startDate = .ok start)
    (hfinish : i.endDate = .ok finish) (h : i.boundaries = .ok bs) : ∃ rest, bs = start :: rest ∧
      rest.Pairwise (· < ·) ∧ ∀ b ∈ rest, start < b ∧ b ≤ i.terms.target ∧ ∀ f, finish = some f → b ≤ f := by
  obtain ⟨start', finish', first, hstart', hfinish', -, h⟩ := boundaries_eq_ok.mp h
  obtain rfl : start = start' := Except.ok.inj (hstart.symm.trans hstart')
  obtain rfl : finish = finish' := Except.ok.inj (hfinish.symm.trans hfinish')
  rcases h with ⟨-, rfl⟩ | ⟨hlate, cycle, hcycle, rfl⟩
  · exact ⟨[], rfl, .nil, by simp⟩
  obtain ⟨d, hdates, -, -⟩ := (BillingCycle.datesUpTo_eq_ok (Nat.not_lt.mp hlate)).mp hcycle
  have hin : ∀ b ∈ cycle, start < b ∧ b ≤ i.terms.target ∧ ∀ f, finish = some f → b < f := by
    intro b hb
    obtain ⟨j, hj⟩ := List.mem_iff_getElem?.mp hb
    obtain ⟨hdate, htarget, hkeep⟩ := hdates j b hj
    refine ⟨?_, htarget, ?_⟩
    · have := BillingCycle.start_add_lt_date hdate
      rw [Date.lt_def]
      omega
    · rintro f rfl
      exact of_decide_eq_true hkeep
  have hsorted : cycle.Pairwise (· < ·) := by
    rw [List.pairwise_iff_getElem]
    intro j k hj hk hjk
    exact BillingCycle.date_lt_date hjk (hdates j _ (List.getElem?_eq_getElem hj)).1
      (hdates k _ (List.getElem?_eq_getElem hk)).1
  have hone : (endBoundary start i.terms.target finish).Pairwise (· < ·) := by
    cases finish with
    | none => exact .nil
    | some f =>
        rw [endBoundary]
        split
        · exact List.pairwise_singleton _ _
        · exact .nil
  refine ⟨cycle ++ endBoundary start i.terms.target finish, rfl,
    List.pairwise_append.mpr ⟨hsorted, hone, fun b hb c hc => ?_⟩, fun b hb => ?_⟩
  · exact (hin b hb).2.2 c (mem_endBoundary.mp hc).1
  · rcases List.mem_append.mp hb with hb | hb
    · obtain ⟨hlt, hle, hend⟩ := hin b hb
      exact ⟨hlt, hle, fun f hf => Nat.le_of_lt (hend f hf)⟩
    · obtain ⟨hf, hlt, hle⟩ := mem_endBoundary.mp hb
      refine ⟨hlt, hle, fun f hf' => ?_⟩
      obtain rfl : b = f := Option.some.inj (hf.symm.trans hf')
      exact Nat.le_refl _

/-! ### Buckets -/

def spans (bs : List Date) : List (Date × Date) := bs.zip bs.tail

theorem spans_cons_cons (a b : Date) (bs : List Date) : spans (a :: b :: bs) = (a, b) :: spans (b :: bs) := rfl

theorem mem_spans {p : Date × Date} {bs : List Date} (h : p ∈ spans bs) : p.1 ∈ bs ∧ p.2 ∈ bs.tail :=
  ⟨(List.of_mem_zip h).1, (List.of_mem_zip h).2⟩

/-- Spans between growing boundaries begin before they end, and one ends before the next begins. -/
theorem spans_sorted {bs : List Date} (h : bs.Pairwise (· < ·)) :
    (∀ p ∈ spans bs, p.1 < p.2) ∧ (spans bs).Pairwise fun p q => p.2 ≤ q.1 := by
  induction bs with
  | nil => exact ⟨by simp [spans], .nil⟩
  | cons a bs ih =>
      cases bs with
      | nil => exact ⟨by simp [spans], .nil⟩
      | cons b bs =>
          obtain ⟨ha, hbs⟩ := List.pairwise_cons.mp h
          obtain ⟨hlt, hsorted⟩ := ih hbs
          rw [spans_cons_cons]
          refine ⟨List.forall_mem_cons.mpr ⟨ha b List.mem_cons_self, hlt⟩,
            List.pairwise_cons.mpr ⟨fun q hq => ?_, hsorted⟩⟩
          rcases List.mem_cons.mp (mem_spans hq).1 with h | h
          · rw [h]
            exact Nat.le_refl _
          · exact Nat.le_of_lt ((List.pairwise_cons.mp hbs).1 _ h)

theorem spans_append {bs : List Date} (hne : bs ≠ []) (more : List Date) :
    ∃ ps, spans (bs ++ more) = spans bs ++ ps ∧ ∀ p ∈ ps, p.2 ∈ more := by
  induction bs with
  | nil => exact absurd rfl hne
  | cons a bs ih =>
      cases bs with
      | nil => exact ⟨spans (a :: more), rfl, fun p hp => (mem_spans hp).2⟩
      | cons b bs =>
          obtain ⟨ps, hps, hmore⟩ := ih (List.cons_ne_nil _ _)
          refine ⟨ps, ?_, hmore⟩
          rw [List.cons_append, List.cons_append, spans_cons_cons, ← List.cons_append, hps, spans_cons_cons,
            List.cons_append]

def bucketOf (i : Interval) (p : Date × Date) : Except Error Bucket := do
  let eventIndex ← i.eventIndexAt p.1
  return ⟨max p.1 i.terms.rawUsageStart, p.2, eventIndex, p.1⟩

theorem mapM_bucketBetween (i : Interval) (ps : List (Date × Date)) :
    (ps.mapM (fun (start, finish) => i.bucketBetween start finish) >>= fun found =>
      pure (found.filterMap id)) = (ps.filter fun p => i.terms.rawUsageStart < p.2).mapM i.bucketOf := by
  induction ps with
  | nil => rfl
  | cons p ps ih =>
      obtain ⟨start, finish⟩ := p
      rw [List.mapM_cons]
      dsimp only
      rw [bucketBetween]
      by_cases hraw : finish ≤ i.terms.rawUsageStart
      · have hfilter : ¬ i.terms.rawUsageStart < finish := Nat.not_lt.mpr hraw
        rw [if_pos hraw, List.filter_cons_of_neg (by simpa using hfilter), ← ih]
        cases ps.mapM (fun (start, finish) => i.bucketBetween start finish) <;> rfl
      · have hfilter : i.terms.rawUsageStart < finish := Nat.not_le.mp hraw
        rw [if_neg hraw, List.filter_cons_of_pos (by simpa using hfilter), List.mapM_cons, ← ih, bucketOf]
        cases i.eventIndexAt start with
        | error _ => rfl
        | ok index =>
            cases ps.mapM (fun (start, finish) => i.bucketBetween start finish) <;> rfl

/-- The buckets are those of the spans that do not lie before the raw usage start. -/
theorem computeBuckets_eq_ok {buckets : List Bucket} : i.computeBuckets = .ok buckets ↔ ∃ bs,
    i.boundaries = .ok bs ∧
      ((spans bs).filter fun p => i.terms.rawUsageStart < p.2).mapM i.bucketOf = .ok buckets := by
  rw [computeBuckets, bind_eq_ok]
  refine exists_congr fun bs => and_congr_right fun _ => ?_
  rw [← mapM_bucketBetween, spans]

theorem bucketOf_eq_ok {p : Date × Date} {b : Bucket} (h : i.bucketOf p = .ok b) :
    b.alignedStart = p.1 ∧ b.finish = p.2 ∧ b.start = max p.1 i.terms.rawUsageStart ∧
      i.eventIndexAt p.1 = .ok b.eventIndex := by
  obtain ⟨index, hindex, h⟩ := bind_eq_ok.mp h
  obtain rfl := pure_eq_ok.mp h
  exact ⟨rfl, rfl, rfl, hindex⟩

/-- A bucket lies between the start and the end of its interval, up to the target, and is not empty; the
raw usage start clips it at its start. -/
structure Encloses (i : Interval) (start : Date) (finish : Option Date) (b : Bucket) : Prop where
  after_start : start ≤ b.alignedStart
  nonempty : b.alignedStart < b.finish
  clipped : b.start = max b.alignedStart i.terms.rawUsageStart
  clipped_nonempty : b.start < b.finish
  reached : b.finish ≤ i.terms.target
  before_finish : ∀ f, finish = some f → b.finish ≤ f

theorem buckets_spec {start : Date} {finish : Option Date} {buckets : List Bucket}
    (hstart : i.startDate = .ok start) (hfinish : i.endDate = .ok finish)
    (h : i.computeBuckets = .ok buckets) : (∀ b ∈ buckets, i.Encloses start finish b) ∧
      buckets.Pairwise fun b c => b.finish ≤ c.alignedStart := by
  obtain ⟨bs, hbs, hbuckets⟩ := computeBuckets_eq_ok.mp h
  obtain ⟨rest, rfl, hsorted, hrest⟩ := boundaries_spec hstart hfinish hbs
  have hgrow : (start :: rest).Pairwise (· < ·) := List.pairwise_cons.mpr ⟨fun b hb => (hrest b hb).1, hsorted⟩
  obtain ⟨hlt, hspans⟩ := spans_sorted hgrow
  have hall := mapM_eq_ok.mp hbuckets
  constructor
  · intro b hb
    obtain ⟨p, hp, hpb⟩ := exists_of_forall₂_right hall hb
    obtain ⟨hp, hraw⟩ := List.mem_filter.mp hp
    obtain ⟨halign, hfin, hclip, -⟩ := bucketOf_eq_ok hpb
    obtain ⟨-, hreached, hend⟩ := hrest p.2 (mem_spans hp).2
    have hnonempty := hlt p hp
    have hraw : i.terms.rawUsageStart < p.2 := of_decide_eq_true hraw
    refine ⟨?_, by rwa [halign, hfin], by rw [hclip, halign], ?_, by rwa [hfin], fun f hf => hfin ▸ hend f hf⟩
    · rw [halign]
      rcases List.mem_cons.mp (mem_spans hp).1 with h | h
      · exact Nat.le_of_eq (congrArg Date.ordinal h.symm)
      · exact Nat.le_of_lt (hrest _ h).1
    · rw [hclip, hfin]
      exact Date.max_lt hnonempty hraw
  · refine pairwise_of_forall₂ hall (fun p b q c hb hc h => ?_) (hspans.filter _)
    rwa [(bucketOf_eq_ok hb).2.1, (bucketOf_eq_ok hc).1]

end UsageBilling.Interval
