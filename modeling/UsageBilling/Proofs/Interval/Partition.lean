import UsageBilling.Proofs.Interval.Targets

/-! The window that the buckets of an interval cover. Its last boundary is the end of the interval, the last
cycle date that was reached, or the start when neither was (`LastBoundary`), and the boundaries are the start,
the cycle dates before the last boundary, and the last boundary (`Layout`). The buckets are the spans
between neighbouring boundaries from the one that holds the raw usage start on, so that they follow one another
without gaps and cover every day from there to the last boundary (`buckets_partition_window`). -/

namespace UsageBilling.Interval

/-! ### The last boundary -/

/-- A date of the billing cycle that begins with the interval. -/
def IsCycleDate (i : Interval) (start d : Date) : Prop := ∃ first k, i.firstEvent = .ok first ∧
  BillingCycle.date start first.cycleDay i.usage.period k = .ok d

/-- A cycle date up to the target and, in an interval that has an end, before it. -/
def IsReached (i : Interval) (start : Date) (finish : Option Date) (d : Date) : Prop :=
  i.IsCycleDate start d ∧ d ≤ i.terms.target ∧ ∀ f, finish = some f → d < f

/-- An end after the start that the target has reached. -/
def HasEnded (i : Interval) (start : Date) (finish : Option Date) : Prop :=
  ∃ f, finish = some f ∧ start < f ∧ f ≤ i.terms.target

/-- The last boundary of an interval: its end once the target has reached it, before that the greatest cycle
date reached, and the start while there is none. -/
inductive LastBoundary (i : Interval) (start : Date) (finish : Option Date) : Date → Prop
  | atEnd {f : Date} (hend : finish = some f) (hafter : start < f) (hreached : f ≤ i.terms.target) :
      LastBoundary i start finish f
  | atCycleDate {d : Date} (hgoing : ¬ i.HasEnded start finish) (hd : i.IsReached start finish d)
      (hgreatest : ∀ e, i.IsReached start finish e → e ≤ d) : LastBoundary i start finish d
  | atStart (hgoing : ¬ i.HasEnded start finish) (hnone : ∀ d, ¬ i.IsReached start finish d) :
      LastBoundary i start finish start

variable {i : Interval} {start d last last' : Date} {finish : Option Date}

theorem LastBoundary.unique (h : i.LastBoundary start finish last) (h' : i.LastBoundary start finish last') :
    last' = last := by
  cases h with
  | atEnd hend hafter hreached =>
      cases h' with
      | atEnd hend' => exact Option.some.inj (hend'.symm.trans hend)
      | atCycleDate hgoing => exact absurd ⟨last, hend, hafter, hreached⟩ hgoing
      | atStart hgoing => exact absurd ⟨last, hend, hafter, hreached⟩ hgoing
  | atCycleDate hgoing hd hgreatest =>
      cases h' with
      | atEnd hend hafter hreached => exact absurd ⟨last', hend, hafter, hreached⟩ hgoing
      | atCycleDate _ hd' hgreatest' => exact Date.ext (Nat.le_antisymm (hgreatest last' hd') (hgreatest' last hd))
      | atStart _ hnone => exact absurd hd (hnone last)
  | atStart hgoing hnone =>
      cases h' with
      | atEnd hend hafter hreached => exact absurd ⟨last', hend, hafter, hreached⟩ hgoing
      | atCycleDate _ hd => exact absurd hd (hnone last')
      | atStart => rfl

theorem IsCycleDate.start_lt (h : i.IsCycleDate start d) : start < d := by
  obtain ⟨first, k, -, hk⟩ := h
  exact Nat.lt_of_le_of_lt (Nat.le_add_right _ k) (BillingCycle.start_add_lt_date hk)

theorem beforeEnd_iff : beforeEnd finish d = true ↔ ∀ f, finish = some f → d < f := by
  cases finish with
  | none => exact iff_of_true rfl nofun
  | some f => simp [beforeEnd]

/-! ### Boundaries -/

/-- The cycle dates that were taken are those that were reached. -/
theorem mem_cycle_iff {first : BillingEvent} {cycle : List Date} (hfirst : i.firstEvent = .ok first)
    (hle : start ≤ i.terms.target)
    (h : BillingCycle.datesUpTo start first.cycleDay i.usage.period i.terms.target (beforeEnd finish) = .ok cycle) :
    d ∈ cycle ↔ i.IsReached start finish d := by
  rw [mem_datesUpTo hle h, IsReached, beforeEnd_iff]
  refine and_congr_left fun _ => ⟨fun ⟨k, hk⟩ => ⟨first, k, hfirst, hk⟩, ?_⟩
  rintro ⟨first', k, hfirst', hk⟩
  obtain rfl : first = first' := Except.ok.inj (hfirst.symm.trans hfirst')
  exact ⟨k, hk⟩

/-- Boundaries of an interval: the start, the cycle dates before the last boundary, and the last boundary, unless
it is the start. -/
structure Layout (i : Interval) (start : Date) (finish : Option Date) (bs : List Date) (last : Date)
    (cycle : List Date) : Prop where
  lastBoundary : i.LastBoundary start finish last
  mem_cycle (d : Date) : d ∈ cycle ↔ i.IsCycleDate start d ∧ d < last
  boundaries : bs = start :: cycle ++ [last] ∨ bs = [start] ∧ last = start ∧ cycle = []

/-- The start is the only boundary when neither a cycle date nor the end was reached. -/
theorem Layout.atStart (hgoing : ¬ i.HasEnded start finish) (hnone : ∀ d, ¬ i.IsReached start finish d) :
    i.Layout start finish [start] start [] where
  lastBoundary := .atStart hgoing hnone
  mem_cycle _ := iff_of_false List.not_mem_nil fun ⟨hcycle, hlt⟩ => Nat.lt_asymm hcycle.start_lt hlt
  boundaries := Or.inr ⟨rfl, rfl, rfl⟩

/-- All cycle dates that were reached lie before an end that was reached. -/
theorem Layout.atEnd {f : Date} {cycle : List Date} (hmem : ∀ d, d ∈ cycle ↔ i.IsReached start (some f) d)
    (hafter : start < f) (hreached : f ≤ i.terms.target) :
    i.Layout start (some f) (start :: cycle ++ [f]) f cycle where
  lastBoundary := .atEnd rfl hafter hreached
  mem_cycle d := by
    rw [hmem]
    refine ⟨fun hd => ⟨hd.1, hd.2.2 f rfl⟩, fun ⟨hd, hlt⟩ => ⟨hd, ?_, fun f' hf' => ?_⟩⟩
    · exact Nat.le_of_lt (Nat.lt_of_lt_of_le hlt hreached)
    · exact Option.some.inj hf' ▸ hlt
  boundaries := Or.inl rfl

/-- Without an end that was reached, the last cycle date reached is the last boundary. -/
theorem Layout.atCycleDate {before : List Date} (hgoing : ¬ i.HasEnded start finish)
    (hmem : ∀ d, d ∈ before ++ [last] ↔ i.IsReached start finish d) (hbelow : ∀ d ∈ before, d < last) :
    i.Layout start finish (start :: before ++ [last]) last before := by
  have hreached : i.IsReached start finish last := (hmem last).mp (List.mem_append_right _ List.mem_cons_self)
  refine ⟨.atCycleDate hgoing hreached fun e he => ?_, fun d => ⟨fun hd => ?_, fun ⟨hd, hlt⟩ => ?_⟩, Or.inl rfl⟩
  · rcases List.mem_append.mp ((hmem e).mpr he) with he | he
    · exact Nat.le_of_lt (hbelow e he)
    · rw [List.mem_singleton.mp he]
      exact Nat.le_refl _
  · exact ⟨((hmem d).mp (List.mem_append_left _ hd)).1, hbelow d hd⟩
  · have htaken : i.IsReached start finish d := ⟨hd, Nat.le_of_lt (Nat.lt_of_lt_of_le hlt hreached.2.1),
      fun f hf => Nat.lt_trans hlt (hreached.2.2 f hf)⟩
    refine (List.mem_append.mp ((hmem d).mpr htaken)).resolve_right fun hsame => ?_
    rw [List.mem_singleton.mp hsame] at hlt
    exact Nat.lt_irrefl _ hlt

theorem exists_layout {bs : List Date} (hstart : i.startDate = .ok start) (hfinish : i.endDate = .ok finish)
    (h : i.boundaries = .ok bs) : ∃ last cycle, i.Layout start finish bs last cycle := by
  obtain ⟨start', finish', first, hstart', hfinish', hfirst, hcases⟩ := boundaries_eq_ok.mp h
  obtain rfl : start = start' := Except.ok.inj (hstart.symm.trans hstart')
  obtain rfl : finish = finish' := Except.ok.inj (hfinish.symm.trans hfinish')
  rcases hcases with ⟨hearly, rfl⟩ | ⟨hlate, cycle, hcycle, hbs⟩
  · refine ⟨start, [], .atStart ?_ fun d hd => ?_⟩
    · rintro ⟨f, -, hafter, hreached⟩
      exact Nat.lt_asymm hearly (Nat.lt_of_lt_of_le hafter hreached)
    · exact Nat.lt_asymm hearly (Nat.lt_of_lt_of_le hd.1.start_lt hd.2.1)
  have hmem : ∀ d, d ∈ cycle ↔ i.IsReached start finish d :=
    fun d => mem_cycle_iff hfirst (Nat.not_lt.mp hlate) hcycle
  by_cases hended : i.HasEnded start finish
  · obtain ⟨f, rfl, hafter, hreached⟩ := hended
    rw [endBoundary, if_pos ⟨hafter, hreached⟩] at hbs
    exact ⟨f, cycle, hbs ▸ .atEnd hmem hafter hreached⟩
  have hopen : endBoundary start i.terms.target finish = [] :=
    List.eq_nil_iff_forall_not_mem.mpr fun f hf => hended ⟨f, mem_endBoundary.mp hf⟩
  rw [hopen, List.append_nil] at hbs
  rcases List.eq_nil_or_concat cycle with rfl | ⟨before, last, hlast⟩
  · exact ⟨start, [], hbs ▸ .atStart hended fun d hd => List.not_mem_nil ((hmem d).mpr hd)⟩
  obtain rfl : cycle = before ++ [last] := hlast.trans List.concat_eq_append
  obtain ⟨rest, hrest, hsorted, -⟩ := boundaries_spec hstart hfinish h
  obtain rfl : before ++ [last] = rest := (List.cons.inj (hbs.symm.trans hrest)).2
  have hbelow : ∀ d ∈ before, d < last := fun d hd =>
    (List.pairwise_append.mp hsorted).2.2 d hd last List.mem_cons_self
  exact ⟨last, before, hbs ▸ .atCycleDate hended hmem hbelow⟩

/-! ### Spans -/

theorem infix_of_mem_spans {p : Date × Date} {bs : List Date} (h : p ∈ spans bs) : [p.1, p.2] <:+: bs := by
  induction bs with
  | nil => cases h
  | cons a bs ih =>
      cases bs with
      | nil => cases h
      | cons b bs =>
          rw [spans_cons_cons] at h
          rcases List.mem_cons.mp h with rfl | h
          · exact ⟨[], bs, rfl⟩
          · exact List.infix_cons (ih h)

/-- Each span begins where the one before it ends. -/
theorem isChain_spans (bs : List Date) : (spans bs).IsChain fun p q => p.2 = q.1 := by
  induction bs with
  | nil => exact .nil
  | cons a bs ih =>
      cases bs with
      | nil => exact .nil
      | cons b bs =>
          cases bs with
          | nil => exact .singleton _
          | cons c bs =>
              rw [spans_cons_cons, spans_cons_cons]
              exact List.isChain_cons_cons.mpr ⟨rfl, ih⟩

/-- The spans that end after a date are the last ones. -/
theorem filter_spans_suffix {bs : List Date} (raw : Date) (h : bs.Pairwise (· < ·)) :
    (spans bs).filter (fun p => raw < p.2) <:+ spans bs := by
  induction bs with
  | nil => exact List.suffix_rfl
  | cons a bs ih =>
      cases bs with
      | nil => exact List.suffix_rfl
      | cons b bs =>
          have hbs := (List.pairwise_cons.mp h).2
          rw [spans_cons_cons]
          by_cases hraw : raw < b
          · have hall : ∀ p ∈ spans (b :: bs), raw < p.2 := fun p hp =>
              Nat.lt_trans hraw ((List.pairwise_cons.mp hbs).1 p.2 (mem_spans hp).2)
            rw [List.filter_cons_of_pos (by simpa using hraw),
              List.filter_eq_self.mpr fun p hp => decide_eq_true (hall p hp)]
          · rw [List.filter_cons_of_neg (by simpa using hraw)]
            exact (ih hbs).trans (List.suffix_cons _ _)

/-- The spans cover the days from the first boundary to the last. -/
theorem mem_span_iff {a : Date} {bs : List Date} (h : (a :: bs).Pairwise (· < ·))
    (hlast : (a :: bs).getLast? = some last) :
    (∃ p ∈ spans (a :: bs), p.1 ≤ d ∧ d < p.2) ↔ a ≤ d ∧ d < last := by
  induction bs generalizing a with
  | nil =>
      obtain rfl := Option.some.inj hlast
      refine iff_of_false ?_ fun ⟨hle, hlt⟩ => Nat.not_lt.mpr hle hlt
      rintro ⟨p, hp, -⟩
      cases hp
  | cons b bs ih =>
      obtain ⟨ha, hbs⟩ := List.pairwise_cons.mp h
      have hab : a < b := ha b List.mem_cons_self
      rw [List.getLast?_cons_cons] at hlast
      have hle_last : b ≤ last := by
        rcases List.mem_cons.mp (List.mem_of_getLast? hlast) with rfl | hmem
        · exact Nat.le_refl _
        · exact Nat.le_of_lt ((List.pairwise_cons.mp hbs).1 last hmem)
      rw [spans_cons_cons, List.exists_mem_cons_iff, ih hbs hlast]
      constructor
      · rintro (⟨hle, hlt⟩ | ⟨hle, hlt⟩)
        · exact ⟨hle, Nat.lt_of_lt_of_le hlt hle_last⟩
        · exact ⟨Nat.le_of_lt (Nat.lt_of_lt_of_le hab hle), hlt⟩
      · rintro ⟨hle, hlt⟩
        rcases Nat.lt_or_ge d.ordinal b.ordinal with hb | hb
        · exact Or.inl ⟨hle, hb⟩
        · exact Or.inr ⟨hb, hlt⟩

/-! ### Buckets -/

/-- The days on which usage is billed: from the start of the interval and the raw usage start on, before the
last boundary. -/
def Covers (i : Interval) (start last d : Date) : Prop := max start i.terms.rawUsageStart ≤ d ∧ d < last

/-- Buckets that cut the days from the start to the last boundary at the cycle dates between them. -/
structure Partitions (i : Interval) (start last : Date) : Prop where
  nonempty : ∀ b ∈ i.buckets, b.start < b.finish
  reached : ∀ b ∈ i.buckets, b.finish ≤ i.terms.target
  adjacent : i.buckets.IsChain fun b c => b.finish = c.start ∧ c.start = c.alignedStart
  unclipped : ∀ b ∈ i.buckets.tail, b.start = b.alignedStart
  covered : ∀ d, (∃ b ∈ i.buckets, b.start ≤ d ∧ d < b.finish) ↔ i.Covers start last d
  consecutive : ∃ cycle : List Date, cycle.Pairwise (· < ·) ∧
    (∀ d, d ∈ cycle ↔ i.IsCycleDate start d ∧ d < last) ∧
      ∀ b ∈ i.buckets, [b.alignedStart, b.finish] <:+: start :: cycle ++ [last]

theorem aligned_of_bucketOf {ps : List (Date × Date)} {buckets : List Bucket}
    (h : ps.mapM i.bucketOf = .ok buckets) : (buckets.map fun b => (b.alignedStart, b.finish)) = ps ∧
      ∀ b ∈ buckets, b.start = max b.alignedStart i.terms.rawUsageStart := by
  have hall := mapM_eq_ok.mp h
  constructor
  · clear h
    induction hall with
    | nil => rfl
    | cons hb _ ih =>
        obtain ⟨halign, hfinish, -⟩ := bucketOf_eq_ok hb
        rw [List.map_cons, ih, halign, hfinish]
  · intro b hb
    obtain ⟨p, -, hpb⟩ := exists_of_forall₂_right hall hb
    obtain ⟨halign, -, hclip, -⟩ := bucketOf_eq_ok hpb
    rw [hclip, halign]

theorem exists_before_of_mem_tail {r : Bucket → Bucket → Prop} {bs : List Bucket} (h : bs.IsChain r) {c : Bucket}
    (hc : c ∈ bs.tail) : ∃ b ∈ bs, r b c := by
  induction bs with
  | nil => cases hc
  | cons a bs ih =>
      cases bs with
      | nil => cases hc
      | cons b bs =>
          obtain ⟨hab, hbs⟩ := List.isChain_cons_cons.mp h
          rcases List.mem_cons.mp hc with rfl | hc
          · exact ⟨a, List.mem_cons_self, hab⟩
          · obtain ⟨b', hb', hbc⟩ := ih hbs hc
            exact ⟨b', List.mem_cons_of_mem a hb', hbc⟩

section

variable {bs : List Date} {buckets : List Bucket}

/-- A bucket has a span that ends after the raw usage start. -/
theorem span_of_mem_buckets (h : ((spans bs).filter fun p => i.terms.rawUsageStart < p.2).mapM i.bucketOf = .ok buckets)
    {b : Bucket} (hb : b ∈ buckets) : (b.alignedStart, b.finish) ∈ spans bs ∧ i.terms.rawUsageStart < b.finish := by
  have hin := List.mem_map_of_mem (f := fun b : Bucket => (b.alignedStart, b.finish)) hb
  rw [(aligned_of_bucketOf h).1] at hin
  obtain ⟨hspan, hraw⟩ := List.mem_filter.mp hin
  exact ⟨hspan, of_decide_eq_true hraw⟩

/-- Each bucket begins where the one before it ends, and is not clipped there. -/
theorem isChain_buckets (hgrow : bs.Pairwise (· < ·))
    (h : ((spans bs).filter fun p => i.terms.rawUsageStart < p.2).mapM i.bucketOf = .ok buckets) :
    buckets.IsChain fun b c => b.finish = c.start ∧ c.start = c.alignedStart := by
  obtain ⟨hspans, hclipped⟩ := aligned_of_bucketOf h
  have hchain := (isChain_spans bs).suffix (filter_spans_suffix i.terms.rawUsageStart hgrow)
  rw [← hspans, List.isChain_map] at hchain
  refine hchain.imp_of_mem_imp fun b c hb hc hbc => ?_
  have hbc : b.finish = c.alignedStart := hbc
  have hunclipped : c.start = c.alignedStart := by
    rw [hclipped c hc]
    exact Date.max_eq_left (hbc ▸ (span_of_mem_buckets h hb).2)
  exact ⟨hbc.trans hunclipped.symm, hunclipped⟩

/-- The buckets cover the days that their spans cover from the raw usage start on. -/
theorem mem_bucket_iff (h : ((spans bs).filter fun p => i.terms.rawUsageStart < p.2).mapM i.bucketOf = .ok buckets) :
    (∃ b ∈ buckets, b.start ≤ d ∧ d < b.finish) ↔
      i.terms.rawUsageStart ≤ d ∧ ∃ p ∈ spans bs, p.1 ≤ d ∧ d < p.2 := by
  obtain ⟨hspans, hclipped⟩ := aligned_of_bucketOf h
  constructor
  · rintro ⟨b, hb, hle, hlt⟩
    rw [hclipped b hb, Date.max_le_iff] at hle
    exact ⟨hle.2, _, (span_of_mem_buckets h hb).1, hle.1, hlt⟩
  · rintro ⟨hraw, p, hp, hle, hlt⟩
    have hin : p ∈ (spans bs).filter fun p => i.terms.rawUsageStart < p.2 :=
      List.mem_filter.mpr ⟨hp, decide_eq_true (Nat.lt_of_le_of_lt hraw hlt)⟩
    rw [← hspans] at hin
    obtain ⟨b, hb, rfl⟩ := List.mem_map.mp hin
    refine ⟨b, hb, ?_, hlt⟩
    rw [hclipped b hb]
    exact Date.max_le_iff.mpr ⟨hle, hraw⟩

end

/-- The buckets computed for an interval partition its window. -/
theorem exists_partitions (hstart : i.startDate = .ok start) (hfinish : i.endDate = .ok finish)
    (h : i.computeBuckets = .ok i.buckets) : ∃ last, i.LastBoundary start finish last ∧ i.Partitions start last := by
  obtain ⟨bs, hbs, hbuckets⟩ := computeBuckets_eq_ok.mp h
  obtain ⟨last, cycle, hlast, hcycle, hlayout⟩ := exists_layout hstart hfinish hbs
  obtain ⟨rest, rfl, hsorted, hafter⟩ := boundaries_spec hstart hfinish hbs
  have hgrow : (start :: rest).Pairwise (· < ·) := List.pairwise_cons.mpr ⟨fun b hb => (hafter b hb).1, hsorted⟩
  have hend : (start :: rest).getLast? = some last := by
    rcases hlayout with hlayout | ⟨hlayout, rfl, -⟩
    · rw [hlayout, List.getLast?_concat]
    · rw [hlayout, List.getLast?_singleton]
  have henclosed := (buckets_spec hstart hfinish h).1
  have hchain := isChain_buckets hgrow hbuckets
  exact ⟨last, hlast, {
    nonempty := fun b hb => (henclosed b hb).clipped_nonempty
    reached := fun b hb => (henclosed b hb).reached
    adjacent := hchain
    unclipped := fun c hc => by
      obtain ⟨b, -, -, hc⟩ := exists_before_of_mem_tail hchain hc
      exact hc
    covered := fun d => by
      rw [mem_bucket_iff hbuckets, mem_span_iff hgrow hend, Covers, Date.max_le_iff]
      exact ⟨fun ⟨hraw, hle, hlt⟩ => ⟨⟨hle, hraw⟩, hlt⟩, fun ⟨⟨hle, hraw⟩, hlt⟩ => ⟨hraw, hle, hlt⟩⟩
    consecutive := by
      refine ⟨cycle, ?_, hcycle, fun b hb => ?_⟩
      · rcases hlayout with hlayout | ⟨-, -, rfl⟩
        · rw [hlayout] at hgrow
          exact (List.pairwise_cons.mp (List.pairwise_append.mp hgrow).1).2
        · exact .nil
      · have hspan := (span_of_mem_buckets hbuckets hb).1
        rcases hlayout with hlayout | ⟨hlayout, -⟩
        · exact hlayout ▸ infix_of_mem_spans hspan
        · rw [hlayout] at hspan
          cases hspan }⟩

/-- The buckets of an interval that was built partition its window: each ends after it begins and not after the
target, the next one begins where it ends and only the first may be clipped at its start, together they cover
the days from the start of the interval and the raw usage start on and before the last boundary, and each runs
from one to the next of the start, the cycle dates before the last boundary, and the last boundary. -/
theorem buckets_partition_window {i j : Interval} {closed : Bool} (h : i.built closed = .ok j) :
    ∃ start finish last, j.startDate = .ok start ∧ j.endDate = .ok finish ∧ j.LastBoundary start finish last ∧
      (∀ other, j.LastBoundary start finish other → other = last) ∧ j.Partitions start last := by
  obtain ⟨-, -, buckets, next, hbuckets, -, rfl⟩ := built_eq_ok.mp h
  obtain ⟨bs, hbs, -⟩ := computeBuckets_eq_ok.mp hbuckets
  obtain ⟨start, finish, -, hstart, hfinish, -⟩ := boundaries_eq_ok.mp hbs
  obtain ⟨last, hlast, hpartitions⟩ := exists_partitions
    (i := { i.frozen closed with buckets, nextNotification := next }) hstart hfinish hbuckets
  exact ⟨start, finish, last, hstart, hfinish, hlast, fun other => hlast.unique, hpartitions⟩

namespace Sample

def sixteenth : Date := ⟨738171, by decide, by decide⟩

/-- Calls from the first of January to the twentieth of February 2022, billed from the sixteenth of January. -/
def clippedMonths : Interval := { twoMonths with terms := { twoMonths.terms with rawUsageStart := sixteenth } }

end Sample

theorem buckets_partition_window_clipped : ∃ j, Sample.clippedMonths.built true = .ok j ∧
    j.buckets.map (fun b => b.finish.ordinal - b.start.ordinal) = [16, 19] ∧
      j.Partitions Sample.firstDay Sample.endDay := by
  obtain ⟨j, hj⟩ : ∃ j, Sample.clippedMonths.built true = .ok j := by
    refine exists_ok_of_isOk ?_
    decide +kernel
  have hseen : (Sample.clippedMonths.built true).map (fun i =>
      (i.startDate, i.endDate, i.terms.target, i.buckets.map fun b => b.finish.ordinal - b.start.ordinal)) =
        .ok (.ok Sample.firstDay, .ok (some Sample.endDay), Sample.endDay, [16, 19]) := by decide +kernel
  rw [hj] at hseen
  obtain ⟨hstart, hseen⟩ := Prod.mk.inj (Except.ok.inj hseen)
  obtain ⟨hend, hseen⟩ := Prod.mk.inj hseen
  obtain ⟨htarget, hdays⟩ := Prod.mk.inj hseen
  obtain ⟨start, finish, last, hstart', hfinish, hlast, hunique, hpartitions⟩ := buckets_partition_window hj
  obtain rfl : Sample.firstDay = start := Except.ok.inj (hstart.symm.trans hstart')
  obtain rfl : some Sample.endDay = finish := Except.ok.inj (hend.symm.trans hfinish)
  have hended : j.LastBoundary Sample.firstDay (some Sample.endDay) Sample.endDay :=
    .atEnd rfl (by decide) (htarget ▸ Nat.le_refl _)
  rw [← hunique _ hended] at hpartitions
  exact ⟨j, hj, hdays, hpartitions⟩

end UsageBilling.Interval
