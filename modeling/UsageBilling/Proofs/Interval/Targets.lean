import UsageBilling.Proofs.Interval.Growth

/-! An interval built at different targets. A bucket ends at each date of growth that the target has reached,
and nowhere else (`exists_finish_iff`), whatever the target is: moving it on adds buckets after those that
were there. The next notification is the first date of growth after the target (`le_of_notification`), so
that until then nothing is added, and on that date one bucket (`targets_extend_buckets`). -/

namespace UsageBilling.Interval

def aimedAt (i : Interval) (target : Date) : Interval := { i with terms := { i.terms with target } }

/-- The dates on which a bucket of the interval ends once the target reaches them: the cycle dates before the
end, and the end itself. -/
def EndsBucket (i : Interval) (d : Date) : Prop := ∃ start finish first, i.startDate = .ok start ∧
  i.endDate = .ok finish ∧ i.firstEvent = .ok first ∧ start < d ∧
    ((∃ k, BillingCycle.date start first.cycleDay i.usage.period k = .ok d) ∧ beforeEnd finish d = true ∨
      finish = some d)

variable {i : Interval} {d : Date}

/-! ### Where buckets end -/

theorem beforeEnd_of_le {finish : Option Date} {e : Date} (hle : d ≤ e) (h : beforeEnd finish e = true) :
    beforeEnd finish d = true := by
  cases finish with
  | none => rfl
  | some f =>
      have hlt : e < f := of_decide_eq_true h
      exact decide_eq_true (Nat.lt_of_le_of_lt hle hlt)

theorem mem_datesUpTo {start target : Date} {cycleDay : Int} {period : BillingPeriod} {finish : Option Date}
    {ds : List Date} (hle : start ≤ target)
    (h : BillingCycle.datesUpTo start cycleDay period target (beforeEnd finish) = .ok ds) :
    d ∈ ds ↔ (∃ k, BillingCycle.date start cycleDay period k = .ok d) ∧ d ≤ target ∧ beforeEnd finish d = true := by
  obtain ⟨e, hds, he, hstop⟩ := (BillingCycle.datesUpTo_eq_ok hle).mp h
  constructor
  · intro hd
    obtain ⟨k, hk⟩ := List.mem_iff_getElem?.mp hd
    exact ⟨⟨k, (hds k d hk).1⟩, (hds k d hk).2⟩
  · rintro ⟨⟨k, hk⟩, htarget, hbefore⟩
    have hlt : k < ds.length := by
      by_contra hge
      have hed : e ≤ d := by
        rcases Nat.eq_or_lt_of_le (Nat.not_lt.mp hge) with heq | hlt
        · rw [heq, hk] at he
          exact Nat.le_of_eq (congrArg Date.ordinal (Except.ok.inj he)).symm
        · exact Nat.le_of_lt (BillingCycle.date_lt_date hlt he hk)
      exact hstop ⟨Nat.le_trans hed htarget, beforeEnd_of_le hed hbefore⟩
    have hx := List.getElem?_eq_getElem hlt
    obtain rfl : ds[k] = d := Except.ok.inj ((hds k _ hx).1.symm.trans hk)
    exact List.getElem_mem hlt

theorem mem_boundaries {start : Date} {rest : List Date} (h : i.boundaries = .ok (start :: rest)) :
    d ∈ rest ↔ i.EndsBucket d ∧ d ≤ i.terms.target := by
  obtain ⟨start', finish, first, hstart, hfinish, hfirst, hcases⟩ := boundaries_eq_ok.mp h
  have hends : i.EndsBucket d ↔ start' < d ∧
      ((∃ k, BillingCycle.date start' first.cycleDay i.usage.period k = .ok d) ∧ beforeEnd finish d = true ∨
        finish = some d) := by
    unfold EndsBucket
    constructor
    · rintro ⟨_, _, _, hstart', hfinish', hfirst', hd⟩
      rw [hstart] at hstart'
      rw [hfinish] at hfinish'
      rw [hfirst] at hfirst'
      cases hstart'
      cases hfinish'
      cases hfirst'
      exact hd
    · exact fun hd => ⟨start', finish, first, hstart, hfinish, hfirst, hd⟩
  rw [hends]
  rcases hcases with ⟨hearly, hbs⟩ | ⟨hlate, cycle, hcycle, hbs⟩
  · obtain rfl : rest = [] := (List.cons.inj hbs).2
    refine iff_of_false List.not_mem_nil ?_
    rintro ⟨⟨hafter, -⟩, hreached⟩
    rw [Date.lt_def, Date.le_def] at *
    omega
  · obtain rfl : rest = cycle ++ endBoundary start' i.terms.target finish := (List.cons.inj hbs).2
    rw [List.mem_append, mem_datesUpTo (Nat.not_lt.mp hlate) hcycle, mem_endBoundary]
    constructor
    · rintro (⟨⟨k, hk⟩, hreached, hbefore⟩ | ⟨hend, hafter, hreached⟩)
      · have hafter : start' < d := Nat.lt_of_le_of_lt (Nat.le_add_right _ k) (BillingCycle.start_add_lt_date hk)
        exact ⟨⟨hafter, Or.inl ⟨⟨k, hk⟩, hbefore⟩⟩, hreached⟩
      · exact ⟨⟨hafter, Or.inr hend⟩, hreached⟩
    · rintro ⟨⟨hafter, ⟨hk, hbefore⟩ | hend⟩, hreached⟩
      · exact Or.inl ⟨hk, hreached, hbefore⟩
      · exact Or.inr ⟨hend, hafter, hreached⟩

/-- A bucket ends on each date of growth up to the target, unless it lies before the raw usage start. -/
theorem exists_finish_iff {buckets : List Bucket} (h : i.computeBuckets = .ok buckets) :
    (∃ b ∈ buckets, b.finish = d) ↔ i.EndsBucket d ∧ d ≤ i.terms.target ∧ i.terms.rawUsageStart < d := by
  obtain ⟨bs, hbs, hbuckets⟩ := computeBuckets_eq_ok.mp h
  obtain ⟨start, finish, -, hstart, hfinish, -⟩ := boundaries_eq_ok.mp hbs
  obtain ⟨rest, rfl, -⟩ := boundaries_spec hstart hfinish hbs
  have hall := mapM_eq_ok.mp hbuckets
  have hspans : (spans (start :: rest)).map Prod.snd = rest := List.map_snd_zip (by simp)
  rw [← and_assoc, ← mem_boundaries hbs]
  constructor
  · rintro ⟨b, hb, rfl⟩
    obtain ⟨p, hp, hpb⟩ := exists_of_forall₂_right hall hb
    obtain ⟨hp, hraw⟩ := List.mem_filter.mp hp
    rw [(bucketOf_eq_ok hpb).2.1]
    exact ⟨(mem_spans hp).2, of_decide_eq_true hraw⟩
  · rintro ⟨hd, hraw⟩
    rw [← hspans] at hd
    obtain ⟨p, hp, rfl⟩ := List.mem_map.mp hd
    obtain ⟨b, hb, hpb⟩ := exists_of_forall₂_left hall (List.mem_filter.mpr ⟨hp, decide_eq_true hraw⟩)
    exact ⟨b, hb, (bucketOf_eq_ok hpb).2.1⟩

/-! ### The next notification -/

/-- There is a next notification unless the end has been reached. It is the first cycle date after the target
or the end, whichever comes first. -/
theorem notification_spec {next : Option Date} (h : i.computeNotification = .ok next) :
    ∃ finish, i.endDate = .ok finish ∧ match next with
      | none => ∃ f, finish = some f ∧ f ≤ i.terms.target
      | some n => (∀ f, finish = some f → i.terms.target < f ∧ n ≤ f) ∧ ∃ start first after,
          i.startDate = .ok start ∧ i.firstEvent = .ok first ∧
          BillingCycle.firstAfter start first.cycleDay i.usage.period i.terms.target = .ok after ∧
          n ≤ after ∧ (n = after ∨ finish = some n) := by
  obtain ⟨finish, hfinish, h⟩ := bind_eq_ok.mp h
  refine ⟨finish, hfinish, ?_⟩
  cases finish with
  | none =>
      obtain ⟨after, hafter, h⟩ := bind_eq_ok.mp h
      obtain ⟨start, hstart, hafter⟩ := bind_eq_ok.mp hafter
      obtain ⟨first, hfirst, hafter⟩ := bind_eq_ok.mp hafter
      obtain rfl := pure_eq_ok.mp h
      exact ⟨nofun, start, first, after, hstart, hfirst, hafter, Nat.le_refl _, Or.inl rfl⟩
  | some f =>
      dsimp only at h
      split at h
      next hended =>
        obtain rfl := pure_eq_ok.mp h
        exact ⟨f, rfl, hended⟩
      next hnot =>
        obtain ⟨after, hafter, h⟩ := bind_eq_ok.mp h
        obtain ⟨start, hstart, hafter⟩ := bind_eq_ok.mp hafter
        obtain ⟨first, hfirst, hafter⟩ := bind_eq_ok.mp hafter
        obtain rfl := pure_eq_ok.mp h
        have hend : ∀ f', some f = some f' → i.terms.target < f' ∧ min after f ≤ f' := by
          intro f' hf'
          obtain rfl := Option.some.inj hf'
          exact ⟨Nat.not_le.mp hnot, Date.min_le_right after f⟩
        refine ⟨hend, start, first, after, hstart, hfirst, hafter, Date.min_le_left after f, ?_⟩
        rcases Date.min_cases after f with hmin | hmin
        · exact Or.inl hmin
        · exact Or.inr (congrArg some hmin.symm)

/-- No bucket ends between the target and the next notification. -/
theorem le_of_notification {n : Date} (h : i.computeNotification = .ok (some n)) (hd : i.EndsBucket d)
    (hafter : i.terms.target < d) : n ≤ d := by
  obtain ⟨finish, hfinish, hend, start, first, after, hstart, hfirst, hnext, hle, -⟩ := notification_spec h
  obtain ⟨start', finish', first', hstart', hfinish', hfirst', -, hcases⟩ := hd
  obtain rfl : start = start' := Except.ok.inj (hstart.symm.trans hstart')
  obtain rfl : finish = finish' := Except.ok.inj (hfinish.symm.trans hfinish')
  obtain rfl : first = first' := Except.ok.inj (hfirst.symm.trans hfirst')
  rcases hcases with ⟨⟨k, hk⟩, -⟩ | hlast
  · exact Nat.le_trans hle (BillingCycle.firstAfter_le hnext hk hafter)
  · exact (hend d hlast).2

theorem target_lt_notification {n : Date} (h : i.computeNotification = .ok (some n)) : i.terms.target < n := by
  obtain ⟨finish, -, hend, start, first, after, -, -, hnext, -, hn⟩ := notification_spec h
  obtain ⟨-, -, hlt, -⟩ := BillingCycle.firstAfter_eq_ok.mp hnext
  rcases hn with rfl | hn
  · exact hlt
  · exact (hend n hn).1

/-- A bucket ends on the date of the next notification, unless the interval ends where it starts or before. -/
theorem endsBucket_notification {n : Date} (h : i.computeNotification = .ok (some n))
    (hnonempty : ¬ ∃ s f, i.startDate = .ok s ∧ i.endDate = .ok (some f) ∧ f ≤ s) : i.EndsBucket n := by
  obtain ⟨finish, hfinish, hend, start, first, after, hstart, hfirst, hnext, -, hn⟩ := notification_spec h
  obtain ⟨k, hk, -, -⟩ := BillingCycle.firstAfter_eq_ok.mp hnext
  have hcycle : start < after := Nat.lt_of_le_of_lt (Nat.le_add_right _ k) (BillingCycle.start_add_lt_date hk)
  have hbefore : ∀ f, finish = some f → start < f := by
    rintro f rfl
    exact Nat.not_le.mp fun hle => hnonempty ⟨start, f, hstart, hfinish, hle⟩
  by_cases hlast : finish = some n
  · exact ⟨start, finish, first, hstart, hfinish, hfirst, hbefore n hlast, Or.inr hlast⟩
  · obtain rfl : n = after := hn.resolve_right hlast
    refine ⟨start, finish, first, hstart, hfinish, hfirst, hcycle, Or.inl ⟨⟨k, hk⟩, ?_⟩⟩
    cases finish with
    | none => rfl
    | some f =>
        have hle : n.ordinal ≤ f.ordinal := (hend f rfl).2
        have hne : n.ordinal ≠ f.ordinal := fun heq => hlast (congrArg some (Date.ext heq.symm))
        refine decide_eq_true ?_
        rw [Date.lt_def]
        omega

/-- Once the end has been reached, no bucket ends after the target. -/
theorem le_target_of_notification (h : i.computeNotification = .ok none) (hd : i.EndsBucket d) :
    d ≤ i.terms.target := by
  obtain ⟨finish, hfinish, f, rfl, hle⟩ := notification_spec h
  obtain ⟨start, finish, first, -, hfinish', -, -, hcases⟩ := hd
  obtain rfl : some f = finish := Except.ok.inj (hfinish.symm.trans hfinish')
  rcases hcases with ⟨-, hbefore⟩ | hlast
  · have hlt : d < f := of_decide_eq_true hbefore
    exact Nat.le_of_lt (Nat.lt_of_lt_of_le hlt hle)
  · obtain rfl := Option.some.inj hlast
    exact hle

/-! ### Moving the target on -/

/-- The same interval, built up to another target: what was built up to an earlier one. -/
theorem grows_aimedAt {target target' : Date} (hne : i.events ≠ []) (hle : target ≤ target') :
    Grows (i.aimedAt target) (i.aimedAt target') where
  usage := rfl
  zone := rfl
  rawUsageStart := rfl
  target := hle
  nonempty := hne
  events := ⟨[], (List.append_nil _).symm, nofun⟩
  ended := fun hclosed => ⟨hclosed, rfl⟩
  ongoing := fun hopen f hf => by
    have hsame : (i.aimedAt target').isClosed = false := hopen
    unfold endDate at hf
    rw [hsame] at hf
    cases hf

variable {target target' : Date} {buckets buckets' : List Bucket}

/-- Moving the target on adds buckets after those that were there, which end on the dates of growth that are
reached by it. -/
theorem buckets_aimedAt (hne : i.events ≠ []) (hle : target ≤ target')
    (h : (i.aimedAt target).computeBuckets = .ok buckets) (h' : (i.aimedAt target').computeBuckets = .ok buckets') :
    ∃ more, buckets' = buckets ++ more ∧
      ∀ b ∈ more, i.EndsBucket b.finish ∧ target < b.finish ∧ b.finish ≤ target' := by
  obtain ⟨more, hmore, hafter⟩ := (grows_aimedAt hne hle).buckets h h'
  refine ⟨more, hmore, fun b hb => ?_⟩
  have hmem : b ∈ buckets' := hmore ▸ List.mem_append_right buckets hb
  obtain ⟨hends, hreached, -⟩ := (exists_finish_iff h').mp ⟨b, hmem, rfl⟩
  exact ⟨hends, hafter b hb, hreached⟩

theorem buckets_aimedAt_eq (hne : i.events ≠ []) (hle : target ≤ target')
    (hnone : ∀ d, i.EndsBucket d → target < d → target' < d) (h : (i.aimedAt target).computeBuckets = .ok buckets)
    (h' : (i.aimedAt target').computeBuckets = .ok buckets') : buckets' = buckets := by
  obtain ⟨more, rfl, hmore⟩ := buckets_aimedAt hne hle h h'
  have hempty : more = [] := by
    refine List.eq_nil_iff_forall_not_mem.mpr fun b hb => ?_
    obtain ⟨hends, hafter, hreached⟩ := hmore b hb
    exact Nat.not_lt.mpr hreached (hnone b.finish hends hafter)
  rw [hempty, List.append_nil]

/-- On the next date of growth one bucket is added, unless it lies before the raw usage start. -/
theorem buckets_aimedAt_growth {n : Date} (hne : i.events ≠ []) (hlt : target < n) (hends : i.EndsBucket n)
    (hfirst : ∀ d, i.EndsBucket d → target < d → n ≤ d) (hraw : i.terms.rawUsageStart < n)
    (h : (i.aimedAt target).computeBuckets = .ok buckets) (h' : (i.aimedAt n).computeBuckets = .ok buckets') :
    ∃ b, buckets' = buckets ++ [b] ∧ b.finish = n := by
  obtain ⟨more, rfl, hmore⟩ := buckets_aimedAt hne (Nat.le_of_lt hlt) h h'
  have hfinish : ∀ b ∈ more, b.finish = n := by
    intro b hb
    obtain ⟨hgrowth, hafter, hreached⟩ := hmore b hb
    exact Date.ext (Nat.le_antisymm hreached (hfirst b.finish hgrowth hafter))
  obtain ⟨bs, hbs, -⟩ := computeBuckets_eq_ok.mp h'
  obtain ⟨start, finish, -, hstart, hfinal, -⟩ := boundaries_eq_ok.mp hbs
  obtain ⟨henclosed, hapart⟩ := buckets_spec hstart hfinal h'
  have hexists : ∃ b ∈ buckets ++ more, b.finish = n :=
    (exists_finish_iff h').mpr ⟨hends, Nat.le_refl _, hraw⟩
  obtain ⟨b, hb, hbn⟩ := hexists
  have hnew : b ∈ more := by
    refine (List.mem_append.mp hb).resolve_left fun hold => ?_
    obtain ⟨-, hreached, -⟩ := (exists_finish_iff h).mp ⟨b, hold, rfl⟩
    rw [hbn] at hreached
    exact Nat.not_lt.mpr hreached hlt
  -- Two buckets cannot both end on the same date: the second begins where the first ends.
  cases more with
  | nil => cases hnew
  | cons c rest =>
      cases rest with
      | nil => exact ⟨c, rfl, hfinish c List.mem_cons_self⟩
      | cons e rest =>
          have hce : c.finish ≤ e.alignedStart :=
            (List.pairwise_cons.mp (List.pairwise_append.mp hapart).2.1).1 e List.mem_cons_self
          have hnonempty : e.alignedStart < e.finish :=
            (henclosed e (List.mem_append_right buckets (List.mem_cons_of_mem c List.mem_cons_self))).nonempty
          rw [hfinish c List.mem_cons_self] at hce
          rw [hfinish e (List.mem_cons_of_mem c List.mem_cons_self)] at hnonempty
          exact absurd hnonempty (Nat.not_lt.mpr hce)

theorem not_endsBucket_of_empty {s f : Date} (hs : i.startDate = .ok s) (hf : i.endDate = .ok (some f))
    (hle : f ≤ s) : ¬ i.EndsBucket d := by
  rintro ⟨start, finish, first, hstart, hfinish, -, hafter, hcases⟩
  obtain rfl : s = start := Except.ok.inj (hs.symm.trans hstart)
  obtain rfl : some f = finish := Except.ok.inj (hf.symm.trans hfinish)
  have hlt : f < d := Nat.lt_of_le_of_lt hle hafter
  rcases hcases with ⟨-, hbefore⟩ | hlast
  · have hbefore : d < f := of_decide_eq_true hbefore
    exact Nat.lt_asymm hlt hbefore
  · obtain rfl := Option.some.inj hlast
    exact Nat.lt_irrefl _ hlt

section Notified

variable {n : Date} {next : Option Date}

theorem notification_eq_none_iff (h : (i.aimedAt target).computeNotification = .ok next) :
    next = none ↔ ∃ f, i.endDate = .ok (some f) ∧ f ≤ target := by
  obtain ⟨finish, hfinish, hcases⟩ := notification_spec h
  have hfinish : i.endDate = .ok finish := hfinish
  rw [hfinish]
  cases next with
  | none =>
      obtain ⟨f, rfl, hle⟩ := hcases
      exact iff_of_true rfl ⟨f, rfl, hle⟩
  | some n =>
      refine iff_of_false (Option.some_ne_none n) ?_
      rintro ⟨f, hf, hle⟩
      exact Nat.not_lt.mpr hle (hcases.1 f (Except.ok.inj hf)).1

theorem buckets_of_no_notification (hne : i.events ≠ []) (hle : target ≤ target')
    (hnext : (i.aimedAt target).computeNotification = .ok none) (h : (i.aimedAt target).computeBuckets = .ok buckets)
    (h' : (i.aimedAt target').computeBuckets = .ok buckets') : buckets' = buckets := by
  refine buckets_aimedAt_eq hne hle (fun d hd hafter => ?_) h h'
  have hended : d ≤ target := le_target_of_notification hnext hd
  exact absurd hafter (Nat.not_lt.mpr hended)

theorem buckets_before_notification (hne : i.events ≠ []) (hle : target ≤ target') (hlt : target' < n)
    (hnext : (i.aimedAt target).computeNotification = .ok (some n))
    (h : (i.aimedAt target).computeBuckets = .ok buckets) (h' : (i.aimedAt target').computeBuckets = .ok buckets') :
    buckets' = buckets := by
  refine buckets_aimedAt_eq hne hle (fun d hd hafter => ?_) h h'
  have hfirst : n ≤ d := le_of_notification hnext hd hafter
  exact Nat.lt_of_lt_of_le hlt hfirst

/-- On the date of the next notification one bucket is added, unless the raw usage start has not been reached
or the interval is empty. -/
theorem buckets_at_notification (hne : i.events ≠ []) (hnext : (i.aimedAt target).computeNotification = .ok (some n))
    (h : (i.aimedAt target).computeBuckets = .ok buckets) (h' : (i.aimedAt n).computeBuckets = .ok buckets') :
    let unbilled := n ≤ i.terms.rawUsageStart ∨ ∃ s f, i.startDate = .ok s ∧ i.endDate = .ok (some f) ∧ f ≤ s
    (¬ unbilled → ∃ b, buckets' = buckets ++ [b] ∧ b.finish = n) ∧ (unbilled → buckets' = buckets) := by
  have hlt : target < n := target_lt_notification hnext
  constructor
  · intro hbilled
    obtain ⟨hraw, hnonempty⟩ := not_or.mp hbilled
    have hends : (i.aimedAt target).EndsBucket n := endsBucket_notification hnext hnonempty
    exact buckets_aimedAt_growth hne hlt hends (fun d hd => le_of_notification hnext hd) (Nat.not_le.mp hraw) h h'
  · intro hunbilled
    obtain ⟨more, rfl, hmore⟩ := buckets_aimedAt hne (Nat.le_of_lt hlt) h h'
    have hempty : more = [] := by
      refine List.eq_nil_iff_forall_not_mem.mpr fun b hb => ?_
      obtain ⟨hends, -, hreached⟩ := hmore b hb
      rcases hunbilled with hraw | ⟨s, f, hs, hf, hle⟩
      · have hbilled := (exists_finish_iff h').mp ⟨b, List.mem_append_right buckets hb, rfl⟩
        exact Nat.not_lt.mpr (Nat.le_trans hreached hraw) hbilled.2.2
      · exact not_endsBucket_of_empty hs hf hle hends
    rw [hempty, List.append_nil]

end Notified

/-! ### Builds -/

/-- What a build up to a target leaves behind. -/
theorem built_aimedAt {j : Interval} {closed : Bool} (h : (i.aimedAt target).built closed = .ok j) :
    (i.frozen closed).events ≠ [] ∧ ((i.frozen closed).aimedAt target).computeBuckets = .ok j.buckets ∧
      ((i.frozen closed).aimedAt target).computeNotification = .ok j.nextNotification ∧
      j.startDate = (i.frozen closed).startDate ∧ j.endDate = (i.frozen closed).endDate := by
  obtain ⟨-, hne, buckets, next, hbuckets, hnext, rfl⟩ := built_eq_ok.mp h
  exact ⟨hne, hbuckets, hnext, rfl, rfl⟩

/-- A build up to a target before the next notification has the buckets of the earlier build. -/
theorem buckets_eq_of_notification {j j' : Interval} {closed : Bool} (hle : target ≤ target')
    (hj : (i.aimedAt target).built closed = .ok j) (hj' : (i.aimedAt target').built closed = .ok j')
    (hbefore : ∀ n, j.nextNotification = some n → target' < n) : j'.buckets = j.buckets := by
  obtain ⟨hne, hbuckets, hnext, -⟩ := built_aimedAt hj
  obtain ⟨-, hbuckets', -⟩ := built_aimedAt hj'
  cases hnotified : j.nextNotification with
  | none =>
      rw [hnotified] at hnext
      exact buckets_of_no_notification hne hle hnext hbuckets hbuckets'
  | some n =>
      rw [hnotified] at hnext
      exact buckets_before_notification hne hle (hbefore n hnotified) hnext hbuckets hbuckets'

/-- Targets that move on only extend the buckets, and the next notification is the next date on which they
grow: without one the interval has ended and nothing is ever added, and with one nothing is added before it and
one bucket on it. Nothing is added even then if that bucket lies before the raw usage start or the interval is
empty. -/
theorem targets_extend_buckets {i j : Interval} {closed : Bool} {target : Date}
    (hj : (i.aimedAt target).built closed = .ok j) :
    (∀ target' j', target ≤ target' → (i.aimedAt target').built closed = .ok j' → j.buckets <+: j'.buckets) ∧
    (j.nextNotification = none ↔ closed = true ∧ ∃ f, j.endDate = .ok (some f) ∧ f ≤ target) ∧
    (j.nextNotification = none → ∀ target' j', target ≤ target' → (i.aimedAt target').built closed = .ok j' →
      j'.buckets = j.buckets) ∧
    ∀ n, j.nextNotification = some n → target < n ∧
      (∀ target' j', target ≤ target' → target' < n → (i.aimedAt target').built closed = .ok j' →
        j'.buckets = j.buckets) ∧
      ∀ j', (i.aimedAt n).built closed = .ok j' →
        let unbilled := n ≤ i.terms.rawUsageStart ∨
          closed = true ∧ ∃ s f, j.startDate = .ok s ∧ j.endDate = .ok (some f) ∧ f ≤ s
        (¬ unbilled → ∃ b, j'.buckets = j.buckets ++ [b] ∧ b.finish = n) ∧ (unbilled → j'.buckets = j.buckets) := by
  obtain ⟨hne, hbuckets, hnext, hstart, hend⟩ := built_aimedAt hj
  have hclosed : ∀ f, (i.frozen closed).endDate = .ok (some f) → closed = true := by
    intro f hf
    cases closed with
    | true => rfl
    | false => cases hf
  rw [hstart, hend]
  refine ⟨fun target' j' hle hj' => ?_, ?_, fun hnone target' j' hle hj' => ?_, fun n hn => ?_⟩
  · obtain ⟨-, hbuckets', -⟩ := built_aimedAt hj'
    obtain ⟨more, hmore, -⟩ := buckets_aimedAt hne hle hbuckets hbuckets'
    exact ⟨more, hmore.symm⟩
  · rw [notification_eq_none_iff hnext]
    exact ⟨fun ⟨f, hf, hle⟩ => ⟨hclosed f hf, f, hf, hle⟩, And.right⟩
  · refine buckets_eq_of_notification hle hj hj' fun n hn => ?_
    rw [hnone] at hn
    cases hn
  · rw [hn] at hnext
    refine ⟨target_lt_notification hnext, fun target' j' hle hlt hj' => ?_, fun j' hj' => ?_⟩
    · refine buckets_eq_of_notification hle hj hj' fun n' hn' => ?_
      obtain rfl := Option.some.inj (hn.symm.trans hn')
      exact hlt
    · obtain ⟨-, hbuckets', -⟩ := built_aimedAt hj'
      have hempty : (closed = true ∧ ∃ s f, (i.frozen closed).startDate = .ok s ∧
          (i.frozen closed).endDate = .ok (some f) ∧ f ≤ s) ↔
          ∃ s f, (i.frozen closed).startDate = .ok s ∧ (i.frozen closed).endDate = .ok (some f) ∧ f ≤ s :=
        ⟨And.right, fun ⟨s, f, hs, hf, hle⟩ => ⟨hclosed f hf, s, f, hs, hf, hle⟩⟩
      rw [hempty]
      exact buckets_at_notification hne hnext hbuckets hbuckets'

namespace Sample

/-- Calls that are billed each month on its first day. -/
def calls : Usage where
  name := "api"
  billingMode := .inArrear
  pricing := .consumable
  period := .monthly
  tiers := [⟨[⟨"calls", .ofNat 1, .ofNat 2, none⟩], [], none⟩]

def firstDay : Date := ⟨738156, by decide, by decide⟩

def tenthDay : Date := ⟨738196, by decide, by decide⟩

def endDay : Date := ⟨738206, by decide, by decide⟩

def usageStart : Date := ⟨738100, by decide, by decide⟩

def event (day : Date) (usages : List Usage) : BillingEvent where
  subscriptionId := "subscription"
  effective := ⟨day, 0, some 0⟩
  catalogVersion := ⟨firstDay, 0, some 0⟩
  cycleDay := 1
  planName := "plan"
  phaseName := "phase"
  currency := "USD"
  usages

/-- Calls from the first of January to the twentieth of February 2022. -/
def twoMonths : Interval where
  usage := calls
  terms := ⟨"account", "invoice", [], [], endDay, usageStart, .aggregate, false, .utc⟩
  events := [⟨0, event firstDay [calls], some ["calls"]⟩, ⟨1, event endDay [], none⟩]
  stage := .accumulating
  buckets := []
  nextNotification := none

end Sample

theorem targets_extend_buckets_to_end : ∃ j j',
    (Sample.twoMonths.aimedAt Sample.tenthDay).built true = .ok j ∧ j.nextNotification = some Sample.endDay ∧
      (Sample.twoMonths.aimedAt Sample.endDay).built true = .ok j' ∧
        ∃ b, j'.buckets = j.buckets ++ [b] ∧ b.finish = Sample.endDay := by
  obtain ⟨j, hj⟩ : ∃ j, (Sample.twoMonths.aimedAt Sample.tenthDay).built true = .ok j := by
    refine exists_ok_of_isOk ?_
    decide +kernel
  obtain ⟨j', hj'⟩ : ∃ j', (Sample.twoMonths.aimedAt Sample.endDay).built true = .ok j' := by
    refine exists_ok_of_isOk ?_
    decide +kernel
  have hnotified : ((Sample.twoMonths.aimedAt Sample.tenthDay).built true).map (·.nextNotification) =
      .ok (some Sample.endDay) := by decide +kernel
  have hdates : ((Sample.twoMonths.aimedAt Sample.tenthDay).built true).map (fun i => (i.startDate, i.endDate)) =
      .ok (.ok Sample.firstDay, .ok (some Sample.endDay)) := by decide +kernel
  rw [hj] at hnotified hdates
  have hnotified : j.nextNotification = some Sample.endDay := Except.ok.inj hnotified
  obtain ⟨hstart, hend⟩ := Prod.mk.inj (Except.ok.inj hdates)
  obtain ⟨-, -, hgrowth⟩ := (targets_extend_buckets hj).2.2.2 Sample.endDay hnotified
  refine ⟨j, j', hj, hnotified, hj', (hgrowth j' hj').1 ?_⟩
  rintro (hraw | ⟨-, s, f, hs, hf, hle⟩)
  · revert hraw
    decide
  · rw [hstart] at hs
    rw [hend] at hf
    cases hs
    cases hf
    revert hle
    decide

end UsageBilling.Interval
