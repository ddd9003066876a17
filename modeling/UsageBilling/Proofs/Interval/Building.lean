import UsageBilling.Proofs.Calendar.Restart
import UsageBilling.Proofs.Interval.Schedule

/-! When an interval can be built. The event in force on a day depends on the dates of the events only
(`eventIndexAt_of_dates`). Where every event has a date, the cycle has a first boundary and the target lies before
the last year, building succeeds (`exists_built`). -/

namespace UsageBilling.Interval

/-- The number of the last of some dates that is not after a day, where they are numbered from `n` on; `index` where
there is none. -/
def inForceFrom (day : Date) (n index : Nat) : List Date → Nat
  | [] => index
  | d :: ds => inForceFrom day (n + 1) (if d ≤ day then n else index) ds

/-- The number of the last of some dates that is not after a day; 0 where there is none. -/
def inForce (day : Date) (ds : List Date) : Nat := inForceFrom day 0 0 ds

/-! ### The event in force -/

section

variable {day d : Date} {ds ds' : List Date}

theorem inForceFrom_append (n index : Nat) :
    inForceFrom day n index (ds ++ ds') = inForceFrom day (n + ds.length) (inForceFrom day n index ds) ds' := by
  induction ds generalizing n index with
  | nil => rfl
  | cons d ds ih =>
      rw [List.cons_append, inForceFrom, inForceFrom, ih, List.length_cons, Nat.add_right_comm, Nat.add_assoc]

theorem inForceFrom_of_after (h : ∀ d ∈ ds, day < d) (n index : Nat) : inForceFrom day n index ds = index := by
  induction ds generalizing n with
  | nil => rfl
  | cons d ds ih =>
      obtain ⟨hd, hds⟩ := List.forall_mem_cons.mp h
      have hnot : ¬ d ≤ day := Nat.not_le.mpr hd
      rw [inForceFrom, if_neg hnot]
      exact ih hds (n + 1)

/-- Dates that are numbered from further on have their numbers moved on. -/
theorem inForceFrom_shift (shift n index : Nat) :
    inForceFrom day (shift + n) (shift + index) ds = shift + inForceFrom day n index ds := by
  induction ds generalizing n index with
  | nil => rfl
  | cons d ds ih =>
      rw [inForceFrom, inForceFrom, ← apply_ite (shift + ·)]
      exact ih (n + 1) _

theorem inForceFrom_lt {n index bound : Nat} (hn : n + ds.length ≤ bound) (hindex : index < bound) :
    inForceFrom day n index ds < bound := by
  induction ds generalizing n index with
  | nil => exact hindex
  | cons d ds ih =>
      rw [List.length_cons] at hn
      rw [inForceFrom]
      apply ih (by omega)
      split <;> omega

/-- Dates after the day have no part in it. -/
theorem inForce_append_of_after (h : ∀ d ∈ ds', day < d) : inForce day (ds ++ ds') = inForce day ds := by
  rw [inForce, inForceFrom_append]
  exact inForceFrom_of_after h _ _

/-- From a date on that is not after the day, the dates before it have no part in it. -/
theorem inForce_append_of_reached (h : d ≤ day) :
    inForce day (ds ++ d :: ds') = ds.length + inForce day (d :: ds') := by
  rw [inForce, inForce, inForceFrom_append, inForceFrom, inForceFrom, if_pos h, if_pos h, Nat.zero_add]
  exact inForceFrom_shift ds.length 1 0

theorem inForce_lt (hne : ds ≠ []) : inForce day ds < ds.length :=
  inForceFrom_lt (Nat.le_of_eq (Nat.zero_add _)) (List.length_pos_iff.mpr hne)

end

variable {i : Interval} {day : Date}

theorem foldlM_index_of_dates {es : List IntervalEvent} {ds : List Date}
    (h : (es.map (·.event)).mapM i.dateOf = .ok ds) (n index : Nat) :
    (es.zipIdx n).foldlM (fun index (p : IntervalEvent × Nat) => do
      let d ← i.dateOf p.1.event
      return if d ≤ day then p.2 else index) index = .ok (inForceFrom day n index ds) := by
  induction es generalizing ds n index with
  | nil =>
      obtain rfl := pure_eq_ok.mp h
      rfl
  | cons e es ih =>
      rw [List.map_cons, List.mapM_cons] at h
      obtain ⟨d, hd, h⟩ := bind_eq_ok.mp h
      obtain ⟨ds, hds, h⟩ := bind_eq_ok.mp h
      obtain rfl := pure_eq_ok.mp h
      refine foldlM_cons_eq_ok.mpr ⟨_, ?_, ih hds (n + 1) _⟩
      exact bind_eq_ok.mpr ⟨d, hd, rfl⟩

/-- The event in force on a day is found among the dates of the events. -/
theorem eventIndexAt_of_dates {ds : List Date} (h : (i.events.map (·.event)).mapM i.dateOf = .ok ds) :
    i.eventIndexAt day = .ok (inForce day ds) := foldlM_index_of_dates h 0 0

/-! ### Existence -/

section

variable {start : Date} {finish : Option Date} {first : BillingEvent} {ds : List Date}

theorem exists_boundaries (hstart : i.startDate = .ok start) (hfinish : i.endDate = .ok finish)
    (hfirst : i.firstEvent = .ok first) (hcycle : ∃ d, BillingCycle.date start first.cycleDay i.usage.period 0 = .ok d)
    (htarget : i.terms.target.year < 9999) : ∃ bs, i.boundaries = .ok bs := by
  by_cases hearly : i.terms.target < start
  · exact ⟨[start], boundaries_eq_ok.mpr ⟨start, finish, first, hstart, hfinish, hfirst, Or.inl ⟨hearly, rfl⟩⟩⟩
  · obtain ⟨cycle, hdates⟩ := BillingCycle.exists_datesUpTo hcycle htarget (beforeEnd finish)
    exact ⟨_, boundaries_eq_ok.mpr ⟨start, finish, first, hstart, hfinish, hfirst, Or.inr ⟨hearly, cycle, hdates, rfl⟩⟩⟩

theorem exists_buckets {bs : List Date} (hbs : i.boundaries = .ok bs)
    (hdates : (i.events.map (·.event)).mapM i.dateOf = .ok ds) : ∃ buckets, i.computeBuckets = .ok buckets := by
  have hbucket (p : Date × Date) : i.bucketOf p =
      .ok ⟨max p.1 i.terms.rawUsageStart, p.2, inForce p.1 ds, p.1⟩ := by
    rw [bucketOf, eventIndexAt_of_dates hdates]
    rfl
  exact ⟨_, computeBuckets_eq_ok.mpr ⟨bs, hbs, mapM_eq_ok_map _ fun p _ => hbucket p⟩⟩

theorem exists_notification (hstart : i.startDate = .ok start) (hfinish : i.endDate = .ok finish)
    (hfirst : i.firstEvent = .ok first) (hcycle : ∃ d, BillingCycle.date start first.cycleDay i.usage.period 0 = .ok d)
    (htarget : i.terms.target.year < 9999) : ∃ next, i.computeNotification = .ok next := by
  obtain ⟨after, hafter⟩ := BillingCycle.exists_firstAfter hcycle htarget
  rw [computeNotification, hfinish, hstart, hfirst]
  simp only [ok_bind, hafter]
  cases finish with
  | none => exact ⟨some after, rfl⟩
  | some f =>
      dsimp only
      split
      · exact ⟨none, rfl⟩
      · exact ⟨some (min after f), rfl⟩

end

/-- An interval whose events have dates can be built, if its cycle has a first boundary, up to a target before the
last year. -/
theorem exists_built {ds : List Date} {start : Date} {first : BillingEvent} (closed : Bool)
    (hstage : i.stage = .accumulating) (hfirst : i.firstEvent = .ok first) (hstart : i.dateOf first = .ok start)
    (hdates : (i.events.map (·.event)).mapM i.dateOf = .ok ds)
    (hcycle : ∃ d, BillingCycle.date start first.cycleDay i.usage.period 0 = .ok d)
    (htarget : i.terms.target.year < 9999) : ∃ j, i.built closed = .ok j := by
  have hne : i.events ≠ [] := by
    intro hnil
    rw [firstEvent, hnil] at hfirst
    cases hfirst
  have hstarted : (i.frozen closed).startDate = .ok start := by
    rw [startDate]
    exact bind_eq_ok.mpr ⟨first, hfirst, hstart⟩
  have hended : ∃ finish, (i.frozen closed).endDate = .ok finish := by
    rw [endDate]
    split
    · obtain ⟨d, -, hd⟩ := exists_of_forall₂_left (mapM_eq_ok.mp hdates)
        (List.mem_map_of_mem (List.getLast_mem hne))
      refine ⟨some d, ?_⟩
      have hlast : (i.frozen closed).events.getLast? = some (i.events.getLast hne) := List.getLast?_eq_some_getLast hne
      rw [hlast]
      exact bind_eq_ok.mpr ⟨d, hd, rfl⟩
    · exact ⟨none, rfl⟩
  obtain ⟨finish, hfinish⟩ := hended
  obtain ⟨bs, hbs⟩ := exists_boundaries hstarted hfinish hfirst hcycle htarget
  obtain ⟨buckets, hbuckets⟩ := exists_buckets hbs hdates
  have hnotified : ∃ next, ({ i.frozen closed with buckets } : Interval).computeNotification = .ok next :=
    exists_notification hstarted hfinish hfirst hcycle htarget
  obtain ⟨next, hnext⟩ := hnotified
  exact ⟨_, built_eq_ok.mpr ⟨hstage, hne, buckets, next, hbuckets, hnext, rfl⟩⟩

end UsageBilling.Interval
