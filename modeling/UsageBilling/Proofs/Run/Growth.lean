import UsageBilling.Proofs.Interval.Growth
import UsageBilling.Proofs.Run.Buckets
import UsageBilling.Proofs.Timeline.Growth

/-! The schedule of a run that is made again later, over a longer timeline and for the same or a later target.
Where all further events lie after the first target, the schedule has the buckets it had, billed by
intervals that have grown, and further ones that end after the first target (`Run.schedule_grows`). -/

namespace UsageBilling

/-- Terms that differ in what does not move a bucket: they have one zone and one start of the raw usage, and the
target does not move back. -/
structure Terms.Precedes (t t' : Terms) : Prop where
  zone : t.zone = t'.zone
  rawUsageStart : t.rawUsageStart = t'.rawUsageStart
  target : t.target ≤ t'.target

namespace ActivityRun.Built

variable {terms terms' : Terms} {events more : List BillingEvent} {σ : ActivityRun} {i j : Interval}

/-- The interval of a run grows as further events come. -/
theorem grows (hterms : terms.Precedes terms')
    (hlater : ∀ e ∈ more, ∀ d, terms'.zone.localDate e.effective = .ok d → terms.target < d)
    (hfirst : σ.first < events.length) (hi : Built terms events (σ.cut events.length) i)
    (hj : Built terms' (events ++ more) σ j) : i.Grows j := by
  obtain ⟨later, hrecorded, hmore, hended⟩ := recorded_cut more hfirst
  rw [← hi.recorded, ← hj.recorded] at hrecorded
  have hclosed (h : i.isClosed = true) : σ.last + 1 < events.length := by
    rw [hi.closed] at h
    have hlt : min σ.last (events.length - 1) + 1 < events.length := of_decide_eq_true h
    omega
  refine ⟨by rw [hi.usage, hj.usage, usage_cut], by rw [hi.terms, hj.terms, hterms.zone],
    by rw [hi.terms, hj.terms, hterms.rawUsageStart], by rw [hi.terms, hj.terms]; exact hterms.target,
    hi.events_ne_nil, ⟨later, hrecorded, fun e he d hd => ?_⟩, fun h => ⟨?_, ?_⟩, fun h f hf => ?_⟩
  · rw [hi.terms]
    refine hlater e.event (hmore e he) d ?_
    rw [Interval.dateOf, hj.terms] at hd
    exact liftM_calendar_eq_ok.mp hd
  · rw [hj.closed, List.length_append]
    have := hclosed h
    exact decide_eq_true (by omega)
  · rw [hrecorded, hended (hclosed h), List.append_nil]
  · rw [hi.terms]
    have hopen : ¬ σ.last + 1 < events.length := by
      intro hlt
      rw [hi.closed, cut_of_last_lt (by omega), decide_eq_true hlt] at h
      cases h
    by_cases hlast : σ.last + 1 < (events ++ more).length
    · have he := List.getElem?_eq_getElem hlast
      have hmem : (events ++ more)[σ.last + 1] ∈ more := by
        rw [List.getElem_append_right (by omega)]
        exact List.getElem_mem _
      rw [hj.endDate_ended he] at hf
      obtain ⟨d, hd, hf⟩ := bind_eq_ok.mp hf
      obtain rfl := Option.some.inj (pure_eq_ok.mp hf)
      exact hlater _ hmem d (liftM_calendar_eq_ok.mp hd)
    · rw [hj.endDate_ongoing hlast] at hf
      cases hf

theorem target_lt_start (hlater : ∀ e ∈ more, ∀ d, terms'.zone.localDate e.effective = .ok d → terms.target < d)
    (hfirst : ¬ σ.first < events.length) (hj : Built terms' (events ++ more) σ j) {start : Date}
    (hstart : j.startDate = .ok start) : terms.target < start := by
  obtain ⟨e, he, -⟩ := hj.maximal.opened
  rw [hj.startDate_eq he] at hstart
  rw [List.getElem?_append_right (Nat.not_lt.mp hfirst)] at he
  exact hlater e (List.mem_of_getElem? he) start (liftM_calendar_eq_ok.mp hstart)

end ActivityRun.Built

namespace Run

open scoped List

theorem schedule_perm {is js : List Interval} (h : is.Perm js) : (schedule is).Perm (schedule js) :=
  h.flatMap_right _

/-- The buckets of intervals that have grown are the ones they had and further ones, which end after the
target. -/
theorem schedule_of_grows {target : Date} {is js : List Interval}
    (h : List.Forall₂ (fun i j => i.Grows j ∧ i.terms.target = target ∧ i.computeBuckets = .ok i.buckets ∧
      j.computeBuckets = .ok j.buckets) is js) : ∃ old new,
      List.Forall₂ (fun p q => p.2 = q.2 ∧ p.1.Grows q.1) (schedule is) old ∧ (old ++ new).Perm (schedule js) ∧
      ∀ q ∈ new, target < q.2.finish := by
  induction h with
  | nil => exact ⟨[], [], .nil, .nil, by simp⟩
  | @cons i j is js hij _ ih =>
      obtain ⟨hgrows, rfl, hi, hj⟩ := hij
      obtain ⟨old, new, hold, hperm, hnew⟩ := ih
      obtain ⟨later, hlater, hafter⟩ := hgrows.buckets hi hj
      refine ⟨i.buckets.map (j, ·) ++ old, later.map (j, ·) ++ new, ?_, ?_, fun q hq => ?_⟩
      · refine List.rel_append ?_ hold
        rw [List.forall₂_map_left_iff, List.forall₂_map_right_iff, List.forall₂_same]
        exact fun b _ => ⟨rfl, hgrows⟩
      · rw [schedule, List.flatMap_cons, ← schedule, hlater, List.map_append]
        calc (i.buckets.map (j, ·) ++ old) ++ (later.map (j, ·) ++ new)
            = i.buckets.map (j, ·) ++ (old ++ (later.map (j, ·) ++ new)) := List.append_assoc ..
          _ ~ i.buckets.map (j, ·) ++ (later.map (j, ·) ++ (old ++ new)) :=
              (List.perm_append_comm_assoc ..).append_left _
          _ = (i.buckets.map (j, ·) ++ later.map (j, ·)) ++ (old ++ new) := (List.append_assoc ..).symm
          _ ~ (i.buckets.map (j, ·) ++ later.map (j, ·)) ++ schedule js := hperm.append_left _
      · rcases List.mem_append.mp hq with hq | hq
        · obtain ⟨b, hb, rfl⟩ := List.mem_map.mp hq
          exact hafter b hb
        · exact hnew q hq

/-- The schedule of a later run has the buckets of the first run and further ones, which end after the first
target. -/
theorem schedule_grows {terms terms' : Terms} {events more : List BillingEvent} {is js : List Interval}
    (hterms : terms.Precedes terms')
    (hlater : ∀ e ∈ more, ∀ d, terms'.zone.localDate e.effective = .ok d → terms.target < d)
    (his : List.Forall₂ (ActivityRun.Built terms events) (activityRuns events) is)
    (hjs : List.Forall₂ (ActivityRun.Built terms' (events ++ more)) (activityRuns (events ++ more)) js) :
    ∃ first old new, first.Perm (schedule is) ∧ (old ++ new).Perm (schedule js) ∧
      List.Forall₂ (fun p q => p.2 = q.2 ∧ p.1.Grows q.1) first old ∧ ∀ q ∈ new, terms.target < q.2.finish := by
  obtain ⟨js', hjs', hjsperm⟩ := exists_perm_of_forall₂
    (List.filter_append_perm (·.first < events.length) (activityRuns (events ++ more))) hjs
  obtain ⟨started, later, rfl, hstarted, hrest⟩ := exists_append_of_forall₂ hjs'
  obtain ⟨is', his', hisperm⟩ := exists_perm_of_forall₂ (activityRuns_cut_perm events more) his
  have hgrown : List.Forall₂ (fun i j => i.Grows j ∧ i.terms.target = terms.target ∧
      i.computeBuckets = .ok i.buckets ∧ j.computeBuckets = .ok j.buckets) is' started := by
    have hstarted := (List.forall₂_and_left _ _).mpr ⟨fun σ hσ => (List.mem_filter.mp hσ).2, hstarted⟩
    refine forall₂_of_common (List.forall₂_map_left_iff.mp his') hstarted fun σ i j hi hj => ?_
    exact ⟨hi.grows hterms hlater (of_decide_eq_true hj.1) hj.2, by rw [hi.terms], hi.buckets, hj.2.buckets⟩
  obtain ⟨old, new, hold, hperm, hnew⟩ := schedule_of_grows hgrown
  refine ⟨schedule is', old, new ++ schedule later, schedule_perm hisperm, ?_, hold, fun q hq => ?_⟩
  · calc old ++ (new ++ schedule later) = (old ++ new) ++ schedule later := (List.append_assoc ..).symm
      _ ~ schedule started ++ schedule later := hperm.append_right _
      _ = schedule (started ++ later) := (List.flatMap_append ..).symm
      _ ~ schedule js := schedule_perm hjsperm
  · rcases List.mem_append.mp hq with hq | hq
    · exact hnew q hq
    · obtain ⟨hj, hb⟩ := mem_schedule.mp hq
      obtain ⟨σ, hσ, hj⟩ := exists_of_forall₂_right hrest hj
      obtain ⟨start, finish, hstart, hfinish⟩ := hj.dates
      have hlt := hj.target_lt_start hlater (by simpa using (List.mem_filter.mp hσ).2) hstart
      have hb := (Interval.buckets_spec hstart hfinish hj.buckets).1 q.2 hb
      have hle := hb.after_start
      have hne := hb.nonempty
      rw [Date.lt_def, Date.le_def] at *
      omega

end Run
end UsageBilling
