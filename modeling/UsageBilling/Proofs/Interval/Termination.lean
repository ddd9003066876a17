import UsageBilling.Proofs.Calendar.Traversal
import UsageBilling.Proofs.Interval.Building
import UsageBilling.Proofs.Interval.Targets

/-! Building ends. A build goes through the boundaries of the cycle twice, for the buckets and for the notification
(`Passes`), and what it computes is read off where the two passes end (`Passes.boundaries`, `Passes.notification`).
Both passes end for a supported period where the start and the target lie before the last year, with no more
boundaries than days from the start to the target (`exists_passes`). An interval whose events have dates before the
last year is then built, on whichever side of the target they lie and whether it is closed or not
(`build_ends`). -/

namespace UsageBilling.Interval

open BillingCycle (Traverses HasBoundaries exists_traverses_target datesUpTo_of_traverses firstAfter_of_traverses)

variable {i : Interval} {first : BillingEvent} {start beyond next : Date} {finish : Option Date}
  {cycle passed : List Date}

/-- The two passes of a build over the boundaries of the cycle: the first takes those up to the target and before the
end, the second leads past the target. -/
structure Passes (i : Interval) (first : BillingEvent) (start : Date) (finish : Option Date)
    (cycle : List Date) (beyond : Date) (passed : List Date) (next : Date) : Prop where
  bucketPass : Traverses (BillingCycle.date start first.cycleDay i.usage.period)
    (fun d => d ≤ i.terms.target && beforeEnd finish d) 0 cycle beyond
  notificationPass : Traverses (BillingCycle.date start first.cycleDay i.usage.period)
    (fun d => d ≤ i.terms.target) 0 passed next
  cycle_length : cycle.length ≤ i.terms.target.ordinal - start.ordinal
  passed_length : passed.length ≤ i.terms.target.ordinal - start.ordinal

/-- The date to notify at, where `next` is the first boundary after the target. -/
def notifyAt (target next : Date) : Option Date → Option Date
  | none => some next
  | some f => if f ≤ target then none else some (min next f)

/-- The boundaries of the buckets are those of the first pass, if the target has reached the start. -/
theorem Passes.boundaries (h : i.Passes first start finish cycle beyond passed next)
    (hstart : i.startDate = .ok start) (hfinish : i.endDate = .ok finish) (hfirst : i.firstEvent = .ok first) :
    i.boundaries = .ok (if i.terms.target < start then [start]
      else start :: cycle ++ endBoundary start i.terms.target finish) := by
  rw [boundaries_eq_ok]
  refine ⟨start, finish, first, hstart, hfinish, hfirst, ?_⟩
  by_cases hearly : i.terms.target < start
  · exact Or.inl ⟨hearly, if_pos hearly⟩
  · have hcycle := datesUpTo_of_traverses (Nat.not_lt.mp hearly) h.bucketPass h.cycle_length
    exact Or.inr ⟨hearly, cycle, hcycle, if_neg hearly⟩

/-- The notification is where the second pass ends, unless the interval ends before that. -/
theorem Passes.notification (h : i.Passes first start finish cycle beyond passed next)
    (hstart : i.startDate = .ok start) (hfinish : i.endDate = .ok finish) (hfirst : i.firstEvent = .ok first) :
    i.computeNotification = .ok (notifyAt i.terms.target next finish) := by
  have hafter := firstAfter_of_traverses h.notificationPass h.passed_length
  rw [computeNotification, hfinish, hstart, hfirst]
  simp only [ok_bind, hafter]
  cases finish with
  | none => rfl
  | some f =>
      rw [notifyAt]
      dsimp only
      split <;> rfl

/-- Away from the last year both passes end, on whichever side of the start the target and the end lie. -/
theorem exists_passes (hcycle : HasBoundaries first.cycleDay i.usage.period) (hstart : start.year < 9999)
    (htarget : i.terms.target.year < 9999) (finish : Option Date) :
    ∃ cycle beyond passed next, i.Passes first start finish cycle beyond passed next := by
  have hwanted (d : Date) (h : (decide (d ≤ i.terms.target) && beforeEnd finish d) = true) : d ≤ i.terms.target :=
    of_decide_eq_true (Bool.and_eq_true_iff.mp h).1
  obtain ⟨cycle, beyond, hbuckets, hcount⟩ := exists_traverses_target hcycle hstart htarget hwanted
  obtain ⟨passed, next, hnotification, hcount'⟩ :=
    exists_traverses_target hcycle hstart htarget fun d h => of_decide_eq_true h
  exact ⟨cycle, beyond, passed, next, hbuckets, hnotification, hcount, hcount'⟩

/-- What a build that succeeds leaves behind. -/
structure BuiltFrom (i : Interval) (closed : Bool) (j : Interval) : Prop where
  returned : i.build closed = (j, .ok ())
  usage : j.usage = i.usage
  terms : j.terms = i.terms
  events : j.events = i.events
  buckets : j.computeBuckets = .ok j.buckets
  notification : j.computeNotification = .ok j.nextNotification

theorem builtFrom_of_built {j : Interval} {closed : Bool} (h : i.built closed = .ok j) : BuiltFrom i closed j := by
  have hreturned : i.build closed = (j, .ok ()) := by
    rw [built] at h
    cases hb : i.build closed with
    | mk k result =>
        rw [hb] at h
        cases result with
        | ok _ => rw [Except.ok.inj h]
        | error e => cases h
  obtain ⟨-, -, buckets, next, hbuckets, hnext, rfl⟩ := built_eq_ok.mp h
  exact ⟨hreturned, rfl, rfl, rfl, hbuckets, hnext⟩

theorem exists_event_of_firstEvent (h : i.firstEvent = .ok first) : ∃ e ∈ i.events, e.event = first := by
  rw [firstEvent] at h
  split at h
  next e he => exact ⟨e, List.mem_of_head? he, Except.ok.inj h⟩
  next => cases h

/-- An interval that is not built yet, is billed in a supported period and whose events and target have dates in
years up to 9998 is built. Both passes over the boundaries end, each boundary met on the way being a date, and give
the boundaries of the buckets and the notification. -/
theorem build_ends (closed : Bool) (hopen : i.isBuilt = false) (hfirst : i.firstEvent = .ok first)
    (hcycle : HasBoundaries first.cycleDay i.usage.period)
    (hevents : ∀ e ∈ i.events, ∃ d, i.dateOf e.event = .ok d ∧ d.year ≤ 9998) (htarget : i.terms.target.year ≤ 9998) :
    ∃ j start finish cycle beyond passed next, i.build closed = (j, .ok ()) ∧
      j.startDate = .ok start ∧ j.endDate = .ok finish ∧ j.Passes first start finish cycle beyond passed next ∧
      j.boundaries = .ok (if j.terms.target < start then [start]
        else start :: cycle ++ endBoundary start j.terms.target finish) ∧
      j.computeBuckets = .ok j.buckets ∧ j.nextNotification = notifyAt j.terms.target next finish := by
  have hstage : i.stage = .accumulating := by simpa [isBuilt] using hopen
  have htarget : i.terms.target.year < 9999 := Nat.lt_succ_of_le htarget
  obtain ⟨opening, hopening, rfl⟩ := exists_event_of_firstEvent hfirst
  obtain ⟨start, hstart, hyear⟩ := hevents opening hopening
  have hyear : start.year < 9999 := Nat.lt_succ_of_le hyear
  obtain ⟨ds, hdates⟩ : ∃ ds, (i.events.map (·.event)).mapM i.dateOf = .ok ds := by
    refine exists_mapM_eq_ok (List.forall_mem_map.mpr fun e he => ?_)
    obtain ⟨d, hd, -⟩ := hevents e he
    exact ⟨d, hd⟩
  obtain ⟨j, hj⟩ := exists_built closed hstage hfirst hstart hdates
    (BillingCycle.exists_date_zero_of_year hcycle hyear) htarget
  have hbuilt := builtFrom_of_built hj
  have hfirst : j.firstEvent = .ok opening.event := by rw [firstEvent, hbuilt.events, ← firstEvent, hfirst]
  have hstart : j.startDate = .ok start := by
    rw [startDate, hfirst, ok_bind, dateOf, hbuilt.terms, ← dateOf, hstart]
  obtain ⟨bs, hbs, -⟩ := computeBuckets_eq_ok.mp hbuilt.buckets
  obtain ⟨-, finish, -, -, hfinish, -⟩ := boundaries_eq_ok.mp hbs
  rw [← hbuilt.terms] at htarget
  rw [← hbuilt.usage] at hcycle
  obtain ⟨cycle, beyond, passed, next, hpasses⟩ := exists_passes hcycle hyear htarget finish
  have hnext := hpasses.notification hstart hfinish hfirst
  exact ⟨j, start, finish, cycle, beyond, passed, next, hbuilt.returned, hstart, hfinish, hpasses,
    hpasses.boundaries hstart hfinish hfirst, hbuilt.buckets, Except.ok.inj (hbuilt.notification.symm.trans hnext)⟩

namespace Sample

def lateStart : Date := ⟨3651360, by decide, by decide⟩

def lateEnd : Date := ⟨3651694, by decide, by decide⟩

/-- An event that sets the cycle day to the last day of the month. -/
def monthEnd (day : Date) (usages : List Usage) : BillingEvent := { event day usages with cycleDay := 31 }

/-- Calls from the end of January 9998 to the end of the year. -/
def lateMonths : Interval :=
  { twoMonths with
    terms := { twoMonths.terms with target := lateEnd }
    events := [⟨0, monthEnd lateStart [calls], none⟩, ⟨1, monthEnd lateEnd [], none⟩] }

end Sample

theorem build_ends_lateMonths : Sample.lateMonths.firstEvent = .ok (Sample.monthEnd Sample.lateStart [Sample.calls]) ∧
    Sample.lateStart.year = 9998 ∧ Sample.lateMonths.terms.target.year = 9998 ∧
      (Sample.lateMonths.build false).2 = .ok () := by
  have hevents : ∀ e ∈ Sample.lateMonths.events, ∃ d, Sample.lateMonths.dateOf e.event = .ok d ∧ d.year ≤ 9998 := by
    intro e he
    rcases List.mem_cons.mp he with rfl | he
    · exact ⟨Sample.lateStart, by decide +kernel⟩
    · obtain rfl := List.mem_singleton.mp he
      exact ⟨Sample.lateEnd, by decide +kernel⟩
  obtain ⟨j, start, finish, cycle, beyond, passed, next, hbuild, -⟩ :=
    build_ends (i := Sample.lateMonths) false rfl rfl (by decide) hevents (by decide +kernel)
  exact ⟨rfl, by decide +kernel, by decide +kernel, congrArg Prod.snd hbuild⟩

end UsageBilling.Interval
