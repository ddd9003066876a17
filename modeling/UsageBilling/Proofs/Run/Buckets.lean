import Mathlib.Data.List.Flatten
import UsageBilling.Proofs.Calendar.LocalDate
import UsageBilling.Proofs.Run.ActivityIntervals

/-! The buckets of a run. The interval of an activity run starts on the local date of its first event and
ends on that of the event that ends the run (`Built.startDate_eq`, `Built.endDate_eq`). Local dates do
not go backwards, so of two intervals of one usage name the first has ended when the second starts,
and the buckets of the name follow each other without an overlap (`Run.schedule_apart`). -/

namespace UsageBilling

/-- An interval is the built one of an activity run. -/
structure ActivityRun.Built (terms : Terms) (events : List BillingEvent) (ρ : ActivityRun) (i : Interval) :
    Prop where
  maximal : IsMaximalRun events ρ
  usage : i.usage = ρ.usage
  terms : i.terms = terms
  recorded : i.events = ρ.recorded events
  closed : i.isClosed = decide (ρ.last + 1 < events.length)
  built : i.isBuilt = true
  buckets : i.computeBuckets = .ok i.buckets
  notification : i.computeNotification = .ok i.nextNotification

namespace ActivityRun

variable {terms : Terms} {events : List BillingEvent} {ρ σ : ActivityRun} {i j : Interval}

theorem built_of_eq_ok (hrun : IsMaximalRun events ρ) (h : ρ.built terms events = .ok i) :
    Built terms events ρ i := by
  obtain ⟨-, -, buckets, next, hbuckets, hnext, rfl⟩ := Interval.built_eq_ok.mp h
  refine ⟨hrun, rfl, rfl, rfl, ?_, ?_, hbuckets, hnext⟩
  · by_cases hclosed : ρ.last + 1 < events.length
    · simp [Interval.isClosed, Interval.frozen, hclosed]
    · simp [Interval.isClosed, Interval.frozen, hclosed]
  · by_cases hclosed : ρ.last + 1 < events.length
    · simp [Interval.isBuilt, Interval.frozen, hclosed]
    · simp [Interval.isBuilt, Interval.frozen, hclosed]

theorem Built.firstEvent_eq (h : Built terms events ρ i) {e : BillingEvent} (he : events[ρ.first]? = some e) :
    i.firstEvent = .ok e := by
  rw [Interval.firstEvent, h.recorded, head?_recorded h.maximal he]

theorem Built.startDate_eq (h : Built terms events ρ i) {e : BillingEvent} (he : events[ρ.first]? = some e) :
    i.startDate = liftM (terms.zone.localDate e.effective) := by
  rw [Interval.startDate, h.firstEvent_eq he, ok_bind, Interval.dateOf, h.terms]

theorem Built.events_ne_nil (h : Built terms events ρ i) : i.events ≠ [] := by
  obtain ⟨e, he, -⟩ := h.maximal.opened
  intro hnil
  have hhead := head?_recorded h.maximal he
  rw [← h.recorded, hnil] at hhead
  cases hhead

theorem Built.endDate_ongoing (h : Built terms events ρ i) (hlast : ¬ ρ.last + 1 < events.length) :
    i.endDate = .ok none := by
  rw [Interval.endDate, h.closed, decide_eq_false hlast]
  rfl

theorem Built.endDate_ended (h : Built terms events ρ i) {e : BillingEvent} (he : events[ρ.last + 1]? = some e) :
    i.endDate = (do return some (← liftM (terms.zone.localDate e.effective)) : Except Error (Option Date)) := by
  have hlast : ρ.last + 1 < events.length := (List.getElem?_eq_some_iff.mp he).1
  rw [Interval.endDate, h.closed, decide_eq_true hlast, if_pos rfl, h.recorded, getLast?_recorded he,
    ← h.terms]
  rfl

theorem Built.dates (h : Built terms events ρ i) :
    ∃ start finish, i.startDate = .ok start ∧ i.endDate = .ok finish := by
  obtain ⟨bs, hbs, -⟩ := Interval.computeBuckets_eq_ok.mp h.buckets
  obtain ⟨start, finish, -, hstart, hfinish, -⟩ := Interval.boundaries_eq_ok.mp hbs
  exact ⟨start, finish, hstart, hfinish⟩

/-- An interval has ended when the interval of a later run starts, also if that is built under other terms in the
same zone. -/
theorem Built.finish_le_start {terms' : Terms} (hsame : terms.zone = terms'.zone) (hzone : terms.zone.Covered)
    (hsorted : events.Pairwise fun a b => a.effective.utc ≤ b.effective.utc) (hi : Built terms events ρ i)
    (hj : Built terms' events σ j) (hlt : ρ.last < σ.first) :
    ∃ finish start, i.endDate = .ok (some finish) ∧ j.startDate = .ok start ∧ finish ≤ start := by
  have hfirst := hj.maximal.first_lt
  obtain ⟨e, he⟩ : ∃ e, events[ρ.last + 1]? = some e := ⟨_, List.getElem?_eq_getElem (by omega)⟩
  obtain ⟨e', he', -⟩ := hj.maximal.opened
  obtain ⟨-, finish, -, hfinish⟩ := hi.dates
  obtain ⟨start, -, hstart, -⟩ := hj.dates
  rw [hi.endDate_ended he] at hfinish
  obtain ⟨f, hf, hfinish⟩ := bind_eq_ok.mp hfinish
  obtain rfl := pure_eq_ok.mp hfinish
  have hs := hj.startDate_eq he' ▸ hstart
  rw [← hsame] at hs
  refine ⟨f, start, ?_, hstart, ?_⟩
  · rw [hi.endDate_ended he, hf]
    rfl
  · refine Zone.localDate_mono hzone ?_ (liftM_calendar_eq_ok.mp hf) (liftM_calendar_eq_ok.mp hs)
    rcases Nat.lt_or_eq_of_le (show ρ.last + 1 ≤ σ.first from hlt) with hlt | heq
    · obtain ⟨hm, rfl⟩ := List.getElem?_eq_some_iff.mp he
      obtain ⟨hn, rfl⟩ := List.getElem?_eq_some_iff.mp he'
      exact List.pairwise_iff_getElem.mp hsorted _ _ hm hn hlt
    · rw [heq, he', Option.some.injEq] at he
      exact Int.le_of_eq (by rw [he])

/-- The buckets of an interval have ended when those of the interval of a later run begin. -/
theorem Built.finish_le_alignedStart {terms' : Terms} (hsame : terms.zone = terms'.zone) (hzone : terms.zone.Covered)
    (hsorted : events.Pairwise fun a b => a.effective.utc ≤ b.effective.utc) (hi : Built terms events ρ i)
    (hj : Built terms' events σ j) (hlt : ρ.last < σ.first) {b c : Bucket} (hb : b ∈ i.buckets) (hc : c ∈ j.buckets) :
    b.finish ≤ c.alignedStart := by
  obtain ⟨f, start, hf, hstart, hle⟩ := hi.finish_le_start hsame hzone hsorted hj hlt
  obtain ⟨start', -, hstart', -⟩ := hi.dates
  obtain ⟨-, finish', -, hfinish'⟩ := hj.dates
  have hb := ((Interval.buckets_spec hstart' hf hi.buckets).1 b hb).before_finish f rfl
  have hc := ((Interval.buckets_spec hstart hfinish' hj.buckets).1 c hc).after_start
  rw [Date.le_def] at *
  omega

end ActivityRun

namespace Run

variable {request : RunRequest} {given : Option Settings} {inUse : Except Error Settings} {run : Run}
  {is : List Interval}

/-- The intervals of a run are the built ones of its activity runs. -/
theorem built_intervals (hcreate : create request given inUse = .ok run) (his : run.intervals = .ok is) :
    List.Forall₂ (ActivityRun.Built run.terms run.events) (activityRuns run.events) is := by
  obtain ⟨-, hbuilt⟩ := (Timeline.intervals_eq_ok (same_subscription hcreate)).mp his
  have hall := (List.forall₂_and_left _ _).mpr
    ⟨fun ρ hρ => mem_activityRuns_iff.mp hρ, mapM_eq_ok.mp hbuilt⟩
  exact hall.imp fun ρ i h => ActivityRun.built_of_eq_ok h.1 h.2

theorem exists_built (hcreate : create request given inUse = .ok run) (his : run.intervals = .ok is) {i : Interval}
    (hi : i ∈ is) : ∃ ρ, ActivityRun.Built run.terms run.events ρ i := by
  obtain ⟨ρ, -, hρ⟩ := exists_of_forall₂_right (built_intervals hcreate his) hi
  exact ⟨ρ, hρ⟩

/-- The buckets of some intervals in the order in which they are reconciled, each with its interval. -/
def schedule (is : List Interval) : List (Interval × Bucket) := is.flatMap fun i => i.buckets.map (i, ·)

theorem mem_schedule {is : List Interval} {p : Interval × Bucket} :
    p ∈ schedule is ↔ p.1 ∈ is ∧ p.2 ∈ p.1.buckets := by
  obtain ⟨i, b⟩ := p
  simp [schedule]

/-- The buckets of a schedule are those of intervals with a start and perhaps an end. -/
theorem within_of_mem_schedule (hcreate : create request given inUse = .ok run) (his : run.intervals = .ok is)
    {p : Interval × Bucket} (hp : p ∈ schedule is) : ∃ start finish,
      p.1.startDate = .ok start ∧ p.1.endDate = .ok finish ∧ p.1.Encloses start finish p.2 := by
  obtain ⟨hi, hb⟩ := mem_schedule.mp hp
  obtain ⟨ρ, hρ⟩ := exists_built hcreate his hi
  obtain ⟨start, finish, hstart, hfinish⟩ := hρ.dates
  exact ⟨start, finish, hstart, hfinish, (Interval.buckets_spec hstart hfinish hρ.buckets).1 p.2 hb⟩

theorem terms_of_mem_schedule (hcreate : create request given inUse = .ok run) (his : run.intervals = .ok is)
    {p : Interval × Bucket} (hp : p ∈ schedule is) : p.1.terms = run.terms := by
  obtain ⟨ρ, hρ⟩ := exists_built hcreate his (mem_schedule.mp hp).1
  exact hρ.terms

/-- The buckets of a schedule are those of usage sections that the events of the run list. -/
theorem usage_of_mem_schedule (hcreate : create request given inUse = .ok run) (his : run.intervals = .ok is)
    {p : Interval × Bucket} (hp : p ∈ schedule is) : ∃ e ∈ request.events, p.1.usage ∈ e.usages := by
  obtain ⟨-, -, hevents, -⟩ := create_eq_ok.mp hcreate
  obtain ⟨ρ, hρ⟩ := exists_built hcreate his (mem_schedule.mp hp).1
  obtain ⟨e, he, -, hsection⟩ := hρ.maximal.opened
  rw [hρ.usage]
  exact ⟨e, hevents ▸ List.mem_of_getElem? he, List.mem_of_find?_eq_some hsection⟩

/-- The buckets of one usage name follow each other: each ends before the next one begins. -/
theorem schedule_apart (hcreate : create request given inUse = .ok run) (hzone : run.terms.zone.Covered)
    (his : run.intervals = .ok is) : (schedule is).Pairwise fun p q =>
      p.1.usage.name = q.1.usage.name → p.2.finish ≤ q.2.alignedStart := by
  have hall := built_intervals hcreate his
  have hsorted := events_sorted hcreate
  refine List.pairwise_flatMap.mpr ⟨fun i hi => ?_, ?_⟩
  · obtain ⟨ρ, -, hρ⟩ := exists_of_forall₂_right hall hi
    obtain ⟨start, finish, hstart, hfinish⟩ := hρ.dates
    exact List.pairwise_map.mpr ((Interval.buckets_spec hstart hfinish hρ.buckets).2.imp fun hbc => fun _ => hbc)
  · refine pairwise_of_forall₂ hall (fun ρ i σ j hi hj h => ?_) (activityRuns_sorted run.events)
    intro p hp q hq hname
    obtain ⟨b, hb, rfl⟩ := List.mem_map.mp hp
    obtain ⟨c, hc, rfl⟩ := List.mem_map.mp hq
    have hruns : ρ.usage.name = σ.usage.name := by rw [← hi.usage, ← hj.usage, hname]
    exact hi.finish_le_alignedStart rfl hzone hsorted hj (h.last_lt_first hi.maximal hj.maximal hruns) hb hc

/-- Two buckets of one usage name do not overlap. -/
def Apart (p q : Interval × Bucket) : Prop :=
  p.1.usage.name = q.1.usage.name → p.2.finish ≤ q.2.alignedStart ∨ q.2.finish ≤ p.2.alignedStart

theorem Apart.symm {p q : Interval × Bucket} (h : Apart p q) : Apart q p := fun hname => (h hname.symm).symm

instance : Std.Symm Apart := ⟨fun _ _ => Apart.symm⟩

theorem schedule_pairwise_apart (hcreate : create request given inUse = .ok run)
    (hzone : run.terms.zone.Covered) (his : run.intervals = .ok is) : (schedule is).Pairwise Apart :=
  (schedule_apart hcreate hzone his).imp fun h hname => Or.inl (h hname)

end Run
end UsageBilling
