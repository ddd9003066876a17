import UsageBilling.Proofs.Run.Buckets

/-! The order of dates in a run. Of the events of an interval, which are in the order of their instants, the first
has no later local date than the last (`Interval.startDate_le_endDate`), so that a closed interval does not end
before it starts. The interval of an activity run records events in that order (`ActivityRun.Built.eventsSorted`), and
of two intervals of one usage name the one that was opened first has ended when the other starts
(`Zone.local_dates_advance`). -/

namespace UsageBilling

namespace Interval

def EventsSorted (i : Interval) : Prop :=
  i.events.Pairwise fun x y => x.event.effective.utc ≤ y.event.effective.utc

/-- An interval was opened by the event at a place of the timeline. -/
def OpenedAt (i : Interval) (place : Nat) : Prop := i.events.head?.map (·.place) = some place

theorem startDate_le_endDate {i : Interval} (hzone : i.terms.zone.Covered) (hsorted : i.EventsSorted)
    {start finish : Date} (hstart : i.startDate = .ok start) (hfinish : i.endDate = .ok (some finish)) :
    start ≤ finish := by
  obtain ⟨e, he, hstart⟩ := bind_eq_ok.mp hstart
  rw [firstEvent] at he
  rw [endDate] at hfinish
  split at hfinish
  next =>
    cases hevents : i.events with
    | nil =>
        rw [hevents] at he
        cases he
    | cons x xs =>
        rw [hevents] at he hfinish
        obtain rfl := Except.ok.inj he
        rw [List.getLast?_cons] at hfinish
        obtain ⟨f, hf, hfinish⟩ := bind_eq_ok.mp hfinish
        obtain rfl := Option.some.inj (pure_eq_ok.mp hfinish)
        refine Zone.localDate_mono hzone ?_ (liftM_calendar_eq_ok.mp hstart) (liftM_calendar_eq_ok.mp hf)
        rw [EventsSorted, hevents, List.pairwise_cons] at hsorted
        cases hlast : xs.getLast? with
        | none => exact Int.le_refl _
        | some y => exact hsorted.1 y (List.mem_of_getLast? hlast)
  next => cases hfinish

theorem dates_of_built {i j : Interval} {closed : Bool} (h : i.built closed = .ok j) :
    ∃ start finish, j.startDate = .ok start ∧ j.endDate = .ok finish ∧ (closed = true → finish.isSome = true) := by
  obtain ⟨-, -, buckets, next, hbuckets, -, rfl⟩ := built_eq_ok.mp h
  obtain ⟨bs, hbs, -⟩ := computeBuckets_eq_ok.mp hbuckets
  obtain ⟨start, finish, -, hstart, hfinish, -⟩ := boundaries_eq_ok.mp hbs
  refine ⟨start, finish, hstart, hfinish, fun hclosed => ?_⟩
  subst hclosed
  have hfrozen : (i.frozen true).isClosed = true := rfl
  rw [endDate, hfrozen, if_pos rfl] at hfinish
  split at hfinish
  · obtain ⟨f, -, hfinish⟩ := bind_eq_ok.mp hfinish
    obtain rfl := pure_eq_ok.mp hfinish
    rfl
  · cases hfinish

end Interval

namespace ActivityRun.Built

variable {terms : Terms} {events : List BillingEvent} {ρ : ActivityRun} {i : Interval}

/-- The interval of an activity run records events in the order of the timeline. -/
theorem eventsSorted (h : Built terms events ρ i)
    (hsorted : events.Pairwise fun a b => a.effective.utc ≤ b.effective.utc) : i.EventsSorted := by
  have hrecorded : i.events.map (·.event) = (events.take (ρ.last + 2)).drop ρ.first := by
    have hplaces := congrArg (List.map Prod.fst) (recorded_events h.maximal)
    rw [List.map_map, ← h.recorded, List.map_drop, List.map_take, List.zipIdx_map_fst] at hplaces
    exact hplaces
  have hpart := hsorted.sublist ((List.drop_sublist ρ.first _).trans (List.take_sublist (ρ.last + 2) events))
  rw [← hrecorded, List.pairwise_map] at hpart
  exact hpart

theorem openedAt_iff (h : Built terms events ρ i) {place : Nat} : i.OpenedAt place ↔ ρ.first = place := by
  obtain ⟨e, he, -⟩ := h.maximal.opened
  rw [Interval.OpenedAt, h.recorded, head?_recorded h.maximal he, Option.map_some, Option.some.injEq]

end ActivityRun.Built

/-- Local dates do not run backwards in a covered zone, and instants less than twenty-three hours apart have dates one
day apart at most. So an interval that is closed on sorted events does not end before it starts, and of the intervals
of a usage name in a run, one that was opened later does not start before an earlier one has ended. -/
theorem Zone.local_dates_advance {z : Zone} (hz : z.Covered) :
    (∀ (a b : Instant) (d d' : Date), a.utc ≤ b.utc → z.localDate a = .ok d → z.localDate b = .ok d' →
      d ≤ d' ∧ (b.utc - a.utc < 23 * 3600000000 → d'.ordinal ≤ d.ordinal + 1)) ∧
    (∀ i j : Interval, i.terms.zone = z → i.EventsSorted → i.built true = .ok j →
      ∃ start finish, j.startDate = .ok start ∧ j.endDate = .ok (some finish) ∧ start ≤ finish) ∧
    ∀ request given inUse run is, Run.create request given inUse = .ok run → run.terms.zone = z →
      run.intervals = .ok is →
        (∀ i ∈ is, i.isClosed = true →
          ∃ start finish, i.startDate = .ok start ∧ i.endDate = .ok (some finish) ∧ start ≤ finish) ∧
        ∀ i ∈ is, ∀ j ∈ is, i.usage.name = j.usage.name → ∀ m n, i.OpenedAt m → j.OpenedAt n → m < n →
          ∃ finish start, i.endDate = .ok (some finish) ∧ j.startDate = .ok start ∧ finish ≤ start := by
  refine ⟨fun a b d d' hab ha hb => ?_, fun i j hzone hsorted hj => ?_,
    fun request given inUse run is hcreate hzone his => ⟨fun i hi hclosed => ?_, ?_⟩⟩
  · exact ⟨localDate_mono hz hab ha hb, fun hnear => localDate_le_succ hnear ha hb⟩
  · obtain ⟨start, finish, hstart, hfinish, hend⟩ := Interval.dates_of_built hj
    obtain ⟨f, rfl⟩ := Option.isSome_iff_exists.mp (hend rfl)
    obtain ⟨-, -, buckets, next, -, -, rfl⟩ := Interval.built_eq_ok.mp hj
    have hcovered : i.terms.zone.Covered := hzone ▸ hz
    exact ⟨start, f, hstart, hfinish, Interval.startDate_le_endDate (i := { i.frozen true with
      buckets := buckets, nextNotification := next }) hcovered hsorted hstart hfinish⟩
  · obtain ⟨ρ, hρ⟩ := Run.exists_built hcreate his hi
    obtain ⟨start, -, hstart, -⟩ := hρ.dates
    have hlast : ρ.last + 1 < run.events.length := of_decide_eq_true (hρ.closed ▸ hclosed)
    obtain ⟨-, finish, -, hfinish⟩ := hρ.dates
    have hended := hρ.endDate_ended (List.getElem?_eq_getElem hlast)
    rw [hfinish] at hended
    obtain ⟨f, -, hf⟩ := bind_eq_ok.mp hended.symm
    obtain rfl := pure_eq_ok.mp hf
    have hcovered : i.terms.zone.Covered := by rwa [hρ.terms, hzone]
    exact ⟨start, f, hstart, hfinish,
      Interval.startDate_le_endDate hcovered (hρ.eventsSorted (Run.events_sorted hcreate)) hstart hfinish⟩
  · intro i hi j hj hname m n hm hn hlt
    obtain ⟨ρ, hρ⟩ := Run.exists_built hcreate his hi
    obtain ⟨σ, hσ⟩ := Run.exists_built hcreate his hj
    have hfirst := hρ.openedAt_iff.mp hm
    have hfirst' := hσ.openedAt_iff.mp hn
    have hle := hσ.maximal.first_le_last
    have hbefore : ρ.last < σ.first := by
      rcases hρ.maximal.eq_or_disjoint hσ.maximal (by rw [← hρ.usage, ← hσ.usage, hname]) with rfl | hlt' | hlt'
      · omega
      · exact hlt'
      · omega
    exact hρ.finish_le_start rfl (by rwa [hzone]) (Run.events_sorted hcreate) hσ hbefore

namespace Run.Sample

def newYork : Zone := .named "America/New_York" (-300) (some (Zone.northAmerican 300))

/-- Half past midnight in New York on the fifth of November 2023, before the clocks are turned back. -/
def beforeChange : Instant := ⟨⟨738829, by decide, by decide⟩, 16200000000, some 0⟩

/-- Ten in the evening in New York on the same day, twenty-two and a half hours later. -/
def afterChange : Instant := ⟨⟨738830, by decide, by decide⟩, 10800000000, some 0⟩

/-- A subscription that is started in October 2023, cancelled on the day on which the clocks are turned back, and
started again in the evening of that day. -/
def restarted : List BillingEvent := [
  { opening with effective := ⟨⟨738800, by decide, by decide⟩, 0, some 0⟩ },
  { cancellation with effective := beforeChange },
  { opening with effective := afterChange }]

/-- The run of that subscription for an account in New York. -/
def runInNewYork : Run :=
  let r := run restarted [] ⟨738850, by decide, by decide⟩
  { r with terms := { r.terms with zone := newYork } }

end Run.Sample

open Run.Sample in
/-- The subscription is started again on the local date on which it was cancelled, in another interval. -/
theorem Zone.local_dates_advance_turnedBack :
    (∃ d d', newYork.localDate beforeChange = .ok d ∧ newYork.localDate afterChange = .ok d' ∧ d ≤ d' ∧
      d'.ordinal ≤ d.ordinal + 1) ∧
    ∃ i j finish start, runInNewYork.intervals = .ok [i, j] ∧ i.OpenedAt 0 ∧ j.OpenedAt 2 ∧
      i.endDate = .ok (some finish) ∧ j.startDate = .ok start ∧ finish ≤ start := by
  have hcreate : Run.create (request restarted [] ⟨738850, by decide, by decide⟩)
      (some { settings with zone := newYork }) (.ok settings) = .ok runInNewYork := by decide +kernel
  obtain ⟨hinstants, -, hruns⟩ := local_dates_advance (z := newYork) (Or.inr (by decide))
  have hdates : newYork.localDate beforeChange = .ok ⟨738829, by decide, by decide⟩ ∧
      newYork.localDate afterChange = .ok ⟨738829, by decide, by decide⟩ := by decide +kernel
  obtain ⟨hle, hnext⟩ := hinstants _ _ _ _ (by decide) hdates.1 hdates.2
  refine ⟨⟨_, _, hdates.1, hdates.2, hle, hnext (by decide)⟩, ?_⟩
  have hplaces : runInNewYork.intervals.map (List.map fun i => (i.usage.name, i.events.head?.map (·.place))) =
      .ok [("api", some 0), ("api", some 2)] := by decide +kernel
  cases his : runInNewYork.intervals with
  | error e =>
      rw [his] at hplaces
      cases hplaces
  | ok is =>
      rw [his] at hplaces
      have hplaces := Except.ok.inj hplaces
      obtain ⟨i, j, rfl⟩ := List.length_eq_two.mp (by simpa using congrArg List.length hplaces)
      simp only [List.map_cons, List.map_nil, List.cons.injEq, Prod.mk.injEq, and_true] at hplaces
      obtain ⟨⟨hname, hi⟩, hname', hj⟩ := hplaces
      obtain ⟨finish, start, hfinish, hstart, hle⟩ := (hruns _ _ _ _ _ hcreate rfl his).2 i List.mem_cons_self j
        (List.mem_cons_of_mem i List.mem_cons_self) (hname.trans hname'.symm) 0 2 hi hj (by decide)
      exact ⟨i, j, finish, start, rfl, hi, hj, hfinish, hstart, hle⟩

end UsageBilling
