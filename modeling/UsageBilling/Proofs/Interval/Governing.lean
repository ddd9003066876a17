import UsageBilling.Proofs.Interval.Reconciliation
import UsageBilling.Proofs.Interval.Schedule

/-! What governs a bucket. The event of a bucket is the last one of its interval that the aligned start has reached
(`exists_lastReached`), which is not the event that closes the interval (`LastReached.not_closing`). Each line of the
bucket has the plan, the currency and the catalog version of that event, and its unit type is one that the bucket counts
(`takesFrom_of_bucketLines`). The unit types that the bucket bills are read off that event, or off the closing one for
a bucket that ends with its interval (`governingUnitTypes_of_event`, `governingUnitTypes_of_closing`). -/

namespace UsageBilling

/-- A line has the plan, the currency and the catalog version of an event. -/
structure InvoiceLine.TakesFrom (line : InvoiceLine) (e : BillingEvent) : Prop where
  planName : line.planName = e.planName
  phaseName : line.phaseName = e.phaseName
  currency : line.currency = e.currency
  catalogVersion : line.catalogVersion = some e.catalogVersion

namespace Interval

def closing? (i : Interval) : Option IntervalEvent := if i.isClosed then i.events.getLast? else none

/-- The event with number `n` among some events is the last one that a day has reached. -/
structure LastReached (i : Interval) (es : List IntervalEvent) (day : Date) (n : Nat) (x : IntervalEvent) : Prop where
  recorded : es[n]? = some x
  reached : ∃ d, i.dateOf x.event = .ok d ∧ d ≤ day
  later : ∀ m y, n < m → es[m]? = some y → ∃ d, i.dateOf y.event = .ok d ∧ day < d

variable {i : Interval} {day : Date} {b : Bucket} {buckets : List Bucket} {x c : IntervalEvent}

/-! ### The event of a bucket -/

/-- Going through events that are not all after a day finds the last one that the day has reached. -/
theorem lastReached_of_foldlM {es : List IntervalEvent} {n : Nat}
    (hreached : ∃ x ∈ es, ∀ d, i.dateOf x.event = .ok d → d ≤ day)
    (h : es.zipIdx.foldlM (fun index (p : IntervalEvent × Nat) => do
      let d ← i.dateOf p.1.event
      return if d ≤ day then p.2 else index) 0 = .ok n) : ∃ x, i.LastReached es day n x := by
  induction es using List.reverseRecOn generalizing n with
  | nil =>
      obtain ⟨x, hx, -⟩ := hreached
      cases hx
  | append_singleton es e ih =>
      rw [List.zipIdx_append, List.foldlM_append, Nat.zero_add] at h
      obtain ⟨index, hindex, h⟩ := bind_eq_ok.mp h
      obtain ⟨found, hfound, h⟩ := foldlM_cons_eq_ok.mp h
      obtain rfl := pure_eq_ok.mp h
      obtain ⟨d, hd, hfound⟩ := bind_eq_ok.mp hfound
      obtain rfl := pure_eq_ok.mp hfound
      by_cases he : d ≤ day
      · rw [if_pos he]
        refine ⟨e, List.getElem?_concat_length, ⟨d, hd, he⟩, fun m y hm hy => ?_⟩
        have hlt := (List.getElem?_eq_some_iff.mp hy).1
        rw [List.length_append, List.length_singleton] at hlt
        omega
      · rw [if_neg he]
        obtain ⟨x, hx, hxday⟩ := hreached
        have hx : x ∈ es := by
          rcases List.mem_append.mp hx with hx | hx
          · exact hx
          · obtain rfl := List.mem_singleton.mp hx
            exact absurd (hxday d hd) he
        obtain ⟨y, hy⟩ := ih ⟨x, hx, hxday⟩ hindex
        have hlt := (List.getElem?_eq_some_iff.mp hy.recorded).1
        refine ⟨y, by rw [List.getElem?_append_left hlt, hy.recorded], hy.reached, fun m z hm hz => ?_⟩
        rcases Nat.lt_or_ge m es.length with hmlt | hmge
        · rw [List.getElem?_append_left hmlt] at hz
          exact hy.later m z hm hz
        · rw [List.getElem?_append_right hmge] at hz
          obtain rfl := List.mem_singleton.mp (List.mem_of_getElem? hz)
          exact ⟨d, hd, Nat.not_le.mp he⟩

/-- An interval with a start date begins with an event of that date. -/
theorem exists_first_of_startDate {start : Date} (h : i.startDate = .ok start) :
    ∃ x ∈ i.events, i.dateOf x.event = .ok start := by
  obtain ⟨e, he, hstart⟩ := bind_eq_ok.mp h
  rw [firstEvent] at he
  split at he
  next x hx =>
    obtain rfl := Except.ok.inj he
    exact ⟨x, List.mem_of_head? hx, hstart⟩
  next => cases he

/-- The event of a bucket is the last one that the aligned start has reached. -/
theorem exists_lastReached (hbuckets : i.computeBuckets = .ok buckets) (hb : b ∈ buckets) :
    ∃ x, i.LastReached i.events b.alignedStart b.eventIndex x := by
  obtain ⟨bs, hbs, hspans⟩ := computeBuckets_eq_ok.mp hbuckets
  obtain ⟨start, finish, -, hstart, hfinish, -⟩ := boundaries_eq_ok.mp hbs
  obtain ⟨x, hx, hdate⟩ := exists_first_of_startDate hstart
  obtain ⟨p, -, hp⟩ := exists_of_forall₂_right (mapM_eq_ok.mp hspans) hb
  obtain ⟨halign, -, -, hindex⟩ := bucketOf_eq_ok hp
  rw [← halign] at hindex
  refine lastReached_of_foldlM ⟨x, hx, fun d hd => ?_⟩ hindex
  obtain rfl : start = d := Except.ok.inj (hdate.symm.trans hd)
  exact ((buckets_spec hstart hfinish hbuckets).1 b hb).after_start

theorem closing?_eq_some : i.closing? = some c ↔ i.isClosed = true ∧ i.events.getLast? = some c := by
  rw [closing?]
  split
  next h => rw [h, eq_self, true_and]
  next h => simp [h]

theorem endDate_of_closing (h : i.closing? = some c) :
    i.endDate = (do return some (← i.dateOf c.event) : Except Error (Option Date)) := by
  obtain ⟨hclosed, hlast⟩ := closing?_eq_some.mp h
  rw [endDate, hclosed, if_pos rfl, hlast]

/-- A bucket begins before its interval ends, so that the closing event is not the one of the bucket. -/
theorem LastReached.not_closing (h : i.LastReached i.events b.alignedStart b.eventIndex x)
    (hbuckets : i.computeBuckets = .ok buckets) (hb : b ∈ buckets) : i.closing? ≠ some x := by
  intro hclosing
  obtain ⟨d, hd, hle⟩ := h.reached
  obtain ⟨bs, hbs, -⟩ := computeBuckets_eq_ok.mp hbuckets
  obtain ⟨start, finish, -, hstart, hfinish, -⟩ := boundaries_eq_ok.mp hbs
  have hends := hfinish
  rw [endDate_of_closing hclosing, hd] at hends
  obtain rfl : some d = finish := Except.ok.inj hends
  have hin := (buckets_spec hstart hfinish hbuckets).1 b hb
  have hbefore := hin.before_finish d rfl
  have hnonempty := hin.nonempty
  rw [Date.lt_def, Date.le_def] at *
  omega

/-! ### Unit types -/

/-- A bucket that ends with its interval bills what the closing event leaves of the unit types. -/
theorem governingUnitTypes_of_closing {types : List String} (hclosing : i.closing? = some c)
    (hseen : c.seen = some types) (hend : i.endDate = .ok (some b.finish)) :
    i.governingUnitTypes b = .ok (UnitTypes.inter types i.usage.unitTypes) := by
  obtain ⟨-, hlast⟩ := closing?_eq_some.mp hclosing
  rw [governingUnitTypes, hend, hlast, ok_bind, Option.bind_some, hseen]
  dsimp only
  rw [if_pos ⟨rfl, rfl⟩]
  rfl

/-- Any other bucket bills what its event leaves of the unit types. -/
theorem governingUnitTypes_of_event {types : List String} {finish : Option Date} (hfinish : i.endDate = .ok finish)
    (hne : finish ≠ some b.finish) (hx : i.events[b.eventIndex]? = some x) (hseen : x.seen = some types) :
    i.governingUnitTypes b = .ok (UnitTypes.inter types i.usage.unitTypes) := by
  rw [governingUnitTypes, hfinish, hx, ok_bind, Option.bind_some, hseen]
  dsimp only
  rw [if_neg fun h => hne h.1]
  rfl

/-! ### Lines -/

theorem Makes.takesFrom {unitType : Option String} {l : InvoiceLine} (h : i.Makes b unitType l)
    (hx : i.events[b.eventIndex]? = some x) : l.TakesFrom x.event ∧ l.unitType = unitType := by
  obtain ⟨amount, quantity, rate, details, h⟩ := h
  rw [newLine, hx] at h
  obtain rfl := Except.ok.inj h
  exact ⟨⟨rfl, rfl, rfl, rfl⟩, rfl⟩

/-- The lines of a bucket take from its event, and have unit types that the bucket counts. -/
theorem takesFrom_of_bucketLines {items : List InvoiceItem} {rolled : RolledUsage} {lines : List InvoiceLine}
    (hx : i.events[b.eventIndex]? = some x) (h : (i.bucketLines b rolled items).result = .ok lines) :
    ∀ l ∈ lines, l.TakesFrom x.event ∧ ∀ u, l.unitType = some u → u ∈ rolled.amounts.map (·.1) := by
  intro l hl
  obtain ⟨unitType, hmade, hcounted⟩ := makes_of_bucketLines h l hl
  obtain ⟨htakes, htype⟩ := hmade.takesFrom hx
  exact ⟨htakes, fun u hu => hcounted u (htype.symm.trans hu)⟩

end Interval
end UsageBilling
