import Mathlib.Data.List.Sort
import UsageBilling.Proofs.Interval.Building
import UsageBilling.Proofs.Interval.Targets
import UsageBilling.Proofs.Interval.Versions

/-! An interval that is divided at one of its cycle dates. Where the catalog version is revised there, an interval
that ends on the date and one that starts on it take the place of one that goes on (`Divides`). Together the two have
the boundaries of the one (`boundaries_eq`) and its buckets, which are billed alike (`buckets_alike`), and from the
date on the later one has its next notification (`notification_eq`). -/

namespace UsageBilling

instance : Std.Irrefl (fun d e : Date => d < e) := ⟨fun d => Nat.lt_irrefl d.ordinal⟩

instance : Std.Antisymm (fun d e : Date => d < e) := ⟨fun _ _ hde hed => absurd hde (Nat.lt_asymm hed)⟩

namespace Interval

/-- The interval `whole`, which records the events `before`, `bump` and `after`, is divided on the date `b` of the
event `bump`, one of its cycle dates: `early` records `before` and ends with `bump`, and `late` records `bump` and
`after`, in another catalog version. -/
structure Divides (whole early late : Interval) (version : Instant) (before : List BillingEvent) (bump : BillingEvent)
    (after : List BillingEvent) (b : Date) : Prop where
  usage_early : early.usage = whole.usage
  usage_late : late.usage = whole.usage
  terms_early : early.terms = whole.terms
  terms_late : late.terms = whole.terms
  events : whole.events.map (·.event) = before ++ bump :: after
  events_early : early.events.map (·.event) = before ++ [bump.revised version]
  events_late : late.events.map (·.event) = (bump :: after).map (·.revised version)
  ongoing : whole.isClosed = false
  closed_early : early.isClosed = true
  ongoing_late : late.isClosed = false
  dated : ∀ e ∈ before ++ bump :: after, ∃ d, whole.dateOf e = .ok d
  bumped : whole.dateOf bump = .ok b
  later : ∀ e ∈ after, ∀ d, whole.dateOf e = .ok d → b ≤ d
  cycle : ∃ first start m, before.head? = some first ∧ whole.dateOf first = .ok start ∧
    BillingCycle.date start first.cycleDay whole.usage.period m = .ok b ∧ bump.cycleDay = first.cycleDay
  unitTypes : ∃ types, (∀ x ∈ whole.events, x.seen = some types) ∧ (∀ x ∈ early.events, x.seen = some types) ∧
    ∀ x ∈ late.events, x.seen = some types

namespace Divides

variable {whole early late : Interval} {version : Instant} {before after : List BillingEvent} {bump : BillingEvent}
  {b d : Date}

/-! ### Starts and ends -/

theorem dateOf_early (h : Divides whole early late version before bump after b) : early.dateOf = whole.dateOf := by
  funext e
  rw [dateOf, dateOf, h.terms_early]

theorem dateOf_late (h : Divides whole early late version before bump after b) : late.dateOf = whole.dateOf := by
  funext e
  rw [dateOf, dateOf, h.terms_late]

theorem firstEvent_of_map {i : Interval} {e : BillingEvent} {es : List BillingEvent}
    (h : i.events.map (·.event) = e :: es) : i.firstEvent = .ok e := by
  obtain ⟨x, xs, hx, rfl, -⟩ := List.map_eq_cons_iff.mp h
  rw [firstEvent, hx]
  rfl

theorem endDate_of_map {i : Interval} {e : BillingEvent} {es : List BillingEvent} (hclosed : i.isClosed = true)
    (h : i.events.map (·.event) = es ++ [e]) (hd : i.dateOf e = .ok d) : i.endDate = .ok (some d) := by
  obtain ⟨xs, ys, hx, -, hys⟩ := List.map_eq_append_iff.mp h
  obtain ⟨y, rfl, rfl⟩ := List.map_eq_singleton_iff.mp hys
  rw [endDate, hclosed, if_pos rfl, hx, List.getLast?_concat]
  exact bind_eq_ok.mpr ⟨d, hd, rfl⟩

theorem ends (h : Divides whole early late version before bump after b) : ∃ first start m,
    BillingCycle.date start first.cycleDay whole.usage.period m = .ok b ∧
    (whole.firstEvent = .ok first ∧ whole.startDate = .ok start ∧ whole.endDate = .ok none) ∧
    (early.firstEvent = .ok first ∧ early.startDate = .ok start ∧ early.endDate = .ok (some b)) ∧
    (late.firstEvent = .ok (bump.revised version) ∧ late.startDate = .ok b ∧ late.endDate = .ok none) ∧
    bump.cycleDay = first.cycleDay := by
  obtain ⟨first, start, m, hfirst, hstart, hcycle, hday⟩ := h.cycle
  obtain ⟨es, rfl⟩ := List.head?_eq_some_iff.mp hfirst
  have hwhole := firstEvent_of_map h.events
  have hearly := firstEvent_of_map h.events_early
  have hlate := firstEvent_of_map h.events_late
  have hclosing : early.dateOf (bump.revised version) = .ok b := h.dateOf_early ▸ h.bumped
  refine ⟨first, start, m, hcycle, ⟨hwhole, ?_, ?_⟩,
    ⟨hearly, ?_, endDate_of_map h.closed_early h.events_early hclosing⟩, ⟨hlate, ?_, ?_⟩, hday⟩
  · exact bind_eq_ok.mpr ⟨first, hwhole, hstart⟩
  · rw [endDate, h.ongoing]
    rfl
  · exact bind_eq_ok.mpr ⟨first, hearly, h.dateOf_early ▸ hstart⟩
  · exact bind_eq_ok.mpr ⟨_, hlate, h.dateOf_late ▸ h.bumped⟩
  · rw [endDate, h.ongoing_late]
    rfl

/-! ### Where buckets end -/

theorem endsBucket_iff {i : Interval} {start : Date} {finish : Option Date} {first : BillingEvent}
    (hfirst : i.firstEvent = .ok first) (hstart : i.startDate = .ok start) (hfinish : i.endDate = .ok finish) :
    i.EndsBucket d ↔ start < d ∧
      ((∃ k, BillingCycle.date start first.cycleDay i.usage.period k = .ok d) ∧ beforeEnd finish d = true ∨
        finish = some d) := by
  unfold EndsBucket
  rw [hfirst, hstart, hfinish]
  simp only [Except.ok.injEq, exists_eq_left', exists_and_left]

/-- Until the date of division, the buckets of the early interval end where those of the whole do. -/
theorem endsBucket_early (h : Divides whole early late version before bump after b) :
    early.EndsBucket d ↔ whole.EndsBucket d ∧ d ≤ b := by
  obtain ⟨first, start, m, hcycle, ⟨hfirst, hstart, hfinish⟩, ⟨hfirst', hstart', hfinish'⟩, -⟩ := h.ends
  rw [endsBucket_iff hfirst hstart hfinish, endsBucket_iff hfirst' hstart' hfinish', h.usage_early]
  constructor
  · rintro ⟨hafter, ⟨hk, hbefore⟩ | hlast⟩
    · exact ⟨⟨hafter, Or.inl ⟨hk, rfl⟩⟩, Nat.le_of_lt (of_decide_eq_true hbefore)⟩
    · obtain rfl := Option.some.inj hlast
      exact ⟨⟨hafter, Or.inl ⟨⟨m, hcycle⟩, rfl⟩⟩, Nat.le_refl _⟩
  · rintro ⟨⟨hafter, ⟨hk, -⟩ | hlast⟩, hle⟩
    · refine ⟨hafter, ?_⟩
      rcases Nat.lt_or_eq_of_le hle with hlt | heq
      · exact Or.inl ⟨hk, decide_eq_true hlt⟩
      · exact Or.inr (congrArg some (Date.ext heq.symm))
    · cases hlast

/-- After the date of division, the buckets of the late interval end where those of the whole do. -/
theorem endsBucket_late (h : Divides whole early late version before bump after b) :
    late.EndsBucket d ↔ whole.EndsBucket d ∧ b < d := by
  obtain ⟨first, start, m, hcycle, ⟨hfirst, hstart, hfinish⟩, -, ⟨hfirst', hstart', hfinish'⟩, hday⟩ := h.ends
  rw [endsBucket_iff hfirst hstart hfinish, endsBucket_iff hfirst' hstart' hfinish', h.usage_late]
  have hsame : (bump.revised version).cycleDay = first.cycleDay := hday
  rw [hsame]
  have hstarted : start < b := Nat.lt_of_le_of_lt (Nat.le_add_right _ m) (BillingCycle.start_add_lt_date hcycle)
  constructor
  · rintro ⟨hafter, ⟨⟨k, hk⟩, -⟩ | hlast⟩
    · exact ⟨⟨Nat.lt_trans hstarted hafter, Or.inl ⟨⟨_, (BillingCycle.date_restart hcycle).mp hk⟩, rfl⟩⟩, hafter⟩
    · cases hlast
  · rintro ⟨⟨-, ⟨⟨k, hk⟩, -⟩ | hlast⟩, hafter⟩
    · have hlt : m < k := by
        by_contra hge
        rcases Nat.lt_or_eq_of_le (Nat.not_lt.mp hge) with hlt | rfl
        · exact absurd hafter (Nat.lt_asymm (BillingCycle.date_lt_date hlt hk hcycle))
        · rw [hk] at hcycle
          obtain rfl := Except.ok.inj hcycle
          exact Nat.lt_irrefl _ hafter
      obtain ⟨j, rfl⟩ := Nat.exists_eq_add_of_lt hlt
      refine ⟨hafter, Or.inl ⟨⟨j, (BillingCycle.date_restart hcycle).mpr ?_⟩, rfl⟩⟩
      rw [Nat.add_right_comm]
      exact hk
    · cases hlast

/-! ### Boundaries -/

/-- The boundaries of the whole are those of the early interval and then, without its start, those of the late
one. -/
theorem boundaries_eq (h : Divides whole early late version before bump after b) {bs bs' bs'' : List Date}
    (hw : whole.boundaries = .ok bs) (he : early.boundaries = .ok bs') (hl : late.boundaries = .ok bs'') :
    ∃ start rest rest', bs = start :: (rest ++ rest') ∧ bs' = start :: rest ∧ bs'' = b :: rest' ∧
      (rest' ≠ [] → rest.getLast? = some b) := by
  obtain ⟨first, start, m, hcycle, ⟨hfirst, hstart, hfinish⟩, ⟨-, hstart', hfinish'⟩, ⟨-, hstart'', hfinish''⟩, -⟩ :=
    h.ends
  obtain ⟨all, rfl, hall, -⟩ := boundaries_spec hstart hfinish hw
  obtain ⟨rest, rfl, hrest, hupto⟩ := boundaries_spec hstart' hfinish' he
  obtain ⟨rest', rfl, hrest', hfrom⟩ := boundaries_spec hstart'' hfinish'' hl
  have hsplit : all = rest ++ rest' := by
    refine List.Pairwise.eq_of_mem_iff hall ?_ fun d => ?_
    · refine List.pairwise_append.mpr ⟨hrest, hrest', fun d hd e he => ?_⟩
      exact Nat.lt_of_le_of_lt ((hupto d hd).2.2 b rfl) (hfrom e he).1
    · rw [List.mem_append, mem_boundaries hw, mem_boundaries he, mem_boundaries hl, h.endsBucket_early,
        h.endsBucket_late, h.terms_early, h.terms_late, ← or_and_right, ← and_or_left]
      have hor : d ≤ b ∨ b < d := Nat.lt_or_ge b.ordinal d.ordinal |>.symm
      rw [and_iff_left hor]
  refine ⟨start, rest, rest', by rw [hsplit], rfl, rfl, fun hne => ?_⟩
  obtain ⟨d, ds, rfl⟩ := List.exists_cons_of_ne_nil hne
  obtain ⟨hafter, hreached, -⟩ := hfrom d List.mem_cons_self
  have hmem : b ∈ rest := by
    refine (mem_boundaries he).mpr ⟨h.endsBucket_early.mpr ⟨?_, Nat.le_refl _⟩, ?_⟩
    · have hstarted : start < b := Nat.lt_of_le_of_lt (Nat.le_add_right _ m) (BillingCycle.start_add_lt_date hcycle)
      exact (endsBucket_iff hfirst hstart hfinish).mpr ⟨hstarted, Or.inl ⟨⟨m, hcycle⟩, rfl⟩⟩
    · rw [h.terms_early, ← h.terms_late]
      exact Nat.le_trans (Nat.le_of_lt hafter) hreached
  obtain ⟨xs, ys, rfl⟩ := List.append_of_mem hmem
  have hlast : ys = [] := by
    refine List.eq_nil_iff_forall_not_mem.mpr fun y hy => ?_
    have hlt : b < y := (List.pairwise_cons.mp (List.pairwise_append.mp hrest).2.1).1 y hy
    have hle : y ≤ b := (hupto y (List.mem_append_right xs (List.mem_cons_of_mem b hy))).2.2 b rfl
    exact Nat.not_lt.mpr hle hlt
  rw [hlast, List.getLast?_concat]

theorem spans_append_cons (xs ys : List Date) : spans (xs ++ b :: ys) = spans (xs ++ [b]) ++ spans (b :: ys) := by
  induction xs with
  | nil => rfl
  | cons x xs ih =>
      cases xs with
      | nil => rfl
      | cons y xs =>
          rw [List.cons_append, List.cons_append, spans_cons_cons, ← List.cons_append, ih]
          rfl

/-- The spans of the whole are those of the early interval and then those of the late one. -/
theorem spans_eq (h : Divides whole early late version before bump after b) {bs bs' bs'' : List Date}
    (hw : whole.boundaries = .ok bs) (he : early.boundaries = .ok bs') (hl : late.boundaries = .ok bs'') :
    spans bs = spans bs' ++ spans bs'' := by
  obtain ⟨start, rest, rest', rfl, rfl, rfl, hlast⟩ := h.boundaries_eq hw he hl
  rcases eq_or_ne rest' [] with rfl | hne
  · rw [List.append_nil]
    exact (List.append_nil _).symm
  · obtain ⟨xs, rfl⟩ := List.getLast?_eq_some_iff.mp (hlast hne)
    rw [List.append_assoc, ← List.cons_append, ← List.cons_append]
    exact spans_append_cons (start :: xs) rest'

/-! ### The event in force -/

theorem eventDates (h : Divides whole early late version before bump after b) : ∃ ds ds', ds.length = before.length ∧
    (whole.events.map (·.event)).mapM whole.dateOf = .ok (ds ++ b :: ds') ∧
    (early.events.map (·.event)).mapM early.dateOf = .ok (ds ++ [b]) ∧
    (late.events.map (·.event)).mapM late.dateOf = .ok (b :: ds') ∧ ∀ d ∈ b :: ds', b ≤ d := by
  obtain ⟨hbefore, hafter⟩ := List.forall_mem_append.mp h.dated
  obtain ⟨ds, hds⟩ := exists_mapM_eq_ok hbefore
  obtain ⟨ds', hds'⟩ := exists_mapM_eq_ok (List.forall_mem_cons.mp hafter).2
  have hone (e : BillingEvent) (he : whole.dateOf e = .ok b) : [e].mapM whole.dateOf = .ok [b] :=
    mapM_eq_ok.mpr (.cons he .nil)
  have hfrom : (bump :: after).mapM whole.dateOf = .ok (b :: ds') :=
    mapM_eq_ok.mpr (.cons h.bumped (mapM_eq_ok.mp hds'))
  refine ⟨ds, ds', (mapM_eq_ok.mp hds).length_eq.symm, ?_, ?_, ?_, List.forall_mem_cons.mpr ⟨Nat.le_refl _, ?_⟩⟩
  · rw [h.events]
    exact mapM_append_eq_ok.mpr ⟨ds, _, hds, hfrom, rfl⟩
  · rw [h.events_early, h.dateOf_early]
    exact mapM_append_eq_ok.mpr ⟨ds, _, hds, hone _ h.bumped, rfl⟩
  · rw [h.events_late, h.dateOf_late, List.mapM_map]
    exact hfrom
  · intro d hd
    obtain ⟨e, he, hed⟩ := exists_of_forall₂_right (mapM_eq_ok.mp hds') hd
    exact h.later e he d hed

/-- Before the date of division the same event is in force. -/
theorem eventIndexAt_early (h : Divides whole early late version before bump after b) {day : Date} (hday : day < b) :
    ∃ n e, whole.eventIndexAt day = .ok n ∧ early.eventIndexAt day = .ok n ∧
      whole.events[n]?.map (·.event) = some e ∧ early.events[n]?.map (·.event) = some e := by
  obtain ⟨ds, ds', hlength, hwhole, hearly, -, hle⟩ := h.eventDates
  obtain ⟨first, -, -, hfirst, -⟩ := h.cycle
  have hne : ds ≠ [] := by
    rw [← List.length_pos_iff, hlength, List.length_pos_iff]
    rintro rfl
    cases hfirst
  have hlt : inForce day ds < before.length := hlength ▸ inForce_lt hne
  refine ⟨inForce day ds, before[inForce day ds], ?_, ?_, ?_, ?_⟩
  · rw [eventIndexAt_of_dates hwhole, inForce_append_of_after]
    exact fun d hd => Nat.lt_of_lt_of_le hday (hle d hd)
  · rw [eventIndexAt_of_dates hearly, inForce_append_of_after]
    exact fun d hd => List.mem_singleton.mp hd ▸ hday
  · rw [← List.getElem?_map, h.events, List.getElem?_append_left hlt, List.getElem?_eq_getElem hlt]
  · rw [← List.getElem?_map, h.events_early, List.getElem?_append_left hlt, List.getElem?_eq_getElem hlt]

/-- From the date of division on, the event in force is the same apart from its catalog version. -/
theorem eventIndexAt_late (h : Divides whole early late version before bump after b) {day : Date} (hday : b ≤ day) :
    ∃ m n e, whole.eventIndexAt day = .ok m ∧ late.eventIndexAt day = .ok n ∧
      whole.events[m]?.map (·.event) = some e ∧ late.events[n]?.map (·.event) = some (e.revised version) := by
  obtain ⟨ds, ds', hlength, hwhole, -, hlate, -⟩ := h.eventDates
  have hdates : ds'.length = after.length := by
    rw [h.events_late, List.mapM_map] at hlate
    exact Nat.succ.inj (mapM_eq_ok.mp hlate).length_eq.symm
  have hlt : inForce day (b :: ds') < (bump :: after).length := by
    rw [List.length_cons, ← hdates]
    exact inForce_lt (List.cons_ne_nil b ds')
  refine ⟨ds.length + inForce day (b :: ds'), inForce day (b :: ds'), (bump :: after)[inForce day (b :: ds')], ?_,
    eventIndexAt_of_dates hlate, ?_, ?_⟩
  · rw [eventIndexAt_of_dates hwhole, inForce_append_of_reached hday]
  · rw [← List.getElem?_map, h.events, hlength, List.getElem?_append_right (Nat.le_add_right _ _),
      Nat.add_sub_cancel_left, List.getElem?_eq_getElem hlt]
  · rw [← List.getElem?_map, h.events_late, List.getElem?_map, List.getElem?_eq_getElem hlt]
    rfl

/-! ### Buckets -/

/-- Where the same unit types were recorded at each event, they are those that a bucket bills. -/
theorem governingUnitTypes_of_seen {i : Interval} {c : Bucket} {e : BillingEvent} {types : List String}
    {finish : Option Date} (hfinish : i.endDate = .ok finish) (hseen : ∀ x ∈ i.events, x.seen = some types)
    (hevent : i.events[c.eventIndex]?.map (·.event) = some e) :
    i.governingUnitTypes c = .ok (UnitTypes.inter types i.usage.unitTypes) := by
  obtain ⟨x, hx, -⟩ := Option.map_eq_some_iff.mp hevent
  rw [governingUnitTypes, hfinish, hx, ok_bind, Option.bind_some, hseen x (List.mem_of_getElem? hx)]
  cases hlast : i.events.getLast? with
  | none =>
      simp only [Option.bind_none, Option.isSome_none, Bool.false_eq_true, and_false, if_false]
      rfl
  | some y =>
      rw [Option.bind_some, hseen y (List.mem_of_getLast? hlast)]
      dsimp only
      rw [ite_self]
      rfl

/-- The buckets of one span are billed alike where the events in force are the same apart from the version. -/
theorem billsAlike_of_bucketOf {i j : Interval} {p : Date × Date} {c c' : Bucket} {m n : Nat} {e : BillingEvent}
    {types : List String} {finish finish' : Option Date} (husage : i.usage = j.usage) (hterms : i.terms = j.terms)
    (hfinish : i.endDate = .ok finish) (hfinish' : j.endDate = .ok finish')
    (hseen : ∀ x ∈ i.events, x.seen = some types) (hseen' : ∀ x ∈ j.events, x.seen = some types)
    (hm : i.eventIndexAt p.1 = .ok m) (hn : j.eventIndexAt p.1 = .ok n)
    (he : i.events[m]?.map (·.event) = some e) (he' : j.events[n]?.map (·.event) = some (e.revised version))
    (hc : i.bucketOf p = .ok c) (hc' : j.bucketOf p = .ok c') : BillsAlike AnyVersions (i, c) (j, c') := by
  obtain ⟨halign, hfin, hstart, hindex⟩ := bucketOf_eq_ok hc
  obtain ⟨halign', hfin', hstart', hindex'⟩ := bucketOf_eq_ok hc'
  obtain rfl : m = c.eventIndex := Except.ok.inj (hm.symm.trans hindex)
  obtain rfl : n = c'.eventIndex := Except.ok.inj (hn.symm.trans hindex')
  refine ⟨husage, hterms, ?_, hfin.trans hfin'.symm, halign.trans halign'.symm, ?_, ?_⟩
  · rw [hstart, hstart', hterms]
  · obtain ⟨x, hx, hxe⟩ := Option.map_eq_some_iff.mp he
    obtain ⟨y, hy, hye⟩ := Option.map_eq_some_iff.mp he'
    rw [hx, hy]
    exact .some (by rw [hxe, hye]; exact e.samePlan_revised version)
  · rw [governingUnitTypes_of_seen hfinish hseen he, governingUnitTypes_of_seen hfinish' hseen' he', husage]

/-- The buckets of the whole are those of the early interval and then those of the late one, and they are billed
alike. -/
theorem buckets_alike (h : Divides whole early late version before bump after b) {cs cs' cs'' : List Bucket}
    (hw : whole.computeBuckets = .ok cs) (he : early.computeBuckets = .ok cs') (hl : late.computeBuckets = .ok cs'') :
    List.Forall₂ (BillsAlike AnyVersions) (cs.map (whole, ·)) (cs'.map (early, ·) ++ cs''.map (late, ·)) := by
  obtain ⟨first, start, -, -, ⟨-, -, hfinish⟩, ⟨-, hstart', hfinish'⟩, ⟨-, hstart'', hfinish''⟩, -⟩ := h.ends
  obtain ⟨types, hseen, hseen', hseen''⟩ := h.unitTypes
  obtain ⟨bs, hbs, hcs⟩ := computeBuckets_eq_ok.mp hw
  obtain ⟨bs', hbs', hcs'⟩ := computeBuckets_eq_ok.mp he
  obtain ⟨bs'', hbs'', hcs''⟩ := computeBuckets_eq_ok.mp hl
  rw [h.spans_eq hbs hbs' hbs'', List.filter_append] at hcs
  rw [h.terms_early] at hcs'
  rw [h.terms_late] at hcs''
  obtain ⟨us, vs, hus, hvs, rfl⟩ := mapM_append_eq_ok.mp hcs
  obtain ⟨rest, rfl, hsorted, hrest⟩ := boundaries_spec hstart' hfinish' hbs'
  obtain ⟨rest', rfl, -, hrest'⟩ := boundaries_spec hstart'' hfinish'' hbs''
  have hbefore : ∀ p ∈ spans (start :: rest), p.1 < b := by
    intro p hp
    have hgrow : (start :: rest).Pairwise (· < ·) := List.pairwise_cons.mpr ⟨fun d hd => (hrest d hd).1, hsorted⟩
    exact Nat.lt_of_lt_of_le ((spans_sorted hgrow).1 p hp) ((hrest p.2 (mem_spans hp).2).2.2 b rfl)
  have hfrom : ∀ p ∈ spans (b :: rest'), b ≤ p.1 := by
    intro p hp
    rcases List.mem_cons.mp (mem_spans hp).1 with heq | hmem
    · exact Nat.le_of_eq (congrArg Date.ordinal heq.symm)
    · exact Nat.le_of_lt (hrest' _ hmem).1
  rw [List.map_append]
  refine List.rel_append ?_ ?_
  · rw [List.forall₂_map_left_iff, List.forall₂_map_right_iff]
    have hleft := (List.forall₂_and_left _ _).mpr ⟨fun p hp => hbefore p (List.mem_filter.mp hp).1, mapM_eq_ok.mp hus⟩
    refine forall₂_of_common hleft (mapM_eq_ok.mp hcs') fun p c c' hc hc' => ?_
    obtain ⟨n, e, hm, hn, he, he'⟩ := h.eventIndexAt_early hc.1
    have hsame : e.revised e.catalogVersion = e := rfl
    exact billsAlike_of_bucketOf h.usage_early.symm h.terms_early.symm hfinish hfinish' hseen hseen' hm hn he
      (hsame ▸ he') hc.2 hc'
  · rw [List.forall₂_map_left_iff, List.forall₂_map_right_iff]
    have hleft := (List.forall₂_and_left _ _).mpr ⟨fun p hp => hfrom p (List.mem_filter.mp hp).1, mapM_eq_ok.mp hvs⟩
    refine forall₂_of_common hleft (mapM_eq_ok.mp hcs'') fun p c c' hc hc' => ?_
    obtain ⟨m, n, e, hm, hn, he, he'⟩ := h.eventIndexAt_late hc.1
    exact billsAlike_of_bucketOf h.usage_late.symm h.terms_late.symm hfinish hfinish'' hseen hseen'' hm hn he he'
      hc.2 hc'

/-! ### The next notification -/

/-- Once the target has reached the date of division, the late interval has the next notification of the whole, and
the early one has none. -/
theorem notification_eq (h : Divides whole early late version before bump after b)
    (hreached : b ≤ whole.terms.target) {next next' next'' : Option Date}
    (hw : whole.computeNotification = .ok next) (he : early.computeNotification = .ok next')
    (hl : late.computeNotification = .ok next'') : next' = none ∧ next = next'' := by
  obtain ⟨first, start, m, -, ⟨-, -, hfinish⟩, ⟨-, -, hfinish'⟩, ⟨-, -, hfinish''⟩, -⟩ := h.ends
  have hfound {i : Interval} {next : Option Date} (hi : i.endDate = .ok none) (hn : i.computeNotification = .ok next) :
      ∃ n, next = some n ∧ i.EndsBucket n ∧ i.terms.target < n := by
    cases next with
    | none =>
        obtain ⟨finish, hf, f, rfl, -⟩ := notification_spec hn
        cases hi.symm.trans hf
    | some n =>
        refine ⟨n, rfl, endsBucket_notification hn ?_, target_lt_notification hn⟩
        rintro ⟨s, f, -, hf, -⟩
        cases hi.symm.trans hf
  obtain ⟨n, rfl, hends, hlt⟩ := hfound hfinish hw
  obtain ⟨n'', rfl, hends'', hlt''⟩ := hfound hfinish'' hl
  constructor
  · cases next' with
    | none => rfl
    | some n' =>
        obtain ⟨finish, hf, hbefore, -⟩ := notification_spec he
        obtain rfl := Except.ok.inj (hfinish'.symm.trans hf)
        have hlater := (hbefore b rfl).1
        rw [h.terms_early] at hlater
        exact absurd hreached (Nat.not_le.mpr hlater)
  · rw [h.terms_late] at hlt''
    have hlate : n'' ≤ n := by
      apply le_of_notification hl
      · exact h.endsBucket_late.mpr ⟨hends, Nat.lt_of_le_of_lt hreached hlt⟩
      · rw [h.terms_late]
        exact hlt
    have hwhole : n ≤ n'' := le_of_notification hw (h.endsBucket_late.mp hends'').1 hlt''
    exact congrArg some (Date.ext (Nat.le_antisymm hwhole hlate))

end Divides
end Interval
end UsageBilling
