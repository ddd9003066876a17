import UsageBilling.Proofs.Timeline.RunIntervals

/-! The walk along a timeline. After some events the open places of the arena are the runs that go on,
with the intervals of their events so far. A step succeeds when the keys of its event have an identity
and the intervals of the runs it ends can be built (`step_eq_ok`). From the steps follows the walk as
a whole: its intervals are those of the activity runs, built in the order of the runs
(`intervals_eq_ok`). -/

namespace UsageBilling

/-- The built interval of a run: closed when an event follows it, and active otherwise. -/
def ActivityRun.built (ρ : ActivityRun) (terms : Terms) (events : List BillingEvent) :
    Except Error Interval :=
  (ρ.interval terms events).built (ρ.last + 1 < events.length)

namespace Timeline

/-- The state of the walk after some events, with the intervals built so far. -/
def walkAfter (terms : Terms) (events : List BillingEvent) (built : List Interval) : Walk :=
  ⟨⟨(runProgress events).ongoing.map (·.place terms events), built⟩, unitTypesAfter events⟩

section

variable {terms : Terms} {past : List BillingEvent} {e : BillingEvent}

theorem any_references (e : BillingEvent) (k : UsageKey.Identity) :
    (e.sections.map (referenceTo e)).any (·.identity = k) = decide (e.Activates k) := by
  rw [List.any_map, Bool.eq_iff_iff, List.any_eq_true, decide_eq_true_iff, BillingEvent.activates_iff]
  exact exists_congr fun u => and_congr_right fun _ => decide_eq_true_iff

theorem ongoing_last {events : List BillingEvent} {ρ : ActivityRun} (h : ρ ∈ (runProgress events).ongoing) :
    ρ.last + 1 = events.length := ((mem_runProgress_iff events ρ).2.mp h).2

theorem ongoing_isMaximalRun {events : List BillingEvent} {ρ : ActivityRun}
    (h : ρ ∈ (runProgress events).ongoing) : IsMaximalRun events ρ :=
  ((mem_runProgress_iff events ρ).2.mp h).1

theorem ongoing_identity_nodup (events : List BillingEvent) :
    ((runProgress events).ongoing.map (·.identity)).Nodup := by
  refine List.pairwise_map.mpr ((ongoing_sorted events).imp_of_mem fun {ρ σ} hρ hσ h heq => ?_)
  have hmρ := ongoing_isMaximalRun hρ
  have hmσ := ongoing_isMaximalRun hσ
  have hlρ := ongoing_last hρ
  have hlσ := ongoing_last hσ
  have hfρ := hmρ.first_le_last
  have hfσ := hmσ.first_le_last
  rcases hmρ.eq_or_disjoint hmσ (congrArg UsageKey.Identity.usageName heq) with rfl | hlt | hlt
  · exact hmρ.not_startsBefore_self h
  · omega
  · omega

theorem places_identity_nodup (terms : Terms) (events : List BillingEvent) :
    (((runProgress events).ongoing.map (·.place terms events)).map (·.identity)).Nodup := by
  rw [List.map_map]
  exact ongoing_identity_nodup events

theorem ongoing_key {events : List BillingEvent} (hshown : ∀ e ∈ events, e.KeysShown) {ρ : ActivityRun}
    (h : ρ ∈ (runProgress events).ongoing) : ρ.key.identity? = .ok ρ.identity := by
  obtain ⟨e, he, hversion, hsection⟩ := (ongoing_isMaximalRun h).opened
  have hne : e.sections ≠ [] := List.ne_nil_of_mem (BillingEvent.mem_sections.mpr hsection)
  obtain ⟨t, ht⟩ := hshown e (List.mem_of_getElem? he) hne
  rw [hversion] at ht
  exact UsageKey.identity?_eq_ok ht

/-! ### The places after an event -/

def startedRuns (past : List BillingEvent) (e : BillingEvent) : List ActivityRun :=
  (e.sections.filter fun u => ∀ ρ ∈ (runProgress past).ongoing, ρ.identity ≠ e.identityOf u).map fun u =>
    ⟨u, e.catalogVersion, past.length, past.length⟩

/-- The places after an event was served and before places are closed: runs that it prolongs or starts
have it, and runs that it ends are as they were. -/
theorem extendedPlaces_ongoing :
    extendedPlaces terms ⟨past.length, e, some (unitTypesAfter (past ++ [e]))⟩
      (e.sections.map (referenceTo e)) ((runProgress past).ongoing.map (·.place terms past)) =
    (runProgress past).ongoing.map (fun ρ => if e.Activates ρ.identity then
      ActivityRun.place { ρ with last := past.length } terms (past ++ [e]) else ρ.place terms past) ++
    (startedRuns past e).map (·.place terms (past ++ [e])) := by
  rw [extendedPlaces, List.map_map, startedRuns, List.map_map, List.filter_map, List.map_map]
  congr 1
  · refine List.map_congr_left fun ρ hρ => ?_
    rw [Function.comp_apply, any_references, ActivityRun.place_identity]
    by_cases h : e.Activates ρ.identity
    · have hrecorded := recorded_prolonged e (ongoing_last hρ) (ongoing_isMaximalRun hρ).first_le_last
      rw [if_pos (decide_eq_true h), if_pos h, ActivityRun.place, ActivityRun.place, ActivityRun.interval,
        ActivityRun.interval, hrecorded]
      rfl
    · rw [if_neg (by simpa using h), if_neg h]
  · have hfilter : e.sections.filter ((fun r : Reference => ((runProgress past).ongoing.map
        (·.place terms past)).all (·.identity ≠ r.identity)) ∘ referenceTo e) =
        e.sections.filter fun u => ∀ ρ ∈ (runProgress past).ongoing, ρ.identity ≠ e.identityOf u := by
      refine List.filter_congr fun u _ => ?_
      rw [Function.comp_apply, List.all_map, Bool.eq_iff_iff, List.all_eq_true, decide_eq_true_iff]
      exact forall₂_congr fun ρ _ => decide_eq_true_iff
    rw [hfilter]
    refine List.map_congr_left fun u _ => ?_
    rw [Function.comp_apply, Function.comp_apply, ActivityRun.place, ActivityRun.interval, recorded_started]
    rfl

theorem identity_served (ρ : ActivityRun) : (if e.Activates ρ.identity then
    ActivityRun.place { ρ with last := past.length } terms (past ++ [e])
      else ρ.place terms past).identity = ρ.identity := by
  split <;> rfl

theorem activates_started {ρ : ActivityRun} (h : ρ ∈ startedRuns past e) : e.Activates ρ.identity := by
  obtain ⟨u, hu, rfl⟩ := List.mem_map.mp h
  exact BillingEvent.activates_iff.mpr ⟨u, (List.mem_filter.mp hu).1, rfl⟩

/-- The places left after an event are those of the runs that go on. -/
theorem ongoing_places :
    (extendedPlaces terms ⟨past.length, e, some (unitTypesAfter (past ++ [e]))⟩
      (e.sections.map (referenceTo e)) ((runProgress past).ongoing.map (·.place terms past))).filter
        (fun p => e.Activates p.identity) =
    (runProgress (past ++ [e])).ongoing.map (·.place terms (past ++ [e])) := by
  rw [extendedPlaces_ongoing, runProgress_append_singleton, RunProgress.next, List.filter_append,
    List.map_append]
  congr 1
  · rw [List.filter_map, List.map_map]
    have hfilter : (runProgress past).ongoing.filter ((fun p : OpenPlace Interval => e.Activates p.identity) ∘
        fun ρ => if e.Activates ρ.identity then
          ActivityRun.place { ρ with last := past.length } terms (past ++ [e]) else ρ.place terms past) =
        (runProgress past).ongoing.filter fun ρ => e.Activates ρ.identity := by
      refine List.filter_congr fun ρ _ => ?_
      rw [Function.comp_apply, identity_served]
    rw [hfilter]
    refine List.map_congr_left fun ρ hρ => ?_
    rw [Function.comp_apply, if_pos (of_decide_eq_true (List.mem_filter.mp hρ).2)]
  · rw [← startedRuns, List.filter_eq_self]
    intro p hp
    obtain ⟨ρ, hρ, rfl⟩ := List.mem_map.mp hp
    exact decide_eq_true (activates_started hρ)

/-- The places closed on an event are those of the runs it ends. -/
theorem ended_places :
    (extendedPlaces terms ⟨past.length, e, some (unitTypesAfter (past ++ [e]))⟩
      (e.sections.map (referenceTo e)) ((runProgress past).ongoing.map (·.place terms past))).filter
        (fun p => ¬ e.Activates p.identity) =
    ((runProgress past).ongoing.filter fun ρ => ¬ e.Activates ρ.identity).map (·.place terms past) := by
  rw [extendedPlaces_ongoing, List.filter_append, List.filter_map]
  have hstarted : ((startedRuns past e).map (·.place terms (past ++ [e]))).filter
      (fun p => ¬ e.Activates p.identity) = [] := by
    refine List.filter_eq_nil_iff.mpr fun p hp => ?_
    obtain ⟨ρ, hρ, rfl⟩ := List.mem_map.mp hp
    exact fun h => of_decide_eq_true h (activates_started hρ)
  have hfilter : (runProgress past).ongoing.filter ((fun p : OpenPlace Interval => ¬ e.Activates p.identity) ∘
      fun ρ => if e.Activates ρ.identity then
        ActivityRun.place { ρ with last := past.length } terms (past ++ [e]) else ρ.place terms past) =
      (runProgress past).ongoing.filter fun ρ => ¬ e.Activates ρ.identity := by
    refine List.filter_congr fun ρ _ => ?_
    rw [Function.comp_apply, identity_served]
  rw [hstarted, List.append_nil, hfilter]
  refine List.map_congr_left fun ρ hρ => ?_
  rw [if_neg (of_decide_eq_true (List.mem_filter.mp hρ).2)]

/-! ### One step -/

/-- The unit types that references find depend on the sections of the open places only. -/
theorem unitTypesAt_congr {places others : List (OpenPlace Interval)} (refs : List Reference)
    (built : List Interval) (h : places.map (fun p => (p.identity, p.value.usage)) =
      others.map fun p => (p.identity, p.value.usage)) :
    unitTypesAt ⟨places, built⟩ refs = unitTypesAt ⟨others, built⟩ refs := by
  have hfind (places : List (OpenPlace Interval)) (k : UsageKey.Identity) :
      ((⟨places, built⟩ : Arena Interval).find? k).map (·.usage.unitTypes) =
        ((places.map fun p => (p.identity, p.value.usage)).find? (·.1 = k)).map (·.2.unitTypes) := by
    rw [List.find?_map, Arena.find?, Option.map_map, Option.map_map]
    rfl
  rw [unitTypesAt, unitTypesAt]
  simp only [hfind, h]

theorem usages_extendedPlaces (seen seen' : Option (List String)) (refs : List Reference)
    (places : List (OpenPlace Interval)) :
    (extendedPlaces terms ⟨past.length, e, seen⟩ refs places).map (fun p => (p.identity, p.value.usage)) =
      (extendedPlaces terms ⟨past.length, e, seen'⟩ refs places).map fun p => (p.identity, p.value.usage) := by
  rw [extendedPlaces, extendedPlaces, List.map_append, List.map_append, List.map_map, List.map_map,
    List.map_map, List.map_map]
  congr 1
  refine List.map_congr_left fun p _ => ?_
  rw [Function.comp_apply, Function.comp_apply]
  split <;> rfl

/-- The unit types in force at an event are those of the runs that go on at it. -/
theorem unitTypesAt_extended (built : List Interval) :
    unitTypesAt ⟨extendedPlaces terms ⟨past.length, e, none⟩ (e.sections.map (referenceTo e))
      ((runProgress past).ongoing.map (·.place terms past)), built⟩ (e.sections.map (referenceTo e)) =
    unitTypesAfter (past ++ [e]) := by
  rw [unitTypesAt_congr _ _ (usages_extendedPlaces none (some (unitTypesAfter (past ++ [e]))) _ _)]
  set extended := extendedPlaces terms ⟨past.length, e, some (unitTypesAfter (past ++ [e]))⟩
    (e.sections.map (referenceTo e)) ((runProgress past).ongoing.map (·.place terms past))
  have hfind (u : Usage) (hu : u ∈ e.sections) : (⟨extended, built⟩ : Arena Interval).find? (e.identityOf u) =
      (((runProgress (past ++ [e])).ongoing.map (·.place terms (past ++ [e]))).find?
        (·.identity = e.identityOf u)).map (·.value) := by
    rw [← ongoing_places, List.find?_filter, Arena.find?]
    congr 2
    funext p
    have hact : e.Activates (e.identityOf u) := BillingEvent.activates_iff.mpr ⟨u, hu, rfl⟩
    by_cases h : p.identity = e.identityOf u
    · simp [h, hact]
    · simp [h]
  refine UnitTypes.ofList_congr fun x => ?_
  rw [List.mem_flatMap, List.mem_flatMap]
  constructor
  · rintro ⟨r, hr, hx⟩
    obtain ⟨u, hu, rfl⟩ := List.mem_map.mp hr
    rw [referenceTo, hfind u hu] at hx
    cases hplace : ((runProgress (past ++ [e])).ongoing.map (·.place terms (past ++ [e]))).find?
        (·.identity = e.identityOf u) with
    | none => simp [hplace] at hx
    | some p =>
        obtain ⟨ρ, hρ, rfl⟩ := List.mem_map.mp (List.mem_of_find?_eq_some hplace)
        rw [hplace] at hx
        exact ⟨ρ, hρ, hx⟩
  · rintro ⟨ρ, hρ, hx⟩
    obtain ⟨u, hu, hid⟩ := BillingEvent.activates_iff.mp
      ((exists_mem_ongoing_iff past e ρ.identity).mp ⟨ρ, hρ, rfl⟩)
    refine ⟨referenceTo e u, List.mem_map.mpr ⟨u, hu, rfl⟩, ?_⟩
    have hplace := find?_identity (places_identity_nodup terms (past ++ [e])) (List.mem_map.mpr ⟨ρ, hρ, rfl⟩)
    rw [referenceTo, hfind u hu, hid]
    rw [ActivityRun.place_identity] at hplace
    rw [hplace]
    exact hx

theorem ofList_unitTypesAfter (events : List BillingEvent) :
    UnitTypes.ofList (unitTypesAfter events) = unitTypesAfter events := UnitTypes.ofList_ofList _

theorem ofList_closing (past : List BillingEvent) (e : BillingEvent) :
    UnitTypes.ofList (if (e.sections.map (referenceTo e)).isEmpty then unitTypesAfter past
      else unitTypesAfter (past ++ [e])) = closingUnitTypes past e := by
  rw [List.isEmpty_map, closingUnitTypes]
  cases e.sections with
  | nil => exact ofList_unitTypesAfter past
  | cons u us => exact ofList_unitTypesAfter (past ++ [e])

theorem event_mem_of_mem_recorded {ρ : ActivityRun} {x : IntervalEvent} (h : x ∈ ρ.recorded past) :
    x.event ∈ past := by
  rcases List.mem_append.mp h with h | h
  · have h := List.mem_of_mem_take (List.mem_of_mem_drop h)
    obtain ⟨⟨y, m⟩, hy, rfl⟩ := List.mem_map.mp h
    exact (List.mem_zipIdx' hy).2 ▸ List.getElem_mem _
  · obtain ⟨y, hy, rfl⟩ := Option.map_eq_some_iff.mp (Option.mem_toList.mp h)
    exact List.mem_of_getElem? hy

theorem add_place (hsame : ∀ x ∈ past, e.subscriptionId = x.subscriptionId) (ρ : ActivityRun) :
    (ρ.place terms past).value.add past.length e =
      .ok ((ρ.place terms past).value.push ⟨past.length, e, none⟩) :=
  Interval.add_accumulating fun x hx => hsame x.event (event_mem_of_mem_recorded hx)

/-- Without the places of the runs that an event ends, those of the runs that go on are left. -/
theorem places_left (past : List BillingEvent) (e : BillingEvent) :
    ((extendedPlaces terms ⟨past.length, e, some (unitTypesAfter (past ++ [e]))⟩ (e.sections.map (referenceTo e))
      ((runProgress past).ongoing.map (·.place terms past))).filter fun q =>
        (((runProgress past).ongoing.filter fun ρ => ¬ e.Activates ρ.identity).map (·.place terms past)).all
          (·.identity ≠ q.identity)) =
      (runProgress (past ++ [e])).ongoing.map (·.place terms (past ++ [e])) := by
  rw [← ongoing_places]
  refine List.filter_congr fun q hq => ?_
  rw [Bool.eq_iff_iff, List.all_eq_true, decide_eq_true_iff]
  constructor
  · intro hne
    by_contra hna
    have hended : q ∈ ((runProgress past).ongoing.filter fun ρ => ¬ e.Activates ρ.identity).map
        (·.place terms past) := by
      rw [← ended_places]
      exact List.mem_filter.mpr ⟨hq, decide_eq_true hna⟩
    exact of_decide_eq_true (hne q hended) rfl
  · intro ha p hp
    obtain ⟨ρ, hρ, rfl⟩ := List.mem_map.mp hp
    have hna := of_decide_eq_true (List.mem_filter.mp hρ).2
    exact decide_eq_true fun h => hna ((ActivityRun.place_identity ρ terms past).symm.trans h ▸ ha)

/-- Closing the places of the runs that an event ends builds their intervals and leaves the places of
the runs that go on. -/
theorem foldlM_close_ended (hsame : ∀ x ∈ past, e.subscriptionId = x.subscriptionId)
    (hshown : ∀ x ∈ past, x.KeysShown) {built : List Interval} {arena : Arena Interval} :
    (((runProgress past).ongoing.filter fun ρ => ¬ e.Activates ρ.identity).map (·.place terms past)).foldlM
      (close past.length e (if (e.sections.map (referenceTo e)).isEmpty then unitTypesAfter past
        else unitTypesAfter (past ++ [e])))
      ⟨extendedPlaces terms ⟨past.length, e, some (unitTypesAfter (past ++ [e]))⟩
        (e.sections.map (referenceTo e)) ((runProgress past).ongoing.map (·.place terms past)), built⟩ =
      .ok arena ↔
    ∃ is, ((runProgress past).ongoing.filter fun ρ => ¬ e.Activates ρ.identity).mapM
        (fun ρ => (ρ.interval terms (past ++ [e])).built true) = .ok is ∧
      arena = ⟨(runProgress (past ++ [e])).ongoing.map (·.place terms (past ++ [e])), built ++ is⟩ := by
  set ending := (runProgress past).ongoing.filter fun ρ => ¬ e.Activates ρ.identity with hending
  have hplace (p : OpenPlace Interval) (hp : p ∈ ending.map (·.place terms past)) :
      ∃ ρ ∈ (runProgress past).ongoing, ρ.place terms past = p := by
    obtain ⟨ρ, hρ, rfl⟩ := List.mem_map.mp hp
    exact ⟨ρ, (List.mem_filter.mp hρ).1, rfl⟩
  have hbuilt : (ending.map (·.place terms past)).mapM (fun p => (p.value.push ⟨past.length, e,
      some (closingUnitTypes past e)⟩).built true) =
      ending.mapM fun ρ => (ρ.interval terms (past ++ [e])).built true := by
    rw [List.mapM_map]
    refine mapM_congr fun ρ hρ => ?_
    rw [Function.comp_apply, ActivityRun.interval, recorded_ended_by e (ongoing_last (List.mem_filter.mp hρ).1)]
    rfl
  rw [foldlM_close, ofList_closing, hending, places_left, ← hending, hbuilt]
  · exact extendedPlaces_nodup _ (places_identity_nodup terms past)
      (by rw [List.map_map]; exact e.identityOf_nodup)
  · exact (places_identity_nodup terms past).sublist ((List.filter_sublist.map _).map _)
  · intro p hp
    rw [hending, ← ended_places] at hp
    exact (List.mem_filter.mp hp).1
  · intro p hp
    obtain ⟨ρ, hρ, rfl⟩ := hplace p hp
    exact ongoing_key hshown hρ
  · intro p hp
    obtain ⟨ρ, -, rfl⟩ := hplace p hp
    exact add_place hsame ρ
  · intro p hp
    obtain ⟨ρ, -, rfl⟩ := hplace p hp
    rfl

/-- A step serves the keys of its event and builds the intervals of the runs it ends. -/
theorem step_eq_ok (hsame : ∀ x ∈ past, e.subscriptionId = x.subscriptionId)
    (hshown : ∀ x ∈ past, x.KeysShown) {built : List Interval} {w : Walk} :
    step terms (walkAfter terms past built) past.length e = .ok w ↔ e.KeysShown ∧ ∃ is,
      ((runProgress past).ongoing.filter fun ρ => ¬ e.Activates ρ.identity).mapM
        (fun ρ => (ρ.interval terms (past ++ [e])).built true) = .ok is ∧
      w = walkAfter terms (past ++ [e]) (built ++ is) := by
  set refs := e.sections.map (referenceTo e) with hrefs
  set places := (runProgress past).ongoing.map (·.place terms past) with hplaces
  have hnodup : (refs.map (·.identity)).Nodup := by
    rw [hrefs, List.map_map]
    exact e.identityOf_nodup
  have hmode : ∀ r ∈ refs, r.usage.billingMode = .inArrear := by
    intro r hr
    obtain ⟨u, hu, rfl⟩ := List.mem_map.mp hr
    exact BillingEvent.sections_inArrear hu
  have hadd : ∀ p ∈ places, p.value.add past.length e = .ok (p.value.push ⟨past.length, e, none⟩) := by
    intro p hp
    obtain ⟨ρ, -, rfl⟩ := List.mem_map.mp hp
    exact add_place hsame ρ
  have hstage : ∀ p ∈ places, p.value.stage = .accumulating := by
    intro p hp
    obtain ⟨ρ, -, rfl⟩ := List.mem_map.mp hp
    rfl
  have hserve (h : e.KeysShown) : step terms (walkAfter terms past built) past.length e = .ok w ↔
      ∃ arena, (((runProgress past).ongoing.filter fun ρ => ¬ e.Activates ρ.identity).map
          (·.place terms past)).foldlM (close past.length e (if refs.isEmpty then unitTypesAfter past
            else unitTypesAfter (past ++ [e])))
          ⟨extendedPlaces terms ⟨past.length, e, some (unitTypesAfter (past ++ [e]))⟩ refs places, built⟩ =
        .ok arena ∧ w = ⟨arena, unitTypesAfter (past ++ [e])⟩ := by
    have hkeys : ∀ r ∈ refs, r.key.identity? = .ok r.identity := by
      intro r hr
      obtain ⟨u, hu, rfl⟩ := List.mem_map.mp hr
      obtain ⟨t, ht⟩ := h (List.ne_nil_of_mem hu)
      exact UsageKey.identity?_eq_ok ht
    rw [step, references_eq_ok.mpr ⟨h, rfl⟩, ok_bind, walkAfter,
      foldlM_extend hnodup hkeys hmode built fun p hp _ _ _ => hadd p hp, ok_bind]
    dsimp only
    rw [unitTypesAt_extended built, tagReferenced_eq_ok _ refs built hstage, ok_bind, ← ended_places,
      ofList_unitTypesAfter, bind_eq_ok]
    have hany (k : UsageKey.Identity) : refs.any (·.identity = k) = decide (e.Activates k) :=
      any_references e k
    simp only [decide_not, ← hrefs, ← hplaces, hany]
    refine exists_congr fun arena => and_congr_right fun _ => ?_
    rw [pure_eq_ok, eq_comm]
  constructor
  · intro h
    obtain ⟨refs', hrefs', -⟩ := bind_eq_ok.mp h
    have hkeys := (references_eq_ok.mp hrefs').1
    obtain ⟨arena, harena, rfl⟩ := (hserve hkeys).mp h
    obtain ⟨is, his, rfl⟩ := (foldlM_close_ended hsame hshown).mp harena
    exact ⟨hkeys, is, his, rfl⟩
  · rintro ⟨hkeys, is, his, rfl⟩
    exact (hserve hkeys).mpr ⟨_, (foldlM_close_ended hsame hshown).mpr ⟨is, his, rfl⟩, rfl⟩

/-! ### The whole walk -/

/-- The runs of a longer timeline that have ended are those that had before, then those its last event
ends. -/
theorem ended_append_singleton (past : List BillingEvent) (e : BillingEvent) :
    (runProgress (past ++ [e])).ended = (runProgress past).ended ++
      (runProgress past).ongoing.filter fun ρ => ¬ e.Activates ρ.identity := by
  rw [runProgress_append_singleton, RunProgress.next]

theorem interval_append {ρ : ActivityRun} (more : List BillingEvent) (h : ρ.last + 1 < past.length) :
    ρ.interval terms (past ++ more) = ρ.interval terms past := by
  rw [ActivityRun.interval, ActivityRun.interval, recorded_append more h]

end

/-- A walk over some events goes on from where the walk over the first ones ended. -/
theorem walk_append (terms : Terms) (w : Walk) (place : Nat) (past rest : List BillingEvent) :
    walk terms w place (past ++ rest) =
      walk terms w place past >>= fun w' => walk terms w' (place + past.length) rest := by
  induction past generalizing w place with
  | nil => rfl
  | cons x xs ih =>
      rw [List.cons_append, walk, walk]
      cases step terms w place x with
      | error _ => rfl
      | ok w' => rw [ok_bind, ok_bind, ih, List.length_cons, Nat.add_right_comm, Nat.add_assoc]

theorem walk_singleton (terms : Terms) (w : Walk) (place : Nat) (e : BillingEvent) :
    walk terms w place [e] = step terms w place e := by
  rw [walk]
  cases step terms w place e <;> rfl

/-- The walk along a timeline of one subscription serves the keys of all events and builds the
intervals of the runs that have ended. -/
theorem walk_eq_ok {terms : Terms} {events : List BillingEvent} (hsame : ∀ x ∈ events, ∀ y ∈ events,
    x.subscriptionId = y.subscriptionId) {w : Walk} :
    walk terms ⟨.empty, []⟩ 0 events = .ok w ↔ (∀ e ∈ events, e.KeysShown) ∧ ∃ is,
      (runProgress events).ended.mapM (·.built terms events) = .ok is ∧ w = walkAfter terms events is := by
  induction events using List.reverseRecOn generalizing w with
  | nil =>
      have hempty : runProgress [] = ⟨[], []⟩ := rfl
      rw [walk, hempty, List.mapM_nil]
      constructor
      · intro h
        exact ⟨by simp, [], rfl, (Except.ok.inj h).symm⟩
      · rintro ⟨-, is, his, rfl⟩
        rw [← pure_eq_ok.mp his]
        rfl
  | append_singleton past e ih =>
      have hpast := @ih fun x hx y hy => hsame x (List.mem_append_left _ hx) y (List.mem_append_left _ hy)
      have hlast : ∀ x ∈ past, e.subscriptionId = x.subscriptionId := fun x hx =>
        hsame e (by simp) x (List.mem_append_left _ hx)
      have hold : (runProgress past).ended.mapM (·.built terms (past ++ [e])) =
          (runProgress past).ended.mapM (·.built terms past) := by
        refine mapM_congr fun ρ hρ => ?_
        have hlt := ((mem_runProgress_iff past ρ).1.mp hρ).2
        have hlt' : ρ.last + 1 < (past ++ [e]).length := by
          rw [List.length_append]
          omega
        rw [ActivityRun.built, ActivityRun.built, interval_append [e] hlt, decide_eq_true hlt, decide_eq_true hlt']
      have hnew : ((runProgress past).ongoing.filter fun ρ => ¬ e.Activates ρ.identity).mapM
          (·.built terms (past ++ [e])) = ((runProgress past).ongoing.filter fun ρ =>
            ¬ e.Activates ρ.identity).mapM fun ρ => (ρ.interval terms (past ++ [e])).built true := by
        refine mapM_congr fun ρ hρ => ?_
        have hlt : ρ.last + 1 < (past ++ [e]).length := by
          rw [ongoing_last (List.mem_filter.mp hρ).1, List.length_append, List.length_singleton]
          omega
        rw [ActivityRun.built, decide_eq_true hlt]
      rw [walk_append, bind_eq_ok, Nat.zero_add, ended_append_singleton]
      simp only [walk_singleton]
      constructor
      · rintro ⟨w', hw', hstep⟩
        obtain ⟨hshown, is, his, rfl⟩ := hpast.mp hw'
        obtain ⟨hkeys, js, hjs, rfl⟩ := (step_eq_ok hlast hshown).mp hstep
        refine ⟨List.forall_mem_append.mpr ⟨hshown, by simpa using hkeys⟩, is ++ js, ?_, rfl⟩
        exact mapM_append_eq_ok.mpr ⟨is, js, hold.trans his, hnew.trans hjs, rfl⟩
      · rintro ⟨hkeys, built, hbuilt, rfl⟩
        obtain ⟨hshown, hkeys⟩ := List.forall_mem_append.mp hkeys
        obtain ⟨is, js, his, hjs, rfl⟩ := mapM_append_eq_ok.mp hbuilt
        refine ⟨_, hpast.mpr ⟨hshown, is, hold.symm.trans his, rfl⟩, (step_eq_ok hlast hshown).mpr ?_⟩
        exact ⟨hkeys e (by simp), js, hnew.symm.trans hjs, rfl⟩

/-- The intervals of a timeline are those of its activity runs. -/
theorem intervals_eq_ok {terms : Terms} {events : List BillingEvent} (hsame : ∀ x ∈ events, ∀ y ∈ events,
    x.subscriptionId = y.subscriptionId) {is : List Interval} :
    intervals terms events = .ok is ↔ (∀ e ∈ events, e.KeysShown) ∧
      (activityRuns events).mapM (·.built terms events) = .ok is := by
  have hopen : ((runProgress events).ongoing.map (·.place terms events)).mapM (·.value.built false) =
      (runProgress events).ongoing.mapM (·.built terms events) := by
    rw [List.mapM_map]
    refine mapM_congr fun ρ hρ => ?_
    have hlast : ¬ ρ.last + 1 < events.length := by
      rw [ongoing_last hρ]
      exact Nat.lt_irrefl _
    rw [ActivityRun.built, decide_eq_false hlast]
    rfl
  rw [intervals, bind_eq_ok, activityRuns]
  constructor
  · rintro ⟨w, hw, hfinish⟩
    obtain ⟨hshown, js, hjs, rfl⟩ := (walk_eq_ok hsame).mp hw
    obtain ⟨ks, hks, h⟩ := bind_eq_ok.mp hfinish
    refine ⟨hshown, mapM_append_eq_ok.mpr ⟨js, ks, hjs, hopen.symm.trans hks, (pure_eq_ok.mp h).symm⟩⟩
  · rintro ⟨hshown, h⟩
    obtain ⟨js, ks, hjs, hks, rfl⟩ := mapM_append_eq_ok.mp h
    refine ⟨_, (walk_eq_ok hsame).mpr ⟨hshown, js, hjs, rfl⟩, ?_⟩
    exact bind_eq_ok.mpr ⟨ks, hopen.trans hks, rfl⟩

end Timeline
end UsageBilling
