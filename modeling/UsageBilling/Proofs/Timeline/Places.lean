import UsageBilling.Proofs.Sequencing
import UsageBilling.Proofs.Timeline.Activity
import UsageBilling.Timeline

/-! What a step of the walk does to the open places of the arena. The references of an event are those to
its sections (`references_eq_ok`); serving them adds the event to their places and opens the missing
ones (`foldlM_extend`), tagging records the unit types in force there (`tagReferenced_eq_ok`), and
closing takes places out and builds their intervals (`foldlM_close`). -/

namespace UsageBilling

/-! ### Intervals that accumulate -/

namespace UnitTypes

theorem eq_of_mem_iff {xs ys : List String} (hxs : xs.Pairwise (· < ·)) (hys : ys.Pairwise (· < ·))
    (h : ∀ x, x ∈ xs ↔ x ∈ ys) : xs = ys := by
  have hnodup (zs : List String) (hzs : zs.Pairwise (· < ·)) : zs.Nodup := by
    refine hzs.imp ?_
    rintro a _ hab rfl
    exact String.lt_irrefl a hab
  refine List.Perm.eq_of_pairwise (fun a b _ _ hab hba => ?_) hxs hys
    ((List.perm_ext_iff_of_nodup (hnodup xs hxs) (hnodup ys hys)).mpr h)
  exact absurd (String.lt_trans hab hba) (String.lt_irrefl a)

theorem ofList_congr {xs ys : List String} (h : ∀ x, x ∈ xs ↔ x ∈ ys) : ofList xs = ofList ys :=
  eq_of_mem_iff (sorted_ofList xs) (sorted_ofList ys) fun x => by rw [mem_ofList, mem_ofList, h]

theorem ofList_ofList (xs : List String) : ofList (ofList xs) = ofList xs :=
  ofList_congr fun x => mem_ofList x xs

end UnitTypes

namespace Interval

/-- An interval with the given events that has not been built. -/
def accumulating (usage : Usage) (terms : Terms) (events : List IntervalEvent) : Interval :=
  { usage, terms, events, stage := .accumulating, buckets := [], nextNotification := none }

def push (i : Interval) (e : IntervalEvent) : Interval := { i with events := i.events ++ [e] }

variable {usage : Usage} {terms : Terms} {events : List IntervalEvent} {place : Nat} {event : BillingEvent}

theorem create_eq_ok (h : usage.billingMode = .inArrear) :
    create usage terms = .ok (accumulating usage terms []) := by
  rw [create, if_pos h, accumulating]

theorem add_accumulating (h : ∀ e ∈ events, event.subscriptionId = e.event.subscriptionId) :
    (accumulating usage terms events).add place event =
      .ok ((accumulating usage terms events).push ⟨place, event, none⟩) := by
  cases events with
  | nil => rfl
  | cons first rest =>
      have hsame := h first List.mem_cons_self
      simp only [add, checkNotBuilt, isBuilt, accumulating, List.head?_cons, ne_eq, not_true_eq_false,
        decide_false, Bool.false_eq_true, if_false, hsame]
      rfl

theorem tag_push (i : Interval) (h : i.stage = .accumulating) (unitTypes : List String) :
    (i.push ⟨place, event, none⟩).tag place unitTypes =
      .ok (i.push ⟨place, event, some (UnitTypes.ofList unitTypes)⟩) := by
  simp only [tag, checkNotBuilt, isBuilt, push, h, List.getLast?_concat, List.dropLast_concat, ne_eq,
    not_true_eq_false, decide_false, Bool.false_eq_true, if_false]
  rfl

end Interval

/-! ### References of one event -/

namespace BillingEvent

/-- Whether the keys of the sections of an event have an identity: UTC can show its catalog version. -/
def KeysShown (e : BillingEvent) : Prop := e.sections ≠ [] → ∃ utc, e.catalogVersion.utc? = .ok utc

end BillingEvent

theorem Instant.utc_of_utc?_eq_ok {i : Instant} {t : Int} (h : i.utc? = .ok t) : t = i.utc := by
  obtain ⟨d, -, ht⟩ := bind_eq_ok.mp h
  exact (pure_eq_ok.mp ht).symm

theorem UsageKey.identity?_eq_ok {k : UsageKey} {t : Int} (h : k.version.utc? = .ok t) :
    k.identity? = .ok ⟨k.usageName, k.version.utc⟩ := by
  rw [identity?, h, Instant.utc_of_utc?_eq_ok h]
  rfl

namespace Timeline

/-- The reference of an event to one of its sections. -/
def referenceTo (e : BillingEvent) (u : Usage) : Reference := ⟨e.keyOf u, e.identityOf u, u⟩

/-- Sections are added as references unless their keys are there already. -/
theorem foldlM_references {e : BillingEvent} {t : Int} (h : e.catalogVersion.utc? = .ok t)
    (us : List Usage) (found : List Reference) :
    us.foldlM (fun found usage => (do
      let identity ← (liftM (e.keyOf usage).identity? : Except Error UsageKey.Identity)
      return if found.any (·.identity = identity) then found
        else found ++ [⟨e.keyOf usage, identity, usage⟩] : Except Error (List Reference))) found =
    .ok (found ++ ((Usage.firstOfEachName us).filter fun u =>
      !found.any (·.identity = e.identityOf u)).map (referenceTo e)) := by
  induction us generalizing found with
  | nil => simp [Usage.firstOfEachName, pure, Except.pure]
  | cons w ws ih =>
      have hid : (liftM (e.keyOf w).identity? : Except Error UsageKey.Identity) = .ok (e.identityOf w) :=
        liftM_calendar_eq_ok.mpr (UsageKey.identity?_eq_ok h)
      have hname (u : Usage) : e.identityOf u = e.identityOf w ↔ u.name = w.name := by
        simp [BillingEvent.identityOf]
      rw [List.foldlM_cons, hid, Usage.firstOfEachName]
      by_cases hfound : found.any (·.identity = e.identityOf w) = true
      · have hstep : (Except.ok (e.identityOf w) >>= fun identity => pure (if found.any (·.identity = identity)
            then found else found ++ [⟨e.keyOf w, identity, w⟩]) : Except Error (List Reference)) = .ok found := by
          rw [ok_bind, if_pos hfound]
          rfl
        rw [hstep, ok_bind, ih, List.filter_cons_of_neg (by simp [hfound]), List.filter_filter]
        congr 3
        refine List.filter_congr fun u _ => ?_
        by_cases hu : u.name = w.name
        · rw [(hname u).mpr hu, hfound]
          simp
        · simp [hu]
      · have hstep : (Except.ok (e.identityOf w) >>= fun identity => pure (if found.any (·.identity = identity)
            then found else found ++ [⟨e.keyOf w, identity, w⟩]) : Except Error (List Reference)) =
            .ok (found ++ [referenceTo e w]) := by
          rw [ok_bind, if_neg hfound]
          rfl
        rw [hstep, ok_bind, ih, List.filter_cons_of_pos (by simp [hfound]), List.map_cons, List.append_assoc,
          List.singleton_append, List.filter_filter]
        congr 4
        refine List.filter_congr fun u _ => ?_
        rw [List.any_append, List.any_cons, List.any_nil, Bool.or_false, Bool.not_or]
        rw [decide_not, referenceTo, decide_eq_decide.mpr (eq_comm.trans (hname u)), Bool.and_comm]

/-- The references of an event are those to its sections, once its keys have an identity. -/
theorem references_eq_ok {e : BillingEvent} {refs : List Reference} :
    references e = .ok refs ↔ e.KeysShown ∧ refs = e.sections.map (referenceTo e) := by
  cases hv : e.catalogVersion.utc? with
  | ok t =>
      have hfold := foldlM_references hv (e.usages.filter (·.billingMode = .inArrear)) []
      rw [references, hfold, List.nil_append, List.filter_eq_self.mpr (by simp), Except.ok.injEq, eq_comm]
      exact ⟨fun h => ⟨fun _ => ⟨t, hv⟩, h⟩, fun h => h.2⟩
  | error fault =>
      rw [references, BillingEvent.KeysShown, BillingEvent.sections]
      cases husages : e.usages.filter (·.billingMode = .inArrear) with
      | nil =>
          rw [List.foldlM_nil, pure_eq_ok]
          exact ⟨fun h => ⟨fun hne => absurd rfl hne, h.symm⟩, fun h => h.2.symm⟩
      | cons w ws =>
          have hid : (e.keyOf w).identity? = .error fault := by
            rw [UsageKey.identity?, BillingEvent.keyOf, hv]
            rfl
          rw [foldlM_cons_eq_ok]
          constructor
          · rintro ⟨_, h, -⟩
            dsimp only at h
            rw [hid] at h
            cases h
          · rintro ⟨h, -⟩
            obtain ⟨t, ht⟩ := h (by simp [Usage.firstOfEachName])
            rw [hv] at ht
            cases ht

/-! ### Open places -/

/-- The place with one more event in its interval. -/
def pushed (e : IntervalEvent) (p : OpenPlace Interval) : OpenPlace Interval :=
  { p with value := p.value.push e }

/-- The place opened for a reference, with its first event. -/
def opened (terms : Terms) (e : IntervalEvent) (r : Reference) : OpenPlace Interval :=
  ⟨r.key, r.identity, (Interval.accumulating r.usage terms []).push e⟩

/-- The places after the references of an event: those that are referenced have the event, and the
references that had no place have one. -/
def extendedPlaces (terms : Terms) (e : IntervalEvent) (refs : List Reference)
    (places : List (OpenPlace Interval)) : List (OpenPlace Interval) :=
  places.map (fun p => if refs.any (·.identity = p.identity) then pushed e p else p) ++
    (refs.filter fun r => places.all (·.identity ≠ r.identity)).map (opened terms e)

section

variable {terms : Terms} {place : Nat} {event : BillingEvent}

theorem extendedPlaces_cons (e : IntervalEvent) {r : Reference} {rs : List Reference}
    (hne : ∀ s ∈ rs, s.identity ≠ r.identity) (places : List (OpenPlace Interval)) :
    extendedPlaces terms e rs (extendedPlaces terms e [r] places) = extendedPlaces terms e (r :: rs) places := by
  have hnone (k : UsageKey.Identity) (hk : k = r.identity) : rs.any (·.identity = k) = false := by
    rw [List.any_eq_false]
    exact fun s hs h => hne s hs ((of_decide_eq_true h).trans hk)
  have hplace (p : OpenPlace Interval) : (fun p => if rs.any (·.identity = p.identity) then pushed e p else p)
      (if [r].any (·.identity = p.identity) then pushed e p else p) =
      if (r :: rs).any (·.identity = p.identity) then pushed e p else p := by
    by_cases h : r.identity = p.identity
    · have hskip : rs.any (·.identity = (pushed e p).identity) = false := hnone _ h.symm
      simp only [List.any_cons, h, decide_true, Bool.true_or, if_true, hskip, Bool.false_eq_true, if_false]
    · simp [h]
  have hopened : ((([r] : List Reference).filter fun r => places.all (·.identity ≠ r.identity)).map
      (opened terms e)).map (fun p => if rs.any (·.identity = p.identity) then pushed e p else p) =
      (([r] : List Reference).filter fun r => places.all (·.identity ≠ r.identity)).map (opened terms e) := by
    rw [List.map_map]
    refine List.map_congr_left fun s hs => ?_
    obtain rfl := List.mem_singleton.mp (List.mem_filter.mp hs).1
    rw [Function.comp_apply, if_neg]
    exact Bool.eq_false_iff.mp (hnone _ rfl)
  have hfilter : (rs.filter fun s => (extendedPlaces terms e [r] places).all (·.identity ≠ s.identity)) =
      rs.filter fun s => places.all (·.identity ≠ s.identity) := by
    refine List.filter_congr fun s hs => ?_
    rw [extendedPlaces, List.all_append, List.all_map, List.all_map]
    have hnew : (([r] : List Reference).filter fun r => places.all (·.identity ≠ r.identity)).all
        ((fun p => decide (p.identity ≠ s.identity)) ∘ opened terms e) = true := by
      rw [List.all_eq_true]
      intro q hq
      obtain rfl := List.mem_singleton.mp (List.mem_filter.mp hq).1
      exact decide_eq_true (Ne.symm (hne s hs))
    rw [hnew, Bool.and_true]
    congr 1
    funext p
    rw [Function.comp_apply]
    split <;> rfl
  have hsplit : (r :: rs).filter (fun s => places.all (·.identity ≠ s.identity)) =
      [r].filter (fun s => places.all (·.identity ≠ s.identity)) ++
        rs.filter fun s => places.all (·.identity ≠ s.identity) := List.filter_append [r] rs
  rw [extendedPlaces, hfilter, extendedPlaces, List.map_append, List.map_map, hopened, extendedPlaces, hsplit,
    List.map_append, List.append_assoc]
  congr 1
  exact List.map_congr_left fun p _ => hplace p

theorem extendedPlaces_nodup (e : IntervalEvent) {refs : List Reference}
    {places : List (OpenPlace Interval)} (hplaces : (places.map (·.identity)).Nodup)
    (hrefs : (refs.map (·.identity)).Nodup) :
    ((extendedPlaces terms e refs places).map (·.identity)).Nodup := by
  have hold : (places.map fun p => if refs.any (·.identity = p.identity) then pushed e p else p).map (·.identity) =
      places.map (·.identity) := by
    rw [List.map_map]
    refine List.map_congr_left fun p _ => ?_
    rw [Function.comp_apply]
    split <;> rfl
  have hnew : ((refs.filter fun r => places.all (·.identity ≠ r.identity)).map (opened terms e)).map (·.identity) =
      (refs.filter fun r => places.all (·.identity ≠ r.identity)).map (·.identity) := by
    rw [List.map_map]
    rfl
  rw [extendedPlaces, List.map_append, hold, hnew, List.nodup_append]
  refine ⟨hplaces, hrefs.sublist (List.filter_sublist.map _), ?_⟩
  intro k hk k' hk' heq
  obtain ⟨p, hp, rfl⟩ := List.mem_map.mp hk
  obtain ⟨r, hr, rfl⟩ := List.mem_map.mp hk'
  exact of_decide_eq_true (List.all_eq_true.mp (List.mem_filter.mp hr).2 p hp) heq

/-- A reference is served by the place of its key, or by a new one. -/
theorem extend_eq_ok {r : Reference} {places : List (OpenPlace Interval)} {built : List Interval}
    (hkey : r.key.identity? = .ok r.identity) (hmode : r.usage.billingMode = .inArrear)
    (hadd : ∀ p ∈ places, r.identity = p.identity →
      p.value.add place event = .ok (p.value.push ⟨place, event, none⟩)) :
    extend terms place event ⟨places, built⟩ r =
      .ok ⟨extendedPlaces terms ⟨place, event, none⟩ [r] places, built⟩ := by
  have hid : (liftM r.key.identity? : Except Error UsageKey.Identity) = .ok r.identity :=
    liftM_calendar_eq_ok.mpr hkey
  rw [extend, extendedPlaces]
  cases hfind : places.find? (·.identity = r.identity) with
  | some q =>
      have hq : q.identity = r.identity := by simpa using List.find?_some hfind
      have hsome : ∃ p ∈ places, p.identity = r.identity := ⟨q, List.mem_of_find?_eq_some hfind, hq⟩
      simp only [Arena.find?, hfind, Option.map_some]
      rw [mapM_eq_ok_map fun p => if [r].any (·.identity = p.identity) then
        pushed ⟨place, event, none⟩ p else p, ok_bind]
      · simp [hsome, pure, Except.pure]
      · intro p hp
        by_cases h : p.identity = r.identity
        · rw [if_pos h, hadd p hp h.symm, ok_bind, if_pos (by simp [h])]
          rfl
        · rw [if_neg h, if_neg (by simpa using Ne.symm h)]
          rfl
  | none =>
      have hnone : ∀ p ∈ places, p.identity ≠ r.identity := by simpa using hfind
      have hsame : places.map (fun p => if [r].any (·.identity = p.identity) then
          pushed ⟨place, event, none⟩ p else p) = places := by
        conv_rhs => rw [← List.map_id places]
        refine List.map_congr_left fun p hp => ?_
        rw [if_neg (by simpa using Ne.symm (hnone p hp)), id]
      simp only [Arena.find?, hfind, Option.map_none]
      rw [Interval.create_eq_ok hmode, ok_bind, Interval.add_accumulating (by simp), ok_bind, Arena.insert,
        hid, ok_bind, Arena.find?, hfind, hsame, List.filter_cons_of_pos (by simpa using hnone)]
      rfl

/-- The references of an event are served one after the other. -/
theorem foldlM_extend {refs : List Reference} (hnodup : (refs.map (·.identity)).Nodup)
    (hkey : ∀ r ∈ refs, r.key.identity? = .ok r.identity)
    (hmode : ∀ r ∈ refs, r.usage.billingMode = .inArrear) {places : List (OpenPlace Interval)}
    (built : List Interval) (hadd : ∀ p ∈ places, ∀ r ∈ refs, r.identity = p.identity →
      p.value.add place event = .ok (p.value.push ⟨place, event, none⟩)) :
    refs.foldlM (extend terms place event) ⟨places, built⟩ =
      .ok ⟨extendedPlaces terms ⟨place, event, none⟩ refs places, built⟩ := by
  induction refs generalizing places with
  | nil => simp [extendedPlaces, pure, Except.pure]
  | cons r rs ih =>
      obtain ⟨hr, hrs⟩ := List.nodup_cons.mp hnodup
      have hne : ∀ s ∈ rs, s.identity ≠ r.identity := fun s hs h =>
        hr (List.mem_map.mpr ⟨s, hs, h⟩)
      rw [List.foldlM_cons, extend_eq_ok (hkey r List.mem_cons_self) (hmode r List.mem_cons_self)
        fun p hp => hadd p hp r List.mem_cons_self, ok_bind,
        ih hrs (fun s hs => hkey s (List.mem_cons_of_mem r hs))
          (fun s hs => hmode s (List.mem_cons_of_mem r hs))]
      · rw [extendedPlaces_cons _ hne]
      · intro p hp s hs h
        refine hadd p ?_ s (List.mem_cons_of_mem r hs) h
        rcases List.mem_append.mp hp with hp | hp
        · obtain ⟨q, hq, rfl⟩ := List.mem_map.mp hp
          by_cases hqr : [r].any (·.identity = q.identity) = true
          · rw [if_pos hqr] at h
            have hq : r.identity = q.identity := by simpa using hqr
            exact absurd (h.trans hq.symm) (hne s hs)
          · rwa [if_neg hqr]
        · obtain ⟨q, hq, rfl⟩ := List.mem_map.mp hp
          obtain rfl := List.mem_singleton.mp (List.mem_filter.mp hq).1
          exact absurd h (hne s hs)

/-- The intervals an event references record the unit types in force at it. -/
theorem tagReferenced_eq_ok (unitTypes : List String) (refs : List Reference)
    {places : List (OpenPlace Interval)} (built : List Interval)
    (hstage : ∀ p ∈ places, p.value.stage = .accumulating) :
    tagReferenced place unitTypes ⟨extendedPlaces terms ⟨place, event, none⟩ refs places, built⟩ refs =
      .ok ⟨extendedPlaces terms ⟨place, event, some (UnitTypes.ofList unitTypes)⟩ refs places, built⟩ := by
  have hplaces : (extendedPlaces terms ⟨place, event, none⟩ refs places).mapM (fun p =>
      (if refs.any (·.identity = p.identity) then do
        return { p with value := ← p.value.tag place unitTypes }
      else return p : Except Error (OpenPlace Interval))) =
      .ok (extendedPlaces terms ⟨place, event, some (UnitTypes.ofList unitTypes)⟩ refs places) := by
    rw [mapM_eq_ok, extendedPlaces, extendedPlaces]
    refine List.rel_append ?_ ?_
    · rw [List.forall₂_map_left_iff, List.forall₂_map_right_iff, List.forall₂_same]
      intro p hp
      by_cases h : refs.any (·.identity = p.identity) = true
      · rw [if_pos h, if_pos h, if_pos (by exact h), pushed, Interval.tag_push _ (hstage p hp)]
        rfl
      · rw [if_neg h, if_neg h, if_neg h]
        rfl
    · rw [List.forall₂_map_left_iff, List.forall₂_map_right_iff, List.forall₂_same]
      intro r hr
      have hself : refs.any (·.identity = (opened terms ⟨place, event, none⟩ r).identity) = true :=
        List.any_eq_true.mpr ⟨r, (List.mem_filter.mp hr).1, decide_eq_true rfl⟩
      rw [if_pos hself, opened, Interval.tag_push _ rfl]
      rfl
  rw [tagReferenced, hplaces]
  rfl

end

theorem find?_identity {places : List (OpenPlace Interval)} (hnodup : (places.map (·.identity)).Nodup)
    {p : OpenPlace Interval} (hp : p ∈ places) : places.find? (·.identity = p.identity) = some p := by
  induction places with
  | nil => cases hp
  | cons q qs ih =>
      obtain ⟨hq, hqs⟩ := List.nodup_cons.mp hnodup
      rcases List.mem_cons.mp hp with rfl | hp
      · rw [List.find?_cons_of_pos (by simp)]
      · have hne : q.identity ≠ p.identity := fun h => hq (List.mem_map.mpr ⟨p, hp, h.symm⟩)
        rw [List.find?_cons_of_neg (by simpa using hne), ih hqs hp]

section

variable {place : Nat} {event : BillingEvent} {unitTypes : List String}

theorem close_eq_ok {p : OpenPlace Interval} {places : List (OpenPlace Interval)} {built : List Interval}
    {arena : Arena Interval} (hkey : p.key.identity? = .ok p.identity)
    (hnodup : (places.map (·.identity)).Nodup) (hp : p ∈ places)
    (hadd : p.value.add place event = .ok (p.value.push ⟨place, event, none⟩))
    (hstage : p.value.stage = .accumulating) :
    close place event unitTypes ⟨places, built⟩ p = .ok arena ↔
      ∃ i, (p.value.push ⟨place, event, some (UnitTypes.ofList unitTypes)⟩).built true = .ok i ∧
        arena = ⟨places.filter (·.identity ≠ p.identity), built ++ [i]⟩ := by
  have hopen : (⟨places, built⟩ : Arena Interval).find? p.identity = some p.value := by
    rw [Arena.find?, find?_identity hnodup hp]
    rfl
  have htake : (⟨places, built⟩ : Arena Interval).take p.key =
      .ok (p.value, ⟨places.filter (·.identity ≠ p.identity), built⟩) :=
    Arena.take_eq_ok.mpr ⟨p.identity, hkey, hopen, rfl⟩
  rw [close, htake, ok_bind]
  dsimp only
  rw [hadd, ok_bind, Interval.tag_push _ hstage, ok_bind, bind_eq_ok]
  refine exists_congr fun i => and_congr_right fun _ => ?_
  rw [pure_eq_ok, Arena.addBuilt, eq_comm]

/-- What is left once a place and then others were taken. -/
theorem filter_identity_cons (p : OpenPlace Interval) (ps places : List (OpenPlace Interval)) :
    (places.filter (·.identity ≠ p.identity)).filter (fun q => ps.all (·.identity ≠ q.identity)) =
      places.filter fun q => (p :: ps).all (·.identity ≠ q.identity) := by
  rw [List.filter_filter]
  refine List.filter_congr fun q _ => ?_
  rw [List.all_cons, Bool.and_comm]
  congr 1
  exact decide_eq_decide.mpr ne_comm

theorem foldlM_close {closing places : List (OpenPlace Interval)} {built : List Interval}
    {arena : Arena Interval} (hnodup : (places.map (·.identity)).Nodup)
    (hclosing : (closing.map (·.identity)).Nodup) (hsub : ∀ p ∈ closing, p ∈ places)
    (hkey : ∀ p ∈ closing, p.key.identity? = .ok p.identity)
    (hadd : ∀ p ∈ closing, p.value.add place event = .ok (p.value.push ⟨place, event, none⟩))
    (hstage : ∀ p ∈ closing, p.value.stage = .accumulating) :
    closing.foldlM (close place event unitTypes) ⟨places, built⟩ = .ok arena ↔
      ∃ is, closing.mapM (fun p =>
          (p.value.push ⟨place, event, some (UnitTypes.ofList unitTypes)⟩).built true) = .ok is ∧
        arena = ⟨places.filter fun q => closing.all (·.identity ≠ q.identity), built ++ is⟩ := by
  induction closing generalizing places built with
  | nil =>
      rw [List.foldlM_nil, List.mapM_nil, pure_eq_ok]
      constructor
      · rintro rfl
        exact ⟨[], rfl, by simp⟩
      · rintro ⟨is, h, rfl⟩
        obtain rfl := pure_eq_ok.mp h
        simp
  | cons p ps ih =>
      obtain ⟨hp, hps⟩ := List.nodup_cons.mp hclosing
      have hne : ∀ q ∈ ps, q.identity ≠ p.identity := fun q hq h =>
        hp (List.mem_map.mpr ⟨q, hq, h⟩)
      have hrest (is : List Interval) : ps.foldlM (close place event unitTypes)
          ⟨places.filter (·.identity ≠ p.identity), built ++ is⟩ = .ok arena ↔ _ :=
        ih (hnodup.sublist (List.filter_sublist.map _)) hps
        (fun q hq => List.mem_filter.mpr
          ⟨hsub q (List.mem_cons_of_mem p hq), decide_eq_true (hne q hq)⟩)
        (fun q hq => hkey q (List.mem_cons_of_mem p hq))
        (fun q hq => hadd q (List.mem_cons_of_mem p hq))
        (fun q hq => hstage q (List.mem_cons_of_mem p hq))
      rw [foldlM_cons_eq_ok, List.mapM_cons]
      simp only [close_eq_ok (hkey p List.mem_cons_self) hnodup (hsub p List.mem_cons_self)
        (hadd p List.mem_cons_self) (hstage p List.mem_cons_self)]
      constructor
      · rintro ⟨_, ⟨i, hi, rfl⟩, h⟩
        obtain ⟨is, his, rfl⟩ := (hrest [i]).mp h
        refine ⟨i :: is, bind_eq_ok.mpr ⟨i, hi, bind_eq_ok.mpr ⟨is, his, rfl⟩⟩, ?_⟩
        rw [filter_identity_cons, List.append_assoc, List.singleton_append]
      · rintro ⟨_, h, rfl⟩
        obtain ⟨i, hi, h⟩ := bind_eq_ok.mp h
        obtain ⟨is, his, h⟩ := bind_eq_ok.mp h
        obtain rfl := pure_eq_ok.mp h
        refine ⟨_, ⟨i, hi, rfl⟩, (hrest [i]).mpr ⟨is, his, ?_⟩⟩
        rw [filter_identity_cons, List.append_assoc, List.singleton_append]

end
end Timeline
end UsageBilling
