import Mathlib.Data.List.Basic
import Mathlib.Data.List.Induction
import Mathlib.Data.List.Pairwise
import UsageBilling.BillingEvent

/-! When a usage key is active along a timeline. A key is active at an event that stands in its
catalog version and carries a section of its name that is billed in arrear; an activity run is a
maximal block of consecutive events at which a key is active (`IsMaximalRun`). The runs of a growing
timeline are followed event by event (`RunProgress.next`), and what is followed are the maximal runs:
those that have ended, in the order of their ends and then of their starts, and those going on, in
the order of their starts (`mem_ended_iff`, `mem_ongoing_iff`, `activityRuns_sorted`). -/

namespace UsageBilling

/-! ### Sections of one event -/

def Usage.firstOfEachName : List Usage → List Usage
  | [] => []
  | u :: us => u :: (firstOfEachName us).filter (·.name ≠ u.name)

theorem Usage.mem_firstOfEachName {us : List Usage} {u : Usage} :
    u ∈ firstOfEachName us ↔ us.find? (·.name = u.name) = some u := by
  induction us with
  | nil => simp [firstOfEachName]
  | cons w ws ih =>
      rw [firstOfEachName, List.mem_cons, List.mem_filter, ih]
      by_cases hw : w.name = u.name
      · rw [List.find?_cons_of_pos (by simpa using hw), Option.some.injEq, eq_comm]
        simp [hw]
      · rw [List.find?_cons_of_neg (by simpa using hw)]
        constructor
        · rintro (rfl | ⟨h, -⟩)
          · exact absurd rfl hw
          · exact h
        · exact fun h => Or.inr ⟨h, by simpa using Ne.symm hw⟩

theorem Usage.firstOfEachName_pairwise (us : List Usage) :
    (firstOfEachName us).Pairwise (·.name ≠ ·.name) := by
  induction us with
  | nil => exact .nil
  | cons w ws ih =>
      refine List.pairwise_cons.mpr ⟨fun u hu => ?_, ih.filter _⟩
      exact Ne.symm (by simpa using (List.mem_filter.mp hu).2)

namespace BillingEvent

/-- Whether a section is billed in arrear under a name. -/
def bears (name : String) (u : Usage) : Bool := u.billingMode = .inArrear && u.name = name

/-- The section of a name: the first one of that name that is billed in arrear. -/
def sectionOf (e : BillingEvent) (name : String) : Option Usage := e.usages.find? (bears name)

/-- Where the section of a name stands among the sections of an event. -/
def positionOf (e : BillingEvent) (name : String) : Nat := e.usages.findIdx (bears name)

/-- The sections billed in arrear, the first one of each name. -/
def sections (e : BillingEvent) : List Usage :=
  Usage.firstOfEachName (e.usages.filter (·.billingMode = .inArrear))

/-- What the keys of a section in the catalog version of the event have in common. -/
def identityOf (e : BillingEvent) (u : Usage) : UsageKey.Identity := ⟨u.name, e.catalogVersion.utc⟩

/-- A key is active at an event that stands in its catalog version and carries a section of its name
that is billed in arrear. -/
structure Activates (e : BillingEvent) (k : UsageKey.Identity) : Prop where
  version : e.catalogVersion.utc = k.utc
  carried : ∃ u ∈ e.usages, u.billingMode = .inArrear ∧ u.name = k.usageName

instance (e : BillingEvent) (k : UsageKey.Identity) : Decidable (e.Activates k) :=
  decidable_of_iff (e.catalogVersion.utc = k.utc ∧
      ∃ u ∈ e.usages, u.billingMode = .inArrear ∧ u.name = k.usageName)
    ⟨fun h => ⟨h.1, h.2⟩, fun h => ⟨h.1, h.2⟩⟩

theorem mem_sections {e : BillingEvent} {u : Usage} : u ∈ e.sections ↔ e.sectionOf u.name = some u := by
  rw [sections, Usage.mem_firstOfEachName, List.find?_filter, sectionOf,
    show bears u.name = fun v => decide (decide (v.billingMode = .inArrear) ∧ decide (v.name = u.name)) by
      funext v
      simp [bears]]

theorem sectionOf_name {e : BillingEvent} {name : String} {u : Usage} (h : e.sectionOf name = some u) :
    u.name = name := by
  have hu := List.find?_some h
  simp only [bears, Bool.and_eq_true, decide_eq_true_eq] at hu
  exact hu.2

theorem sections_inArrear {e : BillingEvent} {u : Usage} (h : u ∈ e.sections) : u.billingMode = .inArrear := by
  have hu := List.find?_some (mem_sections.mp h)
  simp only [bears, Bool.and_eq_true, decide_eq_true_eq] at hu
  exact hu.1

theorem sectionOf_isSome {e : BillingEvent} {name : String} :
    (e.sectionOf name).isSome ↔ ∃ u ∈ e.usages, u.billingMode = .inArrear ∧ u.name = name := by
  simp [sectionOf, bears, List.find?_isSome]

theorem activates_iff {e : BillingEvent} {k : UsageKey.Identity} :
    e.Activates k ↔ ∃ u ∈ e.sections, e.identityOf u = k := by
  constructor
  · rintro ⟨hv, hc⟩
    obtain ⟨u, hu⟩ := Option.isSome_iff_exists.mp (sectionOf_isSome.mpr hc)
    have hname := sectionOf_name hu
    refine ⟨u, mem_sections.mpr (by rw [hname, hu]), ?_⟩
    rw [identityOf, hname, hv]
  · rintro ⟨u, hu, rfl⟩
    refine ⟨rfl, sectionOf_isSome.mp ?_⟩
    rw [identityOf, mem_sections.mp hu, Option.isSome_some]

theorem sections_pairwise (e : BillingEvent) : e.sections.Pairwise (·.name ≠ ·.name) :=
  Usage.firstOfEachName_pairwise _

theorem identityOf_nodup (e : BillingEvent) : (e.sections.map e.identityOf).Nodup := by
  refine List.pairwise_map.mpr (e.sections_pairwise.imp fun hne h => hne ?_)
  exact congrArg UsageKey.Identity.usageName h

/-- The first sections of the names of a list stand in the order of the list. -/
theorem firstOfEachName_sorted (us : List Usage) :
    (Usage.firstOfEachName (us.filter (·.billingMode = .inArrear))).Pairwise
      fun u v => us.findIdx (bears u.name) < us.findIdx (bears v.name) := by
  induction us with
  | nil => exact .nil
  | cons w ws ih =>
      have hskip (name : String) (h : bears name w = false) :
          (w :: ws).findIdx (bears name) = ws.findIdx (bears name) + 1 := by
        rw [List.findIdx_cons, h]
        rfl
      by_cases hmode : w.billingMode = .inArrear
      · rw [List.filter_cons_of_pos (by simpa using hmode), Usage.firstOfEachName]
        have hother (u : Usage) (h : u.name ≠ w.name) : bears u.name w = false := by
          simp [bears, Ne.symm h]
        refine List.pairwise_cons.mpr ⟨fun u hu => ?_, ?_⟩
        · have hne : u.name ≠ w.name := by simpa using (List.mem_filter.mp hu).2
          rw [hskip _ (hother u hne), List.findIdx_cons]
          simp [bears, hmode]
        · refine List.Pairwise.imp_of_mem (fun hu hv h => ?_) (ih.filter _)
          have hne (x : Usage) (hx : x ∈ (Usage.firstOfEachName (ws.filter (·.billingMode = .inArrear))).filter
              (·.name ≠ w.name)) : x.name ≠ w.name := by simpa using (List.mem_filter.mp hx).2
          rw [hskip _ (hother _ (hne _ hu)), hskip _ (hother _ (hne _ hv))]
          exact Nat.succ_lt_succ h
      · rw [List.filter_cons_of_neg (by simpa using hmode)]
        refine ih.imp fun {u v} h => ?_
        rw [hskip _ (by simp [bears, hmode]), hskip _ (by simp [bears, hmode])]
        exact Nat.succ_lt_succ h

theorem sections_sorted (e : BillingEvent) :
    e.sections.Pairwise fun u v => e.positionOf u.name < e.positionOf v.name :=
  firstOfEachName_sorted e.usages

end BillingEvent

/-! ### Activity runs -/

/-- A run of activity: a section in a catalog version, and the first and last of the consecutive
places of the timeline at which its key is active. -/
structure ActivityRun where
  usage : Usage
  version : Instant
  first : Nat
  last : Nat
  deriving DecidableEq

namespace ActivityRun

def key (ρ : ActivityRun) : UsageKey := ⟨ρ.usage.name, ρ.version⟩

def identity (ρ : ActivityRun) : UsageKey.Identity := ⟨ρ.usage.name, ρ.version.utc⟩

end ActivityRun

/-- Whether a key is active at a place of a timeline. -/
def ActiveAt (events : List BillingEvent) (k : UsageKey.Identity) (m : Nat) : Prop :=
  ∃ e, events[m]? = some e ∧ e.Activates k

/-- A run is maximal when its key is active all along it and neither just before nor just after it. Its
section is the one its first event carries. -/
structure IsMaximalRun (events : List BillingEvent) (ρ : ActivityRun) : Prop where
  opened : ∃ e, events[ρ.first]? = some e ∧ e.catalogVersion = ρ.version ∧
    e.sectionOf ρ.usage.name = some ρ.usage
  first_le_last : ρ.first ≤ ρ.last
  active : ∀ m, ρ.first ≤ m → m ≤ ρ.last → ActiveAt events ρ.identity m
  not_active_before : ∀ m, m + 1 = ρ.first → ¬ ActiveAt events ρ.identity m
  not_active_after : ¬ ActiveAt events ρ.identity (ρ.last + 1)

/-- The order of starts: by the first place, and at one place by the sections of the event there. -/
def StartsBefore (events : List BillingEvent) (ρ σ : ActivityRun) : Prop :=
  ρ.first < σ.first ∨ ρ.first = σ.first ∧
    ∀ e, events[ρ.first]? = some e → e.positionOf ρ.usage.name < e.positionOf σ.usage.name

/-- The order of ends: by the last place, and at one place by the starts. -/
def EndsBefore (events : List BillingEvent) (ρ σ : ActivityRun) : Prop :=
  ρ.last < σ.last ∨ ρ.last = σ.last ∧ StartsBefore events ρ σ

section

variable {events : List BillingEvent} {e : BillingEvent} {k : UsageKey.Identity} {ρ : ActivityRun}

theorem ActiveAt.lt_length {m : Nat} (h : ActiveAt events k m) : m < events.length := by
  obtain ⟨e, he, -⟩ := h
  exact (List.getElem?_eq_some_iff.mp he).1

theorem activeAt_append {m : Nat} (more : List BillingEvent) (h : m < events.length) :
    ActiveAt (events ++ more) k m ↔ ActiveAt events k m := by
  rw [ActiveAt, List.getElem?_append_left h, ActiveAt]

theorem activeAt_length : ActiveAt (events ++ [e]) k events.length ↔ e.Activates k := by
  simp [ActiveAt]

theorem IsMaximalRun.last_lt (h : IsMaximalRun events ρ) : ρ.last < events.length :=
  (h.active ρ.last h.first_le_last (Nat.le_refl _)).lt_length

theorem IsMaximalRun.first_lt (h : IsMaximalRun events ρ) : ρ.first < events.length :=
  Nat.lt_of_le_of_lt h.first_le_last h.last_lt

/-- Events at which the key of a run stays as it was after the end of the run leave it maximal. -/
theorem isMaximalRun_append {more : List BillingEvent} (hlast : ρ.last < events.length)
    (hafter : ActiveAt (events ++ more) ρ.identity (ρ.last + 1) ↔ ActiveAt events ρ.identity (ρ.last + 1)) :
    IsMaximalRun (events ++ more) ρ ↔ IsMaximalRun events ρ := by
  constructor
  · intro h
    have hfirst := h.first_le_last
    refine ⟨?_, hfirst, fun m hm hm' => ?_, fun m hm => ?_, ?_⟩
    · simpa only [List.getElem?_append_left (show ρ.first < events.length by omega)] using h.opened
    · exact (activeAt_append more (by omega)).mp (h.active m hm hm')
    · exact fun ha => h.not_active_before m hm ((activeAt_append more (by omega)).mpr ha)
    · exact fun ha => h.not_active_after (hafter.mpr ha)
  · intro h
    have hfirst := h.first_le_last
    refine ⟨?_, hfirst, fun m hm hm' => ?_, fun m hm => ?_, ?_⟩
    · simpa only [List.getElem?_append_left (show ρ.first < events.length by omega)] using h.opened
    · exact (activeAt_append more (by omega)).mpr (h.active m hm hm')
    · exact fun ha => h.not_active_before m hm ((activeAt_append more (by omega)).mp ha)
    · exact fun ha => h.not_active_after (hafter.mp ha)

theorem StartsBefore.append {σ : ActivityRun} (more : List BillingEvent) (hρ : ρ.first < events.length)
    (h : StartsBefore events ρ σ) : StartsBefore (events ++ more) ρ σ := by
  rw [StartsBefore, List.getElem?_append_left hρ]
  exact h

theorem EndsBefore.append {σ : ActivityRun} (more : List BillingEvent) (hρ : ρ.first < events.length)
    (h : EndsBefore events ρ σ) : EndsBefore (events ++ more) ρ σ :=
  h.imp_right fun ⟨heq, hs⟩ => ⟨heq, hs.append more hρ⟩

end

/-! ### Runs of a growing timeline -/

/-- The runs known after some events: those that have ended and those that are going on. -/
structure RunProgress where
  ended : List ActivityRun
  ongoing : List ActivityRun

/-- What a further event does: it ends the runs whose keys it does not activate, prolongs the others
and starts runs for the sections that have none. -/
def RunProgress.next (s : RunProgress) (place : Nat) (e : BillingEvent) : RunProgress where
  ended := s.ended ++ s.ongoing.filter fun ρ => ¬ e.Activates ρ.identity
  ongoing :=
    (s.ongoing.filter fun ρ => e.Activates ρ.identity).map (fun ρ => { ρ with last := place }) ++
    (e.sections.filter fun u => ∀ ρ ∈ s.ongoing, ρ.identity ≠ e.identityOf u).map fun u =>
      ⟨u, e.catalogVersion, place, place⟩

/-- The runs after the events of a timeline. -/
def runProgress (events : List BillingEvent) : RunProgress :=
  events.zipIdx.foldl (fun s (e, place) => s.next place e) ⟨[], []⟩

/-- The runs of a timeline: first those that have ended, then those going on. -/
def activityRuns (events : List BillingEvent) : List ActivityRun :=
  (runProgress events).ended ++ (runProgress events).ongoing

theorem runProgress_append_singleton (events : List BillingEvent) (e : BillingEvent) :
    runProgress (events ++ [e]) = (runProgress events).next events.length e := by
  simp [runProgress, List.zipIdx_append]

/-- The keys of the runs going on are those active at the last event. -/
theorem exists_mem_ongoing_iff (events : List BillingEvent) (e : BillingEvent) (k : UsageKey.Identity) :
    (∃ ρ ∈ (runProgress (events ++ [e])).ongoing, ρ.identity = k) ↔ e.Activates k := by
  rw [runProgress_append_singleton, RunProgress.next]
  constructor
  · rintro ⟨ρ, hρ, rfl⟩
    rcases List.mem_append.mp hρ with hρ | hρ
    · obtain ⟨σ, hσ, rfl⟩ := List.mem_map.mp hρ
      exact of_decide_eq_true (List.mem_filter.mp hσ).2
    · obtain ⟨u, hu, rfl⟩ := List.mem_map.mp hρ
      exact BillingEvent.activates_iff.mpr ⟨u, (List.mem_filter.mp hu).1, rfl⟩
  · intro ha
    obtain ⟨u, hu, hk⟩ := BillingEvent.activates_iff.mp ha
    by_cases hold : ∃ ρ ∈ (runProgress events).ongoing, ρ.identity = k
    · obtain ⟨ρ, hρ, rfl⟩ := hold
      refine ⟨{ ρ with last := events.length }, List.mem_append_left _ ?_, rfl⟩
      exact List.mem_map.mpr ⟨ρ, List.mem_filter.mpr ⟨hρ, decide_eq_true ha⟩, rfl⟩
    · refine ⟨⟨u, e.catalogVersion, events.length, events.length⟩, List.mem_append_right _ ?_, hk⟩
      refine List.mem_map.mpr ⟨u, List.mem_filter.mpr ⟨hu, decide_eq_true fun ρ hρ h => ?_⟩, rfl⟩
      exact hold ⟨ρ, hρ, h.trans hk⟩

theorem exists_mem_ongoing {events : List BillingEvent} {m : Nat} (hm : m + 1 = events.length)
    (k : UsageKey.Identity) : (∃ ρ ∈ (runProgress events).ongoing, ρ.identity = k) ↔ ActiveAt events k m := by
  rcases List.eq_nil_or_concat events with rfl | ⟨before, e, rfl⟩
  · simp at hm
  · rw [List.concat_eq_append] at hm ⊢
    obtain rfl : m = before.length := by simpa using hm
    rw [exists_mem_ongoing_iff, activeAt_length]

/-! ### What is followed are the maximal runs -/

section

variable {events : List BillingEvent} {e : BillingEvent} {ρ : ActivityRun}

/-- A run that went on before an event is maximal after it just when the event ends it. -/
theorem isMaximalRun_ended_by (hlast : ρ.last + 1 = events.length) :
    IsMaximalRun (events ++ [e]) ρ ↔ IsMaximalRun events ρ ∧ ¬ e.Activates ρ.identity := by
  have hnone : ¬ ActiveAt events ρ.identity (ρ.last + 1) := fun h => by
    have := h.lt_length
    omega
  have hnext : ActiveAt (events ++ [e]) ρ.identity (ρ.last + 1) ↔ e.Activates ρ.identity := by
    rw [hlast]
    exact activeAt_length
  constructor
  · intro h
    have hna : ¬ e.Activates ρ.identity := fun ha => h.not_active_after (hnext.mpr ha)
    refine ⟨(isMaximalRun_append (by omega) ?_).mp h, hna⟩
    exact iff_of_false h.not_active_after hnone
  · rintro ⟨h, hna⟩
    refine (isMaximalRun_append (by omega) ?_).mpr h
    exact iff_of_false (fun ha => hna (hnext.mp ha)) hnone

/-- A run that went on before an event is prolonged by it when its key stays active. -/
theorem isMaximalRun_prolonged (h : IsMaximalRun events ρ) (hlast : ρ.last + 1 = events.length)
    (ha : e.Activates ρ.identity) : IsMaximalRun (events ++ [e]) { ρ with last := events.length } := by
  have hfirst := h.first_le_last
  refine ⟨?_, by dsimp only; omega, fun m hm hm' => ?_, fun m hm => ?_, ?_⟩
  · simpa only [List.getElem?_append_left h.first_lt] using h.opened
  · dsimp only at hm hm'
    rcases Nat.lt_or_eq_of_le hm' with hlt | rfl
    · exact (activeAt_append [e] hlt).mpr (h.active m hm (by omega))
    · exact activeAt_length.mpr ha
  · dsimp only at hm
    exact fun hact => h.not_active_before m hm ((activeAt_append [e] (by omega)).mp hact)
  · intro hact
    have := hact.lt_length
    simp at this

/-- A run that reaches a further event and began before it went on up to that event. -/
theorem isMaximalRun_shortened (h : IsMaximalRun (events ++ [e]) ρ) (hlast : ρ.last = events.length)
    (hfirst : ρ.first < events.length) :
    IsMaximalRun events { ρ with last := events.length - 1 } := by
  refine ⟨?_, by dsimp only; omega, fun m hm hm' => ?_, fun m hm => ?_, ?_⟩
  · simpa only [List.getElem?_append_left hfirst] using h.opened
  · dsimp only at hm hm'
    exact (activeAt_append [e] (by omega)).mp (h.active m hm (by omega))
  · dsimp only at hm
    exact fun hact => h.not_active_before m hm ((activeAt_append [e] (by omega)).mpr hact)
  · intro hact
    have := hact.lt_length
    dsimp only at this
    omega

/-- A section without a run that goes on starts one. -/
theorem isMaximalRun_started {u : Usage} (hu : u ∈ e.sections)
    (hnew : ∀ ρ ∈ (runProgress events).ongoing, ρ.identity ≠ e.identityOf u) :
    IsMaximalRun (events ++ [e]) ⟨u, e.catalogVersion, events.length, events.length⟩ := by
  have hact : e.Activates (e.identityOf u) := BillingEvent.activates_iff.mpr ⟨u, hu, rfl⟩
  refine ⟨⟨e, by simp, rfl, BillingEvent.mem_sections.mp hu⟩, Nat.le_refl _, fun m hm hm' => ?_,
    fun m hm ha => ?_, ?_⟩
  · obtain rfl := Nat.le_antisymm hm' hm
    exact activeAt_length.mpr hact
  · dsimp only at hm
    obtain ⟨ρ, hρ, hk⟩ := (exists_mem_ongoing hm _).mpr ((activeAt_append [e] (by omega)).mp ha)
    exact hnew ρ hρ hk
  · intro ha
    have := ha.lt_length
    simp at this

/-- A run at the last event only is one of a section of the event. -/
theorem IsMaximalRun.eq_started (h : IsMaximalRun (events ++ [e]) ρ) (hfirst : ρ.first = events.length)
    (hlast : ρ.last = events.length) : ρ.usage ∈ e.sections ∧ ρ.identity = e.identityOf ρ.usage ∧
      ρ = ⟨ρ.usage, e.catalogVersion, events.length, events.length⟩ := by
  obtain ⟨e', he', hversion, hsection⟩ := h.opened
  rw [hfirst, List.getElem?_concat_length, Option.some.injEq] at he'
  subst he'
  refine ⟨BillingEvent.mem_sections.mpr hsection, ?_, ?_⟩
  · rw [ActivityRun.identity, ← hversion, BillingEvent.identityOf]
  · obtain ⟨usage, version, first, last⟩ := ρ
    dsimp only at hlast hfirst hversion
    rw [hversion, hlast, hfirst]

end

/-- The runs followed along a timeline are its maximal runs; those that go on reach its last event. -/
theorem mem_runProgress_iff (events : List BillingEvent) : ∀ ρ : ActivityRun,
    (ρ ∈ (runProgress events).ended ↔ IsMaximalRun events ρ ∧ ρ.last + 1 < events.length) ∧
    (ρ ∈ (runProgress events).ongoing ↔ IsMaximalRun events ρ ∧ ρ.last + 1 = events.length) := by
  induction events using List.reverseRecOn with
  | nil =>
      intro ρ
      have hnone : ¬ IsMaximalRun [] ρ := fun h => absurd h.last_lt (Nat.not_lt_zero _)
      simp [runProgress, hnone]
  | append_singleton events e ih =>
      intro ρ
      rw [runProgress_append_singleton, RunProgress.next, List.length_append, List.length_singleton]
      dsimp only
      constructor
      · rw [List.mem_append, List.mem_filter, (ih ρ).1, (ih ρ).2, decide_eq_true_iff]
        constructor
        · rintro (⟨h, hlt⟩ | ⟨⟨h, heq⟩, hna⟩)
          · exact ⟨(isMaximalRun_append (by omega) (activeAt_append [e] hlt)).mpr h, by omega⟩
          · exact ⟨(isMaximalRun_ended_by heq).mpr ⟨h, hna⟩, by omega⟩
        · rintro ⟨h, hlt⟩
          rcases Nat.lt_or_ge (ρ.last + 1) events.length with hlt' | hge
          · exact Or.inl ⟨(isMaximalRun_append (by omega) (activeAt_append [e] hlt')).mp h, hlt'⟩
          · have heq : ρ.last + 1 = events.length := by omega
            obtain ⟨h', hna⟩ := (isMaximalRun_ended_by heq).mp h
            exact Or.inr ⟨⟨h', heq⟩, hna⟩
      · rw [List.mem_append, List.mem_map, List.mem_map]
        constructor
        · rintro (⟨σ, hσ, rfl⟩ | ⟨u, hu, rfl⟩)
          · obtain ⟨hσ, ha⟩ := List.mem_filter.mp hσ
            obtain ⟨h, heq⟩ := (ih σ).2.mp hσ
            exact ⟨isMaximalRun_prolonged h heq (of_decide_eq_true ha), rfl⟩
          · obtain ⟨hu, hnew⟩ := List.mem_filter.mp hu
            exact ⟨isMaximalRun_started hu (of_decide_eq_true hnew), rfl⟩
        · rintro ⟨h, hlast⟩
          have hlast : ρ.last = events.length := by omega
          have ha : e.Activates ρ.identity :=
            activeAt_length.mp (hlast ▸ h.active ρ.last h.first_le_last (Nat.le_refl _))
          rcases Nat.lt_or_ge ρ.first events.length with hlt | hge
          · refine Or.inl ⟨{ ρ with last := events.length - 1 }, List.mem_filter.mpr ⟨?_, decide_eq_true ha⟩, ?_⟩
            · exact (ih _).2.mpr ⟨isMaximalRun_shortened h hlast hlt, by dsimp only; omega⟩
            · rw [← hlast]
          · have hfirst : ρ.first = events.length := Nat.le_antisymm (hlast ▸ h.first_le_last) hge
            obtain ⟨hsection, hid, hρ⟩ := h.eq_started hfirst hlast
            refine Or.inr ⟨ρ.usage, List.mem_filter.mpr ⟨hsection, decide_eq_true fun σ hσ hk => ?_⟩, hρ.symm⟩
            obtain ⟨hσ, heq⟩ := (ih σ).2.mp hσ
            refine h.not_active_before σ.last (by omega) ?_
            rw [activeAt_append _ (by omega), hid, ← hk]
            exact hσ.active σ.last hσ.first_le_last (Nat.le_refl _)

theorem mem_activityRuns_iff {events : List BillingEvent} {ρ : ActivityRun} :
    ρ ∈ activityRuns events ↔ IsMaximalRun events ρ := by
  rw [activityRuns, List.mem_append, (mem_runProgress_iff events ρ).1, (mem_runProgress_iff events ρ).2]
  constructor
  · rintro (⟨h, -⟩ | ⟨h, -⟩) <;> exact h
  · intro h
    rcases Nat.lt_or_ge (ρ.last + 1) events.length with hlt | hge
    · exact Or.inl ⟨h, hlt⟩
    · exact Or.inr ⟨h, Nat.le_antisymm h.last_lt hge⟩

theorem ongoing_sorted (events : List BillingEvent) :
    (runProgress events).ongoing.Pairwise (StartsBefore events) := by
  induction events using List.reverseRecOn with
  | nil => exact .nil
  | append_singleton events e ih =>
      rw [runProgress_append_singleton, RunProgress.next]
      dsimp only
      have hfirst (ρ : ActivityRun) (hρ : ρ ∈ (runProgress events).ongoing) : ρ.first < events.length :=
        ((mem_runProgress_iff events ρ).2.mp hρ).1.first_lt
      refine List.pairwise_append.mpr ⟨?_, ?_, ?_⟩
      · refine List.pairwise_map.mpr ((ih.filter _).imp_of_mem fun {ρ σ} hρ _ h => ?_)
        exact h.append [e] (hfirst ρ (List.mem_filter.mp hρ).1)
      · refine List.pairwise_map.mpr ((e.sections_sorted.filter _).imp fun {u v} h => Or.inr ⟨rfl, ?_⟩)
        intro e' he'
        rw [List.getElem?_concat_length, Option.some.injEq] at he'
        exact he' ▸ h
      · intro _ hρ _ hσ
        obtain ⟨ρ, hmem, rfl⟩ := List.mem_map.mp hρ
        obtain ⟨u, -, rfl⟩ := List.mem_map.mp hσ
        exact Or.inl (hfirst ρ (List.mem_filter.mp hmem).1)

theorem ended_sorted (events : List BillingEvent) :
    (runProgress events).ended.Pairwise (EndsBefore events) := by
  induction events using List.reverseRecOn with
  | nil => exact .nil
  | append_singleton events e ih =>
      rw [runProgress_append_singleton, RunProgress.next]
      dsimp only
      have hended (ρ : ActivityRun) (hρ : ρ ∈ (runProgress events).ended) :=
        (mem_runProgress_iff events ρ).1.mp hρ
      have hongoing (ρ : ActivityRun) (hρ : ρ ∈ (runProgress events).ongoing.filter fun ρ =>
          ¬ e.Activates ρ.identity) := (mem_runProgress_iff events ρ).2.mp (List.mem_filter.mp hρ).1
      refine List.pairwise_append.mpr ⟨?_, ?_, fun ρ hρ σ hσ => Or.inl ?_⟩
      · exact ih.imp_of_mem fun {ρ σ} hρ _ h => h.append [e] (hended ρ hρ).1.first_lt
      · refine List.Pairwise.imp_of_mem (fun {ρ σ} hρ hσ h => Or.inr ⟨?_, ?_⟩)
          ((ongoing_sorted events).filter _)
        · have h₁ := (hongoing ρ hρ).2
          have h₂ := (hongoing σ hσ).2
          omega
        · exact h.append [e] (hongoing ρ hρ).1.first_lt
      · have h₁ := (hended ρ hρ).2
        have h₂ := (hongoing σ hσ).2
        omega

/-- The runs of a timeline stand in the order of their ends, and with one end in that of their
starts. -/
theorem activityRuns_sorted (events : List BillingEvent) :
    (activityRuns events).Pairwise (EndsBefore events) := by
  refine List.pairwise_append.mpr ⟨ended_sorted events, ?_, fun ρ hρ σ hσ => Or.inl ?_⟩
  · refine (ongoing_sorted events).imp_of_mem fun {ρ σ} hρ hσ h => Or.inr ⟨?_, h⟩
    have h₁ := ((mem_runProgress_iff events ρ).2.mp hρ).2
    have h₂ := ((mem_runProgress_iff events σ).2.mp hσ).2
    omega
  · have h₁ := ((mem_runProgress_iff events ρ).1.mp hρ).2
    have h₂ := ((mem_runProgress_iff events σ).2.mp hσ).2
    omega

theorem IsMaximalRun.not_startsBefore_self {events : List BillingEvent} {ρ : ActivityRun}
    (h : IsMaximalRun events ρ) : ¬ StartsBefore events ρ ρ := by
  obtain ⟨e, he, -⟩ := h.opened
  rintro (hlt | ⟨-, hposition⟩)
  · exact Nat.lt_irrefl _ hlt
  · exact Nat.lt_irrefl _ (hposition e he)

theorem IsMaximalRun.not_endsBefore_self {events : List BillingEvent} {ρ : ActivityRun}
    (h : IsMaximalRun events ρ) : ¬ EndsBefore events ρ ρ := by
  rintro (hlt | ⟨-, hstarts⟩)
  · exact Nat.lt_irrefl _ hlt
  · exact h.not_startsBefore_self hstarts

theorem activityRuns_nodup (events : List BillingEvent) : (activityRuns events).Nodup := by
  refine List.Pairwise.imp_of_mem (fun {ρ σ} hρ _ h heq => ?_) (activityRuns_sorted events)
  subst heq
  exact (mem_activityRuns_iff.mp hρ).not_endsBefore_self h

/-- Two maximal runs of one usage name have no place in common. -/
theorem IsMaximalRun.eq_or_disjoint {events : List BillingEvent} {ρ σ : ActivityRun}
    (hρ : IsMaximalRun events ρ) (hσ : IsMaximalRun events σ) (hname : ρ.usage.name = σ.usage.name) :
    ρ = σ ∨ ρ.last < σ.first ∨ σ.last < ρ.first := by
  by_cases hdisjoint : ρ.last < σ.first ∨ σ.last < ρ.first
  · exact Or.inr hdisjoint
  refine Or.inl ?_
  have hfρ := hρ.first_le_last
  have hfσ := hσ.first_le_last
  have hid : ρ.identity = σ.identity := by
    obtain ⟨e, he, hρa⟩ := hρ.active (max ρ.first σ.first) (by omega) (by omega)
    obtain ⟨e', he', hσa⟩ := hσ.active (max ρ.first σ.first) (by omega) (by omega)
    obtain rfl : e = e' := Option.some.inj (he.symm.trans he')
    have hutc : ρ.version.utc = σ.version.utc := hρa.version.symm.trans hσa.version
    rw [ActivityRun.identity, ActivityRun.identity, hname, hutc]
  have hfirst : ρ.first = σ.first := by
    rcases Nat.lt_trichotomy ρ.first σ.first with hlt | heq | hgt
    · exact absurd (hid ▸ hρ.active (σ.first - 1) (by omega) (by omega))
        (hσ.not_active_before (σ.first - 1) (by omega))
    · exact heq
    · exact absurd (hid ▸ hσ.active (ρ.first - 1) (by omega) (by omega))
        (hρ.not_active_before (ρ.first - 1) (by omega))
  have hlast : ρ.last = σ.last := by
    rcases Nat.lt_trichotomy ρ.last σ.last with hlt | heq | hgt
    · exact absurd (hid ▸ hσ.active (ρ.last + 1) (by omega) (by omega)) hρ.not_active_after
    · exact heq
    · exact absurd (hid ▸ hρ.active (σ.last + 1) (by omega) (by omega)) hσ.not_active_after
  obtain ⟨e, he, hversion, hsection⟩ := hρ.opened
  obtain ⟨e', he', hversion', hsection'⟩ := hσ.opened
  rw [← hfirst, he, Option.some.injEq] at he'
  subst he'
  rw [← hname, hsection, Option.some.injEq] at hsection'
  obtain ⟨usage, version, first, last⟩ := ρ
  obtain ⟨usage', version', first', last'⟩ := σ
  dsimp only at hfirst hlast hversion hversion' hsection'
  rw [hsection', ← hversion, hversion', hfirst, hlast]

/-- Of two maximal runs of one usage name, the one that ends first is over when the other starts. -/
theorem EndsBefore.last_lt_first {events : List BillingEvent} {ρ σ : ActivityRun} (h : EndsBefore events ρ σ)
    (hρ : IsMaximalRun events ρ) (hσ : IsMaximalRun events σ) (hname : ρ.usage.name = σ.usage.name) :
    ρ.last < σ.first := by
  rcases hρ.eq_or_disjoint hσ hname with rfl | hlt | hlt
  · exact absurd h hρ.not_endsBefore_self
  · exact hlt
  · have hfirst := hρ.first_le_last
    have hfirst' := hσ.first_le_last
    rcases h with h | ⟨h, -⟩ <;> omega

end UsageBilling
