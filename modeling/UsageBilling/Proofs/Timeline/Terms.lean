import UsageBilling.Proofs.Interval.SameInstants
import UsageBilling.Timeline

/-! One timeline under different terms. Of the terms, the walk along a timeline and the buckets of its intervals
depend on the target, the start of the raw usage and the time zone. Where other terms agree with them on these,
the walk takes the same steps and meets the same errors, and its intervals have the same events, buckets and
dates (`Timeline.intervals_under`). -/

namespace UsageBilling

variable {α β γ δ : Type}

/-! ### Loops that commute with a change of their states -/

theorem mapM_intertwined {f : α → Except Error β} {f' : γ → Except Error δ} {φ : α → γ} {ψ : β → δ}
    (h : ∀ x, f' (φ x) = ψ <$> f x) (xs : List α) : (xs.map φ).mapM f' = List.map ψ <$> xs.mapM f := by
  induction xs with
  | nil => rfl
  | cons x xs ih =>
      rw [List.map_cons, List.mapM_cons, List.mapM_cons, h, ih]
      simp only [map_bind, bind_map_left, map_pure, List.map_cons]

theorem foldlM_intertwined {f : β → α → Except Error β} {f' : γ → α → Except Error γ} {φ : β → γ}
    (h : ∀ b x, f' (φ b) x = φ <$> f b x) (xs : List α) (b : β) : xs.foldlM f' (φ b) = φ <$> xs.foldlM f b := by
  induction xs generalizing b with
  | nil => rfl
  | cons x xs ih => simp only [List.foldlM_cons, h, map_bind, bind_map_left, ih]

/-! ### Terms that agree on dates -/

/-- A change of terms that keeps all that the dates of buckets depend on. -/
structure Terms.KeepsDates (g : Terms → Terms) : Prop where
  target (t : Terms) : (g t).target = t.target
  rawUsageStart (t : Terms) : (g t).rawUsageStart = t.rawUsageStart
  zone (t : Terms) : (g t).zone = t.zone

def Interval.under (g : Terms → Terms) (i : Interval) : Interval := { i with terms := g i.terms }

namespace Interval

variable {g : Terms → Terms}

theorem create_under (g : Terms → Terms) (usage : Usage) (terms : Terms) :
    create usage (g terms) = under g <$> create usage terms := by
  rw [create, create]
  split <;> rfl

theorem add_under (g : Terms → Terms) (i : Interval) (place : Nat) (event : BillingEvent) :
    (i.under g).add place event = under g <$> i.add place event := by
  rw [add, add, map_bind]
  apply bind_congr
  intro _
  dsimp only [under]
  cases i.events.head? with
  | none => rfl
  | some first =>
      dsimp only
      split <;> rfl

theorem tag_under (g : Terms → Terms) (i : Interval) (place : Nat) (unitTypes : List String) :
    (i.under g).tag place unitTypes = under g <$> i.tag place unitTypes := by
  rw [tag, tag, map_bind]
  apply bind_congr
  intro _
  dsimp only [under]
  cases i.events.getLast? with
  | none => rfl
  | some last =>
      dsimp only
      split <;> rfl

@[simp] theorem usage_under (g : Terms → Terms) (i : Interval) : (i.under g).usage = i.usage := rfl

@[simp] theorem events_under (g : Terms → Terms) (i : Interval) : (i.under g).events = i.events := rfl

@[simp] theorem buckets_under (g : Terms → Terms) (i : Interval) : (i.under g).buckets = i.buckets := rfl

@[simp] theorem isBuilt_under (g : Terms → Terms) (i : Interval) : (i.under g).isBuilt = i.isBuilt := rfl

/-- Building that succeeds, as one sequence of computations. -/
theorem built_eq (i : Interval) (closed : Bool) : i.built closed = (do
    i.checkNotBuilt
    if i.events = [] then throw (.interval (.noEvents i.usage.name))
    let buckets ← (i.frozen closed).computeBuckets
    let nextNotification ← ({ i.frozen closed with buckets } : Interval).computeNotification
    return { i.frozen closed with buckets, nextNotification }) := by
  rw [built, build, checkNotBuilt]
  cases i.isBuilt with
  | true => rfl
  | false =>
      simp only [Bool.false_eq_true, if_false]
      by_cases hne : i.events = []
      · rw [if_pos hne, if_pos hne]
        rfl
      · rw [if_neg hne, if_neg hne]
        dsimp only [frozen]
        cases ({ i with stage := if closed then .closed else .active } : Interval).computeBuckets with
        | error e => rfl
        | ok buckets =>
            rw [ok_bind, ok_bind]
            dsimp only
            cases ({ i with stage := if closed then .closed else .active, buckets } : Interval).computeNotification with
            | error e => rfl
            | ok next => rfl

section Dates

variable (hg : Terms.KeepsDates g) (i : Interval)
include hg

theorem sameDates_under : (i.under g).SameDates i where
  period := rfl
  target := hg.target i.terms
  rawUsageStart := hg.rawUsageStart i.terms
  zone := hg.zone i.terms
  closed := rfl
  events := List.forall₂_same.mpr fun x _ => .refl x.event

theorem built_under (closed : Bool) : (i.under g).built closed = under g <$> i.built closed := by
  rw [built_eq, built_eq, map_bind]
  apply bind_congr
  intro _
  rw [events_under]
  by_cases hne : i.events = []
  · simp only [hne, if_true]
    rfl
  · simp only [hne, if_false]
    have hbuckets : ((i.under g).frozen closed).computeBuckets = (i.frozen closed).computeBuckets :=
      (sameDates_under hg (i.frozen closed)).computeBuckets_eq
    rw [hbuckets]
    simp only [map_bind]
    apply bind_congr
    intro buckets
    have hnext : ({ (i.under g).frozen closed with buckets } : Interval).computeNotification =
        ({ i.frozen closed with buckets } : Interval).computeNotification :=
      (sameDates_under hg { i.frozen closed with buckets }).computeNotification_eq
    rw [hnext]
    rfl

end Dates

end Interval

/-! ### The arena -/

def OpenPlace.map (f : α → β) (p : OpenPlace α) : OpenPlace β := ⟨p.key, p.identity, f p.value⟩

namespace Arena

def map (f : α → β) (a : Arena α) : Arena β := ⟨a.places.map (·.map f), a.built.map f⟩

theorem find?_map (f : α → β) (a : Arena α) (identity : UsageKey.Identity) :
    (a.map f).find? identity = (a.find? identity).map f := by
  rw [find?, find?, map, List.find?_map, Option.map_map, Option.map_map]
  rfl

theorem insert_map (f : α → β) (a : Arena α) (key : UsageKey) (value : α) :
    (a.map f).insert key (f value) = map f <$> a.insert key value := by
  rw [insert, insert, map_bind]
  apply bind_congr
  intro identity
  rw [find?_map, Option.isSome_map]
  split
  · rfl
  · rw [map_pure]
    simp only [map, List.map_append]
    rfl

theorem take_map (f : α → β) (a : Arena α) (key : UsageKey) :
    (a.map f).take key = (fun r => (f r.1, r.2.map f)) <$> a.take key := by
  have hempty : (a.map f).places.isEmpty = a.places.isEmpty := List.isEmpty_map
  rw [take, take, map_bind, hempty]
  apply bind_congr
  intro identity
  rw [find?_map]
  cases a.find? identity with
  | none => rfl
  | some value =>
      simp only [map, Option.map_some, List.filter_map]
      rfl

/-- Changing what is open at some places, each with its own computation. -/
theorem mapM_places (φ : α → β) (f : α → Except Error α) (f' : β → Except Error β) (h : ∀ v, f' (φ v) = φ <$> f v)
    (serves : UsageKey.Identity → Prop) [DecidablePred serves] (places : List (OpenPlace α)) :
    ((places.map (·.map φ)).mapM fun p =>
        if serves p.identity then do return { p with value := ← f' p.value } else return p) =
      List.map (·.map φ) <$> places.mapM fun p =>
        if serves p.identity then do return { p with value := ← f p.value } else return p := by
  apply mapM_intertwined
  intro p
  by_cases hp : serves p.identity
  · rw [if_pos hp, if_pos (show serves (p.map φ).identity from hp), OpenPlace.map, h]
    simp only [map_bind, bind_map_left]
    rfl
  · rw [if_neg hp, if_neg (show ¬ serves (p.map φ).identity from hp)]
    rfl

theorem addBuilt_map (f : α → β) (a : Arena α) (value : α) :
    (a.map f).addBuilt (f value) = (a.addBuilt value).map f := by
  rw [addBuilt, addBuilt, map, map, List.map_append, List.map_singleton]

end Arena

/-! ### The walk -/

namespace Timeline

open UsageBilling.Interval

variable {g : Terms → Terms}

theorem extend_under (g : Terms → Terms) (terms : Terms) (place : Nat) (event : BillingEvent) (arena : Arena Interval)
    (r : Reference) : extend (g terms) place event (arena.map (under g)) r =
      Arena.map (under g) <$> extend terms place event arena r := by
  rw [extend, extend, Arena.find?_map]
  cases arena.find? r.identity with
  | some i =>
      have hplaces := Arena.mapM_places (under g) (·.add place event) (·.add place event)
        (fun j => add_under g j place event) (fun k => k = r.identity) arena.places
      dsimp only [Option.map_some, Arena.map] at hplaces ⊢
      rw [hplaces]
      simp only [map_bind, bind_map_left]
      rfl
  | none =>
      dsimp only [Option.map_none]
      rw [create_under]
      simp only [map_bind, bind_map_left, add_under, Arena.insert_map]

theorem unitTypesAt_under (g : Terms → Terms) (arena : Arena Interval) (refs : List Reference) :
    unitTypesAt (arena.map (under g)) refs = unitTypesAt arena refs := by
  simp only [unitTypesAt, Arena.find?_map, Option.map_map]
  rfl

theorem tagReferenced_under (g : Terms → Terms) (place : Nat) (unitTypes : List String) (arena : Arena Interval)
    (refs : List Reference) : tagReferenced place unitTypes (arena.map (under g)) refs =
      Arena.map (under g) <$> tagReferenced place unitTypes arena refs := by
  have hplaces := Arena.mapM_places (under g) (·.tag place unitTypes) (·.tag place unitTypes)
    (fun j => tag_under g j place unitTypes) (fun k => refs.any (·.identity = k) = true) arena.places
  rw [tagReferenced, tagReferenced, Arena.map]
  dsimp only at hplaces ⊢
  rw [hplaces]
  simp only [map_bind, bind_map_left]
  rfl

def Walk.under (g : Terms → Terms) (w : Walk) : Walk := ⟨w.arena.map (Interval.under g), w.unitTypes⟩

section

variable (hg : Terms.KeepsDates g)
include hg

theorem close_under (place : Nat) (event : BillingEvent) (unitTypes : List String) (arena : Arena Interval)
    (p : OpenPlace Interval) : close place event unitTypes (arena.map (under g)) (p.map (under g)) =
      Arena.map (under g) <$> close place event unitTypes arena p := by
  rw [close, close, OpenPlace.map, Arena.take_map]
  simp only [map_bind, bind_map_left, add_under, tag_under, built_under hg, map_pure, Arena.addBuilt_map]

theorem step_under (terms : Terms) (w : Walk) (place : Nat) (event : BillingEvent) :
    step (g terms) (w.under g) place event = Walk.under g <$> step terms w place event := by
  rw [step, step, map_bind]
  apply bind_congr
  intro refs
  rw [Walk.under, foldlM_intertwined (extend_under g terms place event)]
  simp only [map_bind, bind_map_left]
  apply bind_congr
  intro extended
  rw [unitTypesAt_under, tagReferenced_under]
  simp only [bind_map_left]
  apply bind_congr
  intro tagged
  have hdropped : (tagged.map (under g)).places.filter (fun p => !refs.any (·.identity = p.identity)) =
      (tagged.places.filter fun p => !refs.any (·.identity = p.identity)).map (·.map (under g)) := by
    rw [Arena.map, List.filter_map]
    rfl
  rw [hdropped, List.foldlM_map, foldlM_intertwined (close_under hg place event _), bind_map_left]
  rfl

theorem walk_under (terms : Terms) (w : Walk) (place : Nat) (events : List BillingEvent) :
    walk (g terms) (w.under g) place events = Walk.under g <$> walk terms w place events := by
  induction events generalizing w place with
  | nil => rfl
  | cons event rest ih => simp only [walk, step_under hg, map_bind, bind_map_left, ih]

theorem finish_under (arena : Arena Interval) :
    finish (arena.map (under g)) = List.map (under g) <$> finish arena := by
  rw [finish, finish, Arena.map, mapM_intertwined (f := fun p => p.value.built false) (ψ := under g)]
  · simp only [map_bind, bind_map_left, map_pure, List.map_append]
  · intro p
    exact built_under hg p.value false

/-- Under terms that agree on the dates, a timeline has the same intervals under those terms, or the same error. -/
theorem intervals_under (terms : Terms) (events : List BillingEvent) :
    intervals (g terms) events = List.map (under g) <$> intervals terms events := by
  have hwalk := walk_under hg terms ⟨.empty, []⟩ 0 events
  rw [intervals, intervals, map_bind]
  rw [show Walk.under g ⟨.empty, []⟩ = ⟨.empty, []⟩ from rfl] at hwalk
  rw [hwalk, bind_map_left]
  apply bind_congr
  intro w
  exact finish_under hg w.arena

end

end Timeline
end UsageBilling
