import UsageBilling.Interval.Reconciliation
import UsageBilling.Proofs.Interval.Targets
import UsageBilling.Proofs.Timeline.Places

/-! The life of an interval, whatever is called on it. A call returns and does what it is for, or it is refused
before anything is written, or it is a build whose computations fail (`does_call`). Such a build is the one
failing call that leaves a trace: the interval counts as built from then on. What is built never changes
again (`after_of_isBuilt`). -/

namespace UsageBilling.Interval

/-! ### Calls -/

/-- A call of an operation of an interval. -/
inductive Call where
  | add (place : Nat) (event : BillingEvent)
  | tag (place : Nat) (unitTypes : List String)
  | build (closed : Bool)
  | reconcile (existing : List InvoiceItem)

/-- The interval that comes in the place of this one. It stays when there is none because of an error. -/
def replacedBy (i : Interval) : Except Error Interval → Interval × Except Error Unit
  | .ok j => (j, .ok ())
  | .error e => (i, .error e)

def call (i : Interval) : Call → Interval × Except Error Unit
  | .add place event => i.replacedBy (i.add place event)
  | .tag place unitTypes => i.replacedBy (i.tag place unitTypes)
  | .build closed => i.build closed
  | .reconcile existing => (i, (i.reconcile existing).result.map fun _ => ())

def after (i : Interval) (calls : List Call) : Interval := calls.foldl (fun i c => (i.call c).1) i

/-- The intervals that come of a new one by calls, those that fail included. -/
inductive Reachable : Interval → Prop
  | created {usage : Usage} {terms : Terms} {i : Interval} (h : create usage terms = .ok i) : Reachable i
  | called {i : Interval} (h : Reachable i) (c : Call) : Reachable (i.call c).1

/-! ### What a call does -/

/-- Why an interval refuses a call. -/
inductive Refuses (i : Interval) : Call → Error → Prop
  | addBuilt {place : Nat} {event : BillingEvent} (hbuilt : i.isBuilt = true) :
      Refuses i (.add place event) (.interval (.alreadyBuilt i.usage.name))
  | foreign {place : Nat} {event : BillingEvent} {first : IntervalEvent} (hfirst : i.events.head? = some first)
      (hother : event.subscriptionId ≠ first.event.subscriptionId) : Refuses i (.add place event)
        (.interval (.foreignSubscription event.subscriptionId first.event.subscriptionId))
  | tagBuilt {place : Nat} {unitTypes : List String} (hbuilt : i.isBuilt = true) :
      Refuses i (.tag place unitTypes) (.interval (.alreadyBuilt i.usage.name))
  | notLatest {place : Nat} {unitTypes : List String}
      (hlast : ∀ last, i.events.getLast? = some last → last.place ≠ place) :
      Refuses i (.tag place unitTypes) (.interval .notLatestEvent)
  | buildBuilt {closed : Bool} (hbuilt : i.isBuilt = true) :
      Refuses i (.build closed) (.interval (.alreadyBuilt i.usage.name))
  | noEvents {closed : Bool} (hnone : i.events = []) : Refuses i (.build closed) (.interval (.noEvents i.usage.name))
  | notReconciled {existing : List InvoiceItem} {e : Error} (hfails : (i.reconcile existing).result = .error e) :
      Refuses i (.reconcile existing) e

/-- The interval with the unit types in force at its latest event. -/
def tagLast (i : Interval) (last : IntervalEvent) (unitTypes : List String) : Interval :=
  { i with events := i.events.dropLast ++ [{ last with seen := some (UnitTypes.ofList unitTypes) }] }

/-- What a call does: the interval that it leaves, and whether it returns. -/
inductive Does (i : Interval) : Call → Interval → Except Error Unit → Prop
  | refused {c : Call} {e : Error} (h : Refuses i c e) : Does i c i (.error e)
  | added {place : Nat} {event : BillingEvent} (hopen : i.isBuilt = false) :
      Does i (.add place event) (i.push ⟨place, event, none⟩) (.ok ())
  | tagged {place : Nat} {unitTypes : List String} {last : IntervalEvent} (hopen : i.isBuilt = false)
      (hlast : i.events.getLast? = some last) : Does i (.tag place unitTypes) (i.tagLast last unitTypes) (.ok ())
  | built {closed : Bool} {j : Interval} (h : i.built closed = .ok j) : Does i (.build closed) j (.ok ())
  | unscheduled {closed : Bool} {e : Error} (hopen : i.isBuilt = false) (hne : i.events ≠ [])
      (hbuckets : (i.frozen closed).computeBuckets = .error e) : Does i (.build closed) (i.frozen closed) (.error e)
  | undated {closed : Bool} {buckets : List Bucket} {e : Error} (hopen : i.isBuilt = false) (hne : i.events ≠ [])
      (hbuckets : (i.frozen closed).computeBuckets = .ok buckets)
      (hnext : ({ i.frozen closed with buckets } : Interval).computeNotification = .error e) :
      Does i (.build closed) { i.frozen closed with buckets } (.error e)
  | reconciled {existing : List InvoiceItem} : Does i (.reconcile existing) i (.ok ())

variable {i j : Interval}

theorem does_add (i : Interval) (place : Nat) (event : BillingEvent) :
    Does i (.add place event) (i.call (.add place event)).1 (i.call (.add place event)).2 := by
  rw [call, add, checkNotBuilt]
  cases hbuilt : i.isBuilt with
  | true => exact .refused (.addBuilt hbuilt)
  | false =>
      cases hfirst : i.events.head? with
      | none => exact .added hbuilt
      | some first =>
          by_cases hother : event.subscriptionId = first.event.subscriptionId
          · simp only [hother, ne_eq, not_true_eq_false, if_false]
            exact .added hbuilt
          · simp only [hother, ne_eq, not_false_eq_true, if_true]
            exact .refused (.foreign hfirst hother)

theorem does_tag (i : Interval) (place : Nat) (unitTypes : List String) :
    Does i (.tag place unitTypes) (i.call (.tag place unitTypes)).1 (i.call (.tag place unitTypes)).2 := by
  rw [call, tag, checkNotBuilt]
  cases hbuilt : i.isBuilt with
  | true => exact .refused (.tagBuilt hbuilt)
  | false =>
      cases hlast : i.events.getLast? with
      | none => exact .refused (.notLatest (by simp [hlast]))
      | some last =>
          by_cases hplace : last.place = place
          · subst hplace
            simp only [ne_eq, not_true_eq_false, if_false]
            exact .tagged hbuilt hlast
          · simp only [hplace, ne_eq, not_false_eq_true, if_true]
            exact .refused (.notLatest (by simpa [hlast] using hplace))

theorem does_build (i : Interval) (closed : Bool) :
    Does i (.build closed) (i.call (.build closed)).1 (i.call (.build closed)).2 := by
  rw [call, build]
  cases hbuilt : i.isBuilt with
  | true => exact .refused (.buildBuilt hbuilt)
  | false =>
      have hstage : i.stage = .accumulating := by simpa [isBuilt] using hbuilt
      by_cases hne : i.events = []
      · rw [if_neg Bool.false_ne_true, if_pos hne]
        exact .refused (.noEvents hne)
      · rw [if_neg Bool.false_ne_true, if_neg hne, ← frozen]
        dsimp only
        cases hbuckets : (i.frozen closed).computeBuckets with
        | error e => exact .unscheduled hbuilt hne hbuckets
        | ok buckets =>
            dsimp only
            cases hnext : ({ i.frozen closed with buckets } : Interval).computeNotification with
            | error e => exact .undated hbuilt hne hbuckets hnext
            | ok next =>
                exact .built (built_eq_ok.mpr ⟨hstage, hne, buckets, next, hbuckets, hnext, rfl⟩)

/-- A call does one of these things. -/
theorem does_call (i : Interval) (c : Call) : Does i c (i.call c).1 (i.call c).2 := by
  cases c with
  | add place event => exact does_add i place event
  | tag place unitTypes => exact does_tag i place unitTypes
  | build closed => exact does_build i closed
  | reconcile existing =>
      rw [call]
      cases hresult : (i.reconcile existing).result with
      | error e => exact .refused (.notReconciled hresult)
      | ok r => exact .reconciled

/-! ### What is built -/

variable {c : Call} {r : Except Error Unit} {closed : Bool}

theorem isBuilt_frozen (i : Interval) (closed : Bool) : (i.frozen closed).isBuilt = true := by
  cases closed <;> rfl

theorem isClosed_frozen (i : Interval) (closed : Bool) : (i.frozen closed).isClosed = closed := by
  cases closed <;> rfl

theorem Does.eq_of_isBuilt (h : Does i c j r) (hbuilt : i.isBuilt = true) : j = i := by
  cases h with
  | refused _ => rfl
  | added hopen => exact absurd hbuilt (by simp [hopen])
  | tagged hopen _ => exact absurd hbuilt (by simp [hopen])
  | built h => exact absurd hbuilt (by simp [isBuilt, (built_eq_ok.mp h).1])
  | unscheduled hopen _ _ => exact absurd hbuilt (by simp [hopen])
  | undated hopen _ _ _ => exact absurd hbuilt (by simp [hopen])
  | reconciled => rfl

theorem after_of_isBuilt (hbuilt : i.isBuilt = true) (calls : List Call) : i.after calls = i := by
  induction calls with
  | nil => rfl
  | cons c calls ih =>
      rw [after, List.foldl_cons, (does_call i c).eq_of_isBuilt hbuilt]
      exact ih

theorem Does.isBuilt_of_ok (h : Does i (.build closed) j (.ok ())) : j.isBuilt = true := by
  cases h with
  | built h =>
      obtain ⟨-, -, buckets, next, -, -, rfl⟩ := built_eq_ok.mp h
      exact isBuilt_frozen i closed

/-! ### What calls lead to -/

/-- An interval that calls lead to. It has no buckets and no date while it accumulates. After that it has those
that are computed from its events, unless that failed in the build: then there is no date, and there are no
buckets either where it is they that could not be computed. -/
inductive Standing (i : Interval) : Prop
  | accumulating (hopen : i.isBuilt = false) (hbuckets : i.buckets = []) (hnext : i.nextNotification = none)
  | built (hbuilt : i.isBuilt = true) (hbuckets : i.computeBuckets = .ok i.buckets)
      (hnext : i.computeNotification = .ok i.nextNotification)
  | unscheduled {e : Error} (hbuilt : i.isBuilt = true) (hfails : i.computeBuckets = .error e)
      (hbuckets : i.buckets = []) (hnext : i.nextNotification = none)
  | undated {e : Error} (hbuilt : i.isBuilt = true) (hbuckets : i.computeBuckets = .ok i.buckets)
      (hfails : i.computeNotification = .error e) (hnext : i.nextNotification = none)

theorem Standing.fresh (h : Standing i) (hopen : i.isBuilt = false) : i.buckets = [] ∧ i.nextNotification = none := by
  cases h with
  | accumulating _ hbuckets hnext => exact ⟨hbuckets, hnext⟩
  | built hbuilt _ _ => exact absurd hbuilt (by simp [hopen])
  | unscheduled hbuilt _ _ _ => exact absurd hbuilt (by simp [hopen])
  | undated hbuilt _ _ _ => exact absurd hbuilt (by simp [hopen])

/-- A call keeps an interval in such a state. -/
theorem Does.standing (h : Does i c j r) (hi : Standing i) : Standing j := by
  cases h with
  | refused _ => exact hi
  | added hopen => exact .accumulating hopen (hi.fresh hopen).1 (hi.fresh hopen).2
  | tagged hopen _ => exact .accumulating hopen (hi.fresh hopen).1 (hi.fresh hopen).2
  | @built closed _ h =>
      obtain ⟨-, -, buckets, next, hbuckets, hnext, rfl⟩ := built_eq_ok.mp h
      exact .built (isBuilt_frozen i closed) hbuckets hnext
  | @unscheduled closed _ hopen _ hbuckets =>
      exact .unscheduled (isBuilt_frozen i closed) hbuckets (hi.fresh hopen).1 (hi.fresh hopen).2
  | @undated closed _ _ hopen _ hbuckets hnext =>
      exact .undated (isBuilt_frozen i closed) hbuckets hnext (hi.fresh hopen).2
  | reconciled => exact hi

theorem Reachable.standing (h : Reachable i) : Standing i := by
  induction h with
  | created h =>
      rw [create] at h
      split at h
      · obtain rfl := Except.ok.inj h
        exact .accumulating rfl rfl rfl
      · cases h
  | @called i _ c ih => exact (does_call i c).standing ih

theorem isOk_seenUnitTypes (i : Interval) (n : Int) :
    (i.seenUnitTypes n).isOk = true ↔ -(i.events.length : Int) ≤ n ∧ n < i.events.length := by
  rw [seenUnitTypes]
  generalize hm : (if n < 0 then n + (i.events.length : Int) else n) = m
  by_cases hneg : m < 0
  · simp only [hneg, if_true]
    refine iff_of_false Bool.false_ne_true ?_
    split at hm <;> omega
  · simp only [hneg, if_false]
    cases hslot : i.events[m.toNat]? with
    | none =>
        rw [List.getElem?_eq_none_iff] at hslot
        refine iff_of_false Bool.false_ne_true ?_
        split at hm <;> omega
    | some e =>
        obtain ⟨hlt, -⟩ := List.getElem?_eq_some_iff.mp hslot
        refine iff_of_true rfl ?_
        split at hm <;> omega

/-! ### Calls that fail -/

/-- What a build leaves that fails in its computations. The interval counts as built: it has its events, no
date, and buckets when it is the date that could not be computed. -/
structure LeftFrozen (i : Interval) (closed : Bool) (e : Error) (j : Interval) : Prop where
  wasOpen : i.isBuilt = false
  hadEvents : i.events ≠ []
  isBuilt : j.isBuilt = true
  isClosed : j.isClosed = closed
  events : j.events = i.events
  buckets : j.computeBuckets = .error e ∧ j.buckets = [] ∨
    j.computeBuckets = .ok j.buckets ∧ j.computeNotification = .error e
  nextNotification : j.nextNotification = none

theorem Does.eq_or_leftFrozen {e : Error} (h : Does i c j (.error e)) (hi : Standing i) :
    j = i ∨ ∃ closed, c = .build closed ∧ LeftFrozen i closed e j := by
  cases h with
  | refused _ => exact Or.inl rfl
  | @unscheduled closed _ hopen hne hbuckets =>
      exact Or.inr ⟨closed, rfl, hopen, hne, isBuilt_frozen i closed, isClosed_frozen i closed, rfl,
        Or.inl ⟨hbuckets, (hi.fresh hopen).1⟩, (hi.fresh hopen).2⟩
  | @undated closed _ _ hopen hne hbuckets hnext =>
      exact Or.inr ⟨closed, rfl, hopen, hne, isBuilt_frozen i closed, isClosed_frozen i closed, rfl,
        Or.inr ⟨hbuckets, hnext⟩, (hi.fresh hopen).2⟩

/-- In an interval that any calls have led to, unit types are recorded for each event, a call that fails changes
nothing unless it is a build that fails in its computations, and no calls change what is built. -/
theorem failing_call_leaves_interval (hi : Reachable i) :
    (∀ n : Int, (i.seenUnitTypes n).isOk = true ↔ -(i.events.length : Int) ≤ n ∧ n < i.events.length) ∧
    (∀ c e, (i.call c).2 = .error e →
      (i.call c).1 = i ∨ ∃ closed, c = .build closed ∧ LeftFrozen i closed e (i.call c).1) ∧
    (i.isBuilt = true → ∀ calls, i.after calls = i) ∧
    ∀ closed, (i.call (.build closed)).2 = .ok () →
      ∀ calls, (i.call (.build closed)).1.after calls = (i.call (.build closed)).1 := by
  refine ⟨isOk_seenUnitTypes i, fun c e hfails => ?_, fun hbuilt calls => after_of_isBuilt hbuilt calls,
    fun closed hreturns calls => ?_⟩
  · have hdoes := does_call i c
    rw [hfails] at hdoes
    exact hdoes.eq_or_leftFrozen hi.standing
  · have hdoes := does_call i (.build closed)
    rw [hreturns] at hdoes
    exact after_of_isBuilt hdoes.isBuilt_of_ok calls

namespace Sample

def created : Interval := { twoMonths with events := [] }

/-- The start on the first of January 2022, with a day of the month on which no cycle can begin. -/
def dayless : BillingEvent := { event firstDay [calls] with cycleDay := 0 }

def started : Interval := created.push ⟨0, dayless, none⟩

theorem reachable_started : Reachable started := by
  have hcreated : create calls twoMonths.terms = .ok created := by decide +kernel
  have hcalled : (created.call (.add 0 dayless)).1 = started := by decide +kernel
  rw [← hcalled]
  exact .called (.created hcreated) _

end Sample

theorem failing_call_leaves_interval_dayless :
    Reachable Sample.started ∧ (Sample.started.call (.build false)).2 = .error (.cycleDayOutOfRange 0) ∧
      LeftFrozen Sample.started false (.cycleDayOutOfRange 0) (Sample.started.call (.build false)).1 := by
  have hfails : (Sample.started.call (.build false)).2 = .error (.cycleDayOutOfRange 0) := by decide +kernel
  have hchanges : (Sample.started.call (.build false)).1 ≠ Sample.started := by decide +kernel
  obtain ⟨-, hcalls, -⟩ := failing_call_leaves_interval Sample.reachable_started
  rcases hcalls _ _ hfails with hsame | ⟨closed, hclosed, hleft⟩
  · exact absurd hsame hchanges
  · cases hclosed
    exact ⟨Sample.reachable_started, hfails, hleft⟩

/-- A build that cannot place the cycle leaves an interval that counts as built and has no buckets. -/
theorem failed_build_counts_as_built : ¬ ∀ i : Interval, Reachable i → ∀ c e, (i.call c).2 = .error e →
    (i.call c).1.isBuilt = i.isBuilt ∧ (i.call c).1.isClosed = i.isClosed ∧
      (i.call c).1.buckets = i.buckets ∧ (i.call c).1.nextNotification = i.nextNotification := by
  intro h
  obtain ⟨hbuilt, -⟩ := h Sample.started Sample.reachable_started (.build false) (.cycleDayOutOfRange 0)
    (by decide +kernel)
  revert hbuilt
  decide +kernel

end UsageBilling.Interval
