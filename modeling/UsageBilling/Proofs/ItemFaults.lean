import UsageBilling.Proofs.Faults
import UsageBilling.Timeline

/-! Which computations reject an item that was invoiced before. Only a bucket does, when it looks at the items
invoiced for it: their dates and their unit types (`sparesItems_reconcileBucket`). Neither the walk along a timeline
(`sparesItems_intervals`) nor the pricing of what a bucket counts rejects an item, whatever else may fail there. -/

namespace UsageBilling

variable {α β : Type}

/-- A computation does not fail on an item that was invoiced before. -/
def SparesItems (x : Except Error α) : Prop := ∀ fault, x ≠ .error (.invoice fault)

theorem sparesItems_iff {x : Except Error α} :
    SparesItems x ↔ FailsOnly (fun e => ∀ fault, e ≠ .invoice fault) x := by
  constructor
  · rintro h e rfl fault rfl
    exact h fault rfl
  · intro h fault heq
    exact h _ heq fault rfl

/-- Faults of pricing are not about an item. -/
theorem hasPricingFaults_sparing : HasPricingFaults fun e => ∀ fault, e ≠ .invoice fault :=
  ⟨fun _ _ => nofun, fun _ _ => nofun⟩

/-! ### Steps -/

@[simp] theorem sparesItems_ok (a : α) : SparesItems (.ok a) := fun _ => nofun

@[simp] theorem sparesItems_pure (a : α) : SparesItems (pure a) := fun _ => nofun

theorem sparesItems_error {e : Error} (h : ∀ fault, e ≠ .invoice fault) : SparesItems (.error e : Except Error α) :=
  fun fault heq => h fault (Except.error.inj heq)

@[simp] theorem sparesItems_liftM_decimal (x : Except Decimal.Fault α) :
    SparesItems (liftM x : Except Error α) := sparesItems_iff.mpr (hasPricingFaults_sparing.liftM x)

@[simp] theorem sparesItems_liftM_calendar (x : Except Calendar.Fault α) :
    SparesItems (liftM x : Except Error α) := by
  cases x <;> exact fun _ => nofun

theorem SparesItems.error {x : Except Error α} (hx : SparesItems x) {e : Error} (h : x = .error e) :
    SparesItems (.error e : Except Error β) :=
  sparesItems_error fun fault heq => hx fault (heq ▸ h)

theorem SparesItems.bind {x : Except Error α} {f : α → Except Error β} (hx : SparesItems x)
    (hf : ∀ a, x = .ok a → SparesItems (f a)) : SparesItems (x >>= f) :=
  sparesItems_iff.mpr ((sparesItems_iff.mp hx).bind fun a ha => sparesItems_iff.mp (hf a ha))

theorem sparesItems_mapM {f : α → Except Error β} {xs : List α} (h : ∀ x ∈ xs, SparesItems (f x)) :
    SparesItems (xs.mapM f) :=
  sparesItems_iff.mpr (failsOnly_mapM fun x hx => sparesItems_iff.mp (h x hx))

theorem sparesItems_foldlM {f : β → α → Except Error β} {xs : List α} (h : ∀ x ∈ xs, ∀ b, SparesItems (f b x)) (b : β) :
    SparesItems (xs.foldlM f b) := by
  induction xs generalizing b with
  | nil => exact sparesItems_pure b
  | cons x xs ih =>
      obtain ⟨hx, hxs⟩ := List.forall_mem_cons.mp h
      rw [List.foldlM_cons]
      exact (hx b).bind fun b' _ => ih hxs b'

/-! ### Dates -/

namespace BillingCycle

theorem sparesItems_date (start : Date) (cycleDay : Int) (period : BillingPeriod) (k : Nat) :
    SparesItems (date start cycleDay period k) := by
  have hfirst : SparesItems (first start cycleDay period) := by
    unfold first
    split
    · simp
    split
    · exact sparesItems_error nofun
    split
    · exact sparesItems_error nofun
    refine SparesItems.bind (by simp) fun candidate _ => ?_
    split
    · simp
    split <;> simp
  refine hfirst.bind fun firstDate _ => ?_
  unfold after
  split
  · simp
  split
  · simp
  · exact sparesItems_error nofun

variable {boundary : Nat → Except Error Date}

theorem sparesItems_takeWhile (h : ∀ k, SparesItems (boundary k)) (keep : Date → Bool) (steps k : Nat)
    (found : List Date) : SparesItems (takeWhile boundary keep steps k found) := by
  induction steps generalizing k found with
  | zero => exact sparesItems_ok _
  | succ steps ih =>
      refine (h k).bind fun d _ => ?_
      split
      · exact ih (k + 1) (d :: found)
      · exact sparesItems_pure _

theorem sparesItems_firstThat (h : ∀ k, SparesItems (boundary k)) (found : Date → Bool) (steps k : Nat) :
    SparesItems (firstThat boundary found steps k) := by
  induction steps generalizing k with
  | zero => exact sparesItems_error nofun
  | succ steps ih =>
      refine (h k).bind fun d _ => ?_
      split
      · exact sparesItems_pure d
      · exact ih (k + 1)

end BillingCycle

/-! ### Intervals -/

namespace Interval

variable (i : Interval)

theorem sparesItems_firstEvent : SparesItems i.firstEvent := by
  unfold firstEvent
  split
  · exact sparesItems_ok _
  · exact sparesItems_error nofun

theorem sparesItems_dateOf (e : BillingEvent) : SparesItems (i.dateOf e) := sparesItems_liftM_calendar _

theorem sparesItems_startDate : SparesItems i.startDate :=
  i.sparesItems_firstEvent.bind fun first _ => i.sparesItems_dateOf first

theorem sparesItems_endDate : SparesItems i.endDate := by
  unfold endDate
  split
  · split
    · exact (i.sparesItems_dateOf _).bind fun d _ => sparesItems_pure _
    · exact sparesItems_error nofun
  · exact sparesItems_ok _

theorem sparesItems_checkNotBuilt : SparesItems i.checkNotBuilt := by
  unfold checkNotBuilt
  split
  · exact sparesItems_error nofun
  · exact sparesItems_ok _

theorem sparesItems_create (usage : Usage) (terms : Terms) : SparesItems (create usage terms) := by
  unfold create
  split
  · exact sparesItems_ok _
  · exact sparesItems_error nofun

theorem sparesItems_add (place : Nat) (event : BillingEvent) : SparesItems (i.add place event) := by
  refine i.sparesItems_checkNotBuilt.bind fun _ _ => ?_
  split
  · split
    · refine SparesItems.bind ?_ fun _ _ => sparesItems_pure _
      exact sparesItems_error nofun
    · exact sparesItems_pure _
  · exact sparesItems_pure _

theorem sparesItems_tag (place : Nat) (unitTypes : List String) : SparesItems (i.tag place unitTypes) := by
  refine i.sparesItems_checkNotBuilt.bind fun _ _ => ?_
  split
  · split
    · refine SparesItems.bind ?_ fun _ _ => sparesItems_pure _
      exact sparesItems_error nofun
    · exact sparesItems_pure _
  · exact sparesItems_error nofun

theorem sparesItems_boundaries : SparesItems i.boundaries := by
  refine i.sparesItems_startDate.bind fun start _ => i.sparesItems_endDate.bind fun finish _ =>
    i.sparesItems_firstEvent.bind fun first _ => ?_
  split
  · exact sparesItems_pure _
  · refine SparesItems.bind ?_ fun cycle _ => sparesItems_pure _
    exact BillingCycle.sparesItems_takeWhile (BillingCycle.sparesItems_date _ _ _) _ _ _ _

theorem sparesItems_eventIndexAt (day : Date) : SparesItems (i.eventIndexAt day) := by
  unfold eventIndexAt
  apply sparesItems_foldlM
  intro p _ index
  exact (i.sparesItems_dateOf p.1.event).bind fun d _ => sparesItems_pure _

theorem sparesItems_computeBuckets : SparesItems i.computeBuckets := by
  refine i.sparesItems_boundaries.bind fun bs _ => (sparesItems_mapM fun p _ => ?_).bind fun _ _ => sparesItems_pure _
  dsimp only
  unfold bucketBetween
  split
  · exact sparesItems_pure _
  · exact (i.sparesItems_eventIndexAt _).bind fun _ _ => sparesItems_pure _

theorem sparesItems_computeNotification : SparesItems i.computeNotification := by
  have hafter : SparesItems (i.startDate >>= fun start => i.firstEvent >>= fun first =>
      BillingCycle.firstAfter start first.cycleDay i.usage.period i.terms.target) :=
    i.sparesItems_startDate.bind fun start _ => i.sparesItems_firstEvent.bind fun first _ =>
      BillingCycle.sparesItems_firstThat (BillingCycle.sparesItems_date _ _ _) _ _ _
  refine i.sparesItems_endDate.bind fun finish _ => ?_
  cases finish with
  | none => exact hafter.bind fun d _ => sparesItems_pure _
  | some f =>
      dsimp only
      split
      · exact sparesItems_pure _
      · exact hafter.bind fun d _ => sparesItems_pure _

theorem sparesItems_built (closed : Bool) : SparesItems (i.built closed) := by
  rw [built, build]
  by_cases hbuilt : i.isBuilt = true
  · rw [if_pos hbuilt]
    exact sparesItems_error nofun
  by_cases hevents : i.events = []
  · rw [if_neg hbuilt, if_pos hevents]
    exact sparesItems_error nofun
  rw [if_neg hbuilt, if_neg hevents]
  dsimp only
  split
  next => exact sparesItems_ok _
  next e h =>
    split at h
    next hbuckets =>
      obtain rfl := Except.error.inj (Prod.mk.inj h).2
      exact (sparesItems_computeBuckets _).error hbuckets
    next =>
      split at h
      next hnext =>
        obtain rfl := Except.error.inj (Prod.mk.inj h).2
        exact (sparesItems_computeNotification _).error hnext
      next => cases (Prod.mk.inj h).2

end Interval

/-! ### Timelines -/

section

variable {γ : Type}

theorem Arena.sparesItems_insert (a : Arena γ) (key : UsageKey) (value : γ) : SparesItems (a.insert key value) := by
  refine SparesItems.bind (sparesItems_liftM_calendar _) fun identity _ => ?_
  split
  · exact SparesItems.bind (sparesItems_error nofun) fun _ _ => sparesItems_pure _
  · exact sparesItems_pure _

theorem Arena.sparesItems_take (a : Arena γ) (key : UsageKey) : SparesItems (a.take key) := by
  refine SparesItems.bind ?_ fun identity _ => ?_
  · split
    · exact sparesItems_error nofun
    · exact sparesItems_liftM_calendar _
  · split
    · exact sparesItems_pure _
    · exact sparesItems_error nofun

end

namespace Timeline

theorem sparesItems_extend (terms : Terms) (place : Nat) (event : BillingEvent) (arena : Arena Interval)
    (r : Reference) : SparesItems (extend terms place event arena r) := by
  unfold extend
  split
  · refine (sparesItems_mapM fun p _ => ?_).bind fun _ _ => sparesItems_pure _
    split
    · exact (p.value.sparesItems_add place event).bind fun _ _ => sparesItems_pure _
    · exact sparesItems_pure _
  · exact (Interval.sparesItems_create _ _).bind fun i _ => (i.sparesItems_add place event).bind fun j _ =>
      arena.sparesItems_insert _ j

theorem sparesItems_tagReferenced (place : Nat) (unitTypes : List String) (arena : Arena Interval)
    (refs : List Reference) : SparesItems (tagReferenced place unitTypes arena refs) := by
  refine (sparesItems_mapM fun p _ => ?_).bind fun _ _ => sparesItems_pure _
  split
  · exact (p.value.sparesItems_tag place unitTypes).bind fun _ _ => sparesItems_pure _
  · exact sparesItems_pure _

theorem sparesItems_close (place : Nat) (event : BillingEvent) (unitTypes : List String) (arena : Arena Interval)
    (p : OpenPlace Interval) : SparesItems (close place event unitTypes arena p) :=
  (arena.sparesItems_take p.key).bind fun q _ => (q.1.sparesItems_add place event).bind fun i _ =>
    (i.sparesItems_tag place unitTypes).bind fun last _ => (last.sparesItems_built true).bind fun _ _ =>
      sparesItems_pure _

theorem sparesItems_step (terms : Terms) (w : Walk) (place : Nat) (event : BillingEvent) :
    SparesItems (step terms w place event) := by
  have hrefs : SparesItems (references event) := by
    unfold references
    apply sparesItems_foldlM
    intro usage _ found
    exact SparesItems.bind (sparesItems_liftM_calendar _) fun _ _ => sparesItems_pure _
  refine hrefs.bind fun refs _ => SparesItems.bind ?_ fun extended _ =>
    (sparesItems_tagReferenced place _ extended refs).bind fun tagged _ => SparesItems.bind ?_ fun _ _ =>
      sparesItems_pure _
  · exact sparesItems_foldlM (fun r _ arena => sparesItems_extend terms place event arena r) _
  · exact sparesItems_foldlM (fun p _ arena => sparesItems_close place event _ arena p) tagged

theorem sparesItems_walk (terms : Terms) (w : Walk) (place : Nat) (events : List BillingEvent) :
    SparesItems (walk terms w place events) := by
  induction events generalizing w place with
  | nil => exact sparesItems_ok w
  | cons event events ih => exact (sparesItems_step terms w place event).bind fun w' _ => ih w' (place + 1)

/-- Splitting a timeline into intervals rejects no item. -/
theorem sparesItems_intervals (terms : Terms) (events : List BillingEvent) : SparesItems (intervals terms events) := by
  refine (sparesItems_walk terms _ 0 events).bind fun w _ => ?_
  exact (sparesItems_mapM fun p _ => p.value.sparesItems_built false).bind fun _ _ => sparesItems_pure _

end Timeline

/-! ### Buckets -/

namespace Interval

variable {i : Interval} {b : Bucket} {subscriptionId : String} {items billed : List InvoiceItem}

theorem sparesItems_governingUnitTypes (i : Interval) (b : Bucket) : SparesItems (i.governingUnitTypes b) :=
  i.sparesItems_endDate.bind fun _ _ => sparesItems_pure _

/-- A bucket rejects no item if it coincides with the items that overlap it, and these have the unit types that
its usage section bills. -/
theorem sparesItems_reconcileBucket (h : i.billedFor b items = .ok billed)
    (htypes : i.usage.pricing = .consumable → i.checkUnitTypes billed = .ok ())
    (hnone : i.usage.pricing = .capacity → checkNoUnitTypes billed = .ok ()) :
    SparesItems (i.reconcileBucket subscriptionId items b).result := by
  rw [reconcileBucket_result, h, ok_bind]
  refine (i.sparesItems_governingUnitTypes b).bind fun types _ => ?_
  split
  · exact sparesItems_pure _
  refine SparesItems.bind (sparesItems_liftM_decimal _) fun rolled _ => ?_
  refine SparesItems.bind ?_ fun lines _ => sparesItems_pure _
  exact sparesItems_iff.mpr (failsOnly_bucketLines hasPricingFaults_sparing (fun _ _ => nofun) htypes hnone)

end Interval
end UsageBilling
