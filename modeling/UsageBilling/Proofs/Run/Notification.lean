import UsageBilling.Proofs.Interval.Targets
import UsageBilling.Proofs.Run.Reconciliation

/-! The notification dates of a run. Of several intervals of one usage name the last one that reports a date
sets it, and a date that is replaced is warned about (`addInterval_notification`). The date of each interval
is therefore no earlier than the date reported for its name, or a warning names an earlier date that gave way to
a later one (`covers_of_reconcile`). Before the reported date there is nothing to bill that was not there, unless
such a warning says so (`unbilled_until_notification`). -/

namespace UsageBilling

namespace Logged

variable {α β : Type} {x : Logged α} {f : α → Logged β} {e : LogEntry}

theorem mem_entries_bind (h : e ∈ x.entries) : e ∈ (x >>= f).entries := by
  cases hx : x.result with
  | ok a =>
      rw [bind_ok hx]
      exact List.mem_append_left _ h
  | error _ =>
      rw [bind_error hx]
      exact h

theorem mem_entries_bind_of_ok {a : α} (hx : x.result = .ok a) (h : e ∈ (f a).entries) : e ∈ (x >>= f).entries := by
  rw [bind_ok hx]
  exact List.mem_append_right _ h

end Logged

/-! ### Replacing dates -/

namespace Summary

variable {s s' : Summary InvoiceLine} {usageName : String} {r : Reconciliation InvoiceLine}

theorem lookup_filter_key {α : Type} (keep : String → Bool) (key : String) (l : List (String × α)) :
    (l.filter fun p => keep p.1).lookup key = if keep key then l.lookup key else none := by
  induction l with
  | nil => simp
  | cons p l ih =>
      obtain ⟨k, a⟩ := p
      rw [List.filter_cons]
      by_cases hk : key = k
      · subst hk
        cases hkeep : keep key <;> simp [hkeep, ih]
      · have hne : (key == k) = false := beq_eq_false_iff_ne.mpr hk
        cases hkeep : keep k <;> simp [List.lookup_cons, hne, ih]

theorem lookup_setDate (s : Summary InvoiceLine) (usageName other : String) (date : Date) :
    (s.setDate usageName date).notificationDates.lookup other =
      if other = usageName then some date else s.notificationDates.lookup other := by
  rw [setDate, List.lookup_append, lookup_filter_key (· ≠ usageName)]
  by_cases hother : other = usageName
  · subst hother
    simp
  · have hne : (other == usageName) = false := beq_eq_false_iff_ne.mpr hother
    simp [hother, List.lookup_cons, hne]

/-- A section keeps its date until another one is reported for it. -/
theorem lookup_addResult (h : (s.addResult usageName r).result = .ok s') (other : String) :
    s'.notificationDates.lookup other =
      if other = usageName then r.nextNotification.or (s.notificationDates.lookup other)
      else s.notificationDates.lookup other := by
  have hset (date : Date) : ({ s with items := s.items ++ r.items }.setDate usageName date).notificationDates.lookup
      other = if other = usageName then some date else s.notificationDates.lookup other :=
    lookup_setDate _ usageName other date
  rw [addResult] at h
  cases hnext : r.nextNotification with
  | none =>
      rw [hnext] at h
      obtain rfl := pure_eq_ok.mp h
      rw [Option.none_or, ite_self]
  | some date =>
      rw [hnext] at h
      dsimp only at h
      cases hprevious : s.notificationDates.lookup usageName with
      | none =>
          rw [hprevious] at h
          obtain rfl := pure_eq_ok.mp h
          exact hset date
      | some previous =>
          rw [hprevious] at h
          dsimp only at h
          split at h
          · obtain rfl := pure_eq_ok.mp h
            exact hset date
          · obtain rfl := pure_eq_ok.mp h
            exact hset date

/-- A date that gives way to another one is warned about. -/
theorem warning_mem_addResult {previous current : Date}
    (hprevious : s.notificationDates.lookup usageName = some previous)
    (hcurrent : r.nextNotification = some current) (hne : previous ≠ current) :
    replacementWarning usageName previous current ∈ (s.addResult usageName r).entries := by
  rw [addResult]
  dsimp only
  rw [hcurrent]
  dsimp only
  rw [hprevious]
  dsimp only
  rw [if_pos hne]
  exact Logged.mem_entries_bind List.mem_cons_self

end Summary

/-- What an interval reports is its own next notification. -/
theorem Interval.nextNotification_of_reconcile {i : Interval} {existing : List InvoiceItem}
    {r : Reconciliation InvoiceLine} (h : (i.reconcile existing).result = .ok r) :
    r.nextNotification = i.nextNotification := by
  rw [reconcile] at h
  cases hbuilt : i.isBuilt with
  | false =>
      rw [hbuilt] at h
      exact absurd h error_ne_ok
  | true =>
      simp only [hbuilt, Bool.not_true, Bool.false_eq_true, if_false, Logged.result_bind, Logged.result_pure,
        Logged.result_emit, ok_bind] at h
      obtain ⟨_, -, h⟩ := bind_eq_ok.mp h
      obtain ⟨_, -, h⟩ := bind_eq_ok.mp h
      obtain rfl := pure_eq_ok.mp h
      rfl

namespace Run

variable {existing : List InvoiceItem} {s s' : Summary InvoiceLine} {i : Interval}

/-- Adding an interval sets the date of its usage name, if it reports one, and warns about a date that this
replaces. -/
theorem addInterval_notification (h : (addInterval existing s i).result = .ok s') :
    (∀ other, s'.notificationDates.lookup other =
      if other = i.usage.name then i.nextNotification.or (s.notificationDates.lookup other)
      else s.notificationDates.lookup other) ∧
    ∀ previous current, s.notificationDates.lookup i.usage.name = some previous →
      i.nextNotification = some current → previous ≠ current →
      Summary.replacementWarning i.usage.name previous current ∈ (addInterval existing s i).entries := by
  rw [addInterval] at h ⊢
  rw [Logged.result_bind] at h
  obtain ⟨r, hr, h⟩ := bind_eq_ok.mp h
  rw [Logged.result_bind] at h
  obtain ⟨key, hkey, h⟩ := bind_eq_ok.mp h
  rw [Logged.result_bind] at h
  obtain ⟨u, hemit, h⟩ := bind_eq_ok.mp h
  rw [Logged.result_bind] at h
  obtain ⟨s₁, hs₁, h⟩ := bind_eq_ok.mp h
  obtain rfl := pure_eq_ok.mp h
  have hnext : r.nextNotification = i.nextNotification := Interval.nextNotification_of_reconcile hr
  refine ⟨fun other => ?_, fun previous current hprevious hcurrent hne => ?_⟩
  · rw [← hnext]
    exact Summary.lookup_addResult hs₁ other
  · have hwarned := Summary.warning_mem_addResult hprevious (hnext.trans hcurrent) hne
    apply Logged.mem_entries_bind_of_ok hr
    apply Logged.mem_entries_bind_of_ok hkey
    apply Logged.mem_entries_bind_of_ok hemit
    exact Logged.mem_entries_bind hwarned

/-! ### Dates that are kept or warned about -/

/-- A date is covered for a usage name: the date reported for the name is no later, or a warning tells of one that
was not later and gave way to a later one. -/
def Covers (s : Summary InvoiceLine) (entries : List LogEntry) (usageName : String) (date : Date) : Prop :=
  (∃ reported, s.notificationDates.lookup usageName = some reported ∧ reported ≤ date) ∨
    ∃ previous current, previous ≤ date ∧ previous < current ∧
      Summary.replacementWarning usageName previous current ∈ entries

variable {entries : List LogEntry} {usageName : String} {date : Date}

theorem Covers.addInterval (hcovers : Covers s entries usageName date)
    (h : (Run.addInterval existing s i).result = .ok s') :
    Covers s' (entries ++ (Run.addInterval existing s i).entries) usageName date := by
  obtain ⟨hlookup, hwarned⟩ := addInterval_notification h
  rcases hcovers with ⟨reported, hreported, hle⟩ | ⟨previous, current, hle, hlt, hmem⟩
  · by_cases hname : usageName = i.usage.name
    · subst hname
      cases hnext : i.nextNotification with
      | none =>
          refine Or.inl ⟨reported, ?_, hle⟩
          rw [hlookup, if_pos rfl, hnext, Option.none_or, hreported]
      | some current =>
          rcases Nat.lt_or_ge reported.ordinal current.ordinal with hlt | hge
          · have hne : reported ≠ current := fun heq => Nat.ne_of_lt hlt (congrArg Date.ordinal heq)
            exact Or.inr ⟨reported, current, hle, hlt,
              List.mem_append_right entries (hwarned reported current hreported hnext hne)⟩
          · refine Or.inl ⟨current, ?_, Nat.le_trans hge hle⟩
            rw [hlookup, if_pos rfl, hnext, Option.some_or]
    · refine Or.inl ⟨reported, ?_, hle⟩
      rw [hlookup, if_neg hname, hreported]
  · exact Or.inr ⟨previous, current, hle, hlt, List.mem_append_left _ hmem⟩

/-- The date that an added interval reports is covered. -/
theorem covers_addInterval (entries : List LogEntry) (h : (addInterval existing s i).result = .ok s')
    (hnext : i.nextNotification = some date) :
    Covers s' (entries ++ (addInterval existing s i).entries) i.usage.name date := by
  refine Or.inl ⟨date, ?_, Nat.le_refl _⟩
  rw [(addInterval_notification h).1, if_pos rfl, hnext, Option.some_or]

/-- After all intervals were added, the dates are covered that were before and those that they report. -/
theorem covers_foldlM {is : List Interval} (entries : List LogEntry)
    (h : (is.foldlM (addInterval existing) s).result = .ok s') :
    (∀ usageName date, Covers s entries usageName date →
      Covers s' (entries ++ (is.foldlM (addInterval existing) s).entries) usageName date) ∧
    ∀ i ∈ is, ∀ date, i.nextNotification = some date →
      Covers s' (entries ++ (is.foldlM (addInterval existing) s).entries) i.usage.name date := by
  induction is generalizing s entries with
  | nil =>
      obtain rfl := pure_eq_ok.mp h
      have hnone : (([] : List Interval).foldlM (addInterval existing) s).entries = [] := rfl
      rw [hnone, List.append_nil]
      exact ⟨fun usageName date hcovers => hcovers, fun i hi => absurd hi List.not_mem_nil⟩
  | cons i is ih =>
      rw [List.foldlM_cons] at h ⊢
      rw [Logged.result_bind] at h
      obtain ⟨s₁, hs₁, h⟩ := bind_eq_ok.mp h
      obtain ⟨hkept, hown⟩ := ih (entries ++ (addInterval existing s i).entries) h
      rw [Logged.bind_ok hs₁, ← List.append_assoc]
      refine ⟨fun usageName date hcovers => hkept usageName date (hcovers.addInterval hs₁), ?_⟩
      intro j hj date hnext
      rcases List.mem_cons.mp hj with rfl | hj
      · exact hkept j.usage.name date (covers_addInterval entries hs₁ hnext)
      · exact hown j hj date hnext

variable {run : Run} {is : List Interval}

/-- The date that an interval of a run reports is not earlier than the one the run reports for its usage name,
unless the run warns that an earlier date gave way to a later one. -/
theorem covers_of_reconcile (his : run.intervals = .ok is) (hs : (run.reconcile existing).result = .ok s) (hi : i ∈ is)
    (hnext : i.nextNotification = some date) :
    (∃ reported, s.notificationDates.lookup i.usage.name = some reported ∧ reported ≤ date) ∨
      ∃ previous current, previous ≤ date ∧ previous < current ∧
        (Summary.replacementWarning i.usage.name previous current).within run.boundFields ∈
          (run.reconcile existing).entries := by
  rw [reconcile, body, Logged.result_within, Logged.result_bind, Logged.result_liftM, his, ok_bind,
    Logged.result_bind] at hs
  obtain ⟨s₁, hs₁, hs⟩ := bind_eq_ok.mp hs
  rw [Logged.result_bind] at hs
  obtain ⟨u, -, hs⟩ := bind_eq_ok.mp hs
  obtain rfl := pure_eq_ok.mp hs
  rcases (covers_foldlM [] hs₁).2 i hi date hnext with hreported | ⟨previous, current, hle, hlt, hmem⟩
  · exact Or.inl hreported
  · refine Or.inr ⟨previous, current, hle, hlt, ?_⟩
    refine List.mem_map.mpr ⟨Summary.replacementWarning i.usage.name previous current, ?_, rfl⟩
    apply Logged.mem_entries_bind_of_ok his
    exact Logged.mem_entries_bind hmem

/-! ### Targets before the reported date -/

/-- Run up to a later target that lies before the date reported for a usage name, the intervals of that name have
the buckets that they had, unless the run has warned that a date reached by that target gave way to a later
one. -/
theorem unbilled_until_notification {request : RunRequest} {target' : Date} {given : Option Settings}
    {inUse : Except Error Settings} {run run' : Run} {is is' : List Interval} {existing : List InvoiceItem}
    {s : Summary InvoiceLine} (hcreate : create request given inUse = .ok run)
    (hcreate' : create { request with target := target' } given inUse = .ok run') (hle : request.target ≤ target')
    (his : run.intervals = .ok is) (his' : run'.intervals = .ok is') (hs : (run.reconcile existing).result = .ok s)
    {usageName : String} (hbefore : ∀ d, s.notificationDates.lookup usageName = some d → target' < d) :
    List.Forall₂ (fun i i' => i'.usage = i.usage ∧ i'.events = i.events ∧
      (i.usage.name = usageName → i'.buckets = i.buckets)) is is' ∨
    ∃ previous current, previous ≤ target' ∧ previous < current ∧
      (Summary.replacementWarning usageName previous current).within run.boundFields ∈
        (run.reconcile existing).entries := by
  refine or_iff_not_imp_right.mpr fun hunwarned => ?_
  obtain ⟨hid, -, hevents, settings, hsettings, hterms⟩ := create_eq_ok.mp hcreate
  obtain ⟨hid', -, hevents', settings', hsettings', hterms'⟩ := create_eq_ok.mp hcreate'
  have hsub : run.subscriptionId = run'.subscriptionId := Except.ok.inj (hid.symm.trans hid')
  obtain rfl : settings = settings' := Except.ok.inj (hsettings.symm.trans hsettings')
  have haimed : run'.terms = { run.terms with target := target' } := by
    rw [hterms', hterms, hsub]
    rfl
  have hsame : run'.events = run.events := hevents'.trans hevents.symm
  have hbuilt := ((Timeline.intervals_eq_ok (same_subscription hcreate)).mp his).2
  have hbuilt' := ((Timeline.intervals_eq_ok (same_subscription hcreate')).mp his').2
  rw [hsame] at hbuilt'
  have hpairs : List.Forall₂ (fun i i' => i ∈ is ∧ ∃ ρ : ActivityRun, ρ.built run.terms run.events = .ok i ∧
      ρ.built run'.terms run.events = .ok i') is is' := by
    refine (List.forall₂_and_left (p := (· ∈ is)) _ _).mpr ⟨fun i hi => hi, ?_⟩
    exact forall₂_of_common (mapM_eq_ok.mp hbuilt) (mapM_eq_ok.mp hbuilt') fun ρ i i' hi hi' => ⟨ρ, hi, hi'⟩
  refine hpairs.imp fun i i' h => ?_
  obtain ⟨hmem, ρ, hi, hi'⟩ := h
  have hi : ((ρ.interval run.terms run.events).aimedAt request.target).built (ρ.last + 1 < run.events.length) =
      .ok i := by
    have htarget : (ρ.interval run.terms run.events).aimedAt request.target = ρ.interval run.terms run.events := by
      rw [show request.target = run.terms.target by rw [hterms]; rfl]
      rfl
    rwa [htarget]
  have hi' : ((ρ.interval run.terms run.events).aimedAt target').built (ρ.last + 1 < run.events.length) =
      .ok i' := by
    rw [haimed] at hi'
    exact hi'
  obtain ⟨-, -, buckets, next, -, -, rfl⟩ := Interval.built_eq_ok.mp hi
  obtain ⟨-, -, buckets', next', -, -, rfl⟩ := Interval.built_eq_ok.mp hi'
  refine ⟨rfl, rfl, fun hname => ?_⟩
  refine Interval.buckets_eq_of_notification hle hi hi' fun n hn => ?_
  rcases covers_of_reconcile his hs hmem hn with ⟨reported, hreported, hle⟩ | ⟨previous, current, hle, hlt, hmem⟩
  · rw [hname] at hreported
    exact Nat.lt_of_lt_of_le (hbefore reported hreported) hle
  · rw [hname] at hmem
    by_contra hreached
    exact hunwarned ⟨previous, current, Nat.le_trans hle (Nat.not_lt.mp hreached), hlt, hmem⟩

namespace Sample

def july : Date := ⟨738337, by decide, by decide⟩

def midJune : Date := ⟨738321, by decide, by decide⟩

/-- A change to the catalog version of the fifteenth of June 2022 on that day. -/
def revision : BillingEvent := { event midJune [calls] with catalogVersion := ⟨midJune, 0, some 0⟩ }

/-- A run that knows of the change. -/
def revised (target : Date) : Run := Sample.run [opening, revision] [] target

def endOfJanuary : Date := ⟨738186, by decide, by decide⟩

end Sample

theorem unbilled_until_notification_opened : ∃ is is',
    (Sample.run [Sample.opening] [] Sample.midJanuary).intervals = .ok is ∧
      (Sample.run [Sample.opening] [] Sample.endOfJanuary).intervals = .ok is' ∧
        List.Forall₂ (fun i i' => i.usage.name = "api" → i'.buckets = i.buckets) is is' := by
  have hcreate : create (Sample.request [Sample.opening] [] Sample.midJanuary) (some Sample.settings)
      (.ok Sample.settings) = .ok (Sample.run [Sample.opening] [] Sample.midJanuary) := by decide +kernel
  have hcreate' : create { Sample.request [Sample.opening] [] Sample.midJanuary with target := Sample.endOfJanuary }
      (some Sample.settings) (.ok Sample.settings) =
      .ok (Sample.run [Sample.opening] [] Sample.endOfJanuary) := by decide +kernel
  obtain ⟨is, his⟩ : ∃ is, (Sample.run [Sample.opening] [] Sample.midJanuary).intervals = .ok is := by
    refine exists_ok_of_isOk ?_
    decide +kernel
  obtain ⟨is', his'⟩ : ∃ is', (Sample.run [Sample.opening] [] Sample.endOfJanuary).intervals = .ok is' := by
    refine exists_ok_of_isOk ?_
    decide +kernel
  obtain ⟨s, hs⟩ : ∃ s, ((Sample.run [Sample.opening] [] Sample.midJanuary).reconcile []).result = .ok s := by
    refine exists_ok_of_isOk ?_
    decide +kernel
  have hdate : ((Sample.run [Sample.opening] [] Sample.midJanuary).reconcile []).result.map
      (·.notificationDates.lookup "api") = .ok (some Sample.february) := by decide +kernel
  rw [hs] at hdate
  have hbefore : ∀ d, s.notificationDates.lookup "api" = some d → Sample.endOfJanuary < d := by
    intro d hd
    obtain rfl := Option.some.inj (hd.symm.trans (Except.ok.inj hdate))
    decide
  have hunwarned : ∀ e ∈ ((Sample.run [Sample.opening] [] Sample.midJanuary).reconcile []).entries,
      e.event ≠ "usage_notification_date_overwritten" := by decide +kernel
  rcases unbilled_until_notification hcreate hcreate' (by decide) his his' hs hbefore with
    hsame | ⟨previous, current, -, -, hwarned⟩
  · exact ⟨is, is', his, his', hsame.imp fun i i' h => h.2.2⟩
  · exact absurd rfl (hunwarned _ hwarned)

/-- Where a later interval of the name is known already, its date replaces the date on which the earlier one goes
on: a run up to the middle of January reports July, and the bucket that ends in February is found before that. -/
theorem bucket_before_reported_date : ∃ s is is',
    create (Sample.request [Sample.opening, Sample.revision] [] Sample.midJanuary) (some Sample.settings)
        (.ok Sample.settings) = .ok (Sample.revised Sample.midJanuary) ∧
      create (Sample.request [Sample.opening, Sample.revision] [] Sample.february) (some Sample.settings)
        (.ok Sample.settings) = .ok (Sample.revised Sample.february) ∧
      ((Sample.revised Sample.midJanuary).reconcile []).result = .ok s ∧
      ((Sample.revised Sample.february).reconcile []).result.isOk = true ∧
      (Sample.revised Sample.midJanuary).intervals = .ok is ∧ (Sample.revised Sample.february).intervals = .ok is' ∧
      s.notificationDates.lookup "api" = some Sample.july ∧
      Sample.midJanuary ≤ Sample.february ∧ Sample.february < Sample.july ∧ schedule is = [] ∧
      ∃ p ∈ schedule is', p.1.usage.name = "api" ∧ p.2.finish = Sample.february := by
  obtain ⟨s, hs⟩ : ∃ s, ((Sample.revised Sample.midJanuary).reconcile []).result = .ok s := by
    refine exists_ok_of_isOk ?_
    decide +kernel
  obtain ⟨is, his⟩ : ∃ is, (Sample.revised Sample.midJanuary).intervals = .ok is := by
    refine exists_ok_of_isOk ?_
    decide +kernel
  obtain ⟨is', his'⟩ : ∃ is', (Sample.revised Sample.february).intervals = .ok is' := by
    refine exists_ok_of_isOk ?_
    decide +kernel
  have hdate : ((Sample.revised Sample.midJanuary).reconcile []).result.map
      (·.notificationDates.lookup "api") = .ok (some Sample.july) := by decide +kernel
  have hnone : (Sample.revised Sample.midJanuary).intervals.map schedule = .ok [] := by decide +kernel
  have hfound : (Sample.revised Sample.february).intervals.map
      (fun is => (schedule is).map fun p => (p.1.usage.name, p.2.finish)) = .ok [("api", Sample.february)] := by
    decide +kernel
  rw [hs] at hdate
  rw [his] at hnone
  rw [his'] at hfound
  have hfound : (schedule is').map (fun p => (p.1.usage.name, p.2.finish)) = [("api", Sample.february)] :=
    Except.ok.inj hfound
  have hmem : ("api", Sample.february) ∈ (schedule is').map fun p => (p.1.usage.name, p.2.finish) := by
    rw [hfound]
    exact List.mem_singleton_self _
  obtain ⟨p, hp, heq⟩ := List.mem_map.mp hmem
  obtain ⟨hname, hfinish⟩ := Prod.mk.inj heq
  exact ⟨s, is, is', by decide +kernel, by decide +kernel, hs, by decide +kernel, his, his', Except.ok.inj hdate,
    by decide, by decide, Except.ok.inj hnone, p, hp, hname, hfinish⟩

end Run
end UsageBilling
