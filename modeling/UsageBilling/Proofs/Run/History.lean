import Mathlib.Order.Bounds.Basic
import UsageBilling.Proofs.Interval.Repetition
import UsageBilling.Proofs.Run.Growth
import UsageBilling.Proofs.Run.Totals

/-! Runs on one timeline. However the raw usage, the target and the settings change from run to run, all runs cut the
timeline at the same dates, so that a bucket is the same one in each run that reaches it
(`same_of_sameBucket`). Each run is given all that was invoiced before it (`Billed`), and what is invoiced
for a unit type of a bucket comes to the largest number that was due for it (`totals_once`). -/

namespace UsageBilling.Run

open UsageBilling.Interval

/-- A prepared run on a timeline. -/
structure On (events : List BillingEvent) (rawUsageStart : Date) (zone : Zone) (run : Run) : Prop where
  created : ∃ request given inUse, create request given inUse = .ok run
  events : run.events = events
  rawUsageStart : run.terms.rawUsageStart = rawUsageStart
  zone : run.terms.zone = zone

/-- Two buckets are for one usage name and have the same dates. -/
structure SameBucket (p q : Interval × Bucket) : Prop where
  name : p.1.usage.name = q.1.usage.name
  start : p.2.alignedStart = q.2.alignedStart
  finish : p.2.finish = q.2.finish

variable {events : List BillingEvent} {rawUsageStart : Date} {zone : Zone} {run run' : Run} {is js : List Interval}

theorem On.subscriptionId_eq (h : run.On events rawUsageStart zone) (h' : run'.On events rawUsageStart zone) :
    run.subscriptionId = run'.subscriptionId := by
  obtain ⟨request, given, inUse, hcreate⟩ := h.created
  obtain ⟨request', given', inUse', hcreate'⟩ := h'.created
  obtain ⟨hid, -, hevents, -⟩ := create_eq_ok.mp hcreate
  obtain ⟨hid', -, hevents', -⟩ := create_eq_ok.mp hcreate'
  rw [← hevents, h.events] at hid
  rw [← hevents', h'.events] at hid'
  exact Except.ok.inj (hid.symm.trans hid')

/-- The buckets of a run up to a target are those of a run up to a later one that end by the first target. -/
theorem schedule_of_target_le (h : run.On events rawUsageStart zone) (h' : run'.On events rawUsageStart zone)
    (his : run.intervals = .ok is) (hjs : run'.intervals = .ok js) (hle : run.terms.target ≤ run'.terms.target) :
    (∀ p ∈ schedule is, ∃ q ∈ schedule js, p.2 = q.2 ∧ p.1.usage = q.1.usage) ∧
    ∀ q ∈ schedule js, q.2.finish ≤ run.terms.target → ∃ p ∈ schedule is, p.2 = q.2 ∧ p.1.usage = q.1.usage := by
  obtain ⟨_, _, _, hcreate⟩ := h.created
  obtain ⟨_, _, _, hcreate'⟩ := h'.created
  have hbuilt := built_intervals hcreate his
  have hbuilt' := built_intervals hcreate' hjs
  rw [h.events] at hbuilt
  rw [h'.events, ← List.append_nil events] at hbuilt'
  obtain ⟨first, old, new, hfirst, hperm, hgrows, hnew⟩ := schedule_grows
    ⟨h.zone.trans h'.zone.symm, h.rawUsageStart.trans h'.rawUsageStart.symm, hle⟩ (by simp) hbuilt hbuilt'
  constructor
  · intro p hp
    obtain ⟨q, hq, hbucket, hgrow⟩ := exists_of_forall₂_left hgrows (hfirst.mem_iff.mpr hp)
    exact ⟨q, hperm.mem_iff.mp (List.mem_append_left _ hq), hbucket, hgrow.usage⟩
  · intro q hq hfinish
    rcases List.mem_append.mp (hperm.mem_iff.mpr hq) with hq | hq
    · obtain ⟨p, hp, hbucket, hgrow⟩ := exists_of_forall₂_right hgrows hq
      exact ⟨p, hfirst.mem_iff.mp hp, hbucket, hgrow.usage⟩
    · exact absurd hfinish (Nat.not_le.mpr (hnew q hq))

theorem nonempty_of_mem_schedule (h : run.On events rawUsageStart zone) (his : run.intervals = .ok is)
    {p : Interval × Bucket} (hp : p ∈ schedule is) :
    p.2.alignedStart < p.2.finish ∧ p.2.finish ≤ run.terms.target := by
  obtain ⟨_, _, _, hcreate⟩ := h.created
  obtain ⟨start, finish, -, -, hwithin⟩ := within_of_mem_schedule hcreate his hp
  exact ⟨hwithin.nonempty, terms_of_mem_schedule hcreate his hp ▸ hwithin.reached⟩

theorem eq_of_sameBucket (hzone : zone.Covered) (h : run.On events rawUsageStart zone)
    (his : run.intervals = .ok is) {p q : Interval × Bucket} (hp : p ∈ schedule is) (hq : q ∈ schedule is)
    (hsame : SameBucket p q) : p = q := by
  obtain ⟨_, _, _, hcreate⟩ := h.created
  by_contra hne
  have hapart := (schedule_pairwise_apart hcreate (h.zone.symm ▸ hzone) his).forall hp hq hne
  have hlt := (nonempty_of_mem_schedule h his hp).1
  rcases hapart hsame.name with hle | hle
  · rw [← hsame.start] at hle
    exact absurd hlt (Nat.not_lt.mpr hle)
  · rw [← hsame.finish] at hle
    exact absurd hlt (Nat.not_lt.mpr hle)

/-- A bucket is the same one in all runs on a timeline. -/
theorem same_of_sameBucket (hzone : zone.Covered) (h : run.On events rawUsageStart zone)
    (h' : run'.On events rawUsageStart zone) (his : run.intervals = .ok is) (hjs : run'.intervals = .ok js)
    {p q : Interval × Bucket} (hp : p ∈ schedule is) (hq : q ∈ schedule js) (hsame : SameBucket p q) :
    p.2 = q.2 ∧ p.1.usage = q.1.usage := by
  rcases Nat.le_total run.terms.target.ordinal run'.terms.target.ordinal with hle | hle
  · obtain ⟨p', hp', hbucket, husage⟩ := (schedule_of_target_le h h' his hjs hle).1 p hp
    obtain rfl := eq_of_sameBucket hzone h' hjs hp' hq
      ⟨husage ▸ hsame.name, hbucket ▸ hsame.start, hbucket ▸ hsame.finish⟩
    exact ⟨hbucket, husage⟩
  · obtain ⟨q', hq', hbucket, husage⟩ := (schedule_of_target_le h' h hjs his hle).1 q hq
    obtain rfl := eq_of_sameBucket hzone h his hp hq'
      ⟨husage ▸ hsame.name, hbucket ▸ hsame.start, hbucket ▸ hsame.finish⟩
    exact ⟨hbucket.symm, husage.symm⟩

/-! ### What a run adds to a bucket -/

/-- A run finds an amount due for a unit type of a bucket, and the amounts that make it up. -/
def Due (run : Run) (p : Interval × Bucket) (unitType : String) (amounts : List Decimal) (due : Decimal) : Prop :=
  ∃ is, run.intervals = .ok is ∧ ∃ q ∈ schedule is, SameBucket p q ∧
    Interval.Due run.subscriptionId q unitType amounts due

variable {run₀ : Run} {is₀ : List Interval} {p q : Interval × Bucket} {unitType : String}
  {items : List InvoiceItem} {s : Summary InvoiceLine}

theorem owns_of_sameBucket (unitType : String) (hzone : zone.Covered) (h₀ : run₀.On events rawUsageStart zone)
    (h : run.On events rawUsageStart zone) (his₀ : run₀.intervals = .ok is₀) (his : run.intervals = .ok is)
    (hp : p ∈ schedule is₀) (hq : q ∈ schedule is) (hsame : SameBucket p q) :
    owns run₀.subscriptionId p unitType = owns run.subscriptionId q unitType := by
  obtain ⟨hbucket, husage⟩ := same_of_sameBucket hzone h₀ h his₀ his hp hq hsame
  funext l
  rw [owns, owns, h₀.subscriptionId_eq h, hbucket, husage]

/-- The lines that a run adds for a unit type of a bucket that it reaches are those that the bucket adds. -/
theorem filter_owns_of_mem (unitType : String) (hzone : zone.Covered) (h : run.On events rawUsageStart zone)
    (hs : (run.reconcile items).result = .ok s) (his : run.intervals = .ok is) (hq : q ∈ schedule is) : ∃ out,
    outcome run.subscriptionId items q = .ok out ∧
      s.items.filter (owns run.subscriptionId q unitType) = out.1.filter (owns run.subscriptionId q unitType) := by
  obtain ⟨_, _, _, hcreate⟩ := h.created
  obtain ⟨is', outs, his', houts, hsum⟩ := reconcile_spec hcreate hs
  obtain rfl : is = is' := Except.ok.inj (his.symm.trans his')
  obtain ⟨out, -, hout, hlines⟩ := exists_own_lines houts (fun q hq => subscription_of_mem_schedule hcreate his hq)
    (fun q hq => (nonempty_of_mem_schedule h his hq).1) (schedule_pairwise_apart hcreate (h.zone.symm ▸ hzone) his) hq
  refine ⟨out, hout, ?_⟩
  rw [hsum.items, ← hlines, List.filter_filter]
  refine List.filter_congr fun l _ => ?_
  cases howns : owns run.subscriptionId q unitType l with
  | true => rw [concerns_of_owns (nonempty_of_mem_schedule h his hq).1 howns, Bool.and_self]
  | false => rw [Bool.false_and]

theorem filter_owns_of_not_mem (subscriptionId : String) (h : run.On events rawUsageStart zone)
    (hs : (run.reconcile items).result = .ok s) (his : run.intervals = .ok is)
    (hq : ∀ q ∈ schedule is, ¬ SameBucket p q) : s.items.filter (owns subscriptionId p unitType) = [] := by
  obtain ⟨_, _, _, hcreate⟩ := h.created
  obtain ⟨is', outs, his', houts, hsum⟩ := reconcile_spec hcreate hs
  obtain rfl : is = is' := Except.ok.inj (his.symm.trans his')
  rw [hsum.items]
  refine List.filter_eq_nil_iff.mpr fun l hl howns => ?_
  obtain ⟨out, hout, hl⟩ := List.mem_flatMap.mp hl
  obtain ⟨q, hq', hqo⟩ := exists_of_forall₂_right (mapM_eq_ok.mp houts) hout
  have hline := forBucket_of_outcome (subscription_of_mem_schedule hcreate his hq') hqo l hl
  simp only [owns, Bool.and_eq_true, decide_eq_true_eq] at howns
  obtain ⟨⟨⟨⟨-, hname⟩, -⟩, hstart, hfinish⟩, -⟩ := howns
  exact hq q hq' ⟨hname.symm.trans hline.usageName, hstart.symm.trans hline.startDate,
    hfinish.symm.trans hline.endDate⟩

theorem intervals_of_reconcile (h : run.On events rawUsageStart zone) (hs : (run.reconcile items).result = .ok s) :
    ∃ is, run.intervals = .ok is := by
  obtain ⟨_, _, _, hcreate⟩ := h.created
  obtain ⟨is, -, his, -⟩ := reconcile_spec hcreate hs
  exact ⟨is, his⟩

theorem filter_owns_of_not_due (unitType : String) (hzone : zone.Covered) (h₀ : run₀.On events rawUsageStart zone)
    (h : run.On events rawUsageStart zone) (his₀ : run₀.intervals = .ok is₀) (hp : p ∈ schedule is₀)
    (hs : (run.reconcile items).result = .ok s) (hdue : ∀ amounts due, ¬ run.Due p unitType amounts due) :
    s.items.filter (owns run₀.subscriptionId p unitType) = [] := by
  obtain ⟨is, his⟩ := intervals_of_reconcile h hs
  by_cases hreach : ∃ q ∈ schedule is, SameBucket p q
  · obtain ⟨q, hq, hsame⟩ := hreach
    obtain ⟨_, _, _, hcreate⟩ := h.created
    obtain ⟨out, hout, hlines⟩ := filter_owns_of_mem unitType hzone h hs his hq
    rw [owns_of_sameBucket unitType hzone h₀ h his₀ his hp hq hsame, hlines]
    exact Interval.filter_owns_of_not_due (subscription_of_mem_schedule hcreate his hq) hout
      fun amounts due hdue' => hdue amounts due ⟨is, his, q, hq, hsame, hdue'⟩
  · exact filter_owns_of_not_mem run₀.subscriptionId h hs his fun q hq hsame => hreach ⟨q, hq, hsame⟩

variable {k : Int} {amounts : List Decimal} {due : Decimal}

/-- A run finds one amount due for a unit type of a bucket. -/
theorem due_unique {amounts' : List Decimal} {due' : Decimal} (hzone : zone.Covered)
    (h : run.On events rawUsageStart zone) (hdue : run.Due p unitType amounts due)
    (hdue' : run.Due p unitType amounts' due') : amounts = amounts' ∧ due = due' := by
  obtain ⟨is, his, q, hq, hsame, hdue⟩ := hdue
  obtain ⟨is', his', q', hq', hsame', hdue'⟩ := hdue'
  obtain rfl : is = is' := Except.ok.inj (his.symm.trans his')
  obtain rfl : q = q' := eq_of_sameBucket hzone h his hq hq'
    ⟨hsame.name.symm.trans hsame'.name, hsame.start.symm.trans hsame'.start, hsame.finish.symm.trans hsame'.finish⟩
  exact Interval.due_unique hdue hdue'

/-- A run for which something is due brings what was invoiced to that. -/
theorem catchesUp_of_reconcile (hk : k ≤ 1000026) (hzone : zone.Covered) (h₀ : run₀.On events rawUsageStart zone)
    (h : run.On events rawUsageStart zone) (his₀ : run₀.intervals = .ok is₀) (hp : p ∈ schedule is₀)
    (hs : (run.reconcile items).result = .ok s) (hdue : run.Due p unitType amounts due)
    (hamounts : Decimal.Fits k amounts)
    (hinvoiced : Decimal.Fits k (invoiced run₀.subscriptionId p unitType items))
    (hrest : due.value - total run₀.subscriptionId p unitType items < 10 ^ (28 - k)) :
    Decimal.CatchesUp k (invoiced run₀.subscriptionId p unitType items)
      ((s.items.filter (owns run₀.subscriptionId p unitType)).map (·.amount)) due.value := by
  obtain ⟨is, his, q, hq, hsame, hdue⟩ := hdue
  obtain ⟨_, _, _, hcreate⟩ := h.created
  obtain ⟨out, hout, hlines⟩ := filter_owns_of_mem unitType hzone h hs his hq
  have howns := owns_of_sameBucket unitType hzone h₀ h his₀ his hp hq hsame
  have hbefore : invoiced run₀.subscriptionId p unitType items = invoiced run.subscriptionId q unitType items := by
    rw [invoiced, howns, invoiced]
  rw [total, hbefore, ← total] at hrest
  rw [hbefore] at hinvoiced ⊢
  rw [howns, hlines]
  exact catchesUp_of_outcome hk (subscription_of_mem_schedule hcreate his hq)
    (nonempty_of_mem_schedule h his hq).1 hout hdue hamounts hinvoiced hrest

/-! ### Runs in sequence -/

/-- Runs are made one after the other. Each succeeds, given all items so far, and its lines are issued as further
items. -/
inductive Billed : List Run → List InvoiceItem → List InvoiceItem → Prop
  | nil (items : List InvoiceItem) : Billed [] items items
  | cons {run : Run} {runs : List Run} {items new final : List InvoiceItem} {s : Summary InvoiceLine}
      (succeeds : (run.reconcile items).result = .ok s) (issued : new.map (·.toInvoiceLine) = s.items)
      (rest : Billed runs (items ++ new) final) : Billed (run :: runs) items final

/-- What runs in sequence make of some items. -/
def bill (runs : List Run) (items : List InvoiceItem) : Except Error (List InvoiceItem) :=
  runs.foldlM (fun items run => do
    let s ← (run.reconcile items).result
    return items ++ InvoiceLine.issue 1 s.items) items

theorem billed_of_bill {runs : List Run} {items final : List InvoiceItem} (h : bill runs items = .ok final) :
    Billed runs items final := by
  induction runs generalizing items with
  | nil =>
      obtain rfl := pure_eq_ok.mp h
      exact .nil items
  | cons run runs ih =>
      rw [bill, List.foldlM_cons] at h
      obtain ⟨known, hknown, h⟩ := bind_eq_ok.mp h
      obtain ⟨s, hs, hknown⟩ := bind_eq_ok.mp hknown
      obtain rfl := pure_eq_ok.mp hknown
      exact .cons hs (InvoiceLine.map_issue 1 s.items) (ih h)

/-- The numbers that runs find due for a unit type of a bucket. -/
def dues (runs : List Run) (p : Interval × Bucket) (unitType : String) : Set ℚ :=
  {v | ∃ run ∈ runs, ∃ amounts due, run.Due p unitType amounts due ∧ due.value = v}

theorem dues_nil (p : Interval × Bucket) (unitType : String) : dues [] p unitType = ∅ := by
  ext v
  simp [dues]

theorem dues_cons (run : Run) (runs : List Run) (p : Interval × Bucket) (unitType : String) :
    dues (run :: runs) p unitType = dues [run] p unitType ∪ dues runs p unitType := by
  ext v
  simp [dues]

theorem dues_of_due (hzone : zone.Covered) (h : run.On events rawUsageStart zone)
    (hdue : run.Due p unitType amounts due) : dues [run] p unitType = {due.value} := by
  ext v
  constructor
  · rintro ⟨run', hrun', amounts', due', hdue', rfl⟩
    obtain rfl := List.mem_singleton.mp hrun'
    rw [(due_unique hzone h hdue hdue').2]
    rfl
  · rintro rfl
    exact ⟨run, List.mem_singleton_self run, amounts, due, hdue, rfl⟩

theorem dues_of_not_due (h : ∀ amounts due, ¬ run.Due p unitType amounts due) : dues [run] p unitType = ∅ := by
  refine Set.eq_empty_iff_forall_notMem.mpr ?_
  rintro v ⟨run', hrun', amounts, due, hdue, -⟩
  obtain rfl := List.mem_singleton.mp hrun'
  exact h amounts due hdue

theorem greatest_insert_union {a b c : ℚ} {s t : Set ℚ} (h : IsGreatest (insert a s) b)
    (h' : IsGreatest (insert b t) c) : IsGreatest (insert a (s ∪ t)) c := by
  have hbc : b ≤ c := h'.2 (Set.mem_insert b t)
  constructor
  · rcases h'.1 with rfl | hc
    · rcases h.1 with rfl | hb
      · exact Set.mem_insert _ _
      · exact Or.inr (Or.inl hb)
    · exact Or.inr (Or.inr hc)
  · rintro v (rfl | hv | hv)
    · exact (h.2 (Set.mem_insert _ _)).trans hbc
    · exact (h.2 (Set.mem_insert_of_mem _ hv)).trans hbc
    · exact h'.2 (Set.mem_insert_of_mem _ hv)

variable {runs : List Run} {new final : List InvoiceItem}

/-- After a run the total is the largest of what it was and what the run finds due. -/
theorem greatest_of_reconcile (hk : k ≤ 1000026) (hzone : zone.Covered) (h₀ : run₀.On events rawUsageStart zone)
    (h : run.On events rawUsageStart zone) (his₀ : run₀.intervals = .ok is₀) (hp : p ∈ schedule is₀)
    (hs : (run.reconcile items).result = .ok s) (hissued : new.map (·.toInvoiceLine) = s.items)
    (hamounts : ∀ amounts due, run.Due p unitType amounts due → Decimal.Fits k amounts)
    (hinvoiced : Decimal.Fits k (invoiced run₀.subscriptionId p unitType items))
    (hrests : ∀ v ∈ dues [run] p unitType, v - total run₀.subscriptionId p unitType items < 10 ^ (28 - k)) :
    Decimal.Fits k (invoiced run₀.subscriptionId p unitType (items ++ new)) ∧
      IsGreatest (insert (total run₀.subscriptionId p unitType items) (dues [run] p unitType))
        (total run₀.subscriptionId p unitType (items ++ new)) := by
  rw [total, total, invoiced_append hissued]
  by_cases hany : ∃ amounts due, run.Due p unitType amounts due
  · obtain ⟨amounts, due, hdue⟩ := hany
    have hdues := dues_of_due hzone h hdue
    have hcatches := catchesUp_of_reconcile hk hzone h₀ h his₀ hp hs hdue (hamounts amounts due hdue) hinvoiced
      (hrests due.value (hdues ▸ Set.mem_singleton _))
    rw [hdues, hcatches.total]
    exact ⟨hcatches.fits, isGreatest_pair⟩
  · have hnone (amounts : List Decimal) (due : Decimal) (hdue : run.Due p unitType amounts due) : False :=
      hany ⟨amounts, due, hdue⟩
    rw [filter_owns_of_not_due unitType hzone h₀ h his₀ hp hs hnone, dues_of_not_due hnone, List.map_nil,
      List.append_nil, insert_empty_eq]
    exact ⟨hinvoiced, isGreatest_singleton⟩

/-- After runs in sequence the total is the largest of what it was and what any of them finds due. -/
theorem greatest_of_billed (hk : k ≤ 1000026) (hzone : zone.Covered) (h₀ : run₀.On events rawUsageStart zone)
    (his₀ : run₀.intervals = .ok is₀) (hp : p ∈ schedule is₀)
    (hruns : ∀ run ∈ runs, run.On events rawUsageStart zone) (hbilled : Billed runs items final)
    (hamounts : ∀ run ∈ runs, ∀ amounts due, run.Due p unitType amounts due → Decimal.Fits k amounts)
    (hinvoiced : Decimal.Fits k (invoiced run₀.subscriptionId p unitType items))
    (hrests : ∀ v ∈ dues runs p unitType, v - total run₀.subscriptionId p unitType items < 10 ^ (28 - k)) :
    Decimal.Fits k (invoiced run₀.subscriptionId p unitType final) ∧
      IsGreatest (insert (total run₀.subscriptionId p unitType items) (dues runs p unitType))
        (total run₀.subscriptionId p unitType final) := by
  induction hbilled with
  | nil items =>
      rw [dues_nil]
      exact ⟨hinvoiced, by simp⟩
  | @cons run runs items new final s hs hissued _ ih =>
      obtain ⟨hrun, hruns⟩ := List.forall_mem_cons.mp hruns
      obtain ⟨hamountsrun, hamounts⟩ := List.forall_mem_cons.mp hamounts
      rw [dues_cons] at hrests ⊢
      obtain ⟨hfits, hgreatest⟩ := greatest_of_reconcile hk hzone h₀ hrun his₀ hp hs hissued hamountsrun hinvoiced
        fun v hv => hrests v (Or.inl hv)
      obtain ⟨hfits', hgreatest'⟩ := ih hruns hamounts hfits fun v hv =>
        (sub_le_sub_left (hgreatest.2 (Set.mem_insert _ _)) v).trans_lt (hrests v (Or.inr hv))
      exact ⟨hfits', greatest_insert_union hgreatest hgreatest'⟩

theorem intervals_of_billed (hruns : ∀ run ∈ runs, run.On events rawUsageStart zone)
    (hbilled : Billed runs items final) : ∀ run ∈ runs, ∃ is, run.intervals = .ok is := by
  induction hbilled with
  | nil items => simp
  | cons hs _ _ ih =>
      obtain ⟨hrun, hruns⟩ := List.forall_mem_cons.mp hruns
      exact List.forall_mem_cons.mpr ⟨intervals_of_reconcile hrun hs, ih hruns⟩

theorem reaches_iff (h₀ : run₀.On events rawUsageStart zone) (h : run.On events rawUsageStart zone)
    (his₀ : run₀.intervals = .ok is₀) (his : run.intervals = .ok is) (hp : p ∈ schedule is₀) :
    (∃ q ∈ schedule is, SameBucket p q) ↔ p.2.finish ≤ run.terms.target := by
  constructor
  · rintro ⟨q, hq, hsame⟩
    rw [hsame.finish]
    exact (nonempty_of_mem_schedule h his hq).2
  · intro hfinish
    rcases Nat.le_total run.terms.target.ordinal run₀.terms.target.ordinal with hle | hle
    · obtain ⟨q, hq, hbucket, husage⟩ := (schedule_of_target_le h h₀ his his₀ hle).2 p hp hfinish
      exact ⟨q, hq, by rw [husage], by rw [hbucket], by rw [hbucket]⟩
    · obtain ⟨q, hq, hbucket, husage⟩ := (schedule_of_target_le h₀ h his₀ his hle).1 p hp
      exact ⟨q, hq, by rw [husage], by rw [hbucket], by rw [hbucket]⟩

/-- Exactly-once totals. On one timeline, runs are made one after the other with any raw usage, targets, detail modes
and zero amount flags, each given all items so far. A bucket is reached by the runs up to its end or
later. Where the amounts are multiples of a power of ten, not below the smallest subnormal number, and
the sums of charges, the sums of items and what remains of a sum due stay below 28 digits of it, all that is
invoiced for a unit type of the bucket comes to the largest of what was invoiced at first and of what the
runs find due. Where there is an item, a run adds another one only when more is due than was invoiced. -/
theorem totals_once (hzone : zone.Covered) (h₀ : run₀.On events rawUsageStart zone)
    (his₀ : run₀.intervals = .ok is₀) (hp : p ∈ schedule is₀) (unitType : String) (hk : k ≤ 1000026)
    (hruns : ∀ run ∈ runs, run.On events rawUsageStart zone) {initial : List InvoiceItem}
    (hbilled : Billed runs initial final) (hinitial : Decimal.Fits k (invoiced run₀.subscriptionId p unitType initial))
    (hamounts : ∀ run ∈ runs, ∀ amounts due, run.Due p unitType amounts due → Decimal.Fits k amounts)
    (hrests : ∀ v ∈ dues runs p unitType, v - total run₀.subscriptionId p unitType initial < 10 ^ (28 - k)) :
    (∀ run ∈ runs, ∃ is, run.intervals = .ok is ∧
      ((∃ q ∈ schedule is, SameBucket p q) ↔ p.2.finish ≤ run.terms.target)) ∧
    IsGreatest (insert (total run₀.subscriptionId p unitType initial) (dues runs p unitType))
      (total run₀.subscriptionId p unitType final) ∧
    ∀ before run after known s, runs = before ++ run :: after → Billed before initial known →
      (run.reconcile known).result = .ok s → (∃ x ∈ known, owns run₀.subscriptionId p unitType x.toInvoiceLine = true) →
      (∃ l ∈ s.items, owns run₀.subscriptionId p unitType l = true) →
      ∃ amounts due, run.Due p unitType amounts due ∧ total run₀.subscriptionId p unitType known < due.value := by
  refine ⟨fun run hrun => ?_, (greatest_of_billed hk hzone h₀ his₀ hp hruns hbilled hamounts hinitial hrests).2, ?_⟩
  · obtain ⟨is, his⟩ := intervals_of_billed hruns hbilled run hrun
    exact ⟨is, his, reaches_iff h₀ (hruns run hrun) his₀ his hp⟩
  · rintro before run after known s rfl hbefore hs ⟨x, hx, hxowns⟩ ⟨l, hl, hlowns⟩
    obtain ⟨hrunsbefore, hrun, -⟩ := List.forall_mem_append.mp hruns |>.imp_right List.forall_mem_cons.mp
    have hmem : run ∈ before ++ run :: after := List.mem_append_right _ List.mem_cons_self
    have hsubset (v : ℚ) (hv : v ∈ dues before p unitType) : v ∈ dues (before ++ run :: after) p unitType := by
      obtain ⟨run', hrun', hdue⟩ := hv
      exact ⟨run', List.mem_append_left _ hrun', hdue⟩
    obtain ⟨hfits, hgreatest⟩ := greatest_of_billed hk hzone h₀ his₀ hp hrunsbefore hbefore
      (fun run' hrun' => hamounts run' (List.mem_append_left _ hrun')) hinitial fun v hv => hrests v (hsubset v hv)
    have hadded : s.items.filter (owns run₀.subscriptionId p unitType) ≠ [] :=
      List.ne_nil_of_mem (List.mem_filter.mpr ⟨hl, hlowns⟩)
    obtain ⟨amounts, due, hdue⟩ : ∃ amounts due, run.Due p unitType amounts due := by
      by_contra hnone
      exact hadded (filter_owns_of_not_due unitType hzone h₀ hrun his₀ hp hs
        fun amounts due hdue => hnone ⟨amounts, due, hdue⟩)
    have hrest := hrests due.value ⟨run, hmem, amounts, due, hdue, rfl⟩
    have hgrown := hgreatest.2 (Set.mem_insert (total run₀.subscriptionId p unitType initial) _)
    refine ⟨amounts, due, hdue, ?_⟩
    refine (catchesUp_of_reconcile hk hzone h₀ hrun his₀ hp hs hdue (hamounts run hmem amounts due hdue) hfits
      ((sub_le_sub_left hgrown _).trans_lt hrest)).exceeds ?_ ?_
    · simpa using hadded
    · rw [invoiced, ne_eq, List.map_eq_nil_iff]
      exact List.ne_nil_of_mem (List.mem_filter.mpr ⟨hx, hxowns⟩)

/-! ### Sample runs -/

namespace Sample

open UsageBilling.Interval.Sample (firstDay usageStart)

/-- An item for seats in January 2022. -/
def paid (amount : Decimal) : InvoiceItem where
  invoiceId := "invoice"
  accountId := "account"
  subscriptionId := "subscription"
  planName := "plan"
  phaseName := "phase"
  usageName := "seats"
  startDate := firstDay
  endDate := february
  amount
  currency := "USD"
  itemType := .usage
  unitType := none
  quantity := none
  rate := none
  catalogVersion := none
  details := none
  id := "paid"

/-- Three more calls on the twelfth of January 2022. -/
def secondReport : RawUsage :=
  { report with date := ⟨738167, by decide, by decide⟩, amount := .ofNat 3, trackingId := "second", recordId := 2 }

/-- Two calls of January 2022 that were invoiced before. -/
def invoicedCalls (id : String) (amount : Decimal) : InvoiceItem :=
  { paid amount with usageName := "api", unitType := some "calls", quantity := some (.ofNat 2), id }

/-- The run that bills January 2022, given some records. -/
def called (records : List RawUsage) : Run := Sample.run [opening] records february

def january (records : List RawUsage) : Interval × Bucket := ({
  usage := calls
  terms := (called records).terms
  events := [⟨0, opening, some ["calls"]⟩]
  stage := .active
  buckets := [⟨firstDay, february, 0, firstDay⟩]
  nextNotification := some ⟨738215, by decide, by decide⟩ }, ⟨firstDay, february, 0, firstDay⟩)

theorem on_called (records : List RawUsage) (h : records = RawUsage.ofSubscription records "subscription") :
    (called records).On [opening] usageStart .utc :=
  ⟨⟨request [opening] records february, some settings, .ok settings, create_eq_ok.mpr ⟨rfl, rfl, rfl, settings, rfl,
    congrArg (fun records => (Sample.run [] records february).terms) h⟩⟩, rfl, rfl, rfl⟩

/-- What the run finds due is the price of the calls that its records count. -/
theorem dues_called (records : List RawUsage) (quantity : Decimal) (price : Nat)
    (hrecords : records = RawUsage.ofSubscription records "subscription")
    (h : (called records).intervals = .ok [(january records).1])
    (hcounted : (RolledUsage.ofRecords records "subscription" firstDay february ["calls"] "invoice" >>= fun rolled =>
      pure rolled.amounts) = .ok [("calls", quantity)])
    (hpriced : (calls.consumableCharges "calls" quantity >>= fun charges => liftM (charges.mapM Charge.amount)) =
      .ok [.ofNat price])
    (hsum : Decimal.sum [.ofNat price] = .ok (.ofNat price)) (hprice : price < 10 ^ 28) :
    (∀ amounts due, (called records).Due (january []) "calls" amounts due → Decimal.Fits 0 amounts) ∧
      dues [called records] (january []) "calls" = {(price : ℚ)} := by
  obtain ⟨rolled, hrolled, hcounted⟩ := bind_eq_ok.mp hcounted
  have hcounted : rolled.amounts = [("calls", quantity)] := pure_eq_ok.mp hcounted
  obtain ⟨charges, hcharges, hamounts⟩ := bind_eq_ok.mp hpriced
  have hdue : (called records).Due (january []) "calls" [.ofNat price] (.ofNat price) :=
    ⟨_, h, january records, List.mem_singleton_self _, ⟨rfl, rfl, rfl⟩, ["calls"], rolled, rfl, by decide, hrolled,
      quantity, charges, hcounted ▸ List.mem_singleton_self _, hcharges, liftM_decimal_eq_ok.mp hamounts, hsum⟩
  constructor
  · intro amounts due hdue'
    rw [← (due_unique Zone.covered_utc (on_called records hrecords) hdue hdue').1]
    exact Decimal.fits_ofNat hprice
  · rw [dues_of_due Zone.covered_utc (on_called records hrecords) hdue, Decimal.value_ofNat]

/-- Runs that are given more records and then fewer. -/
def reporting : List Run := [called [report], called [report, secondReport], called [secondReport]]

theorem ofSubscription_reports : [report] = RawUsage.ofSubscription [report] "subscription" ∧
    [report, secondReport] = RawUsage.ofSubscription [report, secondReport] "subscription" ∧
    [secondReport] = RawUsage.ofSubscription [secondReport] "subscription" :=
  ⟨(List.mergeSort_singleton _).symm, (List.mergeSort_of_pairwise (by decide)).symm,
    (List.mergeSort_singleton _).symm⟩

theorem on_reporting : ∀ run ∈ reporting, run.On [opening] usageStart .utc := by
  obtain ⟨hone, htwo, hthree⟩ := ofSubscription_reports
  exact List.forall_mem_cons.mpr ⟨on_called _ hone, List.forall_mem_cons.mpr
    ⟨on_called _ htwo, List.forall_mem_singleton.mpr (on_called _ hthree)⟩⟩

theorem dues_reporting :
    (∀ run ∈ reporting, ∀ amounts due, run.Due (january []) "calls" amounts due → Decimal.Fits 0 amounts) ∧
      dues reporting (january []) "calls" = {10, 16, 6} := by
  obtain ⟨hone, htwo, hthree⟩ := ofSubscription_reports
  obtain ⟨hfive, hten⟩ := dues_called [report] (.ofNat 5) 10 hone rfl rfl rfl rfl (by norm_num)
  obtain ⟨height, hsixteen⟩ := dues_called [report, secondReport] (.ofNat 8) 16 htwo rfl rfl rfl rfl (by norm_num)
  obtain ⟨hthree, hsix⟩ := dues_called [secondReport] (.ofNat 3) 6 hthree rfl rfl rfl rfl (by norm_num)
  constructor
  · exact List.forall_mem_cons.mpr ⟨hfive, List.forall_mem_cons.mpr ⟨height, List.forall_mem_singleton.mpr hthree⟩⟩
  · rw [reporting, dues_cons, hten, dues_cons, hsixteen, hsix]
    rfl

end Sample

/-- Four were invoiced before the runs; the largest sum that is due is that for eight calls. -/
theorem totals_once_reported : ∃ final, Billed Sample.reporting [Sample.invoicedCalls "early" (.ofNat 4)] final ∧
    IsGreatest {4, 10, 16, 6} (total "subscription" (Sample.january []) "calls" final) := by
  obtain ⟨final, hfinal⟩ := exists_ok_of_isOk
    (x := bill Sample.reporting [Sample.invoicedCalls "early" (.ofNat 4)]) rfl
  have hbilled := billed_of_bill hfinal
  have hinvoiced : invoiced "subscription" (Sample.january []) "calls" [Sample.invoicedCalls "early" (.ofNat 4)] =
      [.ofNat 4] := rfl
  have htotal : total "subscription" (Sample.january []) "calls" [Sample.invoicedCalls "early" (.ofNat 4)] = 4 := by
    rw [total, hinvoiced, List.map_singleton, List.sum_singleton, Decimal.value_ofNat]
    rfl
  have hschedule : (Sample.called []).intervals = .ok [(Sample.january []).1] := rfl
  have hgreatest := (totals_once Zone.covered_utc (Sample.on_called [] List.mergeSort_nil.symm) hschedule
    (p := Sample.january []) (List.mem_singleton_self _) "calls" (k := 0) (by decide) Sample.on_reporting hbilled
    (hinvoiced ▸ Decimal.fits_ofNat (by norm_num)) Sample.dues_reporting.1 (fun v hv => by
      change v - total "subscription" _ _ _ < _
      rw [Sample.dues_reporting.2] at hv
      rw [htotal]
      rcases hv with rfl | rfl | rfl <;> norm_num)).2.1
  change IsGreatest (insert (total "subscription" _ _ _) _) _ at hgreatest
  rw [Sample.dues_reporting.2, htotal] at hgreatest
  exact ⟨final, hbilled, hgreatest⟩

/-! ### A sample lease -/

namespace Sample

open UsageBilling.Interval.Sample (firstDay usageStart)

/-- A section with one price for any number of seats. -/
def seats (price : Decimal) : Usage where
  name := "seats"
  billingMode := .inArrear
  pricing := .capacity
  period := .monthly
  tiers := [⟨[], [⟨"seats", none⟩], some price⟩]

/-- The start of a lease of seats on the first of January 2022. -/
def signing (price : Decimal) : BillingEvent := event firstDay [seats price]

/-- The run that bills the first month of the lease. -/
def lease (price : Decimal) : Run := Sample.run [signing price] [] february

def leased (price : Decimal) : Interval where
  usage := seats price
  terms := (lease price).terms
  events := [⟨0, signing price, some ["seats"]⟩]
  stage := .active
  buckets := [⟨firstDay, february, 0, firstDay⟩]
  nextNotification := some ⟨738215, by decide, by decide⟩

def month (price : Decimal) : Interval × Bucket :=
  (leased price, ⟨firstDay, february, 0, firstDay⟩)

variable {price : Decimal}

theorem on_lease (price : Decimal) : (lease price).On [signing price] usageStart .utc := by
  refine ⟨⟨request [signing price] [] february, some settings, .ok settings, ?_⟩, rfl, rfl, rfl⟩
  have hnone : [] = RawUsage.ofSubscription [] "subscription" := List.mergeSort_nil.symm
  exact create_eq_ok.mpr ⟨subscriptionOf_eq_ok.mpr ⟨List.cons_ne_nil _ _, List.forall_mem_singleton.mpr rfl⟩, rfl,
    rfl, settings, rfl, congrArg (fun records => (Sample.run [] records february).terms) hnone⟩

theorem month_mem (price : Decimal) : month price ∈ schedule [leased price] :=
  mem_schedule.mpr ⟨List.mem_cons_self, List.mem_cons_self⟩

theorem due_month (h : (lease price).intervals = .ok [leased price]) {amounts : List Decimal} {due : Decimal}
    (hdue : (lease price).Due (month price) "seats" amounts due) : amounts = [price] ∧ due = price := by
  obtain ⟨is, his, q, hq, -, hdue⟩ := hdue
  obtain rfl : [leased price] = is := Except.ok.inj (h.symm.trans his)
  have hi := List.mem_singleton.mp (mem_schedule.mp hq).1
  rw [Interval.Due, hi] at hdue
  obtain ⟨types, rolled, -, -, -, tier, htier, rfl, rfl⟩ := hdue
  obtain ⟨tier', htier', hprice⟩ := price_of_capacityTier htier
  obtain rfl := List.mem_singleton.mp htier'
  obtain rfl := Option.some.inj hprice
  exact ⟨rfl, rfl⟩

/-- What the run of the lease makes of the items there are. -/
theorem billed_lease (items : List InvoiceItem) (added : Decimal) (h : (lease price).intervals = .ok [leased price])
    (hadded : ((lease price).reconcile items).result.map (fun s =>
      (s.items.filter (owns "subscription" (month price) "seats")).map (·.amount)) = .ok [added]) :
    ∃ final, Billed [lease price] items final ∧
      invoiced "subscription" (month price) "seats" final =
        invoiced "subscription" (month price) "seats" items ++ [added] ∧
      dues [lease price] (month price) "seats" = {price.value} := by
  cases hs : ((lease price).reconcile items).result with
  | error e =>
      rw [hs] at hadded
      cases hadded
  | ok s =>
      rw [hs] at hadded
      have hadded : (s.items.filter (owns "subscription" (month price) "seats")).map (·.amount) = [added] :=
        Except.ok.inj hadded
      have hissued := InvoiceLine.map_issue 1 s.items
      refine ⟨_, .cons hs hissued (.nil _), by rw [invoiced_append hissued, hadded], ?_⟩
      obtain ⟨amounts, due, hdue⟩ : ∃ amounts due, (lease price).Due (month price) "seats" amounts due := by
        by_contra hnone
        have hnil := filter_owns_of_not_due "seats" Zone.covered_utc (on_lease price) (on_lease price) h
          (month_mem price) hs fun amounts due hdue => hnone ⟨amounts, due, hdue⟩
        change s.items.filter (owns "subscription" (month price) "seats") = [] at hnil
        rw [hnil] at hadded
        cases hadded
      rw [dues_of_due Zone.covered_utc (on_lease price) hdue, (due_month h hdue).2]

end Sample

/-- The run of a lease misses the largest of what was invoiced and what is due, although all amounts are multiples
of `10^-k` and all sums of them stay below 28 digits of that. -/
def Sample.Missed (k : Int) (price : Decimal) (items : List InvoiceItem) : Prop :=
  ∃ final, Billed [lease price] items final ∧
    (∀ run ∈ [lease price], ∀ amounts due, run.Due (month price) "seats" amounts due → Decimal.Fits k amounts) ∧
    Decimal.Fits k (invoiced "subscription" (month price) "seats" final) ∧
    ¬ IsGreatest (insert (total "subscription" (month price) "seats" items) (dues [lease price] (month price) "seats"))
      (total "subscription" (month price) "seats" final)

theorem Sample.missed_of_below {price : Decimal} {items : List InvoiceItem} (added : Decimal)
    (h : (lease price).intervals = .ok [leased price])
    (hadded : ((lease price).reconcile items).result.map (fun s =>
      (s.items.filter (owns "subscription" (month price) "seats")).map (·.amount)) = .ok [added])
    (hprice : Decimal.Fits k [price])
    (hfits : Decimal.Fits k (invoiced "subscription" (month price) "seats" items ++ [added]))
    (hbelow : total "subscription" (month price) "seats" items + added.value < price.value) :
    Missed k price items := by
  obtain ⟨final, hbilled, hfinal, hdues⟩ := billed_lease items added h hadded
  refine ⟨final, hbilled, List.forall_mem_singleton.mpr fun amounts due hdue => ?_, hfinal ▸ hfits, fun hgreatest => ?_⟩
  · rw [(due_month h hdue).1]
    exact hprice
  · have hle := hgreatest.2 (Set.mem_insert_of_mem _ (hdues ▸ Set.mem_singleton _))
    rw [total, hfinal, List.map_append, List.sum_append, List.map_singleton, List.sum_singleton, ← total] at hle
    exact absurd hbelow (not_lt.mpr hle)

/-- A price below the smallest subnormal number, and one that is due beside a credit of half the digits. -/
def Sample.tiny : Decimal := .finite false 1 (-1000027)

def Sample.large : Decimal := .finite false (5 * 10 ^ 27 + 1) 0

def Sample.credit : Decimal := .finite true (5 * 10 ^ 27) 0

/-- What is owed of an amount below the smallest subnormal number is zero, and what is owed beside a credit may have
more digits than are kept. -/
theorem totals_once_inexact :
    Sample.Missed 1000027 Sample.tiny [] ∧ Sample.Missed 0 Sample.large [Sample.paid Sample.credit] := by
  constructor
  · have hvalue : Sample.tiny.value = 10 ^ (-1000027 : ℤ) := by
      rw [Sample.tiny, Decimal.value_finite, Decimal.scaled, Nat.cast_one, one_mul]
      rfl
    have hzero : (Decimal.finite false 0 (-1000026)).value = 0 := Decimal.value_finite_zero _ _
    refine Sample.missed_of_below (.finite false 0 (-1000026)) (by decide +kernel) (by decide +kernel) ?_ ?_ ?_
    · refine Decimal.fits_singleton (Decimal.isFinite_finite _ _ _) ⟨1, by rw [hvalue, Int.cast_one, one_mul]⟩ ?_
      rw [hvalue, abs_of_pos (by positivity)]
      exact zpow_lt_zpow_right₀ (by norm_num) (by norm_num)
    · refine Decimal.fits_singleton (Decimal.isFinite_finite _ _ _) (hzero ▸ Decimal.multipleOf_zero _) ?_
      rw [hzero, abs_zero]
      positivity
    · change 0 + _ < _
      rw [hzero, hvalue, add_zero]
      positivity
  · have hlarge : Sample.large.value = 5 * 10 ^ 27 + 1 := by
      norm_num [Sample.large, Decimal.value, Decimal.signed]
    have hcredit : Sample.credit.value = -(5 * 10 ^ 27) := by
      norm_num [Sample.credit, Decimal.value, Decimal.signed]
    have hadded : (Decimal.finite false (10 ^ 27) 1).value = 10 ^ 28 := by norm_num [Decimal.value, Decimal.signed]
    have hinvoiced : invoiced "subscription" (Sample.month Sample.large) "seats" [Sample.paid Sample.credit] =
        [Sample.credit] := by decide +kernel
    refine Sample.missed_of_below (.finite false (10 ^ 27) 1) (by decide +kernel) (by decide +kernel) ?_ ?_ ?_
    · refine Decimal.fits_singleton (Decimal.isFinite_finite _ _ _) ⟨5 * 10 ^ 27 + 1, by rw [hlarge]; norm_num⟩ ?_
      rw [hlarge]
      norm_num [abs_of_pos]
    · have hfirst : Decimal.Fits 0 [Sample.credit] := by
        refine Decimal.fits_singleton trivial ⟨-(5 * 10 ^ 27), by rw [hcredit]; norm_num⟩ ?_
        rw [hcredit]
        norm_num [abs_of_pos]
      rw [hinvoiced]
      refine hfirst.concat (Decimal.isFinite_finite _ _ _) ⟨10 ^ 28, by rw [hadded]; norm_num⟩ ?_
      rw [List.map_singleton, List.sum_singleton, hcredit, hadded]
      norm_num [abs_of_pos]
    · rw [total, hinvoiced, List.map_singleton, List.sum_singleton, hcredit, hadded, hlarge]
      norm_num

end UsageBilling.Run
