import UsageBilling.Proofs.Timeline.RunIntervals

/-! Timelines whose events all carry the same single section. There is one run going on at any time, and it starts
anew where the catalog version changes (`next_same`, `next_other`). With one version there is one activity run
(`activityRuns_same`), and with a change of version there are two (`activityRuns_revised`). Whatever the versions, the
unit types in force are those of the section (`unitTypes_of_mem_recorded`). -/

namespace UsageBilling

/-- Every event carries one section billed in arrear, and it is the same one. -/
def CarriesOnly (u : Usage) (events : List BillingEvent) : Prop := ∀ e ∈ events, e.sections = [u]

section

variable {u : Usage} {e opening bump : BillingEvent} {events before rest : List BillingEvent} {ρ : ActivityRun}
  {ended : List ActivityRun}

theorem sections_of_filter (h : e.usages.filter (·.billingMode = .inArrear) = [u]) : e.sections = [u] := by
  rw [BillingEvent.sections, h]
  rfl

theorem activates_iff_of_single (h : e.sections = [u]) (k : UsageKey.Identity) :
    e.Activates k ↔ e.identityOf u = k := by
  rw [BillingEvent.activates_iff, h]
  simp

/-! ### Runs -/

/-- An event in the catalog version of the run going on prolongs it. -/
theorem next_same (h : e.sections = [u]) (hid : ρ.identity = e.identityOf u) (place : Nat) :
    RunProgress.next ⟨ended, [ρ]⟩ place e = ⟨ended, [{ ρ with last := place }]⟩ := by
  have hactive : e.Activates ρ.identity := (activates_iff_of_single h _).mpr hid.symm
  simp [RunProgress.next, hactive, h, ← hid]

/-- An event in another catalog version ends the run going on and starts one. -/
theorem next_other (h : e.sections = [u]) (hid : ρ.identity ≠ e.identityOf u) (place : Nat) :
    RunProgress.next ⟨ended, [ρ]⟩ place e = ⟨ended ++ [ρ], [⟨u, e.catalogVersion, place, place⟩]⟩ := by
  have hinactive : ¬ e.Activates ρ.identity := fun ha => hid ((activates_iff_of_single h _).mp ha).symm
  simp [RunProgress.next, hinactive, h, hid]

theorem runProgress_singleton (h : e.sections = [u]) :
    runProgress [e] = ⟨[], [⟨u, e.catalogVersion, 0, 0⟩]⟩ := by
  simp [runProgress, RunProgress.next, h]

/-- Events in the catalog version of the run going on prolong it. -/
theorem runProgress_prolonged (hbefore : runProgress before = ⟨ended, [ρ]⟩) (hlast : ρ.last + 1 = before.length)
    (hrest : CarriesOnly u rest) (hid : ∀ e ∈ rest, ρ.identity = e.identityOf u) :
    runProgress (before ++ rest) = ⟨ended, [{ ρ with last := before.length + rest.length - 1 }]⟩ := by
  induction rest using List.reverseRecOn with
  | nil =>
      have hsame : before.length + ([] : List BillingEvent).length - 1 = ρ.last := by
        rw [List.length_nil]
        omega
      rw [List.append_nil, hbefore, hsame]
  | append_singleton rest e ih =>
      have he : e ∈ rest ++ [e] := List.mem_append_right rest (List.mem_singleton_self e)
      have hsame : ActivityRun.identity { ρ with last := before.length + rest.length - 1 } = e.identityOf u :=
        hid e he
      rw [← List.append_assoc, runProgress_append_singleton,
        ih (fun x hx => hrest x (List.mem_append_left _ hx)) (fun x hx => hid x (List.mem_append_left _ hx)),
        next_same (hrest e he) hsame]
      simp

/-- A timeline in one catalog version has one run. -/
theorem activityRuns_same (hsingle : CarriesOnly u (opening :: rest))
    (hid : ∀ e ∈ rest, e.catalogVersion.utc = opening.catalogVersion.utc) :
    activityRuns (opening :: rest) = [⟨u, opening.catalogVersion, 0, rest.length⟩] := by
  obtain ⟨hopening, hrest⟩ := List.forall_mem_cons.mp hsingle
  have hprogress := runProgress_prolonged (runProgress_singleton hopening) rfl hrest fun e he => by
    rw [ActivityRun.identity, BillingEvent.identityOf, hid e he]
  rw [activityRuns, ← List.singleton_append, hprogress, List.nil_append, List.length_singleton, Nat.add_sub_cancel_left]

/-- A timeline whose catalog version changes once has two runs, which meet at the change. -/
theorem activityRuns_revised (hsingle : CarriesOnly u ((opening :: before) ++ bump :: rest))
    (hbefore : ∀ e ∈ before, e.catalogVersion.utc = opening.catalogVersion.utc)
    (hbump : bump.catalogVersion.utc ≠ opening.catalogVersion.utc)
    (hrest : ∀ e ∈ rest, e.catalogVersion.utc = bump.catalogVersion.utc) :
    activityRuns ((opening :: before) ++ bump :: rest) =
      [⟨u, opening.catalogVersion, 0, before.length⟩,
        ⟨u, bump.catalogVersion, before.length + 1, before.length + 1 + rest.length⟩] := by
  have hfirst : CarriesOnly u (opening :: before) := fun e he => hsingle e (List.mem_append_left _ he)
  obtain ⟨hchange, hlater⟩ := List.forall_mem_cons.mp
    (show ∀ e ∈ bump :: rest, e.sections = [u] from fun e he => hsingle e (List.mem_append_right _ he))
  obtain ⟨hopening, hcarried⟩ := List.forall_mem_cons.mp hfirst
  have hstarted := runProgress_prolonged (runProgress_singleton hopening) rfl hcarried fun e he => by
    rw [ActivityRun.identity, BillingEvent.identityOf, hbefore e he]
  rw [List.singleton_append, List.length_singleton, Nat.add_sub_cancel_left] at hstarted
  have hchanged : runProgress ((opening :: before) ++ [bump]) =
      ⟨[⟨u, opening.catalogVersion, 0, before.length⟩],
        [⟨u, bump.catalogVersion, before.length + 1, before.length + 1⟩]⟩ := by
    rw [runProgress_append_singleton, hstarted, next_other hchange, List.nil_append, List.length_cons]
    exact fun h => hbump (congrArg UsageKey.Identity.utc h).symm
  have hprogress := runProgress_prolonged hchanged (by simp) hlater fun e he => by
    rw [ActivityRun.identity, BillingEvent.identityOf, hrest e he]
  have hlength : ((opening :: before) ++ [bump]).length + rest.length - 1 = before.length + 1 + rest.length := by
    rw [List.length_append, List.length_cons, List.length_singleton]
    omega
  rw [List.append_cons, activityRuns, hprogress, hlength]
  rfl

/-! ### Unit types -/

theorem exists_ongoing_of_single (hsingle : CarriesOnly u events) (hne : events ≠ []) :
    ∃ ρ, (runProgress events).ongoing = [ρ] ∧ ρ.usage = u := by
  induction events using List.reverseRecOn with
  | nil => exact absurd rfl hne
  | append_singleton events e ih =>
      have he : e.sections = [u] := hsingle e (List.mem_append_right events (List.mem_singleton_self e))
      rcases eq_or_ne events [] with rfl | hne
      · rw [List.nil_append, runProgress_singleton he]
        exact ⟨_, rfl, rfl⟩
      · obtain ⟨ρ, hρ, husage⟩ := ih (fun x hx => hsingle x (List.mem_append_left _ hx)) hne
        have hprogress : runProgress events = ⟨(runProgress events).ended, [ρ]⟩ := congrArg (RunProgress.mk _) hρ
        rw [runProgress_append_singleton, hprogress]
        by_cases hid : ρ.identity = e.identityOf u
        · rw [next_same he hid]
          exact ⟨_, rfl, husage⟩
        · rw [next_other he hid]
          exact ⟨_, rfl, rfl⟩

theorem unitTypesAfter_of_single (hsingle : CarriesOnly u events) (hne : events ≠ []) :
    unitTypesAfter events = u.unitTypes := by
  obtain ⟨ρ, hρ, rfl⟩ := exists_ongoing_of_single hsingle hne
  rw [unitTypesAfter, hρ, List.flatMap_singleton, Usage.unitTypes, UnitTypes.ofList_ofList]

/-- The interval of a run records the unit types of the section at each event. -/
theorem unitTypes_of_mem_recorded (hsingle : CarriesOnly u events) {x : IntervalEvent}
    (hx : x ∈ ρ.recorded events) : x.seen = some u.unitTypes := by
  rcases List.mem_append.mp hx with hx | hx
  · obtain ⟨m, hm⟩ := List.mem_iff_getElem?.mp (List.mem_of_mem_take (List.mem_of_mem_drop hx))
    rw [getElem?_marked] at hm
    obtain ⟨e, he, rfl⟩ := Option.map_eq_some_iff.mp hm
    have htake : CarriesOnly u (events.take (m + 1)) := fun y hy => hsingle y (List.mem_of_mem_take hy)
    have hne : events.take (m + 1) ≠ [] := by
      have hlt := (List.getElem?_eq_some_iff.mp he).1
      exact List.ne_nil_of_length_pos (by rw [List.length_take]; omega)
    exact congrArg some (unitTypesAfter_of_single htake hne)
  · obtain ⟨e, he, rfl⟩ := Option.map_eq_some_iff.mp (Option.mem_toList.mp hx)
    have hmem : e ∈ events := List.mem_of_getElem? he
    have hclosing : closingUnitTypes (events.take (ρ.last + 1)) e =
        unitTypesAfter (events.take (ρ.last + 1) ++ [e]) := by
      rw [closingUnitTypes, if_neg]
      rw [hsingle e hmem]
      exact List.cons_ne_nil u []
    refine congrArg some (hclosing.trans (unitTypesAfter_of_single ?_ (by simp)))
    intro y hy
    rcases List.mem_append.mp hy with hy | hy
    · exact hsingle y (List.mem_of_mem_take hy)
    · exact List.mem_singleton.mp hy ▸ hsingle e hmem

end
end UsageBilling
