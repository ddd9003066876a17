import Mathlib.Data.List.Nodup
import Mathlib.Data.List.Perm.Basic
import UsageBilling.Proofs.Timeline.RunIntervals

/-! Activity runs of a timeline that grows. The first events of a longer timeline show each run that starts
among them, cut where they end (`ActivityRun.cut`); these are all the runs of the first events
(`activityRuns_cut_perm`), and what is recorded of them is the start of what is recorded later
(`recorded_cut`). -/

namespace UsageBilling

/-- What the first `n` events show of a run that starts among them. -/
def ActivityRun.cut (n : Nat) (ρ : ActivityRun) : ActivityRun := { ρ with last := min ρ.last (n - 1) }

variable {events more : List BillingEvent} {ρ σ : ActivityRun}

theorem first_cut (n : Nat) (ρ : ActivityRun) : (ρ.cut n).first = ρ.first := rfl

theorem usage_cut (n : Nat) (ρ : ActivityRun) : (ρ.cut n).usage = ρ.usage := rfl

theorem cut_of_last_lt {n : Nat} (h : ρ.last < n) : ρ.cut n = ρ := by
  rw [ActivityRun.cut, Nat.min_eq_left (by omega)]

theorem isMaximalRun_cut (h : IsMaximalRun (events ++ more) σ) (hfirst : σ.first < events.length) :
    IsMaximalRun events (σ.cut events.length) := by
  have hle := h.first_le_last
  have hlast : (σ.cut events.length).last = min σ.last (events.length - 1) := rfl
  refine ⟨?_, ?_, fun m hm hm' => ?_, fun m hm => ?_, fun ha => ?_⟩
  · have hopened := h.opened
    rw [List.getElem?_append_left hfirst] at hopened
    exact hopened
  · change σ.first ≤ min σ.last (events.length - 1)
    omega
  · exact (activeAt_append more (by omega)).mp (h.active m hm (by omega))
  · have hm : m + 1 = σ.first := hm
    exact fun ha => h.not_active_before m hm ((activeAt_append more (by omega)).mpr ha)
  · have hlt := ha.lt_length
    refine h.not_active_after ?_
    have hsame : (σ.cut events.length).last = σ.last := by omega
    rw [hsame] at ha hlt
    exact (activeAt_append more hlt).mpr ha

/-- Each run of the first events is one of the longer timeline, cut where they end. -/
theorem exists_isMaximalRun_cut (more : List BillingEvent) (h : IsMaximalRun events ρ) :
    ∃ σ, IsMaximalRun (events ++ more) σ ∧ σ.cut events.length = ρ := by
  induction more using List.reverseRecOn with
  | nil => exact ⟨ρ, by rwa [List.append_nil], cut_of_last_lt h.last_lt⟩
  | append_singleton more e ih =>
      obtain ⟨σ, hσ, hcut⟩ := ih
      rw [← List.append_assoc]
      have hlt := hσ.last_lt
      rcases Nat.lt_or_ge (σ.last + 1) (events ++ more).length with hnext | hnext
      · exact ⟨σ, (isMaximalRun_append hlt (activeAt_append [e] hnext)).mpr hσ, hcut⟩
      have hlast : σ.last + 1 = (events ++ more).length := by omega
      by_cases ha : e.Activates σ.identity
      · refine ⟨_, isMaximalRun_prolonged hσ hlast ha, ?_⟩
        have hcuts : min (events ++ more).length (events.length - 1) = min σ.last (events.length - 1) := by
          rw [List.length_append] at *
          omega
        rw [← hcut, ActivityRun.cut, ActivityRun.cut, hcuts]
      · exact ⟨σ, (isMaximalRun_ended_by hlast).mpr ⟨hσ, ha⟩, hcut⟩

/-- The runs that start among the first events, cut where these end, are the runs of the first events. -/
theorem activityRuns_cut_perm (events more : List BillingEvent) :
    (((activityRuns (events ++ more)).filter (·.first < events.length)).map (·.cut events.length)).Perm
      (activityRuns events) := by
  refine (List.perm_ext_iff_of_nodup ?_ (activityRuns_nodup events)).mpr fun ρ => ?_
  · refine List.Nodup.map_on (fun σ hσ τ hτ heq => ?_) ((activityRuns_nodup (events ++ more)).filter _)
    have hσ := mem_activityRuns_iff.mp (List.mem_filter.mp hσ).1
    have hτ := mem_activityRuns_iff.mp (List.mem_filter.mp hτ).1
    have hfirst : σ.first = τ.first := by rw [← first_cut events.length σ, heq, first_cut]
    have hname : σ.usage.name = τ.usage.name := by rw [← usage_cut events.length σ, heq, usage_cut]
    have hσf := hσ.first_le_last
    have hτf := hτ.first_le_last
    rcases hσ.eq_or_disjoint hτ hname with h | h | h
    · exact h
    · omega
    · omega
  · rw [List.mem_map, mem_activityRuns_iff]
    constructor
    · rintro ⟨σ, hσ, rfl⟩
      obtain ⟨hσ, hfirst⟩ := List.mem_filter.mp hσ
      exact isMaximalRun_cut (mem_activityRuns_iff.mp hσ) (of_decide_eq_true hfirst)
    · intro hρ
      obtain ⟨σ, hσ, hcut⟩ := exists_isMaximalRun_cut more hρ
      have hfirst : σ.first = ρ.first := by rw [← hcut, first_cut]
      exact ⟨σ, List.mem_filter.mpr ⟨mem_activityRuns_iff.mpr hσ, by
        rw [hfirst]
        exact decide_eq_true hρ.first_lt⟩, hcut⟩

/-! ### What is recorded -/

theorem event_mem_of_mem_drop_marked {x : IntervalEvent}
    (h : x ∈ (marked (events ++ more)).drop events.length) : x.event ∈ more := by
  obtain ⟨m, hm⟩ := List.mem_iff_getElem?.mp h
  rw [List.getElem?_drop, getElem?_marked, List.getElem?_append_right (Nat.le_add_right _ _),
    Nat.add_sub_cancel_left] at hm
  obtain ⟨e, he, rfl⟩ := Option.map_eq_some_iff.mp hm
  exact List.mem_of_getElem? he

/-- What is recorded of a run that is cut is the start of what is recorded of it; nothing follows for a run
that ends among the first events. -/
theorem recorded_cut (more : List BillingEvent) (hfirst : σ.first < events.length) : ∃ later,
    σ.recorded (events ++ more) = (σ.cut events.length).recorded events ++ later ∧
    (∀ x ∈ later, x.event ∈ more) ∧ (σ.last + 1 < events.length → later = []) := by
  rcases Nat.lt_or_ge (σ.last + 1) events.length with hended | hongoing
  · refine ⟨[], ?_, by simp, fun _ => rfl⟩
    rw [cut_of_last_lt (by omega), recorded_append more hended, List.append_nil]
  · refine ⟨((marked (events ++ more)).drop events.length).take (σ.last + 1 - events.length) ++
      ((events ++ more)[σ.last + 1]?.map (closingMark ((events ++ more).take (σ.last + 1)))).toList, ?_,
      fun x hx => ?_, fun h => absurd h (by omega)⟩
    · have hcut : (σ.cut events.length).last + 1 = events.length := by
        change min σ.last (events.length - 1) + 1 = events.length
        omega
      have hmarked : (marked (events ++ more)).take (σ.last + 1) = marked events ++
          ((marked (events ++ more)).drop events.length).take (σ.last + 1 - events.length) := by
        conv_lhs => rw [← List.take_append_drop events.length (marked (events ++ more)),
          take_marked_append more (Nat.le_refl _), List.take_of_length_le (Nat.le_of_eq (length_marked events)),
          List.take_append, length_marked, List.take_of_length_le (by rw [length_marked]; omega)]
      rw [recorded_ongoing hcut, ActivityRun.recorded, hmarked, List.drop_append_of_le_length (by
        rw [length_marked]
        omega), List.append_assoc]
      rfl
    · rcases List.mem_append.mp hx with hx | hx
      · exact event_mem_of_mem_drop_marked (List.mem_of_mem_take hx)
      · obtain ⟨e, he, rfl⟩ := Option.map_eq_some_iff.mp (Option.mem_toList.mp hx)
        rw [List.getElem?_append_right hongoing] at he
        exact List.mem_of_getElem? he

end UsageBilling
