import UsageBilling.Proofs.Sequencing
import UsageBilling.Run

/-! What it takes to prepare a run. Its events are those of one subscription, at least one, and stand in
the order of their instants (`subscriptionOf_eq_ok`, `sorted_of_checkSorted`); the rest of the run is
read off the request and the settings (`create_eq_ok`). -/

namespace UsageBilling.Run

theorem subscriptionOf_eq_ok {events : List BillingEvent} {id : String} :
    subscriptionOf events = .ok id ↔ events ≠ [] ∧ ∀ e ∈ events, e.subscriptionId = id := by
  have hmem (x : String) : x ∈ UnitTypes.ofList (events.map (·.subscriptionId)) ↔
      ∃ e ∈ events, e.subscriptionId = x := by
    rw [UnitTypes.mem_ofList, List.mem_map]
  have hsorted := UnitTypes.sorted_ofList (events.map (·.subscriptionId))
  rw [subscriptionOf]
  cases hids : UnitTypes.ofList (events.map (·.subscriptionId)) with
  | nil =>
      rw [hids] at hmem
      constructor
      · intro h
        cases h
      · rintro ⟨hne, -⟩
        obtain ⟨e, he⟩ := List.exists_mem_of_ne_nil events hne
        exact absurd ((hmem e.subscriptionId).mpr ⟨e, he, rfl⟩) List.not_mem_nil
  | cons x xs =>
      rw [hids] at hmem hsorted
      obtain ⟨e₀, he₀, hx⟩ := (hmem x).mp List.mem_cons_self
      cases xs with
      | nil =>
          have hall : ∀ e ∈ events, e.subscriptionId = x := fun e he =>
            List.mem_singleton.mp ((hmem e.subscriptionId).mpr ⟨e, he, rfl⟩)
          constructor
          · intro h
            obtain rfl : x = id := Except.ok.inj h
            exact ⟨List.ne_nil_of_mem he₀, hall⟩
          · rintro ⟨-, h⟩
            rw [← h e₀ he₀, hx]
      | cons y ys =>
          constructor
          · intro h
            cases h
          · rintro ⟨-, h⟩
            obtain ⟨e₁, he₁, hy⟩ := (hmem y).mp (List.mem_cons_of_mem x List.mem_cons_self)
            have hxy : x < y := (List.pairwise_cons.mp hsorted).1 y List.mem_cons_self
            rw [← hx, ← hy, h e₀ he₀, h e₁ he₁] at hxy
            exact absurd hxy (String.lt_irrefl id)

theorem Instant.le_of_before?_eq_false {a b : Instant} (h : b.before? a = some false) : a.utc ≤ b.utc := by
  rw [Instant.before?] at h
  split at h
  · simpa using h
  · cases h

/-- The events of a run stand in the order of their instants. -/
theorem sorted_of_checkSorted {events : List BillingEvent} (h : checkSorted events = .ok ()) :
    events.Pairwise fun a b => a.effective.utc ≤ b.effective.utc := by
  have hstep (a b : BillingEvent) (rest : List BillingEvent) (h : checkSorted (a :: b :: rest) = .ok ()) :
      a.effective.utc ≤ b.effective.utc ∧ checkSorted (b :: rest) = .ok () := by
    rw [checkSorted] at h
    cases hb : b.effective.before? a.effective with
    | none =>
        rw [hb] at h
        cases h
    | some before =>
        cases before with
        | true =>
            rw [hb] at h
            cases h
        | false =>
            rw [hb] at h
            exact ⟨Instant.le_of_before?_eq_false hb, h⟩
  induction events with
  | nil => exact .nil
  | cons a rest ih =>
      cases rest with
      | nil => exact List.pairwise_singleton _ _
      | cons b rest =>
          obtain ⟨hab, hrest⟩ := hstep a b rest h
          have hsorted := ih hrest
          refine List.pairwise_cons.mpr ⟨fun c hc => ?_, hsorted⟩
          rcases List.mem_cons.mp hc with rfl | hc
          · exact hab
          · exact Int.le_trans hab ((List.pairwise_cons.mp hsorted).1 c hc)

/-- Events in the order of their instants are accepted where all of them have an offset or none of them has. -/
theorem checkSorted_of_sorted {events : List BillingEvent} {aware : Bool}
    (halike : ∀ e ∈ events, e.effective.offset.isSome = aware)
    (hsorted : events.Pairwise fun a b => a.effective.utc ≤ b.effective.utc) : checkSorted events = .ok () := by
  induction events with
  | nil => rfl
  | cons a rest ih =>
      obtain ⟨ha, hrest⟩ := List.forall_mem_cons.mp halike
      obtain ⟨hle, hsorted⟩ := List.pairwise_cons.mp hsorted
      cases rest with
      | nil => rfl
      | cons b rest =>
          have hb := hrest b List.mem_cons_self
          have hnot : ¬ b.effective.utc < a.effective.utc := Int.not_lt.mpr (hle b List.mem_cons_self)
          rw [checkSorted, Instant.before?, if_pos (hb.trans ha.symm), decide_eq_false hnot]
          exact ih hrest hsorted

variable {request : RunRequest} {given : Option Settings} {inUse : Except Error Settings} {run : Run}

/-- The settings that a run is prepared under: those given, or else the ones in use. -/
def settingsFor (given : Option Settings) (inUse : Except Error Settings) : Except Error Settings :=
  match given with
  | some s => .ok s
  | none => inUse

def termsOf (r : RunRequest) (subscriptionId : String) (settings : Settings) : Terms where
  accountId := r.accountId
  invoiceId := r.invoiceId
  rawUsage := RawUsage.ofSubscription r.rawUsage subscriptionId
  existingTrackingIds := r.existingTrackingIds
  target := r.target
  rawUsageStart := r.rawUsageStart
  detailMode := r.detailMode.getD settings.detailMode
  zeroAmountDisabled := settings.zeroAmountDisabled
  zone := settings.zone

theorem create_eq_ok : create request given inUse = .ok run ↔
    subscriptionOf request.events = .ok run.subscriptionId ∧ checkSorted request.events = .ok () ∧
      run.events = request.events ∧
      ∃ settings, settingsFor given inUse = .ok settings ∧ run.terms = termsOf request run.subscriptionId settings := by
  rw [create, bind_eq_ok]
  constructor
  · rintro ⟨id, hid, h⟩
    obtain ⟨_, hsorted, h⟩ := bind_eq_ok.mp h
    cases given with
    | some s =>
        obtain rfl := pure_eq_ok.mp h
        exact ⟨hid, hsorted, rfl, s, rfl, rfl⟩
    | none =>
        obtain ⟨s, hs, h⟩ := bind_eq_ok.mp h
        obtain rfl := pure_eq_ok.mp h
        exact ⟨hid, hsorted, rfl, s, hs, rfl⟩
  · rintro ⟨hid, hsorted, hevents, settings, hsettings, hterms⟩
    refine ⟨run.subscriptionId, hid, bind_eq_ok.mpr ⟨(), hsorted, ?_⟩⟩
    obtain ⟨id, terms, events⟩ := run
    dsimp only at hevents hterms
    subst hevents hterms
    cases given with
    | some s =>
        obtain rfl := Except.ok.inj hsettings
        rfl
    | none => exact bind_eq_ok.mpr ⟨settings, hsettings, rfl⟩

theorem same_subscription (h : create request given inUse = .ok run) :
    ∀ x ∈ run.events, ∀ y ∈ run.events, x.subscriptionId = y.subscriptionId := by
  obtain ⟨hid, -, hevents, -⟩ := create_eq_ok.mp h
  intro x hx y hy
  rw [hevents] at hx hy
  rw [(subscriptionOf_eq_ok.mp hid).2 x hx, (subscriptionOf_eq_ok.mp hid).2 y hy]

theorem events_sorted (h : create request given inUse = .ok run) :
    run.events.Pairwise fun a b => a.effective.utc ≤ b.effective.utc := by
  obtain ⟨-, hsorted, hevents, -⟩ := create_eq_ok.mp h
  rw [hevents]
  exact sorted_of_checkSorted hsorted

end UsageBilling.Run
