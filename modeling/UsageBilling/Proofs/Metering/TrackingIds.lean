import UsageBilling.Proofs.Metering.Selection

/-! The identity of tracking ids: the metered fact that they mark. The invoice has no part in it
(`order_eq_iff_identity`). A set of tracking ids stays in order when some are added (`sorted_insertAll`), and a set in
order has one tracking id of an identity at most (`nodup_identities`). -/

namespace UsageBilling.TrackingId

/-- What tells tracking ids apart in a set. -/
structure Identity where
  trackingId : String
  subscriptionId : String
  unitType : String
  recordDate : Date
  deriving DecidableEq

def identity (t : TrackingId) : Identity := ⟨t.trackingId, t.subscriptionId, t.unitType, t.recordDate⟩

variable {t u : TrackingId} {set : List TrackingId}

theorem order_eq_iff_identity : t.order u = .eq ↔ t.identity = u.identity := by
  have hinvoice : t.order u = .eq ↔ t = { u with invoiceId := t.invoiceId } :=
    order_eq_iff (u := { u with invoiceId := t.invoiceId }) rfl
  rw [hinvoice]
  cases t
  cases u
  simp [identity]

theorem isIn_iff_identity (t : TrackingId) (set : List TrackingId) :
    t.isIn set = true ↔ t.identity ∈ set.map identity := by
  rw [isIn, List.any_eq_true, List.mem_map]
  constructor
  · rintro ⟨u, hu, h⟩
    exact ⟨u, hu, (order_eq_iff_identity.mp (by simpa using h)).symm⟩
  · rintro ⟨u, hu, h⟩
    exact ⟨u, hu, by simpa using order_eq_iff_identity.mpr h.symm⟩

/-! ### Order -/

theorem order_eq : order = compareLex (compareOn (·.recordDate.ordinal)) (compareLex (compareOn (·.unitType))
    (compareLex (compareOn (·.subscriptionId)) (compareOn (·.trackingId)))) := rfl

theorem order_lt_trans {v : TrackingId} (htu : t.order u = .lt) (huv : u.order v = .lt) : t.order v = .lt := by
  rw [order_eq] at *
  exact Std.TransCmp.lt_trans htu huv

theorem order_lt_of_gt (h : t.order u = .gt) : u.order t = .lt := by
  rw [order_eq] at *
  exact Std.OrientedCmp.lt_of_gt h

/-- A set in order has each identity once. -/
def Sorted (set : List TrackingId) : Prop := set.Pairwise fun t u => t.order u = .lt

theorem mem_of_mem_insert {x : TrackingId} (h : x ∈ insert t set) : x = t ∨ x ∈ set := by
  induction set with
  | nil => exact Or.inl (List.mem_singleton.mp h)
  | cons u us ih =>
      rw [insert] at h
      cases ho : t.order u with
      | lt =>
          rw [ho] at h
          exact List.mem_cons.mp h
      | eq =>
          rw [ho] at h
          exact Or.inr h
      | gt =>
          rw [ho] at h
          rcases List.mem_cons.mp h with rfl | h
          · exact Or.inr List.mem_cons_self
          · exact (ih h).imp_right (List.mem_cons_of_mem u)

theorem sorted_insert (t : TrackingId) (h : Sorted set) : Sorted (insert t set) := by
  induction set with
  | nil => exact List.pairwise_singleton _ t
  | cons u us ih =>
      obtain ⟨hu, hus⟩ := List.pairwise_cons.mp h
      rw [insert]
      cases ho : t.order u with
      | lt =>
          refine List.pairwise_cons.mpr ⟨fun v hv => ?_, h⟩
          rcases List.mem_cons.mp hv with rfl | hv
          · exact ho
          · exact order_lt_trans ho (hu v hv)
      | eq => exact h
      | gt =>
          refine List.pairwise_cons.mpr ⟨fun v hv => ?_, ih hus⟩
          rcases mem_of_mem_insert hv with rfl | hv
          · exact order_lt_of_gt ho
          · exact hu v hv

theorem sorted_insertAll (ts : List TrackingId) (h : Sorted set) : Sorted (insertAll set ts) := by
  induction ts generalizing set with
  | nil => exact h
  | cons t ts ih => exact ih (sorted_insert t h)

theorem nodup_identities (h : Sorted set) : (set.map identity).Nodup := by
  refine List.pairwise_map.mpr (h.imp fun hlt heq => ?_)
  rw [order_eq_iff_identity.mpr heq] at hlt
  cases hlt

end UsageBilling.TrackingId
