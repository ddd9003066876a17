import UsageBilling.Proofs.Interval.Reconciliation

/-! Which errors a computation may fail with. A sequence fails with errors of its steps only (`FailsOnly.bind`), so that
pricing fails with faults of the catalog and of the decimals only (`failsOnly_consumableCharges`,
`failsOnly_capacityTier`). So does a bucket once the items invoiced for it are checked, given the event in force at
its start (`failsOnly_bucketLines`). -/

namespace UsageBilling

variable {α β : Type} {P : Error → Prop}

/-- A computation fails with errors of a kind only. -/
def FailsOnly (P : Error → Prop) (x : Except Error α) : Prop := ∀ e, x = .error e → P e

/-- The kind has every error that pricing can meet. -/
structure HasPricingFaults (P : Error → Prop) : Prop where
  catalog : ∀ fault, P (.catalog fault)
  decimal : ∀ fault, P (.decimal fault)

/-! ### Steps -/

@[simp] theorem failsOnly_ok (a : α) : FailsOnly P (.ok a) := fun _ => nofun

@[simp] theorem failsOnly_pure (a : α) : FailsOnly P (pure a : Except Error α) := fun _ => nofun

theorem failsOnly_error {e : Error} (h : P e) : FailsOnly P (.error e : Except Error α) :=
  fun _ heq => Except.error.inj heq ▸ h

theorem HasPricingFaults.liftM (hP : HasPricingFaults P) (x : Except Decimal.Fault α) :
    FailsOnly P (liftM x : Except Error α) := by
  cases x with
  | ok a => exact failsOnly_ok a
  | error fault => exact failsOnly_error (hP.decimal fault)

/-- A sequence fails with the errors of its steps. -/
theorem FailsOnly.bind {x : Except Error α} {f : α → Except Error β} (hx : FailsOnly P x)
    (hf : ∀ a, x = .ok a → FailsOnly P (f a)) : FailsOnly P (x >>= f) := by
  cases x with
  | ok a => exact hf a rfl
  | error e => exact failsOnly_error (hx e rfl)

theorem failsOnly_mapM {f : α → Except Error β} {xs : List α} (h : ∀ x ∈ xs, FailsOnly P (f x)) :
    FailsOnly P (xs.mapM f) := by
  induction xs with
  | nil => exact failsOnly_pure []
  | cons x xs ih =>
      obtain ⟨hx, hxs⟩ := List.forall_mem_cons.mp h
      rw [List.mapM_cons]
      exact hx.bind fun y _ => (ih hxs).bind fun ys _ => failsOnly_pure _

/-! ### Prices -/

theorem failsOnly_fillBlocks (hP : HasPricingFaults P) (usage unitType : String) (blocks : List (Nat × Block))
    (quantity : Decimal) : FailsOnly P (fillBlocks usage unitType blocks quantity) := by
  induction blocks generalizing quantity with
  | nil => exact failsOnly_ok _
  | cons p blocks ih =>
      unfold fillBlocks
      refine (hP.liftM _).bind fun done _ => ?_
      split
      · exact failsOnly_pure _
      refine (hP.liftM _).bind fun empty _ => ?_
      split
      · exact failsOnly_error (hP.catalog _)
      refine (hP.liftM _).bind fun taken _ => (hP.liftM _).bind fun charged _ => (ih taken.2).bind fun filled _ => ?_
      dsimp only
      split <;> exact failsOnly_pure _

theorem failsOnly_consumableCharges (hP : HasPricingFaults P) (u : Usage) (unitType : String) (quantity : Decimal) :
    FailsOnly P (u.consumableCharges unitType quantity) := by
  unfold Usage.consumableCharges
  dsimp only
  split
  · exact failsOnly_error (hP.catalog _)
  refine (failsOnly_fillBlocks hP _ _ _ _).bind fun filled _ => (hP.liftM _).bind fun exceeds _ => ?_
  split
  · exact failsOnly_error (hP.catalog _)
  · exact failsOnly_pure _

theorem failsOnly_capacityTier (hP : HasPricingFaults P) (u : Usage) (amounts : List (String × Decimal)) :
    FailsOnly P (u.capacityTier amounts) := by
  unfold Usage.capacityTier
  induction u.numberedTiers with
  | nil => exact failsOnly_error (hP.catalog _)
  | cons p tiers ih =>
      refine (hP.liftM _).bind fun covers _ => ?_
      split
      · split
        · exact failsOnly_pure _
        · exact failsOnly_error (hP.catalog _)
      · exact ih

/-! ### Lines -/

namespace Interval

variable {i : Interval} {b : Bucket} {billed : List InvoiceItem}

theorem failsOnly_newLine (hevent : i.events[b.eventIndex]? = none → P .indexOutOfRange) (amount : Decimal)
    (unitType : Option String) (quantity rate : Option Decimal) (details : Json) :
    FailsOnly P (i.newLine b amount unitType quantity rate details) := by
  unfold newLine
  split
  next hnone => exact failsOnly_error (hevent hnone)
  · exact failsOnly_ok _

theorem failsOnly_chargeLines (hP : HasPricingFaults P) (hevent : i.events[b.eventIndex]? = none → P .indexOutOfRange)
    (unitType : String) (charges : List Charge) : FailsOnly P (i.chargeLines b unitType charges) := by
  refine (failsOnly_mapM fun c _ => ?_).bind fun _ _ => failsOnly_pure _
  refine (hP.liftM _).bind fun amount _ => ?_
  split
  · exact failsOnly_pure _
  · refine (hP.liftM _).bind fun details _ => ?_
    exact (failsOnly_newLine hevent _ _ _ _ details).bind fun _ _ => failsOnly_pure _

theorem failsOnly_unitTypeLines (hP : HasPricingFaults P) (hevent : i.events[b.eventIndex]? = none → P .indexOutOfRange)
    (unitType : String) (quantity : Decimal) (billed : List InvoiceItem) :
    FailsOnly P (i.unitTypeLines b unitType quantity billed).result := by
  rw [unitTypeLines]
  simp only [Logged.result_bind, Logged.result_liftM, Logged.result_liftM_decimal, amountOwed_result]
  refine (failsOnly_consumableCharges hP _ _ _).bind fun charges _ => (hP.liftM _).bind fun due _ =>
    (hP.liftM _).bind fun owed _ => ?_
  cases owed with
  | none => exact failsOnly_ok _
  | some owed =>
      dsimp only
      split
      · exact failsOnly_chargeLines hP hevent unitType charges
      · rw [Logged.result_bind, Logged.result_liftM]
        refine FailsOnly.bind ?_ fun _ _ => failsOnly_pure _
        exact (hP.liftM _).bind fun details _ => (hP.liftM _).bind fun rest _ =>
          failsOnly_newLine hevent _ _ _ _ details

/-- Consumable usage whose items have unit types of the usage section fails in pricing only. -/
theorem failsOnly_consumableLines (hP : HasPricingFaults P)
    (hevent : i.events[b.eventIndex]? = none → P .indexOutOfRange) {rolled : RolledUsage}
    (h : i.checkUnitTypes billed = .ok ()) : FailsOnly P (i.consumableLines b rolled billed).result := by
  rw [consumableLines]
  simp only [Logged.result_bind, Logged.result_liftM, Logged.result_mapM, Logged.result_pure, h, ok_bind]
  refine (failsOnly_mapM fun p _ => ?_).bind fun _ _ => failsOnly_pure _
  exact failsOnly_unitTypeLines hP hevent p.1 p.2 billed

/-- Capacity usage whose items have no unit types fails in pricing only. -/
theorem failsOnly_capacityLines (hP : HasPricingFaults P)
    (hevent : i.events[b.eventIndex]? = none → P .indexOutOfRange) {rolled : RolledUsage}
    (h : checkNoUnitTypes billed = .ok ()) : FailsOnly P (i.capacityLines b rolled billed).result := by
  rw [capacityLines]
  simp only [Logged.result_bind, Logged.result_liftM, amountOwed_result, h, ok_bind]
  refine (failsOnly_capacityTier hP i.usage rolled.amounts).bind fun tier _ => (hP.liftM _).bind fun owed _ => ?_
  cases owed with
  | none => exact failsOnly_ok _
  | some owed =>
      simp only [Logged.result_bind, Logged.result_liftM, Logged.result_liftM_decimal]
      refine (hP.liftM _).bind fun details _ => ?_
      exact (failsOnly_newLine hevent _ _ _ _ details).bind fun _ _ => failsOnly_pure _

/-- A bucket whose items have the unit types that its usage section bills fails in pricing only. -/
theorem failsOnly_bucketLines (hP : HasPricingFaults P)
    (hevent : i.events[b.eventIndex]? = none → P .indexOutOfRange) {rolled : RolledUsage}
    (htypes : i.usage.pricing = .consumable → i.checkUnitTypes billed = .ok ())
    (hnone : i.usage.pricing = .capacity → checkNoUnitTypes billed = .ok ()) :
    FailsOnly P (i.bucketLines b rolled billed).result := by
  rw [bucketLines]
  cases hpricing : i.usage.pricing with
  | consumable => exact failsOnly_consumableLines hP hevent (htypes hpricing)
  | capacity => exact failsOnly_capacityLines hP hevent (hnone hpricing)

end Interval
end UsageBilling
