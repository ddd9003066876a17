import UsageBilling.Proofs.Correspondence
import UsageBilling.Proofs.Decimal.Unrounded
import UsageBilling.Proofs.Run.Reconciliation

/-! The order of the items that were invoiced before. It decides which of several items an error names, so errors are
compared by kind (`Error.kind`). What a bucket adds depends on the sums of the amounts and of the quantities invoiced
for its unit types, and otherwise not on the order of the items (`bucketLines_perm`, `outcome_perm`). -/

namespace UsageBilling

/-! ### Kinds of errors -/

/-- What is wrong with an item invoiced before, whichever item it is. -/
inductive InvoiceFault.Kind where
  | misaligned (bucketStart bucketEnd : Date) (usage : String)
  | foreignUnitType (usage : String)
  | unitTypeOnCapacity
  deriving DecidableEq

def InvoiceFault.kind : InvoiceFault → Kind
  | misaligned _ _ _ bucketStart bucketEnd usage => .misaligned bucketStart bucketEnd usage
  | foreignUnitType _ _ usage => .foreignUnitType usage
  | unitTypeOnCapacity _ _ => .unitTypeOnCapacity

/-- An error without what it tells of the item that it was found at. -/
inductive Error.Kind where
  | invoice (kind : InvoiceFault.Kind)
  | other (error : Error)
  deriving DecidableEq

def Error.kind : Error → Kind
  | .invoice fault => .invoice fault.kind
  | error => .other error

namespace Interval

variable {i : Interval} {b : Bucket} {subscriptionId : String} {items items' : List InvoiceItem}

/-! ### Checks -/

theorem find?_of_perm {α : Type} {p : α → Bool} {xs ys : List α} (h : ys.Perm xs) :
    ys.find? p = none ∧ xs.find? p = none ∨ ∃ y x, ys.find? p = some y ∧ xs.find? p = some x := by
  have hnone : ys.find? p = none ↔ xs.find? p = none := by
    simp only [List.find?_eq_none, h.mem_iff]
  cases hx : xs.find? p with
  | none => exact Or.inl ⟨hnone.mpr hx, rfl⟩
  | some x =>
      cases hy : ys.find? p with
      | none => cases hx.symm.trans (hnone.mp hy)
      | some y => exact Or.inr ⟨y, x, rfl, rfl⟩

/-- In two orders the same items are invoiced for a bucket, or one of them is misaligned in both. -/
theorem billedFor_perm (h : items'.Perm items) :
    Corresponds (fun billed' billed => billed' = items'.filter (overlaps b) ∧ billed = items.filter (overlaps b))
      ((i.billedFor b items').mapError Error.kind) ((i.billedFor b items).mapError Error.kind) := by
  rw [billedFor, billedFor]
  rcases find?_of_perm (h.filter (overlaps b)) with ⟨hx', hx⟩ | ⟨x', x, hx', hx⟩ <;> rw [hx', hx]
  · exact .ok ⟨rfl, rfl⟩
  · exact .error _

theorem checkUnitTypes_perm (h : items'.Perm items) :
    (i.checkUnitTypes items').mapError Error.kind = (i.checkUnitTypes items).mapError Error.kind := by
  rw [checkUnitTypes, checkUnitTypes]
  dsimp only
  rcases find?_of_perm h with ⟨hx', hx⟩ | ⟨x', x, hx', hx⟩ <;> rw [hx', hx]
  rfl

theorem checkNoUnitTypes_perm (h : items'.Perm items) :
    (checkNoUnitTypes items').mapError Error.kind = (checkNoUnitTypes items).mapError Error.kind := by
  have htyped := h.filterMap fun x => x.unitType.map fun unitType => (x.id, unitType)
  rw [checkNoUnitTypes, checkNoUnitTypes]
  generalize (items'.filterMap fun x => x.unitType.map fun unitType => (x.id, unitType)) = typed' at htyped
  generalize (items.filterMap fun x => x.unitType.map fun unitType => (x.id, unitType)) = typed at htyped
  cases typed' with
  | nil => rw [← htyped.nil_eq]
  | cons x' xs' =>
      cases typed with
      | nil => cases List.perm_nil.mp htyped
      | cons x xs => rfl

/-! ### What is owed -/

/-- Items whose amounts come to the same, and whose quantities do. -/
structure SameSums (items' items : List InvoiceItem) : Prop where
  amounts : Decimal.sum (items'.map (·.amount)) = Decimal.sum (items.map (·.amount))
  quantities : Decimal.sum (items'.filterMap (·.quantity)) = Decimal.sum (items.filterMap (·.quantity))

theorem owed_perm (h : items'.Perm items) (hsums : SameSums items' items) (zeroDisabled : Bool) (due : Decimal) :
    Decimal.owed zeroDisabled due (items'.map (·.amount)) = Decimal.owed zeroDisabled due (items.map (·.amount)) := by
  rw [Decimal.owed, Decimal.owed, hsums.amounts, List.isEmpty_map, List.isEmpty_map, h.isEmpty_eq]

theorem quantities_eq (items : List InvoiceItem) : items.mapM (·.quantity) =
    if items.all (·.quantity.isSome) then some (items.filterMap (·.quantity)) else none := by
  induction items with
  | nil => rfl
  | cons x xs ih =>
      rw [List.mapM_cons, ih, List.all_cons]
      cases hx : x.quantity with
      | none => rfl
      | some q =>
          rw [Option.isSome_some, Bool.true_and, List.filterMap_cons, hx]
          cases xs.all (·.quantity.isSome) <;> rfl

theorem quantityOwed_perm (h : items'.Perm items) (hsums : SameSums items' items) (quantity : Decimal) :
    quantityOwed quantity items' = quantityOwed quantity items := by
  rw [quantityOwed, quantityOwed, quantities_eq, quantities_eq, h.all_eq]
  cases items.all (·.quantity.isSome) with
  | false => rfl
  | true =>
      simp only [if_true]
      rw [hsums.quantities]

theorem unitTypeLines_perm (h : items'.Perm items) {unitType : String}
    (hsums : SameSums (items'.filter (·.unitType = some unitType)) (items.filter (·.unitType = some unitType)))
    (quantity : Decimal) :
    (i.unitTypeLines b unitType quantity items').result = (i.unitTypeLines b unitType quantity items).result := by
  have hfilter := h.filter fun x => decide (x.unitType = some unitType)
  rw [unitTypeLines, unitTypeLines]
  simp only [Logged.result_bind, Logged.result_liftM, Logged.result_liftM_decimal, amountOwed_result,
    owed_perm hfilter hsums]
  apply bind_congr
  intro charges
  apply bind_congr
  intro due
  apply bind_congr
  intro owed
  cases owed with
  | none => rfl
  | some owed =>
      simp only [aggregateLine, quantityOwed_perm hfilter hsums, hfilter.isEmpty_eq]

/-- What a bucket owes does not depend on the order of the items invoiced for it, but for the item that an error
names. -/
theorem bucketLines_perm (h : items'.Perm items)
    (hsums : ∀ unitType : Option String, SameSums (items'.filter (·.unitType = unitType))
      (items.filter (·.unitType = unitType))) (rolled : RolledUsage) :
    (i.bucketLines b rolled items').result.mapError Error.kind =
      (i.bucketLines b rolled items).result.mapError Error.kind := by
  rw [bucketLines, bucketLines]
  cases i.usage.pricing with
  | consumable =>
      have hlines (p : String × Decimal) := unitTypeLines_perm (i := i) (b := b) h (hsums (some p.1)) p.2
      simp only [consumableLines, Logged.result_bind, Logged.result_liftM, Logged.result_mapM, mapError_bind,
        checkUnitTypes_perm h, hlines]
  | capacity =>
      simp only [capacityLines, Logged.result_bind, Logged.result_liftM, mapError_bind, checkNoUnitTypes_perm h]
      cases hcheck : checkNoUnitTypes items with
      | error e => rfl
      | ok _ =>
          have hnone := checkNoUnitTypes_eq_ok.mp hcheck
          have hnone' : ∀ x ∈ items', x.unitType = none := fun x hx => hnone x (h.mem_iff.mp hx)
          have hall := hsums none
          rw [List.filter_eq_self.mpr (by simpa using hnone'), List.filter_eq_self.mpr (by simpa using hnone)] at hall
          simp only [amountOwed_result, owed_perm h hall, h.isEmpty_eq]

/-! ### Buckets -/

/-- The items of a unit type, or without one, that are invoiced for a bucket. -/
def invoicedOf (subscriptionId : String) (p : Interval × Bucket) (unitType : Option String)
    (existing : List InvoiceItem) : List InvoiceItem :=
  existing.filter fun x => concerns subscriptionId p x.toInvoiceLine && decide (x.unitType = unitType)

theorem invoicedOf_eq (subscriptionId : String) (p : Interval × Bucket) (unitType : Option String)
    (existing : List InvoiceItem) : invoicedOf subscriptionId p unitType existing =
      ((p.1.relevantItems subscriptionId existing).filter (overlaps p.2)).filter (·.unitType = unitType) := by
  rw [filter_overlaps, List.filter_filter, invoicedOf]
  simp only [Bool.and_comm]

/-- What a bucket adds does not depend on the order of the items that exist, but for the item that an error names. -/
theorem outcome_perm (h : items'.Perm items) {p : Interval × Bucket}
    (hsums : ∀ unitType : Option String, SameSums (invoicedOf subscriptionId p unitType items')
      (invoicedOf subscriptionId p unitType items)) :
    (outcome subscriptionId items' p).mapError Error.kind = (outcome subscriptionId items p).mapError Error.kind := by
  simp only [invoicedOf_eq] at hsums
  have hitems : (p.1.relevantItems subscriptionId items').Perm (p.1.relevantItems subscriptionId items) := h.filter _
  have hlines := bucketLines_perm (i := p.1) (b := p.2) (hitems.filter (overlaps p.2)) hsums
  rw [outcome, outcome, reconcileBucket_result, reconcileBucket_result, mapError_bind, mapError_bind]
  apply Corresponds.eq
  apply (billedFor_perm hitems).bind
  rintro _ _ ⟨rfl, rfl⟩
  rw [mapError_bind, mapError_bind]
  apply Corresponds.bind_same
  intro types
  split
  · exact .refl _
  · rw [mapError_bind, mapError_bind]
    apply Corresponds.bind_same
    intro rolled
    rw [mapError_bind, mapError_bind, hlines]
    exact .refl _

end Interval
end UsageBilling
