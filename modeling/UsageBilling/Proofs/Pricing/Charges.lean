import UsageBilling.Pricing
import UsageBilling.Proofs.Decimal.Sign

/-! The charges for a quantity. Each takes blocks of a tier at the price that the tier has for them
(`mem_consumableCharges`), so that charges at prices that are not below zero have a total that is not below
zero (`nonneg_total`). Capacity usage has the price of one of the tiers (`price_of_capacityTier`). -/

namespace UsageBilling

theorem mem_fillBlocks {usage unitType : String} {blocks : List (Nat × Block)} {quantity : Decimal}
    {charges : List Charge} {rest : Decimal} (h : fillBlocks usage unitType blocks quantity = .ok (charges, rest)) :
    ∀ c ∈ charges, c.blocks.Nonneg ∧ ∃ p ∈ blocks, c.price = p.2.price := by
  induction blocks generalizing quantity charges rest with
  | nil =>
      obtain ⟨rfl, -⟩ := Prod.mk.inj (Except.ok.inj h)
      simp
  | cons p blocks ih =>
      rw [fillBlocks, bind_eq_ok] at h
      obtain ⟨done, -, h⟩ := h
      cases done with
      | true =>
          obtain ⟨rfl, -⟩ := Prod.mk.inj (pure_eq_ok.mp h)
          simp
      | false =>
          obtain ⟨empty, -, h⟩ := bind_eq_ok.mp h
          cases empty with
          | true => cases h
          | false =>
              obtain ⟨⟨used, left⟩, -, h⟩ := bind_eq_ok.mp h
              obtain ⟨charged, hcharged, h⟩ := bind_eq_ok.mp h
              obtain ⟨⟨charges', final⟩, hrest, h⟩ := bind_eq_ok.mp h
              have hin : ∀ c ∈ charges', c.blocks.Nonneg ∧ ∃ q ∈ p :: blocks, c.price = q.2.price := by
                intro c hc
                obtain ⟨hblocks, q, hq, hprice⟩ := ih hrest c hc
                exact ⟨hblocks, q, List.mem_cons_of_mem p hq, hprice⟩
              cases charged with
              | true =>
                  obtain ⟨rfl, -⟩ := Prod.mk.inj (pure_eq_ok.mp h)
                  refine List.forall_mem_cons.mpr ⟨⟨?_, p, List.mem_cons_self, rfl⟩, hin⟩
                  exact Decimal.nonneg_of_zero_below (liftM_decimal_eq_ok.mp hcharged)
              | false =>
                  obtain ⟨rfl, -⟩ := Prod.mk.inj (pure_eq_ok.mp h)
                  exact hin

/-- A charge takes blocks at the price of a tier. -/
theorem mem_consumableCharges {u : Usage} {unitType : String} {quantity : Decimal} {charges : List Charge}
    (h : u.consumableCharges unitType quantity = .ok charges) {c : Charge} (hc : c ∈ charges) :
    c.blocks.Nonneg ∧ ∃ t ∈ u.tiers, ∃ b ∈ t.blocks, c.price = b.price := by
  rw [Usage.consumableCharges] at h
  dsimp only at h
  split at h
  · cases h
  obtain ⟨⟨charges', rest⟩, hfill, h⟩ := bind_eq_ok.mp h
  obtain ⟨exceeds, -, h⟩ := bind_eq_ok.mp h
  cases exceeds with
  | true => cases h
  | false =>
      obtain rfl := pure_eq_ok.mp h
      obtain ⟨hblocks, ⟨n, b⟩, hb, hprice⟩ := mem_fillBlocks hfill c hc
      obtain ⟨⟨m, t⟩, ht, hb⟩ := List.mem_flatMap.mp hb
      obtain ⟨b', hb', heq⟩ := List.mem_map.mp hb
      obtain ⟨⟨t', k⟩, ht', heq'⟩ := List.mem_map.mp ht
      obtain ⟨-, rfl⟩ := Prod.mk.inj heq
      obtain ⟨-, rfl⟩ := Prod.mk.inj heq'
      exact ⟨hblocks, t', List.fst_mem_of_mem_zipIdx ht', b', (List.mem_filter.mp hb').1, hprice⟩

theorem nonneg_total {u : Usage} {unitType : String} {quantity due : Decimal} {charges : List Charge}
    (h : u.consumableCharges unitType quantity = .ok charges)
    (hprices : ∀ t ∈ u.tiers, ∀ b ∈ t.blocks, b.price.below .zero = .ok false) {amounts : List Decimal}
    (hamounts : charges.mapM Charge.amount = .ok amounts) (hdue : Decimal.sum amounts = .ok due) :
    due.Nonneg := by
  refine Decimal.nonneg_foldlM_add Decimal.nonneg_zero (fun x hx => ?_) hdue
  obtain ⟨c, hc, hamount⟩ := exists_of_forall₂_right (mapM_eq_ok.mp hamounts) hx
  obtain ⟨hblocks, t, ht, b, hb, hprice⟩ := mem_consumableCharges h hc
  refine Decimal.nonneg_mul hblocks ?_ hamount
  rw [hprice]
  exact Decimal.nonneg_iff.mpr (hprices t ht b hb)

/-! ### Capacity usage -/

/-- Capacity usage takes the first tier if that covers it, and one of the further tiers otherwise. -/
theorem firstCovering_cons {usage : String} {amounts : List (String × Decimal)} {p : Nat × Tier}
    {tiers : List (Nat × Tier)} {t : CapacityTier} (h : firstCovering usage amounts (p :: tiers) = .ok t) :
    p.2.covers amounts = .ok true ∧ p.2.recurringPrice = some t.price ∨
      p.2.covers amounts = .ok false ∧ firstCovering usage amounts tiers = .ok t := by
  rw [firstCovering, bind_eq_ok] at h
  obtain ⟨covers, hcovers, h⟩ := h
  cases covers with
  | true =>
      refine Or.inl ⟨liftM_decimal_eq_ok.mp hcovers, ?_⟩
      rw [if_pos rfl] at h
      cases hp : p.2.recurringPrice with
      | none =>
          rw [hp] at h
          cases h
      | some price =>
          rw [hp] at h
          rw [← pure_eq_ok.mp h]
  | false => exact Or.inr ⟨liftM_decimal_eq_ok.mp hcovers, h⟩

theorem price_of_firstCovering {usage : String} {amounts : List (String × Decimal)} {tiers : List (Nat × Tier)}
    {t : CapacityTier} (h : firstCovering usage amounts tiers = .ok t) :
    ∃ p ∈ tiers, p.2.recurringPrice = some t.price := by
  induction tiers with
  | nil => cases h
  | cons p tiers ih =>
      rcases firstCovering_cons h with ⟨-, hprice⟩ | ⟨-, hrest⟩
      · exact ⟨p, List.mem_cons_self, hprice⟩
      · obtain ⟨p', hp', hprice⟩ := ih hrest
        exact ⟨p', List.mem_cons_of_mem p hp', hprice⟩

theorem price_of_capacityTier {amounts : List (String × Decimal)} {u : Usage} {t : CapacityTier}
    (h : u.capacityTier amounts = .ok t) : ∃ tier ∈ u.tiers, tier.recurringPrice = some t.price := by
  obtain ⟨p, hp, hprice⟩ := price_of_firstCovering h
  obtain ⟨⟨tier, n⟩, htier, rfl⟩ := List.mem_map.mp hp
  exact ⟨tier, List.fst_mem_of_mem_zipIdx htier, hprice⟩

end UsageBilling
