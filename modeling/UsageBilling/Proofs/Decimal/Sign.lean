import UsageBilling.Proofs.Decimal.Value

/-! Signs. Rounding keeps the sign of a value, so that sums of numbers that are not below zero are not below
zero (`nonneg_foldlM_add`), and neither are products of such numbers (`nonneg_mul`). -/

namespace UsageBilling.Decimal

/-- A number that is not below zero: an infinite one, or a finite one without a negative value. -/
def Nonneg (d : Decimal) : Prop := d = infinity false ∨ d.IsFinite ∧ 0 ≤ d.value

theorem nonneg_zero : zero.Nonneg := Or.inr ⟨isFinite_zero, by rw [value_zero]⟩

theorem nonneg_iff {d : Decimal} : d.Nonneg ↔ d.below zero = .ok false := by
  cases d with
  | finite n c e =>
      rw [Nonneg, below_eq (isFinite_finite n c e) isFinite_zero, value_zero]
      simp
  | infinity n => cases n <;> simp [Nonneg, below, compare?, zero, ofNat, IsFinite]
  | nan => simp [Nonneg, below, compare?, IsFinite]

theorem nonneg_of_zero_below {d : Decimal} (h : zero.below d = .ok true) : d.Nonneg := by
  cases d with
  | finite n c e =>
      rw [below_eq isFinite_zero (isFinite_finite n c e), value_zero] at h
      exact Or.inr ⟨isFinite_finite n c e, (of_decide_eq_true (Except.ok.inj h)).le⟩
  | infinity n =>
      cases n with
      | false => exact Or.inl rfl
      | true => cases h
  | nan => cases h

theorem nonneg_of_round {negative : Bool} {c : Nat} {e : Int} {d : Decimal}
    (h : 0 ≤ (finite negative c e).value) (hr : money.round negative c e = .ok d) : d.Nonneg := by
  have hfinite := (holds_of_round hr).1
  rcases Nat.eq_zero_or_pos c with rfl | hc
  · rw [Context.round, if_pos rfl] at hr
    obtain rfl := Except.ok.inj hr
    exact Or.inr ⟨hfinite, by rw [value_finite_zero]⟩
  · obtain ⟨a, t, rfl⟩ := Context.finite_of_round hr
    refine Or.inr ⟨hfinite, ?_⟩
    have hpos := scaled_pos (e := e) hc
    rw [value_finite] at h ⊢
    cases negative with
    | true =>
        rw [if_pos rfl] at h
        linarith
    | false =>
        rw [if_neg Bool.false_ne_true, scaled]
        positivity

theorem nonneg_add {a b d : Decimal} (ha : a.Nonneg) (hb : b.Nonneg) (h : a.add b = .ok d) : d.Nonneg := by
  rcases ha with rfl | ⟨ha, hav⟩
  · rcases hb with rfl | ⟨hb, -⟩
    · exact Or.inl (Except.ok.inj h).symm
    · obtain ⟨n, c, e, rfl⟩ := hb.exists
      exact Or.inl (Except.ok.inj h).symm
  · rcases hb with rfl | ⟨hb, hbv⟩
    · obtain ⟨n, c, e, rfl⟩ := ha.exists
      exact Or.inl (Except.ok.inj h).symm
    · obtain ⟨n, c, e, hadd, hvalue⟩ := add_eq ha hb
      exact nonneg_of_round (by rw [hvalue]; exact add_nonneg hav hbv) (hadd ▸ h)

theorem nonneg_foldlM_add {xs : List Decimal} {s t : Decimal} (hs : s.Nonneg) (hxs : ∀ x ∈ xs, x.Nonneg)
    (h : xs.foldlM add s = .ok t) : t.Nonneg := by
  induction xs generalizing s with
  | nil =>
      obtain rfl := pure_eq_ok.mp h
      exact hs
  | cons x xs ih =>
      obtain ⟨hx, hxs⟩ := List.forall_mem_cons.mp hxs
      obtain ⟨u, hu, h⟩ := foldlM_cons_eq_ok.mp h
      exact ih (nonneg_add hs hx hu) hxs h

/-- The exact product of two finite numbers, before it is rounded. -/
theorem mul_eq {a b : Decimal} (ha : a.IsFinite) (hb : b.IsFinite) : ∃ negative c e,
    a.mul b = money.round negative c e ∧ (finite negative c e).value = a.value * b.value := by
  obtain ⟨na, ca, ea, rfl⟩ := ha.exists
  obtain ⟨nb, cb, eb, rfl⟩ := hb.exists
  refine ⟨_, _, _, rfl, ?_⟩
  simp only [value_finite, scaled, zpow_add₀ (show (10 : ℚ) ≠ 0 by norm_num), Nat.cast_mul]
  cases na <;> cases nb <;> simp <;> ring

theorem nonneg_mul {a b d : Decimal} (ha : a.Nonneg) (hb : b.Nonneg) (h : a.mul b = .ok d) : d.Nonneg := by
  have hsign {n : Bool} {c : Nat} {e : Int} (hc : c ≠ 0) (h : 0 ≤ (finite n c e).value) : n = false := by
    have hpos := scaled_pos (e := e) (Nat.pos_of_ne_zero hc)
    rw [value_finite] at h
    cases n with
    | false => rfl
    | true =>
        rw [if_pos rfl] at h
        linarith
  rcases ha with rfl | ⟨ha, hav⟩
  · rcases hb with rfl | ⟨hb, hbv⟩
    · exact Or.inl (Except.ok.inj h).symm
    · obtain ⟨n, c, e, rfl⟩ := hb.exists
      rw [mul] at h
      split at h
      · cases h
      next hc =>
        obtain rfl := hsign hc hbv
        exact Or.inl (Except.ok.inj h).symm
  · rcases hb with rfl | ⟨hb, hbv⟩
    · obtain ⟨n, c, e, rfl⟩ := ha.exists
      rw [mul] at h
      split at h
      · cases h
      next hc =>
        obtain rfl := hsign hc hav
        exact Or.inl (Except.ok.inj h).symm
    · obtain ⟨n, c, e, hmul, hvalue⟩ := mul_eq ha hb
      exact nonneg_of_round (by rw [hvalue]; exact mul_nonneg hav hbv) (hmul ▸ h)

end UsageBilling.Decimal
