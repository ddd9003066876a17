import UsageBilling.Decimal.Arithmetic
import UsageBilling.Proofs.Decimal.Rounding
import UsageBilling.Proofs.Sequencing

/-! The values of decimals, and what order and sums do to them. Comparing finite numbers compares their
values (`compare?_eq`). A sum has the exact value where the context holds that (`add_of_holds`), and
always one that the context holds (`holds_of_add`); it depends on the values of its terms only
(`add_congr`). -/

namespace UsageBilling.Decimal

def IsFinite : Decimal → Prop
  | finite .. => True
  | _ => False

def value : Decimal → ℚ
  | finite n c e => signed n c * 10 ^ e
  | _ => 0

@[simp] theorem isFinite_finite (n : Bool) (c : Nat) (e : Int) : (finite n c e).IsFinite := trivial

@[simp] theorem isFinite_zero : zero.IsFinite := trivial

@[simp] theorem value_zero : zero.value = 0 := by
  simp [zero, ofNat, value, signed]

theorem value_ofNat (n : Nat) : (ofNat n).value = n := by
  simp [ofNat, value, signed]

theorem IsFinite.exists {a : Decimal} (h : a.IsFinite) : ∃ n c e, a = finite n c e := by
  cases a with
  | finite n c e => exact ⟨n, c, e, rfl⟩
  | infinity => exact h.elim
  | nan => exact h.elim

theorem cast_signed (n : Bool) (c : Nat) : ((signed n c : Int) : ℚ) = if n then -(c : ℚ) else c := by
  cases n <;> simp [signed]

theorem value_finite (n : Bool) (c : Nat) (e : Int) :
    (finite n c e).value = if n then -scaled c e else scaled c e := by
  rw [value, cast_signed, scaled]
  split <;> ring

theorem abs_value_finite (n : Bool) (c : Nat) (e : Int) : |(finite n c e).value| = scaled c e := by
  rw [value_finite]
  cases n <;> simp [Context.abs_scaled]

theorem value_finite_zero (n : Bool) (e : Int) : (finite n 0 e).value = 0 := by
  cases n <;> simp [value, signed]

/-- The number of units of a value, at an exponent not above its own. -/
theorem inUnits_mul {unit e : Int} (h : unit ≤ e) (n : Bool) (c : Nat) :
    (inUnits unit n c e : ℚ) * 10 ^ unit = (finite n c e).value := by
  have hexp : e = ((e - unit).toNat : Int) + unit := by omega
  rw [inUnits, value, Int.cast_mul, Int.cast_natCast, cast_pow10]
  conv_rhs => rw [hexp, zpow_add₀ (by norm_num), zpow_natCast]
  ring

/-! ### Order -/

theorem compare?_eq {a b : Decimal} (ha : a.IsFinite) (hb : b.IsFinite) :
    compare? a b = some (compare a.value b.value) := by
  obtain ⟨na, ca, ea, rfl⟩ := ha.exists
  obtain ⟨nb, cb, eb, rfl⟩ := hb.exists
  have hten : (0 : ℚ) < 10 ^ min ea eb := by positivity
  rw [compare?, ← inUnits_mul (min_le_left ea eb), ← inUnits_mul (min_le_right ea eb)]
  generalize inUnits (min ea eb) na ca ea = x, inUnits (min ea eb) nb cb eb = y
  rcases lt_trichotomy x y with hlt | rfl | hgt
  · have hlt' : (x : ℚ) * 10 ^ min ea eb < y * 10 ^ min ea eb :=
      mul_lt_mul_of_pos_right (by exact_mod_cast hlt) hten
    rw [compare_lt_iff_lt.mpr hlt, compare_lt_iff_lt.mpr hlt']
  · rw [compare_eq_iff_eq.mpr rfl, compare_eq_iff_eq.mpr rfl]
  · have hgt' : (y : ℚ) * 10 ^ min ea eb < x * 10 ^ min ea eb :=
      mul_lt_mul_of_pos_right (by exact_mod_cast hgt) hten
    rw [compare_gt_iff_gt.mpr hgt, compare_gt_iff_gt.mpr hgt']

theorem equals_iff {a b : Decimal} (ha : a.IsFinite) (hb : b.IsFinite) :
    a.equals b = true ↔ a.value = b.value := by
  rw [equals, compare?_eq ha hb, beq_iff_eq, Option.some.injEq, compare_eq_iff_eq]

theorem below_eq {a b : Decimal} (ha : a.IsFinite) (hb : b.IsFinite) :
    a.below b = .ok (decide (a.value < b.value)) := by
  rw [below, compare?_eq ha hb]
  dsimp only
  rcases lt_trichotomy a.value b.value with hlt | heq | hgt
  · rw [compare_lt_iff_lt.mpr hlt, decide_eq_true hlt]
    rfl
  · rw [compare_eq_iff_eq.mpr heq, heq, decide_eq_false (lt_irrefl _)]
    rfl
  · rw [compare_gt_iff_gt.mpr hgt, decide_eq_false (not_lt.mpr hgt.le)]
    rfl

/-! ### Sums -/

theorem holds_zero : money.Holds 0 := by
  refine ⟨⟨0, 0, by simp [scaled], by decide, by decide⟩, ?_⟩
  rw [abs_zero]
  positivity

/-- The exact sum of two finite numbers, before it is rounded. -/
theorem add_eq {a b : Decimal} (ha : a.IsFinite) (hb : b.IsFinite) : ∃ negative c e,
    a.add b = money.round negative c e ∧ (finite negative c e).value = a.value + b.value := by
  obtain ⟨na, ca, ea, rfl⟩ := ha.exists
  obtain ⟨nb, cb, eb, rfl⟩ := hb.exists
  refine ⟨_, _, _, rfl, ?_⟩
  rw [← inUnits_mul (min_le_left ea eb) na, ← inUnits_mul (min_le_right ea eb) nb, ← add_mul, value_finite,
    scaled, ← Int.cast_add]
  generalize inUnits (min ea eb) na ca ea + inUnits (min ea eb) nb cb eb = s
  rcases lt_trichotomy s 0 with hlt | rfl | hgt
  · have habs : ((s.natAbs : Nat) : ℚ) = -s := by
      rw [Nat.cast_natAbs, abs_of_neg hlt, Int.cast_neg]
    rw [if_pos (by simp [hlt.ne, hlt]), habs]
    ring
  · simp
  · have habs : ((s.natAbs : Nat) : ℚ) = s := by
      rw [Nat.cast_natAbs, abs_of_pos hgt]
    rw [if_neg (by simp [hgt.ne', hgt.le]), habs]

theorem holds_of_round {negative : Bool} {c : Nat} {e : Int} {d : Decimal}
    (h : money.round negative c e = .ok d) : d.IsFinite ∧ money.Holds d.value := by
  obtain ⟨a, t, rfl⟩ := Context.finite_of_round h
  refine ⟨trivial, ?_⟩
  rcases Nat.eq_zero_or_pos c with rfl | hc
  · rw [Context.round, if_pos rfl] at h
    obtain ⟨rfl, -⟩ : 0 = a ∧ _ := by simpa using h
    rw [value_finite_zero]
    exact holds_zero
  · refine (Context.holds_of_round hc h).of_abs_eq ?_
    rw [abs_value_finite, Context.abs_scaled]

theorem round_of_holds {negative : Bool} {c : Nat} {e : Int} (h : money.Holds (finite negative c e).value) :
    ∃ d, money.round negative c e = .ok d ∧ d.value = (finite negative c e).value := by
  rcases Nat.eq_zero_or_pos c with rfl | hc
  · exact ⟨_, by rw [Context.round, if_pos rfl], by rw [value_finite_zero, value_finite_zero]⟩
  · have hscaled : money.Holds (scaled c e) := h.of_abs_eq (by rw [abs_value_finite, Context.abs_scaled])
    obtain ⟨q, f, hround, hq⟩ := Context.round_of_holds hc hscaled
    exact ⟨_, hround, by rw [value_finite, value_finite, hq]⟩

theorem round_congr {n n' : Bool} {c c' : Nat} {e e' : Int} {d : Decimal}
    (h : (finite n c e).value = (finite n' c' e').value) (hr : money.round n c e = .ok d) :
    ∃ d', money.round n' c' e' = .ok d' ∧ d'.value = d.value := by
  have hscaled : scaled c e = scaled c' e' := by
    rw [← abs_value_finite n, ← abs_value_finite n', h]
  rcases Nat.eq_zero_or_pos c with rfl | hc
  · have hc' : c' = 0 := by
      refine Nat.eq_zero_of_not_pos fun hpos => ?_
      exact absurd (pos_of_scaled_eq hpos hscaled.symm) (Nat.lt_irrefl 0)
    subst hc'
    rw [Context.round, if_pos rfl] at hr
    exact ⟨_, by rw [Context.round, if_pos rfl],
      by rw [← Except.ok.inj hr, value_finite_zero, value_finite_zero]⟩
  · have hpos := scaled_pos (e := e) hc
    have hn : n' = n := by
      rw [value_finite, value_finite, ← hscaled] at h
      cases n <;> cases n' <;> simp at h ⊢ <;> linarith
    subst hn
    obtain ⟨a, t, rfl⟩ := Context.finite_of_round hr
    obtain ⟨b, s, hround, hsame⟩ := Context.round_congr hc hscaled hr
    exact ⟨_, hround, by rw [value_finite, value_finite, hsame]⟩

theorem add_of_holds {a b : Decimal} (ha : a.IsFinite) (hb : b.IsFinite) (h : money.Holds (a.value + b.value)) :
    ∃ d, a.add b = .ok d ∧ d.IsFinite ∧ d.value = a.value + b.value := by
  obtain ⟨n, c, e, hadd, hvalue⟩ := add_eq ha hb
  rw [← hvalue] at h
  obtain ⟨d, hd, hsame⟩ := round_of_holds h
  exact ⟨d, hadd.trans hd, (holds_of_round hd).1, hsame.trans hvalue⟩

theorem holds_of_add {a b d : Decimal} (ha : a.IsFinite) (hb : b.IsFinite) (h : a.add b = .ok d) :
    d.IsFinite ∧ money.Holds d.value := by
  obtain ⟨n, c, e, hadd, -⟩ := add_eq ha hb
  exact holds_of_round (hadd ▸ h)

theorem add_congr {a b a' b' d : Decimal} (ha : a.IsFinite) (hb : b.IsFinite) (ha' : a'.IsFinite)
    (hb' : b'.IsFinite) (haa' : a.value = a'.value) (hbb' : b.value = b'.value) (h : a.add b = .ok d) :
    ∃ d', a'.add b' = .ok d' ∧ d'.IsFinite ∧ d'.value = d.value := by
  obtain ⟨n, c, e, hadd, hvalue⟩ := add_eq ha hb
  obtain ⟨n', c', e', hadd', hvalue'⟩ := add_eq ha' hb'
  have hsum : (finite n c e).value = (finite n' c' e').value := by rw [hvalue, hvalue', haa', hbb']
  obtain ⟨d', hd', hsame⟩ := round_congr hsum (hadd ▸ h)
  exact ⟨d', hadd'.trans hd', (holds_of_round hd').1, hsame⟩

end UsageBilling.Decimal
