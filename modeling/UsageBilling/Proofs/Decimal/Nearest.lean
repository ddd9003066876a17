import Mathlib.Tactic.GCongr
import Mathlib.Tactic.NormNum
import UsageBilling.Proofs.Decimal.Sign

/-! Rounding and order. Rounding gives a written value that is as near as any (`nearest_of_round`), and so it keeps
the order of the values that are rounded (`round_mono`): sums and products of larger numbers are not smaller
(`add_mono`, `mul_mono`), and neither are sums of more numbers, if none of them is below zero (`sum_within`). -/

namespace UsageBilling.Decimal

/-- A value is as near to another one as any value is that the context can write. -/
def Nearest (x d : ℚ) : Prop := ∀ y, money.Written y → |x - d| ≤ |x - y|

theorem Nearest.neg {x d : ℚ} (h : Nearest x d) : Nearest (-x) (-d) := by
  intro y hy
  have hneg : money.Written (-y) := by
    rw [Context.Written, abs_neg]
    exact hy
  calc |-x - -d| = |x - d| := by rw [neg_sub_neg, abs_sub_comm]
    _ ≤ |x - -y| := h (-y) hneg
    _ = |-x - y| := by rw [sub_neg_eq_add, ← abs_neg, neg_add']

/-! ### Multiples of a unit -/

/-- A multiple of a unit that lies within half a unit is a nearest one. -/
theorem abs_sub_le_of_half {x u : ℚ} {q k : ℤ} (hu : 0 < u) (hhalf : |x - q * u| ≤ u / 2) :
    |x - q * u| ≤ |x - k * u| := by
  rcases eq_or_ne q k with rfl | hne
  · exact le_refl _
  · have hone : (1 : ℚ) ≤ |(k : ℚ) - q| := by
      have hint : 1 ≤ |k - q| := Int.one_le_abs (sub_ne_zero.mpr hne.symm)
      exact_mod_cast hint
    have hapart : u ≤ |(k : ℚ) * u - q * u| := by
      rw [← sub_mul, abs_mul, abs_of_pos hu]
      exact le_mul_of_one_le_left hu.le hone
    have htriangle : |(k : ℚ) * u - q * u| ≤ |x - q * u| + |x - k * u| := by
      calc |(k : ℚ) * u - q * u| = |(x - q * u) - (x - k * u)| := by ring_nf
        _ ≤ |x - q * u| + |x - k * u| := abs_sub _ _
    linarith

/-- A written value that is not finer than a unit is a multiple of it. -/
theorem exists_multiple {y : ℚ} {m : Nat} {f t : Int} (hy : |y| = scaled m f) (hle : t ≤ f) :
    ∃ k : ℤ, y = k * 10 ^ t := by
  have hmultiple : |y| = ((m * pow10 (f - t).toNat : Nat) : ℤ) * 10 ^ t := by
    rw [hy, ← scaled_shift hle, scaled, Int.cast_natCast]
  rcases abs_cases y with ⟨habs, -⟩ | ⟨habs, -⟩
  · exact ⟨_, habs.symm.trans hmultiple⟩
  · refine ⟨-((m * pow10 (f - t).toNat : Nat) : ℤ), ?_⟩
    rw [Int.cast_neg, neg_mul, ← hmultiple, habs, neg_neg]

/-- A multiple of a unit within half a unit is as near as any written value, if the unit is as fine as written values
get there. -/
theorem nearest_of_half {x : ℚ} {q : Nat} {t : Int} (hhalf : |x - scaled q t| ≤ 10 ^ t / 2)
    (hfine : x = scaled q t ∨ t = money.tiny ∨ 10 ^ (t + 27) ≤ x) : Nearest x (scaled q t) := by
  intro y hwritten
  have hten : (0 : ℚ) < 10 ^ t := by positivity
  have hq : scaled q t = ((q : ℤ) : ℚ) * 10 ^ t := by rw [scaled, Int.cast_natCast]
  rw [hq] at hhalf ⊢
  obtain ⟨m, f, hy, hm, htiny⟩ := hwritten
  rcases lt_or_ge f t with hlt | hge
  · rcases hfine with hexact | rfl | hlead
    · rw [hexact, hq, sub_self, abs_zero]
      exact abs_nonneg _
    · exact absurd hlt (not_lt.mpr htiny)
    · have hbelow : |y| ≤ 10 ^ (t + 27) := by
        have hdigits : (m : ℚ) ≤ 10 ^ (28 : ℤ) := by
          have hlt : (m : ℚ) < pow10 28 := by exact_mod_cast hm
          rw [cast_pow10] at hlt
          exact_mod_cast hlt.le
        calc |y| = m * 10 ^ f := hy
          _ ≤ 10 ^ (28 : ℤ) * 10 ^ (t - 1) := by
              have hexp : (10 : ℚ) ^ f ≤ 10 ^ (t - 1) := zpow_le_zpow_right₀ (by norm_num) (by omega)
              gcongr
          _ = 10 ^ (t + 27) := by
              rw [← zpow_add₀ (by norm_num)]
              congr 1
              ring
      have hpower : (10 : ℚ) ^ (t + 27) = ((10 ^ 27 : ℤ) : ℚ) * 10 ^ t := by
        rw [add_comm, zpow_add₀ (by norm_num)]
        norm_num
      have hnear := abs_sub_le_of_half (k := 10 ^ 27) hten hhalf
      rw [← hpower] at hnear
      calc |x - ((q : ℤ) : ℚ) * 10 ^ t| ≤ |x - 10 ^ (t + 27)| := hnear
        _ = x - 10 ^ (t + 27) := abs_of_nonneg (sub_nonneg.mpr hlead)
        _ ≤ x - y := sub_le_sub_left ((le_abs_self y).trans hbelow) x
        _ ≤ |x - y| := le_abs_self _
  · obtain ⟨k, rfl⟩ := exists_multiple hy hge
    exact abs_sub_le_of_half hten hhalf

/-! ### What rounding gives -/

/-- A coefficient rounded to the end of the context lies within half a unit. -/
theorem abs_sub_halfEven_le {c : Nat} {e t : Int} (hle : e ≤ t) :
    |scaled c e - scaled (halfEven c (pow10 (t - e).toNat)) t| ≤ 10 ^ t / 2 := by
  have hten : (0 : ℚ) < 10 ^ e := by positivity
  have hunit : (10 : ℚ) ^ t = (pow10 (t - e).toNat : ℚ) * 10 ^ e := by
    have hone := scaled_shift (n := 1) hle
    rw [scaled, scaled, one_mul, Nat.cast_one, one_mul] at hone
    exact hone.symm
  have hpos := pow10_pos (t - e).toNat
  rw [scaled, scaled, hunit, ← mul_assoc, ← sub_mul, abs_mul, abs_of_pos hten, mul_div_right_comm]
  refine mul_le_mul_of_nonneg_right ?_ hten.le
  generalize pow10 (t - e).toNat = d at hpos
  have hupper : (2 : ℚ) * (halfEven c d * d) ≤ 2 * c + d := by exact_mod_cast halfEven_mul_le
  have hlower : (2 : ℚ) * c ≤ 2 * (halfEven c d * d) + d := by exact_mod_cast le_halfEven_mul hpos
  rw [abs_le]
  constructor <;> linarith

/-- A coefficient that is carried into a further digit keeps its value. -/
theorem value_of_settle {q : Nat} {t : Int} {negative : Bool} {d : Decimal} (hq : q ≤ pow10 28)
    (h : money.settle negative q t = .ok d) : d.value = (finite negative q t).value := by
  rw [Context.settle] at h
  by_cases hcarried : pow10 money.precision ≤ q
  · obtain rfl : q = pow10 28 := Nat.le_antisymm hq hcarried
    rw [if_pos hcarried, if_pos hcarried] at h
    split at h
    · cases h
    · obtain rfl := Except.ok.inj h
      have hsame : scaled (pow10 28 / 10) (t + 1) = scaled (pow10 28) t := by
        rw [scaled, scaled, zpow_add_one₀ (by norm_num), show pow10 28 / 10 = pow10 27 by decide,
          show pow10 28 = pow10 27 * 10 by decide]
        push_cast
        ring
      rw [value_finite, value_finite, hsame]
  · rw [if_neg hcarried, if_neg hcarried] at h
    split at h
    · cases h
    · rw [← Except.ok.inj h]

/-- What rounding makes of a coefficient: the nearest number of units at its end. -/
theorem value_of_round_pos {c : Nat} {e : Int} {negative : Bool} {d : Decimal} (hc : 0 < c)
    (h : money.round negative c e = .ok d) :
    d.value = (finite negative (halfEven c (pow10 (money.target c e - e).toNat)) (money.target c e)).value := by
  rw [Context.round_of_pos money negative hc] at h
  exact value_of_settle (Context.halfEven_le_pow10 money c e) h

/-- The exponent of a rounded number: that of the number, of the last of 28 digits, or the smallest of all. -/
theorem money_target (c : Nat) (e : Int) : money.target c e = max (max e (e + digitCount c - 28)) money.tiny := rfl

theorem nearest_of_round {c : Nat} {e : Int} {negative : Bool} {d : Decimal}
    (h : money.round negative c e = .ok d) : Nearest (finite negative c e).value d.value := by
  intro y hy
  rcases Nat.eq_zero_or_pos c with rfl | hc
  · rw [Context.round, if_pos rfl] at h
    obtain rfl := Except.ok.inj h
    rw [value_finite_zero, value_finite_zero, sub_zero, abs_zero]
    exact abs_nonneg _
  rw [value_of_round_pos hc h]
  obtain ⟨hle, -, -⟩ := Context.le_target money c e
  have hnearest : Nearest (scaled c e)
      (scaled (halfEven c (pow10 (money.target c e - e).toNat)) (money.target c e)) := by
    apply nearest_of_half (abs_sub_halfEven_le hle)
    have hcases : money.target c e = e ∨ money.target c e = money.tiny ∨
        money.target c e + 27 = e + digitCount c - 1 := by
      rw [money_target]
      omega
    rcases hcases with hkeep | htiny | hlead
    · left
      rw [hkeep, Int.sub_self, Int.toNat_zero, pow10_zero, halfEven_one]
    · exact Or.inr (Or.inl htiny)
    · right
      right
      rw [hlead]
      exact (scaled_bounds hc e).1
  rw [value_finite, value_finite]
  cases negative with
  | false => exact hnearest y hy
  | true => exact hnearest.neg y hy

/-- Values with a nearest one each are in the order of these, unless they are the same. -/
theorem le_of_nearest {x y d d' : ℚ} (hx : Nearest x d) (hy : Nearest y d') (hd : money.Written d)
    (hd' : money.Written d') (hlt : x < y) : d ≤ d' := by
  by_contra hgt
  rw [not_le] at hgt
  -- Both values lie on the same side of the middle as their nearest ones.
  have hupper : d + d' ≤ 2 * x := by
    by_contra hless
    have hnear := hx d' hd'
    rw [abs_of_neg (show x - d < 0 by linarith), neg_sub] at hnear
    rcases abs_cases (x - d') with ⟨habs, -⟩ | ⟨habs, -⟩ <;> linarith
  have hlower : 2 * y ≤ d + d' := by
    by_contra hmore
    have hnear := hy d hd
    rw [abs_of_pos (show 0 < y - d' by linarith)] at hnear
    rcases abs_cases (y - d) with ⟨habs, -⟩ | ⟨habs, -⟩ <;> linarith
  linarith

theorem round_mono {n n' : Bool} {c c' : Nat} {e e' : Int} {d d' : Decimal} (h : money.round n c e = .ok d)
    (h' : money.round n' c' e' = .ok d') (hle : (finite n c e).value ≤ (finite n' c' e').value) :
    d.value ≤ d'.value := by
  rcases hle.lt_or_eq with hlt | heq
  · exact le_of_nearest (nearest_of_round h) (nearest_of_round h') (holds_of_round h).2.written
      (holds_of_round h').2.written hlt
  · obtain ⟨d'', hd'', hsame⟩ := round_congr heq h
    obtain rfl : d' = d'' := Except.ok.inj (h'.symm.trans hd'')
    exact hsame.ge

/-! ### Sums, differences and products -/

variable {a b a' b' d d' : Decimal}

theorem add_mono (ha : a.IsFinite) (hb : b.IsFinite) (ha' : a'.IsFinite) (hb' : b'.IsFinite) (h : a.add b = .ok d)
    (h' : a'.add b' = .ok d') (hle : a.value + b.value ≤ a'.value + b'.value) : d.value ≤ d'.value := by
  obtain ⟨n, c, e, hadd, hvalue⟩ := add_eq ha hb
  obtain ⟨n', c', e', hadd', hvalue'⟩ := add_eq ha' hb'
  rw [← hvalue, ← hvalue'] at hle
  exact round_mono (hadd ▸ h) (hadd' ▸ h') hle

theorem mul_mono (ha : a.IsFinite) (hb : b.IsFinite) (ha' : a'.IsFinite) (hb' : b'.IsFinite) (h : a.mul b = .ok d)
    (h' : a'.mul b' = .ok d') (hle : a.value * b.value ≤ a'.value * b'.value) : d.value ≤ d'.value := by
  obtain ⟨n, c, e, hmul, hvalue⟩ := mul_eq ha hb
  obtain ⟨n', c', e', hmul', hvalue'⟩ := mul_eq ha' hb'
  rw [← hvalue, ← hvalue'] at hle
  exact round_mono (hmul ▸ h) (hmul' ▸ h') hle

theorem le_add_of_written (ha : a.IsFinite) (hb : b.IsFinite) (hw : money.Written a.value) (hpos : 0 ≤ b.value)
    (h : a.add b = .ok d) : a.value ≤ d.value := by
  obtain ⟨n, c, e, hadd, hvalue⟩ := add_eq ha hb
  by_contra hless
  rw [not_le] at hless
  have hnear := nearest_of_round (hadd ▸ h) a.value hw
  rw [hvalue, add_sub_cancel_left, abs_of_nonneg hpos, abs_of_pos (by linarith)] at hnear
  linarith

/-! ### Sums of lists -/

variable {xs ys : List Decimal} {s s' t t' : Decimal}

theorem isFinite_foldlM_add (hs : s.IsFinite) (hxs : ∀ x ∈ xs, x.IsFinite) (h : xs.foldlM add s = .ok t) :
    t.IsFinite := by
  induction xs generalizing s with
  | nil => exact pure_eq_ok.mp h ▸ hs
  | cons x xs ih =>
      obtain ⟨hx, hxs⟩ := List.forall_mem_cons.mp hxs
      obtain ⟨u, hu, h⟩ := foldlM_cons_eq_ok.mp h
      exact ih (holds_of_add hs hx hu).1 hxs h

theorem le_foldlM_add (hs : s.IsFinite) (hw : money.Written s.value) (hxs : ∀ x ∈ xs, x.IsFinite ∧ 0 ≤ x.value)
    (h : xs.foldlM add s = .ok t) : s.value ≤ t.value := by
  induction xs generalizing s with
  | nil => rw [pure_eq_ok.mp h]
  | cons x xs ih =>
      obtain ⟨⟨hx, hpos⟩, hxs⟩ := List.forall_mem_cons.mp hxs
      obtain ⟨u, hu, h⟩ := foldlM_cons_eq_ok.mp h
      obtain ⟨hufinite, hholds⟩ := holds_of_add hs hx hu
      calc s.value ≤ u.value := le_add_of_written hs hx hw hpos hu
        _ ≤ t.value := ih hufinite hholds.written hxs h

/-- A number that is not below zero, and not above another one. -/
structure Within (a b : Decimal) : Prop where
  finite : a.IsFinite
  finite_bound : b.IsFinite
  nonneg : 0 ≤ a.value
  le : a.value ≤ b.value

/-- Larger and further numbers, none of them below zero, do not add up to less. -/
theorem foldlM_add_mono (hxy : List.SublistForall₂ Within xs ys) (hys : ∀ y ∈ ys, y.IsFinite ∧ 0 ≤ y.value)
    (hs : s.IsFinite) (hs' : s'.IsFinite) (hw : money.Written s'.value) (hstart : s.value ≤ s'.value)
    (h : xs.foldlM add s = .ok t) (h' : ys.foldlM add s' = .ok t') : t.value ≤ t'.value := by
  induction hxy generalizing s s' with
  | nil =>
      rw [← pure_eq_ok.mp h]
      exact hstart.trans (le_foldlM_add hs' hw hys h')
  | cons hxy _ ih =>
      obtain ⟨-, hys⟩ := List.forall_mem_cons.mp hys
      obtain ⟨u, hu, h⟩ := foldlM_cons_eq_ok.mp h
      obtain ⟨u', hu', h'⟩ := foldlM_cons_eq_ok.mp h'
      obtain ⟨hfinite', hholds'⟩ := holds_of_add hs' hxy.finite_bound hu'
      apply ih hys (holds_of_add hs hxy.finite hu).1 hfinite' hholds'.written _ h h'
      exact add_mono hs hxy.finite hs' hxy.finite_bound hu hu' (add_le_add hstart hxy.le)
  | cons_right _ ih =>
      obtain ⟨⟨hy, hpos⟩, hys⟩ := List.forall_mem_cons.mp hys
      obtain ⟨u', hu', h'⟩ := foldlM_cons_eq_ok.mp h'
      obtain ⟨hfinite', hholds'⟩ := holds_of_add hs' hy hu'
      apply ih hys hs hfinite' hholds'.written _ h h'
      exact hstart.trans (le_add_of_written hs' hy hw hpos hu')

theorem nonneg_sum (hxs : ∀ x ∈ xs, x.IsFinite ∧ 0 ≤ x.value) (h : sum xs = .ok t) : t.IsFinite ∧ 0 ≤ t.value := by
  refine ⟨isFinite_foldlM_add isFinite_zero (fun x hx => (hxs x hx).1) h, ?_⟩
  rw [← value_zero]
  apply le_foldlM_add isFinite_zero _ hxs h
  rw [value_zero]
  exact holds_zero.written

theorem sum_within (hxy : List.SublistForall₂ Within xs ys) (hys : ∀ y ∈ ys, y.IsFinite ∧ 0 ≤ y.value)
    (h : sum xs = .ok t) (h' : sum ys = .ok t') : t.Within t' := by
  have hxs : ∀ x ∈ xs, x.IsFinite ∧ 0 ≤ x.value := by
    intro x hx
    obtain ⟨l, hl, -⟩ := List.sublistForall₂_iff.mp hxy
    obtain ⟨y, -, hxy⟩ := exists_of_forall₂_left hl hx
    exact ⟨hxy.finite, hxy.nonneg⟩
  obtain ⟨hfinite, hnonneg⟩ := nonneg_sum hxs h
  refine ⟨hfinite, (nonneg_sum hys h').1, hnonneg, ?_⟩
  apply foldlM_add_mono hxy hys isFinite_zero isFinite_zero _ le_rfl h h'
  rw [value_zero]
  exact holds_zero.written

end UsageBilling.Decimal
