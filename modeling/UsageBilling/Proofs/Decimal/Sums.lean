import UsageBilling.Proofs.Decimal.Value
import UsageBilling.Pricing

/-! Sums of decimals up to equality. Numbers that are equal, finite or infinite, add up to equal numbers
(`add_equals`). A sum is settled: it is held by the context, so that adding a zero keeps it
(`add_zero_equals`), and terms that are zero can be left out of a sum (`sum_filter_equals`). -/

namespace UsageBilling.Decimal

/-! ### Equality -/

theorem equals_cases {a b : Decimal} : a.equals b = true ↔
    a.IsFinite ∧ b.IsFinite ∧ a.value = b.value ∨ ∃ n, a = infinity n ∧ b = infinity n := by
  cases a with
  | finite na ca ea =>
      cases b with
      | finite nb cb eb =>
          rw [equals_iff (isFinite_finite na ca ea) (isFinite_finite nb cb eb)]
          simp
      | infinity nb => cases nb <;> simp [equals, compare?, IsFinite]
      | nan => simp [equals, compare?, IsFinite]
  | infinity na =>
      cases b with
      | finite nb cb eb => cases na <;> simp [equals, compare?, IsFinite]
      | infinity nb => cases na <;> cases nb <;> simp [equals, compare?, IsFinite]
      | nan => simp [equals, compare?, IsFinite]
  | nan => simp [equals, compare?, IsFinite]

theorem equals_refl {a : Decimal} (h : a ≠ nan) : a.equals a = true := by
  cases a with
  | finite n c e => exact (equals_iff (isFinite_finite n c e) (isFinite_finite n c e)).mpr rfl
  | infinity n => exact equals_cases.mpr (Or.inr ⟨n, rfl, rfl⟩)
  | nan => exact absurd rfl h

theorem equals_symm {a b : Decimal} (h : a.equals b = true) : b.equals a = true := by
  rcases equals_cases.mp h with ⟨ha, hb, heq⟩ | ⟨n, rfl, rfl⟩
  · exact (equals_iff hb ha).mpr heq.symm
  · exact h

theorem equals_trans {a b c : Decimal} (hab : a.equals b = true) (hbc : b.equals c = true) :
    a.equals c = true := by
  rcases equals_cases.mp hab with ⟨ha, hb, heq⟩ | ⟨n, rfl, rfl⟩
  · rcases equals_cases.mp hbc with ⟨-, hc, heq'⟩ | ⟨n, rfl, rfl⟩
    · exact (equals_iff ha hc).mpr (heq.trans heq')
    · exact hb.elim
  · exact hbc

theorem ne_nan_of_equals {a b : Decimal} (h : a.equals b = true) : a ≠ nan := by
  rintro rfl
  rcases equals_cases.mp h with ⟨ha, -⟩ | ⟨n, hn, -⟩
  · exact ha
  · cases hn

theorem ne_nan_of_isFinite {a : Decimal} (h : a.IsFinite) : a ≠ nan := by
  rintro rfl
  exact h

/-- What is equal to a finite number is finite and has its value. -/
theorem isFinite_of_equals {a b : Decimal} (h : a.equals b = true) (hb : b.IsFinite) :
    a.IsFinite ∧ a.value = b.value := by
  rcases equals_cases.mp h with ⟨ha, -, heq⟩ | ⟨n, -, rfl⟩
  · exact ⟨ha, heq⟩
  · exact hb.elim

/-! ### Sums of equal numbers -/

theorem add_equals {a b a' b' d : Decimal} (ha : a.equals a' = true) (hb : b.equals b' = true)
    (h : a.add b = .ok d) : ∃ d', a'.add b' = .ok d' ∧ d.equals d' = true := by
  rcases equals_cases.mp ha with ⟨ha, ha', haa⟩ | ⟨n, rfl, rfl⟩
  · rcases equals_cases.mp hb with ⟨hb, hb', hbb⟩ | ⟨n, rfl, rfl⟩
    · obtain ⟨d', hd', hfinite, hvalue⟩ := add_congr ha hb ha' hb' haa hbb h
      exact ⟨d', hd', (equals_iff (holds_of_add ha hb h).1 hfinite).mpr hvalue.symm⟩
    · obtain ⟨na, ca, ea, rfl⟩ := ha.exists
      obtain ⟨na', ca', ea', rfl⟩ := ha'.exists
      obtain rfl := Except.ok.inj h
      exact ⟨infinity n, rfl, equals_refl nofun⟩
  · rcases equals_cases.mp hb with ⟨hb, hb', -⟩ | ⟨m, rfl, rfl⟩
    · obtain ⟨nb, cb, eb, rfl⟩ := hb.exists
      obtain ⟨nb', cb', eb', rfl⟩ := hb'.exists
      obtain rfl := Except.ok.inj h
      exact ⟨infinity n, rfl, equals_refl nofun⟩
    · refine ⟨d, h, equals_refl ?_⟩
      rw [add] at h
      split at h
      · rw [← Except.ok.inj h]
        nofun
      · cases h

/-- A number is settled when it is infinite, or finite and held by the context. -/
def Settled (d : Decimal) : Prop := d ≠ nan ∧ (d.IsFinite → money.Holds d.value)

theorem settled_zero : zero.Settled := ⟨nofun, fun _ => by rw [value_zero]; exact holds_zero⟩

theorem Settled.congr {a b : Decimal} (h : a.Settled) (hab : a.equals b = true) : b.Settled := by
  refine ⟨ne_nan_of_equals (equals_symm hab), fun hb => ?_⟩
  rcases equals_cases.mp hab with ⟨ha, -, heq⟩ | ⟨n, -, rfl⟩
  · exact heq ▸ h.2 ha
  · exact hb.elim

theorem settled_add {a b d : Decimal} (ha : a ≠ nan) (hb : b ≠ nan) (h : a.add b = .ok d) : d.Settled := by
  cases a with
  | nan => exact absurd rfl ha
  | infinity na =>
      cases b with
      | nan => exact absurd rfl hb
      | infinity nb =>
          rw [add] at h
          split at h
          · rw [← Except.ok.inj h]
            exact ⟨nofun, fun hfinite => hfinite.elim⟩
          · cases h
      | finite nb cb eb =>
          rw [← Except.ok.inj h]
          exact ⟨nofun, fun hfinite => hfinite.elim⟩
  | finite na ca ea =>
      cases b with
      | nan => exact absurd rfl hb
      | infinity nb =>
          rw [← Except.ok.inj h]
          exact ⟨nofun, fun hfinite => hfinite.elim⟩
      | finite nb cb eb =>
          obtain ⟨hfinite, hholds⟩ := holds_of_add (isFinite_finite na ca ea)
            (isFinite_finite nb cb eb) h
          obtain ⟨n, c, e, rfl⟩ := hfinite.exists
          exact ⟨nofun, fun _ => hholds⟩

/-- A number that keeps its value when zero is added is settled. -/
theorem settled_of_add_zero {a d : Decimal} (h : a.add zero = .ok d) (hd : d.equals a = true) : a.Settled :=
  (settled_add (b := zero) (ne_nan_of_equals (equals_symm hd)) nofun h).congr hd

/-- Adding a zero keeps what is settled. -/
theorem add_zero_equals {a z : Decimal} (ha : a.Settled) (hz : z.equals zero = true) :
    ∃ d, a.add z = .ok d ∧ d.equals a = true := by
  rcases equals_cases.mp hz with ⟨hzf, -, hz0⟩ | ⟨n, -, hn⟩
  · obtain ⟨nz, cz, ez, rfl⟩ := hzf.exists
    cases a with
    | nan => exact absurd rfl ha.1
    | infinity n => exact ⟨infinity n, rfl, equals_refl nofun⟩
    | finite n c e =>
        have hsum : (finite n c e).value + (finite nz cz ez).value = (finite n c e).value := by
          rw [hz0, value_zero, add_zero]
        obtain ⟨d, hd, hfinite, hvalue⟩ := add_of_holds (isFinite_finite n c e)
          (isFinite_finite nz cz ez) (by rw [hsum]; exact ha.2 (isFinite_finite n c e))
        exact ⟨d, hd, (equals_iff hfinite (isFinite_finite n c e)).mpr (hvalue.trans hsum)⟩
  · cases hn

/-- What is left of a settled number after nothing was invoiced for it. -/
theorem sub_zero_equals {a z : Decimal} (ha : a.Settled) (hz : z.equals zero = true) :
    ∃ d, a.sub z = .ok d ∧ d.equals a = true := by
  refine add_zero_equals ha ?_
  rcases equals_cases.mp hz with ⟨hzf, -, hz0⟩ | ⟨n, -, hn⟩
  · obtain ⟨n, c, e, rfl⟩ := hzf.exists
    refine (equals_iff (isFinite_finite (!n) c e) isFinite_zero).mpr ?_
    rw [value_finite, value_zero] at *
    cases n <;> simpa using hz0
  · cases hn

theorem sub_zero_value {a d : Decimal} (ha : a.Settled) (hfinite : a.IsFinite) (h : a.sub zero = .ok d) :
    d.IsFinite ∧ d.value = a.value := by
  obtain ⟨d', hd', hequals⟩ := sub_zero_equals ha (equals_refl (a := zero) nofun)
  obtain rfl : d' = d := Except.ok.inj (hd'.symm.trans h)
  exact isFinite_of_equals hequals hfinite

/-! ### Sums of lists -/

theorem add_nan (a : Decimal) : a.add nan = .ok nan := by
  cases a <;> rfl

theorem ne_nan_of_add {a b d : Decimal} (h : a.add b = .ok d) (hd : d ≠ nan) : a ≠ nan ∧ b ≠ nan := by
  constructor
  · rintro rfl
    exact hd (Except.ok.inj h).symm
  · rintro rfl
    rw [add_nan] at h
    exact hd (Except.ok.inj h).symm

variable {xs : List Decimal} {s t : Decimal}

theorem ne_nan_of_foldlM_add (h : xs.foldlM add s = .ok t) (ht : t ≠ nan) : s ≠ nan ∧ ∀ x ∈ xs, x ≠ nan := by
  induction xs generalizing s with
  | nil =>
      obtain rfl := pure_eq_ok.mp h
      exact ⟨ht, by simp⟩
  | cons x xs ih =>
      obtain ⟨u, hu, h⟩ := foldlM_cons_eq_ok.mp h
      obtain ⟨hune, hxs⟩ := ih h
      obtain ⟨hs, hx⟩ := ne_nan_of_add hu hune
      exact ⟨hs, List.forall_mem_cons.mpr ⟨hx, hxs⟩⟩

theorem settled_foldlM_add (hs : s.Settled) (h : xs.foldlM add s = .ok t) (ht : t ≠ nan) : t.Settled := by
  induction xs generalizing s with
  | nil =>
      obtain rfl := pure_eq_ok.mp h
      exact hs
  | cons x xs ih =>
      obtain ⟨u, hu, h⟩ := foldlM_cons_eq_ok.mp h
      obtain ⟨hune, -⟩ := ne_nan_of_foldlM_add h ht
      obtain ⟨hsne, hx⟩ := ne_nan_of_add hu hune
      exact ih (settled_add hsne hx hu) h

/-- Terms that are zero can be left out of a sum. -/
theorem foldlM_add_filter {keep : Decimal → Bool} {s' : Decimal} (hs : s.Settled) (hss : s.equals s' = true)
    (hkeep : ∀ x ∈ xs, keep x = false → x.equals zero = true) (h : xs.foldlM add s = .ok t) (ht : t ≠ nan) :
    ∃ t', (xs.filter keep).foldlM add s' = .ok t' ∧ t.equals t' = true := by
  induction xs generalizing s s' with
  | nil =>
      obtain rfl := pure_eq_ok.mp h
      exact ⟨s', rfl, hss⟩
  | cons x xs ih =>
      obtain ⟨u, hu, h⟩ := foldlM_cons_eq_ok.mp h
      obtain ⟨hune, -⟩ := ne_nan_of_foldlM_add h ht
      obtain ⟨hsne, hx⟩ := ne_nan_of_add hu hune
      have hsettled := settled_add hsne hx hu
      have hrest (y : Decimal) (hy : y ∈ xs) := hkeep y (List.mem_cons_of_mem x hy)
      cases hk : keep x with
      | true =>
          obtain ⟨u', hu', huu⟩ := add_equals hss (equals_refl hx) hu
          obtain ⟨t', ht', htt⟩ := ih hsettled huu hrest h
          rw [List.filter_cons_of_pos hk]
          exact ⟨t', foldlM_cons_eq_ok.mpr ⟨u', hu', ht'⟩, htt⟩
      | false =>
          obtain ⟨v, hv, hvs⟩ := add_zero_equals hs (hkeep x List.mem_cons_self hk)
          obtain rfl : u = v := Except.ok.inj (hu.symm.trans hv)
          rw [List.filter_cons_of_neg (by simp [hk])]
          exact ih hsettled (equals_trans hvs hss) hrest h

theorem sum_filter_equals (keep : Decimal → Bool) (hkeep : ∀ x ∈ xs, keep x = false → x.equals zero = true)
    (h : sum xs = .ok t) (ht : t ≠ nan) : ∃ t', sum (xs.filter keep) = .ok t' ∧ t.equals t' = true :=
  foldlM_add_filter settled_zero (equals_refl nofun) hkeep h ht

/-- Numbers have their exact sum when the context holds each sum of the first ones. -/
theorem foldlM_add_of_holds (hs : s.IsFinite) (hxs : ∀ x ∈ xs, x.IsFinite)
    (hholds : ∀ n, money.Holds (s.value + ((xs.take n).map value).sum)) :
    ∃ t, xs.foldlM add s = .ok t ∧ t.IsFinite ∧ t.value = s.value + (xs.map value).sum := by
  induction xs generalizing s with
  | nil => exact ⟨s, rfl, hs, by simp⟩
  | cons x xs ih =>
      obtain ⟨hx, hxs⟩ := List.forall_mem_cons.mp hxs
      obtain ⟨u, hu, hufinite, huvalue⟩ := add_of_holds hs hx (by simpa using hholds 1)
      obtain ⟨t, ht, htfinite, htvalue⟩ := ih hufinite hxs fun n => by
        simpa [huvalue, add_assoc] using hholds (n + 1)
      refine ⟨t, foldlM_cons_eq_ok.mpr ⟨u, hu, ht⟩, htfinite, ?_⟩
      rw [htvalue, huvalue, List.map_cons, List.sum_cons, add_assoc]

theorem sum_of_holds (hxs : ∀ x ∈ xs, x.IsFinite) (hholds : ∀ n, money.Holds ((xs.take n).map value).sum) :
    ∃ t, sum xs = .ok t ∧ t.IsFinite ∧ t.value = (xs.map value).sum := by
  simpa [sum] using foldlM_add_of_holds isFinite_zero hxs (by simpa using hholds)

theorem sum_singleton_equals (ha : s.Settled) : ∃ t, sum [s] = .ok t ∧ t.equals s = true := by
  have hadd : ∃ t, zero.add s = .ok t ∧ t.equals s = true := by
    cases s with
    | nan => exact absurd rfl ha.1
    | infinity n => exact ⟨infinity n, rfl, equals_refl nofun⟩
    | finite n c e =>
        have hsum : zero.value + (finite n c e).value = (finite n c e).value := by
          rw [value_zero, zero_add]
        obtain ⟨d, hd, hfinite, hvalue⟩ := add_of_holds isFinite_zero (isFinite_finite n c e)
          (by rw [hsum]; exact ha.2 (isFinite_finite n c e))
        exact ⟨d, hd, (equals_iff hfinite (isFinite_finite n c e)).mpr (hvalue.trans hsum)⟩
  obtain ⟨t, ht, hequals⟩ := hadd
  exact ⟨t, foldlM_cons_eq_ok.mpr ⟨t, ht, rfl⟩, hequals⟩

end UsageBilling.Decimal

namespace UsageBilling.Charge

/-- The total of some charges is the sum of their amounts. -/
theorem total_eq_ok {charges : List Charge} {t : Decimal} : total charges = .ok t ↔
    ∃ amounts, charges.mapM amount = .ok amounts ∧ Decimal.sum amounts = .ok t := by
  rw [total]
  simp only [Decimal.sum]
  generalize Decimal.zero = s
  induction charges generalizing s with
  | nil =>
      rw [List.foldlM_nil, List.mapM_nil]
      constructor
      · exact fun h => ⟨[], rfl, h⟩
      · rintro ⟨amounts, h, hsum⟩
        rw [← pure_eq_ok.mp h] at hsum
        exact hsum
  | cons c cs ih =>
      rw [foldlM_cons_eq_ok, List.mapM_cons]
      constructor
      · rintro ⟨u, hu, h⟩
        obtain ⟨a, ha, hu⟩ := bind_eq_ok.mp hu
        obtain ⟨amounts, hamounts, hsum⟩ := (ih u).mp h
        exact ⟨a :: amounts, bind_eq_ok.mpr ⟨a, ha, bind_eq_ok.mpr ⟨amounts, hamounts, rfl⟩⟩,
          foldlM_cons_eq_ok.mpr ⟨u, hu, hsum⟩⟩
      · rintro ⟨_, h, hsum⟩
        obtain ⟨a, ha, h⟩ := bind_eq_ok.mp h
        obtain ⟨amounts, hamounts, h⟩ := bind_eq_ok.mp h
        obtain rfl := pure_eq_ok.mp h
        obtain ⟨u, hu, hsum⟩ := foldlM_cons_eq_ok.mp hsum
        exact ⟨u, bind_eq_ok.mpr ⟨a, ha, hu⟩, (ih u).mpr ⟨amounts, hamounts, hsum⟩⟩

end UsageBilling.Charge
