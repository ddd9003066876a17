import UsageBilling.Proofs.Decimal.Sums

/-! Exact sums. Multiples of one power of ten that stay below 28 digits of it are written by the context, and
sums and differences of them are exact wherever they succeed (`sub_of_written`, `Fits.sum_eq`). -/

namespace UsageBilling.Decimal

/-! ### Rounding what is written -/

/-- Rounding to money keeps a written value or fails. -/
theorem value_of_round {negative : Bool} {c : Nat} {e : Int} {d : Decimal}
    (hw : money.Written (finite negative c e).value) (h : money.round negative c e = .ok d) :
    d.IsFinite ∧ d.value = (finite negative c e).value := by
  refine ⟨(holds_of_round h).1, ?_⟩
  rcases Nat.eq_zero_or_pos c with rfl | hc
  · rw [Context.round, if_pos rfl] at h
    rw [← Except.ok.inj h, value_finite_zero, value_finite_zero]
  · rw [Context.Written, abs_value_finite, ← Context.abs_scaled] at hw
    obtain ⟨q, hq⟩ := Context.Written.exact hc hw
    rw [Context.round_exact hc hq] at h
    split at h
    · cases h
    · rw [← Except.ok.inj h, value_finite, value_finite, hq]

theorem add_of_written {a b d : Decimal} (ha : a.IsFinite) (hb : b.IsFinite)
    (hw : money.Written (a.value + b.value)) (h : a.add b = .ok d) : d.IsFinite ∧ d.value = a.value + b.value := by
  obtain ⟨n, c, e, hadd, hvalue⟩ := add_eq ha hb
  rw [← hvalue] at hw ⊢
  exact value_of_round hw (hadd ▸ h)

theorem isFinite_negate {a : Decimal} (ha : a.IsFinite) : a.negate.IsFinite ∧ a.negate.value = -a.value := by
  obtain ⟨n, c, e, rfl⟩ := ha.exists
  refine ⟨trivial, ?_⟩
  rw [negate, value_finite, value_finite]
  cases n <;> simp

theorem sub_of_written {a b d : Decimal} (ha : a.IsFinite) (hb : b.IsFinite)
    (hw : money.Written (a.value - b.value)) (h : a.sub b = .ok d) : d.IsFinite ∧ d.value = a.value - b.value := by
  obtain ⟨hfinite, hvalue⟩ := isFinite_negate hb
  rw [sub_eq_add_neg, ← hvalue] at hw ⊢
  exact add_of_written ha hfinite hw h

/-! ### Multiples of a power of ten -/

/-- A value with at most `k` digits after the decimal point. -/
def MultipleOf (k : Int) (x : ℚ) : Prop := ∃ n : Int, x = n * 10 ^ (-k)

variable {k : Int}

theorem multipleOf_zero (k : Int) : MultipleOf k 0 := ⟨0, by simp⟩

theorem MultipleOf.add {x y : ℚ} (hx : MultipleOf k x) (hy : MultipleOf k y) : MultipleOf k (x + y) := by
  obtain ⟨m, rfl⟩ := hx
  obtain ⟨n, rfl⟩ := hy
  exact ⟨m + n, by push_cast; ring⟩

theorem MultipleOf.sub {x y : ℚ} (hx : MultipleOf k x) (hy : MultipleOf k y) : MultipleOf k (x - y) := by
  obtain ⟨m, rfl⟩ := hx
  obtain ⟨n, rfl⟩ := hy
  exact ⟨m - n, by push_cast; ring⟩

theorem MultipleOf.sum {xs : List ℚ} (h : ∀ x ∈ xs, MultipleOf k x) : MultipleOf k xs.sum := by
  induction xs with
  | nil => exact multipleOf_zero k
  | cons x xs ih =>
      obtain ⟨hx, hxs⟩ := List.forall_mem_cons.mp h
      rw [List.sum_cons]
      exact hx.add (ih hxs)

/-- A multiple of no less than the smallest subnormal number is written where it has at most 28 digits. -/
theorem MultipleOf.written (hk : k ≤ 1000026) {x : ℚ} (h : MultipleOf k x) (hx : |x| < 10 ^ (28 - k)) :
    money.Written x := by
  obtain ⟨n, rfl⟩ := h
  have hten : (0 : ℚ) < 10 ^ (-k) := by positivity
  have habs : |(n : ℚ) * 10 ^ (-k)| = n.natAbs * 10 ^ (-k) := by
    rw [abs_mul, abs_of_pos hten, Nat.cast_natAbs, Int.cast_abs]
  refine ⟨n.natAbs, -k, habs, ?_, ?_⟩
  · rw [habs, sub_eq_add_neg, zpow_add₀ (by norm_num)] at hx
    have hlt : (n.natAbs : ℚ) < 10 ^ (28 : ℤ) := lt_of_mul_lt_mul_right hx hten.le
    rw [← Nat.cast_lt (α := ℚ), cast_pow10]
    exact_mod_cast hlt
  · have htiny : money.tiny = -1000026 := rfl
    omega

/-! ### Sums of lists -/

/-- Multiples of a power of ten whose partial sums stay below 28 digits of it. -/
structure Fits (k : Int) (xs : List Decimal) : Prop where
  multiples : ∀ x ∈ xs, x.IsFinite ∧ MultipleOf k x.value
  bounded : ∀ n, |((xs.take n).map value).sum| < 10 ^ (28 - k)

variable {xs : List Decimal}

theorem Fits.multipleOf_sum (h : Fits k xs) : MultipleOf k (xs.map value).sum :=
  MultipleOf.sum fun v hv => by
    obtain ⟨x, hx, rfl⟩ := List.mem_map.mp hv
    exact (h.multiples x hx).2

theorem Fits.sum_bounded (h : Fits k xs) : |(xs.map value).sum| < 10 ^ (28 - k) := by
  simpa using h.bounded xs.length

theorem foldlM_add_of_multiples (hk : k ≤ 1000026) {s t : Decimal} (hs : s.IsFinite) (hsk : MultipleOf k s.value)
    (hxs : ∀ x ∈ xs, x.IsFinite ∧ MultipleOf k x.value)
    (hbounded : ∀ n, |s.value + ((xs.take n).map value).sum| < 10 ^ (28 - k)) (h : xs.foldlM add s = .ok t) :
    t.IsFinite ∧ t.value = s.value + (xs.map value).sum := by
  induction xs generalizing s with
  | nil =>
      obtain rfl := pure_eq_ok.mp h
      exact ⟨hs, by simp⟩
  | cons x xs ih =>
      obtain ⟨⟨hx, hxk⟩, hxs⟩ := List.forall_mem_cons.mp hxs
      obtain ⟨u, hu, h⟩ := foldlM_cons_eq_ok.mp h
      have hfirst : |s.value + x.value| < 10 ^ (28 - k) := by simpa using hbounded 1
      obtain ⟨hufinite, huvalue⟩ := add_of_written hs hx ((hsk.add hxk).written hk hfirst) hu
      obtain ⟨ht, htvalue⟩ := ih hufinite (huvalue ▸ hsk.add hxk) hxs
        (fun n => by simpa [huvalue, add_assoc] using hbounded (n + 1)) h
      refine ⟨ht, ?_⟩
      rw [htvalue, huvalue, List.map_cons, List.sum_cons, add_assoc]

theorem Fits.sum_eq (hk : k ≤ 1000026) (h : Fits k xs) {t : Decimal} (ht : sum xs = .ok t) :
    t.IsFinite ∧ t.value = (xs.map value).sum := by
  simpa using foldlM_add_of_multiples hk isFinite_zero (by rw [value_zero]; exact multipleOf_zero k) h.multiples
    (fun n => by simpa using h.bounded n) ht

theorem Fits.concat (h : Fits k xs) {x : Decimal} (hx : x.IsFinite) (hxk : MultipleOf k x.value)
    (hbounded : |(xs.map value).sum + x.value| < 10 ^ (28 - k)) : Fits k (xs ++ [x]) := by
  refine ⟨fun y hy => ?_, fun n => ?_⟩
  · rcases List.mem_append.mp hy with hy | hy
    · exact h.multiples y hy
    · rw [List.mem_singleton.mp hy]
      exact ⟨hx, hxk⟩
  · rcases Nat.lt_or_ge xs.length n with hn | hn
    · have hall : (xs ++ [x]).length ≤ n := by
        rw [List.length_append, List.length_singleton]
        exact hn
      rw [List.take_of_length_le hall, List.map_append, List.sum_append, List.map_singleton,
        List.sum_singleton]
      exact hbounded
    · rw [List.take_append_of_le_length hn]
      exact h.bounded n

theorem fits_nil (k : Int) : Fits k [] := by
  refine ⟨by simp, fun n => ?_⟩
  rw [List.take_nil, List.map_nil, List.sum_nil, abs_zero]
  positivity

theorem fits_singleton {x : Decimal} (hx : x.IsFinite) (hxk : MultipleOf k x.value)
    (hbounded : |x.value| < 10 ^ (28 - k)) : Fits k [x] :=
  (fits_nil k).concat hx hxk (by simpa using hbounded)

theorem fits_ofNat {n : Nat} (h : n < 10 ^ 28) : Fits 0 [ofNat n] := by
  refine fits_singleton (isFinite_finite _ _ _) ⟨n, by simp [value_ofNat]⟩ ?_
  rw [value_ofNat, abs_of_nonneg (Nat.cast_nonneg n), sub_zero]
  exact_mod_cast h

theorem bounded_filter {keep : Decimal → Bool} {bound v : ℚ}
    (hkeep : ∀ x ∈ xs, keep x = false → x.value = 0) (h : ∀ n, |v + ((xs.take n).map value).sum| < bound) (n : Nat) :
    |v + (((xs.filter keep).take n).map value).sum| < bound := by
  induction xs generalizing v n with
  | nil => simpa using h 0
  | cons x xs ih =>
      obtain ⟨hx, hkeep⟩ := List.forall_mem_cons.mp hkeep
      have hrest (n : Nat) : |v + x.value + ((xs.take n).map value).sum| < bound := by
        simpa [add_assoc] using h (n + 1)
      cases hk : keep x with
      | false =>
          rw [List.filter_cons_of_neg (by simp [hk])]
          rw [hx hk, add_zero] at hrest
          exact ih hkeep hrest n
      | true =>
          rw [List.filter_cons_of_pos hk]
          cases n with
          | zero => simpa using h 0
          | succ n => simpa [add_assoc] using ih hkeep hrest n

theorem sum_filter_of_zero {keep : Decimal → Bool} (hkeep : ∀ x ∈ xs, keep x = false → x.value = 0) :
    ((xs.filter keep).map value).sum = (xs.map value).sum := by
  induction xs with
  | nil => rfl
  | cons x xs ih =>
      obtain ⟨hx, hkeep⟩ := List.forall_mem_cons.mp hkeep
      cases hk : keep x with
      | false =>
          rw [List.filter_cons_of_neg (by simp [hk]), ih hkeep, List.map_cons, List.sum_cons, hx hk, zero_add]
      | true => rw [List.filter_cons_of_pos hk, List.map_cons, List.sum_cons, ih hkeep, List.map_cons, List.sum_cons]

theorem Fits.filter (h : Fits k xs) {keep : Decimal → Bool} (hkeep : ∀ x ∈ xs, keep x = false → x.value = 0) :
    Fits k (xs.filter keep) where
  multiples x hx := h.multiples x (List.mem_filter.mp hx).1
  bounded n := by simpa using bounded_filter hkeep (v := 0) (by simpa using h.bounded) n

end UsageBilling.Decimal
