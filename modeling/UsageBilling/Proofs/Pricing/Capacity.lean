import Mathlib.Order.Nat
import UsageBilling.Proofs.Pricing.Order

/-! The tier that capacity usage takes. A tier covers some amounts if each unit type with usage has a limit in it,
the last one listed counting, that admits its amount (`Tier.Covers`). Where no limit that counts is a NaN, asking a
tier says just that (`Tier.covers_spec`), so that the search ends at the least covering tier, whatever further tiers
cost (`capacityTier_cases`). Which tiers cover some amounts depends neither on their order (`covers_perm`) nor on
units without usage, and a tier that covers some amounts covers smaller ones (`Tier.Covers.mono`). A limit that is a
NaN has no order, so that the search fails at it (`nan_limit_is_invalid`). -/

namespace UsageBilling

/-! ### Limits -/

/-- A limit admits an amount if it is unlimited or at least the amount. -/
def Limit.Admits (l : Limit) (amount : Decimal) : Prop :=
  match l.maxValue with
  | none => True
  | some (.finite negative coefficient exponent) =>
      amount.value ≤ (Decimal.finite negative coefficient exponent).value
  | some (.infinity negative) => negative = false
  | some .nan => False

/-- The limit of a tier that counts for a unit type: the last one listed for it. -/
def Tier.LastLimit (t : Tier) (unitType : String) (l : Limit) : Prop :=
  l.unitType = unitType ∧ ∃ before after, t.limits = before ++ l :: after ∧ ∀ m ∈ after, m.unitType ≠ unitType

/-- A tier covers some amounts if each that is not zero has a limit that admits it. -/
def Tier.Covers (t : Tier) (amounts : List (String × Decimal)) : Prop :=
  ∀ p ∈ amounts, p.2.value ≠ 0 → ∃ l, t.LastLimit p.1 l ∧ l.Admits p.2

/-- No limit that counts for an amount that is not zero is a NaN. -/
def Tier.Ordered (t : Tier) (amounts : List (String × Decimal)) : Prop :=
  ∀ p ∈ amounts, p.2.value ≠ 0 → ∀ l, t.LastLimit p.1 l → l.maxValue ≠ some .nan

section

variable {t : Tier} {l : Limit} {unitType : String} {amount : Decimal} {amounts amounts' : List (String × Decimal)}

theorem Tier.limitFor_eq_some : t.limitFor unitType = some l ↔ t.LastLimit unitType l := by
  rw [Tier.limitFor, List.find?_eq_some_iff_append, Tier.LastLimit, decide_eq_true_eq]
  refine and_congr_right fun _ => ?_
  constructor
  · rintro ⟨after, before, hlimits, hafter⟩
    refine ⟨before.reverse, after.reverse, ?_, fun m hm => ?_⟩
    · rw [← List.reverse_reverse t.limits, hlimits]
      simp
    · simpa using hafter m (List.mem_reverse.mp hm)
  · rintro ⟨before, after, hlimits, hafter⟩
    refine ⟨after.reverse, before.reverse, ?_, fun m hm => ?_⟩
    · rw [hlimits]
      simp
    · simpa using hafter m (List.mem_reverse.mp hm)

theorem Tier.ordered_of_limits (h : ∀ l ∈ t.limits, l.maxValue ≠ some .nan) : t.Ordered amounts := by
  rintro p - - l ⟨-, before, after, hlimits, -⟩
  exact h l (hlimits ▸ List.mem_append_right before List.mem_cons_self)

/-- A limit that is no NaN covers the amounts that it admits. -/
theorem Limit.covers_spec (hamount : amount.IsFinite) (hnan : l.maxValue ≠ some .nan) :
    ∃ covered, l.covers amount = .ok covered ∧ (covered = true ↔ l.Admits amount) := by
  rw [Limit.covers, Limit.Admits]
  cases hmax : l.maxValue with
  | none => exact ⟨true, rfl, by simp⟩
  | some most =>
      cases most with
      | finite negative coefficient exponent =>
          exact ⟨_, Decimal.atMost_eq hamount (Decimal.isFinite_finite _ _ _), decide_eq_true_iff⟩
      | infinity negative =>
          obtain ⟨n, c, e, rfl⟩ := hamount.exists
          cases negative with
          | false => exact ⟨true, rfl, by simp⟩
          | true => exact ⟨false, rfl, by simp⟩
      | nan => exact absurd hmax hnan

theorem Limit.Admits.mono {smaller : Decimal} (h : l.Admits amount) (hle : smaller.value ≤ amount.value) :
    l.Admits smaller := by
  unfold Limit.Admits at *
  split at h
  · exact trivial
  · exact hle.trans h
  · exact h
  · exact h

/-! ### Tiers -/

theorem Tier.covers_cons_iff {p : String × Decimal} : t.Covers (p :: amounts) ↔
    (p.2.value ≠ 0 → ∃ l, t.LastLimit p.1 l ∧ l.Admits p.2) ∧ t.Covers amounts :=
  List.forall_mem_cons

/-- Whether a tier covers some finite amounts is found in their order, without a fault. -/
theorem Tier.covers_spec (hfinite : ∀ p ∈ amounts, p.2.IsFinite) (hordered : t.Ordered amounts) :
    ∃ covered, t.covers amounts = .ok covered ∧ (covered = true ↔ t.Covers amounts) := by
  induction amounts with
  | nil => exact ⟨true, rfl, by simp [Tier.Covers]⟩
  | cons p amounts ih =>
      obtain ⟨hp, hfinite⟩ := List.forall_mem_cons.mp hfinite
      obtain ⟨hlimits, hordered⟩ := List.forall_mem_cons.mp hordered
      obtain ⟨covered, hcovered, hiff⟩ := ih hfinite hordered
      have hzero : p.2.equals .zero = true ↔ p.2.value = 0 := by
        rw [Decimal.equals_iff hp Decimal.isFinite_zero, Decimal.value_zero]
      rw [Tier.covers, Tier.covers_cons_iff]
      by_cases hnone : p.2.value = 0
      · rw [if_pos (hzero.mpr hnone)]
        exact ⟨covered, hcovered, by simp [hnone, hiff]⟩
      rw [if_neg (mt hzero.mp hnone)]
      cases hlimit : t.limitFor p.1 with
      | none =>
          refine ⟨false, rfl, iff_of_false Bool.false_ne_true fun h => ?_⟩
          obtain ⟨l, hl, -⟩ := h.1 hnone
          rw [Tier.limitFor_eq_some.mpr hl] at hlimit
          cases hlimit
      | some l =>
          have hlast := Tier.limitFor_eq_some.mp hlimit
          obtain ⟨admitted, hadmitted, hadmits⟩ := Limit.covers_spec hp (hlimits hnone l hlast)
          have hcounts : (p.2.value ≠ 0 → ∃ l, t.LastLimit p.1 l ∧ l.Admits p.2) ↔ l.Admits p.2 := by
            refine ⟨fun h => ?_, fun h _ => ⟨l, hlast, h⟩⟩
            obtain ⟨m, hm, hadmits⟩ := h hnone
            rw [Tier.limitFor_eq_some.mpr hm] at hlimit
            exact Option.some.inj hlimit ▸ hadmits
          dsimp only
          rw [hadmitted, ok_bind, hcounts, ← hadmits, ← hiff]
          cases admitted with
          | true => exact ⟨covered, hcovered, by simp⟩
          | false => exact ⟨false, rfl, by simp⟩

theorem covers_perm (h : amounts'.Perm amounts) : t.Covers amounts' ↔ t.Covers amounts :=
  ⟨fun hc p hp => hc p (h.mem_iff.mpr hp), fun hc p hp => hc p (h.mem_iff.mp hp)⟩

end

/-! ### The least covering tier -/

def Usage.HasTier (u : Usage) (k : Nat) (t : Tier) : Prop := ∃ j, k = j + 1 ∧ u.tiers[j]? = some t

/-- The numbers of the tiers that cover some amounts. -/
def Usage.covering (u : Usage) (amounts : List (String × Decimal)) : Set Nat :=
  {k | ∃ t, u.HasTier k t ∧ t.Covers amounts}

/-- No limit that counts for an amount is a NaN in the tiers up to the least covering one. -/
def Usage.Searchable (u : Usage) (amounts : List (String × Decimal)) : Prop :=
  ∀ k t, u.HasTier k t → (∀ m ∈ u.covering amounts, k ≤ m) → t.Ordered amounts

/-- A tier is the least of those that cover some amounts. -/
def Usage.LeastCovering (u : Usage) (amounts : List (String × Decimal)) (k : Nat) (t : Tier) : Prop :=
  IsLeast (u.covering amounts) k ∧ u.HasTier k t

/-- What comes of taking a numbered tier: it needs a price. -/
def chosen (usage : String) (k : Nat) (t : Tier) : Except Error CapacityTier :=
  match t.recurringPrice with
  | some price => .ok ⟨k, t, price⟩
  | none => .error (.catalog (.tierWithoutPrice k usage))

section

variable {u : Usage} {k k' : Nat} {t t' : Tier} {c : CapacityTier} {amounts amounts' : List (String × Decimal)}

theorem Usage.HasTier.unique (h : u.HasTier k t) (h' : u.HasTier k t') : t = t' := by
  obtain ⟨j, rfl, ht⟩ := h
  obtain ⟨j', hj, ht'⟩ := h'
  obtain rfl : j = j' := Nat.succ.inj hj
  exact Option.some.inj (ht.symm.trans ht')

theorem Usage.LeastCovering.unique (h : u.LeastCovering amounts k t) (h' : u.LeastCovering amounts k' t') :
    k = k' ∧ t = t' := by
  obtain rfl := h.1.unique h'.1
  exact ⟨rfl, h.2.unique h'.2⟩

theorem chosen_eq_ok {usage : String} :
    chosen usage k t = .ok c ↔ t.recurringPrice = some c.price ∧ c.index = k ∧ c.tier = t := by
  rw [chosen]
  obtain ⟨index, tier, price⟩ := c
  cases t.recurringPrice with
  | none => simp
  | some price' =>
      simp only [Except.ok.injEq, CapacityTier.mk.injEq, Option.some.injEq]
      constructor
      · rintro ⟨rfl, rfl, rfl⟩
        exact ⟨rfl, rfl, rfl⟩
      · rintro ⟨rfl, rfl, rfl⟩
        exact ⟨rfl, rfl, rfl⟩

theorem chosen_eq_error {usage : String} {e : Error} : chosen usage k t = .error e ↔
    t.recurringPrice = none ∧ e = .catalog (.tierWithoutPrice k usage) := by
  rw [chosen]
  cases t.recurringPrice with
  | none => simp [eq_comm]
  | some price => simp

/-- The search takes the first tier that covers the amounts. -/
theorem firstCovering_spec {usage : String} {ts : List Tier} (n : Nat) (hfinite : ∀ p ∈ amounts, p.2.IsFinite)
    (hordered : ∀ (j : Nat) (t : Tier), ts[j]? = some t →
      (∀ m < j, ∀ s : Tier, ts[m]? = some s → ¬ s.Covers amounts) → t.Ordered amounts) :
    (∃ j t, ts[j]? = some t ∧ t.Covers amounts ∧ (∀ m < j, ∀ s, ts[m]? = some s → ¬ s.Covers amounts) ∧
      firstCovering usage amounts ((ts.zipIdx n).map fun (t, i) => (i + 1, t)) = chosen usage (n + j + 1) t) ∨
    (∀ t ∈ ts, ¬ t.Covers amounts) ∧
      firstCovering usage amounts ((ts.zipIdx n).map fun (t, i) => (i + 1, t)) =
        .error (.catalog (.noCoveringTier usage amounts)) := by
  induction ts generalizing n with
  | nil => exact Or.inr ⟨by simp, rfl⟩
  | cons t ts ih =>
      have hfirst := hordered 0 t rfl fun m hm => absurd hm (Nat.not_lt_zero m)
      obtain ⟨covered, hcovered, hiff⟩ := Tier.covers_spec hfinite hfirst
      rw [List.zipIdx_cons, List.map_cons, firstCovering, hcovered]
      cases covered with
      | true =>
          refine Or.inl ⟨0, t, rfl, hiff.mp rfl, fun m hm => absurd hm (Nat.not_lt_zero m), ?_⟩
          rw [chosen]
          cases t.recurringPrice <;> rfl
      | false =>
          have hnot : ¬ t.Covers amounts := fun h => Bool.false_ne_true (hiff.mpr h)
          have hbelow {j : Nat} (h : ∀ m < j, ∀ s, ts[m]? = some s → ¬ s.Covers amounts) :
              ∀ m < j + 1, ∀ s, (t :: ts)[m]? = some s → ¬ s.Covers amounts := by
            intro m hm s hs
            cases m with
            | zero => exact Option.some.inj hs ▸ hnot
            | succ m => exact h m (Nat.lt_of_succ_lt_succ hm) s hs
          rcases ih (n + 1) fun j s hs h => hordered (j + 1) s hs (hbelow h) with
            ⟨j, s, hs, hcovers, hbefore, htaken⟩ | ⟨hnone, hfails⟩
          · refine Or.inl ⟨j + 1, s, hs, hcovers, hbelow hbefore, ?_⟩
            rw [← Nat.add_assoc, Nat.add_right_comm n j 1]
            exact htaken
          · exact Or.inr ⟨List.forall_mem_cons.mpr ⟨hnot, hnone⟩, hfails⟩

/-- Capacity usage takes the least covering tier, or there is none. -/
theorem capacityTier_cases (hfinite : ∀ p ∈ amounts, p.2.IsFinite) (hsearch : u.Searchable amounts) :
    (∃ k t, u.LeastCovering amounts k t ∧ u.capacityTier amounts = chosen u.name k t) ∨
    (¬ ∃ t ∈ u.tiers, t.Covers amounts) ∧
      u.capacityTier amounts = .error (.catalog (.noCoveringTier u.name amounts)) := by
  have hordered (j : Nat) (t : Tier) (ht : u.tiers[j]? = some t)
      (hbefore : ∀ m < j, ∀ s, u.tiers[m]? = some s → ¬ s.Covers amounts) : t.Ordered amounts := by
    refine hsearch (j + 1) t ⟨j, rfl, ht⟩ ?_
    rintro _ ⟨s, ⟨m, rfl, hs⟩, hcovers⟩
    exact Nat.succ_le_succ (Nat.not_lt.mp fun hlt => hbefore m hlt s hs hcovers)
  rcases @firstCovering_spec _ u.name u.tiers 0 hfinite hordered with
    ⟨j, t, ht, hcovers, hbefore, htaken⟩ | ⟨hnone, hfails⟩
  · refine Or.inl ⟨j + 1, t, ⟨⟨⟨t, ⟨j, rfl, ht⟩, hcovers⟩, ?_⟩, ⟨j, rfl, ht⟩⟩, ?_⟩
    · rintro _ ⟨s, ⟨m, rfl, hs⟩, hcovered⟩
      exact Nat.succ_le_succ (Nat.not_lt.mp fun hlt => hbefore m hlt s hs hcovered)
    · rw [Nat.zero_add] at htaken
      exact htaken
  · refine Or.inr ⟨?_, hfails⟩
    rintro ⟨s, hs, hcovered⟩
    exact hnone s hs hcovered

theorem covering_nonempty : (u.covering amounts).Nonempty ↔ ∃ t ∈ u.tiers, t.Covers amounts := by
  constructor
  · rintro ⟨_, t, ⟨j, rfl, ht⟩, hcovers⟩
    exact ⟨t, List.mem_of_getElem? ht, hcovers⟩
  · rintro ⟨t, ht, hcovers⟩
    obtain ⟨j, hj⟩ := List.mem_iff_getElem?.mp ht
    exact ⟨j + 1, t, ⟨j, rfl, hj⟩, hcovers⟩

theorem covering_perm (h : amounts'.Perm amounts) : u.covering amounts' = u.covering amounts :=
  Set.ext fun _ => exists_congr fun _ => and_congr_right fun _ => covers_perm h

/-! ### Smaller amounts -/

/-- The amount of a unit type, zero where none is given. -/
def amountOf (amounts : List (String × Decimal)) (unitType : String) : Decimal :=
  (amounts.lookup unitType).getD .zero

/-- Amounts that are not below zero, one for a unit type at most. -/
structure Metered (amounts : List (String × Decimal)) : Prop where
  nodup : (amounts.map (·.1)).Nodup
  finite : ∀ p ∈ amounts, p.2.IsFinite
  nonneg : ∀ p ∈ amounts, 0 ≤ p.2.value

theorem amountOf_of_mem (hnodup : (amounts.map (·.1)).Nodup) {p : String × Decimal} (hp : p ∈ amounts) :
    amountOf amounts p.1 = p.2 := by
  obtain ⟨before, after, rfl⟩ := List.append_of_mem hp
  rw [List.map_append, List.map_cons] at hnodup
  have hbefore : ∀ q ∈ before, (p.1 != q.1) = true := by
    intro q hq
    have hapart := (List.nodup_append.mp hnodup).2.2 q.1 (List.mem_map_of_mem hq) p.1 List.mem_cons_self
    exact bne_iff_ne.mpr hapart.symm
  rw [amountOf, List.lookup_eq_some_iff.mpr ⟨before, after, rfl, hbefore⟩]
  rfl

theorem mem_of_amountOf_ne {unitType : String} (h : (amountOf amounts unitType).value ≠ 0) :
    (unitType, amountOf amounts unitType) ∈ amounts := by
  unfold amountOf at *
  cases hlookup : amounts.lookup unitType with
  | none =>
      rw [hlookup] at h
      exact absurd Decimal.value_zero h
  | some amount =>
      obtain ⟨before, after, rfl, -⟩ := List.lookup_eq_some_iff.mp hlookup
      exact List.mem_append_right before List.mem_cons_self

theorem Tier.Covers.mono (h : t.Covers amounts') (ha : Metered amounts)
    (hle : ∀ unitType, (amountOf amounts unitType).value ≤ (amountOf amounts' unitType).value) :
    t.Covers amounts := by
  intro p hp hne
  have hamount := amountOf_of_mem ha.nodup hp
  have hsmaller := hle p.1
  rw [hamount] at hsmaller
  have hpos : 0 < (amountOf amounts' p.1).value := ((ha.nonneg p hp).lt_of_ne hne.symm).trans_le hsmaller
  obtain ⟨l, hlast, hadmits⟩ := h _ (mem_of_amountOf_ne hpos.ne') hpos.ne'
  exact ⟨l, hlast, hadmits.mono hsmaller⟩

/-- The least tier that covers some amounts is not after the one that covers larger ones. -/
theorem exists_least_le (ha : Metered amounts)
    (hle : ∀ unitType, (amountOf amounts unitType).value ≤ (amountOf amounts' unitType).value)
    (hcovered : (u.covering amounts').Nonempty) :
    ∃ k k', IsLeast (u.covering amounts) k ∧ IsLeast (u.covering amounts') k' ∧ k ≤ k' := by
  have hsubset : u.covering amounts' ⊆ u.covering amounts := fun k ⟨t, ht, hcovers⟩ => ⟨t, ht, hcovers.mono ha hle⟩
  classical
  have hsmaller := Nat.isLeast_find (hcovered.mono hsubset)
  have hlarger := Nat.isLeast_find hcovered
  exact ⟨_, _, hsmaller, hlarger, hsmaller.2 (hsubset hlarger.1)⟩

/-! ### The selection -/

theorem capacityTier_eq_ok (hfinite : ∀ p ∈ amounts, p.2.IsFinite) (hsearch : u.Searchable amounts) :
    u.capacityTier amounts = .ok c ↔
      u.LeastCovering amounts c.index c.tier ∧ c.tier.recurringPrice = some c.price := by
  rcases capacityTier_cases hfinite hsearch with ⟨k, t, hleast, htaken⟩ | ⟨hnone, hfails⟩
  · rw [htaken, chosen_eq_ok]
    constructor
    · rintro ⟨hprice, rfl, rfl⟩
      exact ⟨hleast, hprice⟩
    · rintro ⟨hleast', hprice⟩
      obtain ⟨rfl, rfl⟩ := hleast.unique hleast'
      exact ⟨hprice, rfl, rfl⟩
  · rw [hfails]
    refine iff_of_false nofun ?_
    rintro ⟨⟨hleast, -⟩, -⟩
    exact absurd (covering_nonempty.mp ⟨_, hleast.1⟩) hnone

theorem capacityTier_eq_error (hfinite : ∀ p ∈ amounts, p.2.IsFinite) (hsearch : u.Searchable amounts)
    {e : Error} : u.capacityTier amounts = .error e ↔
      (∃ k t, u.LeastCovering amounts k t ∧ t.recurringPrice = none ∧ e = .catalog (.tierWithoutPrice k u.name)) ∨
      (¬ ∃ t ∈ u.tiers, t.Covers amounts) ∧ e = .catalog (.noCoveringTier u.name amounts) := by
  rcases capacityTier_cases hfinite hsearch with ⟨k, t, hleast, htaken⟩ | ⟨hnone, hfails⟩
  · rw [htaken, chosen_eq_error]
    constructor
    · rintro ⟨hprice, rfl⟩
      exact Or.inl ⟨k, t, hleast, hprice, rfl⟩
    · rintro (⟨k', t', hleast', hprice, rfl⟩ | ⟨hnone, -⟩)
      · obtain ⟨rfl, rfl⟩ := hleast.unique hleast'
        exact ⟨hprice, rfl⟩
      · exact absurd (covering_nonempty.mp ⟨k, hleast.1.1⟩) hnone
  · rw [hfails, Except.error.injEq]
    constructor
    · rintro rfl
      exact Or.inr ⟨hnone, rfl⟩
    · rintro (⟨k, t, hleast, -⟩ | ⟨-, rfl⟩)
      · exact absurd (covering_nonempty.mp ⟨k, hleast.1.1⟩) hnone
      · rfl

/-- An error of the search, with the amounts listed in another order. -/
def Error.listing (amounts : List (String × Decimal)) : Error → Error
  | .catalog (.noCoveringTier usage _) => .catalog (.noCoveringTier usage amounts)
  | e => e

/-- The order of the amounts is seen in the listing of an error only. -/
theorem capacityTier_perm (hfinite : ∀ p ∈ amounts, p.2.IsFinite) (hsearch : u.Searchable amounts)
    (hperm : amounts'.Perm amounts) :
    u.capacityTier amounts' = (u.capacityTier amounts).mapError (Error.listing amounts') := by
  have hfinite' : ∀ p ∈ amounts', p.2.IsFinite := fun p hp => hfinite p (hperm.mem_iff.mp hp)
  have hsearch' : u.Searchable amounts' := by
    intro k t ht hbefore p hp
    rw [covering_perm hperm] at hbefore
    exact hsearch k t ht hbefore p (hperm.mem_iff.mp hp)
  have hcovers : (∃ t ∈ u.tiers, t.Covers amounts') ↔ ∃ t ∈ u.tiers, t.Covers amounts :=
    exists_congr fun t => and_congr_right fun _ => covers_perm hperm
  have hleast (k : Nat) (t : Tier) : u.LeastCovering amounts' k t ↔ u.LeastCovering amounts k t := by
    rw [Usage.LeastCovering, Usage.LeastCovering, covering_perm hperm]
  cases htaken : u.capacityTier amounts with
  | ok c =>
      rw [capacityTier_eq_ok hfinite hsearch, ← hleast] at htaken
      exact (capacityTier_eq_ok hfinite' hsearch').mpr htaken
  | error e =>
      rw [capacityTier_eq_error hfinite hsearch] at htaken
      refine (capacityTier_eq_error hfinite' hsearch').mpr ?_
      rcases htaken with ⟨k, t, ht, hprice, rfl⟩ | ⟨hnone, rfl⟩
      · exact Or.inl ⟨k, t, (hleast k t).mpr ht, hprice, rfl⟩
      · exact Or.inr ⟨mt hcovers.mp hnone, rfl⟩

end

/-- Capacity usage takes the least tier that covers its amounts. It fails if that tier has no price, whatever
further tiers cost, or if no tier covers the amounts; no limit that counts for an amount may be a NaN. The order of
the amounts makes no difference but to the listing in the last error. Amounts that are no larger than others have a
least tier if those do, and not a later one. -/
theorem capacityTier_least (u : Usage) :
    (∀ amounts, (∀ p ∈ amounts, p.2.IsFinite) → u.Searchable amounts →
      (∀ c, u.capacityTier amounts = .ok c ↔
        u.LeastCovering amounts c.index c.tier ∧ c.tier.recurringPrice = some c.price) ∧
      (∀ e, u.capacityTier amounts = .error e ↔
        (∃ k t, u.LeastCovering amounts k t ∧ t.recurringPrice = none ∧ e = .catalog (.tierWithoutPrice k u.name)) ∨
        (¬ ∃ t ∈ u.tiers, t.Covers amounts) ∧ e = .catalog (.noCoveringTier u.name amounts)) ∧
      ∀ amounts', amounts'.Perm amounts →
        u.capacityTier amounts' = (u.capacityTier amounts).mapError (Error.listing amounts')) ∧
    ∀ a b, Metered a → Metered b →
      (∀ unitType, (amountOf a unitType).value ≤ (amountOf b unitType).value) → (∃ t ∈ u.tiers, t.Covers b) →
      ∃ k k', IsLeast (u.covering a) k ∧ IsLeast (u.covering b) k' ∧ k ≤ k' := by
  refine ⟨fun amounts hfinite hsearch => ⟨fun c => ?_, fun e => ?_, fun amounts' hperm => ?_⟩,
    fun a b ha _ hle hcovered => ?_⟩
  · exact capacityTier_eq_ok hfinite hsearch
  · exact capacityTier_eq_error hfinite hsearch
  · exact capacityTier_perm hfinite hsearch hperm
  · exact exists_least_le ha hle (covering_nonempty.mpr hcovered)

namespace Sample

/-- Seats up to ten, or any number of seats and no rooms, or any number of both. -/
def places : Usage where
  name := "places"
  billingMode := .inArrear
  pricing := .capacity
  period := .monthly
  tiers :=
    [⟨[], [⟨"seats", some (.ofNat 10)⟩, ⟨"rooms", some (.ofNat 1)⟩], some (.ofNat 5)⟩,
      ⟨[], [⟨"seats", none⟩], none⟩,
      ⟨[], [⟨"seats", none⟩, ⟨"rooms", none⟩], some (.ofNat 50)⟩]

def unclear : Usage :=
  { places with tiers := [⟨[], [⟨"seats", some .nan⟩], some (.ofNat 5)⟩, ⟨[], [⟨"seats", none⟩], some (.ofNat 9)⟩] }

def twentySeats : List (String × Decimal) := [("seats", .ofNat 20)]

def tenSeats : List (String × Decimal) := [("rooms", .zero), ("seats", .ofNat 10)]

theorem metered_twentySeats : Metered twentySeats := by
  refine ⟨by decide, by simp [twentySeats, Decimal.ofNat], by simp [twentySeats, Decimal.value_ofNat]⟩

theorem metered_tenSeats : Metered tenSeats := by
  refine ⟨by decide, by simp [tenSeats, Decimal.ofNat], by simp [tenSeats, Decimal.value_ofNat]⟩

theorem tenSeats_le (unitType : String) :
    (amountOf tenSeats unitType).value ≤ (amountOf twentySeats unitType).value := by
  by_cases hseats : unitType = "seats"
  · have hten : amountOf tenSeats unitType = .ofNat 10 := by
      rw [hseats]
      decide +kernel
    have htwenty : amountOf twentySeats unitType = .ofNat 20 := by
      rw [hseats]
      decide +kernel
    rw [hten, htwenty, Decimal.value_ofNat, Decimal.value_ofNat]
    norm_num
  · have hzero : amountOf tenSeats unitType = .zero := by
      simp only [amountOf, tenSeats, List.lookup_cons, beq_eq_false_iff_ne.mpr hseats]
      cases unitType == "rooms" <;> rfl
    have hnone : amountOf twentySeats unitType = .zero := by
      simp only [amountOf, twentySeats, List.lookup_cons, beq_eq_false_iff_ne.mpr hseats]
      rfl
    rw [hzero, hnone]

end Sample

/-- Twenty seats take the second tier, which has no price although the third one has; ten seats take no later one. -/
theorem capacityTier_least_places :
    (∃ t, Sample.places.LeastCovering Sample.twentySeats 2 t ∧ t.recurringPrice = none) ∧
      ∃ k, IsLeast (Sample.places.covering Sample.tenSeats) k ∧ k ≤ 2 := by
  obtain ⟨hselects, hsmaller⟩ := capacityTier_least Sample.places
  have hnumbers : ∀ t ∈ Sample.places.tiers, ∀ l ∈ t.limits, l.maxValue ≠ some .nan := by decide
  have hsearch : Sample.places.Searchable Sample.twentySeats := by
    rintro k t ⟨j, -, ht⟩ -
    exact Tier.ordered_of_limits (hnumbers t (List.mem_of_getElem? ht))
  obtain ⟨-, herror, -⟩ := hselects Sample.twentySeats Sample.metered_twentySeats.finite hsearch
  obtain ⟨t, ht, hprice⟩ : ∃ t, Sample.places.LeastCovering Sample.twentySeats 2 t ∧ t.recurringPrice = none := by
    have hfails : Sample.places.capacityTier Sample.twentySeats = .error (.catalog (.tierWithoutPrice 2 "places")) := by
      decide +kernel
    rcases (herror _).mp hfails with ⟨k, t, ht, hprice, he⟩ | ⟨-, he⟩
    · cases he
      exact ⟨t, ht, hprice⟩
    · cases he
  obtain ⟨k, k', hk, hk', hkk'⟩ := hsmaller _ _ Sample.metered_tenSeats Sample.metered_twentySeats
    Sample.tenSeats_le (covering_nonempty.mp ⟨2, ht.1.1⟩)
  obtain rfl := ht.1.unique hk'
  exact ⟨⟨t, ht, hprice⟩, k, hk, hkk'⟩

/-- A limit that is a NaN makes the search fail, although a further tier covers the amounts. -/
theorem nan_limit_is_invalid : ¬ ∀ (u : Usage) (amounts : List (String × Decimal)),
    (∀ p ∈ amounts, p.2.IsFinite) → ∀ k t price, u.LeastCovering amounts k t → t.recurringPrice = some price →
      u.capacityTier amounts = .ok ⟨k, t, price⟩ := by
  intro h
  have hselects := h Sample.unclear [("seats", .ofNat 1)] (by simp [Decimal.ofNat]) 2
    ⟨[], [⟨"seats", none⟩], some (.ofNat 9)⟩ (.ofNat 9) ⟨⟨⟨_, ⟨1, rfl, rfl⟩, ?_⟩, ?_⟩, ⟨1, rfl, rfl⟩⟩ rfl
  · revert hselects
    decide +kernel
  · rintro p hp -
    obtain rfl := List.mem_singleton.mp hp
    exact ⟨⟨"seats", none⟩, Tier.limitFor_eq_some.mp (by decide), trivial⟩
  · rintro _ ⟨t, ⟨j, rfl, ht⟩, hcovers⟩
    refine Nat.succ_le_succ (Nat.pos_of_ne_zero ?_)
    rintro rfl
    obtain rfl := Option.some.inj ht
    obtain ⟨l, hlast, hadmits⟩ := hcovers _ List.mem_cons_self (by simp [Decimal.value_ofNat])
    have hlimit : (⟨[], [⟨"seats", some .nan⟩], some (.ofNat 5)⟩ : Tier).limitFor "seats" =
        some ⟨"seats", some .nan⟩ := by decide
    obtain rfl := Option.some.inj ((Tier.limitFor_eq_some.mpr hlast).symm.trans hlimit)
    exact hadmits

end UsageBilling
