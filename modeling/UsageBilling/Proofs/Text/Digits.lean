import UsageBilling.Text.Digits

/-! Digits read back. The digits of a number, with a point among them or without, are found again in front of a text
that goes on with something else (`pointed_withPoint`), with no zeros in front that they do not need
(`eq_zero_of_head?`). -/

namespace UsageBilling.Digits

variable {ds rest : List Char} {places : Nat}

/-! ### Digits of a number -/

theorem isDigit_of_mem_decimal {n : Nat} {c : Char} (h : c ∈ decimal n) : c.isDigit = true :=
  Nat.isDigit_of_mem_toDigits (by decide) (by decide) h

theorem decimal_ne_nil (n : Nat) : decimal n ≠ [] := Nat.toDigits_ne_nil

theorem eq_zero_of_head? {n : Nat} (h : (decimal n).head? = some '0') : n = 0 := by
  induction n using Nat.strongRecOn with
  | ind n ih =>
      rw [decimal, Nat.toDigits_eq_if (by decide)] at h
      split at h
      next hn =>
        have hcode : n.digitChar.toNat = '0'.toNat := congrArg Char.toNat (Option.some.inj h)
        rw [Nat.toNat_digitChar_of_lt_ten hn] at hcode
        exact Nat.add_left_cancel hcode
      next hn =>
        have hhead : (decimal (n / 10)).head? = some '0' := by
          rw [List.head?_append] at h
          cases hrec : (Nat.toDigits 10 (n / 10)).head? with
          | none => exact absurd (List.head?_eq_none_iff.mp hrec) Nat.toDigits_ne_nil
          | some c =>
              rw [hrec] at h
              exact hrec.trans h
        have hrec := ih (n / 10) (by omega) hhead
        omega

theorem toLower_of_isDigit {c : Char} (h : c.isDigit = true) : c.toLower = c := by
  rw [Char.isDigit, Bool.and_eq_true, decide_eq_true_eq, decide_eq_true_eq] at h
  refine dif_neg ?_
  rintro ⟨hupper, -⟩
  exact absurd (UInt32.le_trans hupper h.2) (by decide)

theorem isDigit_of_mem_filled (hds : ∀ c ∈ ds, c.isDigit = true) {width : Nat} {c : Char}
    (h : c ∈ filled width ds) : c.isDigit = true := by
  rcases List.mem_append.mp h with h | h
  · rw [List.eq_of_mem_replicate h]
    rfl
  · exact hds c h

theorem length_filled (width : Nat) (ds : List Char) : (filled width ds).length = max width ds.length := by
  rw [filled, List.length_append, List.length_replicate]
  omega

/-! ### The point -/

/-- Digits with a point are cut at it. In front of the point are digits that come first, or a zero alone. -/
theorem exists_withPoint (hplaces : places ≠ 0) (ds : List Char) : ∃ whole fraction,
    withPoint ds places = whole ++ '.' :: fraction ∧ filled (places + 1) ds = whole ++ fraction ∧
      fraction.length = places ∧ whole ≠ [] ∧ (whole = ['0'] ∨ whole <+: ds) := by
  have hlength := length_filled (places + 1) ds
  rw [withPoint, if_neg hplaces]
  dsimp only
  obtain ⟨whole, fraction, hcut, hfraction, hwhole⟩ : ∃ whole fraction,
      filled (places + 1) ds = whole ++ fraction ∧ fraction.length = places ∧
        whole.length = (filled (places + 1) ds).length - places :=
    ⟨_, _, (List.take_append_drop ((filled (places + 1) ds).length - places) _).symm,
      by rw [List.length_drop]; omega, by rw [List.length_take]; omega⟩
  refine ⟨whole, fraction, ?_, hcut, hfraction, ?_, ?_⟩
  · rw [← hwhole, hcut, List.take_left, List.drop_left]
  · exact List.ne_nil_of_length_pos (by omega)
  · rw [filled] at hcut
    rcases Nat.lt_or_ge places ds.length with hlong | hshort
    · rw [Nat.sub_eq_zero_of_le hlong, List.replicate_zero, List.nil_append] at hcut
      exact Or.inr ⟨fraction, hcut.symm⟩
    · obtain ⟨k, hk⟩ : ∃ k, places + 1 - ds.length = k + 1 := Nat.exists_eq_add_one.mpr (by omega)
      obtain ⟨c, rfl⟩ := (List.length_eq_one_iff (l := whole)).mp (by omega)
      rw [hk, List.replicate_succ, List.cons_append] at hcut
      rw [← (List.cons.inj hcut).1]
      exact Or.inl rfl

theorem mem_withPoint (hds : ∀ c ∈ ds, c.isDigit = true) {c : Char} (h : c ∈ withPoint ds places) :
    c.isDigit = true ∨ c = '.' := by
  by_cases hplaces : places = 0
  · rw [withPoint, if_pos hplaces] at h
    exact Or.inl (hds c h)
  · obtain ⟨whole, fraction, hpoint, hfilled, -⟩ := exists_withPoint hplaces ds
    have hall : ∀ c ∈ filled (places + 1) ds, c.isDigit = true := fun _ => isDigit_of_mem_filled hds
    rw [hfilled] at hall
    rw [hpoint, List.mem_append, List.mem_cons] at h
    rcases h with h | h | h
    · exact Or.inl (hall _ (List.mem_append_left _ h))
    · exact Or.inr h
    · exact Or.inl (hall _ (List.mem_append_right _ h))

theorem exists_cons_withPoint (hne : ds ≠ []) (hds : ∀ c ∈ ds, c.isDigit = true) (places : Nat) :
    ∃ d more, withPoint ds places = d :: more ∧ d.isDigit = true := by
  by_cases hplaces : places = 0
  · obtain ⟨d, more, rfl⟩ := List.exists_cons_of_ne_nil hne
    rw [withPoint, if_pos hplaces]
    exact ⟨d, more, rfl, hds d List.mem_cons_self⟩
  · obtain ⟨whole, fraction, hpoint, hfilled, -, hwhole, -⟩ := exists_withPoint hplaces ds
    obtain ⟨d, more, rfl⟩ := List.exists_cons_of_ne_nil hwhole
    exact ⟨d, more ++ '.' :: fraction, hpoint, isDigit_of_mem_filled hds (by rw [hfilled]; exact List.mem_cons_self)⟩

/-! ### Reading -/

/-- The digits in front of a point, those behind it, and what follows. -/
def pointed (cs : List Char) : List Char × List Char × List Char :=
  match cs.dropWhile Char.isDigit with
  | '.' :: more => (cs.takeWhile Char.isDigit, more.takeWhile Char.isDigit, more.dropWhile Char.isDigit)
  | more => (cs.takeWhile Char.isDigit, [], more)

/-- A text does not carry on the digits in front of it. -/
def Ended (rest : List Char) : Prop := ∀ c ∈ rest.head?, c.isDigit = false ∧ c ≠ '.'

theorem ended_nil : Ended [] := by
  rintro c ⟨⟩

theorem ended_cons {c : Char} (h : c.isDigit = false ∧ c ≠ '.') (cs : List Char) : Ended (c :: cs) := by
  rintro d ⟨⟩
  exact h

theorem span_digits (hds : ∀ c ∈ ds, c.isDigit = true) (hrest : ∀ c ∈ rest.head?, c.isDigit = false) :
    (ds ++ rest).takeWhile Char.isDigit = ds ∧ (ds ++ rest).dropWhile Char.isDigit = rest := by
  rw [List.takeWhile_append_of_pos hds, List.dropWhile_append_of_pos hds]
  cases rest with
  | nil => exact ⟨List.append_nil ds, rfl⟩
  | cons c cs =>
      have hc : ¬ c.isDigit = true := by simp [hrest c rfl]
      rw [List.takeWhile_cons_of_neg hc, List.dropWhile_cons_of_neg hc, List.append_nil]
      exact ⟨rfl, rfl⟩

theorem pointed_digits (hds : ∀ c ∈ ds, c.isDigit = true) (hrest : Ended rest) :
    pointed (ds ++ rest) = (ds, [], rest) := by
  obtain ⟨htake, hdrop⟩ := span_digits hds fun c hc => (hrest c hc).1
  rw [pointed, htake, hdrop]
  split
  next more _ => exact absurd rfl (hrest '.' rfl).2
  next => rfl

theorem pointed_point {whole fraction : List Char} (hwhole : ∀ c ∈ whole, c.isDigit = true)
    (hfraction : ∀ c ∈ fraction, c.isDigit = true) (hrest : Ended rest) :
    pointed (whole ++ '.' :: fraction ++ rest) = (whole, fraction, rest) := by
  have hpoint : ∀ c ∈ ('.' :: (fraction ++ rest)).head?, c.isDigit = false := by
    rintro c ⟨⟩
    rfl
  obtain ⟨htake, hdrop⟩ := span_digits hwhole hpoint
  obtain ⟨hbehind, hfollows⟩ := span_digits hfraction fun c hc => (hrest c hc).1
  rw [List.append_assoc, List.cons_append, pointed, hdrop, htake]
  change (whole, (fraction ++ rest).takeWhile Char.isDigit, (fraction ++ rest).dropWhile Char.isDigit) = _
  rw [hbehind, hfollows]

/-- Digits with a point are read with their value and as many places as they were written with. -/
theorem pointed_withPoint (hne : ds ≠ []) (hds : ∀ c ∈ ds, c.isDigit = true) (places : Nat) (hrest : Ended rest) :
    ∃ whole fraction, pointed (withPoint ds places ++ rest) = (whole, fraction, rest) ∧ whole ≠ [] ∧
      fraction.length = places ∧ value (whole ++ fraction) = value ds := by
  by_cases hplaces : places = 0
  · rw [withPoint, if_pos hplaces]
    exact ⟨ds, [], pointed_digits hds hrest, hne, hplaces.symm, by rw [List.append_nil]⟩
  · obtain ⟨whole, fraction, hpoint, hfilled, hlength, hwhole, -⟩ := exists_withPoint hplaces ds
    have hall : ∀ c ∈ filled (places + 1) ds, c.isDigit = true := fun _ => isDigit_of_mem_filled hds
    have hvalue := value_filled (places + 1) ds
    rw [hfilled] at hall hvalue
    rw [hpoint]
    exact ⟨whole, fraction, pointed_point (fun c hc => hall c (List.mem_append_left _ hc))
      (fun c hc => hall c (List.mem_append_right _ hc)) hrest, hwhole, hlength, hvalue⟩

end UsageBilling.Digits
