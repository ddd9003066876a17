import UsageBilling.Proofs.Sequencing

/-! Computations that correspond: both fail with the same error, or both succeed with related results. What is
done with related results in corresponding steps corresponds again (`Corresponds.bind`), and so does what is done
with the elements of related lists one after the other (`Corresponds.mapM`, `Corresponds.foldlM`). -/

namespace UsageBilling

variable {α β γ δ ε : Type}

/-- Both computations fail with one error, or their results are related. -/
inductive Corresponds (R : α → β → Prop) : Except ε α → Except ε β → Prop where
  | ok {a : α} {b : β} (h : R a b) : Corresponds R (.ok a) (.ok b)
  | error (e : ε) : Corresponds R (.error e) (.error e)

namespace Corresponds

variable {R : α → β → Prop} {S : γ → δ → Prop} {x : Except ε α} {y : Except ε β}

theorem refl (x : Except ε α) : Corresponds Eq x x := by
  cases x with
  | ok a => exact .ok rfl
  | error e => exact .error e

theorem isOk_eq (h : Corresponds R x y) : x.isOk = y.isOk := by
  cases h with
  | ok _ => rfl
  | error _ => rfl

theorem related {a : α} {b : β} (h : Corresponds R x y) (hx : x = .ok a) (hy : y = .ok b) : R a b := by
  subst hx hy
  cases h with
  | ok h => exact h

theorem exists_ok {a : α} (h : Corresponds R x y) (hx : x = .ok a) : ∃ b, y = .ok b ∧ R a b := by
  subst hx
  cases h with
  | ok h => exact ⟨_, rfl, h⟩

theorem eq {x y : Except ε α} (h : Corresponds Eq x y) : x = y := by
  cases h with
  | ok h => rw [h]
  | error e => rfl

theorem bind (h : Corresponds R x y) {f : α → Except ε γ} {g : β → Except ε δ}
    (hfg : ∀ a b, R a b → Corresponds S (f a) (g b)) : Corresponds S (x >>= f) (y >>= g) := by
  cases h with
  | ok h => exact hfg _ _ h
  | error e => exact .error e

/-- What is done in the same way with one result in two steps corresponds if the steps do. -/
theorem bind_same (x : Except ε α) {f : α → Except ε γ} {g : α → Except ε δ}
    (hfg : ∀ a, Corresponds S (f a) (g a)) : Corresponds S (x >>= f) (x >>= g) := by
  apply (refl x).bind
  rintro a _ rfl
  exact hfg a

theorem mapM {f : α → Except ε γ} {g : β → Except ε δ} {xs : List α} {ys : List β}
    (h : List.Forall₂ (fun a b => Corresponds S (f a) (g b)) xs ys) :
    Corresponds (List.Forall₂ S) (xs.mapM f) (ys.mapM g) := by
  induction h with
  | nil => exact .ok .nil
  | cons hab _ ih =>
      rw [List.mapM_cons, List.mapM_cons]
      apply hab.bind
      intro c d hcd
      apply ih.bind
      intro cs ds hcds
      exact .ok (.cons hcd hcds)

theorem foldlM {f : γ → α → Except ε γ} {g : δ → β → Except ε δ} {xs : List α} {ys : List β} {c : γ} {d : δ}
    (h : List.Forall₂ (fun a b => ∀ c d, S c d → Corresponds S (f c a) (g d b)) xs ys) (hcd : S c d) :
    Corresponds S (xs.foldlM f c) (ys.foldlM g d) := by
  induction h generalizing c d with
  | nil => exact .ok hcd
  | cons hab _ ih =>
      rw [List.foldlM_cons, List.foldlM_cons]
      apply (hab c d hcd).bind
      intro c' d' hcd'
      exact ih hcd'

end Corresponds
end UsageBilling
