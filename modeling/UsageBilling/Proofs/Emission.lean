import UsageBilling.Proofs.Sequencing

/-! The entries of a computation that succeeds. A sequence emits what its steps emit, one after the other
(`emits_bind`, `emits_mapM`); a computation without a log emits nothing. -/

namespace UsageBilling.Logged

variable {α β : Type}

/-- A computation succeeds with a result after it has emitted some entries. -/
def Emits (x : Logged α) (es : List LogEntry) (a : α) : Prop := x = ⟨es, .ok a⟩

variable {x : Logged α} {es : List LogEntry} {a b : α}

theorem emits_of_result (h : x.result = .ok a) : x.Emits x.entries a := by
  rw [Emits, ← h]

theorem Emits.result (h : x.Emits es a) : x.result = .ok a := congrArg Logged.result h

theorem Emits.entries (h : x.Emits es a) : x.entries = es := congrArg Logged.entries h

theorem emits_pure : (pure a : Logged α).Emits es b ↔ es = [] ∧ a = b := by
  constructor
  · intro h
    exact ⟨h.entries.symm, Except.ok.inj h.result⟩
  · rintro ⟨rfl, rfl⟩
    rfl

theorem emits_liftM {r : Except Error α} : (liftM r : Logged α).Emits es a ↔ es = [] ∧ r = .ok a := by
  constructor
  · intro h
    exact ⟨h.entries.symm, h.result⟩
  · rintro ⟨rfl, rfl⟩
    rfl

theorem emits_liftM_decimal {r : Except Decimal.Fault α} :
    (liftM r : Logged α).Emits es a ↔ es = [] ∧ r = .ok a := by
  constructor
  · intro h
    exact ⟨h.entries.symm, liftM_decimal_eq_ok.mp h.result⟩
  · rintro ⟨rfl, rfl⟩
    rfl

theorem emits_emit {e : LogEntry} {u : Unit} : (emit e).Emits es u ↔ es = [e] :=
  ⟨fun h => h.entries.symm, fun h => h ▸ rfl⟩

theorem emits_bind {f : α → Logged β} {c : β} : (x >>= f).Emits es c ↔
    ∃ first rest a, x.Emits first a ∧ (f a).Emits rest c ∧ es = first ++ rest := by
  constructor
  · intro h
    have hresult := h.result
    rw [result_bind] at hresult
    obtain ⟨a, ha, hc⟩ := bind_eq_ok.mp hresult
    refine ⟨x.entries, (f a).entries, a, emits_of_result ha, emits_of_result hc, ?_⟩
    rw [← h.entries, bind_ok ha]
  · rintro ⟨first, rest, a, ha, hc, rfl⟩
    rw [Emits, bind_ok ha.result, ha.entries, hc.entries, hc.result]

/-- Steps over a list emit their entries one after the other. -/
theorem emits_mapM {f : α → Logged β} {xs : List α} {ys : List β} (h : (xs.mapM f).Emits es ys) :
    ∃ parts : List (List LogEntry × β), List.Forall₂ (fun x p => (f x).Emits p.1 p.2) xs parts ∧
      es = parts.flatMap (·.1) ∧ ys = parts.map (·.2) := by
  induction xs generalizing es ys with
  | nil =>
      obtain ⟨rfl, rfl⟩ := emits_pure.mp h
      exact ⟨[], .nil, rfl, rfl⟩
  | cons x xs ih =>
      rw [List.mapM_cons] at h
      obtain ⟨first, _, y, hy, htail, rfl⟩ := emits_bind.mp h
      obtain ⟨rest, _, ys, hys, hcons, rfl⟩ := emits_bind.mp htail
      obtain ⟨rfl, rfl⟩ := emits_pure.mp hcons
      obtain ⟨parts, hparts, rfl, rfl⟩ := ih hys
      exact ⟨(first, y) :: parts, .cons hy hparts, by simp, rfl⟩

/-- A computation with fields bound around it emits its entries with these fields. -/
theorem emits_within {bound : Fields} : (within bound x).Emits es a ↔
    ∃ own, x.Emits own a ∧ es = own.map (·.within bound) := by
  constructor
  · intro h
    exact ⟨x.entries, emits_of_result h.result, h.entries.symm⟩
  · rintro ⟨own, rfl, rfl⟩
    rfl

end UsageBilling.Logged
