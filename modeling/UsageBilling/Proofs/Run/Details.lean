import UsageBilling.Proofs.Interval.Details
import UsageBilling.Proofs.Run.DetailModes
import UsageBilling.Proofs.Run.History

/-! The details of what a run bills. Where the numbers are finite and exact, the details of each new item are read back
as a value that accounts for the item: for the metered units of its bucket, for what they come to and for what was
invoiced before (`details_account`). -/

namespace UsageBilling.Run

variable {request : RunRequest} {given : Option Settings} {inUse : Except Error Settings} {run : Run}
  {existing : List InvoiceItem} {s : Summary InvoiceLine}

/-- The numbers of all buckets of a run are finite, and what is computed of them is exact. -/
def ExactDecimals (run : Run) (existing : List InvoiceItem) : Prop :=
  ∀ is, run.intervals = .ok is → ∀ p ∈ schedule is, Interval.ExactFor run.subscriptionId existing p

/-- The details of each new item account for it. -/
theorem details_account (hcreate : create request given inUse = .ok run)
    (hs : (run.reconcile existing).result = .ok s) (hexact : run.ExactDecimals existing) :
    ∃ is, run.intervals = .ok is ∧ ∀ l ∈ s.items, ∃ p ∈ schedule is, l.ForBucket p.1 p.2 run.subscriptionId ∧
      ∃ types rolled text j, p.1.governingUnitTypes p.2 = .ok types ∧
        RolledUsage.ofRecords p.1.terms.rawUsage run.subscriptionId p.2.start p.2.finish types p.1.terms.invoiceId =
          .ok rolled ∧
        l.details = some text ∧ Json.read? text = some j ∧
        Interval.AccountFor run.subscriptionId existing p rolled l j := by
  obtain ⟨is, outs, his, houts, hsummary⟩ := reconcile_spec hcreate hs
  refine ⟨is, his, fun l hl => ?_⟩
  rw [hsummary.items] at hl
  obtain ⟨out, hout, hl⟩ := List.mem_flatMap.mp hl
  obtain ⟨p, hp, hpo⟩ := exists_of_forall₂_right (mapM_eq_ok.mp houts) hout
  obtain ⟨_, _, -, -, hwithin⟩ := within_of_mem_schedule hcreate his hp
  have hfor := Interval.forBucket_of_outcome (subscription_of_mem_schedule hcreate his hp) hpo
  obtain ⟨types, rolled, j, htypes, hrolled, htext, haccount⟩ :=
    Interval.account_of_outcome hwithin.nonempty (hexact is his p hp) hpo l hl
  exact ⟨p, hp, hfor l hl, types, rolled, j.toText, j.ordered, htypes, hrolled, htext, Json.read?_toText j, haccount⟩

namespace Sample

open UsageBilling.Interval.Sample (firstDay)

def metered : Run := Sample.run [event firstDay [tieredCalls]] [report] february

def meteredJanuary : Interval × Bucket where
  fst := { leased .zero with
    usage := tieredCalls
    terms := metered.terms
    events := [⟨0, event firstDay [tieredCalls], some ["calls"]⟩] }
  snd := (month .zero).2

/-- An item by which four were billed for the calls of January. -/
def billedEarly : InvoiceItem := { paid (.ofNat 4) with usageName := "api", unitType := some "calls" }

def fiveCalls : List Charge :=
  [⟨1, "calls", .ofNat 1, .ofNat 3, .ofNat 2⟩, ⟨2, "calls", .ofNat 1, .ofNat 2, .ofNat 1⟩]

theorem intervals_metered : metered.intervals = .ok [meteredJanuary.1] := by decide +kernel

theorem billedBefore_metered :
    Interval.billedBefore "subscription" meteredJanuary (some "calls") [billedEarly] = [.ofNat 4] := by decide +kernel

theorem amounts_metered {types : List String} {rolled : RolledUsage}
    (htypes : meteredJanuary.1.governingUnitTypes meteredJanuary.2 = .ok types)
    (hrolled : RolledUsage.ofRecords [report] "subscription" firstDay february types "invoice" = .ok rolled) :
    rolled.amounts = [("calls", .ofNat 5)] := by
  have hcalls : meteredJanuary.1.governingUnitTypes meteredJanuary.2 = .ok ["calls"] := by decide +kernel
  obtain rfl := Except.ok.inj (htypes.symm.trans hcalls)
  have hamounts : (RolledUsage.ofRecords [report] "subscription" firstDay february ["calls"] "invoice").map
      (·.amounts) = .ok [("calls", .ofNat 5)] := by decide +kernel
  rw [hrolled] at hamounts
  exact Except.ok.inj hamounts

theorem charges_metered : tieredCalls.consumableCharges "calls" (.ofNat 5) = .ok fiveCalls := by decide +kernel

theorem exactDecimals_metered : metered.ExactDecimals [billedEarly] := by
  intro is his p hp
  obtain rfl := Except.ok.inj (his.symm.trans intervals_metered)
  obtain rfl : p = meteredJanuary := List.mem_singleton.mp hp
  intro types rolled htypes hrolled
  change ∀ a ∈ rolled.amounts, ∀ charges, tieredCalls.consumableCharges a.1 a.2 = .ok charges → _
  rw [amounts_metered htypes hrolled]
  refine List.forall_mem_singleton.mpr fun charges hcharges => ?_
  obtain rfl := Except.ok.inj (hcharges.symm.trans charges_metered)
  have hholds {x : ℚ} (n : Nat) (hn : n < 10 ^ 14) (hx : x = n) : Decimal.money.Holds x :=
    hx ▸ Decimal.holds_natCast hn
  have hworths : fiveCalls.map Charge.worth = [6, 2] := by
    norm_num [fiveCalls, Charge.worth, Decimal.value_ofNat]
  constructor
  · refine ⟨List.forall_mem_cons.mpr ⟨⟨trivial, trivial, trivial, ?_, ?_⟩, List.forall_mem_singleton.mpr
      ⟨trivial, trivial, trivial, ?_, ?_⟩⟩, fun n => ?_⟩
    · exact hholds 6 (by decide) (by norm_num [Charge.worth, Decimal.value_ofNat])
    · exact hholds 3 (by decide) (by norm_num [Decimal.value_ofNat])
    · exact hholds 2 (by decide) (by norm_num [Charge.worth, Decimal.value_ofNat])
    · exact hholds 2 (by decide) (by norm_num [Decimal.value_ofNat])
    · rw [List.map_take, hworths]
      rcases n with _ | _ | n
      · exact hholds 0 (by decide) (by norm_num)
      · exact hholds 6 (by decide) (by norm_num)
      · exact hholds 8 (by decide) (by norm_num)
  · change Decimal.ExactlyOwed _ (Interval.billedBefore "subscription" meteredJanuary (some "calls") [billedEarly])
    rw [billedBefore_metered, hworths]
    refine ⟨List.forall_mem_singleton.mpr trivial, fun n => ?_, ?_⟩
    · cases n with
      | zero => exact hholds 0 (by decide) (by norm_num)
      | succ n => exact hholds 4 (by decide) (by norm_num [Decimal.value_ofNat])
    · exact hholds 4 (by decide) (by norm_num [Decimal.value_ofNat])

end Sample

open Run.Sample in
/-- Of five calls, whose tiers come to eight, four are still billed. The details of the item tell the two tiers and the
four that were billed before. -/
theorem details_account_metered : ∃ l, create tiered (some settings) (.ok settings) = .ok metered ∧
    (metered.reconcile [billedEarly]).result.map (·.items) = .ok [l] ∧ l.amount = .ofNat 4 ∧
      ∃ j entries, l.details.bind Json.read? = some j ∧ j.decimalAt? "quantity" = some (.ofNat 5) ∧
        j.field? "tiers" = some (.list entries) ∧ List.Forall₂ Charge.AddsUp fiveCalls entries ∧
        (entries.map (·.valueAt "amount")).sum = 8 ∧ j.valueAt "previously_billed" = 4 := by
  have hcreate : create tiered (some settings) (.ok settings) = .ok metered := by decide +kernel
  have hamounts : (metered.reconcile [billedEarly]).result.map (·.items.map (·.amount)) = .ok [.ofNat 4] := by
    decide +kernel
  cases hs : (metered.reconcile [billedEarly]).result with
  | error e =>
      rw [hs] at hamounts
      cases hamounts
  | ok s =>
      rw [hs] at hamounts
      have hamounts : s.items.map (·.amount) = [.ofNat 4] := Except.ok.inj hamounts
      obtain ⟨l, hl, hamount⟩ := List.map_eq_singleton_iff.mp hamounts
      obtain ⟨is, his, haccounts⟩ := details_account hcreate hs exactDecimals_metered
      obtain rfl := Except.ok.inj (his.symm.trans intervals_metered)
      obtain ⟨p, hp, -, types, rolled, text, j, htypes, hrolled, htext, hj, haccount⟩ :=
        haccounts l (hl ▸ List.mem_cons_self)
      obtain rfl : p = meteredJanuary := List.mem_singleton.mp hp
      have hrolled := amounts_metered htypes hrolled
      refine ⟨l, hcreate, congrArg Except.ok hl, hamount, j, ?_⟩
      cases haccount with
      | charge _ ha _ _ hkind _ =>
          rw [hrolled] at ha
          obtain rfl := List.mem_singleton.mp ha
          exact absurd (billedBefore_metered.symm.trans hkind.2.1) (List.cons_ne_nil _ _)
      | capacity hpricing _ => cases hpricing
      | tiers _ ha _ hcharges _ hby =>
          rw [hrolled] at ha
          obtain rfl := List.mem_singleton.mp ha
          obtain rfl := Except.ok.inj (hcharges.symm.trans charges_metered)
          obtain ⟨entries, hentries, haddup, hsum⟩ := hby.tiers
          have hprevious : j.valueAt "previously_billed" = 4 := by
            rw [hby.invoiced.valueAt_eq]
            change ((Interval.billedBefore "subscription" meteredJanuary (some "calls") [billedEarly]).map _).sum = _
            rw [billedBefore_metered]
            norm_num [Decimal.value_ofNat]
          refine ⟨entries, by rw [htext]; exact hj, hby.quantity, hentries, haddup, ?_, hprevious⟩
          rw [hsum, hprevious, hamount, Decimal.value_ofNat]
          norm_num

end UsageBilling.Run
