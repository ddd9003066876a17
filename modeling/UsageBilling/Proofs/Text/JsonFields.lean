import UsageBilling.Proofs.Decimal.Reading
import UsageBilling.Proofs.Decimal.Value
import UsageBilling.Proofs.Text.JsonReading

/-! The fields of objects that are read back. Where each key is there once, putting fields in order does not change
which value a key has (`field?_ordered`), and numbers that are kept as texts are read with all their digits
(`decimalAt?_ordered`). -/

namespace UsageBilling.Json

variable {fields others : List (String × Json)} {key : String}

/-- The value of a field of an object. The last one of a key counts. -/
def field? : Json → String → Option Json
  | .object fields, key => fields.reverse.lookup key
  | _, _ => none

/-- The number that a text stands for. -/
def decimal? : Json → Option Decimal
  | .text s => Decimal.ofText? s
  | _ => none

def decimalAt? (j : Json) (key : String) : Option Decimal := (j.field? key).bind decimal?

/-- The value of the number in a field, zero where there is no such field. -/
def valueAt (j : Json) (key : String) : ℚ := ((j.decimalAt? key).map Decimal.value).getD 0

theorem valueAt_of_decimalAt? {j : Json} {d : Decimal} (h : j.decimalAt? key = some d) : j.valueAt key = d.value := by
  rw [valueAt, h]
  rfl

theorem valueAt_of_field? {j : Json} (h : j.field? key = none) : j.valueAt key = 0 := by
  rw [valueAt, decimalAt?, h]
  rfl

/-! ### Order -/

theorem mem_of_lookup {x : Json} (h : fields.lookup key = some x) : (key, x) ∈ fields := by
  obtain ⟨before, after, rfl, -⟩ := List.lookup_eq_some_iff.mp h
  exact List.mem_append_right _ List.mem_cons_self

theorem lookup_eq_some_iff_mem (hnodup : (fields.map (·.1)).Nodup) {x : Json} :
    fields.lookup key = some x ↔ (key, x) ∈ fields := by
  refine ⟨mem_of_lookup, fun h => ?_⟩
  cases hlookup : fields.lookup key with
  | none =>
      have hnone := List.lookup_eq_none_iff.mp hlookup (key, x) h
      simp at hnone
  | some y =>
      have hsame := List.inj_on_of_nodup_map hnodup (mem_of_lookup hlookup) h rfl
      rw [(Prod.mk.inj hsame).2]

theorem lookup_perm (hnodup : (fields.map (·.1)).Nodup) (h : others.Perm fields) :
    others.lookup key = fields.lookup key := by
  refine Option.ext fun x => ?_
  rw [lookup_eq_some_iff_mem hnodup, lookup_eq_some_iff_mem ((h.map _).nodup_iff.mpr hnodup), h.mem_iff]

theorem perm_insertField (f : String × Json) (fields : List (String × Json)) :
    (insertField f fields).Perm (f :: fields) := by
  induction fields with
  | nil => exact .refl _
  | cons g gs ih =>
      rw [insertField]
      split
      · exact .refl _
      · exact (ih.cons g).trans (.swap f g gs)

theorem perm_foldr_insertField (fields : List (String × Json)) : (fields.foldr insertField []).Perm fields := by
  induction fields with
  | nil => exact .refl _
  | cons f fields ih => exact (perm_insertField f _).trans (ih.cons f)

theorem foldr_insertField_of_ascending (h : (fields.map (·.1)).Pairwise (· < ·)) :
    fields.foldr insertField [] = fields := by
  induction fields with
  | nil => rfl
  | cons f fields ih =>
      obtain ⟨hfirst, hrest⟩ := List.pairwise_cons.mp h
      rw [List.foldr_cons, ih hrest]
      cases fields with
      | nil => rfl
      | cons g gs => exact if_pos (hfirst g.1 List.mem_cons_self)

theorem orderedAll_eq (xs : List Json) : orderedAll xs = xs.map ordered := by
  induction xs with
  | nil => rfl
  | cons x xs ih => rw [orderedAll, ih, List.map_cons]

theorem orderedFields_eq (fields : List (String × Json)) :
    orderedFields fields = fields.map fun f => (f.1, f.2.ordered) := by
  induction fields with
  | nil => rfl
  | cons f fields ih => rw [orderedFields, ih, List.map_cons]

theorem lookup_orderedFields (fields : List (String × Json)) (key : String) :
    (orderedFields fields).lookup key = (fields.lookup key).map ordered := by
  induction fields with
  | nil => rfl
  | cons f fields ih =>
      obtain ⟨k, x⟩ := f
      rw [orderedFields, List.lookup_cons, List.lookup_cons]
      cases key == k with
      | true => rfl
      | false => exact ih

/-- An object with its fields in order has the values that it had. -/
theorem field?_ordered (hnodup : (fields.map (·.1)).Nodup) (key : String) :
    (object fields).ordered.field? key = (fields.lookup key).map ordered := by
  have hkeys : ((orderedFields fields).map (·.1)) = fields.map (·.1) := by
    rw [orderedFields_eq, List.map_map]
    rfl
  rw [ordered, field?, lookup_perm (hkeys ▸ hnodup) ((List.reverse_perm _).trans (perm_foldr_insertField _)),
    lookup_orderedFields]

theorem ordered_texts {α : Type} {xs : List (String × α)} {f : α → String} (h : (xs.map (·.1)).Pairwise (· < ·)) :
    (object (xs.map fun x => (x.1, text (f x.2)))).ordered = .object (xs.map fun x => (x.1, text (f x.2))) := by
  have hordered : orderedFields (xs.map fun x => (x.1, text (f x.2))) = xs.map fun x => (x.1, text (f x.2)) := by
    rw [orderedFields_eq, List.map_map]
    exact List.map_congr_left fun x _ => by rw [Function.comp_apply, ordered]
  rw [ordered, hordered, foldr_insertField_of_ascending]
  rwa [List.map_map]

theorem decimalAt?_ordered (hnodup : (fields.map (·.1)).Nodup) {d : Decimal}
    (h : fields.lookup key = some (.text d.toText)) : (object fields).ordered.decimalAt? key = some d := by
  rw [decimalAt?, field?_ordered hnodup, h, Option.map_some, ordered, Option.bind_some, decimal?,
    Decimal.ofText?_toText]

end UsageBilling.Json
