/-! Sets of unit types, kept as lists in the order of the names and without repetition: `mem_ofList`
says which names a set has, `sorted_ofList` that it is in order. -/

namespace UsageBilling.UnitTypes

def insert (x : String) : List String → List String
  | [] => [x]
  | y :: ys => if x = y then y :: ys else if x < y then x :: y :: ys else y :: insert x ys

def ofList (xs : List String) : List String := xs.foldr insert []

def inter (xs ys : List String) : List String := xs.filter (· ∈ ys)

theorem mem_insert (x y : String) (ys : List String) : x ∈ insert y ys ↔ x = y ∨ x ∈ ys := by
  induction ys with
  | nil => simp [insert]
  | cons z zs ih =>
      by_cases h : y = z
      · subst h
        simp [insert]
      · by_cases h' : y < z
        · simp [insert, h, h']
        · simp only [insert, h, h', if_false, List.mem_cons, ih]
          constructor <;> rintro (h | h | h) <;> simp [h]

theorem mem_ofList (x : String) (xs : List String) : x ∈ ofList xs ↔ x ∈ xs := by
  induction xs with
  | nil => simp [ofList]
  | cons y ys ih =>
      rw [show ofList (y :: ys) = insert y (ofList ys) from rfl, mem_insert, ih, List.mem_cons]

theorem sorted_insert (x : String) {ys : List String} (h : ys.Pairwise (· < ·)) :
    (insert x ys).Pairwise (· < ·) := by
  induction ys with
  | nil => simp [insert]
  | cons y ys ih =>
      obtain ⟨hy, hys⟩ := List.pairwise_cons.mp h
      by_cases hxy : x = y
      · rw [insert, if_pos hxy]
        exact h
      · by_cases hlt : x < y
        · rw [insert, if_neg hxy, if_pos hlt]
          refine List.pairwise_cons.mpr ⟨fun z hz => ?_, h⟩
          rcases List.mem_cons.mp hz with rfl | hz
          · exact hlt
          · exact String.lt_trans hlt (hy z hz)
        · rw [insert, if_neg hxy, if_neg hlt]
          have hyx : y < x := by
            have hle := String.not_lt.mp hlt
            exact Std.lt_of_le_of_ne hle (fun e => hxy e.symm)
          refine List.pairwise_cons.mpr ⟨fun z hz => ?_, ih hys⟩
          rcases (mem_insert z x ys).mp hz with rfl | hz
          · exact hyx
          · exact hy z hz

theorem sorted_ofList (xs : List String) : (ofList xs).Pairwise (· < ·) := by
  induction xs with
  | nil => exact .nil
  | cons x xs ih => exact sorted_insert x ih

theorem mem_inter (x : String) (xs ys : List String) : x ∈ inter xs ys ↔ x ∈ xs ∧ x ∈ ys := by
  simp [inter]

end UsageBilling.UnitTypes
