import UsageBilling.Calendar.Zone
import UsageBilling.Proofs.Text.Capitals

/-! How the name of a zone is looked up. A name without `_` has no spelled-out signs and is looked up as it is,
whatever the case of its letters (`ofName?_of_notMem`). -/

namespace UsageBilling

open String.Slice.Pattern String.Slice.Pattern.Model

/-! ### A word that does not occur -/

/-- A text from one place on is what lies up to a later place and the text from there on. -/
theorem copy_sliceFrom_of_le {s : String.Slice} {a b : s.Pos} (h : a ≤ b) :
    (s.sliceFrom a).copy = (s.slice a b h).copy ++ (s.sliceFrom b).copy := by
  have hsplit : (s.sliceTo a).copy ++ (s.sliceFrom a).copy =
      (s.sliceTo a).copy ++ ((s.slice a b h).copy ++ (s.sliceFrom b).copy) := by
    rw [← String.Slice.copy_eq_copy_sliceTo, ← String.append_assoc, ← String.Slice.copy_eq_copy_slice]
  exact (String.append_right_inj _).mp hsplit

/-- Where a word does not occur, what is put in its place is never used: the search gives the text back in pieces. -/
theorem foldl_replaced {word s : String.Slice} (sign : String) (hword : ∀ p q : s.Pos, ¬ IsLongestMatchAt word p q)
    {p : s.Pos} {steps : List (SearchStep s)} (h : IsValidSearchFrom word p steps) (sofar : String) :
    steps.foldl (fun text step => match text, step with
      | text, .matched _ _ => text ++ String.ToSlice.toSlice sign
      | text, .rejected start stop => text ++ s.slice! start stop) sofar = sofar ++ (s.sliceFrom p).copy := by
  induction h generalizing sofar with
  | endPos => rw [List.foldl_nil, String.Slice.copy_sliceFrom_endPos, String.append_empty]
  | matched hmatch _ _ => exact absurd hmatch (hword _ _)
  | @mismatched steps start stop hlt _ _ ih =>
      have hle : start ≤ stop := Std.le_of_lt hlt
      have hslice : s.slice! start stop = s.slice start stop hle := by rw [String.Slice.slice!, dif_pos hle]
      rw [List.foldl_cons, ih]
      dsimp only
      rw [hslice, copy_sliceFrom_of_le hle, ← String.append_assoc]
      rfl

theorem replace_of_notMem {text word : String} {c : Char} (sign : String) (hword : c ∈ word.toList)
    (htext : c ∉ text.toList) : text.replace word sign = text := by
  have hempty : word.toSlice.isEmpty = false := by
    rw [← String.Slice.copy_ne_empty_iff, String.copy_toSlice]
    rintro rfl
    exact List.not_mem_nil hword
  have hnowhere : ∀ p q : text.toSlice.Pos, ¬ IsLongestMatchAt word.toSlice p q := by
    intro p q h
    obtain ⟨before, after, hp, -⟩ := ForwardSliceSearcher.isLongestMatchAt_iff_splits.mp h
    have htext' : text = before ++ (word ++ after) := by
      simpa only [String.copy_toSlice] using hp.eq_append
    apply htext
    rw [htext', String.toList_append, String.toList_append]
    exact List.mem_append_right _ (List.mem_append_left _ hword)
  have hsearch :=
    (ForwardSliceSearcher.lawfulToForwardSearcherModel hempty).isValidSearchFrom_toList text.toSlice
  have hfold := foldl_replaced sign hnowhere hsearch ""
  rw [Std.Iter.foldl_toList] at hfold
  rw [String.replace, String.Slice.replace, ForwardStringSearcher.toSearcher_eq]
  refine hfold.trans ?_
  rw [String.empty_append, String.Slice.sliceFrom_startPos, String.copy_toSlice]

namespace Zone

/-! ### Names without signs -/

theorem lookedUp_of_notMem {name : String} (h : '_' ∉ name.toList) : lookedUp name = name := by
  have hsigns : withSigns name = name := by
    rw [withSigns, replace_of_notMem "+" (show '_' ∈ "_plus_".toList by decide) h,
      replace_of_notMem "-" (show '_' ∈ "_minus_".toList by decide) h]
  rw [lookedUp, hsigns, ite_self]

theorem ofName?_of_notMem {name : String} (h : '_' ∉ name.toList) :
    ofName? name = known.find? fun z => z.name?.map String.toLower == some name.toLower := by
  rw [ofName?, lookedUp_of_notMem h]

theorem ofName?_utc : ofName? "UTC" = some utc := by
  rw [ofName?_of_notMem (by decide), funext Text.toLower_eq]
  rfl

theorem ofName_eq_ok {name : String} {z : Zone} : ofName name = .ok z ↔ ofName? name = some z := by
  unfold ofName
  cases ofName? name with
  | none => exact ⟨nofun, nofun⟩
  | some z' => exact ⟨fun h => congrArg some (Except.ok.inj h), fun h => congrArg _ (Option.some.inj h)⟩

end Zone
end UsageBilling
