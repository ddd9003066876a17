import Mathlib
import UsageBilling.Text.Uppercase

/-! What a text can be when its capitals are those of a given word. Small letters keep their capitals
(`uppercase_toLower`), and so does an `i` without its dot. The other way round, the capitals of a plain word, one
without `s` and without the capitals of a ligature, belong to the letters of that word only, in either case, but
for the dots: this is read off the two tables of capitals (`dotted_toLower_of_capital`) and carried along the word
(`map_of_flatMap_capital`). -/

namespace UsageBilling.Text

/-- The letter with a dot on its `i`. -/
def dotted (c : Char) : Char := if c = 'ı' then 'i' else c

def withDots (text : String) : String := String.ofList (text.toList.map dotted)

theorem withDots_of_notMem {text : String} (h : 'ı' ∉ text.toList) : withDots text = text := by
  have hkept : text.toList.map dotted = text.toList.map id :=
    List.map_congr_left fun c hc => if_neg fun hdotless : c = 'ı' => h (hdotless ▸ hc)
  rw [withDots, hkept, List.map_id, String.ofList_toList]

/-! ### Capitals of small letters -/

theorem toLower_eq (text : String) : text.toLower = String.ofList (text.toList.map Char.toLower) := by
  rw [← String.toList_inj, String.toLower, String.toList_map, String.toList_ofList]

def basicCapitals : List Char := "ABCDEFGHIJKLMNOPQRSTUVWXYZ".toList

theorem toLower_cases (c : Char) : c.toLower = c ∨ c ∈ basicCapitals := by
  unfold Char.toLower
  split
  next h =>
    obtain ⟨n, hn, rfl⟩ : ∃ n < 26, c = Char.ofNat (65 + n) := by
      have hA : 65 ≤ c.toNat := h.1
      have hZ : c.toNat ≤ 90 := h.2
      exact ⟨c.toNat - 65, by omega, by rw [Nat.add_sub_cancel' hA, Char.ofNat_toNat]⟩
    right
    revert n
    decide
  next => exact .inl rfl

theorem toLower_toLower (text : String) : text.toLower.toLower = text.toLower := by
  rw [toLower_eq, toLower_eq, String.toList_ofList, List.map_map]
  exact congrArg String.ofList (List.map_congr_left fun c _ => c.toLower_toLower_eq_toLower)

/-- The small letter of a capital has that capital, and any other character is kept. -/
theorem capital_toLower (c : Char) : capital c.toLower = capital c := by
  have hcapitals : ∀ c ∈ basicCapitals, capital c.toLower = capital c :=
    List.all_iff_forall_prop.mp (by decide)
  rcases toLower_cases c with hkept | hc
  · rw [hkept]
  · exact hcapitals c hc

theorem capital_dotted (c : Char) : capital (dotted c) = capital c := by
  unfold dotted
  split
  next h => rw [h]; decide
  next => rfl

theorem uppercase_toLower (text : String) : uppercase text.toLower = uppercase text := by
  rw [uppercase, uppercase, toLower_eq, String.toList_ofList, List.flatMap_map]
  simp only [capital_toLower]

theorem uppercase_withDots (text : String) : uppercase (withDots text) = uppercase text := by
  rw [uppercase, uppercase, withDots, String.toList_ofList, List.flatMap_map]
  simp only [capital_dotted]

/-! ### Letters of given capitals -/

/-- A character has its capitals from the table of wide ones or from a run, and otherwise it is kept. -/
theorem capital_cases (c : Char) : (∃ entry ∈ wideCapitals, capital c = entry.2.map Char.ofNat) ∨
    (∃ r ∈ caseRuns, r.first ≤ c.toNat ∧ c.toNat ≤ r.last ∧
      capital c = [Char.ofNat ((c.toNat : Int) + r.shift).toNat]) ∨
    capital c = [c] := by
  unfold capital
  split
  next capitals hwide =>
    obtain ⟨before, rest, htable, -⟩ := List.lookup_eq_some_iff.mp hwide
    refine .inl ⟨(c.toNat, capitals), ?_, rfl⟩
    rw [htable]
    exact List.mem_append_right before List.mem_cons_self
  next =>
    split
    next r hrun =>
      have hholds : r.holds c.toNat = true := List.find?_some (p := (CaseRun.holds · c.toNat)) hrun
      simp only [CaseRun.holds, Bool.and_eq_true, decide_eq_true_eq] at hholds
      exact .inr (.inl ⟨r, List.mem_of_find?_eq_some hrun, hholds.1.1, hholds.1.2, rfl⟩)
    next => exact .inr (.inr rfl)

/-- The letters whose capital belongs to no other letter, but for the `i` without its dot. There is no `s` among
them, since the long `ſ` has the same capital. -/
def plainLetters : List Char := "abcdefghijklmnopqrtuvwxyz".toList

/-- The capital of a plain letter lies 32 code points before it, between `A` and `Z`, and is not `S`. -/
theorem capital_of_plain : ∀ x ∈ plainLetters, capital x = [x.toUpper] ∧ x.toUpper.toNat + 32 = x.toNat ∧
    65 ≤ x.toUpper.toNat ∧ x.toUpper.toNat ≤ 90 ∧ x.toUpper.toNat ≠ 83 :=
  List.all_iff_forall_prop.mp (by decide)

theorem dotted_toLower_of_plain : ∀ x ∈ plainLetters, dotted x.toLower = x ∧ dotted x.toUpper.toLower = x :=
  List.all_iff_forall_prop.mp (by decide)

/-- The runs whose capitals are Latin letters of the basic alphabet: its small letters, the `i` without its dot
and the long `s`. The capitals of all others lie behind `Z`. -/
theorem shift_of_mem_caseRuns : ∀ r ∈ caseRuns, 90 < (r.first : Int) + r.shift ∨ r.shift = -32 ∨
    r.first = 0x131 ∧ r.last = 0x131 ∧ r.shift = -232 ∨ r.first = 0x17f ∧ r.last = 0x17f ∧ r.shift = -300 := by
  decide +kernel

theorem length_of_mem_wideCapitals : ∀ entry ∈ wideCapitals, entry.2.length ≠ 1 := by decide

/-- A character with the capital of a plain letter is that letter, in either case, but for the dot. -/
theorem dotted_toLower_of_capital {c x : Char} (hx : x ∈ plainLetters) (h : capital c = [x.toUpper]) :
    dotted c.toLower = x := by
  obtain ⟨-, hsmall, hA, hZ, hS⟩ := capital_of_plain x hx
  obtain ⟨hlower, hupper⟩ := dotted_toLower_of_plain x hx
  rcases capital_cases c with ⟨entry, hentry, hwide⟩ | ⟨r, hr, hfirst, hlast, hrun⟩ | hkept
  · have hlength := congrArg List.length (hwide.symm.trans h)
    rw [List.length_map] at hlength
    exact absurd hlength (length_of_mem_wideCapitals entry hentry)
  · have hcode := congrArg Char.toNat (List.cons.inj (hrun.symm.trans h)).1
    rw [Char.toNat_ofNat] at hcode
    split at hcode
    · rcases shift_of_mem_caseRuns r hr with hbehind | hletters | ⟨hone, hend, hshift⟩ | ⟨hone, hend, hshift⟩
      · omega
      · have hc : c = x := Char.toNat_inj.mp (by omega)
        rw [hc, hlower]
      · have hc : c = 'ı' := Char.toNat_inj.mp (by show c.toNat = 0x131; omega)
        have hi : x = 'i' := Char.toNat_inj.mp (by show x.toNat = 0x69; omega)
        rw [hc, hi]
        rfl
      · omega
    · omega
  · rw [(List.cons.inj (hkept.symm.trans h)).1, hupper]

/-! ### Words of given capitals -/

/-- A word of plain letters in which no character with capitals of several characters can hide: its capitals do
not hold the capitals of one, as those of `ﬁ` stand in `FINAL`. -/
def Plain (word : List Char) : Prop :=
  (∀ x ∈ word, x ∈ plainLetters) ∧ ∀ entry ∈ wideCapitals, ¬ entry.2.map Char.ofNat <:+: word.map Char.toUpper

-- Given by hand, so that the letters of the word are tried one by one and not all characters.
instance (word : List Char) : Decidable (Plain word) :=
  @instDecidableAnd _ _ (List.decidableBAll _ word) (List.decidableBAll _ wideCapitals)

theorem Plain.tail {x : Char} {word : List Char} (h : Plain (x :: word)) : Plain word := by
  refine ⟨fun y hy => h.1 y (List.mem_cons_of_mem x hy), fun entry hentry hinside => ?_⟩
  exact h.2 entry hentry (hinside.trans (List.suffix_cons x.toUpper _).isInfix)

theorem flatMap_capital_of_plain {word : List Char} (h : Plain word) :
    word.flatMap capital = word.map Char.toUpper := by
  rw [← List.flatMap_singleton' (word.map Char.toUpper), List.flatMap_map]
  exact List.flatMap_congr fun x hx => (capital_of_plain x (h.1 x hx)).1

/-- Characters with the capitals of a plain word are its letters, in either case, but for the dots. -/
theorem map_of_flatMap_capital {cs word : List Char} (hword : Plain word)
    (h : cs.flatMap capital = word.map Char.toUpper) : cs.map (fun c => dotted c.toLower) = word := by
  induction cs generalizing word with
  | nil =>
      rw [List.flatMap_nil, eq_comm, List.map_eq_nil_iff] at h
      rw [h, List.map_nil]
  | cons c cs ih =>
      rw [List.flatMap_cons] at h
      obtain ⟨d, hd⟩ : ∃ d, capital c = [d] := by
        rcases capital_cases c with ⟨entry, hentry, hwide⟩ | ⟨r, -, -, -, hrun⟩ | hkept
        · refine absurd ?_ (hword.2 entry hentry)
          rw [← hwide, ← h]
          exact (List.prefix_append _ _).isInfix
        · exact ⟨_, hrun⟩
        · exact ⟨c, hkept⟩
      rw [hd, List.singleton_append] at h
      obtain ⟨x, word, rfl, hx, hrest⟩ := List.map_eq_cons_iff.mp h.symm
      rw [List.map_cons, dotted_toLower_of_capital (hword.1 x List.mem_cons_self) (hd.trans (by rw [hx])),
        ih hword.tail hrest.symm]

/-- A text has the capitals of a plain word iff it is that word, in either case, but for the dots. -/
theorem uppercase_eq_iff {text word : String} (hword : Plain word.toList) :
    uppercase text = uppercase word ↔ withDots text.toLower = word := by
  constructor
  · intro h
    rw [uppercase, uppercase, flatMap_capital_of_plain hword, String.ofList_inj] at h
    rw [withDots, toLower_eq, String.toList_ofList, List.map_map, ← String.ofList_toList (s := word)]
    exact congrArg String.ofList (map_of_flatMap_capital hword h)
  · intro h
    rw [← h, uppercase_withDots, uppercase_toLower]

end UsageBilling.Text
