import Mathlib.Data.List.Forall2
import Mathlib.Data.List.Perm.Basic
import UsageBilling.Journal

/-! Sequences of computations. A sequence over a list succeeds when its steps do, one after the
other (`mapM_eq_ok`), and the result of a logged sequence is the sequence of the results: the log
entries have no part in it (`Logged.result_mapM`, `Logged.result_foldlM`). A sequence fails at the first
of its steps that does (`bind_eq_error`, `exists_of_mapM_eq_error`). What is seen of an error of a sequence
is what is seen of the errors of its steps (`mapError_bind`, `mapError_mapM`). -/

namespace UsageBilling

variable {α β γ ε : Type}

theorem pure_eq_ok {a b : α} : (pure a : Except ε α) = .ok b ↔ a = b :=
  ⟨fun h => by cases h; rfl, fun h => h ▸ rfl⟩

theorem error_ne_ok {e : ε} {a : α} : (.error e : Except ε α) ≠ .ok a := nofun

theorem ok_bind (a : α) (f : α → Except ε β) : ((.ok a : Except ε α) >>= f) = f a := rfl

theorem exists_ok_of_isOk {x : Except ε α} (h : x.isOk = true) : ∃ a, x = .ok a := by
  cases x with
  | ok a => exact ⟨a, rfl⟩
  | error e => cases h

theorem mapM_eq_ok {f : α → Except ε β} {xs : List α} {ys : List β} :
    xs.mapM f = .ok ys ↔ List.Forall₂ (fun x y => f x = .ok y) xs ys := by
  induction xs generalizing ys with
  | nil => rw [List.mapM_nil, pure_eq_ok, List.forall₂_nil_left_iff, eq_comm]
  | cons x xs ih =>
      rw [List.mapM_cons, bind_eq_ok, List.forall₂_cons_left_iff]
      constructor
      · rintro ⟨y, hy, h⟩
        obtain ⟨rest, hrest, h⟩ := bind_eq_ok.mp h
        exact ⟨y, rest, hy, ih.mp hrest, (pure_eq_ok.mp h).symm⟩
      · rintro ⟨y, rest, hy, hrest, rfl⟩
        exact ⟨y, hy, bind_eq_ok.mpr ⟨rest, ih.mpr hrest, rfl⟩⟩

theorem mapM_eq_ok_map {f : α → Except ε β} (g : α → β) {xs : List α} (h : ∀ x ∈ xs, f x = .ok (g x)) :
    xs.mapM f = .ok (xs.map g) := by
  rw [mapM_eq_ok, List.forall₂_map_right_iff, List.forall₂_same]
  exact h

theorem exists_mapM_eq_ok {f : α → Except ε β} {xs : List α} (h : ∀ x ∈ xs, ∃ y, f x = .ok y) :
    ∃ ys, xs.mapM f = .ok ys := by
  induction xs with
  | nil => exact ⟨[], rfl⟩
  | cons x xs ih =>
      obtain ⟨⟨y, hy⟩, hxs⟩ := List.forall_mem_cons.mp h
      obtain ⟨ys, hys⟩ := ih hxs
      exact ⟨y :: ys, mapM_eq_ok.mpr (.cons hy (mapM_eq_ok.mp hys))⟩

theorem mapM_congr {m : Type → Type} [Monad m] [LawfulMonad m] {f g : α → m β} {xs : List α}
    (h : ∀ x ∈ xs, f x = g x) : xs.mapM f = xs.mapM g := by
  induction xs with
  | nil => rfl
  | cons x xs ih =>
      rw [List.mapM_cons, List.mapM_cons, h x List.mem_cons_self,
        ih fun y hy => h y (List.mem_cons_of_mem x hy)]

/-- Steps that agree where they succeed give the same list. -/
theorem eq_of_mapM_eq_ok {f g : α → Except ε β} {xs : List α} {ys zs : List β} (hf : xs.mapM f = .ok ys)
    (hg : xs.mapM g = .ok zs) (h : ∀ x ∈ xs, ∀ y z, f x = .ok y → g x = .ok z → y = z) : ys = zs := by
  induction xs generalizing ys zs with
  | nil => rw [← pure_eq_ok.mp hf, ← pure_eq_ok.mp hg]
  | cons x xs ih =>
      obtain ⟨hx, hxs⟩ := List.forall_mem_cons.mp h
      cases mapM_eq_ok.mp hf with
      | cons hy hys =>
          cases mapM_eq_ok.mp hg with
          | cons hz hzs => rw [hx _ _ hy hz, ih (mapM_eq_ok.mpr hys) (mapM_eq_ok.mpr hzs) hxs]

theorem mapM_append_eq_ok {f : α → Except ε β} {xs ys : List α} {zs : List β} :
    (xs ++ ys).mapM f = .ok zs ↔ ∃ us vs, xs.mapM f = .ok us ∧ ys.mapM f = .ok vs ∧ zs = us ++ vs := by
  rw [List.mapM_append, bind_eq_ok]
  constructor
  · rintro ⟨us, hus, h⟩
    obtain ⟨vs, hvs, h⟩ := bind_eq_ok.mp h
    exact ⟨us, vs, hus, hvs, (pure_eq_ok.mp h).symm⟩
  · rintro ⟨us, vs, hus, hvs, rfl⟩
    exact ⟨us, hus, bind_eq_ok.mpr ⟨vs, hvs, rfl⟩⟩

theorem foldlM_cons_eq_ok {f : β → α → Except ε β} {b c : β} {x : α} {xs : List α} :
    (x :: xs).foldlM f b = .ok c ↔ ∃ b', f b x = .ok b' ∧ xs.foldlM f b' = .ok c := by
  rw [List.foldlM_cons, bind_eq_ok]

theorem foldlM_congr {f g : β → α → Except ε β} {xs : List α} (b : β) (h : ∀ b, ∀ x ∈ xs, f b x = g b x) :
    xs.foldlM f b = xs.foldlM g b := by
  induction xs generalizing b with
  | nil => rfl
  | cons x xs ih =>
      rw [List.foldlM_cons, List.foldlM_cons, h b x List.mem_cons_self]
      apply bind_congr
      intro b'
      exact ih b' fun b'' y hy => h b'' y (List.mem_cons_of_mem x hy)

/-! ### Failure -/

/-- A sequence fails at the first of its steps that does. -/
theorem bind_eq_error {x : Except ε α} {f : α → Except ε β} {e : ε} :
    x >>= f = .error e ↔ x = .error e ∨ ∃ a, x = .ok a ∧ f a = .error e := by
  cases x with
  | ok a => simp [ok_bind]
  | error e' =>
      have hfails : (.error e' : Except ε α) >>= f = .error e' := rfl
      simp [hfails]

/-- Steps over a list fail at the first step that does. -/
theorem exists_of_mapM_eq_error {f : α → Except ε β} {xs : List α} {e : ε} (h : xs.mapM f = .error e) :
    ∃ before x after, xs = before ++ x :: after ∧ (∀ y ∈ before, ∃ z, f y = .ok z) ∧ f x = .error e := by
  induction xs with
  | nil => cases h
  | cons x xs ih =>
      rw [List.mapM_cons] at h
      rcases bind_eq_error.mp h with hx | ⟨z, hx, h⟩
      · exact ⟨[], x, xs, rfl, by simp, hx⟩
      · rcases bind_eq_error.mp h with hrest | ⟨_, -, h⟩
        · obtain ⟨before, y, after, rfl, hbefore, hy⟩ := ih hrest
          exact ⟨x :: before, y, after, rfl, List.forall_mem_cons.mpr ⟨⟨z, hx⟩, hbefore⟩, hy⟩
        · cases h

/-! ### What is seen of an error -/

section

variable {ε' : Type} (view : ε → ε')

theorem mapError_bind (x : Except ε α) (f : α → Except ε β) :
    (x >>= f).mapError view = x.mapError view >>= fun a => (f a).mapError view := by
  cases x <;> rfl

theorem mapError_mapM (f : α → Except ε β) (xs : List α) :
    (xs.mapM f).mapError view = xs.mapM fun x => (f x).mapError view := by
  induction xs with
  | nil => rfl
  | cons x xs ih =>
      rw [List.mapM_cons, List.mapM_cons, mapError_bind]
      apply bind_congr
      intro y
      rw [mapError_bind, ih]
      rfl

theorem mapError_foldlM (f : β → α → Except ε β) (b : β) (xs : List α) :
    (xs.foldlM f b).mapError view = xs.foldlM (fun b x => (f b x).mapError view) b := by
  induction xs generalizing b with
  | nil => rfl
  | cons x xs ih =>
      rw [List.foldlM_cons, List.foldlM_cons, mapError_bind]
      apply bind_congr
      intro b'
      exact ih b'

end

/-! ### Faults of decimals -/

theorem liftM_decimal_eq_error {x : Except Decimal.Fault α} {e : Error} :
    (liftM x : Except Error α) = .error e ↔ ∃ fault, x = .error fault ∧ e = .decimal fault := by
  cases x with
  | ok a => exact iff_of_false nofun nofun
  | error fault =>
      constructor
      · intro h
        exact ⟨fault, rfl, (Except.error.inj h).symm⟩
      · rintro ⟨_, hfault, rfl⟩
        obtain rfl := Except.error.inj hfault
        rfl

theorem liftM_decimal_bind (x : Except Decimal.Fault α) (f : α → Except Decimal.Fault β) :
    (liftM (x >>= f) : Except Error β) = (liftM x : Except Error α) >>= fun a => liftM (f a) := by
  cases x <;> rfl

theorem liftM_decimal_ite (p : Prop) [Decidable p] (x y : Except Decimal.Fault α) :
    (liftM (if p then x else y) : Except Error α) = if p then liftM x else liftM y := by
  split <;> rfl

/-! ### Corresponding lists -/

theorem exists_of_forall₂_right {R : α → β → Prop} {xs : List α} {ys : List β} (h : List.Forall₂ R xs ys)
    {y : β} (hy : y ∈ ys) : ∃ x ∈ xs, R x y := by
  induction h with
  | nil => cases hy
  | @cons x y' xs ys hxy _ ih =>
      rcases List.mem_cons.mp hy with rfl | hy
      · exact ⟨x, List.mem_cons_self, hxy⟩
      · obtain ⟨x', hx', h⟩ := ih hy
        exact ⟨x', List.mem_cons_of_mem x hx', h⟩

theorem exists_of_forall₂_left {R : α → β → Prop} {xs : List α} {ys : List β} (h : List.Forall₂ R xs ys)
    {x : α} (hx : x ∈ xs) : ∃ y ∈ ys, R x y :=
  exists_of_forall₂_right h.flip hx

/-- Corresponding elements with something between them have a list between the lists. -/
theorem exists_between {γ : Type} {R : α → β → Prop} {S : β → γ → Prop} {xs : List α} {zs : List γ}
    (h : List.Forall₂ (fun x z => ∃ y, R x y ∧ S y z) xs zs) : ∃ ys, List.Forall₂ R xs ys ∧ List.Forall₂ S ys zs := by
  induction h with
  | nil => exact ⟨[], .nil, .nil⟩
  | cons hxz _ ih =>
      obtain ⟨y, hxy, hyz⟩ := hxz
      obtain ⟨ys, hxs, hzs⟩ := ih
      exact ⟨y :: ys, .cons hxy hxs, .cons hyz hzs⟩

/-- A relation between the elements of a list carries over to a corresponding list. -/
theorem pairwise_of_forall₂ {R : α → β → Prop} {S : α → α → Prop} {T : β → β → Prop} {xs : List α}
    {ys : List β} (h : List.Forall₂ R xs ys)
    (hST : ∀ x y x' y', R x y → R x' y' → S x x' → T y y') (hxs : xs.Pairwise S) : ys.Pairwise T := by
  induction h with
  | nil => exact .nil
  | @cons x y xs ys hxy hrest ih =>
      obtain ⟨hx, hxs⟩ := List.pairwise_cons.mp hxs
      refine List.pairwise_cons.mpr ⟨fun y' hy' => ?_, ih hxs⟩
      obtain ⟨x', hx', hxy'⟩ := exists_of_forall₂_right hrest hy'
      exact hST x y x' y' hxy hxy' (hx x' hx')

/-- Two lists are mapped to one list just when corresponding elements are mapped to one element. -/
theorem map_eq_map_iff_forall₂ {f : α → γ} {g : β → γ} {xs : List α} {ys : List β} :
    xs.map f = ys.map g ↔ List.Forall₂ (fun x y => f x = g y) xs ys := by
  rw [← List.forall₂_eq_eq_eq, List.forall₂_map_left_iff, List.forall₂_map_right_iff]

/-- Two lists that correspond to one list correspond to each other. -/
theorem forall₂_of_common {R : α → β → Prop} {S : α → γ → Prop} {T : β → γ → Prop} {xs : List α} {ys : List β}
    {zs : List γ} (hR : List.Forall₂ R xs ys) (hS : List.Forall₂ S xs zs)
    (h : ∀ x y z, R x y → S x z → T y z) : List.Forall₂ T ys zs := by
  induction hR generalizing zs with
  | nil =>
      cases hS
      exact .nil
  | cons hxy _ ih =>
      cases hS with
      | cons hxz hS => exact .cons (h _ _ _ hxy hxz) (ih hS)

/-- Two lists that correspond to one list, as a list of pairs that corresponds to it. -/
theorem exists_pairs_of_common {R : α → β → Prop} {S : α → γ → Prop} {T : α → β × γ → Prop} {xs : List α}
    {ys : List β} {zs : List γ} (hR : List.Forall₂ R xs ys) (hS : List.Forall₂ S xs zs)
    (h : ∀ x ∈ xs, ∀ y z, R x y → S x z → T x (y, z)) :
    ∃ pairs, List.Forall₂ T xs pairs ∧ pairs.map (·.1) = ys ∧ pairs.map (·.2) = zs := by
  induction hR generalizing zs with
  | nil =>
      cases hS
      exact ⟨[], .nil, rfl, rfl⟩
  | @cons x y xs ys hxy _ ih =>
      cases hS with
      | @cons _ z _ zs hxz hS =>
          obtain ⟨hx, hxs⟩ := List.forall_mem_cons.mp h
          obtain ⟨pairs, hpairs, hys, hzs⟩ := ih hS hxs
          exact ⟨(y, z) :: pairs, .cons (hx y z hxy hxz) hpairs, by rw [List.map_cons, hys], by rw [List.map_cons, hzs]⟩

theorem exists_append_of_forall₂ {R : α → β → Prop} {xs ys : List α} {zs : List β}
    (h : List.Forall₂ R (xs ++ ys) zs) :
    ∃ us vs, zs = us ++ vs ∧ List.Forall₂ R xs us ∧ List.Forall₂ R ys vs := by
  induction xs generalizing zs with
  | nil => exact ⟨[], zs, rfl, .nil, h⟩
  | cons x xs ih =>
      cases h with
      | cons hx h =>
          obtain ⟨us, vs, rfl, hus, hvs⟩ := ih h
          exact ⟨_ :: us, vs, rfl, .cons hx hus, hvs⟩

/-- Steps over a list that correspond to steps that succeed succeed, with corresponding results. -/
theorem exists_mapM_of_forall₂ {δ : Type} {R : α → γ → Prop} {S : β → δ → Prop} {f : α → Except ε β}
    {g : γ → Except ε δ} {xs : List α} {ys : List γ} {zs : List β} (h : List.Forall₂ R xs ys) (hzs : xs.mapM f = .ok zs)
    (hRS : ∀ x y z, R x y → f x = .ok z → ∃ w, g y = .ok w ∧ S z w) :
    ∃ ws, ys.mapM g = .ok ws ∧ List.Forall₂ S zs ws := by
  rw [mapM_eq_ok] at hzs
  induction h generalizing zs with
  | nil =>
      cases hzs
      exact ⟨[], rfl, .nil⟩
  | cons hxy _ ih =>
      cases hzs with
      | cons hz hzs =>
          obtain ⟨w, hw, hzw⟩ := hRS _ _ _ hxy hz
          obtain ⟨ws, hws, hzsws⟩ := ih hzs
          exact ⟨w :: ws, mapM_eq_ok.mpr (.cons hw (mapM_eq_ok.mp hws)), .cons hzw hzsws⟩

theorem rel_getElem? {R : α → β → Prop} {xs : List α} {ys : List β} (h : List.Forall₂ R xs ys) (n : Nat) :
    Option.Rel R xs[n]? ys[n]? := by
  induction h generalizing n with
  | nil => exact .none
  | cons hxy _ ih =>
      cases n with
      | zero => exact .some hxy
      | succ n => exact ih n

theorem rel_head? {R : α → β → Prop} {xs : List α} {ys : List β} (h : List.Forall₂ R xs ys) :
    Option.Rel R xs.head? ys.head? := by
  rw [List.head?_eq_getElem?, List.head?_eq_getElem?]
  exact rel_getElem? h 0

theorem rel_getLast? {R : α → β → Prop} {xs : List α} {ys : List β} (h : List.Forall₂ R xs ys) :
    Option.Rel R xs.getLast? ys.getLast? := by
  rw [List.getLast?_eq_getElem?, List.getLast?_eq_getElem?, h.length_eq]
  exact rel_getElem? h _

theorem forall₂_zipIdx {R : α → β → Prop} {xs : List α} {ys : List β} (h : List.Forall₂ R xs ys) (n : Nat) :
    List.Forall₂ (fun p q => R p.1 q.1 ∧ p.2 = q.2) (xs.zipIdx n) (ys.zipIdx n) := by
  induction h generalizing n with
  | nil => exact .nil
  | cons hxy _ ih => exact .cons ⟨hxy, rfl⟩ (ih (n + 1))

/-- What corresponds to a list corresponds to it in any other order as well. -/
theorem exists_perm_of_forall₂ {R : α → β → Prop} {xs xs' : List α} {ys : List β} (hperm : xs'.Perm xs)
    (h : List.Forall₂ R xs ys) : ∃ ys', List.Forall₂ R xs' ys' ∧ ys'.Perm ys :=
  List.perm_comp_forall₂ hperm h

/-- A list put together from parts gives each part back when what belongs to it is selected. -/
theorem filter_flatten_own {Q : α → β → Prop} {keep : α → β → Bool} {xs : List α} {parts : List (List β)}
    (hparts : List.Forall₂ (fun x ys => ∀ y ∈ ys, Q x y) xs parts) (hown : ∀ x ∈ xs, ∀ y, Q x y → keep x y = true)
    (hapart : xs.Pairwise fun x x' => ∀ y, (Q x' y → keep x y = false) ∧ (Q x y → keep x' y = false)) :
    List.Forall₂ (fun x ys => parts.flatten.filter (keep x) = ys) xs parts := by
  induction hparts with
  | nil => exact .nil
  | @cons x ys xs parts hys hparts ih =>
      obtain ⟨hx, hxs⟩ := List.pairwise_cons.mp hapart
      obtain ⟨hownx, hown⟩ := List.forall_mem_cons.mp hown
      refine .cons ?_ (((List.forall₂_and_left _ _).mpr ⟨fun x' hx' => hx', ih hown hxs⟩).imp ?_)
      · rw [List.flatten_cons, List.filter_append, List.filter_eq_self.mpr fun y hy => hownx y (hys y hy)]
        refine (List.append_right_eq_self).mpr (List.filter_eq_nil_iff.mpr fun y hy => ?_)
        obtain ⟨ys', hys', hy⟩ := List.mem_flatten.mp hy
        obtain ⟨x', hx', hQ⟩ := exists_of_forall₂_right hparts hys'
        rw [(hx x' hx' y).1 (hQ y hy)]
        exact Bool.false_ne_true
      · rintro x' ys' ⟨hx', hys'⟩
        rw [List.flatten_cons, List.filter_append, hys']
        refine (List.append_left_eq_self).mpr (List.filter_eq_nil_iff.mpr fun y hy => ?_)
        rw [(hx x' hx' y).2 (hys y hy)]
        exact Bool.false_ne_true

/-- Results of steps over lists of which one corresponds to a part of the other correspond in the same way. -/
theorem sublistForall₂_of_mapM {R : α → α → Prop} {S : β → β → Prop} {f : α → Except ε β} {xs xs' : List α}
    {ys ys' : List β} (h : List.SublistForall₂ R xs xs') (hys : xs.mapM f = .ok ys) (hys' : xs'.mapM f = .ok ys')
    (hRS : ∀ x ∈ xs, ∀ x' ∈ xs', ∀ y y', R x x' → f x = .ok y → f x' = .ok y' → S y y') :
    List.SublistForall₂ S ys ys' := by
  rw [mapM_eq_ok] at hys hys'
  induction h generalizing ys ys' with
  | nil =>
      cases hys
      exact .nil
  | cons hx _ ih =>
      cases hys with
      | cons hy hys =>
          cases hys' with
          | cons hy' hys' =>
              refine .cons (hRS _ List.mem_cons_self _ List.mem_cons_self _ _ hx hy hy') (ih hys hys' ?_)
              exact fun x hx x' hx' => hRS x (List.mem_cons_of_mem _ hx) x' (List.mem_cons_of_mem _ hx')
  | cons_right _ ih =>
      cases hys' with
      | cons hy' hys' =>
          exact .cons_right (ih hys hys' fun x hx x' hx' => hRS x hx x' (List.mem_cons_of_mem _ hx'))

/-! ### Results of logged computations -/

namespace Logged

@[simp] theorem result_pure (a : α) : (pure a : Logged α).result = .ok a := rfl

@[simp] theorem result_bind (x : Logged α) (f : α → Logged β) :
    (x >>= f).result = x.result >>= fun a => (f a).result := by
  obtain ⟨entries, result⟩ := x
  cases result <;> rfl

@[simp] theorem result_liftM (x : Except Error α) : (liftM x : Logged α).result = x := rfl

@[simp] theorem result_liftM_decimal (x : Except Decimal.Fault α) :
    (liftM x : Logged α).result = (liftM x : Except Error α) := rfl

@[simp] theorem result_emit (e : LogEntry) : (emit e).result = .ok () := rfl

@[simp] theorem result_ite (p : Prop) [Decidable p] (x y : Logged α) :
    (if p then x else y).result = if p then x.result else y.result := by
  split <;> rfl

@[simp] theorem result_within (bound : Fields) (x : Logged α) : (within bound x).result = x.result := rfl

@[simp] theorem result_mapM (f : α → Logged β) (xs : List α) :
    (xs.mapM f).result = xs.mapM fun x => (f x).result := by
  induction xs with
  | nil => rfl
  | cons x xs ih => simp only [List.mapM_cons, result_bind, result_pure, ih]; rfl

@[simp] theorem result_foldlM (f : β → α → Logged β) (b : β) (xs : List α) :
    (xs.foldlM f b).result = xs.foldlM (fun b x => (f b x).result) b := by
  induction xs generalizing b with
  | nil => rfl
  | cons x xs ih => simp only [List.foldlM_cons, result_bind, ih]

end Logged
end UsageBilling
