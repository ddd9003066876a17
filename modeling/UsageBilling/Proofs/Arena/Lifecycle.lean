import UsageBilling.Arena.Labelled
import UsageBilling.Proofs.Interval.Lifecycle

/-! The life of an arena, whatever is called on it and on the intervals in it. A call opens a key, takes out what is
open under a key and builds it, or leaves the arena as it is (`changes_call`). So each interval that was opened is open,
or built, or was taken out by a finish that failed to build it (`accounts_after`). Such a finish is the one failing call
that changes the arena (`unchanged_or_taken`). -/

namespace UsageBilling

/-! ### Changes of an arena -/

namespace Arena

variable {α : Type} {a b : Arena α} {value : α} {identity : UsageKey.Identity}

/-- What is open under an identity is at one place, and the others are left when it is taken out. -/
theorem exists_split (hdistinct : (a.places.map (·.identity)).Nodup) (h : a.find? identity = some value) :
    ∃ before p after, a.places = before ++ p :: after ∧ p.value = value ∧
      a.places.filter (·.identity ≠ identity) = before ++ after := by
  obtain ⟨p, hp, rfl⟩ := Option.map_eq_some_iff.mp h
  have hidentity : p.identity = identity := by simpa using List.find?_some hp
  obtain ⟨before, after, hplaces⟩ := List.append_of_mem (List.mem_of_find?_eq_some hp)
  rw [hplaces, List.map_append, List.map_cons, List.nodup_append, List.nodup_cons] at hdistinct
  obtain ⟨-, ⟨hafter, -⟩, hbefore⟩ := hdistinct
  refine ⟨before, p, after, hplaces, rfl, ?_⟩
  have hkept : before.filter (·.identity ≠ identity) = before := by
    refine List.filter_eq_self.mpr fun q hq => decide_eq_true ?_
    rw [← hidentity]
    exact hbefore _ (List.mem_map_of_mem hq) _ List.mem_cons_self
  have hkept' : after.filter (·.identity ≠ identity) = after := by
    refine List.filter_eq_self.mpr fun q hq => decide_eq_true ?_
    rw [← hidentity]
    intro hsame
    exact hafter (hsame ▸ List.mem_map_of_mem hq)
  rw [hplaces, List.filter_append, hkept, List.filter_cons_of_neg (by simp [hidentity]), hkept']

/-- What is open, in the order of opening. -/
def openValues (a : Arena α) : List α := a.places.map (·.value)

/-- What a call does to an arena: what it opens, what it builds, and what it takes out without building it. -/
inductive Changes (a : Arena α) : Arena α → List (UsageKey × α) → List α → List α → Prop
  | unchanged : Changes a a [] [] []
  | opened {key : UsageKey} {value : α} {b : Arena α} (h : a.insert key value = .ok b) :
      Changes a b [(key, value)] [] []
  | built {key : UsageKey} {value : α} {b : Arena α} (h : a.take key = .ok (value, b)) :
      Changes a (b.addBuilt value) [] [value] []
  | lost {key : UsageKey} {value : α} {b : Arena α} (h : a.take key = .ok (value, b)) : Changes a b [] [] [value]

/-- An arena in which some openings have resulted, once some values were built, in this order, and others lost. At
most one value is open under an identity, that of its key; the open ones stand in the order of opening; and those that
were opened are the open, the built and the lost ones. -/
structure Accounts (a : Arena α) (opened : List (UsageKey × α)) (built lost : List α) : Prop where
  distinct : (a.places.map (·.identity)).Nodup
  identified : ∀ p ∈ a.places, p.key.identity? = .ok p.identity
  ordered : (a.places.map fun p => (p.key, p.value)).Sublist opened
  finished : a.built = built
  complete : (a.openValues ++ built ++ lost).Perm (opened.map (·.2))

variable {opened opened' : List (UsageKey × α)} {built built' lost lost' : List α}

theorem accounts_empty : Accounts (empty : Arena α) [] [] [] :=
  ⟨.nil, nofun, .refl [], rfl, .refl []⟩

theorem Accounts.insert (ha : Accounts a opened built lost) {key : UsageKey} (h : a.insert key value = .ok b) :
    Accounts b (opened ++ [(key, value)]) built lost := by
  obtain ⟨identity, hkey, hnone, rfl⟩ := insert_eq_ok.mp h
  have hnew : identity ∉ a.places.map (·.identity) := by
    rw [find?, Option.map_eq_none_iff, List.find?_eq_none] at hnone
    intro hmem
    obtain ⟨p, hp, hsame⟩ := List.mem_map.mp hmem
    exact hnone p hp (decide_eq_true hsame)
  constructor
  · rw [List.map_append, List.map_singleton, ← List.concat_eq_append]
    exact ha.distinct.concat hnew
  · exact List.forall_mem_append.mpr ⟨ha.identified, List.forall_mem_singleton.mpr hkey⟩
  · rw [List.map_append, List.map_singleton]
    exact ha.ordered.append (.refl _)
  · exact ha.finished
  · have hvalues : openValues { a with places := a.places ++ [⟨key, identity, value⟩] } = a.openValues ++ [value] := by
      rw [openValues, List.map_append, List.map_singleton, openValues]
    rw [hvalues, List.map_append, List.map_singleton, List.append_assoc, List.append_assoc]
    refine .trans (List.perm_append_comm.append_left _) ?_
    rw [← List.append_assoc, ← List.append_assoc]
    exact ha.complete.append_right _

theorem Accounts.take (ha : Accounts a opened built lost) {key : UsageKey} (h : a.take key = .ok (value, b)) :
    Accounts b opened built (lost ++ [value]) := by
  obtain ⟨identity, -, hopen, rfl⟩ := take_eq_ok.mp h
  obtain ⟨before, p, after, hplaces, rfl, hrest⟩ := exists_split ha.distinct hopen
  have hsub : (before ++ after).Sublist a.places := by
    rw [hplaces]
    exact (List.Sublist.refl before).append (List.sublist_cons_self p after)
  obtain ⟨hdistinct, hidentified, hordered, hbuilt, hcomplete⟩ := ha
  rw [hrest]
  refine ⟨hdistinct.sublist (hsub.map _), fun q hq => hidentified q (hsub.subset hq), (hsub.map _).trans hordered,
    hbuilt, ?_⟩
  have hvalues : (p.value :: openValues { a with places := before ++ after }).Perm a.openValues := by
    rw [openValues, openValues, hplaces, ← List.map_cons (f := OpenPlace.value)]
    exact List.perm_middle.symm.map _
  have hmoved : (openValues { a with places := before ++ after } ++ built ++ (lost ++ [p.value])).Perm
      (p.value :: openValues { a with places := before ++ after } ++ built ++ lost) := by
    rw [← List.append_assoc]
    exact List.perm_append_singleton _ _
  exact hmoved.trans (((hvalues.append_right _).append_right _).trans hcomplete)

theorem Accounts.addBuilt (ha : Accounts a opened built (lost ++ [value])) :
    Accounts (a.addBuilt value) opened (built ++ [value]) lost := by
  obtain ⟨hdistinct, hidentified, hordered, rfl, hcomplete⟩ := ha
  refine ⟨hdistinct, hidentified, hordered, rfl, .trans ?_ hcomplete⟩
  rw [← List.append_assoc, List.append_assoc _ [value]]
  exact List.perm_append_comm.append_left _

/-- A call accounts for what it does. -/
theorem Changes.accounts (h : Changes a b opened' built' lost') (ha : Accounts a opened built lost) :
    Accounts b (opened ++ opened') (built ++ built') (lost ++ lost') := by
  cases h with
  | unchanged => simpa using ha
  | opened h => simpa using ha.insert h
  | built h => simpa using (ha.take h).addBuilt
  | lost h => simpa using ha.take h

end Arena

/-! ### Calls -/

namespace LabelledArena

open Arena

/-- A call of an operation of an arena, or of an interval in it. -/
inductive Call where
  | openKey (key : UsageKey) (label : String)
  | finish (key : UsageKey) (closed : Bool)
  | interval (label : String) (c : Interval.Call)

/-- The arena that comes in the place of this one. It stays when there is none because of an error. -/
def replacedBy (a : LabelledArena) : Except Error LabelledArena → LabelledArena × Except Error Unit
  | .ok b => (b, .ok ())
  | .error e => (a, .error e)

def callOf (a : LabelledArena) (label : String) (c : Interval.Call) : LabelledArena × Except Error Unit :=
  match a.interval label with
  | .ok i => (a.update label (i.call c).1, (i.call c).2)
  | .error e => (a, .error e)

/-- The arena after a call, and whether the call returned. -/
def call (a : LabelledArena) : Call → LabelledArena × Except Error Unit
  | .openKey key label => a.replacedBy (a.openKey key label)
  | .finish key closed => ((a.finish key closed).1, (a.finish key closed).2.map fun _ => ())
  | .interval label c => a.callOf label c

def after (a : LabelledArena) (calls : List Call) : LabelledArena := calls.foldl (fun a c => (a.call c).1) a

/-- What some calls bring, each in the state in which it is made. -/
def along {α : Type} (brings : LabelledArena → Call → List α) : LabelledArena → List Call → List α
  | _, [] => []
  | a, c :: calls => brings a c ++ along brings (a.call c).1 calls

def opens (a : LabelledArena) : Call → List (UsageKey × String)
  | .openKey key label => if (a.openKey key label).isOk then [(key, label)] else []
  | .finish _ _ | .interval _ _ => []

def builds (a : LabelledArena) : Call → List String
  | .finish key closed => (a.finish key closed).2.toOption.toList
  | .openKey _ _ | .interval _ _ => []

/-- The label that is open under the key of a finish that fails. -/
def loses (a : LabelledArena) : Call → List String
  | .finish key closed =>
      if (a.finish key closed).2.isOk then [] else ((a.arena.take key).toOption.map (·.1)).toList
  | .openKey _ _ | .interval _ _ => []

variable {a : LabelledArena} {rest : Arena String} {key : UsageKey} {label : String} {closed : Bool} {e : Error}
  {c : Call}

/-- Whether the build of the interval of a label returns. -/
def buildOf (a : LabelledArena) (label : String) (closed : Bool) : Except Error Unit := do
  (← a.interval label).build closed |>.2

theorem finish_of_not_open (h : a.arena.take key = .error e) : a.finish key closed = (a, .error e) := by
  rw [finish, h]

/-- A finish returns what was open under the key just when the interval is built. -/
theorem finish_of_open (closed : Bool) (h : a.arena.take key = .ok (label, rest)) :
    (a.finish key closed).2 = (a.buildOf label closed).map (fun _ => label) ∧
      (a.finish key closed).1.arena = if (a.buildOf label closed).isOk then rest.addBuilt label else rest := by
  rw [finish, h, buildOf]
  dsimp only
  cases a.interval label with
  | error e => exact ⟨rfl, rfl⟩
  | ok i =>
      rw [ok_bind]
      dsimp only
      cases (i.build closed).2 with
      | error e => exact ⟨rfl, rfl⟩
      | ok _ => exact ⟨rfl, rfl⟩

/-- A call changes the arena by what it opens, builds or loses. -/
theorem changes_call (a : LabelledArena) (c : Call) :
    Changes a.arena (a.call c).1.arena (a.opens c) (a.builds c) (a.loses c) := by
  cases c with
  | openKey key label =>
      rw [opens, builds, loses, call]
      cases hopen : a.openKey key label with
      | error e => exact .unchanged
      | ok b =>
          obtain ⟨arena, hinsert, hb⟩ := bind_eq_ok.mp hopen
          obtain rfl := pure_eq_ok.mp hb
          exact .opened hinsert
  | finish key closed =>
      rw [opens, builds, loses, call]
      cases htake : a.arena.take key with
      | error e =>
          rw [finish_of_not_open htake]
          exact .unchanged
      | ok taken =>
          obtain ⟨label, rest⟩ := taken
          obtain ⟨hresult, harena⟩ := finish_of_open closed htake
          dsimp only
          rw [hresult, harena]
          cases a.buildOf label closed with
          | error e => exact .lost htake
          | ok _ => exact .built htake
  | interval label c =>
      rw [opens, builds, loses, call, callOf]
      cases a.interval label with
      | error e => exact .unchanged
      | ok i => exact .unchanged

/-- A call that fails leaves the arena as it is, unless it is a finish of an open key whose interval is not built. -/
theorem unchanged_or_taken (hfails : (a.call c).2 = .error e) : (a.call c).1.arena = a.arena ∨
    ∃ key closed label, c = .finish key closed ∧ a.arena.take key = .ok (label, (a.call c).1.arena) ∧
      a.buildOf label closed = .error e := by
  cases c with
  | openKey key label =>
      rw [call] at hfails ⊢
      cases hopen : a.openKey key label with
      | error e => exact Or.inl rfl
      | ok b =>
          rw [hopen] at hfails
          cases hfails
  | finish key closed =>
      rw [call] at hfails ⊢
      cases htake : a.arena.take key with
      | error e =>
          rw [finish_of_not_open htake]
          exact Or.inl rfl
      | ok taken =>
          obtain ⟨label, rest⟩ := taken
          obtain ⟨hresult, harena⟩ := finish_of_open closed htake
          refine Or.inr ⟨key, closed, label, rfl, ?_⟩
          dsimp only at hfails ⊢
          rw [hresult] at hfails
          rw [harena]
          cases hbuild : a.buildOf label closed with
          | error e' =>
              rw [hbuild] at hfails
              obtain rfl := Except.error.inj hfails
              exact ⟨htake, rfl⟩
          | ok _ =>
              rw [hbuild] at hfails
              cases hfails
  | interval label c =>
      rw [call, callOf]
      cases a.interval label with
      | error e => exact Or.inl rfl
      | ok i => exact Or.inl rfl

theorem openKey_returns_iff : (a.call (.openKey key label)).2 = .ok () ↔
    ∃ identity, key.identity? = .ok identity ∧ a.arena.find? identity = none := by
  rw [call]
  constructor
  · intro h
    cases hopen : a.openKey key label with
    | error e =>
        rw [hopen] at h
        cases h
    | ok b =>
        obtain ⟨arena, hinsert, -⟩ := bind_eq_ok.mp hopen
        obtain ⟨identity, hkey, hnone, -⟩ := insert_eq_ok.mp hinsert
        exact ⟨identity, hkey, hnone⟩
  · rintro ⟨identity, hkey, hnone⟩
    rw [openKey, insert_eq_ok.mpr ⟨identity, hkey, hnone, rfl⟩]
    rfl

theorem finish_returns_iff : (a.call (.finish key closed)).2 = .ok () ↔
    ∃ identity label i, key.identity? = .ok identity ∧ a.arena.find? identity = some label ∧
      a.interval label = .ok i ∧ (i.build closed).2 = .ok () := by
  rw [call]
  dsimp only
  constructor
  · intro h
    cases htake : a.arena.take key with
    | error e =>
        rw [finish_of_not_open htake] at h
        cases h
    | ok taken =>
        obtain ⟨label, rest⟩ := taken
        rw [(finish_of_open closed htake).1] at h
        obtain ⟨identity, hkey, hopen, -⟩ := take_eq_ok.mp htake
        cases hbuild : a.buildOf label closed with
        | error e =>
            rw [hbuild] at h
            cases h
        | ok _ =>
            obtain ⟨i, hi, hbuilt⟩ := bind_eq_ok.mp hbuild
            exact ⟨identity, label, i, hkey, hopen, hi, hbuilt⟩
  · rintro ⟨identity, label, i, hkey, hopen, hi, hbuilt⟩
    have hbuild : a.buildOf label closed = .ok () := bind_eq_ok.mpr ⟨i, hi, hbuilt⟩
    rw [(finish_of_open closed (take_eq_ok.mpr ⟨identity, hkey, hopen, rfl⟩)).1, hbuild]
    rfl

/-- Calls account for what they do, one after the other. -/
theorem accounts_after {opened : List (UsageKey × String)} {built lost : List String}
    (ha : Accounts a.arena opened built lost) (calls : List Call) :
    Accounts (a.after calls).arena (opened ++ along opens a calls) (built ++ along builds a calls)
      (lost ++ along loses a calls) := by
  induction calls generalizing a opened built lost with
  | nil =>
      simp only [along, List.append_nil]
      exact ha
  | cons c calls ih =>
      simp only [along, ← List.append_assoc]
      exact ih ((a.changes_call c).accounts ha)

/-! ### Labels -/

def labels (a : LabelledArena) : List String := a.intervals.map (·.1)

theorem labels_update (a : LabelledArena) (label : String) (i : Interval) : (a.update label i).labels = a.labels := by
  rw [labels, update, List.map_map, labels]
  refine List.map_congr_left fun p _ => ?_
  rw [Function.comp_apply]
  split
  next h => exact h.symm
  next => rfl

theorem labels_call (a : LabelledArena) (c : Call) : (a.call c).1.labels = a.labels := by
  cases c with
  | openKey key label =>
      rw [call]
      cases hopen : a.openKey key label with
      | error e => rfl
      | ok b =>
          obtain ⟨arena, -, hb⟩ := bind_eq_ok.mp hopen
          obtain rfl := pure_eq_ok.mp hb
          rfl
  | finish key closed =>
      rw [call, finish]
      cases a.arena.take key with
      | error e => rfl
      | ok taken =>
          dsimp only
          cases a.interval taken.1 with
          | error e => rfl
          | ok i =>
              dsimp only
              cases (i.build closed).2 with
              | error e => exact labels_update _ _ _
              | ok _ => exact labels_update _ _ _
  | interval label c =>
      rw [call, callOf]
      cases a.interval label with
      | error e => rfl
      | ok i => exact labels_update _ _ _

theorem labels_after (a : LabelledArena) (calls : List Call) : (a.after calls).labels = a.labels := by
  induction calls generalizing a with
  | nil => rfl
  | cons c calls ih => exact (ih _).trans (a.labels_call c)

theorem exists_interval (h : label ∈ a.labels) : ∃ i, a.interval label = .ok i := by
  rw [interval]
  cases hlookup : a.intervals.lookup label with
  | some i => exact ⟨i, rfl⟩
  | none =>
      rw [List.lookup_eq_none_iff] at hlookup
      obtain ⟨p, hp, rfl⟩ := List.mem_map.mp h
      exact absurd (hlookup p hp) (by simp)

/-! ### What becomes of the intervals -/

/-- The openings that return are each for an interval that is known and was not opened before. -/
structure Fresh (a : LabelledArena) (calls : List Call) : Prop where
  known : ∀ o ∈ along opens a calls, o.2 ∈ a.labels
  once : ((along opens a calls).map (·.2)).Nodup

theorem exists_interval_of_open {start : LabelledArena} {calls : List Call} (hfresh : Fresh start calls)
    {built lost : List String} (ha : Accounts (start.after calls).arena (along opens start calls) built lost)
    {identity : UsageKey.Identity} (hopen : (start.after calls).arena.find? identity = some label) :
    ∃ i, (start.after calls).interval label = .ok i := by
  obtain ⟨p, hp, rfl⟩ := Option.map_eq_some_iff.mp hopen
  have hopened : (p.key, p.value) ∈ along opens start calls :=
    ha.ordered.subset (List.mem_map.mpr ⟨p, List.mem_of_find?_eq_some hp, rfl⟩)
  refine exists_interval ?_
  rw [labels_after]
  exact hfresh.known _ hopened

/-- When an arena opens a key and when it finishes one, and what a call leaves that fails: the arena as it is, unless
it is a finish of an open key whose interval is not built. The key is then taken out, and nothing else. -/
structure CallRules (a : LabelledArena) : Prop where
  opening : ∀ key label, (a.call (.openKey key label)).2 = .ok () ↔
    ∃ identity, key.identity? = .ok identity ∧ a.arena.find? identity = none
  finishing : ∀ key closed, (a.call (.finish key closed)).2 = .ok () ↔
    ∃ identity label i, key.identity? = .ok identity ∧ a.arena.find? identity = some label ∧
      a.interval label = .ok i ∧ (i.build closed).2 = .ok ()
  failing : ∀ c e, (a.call c).2 = .error e → (a.call c).1.arena = a.arena ∨
    ∃ key closed identity label i, c = .finish key closed ∧ key.identity? = .ok identity ∧
      a.arena.find? identity = some label ∧ a.interval label = .ok i ∧ (i.build closed).2 = .error e ∧
      (a.call c).1.arena = { a.arena with places := a.arena.places.filter (·.identity ≠ identity) }

/-- After any calls on an arena that was empty, each interval that was opened is open, or built, or lost to a finish
that failed to build it, and exactly one of these. The rules for calls hold at every moment. -/
theorem opened_intervals_accounted {start : LabelledArena} (hempty : start.arena = .empty) {calls : List Call}
    (hfresh : Fresh start calls) :
    Accounts (start.after calls).arena (along opens start calls) (along builds start calls) (along loses start calls) ∧
      ((start.after calls).arena.openValues ++ (start.after calls).arena.built ++ along loses start calls).Nodup ∧
      (start.after calls).CallRules := by
  have ha : Accounts (start.after calls).arena (along opens start calls) (along builds start calls)
      (along loses start calls) := accounts_after (hempty ▸ accounts_empty) calls
  refine ⟨ha, ?_, fun key label => openKey_returns_iff, fun key closed => finish_returns_iff, fun c e hfails => ?_⟩
  · rw [ha.finished]
    exact ha.complete.nodup_iff.mpr hfresh.once
  · refine (unchanged_or_taken hfails).imp_right ?_
    rintro ⟨key, closed, label, rfl, htake, hbuild⟩
    obtain ⟨identity, hkey, hopen, hrest⟩ := take_eq_ok.mp htake
    obtain ⟨i, hi⟩ := exists_interval_of_open hfresh ha hopen
    rw [buildOf, hi, ok_bind] at hbuild
    exact ⟨key, closed, identity, label, i, rfl, hkey, hopen, hi, hbuild, hrest⟩

namespace Sample

open Interval.Sample (calls firstDay event created)

/-- Two intervals for calls up to the twentieth of February 2022. -/
def registered : LabelledArena := ofIntervals [("first", created), ("second", created)]

def january : UsageKey := ⟨"api", ⟨firstDay, 0, some 0⟩⟩

/-- The same key, with the version as it is written an hour to the east. -/
def januaryEast : UsageKey := ⟨"api", ⟨firstDay, 3600000000, some 3600⟩⟩

def texts : UsageKey := ⟨"texts", january.version⟩

def opening : List Call :=
  [.openKey january "first", .openKey januaryEast "second", .openKey texts "second",
    .interval "first" (.add 0 (event firstDay [calls]))]

/-- Both intervals are finished, the one without an event as well. -/
def history : List Call := opening ++ [.finish januaryEast false, .finish texts false]

theorem along_history : along opens registered history = [(january, "first"), (texts, "second")] ∧
    along builds registered history = ["first"] ∧ along loses registered history = ["second"] := by
  decide +kernel

theorem fresh_of_opened {calls : List Call}
    (h : along opens registered calls = [(january, "first"), (texts, "second")]) : Fresh registered calls := by
  constructor <;> rw [h] <;> decide

end Sample

theorem opened_intervals_accounted_east :
    Sample.registered.arena = .empty ∧ Fresh Sample.registered Sample.history ∧
      Accounts (Sample.registered.after Sample.history).arena
        [(Sample.january, "first"), (Sample.texts, "second")] ["first"] ["second"] := by
  have hempty : Sample.registered.arena = .empty := rfl
  obtain ⟨hopened, hbuilt, hlost⟩ := Sample.along_history
  have hfresh : Fresh Sample.registered Sample.history := Sample.fresh_of_opened hopened
  obtain ⟨haccounts, -⟩ := opened_intervals_accounted hempty hfresh
  rw [hopened, hbuilt, hlost] at haccounts
  exact ⟨hempty, hfresh, haccounts⟩

/-- A finish takes out an interval without events, which is then neither open nor built. -/
theorem failed_finish_loses_interval :
    (¬ ∀ (start : LabelledArena) (calls : List Call), start.arena = .empty → Fresh start calls →
      ∀ o ∈ along opens start calls,
        o.2 ∈ (start.after calls).arena.openValues ++ (start.after calls).arena.built) ∧
    ¬ ∀ (start : LabelledArena) (calls : List Call), start.arena = .empty → Fresh start calls →
      ∀ c e, ((start.after calls).call c).2 = .error e →
        ((start.after calls).call c).1.arena = (start.after calls).arena := by
  have hfresh : Fresh Sample.registered Sample.history := Sample.fresh_of_opened Sample.along_history.1
  have hfresh' : Fresh Sample.registered Sample.opening := Sample.fresh_of_opened (by decide +kernel)
  constructor
  · intro h
    have hopened : (Sample.texts, "second") ∈ along opens Sample.registered Sample.history := by
      rw [Sample.along_history.1]
      decide
    have hsecond := h Sample.registered Sample.history rfl hfresh _ hopened
    revert hsecond
    decide +kernel
  · intro h
    have hfails : ((Sample.registered.after Sample.opening).call (.finish Sample.texts false)).2 =
        .error (.interval (.noEvents "api")) := by decide +kernel
    have hkept := congrArg Arena.openKeys (h Sample.registered Sample.opening rfl hfresh' _ _ hfails)
    revert hkept
    decide +kernel

end LabelledArena
end UsageBilling
