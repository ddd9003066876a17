import UsageBilling.Error
import UsageBilling.Text.Json

/-! Log entries, and computations that emit them. A computation gives its entries in order also when
it fails; fields bound around a computation are added to its entries, below their own fields. Of
fields laid over each other the uppermost of a name is read back (`lookup_overlay`). -/

namespace UsageBilling

/-- How grave a log entry is. -/
inductive LogLevel where
  | debug | info | warning | error | critical
  deriving DecidableEq

namespace LogLevel

/-- The levels from the lightest to the gravest. -/
def all : List LogLevel := [debug, info, warning, error, critical]

def rank : LogLevel → Nat
  | debug => 0
  | info => 1
  | warning => 2
  | error => 3
  | critical => 4

def name : LogLevel → String
  | debug => "debug"
  | info => "info"
  | warning => "warning"
  | error => "error"
  | critical => "critical"

def ofName? (text : String) : Option LogLevel := all.find? (·.name == text)

end LogLevel

/-- Named values, each name once. -/
abbrev Fields := List (String × Json)

namespace Fields

/-- Sets a field: in place where there is one of the name, at the end otherwise. -/
def set (fs : Fields) (key : String) (value : Json) : Fields :=
  match fs with
  | [] => [(key, value)]
  | (k, v) :: rest => if k = key then (key, value) :: rest else (k, v) :: set rest key value

/-- The lower fields with the upper ones laid over them. -/
def overlay (lower upper : Fields) : Fields := upper.foldl (fun fs f => fs.set f.1 f.2) lower

def erase (fs : Fields) (key : String) : Fields := fs.filter (·.1 != key)

theorem lookup_set (fs : Fields) (key : String) (value : Json) :
    (fs.set key value).lookup key = some value := by
  induction fs with
  | nil => simp [set]
  | cons f fs ih =>
      obtain ⟨k, v⟩ := f
      by_cases hk : k = key
      · simp [set, hk]
      · rw [set, if_neg hk, List.lookup_cons, beq_eq_false_iff_ne.mpr (Ne.symm hk)]
        exact ih

theorem lookup_set_of_ne (fs : Fields) {key other : String} (value : Json) (h : other ≠ key) :
    (fs.set key value).lookup other = fs.lookup other := by
  induction fs with
  | nil => simp [set, List.lookup_cons, beq_eq_false_iff_ne.mpr h]
  | cons f fs ih =>
      obtain ⟨k, v⟩ := f
      by_cases hk : k = key
      · subst hk
        simp [set, List.lookup_cons, beq_eq_false_iff_ne.mpr h]
      · rw [set, if_neg hk, List.lookup_cons, List.lookup_cons]
        cases other == k with
        | true => rfl
        | false => exact ih

theorem lookup_erase_of_ne (fs : Fields) {key other : String} (h : other ≠ key) :
    (fs.erase key).lookup other = fs.lookup other := by
  unfold erase
  induction fs with
  | nil => rfl
  | cons f fs ih =>
      obtain ⟨k, v⟩ := f
      by_cases hk : k = key
      · subst hk
        simp [List.lookup_cons, beq_eq_false_iff_ne.mpr h, ih]
      · rw [List.filter_cons, if_pos (by simpa using hk), List.lookup_cons, List.lookup_cons]
        cases other == k with
        | true => rfl
        | false => exact ih

/-- An upper field wins over a lower one, and the last of the upper ones of a name counts. -/
theorem lookup_overlay (lower upper : Fields) (key : String) :
    (lower.overlay upper).lookup key = (upper.reverse.lookup key).or (lower.lookup key) := by
  unfold overlay
  induction upper generalizing lower with
  | nil => simp
  | cons f upper ih =>
      obtain ⟨k, v⟩ := f
      rw [List.foldl_cons, ih, List.reverse_cons, List.lookup_append]
      by_cases hk : key = k
      · subst hk
        rw [lookup_set]
        cases List.lookup key upper.reverse <;> simp
      · rw [lookup_set_of_ne _ _ hk]
        cases List.lookup key upper.reverse <;> simp [List.lookup_cons, beq_eq_false_iff_ne.mpr hk]

end Fields

structure LogEntry where
  level : LogLevel
  event : String
  fields : Fields

/-- An entry with fields bound around it, which lie below its own. -/
def LogEntry.within (e : LogEntry) (bound : Fields) : LogEntry := { e with fields := bound.overlay e.fields }

/-- The result of a computation and the log entries it emitted. -/
structure Logged (α : Type) where
  entries : List LogEntry
  result : Except Error α

namespace Logged

variable {α β γ : Type}

/-- A result without log entries. -/
def ofExcept (result : Except Error α) : Logged α := ⟨[], result⟩

def fail (e : Error) : Logged α := ofExcept (.error e)

/-- Goes on with a result; after an error there is nothing to go on with. -/
def bind (x : Logged α) (f : α → Logged β) : Logged β :=
  match x.result with
  | .ok a =>
      let y := f a
      ⟨x.entries ++ y.entries, y.result⟩
  | .error e => ⟨x.entries, .error e⟩

instance : Monad Logged where
  pure a := ofExcept (.ok a)
  bind := Logged.bind

/-! ### Laws -/

theorem bind_ok {x : Logged α} {a : α} (h : x.result = .ok a) (f : α → Logged β) :
    x >>= f = ⟨x.entries ++ (f a).entries, (f a).result⟩ := by
  show Logged.bind x f = _
  rw [Logged.bind, h]

theorem bind_error {x : Logged α} {e : Error} (h : x.result = .error e) (f : α → Logged β) :
    x >>= f = ⟨x.entries, .error e⟩ := by
  show Logged.bind x f = _
  rw [Logged.bind, h]

theorem map_id (x : Logged α) : id <$> x = x := by
  show Logged.bind x _ = x
  obtain ⟨entries, result⟩ := x
  cases result <;> simp [Logged.bind, Function.comp, ofExcept]

theorem bind_bind (x : Logged α) (f : α → Logged β) (g : β → Logged γ) :
    x >>= f >>= g = x >>= fun a => f a >>= g := by
  obtain ⟨entries, result⟩ := x
  cases result with
  | error e => rfl
  | ok a =>
      show Logged.bind (Logged.bind ⟨entries, .ok a⟩ f) g
        = Logged.bind ⟨entries, .ok a⟩ fun a => Logged.bind (f a) g
      cases h : (f a).result <;> simp [Logged.bind, h]

instance : LawfulMonad Logged := LawfulMonad.mk' Logged map_id (fun _ _ => rfl) bind_bind

/-! ### Entries -/

instance : MonadLift (Except Error) Logged := ⟨ofExcept⟩
instance : MonadLift (Except Decimal.Fault) Logged := ⟨fun x => ofExcept (x.mapError .decimal)⟩
instance : MonadLift (Except Calendar.Fault) Logged := ⟨fun x => ofExcept (x.mapError .calendar)⟩

def emit (e : LogEntry) : Logged Unit := ⟨[e], .ok ()⟩

def within (bound : Fields) (x : Logged α) : Logged α :=
  ⟨x.entries.map (·.within bound), x.result⟩

end Logged
end UsageBilling
