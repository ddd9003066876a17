import UsageBilling.Proofs.Logging.Setup
import UsageBilling.Run

/-! Nested blocks. Leaving a block gives back each key what it was bound to, whatever was bound at the several depths
of the blocks (`LogContext.exit_enter`), so that a program that enters and leaves blocks, normally or by an error,
leaves log output as it found it. What a line of such a program carries is read off the text of the program: for
each key the value of the innermost block around the line that binds it (`contexts_nest`). Level, logger and time
and what belongs to stack traces are up to the log output itself (`level_stays_own`). -/

namespace UsageBilling

/-! ### Fields set and set back -/

namespace Fields

variable {fs : Fields} {key other : String}

theorem set_set (fs : Fields) (key : String) (value value' : Json) :
    (fs.set key value).set key value' = fs.set key value' := by
  induction fs with
  | nil => simp [set]
  | cons f fs ih =>
      obtain ⟨k, v⟩ := f
      by_cases hk : k = key
      · simp [set, hk]
      · simp [set, hk, ih]

theorem erase_set (fs : Fields) (key : String) (value : Json) : (fs.set key value).erase key = fs.erase key := by
  induction fs with
  | nil => simp [set, erase]
  | cons f fs ih =>
      obtain ⟨k, v⟩ := f
      unfold erase at ih ⊢
      by_cases hk : k = key
      · simp [set, hk]
      · simp [set, hk, ih]

/-- A field that is there already keeps its place, so that it does not matter which one is set first. -/
theorem set_set_of_ne (hne : key ≠ other) (hother : (fs.lookup other).isSome) (value value' : Json) :
    (fs.set key value).set other value' = (fs.set other value').set key value := by
  induction fs with
  | nil => cases hother
  | cons f fs ih =>
      obtain ⟨k, v⟩ := f
      by_cases hk : k = key
      · subst hk
        simp [set, hne]
      · by_cases hko : k = other
        · subst hko
          simp [set, hk]
        · rw [List.lookup_cons, beq_eq_false_iff_ne.mpr (Ne.symm hko)] at hother
          simp [set, hk, hko, ih hother]

theorem erase_set_of_ne (hne : key ≠ other) (fs : Fields) (value : Json) :
    (fs.set key value).erase other = (fs.erase other).set key value := by
  induction fs with
  | nil => simp [set, erase, hne]
  | cons f fs ih =>
      obtain ⟨k, v⟩ := f
      unfold erase at ih ⊢
      by_cases hk : k = key
      · subst hk
        simp [set, hne]
      · by_cases hko : k = other
        · subst hko
          simpa [set, hk] using ih
        · simp [set, hk, hko, ih]

theorem set_of_lookup {value : Json} (h : fs.lookup key = some value) : fs.set key value = fs := by
  induction fs with
  | nil => cases h
  | cons f fs ih =>
      obtain ⟨k, v⟩ := f
      by_cases hk : k = key
      · subst hk
        rw [List.lookup_cons_self, Option.some.injEq] at h
        simp [set, h]
      · rw [List.lookup_cons, beq_eq_false_iff_ne.mpr (Ne.symm hk)] at h
        simp [set, hk, ih h]

theorem erase_of_lookup (h : fs.lookup key = none) : fs.erase key = fs := by
  refine List.filter_eq_self.mpr fun f hf => ?_
  rw [bne_iff_ne]
  rintro rfl
  rw [List.lookup_eq_none_iff] at h
  simpa using h f hf

/-- The value that fields laid over others give a key: that of the last one of the name. -/
def binding? (fields : Fields) (key : String) : Option Json := fields.reverse.lookup key

end Fields

/-! ### Leaving a block -/

namespace LogContext

variable {bound now : Fields} {key : String}

/-- What a key is bound to, as it is remembered when the key is shadowed. -/
def remembered (bound : Fields) (key : String) : Shadowed := ⟨key, bound.lookup key⟩

/-- Fields still have each key that some fields had. -/
def Keeps (bound now : Fields) : Prop := ∀ key, (bound.lookup key).isSome → (now.lookup key).isSome

theorem Keeps.set (h : Keeps bound now) (key : String) (value : Json) : Keeps bound (now.set key value) := by
  intro other hother
  by_cases hne : other = key
  · rw [hne, Fields.lookup_set]
    rfl
  · rw [Fields.lookup_set_of_ne _ _ hne]
    exact h other hother

theorem Keeps.restore (h : Keeps bound now) (key : String) :
    Keeps bound (LogContext.restore now (remembered bound key)) := by
  rw [LogContext.restore, remembered]
  cases hkey : bound.lookup key with
  | some value => exact h.set key value
  | none =>
      intro other hother
      have hne : other ≠ key := by
        rintro rfl
        rw [hkey] at hother
        cases hother
      dsimp only
      rw [Fields.lookup_erase_of_ne _ hne]
      exact h other hother

theorem restore_self (bound : Fields) (key : String) : restore bound (remembered bound key) = bound := by
  rw [restore, remembered]
  cases hkey : bound.lookup key with
  | some value => exact Fields.set_of_lookup hkey
  | none => exact Fields.erase_of_lookup hkey

theorem restore_set (bound now : Fields) (key : String) (value : Json) :
    restore (now.set key value) (remembered bound key) = restore now (remembered bound key) := by
  rw [restore, restore, remembered]
  cases bound.lookup key with
  | some before => exact Fields.set_set now key value before
  | none => exact Fields.erase_set now key value

theorem restore_set_of_ne (h : Keeps bound now) {other : String} (hne : key ≠ other) (value : Json) :
    restore (now.set key value) (remembered bound other) = (restore now (remembered bound other)).set key value := by
  rw [restore, restore, remembered]
  cases hother : bound.lookup other with
  | some before => exact Fields.set_set_of_ne hne (h other (by rw [hother]; rfl)) value before
  | none => exact Fields.erase_set_of_ne hne now value

/-- A field set before its key is given back makes no difference. -/
theorem foldl_restore_set (h : Keeps bound now) {keys : List String} (hkey : key ∈ keys) (value : Json) :
    (keys.map (remembered bound)).foldl restore (now.set key value) =
      (keys.map (remembered bound)).foldl restore now := by
  induction keys generalizing now with
  | nil => cases hkey
  | cons other keys ih =>
      rw [List.map_cons, List.foldl_cons, List.foldl_cons]
      by_cases hne : key = other
      · subst hne
        rw [restore_set]
      -- Giving back another key first leaves the field set, and the rest of the keys give it back.
      · rw [restore_set_of_ne h hne]
        exact ih (h.restore other) ((List.mem_cons.mp hkey).resolve_left hne)

/-- Fields laid over others make no difference when all their keys are given back. -/
theorem foldl_restore_overlay (h : Keeps bound now) {keys : List String} {fields : Fields}
    (hkeys : ∀ f ∈ fields, f.1 ∈ keys) : (keys.map (remembered bound)).foldl restore (now.overlay fields) =
      (keys.map (remembered bound)).foldl restore now := by
  induction fields generalizing now with
  | nil => rfl
  | cons f fields ih =>
      obtain ⟨hf, hfields⟩ := List.forall_mem_cons.mp hkeys
      exact (ih (h.set f.1 f.2) hfields).trans (foldl_restore_set h hf f.2)

theorem foldl_restore_self (bound : Fields) (keys : List String) :
    (keys.map (remembered bound)).foldl restore bound = bound := by
  induction keys with
  | nil => rfl
  | cons key keys ih => rw [List.map_cons, List.foldl_cons, restore_self, ih]

/-- **A block that is left gives back exactly what was bound before it was entered.** -/
theorem exit_enter (c : LogContext) (fields : Fields) : (c.enter fields).exit = c := by
  have hshadowed : fields.map (fun f => (⟨f.1, c.bound.lookup f.1⟩ : Shadowed)) =
      (fields.map (·.1)).map (remembered c.bound) := by
    rw [List.map_map]
    rfl
  rw [enter, exit, hshadowed]
  dsimp only
  rw [foldl_restore_overlay (fun _ h => h) (fun f hf => List.mem_map_of_mem hf), foldl_restore_self]

end LogContext

/-! ### Programs -/

/-- A program that logs: lines and blocks that bind fields, one after the other. It may raise an error, and it may go
on after one. -/
inductive LogProgram where
  | skip
  | line (logger : String) (level : LogLevel) (event : String) (fields : Fields)
  | seq (first rest : LogProgram)
  | block (fields : Fields) (body : LogProgram)
  | raise (e : Error)
  | attempt (body : LogProgram) (handler : Error → LogProgram)

/-- What a program does: the lines it writes, log output after it, and the error that it ends with, if it does. -/
structure Execution where
  lines : List LogLine
  after : LogOutput
  result : Except Error Unit

/-- A line of a program, with the fields of the blocks around it, the innermost first. -/
structure ScopedLine where
  logger : String
  level : LogLevel
  event : String
  fields : Fields
  scopes : List Fields

namespace LogProgram

/-- Runs a program. A block is left whatever its body ends with. -/
def exec (o : LogOutput) : LogProgram → Execution
  | skip => ⟨[], o, .ok ()⟩
  | line logger level event fields => ⟨o.log logger level event fields, o, .ok ()⟩
  | seq first rest =>
      let x := first.exec o
      match x.result with
      | .ok () =>
          let y := rest.exec x.after
          ⟨x.lines ++ y.lines, y.after, y.result⟩
      | .error _ => x
  | block fields body =>
      let x := body.exec { o with context := o.context.enter fields }
      ⟨x.lines, { x.after with context := x.after.context.exit }, x.result⟩
  | raise e => ⟨[], o, .error e⟩
  | attempt body handler =>
      let x := body.exec o
      match x.result with
      | .ok () => x
      | .error e =>
          let y := (handler e).exec x.after
          ⟨x.lines ++ y.lines, y.after, y.result⟩

/-- What a program ends with, whatever log output is like. -/
def outcome : LogProgram → Except Error Unit
  | skip => .ok ()
  | line .. => .ok ()
  | seq first rest =>
      match first.outcome with
      | .ok () => rest.outcome
      | .error e => .error e
  | block _ body => body.outcome
  | raise e => .error e
  | attempt body handler =>
      match body.outcome with
      | .ok () => .ok ()
      | .error e => (handler e).outcome

/-- The lines that a program comes to, each with the blocks around it, within some blocks. -/
def reached (scopes : List Fields) : LogProgram → List ScopedLine
  | skip => []
  | line logger level event fields => [⟨logger, level, event, fields, scopes⟩]
  | seq first rest =>
      match first.outcome with
      | .ok () => first.reached scopes ++ rest.reached scopes
      | .error _ => first.reached scopes
  | block fields body => body.reached (fields :: scopes)
  | raise _ => []
  | attempt body handler =>
      match body.outcome with
      | .ok () => body.reached scopes
      | .error e => body.reached scopes ++ (handler e).reached scopes

end LogProgram

/-! ### What a line carries -/

namespace LogOutput

/-- The keys that log output itself fills or takes away: level, logger and time, and what belongs to stack traces. -/
def ownKeys : List String := ["level", "logger", "timestamp", "exc_info", "stack_info", "exception", "stack"]

def writes (o : LogOutput) (level : LogLevel) : Bool :=
  match o.configuration with
  | none => false
  | some c => c.threshold.rank ≤ level.rank

/-- A line in the form in which it is written, with all its fields. -/
def formed (format : LogFormat) (l : ScopedLine) (all : Fields) : LogLine :=
  match format with
  | .json => .object all
  | .console => .console (consoleLine l.level (loggerName l.logger) l.event
      (["event", "logger", "level", "timestamp"].foldl Fields.erase all))

end LogOutput

namespace ScopedLine

/-- What the innermost of some scopes that binds a key binds it to. -/
def inScopes? (scopes : List Fields) (key : String) : Option Json := scopes.findSome? (·.binding? key)

/-- What a key has in a line: what the line itself gives it, or else what the innermost block around it that binds the
key binds it to, or else what was bound outside of all blocks. -/
def value? (outer : Fields) (l : ScopedLine) (key : String) : Option Json :=
  ((Fields.set l.fields "event" (.text l.event)).binding? key).or
    ((inScopes? l.scopes key).or (outer.lookup key))

/-- A line carries some fields: for each key the value that it has in the line, and no others. The service is named
where nothing else gives it. -/
structure Carries (outer : Fields) (serviceName : String) (l : ScopedLine) (all : Fields) : Prop where
  level : all.lookup "level" = some (.text l.level.name)
  logger : all.lookup "logger" = some (.text (LogOutput.loggerName l.logger))
  service : all.lookup "service" = some ((l.value? outer "service").getD (.text serviceName))
  bound : ∀ key, key ∉ LogOutput.ownKeys → key ≠ "service" → all.lookup key = l.value? outer key

/-- A line is written by log output with the fields that it carries. -/
def WrittenAs (outer : Fields) (o : LogOutput) (l : ScopedLine) (written : LogLine) : Prop :=
  ∃ c all, o.configuration = some c ∧ written = LogOutput.formed c.format l all ∧ l.Carries outer o.serviceName all

end ScopedLine

namespace LogOutput

variable {o : LogOutput} {scopes : List Fields} {outer : Fields}

/-- What is bound is what some scopes bind over some outer fields. -/
def Scoped (o : LogOutput) (scopes : List Fields) (outer : Fields) : Prop :=
  ∀ key, o.context.bound.lookup key = (ScopedLine.inScopes? scopes key).or (outer.lookup key)

/-- A block that is entered is the innermost scope. -/
theorem Scoped.enter (h : o.Scoped scopes outer) (fields : Fields) :
    Scoped { o with context := o.context.enter fields } (fields :: scopes) outer := by
  intro key
  rw [LogContext.enter, Fields.lookup_overlay, h key, ScopedLine.inScopes?, ScopedLine.inScopes?,
    List.findSome?_cons, Fields.binding?]
  cases fields.reverse.lookup key <;> rfl

theorem lookup_lineFields (o : LogOutput) (logger : String) (level : LogLevel) (event : String) (fields : Fields)
    {key : String} (hkey : key ≠ "service") :
    (o.lineFields logger level event fields).lookup key = (o.mergedFields logger level event fields).lookup key := by
  rw [lineFields_eq]
  split
  · rfl
  · exact Fields.lookup_set_of_ne _ _ hkey

theorem carries_lineFields (h : o.Scoped scopes outer) (logger : String) (level : LogLevel) (event : String)
    (fields : Fields) : (ScopedLine.mk logger level event fields scopes).Carries outer o.serviceName
      (o.lineFields logger level event fields) := by
  have hvalue : ∀ key, key ≠ "logger" → key ≠ "level" → (o.mergedFields logger level event fields).lookup key =
      (ScopedLine.mk logger level event fields scopes).value? outer key := by
    intro key hlogger hlevel
    rw [lookup_mergedFields o logger level event fields hlogger hlevel, Fields.lookup_overlay, h key]
    rfl
  refine ⟨?_, ?_, ?_, fun key hown hservice => ?_⟩
  · rw [lookup_lineFields _ _ _ _ _ (by decide), mergedFields, Fields.lookup_set]
  · rw [lookup_lineFields _ _ _ _ _ (by decide), mergedFields, Fields.lookup_set_of_ne _ _ (by decide),
      Fields.lookup_set]
  · rw [lookup_service_lineFields, serviceOf, ← hvalue _ (by decide) (by decide),
      lookup_mergedFields _ _ _ _ _ (by decide) (by decide), Fields.lookup_overlay, Fields.lookup_overlay,
      lookup_reverse_set _ _ (by decide)]
  · simp only [ownKeys, List.mem_cons, not_or] at hown
    rw [lookup_lineFields _ _ _ _ _ hservice, hvalue _ hown.2.1 hown.1]

/-- A line is written if its level is, with the fields that it carries. -/
theorem log_written (h : o.Scoped scopes outer) (logger : String) (level : LogLevel) (event : String)
    (fields : Fields) : List.Forall₂ (ScopedLine.WrittenAs outer o)
      ([⟨logger, level, event, fields, scopes⟩].filter fun l => o.writes l.level)
      (o.log logger level event fields) := by
  have hcarried := carries_lineFields h logger level event fields
  rw [List.filter_singleton, log, writes]
  cases hc : o.configuration with
  | none => exact .nil
  | some c =>
      dsimp only
      by_cases hlevel : level.rank < c.threshold.rank
      · rw [if_pos hlevel, decide_eq_false (Nat.not_le.mpr hlevel)]
        exact .nil
      · rw [if_neg hlevel, decide_eq_true (Nat.not_lt.mp hlevel)]
        cases hformat : c.format with
        | json => exact .cons ⟨c, _, hc, by rw [hformat]; rfl, hcarried⟩ .nil
        | console => exact .cons ⟨c, _, hc, by rw [hformat]; rfl, hcarried⟩ .nil

end LogOutput

namespace LogProgram

/-- A program leaves log output as it was, ends with its outcome, and writes the lines that it comes to. -/
theorem exec_spec (p : LogProgram) {o : LogOutput} {scopes : List Fields} {outer : Fields}
    (h : o.Scoped scopes outer) : (p.exec o).after = o ∧ (p.exec o).result = p.outcome ∧
      List.Forall₂ (ScopedLine.WrittenAs outer o) ((p.reached scopes).filter fun l => o.writes l.level)
        (p.exec o).lines := by
  induction p generalizing o scopes with
  | skip => exact ⟨rfl, rfl, .nil⟩
  | raise e => exact ⟨rfl, rfl, .nil⟩
  | line logger level event fields => exact ⟨rfl, rfl, LogOutput.log_written h logger level event fields⟩
  | seq first rest ihfirst ihrest =>
      obtain ⟨hafter, hresult, hlines⟩ := ihfirst h
      obtain ⟨hafter', hresult', hlines'⟩ := ihrest h
      rw [exec, outcome, reached, hresult]
      cases houtcome : first.outcome with
      | error e => exact ⟨hafter, hresult.trans houtcome, hlines⟩
      | ok _ =>
          dsimp only
          rw [hafter, List.filter_append]
          exact ⟨hafter', hresult', List.rel_append hlines hlines'⟩
  | block fields body ih =>
      obtain ⟨hafter, hresult, hlines⟩ := ih (h.enter fields)
      refine ⟨?_, hresult, hlines⟩
      rw [exec]
      dsimp only
      rw [hafter, LogContext.exit_enter]
  | attempt body handler ihbody ihhandler =>
      obtain ⟨hafter, hresult, hlines⟩ := ihbody h
      rw [exec, outcome, reached, hresult]
      cases houtcome : body.outcome with
      | ok _ => exact ⟨hafter, hresult.trans houtcome, hlines⟩
      | error e =>
          obtain ⟨hafter', hresult', hlines'⟩ := ihhandler e h
          dsimp only
          rw [hafter, List.filter_append]
          exact ⟨hafter', hresult', List.rel_append hlines hlines'⟩

end LogProgram

/-! ### Runs -/

/-- The logger of an entry of a run: that of the module that emits it. -/
def LogEntry.logger (e : LogEntry) : String :=
  if e.event ∈ ["usage_billed_above_due", "usage_interval_reconciled"] then "arrears_core.billing.intervals"
  else "arrears_core.billing.subscription"

namespace Run

theorem binding?_boundFields (r : Run) (key : String) : r.boundFields.binding? key = r.boundFields.lookup key := by
  simp only [boundFields, Fields.binding?, List.reverse_cons, List.reverse_nil, List.nil_append, List.cons_append,
    List.lookup_cons, List.lookup_nil]
  by_cases haccount : key = "account_id"
  · subst haccount
    rfl
  · by_cases hinvoice : key = "invoice_id"
    · subst hinvoice
      rfl
    · simp [beq_eq_false_iff_ne.mpr haccount, beq_eq_false_iff_ne.mpr hinvoice]

end Run

namespace LogProgram

/-- The program that writes the lines of some entries. -/
def ofEntries : List LogEntry → LogProgram
  | [] => skip
  | e :: es => seq (line e.logger e.level e.event e.fields) (ofEntries es)

/-- A subscription run: a block that binds the fields of the run around its lines, which raises the error that the run
fails with. -/
def ofRun (r : Run) (existing : List InvoiceItem) : LogProgram :=
  block r.boundFields (seq (ofEntries (r.body existing).entries)
    (match (r.body existing).result with
      | .ok _ => skip
      | .error e => raise e))

theorem outcome_ofEntries (es : List LogEntry) : (ofEntries es).outcome = .ok () := by
  induction es with
  | nil => rfl
  | cons e es ih => exact ih

theorem reached_ofEntries (scopes : List Fields) (es : List LogEntry) :
    (ofEntries es).reached scopes = es.map fun e => ⟨e.logger, e.level, e.event, e.fields, scopes⟩ := by
  induction es with
  | nil => rfl
  | cons e es ih => rw [ofEntries, reached, outcome, ih, reached, List.map_cons, List.singleton_append]

theorem outcome_ofRun (r : Run) (existing : List InvoiceItem) :
    (ofRun r existing).outcome = (r.reconcile existing).result.map fun _ => () := by
  rw [ofRun, outcome, outcome, outcome_ofEntries, Run.reconcile, Logged.result_within]
  cases (r.body existing).result <;> rfl

/-- A line that a run comes to is that of one of its entries. -/
def OfEntry (scopes : List Fields) (outer : Fields) (e : LogEntry) (l : ScopedLine) : Prop :=
  l.logger = e.logger ∧ l.level = e.level ∧ l.event = e.event ∧ ∀ key, key ≠ "event" →
    l.value? outer key = (e.fields.lookup key).or ((ScopedLine.inScopes? scopes key).or (outer.lookup key))

theorem reached_ofRun (r : Run) (existing : List InvoiceItem) (scopes : List Fields) (outer : Fields) :
    List.Forall₂ (OfEntry scopes outer) (r.reconcile existing).entries ((ofRun r existing).reached scopes) := by
  have hreached : (ofRun r existing).reached scopes = (r.body existing).entries.map fun e =>
      ⟨e.logger, e.level, e.event, e.fields, r.boundFields :: scopes⟩ := by
    rw [ofRun, reached, reached, outcome_ofEntries, reached_ofEntries]
    cases (r.body existing).result with
    | ok s => exact List.append_nil _
    | error e => exact List.append_nil _
  rw [hreached, Run.reconcile, Logged.within, List.forall₂_map_left_iff, List.forall₂_map_right_iff,
    List.forall₂_same]
  refine fun e _ => ⟨rfl, rfl, rfl, fun key hkey => ?_⟩
  rw [LogEntry.within, ScopedLine.value?, Fields.binding?, LogOutput.lookup_reverse_set _ _ hkey, Fields.lookup_overlay,
    ScopedLine.inScopes?, List.findSome?_cons, Run.binding?_boundFields, ScopedLine.inScopes?]
  cases e.fields.reverse.lookup key <;> cases r.boundFields.lookup key <;> rfl

/-! ### Nested blocks -/

/-- **Blocks nest.** A program of blocks, runs and lines, whatever it ends with, leaves log output as it found it, with
what was bound. Each of its lines carries for every key the value of the innermost block around it that binds the key,
below the fields of the line itself, and nothing else, but for the keys that log output fills itself. A run is such a
program: it ends as its result does, and its lines are those of its entries. -/
theorem contexts_nest (o : LogOutput) (p : LogProgram) :
    (p.exec o).after = o ∧ (p.exec o).result = p.outcome ∧
    List.Forall₂ (ScopedLine.WrittenAs o.context.bound o) ((p.reached []).filter fun l => o.writes l.level)
      (p.exec o).lines ∧
    (∀ fields, (o.context.enter fields).exit = o.context) ∧
    ∀ (r : Run) (existing : List InvoiceItem), ((ofRun r existing).exec o).after = o ∧
      ((ofRun r existing).exec o).result = (r.reconcile existing).result.map (fun _ => ()) ∧
      ∀ scopes outer, List.Forall₂ (OfEntry scopes outer) (r.reconcile existing).entries
        ((ofRun r existing).reached scopes) := by
  have hscoped : o.Scoped [] o.context.bound := fun _ => rfl
  obtain ⟨hafter, hresult, hlines⟩ := p.exec_spec hscoped
  refine ⟨hafter, hresult, hlines, o.context.exit_enter, fun r existing => ?_⟩
  obtain ⟨hleft, hended, -⟩ := (ofRun r existing).exec_spec hscoped
  exact ⟨hleft, hended.trans (outcome_ofRun r existing), reached_ofRun r existing⟩

namespace Sample

def objects : LogOutput := ⟨some ⟨.info, .json⟩, "service", .empty⟩

/-- A block that binds the level of its line. -/
def leveled : LogProgram := .block [("level", .text "ctx")] (.line "test" .info "hello" [])

end Sample

/-- A block cannot bind the level of a line: it is up to log output. -/
theorem level_stays_own : ¬ ∀ (o : LogOutput) (p : LogProgram), List.Forall₂ (fun (l : ScopedLine) written =>
    ∀ all, written = .object all → ∀ key value, l.value? o.context.bound key = some value →
      all.lookup key = some value) ((p.reached []).filter fun l => o.writes l.level) (p.exec o).lines := by
  intro h
  cases h Sample.objects Sample.leveled with
  | cons hline _ =>
      have hlevel := hline _ rfl "level" (.text "ctx") rfl
      have hsame : "info" = "ctx" := Json.text.inj (Option.some.inj hlevel)
      revert hsame
      decide

end LogProgram

end UsageBilling
