import Mathlib.Data.List.Infix
import UsageBilling.Logging
import UsageBilling.Proofs.Sequencing

/-! Setups of log output. A setup that succeeds puts level, format and service name in force together
(`setup_of_known_level`). One that fails leaves level and format as they are (`configuration_after`), but when
its request could be completed and it fails on the level it has renamed the service already, so that the service
name is that of the last completed request (`serviceName_after`). The lines after a setup are those of its level,
in its form, until another one succeeds; they carry its service name until another request is completed
(`lines_follow_setup`), and a later setup that fails can change that (`failed_setup_renames_service`). -/

namespace UsageBilling

open LogOutput

/-! ### Calls -/

/-- A call on log output: a setup, with the settings that it is completed from, a line, or entering or leaving
a block that binds fields. -/
inductive LogCall where
  | setup (request : SetupRequest) (settings : Except Error Settings)
  | line (logger : String) (level : LogLevel) (event : String) (fields : Fields)
  | enter (fields : Fields)
  | leave

/-- The service name that a call asks for, if it is a setup whose request can be completed. -/
def LogCall.serviceName? : LogCall → Option String
  | .setup request settings => (resolve request settings).toOption.map (·.serviceName)
  | _ => none

def LogLine.format : LogLine → LogFormat
  | .object _ => .json
  | .console _ => .console

/-- A line shows a field: an object has it, and a text has it behind a blank, as the console writes it. -/
def LogLine.Shows (key : String) (value : Json) : LogLine → Prop
  | .object fields => fields.lookup key = some value
  | .console text => (" " ++ key ++ "=" ++ consoleValue value).toList <:+: text.toList

namespace LogOutput

def step (o : LogOutput) : LogCall → LogOutput
  | .setup request settings => (o.setup request settings).1
  | .line .. => o
  | .enter fields => { o with context := o.context.enter fields }
  | .leave => { o with context := o.context.exit }

def after (o : LogOutput) (calls : List LogCall) : LogOutput := calls.foldl step o

/-- No setup among some calls succeeds, each where it is called. -/
def NoneSucceeds (o : LogOutput) : List LogCall → Prop
  | [] => True
  | call :: calls => (∀ request settings, call = .setup request settings →
      ∃ e, (o.setup request settings).2 = .error e) ∧ (o.step call).NoneSucceeds calls

section

variable {o : LogOutput} {request : SetupRequest} {settings : Except Error Settings} {q : Resolved}

/-! ### Setups -/

theorem setup_of_incomplete {e : Error} (h : resolve request settings = .error e) :
    o.setup request settings = (o, .error e) := by
  rw [setup, h]

/-- A setup that fails on its level has renamed the service. -/
theorem setup_of_unknown_level {e : Error} (h : resolve request settings = .ok q)
    (hlevel : thresholdOf q.level = .error e) :
    o.setup request settings = ({ o with serviceName := q.serviceName }, .error e) := by
  rw [setup, h]
  dsimp only
  rw [hlevel]

/-- What a completed request puts in force when its level is known. -/
def configurationOf (q : Resolved) (threshold : LogLevel) : LogConfiguration :=
  ⟨threshold, if q.format = "json" then .json else .console⟩

/-- A setup that succeeds puts level, format and service name in force. -/
theorem setup_of_known_level {threshold : LogLevel} (h : resolve request settings = .ok q)
    (hlevel : thresholdOf q.level = .ok threshold) : (o.setup request settings).1 =
      { o with serviceName := q.serviceName, configuration := some (configurationOf q threshold) } ∧
    ∃ lines, (o.setup request settings).2 = .ok lines := by
  rw [setup, h]
  dsimp only
  rw [hlevel]
  exact ⟨rfl, _, rfl⟩

/-- A setup that succeeds has a completed request and a known level. -/
theorem setup_eq_ok {lines : List LogLine} (h : (o.setup request settings).2 = .ok lines) :
    ∃ q threshold, resolve request settings = .ok q ∧ thresholdOf q.level = .ok threshold := by
  cases hq : resolve request settings with
  | error e =>
      rw [setup_of_incomplete hq] at h
      cases h
  | ok q =>
      cases hlevel : thresholdOf q.level with
      | error e =>
          rw [setup_of_unknown_level hq hlevel] at h
          cases h
      | ok threshold => exact ⟨q, threshold, rfl, hlevel⟩

/-! ### What is in force after some calls -/

/-- The service is renamed by each setup whose request can be completed, and by nothing else. -/
theorem serviceName_step (o : LogOutput) (call : LogCall) :
    (o.step call).serviceName = call.serviceName?.getD o.serviceName := by
  cases call with
  | line => rfl
  | enter => rfl
  | leave => rfl
  | setup request settings =>
      rw [step, LogCall.serviceName?]
      cases hq : resolve request settings with
      | error e =>
          rw [setup_of_incomplete hq]
          rfl
      | ok q =>
          cases hlevel : thresholdOf q.level with
          | error e =>
              rw [setup_of_unknown_level hq hlevel]
              rfl
          | ok threshold =>
              rw [(setup_of_known_level hq hlevel).1]
              rfl

/-- The service name is that of the last setup whose request could be completed. -/
theorem serviceName_after (o : LogOutput) (calls : List LogCall) :
    (o.after calls).serviceName = ((calls.filterMap LogCall.serviceName?).getLast?).getD o.serviceName := by
  induction calls generalizing o with
  | nil => rfl
  | cons call calls ih =>
      have hstep : (o.after (call :: calls)).serviceName = ((o.step call).after calls).serviceName := rfl
      rw [hstep, ih, serviceName_step]
      cases hname : call.serviceName? with
      | none => rw [List.filterMap_cons_none hname, Option.getD_none]
      | some name =>
          rw [List.filterMap_cons_some hname, List.getLast?_cons, Option.getD_some, Option.getD_some]

theorem configuration_of_failed {e : Error} (h : (o.setup request settings).2 = .error e) :
    (o.setup request settings).1.configuration = o.configuration := by
  cases hq : resolve request settings with
  | error e => rw [setup_of_incomplete hq]
  | ok q =>
      cases hlevel : thresholdOf q.level with
      | error e => rw [setup_of_unknown_level hq hlevel]
      | ok threshold =>
          obtain ⟨-, lines, hlines⟩ := setup_of_known_level (o := o) hq hlevel
          rw [hlines] at h
          cases h

/-- Level and format stay until a setup succeeds. -/
theorem configuration_after {calls : List LogCall} (h : o.NoneSucceeds calls) :
    (o.after calls).configuration = o.configuration := by
  induction calls generalizing o with
  | nil => rfl
  | cons call calls ih =>
      obtain ⟨hfails, hcalls⟩ := h
      have hstep : (o.step call).configuration = o.configuration := by
        cases call with
        | line => rfl
        | enter => rfl
        | leave => rfl
        | setup request settings =>
            obtain ⟨e, he⟩ := hfails request settings rfl
            exact configuration_of_failed he
      exact (ih hcalls).trans hstep

/-! ### Lines -/

theorem lookup_reverse_set (fs : Fields) {key other : String} (value : Json) (h : other ≠ key) :
    (fs.set key value).reverse.lookup other = fs.reverse.lookup other := by
  have hother : (other == key) = false := beq_eq_false_iff_ne.mpr h
  induction fs with
  | nil => simp [Fields.set, List.lookup_cons, hother]
  | cons f fs ih =>
      obtain ⟨k, v⟩ := f
      by_cases hk : k = key
      · subst hk
        rw [Fields.set, if_pos rfl, List.reverse_cons, List.reverse_cons, List.lookup_append, List.lookup_append]
        simp only [List.lookup_cons, hother]
      · rw [Fields.set, if_neg hk, List.reverse_cons, List.reverse_cons, List.lookup_append, List.lookup_append, ih]

/-- The service that a line carries: that of a field bound by the line or around it, and otherwise the name in
force. -/
def serviceOf (o : LogOutput) (fields : Fields) : Json :=
  ((o.context.bound.overlay fields).lookup "service").getD (.text o.serviceName)

/-- The fields of a line before the service is named. -/
def mergedFields (o : LogOutput) (logger : String) (level : LogLevel) (event : String) (fields : Fields) : Fields :=
  ((o.context.bound.overlay (Fields.set fields "event" (.text event))).set "logger" (.text (loggerName logger))).set
    "level" (.text level.name)

theorem lineFields_eq (o : LogOutput) (logger : String) (level : LogLevel) (event : String) (fields : Fields) :
    o.lineFields logger level event fields =
      if (o.mergedFields logger level event fields).any (·.1 == "service") then
        o.mergedFields logger level event fields
      else Fields.set (o.mergedFields logger level event fields) "service" (.text o.serviceName) := rfl

theorem lookup_mergedFields (o : LogOutput) (logger : String) (level : LogLevel) (event : String) (fields : Fields)
    {key : String} (hlogger : key ≠ "logger") (hlevel : key ≠ "level") :
    (o.mergedFields logger level event fields).lookup key =
      (o.context.bound.overlay (Fields.set fields "event" (.text event))).lookup key := by
  rw [mergedFields, Fields.lookup_set_of_ne _ _ hlevel, Fields.lookup_set_of_ne _ _ hlogger]

theorem lookup_service_lineFields (o : LogOutput) (logger : String) (level : LogLevel) (event : String)
    (fields : Fields) : (o.lineFields logger level event fields).lookup "service" = some (o.serviceOf fields) := by
  have hmerged : (o.mergedFields logger level event fields).lookup "service" =
      (o.context.bound.overlay fields).lookup "service" := by
    rw [lookup_mergedFields _ _ _ _ _ (by decide) (by decide), Fields.lookup_overlay, Fields.lookup_overlay,
      lookup_reverse_set _ _ (by decide)]
  rw [lineFields_eq, serviceOf]
  split
  next hbound =>
    rw [hmerged]
    have hsome : ((o.context.bound.overlay fields).lookup "service").isSome = true := by
      rw [← hmerged, List.lookup_isSome_iff]
      obtain ⟨f, hf, hkey⟩ := List.any_eq_true.mp hbound
      exact ⟨f, hf, by rwa [BEq.comm]⟩
    obtain ⟨value, hvalue⟩ := Option.isSome_iff_exists.mp hsome
    rw [hvalue, Option.getD_some]
  next hunbound =>
    rw [Fields.lookup_set]
    have hnone : (o.context.bound.overlay fields).lookup "service" = none := by
      rw [← hmerged, ← Option.not_isSome_iff_eq_none, List.lookup_isSome_iff]
      rintro ⟨f, hf, hkey⟩
      exact hunbound (List.any_eq_true.mpr ⟨f, hf, by rwa [BEq.comm]⟩)
    rw [hnone, Option.getD_none]

theorem shows_consoleLine {level : LogLevel} {logger event key : String} {value : Json} {fields : Fields}
    (h : fields.lookup key = some value) :
    (LogLine.console (consoleLine level logger event fields)).Shows key value := by
  obtain ⟨l₁, l₂, hfields, -⟩ := List.lookup_eq_some_iff.mp h
  have hmem : (key, value) ∈ fields.mergeSort fun a b => decide (a.1 ≤ b.1) := by
    rw [List.mem_mergeSort, hfields]
    exact List.mem_append_right l₁ List.mem_cons_self
  have hend : ∀ a b : String, b.toList <:+: (a ++ b).toList := by
    intro a b
    rw [String.toList_append]
    exact (List.suffix_append _ _).isInfix
  rw [LogLine.Shows, consoleLine]
  refine List.IsInfix.trans ?_ (hend _ _)
  rw [String.toList_join]
  exact List.infix_of_mem_flatten (List.mem_map_of_mem (List.mem_map_of_mem hmem))

/-- With a configuration in force, the lines from its level on are written in its form and carry the service. -/
theorem log_of_configuration {c : LogConfiguration} (h : o.configuration = some c) (logger : String)
    (level : LogLevel) (event : String) (fields : Fields) :
    if c.threshold.rank ≤ level.rank then ∃ line, o.log logger level event fields = [line] ∧
      line.format = c.format ∧ line.Shows "service" (o.serviceOf fields)
    else o.log logger level event fields = [] := by
  rw [log, h]
  dsimp only
  have hservice := o.lookup_service_lineFields logger level event fields
  split
  next hlevel =>
    rw [if_neg (Nat.not_lt.mpr hlevel)]
    cases c.format with
    | json => exact ⟨_, rfl, rfl, hservice⟩
    | console =>
        refine ⟨_, rfl, rfl, shows_consoleLine ?_⟩
        simp only [List.foldl_cons, List.foldl_nil]
        rw [Fields.lookup_erase_of_ne _ (by decide), Fields.lookup_erase_of_ne _ (by decide),
          Fields.lookup_erase_of_ne _ (by decide), Fields.lookup_erase_of_ne _ (by decide)]
        exact hservice
  next hlevel => rw [if_pos (Nat.not_le.mp hlevel)]

end

/-- After a setup that succeeded and until another one does, the lines from its level on are written, in its
form. They carry the service name of the last setup since whose request could be completed, so that of the one
that succeeded unless a later one has failed on its level. -/
theorem lines_follow_setup {o : LogOutput} {request : SetupRequest} {settings : Except Error Settings}
    {lines : List LogLine} {calls : List LogCall} (hsetup : (o.setup request settings).2 = .ok lines)
    (hcalls : (o.setup request settings).1.NoneSucceeds calls) :
    ∃ q threshold, resolve request settings = .ok q ∧ thresholdOf q.level = .ok threshold ∧
      let later := (o.setup request settings).1.after calls
      (∀ logger level event fields, if threshold.rank ≤ level.rank
        then ∃ line, later.log logger level event fields = [line] ∧
          line.format = (if q.format = "json" then .json else .console) ∧
            line.Shows "service" (later.serviceOf fields)
        else later.log logger level event fields = []) ∧
      later.serviceName = ((calls.filterMap LogCall.serviceName?).getLast?).getD q.serviceName ∧
      ((∀ call ∈ calls, call.serviceName? = none) → later.serviceName = q.serviceName) := by
  obtain ⟨q, threshold, hq, hlevel⟩ := setup_eq_ok hsetup
  obtain ⟨hstate, -⟩ := setup_of_known_level (o := o) hq hlevel
  have hconfiguration : ((o.setup request settings).1.after calls).configuration =
      some (configurationOf q threshold) := by
    rw [configuration_after hcalls, hstate]
  have hname : ((o.setup request settings).1.after calls).serviceName =
      ((calls.filterMap LogCall.serviceName?).getLast?).getD q.serviceName := by
    rw [serviceName_after, hstate]
  refine ⟨q, threshold, hq, hlevel, log_of_configuration hconfiguration, hname, fun hnone => ?_⟩
  rw [hname, List.filterMap_eq_nil_iff.mpr hnone, List.getLast?_nil, Option.getD_none]

namespace Sample

/-- A setup that leaves nothing out and names a level. -/
def known : SetupRequest := ⟨some "INFO", some "json", some "first"⟩

/-- A setup that leaves nothing out and names no level. -/
def unknown : SetupRequest := ⟨some "verbose", some "json", some "second"⟩

def settings : Except Error Settings := Settings.load ⟨[], [], ""⟩

theorem level_known : thresholdOf "INFO" = .ok .info := by decide +kernel

theorem level_unknown : thresholdOf "verbose" = .error (.unknownLogLevel "VERBOSE") := by decide +kernel

theorem setup_known : (fresh.setup known settings).1 = ⟨some ⟨.info, .json⟩, "first", .empty⟩ ∧
    ∃ lines, (fresh.setup known settings).2 = .ok lines :=
  setup_of_known_level (q := ⟨"INFO", "json", "first"⟩) rfl level_known

theorem setup_unknown (o : LogOutput) :
    o.setup unknown settings = ({ o with serviceName := "second" }, .error (.unknownLogLevel "VERBOSE")) :=
  setup_of_unknown_level (q := ⟨"verbose", "json", "second"⟩) rfl level_unknown

theorem noneSucceeds_unknown (o : LogOutput) : o.NoneSucceeds [.setup unknown settings] := by
  refine ⟨?_, trivial⟩
  rintro _ _ ⟨⟩
  exact ⟨_, congrArg Prod.snd (setup_unknown o)⟩

end Sample

theorem lines_follow_setup_renamed : ∃ lines, (fresh.setup Sample.known Sample.settings).2 = .ok lines ∧
    (fresh.setup Sample.known Sample.settings).1.NoneSucceeds [.setup Sample.unknown Sample.settings] ∧
      ∃ line, ((fresh.setup Sample.known Sample.settings).1.after [.setup Sample.unknown Sample.settings]).log
        "test" .info "event" [] = [line] ∧ line.format = .json ∧ line.Shows "service" (.text "second") := by
  obtain ⟨hstate, lines, hlines⟩ := Sample.setup_known
  have hnone := Sample.noneSucceeds_unknown (fresh.setup Sample.known Sample.settings).1
  obtain ⟨q, threshold, hq, hlevel, hlog, hname, -⟩ := lines_follow_setup hlines hnone
  obtain rfl : ⟨"INFO", "json", "first"⟩ = q := Except.ok.inj hq
  obtain rfl : LogLevel.info = threshold := Except.ok.inj (Sample.level_known.symm.trans hlevel)
  obtain ⟨line, hline, hformat, hservice⟩ := hlog "test" .info "event" []
  refine ⟨lines, hlines, hnone, line, hline, hformat, ?_⟩
  rw [serviceOf, hname, after, List.foldl_cons, step, Sample.setup_unknown, hstate] at hservice
  exact hservice

/-- A setup that fails on its level changes the service name of the lines after it. -/
theorem failed_setup_renames_service : ¬ ∀ (o : LogOutput) request settings lines calls,
    (o.setup request settings).2 = .ok lines → (o.setup request settings).1.NoneSucceeds calls →
      ∀ q, resolve request settings = .ok q → ∀ logger level event line,
        line ∈ ((o.setup request settings).1.after calls).log logger level event [] →
          line.Shows "service" ((((o.setup request settings).1.after calls).context.bound.lookup "service").getD
            (.text q.serviceName)) := by
  intro h
  obtain ⟨hstate, lines, hlines⟩ := Sample.setup_known
  have hnone := Sample.noneSucceeds_unknown (fresh.setup Sample.known Sample.settings).1
  have hafter : (fresh.setup Sample.known Sample.settings).1.after [.setup Sample.unknown Sample.settings] =
      ⟨some ⟨.info, .json⟩, "second", .empty⟩ := by
    rw [after, List.foldl_cons, step, Sample.setup_unknown, hstate]
    rfl
  have hshown := h fresh Sample.known Sample.settings lines _ hlines hnone ⟨"INFO", "json", "first"⟩ rfl
    "test" .info "event" (.object [("event", .text "event"), ("logger", .text "test"), ("level", .text "info"),
      ("service", .text "second")]) (by rw [hafter]; exact List.mem_cons_self)
  rw [hafter] at hshown
  have hsame : "second" = "first" := Json.text.inj (Option.some.inj hshown)
  revert hsame
  decide

end LogOutput
end UsageBilling
