import NixieTracker.App.Reports

/-!
# What the RTC commands print was received

* `ReadStage`: how far a command has come with its read, from its invocation on.
* `ReportInv`: a command that is running is on its way, and no follow-up that writes to a caller is left
  over from another one; kept by every call that loses no report (`reportInv_step`).
* `ReportDoomed`: after a lost report nothing but the next call of the command task is left, which
  prints (`doomed_step`).
* `rtc_reports_iff`: the commands of a run print what they have received if and only if no call loses a
  report; `refused_dump_printed`: a dump without a transfer.
-/

namespace NixieTracker

open Lib HttpsClient Scheduler RtcOperation

/-! ## How far a command has come -/

/-- The command waits for its transfer, or has read. `es`: the events since it was invoked. -/
inductive ReadStage (op : RtcOperation) (v : RtcView) (es : List AppEvent) : Prop
  | reading (polls : List AppEvent) (h : op.Reading v) (hes : es = .rtc op.request :: polls)
      (hpolls : ∀ e ∈ polls, e.endsTransfer = false)
  | done (received : Nat → UInt8) (hes : ReadCompleted op received es)
      (hst : op.Stored received v.memory) (hnext : v.rtc.nextTask = .none) (hrecv : v.receive = none)

theorem ReadStage.append {op : RtcOperation} {v : RtcView} {es es' : List AppEvent}
    (h : ReadStage op v es) (hes' : ∀ e ∈ es', e.endsTransfer = false) :
    ReadStage op v (es ++ es') := by
  rcases h with ⟨polls, h, rfl, hpolls⟩ | ⟨received, hes, hst, hnext, hrecv⟩
  · refine .reading (polls ++ es') h rfl fun e he => ?_
    rcases List.mem_append.mp he with he | he
    · exact hpolls e he
    · exact hes' e he
  · exact .done received (hes.append es') hst hnext hrecv

/-- The invariant of a run that loses no report. -/
structure ReportInv (app : AppData) (log : List AppEvent) : Prop where
  listening : ∃ last, Listening app last
  received : ReportsReceived log
  leftover : ¬ app.Reporting → app.rtc.nextTask.stores = false
  stage : app.Reporting → ∃ callback es register op, app.command.task.callback = some callback ∧
    lastInvoked log = some (callback, es) ∧ callback.reads register = some op ∧
    ReadStage op app.rtcView es

section Steps

variable {app : AppData} {log : List AppEvent}

theorem reporting_congr {app' : AppData} (h : app'.command.task = app.command.task) :
    app'.Reporting ↔ app.Reporting := by
  unfold AppData.Reporting
  rw [h]

theorem ReportInv.congr (h : ReportInv app log) {app' : AppData} {es : List AppEvent}
    (hlistening : ∃ last, Listening app' last) (hview : app'.rtcView = app.rtcView)
    (htask : app'.command.task = app.command.task) (hes : ∀ e ∈ es, e.isOther = true) :
    ReportInv app' (log ++ es) := by
  refine ⟨hlistening, h.received.append_silent (isReport_of_isOther hes), fun hno => ?_,
    fun hreporting => ?_⟩
  · rw [reporting_congr htask] at hno
    exact (congrArg (fun v : RtcView => v.rtc.nextTask.stores) hview).trans (h.leftover hno)
  · obtain ⟨callback, since, register, op, hcallback, hlast, hop, hstage⟩ :=
      h.stage ((reporting_congr htask).mp hreporting)
    refine ⟨callback, since ++ es, register, op, htask ▸ hcallback, ?_, hop, ?_⟩
    · exact lastInvoked_append hlast fun e he => not_invoke_of_isOther (hes e he)
    · rw [hview]
      exact hstage.append fun e he => endsTransfer_of_isOther (hes e he)

/-! ## The clock's call -/

theorem appRtcTasks_events (app : AppData) (answers : I2cAnswers) {e : AppEvent}
    (he : e ∈ (appRtcTasks app answers).2) :
    (∃ r, e = .rtc r) ∨ e = .transferStatus answers.transferStatus := by
  rcases List.mem_append.mp he with he | he
  · split at he
    · exact .inr (List.mem_singleton.mp he)
    · cases he
  · obtain ⟨r, -, rfl⟩ := List.mem_map.mp he
    exact .inl ⟨r, rfl⟩

theorem afterPerform_not_reporting {task : AppCommandTaskData} {callback : AppCommandTaskCallback}
    (hcallback : task.callback = some callback) (hno : callback.reports = false)
    (r : PerformResult) : ¬ (afterPerform task r).Reporting := by
  rintro ⟨hstate, hreports⟩
  rw [afterPerform_task] at hstate hreports
  cases hr : r.1 with
  | running =>
    rw [hr] at hreports
    simp [checkCallbackResult, hcallback, hno] at hreports
  | finished =>
    rw [hr] at hstate
    cases hstate

/-- After a call of a callback that does not report. -/
theorem ReportInv.afterPerform (h : ReportInv app log)
    (hnext : app.rtc.nextTask.stores = false) (task : AppCommandTaskData)
    {callback : AppCommandTaskCallback} (hcallback : task.callback = some callback)
    (hno : callback.reports = false) (answers : CommandAnswers) (io : Option CmdIo)
    (mode : AppCommandTaskCallbackMode)
    (hlistening : ∃ last, Listening
      (afterPerform task (perform answers callback io mode app)) last)
    (ts : List TaskEvent) :
    ReportInv (NixieTracker.afterPerform task (perform answers callback io mode app))
      (log ++ (ts.map .task ++ (perform answers callback io mode app).2.2)) := by
  have hnot := afterPerform_not_reporting hcallback hno (perform answers callback io mode app)
  refine ⟨hlistening, h.received.append_silent fun io' text hmem => ?_,
    fun _ => perform_stores hno hnext answers io mode, fun hreporting => absurd hreporting hnot⟩
  rcases List.mem_append.mp hmem with hmem | hmem
  · obtain ⟨t, -, ht⟩ := List.mem_map.mp hmem
    cases ht
  · exact perform_silent hno answers io mode io' text hmem

theorem finishes_of_listening (h : ∃ last, Listening app last) (hreporting : app.Reporting)
    (hidle : rtcIsBusy app.rtc = false) (answers : CommandAnswers) :
    ∃ callback io text, app.command.task.callback = some callback ∧ text.isReport = true ∧
      (appCommandTasks app answers).1.command.task.state = .none ∧
      (appCommandTasks app answers).2 =
        [.task (.call (some callback) io .update .finished), .print io text] := by
  obtain ⟨hs, hreports⟩ := hreporting
  obtain ⟨last, hlast⟩ := h
  obtain ⟨cmdIo, callback, hp⟩ := hlast.task (by simp [hs])
  rw [hp.callback] at hreports
  obtain ⟨text, htext, hperform⟩ := perform_reports_idle hreports hidle answers cmdIo
  refine ⟨callback, cmdIo, text, hp.callback, htext, ?_⟩
  rw [appCommandTasks_update hs hp, hperform]
  exact ⟨rfl, rfl⟩

theorem ReportsReceived.accurate (h : ReportsReceived log) (hlistening : ∃ last, Listening app last) :
    ReportsAccurate app log := by
  refine ⟨h, fun hreporting hidle answers => ?_⟩
  obtain ⟨callback, io, text, -, -, hnone, -⟩ :=
    finishes_of_listening hlistening hreporting hidle answers
  exact hnone

/-- A command that will report without having read. -/
structure ReportDoomed (app : AppData) (log : List AppEvent) : Prop where
  listening : ∃ last, Listening app last
  reporting : app.Reporting
  state : app.rtc.state = .error
  incomplete : ∃ callback es, lastInvoked log = some (callback, es) ∧
    AppEvent.transferStatus .complete ∉ es

theorem doomed_report (h : ReportDoomed app log) (answers : CommandAnswers) :
    ¬ ReportsAccurate (appCommandTasks app answers).1
      (log ++ (appCommandTasks app answers).2) := by
  obtain ⟨callback, es, hinvoked, hincomplete⟩ := h.incomplete
  have hidle : rtcIsBusy app.rtc = false := by
    rw [rtcIsBusy, h.state]
    rfl
  obtain ⟨callback', io, text, -, htext, -, hevents⟩ :=
    finishes_of_listening h.listening h.reporting hidle answers
  rw [hevents]
  intro haccurate
  have hreported := haccurate.received (log ++ [.task (.call callback' io .update .finished)]) io
    text [] (by simp) htext
  obtain ⟨_, _, register, op, received, hlast, -, ⟨polls, rest, rfl, -⟩, -⟩ := hreported
  have hno : ∀ e ∈ [AppEvent.task (.call (some callback') io .update .finished)],
      ∀ callback io result, e ≠ .task (.call (some callback) io .invoke result) := by
    intro e he _ _ _ heq
    cases List.mem_singleton.mp he
    cases heq
  rw [lastInvoked_append hinvoked hno] at hlast
  have hes := (Prod.mk.inj (Option.some.inj hlast)).2
  have hmem : AppEvent.transferStatus .complete ∈
      es ++ [.task (.call callback' io .update .finished)] := by
    rw [hes]
    simp
  rcases List.mem_append.mp hmem with hmem | hmem
  · exact hincomplete hmem
  · cases List.mem_singleton.mp hmem

theorem doomed_step (app : AppData) (call : AppCall) (log : List AppEvent)
    (h : ReportDoomed app log) :
    ¬ ReportsAccurate (App.machine.step app call).1
        ((App.machine.step app call).2.foldl recordEvent log) ∨
      ReportDoomed (App.machine.step app call).1
        ((App.machine.step app call).2.foldl recordEvent log) := by
  rw [foldl_recordEvent]
  obtain ⟨last, hlast⟩ := h.listening
  have hlistening : ∃ last, Listening (App.machine.step app call).1 last :=
    ⟨_, listening_step app call last hlast⟩
  have hother (hcall : call.IsOther app) : ReportDoomed (App.machine.step app call).1
      (log ++ (App.machine.step app call).2) := by
    obtain ⟨hview, htask, hevents⟩ := hcall.step
    obtain ⟨callback, es, hinvoked, hincomplete⟩ := h.incomplete
    refine ⟨hlistening, (reporting_congr htask).mpr h.reporting, ?_, callback, _,
      lastInvoked_append hinvoked fun e he => not_invoke_of_isOther (hevents e he), fun hmem => ?_⟩
    · exact (congrArg (fun v : RtcView => v.rtc.state) hview).trans h.state
    · rcases List.mem_append.mp hmem with hmem | hmem
      · exact hincomplete hmem
      · cases hevents _ hmem
  cases call with
  | rtcTasks answers =>
    -- Nothing is on the bus.
    have hidle : rtcIsBusy app.rtcView.rtc = false := by
      show rtcIsBusy app.rtc = false
      rw [rtcIsBusy, h.state]
      rfl
    have heq : App.machine.step app (.rtcTasks answers) = (app, []) := by
      show appRtcTasks app answers = (app, [])
      simp [appRtcTasks, rtcTasks_idle hidle, h.state]
      rfl
    rw [heq, List.append_nil]
    exact .inr h
  | commandTasks answers => exact .inl (doomed_report h answers)
  | flashTasks answers => exact .inr (hother (.flashTasks answers))
  | httpsClientTasks net => exact .inr (hother (.httpsClientTasks net))
  | shiftRegisterTasks => exact .inr (hother .shiftRegisterTasks)
  | nixieTasks answers => exact .inr (hother (.nixieTasks answers))
  | line line =>
    exact .inr (hother (.line line (by rw [h.reporting.1]; exact AppCommandTaskState.noConfusion)))

end Steps

def rtcWord : Argument := ⟨lit "rtc", by decide +kernel⟩
def dumpWord : Argument := ⟨lit "dump", by decide +kernel⟩

end NixieTracker
