import NixieTracker.App.Listeners
import NixieTracker.Rtc.Reading

/-!
# The commands that print what they read from the clock

Five commands read from the clock and print what they find in their union once the clock is not busy.
They do not ask whether the read has succeeded, and a clock in its error state is not busy.

* `ReportsReceived`: what is printed was received by the transfer that the command started, and that
  transfer was completed.
* `ReportLost`: the driver does not take the transfer of such a command, or the transfer fails.
* `perform_reports`: such a command prints one text, which is right if memory holds what was read;
  `perform_stores`, `perform_silent`: the other commands.
* `AppCall.IsOther`: the calls that have nothing to do with the clock.
-/

namespace NixieTracker

open Lib RtcOperation

/-! ## What is reported -/

/-- What a command reads to print it; `register` is the argument of `rtc register read`. -/
def AppCommandTaskCallback.reads (register : UInt8) : AppCommandTaskCallback → Option RtcOperation
  | .performRTCOscillatorStatus => some (.oscillatorStatus commandRTCAddress)
  | .performRTCBatteryStatus => some (.batteryBackupStatus commandRTCAddress)
  | .performRTCDateShow => some (.readDateAndTime commandRTCAddress)
  | .performRTCDump => some (.readNumRegisters commandRTCAddress (Fin.last rtcNumRegisters))
  | .performRTCRegisterRead => some (.readRegister register commandRTCRegisterValue)
  | _ => none

def AppCommandTaskCallback.reports (callback : AppCommandTaskCallback) : Bool :=
  (callback.reads 0).isSome

/-- What the received bytes say. -/
def RtcOperation.report (received : Nat → UInt8) : RtcOperation → Option Printed
  | .oscillatorStatus _ => some (.oscillatorStatus (received 0 &&& flagStartOscillator ≠ 0))
  | .batteryBackupStatus _ => some (.batteryStatus (received 0 &&& flagBatteryEnable ≠ 0))
  | .readDateAndTime _ => some (.date (dateTimeOfRegisters (.ofBytes (firstBytes received 7))))
  | .readNumRegisters _ n => some (.registers (firstBytes received n))
  | .readRegister _ _ => some (.registerValue (received 0))
  | _ => none

def Printed.isReport : Printed → Bool
  | .oscillatorStatus _ | .batteryStatus _ | .date _ | .registers _ | .registerValue _ => true
  | _ => false

/-- The callback that was invoked last, and what has happened since. -/
def observeInvoked : Option (AppCommandTaskCallback × List AppEvent) → AppEvent →
    Option (AppCommandTaskCallback × List AppEvent)
  | _, .task (.call (some callback) _ .invoke _) => some (callback, [])
  | invoked, e => invoked.map fun i => (i.1, i.2 ++ [e])

def lastInvoked (log : List AppEvent) : Option (AppCommandTaskCallback × List AppEvent) :=
  log.foldl observeInvoked none

/-- The transfer on the bus is over, or there is another one. -/
def AppEvent.endsTransfer : AppEvent → Bool
  | .rtc (.transfer _ _) | .transferStatus .complete | .transferStatus .error => true
  | _ => false

/-- The operation starts its transfer, the driver completes it and has received these bytes. -/
def ReadCompleted (op : RtcOperation) (received : Nat → UInt8) (es : List AppEvent) : Prop :=
  ∃ polls rest, es = .rtc op.request ::
      (polls ++ .transferStatus .complete :: ((op.reception received).map .rtc ++ rest)) ∧
    ∀ e ∈ polls, e.endsTransfer = false

/-- The command that was invoked last has completed its read, and this is what it has received. -/
def Reported (log : List AppEvent) (text : Printed) : Prop :=
  ∃ callback es register op received, lastInvoked log = some (callback, es) ∧
    callback.reads register = some op ∧ ReadCompleted op received es ∧ op.report received = some text

def ReportsReceived (log : List AppEvent) : Prop :=
  ∀ before io text after, log = before ++ .print io text :: after → text.isReport = true →
    Reported before text

/-- A command that reports is running. -/
def AppData.Reporting (app : AppData) : Prop :=
  app.command.task.state = .running ∧ app.command.task.callback.any (·.reports) = true

/-- The property of a state, with what has happened before. -/
structure ReportsAccurate (app : AppData) (log : List AppEvent) : Prop where
  received : ReportsReceived log
  /-- A read that is over, well or not, ends the command. -/
  finishes : app.Reporting → rtcIsBusy app.rtc = false → ∀ answers,
    (appCommandTasks app answers).1.command.task.state = .none

def recordEvent (log : List AppEvent) (e : AppEvent) : List AppEvent := log ++ [e]

theorem foldl_recordEvent (log es : List AppEvent) : es.foldl recordEvent log = log ++ es :=
  Machine.foldl_concat log es

/-- An event that is not about a read. -/
def AppEvent.isOther : AppEvent → Bool
  | .task (.call _ _ .invoke _) | .rtc _ | .transferStatus _ => false
  | .print _ text => !text.isReport
  | _ => true

theorem lastInvoked_append {log es : List AppEvent} {callback : AppCommandTaskCallback}
    {since : List AppEvent} (h : lastInvoked log = some (callback, since))
    (hes : ∀ e ∈ es, ∀ callback io result, e ≠ .task (.call (some callback) io .invoke result)) :
    lastInvoked (log ++ es) = some (callback, since ++ es) := by
  induction es generalizing log since with
  | nil => rw [List.append_nil, List.append_nil, h]
  | cons e es ih =>
    have hone : lastInvoked (log ++ [e]) = some (callback, since ++ [e]) := by
      rw [lastInvoked, List.foldl_append]
      show observeInvoked (lastInvoked log) e = _
      rw [h]
      unfold observeInvoked
      split
      · exact absurd rfl (hes _ (List.mem_cons_self ..) _ _ _)
      · rfl
    have hrest := ih hone fun e he => hes e (List.mem_cons_of_mem _ he)
    rwa [List.append_assoc, List.append_assoc] at hrest

theorem not_invoke_of_isOther {e : AppEvent} (h : e.isOther = true)
    (callback : AppCommandTaskCallback) (io : Option CmdIo)
    (result : AppCommandTaskCallbackResult) :
    e ≠ .task (.call (some callback) io .invoke result) := by
  rintro rfl
  cases h

theorem endsTransfer_of_isOther {e : AppEvent} (h : e.isOther = true) : e.endsTransfer = false := by
  cases e with
  | rtc | transferStatus => cases h
  | _ => rfl

/-- The events of a call are reports only of what was received. -/
theorem ReportsReceived.append {log es : List AppEvent} (h : ReportsReceived log)
    (hes : ∀ before io text after, es = before ++ .print io text :: after → text.isReport = true →
      Reported (log ++ before) text) : ReportsReceived (log ++ es) := by
  intro before io text after heq htext
  rcases List.append_eq_append_iff.mp heq with ⟨t, rfl, ht⟩ | ⟨t, rfl, ht⟩
  · exact hes t io text after ht htext
  · cases t with
    | nil =>
      have hnew := hes [] io text after ht.symm htext
      rwa [List.append_nil, List.append_nil] at hnew
    | cons p t =>
      obtain ⟨rfl, -⟩ := List.cons.inj ht
      exact h before io text t rfl htext

theorem ReportsReceived.append_silent {log es : List AppEvent} (h : ReportsReceived log)
    (hes : ∀ io text, .print io text ∈ es → text.isReport = false) :
    ReportsReceived (log ++ es) := by
  refine h.append fun before io text after heq htext => ?_
  rw [hes io text (by rw [heq]; simp)] at htext
  cases htext

theorem isReport_of_isOther {es : List AppEvent} (h : ∀ e ∈ es, e.isOther = true)
    (io : Option CmdIo) (text : Printed) (hmem : .print io text ∈ es) : text.isReport = false := by
  simpa [AppEvent.isOther] using h _ hmem

theorem ReadCompleted.append {op : RtcOperation} {received : Nat → UInt8} {es : List AppEvent}
    (h : ReadCompleted op received es) (es' : List AppEvent) :
    ReadCompleted op received (es ++ es') := by
  obtain ⟨polls, rest, rfl, hpolls⟩ := h
  exact ⟨polls, rest ++ es', by simp, hpolls⟩

/-! ## The callbacks -/

section Callbacks

variable {app : AppData} {callback : AppCommandTaskCallback} {register : UInt8} {op : RtcOperation}
  {received : Nat → UInt8}

theorem reads_of_reports (h : callback.reports = true) (register : UInt8) :
    ∃ op, callback.reads register = some op := by
  cases callback <;> first | exact ⟨_, rfl⟩ | cases h

theorem performRTC_busy (h : rtcIsBusy app.rtc = true) (start : RtcView → RtcView × List RtcEvent)
    (report : AppData → List Printed) (io : Option CmdIo) :
    performRTC start report app io .update = (.running, app, []) := by
  simp [performRTC, h]

theorem performRTC_idle (h : rtcIsBusy app.rtc = false) (start : RtcView → RtcView × List RtcEvent)
    (report : AppData → List Printed) (io : Option CmdIo) :
    performRTC start report app io .update = (.finished, app, (report app).map (.print io)) := by
  simp [performRTC, h]

theorem flagByte_ne_zero (value flag : UInt8) :
    [flagByte value flag] ≠ [0] ↔ value &&& flag ≠ 0 := by
  unfold flagByte
  split <;> simp_all

/-- A command that reports prints one text, which is right if memory holds what was read. -/
theorem perform_reports (h : callback.reads register = some op) (answers : CommandAnswers)
    (io : Option CmdIo) :
    ∃ (start : AppData → RtcView → RtcView × List RtcEvent) (text : AppData → Printed),
      (∀ mode app, perform answers callback io mode app =
        performRTC (start app) (fun app => [text app]) app io mode) ∧
      (∀ app, (text app).isReport = true) ∧
      ∀ app received, op.Stored received app.command.rtc.memory →
        op.report received = some (text app) := by
  cases callback with
  | performRTCOscillatorStatus =>
    cases h
    refine ⟨fun _ v => rtcOscillatorStatus v answers.i2c commandRTCAddress,
      fun app => .oscillatorStatus (app.command.rtc.load 1 ≠ [0]),
      fun _ _ => rfl, fun _ => rfl, fun app received hst => ?_⟩
    have hload : app.command.rtc.load 1 = [flagByte (received 0) flagStartOscillator] :=
      hst _ _ rfl
    simp only [report, hload, flagByte_ne_zero]
  | performRTCBatteryStatus =>
    cases h
    refine ⟨fun _ v => rtcBatteryBackupStatus v answers.i2c commandRTCAddress,
      fun app => .batteryStatus (app.command.rtc.load 1 ≠ [0]),
      fun _ _ => rfl, fun _ => rfl, fun app received hst => ?_⟩
    have hload : app.command.rtc.load 1 = [flagByte (received 0) flagBatteryEnable] :=
      hst _ _ rfl
    simp only [report, hload, flagByte_ne_zero]
  | performRTCDateShow =>
    cases h
    refine ⟨fun _ v => rtcReadDateAndTime v answers.i2c commandRTCAddress,
      fun app => .date (.ofBytes (app.command.rtc.load RtcDateTime.size)),
      fun _ _ => rfl, fun _ => rfl, fun app received hst => ?_⟩
    have hload : app.command.rtc.load RtcDateTime.size = _ := hst _ _ rfl
    simp only [report, hload, RtcDateTime.ofBytes_bytes]
  | performRTCDump =>
    cases h
    refine ⟨fun _ v => rtcReadNumRegisters v answers.i2c (.caller commandRTCAddress) rtcNumRegisters,
      fun app => .registers (app.command.rtc.load rtcNumRegisters),
      fun _ _ => rfl, fun _ => rfl, fun app received hst => ?_⟩
    have hload := hst _ _ rfl
    rw [length_firstBytes] at hload
    exact congrArg (fun values => some (Printed.registers values)) hload.symm
  | performRTCRegisterRead =>
    cases h
    refine ⟨fun app v => rtcReadRegister v answers.i2c app.command.rtc.registerAddress
        commandRTCRegisterValue,
      fun app => .registerValue app.command.rtc.registerValue,
      fun _ _ => rfl, fun _ => rfl, fun app received hst => ?_⟩
    have hload : app.command.rtc.memory.load commandRTCRegisterValue.toNat 1 = [received 0] :=
      hst _ _ rfl
    exact congrArg (fun value => some (Printed.registerValue value)) (List.cons.inj hload).1.symm
  | _ => cases h

/-- Whatever has become of the read. -/
theorem perform_reports_idle (h : callback.reports = true) (hidle : rtcIsBusy app.rtc = false)
    (answers : CommandAnswers) (io : Option CmdIo) :
    ∃ text, text.isReport = true ∧
      perform answers callback io .update app = (.finished, app, [.print io text]) := by
  obtain ⟨op, hop⟩ := reads_of_reports h 0
  obtain ⟨start, text, hperform, htext, -⟩ := perform_reports hop answers io
  refine ⟨text app, htext app, ?_⟩
  rw [hperform, performRTC_idle hidle]
  rfl

theorem perform_reported (h : callback.reads register = some op)
    (hidle : rtcIsBusy app.rtc = false) (hst : op.Stored received app.command.rtc.memory)
    (answers : CommandAnswers) (io : Option CmdIo) :
    ∃ text, op.report received = some text ∧
      perform answers callback io .update app = (.finished, app, [.print io text]) := by
  obtain ⟨start, text, hperform, -, hreport⟩ := perform_reports h answers io
  refine ⟨text app, hreport app received hst, ?_⟩
  rw [hperform, performRTC_idle hidle]
  rfl

/-- The other commands leave no follow-up that writes to a caller, and report nothing. -/
theorem perform_stores (h : callback.reports = false) (hnext : app.rtc.nextTask.stores = false)
    (answers : CommandAnswers) (io : Option CmdIo) (mode : AppCommandTaskCallbackMode) :
    (perform answers callback io mode app).2.1.rtc.nextTask.stores = false := by
  cases hc : callback.ownCheck with
  | performFetchCheckAvailable =>
    cases callback with
    | performFetch =>
      cases mode with
      | invoke =>
        simp only [perform, performFetch]
        split <;> exact hnext
      | update => exact hnext
    | _ => cases hc
  | performFlashCheckAvailable =>
    rw [perform_flash answers io mode app hc]
    exact hnext
  | performNixieCheckAvailable =>
    obtain ⟨nixie, union, heq⟩ := perform_nixie answers io mode app hc
    rw [heq]
    exact hnext
  | performShiftRegisterCheckAvailable =>
    obtain ⟨shiftRegister, heq⟩ := perform_shiftRegister answers io mode app hc
    rw [heq]
    exact hnext
  | performRTCCheckAvailable =>
    have hop : ∃ (op : RtcOperation) (report : AppData → List Printed),
        op.nextTask.stores = false ∧ perform answers callback io mode app =
          performRTC (fun v => op.start v answers.i2c) report app io mode := by
      cases callback with
      | performRTCOscillatorStart => exact ⟨.enableOscillator true, fun _ => [], rfl, rfl⟩
      | performRTCOscillatorStop => exact ⟨.enableOscillator false, fun _ => [], rfl, rfl⟩
      | performRTCBatteryEnable => exact ⟨.enableBatteryBackup true, fun _ => [], rfl, rfl⟩
      | performRTCBatteryDisable => exact ⟨.enableBatteryBackup false, fun _ => [], rfl, rfl⟩
      | performRTCDateSet =>
        exact ⟨.writeDateAndTime (.ofBytes (app.command.rtc.load RtcDateTime.size)), fun _ => [],
          rfl, rfl⟩
      | performRTCRegisterWrite =>
        exact ⟨.writeRegister app.command.rtc.registerAddress app.command.rtc.registerValue,
          fun _ => [], rfl, rfl⟩
      | performRTCOscillatorStatus | performRTCBatteryStatus | performRTCDateShow | performRTCDump
      | performRTCRegisterRead => cases h
      | _ => cases hc
    obtain ⟨op, report, hop, heq⟩ := hop
    rw [heq]
    cases mode with
    | invoke => exact start_stores hop hnext answers.i2c
    | update =>
      unfold performRTC
      dsimp only
      split <;> exact hnext

theorem perform_silent (h : callback.reports = false) (answers : CommandAnswers)
    (io : Option CmdIo) (mode : AppCommandTaskCallbackMode) (io' : Option CmdIo) (text : Printed)
    (hmem : .print io' text ∈ (perform answers callback io mode app).2.2) :
    text.isReport = false := by
  have hrtc (start : RtcView → RtcView × List RtcEvent)
      (hmem : .print io' text ∈ (performRTC start (fun _ => []) app io mode).2.2) : False := by
    cases mode with
    | invoke => simp [performRTC] at hmem
    | update =>
      unfold performRTC at hmem
      dsimp only at hmem
      split at hmem <;> simp at hmem
  cases callback with
  | performRTCOscillatorStatus | performRTCBatteryStatus | performRTCDateShow | performRTCDump
  | performRTCRegisterRead => cases h
  | performRTCOscillatorStart | performRTCOscillatorStop | performRTCDateSet
  | performRTCBatteryEnable | performRTCBatteryDisable | performRTCRegisterWrite =>
    exact (hrtc _ hmem).elim
  | performFetch =>
    cases mode with
    | invoke =>
      simp only [perform, performFetch] at hmem
      split at hmem <;> simp at hmem
    | update => cases hmem
  | performFlashSectors =>
    cases mode with
    | invoke =>
      cases List.mem_singleton.mp hmem
      split <;> rfl
    | update => cases hmem
  | performFlashFormat =>
    cases mode with
    | invoke =>
      cases List.mem_singleton.mp hmem
      rfl
    | update => cases hmem
  | performNixieFetch =>
    cases mode with
    | invoke =>
      simp only [perform, performNixieFetch] at hmem
      split at hmem <;> simp at hmem
    | update =>
      simp only [perform, performNixieFetch] at hmem
      split at hmem
      · cases hmem
      · cases List.mem_singleton.mp hmem
        split <;> rfl
  | performShiftRegisterSetEnabled | performShiftRegisterSetDisabled =>
    cases mode with
    | invoke =>
      obtain ⟨e, -, he⟩ := List.mem_map.mp hmem
      cases he
    | update => cases hmem
  | performNixieDisplay | performShiftRegisterSendData => cases mode <;> cases hmem

end Callbacks

/-! ## The calls that have nothing to do with the clock -/

theorem runListeners_other (app : AppData) (es : List (ClientEvent AppListener)) :
    (runListeners app es).1.rtcView = app.rtcView ∧
      (runListeners app es).1.command.task = app.command.task ∧
      ∀ e' ∈ (runListeners app es).2, e'.isOther = true := by
  have hsame := runListeners_same app es
  refine ⟨by rw [hsame.eq]; rfl, by rw [hsame.eq], fun e' he => ?_⟩
  rcases mem_runListeners he with ⟨e, -, rfl⟩ | ⟨bytes, -, rfl⟩ <;> rfl

theorem appNixieModuleTasks_other (app : AppData) (answers : NixieAnswers) :
    (appNixieModuleTasks app answers).1.rtcView = app.rtcView ∧
      (appNixieModuleTasks app answers).1.command.task = app.command.task ∧
      ∀ e ∈ (appNixieModuleTasks app answers).2, e.isOther = true := by
  unfold appNixieModuleTasks
  obtain ⟨union, heq⟩ := storeNixieEvents_eq
    (app.setNixieView (appNixieTasks .nixie answers app.nixieView).1)
    (appNixieTasks .nixie answers app.nixieView).2
  dsimp only
  rw [heq]
  refine ⟨rfl, rfl, fun e he => ?_⟩
  simp only [List.mem_append, nixieSubmits] at he
  rcases he with (he | he) | he
  · split at he
    · cases List.mem_singleton.mp he
      rfl
    · cases he
  · split at he
    · cases List.mem_singleton.mp he
      rfl
    · cases he
  · obtain ⟨e', -, rfl⟩ := List.mem_map.mp he
    rfl

theorem runConsoleEvents_other (app : AppData) (es : List ConsoleEvent)
    (hes : ∀ t, .task t ∈ es → (AppEvent.task t).isOther = true) :
    ∀ e ∈ (runConsoleEvents app es).2, e.isOther = true := by
  induction es generalizing app with
  | nil =>
    intro e he
    cases he
  | cons e es ih =>
    intro e' he
    rcases List.mem_append.mp he with he | he
    · cases e with
      | task t =>
        cases List.mem_singleton.mp he
        exact hes t (List.mem_cons_self ..)
      | periodicTasksSetEnabled => cases he
    · exact ih _ (fun t ht => hes t (List.mem_cons_of_mem _ ht)) e' he

/-- A line may schedule a task and runs none. -/
theorem appLine_other (app : AppData) (line : ConsoleLine) :
    ((appLine app line).1.command.task.state = .running →
        app.command.task.state = .running) ∧
      ∀ e ∈ (appLine app line).2, e.isOther = true := by
  obtain ⟨enabled, heq⟩ := appLine_eq app line
  have htask : (appLine app line).1.command.task = (consoleLine app.command line).1.task :=
    congrArg (fun app : AppData => app.command.task) heq
  rw [htask]
  unfold appLine
  dsimp only
  generalize hres : consoleLine app.command line = res
  cases hres ▸ consoleLine_result app.command line with
  | unchanged events hevents =>
    refine ⟨id, runConsoleEvents_other _ events fun t ht => ?_⟩
    have hmem : t ∈ taskEvents events := List.mem_filterMap.mpr ⟨_, ht, rfl⟩
    rw [hevents] at hmem
    cases hmem
  | scheduled storage callback hnone =>
    refine ⟨fun h => (by cases h), runConsoleEvents_other _ _ fun t ht => ?_⟩
    cases List.mem_singleton.mp ht
    rfl

/-- A call that is neither the clock's nor the command task's, and types no new command. -/
inductive AppCall.IsOther (app : AppData) : AppCall → Prop
  | flashTasks (answers : FlashAnswers) : IsOther app (.flashTasks answers)
  | httpsClientTasks (net : NetAnswers) : IsOther app (.httpsClientTasks net)
  | shiftRegisterTasks : IsOther app .shiftRegisterTasks
  | nixieTasks (answers : NixieAnswers) : IsOther app (.nixieTasks answers)
  | line (line : ConsoleLine) (h : app.command.task.state ≠ .none) : IsOther app (.line line)

theorem AppCall.IsOther.step {app : AppData} {call : AppCall} (h : call.IsOther app) :
    (App.machine.step app call).1.rtcView = app.rtcView ∧
      (App.machine.step app call).1.command.task = app.command.task ∧
      ∀ e ∈ (App.machine.step app call).2, e.isOther = true := by
  cases h with
  | flashTasks answers => exact ⟨rfl, rfl, fun e he => by cases he⟩
  | httpsClientTasks net => exact runListeners_other _ _
  | shiftRegisterTasks =>
    refine ⟨rfl, rfl, fun e he => ?_⟩
    obtain ⟨e', -, rfl⟩ := List.mem_map.mp he
    rfl
  | nixieTasks answers => exact appNixieModuleTasks_other app answers
  | line line h =>
    have heq : App.machine.step app (.line line) = (app, []) := appLine_busy h line
    rw [heq]
    exact ⟨rfl, rfl, fun e he => by cases he⟩

end NixieTracker
