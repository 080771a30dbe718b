import NixieTracker.App.Command
import NixieTracker.Lib.Machine

/-!
# Console tasks: schedule, invoke, update, finish

The console's lines and the calls of `APP_Command_Task_Tasks`, in any order, as a machine over
`AppCommandData`. What the callbacks answer is free (`TaskAnswer`), and the other modules may write the
argument storage at any time.

* `consoleLine_result`: a line does nothing to `AppCommandData`, or it schedules one task, which it
  does only when there is none.
* `Pending`: a task that is scheduled or running has the callbacks of the last schedule.
* `task_protocol`: what the scheduler does with a task, from its schedule to the next one.
-/

namespace NixieTracker

open Lib

/-- The availability check that a command schedules with its callback. -/
def AppCommandTaskCallback.ownCheck :
    AppCommandTaskCallback → AppCommandTaskCheckAvailableCallback
  | .performFetch => .performFetchCheckAvailable
  | .performFlashSectors | .performFlashFormat => .performFlashCheckAvailable
  | .performNixieDisplay | .performNixieFetch => .performNixieCheckAvailable
  | .performRTCOscillatorStart | .performRTCOscillatorStop | .performRTCOscillatorStatus
  | .performRTCDateShow | .performRTCDateSet
  | .performRTCBatteryEnable | .performRTCBatteryDisable | .performRTCBatteryStatus
  | .performRTCDump | .performRTCRegisterRead | .performRTCRegisterWrite =>
    .performRTCCheckAvailable
  | .performShiftRegisterSetEnabled | .performShiftRegisterSetDisabled
  | .performShiftRegisterSendData => .performShiftRegisterCheckAvailable

def ConsoleEvent.task? : ConsoleEvent → Option TaskEvent
  | .task e => some e
  | .periodicTasksSetEnabled _ => none

/-- What the scheduler does during a line. -/
def taskEvents (es : List ConsoleEvent) : List TaskEvent := es.filterMap (·.task?)

/-! ## Lines -/

/-- A line at `cmdIo` leaves the data alone, or it schedules one task with new arguments. -/
inductive LineResult (d : AppCommandData) (cmdIo : CmdIo) : ConsoleResult → Prop
  | unchanged (events : List ConsoleEvent) (h : taskEvents events = []) :
    LineResult d cmdIo (d, events)
  | scheduled (storage : CommandStorage) (callback : AppCommandTaskCallback)
      (h : d.task.state = .none) :
    LineResult d cmdIo (schedule (d.setStorage storage) cmdIo callback callback.ownCheck)

section Lines

variable {d : AppCommandData} (cmdIo : CmdIo) (argv : List Argument)

theorem LineResult.nothing : LineResult d cmdIo (d, []) := .unchanged [] rfl

theorem appCmdFetch_result (h : d.task.state = .none) :
    LineResult d cmdIo (appCmdFetch d cmdIo argv) := by
  unfold appCmdFetch
  split
  · exact .scheduled (_, d.nixie, d.rtc, d.shiftRegister) .performFetch h
  · exact .nothing cmdIo

theorem appCmdFlashSectors_result (h : d.task.state = .none) :
    LineResult d cmdIo (appCmdFlashSectors d cmdIo argv) := by
  unfold appCmdFlashSectors
  split
  · exact .nothing cmdIo
  · exact .scheduled d.storage .performFlashSectors h

theorem appCmdFlashFormat_result (h : d.task.state = .none) :
    LineResult d cmdIo (appCmdFlashFormat d cmdIo argv) := by
  unfold appCmdFlashFormat
  split
  · exact .nothing cmdIo
  · exact .scheduled d.storage .performFlashFormat h

theorem appCmdNixieDisplay_result (h : d.task.state = .none) :
    LineResult d cmdIo (appCmdNixieDisplay d cmdIo argv) := by
  unfold appCmdNixieDisplay
  split
  · exact .scheduled (d.fetch, _, d.rtc, d.shiftRegister) .performNixieDisplay h
  · exact .nothing cmdIo

theorem appCmdNixiePeriodic_result : LineResult d cmdIo (appCmdNixiePeriodic d argv) := by
  unfold appCmdNixiePeriodic
  split
  · split
    · exact .unchanged _ rfl
    · split
      · exact .unchanged _ rfl
      · exact .nothing cmdIo
  · exact .nothing cmdIo

theorem appCmdNixieFetch_result (h : d.task.state = .none) :
    LineResult d cmdIo (appCmdNixieFetch d cmdIo argv) := by
  unfold appCmdNixieFetch
  split
  · exact .nothing cmdIo
  · exact .scheduled d.storage .performNixieFetch h

theorem appCmdRTCOscillator_result (h : d.task.state = .none) :
    LineResult d cmdIo (appCmdRTCOscillator d cmdIo argv) := by
  unfold appCmdRTCOscillator
  split
  · split
    · exact .scheduled d.storage .performRTCOscillatorStart h
    · split
      · exact .scheduled d.storage .performRTCOscillatorStop h
      · split
        · exact .scheduled d.storage .performRTCOscillatorStatus h
        · exact .nothing cmdIo
  · exact .nothing cmdIo

theorem appCmdRTCDate_result (stack : Int × Int × Int) (h : d.task.state = .none) :
    LineResult d cmdIo (appCmdRTCDate d cmdIo argv stack) := by
  unfold appCmdRTCDate
  split
  · exact .scheduled d.storage .performRTCDateShow h
  · split
    · exact .scheduled (d.fetch, d.nixie, _, d.shiftRegister) .performRTCDateSet h
    · exact .nothing cmdIo
  · exact .nothing cmdIo

theorem appCmdRTCBattery_result (h : d.task.state = .none) :
    LineResult d cmdIo (appCmdRTCBattery d cmdIo argv) := by
  unfold appCmdRTCBattery
  split
  · split
    · exact .scheduled d.storage .performRTCBatteryEnable h
    · split
      · exact .scheduled d.storage .performRTCBatteryDisable h
      · split
        · exact .scheduled d.storage .performRTCBatteryStatus h
        · exact .nothing cmdIo
  · exact .nothing cmdIo

theorem appCmdRTCDump_result (h : d.task.state = .none) :
    LineResult d cmdIo (appCmdRTCDump d cmdIo argv) := by
  unfold appCmdRTCDump
  split
  · exact .nothing cmdIo
  · exact .scheduled d.storage .performRTCDump h

theorem appCmdRTCRegister_result (h : d.task.state = .none) :
    LineResult d cmdIo (appCmdRTCRegister d cmdIo argv) := by
  unfold appCmdRTCRegister
  split
  · split
    · exact .scheduled (d.fetch, d.nixie, _, d.shiftRegister) .performRTCRegisterRead h
    · exact .nothing cmdIo
  · split
    · exact .scheduled (d.fetch, d.nixie, _, d.shiftRegister) .performRTCRegisterWrite h
    · exact .nothing cmdIo
  · exact .nothing cmdIo

theorem commandShiftRegisterSetEnabledOrDisabled_result (h : d.task.state = .none) :
    LineResult d cmdIo (commandShiftRegisterSetEnabledOrDisabled d cmdIo argv) := by
  unfold commandShiftRegisterSetEnabledOrDisabled
  split
  · split
    · exact .scheduled d.storage .performShiftRegisterSetEnabled h
    · split
      · exact .scheduled d.storage .performShiftRegisterSetDisabled h
      · exact .nothing cmdIo
  · exact .nothing cmdIo

theorem commandShiftRegisterSendData_result (h : d.task.state = .none) :
    LineResult d cmdIo (commandShiftRegisterSendData d cmdIo argv) := by
  unfold commandShiftRegisterSendData
  split
  · exact .nothing cmdIo
  · exact .scheduled (d.fetch, d.nixie, d.rtc, _) .performShiftRegisterSendData h

theorem appCommandFetch_result (h : d.task.state = .none) :
    LineResult d cmdIo (appCommandFetch d cmdIo argv) := by
  unfold appCommandFetch
  split
  · exact .nothing cmdIo
  · split
    · exact .nothing cmdIo
    · exact appCmdFetch_result cmdIo argv h

theorem appCommandFlash_result (h : d.task.state = .none) :
    LineResult d cmdIo (appCommandFlash d cmdIo argv) := by
  unfold appCommandFlash
  split
  · exact .nothing cmdIo
  · split
    · exact .nothing cmdIo
    · split
      · exact appCmdFlashSectors_result cmdIo argv h
      · split
        · exact appCmdFlashFormat_result cmdIo argv h
        · exact .nothing cmdIo

theorem appCommandNixie_result (h : d.task.state = .none) :
    LineResult d cmdIo (appCommandNixie d cmdIo argv) := by
  unfold appCommandNixie
  split
  · exact .nothing cmdIo
  · split
    · exact .nothing cmdIo
    · split
      · exact appCmdNixieDisplay_result cmdIo argv h
      · split
        · exact appCmdNixiePeriodic_result cmdIo argv
        · split
          · exact appCmdNixieFetch_result cmdIo argv h
          · exact .nothing cmdIo

theorem appCommandRTC_result (stack : Int × Int × Int) (h : d.task.state = .none) :
    LineResult d cmdIo (appCommandRTC d cmdIo argv stack) := by
  unfold appCommandRTC
  split
  · exact .nothing cmdIo
  · split
    · exact .nothing cmdIo
    · split
      · exact appCmdRTCOscillator_result cmdIo argv h
      · split
        · exact appCmdRTCDate_result cmdIo argv stack h
        · split
          · exact appCmdRTCBattery_result cmdIo argv h
          · split
            · exact appCmdRTCDump_result cmdIo argv h
            · split
              · exact appCmdRTCRegister_result cmdIo argv h
              · exact .nothing cmdIo

theorem appCommandShiftRegister_result (h : d.task.state = .none) :
    LineResult d cmdIo (appCommandShiftRegister d cmdIo argv) := by
  unfold appCommandShiftRegister
  split
  · exact .nothing cmdIo
  · split
    · exact .nothing cmdIo
    · split
      · exact commandShiftRegisterSetEnabledOrDisabled_result cmdIo argv h
      · split
        · exact commandShiftRegisterSetEnabledOrDisabled_result cmdIo argv h
        · split
          · exact commandShiftRegisterSendData_result cmdIo argv h
          · exact .nothing cmdIo

end Lines

/-- Every command asks `APP_Command_CheckAvailable` first. -/
theorem runCommand_busy {d : AppCommandData} (h : d.task.state ≠ .none) (line : ConsoleLine)
    (command : ConsoleCommand) : runCommand d line command = (d, []) := by
  have hbusy : appCommandCheckAvailable d = false := by
    simp [appCommandCheckAvailable, appCommandIsBusy, appCommandTaskIsBusy, h]
  cases command <;>
    simp [runCommand, appCommandFetch, appCommandFlash, appCommandNixie, appCommandRTC,
      appCommandShiftRegister, hbusy]

theorem runCommand_result {d : AppCommandData} (h : d.task.state = .none) (line : ConsoleLine)
    (command : ConsoleCommand) : LineResult d line.cmdIo (runCommand d line command) := by
  cases command with
  | fetch => exact appCommandFetch_result _ _ h
  | flash => exact appCommandFlash_result _ _ h
  | nixie => exact appCommandNixie_result _ _ h
  | rtc => exact appCommandRTC_result _ _ _ h
  | shiftRegister => exact appCommandShiftRegister_result _ _ h
  | debug => exact .nothing _
  | iwsecurity => exact .nothing _
  | ntp => exact .nothing _
  | phy => exact .nothing _
  | power => exact .nothing _

/-- **A line while a task is scheduled or running** does nothing. -/
theorem consoleLine_busy {d : AppCommandData} (h : d.task.state ≠ .none) (line : ConsoleLine) :
    consoleLine d line = (d, []) := by
  unfold consoleLine
  split
  · rfl
  · split
    · rfl
    · exact runCommand_busy h line _

/-- **A line**: it leaves the data alone, or it schedules one task. -/
theorem consoleLine_result (d : AppCommandData) (line : ConsoleLine) :
    LineResult d line.cmdIo (consoleLine d line) := by
  by_cases h : d.task.state = .none
  · unfold consoleLine
    split
    · exact .nothing _
    · split
      · exact .nothing _
      · exact runCommand_result h line _
  · rw [consoleLine_busy h]
    exact .nothing _

/-! ## The scheduler as a machine -/

/-- What the callbacks of the task answer during one call of `APP_Command_Task_Tasks`. -/
structure TaskAnswer where
  available : Bool
  result : AppCommandTaskCallbackResult
  /-- The argument storage after the callback. -/
  storage : CommandStorage

def TaskAnswer.callbacks (answer : TaskAnswer) : TaskCallbacks CommandStorage Empty where
  checkAvailable _ _ := answer.available
  call _ _ _ _ := (answer.result, answer.storage, [])

/-- An input: a line, a call of `APP_Command_Task_Tasks`, or a write to the storage by another
module. -/
inductive SchedulerInput where
  | line (line : ConsoleLine)
  | tasks (answer : TaskAnswer)
  | write (storage : CommandStorage)

namespace Scheduler

/-- One input; the only event of a step is the list of what the scheduler does in it. -/
def step (d : AppCommandData) : SchedulerInput → AppCommandData × List (List TaskEvent)
  | .line line => ((consoleLine d line).1, [taskEvents (consoleLine d line).2])
  | .tasks answer =>
    let (task, storage, events) := appCommandTaskTasks answer.callbacks d.task d.storage
    ({ d with task }.setStorage storage, [events.filterMap Sum.getLeft?])
  | .write storage => (d.setStorage storage, [[]])

def machine : Machine AppCommandData SchedulerInput (List TaskEvent) := ⟨step⟩

def isSchedule : TaskEvent → Bool
  | .schedule .. => true
  | _ => false

/-- No task is scheduled. -/
def NoneScheduled (log : List (List TaskEvent)) : Prop := ∀ es ∈ log, ∀ e ∈ es, isSchedule e = false

/-! ## What is expected of a task -/

/-- The steps of a running task. -/
def runningSteps (cmdIo : CmdIo) (callback : AppCommandTaskCallback) :
    List SchedulerInput → List (List TaskEvent)
  | [] => []
  | .tasks answer :: is =>
    [.call callback cmdIo .update answer.result] ::
      match answer.result with
      | .running => runningSteps cmdIo callback is
      | .finished => is.map fun _ => []
  | .line _ :: is | .write _ :: is => [] :: runningSteps cmdIo callback is

/-- The steps of a scheduled task. -/
def scheduledSteps (cmdIo : CmdIo) (callback : AppCommandTaskCallback)
    (checkAvailable : AppCommandTaskCheckAvailableCallback) :
    List SchedulerInput → List (List TaskEvent)
  | [] => []
  | .tasks answer :: is =>
    if answer.available then
      [.checkAvailable checkAvailable true, .call callback cmdIo .invoke answer.result] ::
        match answer.result with
        | .running => runningSteps cmdIo callback is
        | .finished => is.map fun _ => []
    else [.checkAvailable checkAvailable false] :: scheduledSteps cmdIo callback checkAvailable is
  | .line _ :: is | .write _ :: is => [] :: scheduledSteps cmdIo callback checkAvailable is

/-! ## Steps and runs -/

/-- The task has these callbacks. -/
structure Pending (task : AppCommandTaskData) (cmdIo : CmdIo) (callback : AppCommandTaskCallback)
    (checkAvailable : AppCommandTaskCheckAvailableCallback) : Prop where
  callback : task.callback = some callback
  callbackCmdIo : task.callbackCmdIo = some cmdIo
  callbackCheckAvailable : task.callbackCheckAvailable = some checkAvailable

section Steps

variable {d : AppCommandData} {cmdIo : CmdIo} {callback : AppCommandTaskCallback}
  {checkAvailable : AppCommandTaskCheckAvailableCallback}

/-- A line without a schedule. -/
theorem step_line_unscheduled (line : ConsoleLine) (h : NoneScheduled (step d (.line line)).2) :
    step d (.line line) = (d, [[]]) := by
  simp only [step] at h ⊢
  generalize hres : consoleLine d line = res at h ⊢
  cases hres ▸ consoleLine_result d line with
  | unchanged events hev => rw [hev]
  | scheduled storage callback hnone =>
    have := h _ (List.mem_singleton_self _) (.schedule true line.cmdIo callback callback.ownCheck)
      (by simp [schedule, appCommandTaskSchedule, taskEvents, ConsoleEvent.task?, hnone])
    cases this

theorem step_tasks_none (h : d.task.state = .none) (answer : TaskAnswer) :
    step d (.tasks answer) = (d, [[]]) := by
  simp [step, appCommandTaskTasks, h]

theorem step_tasks_running (h : d.task.state = .running)
    (hp : Pending d.task cmdIo callback checkAvailable) (answer : TaskAnswer) :
    step d (.tasks answer) =
      ({ d with task := checkCallbackResult d.task answer.result }.setStorage answer.storage,
        [[.call callback cmdIo .update answer.result]]) := by
  simp [step, appCommandTaskTasks, h, callStored, hp.callback, hp.callbackCmdIo,
    TaskAnswer.callbacks]

theorem step_tasks_unavailable (h : d.task.state = .waitAvailable)
    (hp : Pending d.task cmdIo callback checkAvailable) {answer : TaskAnswer}
    (ha : answer.available = false) :
    step d (.tasks answer) = (d, [[.checkAvailable checkAvailable false]]) := by
  simp [step, appCommandTaskTasks, h, checkStored, hp.callbackCheckAvailable,
    TaskAnswer.callbacks, ha]

theorem step_tasks_available (h : d.task.state = .waitAvailable)
    (hp : Pending d.task cmdIo callback checkAvailable) {answer : TaskAnswer}
    (ha : answer.available = true) :
    step d (.tasks answer) =
      ({ d with task := checkCallbackResult { d.task with state := .running } answer.result
        }.setStorage answer.storage,
        [[.checkAvailable checkAvailable true, .call callback cmdIo .invoke answer.result]]) := by
  simp [step, appCommandTaskTasks, h, checkStored, callStored, hp.callback, hp.callbackCmdIo,
    hp.callbackCheckAvailable, TaskAnswer.callbacks, ha]

@[simp] theorem checkCallbackResult_running (t : AppCommandTaskData) :
    checkCallbackResult t .running = { t with state := .running } := rfl

@[simp] theorem checkCallbackResult_finished_state (t : AppCommandTaskData) :
    (checkCallbackResult t .finished).state = .none := rfl

theorem noneScheduled_append {us vs : List (List TaskEvent)} :
    NoneScheduled (us ++ vs) ↔ NoneScheduled us ∧ NoneScheduled vs := by
  simp only [NoneScheduled, List.mem_append, or_imp]
  exact forall_and

/-- Without a task nothing happens until one is scheduled. -/
theorem trace_none (h : d.task.state = .none) {is : List SchedulerInput}
    (hno : NoneScheduled (machine.trace d is)) : machine.trace d is = is.map fun _ => [] := by
  induction is generalizing d with
  | nil => rfl
  | cons i is ih =>
    have hstep : (step d i).2 = [[]] ∧ (step d i).1.task = d.task := by
      cases i with
      | line line =>
        have hline : NoneScheduled (step d (.line line)).2 :=
          fun es hes => hno es (List.mem_append_left _ hes)
        rw [step_line_unscheduled line hline]
        exact ⟨rfl, rfl⟩
      | tasks answer =>
        rw [step_tasks_none h]
        exact ⟨rfl, rfl⟩
      | write storage => exact ⟨rfl, rfl⟩
    rw [Machine.trace_cons] at hno ⊢
    have hrest := ih (d := (step d i).1) (by rw [hstep.2, h])
      (fun es hes => hno es (List.mem_append_right _ hes))
    show (step d i).2 ++ machine.trace (step d i).1 is = _
    rw [hstep.1, hrest]
    rfl

/-- A running task is updated once per step, until it is finished. -/
theorem trace_running (h : d.task.state = .running)
    (hp : Pending d.task cmdIo callback checkAvailable) {is : List SchedulerInput}
    (hno : NoneScheduled (machine.trace d is)) :
    machine.trace d is = runningSteps cmdIo callback is := by
  induction is generalizing d with
  | nil => rfl
  | cons i is ih =>
    rw [Machine.trace_cons] at hno ⊢
    obtain ⟨hfirst, hrest⟩ := noneScheduled_append.mp hno
    cases i with
    | line line =>
      have hstep := step_line_unscheduled line hfirst
      simp only [machine, hstep] at hrest ⊢
      exact congrArg ([] :: ·) (ih h hp hrest)
    | write storage => exact congrArg ([] :: ·) (ih (d := d.setStorage storage) h hp hrest)
    | tasks answer =>
      have hstep := step_tasks_running h hp answer
      simp only [machine, hstep] at hrest ⊢
      refine congrArg (_ :: ·) ?_
      cases hr : answer.result with
      | running =>
        rw [hr] at hrest
        exact ih rfl ⟨hp.callback, hp.callbackCmdIo, hp.callbackCheckAvailable⟩ hrest
      | finished =>
        rw [hr] at hrest
        exact trace_none rfl hrest

/-- A scheduled task is not called until its check answers that the module is available. -/
theorem trace_scheduled (h : d.task.state = .waitAvailable)
    (hp : Pending d.task cmdIo callback checkAvailable) {is : List SchedulerInput}
    (hno : NoneScheduled (machine.trace d is)) :
    machine.trace d is = scheduledSteps cmdIo callback checkAvailable is := by
  induction is generalizing d with
  | nil => rfl
  | cons i is ih =>
    rw [Machine.trace_cons] at hno ⊢
    obtain ⟨hfirst, hrest⟩ := noneScheduled_append.mp hno
    cases i with
    | line line =>
      have hstep := step_line_unscheduled line hfirst
      simp only [machine, hstep] at hrest ⊢
      exact congrArg ([] :: ·) (ih h hp hrest)
    | write storage => exact congrArg ([] :: ·) (ih (d := d.setStorage storage) h hp hrest)
    | tasks answer =>
      unfold scheduledSteps
      cases ha : answer.available with
      | false =>
        have hstep := step_tasks_unavailable h hp ha
        simp only [machine, hstep] at hrest ⊢
        exact congrArg (_ :: ·) (ih h hp hrest)
      | true =>
        have hstep := step_tasks_available h hp ha
        simp only [machine, hstep] at hrest ⊢
        refine congrArg (_ :: ·) ?_
        cases hr : answer.result with
        | running =>
          rw [hr] at hrest
          refine trace_running ?_ (?_ : Pending _ cmdIo callback checkAvailable) hrest
          · rfl
          · exact ⟨hp.callback, hp.callbackCmdIo, hp.callbackCheckAvailable⟩
        | finished =>
          rw [hr] at hrest
          exact trace_none rfl hrest

end Steps

/-- The arguments of a schedule; other events leave what was there. -/
def observeEvent (last : Option (CmdIo × AppCommandTaskCallback ×
    AppCommandTaskCheckAvailableCallback)) : TaskEvent →
    Option (CmdIo × AppCommandTaskCallback × AppCommandTaskCheckAvailableCallback)
  | .schedule _ cmdIo callback checkAvailable => some (cmdIo, callback, checkAvailable)
  | _ => last

/-- The arguments of the last schedule of a run. -/
def lastSchedule (log : List (List TaskEvent)) :
    Option (CmdIo × AppCommandTaskCallback × AppCommandTaskCheckAvailableCallback) :=
  log.foldl (fun last es => es.foldl observeEvent last) none

/-- A task that is scheduled or running is the one of the last schedule. -/
def Inv (d : AppCommandData) (last : Option (CmdIo × AppCommandTaskCallback ×
    AppCommandTaskCheckAvailableCallback)) : Prop :=
  d.task.state ≠ .none → ∃ cmdIo callback,
    last = some (cmdIo, callback, callback.ownCheck) ∧
      Pending d.task cmdIo callback callback.ownCheck

theorem inv_step (d : AppCommandData) (i : SchedulerInput)
    (last : Option (CmdIo × AppCommandTaskCallback × AppCommandTaskCheckAvailableCallback))
    (h : Inv d last) :
    Inv (step d i).1 ((step d i).2.foldl (fun last es => es.foldl observeEvent last) last) := by
  cases i with
  | write storage => exact h
  | line line =>
    simp only [step]
    generalize hres : consoleLine d line = res
    cases hres ▸ consoleLine_result d line with
    | unchanged events hev =>
      rw [hev]
      exact h
    | scheduled storage callback hnone =>
      exact fun _ => ⟨line.cmdIo, callback, rfl, rfl, rfl, rfl⟩
  | tasks answer =>
    cases hs : d.task.state with
    | none =>
      rw [step_tasks_none hs]
      exact h
    | waitAvailable =>
      obtain ⟨cmdIo, callback, hlast, hp⟩ := h (by simp [hs])
      cases ha : answer.available with
      | false =>
        rw [step_tasks_unavailable hs hp ha]
        exact h
      | true =>
        rw [step_tasks_available hs hp ha]
        intro hne
        cases hr : answer.result with
        | running =>
          exact ⟨cmdIo, callback, hlast, hp.callback, hp.callbackCmdIo, hp.callbackCheckAvailable⟩
        | finished =>
          rw [hr] at hne
          exact absurd rfl hne
    | running =>
      obtain ⟨cmdIo, callback, hlast, hp⟩ := h (by simp [hs])
      rw [step_tasks_running hs hp]
      intro hne
      cases hr : answer.result with
      | running =>
        exact ⟨cmdIo, callback, hlast, hp.callback, hp.callbackCmdIo, hp.callbackCheckAvailable⟩
      | finished =>
        rw [hr] at hne
        exact absurd rfl hne

theorem inv_run (d : AppCommandData) (is : List SchedulerInput) :
    Inv (machine.run (appCommandInitialize d) is)
      (lastSchedule (machine.trace (appCommandInitialize d) is)) :=
  Machine.watch_inv inv_step (fun h => absurd rfl h) is

/-- A line that schedules does it once, without a task there. -/
theorem schedule_mem_line {d : AppCommandData} {line : ConsoleLine} {stateIsNone : Bool}
    {cmdIo : CmdIo} {callback : AppCommandTaskCallback}
    {checkAvailable : AppCommandTaskCheckAvailableCallback}
    (h : .schedule stateIsNone cmdIo callback checkAvailable ∈ taskEvents (consoleLine d line).2) :
    d.task.state = .none ∧ stateIsNone = true ∧
      (consoleLine d line).1.task.state = .waitAvailable ∧
      Pending (consoleLine d line).1.task cmdIo callback checkAvailable := by
  generalize hres : consoleLine d line = res at h ⊢
  cases hres ▸ consoleLine_result d line with
  | unchanged events hev =>
    rw [hev] at h
    cases h
  | scheduled storage callback' hnone =>
    obtain ⟨rfl, rfl, rfl, rfl⟩ : stateIsNone = true ∧ cmdIo = line.cmdIo ∧ callback = callback' ∧
        checkAvailable = callback'.ownCheck := by
      simpa [schedule, appCommandTaskSchedule, taskEvents, ConsoleEvent.task?, hnone] using h
    exact ⟨hnone, rfl, rfl, rfl, rfl, rfl⟩

theorem callStored_schedules_nothing {σ ε : Type} (callbacks : TaskCallbacks σ ε)
    (d : AppCommandTaskData) (mode : AppCommandTaskCallbackMode) (s : σ) {e : TaskEvent}
    (h : .inl e ∈ (callStored callbacks d mode s).2.2) : isSchedule e = false := by
  unfold callStored at h
  split at h
  · obtain rfl : e = _ := by simpa using h
    rfl
  · obtain rfl : e = _ := by simpa using h
    rfl

/-- `APP_Command_Task_Tasks` schedules nothing. -/
theorem appCommandTaskTasks_schedules_nothing {σ ε : Type} (callbacks : TaskCallbacks σ ε)
    (d : AppCommandTaskData) (s : σ) {e : TaskEvent}
    (h : .inl e ∈ (appCommandTaskTasks callbacks d s).2.2) : isSchedule e = false := by
  unfold appCommandTaskTasks at h
  split at h
  · cases h
  · dsimp only at h
    split at h
    · rcases List.mem_cons.mp h with he | he
      · cases he
        rfl
      · exact callStored_schedules_nothing callbacks _ _ s he
    · obtain rfl : e = _ := by simpa using h
      rfl
  · exact callStored_schedules_nothing callbacks _ _ s h

theorem assertion_step {d : AppCommandData} {i : SchedulerInput} {es : List TaskEvent}
    (hes : es ∈ (step d i).2) {stateIsNone : Bool} {cmdIo : CmdIo}
    {callback : AppCommandTaskCallback} {checkAvailable : AppCommandTaskCheckAvailableCallback}
    (h : .schedule stateIsNone cmdIo callback checkAvailable ∈ es) : stateIsNone = true := by
  cases i with
  | line line =>
    rw [step, List.mem_singleton] at hes
    exact (schedule_mem_line (hes ▸ h)).2.1
  | tasks answer =>
    rw [step, List.mem_singleton] at hes
    rw [hes] at h
    obtain ⟨e, he, hleft⟩ := List.mem_filterMap.mp h
    obtain rfl := Sum.getLeft?_eq_some_iff.mp hleft
    cases appCommandTaskTasks_schedules_nothing _ _ _ he
  | write storage =>
    rw [step, List.mem_singleton] at hes
    rw [hes] at h
    cases h

/-- **Console tasks.** A run from `APP_Command_Initialize`, in any order of lines, calls of
`APP_Command_Task_Tasks` and writes to the storage.

* The assertion in `APP_Command_Task_Schedule` never fails.
* In a state other than `none` the callbacks are those of the last schedule, and no line changes the
  argument storage.
* A line that schedules a task finds none, and the steps from there to the next schedule are those of
  `scheduledSteps`. -/
theorem task_protocol (d : AppCommandData) (is : List SchedulerInput) :
    let d' := machine.run (appCommandInitialize d) is
    let log := machine.trace (appCommandInitialize d) is
    (∀ es ∈ log, ∀ stateIsNone cmdIo callback checkAvailable,
      TaskEvent.schedule stateIsNone cmdIo callback checkAvailable ∈ es → stateIsNone = true) ∧
    (d'.task.state ≠ .none →
      (∃ cmdIo callback checkAvailable, lastSchedule log = some (cmdIo, callback, checkAvailable) ∧
        Pending d'.task cmdIo callback checkAvailable) ∧
      ∀ line, (consoleLine d' line).1.storage = d'.storage) ∧
    (∀ line stateIsNone cmdIo callback checkAvailable,
      TaskEvent.schedule stateIsNone cmdIo callback checkAvailable ∈
        taskEvents (consoleLine d' line).2 →
      d'.task.state = .none ∧
      ∀ after, NoneScheduled (machine.trace (consoleLine d' line).1 after) →
        machine.trace (consoleLine d' line).1 after =
          scheduledSteps cmdIo callback checkAvailable after) := by
  intro d' log
  refine ⟨?_, fun hne => ⟨?_, fun line => ?_⟩, ?_⟩
  · intro es hes stateIsNone cmdIo callback checkAvailable hmem
    obtain ⟨before, i, after, -, he⟩ := Machine.mem_trace.mp hes
    exact assertion_step he hmem
  · obtain ⟨cmdIo, callback, hlast, hp⟩ := inv_run d is hne
    exact ⟨cmdIo, callback, callback.ownCheck, hlast, hp⟩
  · rw [consoleLine_busy hne line]
  · intro line stateIsNone cmdIo callback checkAvailable hmem
    obtain ⟨hnone, -, hwait, hp⟩ := schedule_mem_line hmem
    exact ⟨hnone, fun after hno => trace_scheduled hwait hp hno⟩

/-- `flash sectors`, while the flash is busy for one call. -/
theorem task_protocol_flash :
    let line : ConsoleLine := ⟨1, [⟨lit "flash", by decide⟩, ⟨lit "sectors", by decide⟩], (0, 0, 0)⟩
    let storage := AppCommandData.zeroed.storage
    let after : List SchedulerInput := [.tasks ⟨false, .running, storage⟩, .line line,
      .tasks ⟨true, .running, storage⟩, .tasks ⟨true, .finished, storage⟩]
    machine.trace (consoleLine (appCommandInitialize .zeroed) line).1 after =
      scheduledSteps 1 .performFlashSectors .performFlashCheckAvailable after :=
  ((task_protocol .zeroed []).2.2 _ true 1 .performFlashSectors .performFlashCheckAvailable
    (by decide +kernel)).2 _ (by unfold NoneScheduled; decide +kernel)

end Scheduler

end NixieTracker
