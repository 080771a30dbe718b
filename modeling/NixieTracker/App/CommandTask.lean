/-!
# The console's task scheduler (`app_command_task.c`)

A console command that has to wait for a module schedules a task: a callback, and another one that
says whether the module is available. Both are named by their functions. What a callback does is not
part of the scheduler: it is given as `TaskCallbacks` over the rest of the application.
-/

namespace NixieTracker

/-- `SYS_CMD_DEVICE_NODE`; a command always gets one, and `NULL` is `none`. -/
abbrev CmdIo := Nat

inductive AppCommandTaskCallback where
  | performFetch
  | performFlashSectors | performFlashFormat
  | performNixieDisplay | performNixieFetch
  | performRTCOscillatorStart | performRTCOscillatorStop | performRTCOscillatorStatus
  | performRTCDateShow | performRTCDateSet
  | performRTCBatteryEnable | performRTCBatteryDisable | performRTCBatteryStatus
  | performRTCDump | performRTCRegisterRead | performRTCRegisterWrite
  | performShiftRegisterSetEnabled | performShiftRegisterSetDisabled | performShiftRegisterSendData
  deriving DecidableEq, Repr

inductive AppCommandTaskCheckAvailableCallback where
  | performFetchCheckAvailable | performFlashCheckAvailable | performNixieCheckAvailable
  | performRTCCheckAvailable | performShiftRegisterCheckAvailable
  deriving DecidableEq, Repr

inductive AppCommandTaskCallbackMode where
  | invoke | update
  deriving DecidableEq, Repr

inductive AppCommandTaskCallbackResult where
  | running | finished
  deriving DecidableEq, Repr

inductive AppCommandTaskState where
  | none | waitAvailable | running
  deriving DecidableEq, Repr

structure AppCommandTaskData where
  state : AppCommandTaskState
  callback : Option AppCommandTaskCallback
  callbackCmdIo : Option CmdIo
  callbackCheckAvailable : Option AppCommandTaskCheckAvailableCallback
  deriving DecidableEq, Repr

/-- What the scheduler does. A `NULL` pointer that is called is `none`. -/
inductive TaskEvent where
  /-- `APP_Command_Task_Schedule`, with the outcome of its assertion. -/
  | schedule (stateIsNone : Bool) (cmdIo : CmdIo) (callback : AppCommandTaskCallback)
      (checkAvailable : AppCommandTaskCheckAvailableCallback)
  | checkAvailable (callback : Option AppCommandTaskCheckAvailableCallback) (available : Bool)
  | call (callback : Option AppCommandTaskCallback) (cmdIo : Option CmdIo)
      (mode : AppCommandTaskCallbackMode) (result : AppCommandTaskCallbackResult)
  deriving DecidableEq, Repr

/-- The callbacks, over the rest `σ` of the application; their own events are `ε`. -/
structure TaskCallbacks (σ ε : Type) where
  checkAvailable : AppCommandTaskCheckAvailableCallback → σ → Bool
  call : AppCommandTaskCallback → Option CmdIo → AppCommandTaskCallbackMode → σ →
    AppCommandTaskCallbackResult × σ × List ε

def appCmdTaskSetCallback (d : AppCommandTaskData) (cmdIo : Option CmdIo)
    (callback : Option AppCommandTaskCallback)
    (callbackCheckAvailable : Option AppCommandTaskCheckAvailableCallback) : AppCommandTaskData :=
  { d with callbackCmdIo := cmdIo, callback, callbackCheckAvailable }

def checkCallbackResult (d : AppCommandTaskData) (result : AppCommandTaskCallbackResult) :
    AppCommandTaskData :=
  match result with
  | .running => { d with state := .running }
  | .finished => appCmdTaskSetCallback { d with state := .none } none none none

def appCommandTaskInitialize (d : AppCommandTaskData) : AppCommandTaskData :=
  appCmdTaskSetCallback { d with state := .none } none none none

def appCommandTaskIsBusy (d : AppCommandTaskData) : Bool := d.state ≠ .none

def appCommandTaskSchedule (d : AppCommandTaskData) (cmdIo : CmdIo)
    (callback : AppCommandTaskCallback)
    (checkAvailable : AppCommandTaskCheckAvailableCallback) :
    AppCommandTaskData × List TaskEvent :=
  (appCmdTaskSetCallback { d with state := .waitAvailable } cmdIo callback checkAvailable,
    [.schedule (d.state = .none) cmdIo callback checkAvailable])

section Tasks

variable {σ ε : Type} (callbacks : TaskCallbacks σ ε)

/-- The call of the stored callback, and `checkCallbackResult`. -/
def callStored (d : AppCommandTaskData) (mode : AppCommandTaskCallbackMode) (s : σ) :
    AppCommandTaskData × σ × List (TaskEvent ⊕ ε) :=
  match d.callback with
  | none => (d, s, [.inl (.call none d.callbackCmdIo mode .running)])
  | some callback =>
    let (result, s, events) := callbacks.call callback d.callbackCmdIo mode s
    (checkCallbackResult d result, s,
      .inl (.call callback d.callbackCmdIo mode result) :: events.map .inr)

/-- The answer of the stored availability callback. -/
def checkStored (d : AppCommandTaskData) (s : σ) : Bool :=
  match d.callbackCheckAvailable with
  | none => false
  | some callback => callbacks.checkAvailable callback s

def appCommandTaskTasks (d : AppCommandTaskData) (s : σ) :
    AppCommandTaskData × σ × List (TaskEvent ⊕ ε) :=
  match d.state with
  | .none => (d, s, [])
  | .waitAvailable =>
    let available := checkStored callbacks d s
    let checked := .inl (.checkAvailable d.callbackCheckAvailable available)
    if available then
      let (d, s, events) := callStored callbacks { d with state := .running } .invoke s
      (d, s, checked :: events)
    else (d, s, [checked])
  | .running => callStored callbacks d .update s

end Tasks

end NixieTracker
