import NixieTracker.App.Perform

/-!
# The application loop (`app.c`)

The modules under `APP_Tasks_Real`, with the console's lines in between.

* `appInitialize`: `APP_Initialize_Real`.
* `AppCall`: one call of a module's tasks function, or a console line; `appStep` is its effect, and
  `App.machine` the machine of it. The callbacks that the HTTPS client calls run within its call
  (`runListener`).
* `AppRound`: one iteration of the loop. `AppRound.calls` are its calls, in the order of
  `APP_Tasks_Real`; the states between two calls of an iteration are states of the machine.

The network and USB modules do not touch the modules here, and the greetings of the first iteration do
nothing to them.
-/

namespace NixieTracker

open Lib

def appInitialize (app : AppData) (i2cOpened : Bool) : AppData :=
  let app := { app with command := appCommandInitialize app.command, receive := none }
  let app := app.setRtcView (rtcInitialize app.rtcView i2cOpened).2
  let app := { app with
    flash := appFlashInitialize
    httpsClient := appHttpsClientInitialize app.httpsClient
    shiftRegister := (appShiftRegisterInitialize app.shiftRegister).1 }
  let (nixie, shiftRegister) := appNixieInitialize app.nixie app.shiftRegister
  { app with nixie, shiftRegister }

/-- The application's memory as the program is loaded. -/
def AppData.zeroed : AppData where
  rtc := ⟨.none, .none, 0, Vector.replicate _ 0⟩
  receive := none
  flash := ⟨.registerMedia, false⟩
  httpsClient := .zeroed AppListener
  shiftRegister := .zeroed
  nixie := .zeroed
  command := .zeroed

/-! ## The client's listeners -/

/-- What the listener does when the client calls it. -/
def runListener (app : AppData) : ClientEvent AppListener → AppData × List AppEvent
  | .bufferReceived .nixie bytes =>
    ({ app with nixie := bufferReceivedCallback app.nixie bytes }, [])
  | .requestHandled .nixie => ({ app with nixie := requestHandledCallback app.nixie }, [])
  | .error .nixie => ({ app with nixie := errorCallback app.nixie }, [])
  | .bufferReceived .fetch bytes =>
    (app, [.print app.command.task.callbackCmdIo (.response bytes.val)])
  | .requestHandled .fetch | .error .fetch =>
    ({ app with command.fetch.requestActive := false }, [])
  | _ => (app, [])

/-- The events of the client with what the listeners do, in order. -/
def runListeners (app : AppData) : List (ClientEvent AppListener) → AppData × List AppEvent
  | [] => (app, [])
  | e :: es =>
    let (app, events) := runListener app e
    let (app, rest) := runListeners app es
    (app, .client e :: events ++ rest)

/-! ## The calls -/

def appRtcTasks (app : AppData) (answers : I2cAnswers) : AppData × List AppEvent :=
  let (v, events) := rtcTasks app.rtcView answers
  let status := if app.rtc.state = .i2cStausCheck then [.transferStatus answers.transferStatus]
    else []
  (app.setRtcView v, status ++ events.map .rtc)

def appHttpsTasks (app : AppData) (net : NetAnswers) : AppData × List AppEvent :=
  let (httpsClient, events) := appHttpsClientTasks net app.httpsClient
  runListeners { app with httpsClient } events

/-- The request that `APP_Nixie_Tasks` submits, if the client accepts one during the call. -/
def nixieSubmits (app : AppData) : List AppEvent :=
  if app.nixie.state = .waitHttpsClient ∧ !appHttpsClientIsBusy app.httpsClient then
    [.submitted .nixie]
  else []

/-- `APP_Nixie_Tasks`. The pointers given to `APP_Nixie_Fetch` lead into the console's data. -/
def appNixieModuleTasks (app : AppData) (answers : NixieAnswers) : AppData × List AppEvent :=
  let (v, events) := appNixieTasks .nixie answers app.nixieView
  let started := if app.nixie.state = .idle ∧ v.nixie.state = .beginHttpRequest then
      [.started .periodic]
    else []
  (storeNixieEvents (app.setNixieView v) events,
    nixieSubmits app ++ started ++ events.map .nixie)

/-- `APP_Command_Tasks`. -/
def appCommandTasks (app : AppData) (answers : CommandAnswers) : AppData × List AppEvent :=
  let (task, app, events) := appCommandTaskTasks (taskCallbacks answers) app.command.task app
  ({ app with command.task := task }, events.map fun
    | .inl e => .task e
    | .inr e => e)

/-- What a line does outside `AppCommandData`. -/
def runConsoleEvent (app : AppData) : ConsoleEvent → AppData × List AppEvent
  | .task e => (app, [.task e])
  | .periodicTasksSetEnabled enabled =>
    ({ app with nixie := appNixiePeriodicTasksSetEnabled app.nixie enabled }, [])

def runConsoleEvents (app : AppData) : List ConsoleEvent → AppData × List AppEvent
  | [] => (app, [])
  | e :: es =>
    let (app, events) := runConsoleEvent app e
    let (app, rest) := runConsoleEvents app es
    (app, events ++ rest)

def appLine (app : AppData) (line : ConsoleLine) : AppData × List AppEvent :=
  let (command, events) := consoleLine app.command line
  runConsoleEvents { app with command } events

/-- A call, with what is answered during it. -/
inductive AppCall where
  | rtcTasks (answers : I2cAnswers)
  | flashTasks (answers : FlashAnswers)
  | httpsClientTasks (net : NetAnswers)
  | shiftRegisterTasks
  | nixieTasks (answers : NixieAnswers)
  | commandTasks (answers : CommandAnswers)
  | line (line : ConsoleLine)

def appStep (app : AppData) : AppCall → AppData × List AppEvent
  | .rtcTasks answers => appRtcTasks app answers
  | .flashTasks answers => ({ app with flash := appFlashTasks answers app.flash }, [])
  | .httpsClientTasks net => appHttpsTasks app net
  | .shiftRegisterTasks =>
    let (shiftRegister, events) := appShiftRegisterTasks app.shiftRegister
    ({ app with shiftRegister }, events.map .shiftRegister)
  | .nixieTasks answers => appNixieModuleTasks app answers
  | .commandTasks answers => appCommandTasks app answers
  | .line line => appLine app line

def App.machine : Machine AppData AppCall AppEvent := ⟨appStep⟩

/-- One iteration of the loop: the lines typed before it, and what is answered during it. -/
structure AppRound where
  lines : List ConsoleLine
  rtc : I2cAnswers
  flash : FlashAnswers
  net : NetAnswers
  nixie : NixieAnswers
  command : CommandAnswers

/-- The lines, and the calls of `APP_Tasks_Real`. -/
def AppRound.calls (round : AppRound) : List AppCall :=
  round.lines.map .line ++
    [.rtcTasks round.rtc, .flashTasks round.flash, .httpsClientTasks round.net, .shiftRegisterTasks,
      .nixieTasks round.nixie, .commandTasks round.command]

/-- A round in which no interface is up, no driver is ready and nothing is received. -/
def AppRound.calm : AppRound where
  lines := []
  rtc := ⟨.error, fun _ => 0, 0, .error, 0⟩
  flash := ⟨false, false, false, false, none⟩
  net := .direct true
  nixie := ⟨0, 0, 1, false⟩
  command := ⟨⟨.error, fun _ => 0, 0, .error, 0⟩, ⟨false, false, false, false, none⟩⟩

/-- The calls of the loop. -/
def loopCalls (rounds : List AppRound) : List AppCall := rounds.flatMap (·.calls)

end NixieTracker
