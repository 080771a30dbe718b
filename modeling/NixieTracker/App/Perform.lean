import NixieTracker.App.Command
import NixieTracker.App.Flash

/-!
# The callbacks of the console tasks (`perform…` of `app_command_*.c`)

* `AppData`: the modules that the main loop drives. The client's listeners are `AppListener`.
* `AppEvent`: what the application does, in order.
* `performFetch`, `performFlashSectors`, …: the callbacks under their names in the source, and the
  availability checks; `taskCallbacks` gives them to the scheduler.

The callbacks of the RTC commands have one body, `performRTC`, and those that are done with the first
call have `performOnce`.
-/

namespace NixieTracker

open Lib

/-- Who registers callbacks with the HTTPS client. -/
inductive AppListener where
  | nixie | fetch
  deriving DecidableEq, Repr

/-- `AppData`. `receive` is the receive buffer of the transfer on the I2C bus. -/
structure AppData where
  rtc : RtcMcp7940n
  receive : Option (RtcTarget × Nat)
  flash : AppFlashData
  httpsClient : AppHTTPSClientData AppListener
  shiftRegister : AppShiftRegisterData
  nixie : AppNixieData
  command : AppCommandData

namespace AppData

/-- The clock's part of the application. -/
def rtcView (app : AppData) : RtcView := ⟨app.rtc, app.command.rtc.memory, app.receive⟩

def setRtcView (app : AppData) (v : RtcView) : AppData :=
  { app with rtc := v.rtc, receive := v.receive, command.rtc := ⟨v.memory⟩ }

/-- The nixie module's part. -/
def nixieView (app : AppData) : NixieView AppListener :=
  ⟨app.nixie, app.httpsClient, app.shiftRegister⟩

def setNixieView (app : AppData) (v : NixieView AppListener) : AppData :=
  { app with nixie := v.nixie, httpsClient := v.httpsClient, shiftRegister := v.shiftRegister }

end AppData

/-- What a task prints. -/
inductive Printed where
  /-- The bytes of a response, one by one. -/
  | response (bytes : List UInt8)
  | sectors (total free : UInt32)
  | sectorsError
  | formatted (success : Bool)
  | serverValue (value : List UInt8)
  | serverError
  | oscillatorStatus (enabled : Bool)
  | batteryStatus (enabled : Bool)
  | date (dateTime : RtcDateTime)
  | registers (values : List UInt8)
  | registerValue (value : UInt8)
  deriving DecidableEq, Repr

/-- Who starts a request of the nixie module: `performPeriodicTasks` or `APP_Nixie_Fetch`. -/
inductive NixieOrigin where
  | periodic | fetch
  deriving DecidableEq, Repr

/-- What the application does. -/
inductive AppEvent where
  | task (e : TaskEvent)
  | client (e : ClientEvent AppListener)
  /-- A request of a listener that the client accepts. -/
  | submitted (listener : AppListener)
  /-- The nixie module leaves its idle state for a request. -/
  | started (origin : NixieOrigin)
  /-- A write through the pointers given to `APP_Nixie_Fetch`. -/
  | nixie (e : NixieEvent)
  | rtc (e : RtcEvent)
  /-- The status of the transfer that `RTC_MCP7940N_Tasks` sees. -/
  | transferStatus (status : DrvI2cBufferEvent)
  | shiftRegister (e : ShiftRegisterEvent)
  /-- A message on the device of the task, which may be `NULL`. -/
  | print (cmdIo : Option CmdIo) (text : Printed)

/-- What the drivers answer to the callbacks during one call. -/
structure CommandAnswers where
  i2c : I2cAnswers
  flash : FlashAnswers

/-- The result of a callback. -/
abbrev PerformResult := AppCommandTaskCallbackResult × AppData × List AppEvent

/-! ## `fetch` -/

/-- The callbacks of the listener `fetch`. -/
def fetchCallbacks : AppHttpsClientCallbacks AppListener :=
  ⟨some .fetch, some .fetch, some .fetch⟩

def performFetch (app : AppData) : AppCommandTaskCallbackMode → PerformResult
  | .invoke =>
    let app := { app with command.fetch.requestActive := true }
    match appHttpsClientRequest app.httpsClient (cstr app.command.fetch.url.toList)
      fetchCallbacks with
    | (false, httpsClient) => (.finished, { app with httpsClient }, [])
    | (true, httpsClient) => (.running, { app with httpsClient }, [.submitted .fetch])
  | .update => (if !app.command.fetch.requestActive then .finished else .running, app, [])

def performFetchCheckAvailable (app : AppData) : Bool := !appHttpsClientIsBusy app.httpsClient

/-! ## `flash` -/

/-- The body of the callbacks that do all their work in the first call. -/
def performOnce (invoke : AppData × List AppEvent) (app : AppData) :
    AppCommandTaskCallbackMode → PerformResult
  | .invoke => (.running, invoke)
  | .update => (.finished, app, [])

def performFlashSectors (answers : FlashAnswers) (app : AppData) (cmdIo : Option CmdIo) :
    AppCommandTaskCallbackMode → PerformResult :=
  performOnce (app, [.print cmdIo (match answers.driveSectorGet with
    | some (total, free) => .sectors total free
    | none => .sectorsError)]) app

def performFlashFormat (answers : FlashAnswers) (app : AppData) (cmdIo : Option CmdIo) :
    AppCommandTaskCallbackMode → PerformResult :=
  performOnce (app, [.print cmdIo (.formatted answers.driveFormat)]) app

def performFlashCheckAvailable (app : AppData) : Bool := !appFlashIsBusy app.flash

/-! ## `nixie` -/

/-- `APP_Nixie_Display` of the bytes of `display.value`. -/
def performNixieDisplay (app : AppData) : AppCommandTaskCallbackMode → PerformResult :=
  let value := app.command.nixie.privateData.read 0 maxNixieTubes
  performOnce ({ app with nixie := (appNixieDisplay app.nixie value).2 }, []) app

/-- `&fetch.is_fetched` and `fetch.value` in the union. -/
abbrev fetchIsFetchedAddress : Address := 0
abbrev fetchValueAddress : Address := 1

/-- A write through a pointer into the union. -/
def storeNixieEvent (app : AppData) : NixieEvent → AppData
  | .storeValue dst value =>
    { app with command.nixie := ⟨app.command.nixie.privateData.write dst value.toList⟩ }
  | .storeIsFetched (some dst) value =>
    { app with command.nixie := ⟨app.command.nixie.privateData.write dst [if value then 1 else 0]⟩ }
  | .storeIsFetched none _ => app

def storeNixieEvents (app : AppData) (es : List NixieEvent) : AppData :=
  es.foldl storeNixieEvent app

def performNixieFetch (app : AppData) (cmdIo : Option CmdIo) :
    AppCommandTaskCallbackMode → PerformResult
  | .invoke =>
    let (accepted, nixie, events) :=
      appNixieFetch app.nixie fetchIsFetchedAddress fetchValueAddress
    (.running, storeNixieEvents { app with nixie } events,
      (if accepted then [.started .fetch] else []) ++ events.map .nixie)
  | .update =>
    if appNixieIsBusy app.nixie then (.running, app, [])
    else
      (.finished, app, [.print cmdIo
        (if app.command.nixie.privateData.read fetchIsFetchedAddress 1 ≠ [0] then
          .serverValue (app.command.nixie.privateData.read fetchValueAddress maxNixieTubes)
        else .serverError)])

def performNixieCheckAvailable (app : AppData) : Bool := !appNixieIsBusy app.nixie

/-! ## `rtc` -/

/-- The body of the callbacks of the RTC commands: an operation is started, and something is printed
when the module is not busy any more. -/
def performRTC (start : RtcView → RtcView × List RtcEvent) (report : AppData → List Printed)
    (app : AppData) (cmdIo : Option CmdIo) : AppCommandTaskCallbackMode → PerformResult
  | .invoke =>
    let (v, events) := start app.rtcView
    (.running, app.setRtcView v, events.map .rtc)
  | .update =>
    if rtcIsBusy app.rtc then (.running, app, [])
    else (.finished, app, (report app).map (.print cmdIo))

def performRTCOscillatorStart (answers : I2cAnswers) :
    AppData → Option CmdIo → AppCommandTaskCallbackMode → PerformResult :=
  performRTC (rtcEnableOscillator · answers true) fun _ => []

def performRTCOscillatorStop (answers : I2cAnswers) :
    AppData → Option CmdIo → AppCommandTaskCallbackMode → PerformResult :=
  performRTC (rtcEnableOscillator · answers false) fun _ => []

def performRTCOscillatorStatus (answers : I2cAnswers) :
    AppData → Option CmdIo → AppCommandTaskCallbackMode → PerformResult :=
  performRTC (rtcOscillatorStatus · answers commandRTCAddress) fun app =>
    [.oscillatorStatus (app.command.rtc.load 1 ≠ [0])]

def performRTCDateShow (answers : I2cAnswers) :
    AppData → Option CmdIo → AppCommandTaskCallbackMode → PerformResult :=
  performRTC (rtcReadDateAndTime · answers commandRTCAddress) fun app =>
    [.date (.ofBytes (app.command.rtc.load RtcDateTime.size))]

def performRTCDateSet (answers : I2cAnswers) (app : AppData) :
    Option CmdIo → AppCommandTaskCallbackMode → PerformResult :=
  performRTC
    (rtcWriteDateAndTime · answers (.ofBytes (app.command.rtc.load RtcDateTime.size)))
    (fun _ => []) app

def performRTCBatteryEnable (answers : I2cAnswers) :
    AppData → Option CmdIo → AppCommandTaskCallbackMode → PerformResult :=
  performRTC (rtcEnableBatteryBackup · answers true) fun _ => []

def performRTCBatteryDisable (answers : I2cAnswers) :
    AppData → Option CmdIo → AppCommandTaskCallbackMode → PerformResult :=
  performRTC (rtcEnableBatteryBackup · answers false) fun _ => []

def performRTCBatteryStatus (answers : I2cAnswers) :
    AppData → Option CmdIo → AppCommandTaskCallbackMode → PerformResult :=
  performRTC (rtcBatteryBackupStatus · answers commandRTCAddress) fun app =>
    [.batteryStatus (app.command.rtc.load 1 ≠ [0])]

def performRTCDump (answers : I2cAnswers) :
    AppData → Option CmdIo → AppCommandTaskCallbackMode → PerformResult :=
  performRTC (rtcReadNumRegisters · answers (.caller commandRTCAddress) rtcNumRegisters) fun app =>
    [.registers (app.command.rtc.load rtcNumRegisters)]

def performRTCRegisterRead (answers : I2cAnswers) (app : AppData) :
    Option CmdIo → AppCommandTaskCallbackMode → PerformResult :=
  performRTC (rtcReadRegister · answers app.command.rtc.registerAddress commandRTCRegisterValue)
    (fun app => [.registerValue app.command.rtc.registerValue]) app

def performRTCRegisterWrite (answers : I2cAnswers) (app : AppData) :
    Option CmdIo → AppCommandTaskCallbackMode → PerformResult :=
  performRTC
    (rtcWriteRegister · answers app.command.rtc.registerAddress app.command.rtc.registerValue)
    (fun _ => []) app

def performRTCCheckAvailable (app : AppData) : Bool := !rtcIsBusy app.rtc

/-! ## `shift_register` -/

def performShiftRegisterSetEnabled (app : AppData) : AppCommandTaskCallbackMode → PerformResult :=
  performOnce (app, (appShiftRegisterSetEnabled true).map .shiftRegister) app

def performShiftRegisterSetDisabled (app : AppData) : AppCommandTaskCallbackMode → PerformResult :=
  performOnce (app, (appShiftRegisterSetEnabled false).map .shiftRegister) app

def performShiftRegisterSendData (app : AppData) : AppCommandTaskCallbackMode → PerformResult :=
  let send := app.command.shiftRegister
  performOnce
    ({ app with
      shiftRegister := appShiftRegisterSendData app.shiftRegister send.data send.numBytes }, []) app

def performShiftRegisterCheckAvailable (app : AppData) : Bool :=
  !appShiftRegisterIsBusy app.shiftRegister

/-! ## The callbacks of the scheduler -/

def performCheckAvailable : AppCommandTaskCheckAvailableCallback → AppData → Bool
  | .performFetchCheckAvailable => performFetchCheckAvailable
  | .performFlashCheckAvailable => performFlashCheckAvailable
  | .performNixieCheckAvailable => performNixieCheckAvailable
  | .performRTCCheckAvailable => performRTCCheckAvailable
  | .performShiftRegisterCheckAvailable => performShiftRegisterCheckAvailable

def perform (answers : CommandAnswers) (callback : AppCommandTaskCallback) (cmdIo : Option CmdIo)
    (mode : AppCommandTaskCallbackMode) (app : AppData) : PerformResult :=
  match callback with
  | .performFetch => performFetch app mode
  | .performFlashSectors => performFlashSectors answers.flash app cmdIo mode
  | .performFlashFormat => performFlashFormat answers.flash app cmdIo mode
  | .performNixieDisplay => performNixieDisplay app mode
  | .performNixieFetch => performNixieFetch app cmdIo mode
  | .performRTCOscillatorStart => performRTCOscillatorStart answers.i2c app cmdIo mode
  | .performRTCOscillatorStop => performRTCOscillatorStop answers.i2c app cmdIo mode
  | .performRTCOscillatorStatus => performRTCOscillatorStatus answers.i2c app cmdIo mode
  | .performRTCDateShow => performRTCDateShow answers.i2c app cmdIo mode
  | .performRTCDateSet => performRTCDateSet answers.i2c app cmdIo mode
  | .performRTCBatteryEnable => performRTCBatteryEnable answers.i2c app cmdIo mode
  | .performRTCBatteryDisable => performRTCBatteryDisable answers.i2c app cmdIo mode
  | .performRTCBatteryStatus => performRTCBatteryStatus answers.i2c app cmdIo mode
  | .performRTCDump => performRTCDump answers.i2c app cmdIo mode
  | .performRTCRegisterRead => performRTCRegisterRead answers.i2c app cmdIo mode
  | .performRTCRegisterWrite => performRTCRegisterWrite answers.i2c app cmdIo mode
  | .performShiftRegisterSetEnabled => performShiftRegisterSetEnabled app mode
  | .performShiftRegisterSetDisabled => performShiftRegisterSetDisabled app mode
  | .performShiftRegisterSendData => performShiftRegisterSendData app mode

def taskCallbacks (answers : CommandAnswers) : TaskCallbacks AppData AppEvent where
  checkAvailable := performCheckAvailable
  call callback cmdIo mode app := perform answers callback cmdIo mode app

end NixieTracker
