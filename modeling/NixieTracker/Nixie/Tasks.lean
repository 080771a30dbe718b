import NixieTracker.Nixie.Data

/-!
# The nixie module: its state machine (`app_nixie.c`)

`appNixieTasks` is one call of `APP_Nixie_Tasks`. It works on the module's data and on the client and
the shift register that the module points to (`NixieView`). The timer and the network interfaces answer
with `NixieAnswers`. The module's callbacks are registered with the client under the tag `self`.
-/

namespace NixieTracker

open Lib

abbrev periodicIntervalFast : UInt64 := 5
abbrev periodicIntervalNormal : UInt64 := 30

/-- What the timer and the TCP/IP stack answer during one call of `APP_Nixie_Tasks`. -/
structure NixieAnswers where
  systemCount : UInt64
  /-- The count when the next periodic task is scheduled. -/
  scheduleCount : UInt64
  systemFrequency : UInt64
  hasUsableInterface : Bool

/-- `AppNixieData` with what its two pointers lead to. -/
structure NixieView (κ : Type) where
  nixie : AppNixieData
  httpsClient : AppHTTPSClientData κ
  shiftRegister : AppShiftRegisterData

inductive PeriodicTime where
  | fast | normal
  deriving DecidableEq, Repr

def PeriodicTime.interval : PeriodicTime → UInt64
  | .fast => periodicIntervalFast
  | .normal => periodicIntervalNormal

def schedulePeriodicTask (answers : NixieAnswers) (d : AppNixieData) (time : PeriodicTime) :
    AppNixieData :=
  { d with periodicNextTime := answers.scheduleCount + answers.systemFrequency * time.interval }

def appNixieIsBusy (d : AppNixieData) : Bool := d.state ≠ .idle

def performPeriodicTasks (answers : NixieAnswers) (d : AppNixieData) : AppNixieData :=
  if !d.periodicTasksEnabled then d
  else if answers.systemCount < d.periodicNextTime then d
  else if appNixieIsBusy d then d
  else if !answers.hasUsableInterface then d
  else
    schedulePeriodicTask answers
      { d with state := .beginHttpRequest, taskFromPeriodic := true } .normal

section Tasks

variable {κ : Type}

def waitHttpsClientAndSendRequest (self : κ) (d : AppNixieData) (client : AppHTTPSClientData κ) :
    AppNixieData × AppHTTPSClientData κ :=
  if appHttpsClientIsBusy client then (d, client)
  else
    -- Values from the previous run are reset.
    let d := { d with isValueParsed := false, cyclicBufferLen := 0 }
    let callbacks : AppHttpsClientCallbacks κ := ⟨some self, some self, some self⟩
    match appHttpsClientRequest client (cstr d.requestUrl.toList) callbacks with
    | (false, client) => ({ d with state := .error }, client)
    | (true, client) => ({ d with state := .waitHttpsResponse }, client)

def appNixieTasks (self : κ) (answers : NixieAnswers) (v : NixieView κ) :
    NixieView κ × List NixieEvent :=
  let d := v.nixie
  match d.state with
  | .idle =>
    ({ v with nixie := performPeriodicTasks answers { d with taskFromPeriodic := false } }, [])
  | .error =>
    let d := { d with state := .idle }
    ({ v with nixie := if d.taskFromPeriodic then schedulePeriodicTask answers d .fast else d }, [])
  | .beginHttpRequest => ({ v with nixie := { d with state := .waitHttpsClient } }, [])
  | .waitHttpsClient =>
    let (d, client) := waitHttpsClientAndSendRequest self d v.httpsClient
    ({ v with nixie := d, httpsClient := client }, [])
  | .waitHttpsResponse => (v, [])
  | .shuffleServerValue =>
    let (d, events) := shuffleServerValueDigits d
    ({ v with nixie := d }, events)
  | .beginDisplaySequence => ({ v with nixie := { d with state := .decodeDisplayValue } }, [])
  | .decodeDisplayValue => ({ v with nixie := decodeDisplayValue d }, [])
  | .encodeShiftRegister => ({ v with nixie := encodeShiftRegister d }, [])
  | .writeShiftRegister =>
    let (d, shiftRegister) := writeShiftRegister d v.shiftRegister
    ({ v with nixie := d, shiftRegister }, [])

end Tasks

/-- `strncpy` of the size of the display: the string is cut, or filled up with NUL. -/
def strncpyDisplay (value : List UInt8) : Buf maxNixieTubes :=
  Vector.ofFn fun i => ((cstr value)[i.val]?).getD 0

/-- `APP_Nixie_Display`. -/
def appNixieDisplay (d : AppNixieData) (value : List UInt8) : Bool × AppNixieData :=
  if appNixieIsBusy d then (false, d)
  else (true, { d with displayValue := strncpyDisplay value, state := .beginDisplaySequence })

/-- `APP_Nixie_Fetch`. -/
def appNixieFetch (d : AppNixieData) (isFetched value : Address) :
    Bool × AppNixieData × List NixieEvent :=
  if appNixieIsBusy d then (false, d, [.storeIsFetched (some isFetched) false])
  else
    (true,
      { d with
        state := .beginHttpRequest
        isFetchedOut := some isFetched
        displayValueOut := some value },
      [.storeIsFetched (some isFetched) false])

def appNixiePeriodicTasksEnabled (d : AppNixieData) : Bool := d.periodicTasksEnabled

def appNixiePeriodicTasksSetEnabled (d : AppNixieData) (enabled : Bool) : AppNixieData :=
  { d with periodicTasksEnabled := enabled }

end NixieTracker
