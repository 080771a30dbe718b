import NixieTracker.Lib.Machine
import NixieTracker.Lib.Wave

/-!
# The shift register module (`app_shift_register.c`)

A bit-banged transmission of up to `SHIFT_REGISTER_MAX_DATA` bytes. Each call of
`APP_ShiftRegister_Tasks` does a few port writes and at most one read of the staged bytes; both are
events of the call (`ShiftRegisterEvent`), in program order.

The board has an inverter between the controller and the registers (`USE_INVERTER`), so the
pull-up macro drives the port pin low. `ShiftRegisterEvent.line?` is the level that the registers
see.
-/

namespace NixieTracker

/-- `SHIFT_REGISTER_MAX_DATA`. -/
abbrev shiftRegisterMaxData : Nat := 6

/-- The output lines of the module. -/
inductive ShiftPin where
  | data | srck | rck | en
  deriving DecidableEq, Repr

inductive AppShiftRegisterState where
  | idle | transmitBegin | transmitStep | transmitFinish | transmitPause
  deriving DecidableEq, Repr

/-- `AppShiftRegisterData`, with the fields of its only per-task storage `_private.send`. -/
structure AppShiftRegisterData where
  state : AppShiftRegisterState
  data : Vector UInt8 shiftRegisterMaxData
  numBytes : Nat
  currentByte : Nat
  currentBit : Nat
  counter : Nat
  deriving DecidableEq, Repr

/-- The module's memory as the program is loaded. -/
def AppShiftRegisterData.zeroed : AppShiftRegisterData := ⟨.idle, Vector.replicate _ 0, 0, 0, 0, 0⟩

/-- What a call does outside the module's data: it writes a port pin, or reads a staged byte. -/
inductive ShiftRegisterEvent where
  | port (pin : ShiftPin) (high : Bool)
  | read (index : Nat)
  deriving DecidableEq, Repr

/-- The line behind the inverter that a port write sets. -/
def ShiftRegisterEvent.line? : ShiftRegisterEvent → Option (Lib.Write ShiftPin)
  | .port p high => some (p, !high)
  | .read _ => none

def ShiftRegisterEvent.read? : ShiftRegisterEvent → Option Nat
  | .port _ _ => none
  | .read i => some i

namespace ShiftRegister

def pinOn (p : ShiftPin) : ShiftRegisterEvent := .port p true
def pinOff (p : ShiftPin) : ShiftRegisterEvent := .port p false

/-- `SHIFT_*_PULL_DOWN` with the inverter. -/
def pullDown (p : ShiftPin) : ShiftRegisterEvent := pinOn p

/-- `SHIFT_*_PULL_UP` with the inverter. -/
def pullUp (p : ShiftPin) : ShiftRegisterEvent := pinOff p

/-- `SHIFT_DATA_SET(x)` with the inverter: `StateSet(x ? 0 : 1)`. -/
def dataSet (x : UInt8) : ShiftRegisterEvent := .port .data (if x ≠ 0 then false else true)

end ShiftRegister

open ShiftRegister

def transmitBegin (d : AppShiftRegisterData) : AppShiftRegisterData × List ShiftRegisterEvent :=
  ({ d with currentByte := 0, currentBit := 0, counter := 0, state := .transmitStep },
    [pullDown .data, pullDown .rck, pullDown .srck, pullUp .en])

def transmitStep (d : AppShiftRegisterData) : AppShiftRegisterData × List ShiftRegisterEvent :=
  if d.counter = 1 then
    -- The falling edge; the data line keeps its level.
    ({ d with currentBit := d.currentBit + 1, counter := 0 }, [pullDown .srck])
  else if d.currentBit = 8 then
    let currentByte := d.currentByte + 1
    ({ d with
        currentBit := 0
        currentByte
        state := if currentByte = d.numBytes then .transmitFinish else .transmitPause }, [])
  else
    let currentByte := (d.data[d.currentByte]?).getD 0
    let value := currentByte &&& UInt8.ofNat (1 <<< (7 - d.currentBit))
    ({ d with counter := d.counter + 1 },
      [.read d.currentByte, dataSet value, pullUp .srck])

def transmitFinish (d : AppShiftRegisterData) : AppShiftRegisterData × List ShiftRegisterEvent :=
  if d.counter = 1 then
    ({ d with state := .idle }, [pullDown .rck, pullDown .en])
  else
    ({ d with counter := d.counter + 1 }, [pullUp .rck])

def transmitPause (d : AppShiftRegisterData) : AppShiftRegisterData × List ShiftRegisterEvent :=
  if d.counter = 1 then
    ({ d with counter := 0, state := .transmitStep }, [])
  else
    ({ d with counter := d.counter + 1 }, [])

def appShiftRegisterInitialize (d : AppShiftRegisterData) :
    AppShiftRegisterData × List ShiftRegisterEvent :=
  ({ d with state := .idle }, [pullDown .en, pullDown .data, pullDown .rck, pullDown .srck])

def appShiftRegisterTasks (d : AppShiftRegisterData) :
    AppShiftRegisterData × List ShiftRegisterEvent :=
  match d.state with
  | .idle => (d, [])
  | .transmitBegin => transmitBegin d
  | .transmitStep => transmitStep d
  | .transmitFinish => transmitFinish d
  | .transmitPause => transmitPause d

def appShiftRegisterIsBusy (d : AppShiftRegisterData) : Bool := d.state ≠ .idle

def appShiftRegisterSetEnabled (isEnabled : Bool) : List ShiftRegisterEvent :=
  if isEnabled then [pullDown .en] else [pullUp .en]

/-- `APP_ShiftRegister_SendData`. The `memcpy` always takes `SHIFT_REGISTER_MAX_DATA` bytes from
the caller; only the first `numBytes` of them are sent. -/
def appShiftRegisterSendData (d : AppShiftRegisterData)
    (data : Vector UInt8 shiftRegisterMaxData) (numBytes : Nat) : AppShiftRegisterData :=
  { d with data, numBytes, state := .transmitBegin }

namespace ShiftRegister

/-- The module as a machine: one input is one call of `APP_ShiftRegister_Tasks`. -/
def machine : Lib.Machine AppShiftRegisterData Unit ShiftRegisterEvent where
  step d _ := appShiftRegisterTasks d

/-- `k` calls of `APP_ShiftRegister_Tasks`. -/
def calls (k : Nat) : List Unit := List.replicate k ()

/-- The writes to the lines behind the inverter, in order. -/
def lines (es : List ShiftRegisterEvent) : List (Lib.Write ShiftPin) :=
  es.filterMap (·.line?)

/-- The indices of the staged bytes that are read, in order. -/
def reads (es : List ShiftRegisterEvent) : List Nat := es.filterMap (·.read?)

end ShiftRegister

end NixieTracker
