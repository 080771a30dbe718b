import NixieTracker.Lib.Machine

/-!
# The USB HID module (`app_usb_hid.c`, `app_usb_hid_utils.c`)

The USB driver works in its interrupt (`DRV_USBFS_INTERRUPT_MODE`), so its events come between any two
accesses of `APP_USB_HID_Tasks` to the data of the module.

* `appUsbDeviceEventHandler`, `appUsbDeviceHIDEventHandler`: the handlers of the events.
* `appUsbHidTasks`: a call of the tasks with no event in between.
* `HidPlace`, `hidStep`: the places of a call between its accesses, and the way from one to the next.
  `hidSteps_eq`: with no event in between they are `appUsbHidTasks`.
* `HidSystem`: the module, the place of its call, and the read requests that the device layer works on.
-/

namespace NixieTracker

open Lib

/-- A handle of the device layer or of a transfer; `none` is the invalid one. -/
abbrev UsbHandle := Option Nat

inductive AppUsbHidState where
  | init | waitForConfiguration | mainTask | error
  deriving DecidableEq, Repr

/-- `AppUSBHIDData` without the pointers to its two buffers. -/
structure AppUsbHidData where
  state : AppUsbHidState
  usHandle : UsbHandle
  isDeviceConfigured : Bool
  txTransferHandle : UsbHandle
  rxTransferHandle : UsbHandle
  configurationValue : UInt8
  isHidDataReceived : Bool
  isHidDataTransmitted : Bool
  idleRate : UInt8
  deriving DecidableEq, Repr

/-- `USB_DEVICE_EVENT`, with the data that the handler reads. -/
inductive UsbDeviceEvent where
  | reset | deconfigured | configured (configurationValue : UInt8)
  | suspended | powerDetected | powerRemoved | resumed | error
  deriving DecidableEq, Repr

/-- `USB_DEVICE_HID_EVENT`, with the data that the handler reads. -/
inductive UsbDeviceHidEvent where
  | reportSent (handle : Nat) | reportReceived (handle : Nat)
  | setIdle (duration : UInt8) | getIdle | other
  deriving DecidableEq, Repr

/-- The calls of the device layer. -/
inductive UsbEvent where
  | eventHandlerSet
  | hidEventHandlerSet
  /-- `USB_DEVICE_HID_ReportReceive`, with the handle that it gives. -/
  | reportReceive (handle : UsbHandle)
  | controlStatusOk
  | controlSend (idleRate : UInt8)
  | attach
  | detach
  deriving DecidableEq, Repr

/-- What the device layer answers in a call of the tasks. -/
structure UsbAnswers where
  openHandle : UsbHandle
  reportReceive : UsbHandle
  deriving DecidableEq, Repr

/-- `APP_USB_HID_Initialize`. The fields that it does not set keep their value. -/
def appUsbHidInitialize (d : AppUsbHidData) : AppUsbHidData :=
  { d with
    state := .init
    usHandle := none
    isDeviceConfigured := false
    txTransferHandle := none
    rxTransferHandle := none
    isHidDataReceived := false
    isHidDataTransmitted := true }

/-- `APP_USB_HID_Tasks` with no event in between. -/
def appUsbHidTasks (answers : UsbAnswers) (d : AppUsbHidData) : AppUsbHidData × List UsbEvent :=
  match d.state with
  | .init =>
    let d := { d with usHandle := answers.openHandle }
    if d.usHandle ≠ none then ({ d with state := .waitForConfiguration }, [.eventHandlerSet])
    else (d, [])
  | .waitForConfiguration =>
    if d.isDeviceConfigured then
      ({ d with
        isHidDataReceived := false
        isHidDataTransmitted := true
        state := .mainTask
        rxTransferHandle := answers.reportReceive }, [.reportReceive answers.reportReceive])
    else (d, [])
  | .mainTask =>
    if !d.isDeviceConfigured then ({ d with state := .waitForConfiguration }, [])
    else if d.isHidDataReceived then
      ({ d with
        isHidDataReceived := false
        rxTransferHandle := answers.reportReceive }, [.reportReceive answers.reportReceive])
    else (d, [])
  | .error => (d, [])

def appUsbDeviceHIDEventHandler (d : AppUsbHidData) :
    UsbDeviceHidEvent → AppUsbHidData × List UsbEvent
  | .reportSent handle =>
    (if some handle = d.txTransferHandle then { d with isHidDataTransmitted := true } else d, [])
  | .reportReceived handle =>
    (if some handle = d.rxTransferHandle then { d with isHidDataReceived := true } else d, [])
  | .setIdle duration => ({ d with idleRate := duration }, [.controlStatusOk])
  | .getIdle => (d, [.controlSend d.idleRate])
  | .other => (d, [])

def appUsbDeviceEventHandler (d : AppUsbHidData) : UsbDeviceEvent → AppUsbHidData × List UsbEvent
  | .reset | .deconfigured =>
    ({ d with isDeviceConfigured := false, state := .waitForConfiguration }, [])
  | .configured configurationValue =>
    ({ d with isDeviceConfigured := true, configurationValue }, [.hidEventHandlerSet])
  | .powerDetected => (d, [.attach])
  | .powerRemoved => (d, [.detach])
  | .suspended | .resumed | .error => (d, [])

/-! ## The accesses of a call -/

/-- The next access of a call; `entry` is the `switch` at its beginning. -/
inductive HidPlace where
  | entry
  -- The device layer is opened.
  | openDevice | setHandler | toWait
  -- The configuration is there.
  | waitConfigured | clearReceived | setTransmitted | toMain
  -- The main task.
  | mainConfigured | backToWait | mainReceived | mainClear
  /-- `USB_DEVICE_HID_ReportReceive`, in both. -/
  | receive
  deriving DecidableEq, Repr

/-- One access, and the place of the next. -/
def hidStep (answers : UsbAnswers) (d : AppUsbHidData) :
    HidPlace → AppUsbHidData × HidPlace × List UsbEvent
  | .entry =>
    match d.state with
    | .init => (d, .openDevice, [])
    | .waitForConfiguration => (d, .waitConfigured, [])
    | .mainTask => (d, .mainConfigured, [])
    | .error => (d, .entry, [])
  | .openDevice =>
    ({ d with usHandle := answers.openHandle },
      if answers.openHandle ≠ none then .setHandler else .entry, [])
  | .setHandler => (d, .toWait, [.eventHandlerSet])
  | .toWait => ({ d with state := .waitForConfiguration }, .entry, [])
  | .waitConfigured => (d, if d.isDeviceConfigured then .clearReceived else .entry, [])
  | .clearReceived => ({ d with isHidDataReceived := false }, .setTransmitted, [])
  | .setTransmitted => ({ d with isHidDataTransmitted := true }, .toMain, [])
  | .toMain => ({ d with state := .mainTask }, .receive, [])
  | .mainConfigured => (d, if !d.isDeviceConfigured then .backToWait else .mainReceived, [])
  | .backToWait => ({ d with state := .waitForConfiguration }, .entry, [])
  | .mainReceived => (d, if d.isHidDataReceived then .mainClear else .entry, [])
  | .mainClear => ({ d with isHidDataReceived := false }, .receive, [])
  | .receive =>
    ({ d with rxTransferHandle := answers.reportReceive }, .entry,
      [.reportReceive answers.reportReceive])

/-- The accesses from a place to the end of the call. -/
def hidSteps (answers : UsbAnswers) (d : AppUsbHidData) (place : HidPlace) :
    Nat → AppUsbHidData × List UsbEvent
  | 0 => (d, [])
  | n + 1 =>
    let (d, place, events) := hidStep answers d place
    if place = .entry then (d, events)
    else
      let (d, rest) := hidSteps answers d place n
      (d, events ++ rest)

/-- No call has more than six accesses. -/
theorem hidSteps_eq (answers : UsbAnswers) (d : AppUsbHidData) :
    hidSteps answers d .entry 6 = appUsbHidTasks answers d := by
  obtain ⟨state, usHandle, configured, tx, rx, value, received, transmitted, idleRate⟩ := d
  obtain ⟨openHandle, reportReceive⟩ := answers
  cases state
  · cases openHandle <;> rfl
  · cases configured <;> rfl
  · cases configured <;> cases received <;> rfl
  · rfl

/-! ## The module and the device layer -/

/-- The module in a call of its tasks, and the read requests that the device layer has accepted and not
finished. -/
structure HidSystem where
  data : AppUsbHidData
  place : HidPlace
  reads : List Nat
  deriving DecidableEq, Repr

/-- The tasks go on by one access, or the interrupt brings an event. -/
inductive HidCall where
  | task (answers : UsbAnswers)
  | device (e : UsbDeviceEvent)
  | hid (e : UsbDeviceHidEvent)
  deriving DecidableEq, Repr

/-- The device layer drops its requests when the device is no longer configured. -/
def readsAfter (reads : List Nat) : UsbDeviceEvent → List Nat
  | .reset | .deconfigured => []
  | _ => reads

/-- A request that ends is reported. -/
def readsAfterReport (reads : List Nat) : UsbDeviceHidEvent → List Nat
  | .reportReceived handle => reads.erase handle
  | _ => reads

namespace Hid

def step (s : HidSystem) : HidCall → HidSystem × List UsbEvent
  | .task answers =>
    let (data, place, events) := hidStep answers s.data s.place
    (⟨data, place, if s.place = .receive then s.reads ++ answers.reportReceive.toList else s.reads⟩,
      events)
  | .device e =>
    let (data, events) := appUsbDeviceEventHandler s.data e
    (⟨data, s.place, readsAfter s.reads e⟩, events)
  | .hid e =>
    let (data, events) := appUsbDeviceHIDEventHandler s.data e
    (⟨data, s.place, readsAfterReport s.reads e⟩, events)

def machine : Machine HidSystem HidCall UsbEvent := ⟨step⟩

/-- The read requests that the device layer can keep, as `system_init.c` sets it up. -/
def queueSizeReportReceive : Nat := 1

/-- What the device layer does: it takes a read request if the device is configured and its queue has
room, under a handle that is not in use, and reports the end of requests that it took. -/
def Legal (s : HidSystem) : HidCall → Prop
  | .task answers => s.place = .receive →
      (answers.reportReceive ≠ none ↔
        s.data.isDeviceConfigured = true ∧ s.reads.length < queueSizeReportReceive) ∧
      ∀ handle, answers.reportReceive = some handle → handle ∉ s.reads
  | .hid (.reportReceived handle) => handle ∈ s.reads
  | _ => True

/-- The module after its initialization. -/
def Initialized (s : HidSystem) : Prop :=
  ∃ memory, s = ⟨appUsbHidInitialize memory, .entry, []⟩

end Hid

end NixieTracker
