import NixieTracker.Lib.Overlay
import NixieTracker.Rtc.Operation

/-!
# The staging storage of the clock

The functions of the module once more, with every access to the union `_private` by the name of the
member and field that it uses. Transfers are asynchronous: the driver holds the transmit buffer until
it is done, and stores what it receives byte by byte.

* `RtcMember.fields`, `RtcMember.field`: the union, laid out byte by byte.
* `RtcStaged`: the view of the module, the buffers on the bus, and the accesses so far.
* `startStaged_view`, `rtcTasksStaged_view`: these functions do what those of the module do.
-/

namespace NixieTracker

open Lib Lib.Overlay

/-! ## The union -/

/-- The members of `_private`. -/
inductive RtcMember where
  | dateTimeRead | dateTimeWrite
  | oscillatorBits | oscillatorStatus
  | batteryBits | batteryStatus
  | registerRead | registerWrite | registerNumRead | registerNumWrite
  deriving DecidableEq, Repr

namespace RtcMember

/-- The fields of the member. -/
def fields : RtcMember → List CType
  -- `date_time_ptr`, `transmit_buffer`
  | .dateTimeRead => [.pointer, .bytes 1]
  -- `register_storage`, `date_time`
  | .dateTimeWrite => [.bytes (RtcDateTime.size + 1), .bytes RtcDateTime.size]
  -- `current_register_value`, `transmit_buffer`
  | .oscillatorBits | .batteryBits => [.bytes 1, .bytes 2]
  -- `current_register_value`, `return_status_ptr`, `transmit_buffer`
  | .oscillatorStatus | .batteryStatus => [.bytes 1, .pointer, .bytes 1]
  -- `transmit_buffer`
  | .registerRead | .registerNumRead => [.bytes 1]
  | .registerWrite => [.bytes 2]
  | .registerNumWrite => [.bytes rtcNumRegisters]

example : structOffsets 0 (fields .oscillatorStatus) = [0, 4, 8] := by decide

/-- The field of the member with this index. -/
def field (m : RtcMember) (i : Nat) : UnionField RtcMember where
  member := m
  offset := (structOffsets 0 m.fields).getD i 0
  size := (m.fields.getD i (.bytes 0)).size

def transmitBuffer (m : RtcMember) : UnionField RtcMember :=
  match m with
  | .oscillatorStatus | .batteryStatus => m.field 2
  | .dateTimeRead | .oscillatorBits | .batteryBits => m.field 1
  | _ => m.field 0

def currentRegisterValue (m : RtcMember) : UnionField RtcMember := m.field 0

def returnStatusPtr (m : RtcMember) : UnionField RtcMember := m.field 1

end RtcMember

def dateTimePtr : UnionField RtcMember := RtcMember.dateTimeRead.field 0

def registerStorage : UnionField RtcMember := RtcMember.dateTimeWrite.field 0

/-- `date_time_write.date_time`. -/
def pendingDateTime : UnionField RtcMember := RtcMember.dateTimeWrite.field 1

/-! ## Accesses -/

abbrev RtcAccess := Access RtcMember

/-- Where a transfer receives to. -/
inductive StagedTarget where
  | field (field : UnionField RtcMember) (index : Nat)
  | caller (address : UInt32)
  deriving DecidableEq

/-- The target as an address. -/
def StagedTarget.target : StagedTarget → RtcTarget
  | .field p index => .privateData (p.offset + index)
  | .caller address => .caller address

/-- The first `n` bytes of the target are received, in order. -/
def StagedTarget.accesses (n : Nat) : StagedTarget → List RtcAccess
  | .field p index => (List.range n).map fun i => ⟨.write, p, index + i, 1⟩
  | .caller _ => []

/-- The buffers of a transfer on the bus. -/
structure StagedTransfer where
  transmit : RtcAccess
  receive : Option (StagedTarget × Nat)

structure RtcStaged where
  view : RtcView
  bus : Option StagedTransfer
  accesses : List RtcAccess

namespace RtcStaged

/-- The module writes to the field. -/
def stage (s : RtcStaged) (p : UnionField RtcMember) (index : Nat) (bytes : List UInt8) : RtcStaged :=
  { s with
    view := s.view.setPrivate (p.offset + index) bytes
    accesses := s.accesses ++ [⟨.write, p, index, bytes.length⟩] }

/-- The module reads from the field. -/
def fetch (s : RtcStaged) (p : UnionField RtcMember) (index len : Nat) : List UInt8 × RtcStaged :=
  (s.view.getPrivate (p.offset + index) len,
    { s with accesses := s.accesses ++ [⟨.read, p, index, len⟩] })

def setNextTask (s : RtcStaged) (nextTask : RtcNextTask) : RtcStaged :=
  { s with view := s.view.setNextTask nextTask }

/-- `i2c_transmit` and `i2c_transmitThenReceive`: the driver reads the buffer if it takes the
transfer. -/
def transfer (s : RtcStaged) (answers : I2cAnswers) (buffer : UnionField RtcMember) (numBytes : Nat)
    (receive : Option (StagedTarget × Nat)) : RtcStaged :=
  let (accepted, view, _) := startTransfer s.view answers (s.view.getPrivate buffer.offset numBytes)
    (receive.map fun r => (r.1.target, r.2))
  if accepted then
    { view
      bus := some ⟨⟨.read, buffer, 0, numBytes⟩, receive⟩
      accesses := s.accesses ++ [⟨.read, buffer, 0, numBytes⟩] }
  else { s with view }

/-- The driver stores what it received. -/
def deliver (s : RtcStaged) (answers : I2cAnswers) (count : Nat → Nat) : RtcStaged :=
  { s with
    view := (s.view.deliver answers count).1
    accesses := s.accesses ++
      match s.bus.bind (·.receive) with
      | none => []
      | some (target, n) => target.accesses (count n) }

/-- The transfer is complete: the driver has read the transmit buffer until now. -/
def release (s : RtcStaged) : RtcStaged :=
  { s with bus := none, accesses := s.accesses ++ (s.bus.map (·.transmit)).toList }

end RtcStaged

/-! ## The follow-ups -/

/-- `task_oscillator_enableOrDisable` and `task_battery_enableOrDisable`. -/
def taskEnableOrDisableStaged (s : RtcStaged) (answers : I2cAnswers) (m : RtcMember)
    (register flag : UInt8) (enable : Bool) : RtcStaged :=
  let (value, s) := s.fetch m.currentRegisterValue 0 1
  let value := value.getD 0 0
  let value := if enable then value ||| flag else value &&& ~~~flag
  ((s.stage m.transmitBuffer 0 [register, value]).transfer answers m.transmitBuffer 2 none).setNextTask
    .none

/-- `task_oscillator_postStatusReceive` and `task_battery_postStatusReceive`. -/
def taskPostStatusReceiveStaged (s : RtcStaged) (m : RtcMember) (flag : UInt8) : RtcStaged :=
  let (value, s) := s.fetch m.currentRegisterValue 0 1
  let enabled : UInt8 := if value.getD 0 0 &&& flag ≠ 0 then 1 else 0
  let (returnStatusPtr, s) := s.fetch m.returnStatusPtr 0 4
  { s with
    view := (s.view.put (.caller (pointerOf returnStatusPtr)) [enabled]).setNextTask .none }

def taskDatetimeConvertToBCDAndTransmitStaged (s : RtcStaged) (answers : I2cAnswers) : RtcStaged :=
  let (dateTime, s) := s.fetch pendingDateTime 0 RtcDateTime.size
  let (reg, s) := s.fetch registerStorage 1 RtcDateTime.size
  let registers := regAddrSeconds :: dateTimeRegisters reg (.ofBytes dateTime)
  ((s.stage registerStorage 0 registers).transfer answers registerStorage (RtcDateTime.size + 1)
    none).setNextTask .none

def taskDatetimeConvertFromBCDStaged (s : RtcStaged) : RtcStaged :=
  let (dateTimePtr, s) := s.fetch dateTimePtr 0 4
  let registers := s.view.memory.load (pointerOf dateTimePtr).toNat RtcDateTime.size
  let dateTime := (dateTimeOfRegisters (.ofBytes registers)).bytes
  { s with
    view := ((s.view.put (.caller (pointerOf dateTimePtr)) dateTime).setState .none).setNextTask .none }

def runNextTaskStaged (s : RtcStaged) (answers : I2cAnswers) : RtcStaged :=
  match s.view.rtc.nextTask with
  | .none => { s with view := s.view.setState .none }
  | .oscillatorUpdateEnable =>
    taskEnableOrDisableStaged s answers .oscillatorBits regAddrSeconds flagStartOscillator true
  | .oscillatorUpdateDisable =>
    taskEnableOrDisableStaged s answers .oscillatorBits regAddrSeconds flagStartOscillator false
  | .oscillatorUpdateStatus => taskPostStatusReceiveStaged s .oscillatorStatus flagStartOscillator
  | .batteryUpdateEnable =>
    taskEnableOrDisableStaged s answers .batteryBits regAddrDayOfWeek flagBatteryEnable true
  | .batteryUpdateDisable =>
    taskEnableOrDisableStaged s answers .batteryBits regAddrDayOfWeek flagBatteryEnable false
  | .batteryUpdateStatus =>
    taskPostStatusReceiveStaged (s.setNextTask .none) .batteryStatus flagBatteryEnable
  | .dateTimeConvertBcd => taskDatetimeConvertFromBCDStaged s
  | .dateTimeUpdateAndTransmit => taskDatetimeConvertToBCDAndTransmitStaged s answers

def i2cTaskCheckStatusStaged (s : RtcStaged) (answers : I2cAnswers) : RtcStaged :=
  match answers.transferStatus with
  | .complete => runNextTaskStaged (s.deliver answers id).release answers
  | .error =>
    let s := s.deliver answers (min answers.numReceived)
    { s with view := s.view.setState .error, bus := none }
  | .pending => s

/-! ## The public functions -/

def rtcTasksStaged (s : RtcStaged) (answers : I2cAnswers) : RtcStaged :=
  match s.view.rtc.state with
  | .none => s
  | .error => s
  | .i2cStausCheck => i2cTaskCheckStatusStaged s answers

def rtcReadNumRegistersStaged (s : RtcStaged) (answers : I2cAnswers) (storage : StagedTarget)
    (numRegisters : Nat) : RtcStaged :=
  (s.stage (RtcMember.transmitBuffer .registerNumRead) 0 [regAddrSeconds]).transfer answers
    (RtcMember.transmitBuffer .registerNumRead) 1 (some (storage, numRegisters))

def rtcWriteDateAndTimeStaged (s : RtcStaged) (answers : I2cAnswers) (dateTime : RtcDateTime) :
    RtcStaged :=
  rtcReadNumRegistersStaged
    ((s.setNextTask .dateTimeUpdateAndTransmit).stage pendingDateTime 0 dateTime.bytes) answers
    (.field registerStorage 1) RtcDateTime.size

def rtcReadDateAndTimeStaged (s : RtcStaged) (answers : I2cAnswers) (dateTime : UInt32) : RtcStaged :=
  let s := (s.stage (RtcMember.transmitBuffer .dateTimeRead) 0 [regAddrSeconds]).setNextTask
    .dateTimeConvertBcd
  (s.stage dateTimePtr 0 (pointerBytes dateTime)).transfer answers
    (RtcMember.transmitBuffer .dateTimeRead) 1 (some (.caller dateTime, RtcDateTime.size))

def rtcReadRegisterStaged (s : RtcStaged) (answers : I2cAnswers) (registerAddress : UInt8)
    (registerValue : UInt32) : RtcStaged :=
  (s.stage (RtcMember.transmitBuffer .registerRead) 0 [registerAddress]).transfer answers
    (RtcMember.transmitBuffer .registerRead) 1 (some (.caller registerValue, 1))

def rtcWriteRegisterStaged (s : RtcStaged) (answers : I2cAnswers)
    (registerAddress registerValue : UInt8) : RtcStaged :=
  (s.stage (RtcMember.transmitBuffer .registerWrite) 0 [registerAddress, registerValue]).transfer
    answers (RtcMember.transmitBuffer .registerWrite) 2 none

def rtcWriteNumRegistersStaged (s : RtcStaged) (answers : I2cAnswers) (registers : List UInt8) :
    RtcStaged :=
  let s := s.stage (RtcMember.transmitBuffer .registerNumWrite) 0 [regAddrSeconds]
  (s.stage (RtcMember.transmitBuffer .registerNumWrite) 1 registers).transfer answers
    (RtcMember.transmitBuffer .registerNumWrite) (registers.length + 1) none

/-- `RTC_MCP7940N_EnableOscillator` and `RTC_MCP7940N_EnableBatteryBackup`. -/
def startEnableOrDisableStaged (s : RtcStaged) (answers : I2cAnswers) (m : RtcMember)
    (register : UInt8) (nextTask : RtcNextTask) : RtcStaged :=
  ((s.stage m.transmitBuffer 0 [register]).setNextTask nextTask).transfer answers m.transmitBuffer 1
    (some (.field m.currentRegisterValue 0, 1))

/-- `RTC_MCP7940N_OscillatorStatus` and `RTC_MCP7940N_BatteryBackupStatus`. -/
def startStatusStaged (s : RtcStaged) (answers : I2cAnswers) (m : RtcMember) (register : UInt8)
    (nextTask : RtcNextTask) (enabled : UInt32) : RtcStaged :=
  let s := (s.stage m.transmitBuffer 0 [register]).setNextTask nextTask
  (s.stage m.returnStatusPtr 0 (pointerBytes enabled)).transfer answers m.transmitBuffer 1
    (some (.field m.currentRegisterValue 0, 1))

namespace RtcOperation

/-- The call of a public operation. -/
def startStaged (s : RtcStaged) (answers : I2cAnswers) : RtcOperation → RtcStaged
  | .writeDateAndTime t => rtcWriteDateAndTimeStaged s answers t
  | .readDateAndTime p => rtcReadDateAndTimeStaged s answers p
  | .readRegister r p => rtcReadRegisterStaged s answers r p
  | .writeRegister r x => rtcWriteRegisterStaged s answers r x
  | .readNumRegisters p n => rtcReadNumRegistersStaged s answers (.caller p) n
  | .writeNumRegisters bs => rtcWriteNumRegistersStaged s answers bs
  | .enableOscillator e =>
    startEnableOrDisableStaged s answers .oscillatorBits regAddrSeconds
      (if e then .oscillatorUpdateEnable else .oscillatorUpdateDisable)
  | .oscillatorStatus p =>
    startStatusStaged s answers .oscillatorStatus regAddrSeconds .oscillatorUpdateStatus p
  | .enableBatteryBackup e =>
    startEnableOrDisableStaged s answers .batteryBits regAddrDayOfWeek
      (if e then .batteryUpdateEnable else .batteryUpdateDisable)
  | .batteryBackupStatus p =>
    startStatusStaged s answers .batteryStatus regAddrDayOfWeek .batteryUpdateStatus p

/-- The accesses of an operation: the call of a module that is not busy, where no transfer uses the
union, and the polls that follow. -/
def accesses (op : RtcOperation) (v : RtcView) (answers : I2cAnswers) (polls : List I2cAnswers) :
    List RtcAccess :=
  (polls.foldl rtcTasksStaged (op.startStaged ⟨v, none, []⟩ answers)).accesses

end RtcOperation

/-! ## The same functions -/

theorem RtcStaged.transfer_view (s : RtcStaged) (answers : I2cAnswers) (buffer : UnionField RtcMember)
    (numBytes : Nat) (receive : Option (StagedTarget × Nat)) :
    (s.transfer answers buffer numBytes receive).view =
      (startTransfer s.view answers (s.view.getPrivate buffer.offset numBytes)
        (receive.map fun r => (r.1.target, r.2))).2.1 := by
  unfold RtcStaged.transfer
  dsimp only
  split <;> rfl

/-- The calls of the public operations. -/
theorem startStaged_view (op : RtcOperation) (s : RtcStaged) (answers : I2cAnswers) :
    (op.startStaged s answers).view = (op.start s.view answers).1 := by
  cases op <;> exact RtcStaged.transfer_view ..

theorem runNextTaskStaged_view (s : RtcStaged) (answers : I2cAnswers) :
    (runNextTaskStaged s answers).view = (runNextTask s.view answers).1 := by
  unfold runNextTaskStaged runNextTask
  cases hnext : s.view.rtc.nextTask with
  | none | oscillatorUpdateStatus | batteryUpdateStatus | dateTimeConvertBcd => rfl
  | oscillatorUpdateEnable | oscillatorUpdateDisable | batteryUpdateEnable | batteryUpdateDisable =>
    simp only [taskOscillatorEnableOrDisable, taskBatteryEnableOrDisable, hnext]
    exact congrArg (RtcView.setNextTask · .none) (RtcStaged.transfer_view ..)
  | dateTimeUpdateAndTransmit =>
    exact congrArg (RtcView.setNextTask · .none) (RtcStaged.transfer_view ..)

/-- The polls. -/
theorem rtcTasksStaged_view (s : RtcStaged) (answers : I2cAnswers) :
    (rtcTasksStaged s answers).view = (rtcTasks s.view answers).1 := by
  unfold rtcTasksStaged rtcTasks
  cases s.view.rtc.state with
  | none | error => rfl
  | i2cStausCheck =>
    simp only [i2cTaskCheckStatusStaged, i2cTaskCheckStatus]
    cases answers.transferStatus with
    | complete => exact runNextTaskStaged_view ..
    | error | pending => rfl

end NixieTracker
