import NixieTracker.Lib.Buffer
import NixieTracker.Lib.Machine

/-!
# The real-time clock (`rtc_mcp7940n.c`)

The MCP7940N behind an I2C bus. A public operation starts one transfer and may leave a follow-up in
`next_task`; `RTC_MCP7940N_Tasks` polls the transfer and runs the follow-up once it is complete.

* `I2cAnswers`: what the I2C driver answers during one call.
* `RtcView`: the descriptor, the caller's memory, and the buffer into which the driver receives.
* `rtcTasks` and the operations give the next view and the events of the call (`RtcEvent`): the
  transfers that the driver accepts, the bytes that it receives, and what the module itself writes
  through a caller's pointer.
-/

namespace NixieTracker

open Lib

inductive DrvI2cBufferEvent where
  | complete | error
  /-- Any other event; the module treats them alike. -/
  | pending
  deriving DecidableEq, Repr

/-! ## Registers and flags -/

abbrev regAddrSeconds : UInt8 := 0x00
abbrev regAddrDayOfWeek : UInt8 := 0x03
abbrev flagStartOscillator : UInt8 := 0x80
abbrev flagBatteryEnable : UInt8 := 0x08

/-- `RTC_MCP7940N_NUM_REGISTERS`. -/
abbrev rtcNumRegisters : Nat := 31

/-! ## The descriptor -/

inductive RtcState where
  | none | error | i2cStausCheck
  deriving DecidableEq, Repr

inductive RtcNextTask where
  | none
  | oscillatorUpdateEnable | oscillatorUpdateDisable | oscillatorUpdateStatus
  | batteryUpdateEnable | batteryUpdateDisable | batteryUpdateStatus
  | dateTimeConvertBcd | dateTimeUpdateAndTransmit
  deriving DecidableEq, Repr

structure RtcDateTime where
  seconds : UInt8
  minutes : UInt8
  hours : UInt8
  dayOfWeek : UInt8
  day : UInt8
  month : UInt8
  year : UInt8
  deriving DecidableEq, Repr

namespace RtcDateTime

/-- `sizeof(RTC_MCP7940N_DateTime)`. -/
abbrev size : Nat := 7

/-- The structure as it lies in memory. -/
def bytes (t : RtcDateTime) : List UInt8 :=
  [t.seconds, t.minutes, t.hours, t.dayOfWeek, t.day, t.month, t.year]

def ofBytes (bs : List UInt8) : RtcDateTime :=
  ⟨bs.getD 0 0, bs.getD 1 0, bs.getD 2 0, bs.getD 3 0, bs.getD 4 0, bs.getD 5 0, bs.getD 6 0⟩

@[simp] theorem length_bytes (t : RtcDateTime) : t.bytes.length = 7 := rfl

@[simp] theorem ofBytes_bytes (t : RtcDateTime) : ofBytes t.bytes = t := rfl

end RtcDateTime

/-- `RTC_MCP7940N` without the driver's own handle. `privateData` is the union `_private`, whose
members lie over each other:
* `date_time_read`: the pointer at 0, the transmit buffer at 4;
* `date_time_write`: `register_storage` at 0, `date_time` at 8;
* `oscillator_bits`, `battery_bits`: the register value at 0, the transmit buffer at 1;
* `oscillator_status`, `battery_status`: the register value at 0, the pointer at 4, the transmit
  buffer at 8;
* `register_read`, `register_write`, `register_num_read`, `register_num_write`: the transmit buffer
  at 0. -/
structure RtcMcp7940n where
  state : RtcState
  nextTask : RtcNextTask
  /-- `NULL` is 0. -/
  i2cBufferHandle : UInt32
  privateData : Buf 32
  deriving DecidableEq, Repr

/-- A pointer of the target, as four bytes of memory. -/
def pointerBytes (p : UInt32) : List UInt8 :=
  [UInt8.ofNat p.toNat, UInt8.ofNat (p.toNat / 2 ^ 8), UInt8.ofNat (p.toNat / 2 ^ 16),
    UInt8.ofNat (p.toNat / 2 ^ 24)]

def pointerOf (bs : List UInt8) : UInt32 :=
  UInt32.ofNat (bs.foldr (fun b n => b.toNat + 2 ^ 8 * n) 0)

@[simp] theorem length_pointerBytes (p : UInt32) : (pointerBytes p).length = 4 := rfl

@[simp] theorem pointerOf_pointerBytes (p : UInt32) : pointerOf (pointerBytes p) = p := by
  have hp : p.toNat < 2 ^ 32 := p.toNat_lt
  apply UInt32.toNat_inj.mp
  simp only [pointerOf, pointerBytes, List.foldr_cons, List.foldr_nil, UInt8.toNat_ofNat',
    UInt32.toNat_ofNat']
  omega

/-! ## The driver and the memory around the module -/

/-- Where received bytes go: into `_private`, or to the caller. -/
inductive RtcTarget where
  | privateData (offset : Nat)
  | caller (address : UInt32)
  deriving DecidableEq, Repr

/-- What the I2C driver answers during one call of the module. -/
structure I2cAnswers where
  /-- `DRV_I2C_TransferStatusGet` in `i2c_taskCheckStatus`. -/
  transferStatus : DrvI2cBufferEvent
  /-- The bytes that the transfer received, and their number if the transfer failed. -/
  received : Nat → UInt8
  numReceived : Nat
  /-- `DRV_I2C_TransferStatusGet` in `i2c_checkReadyForTransmit`. -/
  readyStatus : DrvI2cBufferEvent
  /-- What `DRV_I2C_Transmit` or `DRV_I2C_TransmitThenReceive` returns. -/
  bufferHandle : UInt32

inductive RtcEvent where
  /-- The driver accepts a transfer of the bytes, and receives so many bytes then. -/
  | transfer (transmitted : List UInt8) (receive : Option (RtcTarget × Nat))
  /-- The driver stores the byte at the index of a receive buffer. -/
  | received (target : RtcTarget) (index : Nat) (byte : UInt8)
  /-- The module writes through a caller's pointer. -/
  | store (address : UInt32) (bytes : List UInt8)
  deriving DecidableEq, Repr

structure RtcView where
  rtc : RtcMcp7940n
  /-- The memory to which the callers' pointers point. -/
  memory : Memory
  /-- The receive buffer of the transfer on the bus. -/
  receive : Option (RtcTarget × Nat)

namespace RtcView

def setState (v : RtcView) (state : RtcState) : RtcView := { v with rtc := { v.rtc with state } }

def setNextTask (v : RtcView) (nextTask : RtcNextTask) : RtcView :=
  { v with rtc := { v.rtc with nextTask } }

def setPrivate (v : RtcView) (offset : Nat) (bytes : List UInt8) : RtcView :=
  { v with rtc := { v.rtc with privateData := v.rtc.privateData.write offset bytes } }

def getPrivate (v : RtcView) (offset len : Nat) : List UInt8 := v.rtc.privateData.read offset len

/-- A write to the receive buffer. -/
def put (v : RtcView) (target : RtcTarget) (bytes : List UInt8) : RtcView :=
  match target with
  | .privateData offset => v.setPrivate offset bytes
  | .caller address => { v with memory := v.memory.store address.toNat bytes }

/-- The driver is done with the transfer and has stored `count` bytes, if it was to receive any. -/
def deliver (v : RtcView) (answers : I2cAnswers) (count : Nat → Nat) : RtcView × List RtcEvent :=
  match v.receive with
  | none => (v, [])
  | some (target, n) =>
    ({ v.put target ((List.range (count n)).map answers.received) with receive := none },
      (List.range (count n)).map fun i => .received target i (answers.received i))

end RtcView

/-! ## BCD -/

def convertToBCD (decimal : UInt8) : UInt8 := (decimal / 10) <<< 4 ||| decimal % 10

def convertFromBCD (bcd : UInt8) : UInt8 := ((bcd &&& 0xf0) >>> 4) * 10 + (bcd &&& 0x0f)

/-! ## Low-level I2C communication -/

def i2cCheckReadyForTransmit (v : RtcView) (answers : I2cAnswers) : Bool :=
  v.rtc.i2cBufferHandle = 0 || answers.readyStatus = .complete || answers.readyStatus = .error

/-- The common body of `i2c_transmit` and `i2c_transmitThenReceive`. -/
def startTransfer (v : RtcView) (answers : I2cAnswers) (transmitted : List UInt8)
    (receive : Option (RtcTarget × Nat)) : Bool × RtcView × List RtcEvent :=
  if !i2cCheckReadyForTransmit v answers then
    (false, v.setState .error, [])
  else
    let v := { v with rtc := { v.rtc with i2cBufferHandle := answers.bufferHandle } }
    if answers.bufferHandle = 0 then
      (false, v.setState .error, [])
    else
      (true, { v.setState .i2cStausCheck with receive }, [.transfer transmitted receive])

/-- `i2c_transmit` of a buffer within `_private`. -/
def i2cTransmit (v : RtcView) (answers : I2cAnswers) (transmitBuffer numBytes : Nat) :
    Bool × RtcView × List RtcEvent :=
  startTransfer v answers (v.getPrivate transmitBuffer numBytes) none

def i2cTransmitThenReceive (v : RtcView) (answers : I2cAnswers)
    (transmitBuffer numBytesTransmit : Nat) (receiveBuffer : RtcTarget) (numBytesReceive : Nat) :
    Bool × RtcView × List RtcEvent :=
  startTransfer v answers (v.getPrivate transmitBuffer numBytesTransmit)
    (some (receiveBuffer, numBytesReceive))

def i2cTransmitReadRegister (v : RtcView) (answers : I2cAnswers) (transmitBuffer : Nat)
    (receiveBuffer : RtcTarget) (numBytesReceive : Nat) : Bool × RtcView × List RtcEvent :=
  i2cTransmitThenReceive v answers transmitBuffer 1 receiveBuffer numBytesReceive

def i2cTransmitUpdateSingleRegister (v : RtcView) (answers : I2cAnswers) (transmitBuffer : Nat) :
    Bool × RtcView × List RtcEvent :=
  i2cTransmit v answers transmitBuffer 2

/-! ## The follow-ups -/

/-- The common body of `task_oscillator_enableOrDisable` and `task_battery_enableOrDisable`. -/
def taskEnableOrDisable (v : RtcView) (answers : I2cAnswers) (register flag : UInt8)
    (enable : Bool) : RtcView × List RtcEvent :=
  let value := (v.getPrivate 0 1).getD 0 0
  let value := if enable then value ||| flag else value &&& ~~~flag
  let (_, v, events) := i2cTransmitUpdateSingleRegister (v.setPrivate 1 [register, value]) answers 1
  (v.setNextTask .none, events)

def taskOscillatorEnableOrDisable (v : RtcView) (answers : I2cAnswers) :
    RtcView × List RtcEvent :=
  taskEnableOrDisable v answers regAddrSeconds flagStartOscillator
    (v.rtc.nextTask = .oscillatorUpdateEnable)

def taskBatteryEnableOrDisable (v : RtcView) (answers : I2cAnswers) : RtcView × List RtcEvent :=
  taskEnableOrDisable v answers regAddrDayOfWeek flagBatteryEnable
    (v.rtc.nextTask = .batteryUpdateEnable)

/-- The common body of `task_oscillator_postStatusReceive` and `task_battery_postStatusReceive`. -/
def taskPostStatusReceive (v : RtcView) (flag : UInt8) : RtcView × List RtcEvent :=
  let value := (v.getPrivate 0 1).getD 0 0
  let enabled : UInt8 := if value &&& flag ≠ 0 then 1 else 0
  let returnStatusPtr := pointerOf (v.getPrivate 4 4)
  ((v.put (.caller returnStatusPtr) [enabled]).setNextTask .none, [.store returnStatusPtr [enabled]])

def taskOscillatorPostStatusReceive (v : RtcView) : RtcView × List RtcEvent :=
  taskPostStatusReceive v flagStartOscillator

def taskBatteryPostStatusReceive (v : RtcView) : RtcView × List RtcEvent :=
  taskPostStatusReceive v flagBatteryEnable

/-- The bytes that `task_datetime_convertToBCDAndTransmit` makes of the old `reg[1]`.. and the new
date. -/
def dateTimeRegisters (reg : List UInt8) (t : RtcDateTime) : List UInt8 :=
  [(reg.getD 0 0 &&& ~~~0x7f) ||| convertToBCD t.seconds,
    (reg.getD 1 0 &&& ~~~0x7f) ||| convertToBCD t.minutes,
    (reg.getD 2 0 &&& ~~~0x3f) ||| convertToBCD t.hours,
    (reg.getD 3 0 &&& ~~~0x7) ||| convertToBCD t.dayOfWeek,
    (reg.getD 4 0 &&& ~~~0x3f) ||| convertToBCD t.day,
    (reg.getD 5 0 &&& ~~~0xf) ||| convertToBCD t.month,
    (reg.getD 6 0 &&& ~~~0xff) ||| convertToBCD t.year]

def taskDatetimeConvertToBCDAndTransmit (v : RtcView) (answers : I2cAnswers) :
    RtcView × List RtcEvent :=
  let dateTime := .ofBytes (v.getPrivate 8 RtcDateTime.size)
  let registers := dateTimeRegisters (v.getPrivate 1 RtcDateTime.size) dateTime
  let (_, v, events) :=
    i2cTransmit (v.setPrivate 0 (regAddrSeconds :: registers)) answers 0 (RtcDateTime.size + 1)
  (v.setNextTask .none, events)

/-- What `task_datetime_convertFromBCD` makes of the received registers. -/
def dateTimeOfRegisters (reg : RtcDateTime) : RtcDateTime where
  seconds := convertFromBCD (reg.seconds &&& 0x7f)
  minutes := convertFromBCD (reg.minutes &&& 0x7f)
  hours := convertFromBCD (reg.hours &&& 0x3f)
  dayOfWeek := convertFromBCD (reg.dayOfWeek &&& 0x7)
  day := convertFromBCD (reg.day &&& 0x3f)
  month := convertFromBCD (reg.month &&& 0xf)
  year := convertFromBCD (reg.year &&& 0xff)

def taskDatetimeConvertFromBCD (v : RtcView) : RtcView × List RtcEvent :=
  let dateTimePtr := pointerOf (v.getPrivate 0 4)
  let registers := v.memory.load dateTimePtr.toNat RtcDateTime.size
  let dateTime := (dateTimeOfRegisters (.ofBytes registers)).bytes
  (((v.put (.caller dateTimePtr) dateTime).setState .none).setNextTask .none,
    [.store dateTimePtr dateTime])

/-- The inner `switch` of `i2c_taskCheckStatus`. -/
def runNextTask (v : RtcView) (answers : I2cAnswers) : RtcView × List RtcEvent :=
  match v.rtc.nextTask with
  | .none => (v.setState .none, [])
  | .oscillatorUpdateEnable | .oscillatorUpdateDisable => taskOscillatorEnableOrDisable v answers
  | .oscillatorUpdateStatus => taskOscillatorPostStatusReceive v
  | .batteryUpdateEnable | .batteryUpdateDisable => taskBatteryEnableOrDisable v answers
  | .batteryUpdateStatus => taskBatteryPostStatusReceive (v.setNextTask .none)
  | .dateTimeConvertBcd => taskDatetimeConvertFromBCD v
  | .dateTimeUpdateAndTransmit => taskDatetimeConvertToBCDAndTransmit v answers

def i2cTaskCheckStatus (v : RtcView) (answers : I2cAnswers) : RtcView × List RtcEvent :=
  match answers.transferStatus with
  | .complete =>
    let (v, received) := v.deliver answers id
    let (v, events) := runNextTask v answers
    (v, received ++ events)
  | .error =>
    let (v, received) := v.deliver answers (min answers.numReceived)
    (v.setState .error, received)
  | .pending => (v, [])

/-! ## The public functions -/

/-- `RTC_MCP7940N_Initialize`; `opened`: `DRV_I2C_Open` returned a valid handle. -/
def rtcInitialize (v : RtcView) (opened : Bool) : Bool × RtcView :=
  let rtc : RtcMcp7940n := ⟨.none, .none, 0, Vector.replicate _ 0⟩
  if !opened then (false, { v with rtc := { rtc with state := .error } }) else (true, { v with rtc })

def rtcTasks (v : RtcView) (answers : I2cAnswers) : RtcView × List RtcEvent :=
  match v.rtc.state with
  | .none => (v, [])
  | .error => (v, [])
  | .i2cStausCheck => i2cTaskCheckStatus v answers

def rtcIsBusy (rtc : RtcMcp7940n) : Bool := !(rtc.state = .none || rtc.state = .error)

def rtcReadNumRegisters (v : RtcView) (answers : I2cAnswers) (registerStorage : RtcTarget)
    (numRegisters : Nat) : RtcView × List RtcEvent :=
  (i2cTransmitReadRegister (v.setPrivate 0 [regAddrSeconds]) answers 0 registerStorage
    numRegisters).2

def rtcWriteDateAndTime (v : RtcView) (answers : I2cAnswers) (dateTime : RtcDateTime) :
    RtcView × List RtcEvent :=
  rtcReadNumRegisters ((v.setNextTask .dateTimeUpdateAndTransmit).setPrivate 8 dateTime.bytes)
    answers (.privateData 1) RtcDateTime.size

def rtcReadDateAndTime (v : RtcView) (answers : I2cAnswers) (dateTime : UInt32) :
    RtcView × List RtcEvent :=
  let v := (v.setPrivate 4 [regAddrSeconds]).setNextTask .dateTimeConvertBcd
  (i2cTransmitReadRegister (v.setPrivate 0 (pointerBytes dateTime)) answers 4 (.caller dateTime)
    RtcDateTime.size).2

def rtcReadRegister (v : RtcView) (answers : I2cAnswers) (registerAddress : UInt8)
    (registerValue : UInt32) : RtcView × List RtcEvent :=
  (i2cTransmitReadRegister (v.setPrivate 0 [registerAddress]) answers 0 (.caller registerValue) 1).2

def rtcWriteRegister (v : RtcView) (answers : I2cAnswers) (registerAddress registerValue : UInt8) :
    RtcView × List RtcEvent :=
  (i2cTransmitUpdateSingleRegister (v.setPrivate 0 [registerAddress, registerValue]) answers 0).2

/-- `RTC_MCP7940N_WriteNumRegisters` of the `num_registers` bytes at `register_storage`. -/
def rtcWriteNumRegisters (v : RtcView) (answers : I2cAnswers) (registers : List UInt8) :
    RtcView × List RtcEvent :=
  (i2cTransmit ((v.setPrivate 0 [regAddrSeconds]).setPrivate 1 registers) answers 0
    (registers.length + 1)).2

/-- The common body of `RTC_MCP7940N_EnableOscillator` and `RTC_MCP7940N_EnableBatteryBackup`. -/
def startEnableOrDisable (v : RtcView) (answers : I2cAnswers) (register : UInt8)
    (nextTask : RtcNextTask) : RtcView × List RtcEvent :=
  (i2cTransmitReadRegister ((v.setPrivate 1 [register]).setNextTask nextTask) answers 1
    (.privateData 0) 1).2

def rtcEnableOscillator (v : RtcView) (answers : I2cAnswers) (enable : Bool) :
    RtcView × List RtcEvent :=
  startEnableOrDisable v answers regAddrSeconds
    (if enable then .oscillatorUpdateEnable else .oscillatorUpdateDisable)

def rtcEnableBatteryBackup (v : RtcView) (answers : I2cAnswers) (enable : Bool) :
    RtcView × List RtcEvent :=
  startEnableOrDisable v answers regAddrDayOfWeek
    (if enable then .batteryUpdateEnable else .batteryUpdateDisable)

/-- The common body of `RTC_MCP7940N_OscillatorStatus` and `RTC_MCP7940N_BatteryBackupStatus`. -/
def startStatus (v : RtcView) (answers : I2cAnswers) (register : UInt8) (nextTask : RtcNextTask)
    (enabled : UInt32) : RtcView × List RtcEvent :=
  let v := (v.setPrivate 8 [register]).setNextTask nextTask
  (i2cTransmitReadRegister (v.setPrivate 4 (pointerBytes enabled)) answers 8 (.privateData 0) 1).2

def rtcOscillatorStatus (v : RtcView) (answers : I2cAnswers) (enabled : UInt32) :
    RtcView × List RtcEvent :=
  startStatus v answers regAddrSeconds .oscillatorUpdateStatus enabled

def rtcBatteryBackupStatus (v : RtcView) (answers : I2cAnswers) (enabled : UInt32) :
    RtcView × List RtcEvent :=
  startStatus v answers regAddrDayOfWeek .batteryUpdateStatus enabled

end NixieTracker
