import NixieTracker.Rtc.Driver

/-!
# The operations of the clock, and what each asks for

* `RtcOperation.start`: the call of a public operation.
* `RtcOperation.script`: all that the operation asks for, as events: one transfer, the bytes that it
  receives, and the follow-up that is made of them. This is the purpose of the operation and not
  taken from the module's state.
* `start_cases`, `runNextTask_followUp`: the two steps of an operation meet its script, if
  `next_task` is the operation's own.
-/

namespace NixieTracker

open Lib

/-- A public operation with its arguments; pointers are those of the caller. -/
inductive RtcOperation where
  | writeDateAndTime (dateTime : RtcDateTime)
  | readDateAndTime (dateTime : UInt32)
  | readRegister (registerAddress : UInt8) (registerValue : UInt32)
  | writeRegister (registerAddress registerValue : UInt8)
  | readNumRegisters (registerStorage : UInt32) (numRegisters : Fin (rtcNumRegisters + 1))
  | writeNumRegisters (registers : { bs : List UInt8 // bs.length ≤ rtcNumRegisters })
  | enableOscillator (enable : Bool)
  | oscillatorStatus (enabled : UInt32)
  | enableBatteryBackup (enable : Bool)
  | batteryBackupStatus (enabled : UInt32)
  deriving DecidableEq

namespace RtcOperation

def start (v : RtcView) (answers : I2cAnswers) : RtcOperation → RtcView × List RtcEvent
  | .writeDateAndTime t => rtcWriteDateAndTime v answers t
  | .readDateAndTime p => rtcReadDateAndTime v answers p
  | .readRegister r p => rtcReadRegister v answers r p
  | .writeRegister r x => rtcWriteRegister v answers r x
  | .readNumRegisters p n => rtcReadNumRegisters v answers (.caller p) n
  | .writeNumRegisters bs => rtcWriteNumRegisters v answers bs
  | .enableOscillator e => rtcEnableOscillator v answers e
  | .oscillatorStatus p => rtcOscillatorStatus v answers p
  | .enableBatteryBackup e => rtcEnableBatteryBackup v answers e
  | .batteryBackupStatus p => rtcBatteryBackupStatus v answers p

/-! ## What an operation asks for -/

/-- The follow-up of the operation. -/
def nextTask : RtcOperation → RtcNextTask
  | .writeDateAndTime _ => .dateTimeUpdateAndTransmit
  | .readDateAndTime _ => .dateTimeConvertBcd
  | .enableOscillator e => if e then .oscillatorUpdateEnable else .oscillatorUpdateDisable
  | .oscillatorStatus _ => .oscillatorUpdateStatus
  | .enableBatteryBackup e => if e then .batteryUpdateEnable else .batteryUpdateDisable
  | .batteryBackupStatus _ => .batteryUpdateStatus
  | .readRegister _ _ | .writeRegister _ _ | .readNumRegisters _ _ | .writeNumRegisters _ => .none

/-- The bytes of the operation's transfer. -/
def transmitted : RtcOperation → List UInt8
  | .writeDateAndTime _ | .readDateAndTime _ | .readNumRegisters _ _ => [regAddrSeconds]
  | .enableOscillator _ | .oscillatorStatus _ => [regAddrSeconds]
  | .enableBatteryBackup _ | .batteryBackupStatus _ => [regAddrDayOfWeek]
  | .readRegister r _ => [r]
  | .writeRegister r x => [r, x]
  | .writeNumRegisters bs => regAddrSeconds :: bs

/-- Where the transfer receives to, and how many bytes. -/
def receive : RtcOperation → Option (RtcTarget × Nat)
  | .writeDateAndTime _ => some (.privateData 1, RtcDateTime.size)
  | .readDateAndTime p => some (.caller p, RtcDateTime.size)
  | .readRegister _ p => some (.caller p, 1)
  | .readNumRegisters p n => some (.caller p, n)
  | .writeRegister _ _ | .writeNumRegisters _ => none
  | .enableOscillator _ | .oscillatorStatus _ => some (.privateData 0, 1)
  | .enableBatteryBackup _ | .batteryBackupStatus _ => some (.privateData 0, 1)

/-- The transfer that the operation starts. -/
def request (op : RtcOperation) : RtcEvent := .transfer op.transmitted op.receive

/-- The first `n` received bytes. -/
def firstBytes (received : Nat → UInt8) (n : Nat) : List UInt8 := (List.range n).map received

/-- The flag of a register, set or cleared. -/
def withFlag (value flag : UInt8) (enable : Bool) : UInt8 :=
  if enable then value ||| flag else value &&& ~~~flag

/-- A flag of a register, as a `bool`. -/
def flagByte (value flag : UInt8) : UInt8 := if value &&& flag ≠ 0 then 1 else 0

/-- What the operation does with the received bytes. -/
def followUp (received : Nat → UInt8) : RtcOperation → List RtcEvent
  | .writeDateAndTime t =>
    [.transfer (regAddrSeconds :: dateTimeRegisters (firstBytes received 7) t) none]
  | .readDateAndTime p =>
    [.store p (dateTimeOfRegisters (.ofBytes (firstBytes received 7))).bytes]
  | .enableOscillator e =>
    [.transfer [regAddrSeconds, withFlag (received 0) flagStartOscillator e] none]
  | .oscillatorStatus p => [.store p [flagByte (received 0) flagStartOscillator]]
  | .enableBatteryBackup e =>
    [.transfer [regAddrDayOfWeek, withFlag (received 0) flagBatteryEnable e] none]
  | .batteryBackupStatus p => [.store p [flagByte (received 0) flagBatteryEnable]]
  | .readRegister _ _ | .writeRegister _ _ | .readNumRegisters _ _ | .writeNumRegisters _ => []

/-- The bytes that the driver stores, one by one. -/
def reception (received : Nat → UInt8) (op : RtcOperation) : List RtcEvent :=
  match op.receive with
  | none => []
  | some (target, n) => (List.range n).map fun i => .received target i (received i)

/-- All that the operation asks for, in order. -/
def script (received : Nat → UInt8) (op : RtcOperation) : List RtcEvent :=
  op.request :: (op.reception received ++ op.followUp received)

/-- The events are those that the operation asked for, as far as it came. -/
def Asked (op : RtcOperation) (es : List RtcEvent) : Prop := ∃ received, es <+: op.script received

end RtcOperation

/-! ## Transfers -/

/-- The driver takes the transfer. -/
def Accepts (v : RtcView) (answers : I2cAnswers) : Prop :=
  i2cCheckReadyForTransmit v answers = true ∧ answers.bufferHandle ≠ 0

instance (v : RtcView) (answers : I2cAnswers) : Decidable (Accepts v answers) :=
  inferInstanceAs (Decidable (_ ∧ _))

/-- The view with the transfer on the bus. -/
def RtcView.onBus (v : RtcView) (answers : I2cAnswers) (receive : Option (RtcTarget × Nat)) :
    RtcView :=
  { v with
    rtc := { v.rtc with i2cBufferHandle := answers.bufferHandle, state := .i2cStausCheck }
    receive }

theorem startTransfer_cases (v : RtcView) (answers : I2cAnswers) (transmitted : List UInt8)
    (receive : Option (RtcTarget × Nat)) :
    (Accepts v answers ∧ startTransfer v answers transmitted receive =
      (true, v.onBus answers receive, [.transfer transmitted receive])) ∨
    (¬ Accepts v answers ∧ ∃ handle, startTransfer v answers transmitted receive =
      (false, { v with rtc := { v.rtc with i2cBufferHandle := handle, state := .error } }, [])) := by
  unfold startTransfer
  by_cases hready : i2cCheckReadyForTransmit v answers = true
  · by_cases hhandle : answers.bufferHandle = 0
    · refine .inr ⟨fun h => h.2 hhandle, answers.bufferHandle, ?_⟩
      simp [hready, hhandle, RtcView.setState]
    · refine .inl ⟨⟨hready, hhandle⟩, ?_⟩
      simp [hready, hhandle, RtcView.setState, RtcView.onBus]
  · refine .inr ⟨fun h => hready h.1, v.rtc.i2cBufferHandle, ?_⟩
    simp [hready, RtcView.setState]

namespace RtcView

variable (v : RtcView) {off len : Nat} {bytes : List UInt8}

theorem getPrivate_setPrivate (hl : bytes.length = len) (h : off + len ≤ 32) :
    (v.setPrivate off bytes).getPrivate off len = bytes := by
  subst hl
  exact Buf.read_write _ h

theorem getPrivate_setPrivate_of_disjoint {o : Nat}
    (h : o + len ≤ off ∨ off + bytes.length ≤ o) :
    (v.setPrivate off bytes).getPrivate o len = v.getPrivate o len :=
  Buf.read_write_of_disjoint _ _ h

@[simp] theorem getPrivate_setNextTask (nextTask : RtcNextTask) (o : Nat) :
    (v.setNextTask nextTask).getPrivate o len = v.getPrivate o len := rfl

end RtcView

theorem rtcIsBusy_iff (rtc : RtcMcp7940n) : rtcIsBusy rtc = true ↔ rtc.state = .i2cStausCheck := by
  unfold rtcIsBusy
  cases rtc.state <;> simp

section Tasks

variable {v : RtcView} {answers : I2cAnswers}

theorem rtcTasks_idle (h : rtcIsBusy v.rtc = false) (answers : I2cAnswers) :
    rtcTasks v answers = (v, []) := by
  unfold rtcTasks
  cases hs : v.rtc.state with
  | none | error => rfl
  | i2cStausCheck =>
    rw [(rtcIsBusy_iff _).mpr hs] at h
    cases h

theorem rtcTasks_complete (h : v.rtc.state = .i2cStausCheck)
    (hs : answers.transferStatus = .complete) :
    rtcTasks v answers = ((runNextTask (v.deliver answers id).1 answers).1,
      (v.deliver answers id).2 ++ (runNextTask (v.deliver answers id).1 answers).2) := by
  simp only [rtcTasks, h, i2cTaskCheckStatus, hs]

theorem rtcTasks_error (h : v.rtc.state = .i2cStausCheck) (hs : answers.transferStatus = .error) :
    rtcTasks v answers = ((v.deliver answers (min answers.numReceived)).1.setState .error,
      (v.deliver answers (min answers.numReceived)).2) := by
  simp only [rtcTasks, h, i2cTaskCheckStatus, hs]

theorem rtcTasks_pending (hs : answers.transferStatus = .pending) :
    rtcTasks v answers = (v, []) := by
  unfold rtcTasks
  cases v.rtc.state with
  | none | error => rfl
  | i2cStausCheck => simp only [i2cTaskCheckStatus, hs]

end Tasks

/-! ## The start of an operation -/

namespace RtcOperation

/-- The view in which the operation starts its transfer. -/
def prepare (v : RtcView) : RtcOperation → RtcView
  | .writeDateAndTime t =>
    ((v.setNextTask .dateTimeUpdateAndTransmit).setPrivate 8 t.bytes).setPrivate 0 [regAddrSeconds]
  | .readDateAndTime p =>
    ((v.setPrivate 4 [regAddrSeconds]).setNextTask .dateTimeConvertBcd).setPrivate 0 (pointerBytes p)
  | .readRegister r _ => v.setPrivate 0 [r]
  | .writeRegister r x => v.setPrivate 0 [r, x]
  | .readNumRegisters _ _ => v.setPrivate 0 [regAddrSeconds]
  | .writeNumRegisters bs => (v.setPrivate 0 [regAddrSeconds]).setPrivate 1 bs
  | .enableOscillator e => (v.setPrivate 1 [regAddrSeconds]).setNextTask (enableOscillator e).nextTask
  | .oscillatorStatus p =>
    ((v.setPrivate 8 [regAddrSeconds]).setNextTask .oscillatorUpdateStatus).setPrivate 4
      (pointerBytes p)
  | .enableBatteryBackup e =>
    (v.setPrivate 1 [regAddrDayOfWeek]).setNextTask (enableBatteryBackup e).nextTask
  | .batteryBackupStatus p =>
    ((v.setPrivate 8 [regAddrDayOfWeek]).setNextTask .batteryUpdateStatus).setPrivate 4
      (pointerBytes p)

/-- What of the arguments `_private` keeps for the follow-up. -/
def Remembers (v : RtcView) : RtcOperation → Prop
  | .writeDateAndTime t => v.getPrivate 8 7 = t.bytes
  | .readDateAndTime p => v.getPrivate 0 4 = pointerBytes p
  | .oscillatorStatus p | .batteryBackupStatus p => v.getPrivate 4 4 = pointerBytes p
  | _ => True

/-- Where in `_private` the operation puts what it transmits. -/
def transmitBuffer : RtcOperation → Nat
  | .readDateAndTime _ => 4
  | .enableOscillator _ | .enableBatteryBackup _ => 1
  | .oscillatorStatus _ | .batteryBackupStatus _ => 8
  | _ => 0

theorem prepare_transmitted (op : RtcOperation) (v : RtcView) :
    (op.prepare v).getPrivate op.transmitBuffer op.transmitted.length = op.transmitted := by
  cases op with
  | writeDateAndTime | readRegister | writeRegister | readNumRegisters =>
    exact RtcView.getPrivate_setPrivate _ rfl (by simp [transmitted])
  | enableOscillator | enableBatteryBackup =>
    exact RtcView.getPrivate_setPrivate v rfl (by simp [transmitted])
  | readDateAndTime | oscillatorStatus | batteryBackupStatus =>
    -- The pointer is stored apart from the transmit buffer.
    refine (RtcView.getPrivate_setPrivate_of_disjoint _ ?_).trans ?_
    · simp [transmitted, transmitBuffer]
    · exact RtcView.getPrivate_setPrivate v rfl (by simp [transmitted])
  | writeNumRegisters bs =>
    have hlen : bs.val.length ≤ 31 := bs.property
    refine (congrArg _ (Nat.add_comm bs.val.length 1)).trans ?_
    refine (Buf.take_write _ (by omega)).trans ?_
    exact congrArg (· ++ bs.val) (RtcView.getPrivate_setPrivate v rfl (by decide))

theorem start_eq (op : RtcOperation) (v : RtcView) (answers : I2cAnswers) :
    op.start v answers = (startTransfer (op.prepare v) answers op.transmitted op.receive).2 := by
  rw [← congrArg (fun bs => (startTransfer _ answers bs _).2) (op.prepare_transmitted v)]
  cases op <;> rfl

theorem prepare_remembers (op : RtcOperation) (v : RtcView) : op.Remembers (op.prepare v) := by
  cases op with
  | writeDateAndTime t =>
    refine (RtcView.getPrivate_setPrivate_of_disjoint _ (by decide)).trans ?_
    exact RtcView.getPrivate_setPrivate _ rfl (by decide)
  | readDateAndTime | oscillatorStatus | batteryBackupStatus =>
    exact RtcView.getPrivate_setPrivate _ rfl (by decide)
  | _ => trivial

@[simp] theorem prepare_receive (op : RtcOperation) (v : RtcView) :
    (op.prepare v).receive = v.receive := by cases op <;> rfl

theorem prepare_accepts (op : RtcOperation) (v : RtcView) (answers : I2cAnswers) :
    Accepts (op.prepare v) answers ↔ Accepts v answers := by cases op <;> rfl

/-- An operation with a follow-up leaves it in `next_task`, another one leaves `next_task` alone. -/
theorem prepare_nextTask (op : RtcOperation) (v : RtcView) :
    (op.prepare v).rtc.nextTask =
      if op.nextTask = .none then v.rtc.nextTask else op.nextTask := by
  cases op with
  | enableOscillator e | enableBatteryBackup e => cases e <;> rfl
  | _ => rfl

/-- The operation waits for its transfer, with its own follow-up in `next_task`. -/
structure Waiting (op : RtcOperation) (v : RtcView) : Prop where
  state : v.rtc.state = .i2cStausCheck
  nextTask : v.rtc.nextTask = op.nextTask
  receive : v.receive = op.receive
  remembers : op.Remembers v

/-- An operation that sets its follow-up, or starts when none is left over, waits for its own transfer
or is refused. -/
theorem start_cases (op : RtcOperation) {v : RtcView} (answers : I2cAnswers)
    (h : op.nextTask = .none → v.rtc.nextTask = .none) :
    (Accepts v answers ∧ op.Waiting (op.start v answers).1 ∧
      (op.start v answers).2 = [op.request]) ∨
    (¬ Accepts v answers ∧ (op.start v answers).1.rtc.state = .error ∧
      (op.start v answers).1.rtc.nextTask = op.nextTask ∧
      (op.start v answers).1.receive = v.receive ∧ (op.start v answers).2 = []) := by
  have hnext : (op.prepare v).rtc.nextTask = op.nextTask := by
    rw [prepare_nextTask]
    split
    · rename_i hnone
      rw [h hnone, hnone]
    · rfl
  rw [start_eq]
  rcases startTransfer_cases (op.prepare v) answers op.transmitted op.receive with
    ⟨hacc, heq⟩ | ⟨hacc, handle, heq⟩
  · rw [prepare_accepts] at hacc
    rw [heq]
    exact .inl ⟨hacc, ⟨rfl, hnext, rfl, op.prepare_remembers v⟩, rfl⟩
  · rw [prepare_accepts] at hacc
    rw [heq]
    exact .inr ⟨hacc, rfl, hnext, op.prepare_receive v, rfl⟩

/-! ## The follow-up -/

/-- The received bytes are where the follow-up reads them. -/
def HasReceived (received : Nat → UInt8) (v : RtcView) : RtcOperation → Prop
  | .writeDateAndTime _ => v.getPrivate 1 7 = firstBytes received 7
  | .readDateAndTime p => v.memory.load p.toNat 7 = firstBytes received 7
  | .enableOscillator _ | .oscillatorStatus _ => v.getPrivate 0 1 = [received 0]
  | .enableBatteryBackup _ | .batteryBackupStatus _ => v.getPrivate 0 1 = [received 0]
  | _ => True

/-- The operation's transfer is complete and its follow-up comes next. -/
structure Served (op : RtcOperation) (received : Nat → UInt8) (v : RtcView) : Prop where
  nextTask : v.rtc.nextTask = op.nextTask
  receive : v.receive = none
  remembers : op.Remembers v
  hasReceived : op.HasReceived received v

@[simp] theorem length_firstBytes (received : Nat → UInt8) (n : Nat) :
    (firstBytes received n).length = n := by simp [firstBytes]

theorem deliver_served {op : RtcOperation} {v : RtcView} (h : op.Waiting v)
    (answers : I2cAnswers) :
    op.Served answers.received (v.deliver answers id).1 ∧
      (v.deliver answers id).2 = op.reception answers.received := by
  obtain ⟨-, hnext, hrecv, hrem⟩ := h
  unfold RtcView.deliver reception
  rw [hrecv]
  cases op with
  | writeRegister | writeNumRegisters => exact ⟨⟨hnext, hrecv, trivial, trivial⟩, rfl⟩
  | readRegister | readNumRegisters => exact ⟨⟨hnext, rfl, trivial, trivial⟩, rfl⟩
  | writeDateAndTime t =>
    refine ⟨⟨hnext, rfl, ?_, ?_⟩, rfl⟩
    · exact (RtcView.getPrivate_setPrivate_of_disjoint v (.inr (by simp [RtcDateTime.size]))).trans hrem
    · exact RtcView.getPrivate_setPrivate v (by simp) (by omega)
  | readDateAndTime p =>
    refine ⟨⟨hnext, rfl, hrem, ?_⟩, rfl⟩
    have hload := v.memory.load_store p.toNat (firstBytes answers.received 7)
    rwa [length_firstBytes] at hload
  | enableOscillator | enableBatteryBackup =>
    exact ⟨⟨hnext, rfl, trivial, RtcView.getPrivate_setPrivate v (by simp) (by omega)⟩, rfl⟩
  | oscillatorStatus p | batteryBackupStatus p =>
    refine ⟨⟨hnext, rfl, ?_, RtcView.getPrivate_setPrivate v (by simp) (by omega)⟩, rfl⟩
    exact (RtcView.getPrivate_setPrivate_of_disjoint v (.inr (by simp))).trans hrem

/-- A transfer of the follow-up is accepted and is an event, or refused. -/
theorem followUp_transfer (v : RtcView) (answers : I2cAnswers) (offset len : Nat)
    {transmitted : List UInt8} (h : v.getPrivate offset len = transmitted) :
    (i2cTransmit v answers offset len).2.2 = [.transfer transmitted none] ∨
      ((i2cTransmit v answers offset len).2.2 = [] ∧ ∃ w, ¬ Accepts w answers) := by
  subst h
  unfold i2cTransmit
  rcases startTransfer_cases v answers (v.getPrivate offset len) none with
    ⟨-, heq⟩ | ⟨hacc, handle, heq⟩ <;> rw [heq]
  · exact .inl rfl
  · exact .inr ⟨rfl, v, hacc⟩

/-- The first transfer of the follow-up of a flag operation. -/
theorem taskEnableOrDisable_events {v : RtcView} (answers : I2cAnswers) (register flag : UInt8)
    (enable : Bool) {value : UInt8} (h : v.getPrivate 0 1 = [value]) :
    (taskEnableOrDisable v answers register flag enable).2 =
        [.transfer [register, withFlag value flag enable] none] ∨
      ((taskEnableOrDisable v answers register flag enable).2 = [] ∧ ∃ w, ¬ Accepts w answers) := by
  simp only [taskEnableOrDisable, i2cTransmitUpdateSingleRegister, h]
  exact followUp_transfer _ answers 1 2 (RtcView.getPrivate_setPrivate v rfl (by omega))

theorem taskPostStatusReceive_events {v : RtcView} {flag value : UInt8} {p : UInt32}
    (h : v.getPrivate 0 1 = [value]) (hp : v.getPrivate 4 4 = pointerBytes p) :
    (taskPostStatusReceive v flag).2 = [.store p [flagByte value flag]] := by
  simp only [taskPostStatusReceive, h, hp, pointerOf_pointerBytes]
  rfl

theorem runNextTask_oscillator {v : RtcView} {answers : I2cAnswers} {e : Bool}
    (h : v.rtc.nextTask = (enableOscillator e).nextTask) :
    runNextTask v answers = taskEnableOrDisable v answers regAddrSeconds flagStartOscillator e := by
  cases e <;> simp [nextTask] at h <;> simp [runNextTask, h, taskOscillatorEnableOrDisable]

theorem runNextTask_battery {v : RtcView} {answers : I2cAnswers} {e : Bool}
    (h : v.rtc.nextTask = (enableBatteryBackup e).nextTask) :
    runNextTask v answers = taskEnableOrDisable v answers regAddrDayOfWeek flagBatteryEnable e := by
  cases e <;> simp [nextTask] at h <;> simp [runNextTask, h, taskBatteryEnableOrDisable]

/-- **The follow-up is the operation's own**, unless the driver does not take its transfer. -/
theorem runNextTask_followUp {op : RtcOperation} {received : Nat → UInt8} {v : RtcView}
    (h : op.Served received v) (answers : I2cAnswers) :
    (runNextTask v answers).2 = op.followUp received ∨
      ((runNextTask v answers).2 = [] ∧ ∃ w, ¬ Accepts w answers) := by
  obtain ⟨hnext, -, hrem, hrecv⟩ := h
  cases op with
  | readRegister | writeRegister | readNumRegisters | writeNumRegisters =>
    exact .inl (by simp [runNextTask, hnext, nextTask, followUp])
  | writeDateAndTime t =>
    have hrecv : v.getPrivate 1 RtcDateTime.size = firstBytes received 7 := hrecv
    have hrem : v.getPrivate 8 RtcDateTime.size = t.bytes := hrem
    simp only [runNextTask, hnext, nextTask, taskDatetimeConvertToBCDAndTransmit, hrecv, hrem,
      RtcDateTime.ofBytes_bytes]
    exact followUp_transfer _ answers 0 8 (RtcView.getPrivate_setPrivate v rfl (by omega))
  | readDateAndTime p =>
    have hrecv : v.memory.load p.toNat RtcDateTime.size = firstBytes received 7 := hrecv
    have hrem : v.getPrivate 0 4 = pointerBytes p := hrem
    left
    simp only [runNextTask, hnext, nextTask, taskDatetimeConvertFromBCD, hrem,
      pointerOf_pointerBytes, hrecv, followUp]
  | enableOscillator e =>
    rw [runNextTask_oscillator hnext]
    exact taskEnableOrDisable_events answers _ _ e hrecv
  | enableBatteryBackup e =>
    rw [runNextTask_battery hnext]
    exact taskEnableOrDisable_events answers _ _ e hrecv
  | oscillatorStatus p =>
    simp only [runNextTask, hnext, nextTask]
    exact .inl (taskPostStatusReceive_events hrecv hrem)
  | batteryBackupStatus p =>
    simp only [runNextTask, hnext, nextTask]
    exact .inl (taskPostStatusReceive_events hrecv hrem)

/-- Whatever the follow-up was, none is left and nothing is to be received. -/
theorem runNextTask_rests (v : RtcView) (answers : I2cAnswers) (h : v.receive = none) :
    (runNextTask v answers).1.rtc.nextTask = .none ∧ (runNextTask v answers).1.receive = none := by
  have htransmit (w : RtcView) (hw : w.receive = none) (offset len : Nat) :
      (i2cTransmit w answers offset len).2.1.receive = none := by
    unfold i2cTransmit
    rcases startTransfer_cases w answers (w.getPrivate offset len) none with
      ⟨-, heq⟩ | ⟨-, handle, heq⟩ <;> rw [heq]
    · rfl
    · exact hw
  unfold runNextTask
  cases hnext : v.rtc.nextTask with
  | none => exact ⟨hnext, h⟩
  | oscillatorUpdateEnable | oscillatorUpdateDisable | batteryUpdateEnable | batteryUpdateDisable =>
    exact ⟨rfl, htransmit (v.setPrivate _ _) h 1 2⟩
  | oscillatorUpdateStatus | batteryUpdateStatus | dateTimeConvertBcd => exact ⟨rfl, h⟩
  | dateTimeUpdateAndTransmit => exact ⟨rfl, htransmit (v.setPrivate _ _) h 0 _⟩

end RtcOperation

end NixieTracker
