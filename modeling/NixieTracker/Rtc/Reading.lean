import NixieTracker.Rtc.FollowUp

/-!
# Reading from the clock

Five operations read for their caller. What their transfer received ends up in the caller's memory, as
it came or as the follow-up converts it.

* `RtcOperation.stores`: where it ends up, and what it is then.
* `Reading`: the operation waits for its transfer. An operation without a follow-up may find one left
  over, but none that writes to a caller.
* `reading_complete`: once the transfer is complete, memory holds what it received.
-/

namespace NixieTracker

open Lib Rtc

/-- The follow-up writes through a caller's pointer. -/
def RtcNextTask.stores : RtcNextTask → Bool
  | .oscillatorUpdateStatus | .batteryUpdateStatus | .dateTimeConvertBcd => true
  | _ => false

namespace RtcOperation

/-- What the caller gets of the received bytes, and where. -/
def stores (received : Nat → UInt8) : RtcOperation → Option (UInt32 × List UInt8)
  | .readDateAndTime p =>
    some (p, (dateTimeOfRegisters (.ofBytes (firstBytes received 7))).bytes)
  | .readRegister _ p => some (p, [received 0])
  | .readNumRegisters p n => some (p, firstBytes received n)
  | .oscillatorStatus p => some (p, [flagByte (received 0) flagStartOscillator])
  | .batteryBackupStatus p => some (p, [flagByte (received 0) flagBatteryEnable])
  | _ => none

def Stored (received : Nat → UInt8) (memory : Memory) (op : RtcOperation) : Prop :=
  ∀ p bytes, op.stores received = some (p, bytes) → memory.load p.toNat bytes.length = bytes

/-- The operation waits for its transfer. -/
structure Reading (op : RtcOperation) (v : RtcView) : Prop where
  state : v.rtc.state = .i2cStausCheck
  receive : v.receive = op.receive
  remembers : op.Remembers v
  own : op.nextTask ≠ .none → v.rtc.nextTask = op.nextTask
  leftover : op.nextTask = .none → v.rtc.nextTask.stores = false

variable {op : RtcOperation} {v : RtcView} {answers : I2cAnswers} {received : Nat → UInt8}

/-! ## The start -/

/-- Accepted or not, the follow-up is set. -/
theorem start_nextTask (op : RtcOperation) (v : RtcView) (answers : I2cAnswers) :
    (op.start v answers).1.rtc.nextTask =
      if op.nextTask = .none then v.rtc.nextTask else op.nextTask := by
  rw [start_eq, ← prepare_nextTask]
  rcases startTransfer_cases (op.prepare v) answers op.transmitted op.receive with
    ⟨-, heq⟩ | ⟨-, handle, heq⟩
  · rw [heq]
    rfl
  · rw [heq]

/-- An operation without such a follow-up leaves none behind. -/
theorem start_stores (hop : op.nextTask.stores = false) (h : v.rtc.nextTask.stores = false)
    (answers : I2cAnswers) : (op.start v answers).1.rtc.nextTask.stores = false := by
  rw [start_nextTask]
  split
  · exact h
  · exact hop

/-! ## The polls -/

theorem deliver_reception (h : v.receive = op.receive) (answers : I2cAnswers) :
    (v.deliver answers id).2 = op.reception answers.received := by
  unfold RtcView.deliver reception
  rw [h]
  cases op.receive <;> rfl

theorem runNextTask_memory (h : v.rtc.nextTask.stores = false) (answers : I2cAnswers) :
    (runNextTask v answers).1.memory = v.memory := by
  have htransmit (w : RtcView) (offset len : Nat) :
      (i2cTransmit w answers offset len).2.1.memory = w.memory := by
    unfold i2cTransmit
    rcases startTransfer_cases w answers (w.getPrivate offset len) none with
      ⟨-, heq⟩ | ⟨-, handle, heq⟩
    · rw [heq]
      rfl
    · rw [heq]
  unfold runNextTask
  cases hnext : v.rtc.nextTask with
  | none => rfl
  | oscillatorUpdateEnable | oscillatorUpdateDisable | batteryUpdateEnable | batteryUpdateDisable =>
    exact htransmit (v.setPrivate _ _) 1 2
  | oscillatorUpdateStatus | batteryUpdateStatus | dateTimeConvertBcd =>
    rw [hnext] at h
    cases h
  | dateTimeUpdateAndTransmit => exact htransmit (v.setPrivate _ _) 0 _

theorem taskPostStatusReceive_memory {flag value : UInt8} {p : UInt32}
    (h : v.getPrivate 0 1 = [value]) (hp : v.getPrivate 4 4 = pointerBytes p) :
    (taskPostStatusReceive v flag).1.memory = v.memory.store p.toNat [flagByte value flag] := by
  simp only [taskPostStatusReceive, h, hp, pointerOf_pointerBytes]
  rfl

/-- The operation's own follow-up stores for the caller. -/
theorem runNextTask_stored (h : op.Served received v) (hown : op.nextTask ≠ .none)
    (answers : I2cAnswers) : op.Stored received (runNextTask v answers).1.memory := by
  obtain ⟨hnext, -, hrem, hrecv⟩ := h
  intro p bytes hst
  cases op with
  | readRegister | writeRegister | readNumRegisters | writeNumRegisters => exact absurd rfl hown
  | writeDateAndTime | enableOscillator | enableBatteryBackup => cases hst
  | readDateAndTime =>
    cases hst
    have hrecv : v.memory.load p.toNat RtcDateTime.size = firstBytes received 7 := hrecv
    have hrem : v.getPrivate 0 4 = pointerBytes p := hrem
    simp only [runNextTask, hnext, nextTask, taskDatetimeConvertFromBCD, hrem,
      pointerOf_pointerBytes, hrecv]
    exact v.memory.load_store p.toNat _
  | oscillatorStatus =>
    cases hst
    simp only [runNextTask, hnext, nextTask, taskOscillatorPostStatusReceive]
    rw [taskPostStatusReceive_memory hrecv hrem]
    exact v.memory.load_store p.toNat _
  | batteryBackupStatus =>
    cases hst
    simp only [runNextTask, hnext, nextTask, taskBatteryPostStatusReceive]
    rw [taskPostStatusReceive_memory (v := v.setNextTask .none) hrecv hrem]
    exact v.memory.load_store p.toNat _

/-- Without a follow-up of its own the driver stores for the caller. -/
theorem deliver_stored (h : v.receive = op.receive) (hnone : op.nextTask = .none)
    (answers : I2cAnswers) :
    op.Stored answers.received (v.deliver answers id).1.memory := by
  intro p bytes hst
  unfold RtcView.deliver
  rw [h]
  cases op with
  | writeRegister | writeNumRegisters => cases hst
  | readRegister | readNumRegisters =>
    cases hst
    exact v.memory.load_store p.toNat _
  | enableOscillator e | enableBatteryBackup e => cases e <;> cases hnone
  | writeDateAndTime | readDateAndTime | oscillatorStatus | batteryBackupStatus => cases hnone

/-- **A completed read** has stored for its caller what the driver received, and is over but for a
transfer of a follow-up that was left over. -/
theorem reading_complete (h : op.Reading v) (hs : answers.transferStatus = .complete) :
    (∃ rest, (rtcTasks v answers).2 = op.reception answers.received ++ rest) ∧
      op.Stored answers.received (rtcTasks v answers).1.memory ∧
      (rtcTasks v answers).1.rtc.nextTask = .none ∧ (rtcTasks v answers).1.receive = none := by
  rw [rtcTasks_complete h.state hs]
  refine ⟨⟨_, by rw [deliver_reception h.receive]⟩, ?_,
    runNextTask_rests _ answers (deliver_receive v answers id)⟩
  by_cases hnone : op.nextTask = .none
  · rw [runNextTask_memory (by rw [deliver_nextTask]; exact h.leftover hnone)]
    exact deliver_stored h.receive hnone answers
  · have hwaiting : op.Waiting v := ⟨h.state, h.own hnone, h.receive, h.remembers⟩
    exact runNextTask_stored (deliver_served hwaiting answers).1 hnone answers

/-- Nothing is received any more, and no follow-up comes. -/
theorem rtcTasks_rested (hnext : v.rtc.nextTask = .none) (hrecv : v.receive = none)
    (answers : I2cAnswers) :
    (rtcTasks v answers).1.memory = v.memory ∧ (rtcTasks v answers).1.rtc.nextTask = .none ∧
      (rtcTasks v answers).1.receive = none ∧ (rtcTasks v answers).2 = [] := by
  cases hbusy : rtcIsBusy v.rtc with
  | false =>
    rw [rtcTasks_idle hbusy]
    exact ⟨rfl, hnext, hrecv, rfl⟩
  | true =>
    have hstate := (rtcIsBusy_iff _).mp hbusy
    cases hs : answers.transferStatus with
    | pending =>
      rw [rtcTasks_pending hs]
      exact ⟨rfl, hnext, hrecv, rfl⟩
    | complete =>
      rw [rtcTasks_complete hstate hs, deliver_none hrecv]
      simp only [runNextTask, hnext]
      exact ⟨rfl, hnext, hrecv, rfl⟩
    | error =>
      rw [rtcTasks_error hstate hs, deliver_none hrecv]
      exact ⟨rfl, hnext, hrecv, rfl⟩

end RtcOperation

end NixieTracker
