import NixieTracker.Rtc.DateTime
import NixieTracker.Rtc.Reading

/-!
# The clock and its chip on the bus

A transfer that the driver has taken goes over the bus at a time of its own. Until then the chip knows
nothing of it, and a poll finds it pending.

* `Bus`: the chip and the driver's transfer.
* `RtcOperation.effect`, `RtcOperation.answer`: what an operation is for, on the chip's registers.
* `OnBus`: how far an operation has come. `onBus_start`, `OnBus.carry` and `OnBus.tasks` are the steps.
* `OnBus.registers_or`: the chip has the registers from before the operation or those from after it.
  `OnBus.ended`: once the module is not busy, the operation is done.
* `OnBus.polled`: it takes one transfer, or two.
-/

namespace NixieTracker

open Lib Rtc

/-- The driver's last transfer. -/
inductive BusTransfer where
  | none
  /-- The driver has taken it. -/
  | taken (transmitted : List UInt8)
  /-- It has been over the bus. -/
  | complete (received : Nat → UInt8)

structure Bus where
  chip : Mcp7940nChip
  transfer : BusTransfer

namespace Bus

/-- No transfer is under way. -/
def Free (b : Bus) : Prop := ∀ transmitted, b.transfer ≠ .taken transmitted

/-- What the driver answers. It has a buffer for a transfer if none is under way. -/
def answers (b : Bus) : I2cAnswers where
  transferStatus := match b.transfer with
    | .complete _ => .complete
    | _ => .pending
  received := match b.transfer with
    | .complete received => received
    | _ => fun _ => 0
  numReceived := 0
  readyStatus := match b.transfer with
    | .taken _ => .pending
    | _ => .complete
  bufferHandle := 1

/-- The driver takes the transfers of the module. -/
def observe (b : Bus) : RtcEvent → Bus
  | .transfer transmitted _ => { b with transfer := .taken transmitted }
  | _ => b

/-- The transfer that is under way goes over the bus. -/
def carry (b : Bus) : Bus :=
  match b.transfer with
  | .taken transmitted => ⟨b.chip.take transmitted, .complete (b.chip.take transmitted).sends⟩
  | _ => b

theorem carry_free {b : Bus} (h : b.Free) : b.carry = b := by
  unfold carry
  split
  · rename_i transmitted htaken
    exact absurd htaken (h transmitted)
  · rfl

theorem carry_taken {b : Bus} {transmitted : List UInt8} (h : b.transfer = .taken transmitted) :
    b.carry = ⟨b.chip.take transmitted, .complete (b.chip.take transmitted).sends⟩ := by
  unfold carry
  rw [h]

theorem answers_taken {b : Bus} {transmitted : List UInt8} (h : b.transfer = .taken transmitted) :
    b.answers.transferStatus = .pending := by
  simp only [answers, h]

theorem answers_complete {b : Bus} {received : Nat → UInt8} (h : b.transfer = .complete received) :
    b.answers.transferStatus = .complete ∧ b.answers.received = received := by
  simp only [answers, h, and_self]

theorem free_of_complete {b : Bus} {received : Nat → UInt8} (h : b.transfer = .complete received) :
    b.Free := by
  intro transmitted htaken
  rw [h] at htaken
  cases htaken

/-- A free driver takes a transfer. -/
theorem Free.accepts {b : Bus} (h : b.Free) (v : RtcView) : Accepts v b.answers := by
  refine ⟨?_, (by decide : (1 : UInt32) ≠ 0)⟩
  have hready : b.answers.readyStatus = .complete := by
    unfold answers
    cases htransfer : b.transfer with
    | taken transmitted => exact absurd htransfer (h transmitted)
    | none | complete => rfl
  simp [i2cCheckReadyForTransmit, hready]

theorem foldl_observe_quiet {b : Bus} {es : List RtcEvent}
    (h : ∀ transmitted receive, .transfer transmitted receive ∉ es) : es.foldl observe b = b := by
  induction es with
  | nil => rfl
  | cons e es ih =>
    have hone : b.observe e = b := by
      cases e with
      | transfer transmitted receive => exact absurd (List.mem_cons_self ..) (h transmitted receive)
      | received | store => rfl
    rw [List.foldl_cons, hone]
    exact ih fun transmitted receive hmem => h transmitted receive (List.mem_cons_of_mem _ hmem)

end Bus

/-! ## What an operation is for -/

namespace RtcOperation

/-- The registers that the operation leaves behind. -/
def effect (registers : Memory) : RtcOperation → Memory
  | .writeDateAndTime t => writtenRegisters registers t
  | .writeRegister r x => registers.store r.toNat [x]
  | .writeNumRegisters bs => registers.store 0 bs
  | .enableOscillator e => registers.store 0 [withFlag (registers 0) flagStartOscillator e]
  | .enableBatteryBackup e => registers.store 3 [withFlag (registers 3) flagBatteryEnable e]
  | .readDateAndTime _ | .readRegister _ _ | .readNumRegisters _ _ => registers
  | .oscillatorStatus _ | .batteryBackupStatus _ => registers

/-- The first register of the operation. -/
def register : RtcOperation → Nat
  | .readRegister r _ | .writeRegister r _ => r.toNat
  | .enableBatteryBackup _ | .batteryBackupStatus _ => 3
  | _ => 0

/-- What the operation reads. -/
def answer (registers : Memory) (op : RtcOperation) (i : Nat) : UInt8 := registers (op.register + i)

variable {op : RtcOperation} {registers : Memory}

/-- The chip after the transfer of the operation. -/
theorem take_transmitted (op : RtcOperation) (c : Mcp7940nChip) :
    (c.take op.transmitted).registers =
        (if op.nextTask = .none then op.effect c.registers else c.registers) ∧
      (op.receive ≠ none → (c.take op.transmitted).sends = op.answer c.registers) := by
  have hread (r : UInt8) : c.take [r] = ⟨c.registers, r.toNat⟩ := Board.take_address c r
  cases op with
  | writeRegister r x => exact ⟨rfl, fun h => absurd rfl h⟩
  | writeNumRegisters bs => exact ⟨rfl, fun h => absurd rfl h⟩
  | enableOscillator e | enableBatteryBackup e =>
    rw [show transmitted _ = [_] from rfl, hread]
    cases e with
    | true | false => exact ⟨rfl, fun _ => rfl⟩
  | writeDateAndTime | readDateAndTime | oscillatorStatus | batteryBackupStatus | readRegister
  | readNumRegisters =>
    rw [show transmitted _ = [_] from rfl, hread]
    exact ⟨rfl, fun _ => rfl⟩

/-! ## On the bus -/

/-- How far the operation has come that found these registers. -/
inductive OnBus (op : RtcOperation) (registers : Memory) (v : RtcView) (b : Bus) : Prop
  | asking (h : op.Waiting v) (hbus : b.transfer = .taken op.transmitted)
      (hregisters : b.chip.registers = registers)
  | answered (received : Nat → UInt8) (h : op.Waiting v) (hbus : b.transfer = .complete received)
      (hreceived : op.receive ≠ none → received = op.answer registers)
      (hregisters : b.chip.registers = if op.nextTask = .none then op.effect registers else registers)
  /-- The transfer of its follow-up is under way. -/
  | following (transmitted : List UInt8) (hstate : v.rtc.state = .i2cStausCheck)
      (hnext : v.rtc.nextTask = .none) (hrecv : v.receive = none)
      (hbus : b.transfer = .taken transmitted) (hregisters : b.chip.registers = registers)
      (heffect : (b.chip.take transmitted).registers = op.effect registers)
      (hstores : ∀ received, op.stores received = none)
  | finished (received : Nat → UInt8) (hnext : v.rtc.nextTask = .none) (hrecv : v.receive = none)
      (hbus : b.transfer = .complete received) (hregisters : b.chip.registers = op.effect registers)
      (hst : op.Stored (op.answer registers) v.memory)

/-- The operation is started while nothing is under way. -/
theorem onBus_start (op : RtcOperation) {v : RtcView} {b : Bus} (hnext : v.rtc.nextTask = .none)
    (hfree : b.Free) :
    op.OnBus b.chip.registers (op.start v b.answers).1
      ((op.start v b.answers).2.foldl Bus.observe b) := by
  rcases op.start_cases b.answers (fun _ => hnext) with ⟨-, hwait, hev⟩ | ⟨hacc, -⟩
  · rw [hev]
    exact .asking hwait rfl rfl
  · exact absurd (hfree.accepts v) hacc

section Steps

variable {v : RtcView} {b : Bus}

/-- The chip has the registers from before the operation, or those from after it. -/
theorem OnBus.registers_or (h : op.OnBus registers v b) :
    b.chip.registers = registers ∨ b.chip.registers = op.effect registers := by
  cases h with
  | asking h hbus hregisters => exact .inl hregisters
  | answered received h hbus hreceived hregisters =>
    rw [hregisters]
    split
    · exact .inr rfl
    · exact .inl rfl
  | following transmitted hstate hnext hrecv hbus hregisters heffect hstores => exact .inl hregisters
  | finished received hnext hrecv hbus hregisters hst => exact .inr hregisters

theorem OnBus.carry (h : op.OnBus registers v b) : op.OnBus registers v b.carry := by
  cases h with
  | asking h hbus hregisters =>
    rw [Bus.carry_taken hbus]
    obtain ⟨htake, hsends⟩ := op.take_transmitted b.chip
    rw [hregisters] at htake hsends
    exact .answered _ h rfl hsends htake
  | answered received h hbus hreceived hregisters =>
    rw [Bus.carry_free (Bus.free_of_complete hbus)]
    exact .answered received h hbus hreceived hregisters
  | following transmitted hstate hnext hrecv hbus hregisters heffect hstores =>
    rw [Bus.carry_taken hbus]
    refine .finished _ hnext hrecv rfl heffect fun p bytes hst => ?_
    rw [hstores] at hst
    cases hst
  | finished received hnext hrecv hbus hregisters hst =>
    rw [Bus.carry_free (Bus.free_of_complete hbus)]
    exact .finished received hnext hrecv hbus hregisters hst

/-- The module waits for the transfer of a follow-up. -/
theorem runNextTask_transfer {v : RtcView} {answers : I2cAnswers} {transmitted : List UInt8}
    {receive : Option (RtcTarget × Nat)}
    (h : .transfer transmitted receive ∈ (runNextTask v answers).2) :
    (runNextTask v answers).1.rtc.state = .i2cStausCheck := by
  have htransmit (w : RtcView) (offset len : Nat)
      (h : .transfer transmitted receive ∈ (i2cTransmit w answers offset len).2.2) :
      (i2cTransmit w answers offset len).2.1.rtc.state = .i2cStausCheck := by
    unfold i2cTransmit at h ⊢
    rcases startTransfer_cases w answers (w.getPrivate offset len) none with
      ⟨-, heq⟩ | ⟨-, handle, heq⟩ <;> rw [heq] at h ⊢
    · rfl
    · cases h
  unfold runNextTask at h ⊢
  cases hnext : v.rtc.nextTask with
  | none =>
    rw [hnext] at h
    cases h
  | dateTimeConvertBcd | oscillatorUpdateStatus | batteryUpdateStatus =>
    rw [hnext] at h
    rcases List.mem_cons.mp h with h | h <;> cases h
  | oscillatorUpdateEnable | oscillatorUpdateDisable | batteryUpdateEnable | batteryUpdateDisable =>
    rw [hnext] at h
    exact htransmit (v.setPrivate _ _) 1 2 h
  | dateTimeUpdateAndTransmit =>
    rw [hnext] at h
    exact htransmit (v.setPrivate _ _) 0 _ h

/-- What the follow-up of an operation does, with the registers as they were received. -/
theorem followUp_cases (op : RtcOperation) (received : Nat → UInt8) :
    (op.nextTask = .none ∧ op.followUp received = []) ∨
    (op.nextTask ≠ .none ∧ (∀ registers, op.effect registers = registers) ∧
      ∃ p bytes, op.followUp received = [.store p bytes]) ∨
    (op.nextTask ≠ .none ∧ (∀ r, op.stores r = none) ∧ op.receive ≠ none ∧
      ∃ transmitted, op.followUp received = [.transfer transmitted none] ∧
        ∀ c : Mcp7940nChip, received = op.answer c.registers →
          (c.take transmitted).registers = op.effect c.registers) := by
  cases op with
  | readRegister | writeRegister | readNumRegisters | writeNumRegisters => exact .inl ⟨rfl, rfl⟩
  | readDateAndTime | oscillatorStatus | batteryBackupStatus =>
    exact .inr (.inl ⟨by simp [nextTask], fun _ => rfl, _, _, rfl⟩)
  | writeDateAndTime t =>
    refine .inr (.inr ⟨by simp [nextTask], fun _ => rfl, Option.some_ne_none _, _, rfl, ?_⟩)
    rintro c rfl
    rfl
  | enableOscillator e | enableBatteryBackup e =>
    refine .inr (.inr ⟨by cases e <;> decide, fun _ => rfl, Option.some_ne_none _, _, rfl, ?_⟩)
    rintro c rfl
    rfl

theorem Waiting.reading (h : op.Waiting v) : op.Reading v where
  state := h.state
  receive := h.receive
  remembers := h.remembers
  own _ := h.nextTask
  leftover hnone := by rw [h.nextTask, hnone]; rfl

theorem Stored.answer {received : Nat → UInt8} {m : Memory} (h : op.Stored received m)
    (hreceived : op.receive ≠ none → received = op.answer registers) :
    op.Stored (op.answer registers) m := by
  by_cases hrecv : op.receive = none
  · intro p bytes hst
    cases op <;> first | cases hrecv; done | cases hst
  · rw [← hreceived hrecv]
    exact h

/-- The poll that finds the transfer of the operation complete. -/
theorem Waiting.followed {received : Nat → UInt8} (h : op.Waiting v)
    (hbus : b.transfer = .complete received)
    (hreceived : op.receive ≠ none → received = op.answer registers)
    (hregisters : b.chip.registers = if op.nextTask = .none then op.effect registers else registers) :
    op.OnBus registers (rtcTasks v b.answers).1
      ((rtcTasks v b.answers).2.foldl Bus.observe b) := by
  have hfree := Bus.free_of_complete hbus
  obtain ⟨hstatus, hans⟩ := Bus.answers_complete hbus
  obtain ⟨-, hst, hnext, hrecv⟩ := reading_complete h.reading hstatus
  obtain ⟨hserved, hreception⟩ := deliver_served h b.answers
  have hfollow := (runNextTask_followUp hserved b.answers).resolve_right
    fun hrefused => hrefused.2.elim fun w hacc => hacc (hfree.accepts w)
  rw [hans] at hst hfollow hreception
  have hquiet : (op.reception received).foldl Bus.observe b = b := by
    refine Bus.foldl_observe_quiet fun transmitted receive hmem => ?_
    unfold reception at hmem
    split at hmem
    · cases hmem
    · obtain ⟨i, -, hi⟩ := List.mem_map.mp hmem
      cases hi
  have hevents : (rtcTasks v b.answers).2.foldl Bus.observe b =
      (op.followUp received).foldl Bus.observe b := by
    rw [rtcTasks_complete h.state hstatus, hreception, hfollow, List.foldl_append, hquiet]
  rw [hevents]
  rcases op.followUp_cases received with ⟨hnone, hevents'⟩ | ⟨hown, heffect, p, bytes, hevents'⟩ |
    ⟨hown, hstores, hreads, transmitted, hevents', htake⟩
  · rw [hevents']
    rw [if_pos hnone] at hregisters
    exact .finished received hnext hrecv hbus hregisters (hst.answer hreceived)
  · rw [hevents']
    rw [if_neg hown, ← heffect registers] at hregisters
    exact .finished received hnext hrecv hbus hregisters (hst.answer hreceived)
  · rw [hevents']
    rw [if_neg hown] at hregisters
    have hmem : .transfer transmitted none ∈
        (runNextTask (v.deliver b.answers id).1 b.answers).2 := by
      rw [hfollow, hevents']
      exact List.mem_singleton_self _
    have hstate : (rtcTasks v b.answers).1.rtc.state = .i2cStausCheck := by
      rw [rtcTasks_complete h.state hstatus]
      exact runNextTask_transfer hmem
    refine .following transmitted hstate hnext hrecv rfl hregisters ?_ hstores
    have heffect := htake b.chip (by rw [hregisters]; exact hreceived hreads)
    rw [hregisters] at heffect
    exact heffect

theorem OnBus.tasks (h : op.OnBus registers v b) :
    op.OnBus registers (rtcTasks v b.answers).1
      ((rtcTasks v b.answers).2.foldl Bus.observe b) := by
  cases h with
  | asking h hbus hregisters =>
    rw [rtcTasks_pending (Bus.answers_taken hbus)]
    exact .asking h hbus hregisters
  | answered received h hbus hreceived hregisters => exact h.followed hbus hreceived hregisters
  | following transmitted hstate hnext hrecv hbus hregisters heffect hstores =>
    rw [rtcTasks_pending (Bus.answers_taken hbus)]
    exact .following transmitted hstate hnext hrecv hbus hregisters heffect hstores
  | finished received hnext hrecv hbus hregisters hst =>
    obtain ⟨hmemory, hnext', hrecv', hevents⟩ := rtcTasks_rested hnext hrecv b.answers
    rw [hevents]
    exact .finished received hnext' hrecv' hbus hregisters (hmemory ▸ hst)

/-- **Done.** Once the module is not busy, the chip has the registers of the operation, the caller has
what it asked for, and nothing is left over. -/
theorem OnBus.ended (h : op.OnBus registers v b) (hidle : rtcIsBusy v.rtc = false) :
    b.Free ∧ v.rtc.nextTask = .none ∧ v.receive = none ∧
      b.chip.registers = op.effect registers ∧ op.Stored (op.answer registers) v.memory := by
  have hbusy (hstate : v.rtc.state = .i2cStausCheck) : False := by
    rw [(rtcIsBusy_iff _).mpr hstate] at hidle
    cases hidle
  cases h with
  | asking h => exact (hbusy h.state).elim
  | answered received h => exact (hbusy h.state).elim
  | following transmitted hstate => exact (hbusy hstate).elim
  | finished received hnext hrecv hbus hregisters hst =>
    exact ⟨Bus.free_of_complete hbus, hnext, hrecv, hregisters, hst⟩

/-! ## In time -/

theorem OnBus.carry_complete (h : op.OnBus registers v b) :
    ∃ received, b.carry.transfer = .complete received := by
  cases h with
  | asking h hbus | following transmitted hstate hnext hrecv hbus =>
    rw [Bus.carry_taken hbus]
    exact ⟨_, rfl⟩
  | answered received h hbus | finished received hnext hrecv hbus =>
    rw [Bus.carry_free (Bus.free_of_complete hbus)]
    exact ⟨received, hbus⟩

/-- A poll once the transfer is over: a follow-up has begun, and without one the operation is done. -/
theorem OnBus.polled (h : op.OnBus registers v b) :
    (rtcTasks v b.carry.answers).1.rtc.nextTask = .none ∧
      (v.rtc.nextTask = .none → rtcIsBusy (rtcTasks v b.carry.answers).1.rtc = false) := by
  obtain ⟨received, hcomplete⟩ := h.carry_complete
  obtain ⟨hstatus, -⟩ := Bus.answers_complete hcomplete
  cases hbusy : rtcIsBusy v.rtc with
  | false =>
    rw [rtcTasks_idle hbusy]
    exact ⟨(h.ended hbusy).2.1, fun _ => hbusy⟩
  | true =>
    rw [rtcTasks_complete ((rtcIsBusy_iff _).mp hbusy) hstatus]
    refine ⟨(runNextTask_rests _ _ (deliver_receive v _ id)).1, fun hnone => ?_⟩
    have hnext : (v.deliver b.carry.answers id).1.rtc.nextTask = .none :=
      (deliver_nextTask v _ id).trans hnone
    simp only [runNextTask, hnext]
    rfl

end Steps

end RtcOperation

end NixieTracker
