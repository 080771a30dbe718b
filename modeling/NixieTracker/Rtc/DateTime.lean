import Mathlib.Data.List.Basic
import NixieTracker.Rtc.Operation

/-!
# Writing a date and reading it back

The clock with its chip. The chip is a register file behind an address: a transfer of a register
address and some bytes stores the bytes from that register on, and a read gives the registers from
the address on.

* `Board`: the module, the driver and the chip; each transfer completes after any number of pending
  polls.
* `write_run`, `read_run`: what the two sequences leave behind, from any state of the board.
* `date_round_trip_iff`: a date is written faithfully, whatever the registers held, if and only if
  its month is at most 9. The mask of the month has no room for the tens digit.
-/

namespace NixieTracker

open Lib

/-- The registers of the chip, and the address of the next one. -/
structure Mcp7940nChip where
  registers : Memory
  address : Nat

/-- The chip receives the bytes of a transfer. -/
def Mcp7940nChip.take (c : Mcp7940nChip) : List UInt8 → Mcp7940nChip
  | [] => c
  | address :: bytes =>
    ⟨c.registers.store address.toNat bytes, address.toNat + bytes.length⟩

/-- The chip takes part in the transfers only. -/
def Mcp7940nChip.observe (c : Mcp7940nChip) : RtcEvent → Mcp7940nChip
  | .transfer bytes _ => c.take bytes
  | _ => c

/-- The bytes that the chip sends, from the address of the last transfer on. -/
def Mcp7940nChip.sends (c : Mcp7940nChip) (i : Nat) : UInt8 := c.registers (c.address + i)

/-- The module on its board. -/
structure Board where
  view : RtcView
  chip : Mcp7940nChip

namespace Board

/-- The driver takes every transfer; a poll finds it complete or pending. -/
def answers (b : Board) (complete : Bool) : I2cAnswers where
  transferStatus := if complete then .complete else .pending
  received := b.chip.sends
  numReceived := 0
  readyStatus := .complete
  bufferHandle := 1

/-- The board after a call of the module. -/
def after (b : Board) (call : RtcView × List RtcEvent) : Board where
  view := call.1
  chip := call.2.foldl .observe b.chip

/-- A call of `RTC_MCP7940N_Tasks`. -/
def tasks (b : Board) (complete : Bool) : Board :=
  b.after (rtcTasks b.view (b.answers complete))

/-- A call of an operation. -/
def start (b : Board) (op : RtcOperation) : Board := b.after (op.start b.view (b.answers true))

/-- The board between operations: the inputs are the polls. -/
def machine : Machine Board Bool Unit where
  step b complete := (b.tasks complete, [])

/-- The number of polls that find the transfer complete. -/
def completions (polls : List Bool) : Nat := polls.countP id

end Board

/-! ## Fields of registers -/

/-- The bits of a register that belong to its date or time field. -/
def fieldMask : Nat → UInt8
  | 0 => 0x7f
  | 1 => 0x7f
  | 2 => 0x3f
  | 3 => 0x07
  | 4 => 0x3f
  | 5 => 0x1f
  | 6 => 0xff
  | _ => 0

/-- All bits outside the fields are as before, and all registers behind them. -/
def KeepsFlags (old new : Memory) : Prop :=
  ∀ r, new r &&& ~~~fieldMask r = old r &&& ~~~fieldMask r

-- The flags that the registers have besides the fields: the oscillator start, the 12 hour format,
-- the oscillator state and the battery enable, and the leap year.
example : 0x80 &&& fieldMask 0 = 0 ∧ 0x40 &&& fieldMask 2 = 0 ∧ 0x28 &&& fieldMask 3 = 0 ∧
    0x20 &&& fieldMask 5 = 0 := by decide

/-- The dates of the firmware; months count from 0. -/
structure RtcDateTime.InRange (t : RtcDateTime) : Prop where
  seconds : t.seconds ≤ 59
  minutes : t.minutes ≤ 59
  hours : t.hours ≤ 23
  dayOfWeek : t.dayOfWeek ≤ 6
  day : t.day ≤ 31
  month : t.month ≤ 11
  year : t.year ≤ 99

/-- A field that is written over is read back. -/
theorem and_field (old mask new : UInt8) : (old &&& ~~~mask ||| new) &&& mask = new &&& mask := by
  apply UInt8.toBitVec_inj.1
  ext i hi
  simp only [UInt8.toBitVec_and, UInt8.toBitVec_or, UInt8.toBitVec_not, BitVec.getElem_and,
    BitVec.getElem_or, BitVec.getElem_not]
  cases mask.toBitVec[i] <;> simp

/-- What is written within a field leaves the bits outside it alone. -/
theorem and_outside_field (old : UInt8) {mask field new : UInt8} (hm : mask &&& field = mask)
    (hnew : new &&& ~~~field = 0) :
    (old &&& ~~~mask ||| new) &&& ~~~field = old &&& ~~~field := by
  have hbit : ∀ i (hi : i < 8), (new.toBitVec[i] && !field.toBitVec[i]) = false := by
    intro i hi
    have h := congrArg (fun x : UInt8 => x.toBitVec[i]) hnew
    simpa using h
  rw [← hm]
  apply UInt8.toBitVec_inj.1
  ext i hi
  have h := hbit i hi
  simp only [UInt8.toBitVec_and, UInt8.toBitVec_or, UInt8.toBitVec_not, BitVec.getElem_and,
    BitVec.getElem_or, BitVec.getElem_not]
  cases hf : field.toBitVec[i] <;> simp_all

/-- Every value up to `max` fits into the field, in BCD. -/
def FitsField (max mask : UInt8) : Prop :=
  ∀ n : Fin (max.toNat + 1), convertToBCD (UInt8.ofNat n) &&& ~~~mask = 0

/-- Every value up to `max` is read back from the bits of the mask. -/
def ReadsBack (max mask : UInt8) : Prop :=
  ∀ n : Fin (max.toNat + 1), convertFromBCD (convertToBCD (UInt8.ofNat n) &&& mask) = UInt8.ofNat n

instance (max mask : UInt8) : Decidable (FitsField max mask) :=
  inferInstanceAs (Decidable (∀ _ : Fin _, _))

instance (max mask : UInt8) : Decidable (ReadsBack max mask) :=
  inferInstanceAs (Decidable (∀ _ : Fin _, _))

theorem FitsField.keeps {max mask field x : UInt8} (h : FitsField max field) (hx : x ≤ max)
    (old : UInt8) (hm : mask &&& field = mask) :
    (old &&& ~~~mask ||| convertToBCD x) &&& ~~~field = old &&& ~~~field := by
  have hx' : x.toNat < max.toNat + 1 := Nat.lt_succ_of_le hx
  have hfit := h ⟨x.toNat, hx'⟩
  rw [UInt8.ofNat_toNat] at hfit
  exact and_outside_field old hm hfit

theorem ReadsBack.field {max mask x : UInt8} (h : ReadsBack max mask) (hx : x ≤ max)
    (old : UInt8) : convertFromBCD ((old &&& ~~~mask ||| convertToBCD x) &&& mask) = x := by
  have hx' : x.toNat < max.toNat + 1 := Nat.lt_succ_of_le hx
  have hback := h ⟨x.toNat, hx'⟩
  rw [UInt8.ofNat_toNat] at hback
  rwa [and_field]

/-- The month is read back if it has a single digit. -/
theorem month_field_iff (old : UInt8) {x : UInt8} (hx : x ≤ 11) :
    convertFromBCD ((old &&& ~~~0xf ||| convertToBCD x) &&& 0xf) = x ↔ x ≤ 9 := by
  have hall : ∀ n : Fin 12, convertFromBCD (convertToBCD (UInt8.ofNat n) &&& 0xf) = UInt8.ofNat n ↔
      UInt8.ofNat n ≤ 9 := by decide +kernel
  have hx' : x.toNat < 12 := Nat.lt_succ_of_le hx
  have hmonth := hall ⟨x.toNat, hx'⟩
  rw [UInt8.ofNat_toNat] at hmonth
  rwa [and_field]

/-- The registers after a date has been written over them. -/
def writtenRegisters (old : Memory) (t : RtcDateTime) : Memory :=
  old.store 0 (dateTimeRegisters (old.load 0 7) t)

theorem writtenRegisters_keepsFlags (old : Memory) {t : RtcDateTime} (h : t.InRange) :
    KeepsFlags old (writtenRegisters old t) := by
  intro r
  match r with
  | 0 => exact (by decide +kernel : FitsField 59 0x7f).keeps h.seconds (old 0) (by decide)
  | 1 => exact (by decide +kernel : FitsField 59 0x7f).keeps h.minutes (old 1) (by decide)
  | 2 => exact (by decide +kernel : FitsField 23 0x3f).keeps h.hours (old 2) (by decide)
  | 3 => exact (by decide +kernel : FitsField 6 0x07).keeps h.dayOfWeek (old 3) (by decide)
  | 4 => exact (by decide +kernel : FitsField 31 0x3f).keeps h.day (old 4) (by decide)
  | 5 => exact (by decide +kernel : FitsField 11 0x1f).keeps h.month (old 5) (by decide)
  | 6 => exact (by decide +kernel : FitsField 99 0xff).keeps h.year (old 6) (by decide)
  | r + 7 =>
    have hlen : (dateTimeRegisters (old.load 0 7) t).length ≤ r + 7 := Nat.le_add_left 7 r
    simp [writtenRegisters, Memory.store, List.getElem?_eq_none hlen]

/-- The written registers give the date back if and only if its month has a single digit. -/
theorem dateTimeOfRegisters_written_iff (old : Memory) {t : RtcDateTime} (h : t.InRange) :
    dateTimeOfRegisters (.ofBytes ((writtenRegisters old t).load 0 7)) = t ↔ t.month ≤ 9 := by
  have hload : (writtenRegisters old t).load 0 7 = dateTimeRegisters (old.load 0 7) t :=
    old.load_store 0 (dateTimeRegisters (old.load 0 7) t)
  rw [hload, ← month_field_iff (old 5) h.month]
  refine ⟨fun heq => congrArg RtcDateTime.month heq, fun hmonth => ?_⟩
  have hseconds := (by decide +kernel : ReadsBack 59 0x7f).field h.seconds (old 0)
  have hminutes := (by decide +kernel : ReadsBack 59 0x7f).field h.minutes (old 1)
  have hhours := (by decide +kernel : ReadsBack 23 0x3f).field h.hours (old 2)
  have hdayOfWeek := (by decide +kernel : ReadsBack 6 0x07).field h.dayOfWeek (old 3)
  have hday := (by decide +kernel : ReadsBack 31 0x3f).field h.day (old 4)
  have hyear := (by decide +kernel : ReadsBack 99 0xff).field h.year (old 6)
  cases t
  exact (RtcDateTime.mk.injEq ..).mpr ⟨hseconds, hminutes, hhours, hdayOfWeek, hday, hmonth, hyear⟩

/-! ## The two sequences -/

namespace Board

theorem accepts_answers (b : Board) (complete : Bool) (v : RtcView) :
    Accepts v (b.answers complete) := by
  refine ⟨?_, (by decide : (1 : UInt32) ≠ 0)⟩
  simp [i2cCheckReadyForTransmit, answers]

theorem tasks_pending (b : Board) : b.tasks false = b := by
  rw [tasks, rtcTasks_pending (show (b.answers false).transferStatus = .pending from rfl)]
  rfl

theorem tasks_idle {b : Board} (h : rtcIsBusy b.view.rtc = false) (complete : Bool) :
    b.tasks complete = b := by
  rw [tasks, rtcTasks_idle h]
  rfl

/-- A run up to the next poll that finds the transfer complete. -/
theorem run_tasks (b : Board) {polls : List Bool} {n : Nat} (h : n + 1 ≤ completions polls) :
    ∃ later, machine.run b polls = machine.run (b.tasks true) later ∧ n ≤ completions later := by
  refine Machine.run_wait (fun complete hc => ?_) (fun complete hc => ?_) h
  · rw [show complete = false from hc]
    exact b.tasks_pending
  · rw [show complete = true from hc]
    rfl

/-- An operation that starts waits for its transfer. -/
theorem start_waiting (b : Board) (op : RtcOperation) (h : op.nextTask ≠ .none) :
    op.Waiting (b.start op).view ∧ (b.start op).chip = b.chip.take op.transmitted := by
  rcases op.start_cases (b.answers true) (fun hnone => absurd hnone h) with
    ⟨-, hwait, hev⟩ | ⟨hacc, -⟩
  · exact ⟨hwait, congrArg (List.foldl Mcp7940nChip.observe b.chip) hev⟩
  · exact absurd (b.accepts_answers true b.view) hacc

theorem observe_reception (op : RtcOperation) (received : Nat → UInt8) (c : Mcp7940nChip) :
    (op.reception received).foldl .observe c = c := by
  unfold RtcOperation.reception
  split
  · rfl
  · rw [List.foldl_map]
    exact List.foldl_fixed' (fun _ => rfl) _

/-- The poll that finds the operation's transfer complete runs its follow-up. -/
theorem tasks_complete {op : RtcOperation} {b : Board} (h : op.Waiting b.view) :
    ∃ v, op.Served b.chip.sends v ∧ (b.tasks true).view = (runNextTask v (b.answers true)).1 ∧
      (b.tasks true).chip = (op.followUp b.chip.sends).foldl .observe b.chip := by
  obtain ⟨hserved, hreception⟩ := RtcOperation.deliver_served h (b.answers true)
  have hfollow := (RtcOperation.runNextTask_followUp hserved (b.answers true)).resolve_right
    fun hrefused => hrefused.2.elim fun v hacc => hacc (b.accepts_answers true v)
  refine ⟨_, hserved, ?_, ?_⟩
  · rw [tasks, rtcTasks_complete h.state rfl]
    rfl
  · rw [tasks, rtcTasks_complete h.state rfl, hreception, hfollow, after, List.foldl_append,
      observe_reception]
    rfl

/-- Without a follow-up the next completion ends the operation. -/
theorem tasks_last {b : Board} (hnext : b.view.rtc.nextTask = .none) (hrecv : b.view.receive = none) :
    rtcIsBusy (b.tasks true).view.rtc = false ∧ (b.tasks true).chip = b.chip := by
  cases hbusy : rtcIsBusy b.view.rtc with
  | false =>
    rw [tasks_idle hbusy]
    exact ⟨hbusy, rfl⟩
  | true =>
    rw [tasks, rtcTasks_complete ((rtcIsBusy_iff _).mp hbusy) rfl]
    simp only [RtcView.deliver, hrecv, runNextTask, hnext]
    exact ⟨rfl, rfl⟩

theorem take_address (c : Mcp7940nChip) (address : UInt8) :
    c.take [address] = ⟨c.registers, address.toNat⟩ := by
  have hstore : c.registers.store address.toNat [] = c.registers := by
    funext a
    simp [Memory.store]
  simp [Mcp7940nChip.take, hstore]

/-- `RTC_MCP7940N_WriteDateAndTime`, polled until its two transfers are complete. -/
theorem write_run (b : Board) (t : RtcDateTime) {polls : List Bool} (h : 2 ≤ completions polls) :
    rtcIsBusy (machine.run (b.start (.writeDateAndTime t)) polls).view.rtc = false ∧
      (machine.run (b.start (.writeDateAndTime t)) polls).chip.registers =
        writtenRegisters b.chip.registers t := by
  obtain ⟨hwait, hchip⟩ := b.start_waiting (.writeDateAndTime t) (by simp [RtcOperation.nextTask])
  generalize b.start (.writeDateAndTime t) = b₁ at hwait hchip ⊢
  -- The first transfer reads the old registers, the second one stores the new ones.
  obtain ⟨later, hrun, hlater⟩ := b₁.run_tasks h
  obtain ⟨v, hserved, hview, hchip'⟩ := tasks_complete hwait
  obtain ⟨hnext, hrecv⟩ := RtcOperation.runNextTask_rests v (b₁.answers true) hserved.receive
  rw [← hview] at hnext hrecv
  obtain ⟨last, hrun', -⟩ := (b₁.tasks true).run_tasks hlater
  obtain ⟨hidle, hchip''⟩ := tasks_last hnext hrecv
  rw [hrun, hrun', Machine.run_fixed (tasks_idle hidle), hchip'', hchip', hchip,
    show (RtcOperation.writeDateAndTime t).transmitted = [regAddrSeconds] from rfl, take_address]
  exact ⟨hidle, rfl⟩

theorem runNextTask_convert {p : UInt32} {received : Nat → UInt8} {v : RtcView}
    (h : (RtcOperation.readDateAndTime p).Served received v) (answers : I2cAnswers) :
    (runNextTask v answers).1.rtc.state = .none ∧
      (runNextTask v answers).1.memory.load p.toNat 7 =
        (dateTimeOfRegisters (.ofBytes (RtcOperation.firstBytes received 7))).bytes := by
  obtain ⟨hnext, -, hrem, hrecv⟩ := h
  have hrecv : v.memory.load p.toNat RtcDateTime.size = RtcOperation.firstBytes received 7 := hrecv
  have hrem : v.getPrivate 0 4 = pointerBytes p := hrem
  simp only [runNextTask, hnext, RtcOperation.nextTask, taskDatetimeConvertFromBCD, hrem,
    pointerOf_pointerBytes, hrecv]
  exact ⟨rfl, v.memory.load_store p.toNat _⟩

/-- `RTC_MCP7940N_ReadDateAndTime`, polled until its transfer is complete. -/
theorem read_run (b : Board) (p : UInt32) {polls : List Bool} (h : 1 ≤ completions polls) :
    rtcIsBusy (machine.run (b.start (.readDateAndTime p)) polls).view.rtc = false ∧
      (machine.run (b.start (.readDateAndTime p)) polls).view.memory.load p.toNat 7 =
        (dateTimeOfRegisters (.ofBytes (b.chip.registers.load 0 7))).bytes := by
  obtain ⟨hwait, hchip⟩ := b.start_waiting (.readDateAndTime p) (by simp [RtcOperation.nextTask])
  generalize b.start (.readDateAndTime p) = b₁ at hwait hchip ⊢
  obtain ⟨later, hrun, -⟩ := b₁.run_tasks h
  obtain ⟨v, hserved, hview, -⟩ := tasks_complete hwait
  obtain ⟨hstate, hload⟩ := runNextTask_convert hserved (b₁.answers true)
  rw [← hview] at hstate hload
  have hidle : rtcIsBusy (b₁.tasks true).view.rtc = false := by
    rw [rtcIsBusy, hstate]
    rfl
  rw [hrun, Machine.run_fixed (tasks_idle hidle), hload, hchip,
    show (RtcOperation.readDateAndTime p).transmitted = [regAddrSeconds] from rfl, take_address]
  exact ⟨hidle, rfl⟩

/-- The date is written without touching a flag, and read back from the memory at `p`, however long
the transfers take. -/
def Faithful (b : Board) (t : RtcDateTime) (p : UInt32) : Prop :=
  ∀ polls polls' : List Bool, 2 ≤ completions polls → 1 ≤ completions polls' →
    let written := machine.run (b.start (.writeDateAndTime t)) polls
    let read := machine.run (written.start (.readDateAndTime p)) polls'
    rtcIsBusy written.view.rtc = false ∧ rtcIsBusy read.view.rtc = false ∧
      KeepsFlags b.chip.registers written.chip.registers ∧
      RtcDateTime.ofBytes (read.view.memory.load p.toNat RtcDateTime.size) = t

/-- **Dates.** From any state of the board, a date is written faithfully and read back if and only if
its month, counted from 0, is at most 9. -/
theorem date_round_trip_iff (b : Board) {t : RtcDateTime} (h : t.InRange) (p : UInt32) :
    b.Faithful t p ↔ t.month ≤ 9 := by
  rw [← dateTimeOfRegisters_written_iff b.chip.registers h]
  have hread (polls polls' : List Bool) (hp : 2 ≤ completions polls) (hp' : 1 ≤ completions polls') :
      RtcDateTime.ofBytes ((machine.run ((machine.run (b.start (.writeDateAndTime t)) polls).start
        (.readDateAndTime p)) polls').view.memory.load p.toNat RtcDateTime.size) =
      dateTimeOfRegisters (.ofBytes ((writtenRegisters b.chip.registers t).load 0 7)) := by
    rw [(read_run _ p hp').2, (b.write_run t hp).2, RtcDateTime.ofBytes_bytes]
  constructor
  · intro hfaithful
    obtain ⟨-, -, -, hdate⟩ := hfaithful [true, true] [true] (by decide) (by decide)
    rwa [hread _ _ (by decide) (by decide)] at hdate
  · intro hback polls polls' hp hp'
    refine ⟨(b.write_run t hp).1, (read_run _ p hp').1, ?_, (hread _ _ hp hp').trans hback⟩
    rw [(b.write_run t hp).2]
    exact writtenRegisters_keepsFlags _ h

/-- The initialized clock on a chip with every bit set. -/
def allSet : Board where
  view := (rtcInitialize ⟨⟨.none, .none, 0, Vector.replicate _ 0⟩, fun _ => 0, none⟩ true).2
  chip := ⟨fun _ => 0xff, 0⟩

/-- A date in October is read back. -/
theorem october_round_trip : allSet.Faithful ⟨59, 59, 23, 6, 31, 9, 99⟩ 0x80001000 :=
  (date_round_trip_iff allSet (by constructor <;> decide) 0x80001000).mpr (by decide)

/-- The first of November is read back as the first of January. -/
theorem november_read_as_january :
    let written := machine.run (allSet.start (.writeDateAndTime ⟨0, 0, 12, 3, 1, 10, 17⟩)) [true, true]
    let read := machine.run (written.start (.readDateAndTime 0x80001000)) [true]
    RtcDateTime.ofBytes (read.view.memory.load 0x80001000 7) = ⟨0, 0, 12, 3, 1, 0, 17⟩ ∧
      ¬ allSet.Faithful ⟨0, 0, 12, 3, 1, 10, 17⟩ 0x80001000 := by
  intro written read
  have hread : RtcDateTime.ofBytes (read.view.memory.load 0x80001000 7) = ⟨0, 0, 12, 3, 1, 0, 17⟩ := by
    decide +kernel
  refine ⟨hread, fun hfaithful => ?_⟩
  obtain ⟨-, -, -, hdate⟩ := hfaithful [true, true] [true] (by decide) (by decide)
  have heq : (⟨0, 0, 12, 3, 1, 0, 17⟩ : RtcDateTime) = ⟨0, 0, 12, 3, 1, 10, 17⟩ := hread.symm.trans hdate
  cases heq

end Board

end NixieTracker
