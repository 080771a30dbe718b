import NixieTracker.Rtc.FollowUp
import NixieTracker.Rtc.Staging

/-!
# The staging storage is used safely

An operation stages what it transmits, the driver holds it until it is done and stores what it
receives, and the follow-up in `next_task` reads what was staged and received, and may transmit again.

* `RtcOperation.allAccesses`: all accesses of an operation and of the follow-up, in order.
* `Underway`: where an operation stands; `underway_step`: what a poll leads to. The accesses are a
  first part of these (`accesses_isPrefix`), and the driver may let it come to all of them
  (`accesses_all`).
* `staging_safe_iff`: they are safe if and only if the operation does not write all registers, and
  does not overwrite what an earlier operation left over in `next_task` reads.
-/

namespace NixieTracker

open Lib Lib.Overlay

namespace RtcOperation

/-! ## All accesses of an operation -/

/-- The member from which the operation transmits. -/
def member : RtcOperation → RtcMember
  | .writeDateAndTime _ | .readNumRegisters _ _ => .registerNumRead
  | .readDateAndTime _ => .dateTimeRead
  | .readRegister _ _ => .registerRead
  | .writeRegister _ _ => .registerWrite
  | .writeNumRegisters _ => .registerNumWrite
  | .enableOscillator _ => .oscillatorBits
  | .oscillatorStatus _ => .oscillatorStatus
  | .enableBatteryBackup _ => .batteryBits
  | .batteryBackupStatus _ => .batteryStatus

/-- What the call stages. -/
def staged (op : RtcOperation) : List RtcAccess :=
  let buffer := op.member.transmitBuffer
  match op with
  | .writeDateAndTime _ => [⟨.write, pendingDateTime, 0, 7⟩, ⟨.write, buffer, 0, 1⟩]
  | .readDateAndTime _ => [⟨.write, buffer, 0, 1⟩, ⟨.write, dateTimePtr, 0, 4⟩]
  | .writeRegister _ _ => [⟨.write, buffer, 0, 2⟩]
  | .writeNumRegisters bs => [⟨.write, buffer, 0, 1⟩, ⟨.write, buffer, 1, bs.val.length⟩]
  | .oscillatorStatus _ | .batteryBackupStatus _ =>
    [⟨.write, buffer, 0, 1⟩, ⟨.write, op.member.returnStatusPtr, 0, 4⟩]
  | _ => [⟨.write, buffer, 0, 1⟩]

/-- The driver reads the transmit buffer. -/
def transmitAccess (op : RtcOperation) : RtcAccess :=
  ⟨.read, op.member.transmitBuffer, 0, op.transmitted.length⟩

/-- Where the transfer receives to, and how many bytes. -/
def stagedReceive (op : RtcOperation) : Option (StagedTarget × Nat) :=
  match op with
  | .writeDateAndTime _ => some (.field registerStorage 1, RtcDateTime.size)
  | .readDateAndTime p => some (.caller p, RtcDateTime.size)
  | .readRegister _ p => some (.caller p, 1)
  | .readNumRegisters p n => some (.caller p, n)
  | .writeRegister _ _ | .writeNumRegisters _ => none
  | .enableOscillator _ | .oscillatorStatus _ | .enableBatteryBackup _ | .batteryBackupStatus _ =>
    some (.field op.member.currentRegisterValue 0, 1)

/-- The first `count` of the bytes that the driver stores. -/
def stored (op : RtcOperation) (count : Nat → Nat) : List RtcAccess :=
  match op.stagedReceive with
  | none => []
  | some (target, n) => target.accesses (count n)

/-- What the follow-up reads and writes. -/
def followAccesses : RtcNextTask → List RtcAccess
  | .none => []
  | .oscillatorUpdateEnable | .oscillatorUpdateDisable =>
    [⟨.read, RtcMember.currentRegisterValue .oscillatorBits, 0, 1⟩,
      ⟨.write, RtcMember.transmitBuffer .oscillatorBits, 0, 2⟩]
  | .oscillatorUpdateStatus =>
    [⟨.read, RtcMember.currentRegisterValue .oscillatorStatus, 0, 1⟩,
      ⟨.read, RtcMember.returnStatusPtr .oscillatorStatus, 0, 4⟩]
  | .batteryUpdateEnable | .batteryUpdateDisable =>
    [⟨.read, RtcMember.currentRegisterValue .batteryBits, 0, 1⟩,
      ⟨.write, RtcMember.transmitBuffer .batteryBits, 0, 2⟩]
  | .batteryUpdateStatus =>
    [⟨.read, RtcMember.currentRegisterValue .batteryStatus, 0, 1⟩,
      ⟨.read, RtcMember.returnStatusPtr .batteryStatus, 0, 4⟩]
  | .dateTimeConvertBcd => [⟨.read, dateTimePtr, 0, 4⟩]
  | .dateTimeUpdateAndTransmit =>
    [⟨.read, pendingDateTime, 0, 7⟩, ⟨.read, registerStorage, 1, 7⟩, ⟨.write, registerStorage, 0, 8⟩]

/-- The driver reads the transmit buffer of the follow-up. -/
def followTransmit : RtcNextTask → Option RtcAccess
  | .oscillatorUpdateEnable | .oscillatorUpdateDisable =>
    some ⟨.read, RtcMember.transmitBuffer .oscillatorBits, 0, 2⟩
  | .batteryUpdateEnable | .batteryUpdateDisable =>
    some ⟨.read, RtcMember.transmitBuffer .batteryBits, 0, 2⟩
  | .dateTimeUpdateAndTransmit => some ⟨.read, registerStorage, 0, 8⟩
  | _ => none

/-- The accesses of the call and of the first transfer. -/
def firstAccesses (op : RtcOperation) : List RtcAccess :=
  op.staged ++ [op.transmitAccess] ++ op.stored id ++ [op.transmitAccess]

/-- All accesses of the operation with this follow-up. The driver reads a transmit buffer until the
transfer is done. -/
def allAccesses (op : RtcOperation) (t : RtcNextTask) : List RtcAccess :=
  op.firstAccesses ++ followAccesses t ++ (followTransmit t).toList ++ (followTransmit t).toList

/-- The follow-up when `next_task` is `t` before the operation. -/
def task (op : RtcOperation) (t : RtcNextTask) : RtcNextTask :=
  if op.nextTask = .none then t else op.nextTask

/-! ## The transfers -/

theorem transfer_cases (s : RtcStaged) (answers : I2cAnswers) (buffer : UnionField RtcMember)
    (numBytes : Nat) (receive : Option (StagedTarget × Nat)) :
    (Accepts s.view answers ∧ s.transfer answers buffer numBytes receive =
      ⟨s.view.onBus answers (receive.map fun r => (r.1.target, r.2)),
        some ⟨⟨.read, buffer, 0, numBytes⟩, receive⟩, s.accesses ++ [⟨.read, buffer, 0, numBytes⟩]⟩) ∨
    (¬ Accepts s.view answers ∧ ∃ handle, s.transfer answers buffer numBytes receive =
      { s with view := { s.view with
        rtc := { s.view.rtc with i2cBufferHandle := handle, state := .error } } }) := by
  unfold RtcStaged.transfer
  rcases startTransfer_cases s.view answers (s.view.getPrivate buffer.offset numBytes)
    (receive.map fun r => (r.1.target, r.2)) with ⟨hacc, heq⟩ | ⟨hacc, handle, heq⟩
  · rw [heq]
    exact .inl ⟨hacc, rfl⟩
  · rw [heq]
    exact .inr ⟨hacc, handle, rfl⟩

/-- The call stages, and starts the transfer. -/
theorem startStaged_eq (op : RtcOperation) (v : RtcView) (answers : I2cAnswers) :
    op.startStaged ⟨v, none, []⟩ answers =
      RtcStaged.transfer ⟨op.prepare v, none, op.staged⟩ answers op.member.transmitBuffer
        op.transmitted.length op.stagedReceive := by
  cases op <;> rfl

/-- The follow-up ends with `next_task` clear: its transfer is on the bus, or it has none or the
driver does not take it. -/
theorem runNextTaskStaged_cases {s : RtcStaged} (hbus : s.bus = none) (answers : I2cAnswers) :
    (runNextTaskStaged s answers).view.rtc.nextTask = .none ∧
      ((∃ a, followTransmit s.view.rtc.nextTask = some a ∧
          (runNextTaskStaged s answers).view.rtc.state = .i2cStausCheck ∧
          (runNextTaskStaged s answers).bus = some ⟨a, none⟩ ∧
          (runNextTaskStaged s answers).accesses =
            s.accesses ++ followAccesses s.view.rtc.nextTask ++ [a]) ∨
        ((followTransmit s.view.rtc.nextTask = none ∨ ∃ w, ¬ Accepts w answers) ∧
          (runNextTaskStaged s answers).bus = none ∧
          (runNextTaskStaged s answers).accesses =
            s.accesses ++ followAccesses s.view.rtc.nextTask)) := by
  have htransfer (s' : RtcStaged) (hbus' : s'.bus = none) (t : RtcNextTask)
      (buffer : UnionField RtcMember) (n : Nat) (ht : followTransmit t = some ⟨.read, buffer, 0, n⟩)
      (haccesses : s'.accesses = s.accesses ++ followAccesses t) :
      (((s'.transfer answers buffer n none).setNextTask .none).view.rtc.nextTask = .none) ∧
        ((∃ a, followTransmit t = some a ∧
            ((s'.transfer answers buffer n none).setNextTask .none).view.rtc.state = .i2cStausCheck ∧
            ((s'.transfer answers buffer n none).setNextTask .none).bus = some ⟨a, none⟩ ∧
            ((s'.transfer answers buffer n none).setNextTask .none).accesses =
              s.accesses ++ followAccesses t ++ [a]) ∨
          ((followTransmit t = none ∨ ∃ w, ¬ Accepts w answers) ∧
            ((s'.transfer answers buffer n none).setNextTask .none).bus = none ∧
            ((s'.transfer answers buffer n none).setNextTask .none).accesses =
              s.accesses ++ followAccesses t)) := by
    refine ⟨rfl, ?_⟩
    rcases transfer_cases s' answers buffer n none with ⟨-, heq⟩ | ⟨hacc, handle, heq⟩
    · rw [heq, ← haccesses]
      exact .inl ⟨_, ht, rfl, rfl, rfl⟩
    · rw [heq]
      exact .inr ⟨.inr ⟨_, hacc⟩, hbus', haccesses⟩
  unfold runNextTaskStaged
  cases hnext : s.view.rtc.nextTask with
  | none => exact ⟨hnext, .inr ⟨.inl rfl, hbus, (List.append_nil _).symm⟩⟩
  | oscillatorUpdateStatus | batteryUpdateStatus =>
    exact ⟨rfl, .inr ⟨.inl rfl, hbus, List.append_assoc ..⟩⟩
  | dateTimeConvertBcd => exact ⟨rfl, .inr ⟨.inl rfl, hbus, rfl⟩⟩
  | oscillatorUpdateEnable | oscillatorUpdateDisable | batteryUpdateEnable | batteryUpdateDisable =>
    refine htransfer _ ?_ _ _ 2 rfl ?_
    · exact hbus
    · exact List.append_assoc ..
  | dateTimeUpdateAndTransmit =>
    refine htransfer _ ?_ _ _ 8 rfl ?_
    · exact hbus
    · exact (List.append_assoc ..).trans (List.append_assoc ..)

/-- Without a follow-up nothing is used. -/
theorem runNextTaskStaged_none {s : RtcStaged} (hnext : s.view.rtc.nextTask = .none)
    (answers : I2cAnswers) :
    runNextTaskStaged s answers = { s with view := s.view.setState .none } := by
  unfold runNextTaskStaged
  rw [hnext]

/-! ## The run of an operation -/

/-- Where the operation with this follow-up stands. -/
inductive Underway (op : RtcOperation) (t : RtcNextTask) (s : RtcStaged) : Prop where
  /-- Its transfer is on the bus. -/
  | sending (state : s.view.rtc.state = .i2cStausCheck) (nextTask : s.view.rtc.nextTask = t)
      (bus : s.bus = some ⟨op.transmitAccess, op.stagedReceive⟩)
      (accesses : s.accesses = op.staged ++ [op.transmitAccess])
  /-- The transfer of the follow-up is on the bus. -/
  | following (a : RtcAccess) (transmit : followTransmit t = some a)
      (state : s.view.rtc.state = .i2cStausCheck) (nextTask : s.view.rtc.nextTask = .none)
      (bus : s.bus = some ⟨a, none⟩)
      (accesses : s.accesses = op.firstAccesses ++ followAccesses t ++ [a])
  /-- Nothing is left to be done. -/
  | finished (rests : s.view.rtc.state ≠ .i2cStausCheck ∨ s.view.rtc.nextTask = .none ∧ s.bus = none)
      (accesses : s.accesses <+: op.allAccesses t)

/-- The call is accepted, or the operation is over. -/
theorem start_underway (op : RtcOperation) (v : RtcView) (answers : I2cAnswers) :
    op.Underway (op.task v.rtc.nextTask) (op.startStaged ⟨v, none, []⟩ answers) := by
  rw [startStaged_eq]
  rcases transfer_cases ⟨op.prepare v, none, op.staged⟩ answers op.member.transmitBuffer
    op.transmitted.length op.stagedReceive with ⟨-, heq⟩ | ⟨-, handle, heq⟩
  · rw [heq]
    exact .sending rfl (op.prepare_nextTask v) rfl rfl
  · rw [heq]
    refine .finished (.inl (fun hs => by cases hs)) ?_
    unfold allAccesses firstAccesses
    simp only [List.append_assoc]
    exact List.prefix_append ..

section Step

variable {op : RtcOperation} {t : RtcNextTask} {s : RtcStaged}

/-- A complete transfer: its buffers are free, and the follow-up comes next. -/
theorem sending_complete (hbus : s.bus = some ⟨op.transmitAccess, op.stagedReceive⟩)
    (haccesses : s.accesses = op.staged ++ [op.transmitAccess]) (answers : I2cAnswers) :
    (s.deliver answers id).release.accesses = op.firstAccesses := by
  unfold RtcStaged.release RtcStaged.deliver firstAccesses stored
  rw [hbus, haccesses]
  rfl

theorem allAccesses_some {a : RtcAccess} (h : followTransmit t = some a) :
    op.allAccesses t = op.firstAccesses ++ followAccesses t ++ [a] ++ [a] := by
  unfold allAccesses
  rw [h]
  rfl

/-- A complete transfer of the follow-up. -/
theorem following_complete {a : RtcAccess} (htransmit : followTransmit t = some a)
    (hbus : s.bus = some ⟨a, none⟩)
    (haccesses : s.accesses = op.firstAccesses ++ followAccesses t ++ [a]) (answers : I2cAnswers) :
    (s.deliver answers id).release.accesses = op.allAccesses t := by
  unfold RtcStaged.release RtcStaged.deliver
  rw [hbus, haccesses, allAccesses_some htransmit]
  exact congrArg (· ++ _) (List.append_nil _)

/-- The first stored bytes. -/
theorem stored_isPrefix (op : RtcOperation) (k : Nat) : op.stored (min k) <+: op.stored id := by
  unfold stored
  cases op.stagedReceive with
  | none => exact List.prefix_refl _
  | some r =>
    obtain ⟨target, n⟩ := r
    cases target with
    | caller address => exact List.prefix_refl _
    | field p index =>
      have hn : min k n + (n - min k n) = n := by omega
      have hrange : List.range (min k n) <+: List.range n := by
        conv_rhs => rw [← hn, List.range_add]
        exact List.prefix_append ..
      exact hrange.map _

/-- What is left of the accesses of an operation. -/
theorem firstAccesses_isPrefix (op : RtcOperation) (t : RtcNextTask) :
    op.firstAccesses ++ followAccesses t <+: op.allAccesses t := by
  unfold allAccesses
  rw [List.append_assoc]
  exact List.prefix_append ..

/-- The accesses of an operation are a first part of all of them. -/
theorem Underway.isPrefix (h : op.Underway t s) : s.accesses <+: op.allAccesses t := by
  cases h with
  | sending _ _ _ haccesses =>
    rw [haccesses]
    unfold allAccesses firstAccesses
    simp only [List.append_assoc]
    exact (List.prefix_append_right_inj _).mpr (List.prefix_append ..)
  | following a htransmit _ _ _ haccesses =>
    rw [haccesses, allAccesses_some htransmit]
    exact List.prefix_append ..
  | finished _ hprefix => exact hprefix

/-- A poll. -/
theorem underway_step (h : op.Underway t s) (answers : I2cAnswers) :
    op.Underway t (rtcTasksStaged s answers) := by
  by_cases hs : s.view.rtc.state = .i2cStausCheck
  · simp only [rtcTasksStaged, hs, i2cTaskCheckStatusStaged]
    cases answers.transferStatus with
    | pending => exact h
    | error =>
      refine .finished (.inl (fun hs => by cases hs)) ?_
      show s.accesses ++ _ <+: _
      cases h with
      | sending _ _ hbus haccesses =>
        rw [hbus, haccesses]
        show op.staged ++ [op.transmitAccess] ++ op.stored (min answers.numReceived) <+: _
        refine List.IsPrefix.trans ?_ (firstAccesses_isPrefix op t)
        unfold firstAccesses
        rw [List.append_assoc (op.staged ++ _), List.append_assoc (op.staged ++ _)]
        refine (List.prefix_append_right_inj _).mpr ?_
        rw [List.append_assoc]
        exact (stored_isPrefix op answers.numReceived).trans (List.prefix_append ..)
      | following a htransmit _ _ hbus haccesses =>
        rw [hbus, haccesses, allAccesses_some htransmit]
        exact (List.prefix_append_right_inj _).mpr (List.nil_prefix ..)
      | finished hrests hprefix =>
        rw [(hrests.resolve_left (fun hne => hne hs)).2]
        show s.accesses ++ [] <+: _
        rwa [List.append_nil]
    | complete =>
      have htask : (s.deliver answers id).release.view.rtc.nextTask = s.view.rtc.nextTask :=
        Rtc.deliver_nextTask s.view answers id
      cases h with
      | sending _ hnext hbus haccesses =>
        obtain ⟨hnext', hcases⟩ :=
          runNextTaskStaged_cases (s := (s.deliver answers id).release) rfl answers
        rw [htask, hnext, sending_complete hbus haccesses] at hcases
        rcases hcases with ⟨a, htransmit, hstate, hbus', haccesses'⟩ | ⟨-, hbus', haccesses'⟩
        · exact .following a htransmit hstate hnext' hbus' haccesses'
        · refine .finished (.inr ⟨hnext', hbus'⟩) ?_
          rw [haccesses']
          exact firstAccesses_isPrefix op t
      | following a htransmit _ hnext hbus haccesses =>
        rw [runNextTaskStaged_none (htask.trans hnext)]
        refine .finished (.inl fun hstate => by cases hstate) ?_
        exact (following_complete htransmit hbus haccesses answers) ▸ List.prefix_refl _
      | finished hrests hprefix =>
        obtain ⟨hnext, hbus⟩ := hrests.resolve_left fun hne => hne hs
        rw [runNextTaskStaged_none (htask.trans hnext)]
        refine .finished (.inl fun hstate => by cases hstate) ?_
        show (s.deliver answers id).release.accesses <+: op.allAccesses t
        unfold RtcStaged.release RtcStaged.deliver
        rw [hbus]
        show s.accesses ++ [] ++ [] <+: op.allAccesses t
        rwa [List.append_nil, List.append_nil]
  · have hsame : rtcTasksStaged s answers = s := by
      unfold rtcTasksStaged
      cases hstate : s.view.rtc.state with
      | none | error => rfl
      | i2cStausCheck => exact absurd hstate hs
    rwa [hsame]

end Step

/-- Whatever the driver answers, the accesses are a first part of all accesses. -/
theorem accesses_isPrefix (op : RtcOperation) (v : RtcView) (answers : I2cAnswers)
    (polls : List I2cAnswers) :
    op.accesses v answers polls <+: op.allAccesses (op.task v.rtc.nextTask) := by
  have hrun (s : RtcStaged) (h : op.Underway (op.task v.rtc.nextTask) s) :
      op.Underway (op.task v.rtc.nextTask) (polls.foldl rtcTasksStaged s) := by
    induction polls generalizing s with
    | nil => exact h
    | cons poll polls ih => exact ih _ (underway_step h poll)
  exact (hrun _ (op.start_underway v answers)).isPrefix

/-- The driver takes every transfer, and completes it at once. -/
def promptAnswers : I2cAnswers := ⟨.complete, fun _ => 0, 0, .complete, 1⟩

theorem accepts_prompt (v : RtcView) : Accepts v promptAnswers := by
  refine ⟨?_, by decide⟩
  simp [i2cCheckReadyForTransmit, promptAnswers]

theorem rtcTasksStaged_prompt {s : RtcStaged} (hs : s.view.rtc.state = .i2cStausCheck) :
    rtcTasksStaged s promptAnswers =
      runNextTaskStaged (s.deliver promptAnswers id).release promptAnswers := by
  simp only [rtcTasksStaged, hs, i2cTaskCheckStatusStaged]
  rfl

/-- A driver that takes and completes all transfers lets the operation come to all its accesses. -/
theorem accesses_all (op : RtcOperation) (v : RtcView) :
    ∃ polls, op.accesses v promptAnswers polls = op.allAccesses (op.task v.rtc.nextTask) := by
  unfold accesses
  rw [startStaged_eq]
  rcases transfer_cases ⟨op.prepare v, none, op.staged⟩ promptAnswers op.member.transmitBuffer
    op.transmitted.length op.stagedReceive with ⟨-, heq⟩ | ⟨hacc, -⟩
  · rw [heq]
    generalize hs : RtcStaged.mk ((op.prepare v).onBus promptAnswers _) _ _ = s
    have hstate : s.view.rtc.state = .i2cStausCheck := by
      rw [← hs]
      rfl
    have hfirst : (s.deliver promptAnswers id).release.accesses = op.firstAccesses := by
      rw [← hs]
      exact sending_complete rfl rfl promptAnswers
    have htask : (s.deliver promptAnswers id).release.view.rtc.nextTask = op.task v.rtc.nextTask := by
      refine (Rtc.deliver_nextTask s.view promptAnswers id).trans ?_
      rw [← hs]
      exact op.prepare_nextTask v
    obtain ⟨hnext, hcases⟩ :=
      runNextTaskStaged_cases (s := (s.deliver promptAnswers id).release) rfl promptAnswers
    rw [htask, hfirst, ← rtcTasksStaged_prompt hstate] at hcases
    rw [← rtcTasksStaged_prompt hstate] at hnext
    rcases hcases with ⟨a, htransmit, hstate', hbus, haccesses⟩ | ⟨hnone, -, haccesses⟩
    · -- The follow-up has a transfer of its own.
      refine ⟨[promptAnswers, promptAnswers], ?_⟩
      rw [List.foldl_cons, List.foldl_cons, List.foldl_nil, rtcTasksStaged_prompt hstate',
        runNextTaskStaged_none ((Rtc.deliver_nextTask _ _ _).trans hnext)]
      exact following_complete htransmit hbus haccesses promptAnswers
    · refine ⟨[promptAnswers], haccesses.trans ?_⟩
      have hnone := hnone.resolve_right fun ⟨w, hw⟩ => hw (accepts_prompt w)
      unfold allAccesses
      rw [hnone]
      exact ((List.append_nil _).trans (List.append_nil _)).symm
  · exact absurd (accepts_prompt _) hacc

/-! ## When the accesses are safe -/

/-- All registers are written. -/
def WritesAll (op : RtcOperation) : Prop :=
  ∃ bs, op = .writeNumRegisters bs ∧ bs.val.length = rtcNumRegisters

/-- The operation has no follow-up, and overwrites what the one left over in `next_task` reads. The
date that waits to be written is out of reach of the address byte. -/
def ClobbersLeftover (op : RtcOperation) (t : RtcNextTask) : Prop :=
  op.nextTask = .none ∧ t ≠ .none ∧ (t = .dateTimeUpdateAndTransmit → 1 < op.transmitted.length)

/-- An operation with its own follow-up uses one member, but `RTC_MCP7940N_WriteDateAndTime`. -/
theorem own_inside {op : RtcOperation} (h : ¬ op.WritesAll) (hdate : ∀ t, op ≠ .writeDateAndTime t) :
    ∀ a ∈ op.allAccesses op.nextTask, a.field.member = op.member ∧ a.Inside := by
  cases op with
  | writeDateAndTime t => exact absurd rfl (hdate t)
  | writeNumRegisters bs =>
    have hlen : bs.val.length ≠ 31 := fun hall => h ⟨bs, rfl, hall⟩
    have hbound : bs.val.length ≤ 31 := bs.property
    have hsize : (RtcMember.transmitBuffer .registerNumWrite).size = 31 := by decide
    have hmember : (RtcMember.transmitBuffer .registerNumWrite).member = .registerNumWrite := by decide
    simp [allAccesses, firstAccesses, staged, transmitAccess, stored, stagedReceive, followAccesses,
      followTransmit, nextTask, member, transmitted, Access.Inside, hsize, hmember]
    omega
  | enableOscillator e | enableBatteryBackup e => cases e <;> decide
  | readDateAndTime | readRegister | writeRegister | readNumRegisters | oscillatorStatus
  | batteryBackupStatus =>
    simp only [allAccesses, firstAccesses, staged, transmitAccess, stored, stagedReceive,
      StagedTarget.accesses, followAccesses, followTransmit, nextTask, member, transmitted,
      List.length_cons, List.length_nil]
    decide

/-- The operation with its own follow-up. -/
theorem own_safe {op : RtcOperation} (h : ¬ op.WritesAll) : Safe (op.allAccesses op.nextTask) := by
  by_cases hdate : ∃ t, op = .writeDateAndTime t
  · obtain ⟨t, rfl⟩ := hdate
    have hzero : Safe (allAccesses (.writeDateAndTime ⟨0, 0, 0, 0, 0, 0, 0⟩)
        .dateTimeUpdateAndTransmit) := by decide +kernel
    exact hzero
  · exact safe_of_one (own_inside h fun t ht => hdate ⟨t, ht⟩)

/-- The members of the operations without a follow-up. -/
theorem member_register {op : RtcOperation} (h : op.nextTask = .none) :
    op.member ∈ [.registerRead, .registerWrite, .registerNumRead, .registerNumWrite] := by
  cases op with
  | readRegister | writeRegister | readNumRegisters | writeNumRegisters => simp [member]
  | enableOscillator e | enableBatteryBackup e => cases e <;> cases h
  | _ => cases h

/-- An operation without a follow-up leaves behind its address byte, and the byte after it if it
transmits more. -/
theorem lastWriter_first {op : RtcOperation} (h : op.nextTask = .none) {b : Nat} (hb : b ≤ 1)
    (hlen : b < op.transmitted.length) : lastWriter op.firstAccesses b = some op.member := by
  have hoffset : (RtcMember.transmitBuffer .registerNumWrite).offset = 0 := by decide
  have hmember : (RtcMember.transmitBuffer .registerNumWrite).member = .registerNumWrite := by decide
  cases op with
  | readRegister | readNumRegisters =>
    obtain rfl : b = 0 := Nat.lt_one_iff.mp hlen
    rfl
  | writeRegister =>
    obtain rfl | rfl : b = 0 ∨ b = 1 := by omega
    · rfl
    · rfl
  | writeNumRegisters bs =>
    have hlen : b < bs.val.length + 1 := hlen
    obtain rfl | rfl : b = 0 ∨ b = 1 := by omega
    · simp [lastWriter, firstAccesses, staged, transmitAccess, stored, stagedReceive, member,
        Access.Writes, Access.byte, hoffset, hmember]
    · have hpos : 1 < 1 + bs.val.length := by omega
      simp [lastWriter, firstAccesses, staged, transmitAccess, stored, stagedReceive, member,
        Access.Writes, Access.byte, hoffset, hmember, hpos]
  | enableOscillator e | enableBatteryBackup e => cases e <;> cases h
  | _ => cases h

/-- The date that waits to be written is out of reach of the address byte. -/
theorem waitingDate_safe {op : RtcOperation} (h : op.nextTask = .none)
    (hlen : op.transmitted.length ≤ 1) : Safe (op.allAccesses .dateTimeUpdateAndTransmit) := by
  cases op with
  | readRegister r p =>
    have hzero : Safe (allAccesses (.readRegister 0 0) .dateTimeUpdateAndTransmit) := by decide +kernel
    exact hzero
  | readNumRegisters p n =>
    have hzero : Safe (allAccesses (.readNumRegisters 0 0) .dateTimeUpdateAndTransmit) := by
      decide +kernel
    exact hzero
  | writeRegister => exact absurd hlen (by simp [transmitted])
  | writeNumRegisters bs =>
    obtain ⟨bs, hbs⟩ := bs
    obtain rfl : bs = [] := List.length_eq_zero_iff.mp (Nat.le_zero.mp (Nat.le_of_succ_le_succ hlen))
    have hzero : Safe (allAccesses (.writeNumRegisters ⟨[], Nat.zero_le _⟩)
        .dateTimeUpdateAndTransmit) := by decide +kernel
    exact hzero
  | enableOscillator e | enableBatteryBackup e => cases e <;> cases h
  | _ => cases h

/-- What the operation has written is read by the follow-up that was left over. -/
theorem clobbered_not_safe {op : RtcOperation} {t : RtcNextTask} (h : op.ClobbersLeftover t) :
    ¬ Safe (op.allAccesses t) := by
  obtain ⟨hnone, ht, hlen⟩ := h
  have hpos : 0 < op.transmitted.length := by
    cases op <;> exact Nat.succ_pos _
  have hmember (m : RtcMember)
      (hm : m ∉ [.registerRead, .registerWrite, .registerNumRead, .registerNumWrite]) :
      op.member ≠ m := fun heq => hm (heq ▸ member_register hnone)
  unfold allAccesses
  rw [List.append_assoc, List.append_assoc]
  have hzero := lastWriter_first hnone (Nat.zero_le 1) hpos
  cases t with
  | none => exact absurd rfl ht
  | dateTimeUpdateAndTransmit =>
    -- The registers that were fetched before; the date itself is kept.
    have hone := lastWriter_first hnone (Nat.le_refl 1) (hlen rfl)
    rw [← lastWriter_concat_read (a := ⟨.read, pendingDateTime, 0, 7⟩) rfl] at hone
    intro hsafe
    have hrest : Safe (op.firstAccesses ++ [⟨.read, pendingDateTime, 0, 7⟩] ++
        ⟨.read, registerStorage, 1, 7⟩ :: ([⟨.write, registerStorage, 0, 8⟩] ++
          ((followTransmit .dateTimeUpdateAndTransmit).toList ++
            (followTransmit .dateTimeUpdateAndTransmit).toList))) := by
      rw [List.append_assoc]
      exact hsafe
    exact not_safe_of_read rfl (Nat.succ_pos 6) (hmember .dateTimeWrite (by decide)) hone hrest
  | _ => exact not_safe_of_read rfl (Nat.succ_pos _) (hmember _ (by decide)) hzero

theorem safe_allAccesses_iff (op : RtcOperation) (t : RtcNextTask) :
    Safe (op.allAccesses (op.task t)) ↔ ¬ op.WritesAll ∧ ¬ op.ClobbersLeftover t := by
  by_cases hall : op.WritesAll
  · -- The last register lies behind the array.
    refine iff_of_false (fun hsafe => ?_) fun h => h.1 hall
    obtain ⟨bs, rfl, hlen⟩ := hall
    have hinside := hsafe.inside ⟨.write, RtcMember.transmitBuffer .registerNumWrite, 1, bs.val.length⟩
      (List.mem_cons_of_mem _ (List.mem_cons_self ..))
    unfold Access.Inside at hinside
    rw [hlen] at hinside
    exact absurd hinside (by decide)
  by_cases hown : op.nextTask = .none
  · have htask : op.task t = t := if_pos hown
    rw [htask]
    by_cases hclobbers : op.ClobbersLeftover t
    · exact iff_of_false (clobbered_not_safe hclobbers) fun h => h.2 hclobbers
    · refine iff_of_true ?_ ⟨hall, hclobbers⟩
      by_cases ht : t = .none
      · rw [ht, ← hown]
        exact own_safe hall
      · have hleft : t = .dateTimeUpdateAndTransmit ∧ op.transmitted.length ≤ 1 := by
          by_contra hnot
          refine hclobbers ⟨hown, ht, fun hdate => ?_⟩
          by_contra hlen
          exact hnot ⟨hdate, Nat.not_lt.mp hlen⟩
        rw [hleft.1]
        exact waitingDate_safe hown hleft.2
  · have htask : op.task t = op.nextTask := if_neg hown
    rw [htask]
    exact iff_of_true (own_safe hall) ⟨hall, fun h => hown h.1⟩

/-- **The staging storage.** Whatever the I2C driver answers, each access of an operation and of its
follow-up to the union stays in the array it names, and each byte is read through the member through
which it was last written; if and only if the operation does not write all registers, and does not
overwrite what a follow-up reads that an earlier operation left over in `next_task`. -/
theorem staging_safe_iff (op : RtcOperation) (v : RtcView) :
    (∀ answers polls, Safe (op.accesses v answers polls)) ↔
      ¬ op.WritesAll ∧ ¬ op.ClobbersLeftover v.rtc.nextTask := by
  rw [← safe_allAccesses_iff]
  constructor
  · intro h
    obtain ⟨polls, hpolls⟩ := op.accesses_all v
    rw [← hpolls]
    exact h promptAnswers polls
  · exact fun h answers polls => h.of_prefix (op.accesses_isPrefix v answers polls)

/-- All 31 registers are written: the last of them behind the transmit buffer of 31 bytes. -/
theorem staging_not_safe :
    ¬ Safe (accesses (.writeNumRegisters ⟨List.replicate 31 0, Nat.le_refl 31⟩)
      ⟨⟨.none, .none, 0, Vector.replicate _ 0⟩, fun _ => 0, none⟩ promptAnswers []) := by
  intro hsafe
  have hinside := hsafe.inside ⟨.write, RtcMember.transmitBuffer .registerNumWrite, 1, 31⟩
    (by decide +kernel)
  exact absurd hinside (by decide)

end RtcOperation

end NixieTracker
