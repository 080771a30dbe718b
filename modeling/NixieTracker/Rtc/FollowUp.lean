import NixieTracker.Rtc.Operation

/-!
# No operation runs the follow-up of another

The clock as a machine: its inputs are calls of `RTC_MCP7940N_Tasks` and of the public operations,
which are only started while the clock is not busy.

* `Rested`: when the clock is not busy, no follow-up is left over and nothing is to be received.
* `FollowUpLost`: the steps that break it. The transfer of an operation with a follow-up is not taken
  by the driver, or fails, and `next_task` stays set.
* `Progress`: how far an operation has come with its own script; `progress_step`, `progress_run`.
* `own_follow_ups_iff`: a run has only follow-ups of its own if and only if none of its steps loses
  one.
-/

namespace NixieTracker

open Lib

/-- An input of the clock: a call of `RTC_MCP7940N_Tasks` or of an operation. -/
inductive RtcInput where
  | tasks (answers : I2cAnswers)
  | start (op : RtcOperation) (answers : I2cAnswers)

namespace Rtc

/-- A caller starts an operation only if `RTC_MCP7940N_IsBusy` is false. -/
def step (v : RtcView) : RtcInput → RtcView × List RtcEvent
  | .tasks answers => rtcTasks v answers
  | .start op answers => if rtcIsBusy v.rtc then (v, []) else op.start v answers

def machine : Machine RtcView RtcInput RtcEvent where
  step := step

/-- The step leaves the clock free, with a follow-up in `next_task`. -/
def FollowUpLost (v : RtcView) : RtcInput → Prop
  | .tasks answers =>
    v.rtc.state = .i2cStausCheck ∧ answers.transferStatus = .error ∧ v.rtc.nextTask ≠ .none
  | .start op answers => rtcIsBusy v.rtc = false ∧ op.nextTask ≠ .none ∧ ¬ Accepts v answers

instance (v : RtcView) (i : RtcInput) : Decidable (FollowUpLost v i) := by
  cases i <;> unfold FollowUpLost <;> infer_instance

/-- No operation of the run from `v` runs another one's follow-up. -/
structure OwnFollowUps (v : RtcView) (inputs : List RtcInput) : Prop where
  /-- In every state that is reached without an operation in progress, no follow-up is set. -/
  nextTask_none : ∀ k, rtcIsBusy (machine.run v (inputs.take k)).rtc = false →
    (machine.run v (inputs.take k)).rtc.nextTask = .none
  /-- What happens from the start of an operation on is what that operation asked for. -/
  asked : ∀ (before : List RtcInput) (op : RtcOperation) (answers : I2cAnswers)
    (polls : List I2cAnswers) (after : List RtcInput),
    inputs = before ++ (.start op answers :: polls.map .tasks) ++ after →
    rtcIsBusy (machine.run v before).rtc = false →
    op.Asked (machine.trace (machine.run v before) (.start op answers :: polls.map .tasks))

/-- Without an operation in progress there is no follow-up and nothing to receive. -/
def Rested (v : RtcView) : Prop :=
  rtcIsBusy v.rtc = false → v.rtc.nextTask = .none ∧ v.receive = none

@[simp] theorem deliver_receive (v : RtcView) (answers : I2cAnswers) (count : Nat → Nat) :
    (v.deliver answers count).1.receive = none := by
  unfold RtcView.deliver
  cases h : v.receive with
  | none => exact h
  | some r => rfl

@[simp] theorem deliver_nextTask (v : RtcView) (answers : I2cAnswers) (count : Nat → Nat) :
    (v.deliver answers count).1.rtc.nextTask = v.rtc.nextTask := by
  unfold RtcView.deliver
  split
  · rfl
  · rename_i target n _
    cases target <;> rfl

theorem deliver_none {v : RtcView} (h : v.receive = none) (answers : I2cAnswers)
    (count : Nat → Nat) : v.deliver answers count = (v, []) := by
  unfold RtcView.deliver
  rw [h]

/-! ## Every step but a loss leaves the clock rested -/

theorem rested_step {v : RtcView} (h : Rested v) {i : RtcInput} (hi : ¬ FollowUpLost v i) :
    Rested (step v i).1 := by
  cases i with
  | start op answers =>
    simp only [step]
    by_cases hbusy : rtcIsBusy v.rtc = true
    · rwa [if_pos hbusy]
    rw [if_neg hbusy]
    obtain ⟨hnext, hrecv⟩ := h (Bool.eq_false_iff.mpr hbusy)
    rcases op.start_cases answers (fun _ => hnext) with ⟨-, hwait, -⟩ | ⟨hacc, -, hnext', hrecv', -⟩
    · intro hidle
      rw [(rtcIsBusy_iff _).mpr hwait.state] at hidle
      cases hidle
    · refine fun _ => ⟨?_, hrecv'.trans hrecv⟩
      rw [hnext']
      by_contra hne
      exact hi ⟨Bool.eq_false_iff.mpr hbusy, hne, hacc⟩
  | tasks answers =>
    simp only [step]
    cases hbusy : rtcIsBusy v.rtc with
    | false => rwa [rtcTasks_idle hbusy]
    | true =>
      have hstate := (rtcIsBusy_iff _).mp hbusy
      cases hs : answers.transferStatus with
      | complete =>
        rw [rtcTasks_complete hstate hs]
        exact fun _ => RtcOperation.runNextTask_rests _ answers (deliver_receive v answers id)
      | error =>
        rw [rtcTasks_error hstate hs]
        refine fun _ => ⟨?_, deliver_receive v answers _⟩
        refine (deliver_nextTask v answers _).trans ?_
        by_contra hne
        exact hi ⟨hstate, hs, hne⟩
      | pending => rwa [rtcTasks_pending hs]

/-- After a loss the clock is free and a follow-up is set. -/
theorem lost_step {v : RtcView} (h : Rested v) {i : RtcInput} (hi : FollowUpLost v i) :
    rtcIsBusy (step v i).1.rtc = false ∧ (step v i).1.rtc.nextTask ≠ .none := by
  cases i with
  | start op answers =>
    obtain ⟨hidle, hne, hacc⟩ := hi
    simp only [step, hidle, Bool.false_eq_true, if_false]
    rcases op.start_cases answers (fun _ => (h hidle).1) with ⟨hacc', -⟩ | ⟨-, hstate, hnext, -⟩
    · exact absurd hacc' hacc
    · rw [hnext, rtcIsBusy, hstate]
      exact ⟨rfl, hne⟩
  | tasks answers =>
    obtain ⟨hstate, hs, hne⟩ := hi
    simp only [step, rtcTasks_error hstate hs]
    exact ⟨rfl, fun h0 => hne ((deliver_nextTask v answers _).symm.trans h0)⟩

theorem rested_run {v : RtcView} (h : Rested v) {inputs : List RtcInput}
    (hi : machine.Along (fun v i => ¬ FollowUpLost v i) v inputs) : Rested (machine.run v inputs) :=
  Machine.run_inv_along (I := Rested) (fun _ _ hi h => rested_step h hi) hi h

/-- No follow-up is left over in a run if and only if no step of it loses one. -/
theorem nextTask_none_iff {v : RtcView} (h : Rested v) (inputs : List RtcInput) :
    (∀ k, rtcIsBusy (machine.run v (inputs.take k)).rtc = false →
      (machine.run v (inputs.take k)).rtc.nextTask = .none) ↔
    machine.Along (fun v i => ¬ FollowUpLost v i) v inputs := by
  constructor
  · intro hnone
    induction inputs generalizing v with
    | nil => trivial
    | cons i inputs ih =>
      have hi : ¬ FollowUpLost v i := fun hlost =>
        (lost_step h hlost).2 (hnone 1 (lost_step h hlost).1)
      exact ⟨hi, ih (rested_step h hi) fun k => hnone (k + 1)⟩
  · intro hi k hidle
    rw [← List.take_append_drop k inputs, Machine.along_append] at hi
    exact (rested_run h hi.1 hidle).1

/-! ## An operation on its way -/

/-- How far the operation has come: it waits for its transfer, it has used the answer and left no
follow-up, or it has failed. `es`: the events since its start. -/
inductive Progress (op : RtcOperation) (v : RtcView) (es : List RtcEvent) : Prop where
  | waiting (h : op.Waiting v) (hes : es = [op.request])
  | answered (hnext : v.rtc.nextTask = .none) (hrecv : v.receive = none) (hes : op.Asked es)
  | failed (hstate : v.rtc.state = .error) (hes : op.Asked es)

theorem Progress.asked {op : RtcOperation} {v : RtcView} {es : List RtcEvent}
    (h : Progress op v es) : op.Asked es := by
  rcases h with ⟨-, rfl⟩ | ⟨-, -, hes⟩ | ⟨-, hes⟩
  · exact ⟨fun _ => 0, List.prefix_append [op.request] _⟩
  · exact hes
  · exact hes

/-- A failed transfer has stored some of the bytes. -/
theorem deliver_asked {op : RtcOperation} {v : RtcView} (h : op.Waiting v) (answers : I2cAnswers)
    (k : Nat) : op.Asked (op.request :: (v.deliver answers (min k)).2) := by
  refine ⟨answers.received, List.prefix_cons_inj _ |>.mpr ?_⟩
  refine List.IsPrefix.trans ?_ (List.prefix_append _ _)
  unfold RtcView.deliver RtcOperation.reception
  rw [h.receive]
  cases op.receive with
  | none => exact List.nil_prefix
  | some r =>
    refine List.IsPrefix.map _ ?_
    rw [← List.take_range]
    exact List.take_prefix ..

theorem progress_step {op : RtcOperation} {v : RtcView} {es : List RtcEvent}
    (h : Progress op v es) (answers : I2cAnswers) :
    Progress op (rtcTasks v answers).1 (es ++ (rtcTasks v answers).2) := by
  cases hbusy : rtcIsBusy v.rtc with
  | false => rwa [rtcTasks_idle hbusy, List.append_nil]
  | true =>
    have hstate := (rtcIsBusy_iff _).mp hbusy
    cases hs : answers.transferStatus with
    | pending => rwa [rtcTasks_pending hs, List.append_nil]
    | complete =>
      rw [rtcTasks_complete hstate hs]
      rcases h with ⟨hwait, rfl⟩ | ⟨hnext, hrecv, hes⟩ | ⟨herr, -⟩
      · -- The transfer is complete: the bytes arrive and the follow-up runs.
        obtain ⟨hserved, hreception⟩ := RtcOperation.deliver_served hwait answers
        obtain ⟨hnext', hrecv'⟩ := RtcOperation.runNextTask_rests _ answers hserved.receive
        have hfollow : (runNextTask (v.deliver answers id).1 answers).2 <+:
            op.followUp answers.received := by
          rcases RtcOperation.runNextTask_followUp hserved answers with hev | ⟨hev, -⟩
          · exact hev ▸ List.prefix_rfl
          · exact hev ▸ List.nil_prefix
        rw [hreception]
        refine .answered hnext' hrecv' ⟨answers.received, (List.prefix_cons_inj _).mpr ?_⟩
        exact (List.prefix_append_right_inj (op.reception answers.received)).mpr hfollow
      · -- Only the transfer of the follow-up can be on the bus.
        rw [deliver_none hrecv]
        simp only [runNextTask, hnext, List.append_nil]
        exact .answered hnext hrecv hes
      · rw [hstate] at herr
        cases herr
    | error =>
      rw [rtcTasks_error hstate hs]
      rcases h with ⟨hwait, rfl⟩ | ⟨hnext, hrecv, hes⟩ | ⟨herr, -⟩
      · exact .failed rfl (deliver_asked hwait answers _)
      · rw [deliver_none hrecv, List.append_nil]
        exact .answered hnext hrecv hes
      · rw [hstate] at herr
        cases herr

theorem progress_run {op : RtcOperation} {v : RtcView} {es : List RtcEvent}
    (h : Progress op v es) (polls : List I2cAnswers) :
    Progress op (machine.run v (polls.map .tasks)) (es ++ machine.trace v (polls.map .tasks)) := by
  induction polls generalizing v es with
  | nil => rwa [List.map_nil, Machine.trace_nil, List.append_nil]
  | cons answers polls ih =>
    rw [List.map_cons, Machine.trace_cons, ← List.append_assoc]
    exact ih (progress_step h answers)

theorem progress_start (op : RtcOperation) {v : RtcView} (h : Rested v)
    (hidle : rtcIsBusy v.rtc = false) (answers : I2cAnswers) :
    Progress op (step v (.start op answers)).1 (step v (.start op answers)).2 := by
  simp only [step, hidle, Bool.false_eq_true, if_false]
  rcases op.start_cases answers (fun _ => (h hidle).1) with ⟨-, hwait, hev⟩ | ⟨-, hstate, -, -, hev⟩
  · exact .waiting hwait hev
  · rw [hev]
    exact .failed hstate ⟨fun _ => 0, List.nil_prefix⟩

/-- The clock after `RTC_MCP7940N_Initialize`, with nothing on the bus. -/
def initialized (rtc : RtcMcp7940n) (memory : Memory) (opened : Bool) : RtcView :=
  (rtcInitialize ⟨rtc, memory, none⟩ opened).2

theorem initialized_rested (rtc : RtcMcp7940n) (memory : Memory) (opened : Bool) :
    Rested (initialized rtc memory opened) := by
  intro _
  cases opened <;> exact ⟨rfl, rfl⟩

/-- **Follow-ups.** A run of the clock from its initialization: no operation runs the follow-up of
another if and only if no step of the run loses a follow-up. -/
theorem own_follow_ups_iff (rtc : RtcMcp7940n) (memory : Memory) (opened : Bool)
    (inputs : List RtcInput) :
    OwnFollowUps (initialized rtc memory opened) inputs ↔
      machine.Along (fun v i => ¬ FollowUpLost v i) (initialized rtc memory opened) inputs := by
  have hrested := initialized_rested rtc memory opened
  refine ⟨fun h => (nextTask_none_iff hrested inputs).mp h.nextTask_none, fun h => ?_⟩
  refine ⟨(nextTask_none_iff hrested inputs).mpr h, ?_⟩
  rintro before op answers polls after rfl hidle
  rw [Machine.along_append, Machine.along_append] at h
  have hstart := progress_start op (rested_run hrested h.1.1) hidle answers
  exact (progress_run hstart polls).asked

/-- A driver that takes every transfer and then reports the status. -/
def reports (transferStatus : DrvI2cBufferEvent) : I2cAnswers :=
  ⟨transferStatus, fun _ => 0x12, 0, .complete, 1⟩

/-- `RTC_MCP7940N_EnableOscillator(true)` fails, then `RTC_MCP7940N_ReadRegister` of the month
register succeeds. -/
def readAfterFailure : List RtcInput :=
  [.start (.enableOscillator true) (reports .pending), .tasks (reports .error),
    .start (.readRegister 5 0x80001000) (reports .pending), .tasks (reports .complete)]

/-- The read ends with a write to the seconds register, of the address 5 with the oscillator flag. -/
theorem read_runs_leftover :
    let v := initialized ⟨.none, .none, 0, Vector.replicate _ 0⟩ (fun _ => 0) true
    machine.trace v readAfterFailure =
        [.transfer [0] (some (.privateData 0, 1)), .transfer [5] (some (.caller 0x80001000, 1)),
          .received (.caller 0x80001000) 0 0x12, .transfer [0, 0x85] none] ∧
      ¬ OwnFollowUps v readAfterFailure := by
  intro v
  refine ⟨by decide +kernel, fun h => ?_⟩
  obtain ⟨received, hpre⟩ := h.asked (readAfterFailure.take 2) (.readRegister 5 0x80001000)
    (reports .pending) [reports .complete] [] rfl (by decide +kernel)
  -- The read asks for a transfer and one byte, and three events have happened.
  have hle : 3 ≤ 2 := by
    refine Nat.le_trans (Nat.le_of_eq ?_) hpre.length_le
    decide +kernel
  omega

end Rtc

end NixieTracker
