import NixieTracker.App.Clock

/-!
# A command of the clock is done in time

A command is invoked in the first iteration of the loop, starts its first transfer there, and may have a
second one. If each transfer is over by the next iteration, three iterations are enough.

* `Waits`: inputs after which the same command is still asked for.
* `Left`: how many iterations there may be until it is done.
* `round_progress`: an iteration ends the command, or leaves one fewer.
* `commands_done_in_time`: the run.
-/

namespace NixieTracker

open Lib RtcOperation Scheduler

namespace Clock

open ClockCommand

/-- One iteration of the loop. The transfer that the last one has started is over. -/
def roundInputs (round : AppRound) : List Input := .carry :: round.calls.map .call

def loopInputs (rounds : List AppRound) : List Input := rounds.flatMap roundInputs

/-! ## Waiting -/

/-- After the inputs the same is asked for, on the same registers. -/
structure Waits (asked : List Typed) (r : Memory) (s : System) (inputs : List Input) : Prop where
  moments : observer.trace asked (machine.visits s inputs) = []
  pending : observer.run asked (machine.visits s inputs) = asked
  inv : Inv asked (machine.run s inputs) r

section Waits

variable {asked : List Typed} {r : Memory} {s : System} {i : Input} {is js : List Input}

theorem Waits.nil (h : Inv asked s r) : Waits asked r s [] := ⟨rfl, rfl, h⟩

theorem Waits.append (h : Waits asked r s is) (h' : Waits asked r (machine.run s is) js) :
    Waits asked r s (is ++ js) where
  moments := by
    rw [Machine.visits_append, Machine.trace_append, h.moments, h.pending, h'.moments]
    rfl
  pending := by rw [Machine.visits_append, Machine.run_append, h.pending, h'.pending]
  inv := by
    rw [Machine.run_append]
    exact h'.inv

/-- What is done in later inputs. -/
theorem Waits.trace_append (h : Waits asked r s is) (js : List Input) :
    observer.trace asked (machine.visits s (is ++ js)) =
      observer.trace asked (machine.visits (machine.run s is) js) := by
  rw [Machine.visits_append, Machine.trace_append, h.moments, h.pending, List.nil_append]

/-- A step that leaves the console with its task. -/
theorem Waits.single (h : Inv asked s r) (hi : Undisturbed s i) (htyped : typed (s, i) = [])
    (hcounted : counted i = []) (hs : (machine.step s i).1.app.command.task.state ≠ .none) :
    Waits asked r s [i] := by
  have hobserver : observer.step asked (s, i) = (asked, []) := by
    simp only [observer]
    rw [if_neg hs, htyped, hcounted, List.append_nil]
  have hinv := (atomic_step h hi).inv
  rw [hobserver] at hinv
  refine ⟨?_, ?_, hinv⟩
  · simp only [Machine.visits_cons, Machine.visits_nil, Machine.trace_cons, Machine.trace_nil,
      hobserver, List.append_nil]
  · simp only [Machine.visits_cons, Machine.visits_nil, Machine.run_cons, Machine.run_nil, hobserver]

/-- A call that has nothing to do with the clock, if the console has a task. -/
inductive Neutral : AppCall → Prop
  | line (line : ConsoleLine) : Neutral (.line line)
  | flashTasks (answers : FlashAnswers) : Neutral (.flashTasks answers)
  | httpsClientTasks (net : NetAnswers) : Neutral (.httpsClientTasks net)
  | shiftRegisterTasks : Neutral .shiftRegisterTasks
  | nixieTasks (answers : NixieAnswers) : Neutral (.nixieTasks answers)

theorem Neutral.isOther {call : AppCall} (h : Neutral call) {app : AppData}
    (hs : app.command.task.state ≠ .none) : call.IsOther app := by
  cases h with
  | line line => exact .line line hs
  | flashTasks answers => exact .flashTasks answers
  | httpsClientTasks net => exact .httpsClientTasks net
  | shiftRegisterTasks => exact .shiftRegisterTasks
  | nixieTasks answers => exact .nixieTasks answers

/-- What the other modules' calls leave alone. -/
structure Keeps (s s' : System) : Prop where
  view : s'.app.rtcView = s.app.rtcView
  task : s'.app.command.task = s.app.command.task
  bus : s'.bus = s.bus

theorem waits_neutral {calls : List AppCall} (hcalls : ∀ call ∈ calls, Neutral call)
    (h : Inv asked s r) (hs : s.app.command.task.state ≠ .none) :
    Waits asked r s (calls.map .call) ∧ Keeps s (machine.run s (calls.map .call)) := by
  induction calls generalizing s with
  | nil => exact ⟨.nil h, rfl, rfl, rfl⟩
  | cons call calls ih =>
    have hneutral := hcalls call (List.mem_cons_self ..)
    obtain ⟨hview, htask, hevents⟩ := (hneutral.isOther hs).step
    have hstep : (machine.step s (.call call)).1 = (s.after (App.machine.step s.app call)).1 := by
      cases hneutral <;> rfl
    have hkeeps : Keeps s (machine.step s (.call call)).1 := by
      rw [hstep]
      exact ⟨hview, htask, foldl_aside s.bus fun e he => aside_of_isOther (hevents e he)⟩
    have hs' : (machine.step s (.call call)).1.app.command.task.state ≠ .none := by
      rwa [hkeeps.task]
    have htyped : typed (s, .call call) = [] := by
      cases hneutral with
      | line line => exact if_neg hs
      | _ => rfl
    have hfirst : Waits asked r s [.call call] := .single h trivial htyped rfl hs'
    obtain ⟨hrest, hkeeps'⟩ :=
      ih (fun c hc => hcalls c (List.mem_cons_of_mem _ hc)) hfirst.inv hs'
    refine ⟨hfirst.append hrest, ?_, ?_, ?_⟩
    · exact hkeeps'.view.trans hkeeps.view
    · exact hkeeps'.task.trans hkeeps.task
    · exact hkeeps'.bus.trans hkeeps.bus

end Waits

/-! ## An iteration -/

/-- The calls behind the clock's. -/
def behindClock (round : AppRound) : List AppCall :=
  [.flashTasks round.flash, .httpsClientTasks round.net, .shiftRegisterTasks, .nixieTasks round.nixie]

/-- The iteration up to the call of the console. -/
def beforeConsole (round : AppRound) : List Input :=
  [.carry] ++ ((round.lines.map AppCall.line).map .call ++
    ([.call (.rtcTasks round.rtc)] ++ (behindClock round).map .call))

theorem roundInputs_eq (round : AppRound) :
    roundInputs round = beforeConsole round ++ [.call (.commandTasks round.command)] := by
  simp [roundInputs, beforeConsole, behindClock, AppRound.calls]

theorem neutral_lines (lines : List ConsoleLine) : ∀ call ∈ lines.map AppCall.line, Neutral call := by
  intro call hcall
  obtain ⟨line, -, rfl⟩ := List.mem_map.mp hcall
  exact .line line

theorem neutral_behindClock (round : AppRound) : ∀ call ∈ behindClock round, Neutral call := by
  intro call hcall
  simp only [behindClock, List.mem_cons, List.not_mem_nil, or_false] at hcall
  rcases hcall with rfl | rfl | rfl | rfl
  · exact .flashTasks _
  · exact .httpsClientTasks _
  · exact .shiftRegisterTasks
  · exact .nixieTasks _

section Rounds

variable {asked : List Typed} {r : Memory} {s : System}

/-- The bus and the clock's call take the operation on. -/
theorem waits_beforeConsole (h : Inv asked s r) (hs : s.app.command.task.state ≠ .none)
    (round : AppRound) :
    Waits asked r s (beforeConsole round) ∧
      (machine.run s (beforeConsole round)).app.command.task = s.app.command.task ∧
      (machine.run s (beforeConsole round)).app.rtc =
        (rtcTasks s.app.rtcView s.bus.carry.answers).1.rtc := by
  have hcarry : Waits asked r s [.carry] := .single h trivial rfl rfl hs
  obtain ⟨hlines, hview, htask, hbus⟩ := waits_neutral (neutral_lines round.lines) hcarry.inv hs
  generalize hrun : machine.run (machine.run s [.carry]) ((round.lines.map AppCall.line).map .call) = t
    at hview htask hbus
  have hinv : Inv asked t r := hrun ▸ hlines.inv
  have hs' : t.app.command.task.state ≠ .none := by rwa [htask]
  have hrtc : Waits asked r t [.call (.rtcTasks round.rtc)] := .single hinv trivial rfl rfl hs'
  obtain ⟨hbehind, hview', htask', -⟩ := waits_neutral (neutral_behindClock round) hrtc.inv hs'
  refine ⟨hcarry.append (hlines.append ?_), ?_, ?_⟩
  · rw [hrun]
    exact hrtc.append hbehind
  · simp only [beforeConsole, Machine.run_append]
    rw [hrun]
    exact htask'.trans htask
  · simp only [beforeConsole, Machine.run_append]
    rw [hrun]
    refine (congrArg RtcView.rtc hview').trans ?_
    show (rtcTasks t.app.rtcView t.bus.answers).1.rtc = _
    rw [hview, hbus]
    rfl

/-- A command that goes on after the console's call. -/
structure GoesOn (t : Typed) (r : Memory) (s : System) (answers : CommandAnswers) : Prop where
  waits : Waits [t] r s [.call (.commandTasks answers)]
  state : (machine.step s (.call (.commandTasks answers))).1.app.command.task.state = .running
  /-- It was running before, and its operation was under way. -/
  busy : s.app.command.task.state = .running → rtcIsBusy s.app.rtc = true ∧
    (machine.step s (.call (.commandTasks answers))).1.app.rtc = s.app.rtc

theorem console_call {t : Typed} (h : Inv [t] s r) (answers : CommandAnswers) :
    observer.step [t] (s, .call (.commandTasks answers)) = ([], [t.moment]) ∨
      GoesOn t r s answers := by
  have hwaits (hs : (machine.step s (.call (.commandTasks answers))).1.app.command.task.state =
      .running) : Waits [t] r s [.call (.commandTasks answers)] :=
    .single h trivial rfl rfl (by rw [hs]; exact AppCommandTaskState.noConfusion)
  have hstep := step_commandTasks s answers
  cases h.serves with
  | resting hasked => cases hasked
  | scheduled cmdIo c hasked hs hp hstored hrest =>
    obtain ⟨hs', -⟩ := invoke_clock hs hp hstored hrest { answers with i2c := s.bus.answers } rfl
    rw [← hstep] at hs'
    refine .inr ⟨hwaits hs', hs', fun hrunning => ?_⟩
    rw [hs] at hrunning
    cases hrunning
  | running cmdIo c hasked hs hp hon =>
    cases hbusy : rtcIsBusy s.app.rtc with
    | false =>
      obtain ⟨hs', -⟩ := finish_clock hs hp hon hbusy { answers with i2c := s.bus.answers }
      left
      simp only [observer, hstep]
      rw [if_pos hs']
      rfl
    | true =>
      have happ : (machine.step s (.call (.commandTasks answers))).1.app = s.app := by
        rw [hstep, wait_clock hs hp hbusy]
        rfl
      have hs' : (machine.step s (.call (.commandTasks answers))).1.app.command.task.state =
          .running := by rw [happ, hs]
      exact .inr ⟨hwaits hs', hs', fun _ => ⟨hbusy, by rw [happ]⟩⟩

/-- There may be as many iterations until the command is done. -/
structure Left (n : Nat) (s : System) : Prop where
  scheduled : s.app.command.task.state = .waitAvailable → 3 ≤ n
  followUp : s.app.command.task.state = .running → s.app.rtc.nextTask ≠ .none → 2 ≤ n
  pos : 1 ≤ n

/-- An iteration ends the command, or leaves one fewer. -/
theorem round_progress {t : Typed} (h : Inv [t] s r) {n : Nat} (hn : Left (n + 1) s)
    (round : AppRound) :
    observer.trace [t] (machine.visits s (roundInputs round)) = [t.moment] ∨
      Waits [t] r s (roundInputs round) ∧ Left n (machine.run s (roundInputs round)) := by
  have hs : s.app.command.task.state ≠ .none := fun hs => by cases (h.serves.none hs).1
  obtain ⟨hwaits, htask, hrtc⟩ := waits_beforeConsole h hs round
  rw [roundInputs_eq, hwaits.trace_append, Machine.run_append]
  rcases console_call hwaits.inv round.command with hdone | ⟨hwaits', hstate, hbusy⟩
  · left
    simp only [Machine.visits_cons, Machine.visits_nil, Machine.trace_cons, Machine.trace_nil, hdone,
      List.append_nil]
  · -- A command that is not invoked now is past its first transfer, if it has two of them.
    have hleft : (machine.run s (beforeConsole round)).app.command.task.state = .running →
        (machine.step (machine.run s (beforeConsole round))
          (.call (.commandTasks round.command))).1.app.rtc.nextTask = .none ∧ 2 ≤ n + 1 := by
      intro hrunning
      obtain ⟨hbusy', hsame⟩ := hbusy hrunning
      cases h.serves with
      | resting hasked => cases hasked
      | scheduled cmdIo c hasked hs' =>
        rw [htask, hs'] at hrunning
        cases hrunning
      | running cmdIo c hasked hs' hp hon =>
        obtain ⟨hnext, hidle⟩ := hon.polled
        rw [hsame, hrtc]
        refine ⟨hnext, hn.followUp hs' fun hnone => ?_⟩
        rw [hrtc, hidle hnone] at hbusy'
        cases hbusy'
    have hcases : (machine.run s (beforeConsole round)).app.command.task.state = .running ∨
        3 ≤ n + 1 := by
      rw [htask]
      cases hs' : s.app.command.task.state with
      | none => exact absurd hs' hs
      | running => exact .inl rfl
      | waitAvailable => exact .inr (hn.scheduled hs')
    refine .inr ⟨hwaits.append hwaits', fun hwait => ?_, fun _ hnext => ?_, ?_⟩
    · rw [Machine.run_cons, Machine.run_nil, hstate] at hwait
      cases hwait
    · rcases hcases with hrunning | hn3
      · exact absurd (hleft hrunning).1 hnext
      · omega
    · rcases hcases with hrunning | hn3
      · have := (hleft hrunning).2
        omega
      · omega

theorem rounds_progress {t : Typed} (h : Inv [t] s r) {n : Nat} (hn : Left n s)
    {rounds : List AppRound} (hlen : n ≤ rounds.length) :
    ∃ later, observer.trace [t] (machine.visits s (loopInputs rounds)) = t.moment :: later := by
  induction rounds generalizing s n with
  | nil =>
    have := hn.pos
    simp only [List.length_nil] at hlen
    omega
  | cons round rounds ih =>
    obtain ⟨m, rfl⟩ : ∃ m, n = m + 1 := ⟨n - 1, by have := hn.pos; omega⟩
    rw [loopInputs, List.flatMap_cons, ← loopInputs]
    rcases round_progress h hn round with hdone | ⟨hwaits, hleft⟩
    · rw [Machine.visits_append, Machine.trace_append, hdone]
      exact ⟨_, rfl⟩
    · rw [hwaits.trace_append]
      exact ih hwaits.inv hleft (Nat.le_of_succ_le_succ hlen)

end Rounds

theorem left_three (s : System) : Left 3 s where
  scheduled _ := Nat.le_refl 3
  followUp _ _ := Nat.le_succ 2
  pos := by decide

/-- **The commands of the clock are done in time.** In every run as above: what was asked for is done
within three iterations of the loop, whatever is typed and answered in them, if the driver's transfers
are over by the next iteration; and before anything that is typed later. -/
theorem commands_done_in_time (app : AppData) (chip : Mcp7940nChip) (inputs : List Input)
    (h : machine.Along Undisturbed (start app chip) inputs) (rounds : List AppRound)
    (hrounds : 3 ≤ rounds.length) :
    let visits := machine.visits (start app chip) inputs
    ∃ later, observer.trace [] (machine.visits (start app chip) (inputs ++ loopInputs rounds)) =
      observer.trace [] visits ++ ((observer.run [] visits).map Typed.moment ++ later) := by
  intro visits
  obtain ⟨-, hinv⟩ := run_atomic h (inv_start app chip)
  rw [Machine.visits_append, Machine.trace_append]
  obtain ⟨hlength, -⟩ := hinv.pending
  match hasked : observer.run [] visits with
  | [] => exact ⟨_, rfl⟩
  | [t] =>
    rw [hasked] at hinv
    obtain ⟨later, hlater⟩ := rounds_progress hinv (left_three _) hrounds
    refine ⟨later, ?_⟩
    rw [hlater]
    rfl
  | t :: u :: ts =>
    rw [hasked] at hlength
    simp only [List.length_cons] at hlength
    omega

def typedDump : List Input := [.call (.line (.ofWords [rtcWord, dumpWord]))]

/-- `rtc dump`, before three iterations. -/
theorem commands_done_in_time_dump :
    ∃ later, (observer.trace [] (machine.visits (start .zeroed ⟨fun _ => 0, 0⟩) (typedDump ++
      loopInputs [AppRound.calm, AppRound.calm, AppRound.calm]))).filterMap Moment.command? =
        (0, .dump) :: later := by
  obtain ⟨later, hlater⟩ := commands_done_in_time .zeroed ⟨fun _ => 0, 0⟩ typedDump
    (by decide +kernel) [AppRound.calm, AppRound.calm, AppRound.calm] (by decide)
  have hdone : (observer.trace [] (machine.visits (start .zeroed ⟨fun _ => 0, 0⟩)
      typedDump)).filterMap Moment.command? = [] := by decide +kernel
  have hasked : observer.run [] (machine.visits (start .zeroed ⟨fun _ => 0, 0⟩) typedDump) =
      [(0, .dump)] := by decide +kernel
  refine ⟨later.filterMap Moment.command?, ?_⟩
  rw [hlater, List.filterMap_append, hdone, hasked]
  rfl

end Clock

end NixieTracker
