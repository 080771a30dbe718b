import NixieTracker.App.ClockCommands

/-!
# The commands of the clock act one at a time

The application on the bus with the chip: the calls of the modules and the console's lines in any order,
and between them the driver's transfers, which take their time. The chip counts on by itself, but not
while a command of the clock is running.

* `System`: the application, the driver and the chip.
* `registers`: the chip as the console's user may think of it, whose commands act at once.
* `observer`: what is typed, and when it is done, as seen from the console.
* `Serves`: how far the command has come that was asked for; one lemma for each kind of step.
* `commands_atomic`: what is printed, and what the chip has, is what the typed commands give, one at a
  time.
-/

namespace NixieTracker

open Lib RtcOperation Scheduler

/-- A report of the clock. -/
def AppEvent.isReport : AppEvent → Bool
  | .print _ text => text.isReport
  | _ => false

namespace Clock

open ClockCommand

/-! ## The system -/

structure System where
  app : AppData
  bus : Bus

inductive Input where
  /-- A call; what the I2C driver answers comes from the bus. -/
  | call (call : AppCall)
  /-- The transfer that is under way goes over the bus. -/
  | carry
  /-- The chip counts on. -/
  | count (f : Memory → Memory)

/-- The driver answers for the bus. -/
def withBus (b : Bus) : AppCall → AppCall
  | .rtcTasks _ => .rtcTasks b.answers
  | .commandTasks answers => .commandTasks { answers with i2c := b.answers }
  | call => call

def observeBus (b : Bus) : AppEvent → Bus
  | .rtc e => b.observe e
  | _ => b

/-- What a call leaves behind. -/
def System.after (s : System) (r : AppData × List AppEvent) : System × List AppEvent :=
  (⟨r.1, r.2.foldl observeBus s.bus⟩, r.2)

def step (s : System) : Input → System × List AppEvent
  | .call call => s.after (App.machine.step s.app (withBus s.bus call))
  | .carry => ({ s with bus := s.bus.carry }, [])
  | .count f => ({ s with bus.chip.registers := f s.bus.chip.registers }, [])

def machine : Machine System Input AppEvent := ⟨step⟩

/-- The initialized application with a chip, before any transfer. -/
def start (app : AppData) (chip : Mcp7940nChip) : System :=
  ⟨appInitialize app true, ⟨chip, .none⟩⟩

/-- A command of the clock is running. -/
def System.Acting (s : System) : Prop :=
  s.app.command.task.state = .running ∧ s.app.command.task.callback.any usesClock = true

instance (s : System) : Decidable s.Acting := inferInstanceAs (Decidable (_ ∧ _))

/-- The chip does not count while a command is running. -/
def Undisturbed (s : System) : Input → Prop
  | .count _ => ¬ s.Acting
  | .call _ | .carry => True

instance (s : System) : (i : Input) → Decidable (Undisturbed s i)
  | .count _ => inferInstanceAs (Decidable (¬ s.Acting))
  | .call _ | .carry => .isTrue trivial

/-! ## The chip as the user sees it -/

/-- What happens to the chip. -/
inductive Moment where
  | count (f : Memory → Memory)
  /-- A command that was typed at the device. -/
  | command (cmdIo : CmdIo) (c : ClockCommand)

/-- The registers, on which each command acts at once. -/
def registers : Machine Memory Moment AppEvent where
  step r
    | .count f => (f r, [])
    | .command cmdIo c => (c.effect r, (c.shows r).toList.map (.print (some cmdIo)))

/-- A command and the device at which it was typed. -/
abbrev Typed := CmdIo × ClockCommand

def Typed.moment (t : Typed) : Moment := .command t.1 t.2

/-- The command of a line, if the console has no task. -/
def typed (v : System × Input) : List Typed :=
  match v.2 with
  | .call (.line line) =>
    if v.1.app.command.task.state = .none then ((ofLine line).map (line.cmdIo, ·)).toList else []
  | _ => []

def Moment.command? : Moment → Option Typed
  | .count _ => none
  | .command cmdIo c => some (cmdIo, c)

def counted : Input → List Moment
  | .count f => [.count f]
  | _ => []

/-- An observer of the console: what was typed is done once the console has no task. -/
def observer : Machine (List Typed) (System × Input) Moment where
  step asked v :=
    let asked := asked ++ typed v
    if (machine.step v.1 v.2).1.app.command.task.state = .none then
      ([], asked.map Typed.moment ++ counted v.2)
    else (asked, counted v.2)

/-- Nothing that was typed gets lost, or comes twice, or out of order. -/
theorem commands_typed (asked : List Typed) (visits : List (System × Input)) :
    (observer.trace asked visits).filterMap Moment.command? ++ observer.run asked visits =
      asked ++ visits.flatMap typed := by
  induction visits generalizing asked with
  | nil => exact (List.append_nil asked).symm
  | cons v visits ih =>
    have hcounted : (counted v.2).filterMap Moment.command? = [] := by
      cases v.2 <;> rfl
    have hmoments (ts : List Typed) : (ts.map Typed.moment).filterMap Moment.command? = ts := by
      rw [List.filterMap_map]
      exact List.filterMap_some
    have hone : (observer.step asked v).2.filterMap Moment.command? ++ (observer.step asked v).1 =
        asked ++ typed v := by
      simp only [observer]
      split
      · simp [hcounted, hmoments]
      · simp [hcounted]
    rw [Machine.trace_cons, Machine.run_cons, List.filterMap_append, List.append_assoc, ih,
      ← List.append_assoc, hone, List.append_assoc, List.flatMap_cons]

/-! ## The invariant -/

/-- No operation is under way, and the chip has the registers. -/
structure Resting (r : Memory) (s : System) : Prop where
  idle : rtcIsBusy s.app.rtc = false
  nextTask : s.app.rtc.nextTask = .none
  receive : s.app.receive = none
  free : s.bus.Free
  registers : s.bus.chip.registers = r

/-- How far the command is that was asked for; `r`: the registers that it finds. -/
inductive Serves (asked : List Typed) (s : System) (r : Memory) : Prop
  | resting (hasked : asked = []) (hother : ¬ Busy s.app.command.task) (hrest : Resting r s)
  | scheduled (cmdIo : CmdIo) (c : ClockCommand) (hasked : asked = [(cmdIo, c)])
      (hs : s.app.command.task.state = .waitAvailable)
      (hp : Pending s.app.command.task cmdIo c.callback .performRTCCheckAvailable)
      (hstored : c.StoredIn s.app.command.rtc) (hrest : Resting r s)
  | running (cmdIo : CmdIo) (c : ClockCommand) (hasked : asked = [(cmdIo, c)])
      (hs : s.app.command.task.state = .running)
      (hp : Pending s.app.command.task cmdIo c.callback .performRTCCheckAvailable)
      (hbus : c.operation.OnBus r s.app.rtcView s.bus)

/-- The console's other commands have their callbacks, too. -/
structure Inv (asked : List Typed) (s : System) (r : Memory) : Prop where
  listening : ∃ last, Listening s.app last
  serves : Serves asked s r

/-- An event that the bus does not see, and no report. -/
def aside : AppEvent → Bool
  | .rtc _ => false
  | .print _ text => !text.isReport
  | _ => true

section Events

variable {es : List AppEvent}

theorem aside_of_isOther {e : AppEvent} (h : e.isOther = true) : aside e = true := by
  cases e with
  | rtc | transferStatus => cases h
  | print io text => exact h
  | _ => rfl

theorem filter_aside (h : ∀ e ∈ es, aside e = true) : es.filter AppEvent.isReport = [] := by
  rw [List.filter_eq_nil_iff]
  intro e he
  have haside := h e he
  cases e with
  | print io text => simpa [aside, AppEvent.isReport] using haside
  | _ => exact Bool.false_ne_true

theorem foldl_aside (b : Bus) (h : ∀ e ∈ es, aside e = true) : es.foldl observeBus b = b := by
  induction es with
  | nil => rfl
  | cons e es ih =>
    have hone : observeBus b e = b := by
      have haside := h e (List.mem_cons_self ..)
      cases e with
      | rtc => cases haside
      | _ => rfl
    rw [List.foldl_cons, hone]
    exact ih fun e' he' => h e' (List.mem_cons_of_mem _ he')

theorem filter_rtc (es : List RtcEvent) : (es.map AppEvent.rtc).filter AppEvent.isReport = [] := by
  rw [List.filter_eq_nil_iff]
  exact List.forall_mem_map.mpr fun e _ => Bool.false_ne_true

theorem foldl_rtc (b : Bus) (es : List RtcEvent) :
    (es.map AppEvent.rtc).foldl observeBus b = es.foldl Bus.observe b := by
  rw [List.foldl_map]
  rfl

end Events

/-! ## The steps -/

section Steps

variable {asked : List Typed} {s s' : System} {r : Memory} {i : Input}

theorem Resting.congr (h : Resting r s) (hrtc : s'.app.rtc = s.app.rtc)
    (hreceive : s'.app.receive = s.app.receive) (hbus : s'.bus = s.bus) : Resting r s' where
  idle := by rw [hrtc]; exact h.idle
  nextTask := by rw [hrtc]; exact h.nextTask
  receive := hreceive.trans h.receive
  free := by rw [hbus]; exact h.free
  registers := by rw [hbus]; exact h.registers

theorem Serves.congr (h : Serves asked s r) (hview : s'.app.rtcView = s.app.rtcView)
    (htask : s'.app.command.task = s.app.command.task) (hbus : s'.bus = s.bus) :
    Serves asked s' r := by
  have hrtc : s'.app.rtc = s.app.rtc := congrArg RtcView.rtc hview
  have hreceive : s'.app.receive = s.app.receive := congrArg RtcView.receive hview
  have hunion : s'.app.command.rtc = s.app.command.rtc :=
    congrArg (fun v : RtcView => AppCommandRTCData.mk v.memory) hview
  cases h with
  | resting hasked hother hrest =>
    exact .resting hasked (htask ▸ hother) (hrest.congr hrtc hreceive hbus)
  | scheduled cmdIo c hasked hs hp hstored hrest =>
    exact .scheduled cmdIo c hasked (htask ▸ hs) (htask ▸ hp) (hunion ▸ hstored)
      (hrest.congr hrtc hreceive hbus)
  | running cmdIo c hasked hs hp hbus' =>
    refine .running cmdIo c hasked (htask ▸ hs) (htask ▸ hp) ?_
    rw [hview, hbus]
    exact hbus'

theorem acting_of_running {cmdIo : CmdIo} {c : ClockCommand}
    (hs : s.app.command.task.state = .running)
    (hp : Pending s.app.command.task cmdIo c.callback .performRTCCheckAvailable) : s.Acting := by
  refine ⟨hs, ?_⟩
  rw [hp.callback, Option.any_some, usesClock, callback_ownCheck]
  rfl

/-- A step of the bus or the chip alone. -/
theorem Serves.onBus (h : Serves asked s r) {b : Bus} {r' : Memory}
    (hrest : Resting r s → Resting r' { s with bus := b })
    (hon : s.Acting → ∀ op : RtcOperation, op.OnBus r s.app.rtcView s.bus →
      op.OnBus r' s.app.rtcView b) : Serves asked { s with bus := b } r' := by
  cases h with
  | resting hasked hother hr => exact .resting hasked hother (hrest hr)
  | scheduled cmdIo c hasked hs hp hstored hr => exact .scheduled cmdIo c hasked hs hp hstored (hrest hr)
  | running cmdIo c hasked hs hp hbus =>
    exact .running cmdIo c hasked hs hp (hon (acting_of_running hs hp) c.operation hbus)

/-- Without a task nothing is asked for. -/
theorem Serves.none (h : Serves asked s r) (hs : s.app.command.task.state = .none) :
    asked = [] ∧ Resting r s := by
  cases h with
  | resting hasked hother hrest => exact ⟨hasked, hrest⟩
  | scheduled cmdIo c hasked hs' | running cmdIo c hasked hs' =>
    rw [hs] at hs'
    cases hs'

/-- What a step has to do: its reports are those of the moments that the observer sees. -/
structure Atomic (asked : List Typed) (s : System) (i : Input) (r : Memory) : Prop where
  reports : (machine.step s i).2.filter AppEvent.isReport =
    registers.trace r (observer.step asked (s, i)).2
  inv : Inv (observer.step asked (s, i)).1 (machine.step s i).1
    (registers.run r (observer.step asked (s, i)).2)

/-- A step after which the command that was asked for is still on its way, or there is none. -/
theorem Atomic.of_serves (hlistening : ∃ last, Listening (machine.step s i).1.app last)
    (h : Serves (asked ++ typed (s, i)) (machine.step s i).1 (registers.run r (counted i)))
    (hevents : (machine.step s i).2.filter AppEvent.isReport = []) : Atomic asked s i r := by
  have hobserver : observer.step asked (s, i) = (asked ++ typed (s, i), counted i) := by
    simp only [observer]
    split
    · rename_i hs
      rw [(h.none hs).1]
      rfl
    · rfl
  have htrace : registers.trace r (counted i) = [] := by cases i <;> rfl
  constructor
  · rw [hobserver, hevents, htrace]
  · rw [hobserver]
    exact ⟨hlistening, h⟩

theorem listening_call (h : ∃ last, Listening s.app last) (call : AppCall) :
    ∃ last, Listening (machine.step s (.call call)).1.app last := by
  obtain ⟨last, hlast⟩ := h
  exact ⟨_, listening_step s.app (withBus s.bus call) last hlast⟩

theorem atomic_carry (h : Inv asked s r) : Atomic asked s .carry r := by
  refine .of_serves h.listening ?_ rfl
  rw [show typed (s, .carry) = [] from rfl, List.append_nil]
  exact h.serves.onBus (fun hrest => hrest.congr rfl rfl (Bus.carry_free hrest.free))
    fun _ _ hon => hon.carry

theorem atomic_count (h : Inv asked s r) {f : Memory → Memory} (hi : ¬ s.Acting) :
    Atomic asked s (.count f) r := by
  refine .of_serves h.listening ?_ rfl
  rw [show typed (s, .count f) = [] from rfl, List.append_nil]
  exact h.serves.onBus (fun hrest =>
    ⟨hrest.idle, hrest.nextTask, hrest.receive, hrest.free, congrArg f hrest.registers⟩)
    fun hacting => absurd hacting hi

/-- A call that has nothing to do with the clock. -/
theorem atomic_other (h : Inv asked s r) {call : AppCall} (hcall : call.IsOther s.app) :
    Atomic asked s (.call call) r := by
  have hwith : withBus s.bus call = call := by cases hcall <;> rfl
  have htyped : typed (s, .call call) = [] := by
    cases hcall with
    | line line hs => exact if_neg hs
    | _ => rfl
  obtain ⟨hview, htask, hevents⟩ := hcall.step
  have haside : ∀ e ∈ (App.machine.step s.app call).2, aside e = true :=
    fun e he => aside_of_isOther (hevents e he)
  have hstep : machine.step s (.call call) = s.after (App.machine.step s.app call) := by
    rw [← hwith]
    simp only [machine, step, hwith]
  refine .of_serves (listening_call h.listening call) ?_ ?_
  · rw [htyped, List.append_nil, hstep]
    exact h.serves.congr hview htask (foldl_aside s.bus haside)
  · rw [hstep]
    exact filter_aside haside

/-- A line while the console has no task. -/
theorem atomic_line (h : Inv asked s r) (hs : s.app.command.task.state = .none) (line : ConsoleLine) :
    Atomic asked s (.call (.line line)) r := by
  obtain ⟨rfl, hrest⟩ := h.serves.none hs
  have htyped : typed (s, .call (.line line)) = ((ofLine line).map (line.cmdIo, ·)).toList := if_pos hs
  obtain ⟨enabled, heq⟩ := appLine_eq s.app line
  have haside : ∀ e ∈ (appLine s.app line).2, aside e = true :=
    fun e he => aside_of_isOther ((appLine_other s.app line).2 e he)
  have hbus : (machine.step s (.call (.line line))).1.bus = s.bus := foldl_aside s.bus haside
  have happ : (machine.step s (.call (.line line))).1.app = (appLine s.app line).1 := rfl
  have hrest' : Resting r (machine.step s (.call (.line line))).1 := by
    refine hrest.congr ?_ ?_ hbus
    · rw [happ, heq]
    · rw [happ, heq]
  refine .of_serves (listening_call h.listening _) ?_ (filter_aside haside)
  rw [htyped, List.nil_append]
  cases hline : ofLine line with
  | none =>
    refine .resting rfl ?_ hrest'
    rw [happ, heq]
    exact consoleLine_other hs hline
  | some c =>
    have hcommand : (machine.step s (.call (.line line))).1.app.command =
        (c.scheduled s.app.command line.cmdIo).1 := by
      rw [happ, heq, ← consoleLine_clock hs hline]
    refine .scheduled line.cmdIo c rfl ?_ ?_ ?_ hrest'
    · rw [hcommand]
      rfl
    · rw [hcommand]
      exact ⟨rfl, rfl, rfl⟩
    · rw [hcommand]
      exact c.storedIn_storeArguments s.app.command.rtc

/-! ## The clock's call -/

theorem appRtcTasks_idle {app : AppData} (h : rtcIsBusy app.rtc = false) (answers : I2cAnswers) :
    appRtcTasks app answers = (app, []) := by
  have hstate : ¬ app.rtc.state = .i2cStausCheck := by
    intro hstate
    rw [(rtcIsBusy_iff _).mpr hstate] at h
    cases h
  have htasks : rtcTasks app.rtcView answers = (app.rtcView, []) := rtcTasks_idle h answers
  simp only [appRtcTasks, htasks, if_neg hstate, List.map_nil, List.append_nil]
  rfl

/-- What the bus sees of the clock's call. -/
theorem appRtcTasks_bus (app : AppData) (answers : I2cAnswers) (b : Bus) :
    (appRtcTasks app answers).2.foldl observeBus b =
      (rtcTasks app.rtcView answers).2.foldl Bus.observe b := by
  have hstatus : ((if app.rtc.state = .i2cStausCheck then
      [AppEvent.transferStatus answers.transferStatus] else []).foldl observeBus b) = b := by
    split <;> rfl
  simp only [appRtcTasks, List.foldl_append, hstatus, foldl_rtc]

theorem filter_appRtcTasks (app : AppData) (answers : I2cAnswers) :
    (appRtcTasks app answers).2.filter AppEvent.isReport = [] := by
  rw [List.filter_eq_nil_iff]
  intro e he
  rcases appRtcTasks_events app answers he with ⟨r, rfl⟩ | rfl <;> exact Bool.false_ne_true

theorem atomic_rtcTasks (h : Inv asked s r) (answers : I2cAnswers) :
    Atomic asked s (.call (.rtcTasks answers)) r := by
  have happ : (machine.step s (.call (.rtcTasks answers))).1.app =
      (appRtcTasks s.app s.bus.answers).1 := rfl
  have hbus : (machine.step s (.call (.rtcTasks answers))).1.bus =
      (rtcTasks s.app.rtcView s.bus.answers).2.foldl Bus.observe s.bus := appRtcTasks_bus ..
  refine .of_serves (listening_call h.listening _) ?_ (filter_appRtcTasks ..)
  rw [show typed (s, .call (.rtcTasks answers)) = [] from rfl, List.append_nil]
  have hidle (hrest : Resting r s) :
      (machine.step s (.call (.rtcTasks answers))).1 = s := by
    have heq := appRtcTasks_idle hrest.idle s.bus.answers
    show (s.after (appRtcTasks s.app s.bus.answers)).1 = s
    rw [heq]
    rfl
  cases h.serves with
  | resting hasked hother hrest =>
    rw [hidle hrest]
    exact .resting hasked hother hrest
  | scheduled cmdIo c hasked hs hp hstored hrest =>
    rw [hidle hrest]
    exact .scheduled cmdIo c hasked hs hp hstored hrest
  | running cmdIo c hasked hs hp hon =>
    refine .running cmdIo c hasked hs hp ?_
    rw [hbus]
    exact hon.tasks

/-! ## The command task's call -/

/-- The task of another command. -/
theorem other_command (h : ¬ Busy s.app.command.task) (hlistening : ∃ last, Listening s.app last)
    (answers : CommandAnswers) :
    (appCommandTasks s.app answers).1.rtcView = s.app.rtcView ∧
      ¬ Busy (appCommandTasks s.app answers).1.command.task ∧
      ∀ e ∈ (appCommandTasks s.app answers).2, aside e = true := by
  obtain ⟨last, hlast⟩ := hlistening
  by_cases hs : s.app.command.task.state = .none
  · rw [appCommandTasks_none hs]
    exact ⟨rfl, h, fun e he => by cases he⟩
  obtain ⟨cmdIo, callback, hp⟩ := hlast.task hs
  have huses : usesClock callback = false := by
    by_contra hne
    refine h ⟨hs, ?_⟩
    rw [hp.callback, Option.any_some]
    simpa using hne
  have hcall (task : AppCommandTaskData) (hcallback : task.callback = some callback)
      (mode : AppCommandTaskCallbackMode) (ts : List TaskEvent) :
      (afterPerform task (perform answers callback cmdIo mode s.app)).rtcView = s.app.rtcView ∧
      ¬ Busy (afterPerform task (perform answers callback cmdIo mode s.app)).command.task ∧
      ∀ e ∈ ts.map .task ++ (perform answers callback cmdIo mode s.app).2.2, aside e = true := by
    obtain ⟨hview, hevents⟩ := perform_aside answers huses cmdIo mode s.app
    refine ⟨hview, ?_, fun e he => ?_⟩
    · rw [afterPerform_task]
      cases (perform answers callback cmdIo mode s.app).1 with
      | finished => exact not_busy_none rfl
      | running =>
        rintro ⟨-, hbusy⟩
        rw [checkCallbackResult_running, hcallback, Option.any_some, huses] at hbusy
        cases hbusy
    · rcases List.mem_append.mp he with he | he
      · obtain ⟨t, -, rfl⟩ := List.mem_map.mp he
        rfl
      · exact aside_of_isOther (hevents e he)
  cases hstate : s.app.command.task.state with
  | none => exact absurd hstate hs
  | running =>
    rw [appCommandTasks_update hstate hp]
    exact hcall _ hp.callback .update [.call callback cmdIo .update _]
  | waitAvailable =>
    cases ha : performCheckAvailable callback.ownCheck s.app with
    | false =>
      rw [appCommandTasks_unavailable hstate hp ha]
      refine ⟨rfl, h, fun e he => ?_⟩
      cases List.mem_singleton.mp he
      rfl
    | true =>
      rw [appCommandTasks_invoke hstate hp ha]
      exact hcall { s.app.command.task with state := .running } hp.callback .invoke
        [.checkAvailable callback.ownCheck true, .call callback cmdIo .invoke _]

/-- A scheduled command of the clock is invoked at once. -/
theorem invoke_clock {cmdIo : CmdIo} {c : ClockCommand}
    (hs : s.app.command.task.state = .waitAvailable)
    (hp : Pending s.app.command.task cmdIo c.callback .performRTCCheckAvailable)
    (hstored : c.StoredIn s.app.command.rtc) (hrest : Resting r s) (answers : CommandAnswers)
    (hanswers : answers.i2c = s.bus.answers) :
    let t := (s.after (appCommandTasks s.app answers)).1
    t.app.command.task.state = .running ∧
      Pending t.app.command.task cmdIo c.callback .performRTCCheckAvailable ∧
      c.operation.OnBus r t.app.rtcView t.bus ∧
      (appCommandTasks s.app answers).2.filter AppEvent.isReport = [] := by
  have ha : performCheckAvailable .performRTCCheckAvailable s.app = true := by
    simp [performCheckAvailable, performRTCCheckAvailable, hrest.idle]
  have hon := onBus_start c.operation (v := s.app.rtcView) hrest.nextTask hrest.free
  rw [hrest.registers] at hon
  unfold System.after
  rw [appCommandTasks_invoke hs hp ha, c.perform_invoke answers _ hstored, hanswers]
  refine ⟨rfl, ⟨hp.callback, hp.callbackCmdIo, hp.callbackCheckAvailable⟩, ?_, ?_⟩
  · simp only [List.foldl_cons, foldl_rtc]
    exact hon
  · exact filter_rtc _

/-- A running command waits for its operation. -/
theorem wait_clock {cmdIo : CmdIo} {c : ClockCommand} (hs : s.app.command.task.state = .running)
    (hp : Pending s.app.command.task cmdIo c.callback .performRTCCheckAvailable)
    (hbusy : rtcIsBusy s.app.rtc = true) (answers : CommandAnswers) :
    appCommandTasks s.app answers =
      (s.app, [.task (.call c.callback cmdIo .update .running)]) := by
  rw [appCommandTasks_update hs hp, c.perform_busy _ _ hbusy, afterPerform,
    checkCallbackResult_running, ← hs]

/-- A running command whose operation is done ends, and shows what it has read. -/
theorem finish_clock {cmdIo : CmdIo} {c : ClockCommand} (hs : s.app.command.task.state = .running)
    (hp : Pending s.app.command.task cmdIo c.callback .performRTCCheckAvailable)
    (hon : c.operation.OnBus r s.app.rtcView s.bus) (hidle : rtcIsBusy s.app.rtc = false)
    (answers : CommandAnswers) :
    let t := (s.after (appCommandTasks s.app answers)).1
    t.app.command.task.state = .none ∧ Resting (c.effect r) t ∧
      (appCommandTasks s.app answers).2.filter AppEvent.isReport =
        (c.shows r).toList.map (.print (some cmdIo)) := by
  obtain ⟨hfree, hnext, hreceive, hregisters, hst⟩ := hon.ended hidle
  have hshows : ∀ e ∈ (c.shows r).toList.map (AppEvent.print (some cmdIo)), e.isReport = true := by
    intro e he
    obtain ⟨text, htext, rfl⟩ := List.mem_map.mp he
    exact c.shows_isReport r (Option.mem_toList.mp htext)
  have hbus : ((c.shows r).toList.map (AppEvent.print (some cmdIo))).foldl observeBus s.bus = s.bus := by
    cases c.shows r <;> rfl
  unfold System.after
  rw [appCommandTasks_update hs hp, c.perform_idle answers _ hidle hst]
  refine ⟨rfl, ⟨hidle, hnext, hreceive, ?_, ?_⟩, ?_⟩
  · simp only [List.foldl_cons, observeBus, hbus]
    exact hfree
  · simp only [List.foldl_cons, observeBus, hbus]
    exact hregisters
  · rw [List.filter_cons_of_neg (by exact Bool.false_ne_true)]
    exact List.filter_eq_self.mpr hshows

theorem step_commandTasks (s : System) (answers : CommandAnswers) :
    machine.step s (.call (.commandTasks answers)) =
      s.after (appCommandTasks s.app { answers with i2c := s.bus.answers }) := rfl

theorem atomic_commandTasks (h : Inv asked s r) (answers : CommandAnswers) :
    Atomic asked s (.call (.commandTasks answers)) r := by
  have hlistening := listening_call h.listening (.commandTasks answers)
  have htyped : typed (s, .call (.commandTasks answers)) = [] := rfl
  have hstep := step_commandTasks s answers
  cases h.serves with
  | resting hasked hother hrest =>
    obtain ⟨hview, hother', haside⟩ :=
      other_command hother h.listening { answers with i2c := s.bus.answers }
    refine .of_serves hlistening ?_ (filter_aside haside)
    rw [htyped, List.append_nil, hstep]
    exact .resting hasked hother' (hrest.congr (congrArg RtcView.rtc hview)
      (congrArg RtcView.receive hview) (foldl_aside s.bus haside))
  | scheduled cmdIo c hasked hs hp hstored hrest =>
    obtain ⟨hs', hp', hon, hevents⟩ :=
      invoke_clock hs hp hstored hrest { answers with i2c := s.bus.answers } rfl
    refine .of_serves hlistening ?_ hevents
    rw [htyped, List.append_nil]
    exact .running cmdIo c hasked hs' hp' hon
  | running cmdIo c hasked hs hp hon =>
    cases hbusy : rtcIsBusy s.app.rtc with
    | true =>
      have heq := wait_clock hs hp hbusy { answers with i2c := s.bus.answers }
      refine .of_serves hlistening ?_ ?_
      · rw [htyped, List.append_nil, hstep, heq]
        exact .running cmdIo c hasked hs hp hon
      · rw [hstep, heq]
        rfl
    | false =>
      obtain ⟨hs', hrest, hreports⟩ :=
        finish_clock hs hp hon hbusy { answers with i2c := s.bus.answers }
      have hobserver : observer.step asked (s, .call (.commandTasks answers)) =
          ([], [.command cmdIo c]) := by
        simp only [observer, hstep]
        rw [if_pos hs', hasked]
        rfl
      constructor
      · rw [hobserver, hstep]
        refine hreports.trans ?_
        exact (List.append_nil _).symm
      · rw [hobserver]
        exact ⟨hlistening, .resting rfl (not_busy_none hs') hrest⟩

theorem atomic_step (h : Inv asked s r) (hi : Undisturbed s i) : Atomic asked s i r := by
  cases i with
  | carry => exact atomic_carry h
  | count f => exact atomic_count h hi
  | call call =>
    cases call with
    | rtcTasks answers => exact atomic_rtcTasks h answers
    | commandTasks answers => exact atomic_commandTasks h answers
    | flashTasks answers => exact atomic_other h (.flashTasks answers)
    | httpsClientTasks net => exact atomic_other h (.httpsClientTasks net)
    | shiftRegisterTasks => exact atomic_other h .shiftRegisterTasks
    | nixieTasks answers => exact atomic_other h (.nixieTasks answers)
    | line line =>
      by_cases hs : s.app.command.task.state = .none
      · exact atomic_line h hs line
      · exact atomic_other h (.line line hs)

end Steps

/-! ## Whole runs -/

theorem inv_start (app : AppData) (chip : Mcp7940nChip) :
    Inv [] (start app chip) chip.registers where
  listening := ⟨_, listening_appInitialize app true⟩
  serves := .resting rfl (not_busy_none rfl) ⟨rfl, rfl, rfl, (fun _ h => by cases h), rfl⟩

theorem Inv.pending {asked : List Typed} {s : System} {r : Memory} (h : Inv asked s r) :
    asked.length ≤ 1 ∧ (s.app.command.task.state = .none → asked = []) ∧
      (s.bus.chip.registers = r ∨
        s.Acting ∧ s.bus.chip.registers = registers.run r (asked.map Typed.moment)) := by
  refine ⟨?_, fun hs => (h.serves.none hs).1, ?_⟩
  · cases h.serves with
    | resting hasked hother hrest =>
      rw [hasked]
      exact Nat.zero_le 1
    | scheduled cmdIo c hasked | running cmdIo c hasked =>
      rw [hasked]
      exact Nat.le_refl 1
  · cases h.serves with
    | resting hasked hother hrest => exact .inl hrest.registers
    | scheduled cmdIo c hasked hs hp hstored hrest => exact .inl hrest.registers
    | running cmdIo c hasked hs hp hbus =>
      rcases hbus.registers_or with hold | hnew
      · exact .inl hold
      · refine .inr ⟨acting_of_running hs hp, ?_⟩
        rw [hasked]
        exact hnew

/-- The run, as the observer sees it. -/
theorem run_atomic {asked : List Typed} {s : System} {r : Memory} {inputs : List Input}
    (hP : machine.Along Undisturbed s inputs) (h : Inv asked s r) :
    (machine.trace s inputs).filter AppEvent.isReport =
        registers.trace r (observer.trace asked (machine.visits s inputs)) ∧
      Inv (observer.run asked (machine.visits s inputs)) (machine.run s inputs)
        (registers.run r (observer.trace asked (machine.visits s inputs))) :=
  Machine.observed_along (R := Inv) (P := Undisturbed)
    (fun _ _ _ _ hi h => ⟨(atomic_step h hi).reports, (atomic_step h hi).inv⟩) hP h

/-- **The commands of the clock are atomic.** In every run from the initialized application on, with
calls, lines and transfers in any order, in which the chip does not count while a command of the clock is
running:

* What the commands print is what they print one at a time, in the order in which they were typed, each
  acting at once on the registers that it finds.
* Every command that was typed while the console had no task is done, but for the last one, which the
  console's task is for.
* The chip has the registers that the commands have left behind; those of the last one at once. -/
theorem commands_atomic (app : AppData) (chip : Mcp7940nChip) (inputs : List Input)
    (h : machine.Along Undisturbed (start app chip) inputs) :
    let visits := machine.visits (start app chip) inputs
    let s := machine.run (start app chip) inputs
    let moments := observer.trace [] visits
    let pending := observer.run [] visits
    (machine.trace (start app chip) inputs).filter AppEvent.isReport =
      registers.trace chip.registers moments ∧
    moments.filterMap Moment.command? ++ pending = visits.flatMap typed ∧
    pending.length ≤ 1 ∧ (s.app.command.task.state = .none → pending = []) ∧
    (s.bus.chip.registers = registers.run chip.registers moments ∨
      s.Acting ∧ s.bus.chip.registers =
        registers.run chip.registers (moments ++ pending.map Typed.moment)) := by
  intro visits s moments pending
  obtain ⟨hreports, hinv⟩ := run_atomic h (inv_start app chip)
  obtain ⟨hlength, hnone, hregisters⟩ := hinv.pending
  refine ⟨hreports, commands_typed [] visits, hlength, hnone, ?_⟩
  rw [Machine.run_append]
  exact hregisters

def shown : AppEvent → Option (Option CmdIo × Printed)
  | .print io text => some (io, text)
  | _ => none

/-- The transfers of a command, and its calls. -/
def served : List Input :=
  [.call (.commandTasks AppRound.calm.command), .carry, .call (.rtcTasks AppRound.calm.rtc), .carry,
    .call (.rtcTasks AppRound.calm.rtc), .call (.commandTasks AppRound.calm.command)]

/-- `rtc oscillator start`, a second, and `rtc register read 0`. -/
def counting : List Input :=
  .call (.line ⟨1, [rtcWord, ⟨lit "oscillator", by decide +kernel⟩, ⟨lit "start", by decide +kernel⟩],
    (0, 0, 0)⟩) :: served ++ .count (fun r a => if a = 0 then r a + 1 else r a) ::
  .call (.line ⟨1, [rtcWord, ⟨lit "register", by decide +kernel⟩, ⟨lit "read", by decide +kernel⟩,
    ⟨lit "0", by decide +kernel⟩], (0, 0, 0)⟩) :: served

theorem commands_atomic_counting :
    ((machine.trace (start .zeroed ⟨fun _ => 0, 0⟩) counting).filter AppEvent.isReport).filterMap shown =
      [(some 1, .registerValue 0x81)] := by
  obtain ⟨hreports, -⟩ := commands_atomic .zeroed ⟨fun _ => 0, 0⟩ counting (by decide +kernel)
  rw [hreports]
  decide +kernel

end Clock

end NixieTracker
