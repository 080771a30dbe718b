import NixieTracker.Spi.Runs

/-!
# The SPI driver in its interrupt does what the polled one does

The interrupt's sub-tasks turn interrupts on and off and choose their modes beside what the polled ones
do, and its loop goes on where the polled driver waits for its next call.

* `DrvSpi.flagged`: a driver with other interrupts. `sendISR_flagged` and `receiveISR_flagged` are the
  sub-tasks.
* `isrTransfer_polled`, `isrPass_polled`: one pass is one call of the polled tasks.
* `isrLoop_polled`: the loop is some calls of them.
* `isr_refines_polled`: every run of the interrupt is a run of the polled driver, and the interrupts of
  a job in progress are on whenever it has returned.
-/

namespace NixieTracker

open Lib Lib.Link

/-- The driver with other interrupts. -/
def DrvSpi.flagged (drv : DrvSpi) (tx rx : Bool) (interrupts : SpiInterrupts) : DrvSpi :=
  { drv with txEnabled := tx, rxEnabled := rx, interrupts }

def SpiState.flagged {η : Type} (s : SpiState η) (tx rx : Bool) (interrupts : SpiInterrupts) :
    SpiState η :=
  ⟨s.drv.flagged tx rx interrupts, s.port⟩

namespace Spi

/-- The interrupts of a job in progress are on. -/
def Awake {η : Type} (s : SpiState η) : Prop :=
  s.drv.currentJob ≠ none → s.drv.interrupts.rxSource = true ∧ s.drv.interrupts.txSource = true

section Pass

variable {η σ : Type} {spi : SpiModule η} {errorTasks : ErrorTasks η} {P : Peer σ UInt8 UInt8}
  {view : η → Link σ UInt8 UInt8} {p : σ} {job : DrvSpiJob} {dummyByteValue : UInt16} {sent : Nat}
  {taken : List UInt8} {baudRate : Nat} {jobs : List DrvSpiJob} {events : List SpiEvent}
  {s : SpiState η}

/-- The part of a pass that sends. -/
theorem sendISR_flagged (spi : SpiModule η) (drv : DrvSpi) (tx rx : Bool)
    (interrupts : SpiInterrupts) (t : Transfer η) :
    ∃ tx' rx' interrupts',
      (if t.job.leftToTx ≠ 0 then drvSpiMasterEBMSend8BitISR spi (drv.flagged tx rx interrupts) t
        else (drv.flagged tx rx interrupts, t)) =
      (drv.flagged tx' rx' interrupts',
        if t.job.leftToTx ≠ 0 then send8Bit spi drv.dummyByteValue t else t) := by
  unfold drvSpiMasterEBMSend8BitISR
  split
  · simp only
    split
    · exact ⟨_, _, _, rfl⟩
    · exact ⟨_, _, _, rfl⟩
  · exact ⟨_, _, _, rfl⟩

/-- The part that receives. -/
theorem receiveISR_flagged (spi : SpiModule η) (drv : DrvSpi) (tx rx : Bool) (interrupts : SpiInterrupts)
    (t : Transfer η) :
    ∃ interrupts',
      (if t.job.leftToRx ≠ 0 then drvSpiMasterEBMReceive8BitISR spi (drv.flagged tx rx interrupts) t
        else (drv.flagged tx rx interrupts, t)) =
      (drv.flagged tx rx interrupts', if t.job.leftToRx ≠ 0 then receive8Bit spi t else t) := by
  unfold drvSpiMasterEBMReceive8BitISR
  split
  · simp only
    split
    · exact ⟨_, rfl⟩
    · exact ⟨_, rfl⟩
  · exact ⟨_, rfl⟩

/-- The jobs that are added during a pass. -/
def addJobs (s : SpiState η) (jobs : List DrvSpiJob) : SpiState η :=
  ⟨{ s.drv with queue := s.drv.queue ++ jobs }, s.port⟩

/-- **The sub-tasks of one pass** are those of a polled call. If the loop does not go on, the interrupts
of a job in progress are on. -/
theorem isrTransfer_polled (hlaw : spi.Lawful errorTasks P view) (hb : job.Balanced)
    {answers : IsrAnswers} (hfree : answers.queue.freeElement = true) (drv : DrvSpi) {port : η}
    (tx rx : Bool) (interrupts : SpiInterrupts)
    (h : During spi P view p drv.dummyByteValue job sent taken
      ⟨job.during sent taken, drv.symbolsInProgress, port⟩)
    (hcurrent : drv.currentJob = some (job.during sent taken)) :
    let r := polledTransfer spi errorTasks answers.queue drv (job.during sent taken) port
    ∃ tx' rx' interrupts' pass,
      isrTransfer spi errorTasks answers (drv.flagged tx rx interrupts) (job.during sent taken) port =
        (SpiState.flagged (addJobs r.1 answers.added) tx' rx' interrupts', r.2, pass) ∧
      (pass ≠ .continueLoop →
        Awake (SpiState.flagged (addJobs r.1 answers.added) tx' rx' interrupts')) := by
  intro r
  obtain ⟨t₁, t₂, t₃, units, ht₁, herror, ht₃, -, h₃⟩ := subTasks_during hlaw hb h
  obtain ⟨tx₁, rx₁, ints₁, hsend⟩ := sendISR_flagged spi drv tx rx interrupts
    ⟨job.during sent taken, drv.symbolsInProgress, port⟩
  obtain ⟨ints₂, hreceive⟩ := receiveISR_flagged spi drv tx₁ rx₁ ints₁ t₂
  rw [ht₁] at hsend
  rw [ht₃] at hreceive
  have hr : r = if t₃.job.leftToRx = 0 then endJob true drv t₃ else (⟨drv.store t₃, t₃.port⟩, []) := by
    show polledTransfer spi errorTasks answers.queue drv (job.during sent taken) port = _
    unfold polledTransfer drvSpiMasterEBMSend8BitPolled drvSpiMasterEBMReceive8BitPolled
    simp only [ht₁, herror, ht₃, hfree]
  have hsip : (drv.flagged tx rx interrupts).symbolsInProgress = drv.symbolsInProgress := rfl
  unfold isrTransfer
  simp only [hsip, hsend, herror, hreceive, hfree]
  rw [hr]
  by_cases hend : t₃.job.leftToRx = 0
  · simp only [hend, if_true]
    exact ⟨tx₁, false, ints₂, _, rfl, fun _ hn => absurd rfl hn⟩
  · simp only [hend, if_false]
    have hsome : (drv.flagged tx₁ rx₁ ints₂).currentJob ≠ none := by
      show drv.currentJob ≠ none
      rw [hcurrent]
      exact Option.some_ne_none _
    rw [if_neg hsome]
    by_cases hfires : answers.firesAgain = true
    · rw [if_pos hfires]
      exact ⟨tx₁, rx₁, ints₂, _, rfl, fun hne => absurd rfl hne⟩
    · rw [if_neg hfires]
      exact ⟨tx₁, rx₁, { ints₂ with rxSource := true, txSource := true }, _, rfl,
        fun _ _ => ⟨rfl, rfl⟩⟩

theorem selectModes_flagged (spi : SpiModule η) (job : DrvSpiJob) (drv : DrvSpi) (tx rx : Bool)
    (interrupts : SpiInterrupts) :
    ∃ interrupts', selectModes spi job (drv.flagged tx rx interrupts) =
      drv.flagged tx rx interrupts' := by
  unfold selectModes
  split
  · exact ⟨_, rfl⟩
  · exact ⟨_, rfl⟩

/-- **One pass** is a call of the polled tasks, with the jobs that are added in the meantime. -/
theorem isrPass_polled (hlaw : spi.Lawful errorTasks P view) {answers : IsrAnswers}
    (hok : (Call.tasks answers.queue).Succeeds)
    (h : Serving spi P view p baudRate dummyByteValue jobs events s) (tx rx : Bool)
    (interrupts : SpiInterrupts) :
    let r := step spi errorTasks s (.tasks answers.queue)
    ∃ tx' rx' interrupts' pass,
      isrPass spi errorTasks answers (s.flagged tx rx interrupts) =
        (SpiState.flagged (addJobs r.1 answers.added) tx' rx' interrupts', r.2, pass) ∧
      (pass ≠ .continueLoop →
        Awake (SpiState.flagged (addJobs r.1 answers.added) tx' rx' interrupts')) := by
  intro r
  obtain ⟨hdequeue, hfree⟩ := hok
  obtain ⟨hbalanced, rfl, hphase⟩ := h
  show ∃ tx' rx' interrupts' pass,
    isrPass spi errorTasks answers (s.flagged tx rx interrupts) =
      (SpiState.flagged (addJobs (drvSpiPolledMasterEBM8BitTasks spi errorTasks answers.queue s).1
        answers.added) tx' rx' interrupts',
        (drvSpiPolledMasterEBM8BitTasks spi errorTasks answers.queue s).2, pass) ∧
    (pass ≠ .continueLoop →
      Awake (SpiState.flagged (addJobs
        (drvSpiPolledMasterEBM8BitTasks spi errorTasks answers.queue s).1 answers.added)
        tx' rx' interrupts'))
  have hjob : (s.flagged tx rx interrupts).drv.currentJob = s.drv.currentJob := rfl
  unfold isrPass drvSpiPolledMasterEBM8BitTasks
  rw [hjob]
  rcases hphase with ⟨done, hjobs, hevents, hcurrent, hport, hbaud⟩ |
    ⟨done, job, sent, taken, hjobs, hevents, hcurrent, hduring, hbaud, hmore⟩
  · have hqueue' : (s.flagged tx rx interrupts).drv.queue = s.drv.queue := rfl
    simp only [hcurrent, hdequeue, Bool.not_true, Bool.false_eq_true, if_false, hqueue']
    cases hqueue : s.drv.queue with
    | nil =>
      refine ⟨false, rx, interrupts, .return0, ?_, fun _ hn => absurd hcurrent hn⟩
      simp only [addJobs, hqueue, List.nil_append]
      rfl
    | cons job queue =>
      rw [hqueue] at hjobs
      have hb := hbalanced job (by rw [hjobs]; simp)
      have hstart := During.start hlaw hport job s.drv.dummyByteValue
      obtain ⟨ints, hmodes⟩ := selectModes_flagged spi job (startJob s.drv job queue) tx rx
        interrupts
      obtain ⟨tx', rx', ints', pass, hpass, hawake⟩ := isrTransfer_polled hlaw hb hfree
        (startJob s.drv job queue) tx rx ints hstart
        (by rw [hb.during_start]; rfl)
      rw [hb.during_start] at hpass hawake
      refine ⟨tx', rx', ints', pass, ?_, hawake⟩
      have hflagged : startJob (s.flagged tx rx interrupts).drv job queue =
        (startJob s.drv job queue).flagged tx rx interrupts := rfl
      simp only
      rw [hflagged, hmodes]
      have hport' : (s.flagged tx rx interrupts).port = s.port := rfl
      rw [hport', hpass]
      rfl
  · have hb := hbalanced job (by rw [hjobs]; simp)
    simp only [hcurrent]
    exact isrTransfer_polled hlaw hb hfree s.drv tx rx interrupts hduring hcurrent

end Pass

/-! ## The machine -/

/-- What happens to the driver: its interrupt fires, time passes, or a client adds a job. -/
inductive IsrCall where
  | interrupt (answers : List IsrAnswers)
  | wait
  | add (job : { job : DrvSpiJob // job.Balanced })

/-- The jobs that are added in a call. -/
def IsrCall.jobs : IsrCall → List DrvSpiJob
  | .interrupt answers => answers.flatMap (·.added)
  | .wait => []
  | .add job => [job.val]

section Machine

variable {η σ : Type} (spi : SpiModule η) (errorTasks : ErrorTasks η)

def isrStep (s : SpiState η) : IsrCall → SpiState η × List SpiEvent
  | .interrupt answers => (drvSpiISRMasterEBM8BitTasks spi errorTasks answers s).getD (s, [])
  | .wait => (⟨s.drv, spi.wait s.port⟩, [])
  | .add job => (addJob s job, [])

def isrMachine : Machine (SpiState η) IsrCall SpiEvent := ⟨isrStep spi errorTasks⟩

/-- The functions of the queue succeed, the jobs that are added are balanced, and the loop takes just the
passes that are answered. -/
def IsrCall.Runs (s : SpiState η) : IsrCall → Prop
  | .interrupt answers =>
    (∀ a ∈ answers, (Call.tasks a.queue).Succeeds ∧ ∀ job ∈ a.added, job.Balanced) ∧
      (drvSpiISRMasterEBM8BitTasks spi errorTasks answers s).isSome
  | _ => True

end Machine

section Run

variable {η σ : Type} {spi : SpiModule η} {errorTasks : ErrorTasks η} {P : Peer σ UInt8 UInt8}
  {view : η → Link σ UInt8 UInt8} {p : σ} {dummyByteValue : UInt16} {baudRate : Nat}
  {jobs : List DrvSpiJob} {events : List SpiEvent} {s : SpiState η}

/-- The polled calls for one pass. -/
def passCalls (answers : IsrAnswers) (h : ∀ job ∈ answers.added, job.Balanced) : List Call :=
  .tasks answers.queue :: answers.added.pmap (fun job hj => .add ⟨job, hj⟩) h

theorem run_adds (spi : SpiModule η) (errorTasks : ErrorTasks η) (s : SpiState η)
    {added : List DrvSpiJob} (h : ∀ job ∈ added, job.Balanced) :
    let calls := added.pmap (fun job hj => Call.add ⟨job, hj⟩) h
    (machine spi errorTasks).run s calls = addJobs s added ∧
      (machine spi errorTasks).trace s calls = [] ∧ Spi.added calls = added ∧
      ∀ call ∈ calls, call.Succeeds := by
  induction added generalizing s with
  | nil => simp [addJobs, Spi.added]
  | cons job added ih =>
    obtain ⟨hrun, htrace, hadded, hok⟩ := ih (addJob s job) fun j hj => h j (List.mem_cons_of_mem _ hj)
    refine ⟨?_, htrace, ?_, ?_⟩
    · refine hrun.trans ?_
      simp only [addJobs, addJob, List.append_assoc, List.singleton_append]
    · simp only [Spi.added, List.pmap_cons, List.flatMap_cons] at hadded ⊢
      rw [hadded]
      rfl
    · intro call hc
      rcases List.mem_cons.mp hc with rfl | hc
      · trivial
      · exact hok call hc

/-- **The loop** is some calls of the polled driver. -/
theorem isrLoop_polled (hlaw : spi.Lawful errorTasks P view) {answers : List IsrAnswers}
    (hok : ∀ a ∈ answers, (Call.tasks a.queue).Succeeds ∧ ∀ job ∈ a.added, job.Balanced)
    (h : Serving spi P view p baudRate dummyByteValue jobs events s) {tx rx : Bool}
    {interrupts : SpiInterrupts} {r : SpiState η × List SpiEvent}
    (hr : isrLoop spi errorTasks (s.flagged tx rx interrupts) answers = some r) :
    ∃ calls, (∀ call ∈ calls, call.Succeeds) ∧ added calls = answers.flatMap (·.added) ∧
      (machine spi errorTasks).trace s calls = r.2 ∧
      (∃ tx' rx' interrupts',
        r.1 = ((machine spi errorTasks).run s calls).flagged tx' rx' interrupts') ∧ Awake r.1 := by
  induction answers generalizing s jobs events tx rx interrupts r with
  | nil => cases hr
  | cons a answers ih =>
    obtain ⟨hqueue, hbalanced⟩ := hok a (List.mem_cons_self ..)
    obtain ⟨tx₁, rx₁, ints₁, pass, hpass, hawake⟩ :=
      isrPass_polled hlaw hqueue h tx rx interrupts
    obtain ⟨hrun, htrace, hadded, hadds⟩ := run_adds spi errorTasks
      (step spi errorTasks s (.tasks a.queue)).1 hbalanced
    have hfirst : ∀ call ∈ passCalls a hbalanced, call.Succeeds := by
      intro call hc
      rcases List.mem_cons.mp hc with rfl | hc
      · exact hqueue
      · exact hadds call hc
    have hrun₁ : (machine spi errorTasks).run s (passCalls a hbalanced) =
      addJobs (step spi errorTasks s (.tasks a.queue)).1 a.added := hrun
    have htrace₁ : (machine spi errorTasks).trace s (passCalls a hbalanced) =
        (step spi errorTasks s (.tasks a.queue)).2 := by
      rw [passCalls, Machine.trace_cons]
      refine Eq.trans (congrArg _ htrace) ?_
      exact List.append_nil _
    have hadded₁ : added (passCalls a hbalanced) = a.added := hadded
    unfold isrLoop at hr
    rw [hpass] at hr
    by_cases hcontinue : pass = .continueLoop
    · subst hcontinue
      obtain ⟨r', hr', rfl⟩ := Option.map_eq_some_iff.mp hr
      have hnext := serving_calls hlaw hfirst h
      rw [hrun₁] at hnext
      obtain ⟨calls, hcalls, hadd, htr, ⟨tx', rx', ints', hst⟩, haw⟩ :=
        ih (fun b hb => hok b (List.mem_cons_of_mem _ hb)) hnext hr'
      refine ⟨passCalls a hbalanced ++ calls,
        fun call hc => (List.mem_append.mp hc).elim (hfirst call) (hcalls call), ?_, ?_,
        ⟨tx', rx', ints', ?_⟩, haw⟩
      · rw [added, List.flatMap_append, List.flatMap_cons]
        exact congrArg₂ (· ++ ·) hadded₁ hadd
      · rw [Machine.trace_append, htrace₁, hrun₁, htr]
      · rw [Machine.run_append, hrun₁]
        exact hst
    · have hend : (if answers = [] then
          some (SpiState.flagged (addJobs (step spi errorTasks s (.tasks a.queue)).1 a.added)
            tx₁ rx₁ ints₁, (step spi errorTasks s (.tasks a.queue)).2) else none) = some r := by
        cases pass with
        | continueLoop => exact absurd rfl hcontinue
        | breakLoop => exact hr
        | return0 => exact hr
      split at hend
      · rename_i hnil
        obtain rfl := Option.some.inj hend
        refine ⟨passCalls a hbalanced, hfirst, ?_, htrace₁, ⟨tx₁, rx₁, ints₁, ?_⟩,
          hawake hcontinue⟩
        · rw [hadded₁, hnil]
          simp
        · rw [hrun₁]
      · cases hend

/-- The driver in its interrupt beside a polled one that has come as far. -/
structure Beside (spi : SpiModule η) (P : Peer σ UInt8 UInt8) (view : η → Link σ UInt8 UInt8)
    (s t : SpiState η) : Prop where
  serving : ∃ p baudRate dummyByteValue jobs events,
    Serving spi P view p baudRate dummyByteValue jobs events t
  flagged : ∃ tx rx interrupts, s = t.flagged tx rx interrupts
  awake : Awake s

theorem isr_step (hlaw : spi.Lawful errorTasks P view) (s t : SpiState η) (call : IsrCall)
    (hruns : call.Runs spi errorTasks s) (h : Beside spi P view s t) :
    ∃ calls, (∀ c ∈ calls, c.Succeeds) ∧ calls.flatMap (·.jobs) = call.jobs ∧
      (machine spi errorTasks).trace t calls = (isrStep spi errorTasks s call).2 ∧
      Beside spi P view (isrStep spi errorTasks s call).1 ((machine spi errorTasks).run t calls) := by
  obtain ⟨⟨p, baudRate, dummyByteValue, jobs, events, hserving⟩, ⟨tx, rx, ints, rfl⟩, hawake⟩ := h
  cases call with
  | wait =>
    have hnext := serving_step hlaw .wait trivial hserving
    exact ⟨[.wait], by simp [Call.Succeeds], rfl, rfl, ⟨_, _, _, _, _, hnext⟩, ⟨tx, rx, ints, rfl⟩,
      hawake⟩
  | add job =>
    have hnext := serving_step hlaw (.add job) trivial hserving
    exact ⟨[.add job], by simp [Call.Succeeds], rfl, rfl, ⟨_, _, _, _, _, hnext⟩, ⟨tx, rx, ints, rfl⟩,
      hawake⟩
  | interrupt answers =>
    obtain ⟨hok, hends⟩ := hruns
    obtain ⟨r, hr⟩ := Option.isSome_iff_exists.mp hends
    have hstep : isrStep spi errorTasks (t.flagged tx rx ints) (.interrupt answers) = r := by
      show (drvSpiISRMasterEBM8BitTasks spi errorTasks answers (t.flagged tx rx ints)).getD _ = r
      rw [hr]
      rfl
    obtain ⟨calls, hcalls, hadded, htrace, hflagged, hawake'⟩ := isrLoop_polled hlaw hok hserving hr
    rw [hstep]
    exact ⟨calls, hcalls, hadded, htrace, ⟨_, _, _, _, _, serving_calls hlaw hcalls hserving⟩,
      hflagged, hawake'⟩

/-- **The interrupt refines the polled driver.** However the interrupts, the clock of the module and the
clients that add jobs are interleaved, there are calls of the polled driver with the same jobs, the
same calls of the clients and the same end but for the interrupts; so the jobs are served one by one.
Whenever the interrupt has returned, the interrupts of a job in progress are on. -/
theorem isr_refines_polled (hlaw : spi.Lawful errorTasks P view) (hfresh : Fresh view s)
    {calls : List IsrCall}
    (hruns : (isrMachine spi errorTasks).Along (IsrCall.Runs spi errorTasks) s calls) :
    let s' := (isrMachine spi errorTasks).run s calls
    Awake s' ∧ ∃ polled, (∀ call ∈ polled, call.Succeeds) ∧
      added polled = calls.flatMap (·.jobs) ∧
      (machine spi errorTasks).trace s polled = (isrMachine spi errorTasks).trace s calls ∧
      ∃ tx rx interrupts, s' = ((machine spi errorTasks).run s polled).flagged tx rx interrupts := by
  intro s'
  have hstart : Beside spi P view s s :=
    ⟨⟨_, _, _, _, _, hfresh.serving⟩, ⟨_, _, _, rfl⟩, fun hn => absurd hfresh.currentJob hn⟩
  obtain ⟨polled, hok, hadded, htrace, -, hflagged, hawake⟩ :=
    Machine.exists_run_of_steps (isr_step hlaw) hruns hstart
  exact ⟨hawake, polled, hok, hadded, htrace, hflagged⟩

end Run

/-- Two passes of the interrupt: the bytes have come back before the second. -/
def isrCalls : List IsrCall :=
  [.add exchangeTwo, .interrupt [⟨⟨true, true⟩, [], false⟩], .wait, .wait,
    .interrupt [⟨⟨true, true⟩, [], false⟩]]

theorem isr_refines_polled_echo :
    Awake ((isrMachine echoModule fun drv t => (drv, t)).run freshEcho isrCalls) :=
  have hruns : (isrMachine echoModule fun drv t => (drv, t)).Along
      (IsrCall.Runs echoModule fun drv t => (drv, t)) freshEcho isrCalls :=
    ⟨trivial, ⟨by simp [Call.Succeeds], rfl⟩, trivial, trivial, ⟨by simp [Call.Succeeds], rfl⟩, trivial⟩
  (isr_refines_polled echoModule_lawful ⟨rfl, rfl, rfl⟩ hruns).1

end Spi

end NixieTracker
