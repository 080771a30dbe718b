import NixieTracker.Spi.Transfer

/-!
# The polled SPI driver serves one job after the other

Jobs are added at any time, the tasks are called at any time, and the clock of the module runs at its
own pace. What the clients see is as if each job exchanged its whole frame at once when its turn comes.

* `serve`: the calls of a driver that does so.
* `polledTransfer_during`: one call for the current job.
* `Serving`: the invariant of all runs; `serving_step` is its step.
* `jobs_served_in_order`: the calls of every run.
-/

namespace NixieTracker

open Lib Lib.Link

namespace Spi

/-- A job at its end, with the bytes that the peer gave for its frame. -/
def finished (job : DrvSpiJob) (replies : List UInt8) : DrvSpiJob :=
  { job.during job.total replies with status := .complete }

section Serve

variable {σ : Type} (P : Peer σ UInt8 UInt8) (dummyByteValue : UInt16)

/-- The calls at the end of a job that exchanges its frame with a peer in the state `s`. -/
def finish (s : σ) (job : DrvSpiJob) : List SpiEvent :=
  let job := finished job (P.replies s (job.frame dummyByteValue))
  endEvents job ++ [.freed job]

/-- The calls for the jobs, each of which exchanges its whole frame at once. -/
def serve (s : σ) (baudRate : Nat) : List DrvSpiJob → List SpiEvent
  | [] => []
  | job :: jobs =>
    startEvents baudRate job ++ finish P dummyByteValue s job ++
      serve (P.after s (job.frame dummyByteValue)) job.client.baudRate jobs

/-- The peer after the jobs. -/
def peerAfter (s : σ) (jobs : List DrvSpiJob) : σ :=
  jobs.foldl (fun s job => P.after s (job.frame dummyByteValue)) s

/-- The baud rate after the jobs. -/
def baudAfter (baudRate : Nat) (jobs : List DrvSpiJob) : Nat :=
  jobs.foldl (fun _ job => job.client.baudRate) baudRate

theorem serve_append (s : σ) (baudRate : Nat) (jobs jobs' : List DrvSpiJob) :
    serve P dummyByteValue s baudRate (jobs ++ jobs') =
      serve P dummyByteValue s baudRate jobs ++
        serve P dummyByteValue (peerAfter P dummyByteValue s jobs) (baudAfter baudRate jobs) jobs' := by
  induction jobs generalizing s baudRate with
  | nil => rfl
  | cons job jobs ih =>
    rw [List.cons_append, serve, ih, serve, List.append_assoc (_ ++ _)]
    rfl

theorem peerAfter_append (s : σ) (jobs jobs' : List DrvSpiJob) :
    peerAfter P dummyByteValue s (jobs ++ jobs') =
      peerAfter P dummyByteValue (peerAfter P dummyByteValue s jobs) jobs' := List.foldl_append

theorem baudAfter_append (baudRate : Nat) (jobs jobs' : List DrvSpiJob) :
    baudAfter baudRate (jobs ++ jobs') = baudAfter (baudAfter baudRate jobs) jobs' :=
  List.foldl_append

end Serve

/-! ## The machine -/

/-- What happens to the driver: its tasks are called, time passes, or a client adds a job. -/
inductive Call where
  | tasks (answers : QueueAnswers)
  | wait
  | add (job : { job : DrvSpiJob // job.Balanced })

/-- The jobs that a call adds. -/
def Call.jobs : Call → List DrvSpiJob
  | .add job => [job.val]
  | _ => []

/-- The functions of the queue succeed. -/
def Call.Succeeds : Call → Prop
  | .tasks answers => answers.dequeue = true ∧ answers.freeElement = true
  | _ => True

/-- `DRV_SPI_BufferAdd…`: the job goes to the end of the queue. -/
def addJob {η : Type} (s : SpiState η) (job : DrvSpiJob) : SpiState η :=
  ⟨{ s.drv with queue := s.drv.queue ++ [job] }, s.port⟩

section Machine

variable {η σ : Type} (spi : SpiModule η) (errorTasks : ErrorTasks η)

def step (s : SpiState η) : Call → SpiState η × List SpiEvent
  | .tasks answers => drvSpiPolledMasterEBM8BitTasks spi errorTasks answers s
  | .wait => (⟨s.drv, spi.wait s.port⟩, [])
  | .add job => (addJob s job, [])

def machine : Machine (SpiState η) Call SpiEvent := ⟨step spi errorTasks⟩

end Machine

/-- A driver before its first job, and a module on whose wire nothing is. -/
structure Fresh {η σ : Type} (view : η → Link σ UInt8 UInt8) (s : SpiState η) : Prop where
  currentJob : s.drv.currentJob = none
  queue : s.drv.queue = []
  port : (view s.port).inFlight = 0

section Run

variable {η σ : Type} {spi : SpiModule η} {errorTasks : ErrorTasks η} {P : Peer σ UInt8 UInt8}
  {view : η → Link σ UInt8 UInt8} {p : σ} {job : DrvSpiJob} {dummyByteValue : UInt16} {sent : Nat}
  {taken : List UInt8}

/-- **The sub-tasks of one call** fill the window and read everything that has come. -/
theorem subTasks_during (hlaw : spi.Lawful errorTasks P view) (hb : job.Balanced) {t : Transfer η}
    (h : During spi P view p dummyByteValue job sent taken t) :
    ∃ t₁ t₂ t₃ units,
      (if t.job.leftToTx ≠ 0 then send8Bit spi dummyByteValue t else t) = t₁ ∧
      (∀ drv, errorTasks drv t₁ = (drv, t₂)) ∧
      (if t₂.job.leftToRx ≠ 0 then receive8Bit spi t₂ else t₂) = t₃ ∧
      (view t.port).back.length ≤ units.length ∧
      During spi P view p dummyByteValue job
        (sent + min (job.total - sent) (spi.txFifoSize - t.symbolsInProgress)) (taken ++ units) t₃ := by
  obtain ⟨pass, hpass⟩ := hlaw.errorTasks
  have hsent := h.sent_le
  have htaken := h.taken_le
  -- With nothing to send the send sub-task is not called.
  obtain ⟨t₁, ht₁, h₁, hback₁⟩ : ∃ t₁,
      (if t.job.leftToTx ≠ 0 then send8Bit spi dummyByteValue t else t) = t₁ ∧
      During spi P view p dummyByteValue job
        (sent + min (job.total - sent) (spi.txFifoSize - t.symbolsInProgress)) taken t₁ ∧
      (view t.port).back.length ≤ (view t₁.port).back.length := by
    refine ⟨_, rfl, ?_⟩
    rw [h.job_eq, hb.leftToTx_during hsent]
    by_cases hleft : job.total - sent = 0
    · rw [if_neg (by omega), hleft, Nat.zero_min, Nat.add_zero]
      exact ⟨h, Nat.le_refl _⟩
    · rw [if_pos hleft]
      exact send8Bit_during hlaw hb h
  -- The error tasks let time pass.
  obtain ⟨hmoves, herror⟩ := hpass t₁.port (by rw [h₁.inFlight hb]; exact h₁.room)
  have h₂ := h₁.moves hmoves
  have hback₂ := Nat.le_trans hback₁ hmoves.back_le
  have hrx : t₁.job.leftToRx = job.total - taken.length := by
    rw [h₁.job_eq]
    exact hb.leftToRx_during htaken
  suffices ∃ units, (view t.port).back.length ≤ units.length ∧
      During spi P view p dummyByteValue job
        (sent + min (job.total - sent) (spi.txFifoSize - t.symbolsInProgress)) (taken ++ units)
        (if t₁.job.leftToRx ≠ 0 then receive8Bit spi { t₁ with port := pass t₁.port }
        else { t₁ with port := pass t₁.port }) by
    obtain ⟨units, hunits, h₃⟩ := this
    exact ⟨t₁, _, _, units, ht₁, fun drv => herror drv t₁ rfl, rfl, hunits, h₃⟩
  rw [hrx]
  by_cases hleft : job.total - taken.length = 0
  · have hcount := h₂.count
    have hle := h₂.back_le hb
    have hsent₂ := h₂.sent_le
    simp only at hcount hle
    rw [if_neg (by omega)]
    exact ⟨[], by rw [List.length_nil]; omega, by rw [List.append_nil]; exact h₂⟩
  · obtain ⟨units, hunits, h₃⟩ := receive8Bit_during hlaw hb h₂
    rw [if_pos hleft]
    exact ⟨units, Nat.le_trans hback₂ hunits, h₃⟩

/-- One call for the current job. -/
theorem polledTransfer_during (hlaw : spi.Lawful errorTasks P view) (hb : job.Balanced)
    (answers : QueueAnswers) {drv : DrvSpi} {port : η} (hdummy : drv.dummyByteValue = dummyByteValue)
    (h : During spi P view p dummyByteValue job sent taken
      ⟨job.during sent taken, drv.symbolsInProgress, port⟩) :
    ∃ units t, (view port).back.length ≤ units.length ∧
      During spi P view p dummyByteValue job
        (sent + min (job.total - sent) (spi.txFifoSize - drv.symbolsInProgress)) (taken ++ units) t ∧
      polledTransfer spi errorTasks answers drv (job.during sent taken) port =
        if (taken ++ units).length = job.total then endJob answers.freeElement drv t
        else (⟨drv.store t, t.port⟩, []) := by
  obtain ⟨t₁, t₂, t₃, units, ht₁, herror, ht₃, hunits, h₃⟩ := subTasks_during hlaw hb h
  refine ⟨units, t₃, hunits, h₃, ?_⟩
  have htaken := h₃.taken_le
  unfold polledTransfer drvSpiMasterEBMSend8BitPolled drvSpiMasterEBMReceive8BitPolled
  simp only [hdummy, ht₁, herror, ht₃]
  rw [h₃.job_eq, hb.leftToRx_during htaken]
  by_cases hend : (taken ++ units).length = job.total
  · rw [if_pos hend, if_pos (by omega)]
  · rw [if_neg hend, if_neg (by omega)]

/-! ## The invariant -/

/-- A driver that serves the jobs `jobs` in order, after the calls `events`. The peer was in the state
`p` and the baud rate was `baudRate` before the first one. -/
inductive Phase (spi : SpiModule η) (P : Peer σ UInt8 UInt8) (view : η → Link σ UInt8 UInt8) (p : σ)
    (baudRate : Nat) (jobs : List DrvSpiJob) (events : List SpiEvent) (s : SpiState η) : Prop
  | idle (done : List DrvSpiJob) (hjobs : jobs = done ++ s.drv.queue)
      (hevents : events = serve P s.drv.dummyByteValue p baudRate done)
      (hcurrent : s.drv.currentJob = none)
      (hport : view s.port = quiet (peerAfter P s.drv.dummyByteValue p done))
      (hbaud : s.drv.currentBaudRate = baudAfter baudRate done)
  | busy (done : List DrvSpiJob) (job : DrvSpiJob) (sent : Nat) (taken : List UInt8)
      (hjobs : jobs = done ++ job :: s.drv.queue)
      (hevents : events = serve P s.drv.dummyByteValue p baudRate done ++
        startEvents (baudAfter baudRate done) job)
      (hcurrent : s.drv.currentJob = some (job.during sent taken))
      (hduring : During spi P view (peerAfter P s.drv.dummyByteValue p done) s.drv.dummyByteValue job
        sent taken ⟨job.during sent taken, s.drv.symbolsInProgress, s.port⟩)
      (hbaud : s.drv.currentBaudRate = job.client.baudRate)
      (hmore : taken.length < job.total)

/-- The invariant of the driver. -/
structure Serving (spi : SpiModule η) (P : Peer σ UInt8 UInt8) (view : η → Link σ UInt8 UInt8) (p : σ)
    (baudRate : Nat) (dummyByteValue : UInt16) (jobs : List DrvSpiJob) (events : List SpiEvent)
    (s : SpiState η) : Prop where
  balanced : ∀ job ∈ jobs, job.Balanced
  dummy : s.drv.dummyByteValue = dummyByteValue
  phase : Phase spi P view p baudRate jobs events s

variable {baudRate : Nat} {jobs : List DrvSpiJob} {events : List SpiEvent} {s : SpiState η}

/-- The end of a transfer of the whole frame. -/
theorem endJob_finish (hb : job.Balanced) (drv : DrvSpi) {t : Transfer η} {p : σ}
    (h : During spi P view p dummyByteValue job sent taken t) (hend : taken.length = job.total) :
    (endJob true drv t).2 = finish P dummyByteValue p job ∧
      (endJob true drv t).1.drv =
        { drv with currentJob := none, symbolsInProgress := t.symbolsInProgress } ∧
      view (endJob true drv t).1.port = quiet (P.after p (job.frame dummyByteValue)) := by
  have hcount := h.count
  have hsent := h.sent_le
  obtain rfl : sent = job.total := by omega
  have hcarries := h.carries
  have hlen := hb.length_frame dummyByteValue
  rw [List.take_of_length_le (by omega)] at hcarries
  obtain ⟨htaken, hport⟩ := hcarries.taken_eq (by omega)
  refine ⟨?_, rfl, hport⟩
  unfold endJob finish finished
  rw [h.job_eq, htaken]
  rfl

/-- The beginning of a job. -/
theorem During.start (hlaw : spi.Lawful errorTasks P view) {port : η} {p : σ}
    (hport : view port = quiet p) (job : DrvSpiJob) (dummyByteValue : UInt16) :
    During spi P view p dummyByteValue job 0 [] ⟨job.during 0 [], 0, spi.bufferClear port⟩ := by
  have hclear := hlaw.bufferClear port (by rw [hport]; rfl)
  refine ⟨rfl, ?_, Nat.zero_le _, rfl, Nat.zero_le _⟩
  rw [hclear, hport]
  exact .quiet _

/-- The transfer of one call keeps the invariant. -/
theorem transfer_phase (hlaw : spi.Lawful errorTasks P view) (hb : job.Balanced)
    {answers : QueueAnswers} (hfree : answers.freeElement = true) (drv : DrvSpi) {port : η}
    {done : List DrvSpiJob}
    (h : During spi P view (peerAfter P drv.dummyByteValue p done) drv.dummyByteValue job sent taken
      ⟨job.during sent taken, drv.symbolsInProgress, port⟩)
    (hcurrent : drv.currentJob = some (job.during sent taken))
    (hbaud : drv.currentBaudRate = job.client.baudRate)
    (hjobs : jobs = done ++ job :: drv.queue)
    (hevents : events = serve P drv.dummyByteValue p baudRate done ++
      startEvents (baudAfter baudRate done) job) :
    let r := polledTransfer spi errorTasks answers drv (job.during sent taken) port
    Phase spi P view p baudRate jobs (events ++ r.2) r.1 ∧
      r.1.drv.dummyByteValue = drv.dummyByteValue := by
  intro r
  obtain ⟨units, t, -, hnext, hr⟩ := polledTransfer_during hlaw hb answers rfl h
  rw [hfree] at hr
  generalize sent + min (job.total - sent) (spi.txFifoSize - drv.symbolsInProgress) = sent' at hnext
  show Phase spi P view p baudRate jobs (events ++
      (polledTransfer spi errorTasks answers drv (job.during sent taken) port).2)
      (polledTransfer spi errorTasks answers drv (job.during sent taken) port).1 ∧ _
  rw [show r = _ from hr, hr]
  split
  · rename_i hend
    obtain ⟨hfinish, hdrv, hport⟩ := endJob_finish hb drv hnext hend
    refine ⟨.idle (done ++ [job]) ?_ ?_ ?_ ?_ ?_, by rw [hdrv]⟩
    · rw [hdrv, hjobs, List.append_assoc]
      rfl
    · rw [hdrv, hfinish, hevents, serve_append, List.append_assoc]
      simp only [serve, List.append_nil]
    · rw [hdrv]
    · rw [hdrv, hport, peerAfter_append]
      rfl
    · rw [hdrv, baudAfter_append]
      exact hbaud
  · rename_i hend
    have hjob := hnext.job_eq
    refine ⟨.busy done job sent' (taken ++ units) hjobs ?_ ?_ ?_ hbaud ?_, rfl⟩
    · rw [hevents]
      exact List.append_nil _
    · simp only [DrvSpi.store, hcurrent, hjob, Option.map_some]
    · simp only [DrvSpi.store]
      rw [← hjob]
      exact hnext
    · have hle := hnext.taken_le
      omega

theorem serving_step (hlaw : spi.Lawful errorTasks P view) (call : Call) (hok : call.Succeeds)
    (h : Serving spi P view p baudRate dummyByteValue jobs events s) :
    Serving spi P view p baudRate dummyByteValue (jobs ++ call.jobs)
      (events ++ (step spi errorTasks s call).2) (step spi errorTasks s call).1 := by
  obtain ⟨hbalanced, rfl, hphase⟩ := h
  cases call with
  | wait =>
    refine ⟨by simpa [Call.jobs] using hbalanced, rfl, ?_⟩
    simp only [Call.jobs, List.append_nil, step]
    rcases hphase with ⟨done, hjobs, hevents, hcurrent, hport, hbaud⟩ |
      ⟨done, job, sent, taken, hjobs, hevents, hcurrent, hduring, hbaud, hmore⟩
    · refine .idle done hjobs hevents hcurrent ?_ hbaud
      obtain ⟨n, hn⟩ := hlaw.wait s.port (by rw [hport]; exact Nat.zero_le _)
      rw [hn, hport, move_quiet]
    · have hb := hbalanced job (by rw [hjobs]; simp)
      have hmoves := hlaw.wait s.port (by rw [hduring.inFlight hb]; exact hduring.room)
      exact .busy done job sent taken hjobs hevents hcurrent (hduring.moves hmoves) hbaud hmore
  | add job =>
    refine ⟨fun j hj => ?_, rfl, ?_⟩
    · rcases List.mem_append.mp hj with hj | hj
      · exact hbalanced j hj
      · obtain rfl := List.mem_singleton.mp hj
        exact job.property
    · simp only [Call.jobs, List.append_nil, step, addJob]
      rcases hphase with ⟨done, hjobs, hevents, hcurrent, hport, hbaud⟩ |
        ⟨done, current, sent, taken, hjobs, hevents, hcurrent, hduring, hbaud, hmore⟩
      · exact .idle done (by rw [hjobs, List.append_assoc]) hevents hcurrent hport hbaud
      · exact .busy done current sent taken (by rw [hjobs, List.append_assoc]; rfl) hevents hcurrent
          hduring hbaud hmore
  | tasks answers =>
    obtain ⟨hdequeue, hfree⟩ := hok
    simp only [Call.jobs, List.append_nil, step]
    rcases hphase with ⟨done, hjobs, hevents, hcurrent, hport, hbaud⟩ |
      ⟨done, job, sent, taken, hjobs, hevents, hcurrent, hduring, hbaud, hmore⟩
    · unfold drvSpiPolledMasterEBM8BitTasks
      rw [hcurrent]
      simp only [hdequeue, Bool.not_true, Bool.false_eq_true, if_false]
      cases hqueue : s.drv.queue with
      | nil =>
        refine ⟨hbalanced, rfl, .idle done hjobs ?_ hcurrent hport hbaud⟩
        rw [hevents]
        exact List.append_nil _
      | cons job queue =>
        rw [hqueue] at hjobs
        have hb := hbalanced job (by rw [hjobs]; simp)
        have hstart := During.start hlaw hport job s.drv.dummyByteValue
        obtain ⟨hnext, hdummy⟩ := transfer_phase hlaw hb hfree (startJob s.drv job queue) hstart
          (by rw [hb.during_start]; rfl) rfl hjobs
          (Eq.refl (serve P s.drv.dummyByteValue p baudRate done ++
            startEvents (baudAfter baudRate done) job))
        rw [hb.during_start] at hnext hdummy
        refine ⟨hbalanced, hdummy, ?_⟩
        rw [hevents, ← List.append_assoc, hbaud]
        exact hnext
    · have hb := hbalanced job (by rw [hjobs]; simp)
      unfold drvSpiPolledMasterEBM8BitTasks
      rw [hcurrent]
      obtain ⟨hnext, hdummy⟩ := transfer_phase hlaw hb hfree s.drv hduring hcurrent hbaud hjobs
        hevents
      exact ⟨hbalanced, hdummy, hnext⟩

/-! ## Every run -/

/-- The jobs that are added in a run. -/
def added (calls : List Call) : List DrvSpiJob := calls.flatMap (·.jobs)

theorem serving_calls (hlaw : spi.Lawful errorTasks P view) {calls : List Call}
    (hok : ∀ call ∈ calls, call.Succeeds)
    (h : Serving spi P view p baudRate dummyByteValue jobs events s) :
    Serving spi P view p baudRate dummyByteValue (jobs ++ added calls)
      (events ++ (machine spi errorTasks).trace s calls) ((machine spi errorTasks).run s calls) := by
  induction calls generalizing jobs events s with
  | nil => simpa [added] using h
  | cons call calls ih =>
    have hfirst := serving_step hlaw call (hok call (List.mem_cons_self ..)) h
    have hrest := ih (fun c hc => hok c (List.mem_cons_of_mem _ hc)) hfirst
    rw [List.append_assoc, List.append_assoc] at hrest
    exact hrest

theorem Fresh.serving (h : Fresh view s) :
    Serving spi P view (view s.port).peer s.drv.currentBaudRate s.drv.dummyByteValue [] [] s := by
  refine ⟨by simp, rfl, .idle [] ?_ rfl h.currentJob ?_ rfl⟩
  · rw [h.queue]
    rfl
  · exact inFlight_eq_zero.mp h.port

theorem serving_run (hlaw : spi.Lawful errorTasks P view) (hfresh : Fresh view s) {calls : List Call}
    (hok : ∀ call ∈ calls, call.Succeeds) :
    Serving spi P view (view s.port).peer s.drv.currentBaudRate s.drv.dummyByteValue (added calls)
      ((machine spi errorTasks).trace s calls) ((machine spi errorTasks).run s calls) :=
  serving_calls hlaw hok hfresh.serving

/-- The count of the driver is the number of bytes in flight, and they fit into the buffers. -/
theorem Serving.window (h : Serving spi P view p baudRate dummyByteValue jobs events s) :
    (view s.port).inFlight ≤ spi.txFifoSize ∧
      (s.drv.currentJob ≠ none → s.drv.symbolsInProgress = (view s.port).inFlight) := by
  rcases h.phase with ⟨done, hjobs, hevents, hcurrent, hport, hbaud⟩ |
    ⟨done, job, sent, taken, hjobs, hevents, hcurrent, hduring, hbaud, hmore⟩
  · refine ⟨?_, fun hn => absurd hcurrent hn⟩
    rw [hport]
    exact Nat.zero_le _
  · have hflight := hduring.inFlight (h.balanced job (by rw [hjobs]; simp))
    simp only at hflight
    exact ⟨by rw [hflight]; exact hduring.room, fun _ => hflight.symm⟩

/-- **The jobs are served one by one.** However the calls of the tasks, the clock of the module and the
clients that add jobs are interleaved, the calls of the driver are those of a driver that exchanges
the whole frame of one job after the other with the peer, in the order in which they were added: the
jobs `done` are freed with the peer's answers in their buffers, the next one has at most begun, the
others wait. No byte is ever lost: what is in flight fits into the buffers, and is what the driver
counts. -/
theorem jobs_served_in_order (hlaw : spi.Lawful errorTasks P view) (hfresh : Fresh view s)
    {calls : List Call} (hok : ∀ call ∈ calls, call.Succeeds) :
    let s' := (machine spi errorTasks).run s calls
    let events := (machine spi errorTasks).trace s calls
    let served := serve P s.drv.dummyByteValue (view s.port).peer s.drv.currentBaudRate
    (∃ done, (s'.drv.currentJob = none ∧ added calls = done ++ s'.drv.queue ∧ events = served done) ∨
      ∃ job sent taken, s'.drv.currentJob = some (job.during sent taken) ∧
        added calls = done ++ job :: s'.drv.queue ∧ taken.length ≤ sent ∧
        taken <+: P.replies (peerAfter P s.drv.dummyByteValue (view s.port).peer done)
          ((job.frame s.drv.dummyByteValue).take sent) ∧
        events = served done ++ startEvents (baudAfter s.drv.currentBaudRate done) job) ∧
    (view s'.port).inFlight ≤ spi.txFifoSize ∧
    (s'.drv.currentJob ≠ none → s'.drv.symbolsInProgress = (view s'.port).inFlight) := by
  intro s' events served
  have h := serving_run hlaw hfresh hok
  have hdummy : s'.drv.dummyByteValue = s.drv.dummyByteValue := h.dummy
  refine ⟨?_, h.window⟩
  rcases h.phase with ⟨done, hjobs, hevents, hcurrent, -, -⟩ |
    ⟨done, job, sent, taken, hjobs, hevents, hcurrent, hduring, -, -⟩
  · rw [hdummy] at hevents
    exact ⟨done, .inl ⟨hcurrent, hjobs, hevents⟩⟩
  · rw [hdummy] at hevents hduring
    have hcount := hduring.count
    exact ⟨done, .inr ⟨job, sent, taken, hcurrent, hjobs, by omega, hduring.carries.taken_prefix,
      hevents⟩⟩

end Run

/-! ## A module that echoes -/

/-- A peer that sends back what it gets. -/
def echo : Peer Unit UInt8 UInt8 := ⟨fun _ x => x, fun s _ => s⟩

/-- A module with buffers of 16 bytes and `echo` behind it: one byte goes over the wire while the driver
waits. -/
def echoModule : SpiModule (Link Unit UInt8 UInt8) where
  txFifoSize := 16
  rxFifoSize := 16
  rxHwMark := 8
  transmitCount l := (l.out.length, l)
  receiveCount l := (l.back.length, l)
  bufferWrite l x := l.write x
  bufferRead l := (l.back.headD 0, { l with back := l.back.tail })
  bufferClear l := l
  wait l := l.move echo 1

theorem echoModule_lawful : echoModule.Lawful (fun drv t => (drv, t)) echo id where
  size_pos := by decide
  size_lt := by decide
  transmitCount l _ := ⟨Nat.le_refl _, .refl l⟩
  receiveCount l _ := ⟨.refl l, Nat.le_refl _, Nat.le_refl _⟩
  bufferWrite l x _ := .refl (l.write x)
  bufferRead l y rest _ h := by
    have hl : l.back = y :: rest := h
    simp only [echoModule, hl]
    exact ⟨rfl, .refl _⟩
  bufferClear _ _ := rfl
  wait l _ := ⟨1, rfl⟩
  errorTasks := ⟨id, fun h _ => ⟨.refl h, by rintro drv t rfl; rfl⟩⟩

/-- Two bytes are sent, and two received into a buffer of three; the client wants to be called. -/
def exchangeTwo : { job : DrvSpiJob // job.Balanced } :=
  ⟨⟨⟨1000, false, false⟩, [1, 2], [0, 0, 7], 2, 0, 0, 2, 0, 0, .pending, true, 0⟩,
    by constructor <;> decide⟩

def freshEcho : SpiState (Link Unit UInt8 UInt8) :=
  ⟨⟨none, [], 0, 0xff, 1000, false, false, ⟨false, false, false, .completelyEmpty, .notEmpty⟩⟩,
    quiet ()⟩

/-- The bytes come back one at a time. -/
def exchangeCalls : List Call :=
  [.add exchangeTwo, .tasks ⟨true, true⟩, .wait, .tasks ⟨true, true⟩, .wait, .tasks ⟨true, true⟩]

theorem jobs_served_in_order_echo :
    ((machine echoModule fun drv t => (drv, t)).run freshEcho exchangeCalls).port.inFlight ≤ 16 :=
  (jobs_served_in_order (s := freshEcho) echoModule_lawful ⟨rfl, rfl, rfl⟩
    (show ∀ call ∈ exchangeCalls, call.Succeeds by simp [exchangeCalls, Call.Succeeds])).2.1

example : ((machine echoModule fun drv t => (drv, t)).trace freshEcho exchangeCalls).map
    (fun | .completeCB job | .freed job => job.rxBuffer | _ => []) = [[1, 2, 7], [1, 2, 7]] := by
  decide

end Spi

end NixieTracker
