import Mathlib.Algebra.GroupWithZero.Nat
import NixieTracker.Spi.Runs

/-!
# The polled SPI driver finishes its jobs

If the wire has caught up whenever the tasks are called, each call either frees the current job or comes
closer to it. `callsFor` bounds the calls for a job: a call fills the window that the calls before it
emptied, so two calls move at least one window of bytes.

* `Ticked`: what a call does to the bounds of the jobs; `freed_of_ticks` is the run of it.
* `tasks_ticked`: a call of the tasks.
* `jobs_served_in_time`: the jobs of every run.
-/

namespace NixieTracker

open Lib Lib.Link

namespace Spi

/-- A bound of the calls for a job with `left` bytes to send and `inFlight` in flight, with a window of
`size` bytes. -/
def callsFor (size left inFlight : Nat) : Nat :=
  if left = 0 then 1 else (2 * left + inFlight) / size + 2

/-- The bounds for the current job and the waiting ones. -/
def costs {η : Type} (spi : SpiModule η) (s : SpiState η) : List Nat :=
  (s.drv.currentJob.toList.map fun job =>
      callsFor spi.txFifoSize job.leftToTx s.drv.symbolsInProgress) ++
    s.drv.queue.map fun job => callsFor spi.txFifoSize job.leftToTx 0

def freed (events : List SpiEvent) : Nat :=
  events.countP fun
    | .freed _ => true
    | _ => false

/-- A call lowers the first bound or removes it, and frees that job then. -/
inductive Ticked : List Nat → Nat → List Nat → Prop
  | idle : Ticked [] 0 []
  | lower {c c' : Nat} (cs : List Nat) (h : c' < c) : Ticked (c :: cs) 0 (c' :: cs)
  | served {c : Nat} (cs : List Nat) (h : 0 < c) : Ticked (c :: cs) 1 cs

/-- After a call the first `k` bounds of before are lower by one, or one of them is gone. -/
theorem Ticked.take_sum {cs cs' : List Nat} {n : Nat} (h : Ticked cs n cs') {k calls : Nat}
    (hk : k ≤ cs.length) (hsum : (cs.take k).sum ≤ calls + 1) :
    k - n ≤ cs'.length ∧ (cs'.take (k - n)).sum ≤ calls := by
  cases h with
  | idle =>
    obtain rfl : k = 0 := Nat.le_zero.mp hk
    simp
  | lower cs h =>
    cases k with
    | zero => simp
    | succ k =>
      rw [List.take_succ_cons, List.sum_cons] at hsum
      rw [Nat.sub_zero, List.take_succ_cons, List.sum_cons]
      exact ⟨hk, by omega⟩
  | served cs h =>
    cases k with
    | zero => simp
    | succ k =>
      rw [List.take_succ_cons, List.sum_cons] at hsum
      rw [Nat.add_sub_cancel]
      exact ⟨Nat.le_of_succ_le_succ hk, by omega⟩

theorem callsFor_pos (size left inFlight : Nat) : 0 < callsFor size left inFlight := by
  unfold callsFor
  split
  · exact Nat.one_pos
  · exact Nat.succ_pos _

/-- A call that fills the window and reads everything in flight before it comes closer. -/
theorem callsFor_lt {size left inFlight left' inFlight' : Nat} (hsize : 0 < size)
    (hroom : inFlight ≤ size) (hleft : left' = left - min left (size - inFlight))
    (hflight : inFlight' ≤ min left (size - inFlight)) (hmore : 0 < left' + inFlight') :
    callsFor size left' inFlight' < callsFor size left inFlight := by
  unfold callsFor
  have hpos : left ≠ 0 := by omega
  rw [if_neg hpos]
  split
  · exact Nat.one_lt_succ_succ _
  · have hle : 2 * left' + inFlight' + size ≤ 2 * left + inFlight := by omega
    have hdiv : (2 * left' + inFlight' + size) / size ≤ (2 * left + inFlight) / size :=
      Nat.div_le_div_right hle
    rw [Nat.add_div_right _ hsize] at hdiv
    omega

section Run

variable {η σ : Type} {spi : SpiModule η} {errorTasks : ErrorTasks η} {P : Peer σ UInt8 UInt8}
  {view : η → Link σ UInt8 UInt8} {p : σ} {job : DrvSpiJob} {dummyByteValue : UInt16} {sent : Nat}
  {taken : List UInt8} {baudRate : Nat} {jobs : List DrvSpiJob} {events : List SpiEvent}
  {s : SpiState η}

@[simp] theorem freed_append (es es' : List SpiEvent) : freed (es ++ es') = freed es + freed es' :=
  List.countP_append

@[simp] theorem freed_startEvents (baudRate : Nat) (job : DrvSpiJob) :
    freed (startEvents baudRate job) = 0 := by
  unfold startEvents freed
  split <;> split <;> rfl

@[simp] theorem freed_endEvents (job : DrvSpiJob) : freed (endEvents job) = 0 := by
  unfold endEvents freed
  split <;> split <;> rfl

@[simp] theorem freed_finish (p : σ) (job : DrvSpiJob) : freed (finish P dummyByteValue p job) = 1 := by
  unfold finish
  simp only [freed_append, freed_endEvents]
  rfl

theorem freed_serve (p : σ) (baudRate : Nat) (jobs : List DrvSpiJob) :
    freed (serve P dummyByteValue p baudRate jobs) = jobs.length := by
  induction jobs generalizing p baudRate with
  | nil => rfl
  | cons job jobs ih =>
    rw [serve]
    simp only [freed_append, freed_startEvents, freed_finish, ih, List.length_cons]
    omega

/-- The transfer of one call frees the job or lowers its bound. -/
theorem transfer_ticked (hlaw : spi.Lawful errorTasks P view) (hb : job.Balanced)
    {answers : QueueAnswers} (hfree : answers.freeElement = true) (drv : DrvSpi) {port : η}
    (h : During spi P view p drv.dummyByteValue job sent taken
      ⟨job.during sent taken, drv.symbolsInProgress, port⟩)
    (hcurrent : drv.currentJob = some (job.during sent taken)) (hout : (view port).out = []) :
    let r := polledTransfer spi errorTasks answers drv (job.during sent taken) port
    Ticked (callsFor spi.txFifoSize (job.total - sent) drv.symbolsInProgress ::
      drv.queue.map fun job => callsFor spi.txFifoSize job.leftToTx 0) (freed r.2) (costs spi r.1) := by
  intro r
  obtain ⟨units, t, hunits, hnext, hr⟩ := polledTransfer_during hlaw hb answers rfl h
  have hflight := h.inFlight hb
  simp only [inFlight, hout, List.length_nil, Nat.zero_add] at hflight
  have hroom := h.room
  have hcount := h.count
  have hcount' := hnext.count
  have hsent := h.sent_le
  simp only at hroom hcount
  rw [hfree] at hr
  show Ticked _ (freed (polledTransfer spi errorTasks answers drv (job.during sent taken) port).2)
    (costs spi (polledTransfer spi errorTasks answers drv (job.during sent taken) port).1)
  rw [hr]
  split
  · rename_i hend
    obtain ⟨hfinish, hdrv, -⟩ := endJob_finish hb drv hnext hend
    rw [hfinish, freed_finish]
    unfold costs
    rw [hdrv]
    exact .served _ (callsFor_pos ..)
  · rename_i hend
    rw [List.length_append] at hend hcount'
    have hleft : t.job.leftToTx =
        job.total - sent - min (job.total - sent) (spi.txFifoSize - drv.symbolsInProgress) := by
      rw [hnext.job_eq, hb.leftToTx_during hnext.sent_le]
      omega
    unfold costs
    simp only [DrvSpi.store, hcurrent, Option.map_some, Option.toList_some, List.map_cons,
      List.map_nil, List.singleton_append]
    refine .lower _ (callsFor_lt hlaw.size_pos hroom hleft ?_ ?_)
    · omega
    · have hle := hnext.sent_le
      rw [hleft]
      omega

/-- If the call is one of the tasks, nothing waits to go over the wire. -/
def CaughtUp (view : η → Link σ UInt8 UInt8) (s : SpiState η) : Call → Prop
  | .tasks _ => (view s.port).out = []
  | _ => True

theorem tasks_ticked (hlaw : spi.Lawful errorTasks P view) {answers : QueueAnswers}
    (hok : (Call.tasks answers).Succeeds) (hout : (view s.port).out = [])
    (h : Serving spi P view p baudRate dummyByteValue jobs events s) :
    Ticked (costs spi s) (freed (step spi errorTasks s (.tasks answers)).2)
      (costs spi (step spi errorTasks s (.tasks answers)).1) := by
  obtain ⟨hdequeue, hfree⟩ := hok
  obtain ⟨hbalanced, rfl, hphase⟩ := h
  unfold step drvSpiPolledMasterEBM8BitTasks
  rcases hphase with ⟨done, hjobs, hevents, hcurrent, hport, hbaud⟩ |
    ⟨done, job, sent, taken, hjobs, hevents, hcurrent, hduring, hbaud, hmore⟩
  · simp only [hcurrent, hdequeue, Bool.not_true, Bool.false_eq_true, if_false]
    cases hqueue : s.drv.queue with
    | nil =>
      simp only [costs, hcurrent, hqueue, Option.toList_none, List.map_nil, List.nil_append]
      exact .idle
    | cons job queue =>
      rw [hqueue] at hjobs
      have hb := hbalanced job (by rw [hjobs]; simp)
      have hclear := hlaw.bufferClear s.port (by rw [hport]; rfl)
      have hstart := During.start hlaw hport job s.drv.dummyByteValue
      have htick := transfer_ticked hlaw hb hfree (startJob s.drv job queue) hstart
        (by rw [hb.during_start]; rfl) (by rw [hclear]; exact hout)
      have hleft : job.leftToTx = job.total := by
        have hzero : (job.during 0 []).leftToTx = job.total := hb.leftToTx_during (Nat.zero_le _)
        rw [hb.during_start] at hzero
        exact hzero
      simp only [costs, hcurrent, hqueue, Option.toList_none, List.map_nil, List.map_cons,
        List.nil_append, freed_append, freed_startEvents, Nat.zero_add, hleft]
      rw [hb.during_start] at htick
      exact htick
  · have hb := hbalanced job (by rw [hjobs]; simp)
    have htick := transfer_ticked hlaw hb hfree s.drv hduring hcurrent hout
    have hleft : (job.during sent taken).leftToTx = job.total - sent :=
      hb.leftToTx_during hduring.sent_le
    simp only [hcurrent]
    rw [← hleft] at htick
    unfold costs at htick ⊢
    rw [hcurrent]
    exact htick

/-! ## Every run -/

/-- The calls of the tasks in a run. -/
def taskCalls (calls : List Call) : Nat :=
  calls.countP fun
    | .tasks _ => true
    | _ => false

/-- The first `k` jobs are freed once the tasks were called often enough for them. -/
theorem freed_of_ticks (hlaw : spi.Lawful errorTasks P view) {calls : List Call}
    (hok : ∀ call ∈ calls, call.Succeeds)
    (hup : (machine spi errorTasks).Along (CaughtUp view) s calls)
    (h : Serving spi P view p baudRate dummyByteValue jobs events s) {k : Nat}
    (hk : k ≤ (costs spi s).length) (hcalls : ((costs spi s).take k).sum ≤ taskCalls calls) :
    k ≤ freed ((machine spi errorTasks).trace s calls) := by
  induction calls generalizing jobs events s k with
  | nil =>
    cases hcosts : costs spi s with
    | nil =>
      rw [hcosts] at hk
      exact Nat.le_trans hk (Nat.zero_le _)
    | cons c cs =>
      cases k with
      | zero => exact Nat.zero_le _
      | succ k =>
        have hpos : 0 < c := by
          have hmem : c ∈ costs spi s := by rw [hcosts]; exact List.mem_cons_self ..
          rcases List.mem_append.mp hmem with hmem | hmem <;>
            obtain ⟨job, -, rfl⟩ := List.mem_map.mp hmem <;> exact callsFor_pos ..
        rw [hcosts, List.take_succ_cons, List.sum_cons] at hcalls
        have hzero : taskCalls [] = 0 := rfl
        omega
  | cons call calls ih =>
    have hcall := hok call (List.mem_cons_self ..)
    have hnext := serving_step hlaw call hcall h
    have hrest := @ih _ _ _ (fun c hc => hok c (List.mem_cons_of_mem _ hc)) hup.2 hnext
    rw [Machine.trace_cons, freed_append]
    cases call with
    | wait =>
      have hsum : taskCalls (Call.wait :: calls) = taskCalls calls := rfl
      have := hrest hk (by rw [hsum] at hcalls; exact hcalls)
      omega
    | add job =>
      have hsum : taskCalls (Call.add job :: calls) = taskCalls calls := rfl
      have hcosts : costs spi (addJob s job) =
          costs spi s ++ [callsFor spi.txFifoSize job.val.leftToTx 0] := by
        simp only [costs, addJob, List.map_append, List.map_cons, List.map_nil, List.append_assoc]
      have hle : k ≤ (costs spi (addJob s job)).length := by
        rw [hcosts, List.length_append]
        omega
      have htake : (costs spi (addJob s job)).take k = (costs spi s).take k := by
        rw [hcosts, List.take_append_of_le_length hk]
      have := hrest hle (by
        show ((costs spi (addJob s job)).take k).sum ≤ _
        rw [htake, ← hsum]
        exact hcalls)
      omega
    | tasks answers =>
      have hsum : taskCalls (Call.tasks answers :: calls) = taskCalls calls + 1 :=
        List.countP_cons_of_pos rfl
      rw [hsum] at hcalls
      obtain ⟨hle, htake⟩ := (tasks_ticked hlaw hcall hup.1 h).take_sum hk hcalls
      have := hrest hle htake
      have hfreed : freed ((machine spi errorTasks).step s (.tasks answers)).2 =
        freed (step spi errorTasks s (.tasks answers)).2 := rfl
      omega

/-- The jobs that are not freed yet are the current one and the waiting ones. -/
theorem Serving.freed_add_costs
    (h : Serving spi P view p baudRate dummyByteValue jobs events s) :
    freed events + (costs spi s).length = jobs.length := by
  rcases h.phase with ⟨done, hjobs, hevents, hcurrent, hport, hbaud⟩ |
    ⟨done, job, sent, taken, hjobs, hevents, hcurrent, hduring, hbaud, hmore⟩
  · rw [hevents, freed_serve, hjobs, costs, hcurrent]
    simp
  · rw [hevents, freed_append, freed_serve, freed_startEvents, hjobs, costs, hcurrent]
    simp

/-- **The jobs are served in time.** If nothing waits on the wire whenever the tasks are called, the jobs
that were added before are all freed once the tasks were called as often as `costs` says: for a job of
`n` bytes that waits, `2 * n / size + 2` times. Jobs that are added in the meantime do not delay
them. -/
theorem jobs_served_in_time (hlaw : spi.Lawful errorTasks P view) (hfresh : Fresh view s)
    {before after : List Call} (hbefore : ∀ call ∈ before, call.Succeeds)
    (hafter : ∀ call ∈ after, call.Succeeds)
    (hup : (machine spi errorTasks).Along (CaughtUp view)
      ((machine spi errorTasks).run s before) after)
    (hcalls : (costs spi ((machine spi errorTasks).run s before)).sum ≤ taskCalls after) :
    serve P s.drv.dummyByteValue (view s.port).peer s.drv.currentBaudRate (added before) <+:
      (machine spi errorTasks).trace s (before ++ after) := by
  have hmid := serving_run hlaw hfresh hbefore
  have hok : ∀ call ∈ before ++ after, call.Succeeds := fun call hc =>
    (List.mem_append.mp hc).elim (hbefore call) (hafter call)
  have hend := serving_run hlaw hfresh hok
  have hfreed := freed_of_ticks hlaw hafter hup hmid (Nat.le_refl _)
    (by rw [List.take_length]; exact hcalls)
  have hcount := hmid.freed_add_costs
  have hadded : added (before ++ after) = added before ++ added after := List.flatMap_append
  have htotal : freed ((machine spi errorTasks).trace s (before ++ after)) =
      freed ((machine spi errorTasks).trace s before) + freed ((machine spi errorTasks).trace
        ((machine spi errorTasks).run s before) after) := by
    rw [Machine.trace_append, freed_append]
  -- At least the jobs of before are among those that were freed.
  obtain ⟨done, tail, hdone, hlen, hevents⟩ : ∃ done tail,
      added (before ++ after) = done ++ tail ∧
      done.length = freed ((machine spi errorTasks).trace s (before ++ after)) ∧
      serve P s.drv.dummyByteValue (view s.port).peer s.drv.currentBaudRate done <+:
        (machine spi errorTasks).trace s (before ++ after) := by
    have hdummy := hend.dummy
    rcases hend.phase with ⟨done, hjobs, hevents, -, -, -⟩ |
      ⟨done, job, sent, taken, hjobs, hevents, -, -, -, -⟩
    · refine ⟨done, _, hjobs, ?_, ?_⟩
      · rw [hevents, freed_serve]
      · exact ⟨[], by rw [hevents, hdummy, List.append_nil]⟩
    · refine ⟨done, _, hjobs, ?_, ?_⟩
      · rw [hevents, freed_append, freed_serve, freed_startEvents, Nat.add_zero]
      · rw [hevents, hdummy]
        exact List.prefix_append _ _
  rw [hadded] at hdone
  obtain ⟨rest, rfl⟩ : added before <+: done :=
    List.prefix_of_prefix_length_le (List.prefix_append _ _)
      (hdone.symm ▸ List.prefix_append done tail) (by omega)
  rw [serve_append] at hevents
  exact (List.prefix_append _ _).trans hevents

end Run

/-- The bytes come back at once. -/
def promptCalls : List Call := [.tasks ⟨true, true⟩, .wait, .wait, .tasks ⟨true, true⟩]

/-- With the bytes back before each call, two calls are enough. -/
theorem jobs_served_in_time_echo :
    serve echo 0xff () 1000 [exchangeTwo.val] <+:
      (machine echoModule fun drv t => (drv, t)).trace freshEcho ([.add exchangeTwo] ++ promptCalls) :=
  have hbefore : ∀ call ∈ [Call.add exchangeTwo], call.Succeeds := by simp [Call.Succeeds]
  have hafter : ∀ call ∈ promptCalls, call.Succeeds := by simp [promptCalls, Call.Succeeds]
  jobs_served_in_time (s := freshEcho) echoModule_lawful ⟨rfl, rfl, rfl⟩ hbefore hafter
    ⟨rfl, trivial, trivial, rfl, trivial⟩ (by decide)

end Spi

end NixieTracker
