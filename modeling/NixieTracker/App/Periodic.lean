import NixieTracker.App.Fetch

/-!
# The flag of the periodic requests

`performPeriodicTasks` sets `task_from_periodic`, and only a tick of the idle module clears it. In one
iteration of the loop the command task comes after the nixie module: it can start a request of its own
right after the module became idle, with the flag of the last periodic request still set (`StaleFlag`).

* `PeriodicInv`: during a request the flag says who started it; kept by every call but that one
  (`periodicInv_step`).
* `periodic_flag_iff`: the flag is right in every state of a run if and only if no request is started
  with a stale flag. Then a failed request of the console leaves the next periodic time alone, and a
  failed periodic request is repeated soon.
-/

namespace NixieTracker

open Lib HttpsClient Scheduler

/-- The property of a state, with what is known of the last request. -/
structure PeriodicAccurate (app : AppData) (r : RequestLog) : Prop where
  /-- During a request the flag says whether it is a periodic one. -/
  flag : Requesting app.nixie.state →
    (app.nixie.taskFromPeriodic = true ↔ r.origin = some .periodic)
  /-- No call during a request of the console changes the time of the next periodic one. -/
  console : Requesting app.nixie.state → r.origin = some .fetch → ∀ call,
    (App.machine.step app call).1.nixie.periodicNextTime = app.nixie.periodicNextTime
  /-- After a failed periodic request the next one comes soon. -/
  periodic : app.nixie.state = .error → r.origin = some .periodic → ∀ answers,
    (appNixieModuleTasks app answers).1.nixie.periodicNextTime =
      answers.scheduleCount + answers.systemFrequency * periodicIntervalFast

/-- The command task starts `nixie fetch` while the flag of a periodic request is still set. -/
def StaleFlag (app : AppData) : AppCall → Prop
  | .commandTasks _ =>
    app.nixie.state = .idle ∧ app.nixie.taskFromPeriodic = true ∧
      app.command.task.state = .waitAvailable ∧
      app.command.task.callback = some .performNixieFetch
  | _ => False

instance (app : AppData) (call : AppCall) : Decidable (StaleFlag app call) := by
  cases call <;> unfold StaleFlag <;> infer_instance

/-- During a request the flag says who started it. -/
structure PeriodicInv (app : AppData) (r : RequestLog) : Prop where
  listening : ∃ last, Listening app last
  flag : Requesting app.nixie.state →
    (app.nixie.taskFromPeriodic = true ↔ r.origin = some .periodic)

theorem PeriodicInv.congr {app app' : AppData} {r r' : RequestLog} (h : PeriodicInv app r)
    (hlistening : ∃ last, Listening app' last)
    (hstate : Requesting app'.nixie.state → Requesting app.nixie.state)
    (hflag : app'.nixie.taskFromPeriodic = app.nixie.taskFromPeriodic)
    (horigin : r'.origin = r.origin) : PeriodicInv app' r' := by
  refine ⟨hlistening, fun hr => ?_⟩
  rw [hflag, horigin]
  exact h.flag (hstate hr)

/-! ## The fields for the periodic requests -/

/-- The flag and the time of the next periodic request. -/
def AppNixieData.periodicFields (d : AppNixieData) : Bool × UInt64 :=
  (d.taskFromPeriodic, d.periodicNextTime)

theorem SameButResponse.periodicFields {d d' : AppNixieData} (h : SameButResponse d d') :
    d'.periodicFields = d.periodicFields := by
  rw [h.eq]
  rfl

theorem appHttpsTasks_periodicFields (app : AppData) (net : NetAnswers) :
    (appHttpsTasks app net).1.nixie.periodicFields = app.nixie.periodicFields :=
  (appHttpsTasks_same app net).nixie.periodicFields

theorem SameButCommand.periodicFields {d d' : AppNixieData} (h : SameButCommand d d') :
    d'.periodicFields = d.periodicFields := by
  rw [h.eq]
  rfl

theorem appCommandTasks_periodicFields {app : AppData} {last : Option AppListener}
    (h : Listening app last) (answers : CommandAnswers) :
    (appCommandTasks app answers).1.nixie.periodicFields = app.nixie.periodicFields :=
  (appCommandTasks_same h answers).periodicFields

/-- The module sets the flag as it starts a periodic request. -/
theorem appNixieModuleTasks_starts {app : AppData} {answers : NixieAnswers}
    (h : app.nixie.state = .idle)
    (hstarts : (appNixieModuleTasks app answers).1.nixie.state = .beginHttpRequest) :
    (appNixieModuleTasks app answers).1.nixie.taskFromPeriodic = true := by
  rw [appNixieModuleTasks_nixie] at hstarts ⊢
  simp only [appNixieTasks, AppData.nixieView, h, performPeriodicTasks] at hstarts ⊢
  split
  · simp_all
  · split
    · simp_all
    · split
      · simp_all
      · split
        · simp_all
        · rfl

/-- A module that is not idle leaves the flag alone, and changes the time only after a failed periodic
request. -/
theorem appNixieModuleTasks_periodicFields {app : AppData} (h : app.nixie.state ≠ .idle)
    (answers : NixieAnswers) :
    (appNixieModuleTasks app answers).1.nixie.periodicFields =
      (app.nixie.taskFromPeriodic,
        if app.nixie.state = .error ∧ app.nixie.taskFromPeriodic = true then
          answers.scheduleCount + answers.systemFrequency * periodicIntervalFast
        else app.nixie.periodicNextTime) := by
  rw [appNixieModuleTasks_nixie]
  unfold appNixieTasks
  simp only [AppData.nixieView]
  cases hs : app.nixie.state with
  | idle => exact absurd hs h
  | error =>
    by_cases hflag : app.nixie.taskFromPeriodic = true
    · simp [AppNixieData.periodicFields, schedulePeriodicTask, PeriodicTime.interval, hflag]
    · simp [AppNixieData.periodicFields, hflag]
  | beginHttpRequest => rfl
  | waitHttpsClient =>
    simp only [waitHttpsClientAndSendRequest]
    split
    · rfl
    · split <;> rfl
  | waitHttpsResponse => rfl
  | shuffleServerValue =>
    simp only [shuffleServerValueDigits]
    split <;> rfl
  | beginDisplaySequence => rfl
  | decodeDisplayValue => rfl
  | encodeShiftRegister => rfl
  | writeShiftRegister =>
    simp only [writeShiftRegister]
    split <;> rfl

/-! ## The calls -/

@[simp] theorem observeCall_origin (r : RequestLog) (c : CallbackCall AppListener) :
    (observeCall r c).origin = r.origin := by
  unfold observeCall
  split <;> rfl

theorem foldl_observeCall_origin (cs : List (CallbackCall AppListener)) (r : RequestLog) :
    (cs.foldl observeCall r).origin = r.origin := by
  induction cs generalizing r with
  | nil => rfl
  | cons c cs ih => rw [List.foldl_cons, ih, observeCall_origin]

theorem periodicInv_https {app : AppData} {r : RequestLog} (h : PeriodicInv app r)
    (net : NetAnswers) :
    PeriodicInv (appHttpsTasks app net).1 ((appHttpsTasks app net).2.foldl observeRequest r) := by
  obtain ⟨last, hlast⟩ := h.listening
  have hfields := congrArg Prod.fst (appHttpsTasks_periodicFields app net)
  have horigin : ((appHttpsTasks app net).2.foldl observeRequest r).origin = r.origin := by
    rw [appHttpsTasks_observe]
    exact foldl_observeCall_origin _ r
  refine h.congr ⟨_, listening_https hlast net⟩ (fun hr => ?_) hfields horigin
  have hstep := appHttpsTasks_step app net hlast.listener
  generalize (appHttpsClientTasks net app.httpsClient).1 = client at hstep
  generalize calls (appHttpsClientTasks net app.httpsClient).2 = cs at hstep
  generalize (appHttpsTasks app net).1 = app' at hstep hr
  cases hstep with
  | quiet => exact hr
  | received k bytes hact hact' hk =>
    cases k with
    | nixie => rwa [← bufferReceivedCallback_state app.nixie bytes]
    | fetch => exact hr
  | handled k hends hact' hk =>
    cases k with
    | nixie => rw [hlast.waits (by simp [Active, hends.state]) (.inr (.inl hk))]; trivial
    | fetch => exact hr
  | failed k hact hact' hk =>
    cases k with
    | nixie => rw [hlast.waits hact (.inr (.inr hk))]; trivial
    | fetch => exact hr

/-- A request of the nixie module goes on, or is a periodic one that starts. -/
theorem NixieStep.requesting {app app' : AppData} {events : List NixieEvent}
    (h : NixieStep app app' events) (hr : Requesting app'.nixie.state) :
    (app.nixie.state = .idle ∧ app'.nixie.state = .beginHttpRequest) ∨
      (app.nixie.state ≠ .idle ∧ Requesting app.nixie.state) := by
  cases h with
  | waiting hs => exact .inr ⟨by simp [hs], hr⟩
  | submitted hs => exact .inr ⟨by simp [hs], by rw [hs]; trivial⟩
  | stored out hs => exact .inr ⟨by simp [hs], by rw [hs]; trivial⟩
  | moved nixie shiftRegister hnext =>
    replace hr : Requesting nixie.state := hr
    show (app.nixie.state = .idle ∧ nixie.state = .beginHttpRequest) ∨ _
    generalize app.nixie.state = s at hnext
    generalize nixie.state = s' at hnext hr
    cases hnext with
    | periodic => exact .inl ⟨rfl, rfl⟩
    | begin | clientBusy => exact .inr ⟨nofun, trivial⟩
    | _ => cases hr

theorem periodicInv_nixie {app : AppData} {r : RequestLog} (h : PeriodicInv app r)
    (answers : NixieAnswers) :
    PeriodicInv (appNixieModuleTasks app answers).1
      ((appNixieModuleTasks app answers).2.foldl observeRequest r) := by
  obtain ⟨last, hlast⟩ := h.listening
  obtain ⟨events, hstep, -⟩ := appNixieModuleTasks_step app answers
  refine ⟨⟨_, listening_nixie hlast answers⟩, fun hr => ?_⟩
  rw [appNixieModuleTasks_observe]
  by_cases hstarts : app.nixie.state = .idle ∧
      (appNixieModuleTasks app answers).1.nixie.state = .beginHttpRequest
  · rw [if_pos hstarts]
    exact iff_of_true (appNixieModuleTasks_starts hstarts.1 hstarts.2) rfl
  · obtain ⟨hbusy, hrequesting⟩ := (hstep.requesting hr).resolve_left hstarts
    have hfields := congrArg Prod.fst (appNixieModuleTasks_periodicFields hbusy answers)
    have hflag : (appNixieModuleTasks app answers).1.nixie.taskFromPeriodic =
        app.nixie.taskFromPeriodic := hfields
    rw [if_neg hstarts, hflag, h.flag hrequesting]
    split <;> rfl

theorem periodicInv_perform {app : AppData} {r : RequestLog} (h : PeriodicInv app r)
    (answers : CommandAnswers) (callback : AppCommandTaskCallback) (cmdIo : Option CmdIo)
    (mode : AppCommandTaskCallbackMode) {app' : AppData}
    (happ' : app'.nixie = (perform answers callback cmdIo mode app).2.1.nixie)
    (hlistening : ∃ last, Listening app' last)
    (hfresh : callback = .performNixieFetch → mode = .invoke → app.nixie.state = .idle →
      app.nixie.taskFromPeriodic = false) :
    PeriodicInv app' ((perform answers callback cmdIo mode app).2.2.foldl observeRequest r) := by
  by_cases hidle : app.nixie.state = .idle
  · by_cases hf : callback = .performNixieFetch ∧ mode = .invoke
    · obtain ⟨rfl, rfl⟩ := hf
      rw [show perform answers .performNixieFetch cmdIo .invoke app =
        performNixieFetch app cmdIo .invoke from rfl] at happ' ⊢
      refine ⟨hlistening, fun _ => ?_⟩
      rw [performNixieFetch_observe hidle, happ', performNixieFetch_idle hidle]
      exact iff_of_false (by simp [hfresh rfl rfl hidle]) nofun
    · rw [perform_observe answers callback cmdIo mode app r (fun hc hm => absurd ⟨hc, hm⟩ hf)]
      refine ⟨hlistening, fun hr => ?_⟩
      rw [happ'] at hr
      rcases perform_nixie_display answers callback cmdIo mode app hf with hn | ⟨value, hn⟩
      · rw [hn, hidle] at hr
        cases hr
      · rw [hn] at hr
        cases hr
  · rw [perform_observe answers callback cmdIo mode app r fun _ _ => hidle]
    rw [perform_nixie_busy answers cmdIo mode app hidle] at happ'
    exact h.congr hlistening (by rw [happ']; exact id) (by rw [happ']) rfl

theorem periodicInv_command {app : AppData} {r : RequestLog} (h : PeriodicInv app r)
    (answers : CommandAnswers) (hfresh : ¬ StaleFlag app (.commandTasks answers)) :
    PeriodicInv (appCommandTasks app answers).1
      ((appCommandTasks app answers).2.foldl observeRequest r) := by
  obtain ⟨last, hlast⟩ := h.listening
  have hlistening : ∃ last, Listening (appCommandTasks app answers).1 last :=
    ⟨_, listening_command hlast answers⟩
  have hstep := appCommandTasks_step answers hlast.task
  generalize appCommandTasks app answers = result at hlistening hstep ⊢
  cases hstep with
  | waits es =>
    simp only [foldl_observeRequest_task]
    exact h
  | performs callback cmdIo mode es hcallback hinvoke =>
    simp only [List.foldl_append, foldl_observeRequest_task]
    refine periodicInv_perform h answers callback cmdIo mode rfl hlistening fun hc hm hidle => ?_
    by_contra hflag
    exact hfresh ⟨hidle, by simpa using hflag, (hinvoke hm).1, hc ▸ hcallback⟩

/-- Every call but the one with the stale flag. -/
theorem periodicInv_step (app : AppData) (call : AppCall) (r : RequestLog)
    (hfresh : ¬ StaleFlag app call) (h : PeriodicInv app r) :
    PeriodicInv (App.machine.step app call).1
      ((App.machine.step app call).2.foldl observeRequest r) := by
  have hquiet (hcall : call.MakesNoRequest) : PeriodicInv (App.machine.step app call).1
      ((App.machine.step app call).2.foldl observeRequest r) := by
    obtain ⟨last, hlast⟩ := h.listening
    obtain ⟨⟨enabled, hnixie⟩, hobserve⟩ := hcall.step app r
    rw [hobserve]
    exact h.congr ⟨_, listening_step app call last hlast⟩ (by rw [hnixie]; exact id)
      (by rw [hnixie]; rfl) rfl
  cases call with
  | httpsClientTasks net => exact periodicInv_https h net
  | nixieTasks answers => exact periodicInv_nixie h answers
  | commandTasks answers => exact periodicInv_command h answers hfresh
  | line _ | flashTasks _ | rtcTasks _ | shiftRegisterTasks => exact hquiet trivial

/-! ## The property -/

/-- While the module is not idle, only a failed periodic request changes the time of the next one. -/
theorem step_periodicNextTime {app : AppData} {last : Option AppListener} (h : Listening app last)
    (hbusy : app.nixie.state ≠ .idle)
    (hno : ¬ (app.nixie.state = .error ∧ app.nixie.taskFromPeriodic = true)) (call : AppCall) :
    (App.machine.step app call).1.nixie.periodicNextTime = app.nixie.periodicNextTime := by
  have hquiet (hcall : call.MakesNoRequest) :
      (App.machine.step app call).1.nixie.periodicNextTime = app.nixie.periodicNextTime := by
    obtain ⟨⟨enabled, hnixie⟩, -⟩ := hcall.step app ⟨none, false, false, []⟩
    rw [hnixie]
    rfl
  cases call with
  | httpsClientTasks net => exact congrArg Prod.snd (appHttpsTasks_periodicFields app net)
  | commandTasks answers => exact congrArg Prod.snd (appCommandTasks_periodicFields h answers)
  | nixieTasks answers =>
    have hfields := appNixieModuleTasks_periodicFields hbusy answers
    rw [if_neg hno] at hfields
    exact congrArg Prod.snd hfields
  | line _ | flashTasks _ | rtcTasks _ | shiftRegisterTasks => exact hquiet trivial

theorem Requesting.ne_idle {s : AppNixieState} (h : Requesting s) : s ≠ .idle := by
  rintro rfl
  cases h

theorem PeriodicInv.accurate {app : AppData} {r : RequestLog} (h : PeriodicInv app r) :
    PeriodicAccurate app r := by
  obtain ⟨last, hlast⟩ := h.listening
  refine ⟨h.flag, fun hr horigin call => ?_, fun hs horigin answers => ?_⟩
  · refine step_periodicNextTime hlast hr.ne_idle (fun hfailed => ?_) call
    rw [(h.flag hr).mp hfailed.2] at horigin
    cases horigin
  · have hr : Requesting app.nixie.state := by
      rw [hs]
      trivial
    have hfields := appNixieModuleTasks_periodicFields hr.ne_idle answers
    rw [if_pos ⟨hs, (h.flag hr).mpr horigin⟩] at hfields
    exact congrArg Prod.snd hfields

/-- A request that starts with the stale flag. -/
theorem stale_not_accurate (app : AppData) (call : AppCall) (r : RequestLog)
    (hstale : StaleFlag app call) (h : PeriodicInv app r) :
    ¬ PeriodicAccurate (App.machine.step app call).1
      ((App.machine.step app call).2.foldl observeRequest r) := by
  cases call with
  | commandTasks answers =>
    obtain ⟨hidle, hflag, hs, hcallback⟩ := hstale
    obtain ⟨last, hlast⟩ := h.listening
    obtain ⟨cmdIo, callback, hp⟩ := hlast.task (by simp [hs])
    obtain rfl : callback = .performNixieFetch := Option.some.inj (hp.callback.symm.trans hcallback)
    have ha : performCheckAvailable AppCommandTaskCallback.performNixieFetch.ownCheck app = true := by
      show (!appNixieIsBusy app.nixie) = true
      simp [appNixieIsBusy, hidle]
    show ¬ PeriodicAccurate (appCommandTasks app answers).1
      ((appCommandTasks app answers).2.foldl observeRequest r)
    rw [appCommandTasks_invoke hs hp ha]
    show ¬ PeriodicAccurate (afterPerform _ (performNixieFetch app cmdIo .invoke))
      ((performNixieFetch app cmdIo .invoke).2.2.foldl observeRequest r)
    rw [performNixieFetch_observe hidle]
    intro haccurate
    have hright := haccurate.flag
    rw [afterPerform_nixie, performNixieFetch_idle hidle] at hright
    cases (hright trivial).mp hflag
  | _ => cases hstale

theorem periodicInv_appInitialize (app : AppData) (i2cOpened : Bool) :
    PeriodicInv (appInitialize app i2cOpened) ⟨none, false, false, []⟩ :=
  ⟨⟨_, listening_appInitialize app i2cOpened⟩, fun hr => absurd rfl hr.ne_idle⟩

/-- **The periodic flag.** From the initialized application on, under any calls: in every state that is
reached the flag is right during a request, a request of the console does not change the time of the
next periodic one, and a failed periodic request is repeated soon; if and only if the command task
never starts a request with the flag of an earlier one. -/
theorem periodic_flag_iff (app₀ : AppData) (i2cOpened : Bool) (calls : List AppCall) :
    (∀ before, before <+: calls →
      PeriodicAccurate (App.machine.run (appInitialize app₀ i2cOpened) before)
        (lastRequest (App.machine.trace (appInitialize app₀ i2cOpened) before))) ↔
    App.machine.Along (fun app call => ¬ StaleFlag app call) (appInitialize app₀ i2cOpened) calls :=
  Machine.watch_iff_along periodicInv_step (fun _ _ => PeriodicInv.accurate) stale_not_accurate
    (periodicInv_appInitialize app₀ i2cOpened) calls

/-- A periodic request fails while `nixie fetch` waits for the module. -/
def failedPeriodicRounds : List AppRound :=
  { AppRound.calm with
    lines := [.ofWords [nixieWord, fetchWord]]
    nixie := ⟨0, 0, 1, true⟩ } ::
  List.replicate 7
    { AppRound.calm with
      net := { NetAnswers.direct true with stringToIPAddress := fun _ => none } }

/-- The request of the console starts in the iteration in which the periodic one ends, with its flag. -/
theorem periodic_flag_stale :
    ¬ ∀ rounds, PeriodicAccurate (App.machine.run (appInitialize .zeroed true) (loopCalls rounds))
      (lastRequest (App.machine.trace (appInitialize .zeroed true) (loopCalls rounds))) := by
  have hstale : (App.machine.run (appInitialize .zeroed true)
        (loopCalls failedPeriodicRounds)).nixie.state = .beginHttpRequest ∧
      (App.machine.run (appInitialize .zeroed true)
        (loopCalls failedPeriodicRounds)).nixie.taskFromPeriodic = true ∧
      (lastRequest (App.machine.trace (appInitialize .zeroed true)
        (loopCalls failedPeriodicRounds))).origin = some .fetch := by decide +kernel
  obtain ⟨hstate, hflag, horigin⟩ := hstale
  intro h
  have hright := (h failedPeriodicRounds).flag (by rw [hstate]; trivial)
  rw [horigin] at hright
  cases hright.mp hflag

end NixieTracker
