import NixieTracker.App.Steps

/-!
# Callbacks reach a listener that waits for them

The nixie module and the console's `fetch` share one HTTPS client. The invariant `Listening` ties the
three state machines together: while the client serves a request, its listener is in the state in
which it waits for the answer.

* `listening_step`, `listening_run`: every call keeps it, in any order of the calls; the loop of
  `APP_Tasks_Real` is one order.
* `callback_reaches_waiting_listener`: what follows for the callbacks.
-/

namespace NixieTracker

open Lib HttpsClient Scheduler

def AppEvent.submitted? : AppEvent → Option AppListener
  | .submitted listener => some listener
  | _ => none

/-- The listener of the last request that the client accepted. -/
def lastSubmitted (log : List AppEvent) : Option AppListener :=
  (log.filterMap (·.submitted?)).getLast?

def observeSubmitted (last : Option AppListener) (e : AppEvent) : Option AppListener :=
  e.submitted?.or last

theorem foldl_observeSubmitted (es : List AppEvent) (last : Option AppListener) :
    es.foldl observeSubmitted last = (lastSubmitted es).or last := by
  induction es generalizing last with
  | nil => rfl
  | cons e es ih =>
    rw [List.foldl_cons, ih, lastSubmitted, lastSubmitted, List.filterMap_cons, observeSubmitted]
    cases he : e.submitted? with
    | none => rfl
    | some l =>
      rw [List.getLast?_cons]
      cases (es.filterMap (·.submitted?)).getLast? <;> rfl

/-- While the client serves a request, its listener waits. -/
structure Listening (app : AppData) (last : Option AppListener) : Prop where
  task : app.command.task.state ≠ .none →
    ∃ cmdIo callback, Pending app.command.task cmdIo callback callback.ownCheck
  registered : Active app.httpsClient.state →
    app.httpsClient.callbacks = nixieCallbacks ∨ app.httpsClient.callbacks = fetchCallbacks
  nixie : Active app.httpsClient.state → app.httpsClient.callbacks = nixieCallbacks →
    app.nixie.state = .waitHttpsResponse ∧ last = some .nixie
  fetch : Active app.httpsClient.state → app.httpsClient.callbacks = fetchCallbacks →
    app.command.task.state = .running ∧ app.command.task.callback = some .performFetch ∧
      app.command.fetch.requestActive = true ∧ last = some .fetch

theorem nixieCallbacks_ne_fetchCallbacks : nixieCallbacks ≠ fetchCallbacks := by decide

theorem Listening.listener {app : AppData} {last : Option AppListener} (h : Listening app last) :
    ∃ l : Listener AppListener, Active app.httpsClient.state →
      app.httpsClient.callbacks = l.callbacks := by
  by_cases hact : Active app.httpsClient.state
  · rcases h.registered hact with hcb | hcb
    · exact ⟨⟨.nixie, .nixie, .nixie⟩, fun _ => hcb⟩
    · exact ⟨⟨.fetch, .fetch, .fetch⟩, fun _ => hcb⟩
  · exact ⟨⟨.nixie, .nixie, .nixie⟩, fun h => absurd h hact⟩

/-! ## The calls -/

/-- A call that keeps the client, the waiting states and the task's callbacks. -/
theorem Listening.congr {app app' : AppData} {last : Option AppListener} (h : Listening app last)
    (hclient : app'.httpsClient = app.httpsClient)
    (hnixie : app.nixie.state = .waitHttpsResponse → app'.nixie.state = .waitHttpsResponse)
    (htask : app'.command.task = app.command.task) (hfetch : app'.command.fetch = app.command.fetch) :
    Listening app' last := by
  refine ⟨?_, ?_, ?_, ?_⟩
  · rw [htask]
    exact h.task
  · rw [hclient]
    exact h.registered
  · rw [hclient]
    exact fun hact hcb => ⟨hnixie (h.nixie hact hcb).1, (h.nixie hact hcb).2⟩
  · rw [hclient, htask, hfetch]
    exact h.fetch

theorem Listening.inactive {app : AppData} {last : Option AppListener}
    (htask : app.command.task.state ≠ .none →
      ∃ cmdIo callback, Pending app.command.task cmdIo callback callback.ownCheck)
    (hact : ¬ Active app.httpsClient.state) : Listening app last :=
  ⟨htask, fun h => absurd h hact, fun h => absurd h hact, fun h => absurd h hact⟩

theorem runListeners_submitted (app : AppData) (es : List (ClientEvent AppListener)) :
    (runListeners app es).2.filterMap (·.submitted?) = [] := by
  rw [List.filterMap_eq_nil_iff]
  intro e' he'
  rcases mem_runListeners he' with ⟨e, -, rfl⟩ | ⟨bytes, -, rfl⟩ <;> rfl

theorem listening_https {app : AppData} {last : Option AppListener} (h : Listening app last)
    (net : NetAnswers) :
    Listening (appHttpsTasks app net).1 ((appHttpsTasks app net).2.foldl observeSubmitted last) := by
  have hlast : (appHttpsTasks app net).2.foldl observeSubmitted last = last := by
    rw [foldl_observeSubmitted, lastSubmitted, appHttpsTasks]
    simp only [runListeners_submitted]
    rfl
  have hcb := appHttpsClientTasks_callbacks net app.httpsClient
  rw [hlast]
  have hstep := appHttpsTasks_step app net h.listener
  generalize (appHttpsClientTasks net app.httpsClient).1 = client at hcb hstep
  generalize calls (appHttpsClientTasks net app.httpsClient).2 = cs at hstep
  generalize (appHttpsTasks app net).1 = app' at hstep
  cases hstep with
  | quiet hact =>
    refine ⟨h.task, fun ha => ?_, fun ha hc => ?_, fun ha hc => ?_⟩
    · exact hcb ▸ h.registered (hact ha)
    · exact h.nixie (hact ha) (hcb ▸ hc)
    · exact h.fetch (hact ha) (hcb ▸ hc)
  | received k bytes hact hact' hk =>
    have hquiet : Listening (app.withClient client) last :=
      ⟨h.task, fun _ => hcb ▸ h.registered hact, fun _ hc => h.nixie hact (hcb ▸ hc),
        fun _ hc => h.fetch hact (hcb ▸ hc)⟩
    cases k with
    | nixie =>
      refine hquiet.congr rfl (fun hs => ?_) rfl rfl
      exact (bufferReceivedCallback_state app.nixie bytes).trans hs
    | fetch => exact hquiet
  | handled k hact hact' hk =>
    cases k <;> exact .inactive h.task hact'
  | failed k hact hact' hk =>
    cases k <;> exact .inactive h.task hact'

theorem storeNixieEvents_command (app : AppData) (es : List NixieEvent) :
    (storeNixieEvents app es).httpsClient = app.httpsClient ∧
      (storeNixieEvents app es).command.task = app.command.task ∧
      (storeNixieEvents app es).command.fetch = app.command.fetch := by
  obtain ⟨union, h⟩ := storeNixieEvents_eq app es
  rw [h]
  exact ⟨rfl, rfl, rfl⟩

theorem listening_nixie {app : AppData} {last : Option AppListener} (h : Listening app last)
    (answers : NixieAnswers) :
    Listening (appNixieModuleTasks app answers).1
      ((appNixieModuleTasks app answers).2.foldl observeSubmitted last) := by
  obtain ⟨events, hstep, hevents⟩ := appNixieModuleTasks_step app answers
  have hlast : lastSubmitted (appNixieModuleTasks app answers).2 =
      lastSubmitted (nixieSubmits app) := by
    have hstarted : ∀ es : List NixieEvent, (es.map AppEvent.nixie).filterMap (·.submitted?) = [] :=
      fun es => by simp [List.filterMap_map, AppEvent.submitted?]
    rw [hevents, lastSubmitted, lastSubmitted, List.filterMap_append, List.filterMap_append,
      hstarted]
    split <;> simp [AppEvent.submitted?]
  rw [foldl_observeSubmitted, hlast]
  generalize (appNixieModuleTasks app answers).1 = app' at hstep
  have hsilent : app.nixie.state ≠ .waitHttpsClient → nixieSubmits app = [] := fun hne => by
    simp [nixieSubmits, hne]
  cases hstep with
  | waiting hs =>
    rw [hsilent (by simp [hs])]
    exact h
  | submitted hs hidle =>
    have hsubmits : nixieSubmits app = [.submitted .nixie] := by
      simp [nixieSubmits, hs, appHttpsClientIsBusy, hidle]
    rw [hsubmits]
    refine ⟨h.task, fun _ => .inl rfl, fun _ _ => ⟨rfl, rfl⟩, fun _ hc => ?_⟩
    exact absurd hc nixieCallbacks_ne_fetchCallbacks
  | stored out hs hout =>
    rw [hsilent (by simp [hs])]
    obtain ⟨hclient, htask, hfetch⟩ := storeNixieEvents_command
      { app with nixie := (shuffleServerValueDigits app.nixie).1 }
      (shuffleServerValueDigits app.nixie).2
    refine h.congr hclient (fun hw => ?_) htask hfetch
    rw [hs] at hw
    cases hw
  | moved nixie shiftRegister hnext hout hdisplay hbusy =>
    have hno : nixieSubmits app = [] := by
      by_cases hw : app.nixie.state = .waitHttpsClient
      · simp [nixieSubmits, appHttpsClientIsBusy, hbusy hw]
      · exact hsilent hw
    rw [hno]
    refine h.congr rfl (fun hw => ?_) rfl rfl
    rw [hw] at hnext
    cases hnext

theorem submitted?_of_isOutput {es : List AppEvent} (h : ∀ e ∈ es, e.isOutput) :
    es.filterMap (·.submitted?) = [] := by
  rw [List.filterMap_eq_nil_iff]
  intro e he
  have hout := h e he
  cases e <;> first | rfl | cases hout

theorem perform_submitted (answers : CommandAnswers) {callback : AppCommandTaskCallback}
    (h : callback ≠ .performFetch) (cmdIo : Option CmdIo) (mode : AppCommandTaskCallbackMode)
    (app : AppData) :
    (perform answers callback cmdIo mode app).2.2.filterMap (·.submitted?) = [] := by
  by_cases hn : callback = .performNixieFetch
  · subst hn
    cases mode with
    | invoke =>
      simp only [perform, performNixieFetch]
      split <;> simp [List.filterMap_map, AppEvent.submitted?]
    | update =>
      simp only [perform, performNixieFetch]
      split <;> rfl
  · exact submitted?_of_isOutput (perform_output answers cmdIo mode app h hn)

/-- After a callback other than `fetch`'s, while the client serves nobody but the nixie module. -/
theorem Listening.afterPerform {app : AppData} {last : Option AppListener}
    (h : Listening app last) {callback : AppCommandTaskCallback} (hne : callback ≠ .performFetch)
    (hnot : Active app.httpsClient.state → app.httpsClient.callbacks ≠ fetchCallbacks)
    {cmdIo : CmdIo} {task : AppCommandTaskData} (hp : Pending task cmdIo callback callback.ownCheck)
    (answers : CommandAnswers) (io : Option CmdIo) (mode : AppCommandTaskCallbackMode) :
    Listening (afterPerform task (perform answers callback io mode app)) last := by
  have hclient := (perform_client answers io mode app hne).1
  refine ⟨fun hstate => ⟨cmdIo, callback, checkCallbackResult_pending hp hstate⟩, ?_, ?_, ?_⟩
  · rw [afterPerform_httpsClient, hclient]
    exact h.registered
  · rw [afterPerform_httpsClient, hclient, afterPerform_nixie]
    intro hact hcb
    obtain ⟨hwait, hlast⟩ := h.nixie hact hcb
    rw [perform_nixie_busy answers io mode app (by simp [hwait])]
    exact ⟨hwait, hlast⟩
  · rw [afterPerform_httpsClient, hclient]
    exact fun hact hcb => absurd hcb (hnot hact)

theorem listening_command {app : AppData} {last : Option AppListener} (h : Listening app last)
    (answers : CommandAnswers) :
    Listening (appCommandTasks app answers).1
      ((appCommandTasks app answers).2.foldl observeSubmitted last) := by
  have hquiet : ∀ es : List AppEvent, es.filterMap (·.submitted?) = [] →
      es.foldl observeSubmitted last = last := fun es hes => by
    rw [foldl_observeSubmitted, lastSubmitted, hes]
    rfl
  cases hs : app.command.task.state with
  | none =>
    rw [appCommandTasks_none hs]
    exact h
  | waitAvailable =>
    obtain ⟨cmdIo, callback, hp⟩ := h.task (by simp [hs])
    have hnot : Active app.httpsClient.state → app.httpsClient.callbacks ≠ fetchCallbacks := by
      intro hact hcb
      have hrunning := (h.fetch hact hcb).1
      rw [hs] at hrunning
      cases hrunning
    cases ha : performCheckAvailable callback.ownCheck app with
    | false =>
      rw [appCommandTasks_unavailable hs hp ha]
      exact h
    | true =>
      rw [appCommandTasks_invoke hs hp ha]
      by_cases hc : callback = .performFetch
      · subst hc
        have hidle : app.httpsClient.state = .idle := by
          simpa [performCheckAvailable, AppCommandTaskCallback.ownCheck, performFetchCheckAvailable,
            appHttpsClientIsBusy] using ha
        simp only [perform, performFetch_invoke hidle]
        refine ⟨fun _ => ⟨cmdIo, .performFetch, ?_⟩, fun _ => .inr rfl, fun _ hcb => ?_, fun _ _ => ?_⟩
        · exact ⟨hp.callback, hp.callbackCmdIo, hp.callbackCheckAvailable⟩
        · exact absurd hcb.symm nixieCallbacks_ne_fetchCallbacks
        · exact ⟨rfl, hp.callback, rfl, rfl⟩
      · dsimp only
        rw [hquiet _ ((List.filterMap_cons_none rfl).trans ((List.filterMap_cons_none rfl).trans
          (perform_submitted answers hc cmdIo .invoke app)))]
        exact h.afterPerform hc hnot ⟨hp.callback, hp.callbackCmdIo, hp.callbackCheckAvailable⟩
          answers cmdIo .invoke
  | running =>
    obtain ⟨cmdIo, callback, hp⟩ := h.task (by simp [hs])
    rw [appCommandTasks_update hs hp]
    by_cases hc : callback = .performFetch
    · subst hc
      simp only [perform, performFetch]
      rw [hquiet _ rfl]
      refine ⟨fun hstate => ⟨cmdIo, .performFetch, checkCallbackResult_pending hp hstate⟩,
        h.registered, h.nixie, fun hact hcb => ?_⟩
      obtain ⟨-, -, hactive, hlast⟩ := h.fetch hact hcb
      refine ⟨?_, ?_, hactive, hlast⟩
      · simp [hactive]
      · simp [hactive, hp.callback]
    · dsimp only
      rw [hquiet _ ((List.filterMap_cons_none rfl).trans
        (perform_submitted answers hc cmdIo .update app))]
      refine h.afterPerform hc (fun hact hcb => ?_) hp answers cmdIo .update
      have hfetch := (h.fetch hact hcb).2.1
      rw [hp.callback] at hfetch
      exact hc (Option.some.inj hfetch)

theorem runConsoleEvents_submitted (app : AppData) (es : List ConsoleEvent) :
    (runConsoleEvents app es).2.filterMap (·.submitted?) = [] := by
  induction es generalizing app with
  | nil => rfl
  | cons e es ih => cases e <;> exact ih _

theorem appLine_submitted (app : AppData) (line : ConsoleLine) :
    (appLine app line).2.filterMap (·.submitted?) = [] := runConsoleEvents_submitted _ _

/-- A line finds a task, or the client serves nobody but the nixie module. -/
theorem listening_line {app : AppData} {last : Option AppListener} (h : Listening app last)
    (line : ConsoleLine) :
    Listening (appLine app line).1 ((appLine app line).2.foldl observeSubmitted last) := by
  rw [foldl_observeSubmitted, lastSubmitted, appLine_submitted]
  show Listening (appLine app line).1 last
  by_cases hs : app.command.task.state = .none
  · obtain ⟨enabled, heq⟩ := appLine_eq app line
    rw [heq]
    refine ⟨?_, h.registered, h.nixie, fun hact hcb => ?_⟩
    · dsimp only
      generalize hres : consoleLine app.command line = res
      cases hres ▸ consoleLine_result app.command line with
      | unchanged => exact h.task
      | scheduled storage callback => exact fun _ => ⟨line.cmdIo, callback, rfl, rfl, rfl⟩
    · have hrunning := (h.fetch hact hcb).1
      rw [hs] at hrunning
      cases hrunning
  · rw [appLine_busy hs]
    exact h

theorem listening_step (app : AppData) (call : AppCall) (last : Option AppListener)
    (h : Listening app last) :
    Listening (App.machine.step app call).1
      ((App.machine.step app call).2.foldl observeSubmitted last) := by
  cases call with
  | rtcTasks answers =>
    have hlast : (appRtcTasks app answers).2.foldl observeSubmitted last = last := by
      rw [foldl_observeSubmitted, lastSubmitted, appRtcTasks]
      simp only
      split <;> simp [List.filterMap_map, AppEvent.submitted?]
    show Listening _ ((appRtcTasks app answers).2.foldl observeSubmitted last)
    rw [hlast]
    exact h.congr rfl id rfl rfl
  | flashTasks answers => exact h.congr rfl id rfl rfl
  | httpsClientTasks net => exact listening_https h net
  | shiftRegisterTasks =>
    have hlast : (appStep app .shiftRegisterTasks).2.foldl observeSubmitted last = last := by
      rw [foldl_observeSubmitted, lastSubmitted, appStep]
      simp [List.filterMap_map, AppEvent.submitted?]
    show Listening _ ((appStep app .shiftRegisterTasks).2.foldl observeSubmitted last)
    rw [hlast]
    exact h.congr rfl id rfl rfl
  | nixieTasks answers => exact listening_nixie h answers
  | commandTasks answers => exact listening_command h answers
  | line line => exact listening_line h line

theorem listening_appInitialize (app : AppData) (i2cOpened : Bool) :
    Listening (appInitialize app i2cOpened) none :=
  .inactive (fun h => absurd rfl h) (fun h => h.1 rfl)

theorem listening_run (app : AppData) (i2cOpened : Bool) (calls : List AppCall) :
    Listening (App.machine.run (appInitialize app i2cOpened) calls)
      (lastSubmitted (App.machine.trace (appInitialize app i2cOpened) calls)) := by
  have hrun := Machine.watch_inv listening_step (listening_appInitialize app i2cOpened) calls
  rw [foldl_observeSubmitted] at hrun
  simpa using hrun

/-! ## The callbacks -/

/-- The listener whose callback is called. -/
def ClientEvent.callee? : ClientEvent AppListener → Option AppListener
  | .bufferReceived k _ | .requestHandled k | .error k => some k
  | _ => none

theorem callee?_of_mem {es : List (ClientEvent AppListener)} {e : ClientEvent AppListener}
    {k : AppListener} (he : e ∈ es) (hk : e.callee? = some k) :
    CallbackCall.bufferReceived k ∈ calls es ∨ CallbackCall.requestHandled k ∈ calls es ∨
      CallbackCall.error k ∈ calls es := by
  cases e with
  | bufferReceived k' bytes => cases hk; exact .inl (List.mem_filterMap.mpr ⟨_, he, rfl⟩)
  | requestHandled k' => cases hk; exact .inr (.inl (List.mem_filterMap.mpr ⟨_, he, rfl⟩))
  | error k' => cases hk; exact .inr (.inr (List.mem_filterMap.mpr ⟨_, he, rfl⟩))
  | _ => cases hk

/-- A callback is called during a request, and is registered for it. -/
theorem callee_registered {net : NetAnswers} {d : AppHTTPSClientData AppListener}
    {e : ClientEvent AppListener} (he : e ∈ (appHttpsClientTasks net d).2) {k : AppListener}
    (hk : e.callee? = some k) :
    Active d.state ∧ (d.callbacks.bufferReceived = some k ∨ d.callbacks.requestHandled = some k ∨
      d.callbacks.error = some k) := by
  have hmem := callee?_of_mem he hk
  by_cases hact : Active d.state
  · refine ⟨hact, ?_⟩
    obtain ⟨-, ⟨-, -, hcs | hcs⟩ | ⟨-, -, hcs⟩ | ⟨-, -, hcs | hcs⟩⟩ :=
      appHttpsClientTasks_active net hact <;> rw [hcs] at hmem <;> simp at hmem
    · exact .inl hmem
    · exact .inr (.inl hmem)
    · exact .inr (.inr hmem)
  · have hcs := (appHttpsClientTasks_inactive net hact).2.2.1
    rw [hcs] at hmem
    simp at hmem

/-- **Callbacks.** After any calls from the initialized application on, in particular after those of
any number of rounds of the loop and of a part of the next one, a call of
`APP_HTTPS_Client_Tasks` that calls a callback

* of the nixie module finds it in `waitHttpsResponse`, and the client's current request is its own;
* of the console's `fetch` finds the task running with `performFetch` and a device, and what it prints
  goes to that device. -/
theorem callback_reaches_waiting_listener (app₀ : AppData) (i2cOpened : Bool)
    (calls : List AppCall) (net : NetAnswers) :
    let app := App.machine.run (appInitialize app₀ i2cOpened) calls
    let log := App.machine.trace (appInitialize app₀ i2cOpened) calls
    (∀ e ∈ (appHttpsClientTasks net app.httpsClient).2, e.callee? = some .nixie →
      app.nixie.state = .waitHttpsResponse ∧ lastSubmitted log = some .nixie) ∧
    (∀ e ∈ (appHttpsClientTasks net app.httpsClient).2, e.callee? = some .fetch →
      app.command.task.state = .running ∧ app.command.task.callback = some .performFetch ∧
        app.command.task.callbackCmdIo.isSome ∧ lastSubmitted log = some .fetch) ∧
    (∀ cmdIo text, .print cmdIo text ∈ (appHttpsTasks app net).2 → cmdIo.isSome) := by
  intro app log
  have h : Listening app (lastSubmitted log) := listening_run app₀ i2cOpened calls
  have hfetch : ∀ e ∈ (appHttpsClientTasks net app.httpsClient).2, e.callee? = some .fetch →
      app.command.task.state = .running ∧ app.command.task.callback = some .performFetch ∧
        app.command.task.callbackCmdIo.isSome ∧ lastSubmitted log = some .fetch := by
    intro e he hk
    obtain ⟨hact, hreg⟩ := callee_registered he hk
    rcases h.registered hact with hcb | hcb
    · rw [hcb] at hreg
      simp [nixieCallbacks] at hreg
    · obtain ⟨hrunning, hcallback, -, hlast⟩ := h.fetch hact hcb
      obtain ⟨cmdIo, callback, hp⟩ := h.task (by simp [hrunning])
      exact ⟨hrunning, hcallback, by rw [hp.callbackCmdIo]; rfl, hlast⟩
  refine ⟨fun e he hk => ?_, hfetch, fun cmdIo text hprint => ?_⟩
  · obtain ⟨hact, hreg⟩ := callee_registered he hk
    rcases h.registered hact with hcb | hcb
    · exact h.nixie hact hcb
    · rw [hcb] at hreg
      simp [fetchCallbacks] at hreg
  · rcases mem_runListeners hprint with ⟨e, -, heq⟩ | ⟨bytes, hb, heq⟩
    · cases heq
    · cases heq
      exact (hfetch _ hb rfl).2.2.1

end NixieTracker
