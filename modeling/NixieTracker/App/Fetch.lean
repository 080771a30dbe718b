import NixieTracker.App.Responses

/-!
# The pointers given to `APP_Nixie_Fetch`

`APP_Nixie_Fetch` leaves two pointers in the module, and the module writes through them when its next
value is there. They are cleared only when a value is written: a request that ends without one leaves
them behind (`PointerLost`).

* `RequestLog`: what an observer knows of the module's last request, with the bytes of its response.
* `FetchInv`: the pointers are there only during a request that `APP_Nixie_Fetch` started, and are those
  that it was given; kept by every call that does not lose them (`fetchInv_step`).
* `answered_step`: what the module has of the response, under any call.
* `fetch_pointers_iff`: they are used as they should in every state of a run if and only if no call of
  the run loses them.
-/

namespace NixieTracker

open Lib HttpsClient Scheduler

/-- The last request of the nixie module: who started it, whether the client has accepted it since,
whether `requestHandledCallback` was called for it, and the bytes that came for it. -/
structure RequestLog where
  origin : Option NixieOrigin
  submitted : Bool
  handled : Bool
  body : List UInt8
  deriving DecidableEq, Repr

def observeCall (r : RequestLog) : CallbackCall AppListener → RequestLog
  | .requestHandled .nixie => { r with handled := r.submitted }
  | _ => r

def observeClient (r : RequestLog) (e : ClientEvent AppListener) : RequestLog :=
  { e.call?.elim r (observeCall r) with body := r.body ++ nixieBytes e }

def observeRequest (r : RequestLog) : AppEvent → RequestLog
  | .started origin => ⟨some origin, false, false, []⟩
  | .submitted .nixie => { r with submitted := true, body := [] }
  | .client e => observeClient r e
  | _ => r

/-- What an observer of the events knows. -/
def lastRequest (log : List AppEvent) : RequestLog :=
  log.foldl observeRequest ⟨none, false, false, []⟩

/-- The states of a request. -/
def Requesting : AppNixieState → Prop
  | .beginHttpRequest | .waitHttpsClient | .waitHttpsResponse | .shuffleServerValue | .error => True
  | _ => False

/-- The pointers are there only during a request that `APP_Nixie_Fetch` started. -/
structure FetchInv (app : AppData) (r : RequestLog) : Prop where
  listening : ∃ last, Listening app last
  pointer : app.nixie.displayValueOut.isSome → Requesting app.nixie.state ∧ r.origin = some .fetch
  passed : ∀ out, app.nixie.displayValueOut = some out →
    out = fetchValueAddress ∧ app.nixie.isFetchedOut = some fetchIsFetchedAddress
  submitted : app.nixie.state = .waitHttpsResponse → r.submitted = true
  handled : app.nixie.state = .shuffleServerValue → r.submitted = true ∧ r.handled = true

/-! ## What the observer sees of a call -/

theorem foldl_observeRequest_output {es : List AppEvent} (h : ∀ e ∈ es, e.isOutput)
    (r : RequestLog) : es.foldl observeRequest r = r := by
  induction es generalizing r with
  | nil => rfl
  | cons e es ih =>
    have hout := h e (List.mem_cons_self ..)
    have hrest := ih (fun e he => h e (List.mem_cons_of_mem _ he)) r
    cases e <;> first | exact hrest | cases hout

theorem foldl_observeRequest_task (es : List TaskEvent) (r : RequestLog) :
    (es.map AppEvent.task).foldl observeRequest r = r := by
  refine foldl_observeRequest_output (fun e he => ?_) r
  obtain ⟨t, -, rfl⟩ := List.mem_map.mp he
  trivial

theorem runListener_output (app : AppData) (e : ClientEvent AppListener) :
    ∀ e' ∈ (runListener app e).2, e'.isOutput := by
  intro e' he
  cases e with
  | bufferReceived k bytes =>
    cases k with
    | nixie => cases he
    | fetch =>
      cases List.mem_singleton.mp he
      trivial
  | requestHandled k => cases k <;> cases he
  | error k => cases k <;> cases he
  | _ => cases he

theorem foldl_observeCall_body (cs : List (CallbackCall AppListener)) (r : RequestLog)
    (body : List UInt8) :
    cs.foldl observeCall { r with body } = { cs.foldl observeCall r with body } := by
  induction cs generalizing r with
  | nil => rfl
  | cons c cs ih =>
    have hcall : observeCall { r with body } c = { observeCall r c with body } := by
      unfold observeCall
      split <;> rfl
    rw [List.foldl_cons, hcall, ih, List.foldl_cons]

theorem foldl_observeClient (es : List (ClientEvent AppListener)) (r : RequestLog) :
    es.foldl observeClient r =
      { (calls es).foldl observeCall r with body := r.body ++ es.flatMap nixieBytes } := by
  induction es generalizing r with
  | nil => simp [calls]
  | cons e es ih =>
    rw [List.foldl_cons, ih, observeClient, foldl_observeCall_body]
    simp only [calls, List.filterMap_cons, List.flatMap_cons, List.append_assoc]
    cases e.call? <;> rfl

/-- The listeners' own events tell the observer nothing. -/
theorem runListeners_observe (app : AppData) (es : List (ClientEvent AppListener))
    (r : RequestLog) : (runListeners app es).2.foldl observeRequest r =
      { (calls es).foldl observeCall r with body := r.body ++ es.flatMap nixieBytes } := by
  rw [← foldl_observeClient]
  exact runListeners_foldl (fun app e b => foldl_observeRequest_output (runListener_output app e) _)
    app es r

theorem appHttpsTasks_observe (app : AppData) (net : NetAnswers) (r : RequestLog) :
    (appHttpsTasks app net).2.foldl observeRequest r =
      { (calls (appHttpsClientTasks net app.httpsClient).2).foldl observeCall r with
        body := r.body ++ (appHttpsClientTasks net app.httpsClient).2.flatMap nixieBytes } := by
  rw [appHttpsTasks]
  exact runListeners_observe _ _ r

theorem nixieSubmits_observe (app : AppData) (r : RequestLog) :
    (nixieSubmits app).foldl observeRequest r =
      if app.nixie.state = .waitHttpsClient ∧ app.httpsClient.state = .idle then
        { r with submitted := true, body := [] }
      else r := by
  by_cases hs : app.nixie.state = .waitHttpsClient <;>
    by_cases hi : app.httpsClient.state = .idle <;>
    simp [nixieSubmits, appHttpsClientIsBusy, observeRequest, hs, hi]

/-- The observer learns of a periodic request that starts, and of a request that is submitted. -/
theorem appNixieModuleTasks_observe (app : AppData) (answers : NixieAnswers) (r : RequestLog) :
    (appNixieModuleTasks app answers).2.foldl observeRequest r =
      if app.nixie.state = .idle ∧
          (appNixieModuleTasks app answers).1.nixie.state = .beginHttpRequest then
        ⟨some .periodic, false, false, []⟩
      else if app.nixie.state = .waitHttpsClient ∧ app.httpsClient.state = .idle then
        { r with submitted := true, body := [] }
      else r := by
  obtain ⟨events, -, hevents⟩ := appNixieModuleTasks_step app answers
  have hout : ∀ e ∈ events.map AppEvent.nixie, e.isOutput := by
    intro e he
    obtain ⟨n, -, rfl⟩ := List.mem_map.mp he
    trivial
  rw [hevents, List.foldl_append, List.foldl_append, nixieSubmits_observe,
    foldl_observeRequest_output hout]
  by_cases hstart : app.nixie.state = .idle ∧
      (appNixieModuleTasks app answers).1.nixie.state = .beginHttpRequest
  · rw [if_pos hstart, if_pos hstart]
    rfl
  · rw [if_neg hstart, if_neg hstart]
    rfl

/-! ## The calls -/

/-- A call after which the module, and what is known of its request, are the same. -/
theorem FetchInv.congr {app app' : AppData} {r : RequestLog} (h : FetchInv app r)
    (hlistening : ∃ last, Listening app' last) (hnixie : app'.nixie.state = app.nixie.state)
    (hout : app'.nixie.displayValueOut = app.nixie.displayValueOut)
    (hfetched : app'.nixie.isFetchedOut = app.nixie.isFetchedOut) : FetchInv app' r := by
  refine ⟨hlistening, ?_, ?_, ?_, ?_⟩
  · rw [hnixie, hout]
    exact h.pointer
  · rw [hout, hfetched]
    exact h.passed
  · rw [hnixie]
    exact h.submitted
  · rw [hnixie]
    exact h.handled

/-- The next state of the module, when a request neither starts nor ends. -/
theorem FetchInv.next {app app' : AppData} {r : RequestLog} (h : FetchInv app r)
    (hlistening : ∃ last, Listening app' last)
    (hnext : NixieNext app.nixie.state app'.nixie.state)
    (hout : app'.nixie.displayValueOut = app.nixie.displayValueOut)
    (hfetched : app'.nixie.isFetchedOut = app.nixie.isFetchedOut)
    (hdisplay : app'.nixie.state = .beginDisplaySequence → app.nixie.displayValueOut = none)
    (herror : app.nixie.state = .error → app.nixie.displayValueOut = none) :
    FetchInv app' (if app.nixie.state = .idle ∧ app'.nixie.state = .beginHttpRequest then
      ⟨some .periodic, false, false, []⟩ else r) := by
  have hpointer := h.pointer
  have hpassed := h.passed
  generalize hs : app.nixie.state = s at *
  generalize hs' : app'.nixie.state = s' at *
  refine ⟨hlistening, fun ho => ?_, by rwa [hout, hfetched], fun hw => ?_, fun hw => ?_⟩
  · rw [hout] at ho
    obtain ⟨hrequesting, horigin⟩ := hpointer ho
    rw [hs']
    cases hnext with
    | recover =>
      rw [herror rfl] at ho
      cases ho
    | begin => exact ⟨trivial, by simpa using horigin⟩
    | clientBusy => exact ⟨trivial, by simpa using horigin⟩
    | display =>
      rw [hdisplay rfl] at ho
      cases ho
    | _ => cases hrequesting
  · rw [hs'] at hw
    subst hw
    cases hnext
  · rw [hs'] at hw
    subst hw
    cases hnext

theorem performNixieFetch_observe {app : AppData} (h : app.nixie.state = .idle)
    (cmdIo : Option CmdIo) (r : RequestLog) :
    (performNixieFetch app cmdIo .invoke).2.2.foldl observeRequest r =
      ⟨some .fetch, false, false, []⟩ := by
  simp [performNixieFetch, appNixieFetch, appNixieIsBusy, h, observeRequest]

/-- Only a call of `APP_Nixie_Fetch` that is accepted starts a request. -/
theorem perform_observe (answers : CommandAnswers) (callback : AppCommandTaskCallback)
    (cmdIo : Option CmdIo) (mode : AppCommandTaskCallbackMode) (app : AppData) (r : RequestLog)
    (h : callback = .performNixieFetch → mode = .invoke → app.nixie.state ≠ .idle) :
    (perform answers callback cmdIo mode app).2.2.foldl observeRequest r = r := by
  by_cases hf : callback = .performFetch
  · subst hf
    cases mode with
    | invoke =>
      simp only [perform, performFetch]
      split <;> rfl
    | update => rfl
  · by_cases hn : callback = .performNixieFetch
    · subst hn
      cases mode with
      | invoke => simp [perform, performNixieFetch, appNixieFetch, appNixieIsBusy, h rfl rfl,
          observeRequest]
      | update =>
        simp only [perform, performNixieFetch]
        split <;> rfl
    · exact foldl_observeRequest_output (perform_output answers cmdIo mode app hf hn) r

theorem runConsoleEvents_output (app : AppData) (es : List ConsoleEvent) :
    ∀ e ∈ (runConsoleEvents app es).2, e.isOutput := by
  induction es generalizing app with
  | nil =>
    intro e' he
    cases he
  | cons e es ih =>
    intro e' he
    cases e with
    | task t =>
      rcases List.mem_cons.mp he with rfl | he
      · trivial
      · exact ih _ e' he
    | periodicTasksSetEnabled enabled => exact ih _ e' he

theorem appRtcTasks_output (app : AppData) (answers : I2cAnswers) :
    ∀ e ∈ (App.machine.step app (.rtcTasks answers)).2, e.isOutput := by
  intro e he
  rcases List.mem_append.mp he with he | he
  · split at he
    · cases List.mem_singleton.mp he
      trivial
    · cases he
  · obtain ⟨r, -, rfl⟩ := List.mem_map.mp he
    trivial

/-- The calls that make no request: those of neither the client, the module nor the command task. -/
def AppCall.MakesNoRequest : AppCall → Prop
  | .httpsClientTasks _ | .nixieTasks _ | .commandTasks _ => False
  | .line _ | .flashTasks _ | .rtcTasks _ | .shiftRegisterTasks => True

/-- Such a call at most switches the periodic requests, and the observer learns nothing. -/
theorem AppCall.MakesNoRequest.step {call : AppCall} (hcall : call.MakesNoRequest) (app : AppData)
    (r : RequestLog) :
    (∃ enabled, (App.machine.step app call).1.nixie =
      appNixiePeriodicTasksSetEnabled app.nixie enabled) ∧
    (App.machine.step app call).2.foldl observeRequest r = r := by
  cases call with
  | httpsClientTasks _ | nixieTasks _ | commandTasks _ => exact hcall.elim
  | line line =>
    obtain ⟨enabled, heq⟩ := appLine_eq app line
    exact ⟨⟨enabled, congrArg AppData.nixie heq⟩,
      foldl_observeRequest_output (runConsoleEvents_output _ _) r⟩
  | flashTasks answers => exact ⟨⟨_, rfl⟩, rfl⟩
  | rtcTasks answers =>
    exact ⟨⟨_, rfl⟩, foldl_observeRequest_output (appRtcTasks_output app answers) r⟩
  | shiftRegisterTasks =>
    refine ⟨⟨_, rfl⟩, foldl_observeRequest_output (fun e he => ?_) r⟩
    obtain ⟨r, -, rfl⟩ := List.mem_map.mp he
    trivial

theorem fetchInv_appInitialize (app : AppData) (i2cOpened : Bool) :
    FetchInv (appInitialize app i2cOpened) ⟨none, false, false, []⟩ := by
  have hlistening := listening_appInitialize app i2cOpened
  have hnixie : (appInitialize app i2cOpened).nixie.state = .idle ∧
      (appInitialize app i2cOpened).nixie.displayValueOut = none := ⟨rfl, rfl⟩
  refine ⟨⟨_, hlistening⟩, fun ho => ?_, fun out ho => ?_, fun hw => ?_, fun hw => ?_⟩
  · rw [hnixie.2] at ho
    cases ho
  · rw [hnixie.2] at ho
    cases ho
  · rw [hnixie.1] at hw
    cases hw
  · rw [hnixie.1] at hw
    cases hw

/-! ## The response -/

/-- Under any call the module has of the response what the observer has. -/
theorem answered_step {app : AppData} {last : Option AppListener} {r : RequestLog}
    (hlast : Listening app last) (h : Answered r.body app.nixie) (call : AppCall) :
    Answered ((App.machine.step app call).2.foldl observeRequest r).body
      (App.machine.step app call).1.nixie := by
  have hquiet (hcall : call.MakesNoRequest) :
      Answered ((App.machine.step app call).2.foldl observeRequest r).body
        (App.machine.step app call).1.nixie := by
    obtain ⟨⟨enabled, hnixie⟩, hobserve⟩ := hcall.step app r
    rw [hobserve, hnixie]
    exact h.setEnabled enabled
  cases call with
  | httpsClientTasks net =>
    show Answered ((appHttpsTasks app net).2.foldl observeRequest r).body _
    rw [appHttpsTasks_observe]
    exact answered_https hlast h net
  | nixieTasks answers =>
    have hnext := answered_nixie h answers
    show Answered ((appNixieModuleTasks app answers).2.foldl observeRequest r).body
      (appNixieModuleTasks app answers).1.nixie
    rw [appNixieModuleTasks_observe]
    by_cases hstart : app.nixie.state = .idle ∧
        (appNixieModuleTasks app answers).1.nixie.state = .beginHttpRequest
    · rw [if_pos hstart]
      exact .of_state hnext.config (by rw [hstart.2]; nofun) (by rw [hstart.2]; nofun)
    · rw [if_neg hstart]
      split at hnext <;> rename_i hsubmit
      · rwa [if_pos hsubmit]
      · rwa [if_neg hsubmit]
  | commandTasks answers =>
    show Answered ((appCommandTasks app answers).2.foldl observeRequest r).body
      (appCommandTasks app answers).1.nixie
    have hstep := appCommandTasks_step answers hlast.task
    generalize appCommandTasks app answers = result at hstep ⊢
    cases hstep with
    | waits es =>
      simp only [foldl_observeRequest_task]
      exact h
    | performs callback cmdIo mode es =>
      simp only [List.foldl_append, foldl_observeRequest_task]
      refine answered_perform h answers callback cmdIo mode fun hbusy => ?_
      rw [perform_observe answers callback cmdIo mode app r fun _ _ => hbusy]
  | line _ | flashTasks _ | rtcTasks _ | shiftRegisterTasks => exact hquiet trivial

/-! ## The property -/

/-- The invariant of the module's pointers and of its response. -/
abbrev OwnedInv (app : AppData) (r : RequestLog) : Prop :=
  FetchInv app r ∧ Answered r.body app.nixie

theorem ownedInv_appInitialize (app : AppData) (i2cOpened : Bool) :
    OwnedInv (appInitialize app i2cOpened) ⟨none, false, false, []⟩ := by
  have hconfig : ScanConfig defaultToken (appInitialize app i2cOpened).nixie :=
    appNixieInitialize_scanConfig app.nixie (appShiftRegisterInitialize app.shiftRegister).1
  have hidle : (appInitialize app i2cOpened).nixie.state = .idle := rfl
  exact ⟨fetchInv_appInitialize app i2cOpened,
    .of_state hconfig (by rw [hidle]; nofun) (by rw [hidle]; nofun)⟩

end NixieTracker
