import NixieTracker.App.Loop
import NixieTracker.App.Schedule
import NixieTracker.Https.Completion
import NixieTracker.Nixie.Streaming

/-!
# What one call of the application can do

One lemma for each module's tasks function, from which the invariants of the loop are derived.

* `Listeners.machine`: the listeners on the events of a call of the client; `runListeners_same`,
  `runListeners_foldl` and `mem_runListeners` are the rules for them.
* `appHttpsTasks_step`: the client goes on, or calls one callback of the listener whose request it
  serves (`HttpsStep`).
* `appNixieModuleTasks_step`: the nixie module (`NixieStep`).
* `appCommandTasks_step`: the scheduler with the callbacks (`CommandStep`); `performRTC_frame` and its
  like say what a callback leaves alone.
* `appLine_eq`: a console line.
-/

namespace NixieTracker

open Lib HttpsClient

/-! ## The client and its listeners -/

theorem runListener_quiet (app : AppData) {e : ClientEvent AppListener} (h : e.call? = none) :
    runListener app e = (app, []) := by
  cases e <;> first | rfl | cases h

/-- The listeners as a machine, whose inputs are the events of the client. -/
def Listeners.machine : Machine AppData (ClientEvent AppListener) AppEvent where
  step app e := ((runListener app e).1, .client e :: (runListener app e).2)

theorem runListeners_eq (app : AppData) (es : List (ClientEvent AppListener)) :
    runListeners app es = (Listeners.machine.run app es, Listeners.machine.trace app es) := by
  induction es generalizing app with
  | nil => rfl
  | cons e es ih =>
    rw [runListeners]
    simp only [ih]
    rfl

/-- The listeners change the response that the nixie module has, and whether the console's fetch is
active. -/
structure SameButListeners (app app' : AppData) : Prop where
  eq : app' = { app with nixie := app'.nixie, command.fetch := app'.command.fetch }
  nixie : SameButResponse app.nixie app'.nixie

theorem SameButListeners.trans {app app' app'' : AppData} (h : SameButListeners app app')
    (h' : SameButListeners app' app'') : SameButListeners app app'' := by
  refine ⟨?_, h.nixie.trans h'.nixie⟩
  obtain ⟨heq, -⟩ := h
  obtain ⟨heq', -⟩ := h'
  rw [heq', heq]

theorem runListener_same (app : AppData) (e : ClientEvent AppListener) :
    SameButListeners app (runListener app e).1 := by
  cases e with
  | bufferReceived k bytes =>
    cases k with
    | nixie => exact ⟨rfl, bufferReceivedCallback_same app.nixie bytes⟩
    | fetch => exact ⟨rfl, .refl _⟩
  | requestHandled k =>
    cases k with
    | nixie => exact ⟨rfl, requestHandledCallback_same app.nixie⟩
    | fetch => exact ⟨rfl, .refl _⟩
  | error k =>
    cases k with
    | nixie => exact ⟨rfl, ⟨rfl⟩⟩
    | fetch => exact ⟨rfl, .refl _⟩
  | _ => exact ⟨rfl, .refl _⟩

theorem runListeners_same (app : AppData) (es : List (ClientEvent AppListener)) :
    SameButListeners app (runListeners app es).1 := by
  rw [runListeners_eq]
  exact Machine.run_inv (I := SameButListeners app) (fun app' e h => h.trans (runListener_same app' e))
    ⟨rfl, .refl _⟩ es

/-- A listener only prints: the bytes of a fetch. -/
theorem mem_runListener {app : AppData} {e : ClientEvent AppListener} {e' : AppEvent}
    (h : e' ∈ (runListener app e).2) : ∃ bytes, e = .bufferReceived .fetch bytes ∧
      e' = .print app.command.task.callbackCmdIo (.response bytes.val) := by
  cases e with
  | bufferReceived k bytes =>
    cases k with
    | nixie => cases h
    | fetch => exact ⟨bytes, rfl, List.mem_singleton.mp h⟩
  | requestHandled k => cases k <;> cases h
  | error k => cases k <;> cases h
  | _ => cases h

/-- An observer to whom the listeners say nothing of their own. -/
theorem runListeners_foldl {β : Type} {g : β → AppEvent → β} {k : β → ClientEvent AppListener → β}
    (h : ∀ app e b, (runListener app e).2.foldl g (g b (.client e)) = k b e) (app : AppData)
    (es : List (ClientEvent AppListener)) (b : β) :
    (runListeners app es).2.foldl g b = es.foldl k b := by
  rw [runListeners_eq]
  exact Machine.foldl_trace h app es b

/-- An event is one of the client, or the bytes of a fetch go to the device of the task. -/
theorem mem_runListeners {app : AppData} {es : List (ClientEvent AppListener)} {e' : AppEvent}
    (h : e' ∈ (runListeners app es).2) : (∃ e ∈ es, e' = .client e) ∨
      ∃ bytes, .bufferReceived .fetch bytes ∈ es ∧
        e' = .print app.command.task.callbackCmdIo (.response bytes.val) := by
  rw [runListeners_eq] at h
  obtain ⟨before, e, after, rfl, he⟩ := Machine.mem_trace.mp h
  have hmem : e ∈ before ++ e :: after := List.mem_append_right _ (List.mem_cons_self ..)
  rcases List.mem_cons.mp he with rfl | he
  · exact .inl ⟨e, hmem, rfl⟩
  · obtain ⟨bytes, rfl, rfl⟩ := mem_runListener he
    have hsame := runListeners_same app before
    rw [runListeners_eq] at hsame
    replace hsame : SameButListeners app (Listeners.machine.run app before) := hsame
    exact .inr ⟨bytes, hmem, by rw [hsame.eq]⟩

theorem runListeners_quiet (app : AppData) {es : List (ClientEvent AppListener)}
    (h : calls es = []) : runListeners app es = (app, es.map .client) := by
  induction es with
  | nil => rfl
  | cons e es ih =>
    rw [calls, List.filterMap_cons] at h
    cases he : e.call? with
    | some c =>
      rw [he] at h
      cases h
    | none =>
      rw [he] at h
      rw [runListeners, runListener_quiet app he]
      simp only [ih h, List.cons_append, List.map_cons]
      rfl

/-- With one callback call among the events, the application is as that callback leaves it. -/
theorem runListeners_call (app : AppData) {es : List (ClientEvent AppListener)}
    {c : CallbackCall AppListener} (h : calls es = [c]) :
    ∃ before e after, es = before ++ e :: after ∧ calls before = [] ∧ e.call? = some c ∧
      calls after = [] ∧ (runListeners app es).1 = (runListener app e).1 := by
  obtain ⟨before, e, after, rfl, hbefore, he, hafter⟩ := List.filterMap_eq_cons_iff.mp h
  replace hbefore : calls before = [] := List.filterMap_eq_nil_iff.mpr hbefore
  refine ⟨before, e, after, rfl, hbefore, he, hafter, ?_⟩
  have hfirst := congrArg Prod.fst (runListeners_quiet app hbefore)
  have hlast := congrArg Prod.fst (runListeners_quiet (runListener app e).1 hafter)
  rw [runListeners_eq] at hfirst hlast ⊢
  rw [Machine.run_append, show Listeners.machine.run app before = app from hfirst, Machine.run_cons]
  exact hlast

/-- The application with another client. -/
abbrev AppData.withClient (app : AppData) (client : AppHTTPSClientData AppListener) : AppData :=
  { app with httpsClient := client }

/-- The bytes that the nixie module gets in an event of the client. -/
def nixieBytes : ClientEvent AppListener → List UInt8
  | .bufferReceived .nixie bytes => bytes.val
  | _ => []

/-- Without a call of the module's callback it gets no bytes. -/
theorem flatMap_nixieBytes_nil {es : List (ClientEvent AppListener)}
    (h : .bufferReceived .nixie ∉ calls es) : es.flatMap nixieBytes = [] := by
  rw [List.flatMap_eq_nil_iff]
  intro e he
  cases e with
  | bufferReceived k bytes =>
    cases k with
    | nixie =>
      have hmem : .bufferReceived .nixie ∈ calls es := List.mem_filterMap.mpr ⟨_, he, rfl⟩
      exact absurd hmem h
    | fetch => rfl
  | _ => rfl

/-- What a call of `APP_HTTPS_Client_Tasks` makes of the application, with the callbacks that it calls;
`client` is the client after it. -/
inductive HttpsStep (app : AppData) (net : NetAnswers) (client : AppHTTPSClientData AppListener) :
    AppData → List (CallbackCall AppListener) → Prop
  /-- No callback is called. A request that is in progress goes on, or loses its encryption. -/
  | quiet (h : Active client.state → Active app.httpsClient.state)
      (hlost : Active app.httpsClient.state → ¬ Active client.state →
        client.state = .closeConnection)
      (hidle : ¬ Active app.httpsClient.state → client.state = .idle) :
    HttpsStep app net client (app.withClient client) []
  | received (k : AppListener) (bytes : Received) (h : Active app.httpsClient.state)
      (hact : Active client.state) (hk : app.httpsClient.callbacks.bufferReceived = some k)
      (hbytes : (appHttpsClientTasks net app.httpsClient).2.flatMap nixieBytes =
        nixieBytes (.bufferReceived k bytes)) :
    HttpsStep app net client (runListener (app.withClient client) (.bufferReceived k bytes)).1
      [.bufferReceived k]
  | handled (k : AppListener) (h : ResponseEnds net app.httpsClient) (hact : ¬ Active client.state)
      (hk : app.httpsClient.callbacks.requestHandled = some k) :
    HttpsStep app net client (runListener (app.withClient client) (.requestHandled k)).1
      [.requestHandled k]
  | failed (k : AppListener) (h : Active app.httpsClient.state) (hact : ¬ Active client.state)
      (hk : app.httpsClient.callbacks.error = some k) :
    HttpsStep app net client (runListener (app.withClient client) (.error k)).1 [.error k]

theorem call?_eq_bufferReceived {e : ClientEvent AppListener} {k : AppListener}
    (h : e.call? = some (.bufferReceived k)) : ∃ bytes, e = .bufferReceived k bytes := by
  cases e <;> cases h
  exact ⟨_, rfl⟩

theorem call?_eq_requestHandled {e : ClientEvent AppListener} {k : AppListener}
    (h : e.call? = some (.requestHandled k)) : e = .requestHandled k := by
  cases e <;> cases h
  rfl

theorem call?_eq_error {e : ClientEvent AppListener} {k : AppListener}
    (h : e.call? = some (.error k)) : e = .error k := by
  cases e <;> cases h
  rfl

theorem appHttpsTasks_step (app : AppData) (net : NetAnswers)
    (hcb : ∃ l : Listener AppListener, Active app.httpsClient.state →
      app.httpsClient.callbacks = l.callbacks) :
    HttpsStep app net (appHttpsClientTasks net app.httpsClient).1 (appHttpsTasks app net).1
      (calls (appHttpsClientTasks net app.httpsClient).2) := by
  obtain ⟨l, hl⟩ := hcb
  unfold appHttpsTasks
  by_cases hact : Active app.httpsClient.state
  · obtain ⟨-, hcases⟩ := appHttpsClientTasks_active net hact
    rw [hl hact] at hcases
    rcases hcases with ⟨-, hact', hcs | hcs⟩ | ⟨-, hclose, hcs⟩ | ⟨-, hact', hcs | hcs⟩
    · simp only [runListeners_quiet _ hcs, hcs]
      exact .quiet (fun _ => hact) (fun _ hn => absurd hact' hn) (fun hn => absurd hact hn)
    · obtain ⟨before, e, after, hes, hbefore, he, hafter, hrun⟩ := runListeners_call
        (app.withClient (appHttpsClientTasks net app.httpsClient).1) hcs
      obtain ⟨bytes, rfl⟩ := call?_eq_bufferReceived he
      simp only
      rw [hrun, hcs]
      refine .received _ bytes hact hact' (by rw [hl hact]; rfl) ?_
      rw [hes, List.flatMap_append, List.flatMap_cons, flatMap_nixieBytes_nil (by rw [hbefore]; simp),
        flatMap_nixieBytes_nil (by rw [hafter]; simp), List.nil_append, List.append_nil]
    · simp only [runListeners_quiet _ hcs, hcs]
      exact .quiet (fun _ => hact) (fun _ _ => hclose) (fun hn => absurd hact hn)
    · obtain ⟨-, e, -, -, -, he, -, hrun⟩ := runListeners_call
        (app.withClient (appHttpsClientTasks net app.httpsClient).1) hcs
      obtain rfl := call?_eq_requestHandled he
      have hends : ResponseEnds net app.httpsClient :=
        requestHandled_called (by rw [hcs]; exact List.mem_singleton_self _)
      simp only
      rw [hrun, hcs]
      exact .handled _ hends hact' (by rw [hl hact]; rfl)
    · obtain ⟨-, e, -, -, -, he, -, hrun⟩ := runListeners_call
        (app.withClient (appHttpsClientTasks net app.httpsClient).1) hcs
      obtain rfl := call?_eq_error he
      simp only
      rw [hrun, hcs]
      exact .failed _ hact hact' (by rw [hl hact]; rfl)
  · obtain ⟨-, hidle, hcs, -⟩ := appHttpsClientTasks_inactive net hact
    simp only [runListeners_quiet _ hcs, hcs]
    exact .quiet (fun h => absurd hidle h.1) (fun h => absurd h hact) (fun _ => hidle)

/-- A call of the client changes the client, and what the listeners change. -/
theorem appHttpsTasks_same (app : AppData) (net : NetAnswers) :
    SameButListeners (app.withClient (appHttpsClientTasks net app.httpsClient).1)
      (appHttpsTasks app net).1 :=
  runListeners_same _ _

theorem appHttpsClientTasks_callbacks (net : NetAnswers) (d : AppHTTPSClientData AppListener) :
    (appHttpsClientTasks net d).1.callbacks = d.callbacks := by
  by_cases hact : Active d.state
  · exact (appHttpsClientTasks_active net hact).1
  · exact (appHttpsClientTasks_inactive net hact).1

/-! ## The nixie module -/

/-- The callbacks of the nixie module. -/
def nixieCallbacks : AppHttpsClientCallbacks AppListener := ⟨some .nixie, some .nixie, some .nixie⟩

/-- The next state, where no request is submitted or stored. -/
inductive NixieNext : AppNixieState → AppNixieState → Prop
  | idle : NixieNext .idle .idle
  | periodic : NixieNext .idle .beginHttpRequest
  | recover : NixieNext .error .idle
  | begin : NixieNext .beginHttpRequest .waitHttpsClient
  | clientBusy : NixieNext .waitHttpsClient .waitHttpsClient
  | display : NixieNext .shuffleServerValue .beginDisplaySequence
  | decode : NixieNext .beginDisplaySequence .decodeDisplayValue
  | encode : NixieNext .decodeDisplayValue .encodeShiftRegister
  | write : NixieNext .encodeShiftRegister .writeShiftRegister
  | shiftRegisterBusy : NixieNext .writeShiftRegister .writeShiftRegister
  | done : NixieNext .writeShiftRegister .idle

/-- The module once its request was submitted. -/
def AppNixieData.submit (d : AppNixieData) : AppNixieData :=
  { d with isValueParsed := false, cyclicBufferLen := 0, state := .waitHttpsResponse }

/-- What a call of `APP_Nixie_Tasks` makes of the application, with the writes through the pointers. -/
inductive NixieStep (app : AppData) : AppData → List NixieEvent → Prop
  | waiting (h : app.nixie.state = .waitHttpsResponse) : NixieStep app app []
  | submitted (h : app.nixie.state = .waitHttpsClient) (hidle : app.httpsClient.state = .idle) :
    NixieStep app
      { app with
        nixie := app.nixie.submit
        httpsClient := accept app.httpsClient (cstr app.nixie.requestUrl.toList) nixieCallbacks } []
  | stored (out : Address) (h : app.nixie.state = .shuffleServerValue)
      (hout : app.nixie.displayValueOut = some out) :
    NixieStep app
      (storeNixieEvents { app with nixie := (shuffleServerValueDigits app.nixie).1 }
        (shuffleServerValueDigits app.nixie).2)
      (shuffleServerValueDigits app.nixie).2
  | moved (nixie : AppNixieData) (shiftRegister : AppShiftRegisterData)
      (hnext : NixieNext app.nixie.state nixie.state)
      (hout : nixie.displayValueOut = app.nixie.displayValueOut)
      (hdisplay : nixie.state = .beginDisplaySequence → app.nixie.displayValueOut = none)
      (hbusy : app.nixie.state = .waitHttpsClient → app.httpsClient.state ≠ .idle)
      (hfetched : nixie.isFetchedOut = app.nixie.isFetchedOut) :
    NixieStep app { app with nixie, shiftRegister } []

/-- The writes through the pointers of `APP_Nixie_Fetch` only change the console's union. -/
theorem storeNixieEvents_eq (app : AppData) (es : List NixieEvent) :
    ∃ union, storeNixieEvents app es = { app with command.nixie := union } := by
  induction es generalizing app with
  | nil => exact ⟨app.command.nixie, rfl⟩
  | cons e es ih =>
    obtain ⟨union, hunion⟩ : ∃ union, storeNixieEvent app e = { app with command.nixie := union } := by
      cases e with
      | storeValue => exact ⟨_, rfl⟩
      | storeIsFetched dst => cases dst <;> exact ⟨_, rfl⟩
    obtain ⟨union', hrest⟩ := ih (storeNixieEvent app e)
    refine ⟨union', ?_⟩
    rw [storeNixieEvents, List.foldl_cons]
    rw [storeNixieEvents] at hrest
    rw [hrest, hunion]

@[simp] theorem storeNixieEvents_nixie (app : AppData) (es : List NixieEvent) :
    (storeNixieEvents app es).nixie = app.nixie := by
  obtain ⟨union, h⟩ := storeNixieEvents_eq app es
  rw [h]

theorem performPeriodicTasks_next (answers : NixieAnswers) {d : AppNixieData}
    (h : d.state = .idle) :
    NixieNext .idle (performPeriodicTasks answers d).state ∧
      (performPeriodicTasks answers d).displayValueOut = d.displayValueOut ∧
      (performPeriodicTasks answers d).isFetchedOut = d.isFetchedOut := by
  unfold performPeriodicTasks
  split
  · exact ⟨h ▸ .idle, rfl, rfl⟩
  · split
    · exact ⟨h ▸ .idle, rfl, rfl⟩
    · split
      · exact ⟨h ▸ .idle, rfl, rfl⟩
      · split
        · exact ⟨h ▸ .idle, rfl, rfl⟩
        · exact ⟨.periodic, rfl, rfl⟩

/-- The module leaves its error state, with or without another periodic task soon. -/
theorem recover_eq (answers : NixieAnswers) (d : AppNixieData) :
    (if d.taskFromPeriodic then schedulePeriodicTask answers d .fast else d).state = d.state ∧
      (if d.taskFromPeriodic then schedulePeriodicTask answers d .fast else d).displayValueOut =
        d.displayValueOut ∧
      (if d.taskFromPeriodic then schedulePeriodicTask answers d .fast else d).isFetchedOut =
        d.isFetchedOut := by
  split <;> exact ⟨rfl, rfl, rfl⟩

theorem appNixieModuleTasks_step (app : AppData) (answers : NixieAnswers) :
    ∃ events, NixieStep app (appNixieModuleTasks app answers).1 events ∧
      (appNixieModuleTasks app answers).2 = nixieSubmits app ++
        (if app.nixie.state = .idle ∧
            (appNixieModuleTasks app answers).1.nixie.state = .beginHttpRequest then
          [.started .periodic] else []) ++ events.map .nixie := by
  refine ⟨(appNixieTasks .nixie answers app.nixieView).2, ?_, ?_⟩
  · unfold appNixieModuleTasks
    simp only [appNixieTasks, AppData.nixieView]
    cases hs : app.nixie.state with
    | idle =>
      refine .moved _ app.shiftRegister ?_ ?_ (fun hd => ?_) (by simp [hs])
        (performPeriodicTasks_next answers rfl).2.2
      · rw [hs]
        exact (performPeriodicTasks_next answers rfl).1
      · exact (performPeriodicTasks_next answers rfl).2.1
      · cases hd ▸ (performPeriodicTasks_next answers rfl).1
    | error =>
      refine .moved _ app.shiftRegister ?_ ?_ (fun hd => ?_) (by simp [hs])
        (recover_eq answers { app.nixie with state := .idle }).2.2
      · rw [hs]
        exact (recover_eq answers { app.nixie with state := .idle }).1 ▸ .recover
      · exact (recover_eq answers { app.nixie with state := .idle }).2.1
      · cases hd ▸ (recover_eq answers { app.nixie with state := .idle }).1
    | beginHttpRequest =>
      exact .moved _ app.shiftRegister (by rw [hs]; exact .begin) rfl (fun hd => by cases hd)
        (by simp [hs]) rfl
    | waitHttpsClient =>
      by_cases hbusy : app.httpsClient.state = .idle
      · simp only [waitHttpsClientAndSendRequest, appHttpsClientRequest, appHttpsClientIsBusy, hbusy,
          ne_eq, not_true_eq_false, decide_false, Bool.false_eq_true, if_false]
        exact .submitted hs hbusy
      · simp only [waitHttpsClientAndSendRequest, appHttpsClientIsBusy, hbusy, ne_eq,
          not_false_eq_true, decide_true, if_true]
        exact .moved app.nixie app.shiftRegister (by rw [hs]; exact .clientBusy) rfl
          (fun hd => by rw [hs] at hd; cases hd) (fun _ => hbusy) rfl
    | waitHttpsResponse => exact .waiting hs
    | shuffleServerValue =>
      cases hout : app.nixie.displayValueOut with
      | some out => exact .stored out hs hout
      | none =>
        simp only [shuffleServerValueDigits, hout]
        exact .moved _ app.shiftRegister (by rw [hs]; exact .display) hout.symm (fun _ => hout)
          (by simp [hs]) rfl
    | beginDisplaySequence =>
      exact .moved _ app.shiftRegister (by rw [hs]; exact .decode) rfl (fun hd => by cases hd)
        (by simp [hs]) rfl
    | decodeDisplayValue =>
      exact .moved _ app.shiftRegister (by rw [hs]; exact .encode) rfl (fun hd => by cases hd)
        (by simp [hs]) rfl
    | encodeShiftRegister =>
      exact .moved _ app.shiftRegister (by rw [hs]; exact .write) rfl (fun hd => by cases hd)
        (by simp [hs]) rfl
    | writeShiftRegister =>
      dsimp only
      by_cases hbusy : appShiftRegisterIsBusy app.shiftRegister = true
      · simp only [writeShiftRegister, hbusy, if_true]
        exact .moved app.nixie app.shiftRegister (by rw [hs]; exact .shiftRegisterBusy) rfl
          (fun hd => by rw [hs] at hd; cases hd) (by simp [hs]) rfl
      · simp only [writeShiftRegister, hbusy, Bool.false_eq_true, if_false]
        exact .moved _ _ (by rw [hs]; exact .done) rfl (fun hd => by cases hd) (by simp [hs])
          rfl
  · simp only [appNixieModuleTasks, storeNixieEvents_nixie]
    rfl

/-! ## The console's tasks -/

section Tasks

open Scheduler

variable {app : AppData} {cmdIo : CmdIo} {callback : AppCommandTaskCallback}
  {checkAvailable : AppCommandTaskCheckAvailableCallback}

/-- The application after a call of a callback. -/
def afterPerform (task : AppCommandTaskData) (r : PerformResult) : AppData :=
  { r.2.1 with command.task := checkCallbackResult task r.1 }

@[simp] theorem afterPerform_httpsClient (task : AppCommandTaskData) (r : PerformResult) :
    (afterPerform task r).httpsClient = r.2.1.httpsClient := rfl

@[simp] theorem afterPerform_nixie (task : AppCommandTaskData) (r : PerformResult) :
    (afterPerform task r).nixie = r.2.1.nixie := rfl

@[simp] theorem afterPerform_fetch (task : AppCommandTaskData) (r : PerformResult) :
    (afterPerform task r).command.fetch = r.2.1.command.fetch := rfl

@[simp] theorem afterPerform_task (task : AppCommandTaskData) (r : PerformResult) :
    (afterPerform task r).command.task = checkCallbackResult task r.1 := rfl

theorem checkCallbackResult_pending {task : AppCommandTaskData}
    (hp : Pending task cmdIo callback checkAvailable) {result : AppCommandTaskCallbackResult}
    (h : (checkCallbackResult task result).state ≠ .none) :
    Pending (checkCallbackResult task result) cmdIo callback checkAvailable := by
  cases result with
  | running => exact ⟨hp.callback, hp.callbackCmdIo, hp.callbackCheckAvailable⟩
  | finished => exact absurd rfl h

theorem appCommandTasks_none (h : app.command.task.state = .none) (answers : CommandAnswers) :
    appCommandTasks app answers = (app, []) := by
  simp [appCommandTasks, appCommandTaskTasks, h]

theorem appCommandTasks_unavailable (h : app.command.task.state = .waitAvailable)
    (hp : Pending app.command.task cmdIo callback checkAvailable)
    (ha : performCheckAvailable checkAvailable app = false) (answers : CommandAnswers) :
    appCommandTasks app answers = (app, [.task (.checkAvailable checkAvailable false)]) := by
  simp [appCommandTasks, appCommandTaskTasks, h, checkStored, hp.callbackCheckAvailable,
    taskCallbacks, ha]

theorem appCommandTasks_invoke (h : app.command.task.state = .waitAvailable)
    (hp : Pending app.command.task cmdIo callback checkAvailable)
    (ha : performCheckAvailable checkAvailable app = true) (answers : CommandAnswers) :
    appCommandTasks app answers =
      (afterPerform { app.command.task with state := .running }
        (perform answers callback cmdIo .invoke app),
      .task (.checkAvailable checkAvailable true) ::
        .task (.call callback cmdIo .invoke (perform answers callback cmdIo .invoke app).1) ::
          (perform answers callback cmdIo .invoke app).2.2) := by
  simp [appCommandTasks, appCommandTaskTasks, h, checkStored, callStored,
    hp.callbackCheckAvailable, hp.callback, hp.callbackCmdIo, taskCallbacks, ha, afterPerform,
    Function.comp_def]

theorem appCommandTasks_update (h : app.command.task.state = .running)
    (hp : Pending app.command.task cmdIo callback checkAvailable) (answers : CommandAnswers) :
    appCommandTasks app answers =
      (afterPerform app.command.task (perform answers callback cmdIo .update app),
      .task (.call callback cmdIo .update (perform answers callback cmdIo .update app).1) ::
        (perform answers callback cmdIo .update app).2.2) := by
  simp [appCommandTasks, appCommandTaskTasks, h, callStored, hp.callback, hp.callbackCmdIo,
    taskCallbacks, afterPerform, Function.comp_def]

/-- What a call of the command task does: nothing, or a call of the callback that is stored, the first
one when its check has succeeded. -/
inductive CommandStep (app : AppData) (answers : CommandAnswers) : AppData × List AppEvent → Prop
  | waits (es : List TaskEvent) : CommandStep app answers (app, es.map .task)
  | performs (callback : AppCommandTaskCallback) (cmdIo : CmdIo) (mode : AppCommandTaskCallbackMode)
      (es : List TaskEvent) (hcallback : app.command.task.callback = some callback)
      (hinvoke : mode = .invoke → app.command.task.state = .waitAvailable ∧
        performCheckAvailable callback.ownCheck app = true) :
    CommandStep app answers
      (afterPerform { app.command.task with state := .running }
        (perform answers callback cmdIo mode app),
        es.map .task ++ (perform answers callback cmdIo mode app).2.2)

theorem appCommandTasks_step (answers : CommandAnswers)
    (hpending : app.command.task.state ≠ .none →
      ∃ cmdIo callback, Pending app.command.task cmdIo callback callback.ownCheck) :
    CommandStep app answers (appCommandTasks app answers) := by
  cases hs : app.command.task.state with
  | none =>
    rw [appCommandTasks_none hs]
    exact .waits []
  | waitAvailable =>
    obtain ⟨cmdIo, callback, hp⟩ := hpending (by simp [hs])
    cases ha : performCheckAvailable callback.ownCheck app with
    | false =>
      rw [appCommandTasks_unavailable hs hp ha]
      exact .waits [.checkAvailable callback.ownCheck false]
    | true =>
      rw [appCommandTasks_invoke hs hp ha]
      exact .performs callback cmdIo .invoke
        [.checkAvailable callback.ownCheck true, .call callback cmdIo .invoke _] hp.callback
        fun _ => ⟨hs, ha⟩
  | running =>
    obtain ⟨cmdIo, callback, hp⟩ := hpending (by simp [hs])
    have htask : app.command.task = { app.command.task with state := .running } := by rw [← hs]
    have hperforms : CommandStep app answers _ := .performs callback cmdIo .update
      [.call callback cmdIo .update (perform answers callback cmdIo .update app).1] hp.callback nofun
    rw [← htask] at hperforms
    rw [appCommandTasks_update hs hp]
    exact hperforms

end Tasks

/-! ## What a callback leaves alone -/

section Frame

variable (answers : CommandAnswers) {callback : AppCommandTaskCallback} (cmdIo : Option CmdIo)
  (mode : AppCommandTaskCallbackMode) (app : AppData)

theorem performRTC_frame (start : RtcView → RtcView × List RtcEvent)
    (report : AppData → List Printed) :
    ∃ v, (performRTC start report app cmdIo mode).2.1 = app.setRtcView v := by
  cases mode with
  | invoke => exact ⟨_, rfl⟩
  | update =>
    refine ⟨app.rtcView, ?_⟩
    unfold performRTC
    dsimp only
    split <;> rfl

/-- The RTC commands only touch the clock and the memory around it. -/
theorem perform_rtc (h : callback.ownCheck = .performRTCCheckAvailable) :
    ∃ v, (perform answers callback cmdIo mode app).2.1 = app.setRtcView v := by
  cases callback <;> first | exact performRTC_frame cmdIo mode app _ _ | cases h

theorem perform_flash (h : callback.ownCheck = .performFlashCheckAvailable) :
    (perform answers callback cmdIo mode app).2.1 = app := by
  cases callback <;> first | (cases mode <;> rfl) | cases h

theorem perform_shiftRegister (h : callback.ownCheck = .performShiftRegisterCheckAvailable) :
    ∃ shiftRegister, (perform answers callback cmdIo mode app).2.1 = { app with shiftRegister } := by
  cases callback <;> first | (cases mode <;> exact ⟨_, rfl⟩) | cases h

/-- `nixie` touches the nixie module and the console's union for it. -/
theorem perform_nixie (h : callback.ownCheck = .performNixieCheckAvailable) :
    ∃ nixie union, (perform answers callback cmdIo mode app).2.1 =
      { app with nixie, command.nixie := union } := by
  cases callback with
  | performNixieDisplay => cases mode <;> exact ⟨_, app.command.nixie, rfl⟩
  | performNixieFetch =>
    cases mode with
    | invoke =>
      obtain ⟨union, hunion⟩ := storeNixieEvents_eq
        { app with
          nixie := (appNixieFetch app.nixie fetchIsFetchedAddress fetchValueAddress).2.1 }
        (appNixieFetch app.nixie fetchIsFetchedAddress fetchValueAddress).2.2
      exact ⟨_, union, hunion⟩
    | update =>
      refine ⟨app.nixie, app.command.nixie, ?_⟩
      simp only [perform, performNixieFetch]
      split <;> rfl
  | _ => cases h

/-- `nixie display` of a module that is not idle leaves it alone. -/
theorem performNixieDisplay_busy (h : app.nixie.state ≠ .idle) :
    (performNixieDisplay app mode).2.1 = app := by
  cases mode with
  | invoke =>
    simp only [performNixieDisplay, performOnce, appNixieDisplay, appNixieIsBusy, h, ne_eq,
      not_false_eq_true, decide_true, if_true]
  | update => rfl

theorem performNixieFetch_busy (h : app.nixie.state ≠ .idle) :
    (performNixieFetch app cmdIo mode).2.1.nixie = app.nixie := by
  cases mode with
  | invoke =>
    simp only [performNixieFetch, appNixieFetch, appNixieIsBusy, h, ne_eq, not_false_eq_true,
      decide_true, if_true, storeNixieEvents_nixie]
  | update =>
    simp only [performNixieFetch]
    split <;> rfl

/-- `fetch` of an idle client. -/
theorem performFetch_invoke {app : AppData} (h : app.httpsClient.state = .idle) :
    performFetch app .invoke =
      (.running,
        { app with
          httpsClient := accept app.httpsClient (cstr app.command.fetch.url.toList) fetchCallbacks
          command.fetch.requestActive := true },
        [.submitted .fetch]) := by
  simp [performFetch, appHttpsClientRequest, appHttpsClientIsBusy, h, accept]

/-- Only `fetch` uses the client. -/
theorem perform_client (h : callback ≠ .performFetch) :
    (perform answers callback cmdIo mode app).2.1.httpsClient = app.httpsClient ∧
      (perform answers callback cmdIo mode app).2.1.command.fetch = app.command.fetch := by
  cases hc : callback.ownCheck with
  | performFetchCheckAvailable => cases callback <;> first | exact absurd rfl h | cases hc
  | performFlashCheckAvailable => rw [perform_flash answers cmdIo mode app hc]; exact ⟨rfl, rfl⟩
  | performNixieCheckAvailable =>
    obtain ⟨nixie, union, heq⟩ := perform_nixie answers cmdIo mode app hc
    rw [heq]
    exact ⟨rfl, rfl⟩
  | performRTCCheckAvailable =>
    obtain ⟨v, heq⟩ := perform_rtc answers cmdIo mode app hc
    rw [heq]
    exact ⟨rfl, rfl⟩
  | performShiftRegisterCheckAvailable =>
    obtain ⟨shiftRegister, heq⟩ := perform_shiftRegister answers cmdIo mode app hc
    rw [heq]
    exact ⟨rfl, rfl⟩

/-- An event that is about no request. -/
def AppEvent.isOutput : AppEvent → Prop
  | .task _ | .nixie _ | .rtc _ | .transferStatus _ | .shiftRegister _ | .print _ _ => True
  | .client _ | .submitted _ | .started _ => False

theorem performRTC_output (start : RtcView → RtcView × List RtcEvent)
    (report : AppData → List Printed) :
    ∀ e ∈ (performRTC start report app cmdIo mode).2.2, e.isOutput := by
  intro e he
  cases mode with
  | invoke =>
    obtain ⟨r, -, rfl⟩ := List.mem_map.mp he
    trivial
  | update =>
    unfold performRTC at he
    dsimp only at he
    split at he
    · cases he
    · obtain ⟨text, -, rfl⟩ := List.mem_map.mp he
      trivial

/-- Only the two `fetch` commands start requests. -/
theorem perform_output (h : callback ≠ .performFetch) (h' : callback ≠ .performNixieFetch) :
    ∀ e ∈ (perform answers callback cmdIo mode app).2.2, e.isOutput := by
  intro e he
  cases callback with
  | performFetch => exact absurd rfl h
  | performNixieFetch => exact absurd rfl h'
  | performFlashSectors =>
    cases mode
    · cases List.mem_singleton.mp he
      trivial
    · cases he
  | performFlashFormat =>
    cases mode
    · cases List.mem_singleton.mp he
      trivial
    · cases he
  | performNixieDisplay => cases mode <;> cases he
  | performShiftRegisterSetEnabled =>
    cases mode
    · obtain ⟨r, -, rfl⟩ := List.mem_map.mp he
      trivial
    · cases he
  | performShiftRegisterSetDisabled =>
    cases mode
    · obtain ⟨r, -, rfl⟩ := List.mem_map.mp he
      trivial
    · cases he
  | performShiftRegisterSendData => cases mode <;> cases he
  | _ => exact performRTC_output cmdIo mode app _ _ e he

/-- Only `nixie display` and `nixie fetch` use the nixie module. -/
theorem perform_nixie_other (h : callback.ownCheck ≠ .performNixieCheckAvailable) :
    (perform answers callback cmdIo mode app).2.1.nixie = app.nixie := by
  cases hc : callback.ownCheck with
  | performFetchCheckAvailable =>
    cases callback with
    | performFetch =>
      cases mode with
      | invoke =>
        simp only [perform, performFetch]
        split <;> rfl
      | update => rfl
    | _ => cases hc
  | performFlashCheckAvailable => rw [perform_flash answers cmdIo mode app hc]
  | performNixieCheckAvailable => exact absurd hc h
  | performRTCCheckAvailable =>
    obtain ⟨v, heq⟩ := perform_rtc answers cmdIo mode app hc
    rw [heq]
    rfl
  | performShiftRegisterCheckAvailable =>
    obtain ⟨shiftRegister, heq⟩ := perform_shiftRegister answers cmdIo mode app hc
    rw [heq]

/-- A callback of the console does not disturb a nixie module that is not idle. -/
theorem perform_nixie_busy (h : app.nixie.state ≠ .idle) :
    (perform answers callback cmdIo mode app).2.1.nixie = app.nixie := by
  by_cases hc : callback.ownCheck = .performNixieCheckAvailable
  · cases callback with
    | performNixieDisplay => exact congrArg AppData.nixie (performNixieDisplay_busy mode app h)
    | performNixieFetch => exact performNixieFetch_busy cmdIo mode app h
    | _ => cases hc
  · exact perform_nixie_other answers cmdIo mode app hc

end Frame

/-! ## A console line -/

/-- A line changes the console's data and whether the periodic tasks are enabled. -/
theorem runConsoleEvents_eq (app : AppData) (es : List ConsoleEvent) :
    ∃ enabled, (runConsoleEvents app es).1 =
      { app with nixie := appNixiePeriodicTasksSetEnabled app.nixie enabled } := by
  induction es generalizing app with
  | nil => exact ⟨app.nixie.periodicTasksEnabled, rfl⟩
  | cons e es ih =>
    cases e with
    | task e => exact ih app
    | periodicTasksSetEnabled enabled =>
      obtain ⟨enabled', h⟩ :=
        ih { app with nixie := appNixiePeriodicTasksSetEnabled app.nixie enabled }
      exact ⟨enabled', h⟩

theorem appLine_eq (app : AppData) (line : ConsoleLine) :
    ∃ enabled, (appLine app line).1 =
      { app with
        nixie := appNixiePeriodicTasksSetEnabled app.nixie enabled
        command := (consoleLine app.command line).1 } :=
  runConsoleEvents_eq { app with command := (consoleLine app.command line).1 } _

/-- A line while a task is scheduled or running. -/
theorem appLine_busy {app : AppData} (h : app.command.task.state ≠ .none) (line : ConsoleLine) :
    appLine app line = (app, []) := by
  unfold appLine
  rw [consoleLine_busy h]
  rfl

end NixieTracker
