import NixieTracker.App.Listeners

/-!
# The response to the nixie module's request

What the client's callbacks, the module itself and the console's callbacks do to the module's data, and
what follows for the response that comes in pieces.

* `ResponseStep`: what a call of the client does to the module, with the bytes of the response.
* `SameButCommand`, `setUpFields`: what the other calls leave alone.
* `Answered`: what the module has of the response so far; kept by every call (`answered_https`,
  `answered_nixie`, `answered_perform`).
-/

namespace NixieTracker

open Lib HttpsClient Scheduler

/-! ## The client -/

theorem requestHandledCallback_state (d : AppNixieData) :
    (requestHandledCallback d).state =
      if (parseKeptValue d).isValueParsed then .shuffleServerValue else .idle := rfl

/-- What a call of the client does to the nixie module, with the bytes of its response. -/
inductive ResponseStep (d : AppNixieData) : AppNixieData → List UInt8 → Prop
  | quiet : ResponseStep d d []
  | received (bytes : Received) (h : d.state = .waitHttpsResponse) :
    ResponseStep d (bufferReceivedCallback d bytes) bytes.val
  | handled (h : d.state = .waitHttpsResponse) : ResponseStep d (requestHandledCallback d) []
  | failed (h : d.state = .waitHttpsResponse) : ResponseStep d (errorCallback d) []

/-- A module whose callback the client has waits for it. -/
theorem Listening.waits {app : AppData} {last : Option AppListener} (h : Listening app last)
    (hact : Active app.httpsClient.state)
    (hk : app.httpsClient.callbacks.bufferReceived = some .nixie ∨
      app.httpsClient.callbacks.requestHandled = some .nixie ∨
      app.httpsClient.callbacks.error = some .nixie) : app.nixie.state = .waitHttpsResponse := by
  rcases h.registered hact with hcb | hcb
  · exact (h.nixie hact hcb).1
  · rw [hcb] at hk
    rcases hk with hk | hk | hk <;> cases hk

theorem responseStep {app : AppData} {last : Option AppListener} (h : Listening app last)
    (net : NetAnswers) :
    ResponseStep app.nixie (appHttpsTasks app net).1.nixie
      ((appHttpsClientTasks net app.httpsClient).2.flatMap nixieBytes) := by
  have hstep := appHttpsTasks_step app net h.listener
  have hnone (h : .bufferReceived .nixie ∉ calls (appHttpsClientTasks net app.httpsClient).2) :
      (appHttpsClientTasks net app.httpsClient).2.flatMap nixieBytes = [] := flatMap_nixieBytes_nil h
  generalize (appHttpsTasks app net).1 = app' at hstep
  generalize (appHttpsClientTasks net app.httpsClient).1 = client at hstep
  generalize calls (appHttpsClientTasks net app.httpsClient).2 = cs at hstep hnone
  cases hstep with
  | quiet =>
    rw [hnone List.not_mem_nil]
    exact .quiet
  | received k bytes hact hact' hk hbytes =>
    rw [hbytes]
    cases k with
    | nixie => exact .received bytes (h.waits hact (.inl hk))
    | fetch => exact .quiet
  | handled k hends hact' hk =>
    rw [hnone (by simp)]
    cases k with
    | nixie => exact .handled (h.waits (by simp [Active, hends.state]) (.inr (.inl hk)))
    | fetch => exact .quiet
  | failed k hact hact' hk =>
    rw [hnone (by simp)]
    cases k with
    | nixie => exact .failed (h.waits hact (.inr (.inr hk)))
    | fetch => exact .quiet

/-! ## The module and the console -/

theorem appNixieModuleTasks_view (app : AppData) (answers : NixieAnswers) :
    (appNixieModuleTasks app answers).1.nixieView =
      (appNixieTasks .nixie answers app.nixieView).1 := by
  obtain ⟨union, heq⟩ := storeNixieEvents_eq
    (app.setNixieView (appNixieTasks .nixie answers app.nixieView).1)
    (appNixieTasks .nixie answers app.nixieView).2
  rw [appNixieModuleTasks]
  simp only [heq]
  rfl

theorem appNixieModuleTasks_nixie (app : AppData) (answers : NixieAnswers) :
    (appNixieModuleTasks app answers).1.nixie =
      (appNixieTasks .nixie answers app.nixieView).1.nixie :=
  congrArg NixieView.nixie (appNixieModuleTasks_view app answers)

theorem performNixieFetch_idle {app : AppData} (h : app.nixie.state = .idle)
    (cmdIo : Option CmdIo) :
    (performNixieFetch app cmdIo .invoke).2.1.nixie =
      { app.nixie with
        state := .beginHttpRequest
        isFetchedOut := some fetchIsFetchedAddress
        displayValueOut := some fetchValueAddress } := by
  simp [performNixieFetch, appNixieFetch, appNixieIsBusy, h]

/-- A callback that starts no request leaves the module alone, or makes it display something. -/
theorem perform_nixie_display (answers : CommandAnswers) (callback : AppCommandTaskCallback)
    (cmdIo : Option CmdIo) (mode : AppCommandTaskCallbackMode) (app : AppData)
    (h : ¬ (callback = .performNixieFetch ∧ mode = .invoke)) :
    (perform answers callback cmdIo mode app).2.1.nixie = app.nixie ∨
      ∃ displayValue, (perform answers callback cmdIo mode app).2.1.nixie =
        { app.nixie with displayValue, state := .beginDisplaySequence } := by
  by_cases hc : callback.ownCheck = .performNixieCheckAvailable
  · cases callback with
    | performNixieDisplay =>
      cases mode with
      | invoke =>
        simp only [perform, performNixieDisplay, performOnce, appNixieDisplay]
        split
        · exact .inl rfl
        · exact .inr ⟨_, rfl⟩
      | update => exact .inl rfl
    | performNixieFetch =>
      cases mode with
      | invoke => exact absurd ⟨rfl, rfl⟩ h
      | update =>
        left
        simp only [perform, performNixieFetch]
        split <;> rfl
    | _ => cases hc
  · exact .inl (perform_nixie_other answers cmdIo mode app hc)

/-- The fields that the console's callbacks write. -/
structure SameButCommand (d d' : AppNixieData) : Prop where
  eq : d' = { d with
    state := d'.state
    displayValue := d'.displayValue
    isFetchedOut := d'.isFetchedOut
    displayValueOut := d'.displayValueOut }

theorem perform_same (answers : CommandAnswers) (callback : AppCommandTaskCallback)
    (cmdIo : Option CmdIo) (mode : AppCommandTaskCallbackMode) (app : AppData) :
    SameButCommand app.nixie (perform answers callback cmdIo mode app).2.1.nixie := by
  by_cases hf : callback = .performNixieFetch ∧ mode = .invoke
  · obtain ⟨rfl, rfl⟩ := hf
    by_cases hidle : app.nixie.state = .idle
    · show SameButCommand _ (performNixieFetch app cmdIo .invoke).2.1.nixie
      rw [performNixieFetch_idle hidle cmdIo]
      exact ⟨rfl⟩
    · show SameButCommand _ (performNixieFetch app cmdIo .invoke).2.1.nixie
      rw [performNixieFetch_busy cmdIo .invoke app hidle]
      exact ⟨rfl⟩
  · rcases perform_nixie_display answers callback cmdIo mode app hf with hn | ⟨value, hn⟩
    · rw [hn]
      exact ⟨rfl⟩
    · rw [hn]
      exact ⟨rfl⟩

theorem appCommandTasks_same {app : AppData} {last : Option AppListener} (h : Listening app last)
    (answers : CommandAnswers) :
    SameButCommand app.nixie (appCommandTasks app answers).1.nixie := by
  have hstep := appCommandTasks_step answers h.task
  generalize appCommandTasks app answers = result at hstep ⊢
  cases hstep with
  | waits es => exact ⟨rfl⟩
  | performs callback cmdIo mode es => exact perform_same answers callback cmdIo mode app

/-! ## What only `APP_Nixie_Initialize` sets -/

/-- The tubes with their wiring, and the request with its token. -/
def AppNixieData.setUpFields (d : AppNixieData) :=
  (d.numNixies, d.nixieTypes, d.cathodeMapping, d.numShiftRegisters, d.requestUrl, d.token, d.tokenLen,
    d.maxCyclicBufferLen)

theorem SameButResponse.setUpFields {d d' : AppNixieData} (h : SameButResponse d d') :
    d'.setUpFields = d.setUpFields := by
  rw [h.eq]
  rfl

theorem SameButCommand.setUpFields {d d' : AppNixieData} (h : SameButCommand d d') :
    d'.setUpFields = d.setUpFields := by
  rw [h.eq]
  rfl

theorem ScanConfig.congr {tok : List UInt8} {d d' : AppNixieData} (h : ScanConfig tok d)
    (heq : d'.setUpFields = d.setUpFields) : ScanConfig tok d' := by
  simp only [AppNixieData.setUpFields, Prod.mk.injEq] at heq
  obtain ⟨hnum, -, -, -, -, htoken, hlen, hmax⟩ := heq
  exact ⟨hnum.trans h.numNixies, htoken ▸ h.token, hlen.trans h.tokenLen, hmax.trans h.maxLen,
    h.nonempty, h.short⟩

theorem performPeriodicTasks_setUpFields (answers : NixieAnswers) (d : AppNixieData) :
    (performPeriodicTasks answers d).setUpFields = d.setUpFields := by
  unfold performPeriodicTasks
  repeat' split
  all_goals rfl

theorem appNixieTasks_setUpFields {κ : Type} (self : κ) (answers : NixieAnswers) (v : NixieView κ) :
    (appNixieTasks self answers v).1.nixie.setUpFields = v.nixie.setUpFields := by
  unfold appNixieTasks
  simp only
  cases hs : v.nixie.state with
  | idle => exact performPeriodicTasks_setUpFields answers _
  | error =>
    simp only
    split <;> rfl
  | waitHttpsClient =>
    simp only [waitHttpsClientAndSendRequest]
    split
    · rfl
    · split <;> rfl
  | shuffleServerValue =>
    simp only [shuffleServerValueDigits]
    split <;> rfl
  | writeShiftRegister =>
    simp only [writeShiftRegister]
    split <;> rfl
  | _ => rfl

theorem setUpFields_step {app : AppData} {last : Option AppListener} (h : Listening app last)
    (call : AppCall) : (App.machine.step app call).1.nixie.setUpFields = app.nixie.setUpFields := by
  cases call with
  | httpsClientTasks net => exact (appHttpsTasks_same app net).nixie.setUpFields
  | nixieTasks answers =>
    show (appNixieModuleTasks app answers).1.nixie.setUpFields = _
    rw [appNixieModuleTasks_nixie]
    exact appNixieTasks_setUpFields _ _ _
  | commandTasks answers => exact (appCommandTasks_same h answers).setUpFields
  | line line =>
    obtain ⟨enabled, heq⟩ := appLine_eq app line
    show (appLine app line).1.nixie.setUpFields = _
    rw [heq]
    rfl
  | rtcTasks answers => rfl
  | flashTasks answers => rfl
  | shiftRegisterTasks => rfl

/-! ## The response so far -/

/-- What the module has of the response `body`. -/
structure Answered (body : List UInt8) (d : AppNixieData) : Prop where
  config : ScanConfig defaultToken d
  responding : d.state = .waitHttpsResponse → ∃ v, Scan defaultToken v body d
  parsed : d.state = .shuffleServerValue → ∃ p, FirstAt defaultToken body p ∧
    d.displayValue = parsedDisplay (leadingDigits maxNixieTubes (body.drop (p + defaultToken.length)))

/-- In the other states the module has nothing of a response. -/
theorem Answered.of_state {body : List UInt8} {d : AppNixieData} (h : ScanConfig defaultToken d)
    (hwait : d.state ≠ .waitHttpsResponse) (hshuffle : d.state ≠ .shuffleServerValue) :
    Answered body d :=
  ⟨h, fun hs => absurd hs hwait, fun hs => absurd hs hshuffle⟩

theorem answered_https {app : AppData} {last : Option AppListener} {body : List UInt8}
    (hlast : Listening app last) (h : Answered body app.nixie) (net : NetAnswers) :
    Answered (body ++ (appHttpsClientTasks net app.httpsClient).2.flatMap nixieBytes)
      (appHttpsTasks app net).1.nixie := by
  have hstep := responseStep hlast net
  have hconfig := (appHttpsTasks_same app net).nixie.config h.config
  generalize (appHttpsTasks app net).1.nixie = d' at hstep hconfig
  generalize (appHttpsClientTasks net app.httpsClient).2.flatMap nixieBytes = bytes at hstep
  cases hstep with
  | quiet =>
    rw [List.append_nil]
    exact h
  | received bytes hs =>
    have hstate := (bufferReceivedCallback_state app.nixie bytes).trans hs
    obtain ⟨v, hscan⟩ := h.responding hs
    refine ⟨hconfig, fun _ => ⟨v, bufferReceivedCallback_scan h.config hscan bytes⟩, fun hp => ?_⟩
    rw [hstate] at hp
    cases hp
  | handled hs =>
    obtain ⟨v, hscan⟩ := h.responding hs
    rw [List.append_nil]
    rcases absent_or_firstAt h.config.nonempty body with ha | ⟨p, hp⟩
    · obtain ⟨-, hstate, -⟩ := requestHandledCallback_absent h.config hscan ha
      exact .of_state hconfig (by simp [hstate]) (by simp [hstate])
    · obtain ⟨-, hstate, hvalue⟩ := requestHandledCallback_found h.config hscan hp
      refine ⟨hconfig, fun hw => ?_, fun _ => ⟨p, hp, hvalue⟩⟩
      cases hstate.symm.trans hw
  | failed hs => exact .of_state hconfig (by simp [errorCallback]) (by simp [errorCallback])

/-- The module starts with an empty response once its request is submitted. -/
theorem answered_nixie {app : AppData} {body : List UInt8} (h : Answered body app.nixie)
    (answers : NixieAnswers) :
    Answered (if app.nixie.state = .waitHttpsClient ∧ app.httpsClient.state = .idle then [] else body)
      (appNixieModuleTasks app answers).1.nixie := by
  have hconfig : ScanConfig defaultToken (appNixieModuleTasks app answers).1.nixie := by
    refine h.config.congr ?_
    rw [appNixieModuleTasks_nixie]
    exact appNixieTasks_setUpFields _ _ _
  obtain ⟨events, hstep, -⟩ := appNixieModuleTasks_step app answers
  generalize (appNixieModuleTasks app answers).1 = app' at hstep hconfig
  cases hstep with
  | waiting hs =>
    rw [if_neg (by simp [hs])]
    exact h
  | submitted hs hidle =>
    rw [if_pos ⟨hs, hidle⟩]
    exact ⟨hconfig, fun _ => ⟨_, scan_reset hconfig rfl rfl⟩, fun hp => by cases hp⟩
  | stored out hs hsome =>
    have hstate : (storeNixieEvents { app with nixie := (shuffleServerValueDigits app.nixie).1 }
        (shuffleServerValueDigits app.nixie).2).nixie.state = .idle := by
      rw [storeNixieEvents_nixie, shuffleServerValueDigits_state, hsome]
      rfl
    exact .of_state hconfig (by rw [hstate]; nofun) (by rw [hstate]; nofun)
  | moved nixie shiftRegister hnext =>
    replace hconfig : ScanConfig defaultToken nixie := hconfig
    show Answered _ nixie
    have hstates : nixie.state ≠ .waitHttpsResponse ∧ nixie.state ≠ .shuffleServerValue := by
      generalize app.nixie.state = s at hnext
      generalize nixie.state = s' at hnext
      cases hnext <;> exact ⟨nofun, nofun⟩
    exact .of_state hconfig hstates.1 hstates.2

/-- A callback of the console starts a request or a display of an idle module, or leaves the module
alone. -/
theorem answered_perform {app : AppData} {body body' : List UInt8} (h : Answered body app.nixie)
    (answers : CommandAnswers) (callback : AppCommandTaskCallback) (cmdIo : Option CmdIo)
    (mode : AppCommandTaskCallbackMode) (hbody : app.nixie.state ≠ .idle → body' = body) :
    Answered body' (perform answers callback cmdIo mode app).2.1.nixie := by
  by_cases hidle : app.nixie.state = .idle
  · have hconfig : ScanConfig defaultToken (perform answers callback cmdIo mode app).2.1.nixie :=
      h.config.congr (perform_same answers callback cmdIo mode app).setUpFields
    by_cases hf : callback = .performNixieFetch ∧ mode = .invoke
    · obtain ⟨rfl, rfl⟩ := hf
      have hnixie : (perform answers .performNixieFetch cmdIo .invoke app).2.1.nixie = _ :=
        performNixieFetch_idle hidle cmdIo
      exact .of_state hconfig (by simp [hnixie]) (by simp [hnixie])
    · rcases perform_nixie_display answers callback cmdIo mode app hf with hn | ⟨value, hn⟩
      · exact .of_state hconfig (by simp [hn, hidle]) (by simp [hn, hidle])
      · exact .of_state hconfig (by simp [hn]) (by simp [hn])
  · rw [perform_nixie_busy answers cmdIo mode app hidle, hbody hidle]
    exact h

theorem Answered.setEnabled {body : List UInt8} {d : AppNixieData} (h : Answered body d)
    (enabled : Bool) : Answered body (appNixiePeriodicTasksSetEnabled d enabled) := by
  refine ⟨h.config.congr rfl, fun hs => ?_, h.parsed⟩
  obtain ⟨v, hscan⟩ := h.responding hs
  refine ⟨v, ?_⟩
  cases hscan with
  | absent h parsed display keeps => exact .absent h parsed display keeps
  | waiting p h parsed display keeps short => exact .waiting p h parsed display keeps short
  | parsed p h parsed display enough => exact .parsed p h parsed display enough

/-- The digits that the module has at the end of a response, as it shows them. -/
theorem Answered.shuffled {body : List UInt8} {d : AppNixieData} (h : Answered body d)
    (hs : d.state = .shuffleServerValue) : ∃ p, FirstAt defaultToken body p ∧
      (shuffleServerValueDigits d).1.displayValue.toList =
        shownDigits (leadingDigits maxNixieTubes (body.drop (p + defaultToken.length))) := by
  obtain ⟨p, hfirst, hvalue⟩ := h.parsed hs
  have hn := h.config.numNixies
  refine ⟨p, hfirst, ?_⟩
  rw [shuffleServerValueDigits_displayValue]
  exact shuffledDigits_toList hn (holdsDigits_parsedDisplay hn hvalue)

end NixieTracker
