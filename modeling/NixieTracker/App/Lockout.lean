import NixieTracker.App.Fetch

/-!
# The console is locked out

While a task is scheduled or running the console takes no other command. Some tasks never end.

* `LockedOut`: the three ways. A flash command waits for a flash module in its error state; a nixie
  command, or `fetch`, waits for the end of a request that the client has dropped.
* `LocksOut`: the calls that lead there. The flash module fails while a command waits for it, the
  encryption of a request is refused, or a command is typed that has to wait for ever.
* `lockedOut_step`: after a call the console is locked out if and only if it was before, or the call
  locks it out; `lockedOut_run` for a run.
-/

namespace NixieTracker

open Lib HttpsClient Scheduler

/-- The task waits until the flash module is available. -/
def AwaitsFlash (task : AppCommandTaskData) : Prop :=
  task.state = .waitAvailable ∧ task.callbackCheckAvailable = some .performFlashCheckAvailable

/-- The task waits until the nixie module is available, or until its value is fetched. -/
def AwaitsNixie (task : AppCommandTaskData) : Prop :=
  (task.state = .waitAvailable ∧
      task.callbackCheckAvailable = some .performNixieCheckAvailable) ∨
    (task.state = .running ∧ task.callback = some .performNixieFetch)

/-- `fetch` waits for the end of its request. -/
structure AwaitsFetch (d : AppCommandData) : Prop where
  running : d.task.state = .running
  callback : d.task.callback = some .performFetch
  requestActive : d.fetch.requestActive = true

/-- The callbacks of a listener. -/
def AppListener.callbacks : AppListener → AppHttpsClientCallbacks AppListener
  | .nixie => nixieCallbacks
  | .fetch => fetchCallbacks

/-- The client serves a request with these callbacks. -/
def Serves (client : AppHTTPSClientData AppListener)
    (callbacks : AppHttpsClientCallbacks AppListener) : Prop :=
  Active client.state ∧ client.callbacks = callbacks

/-- The nixie module waits for a response, but the client does not serve its request. -/
def NixieAbandoned (app : AppData) : Prop :=
  app.nixie.state = .waitHttpsResponse ∧ ¬ Serves app.httpsClient nixieCallbacks

/-- The task waits for something that does not come. -/
inductive LockedOut (app : AppData) : Prop
  | flash (h : AwaitsFlash app.command.task) (herror : app.flash.state = .error)
  | nixie (h : AwaitsNixie app.command.task) (habandoned : NixieAbandoned app)
  | fetch (h : AwaitsFetch app.command) (habandoned : ¬ Serves app.httpsClient fetchCallbacks)

/-- The call of `APP_Flash_Tasks` ends in the error state. -/
def FlashFails (answers : FlashAnswers) (d : AppFlashData) : Prop :=
  match d.state with
  | .registerMedia => answers.isReady = true ∧ answers.register = false
  | .ensureFormatted =>
    match answers.driveSectorGet with
    | none => True
    | some (totalSectors, _) => totalSectors = 0 ∧ d.formatAttempted = true
  | .format => answers.driveFormat = false
  | .mountDisk | .idle | .error => False

/-- The call locks the console out. -/
def LocksOut (app : AppData) : AppCall → Prop
  | .flashTasks answers => AwaitsFlash app.command.task ∧ FlashFails answers app.flash
  | .httpsClientTasks net =>
    EncryptRefused app.httpsClient (.tasks net) ∧
      (app.httpsClient.callbacks = nixieCallbacks → AwaitsNixie app.command.task)
  | .line line =>
    let task := (consoleLine app.command line).1.task
    (AwaitsFlash task ∧ app.flash.state = .error) ∨ (AwaitsNixie task ∧ NixieAbandoned app)
  | .rtcTasks _ | .shiftRegisterTasks | .nixieTasks _ | .commandTasks _ => False

/-! ## What it depends on -/

theorem LockedOut.task_ne_none {app : AppData} (h : LockedOut app) :
    app.command.task.state ≠ .none := by
  intro hnone
  cases h with
  | flash h =>
    rw [h.1] at hnone
    cases hnone
  | nixie h =>
    rcases h with ⟨h, -⟩ | ⟨h, -⟩ <;> rw [h] at hnone <;> cases hnone
  | fetch h =>
    rw [h.running] at hnone
    cases hnone

theorem LockedOut.congr {app app' : AppData} (h : LockedOut app)
    (htask : app'.command.task = app.command.task)
    (hfetch : app'.command.fetch = app.command.fetch) (hflash : app'.flash = app.flash)
    (hnixie : app.nixie.state = .waitHttpsResponse → app'.nixie.state = .waitHttpsResponse)
    (hclient : app'.httpsClient = app.httpsClient) : LockedOut app' := by
  cases h with
  | flash h herror => exact .flash (htask ▸ h) (hflash ▸ herror)
  | nixie h hstuck => exact .nixie (htask ▸ h) ⟨hnixie hstuck.1, hclient ▸ hstuck.2⟩
  | fetch h hlost =>
    refine .fetch ⟨?_, ?_, ?_⟩ (hclient ▸ hlost)
    · rw [htask, h.running]
    · rw [htask, h.callback]
    · rw [hfetch, h.requestActive]

/-- A call that changes nothing of it. -/
theorem lockedOut_congr {app app' : AppData} (htask : app'.command.task = app.command.task)
    (hfetch : app'.command.fetch = app.command.fetch) (hflash : app'.flash = app.flash)
    (hnixie : app'.nixie.state = .waitHttpsResponse ↔ app.nixie.state = .waitHttpsResponse)
    (hclient : app'.httpsClient = app.httpsClient) : LockedOut app' ↔ LockedOut app :=
  ⟨fun h => h.congr htask.symm hfetch.symm hflash.symm hnixie.mp hclient.symm,
    fun h => h.congr htask hfetch hflash hnixie.mpr hclient⟩

/-! ## The calls of the modules -/

theorem appFlashTasks_error_iff (answers : FlashAnswers) (d : AppFlashData) :
    (appFlashTasks answers d).state = .error ↔ d.state = .error ∨ FlashFails answers d := by
  unfold appFlashTasks FlashFails
  cases hs : d.state with
  | registerMedia => cases answers.isReady <;> cases answers.register <;> simp [hs]
  | mountDisk => cases answers.mount <;> simp [hs]
  | ensureFormatted =>
    cases answers.driveSectorGet with
    | none => simp
    | some sectors =>
      by_cases hzero : sectors.1 = 0 <;> cases hf : d.formatAttempted <;> simp [hzero]
  | format => cases answers.driveFormat <;> simp
  | idle => simp [hs]
  | error => simp [hs]

theorem lockedOut_flash (app : AppData) (answers : FlashAnswers) :
    LockedOut { app with flash := appFlashTasks answers app.flash } ↔
      LockedOut app ∨ LocksOut app (.flashTasks answers) := by
  constructor
  · intro h
    cases h with
    | flash h herror =>
      rcases (appFlashTasks_error_iff answers app.flash).mp herror with herror | hfails
      · exact .inl (.flash h herror)
      · exact .inr ⟨h, hfails⟩
    | nixie h hstuck => exact .inl (.nixie h hstuck)
    | fetch h hlost => exact .inl (.fetch h hlost)
  · rintro (h | ⟨h, hfails⟩)
    · cases h with
      | flash h herror =>
        exact .flash h ((appFlashTasks_error_iff answers app.flash).mpr (.inl herror))
      | nixie h hstuck => exact .nixie h hstuck
      | fetch h hlost => exact .fetch h hlost
    · exact .flash h ((appFlashTasks_error_iff answers app.flash).mpr (.inr hfails))

/-- A request that loses its encryption ends without a callback, and no other does. -/
theorem encryptRefused_iff {client : AppHTTPSClientData AppListener} (net : NetAnswers)
    {l : Listener AppListener} (hcb : client.callbacks = l.callbacks) (hact : Active client.state) :
    EncryptRefused client (.tasks net) ↔
      ¬ Active (appHttpsClientTasks net client).1.state ∧
        calls (appHttpsClientTasks net client).2 = [] := by
  obtain ⟨-, hcases⟩ := appHttpsClientTasks_active net hact
  rw [hcb] at hcases
  rcases hcases with ⟨hno, hact', -⟩ | ⟨hrefused, hclose, hcs⟩ | ⟨hno, -, hcs | hcs⟩
  · exact iff_of_false hno fun h => h.1 hact'
  · refine iff_of_true hrefused ⟨fun h => ?_, hcs⟩
    exact h.2 hclose
  · refine iff_of_false hno fun h => ?_
    rw [hcs] at h
    cases h.2
  · refine iff_of_false hno fun h => ?_
    rw [hcs] at h
    cases h.2

/-- What a call of the client does to those who wait for it: nothing, or it drops the request without a
callback, or it calls the last callback of the request that it serves. -/
inductive ServiceStep (app : AppData) (net : NetAnswers) (app' : AppData) : Prop
  | kept (h : ¬ EncryptRefused app.httpsClient (.tasks net))
      (hserves : ∀ callbacks, Serves app'.httpsClient callbacks ↔ Serves app.httpsClient callbacks)
      (hnixie : app'.nixie.state = app.nixie.state)
      (hfetch : app'.command.fetch = app.command.fetch)
  | dropped (h : EncryptRefused app.httpsClient (.tasks net))
      (hact : ¬ Active app'.httpsClient.state) (hnixie : app'.nixie.state = app.nixie.state)
      (hfetch : app'.command.fetch = app.command.fetch)
  | nixieEnded (h : ¬ EncryptRefused app.httpsClient (.tasks net))
      (hserves : Serves app.httpsClient nixieCallbacks) (hact : ¬ Active app'.httpsClient.state)
      (hnixie : app'.nixie.state ∈ [.shuffleServerValue, .idle, .error])
      (hfetch : app'.command.fetch = app.command.fetch)
  | fetchEnded (h : ¬ EncryptRefused app.httpsClient (.tasks net))
      (hserves : Serves app.httpsClient fetchCallbacks) (hact : ¬ Active app'.httpsClient.state)
      (hnixie : app'.nixie.state = app.nixie.state)
      (hfetch : app'.command.fetch.requestActive = false)

section Https

variable {app : AppData} {last : Option AppListener}

/-- The listener whose last callback is called has its request served. -/
theorem Listening.serves (h : Listening app last) (hact : Active app.httpsClient.state)
    {k : AppListener} (hk : app.httpsClient.callbacks.requestHandled = some k ∨
      app.httpsClient.callbacks.error = some k) :
    Serves app.httpsClient k.callbacks := by
  refine ⟨hact, ?_⟩
  rcases h.registered hact with hcb | hcb
  · rw [hcb] at hk ⊢
    obtain rfl : AppListener.nixie = k := by rcases hk with hk | hk <;> exact Option.some.inj hk
    rfl
  · rw [hcb] at hk ⊢
    obtain rfl : AppListener.fetch = k := by rcases hk with hk | hk <;> exact Option.some.inj hk
    rfl

theorem appHttpsTasks_service (h : Listening app last) (net : NetAnswers) :
    (appHttpsTasks app net).1.command.task = app.command.task ∧
      (appHttpsTasks app net).1.flash = app.flash ∧
      ServiceStep app net (appHttpsTasks app net).1 := by
  obtain ⟨l, hl⟩ := h.listener
  have hcb := appHttpsClientTasks_callbacks net app.httpsClient
  have hrefused := fun hact => encryptRefused_iff net (hl hact) hact
  have hstep := appHttpsTasks_step app net h.listener
  generalize (appHttpsClientTasks net app.httpsClient).1 = client at hcb hstep hrefused
  generalize calls (appHttpsClientTasks net app.httpsClient).2 = cs at hstep hrefused
  generalize (appHttpsTasks app net).1 = app' at hstep
  have hno : Active app.httpsClient.state → cs ≠ [] → ¬ EncryptRefused app.httpsClient (.tasks net) :=
    fun hact hcs hr => hcs ((hrefused hact).mp hr).2
  cases hstep with
  | quiet hact =>
    refine ⟨rfl, rfl, ?_⟩
    by_cases hr : EncryptRefused app.httpsClient (.tasks net)
    · have hactive : Active app.httpsClient.state := by simp [Active, hr.1]
      exact .dropped hr ((hrefused hactive).mp hr).1 rfl rfl
    · refine .kept hr (fun callbacks => ⟨fun hs => ⟨hact hs.1, hcb ▸ hs.2⟩, fun hs => ?_⟩) rfl rfl
      refine ⟨?_, hcb.trans hs.2⟩
      by_contra hlost
      exact hr ((hrefused hs.1).mpr ⟨hlost, rfl⟩)
  | received k bytes hact hact' hk =>
    have hserves : ∀ callbacks, Serves client callbacks ↔ Serves app.httpsClient callbacks :=
      fun callbacks => ⟨fun hs => ⟨hact, hcb ▸ hs.2⟩, fun hs => ⟨hact', hcb.trans hs.2⟩⟩
    cases k with
    | nixie =>
      exact ⟨rfl, rfl, .kept (hno hact (List.cons_ne_nil _ _)) hserves
        (bufferReceivedCallback_state app.nixie bytes) rfl⟩
    | fetch => exact ⟨rfl, rfl, .kept (hno hact (List.cons_ne_nil _ _)) hserves rfl rfl⟩
  | handled k hends hact' hk =>
    have hact : Active app.httpsClient.state := by simp [Active, hends.state]
    have hencrypted := hno hact (List.cons_ne_nil _ _)
    have hserves := h.serves hact (.inl hk)
    cases k with
    | nixie =>
      refine ⟨rfl, rfl, .nixieEnded hencrypted hserves hact' ?_ rfl⟩
      show (requestHandledCallback app.nixie).state ∈ _
      simp only [requestHandledCallback]
      split <;> simp
    | fetch => exact ⟨rfl, rfl, .fetchEnded hencrypted hserves hact' rfl rfl⟩
  | failed k hact hact' hk =>
    have hencrypted := hno hact (List.cons_ne_nil _ _)
    have hserves := h.serves hact (.inr hk)
    cases k with
    | nixie =>
      refine ⟨rfl, rfl, .nixieEnded hencrypted hserves hact' ?_ rfl⟩
      show (errorCallback app.nixie).state ∈ _
      simp [errorCallback]
    | fetch => exact ⟨rfl, rfl, .fetchEnded hencrypted hserves hact' rfl rfl⟩

theorem not_serves_both {client : AppHTTPSClientData AppListener}
    (hn : Serves client nixieCallbacks) (hf : Serves client fetchCallbacks) : False :=
  nixieCallbacks_ne_fetchCallbacks (hn.2.symm.trans hf.2)

theorem lockedOut_https (h : Listening app last) (net : NetAnswers) :
    LockedOut (appHttpsTasks app net).1 ↔ LockedOut app ∨ LocksOut app (.httpsClientTasks net) := by
  obtain ⟨htask, hflash, hservice⟩ := appHttpsTasks_service h net
  generalize (appHttpsTasks app net).1 = app' at htask hflash hservice
  have hgone : ∀ {callbacks}, ¬ Active app'.httpsClient.state →
      ¬ Serves app'.httpsClient callbacks := fun hact hs => hact hs.1
  constructor
  · intro hlocked
    cases hlocked with
    | flash h' herror => exact .inl (.flash (htask ▸ h') (hflash ▸ herror))
    | nixie h' hstuck =>
      rw [htask] at h'
      cases hservice with
      | kept hno hserves hnixie hfetch =>
        exact .inl (.nixie h' ⟨hnixie ▸ hstuck.1, fun hs => hstuck.2 ((hserves _).mpr hs)⟩)
      | dropped hr hact hnixie hfetch => exact .inr ⟨hr, fun _ => h'⟩
      | nixieEnded hno hserves hact hnixie hfetch =>
        rw [hstuck.1] at hnixie
        simp at hnixie
      | fetchEnded hno hserves hact hnixie hfetch =>
        exact .inl (.nixie h' ⟨hnixie ▸ hstuck.1, fun hs => not_serves_both hs hserves⟩)
    | fetch h' hlost =>
      have hwaits : app'.command.fetch = app.command.fetch → AwaitsFetch app.command :=
        fun hfetch => ⟨htask ▸ h'.running, htask ▸ h'.callback, hfetch ▸ h'.requestActive⟩
      cases hservice with
      | kept hno hserves hnixie hfetch =>
        exact .inl (.fetch (hwaits hfetch) fun hs => hlost ((hserves _).mpr hs))
      | dropped hr hact hnixie hfetch =>
        by_cases hcb : app.httpsClient.callbacks = fetchCallbacks
        · refine .inr ⟨hr, fun hcb' => ?_⟩
          exact absurd (hcb'.symm.trans hcb) nixieCallbacks_ne_fetchCallbacks
        · exact .inl (.fetch (hwaits hfetch) fun hs => hcb hs.2)
      | nixieEnded hno hserves hact hnixie hfetch =>
        exact .inl (.fetch (hwaits hfetch) fun hs => not_serves_both hserves hs)
      | fetchEnded hno hserves hact hnixie hfetch =>
        rw [h'.requestActive] at hfetch
        cases hfetch
  · rintro (hlocked | ⟨hr, hwaits⟩)
    · cases hlocked with
      | flash h' herror => exact .flash (htask ▸ h') (hflash ▸ herror)
      | nixie h' hstuck =>
        rw [← htask] at h'
        cases hservice with
        | kept hno hserves hnixie hfetch =>
          exact .nixie h' ⟨hnixie ▸ hstuck.1, fun hs => hstuck.2 ((hserves _).mp hs)⟩
        | dropped hr hact hnixie hfetch => exact .nixie h' ⟨hnixie ▸ hstuck.1, hgone hact⟩
        | nixieEnded hno hserves hact hnixie hfetch => exact absurd hserves hstuck.2
        | fetchEnded hno hserves hact hnixie hfetch =>
          exact .nixie h' ⟨hnixie ▸ hstuck.1, hgone hact⟩
      | fetch h' hlost =>
        have hwaits : app'.command.fetch = app.command.fetch → AwaitsFetch app'.command :=
          fun hfetch => ⟨htask ▸ h'.running, htask ▸ h'.callback, hfetch ▸ h'.requestActive⟩
        cases hservice with
        | kept hno hserves hnixie hfetch =>
          exact .fetch (hwaits hfetch) fun hs => hlost ((hserves _).mp hs)
        | dropped hr hact hnixie hfetch => exact .fetch (hwaits hfetch) (hgone hact)
        | nixieEnded hno hserves hact hnixie hfetch => exact .fetch (hwaits hfetch) (hgone hact)
        | fetchEnded hno hserves hact hnixie hfetch => exact absurd hserves hlost
    · -- The request is dropped, and its listener waits.
      cases hservice with
      | dropped _ hact' hnixie hfetch =>
        have hact : Active app.httpsClient.state := by simp [Active, hr.1]
        rcases h.registered hact with hcb | hcb
        · exact .nixie (htask ▸ hwaits hcb) ⟨hnixie ▸ (h.nixie hact hcb).1, hgone hact'⟩
        · obtain ⟨hrunning, hcallback, hactive, -⟩ := h.fetch hact hcb
          refine .fetch ⟨?_, ?_, ?_⟩ (hgone hact')
          · rw [htask, hrunning]
          · rw [htask, hcallback]
          · rw [hfetch, hactive]
      | kept hno => exact absurd hr hno
      | nixieEnded hno => exact absurd hr hno
      | fetchEnded hno => exact absurd hr hno

end Https

/-- The nixie module ends no such waiting, and begins none. -/
theorem lockedOut_nixie (app : AppData) (answers : NixieAnswers) :
    LockedOut (appNixieModuleTasks app answers).1 ↔ LockedOut app := by
  obtain ⟨events, hstep, -⟩ := appNixieModuleTasks_step app answers
  generalize (appNixieModuleTasks app answers).1 = app' at hstep
  cases hstep with
  | waiting => exact Iff.rfl
  | submitted hs hidle =>
    have hserves : Serves
        (accept app.httpsClient (cstr app.nixie.requestUrl.toList) nixieCallbacks) nixieCallbacks :=
      ⟨by simp [Active, accept], rfl⟩
    constructor
    · intro hlocked
      cases hlocked with
      | flash h herror => exact .flash h herror
      | nixie h hstuck => exact absurd hserves hstuck.2
      | fetch h hlost => exact .fetch h fun hf => hf.1.1 hidle
    · intro hlocked
      cases hlocked with
      | flash h herror => exact .flash h herror
      | nixie h hstuck =>
        have hwaits := hstuck.1
        rw [hs] at hwaits
        cases hwaits
      | fetch h hlost => exact .fetch h fun hf => not_serves_both hserves hf
  | stored out hs hout =>
    obtain ⟨union, heq⟩ := storeNixieEvents_eq
      { app with nixie := (shuffleServerValueDigits app.nixie).1 }
      (shuffleServerValueDigits app.nixie).2
    rw [heq]
    refine lockedOut_congr rfl rfl rfl (iff_of_false ?_ (by simp [hs])) rfl
    show (shuffleServerValueDigits app.nixie).1.state ≠ .waitHttpsResponse
    simp [shuffleServerValueDigits, hout]
  | moved nixie shiftRegister hnext =>
    generalize hs : app.nixie.state = s at hnext
    generalize hs' : nixie.state = s' at hnext
    refine lockedOut_congr rfl rfl rfl (iff_of_false ?_ ?_) rfl
    · show nixie.state ≠ .waitHttpsResponse
      rw [hs']
      rintro rfl
      cases hnext
    · rw [hs]
      rintro rfl
      cases hnext

/-! ## The command task -/

section Command

variable {app : AppData}

theorem perform_update (answers : CommandAnswers) (callback : AppCommandTaskCallback)
    (cmdIo : Option CmdIo) (app : AppData) :
    (perform answers callback cmdIo .update app).2.1 = app := by
  cases callback with
  | performNixieFetch =>
    simp only [perform, performNixieFetch]
    split <;> rfl
  | performFetch | performFlashSectors | performFlashFormat | performNixieDisplay => rfl
  | performShiftRegisterSetEnabled | performShiftRegisterSetDisabled
  | performShiftRegisterSendData => rfl
  | _ =>
    simp only [perform, performRTCOscillatorStart, performRTCOscillatorStop,
      performRTCOscillatorStatus, performRTCDateShow, performRTCDateSet, performRTCBatteryEnable,
      performRTCBatteryDisable, performRTCBatteryStatus, performRTCDump, performRTCRegisterRead,
      performRTCRegisterWrite, performRTC]
    split <;> rfl

/-- An update that does not finish the task changes nothing. -/
theorem appCommandTasks_running (hs : app.command.task.state = .running) {cmdIo : CmdIo}
    {callback : AppCommandTaskCallback} {checkAvailable : AppCommandTaskCheckAvailableCallback}
    (hp : Pending app.command.task cmdIo callback checkAvailable) {answers : CommandAnswers}
    (hr : (perform answers callback cmdIo .update app).1 = .running) :
    (appCommandTasks app answers).1 = app := by
  rw [appCommandTasks_update hs hp, afterPerform, perform_update, hr]
  simp only [checkCallbackResult]
  rw [← hs]

theorem appCommandTasks_finished (hs : app.command.task.state = .running) {cmdIo : CmdIo}
    {callback : AppCommandTaskCallback} {checkAvailable : AppCommandTaskCheckAvailableCallback}
    (hp : Pending app.command.task cmdIo callback checkAvailable) {answers : CommandAnswers}
    (hr : (perform answers callback cmdIo .update app).1 = .finished) :
    (appCommandTasks app answers).1.command.task.state = .none := by
  rw [appCommandTasks_update hs hp, afterPerform, hr]
  rfl

/-- The callback is called again and again. -/
theorem LockedOut.update_running (h : LockedOut app) (hs : app.command.task.state = .running)
    {cmdIo : CmdIo} {callback : AppCommandTaskCallback}
    (hcallback : app.command.task.callback = some callback) (answers : CommandAnswers) :
    (perform answers callback cmdIo .update app).1 = .running := by
  cases h with
  | flash h =>
    rw [h.1] at hs
    cases hs
  | nixie h hstuck =>
    rcases h with ⟨hwait, -⟩ | ⟨-, hfetch⟩
    · rw [hwait] at hs
      cases hs
    · obtain rfl := Option.some.inj (hcallback.symm.trans hfetch)
      simp [perform, performNixieFetch, appNixieIsBusy, hstuck.1]
  | fetch h =>
    obtain rfl := Option.some.inj (hcallback.symm.trans h.callback)
    simp [perform, performFetch, h.requestActive]

/-- The module stays busy. -/
theorem LockedOut.unavailable (h : LockedOut app) (hs : app.command.task.state = .waitAvailable)
    {checkAvailable : AppCommandTaskCheckAvailableCallback}
    (hcheck : app.command.task.callbackCheckAvailable = some checkAvailable) :
    performCheckAvailable checkAvailable app = false := by
  cases h with
  | flash h herror =>
    obtain rfl := Option.some.inj (hcheck.symm.trans h.2)
    simp [performCheckAvailable, performFlashCheckAvailable, appFlashIsBusy, herror]
  | nixie h hstuck =>
    rcases h with ⟨-, hnixie⟩ | ⟨hrunning, -⟩
    · obtain rfl := Option.some.inj (hcheck.symm.trans hnixie)
      simp [performCheckAvailable, performNixieCheckAvailable, appNixieIsBusy, hstuck.1]
    · rw [hrunning] at hs
      cases hs
  | fetch h =>
    rw [h.running] at hs
    cases hs

/-- A callback that is invoked finds what it waits for under way. -/
theorem not_lockedOut_invoked {cmdIo : CmdIo} {callback : AppCommandTaskCallback}
    (hp : Pending app.command.task cmdIo callback callback.ownCheck)
    (ha : performCheckAvailable callback.ownCheck app = true) (answers : CommandAnswers) :
    ¬ LockedOut (afterPerform { app.command.task with state := .running }
      (perform answers callback cmdIo .invoke app)) := by
  intro h
  have hstate : (checkCallbackResult { app.command.task with state := .running }
      (perform answers callback cmdIo .invoke app).1).state ≠ .waitAvailable := by
    cases (perform answers callback cmdIo .invoke app).1 <;> simp [checkCallbackResult,
      appCmdTaskSetCallback]
  have hcallback : ∀ {c}, (checkCallbackResult { app.command.task with state := .running }
      (perform answers callback cmdIo .invoke app).1).callback = some c → callback = c := by
    intro c hc
    cases hr : (perform answers callback cmdIo .invoke app).1 with
    | running =>
      rw [hr] at hc
      exact Option.some.inj (hp.callback.symm.trans hc)
    | finished =>
      rw [hr] at hc
      cases hc
  cases h with
  | flash h => exact hstate h.1
  | nixie h hstuck =>
    rcases h with ⟨hwait, -⟩ | ⟨-, hc⟩
    · exact hstate hwait
    · obtain rfl := hcallback hc
      have hidle : app.nixie.state = .idle := by
        simpa [performCheckAvailable, AppCommandTaskCallback.ownCheck, performNixieCheckAvailable,
          appNixieIsBusy] using ha
      have hbegin := congrArg AppNixieData.state (performNixieFetch_idle hidle cmdIo)
      have hwaits := hstuck.1
      rw [afterPerform_nixie] at hwaits
      exact absurd (hwaits.symm.trans hbegin) (by simp)
  | fetch h hlost =>
    obtain rfl := hcallback h.callback
    have hidle : app.httpsClient.state = .idle := by
      simpa [performCheckAvailable, AppCommandTaskCallback.ownCheck, performFetchCheckAvailable,
        appHttpsClientIsBusy] using ha
    refine hlost ?_
    simp only [afterPerform_httpsClient, perform, performFetch_invoke hidle]
    exact ⟨by simp [Active, accept], rfl⟩

theorem lockedOut_command {last : Option AppListener} (h : Listening app last)
    (answers : CommandAnswers) : LockedOut (appCommandTasks app answers).1 ↔ LockedOut app := by
  cases hs : app.command.task.state with
  | none => rw [appCommandTasks_none hs]
  | waitAvailable =>
    obtain ⟨cmdIo, callback, hp⟩ := h.task (by simp [hs])
    cases ha : performCheckAvailable callback.ownCheck app with
    | false => rw [appCommandTasks_unavailable hs hp ha]
    | true =>
      rw [appCommandTasks_invoke hs hp ha]
      refine iff_of_false (not_lockedOut_invoked hp ha answers) fun hlocked => ?_
      rw [hlocked.unavailable hs hp.callbackCheckAvailable] at ha
      cases ha
  | running =>
    obtain ⟨cmdIo, callback, hp⟩ := h.task (by simp [hs])
    cases hr : (perform answers callback cmdIo .update app).1 with
    | running => rw [appCommandTasks_running hs hp hr]
    | finished =>
      refine iff_of_false (fun hlocked => ?_) fun hlocked => ?_
      · exact hlocked.task_ne_none (appCommandTasks_finished hs hp hr)
      · rw [hlocked.update_running hs hp.callback] at hr
        cases hr

end Command

/-! ## A line -/

theorem lockedOut_line (app : AppData) (line : ConsoleLine) :
    LockedOut (appLine app line).1 ↔ LockedOut app ∨ LocksOut app (.line line) := by
  by_cases hs : app.command.task.state = .none
  · obtain ⟨enabled, heq⟩ := appLine_eq app line
    rw [heq]
    constructor
    · intro hlocked
      cases hlocked with
      | flash h herror => exact .inr (.inl ⟨h, herror⟩)
      | nixie h hstuck => exact .inr (.inr ⟨h, hstuck⟩)
      | fetch h hlost =>
        exfalso
        have hrunning : (consoleLine app.command line).1.task.state = .running := h.running
        generalize hres : consoleLine app.command line = res at hrunning
        cases hres ▸ consoleLine_result app.command line with
        | unchanged => cases hs.symm.trans hrunning
        | scheduled => cases hrunning
    · rintro (hlocked | ⟨h, herror⟩ | ⟨h, hstuck⟩)
      · exact absurd hs hlocked.task_ne_none
      · exact .flash h herror
      · exact .nixie h hstuck
  · rw [appLine_busy hs]
    refine (or_iff_left_of_imp ?_).symm
    rintro (⟨h, herror⟩ | ⟨h, hstuck⟩) <;> rw [consoleLine_busy hs] at h
    · exact .flash h herror
    · exact .nixie h hstuck

/-! ## Runs -/

theorem lockedOut_step {app : AppData} {last : Option AppListener} (h : Listening app last)
    (call : AppCall) :
    LockedOut (App.machine.step app call).1 ↔ LockedOut app ∨ LocksOut app call := by
  cases call with
  | flashTasks answers => exact lockedOut_flash app answers
  | httpsClientTasks net => exact lockedOut_https h net
  | nixieTasks answers => exact (lockedOut_nixie app answers).trans (or_iff_left id).symm
  | commandTasks answers => exact (lockedOut_command h answers).trans (or_iff_left id).symm
  | line line => exact lockedOut_line app line
  | rtcTasks answers =>
    have hsame : LockedOut (appRtcTasks app answers).1 ↔ LockedOut app :=
      lockedOut_congr rfl rfl rfl Iff.rfl rfl
    exact hsame.trans (or_iff_left id).symm
  | shiftRegisterTasks =>
    have hsame : LockedOut (appStep app .shiftRegisterTasks).1 ↔ LockedOut app :=
      lockedOut_congr rfl rfl rfl Iff.rfl rfl
    exact hsame.trans (or_iff_left id).symm

/-- After a run the console is locked out if and only if it was before, or a call locked it out. -/
theorem lockedOut_run {app : AppData} {last : Option AppListener} (h : Listening app last)
    (calls : List AppCall) :
    LockedOut (App.machine.run app calls) ↔
      LockedOut app ∨ ¬ App.machine.Along (fun app call => ¬ LocksOut app call) app calls := by
  induction calls generalizing app last with
  | nil => simp
  | cons call calls ih =>
    rw [Machine.run_cons, ih (listening_step app call last h), lockedOut_step h, Machine.along_cons,
      not_and_or, not_not, or_assoc]

theorem not_lockedOut_appInitialize (app : AppData) (i2cOpened : Bool) :
    ¬ LockedOut (appInitialize app i2cOpened) := fun h => h.task_ne_none rfl

end NixieTracker
