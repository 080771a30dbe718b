import Mathlib.Order.Lattice.Nat
import NixieTracker.App.Lockout
import NixieTracker.App.Shifting
import NixieTracker.Rtc.Operation

/-!
# The console accepts commands again

A continuation that brings the command task to its state `none`, from every reachable state that is not
locked out.

* `UnlockInv`: what a reachable state has that the continuation relies on. A transmission of the shift
  register module ends within 115 calls; what can be sent is one to six bytes long.
* `AppRound.rescue`: in each round of the continuation the bus reports an error, the file system
  answers that all is well, and the network connects and sends nothing back.
* `Lower`: each call of such a round changes nothing, or it brings the task on, or one of the modules
  (`rescue_step`). So the rounds come to a state that none of their calls changes.
* `settled_none`: in such a state the task is done, or the console is locked out.
* `console_unlocks_iff`: both together; `flash_sectors_waits_forever`: a command for a flash module in
  its error state.
-/

namespace NixieTracker

open Lib HttpsClient Scheduler

/-! ## The invariant -/

structure UnlockInv (app : AppData) : Prop extends Shifting.ShiftReady app where
  ends : Display.IdleWithin 115 app.shiftRegister

/-- The nixie module keeps what the console's tasks use. -/
theorem appNixieModuleTasks_command (app : AppData) (answers : NixieAnswers) :
    (appNixieModuleTasks app answers).1.command.task = app.command.task ∧
      (appNixieModuleTasks app answers).1.flash = app.flash ∧
      (appNixieModuleTasks app answers).1.rtc = app.rtc := by
  obtain ⟨union, heq⟩ := storeNixieEvents_eq
    (app.setNixieView (appNixieTasks .nixie answers app.nixieView).1)
    (appNixieTasks .nixie answers app.nixieView).2
  rw [appNixieModuleTasks]
  simp only [heq]
  exact ⟨rfl, rfl, rfl⟩

theorem unlockInv_step (app : AppData) (call : AppCall) (h : UnlockInv app) :
    UnlockInv (App.machine.step app call).1 :=
  ⟨Shifting.shiftReady_step h.toShiftReady call, Shifting.idleWithin_step h.toShiftReady h.ends call⟩

theorem unlockInv_appInitialize (app : AppData) (i2cOpened : Bool) :
    UnlockInv (appInitialize app i2cOpened) :=
  ⟨Shifting.shiftReady_appInitialize app i2cOpened,
    Display.idleWithin_sending _ _ (show 1 ≤ 6 by decide) (Nat.le_refl _) 0⟩

/-! ## The continuation -/

/-- The bus reports an error, the file system answers that all is well, the network connects and sends
nothing back, and no interface is there for a periodic request. -/
def AppRound.rescue : AppRound :=
  { AppRound.calm with flash := ⟨true, true, true, true, some (1, 1)⟩ }

def taskRank : AppCommandTaskState → Nat
  | .none => 0
  | .running => 1
  | .waitAvailable => 2

def rtcRank (rtc : RtcMcp7940n) : Nat := if rtcIsBusy rtc then 1 else 0

def flashRank : AppFlashState → Nat
  | .idle | .error => 0
  | .ensureFormatted => 1
  | .format | .mountDisk => 2
  | .registerMedia => 3

def clientRank : AppHTTPSClientState → Nat
  | .idle => 0
  | .error | .closeConnection => 1
  | .waitForResponse => 2
  | .sendRequest => 3
  | .waitForSslConnect => 4
  | .waitForConnection => 5
  | .startConnection => 6
  | .waitOnDns => 7
  | .processRequest => 8
  | .parseRequestUrl => 9
  | .waitForNetwork => 10
  | .beginSequence => 11

/-- The calls until the shift register module is idle. -/
noncomputable def shiftRegisterRank (d : AppShiftRegisterData) : Nat :=
  sInf {k | Display.IdleWithin k d}

def nixieRank : AppNixieState → Nat
  | .idle => 0
  | .error | .writeShiftRegister => 1
  | .encodeShiftRegister => 2
  | .decodeDisplayValue => 3
  | .beginDisplaySequence => 4
  | .shuffleServerValue => 5
  | .waitHttpsResponse => 6
  | .waitHttpsClient => 7
  | .beginHttpRequest => 8

/-- The nixie module starts requests and transmissions, so its rank weighs more than theirs. -/
noncomputable def viewRank (v : NixieView AppListener) : Nat :=
  200 * nixieRank v.nixie.state + v.nixie.taskFromPeriodic.toNat +
    clientRank v.httpsClient.state + shiftRegisterRank v.shiftRegister

noncomputable def modulesRank (app : AppData) : Nat :=
  viewRank app.nixieView + flashRank app.flash.state + rtcRank app.rtc

/-- The task has gone on, or it has not and the modules have. -/
def Lower : AppData → AppData → Prop :=
  InvImage (Prod.Lex (· < ·) (· < ·)) fun app => (taskRank app.command.task.state, modulesRank app)

theorem lower_wf : WellFounded Lower :=
  InvImage.wf _ (WellFounded.prod_lex Nat.lt_wfRel.wf Nat.lt_wfRel.wf)

theorem lower_of_task {app app' : AppData}
    (h : taskRank app'.command.task.state < taskRank app.command.task.state) : Lower app' app :=
  .left _ _ h

theorem lower_of_modules {app app' : AppData} (htask : app'.command.task = app.command.task)
    (h : modulesRank app' < modulesRank app) : Lower app' app := by
  show Prod.Lex _ _ (taskRank app'.command.task.state, _) (taskRank app.command.task.state, _)
  rw [htask]
  exact .right _ h

theorem not_lower_self (app : AppData) : ¬ Lower app app := lower_wf.irrefl.irrefl app

/-- The bus reports an error to a transfer that is under way. -/
theorem rescue_rtc (app : AppData) :
    ((appRtcTasks app AppRound.rescue.rtc).1 = app ∧ rtcIsBusy app.rtc = false) ∨
      Lower (appRtcTasks app AppRound.rescue.rtc).1 app := by
  cases hbusy : rtcIsBusy app.rtc with
  | false =>
    refine .inl ⟨?_, rfl⟩
    simp only [appRtcTasks, rtcTasks_idle (v := app.rtcView) hbusy]
    rfl
  | true =>
    have hstate : app.rtcView.rtc.state = .i2cStausCheck := (rtcIsBusy_iff _).mp hbusy
    have hnot : rtcIsBusy (appRtcTasks app AppRound.rescue.rtc).1.rtc = false := by
      simp only [appRtcTasks, rtcTasks, hstate]
      rfl
    refine .inr (lower_of_modules rfl ?_)
    show modulesRank (appRtcTasks app AppRound.rescue.rtc).1 < _
    have hrank : rtcRank (appRtcTasks app AppRound.rescue.rtc).1.rtc < rtcRank app.rtc := by
      simp [rtcRank, hbusy, hnot]
    exact Nat.add_lt_add_left hrank _

theorem rescue_flash (app : AppData) :
    (appFlashTasks AppRound.rescue.flash app.flash = app.flash ∧
        (app.flash.state = .idle ∨ app.flash.state = .error)) ∨
      Lower { app with flash := appFlashTasks AppRound.rescue.flash app.flash } app := by
  by_cases hs : app.flash.state = .idle ∨ app.flash.state = .error
  · refine .inl ⟨?_, hs⟩
    rcases hs with hs | hs <;> simp [appFlashTasks, hs]
  · refine .inr (lower_of_modules rfl ?_)
    have hrank : flashRank (appFlashTasks AppRound.rescue.flash app.flash).state <
        flashRank app.flash.state := by
      obtain ⟨hidle, herror⟩ := not_or.mp hs
      unfold appFlashTasks
      cases hs : app.flash.state with
      | idle => exact absurd hs hidle
      | error => exact absurd hs herror
      | _ => simp [flashRank, AppRound.rescue]
    exact Nat.add_lt_add_right (Nat.add_lt_add_left hrank _) _

/-- With a network that answers at once every call brings a request on. -/
theorem clientRank_direct {κ : Type} {d : AppHTTPSClientData κ} (h : d.state ≠ .idle) :
    clientRank (appHttpsClientTasks (.direct true) d).1.state < clientRank d.state := by
  unfold appHttpsClientTasks
  cases hs : d.state with
  | idle => exact absurd hs h
  | parseRequestUrl =>
    simp only [pasreRequestURL, enterErrorState]
    split <;> simp [clientRank]
  | waitOnDns =>
    simp only [checkDNSResolveStatus, NetAnswers.direct, enterErrorState]
    split <;> simp [clientRank]
  | waitForConnection =>
    simp only [waitNetworkConnection, NetAnswers.direct, Bool.not_true, Bool.false_eq_true, if_false]
    split <;> simp [clientRank]
  | sendRequest =>
    simp only [NixieTracker.sendRequest, enterErrorState]
    split
    · rename_i hready
      simp [NetAnswers.direct] at hready
    · split <;> simp [clientRank]
  | beginSequence | waitForNetwork | processRequest | startConnection =>
    simp [clientRank, waitForNetworkAvailable, checkNetworkIsAvailable, processRequest,
      startNetworkConnection, NetAnswers.direct, invalidSocket]
  | closeConnection | waitForSslConnect | waitForResponse | error =>
    simp [clientRank, closeNetworkConnection, waitForSSLConnect, waitForResponse, handleError,
      NetAnswers.direct]

theorem rescue_https {app : AppData} (h : UnlockInv app) :
    ((appHttpsTasks app AppRound.rescue.net).1 = app ∧ app.httpsClient.state = .idle) ∨
      Lower (appHttpsTasks app AppRound.rescue.net).1 app := by
  obtain ⟨last, hlast⟩ := h.listening
  by_cases hidle : app.httpsClient.state = .idle
  · refine .inl ⟨?_, hidle⟩
    simp only [appHttpsTasks, appHttpsClientTasks, hidle]
    rfl
  · obtain ⟨htask, hflash, hservice⟩ := appHttpsTasks_service hlast AppRound.rescue.net
    have hsame := appHttpsTasks_same app AppRound.rescue.net
    have hshift : (appHttpsTasks app AppRound.rescue.net).1.shiftRegister = app.shiftRegister := by
      rw [hsame.eq]
    have hrtc : (appHttpsTasks app AppRound.rescue.net).1.rtc = app.rtc := by rw [hsame.eq]
    have hclient : (appHttpsTasks app AppRound.rescue.net).1.httpsClient =
        (appHttpsClientTasks AppRound.rescue.net app.httpsClient).1 := by rw [hsame.eq]
    have hflag : (appHttpsTasks app AppRound.rescue.net).1.nixie.taskFromPeriodic =
        app.nixie.taskFromPeriodic :=
      congrArg Prod.fst (appHttpsTasks_periodicFields app AppRound.rescue.net)
    have hrank : clientRank (appHttpsTasks app AppRound.rescue.net).1.httpsClient.state <
        clientRank app.httpsClient.state := by
      rw [hclient]
      exact clientRank_direct hidle
    have hnixie : nixieRank (appHttpsTasks app AppRound.rescue.net).1.nixie.state ≤
        nixieRank app.nixie.state := by
      cases hservice with
      | kept _ _ hsame => rw [hsame]
      | dropped _ _ hsame => rw [hsame]
      | fetchEnded _ _ _ hsame => rw [hsame]
      | nixieEnded _ hserves _ hended =>
        rw [(hlast.nixie hserves.1 hserves.2).1]
        simp only [List.mem_cons, List.not_mem_nil, or_false] at hended
        rcases hended with hs | hs | hs <;> simp [hs, nixieRank]
    refine .inr (lower_of_modules htask ?_)
    simp only [modulesRank, viewRank, AppData.nixieView, hflash, hshift, hrtc, hflag]
    omega

theorem shiftRegisterRank_tasks {d : AppShiftRegisterData} {k : Nat} (hk : Display.IdleWithin k d)
    (hbusy : d.state ≠ .idle) :
    shiftRegisterRank (appShiftRegisterTasks d).1 < shiftRegisterRank d := by
  have hsome : Set.Nonempty {k | Display.IdleWithin k d} := ⟨k, hk⟩
  have hmem : Display.IdleWithin (shiftRegisterRank d) d := Nat.sInf_mem hsome
  generalize shiftRegisterRank d = n at hmem
  cases n with
  | zero => exact absurd hmem hbusy
  | succ n => exact Nat.lt_succ_of_le (Nat.sInf_le (Display.idleWithin_tasks hmem))

theorem rescue_shiftRegister {app : AppData} (h : UnlockInv app) :
    ((appStep app .shiftRegisterTasks).1 = app ∧ app.shiftRegister.state = .idle) ∨
      Lower (appStep app .shiftRegisterTasks).1 app := by
  by_cases hidle : app.shiftRegister.state = .idle
  · refine .inl ⟨?_, hidle⟩
    simp only [appStep, appShiftRegisterTasks, hidle]
  · refine .inr (lower_of_modules rfl ?_)
    have hrank := shiftRegisterRank_tasks h.ends hidle
    show modulesRank { app with shiftRegister := (appShiftRegisterTasks app.shiftRegister).1 } < _
    simp only [modulesRank, viewRank, AppData.nixieView]
    omega

theorem performPeriodicTasks_offline {answers : NixieAnswers}
    (h : answers.hasUsableInterface = false) (d : AppNixieData) :
    performPeriodicTasks answers d = d := by
  simp [performPeriodicTasks, h]

/-- The module is idle, or it waits for the client or for the shift register module. -/
def NixieSettled (v : NixieView AppListener) : Prop :=
  v.nixie.state = .idle ∨ v.nixie.state = .waitHttpsResponse ∨
    (v.nixie.state = .waitHttpsClient ∧ v.httpsClient.state ≠ .idle) ∨
    (v.nixie.state = .writeShiftRegister ∧ v.shiftRegister.state ≠ .idle)

theorem rescue_nixieView {v : NixieView AppListener}
    (h : v.nixie.numShiftRegisters = numNixieShiftRegisters) {answers : NixieAnswers}
    (hoffline : answers.hasUsableInterface = false) :
    (appNixieTasks .nixie answers v = (v, []) ∧ NixieSettled v) ∨
      viewRank (appNixieTasks .nixie answers v).1 < viewRank v := by
  simp only [appNixieTasks]
  cases hs : v.nixie.state with
  | idle =>
    simp only [performPeriodicTasks_offline hoffline]
    cases hflag : v.nixie.taskFromPeriodic with
    | false =>
      refine .inl ⟨?_, .inl hs⟩
      rw [← hflag, ← hs]
    | true =>
      right
      simp [viewRank, hs, hflag, nixieRank]
  | error =>
    right
    by_cases hflag : v.nixie.taskFromPeriodic = true <;>
      simp [viewRank, hs, hflag, nixieRank, schedulePeriodicTask]
  | waitHttpsClient =>
    by_cases hidle : v.httpsClient.state = .idle
    · right
      simp only [waitHttpsClientAndSendRequest, appHttpsClientRequest, appHttpsClientIsBusy, hidle,
        ne_eq, not_true_eq_false, decide_false, Bool.false_eq_true, if_false]
      simp only [viewRank, hs, hidle, nixieRank, clientRank]
      omega
    · refine .inl ⟨?_, .inr (.inr (.inl ⟨hs, hidle⟩))⟩
      simp only [waitHttpsClientAndSendRequest, appHttpsClientIsBusy, hidle, ne_eq,
        not_false_eq_true, decide_true, if_true]
  | waitHttpsResponse => exact .inl ⟨rfl, .inr (.inl hs)⟩
  | shuffleServerValue =>
    right
    simp only [shuffleServerValueDigits]
    split <;> simp only [viewRank, hs, nixieRank] <;> omega
  | writeShiftRegister =>
    by_cases hidle : v.shiftRegister.state = .idle
    · right
      simp only [writeShiftRegister, appShiftRegisterIsBusy, hidle, ne_eq, not_true_eq_false,
        decide_false, Bool.false_eq_true, if_false]
      have hrank : shiftRegisterRank (appShiftRegisterSendData v.shiftRegister
          v.nixie.registerShiftState v.nixie.numShiftRegisters) ≤ 115 := by
        rw [h]
        exact Nat.sInf_le (Display.idleWithin_sending _ _ (by decide) (Nat.le_refl _) 0)
      simp only [viewRank, hs, nixieRank]
      omega
    · refine .inl ⟨?_, .inr (.inr (.inr ⟨hs, hidle⟩))⟩
      simp only [writeShiftRegister, appShiftRegisterIsBusy, hidle, ne_eq, not_false_eq_true,
        decide_true, if_true]
  | beginHttpRequest | beginDisplaySequence | decodeDisplayValue | encodeShiftRegister =>
    right
    simp only [viewRank, hs, nixieRank, decodeDisplayValue, encodeShiftRegister]
    omega

theorem rescue_nixie {app : AppData} (h : UnlockInv app) :
    ((appNixieModuleTasks app AppRound.rescue.nixie).1 = app ∧ NixieSettled app.nixieView) ∨
      Lower (appNixieModuleTasks app AppRound.rescue.nixie).1 app := by
  have hoffline : AppRound.rescue.nixie.hasUsableInterface = false := rfl
  rcases rescue_nixieView (v := app.nixieView) h.registers hoffline with ⟨hsame, hsettled⟩ | hrank
  · refine .inl ⟨?_, hsettled⟩
    simp only [appNixieModuleTasks, hsame]
    rfl
  · obtain ⟨htask, hflash, hrtc⟩ := appNixieModuleTasks_command app AppRound.rescue.nixie
    refine .inr (lower_of_modules htask ?_)
    simp only [modulesRank, appNixieModuleTasks_view, hflash, hrtc]
    omega

/-- The task is not called, or its callback does not finish it. -/
def TaskWaits (app : AppData) : Prop :=
  ∃ cmdIo callback, Pending app.command.task cmdIo callback callback.ownCheck ∧
    (app.command.task.state = .waitAvailable ∧
        performCheckAvailable callback.ownCheck app = false ∨
      app.command.task.state = .running ∧
        (perform AppRound.rescue.command callback cmdIo .update app).1 = .running)

theorem rescue_command {app : AppData} (h : UnlockInv app) :
    ((appCommandTasks app AppRound.rescue.command).1 = app ∧
        (app.command.task.state = .none ∨ TaskWaits app)) ∨
      Lower (appCommandTasks app AppRound.rescue.command).1 app := by
  obtain ⟨last, hlast⟩ := h.listening
  cases hs : app.command.task.state with
  | none =>
    rw [appCommandTasks_none hs]
    exact .inl ⟨rfl, .inl rfl⟩
  | waitAvailable =>
    obtain ⟨cmdIo, callback, hp⟩ := hlast.task (by simp [hs])
    cases ha : performCheckAvailable callback.ownCheck app with
    | false =>
      rw [appCommandTasks_unavailable hs hp ha]
      exact .inl ⟨rfl, .inr ⟨cmdIo, callback, hp, .inl ⟨hs, ha⟩⟩⟩
    | true =>
      rw [appCommandTasks_invoke hs hp ha]
      refine .inr (lower_of_task ?_)
      rw [afterPerform_task, hs]
      cases (perform AppRound.rescue.command callback cmdIo .invoke app).1 <;>
        simp [checkCallbackResult, appCmdTaskSetCallback, taskRank]
  | running =>
    obtain ⟨cmdIo, callback, hp⟩ := hlast.task (by simp [hs])
    cases hr : (perform AppRound.rescue.command callback cmdIo .update app).1 with
    | running =>
      exact .inl ⟨appCommandTasks_running hs hp hr,
        .inr ⟨cmdIo, callback, hp, .inr ⟨hs, hr⟩⟩⟩
    | finished =>
      refine .inr (lower_of_task ?_)
      rw [appCommandTasks_finished hs hp hr, hs]
      decide

/-- The answers of the continuation lock nobody out. -/
theorem not_locksOut_rescue (app : AppData) {call : AppCall}
    (hcall : call ∈ AppRound.rescue.calls) : ¬ LocksOut app call := by
  simp only [AppRound.calls, AppRound.rescue, AppRound.calm, List.map_nil, List.nil_append,
    List.mem_cons, List.not_mem_nil, or_false] at hcall
  rcases hcall with rfl | rfl | rfl | rfl | rfl | rfl
  · exact id
  · rintro ⟨-, hfails⟩
    unfold FlashFails at hfails
    split at hfails <;> simp at hfails
  · rintro ⟨⟨-, -, -, hrefused⟩, -⟩
    cases hrefused
  · exact id
  · exact id
  · exact id

/-- The invariant of the continuation. -/
def Unlocked (app : AppData) : Prop := UnlockInv app ∧ ¬ LockedOut app

theorem rescue_step {app : AppData} (h : Unlocked app) {call : AppCall}
    (hcall : call ∈ AppRound.rescue.calls) :
    Unlocked (App.machine.step app call).1 ∧
      ((App.machine.step app call).1 = app ∨ Lower (App.machine.step app call).1 app) := by
  obtain ⟨hinv, hfree⟩ := h
  obtain ⟨last, hlast⟩ := hinv.listening
  refine ⟨⟨unlockInv_step app call hinv, fun hlocked => ?_⟩, ?_⟩
  · exact ((lockedOut_step hlast call).mp hlocked).elim hfree (not_locksOut_rescue app hcall)
  · simp only [AppRound.calls, AppRound.rescue, AppRound.calm, List.map_nil, List.nil_append,
      List.mem_cons, List.not_mem_nil, or_false] at hcall
    rcases hcall with rfl | rfl | rfl | rfl | rfl | rfl
    · exact (rescue_rtc app).imp_left And.left
    · refine (rescue_flash app).imp_left fun hsame => ?_
      show { app with flash := appFlashTasks AppRound.rescue.flash app.flash } = app
      rw [hsame.1]
    · exact (rescue_https hinv).imp_left And.left
    · exact (rescue_shiftRegister hinv).imp_left And.left
    · exact (rescue_nixie hinv).imp_left And.left
    · exact (rescue_command hinv).imp_left And.left

/-- A task that waits for modules which are at rest is locked out. -/
theorem TaskWaits.lockedOut {app : AppData} (h : TaskWaits app) (hrtc : rtcIsBusy app.rtc = false)
    (hflash : app.flash.state = .idle ∨ app.flash.state = .error)
    (hclient : app.httpsClient.state = .idle) (hshift : app.shiftRegister.state = .idle)
    (hnixie : app.nixie.state = .idle ∨ app.nixie.state = .waitHttpsResponse) : LockedOut app := by
  have hserves : ∀ callbacks, ¬ Serves app.httpsClient callbacks := fun _ hs => hs.1.1 hclient
  obtain ⟨cmdIo, callback, hp, ⟨hs, ha⟩ | ⟨hs, hr⟩⟩ := h
  · have hcheck := hp.callbackCheckAvailable
    generalize callback.ownCheck = check at ha hcheck
    cases check with
    | performFetchCheckAvailable =>
      simp [performCheckAvailable, performFetchCheckAvailable, appHttpsClientIsBusy, hclient] at ha
    | performFlashCheckAvailable =>
      rcases hflash with hidle | herror
      · simp [performCheckAvailable, performFlashCheckAvailable, appFlashIsBusy, hidle] at ha
      · exact .flash ⟨hs, hcheck⟩ herror
    | performNixieCheckAvailable =>
      rcases hnixie with hidle | hwaits
      · simp [performCheckAvailable, performNixieCheckAvailable, appNixieIsBusy, hidle] at ha
      · exact .nixie (.inl ⟨hs, hcheck⟩) ⟨hwaits, hserves _⟩
    | performRTCCheckAvailable =>
      simp [performCheckAvailable, performRTCCheckAvailable, hrtc] at ha
    | performShiftRegisterCheckAvailable =>
      simp [performCheckAvailable, performShiftRegisterCheckAvailable, appShiftRegisterIsBusy,
        hshift] at ha
  · cases callback with
    | performFetch =>
      refine .fetch ⟨hs, hp.callback, ?_⟩ (hserves _)
      simpa [perform, performFetch] using hr
    | performNixieFetch =>
      rcases hnixie with hidle | hwaits
      · simp [perform, performNixieFetch, appNixieIsBusy, hidle] at hr
      · exact .nixie (.inr ⟨hs, hp.callback⟩) ⟨hwaits, hserves _⟩
    | performFlashSectors | performFlashFormat | performNixieDisplay => cases hr
    | performShiftRegisterSetEnabled | performShiftRegisterSetDisabled => cases hr
    | performShiftRegisterSendData => cases hr
    | _ =>
      simp [perform, performRTCOscillatorStart, performRTCOscillatorStop,
        performRTCOscillatorStatus, performRTCDateShow, performRTCDateSet, performRTCBatteryEnable,
        performRTCBatteryDisable, performRTCBatteryStatus, performRTCDump, performRTCRegisterRead,
        performRTCRegisterWrite, performRTC, hrtc] at hr

/-- In a state that no call of the continuation changes the task is done. -/
theorem settled_none {app : AppData} (h : Unlocked app)
    (hfixed : ∀ call ∈ AppRound.rescue.calls, (App.machine.step app call).1 = app) :
    app.command.task.state = .none := by
  obtain ⟨hinv, hfree⟩ := h
  have hrest : ∀ call ∈ AppRound.rescue.calls, ∀ {P : Prop},
      ((App.machine.step app call).1 = app ∧ P) ∨ Lower (App.machine.step app call).1 app → P := by
    intro call hcall P hcases
    rcases hcases with ⟨-, hP⟩ | hlower
    · exact hP
    · rw [hfixed call hcall] at hlower
      exact absurd hlower (not_lower_self app)
  have hrtc := hrest (.rtcTasks AppRound.rescue.rtc) (by simp [AppRound.calls]) (rescue_rtc app)
  have hflash : app.flash.state = .idle ∨ app.flash.state = .error := by
    rcases rescue_flash app with hsettled | hlower
    · exact hsettled.2
    · exact hrest (.flashTasks AppRound.rescue.flash) (by simp [AppRound.calls]) (.inr hlower)
  have hclient := hrest (.httpsClientTasks AppRound.rescue.net) (by simp [AppRound.calls])
    (rescue_https hinv)
  have hshift := hrest .shiftRegisterTasks (by simp [AppRound.calls]) (rescue_shiftRegister hinv)
  have hnixie : app.nixie.state = .idle ∨ app.nixie.state = .waitHttpsResponse := by
    rcases hrest (.nixieTasks AppRound.rescue.nixie) (by simp [AppRound.calls])
      (rescue_nixie hinv) with hidle | hwaits | ⟨-, hbusy⟩ | ⟨-, hbusy⟩
    · exact .inl hidle
    · exact .inr hwaits
    · exact absurd hclient hbusy
    · exact absurd hshift hbusy
  rcases hrest (.commandTasks AppRound.rescue.command) (by simp [AppRound.calls])
    (rescue_command hinv) with hnone | hwaits
  · exact hnone
  · exact absurd (hwaits.lockedOut hrtc hflash hclient hshift hnixie) hfree

/-! ## The property -/

/-- Wherever the iteration of the loop stands (`done` calls of it are over), some answers bring the
command task to its state `none`, in the rest of the iteration and in more of them. -/
def Unlocks (app : AppData) : Prop :=
  ∀ done : Nat, ∃ (round : AppRound) (rounds : List AppRound),
    (App.machine.run app (round.calls.drop done ++ loopCalls rounds)).command.task.state = .none

theorem Unlocked.unlocks {app : AppData} (h : Unlocked app) : Unlocks app := by
  intro done
  have hrest : Unlocked (App.machine.run app (AppRound.rescue.calls.drop done)) :=
    (Machine.run_fixed_or_below (M := App.machine) (r := Lower) (I := Unlocked)
      (fun _ hs call hcall => rescue_step hs (List.mem_of_mem_drop hcall)) h).1
  obtain ⟨n, app', hrun, hfree, hfixed⟩ :=
    Machine.exists_run_fixed (M := App.machine) (I := Unlocked) lower_wf
      (fun _ hs call hcall => rescue_step hs hcall) hrest
  refine ⟨AppRound.rescue, List.replicate n AppRound.rescue, ?_⟩
  rw [Machine.run_append, loopCalls, List.flatMap_replicate, hrun]
  exact settled_none hfree hfixed

theorem LockedOut.stays {app : AppData} (h : LockedOut app) {last : Option AppListener}
    (hlast : Listening app last) (after : List AppCall) :
    (App.machine.run app after).command.task.state ≠ .none :=
  ((lockedOut_run hlast after).mpr (.inl h)).task_ne_none

/-- **The console.** After any calls from the initialized application on, the command task comes back to
its state `none` by some answers if and only if it is not locked out; if it is, it never does, whatever
is answered and typed. In a run it comes back from every state if and only if no call of the run locks
the console out. -/
theorem console_unlocks_iff (app₀ : AppData) (i2cOpened : Bool) (calls : List AppCall) :
    let app := App.machine.run (appInitialize app₀ i2cOpened) calls
    (Unlocks app ↔ ¬ LockedOut app) ∧
    (LockedOut app → ∀ after, (App.machine.run app after).command.task.state ≠ .none) ∧
    ((∀ before, before <+: calls →
        Unlocks (App.machine.run (appInitialize app₀ i2cOpened) before)) ↔
      App.machine.Along (fun app call => ¬ LocksOut app call) (appInitialize app₀ i2cOpened)
        calls) := by
  intro app
  have hinit := unlockInv_appInitialize app₀ i2cOpened
  have hinv : ∀ calls, UnlockInv (App.machine.run (appInitialize app₀ i2cOpened) calls) :=
    fun calls => Machine.run_inv unlockInv_step hinit calls
  have hstays : ∀ calls, LockedOut (App.machine.run (appInitialize app₀ i2cOpened) calls) →
      ∀ after, (App.machine.run (App.machine.run (appInitialize app₀ i2cOpened) calls)
        after).command.task.state ≠ .none := by
    intro calls hlocked
    obtain ⟨last, hlast⟩ := (hinv calls).listening
    exact hlocked.stays hlast
  have hunlocks : ∀ calls, Unlocks (App.machine.run (appInitialize app₀ i2cOpened) calls) ↔
      ¬ LockedOut (App.machine.run (appInitialize app₀ i2cOpened) calls) := by
    intro calls
    refine ⟨fun h hlocked => ?_, fun hfree => Unlocked.unlocks ⟨hinv calls, hfree⟩⟩
    obtain ⟨round, rounds, hnone⟩ := h 0
    exact hstays calls hlocked _ hnone
  have halong : ∀ calls, ¬ LockedOut (App.machine.run (appInitialize app₀ i2cOpened) calls) ↔
      App.machine.Along (fun app call => ¬ LocksOut app call) (appInitialize app₀ i2cOpened)
        calls := by
    intro calls
    rw [lockedOut_run (listening_appInitialize app₀ i2cOpened),
      or_iff_right (not_lockedOut_appInitialize app₀ i2cOpened), not_not]
  refine ⟨hunlocks calls, hstays calls, fun h => ?_, ?_⟩
  · exact (halong calls).mp ((hunlocks calls).mp (h calls (List.prefix_refl _)))
  · rintro h before ⟨after, rfl⟩
    rw [Machine.along_append] at h
    exact (hunlocks before).mpr ((halong before).mpr h.1)

/-- The file system refuses the medium; then `flash sectors` is typed. -/
theorem flash_sectors_waits_forever :
    ¬ ∃ after, (App.machine.run (App.machine.run (appInitialize .zeroed true)
      [.flashTasks ⟨true, false, true, true, some (1, 1)⟩,
        .line (.ofWords [⟨lit "flash", by decide +kernel⟩, ⟨lit "sectors", by decide +kernel⟩])])
      after).command.task.state = .none := by
  rintro ⟨after, hnone⟩
  have hinv := Machine.run_inv unlockInv_step (unlockInv_appInitialize .zeroed true)
    [.flashTasks ⟨true, false, true, true, some (1, 1)⟩,
      .line (.ofWords [⟨lit "flash", by decide +kernel⟩, ⟨lit "sectors", by decide +kernel⟩])]
  obtain ⟨last, hlast⟩ := hinv.listening
  refine LockedOut.stays (.flash ⟨?_, ?_⟩ ?_) hlast after hnone
  · decide +kernel
  · decide +kernel
  · decide +kernel

end NixieTracker
