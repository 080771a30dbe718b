import NixieTracker.App.Periodic
import NixieTracker.Nixie.Latch

/-!
# What the application shifts out

The shift register module is handed bytes by the nixie module and by the console, and sends them bit by
bit in the calls of its tasks. Seen from the outputs of the chain behind it, the application writes whole
words, one after the other.

* `ShiftStep`: what a call does to the module and its lines; `shift_step`.
* `Latching`: the chain is loaded with the words so far, but for the one that is being sent.
* `words_latched`: the chain after every run of the application.
-/

namespace NixieTracker

open Lib Lib.Wave HttpsClient Scheduler

theorem Wired.congr {d d' : AppNixieData} (h : Wired d) (heq : d'.setUpFields = d.setUpFields) :
    Wired d' := by
  simp only [AppNixieData.setUpFields, Prod.mk.injEq] at heq
  obtain ⟨hnum, htypes, hmapping, hregisters, -⟩ := heq
  refine ⟨hnum.trans h.numNixies, hregisters.trans h.numShiftRegisters, htypes ▸ h.nixieTypes, ?_⟩
  unfold cathodePlace
  rw [hmapping]
  exact h.digitPlace

/-- The write of the application to a line of the registers. -/
def AppEvent.line? : AppEvent → Option (Write ShiftPin)
  | .shiftRegister e => e.line?
  | _ => none

namespace Shifting

/-- Bytes for the registers. -/
structure Word where
  data : Vector UInt8 shiftRegisterMaxData
  numBytes : Nat
  deriving DecidableEq

/-- The chain with the word in it. -/
def Word.load (c : Chain 48) (w : Word) : Chain 48 := c.load (ShiftRegister.wireBits w.data w.numBytes)

/-- The module with a word that it has begun to send, after `j` calls. -/
def Word.sending (w : Word) (d : AppShiftRegisterData) (j : Nat) : AppShiftRegisterData :=
  ShiftRegister.machine.run (appShiftRegisterSendData d w.data w.numBytes) (ShiftRegister.calls j)

/-- The writes of these calls. -/
def Word.sent (w : Word) (d : AppShiftRegisterData) (j : Nat) : List (Write ShiftPin) :=
  ShiftRegister.lines (ShiftRegister.machine.trace (appShiftRegisterSendData d w.data w.numBytes)
    (ShiftRegister.calls j))

def Word.Fits (w : Word) : Prop := 1 ≤ w.numBytes ∧ w.numBytes ≤ shiftRegisterMaxData

/-- The writes of the application. -/
def appLines (es : List AppEvent) : List (Write ShiftPin) := es.filterMap (·.line?)

/-- The word that a call hands over to an idle module: the bytes that the nixie module has encoded, or
those of a pending `shift_register send`. -/
def handedOver : AppData × AppCall → Option Word
  | (app, .nixieTasks _) =>
    if app.nixie.state = .writeShiftRegister ∧ app.shiftRegister.state = .idle then
      some ⟨app.nixie.registerShiftState, app.nixie.numShiftRegisters⟩
    else none
  | (app, .commandTasks _) =>
    if app.command.task.state = .waitAvailable ∧
        app.command.task.callback = some .performShiftRegisterSendData ∧
        app.shiftRegister.state = .idle then
      some ⟨app.command.shiftRegister.data, app.command.shiftRegister.numBytes⟩
    else none
  | _ => none

/-- The words of a run, in order. -/
def handed (visits : List (AppData × AppCall)) : List Word := visits.filterMap handedOver

/-- What a call does to the module: its writes, and the word that it hands over. -/
inductive ShiftStep (d : AppShiftRegisterData) :
    AppShiftRegisterData → List (Write ShiftPin) → Option Word → Prop
  | same : ShiftStep d d [] none
  | tasks : ShiftStep d (appShiftRegisterTasks d).1
      (ShiftRegister.lines (appShiftRegisterTasks d).2) none
  | enabled (h : d.state = .idle) (enabled : Bool) :
    ShiftStep d d (ShiftRegister.lines (appShiftRegisterSetEnabled enabled)) none
  | sent (h : d.state = .idle) (w : Word) (hfits : w.Fits) :
    ShiftStep d (appShiftRegisterSendData d w.data w.numBytes) [] (some w)

/-! ## The console -/

/-- The bytes of a scheduled `shift_register send` fit. -/
def SendFits (d : AppCommandData) : Prop :=
  d.task.callback = some .performShiftRegisterSendData →
    (⟨d.shiftRegister.data, d.shiftRegister.numBytes⟩ : Word).Fits

theorem sendFits_schedule (d : AppCommandData) (cmdIo : CmdIo) {callback : AppCommandTaskCallback}
    (checkAvailable : AppCommandTaskCheckAvailableCallback)
    (h : callback ≠ .performShiftRegisterSendData) :
    SendFits (schedule d cmdIo callback checkAvailable).1 :=
  fun hc => absurd (Option.some.inj hc) h

theorem sendFits_send {d : AppCommandData} (h : SendFits d) (cmdIo : CmdIo)
    (argv : List Argument) : SendFits (commandShiftRegisterSendData d cmdIo argv).1 := by
  unfold commandShiftRegisterSendData
  split
  · exact h
  · rename_i hlen
    intro _
    have hmax : shiftRegisterMaxData = 6 := rfl
    show 1 ≤ minZz (argv.length - 2) shiftRegisterMaxData ∧
      minZz (argv.length - 2) shiftRegisterMaxData ≤ shiftRegisterMaxData
    unfold minZz
    split <;> omega

theorem sendFits_runCommand {d : AppCommandData} (h : SendFits d) (line : ConsoleLine)
    (command : ConsoleCommand) : SendFits (runCommand d line command).1 := by
  cases command <;>
    simp only [runCommand, appCommandFetch, appCommandFlash, appCommandNixie, appCommandRTC,
      appCommandShiftRegister, appCmdFetch, appCmdFlashSectors, appCmdFlashFormat, appCmdNixieDisplay,
      appCmdNixiePeriodic, appCmdNixieFetch, appCmdRTCOscillator, appCmdRTCDate, appCmdRTCBattery,
      appCmdRTCDump, appCmdRTCRegister, commandShiftRegisterSetEnabledOrDisabled]
  all_goals repeat' split
  all_goals first
    | exact h
    | exact sendFits_schedule _ _ _ (by decide)
    | exact sendFits_send h _ _

theorem sendFits_line {d : AppCommandData} (h : SendFits d) (line : ConsoleLine) :
    SendFits (consoleLine d line).1 := by
  unfold consoleLine
  split
  · exact h
  · split
    · exact h
    · exact sendFits_runCommand h line _

/-! ## The calls -/

@[simp] theorem appLines_nil : appLines [] = [] := rfl

theorem appLines_append (es es' : List AppEvent) : appLines (es ++ es') = appLines es ++ appLines es' :=
  List.filterMap_append

@[simp] theorem appLines_shiftRegister (es : List ShiftRegisterEvent) :
    appLines (es.map .shiftRegister) = ShiftRegister.lines es := List.filterMap_map

/-- Other events write no line. -/
theorem appLines_map {α : Type} (f : α → AppEvent) (h : ∀ a, (f a).line? = none) (as : List α) :
    appLines (as.map f) = [] := by
  simp [appLines, List.filterMap_map, h]

theorem runListeners_lines (app : AppData) (es : List (ClientEvent AppListener)) :
    appLines (runListeners app es).2 = [] := by
  refine List.filterMap_eq_nil_iff.mpr fun e' he' => ?_
  rcases mem_runListeners he' with ⟨e, -, rfl⟩ | ⟨bytes, -, rfl⟩ <;> rfl

/-- The nixie module hands its bytes over once the shift register module is free. -/
theorem nixie_shift (app : AppData) (hn : app.nixie.numShiftRegisters = numNixieShiftRegisters)
    (answers : NixieAnswers) :
    ShiftStep app.shiftRegister (appNixieModuleTasks app answers).1.shiftRegister
      (appLines (appNixieModuleTasks app answers).2) (handedOver (app, .nixieTasks answers)) := by
  have hlines : appLines (appNixieModuleTasks app answers).2 = [] := by
    unfold appNixieModuleTasks nixieSubmits
    simp only [appLines_append]
    rw [appLines_map AppEvent.nixie (fun _ => rfl)]
    split <;> split <;> rfl
  have hstored : ∀ (app : AppData) (es : List NixieEvent),
      (storeNixieEvents app es).shiftRegister = app.shiftRegister := by
    intro app es
    obtain ⟨union, hunion⟩ := storeNixieEvents_eq app es
    rw [hunion]
  rw [hlines]
  unfold appNixieModuleTasks appNixieTasks AppData.nixieView handedOver
  simp only [hstored]
  cases hs : app.nixie.state with
  | writeShiftRegister =>
    simp only [writeShiftRegister]
    split
    · rename_i hbusy
      have hno : app.shiftRegister.state ≠ .idle := by
        simpa [appShiftRegisterIsBusy] using hbusy
      rw [if_neg fun h => hno h.2]
      exact .same
    · rename_i hfree
      have hidle : app.shiftRegister.state = .idle := by
        simpa [appShiftRegisterIsBusy] using hfree
      have hsix : (⟨app.nixie.registerShiftState, app.nixie.numShiftRegisters⟩ : Word).Fits := by
        show 1 ≤ app.nixie.numShiftRegisters ∧ app.nixie.numShiftRegisters ≤ shiftRegisterMaxData
        rw [hn]
        decide
      rw [if_pos ⟨trivial, hidle⟩]
      exact .sent hidle ⟨app.nixie.registerShiftState, app.nixie.numShiftRegisters⟩ hsix
  | _ => exact .same

theorem performRTC_shift (start : RtcView → RtcView × List RtcEvent) (report : AppData → List Printed)
    (app : AppData) (cmdIo : Option CmdIo) (mode : AppCommandTaskCallbackMode) :
    ShiftStep app.shiftRegister (performRTC start report app cmdIo mode).2.1.shiftRegister
      (appLines (performRTC start report app cmdIo mode).2.2) none := by
  cases mode with
  | invoke =>
    simp only [performRTC]
    rw [appLines_map AppEvent.rtc (fun _ => rfl)]
    exact .same
  | update =>
    simp only [performRTC]
    split
    · exact .same
    · rw [appLines_map (AppEvent.print cmdIo) (fun _ => rfl)]
      exact .same

/-- What a callback of the console does to the shift register module. -/
theorem perform_shift (answers : CommandAnswers) (callback : AppCommandTaskCallback)
    (cmdIo : Option CmdIo) (mode : AppCommandTaskCallbackMode) (app : AppData)
    (hidle : mode = .invoke → callback.ownCheck = .performShiftRegisterCheckAvailable →
      app.shiftRegister.state = .idle)
    (hfits : mode = .invoke → callback = .performShiftRegisterSendData →
      (⟨app.command.shiftRegister.data, app.command.shiftRegister.numBytes⟩ : Word).Fits) :
    ShiftStep app.shiftRegister (perform answers callback cmdIo mode app).2.1.shiftRegister
      (appLines (perform answers callback cmdIo mode app).2.2)
      (if mode = .invoke ∧ callback = .performShiftRegisterSendData then
        some ⟨app.command.shiftRegister.data, app.command.shiftRegister.numBytes⟩ else none) := by
  cases callback with
  | performShiftRegisterSetEnabled =>
    cases mode with
    | invoke => exact .enabled (hidle rfl rfl) true
    | update => exact .same
  | performShiftRegisterSetDisabled =>
    cases mode with
    | invoke => exact .enabled (hidle rfl rfl) false
    | update => exact .same
  | performShiftRegisterSendData =>
    cases mode with
    | invoke => exact .sent (hidle rfl rfl) _ (hfits rfl rfl)
    | update => exact .same
  | performFetch =>
    cases mode with
    | invoke =>
      simp only [perform, performFetch]
      split <;> exact .same
    | update => exact .same
  | performFlashSectors => cases mode <;> exact .same
  | performFlashFormat => cases mode <;> exact .same
  | performNixieDisplay => cases mode <;> exact .same
  | performNixieFetch =>
    cases mode with
    | invoke =>
      simp only [perform, performNixieFetch]
      obtain ⟨union, hunion⟩ := storeNixieEvents_eq
        { app with
          nixie := (appNixieFetch app.nixie fetchIsFetchedAddress fetchValueAddress).2.1 }
        (appNixieFetch app.nixie fetchIsFetchedAddress fetchValueAddress).2.2
      rw [hunion, appLines_append, appLines_map AppEvent.nixie (fun _ => rfl)]
      split <;> exact .same
    | update =>
      simp only [perform, performNixieFetch]
      split <;> exact .same
  | _ =>
    rw [if_neg (by simp)]
    exact performRTC_shift _ _ _ _ _

/-! ## One call -/

/-- What the application keeps for the shift register module. -/
structure ShiftReady (app : AppData) : Prop where
  listening : ∃ last, Listening app last
  fits : SendFits app.command
  registers : app.nixie.numShiftRegisters = numNixieShiftRegisters

theorem SendFits.congr {d d' : AppCommandData} (h : SendFits d) (htask : d'.task = d.task)
    (hbytes : d'.shiftRegister = d.shiftRegister) : SendFits d' := by
  intro hc
  rw [hbytes]
  exact h (htask ▸ hc)

/-- No callback touches the bytes. -/
theorem perform_bytes (answers : CommandAnswers) (callback : AppCommandTaskCallback)
    (cmdIo : Option CmdIo) (mode : AppCommandTaskCallbackMode) (app : AppData) :
    (perform answers callback cmdIo mode app).2.1.command.shiftRegister =
      app.command.shiftRegister := by
  cases hc : callback.ownCheck with
  | performFetchCheckAvailable =>
    cases callback with
    | performFetch =>
      cases mode with
      | invoke =>
        simp only [perform, performFetch]
        split <;> rfl
      | update => rfl
    | _ => cases hc
  | performFlashCheckAvailable => rw [perform_flash answers cmdIo mode app hc]
  | performNixieCheckAvailable =>
    obtain ⟨nixie, union, heq⟩ := perform_nixie answers cmdIo mode app hc
    rw [heq]
  | performRTCCheckAvailable =>
    obtain ⟨v, heq⟩ := perform_rtc answers cmdIo mode app hc
    rw [heq]
    rfl
  | performShiftRegisterCheckAvailable =>
    obtain ⟨shiftRegister, heq⟩ := perform_shiftRegister answers cmdIo mode app hc
    rw [heq]

theorem SendFits.afterPerform {app : AppData} (h : SendFits app.command) {task : AppCommandTaskData}
    (htask : task.callback = app.command.task.callback) (answers : CommandAnswers)
    (callback : AppCommandTaskCallback) (cmdIo : Option CmdIo) (mode : AppCommandTaskCallbackMode) :
    SendFits (afterPerform task (perform answers callback cmdIo mode app)).command := by
  intro hc
  have hbytes := perform_bytes answers callback cmdIo mode app
  show (⟨(perform answers callback cmdIo mode app).2.1.command.shiftRegister.data,
    (perform answers callback cmdIo mode app).2.1.command.shiftRegister.numBytes⟩ : Word).Fits
  rw [hbytes]
  rw [afterPerform_task] at hc
  cases hr : (perform answers callback cmdIo mode app).1 with
  | running =>
    rw [hr] at hc
    exact h (htask.symm.trans hc)
  | finished =>
    rw [hr] at hc
    cases hc

/-- The bytes of a command that is scheduled stay. -/
theorem sendFits_step {app : AppData} (h : ShiftReady app) (call : AppCall) :
    SendFits (App.machine.step app call).1.command := by
  obtain ⟨last, hlistening⟩ := h.listening
  cases call with
  | httpsClientTasks net =>
    have hsame := appHttpsTasks_same app net
    show SendFits (appHttpsTasks app net).1.command
    exact h.fits.congr (by rw [hsame.eq]) (by rw [hsame.eq])
  | nixieTasks answers =>
    obtain ⟨union, hunion⟩ := storeNixieEvents_eq
      (app.setNixieView (appNixieTasks .nixie answers app.nixieView).1)
      (appNixieTasks .nixie answers app.nixieView).2
    show SendFits (appNixieModuleTasks app answers).1.command
    unfold appNixieModuleTasks
    simp only
    rw [hunion]
    exact h.fits.congr rfl rfl
  | commandTasks answers =>
    show SendFits (appCommandTasks app answers).1.command
    have hstep := appCommandTasks_step answers hlistening.task
    generalize appCommandTasks app answers = result at hstep ⊢
    cases hstep with
    | waits es => exact h.fits
    | performs callback cmdIo mode es => exact h.fits.afterPerform rfl answers callback cmdIo mode
  | line line =>
    obtain ⟨enabled, heq⟩ := appLine_eq app line
    show SendFits (appLine app line).1.command
    rw [heq]
    exact sendFits_line h.fits line
  | rtcTasks answers => exact h.fits.congr rfl rfl
  | flashTasks answers => exact h.fits
  | shiftRegisterTasks => exact h.fits

theorem shiftReady_step {app : AppData} (h : ShiftReady app) (call : AppCall) :
    ShiftReady (App.machine.step app call).1 := by
  obtain ⟨last, hlistening⟩ := h.listening
  refine ⟨⟨_, listening_step app call last hlistening⟩, sendFits_step h call, ?_⟩
  have hsame := setUpFields_step hlistening call
  simp only [AppNixieData.setUpFields, Prod.mk.injEq] at hsame
  exact hsame.2.2.2.1.trans h.registers

theorem runConsoleEvents_lines (app : AppData) (es : List ConsoleEvent) :
    appLines (runConsoleEvents app es).2 = [] := by
  induction es generalizing app with
  | nil => rfl
  | cons e es ih => cases e <;> exact ih _

theorem appLine_lines (app : AppData) (line : ConsoleLine) : appLines (appLine app line).2 = [] :=
  runConsoleEvents_lines _ _

theorem shift_step {app : AppData} (h : ShiftReady app) (call : AppCall) :
    ShiftStep app.shiftRegister (App.machine.step app call).1.shiftRegister
      (appLines (App.machine.step app call).2) (handedOver (app, call)) := by
  obtain ⟨last, hlistening⟩ := h.listening
  cases call with
  | rtcTasks answers =>
    have hlines : appLines (appRtcTasks app answers).2 = [] := by
      unfold appRtcTasks
      simp only [appLines_append]
      rw [appLines_map AppEvent.rtc (fun _ => rfl)]
      split <;> rfl
    show ShiftStep app.shiftRegister app.shiftRegister (appLines (appRtcTasks app answers).2) none
    rw [hlines]
    exact .same
  | flashTasks answers => exact .same
  | httpsClientTasks net =>
    have hsame := appHttpsTasks_same app net
    show ShiftStep app.shiftRegister (appHttpsTasks app net).1.shiftRegister
      (appLines (appHttpsTasks app net).2) none
    rw [show (appHttpsTasks app net).1.shiftRegister = app.shiftRegister by rw [hsame.eq],
      show appLines (appHttpsTasks app net).2 = [] from runListeners_lines _ _]
    exact .same
  | shiftRegisterTasks =>
    show ShiftStep app.shiftRegister (appShiftRegisterTasks app.shiftRegister).1
      (appLines ((appShiftRegisterTasks app.shiftRegister).2.map .shiftRegister)) none
    rw [appLines_shiftRegister]
    exact .tasks
  | nixieTasks answers => exact nixie_shift app h.registers answers
  | commandTasks answers =>
    show ShiftStep app.shiftRegister (appCommandTasks app answers).1.shiftRegister
      (appLines (appCommandTasks app answers).2) (handedOver (app, .commandTasks answers))
    cases hs : app.command.task.state with
    | none =>
      rw [appCommandTasks_none hs, handedOver, if_neg (by simp [hs])]
      exact .same
    | waitAvailable =>
      obtain ⟨cmdIo, callback, hp⟩ := hlistening.task (by simp [hs])
      have hfree (hc : callback.ownCheck = .performShiftRegisterCheckAvailable) :
          performCheckAvailable callback.ownCheck app = true ↔ app.shiftRegister.state = .idle := by
        rw [hc]
        simp [performCheckAvailable, performShiftRegisterCheckAvailable, appShiftRegisterIsBusy]
      cases ha : performCheckAvailable callback.ownCheck app with
      | false =>
        rw [appCommandTasks_unavailable hs hp ha, handedOver, if_neg]
        · exact .same
        · rintro ⟨-, hsend, hidle⟩
          obtain rfl := Option.some.inj (hp.callback.symm.trans hsend)
          rw [(hfree rfl).mpr hidle] at ha
          cases ha
      | true =>
        have hstep := perform_shift answers callback cmdIo .invoke app
          (fun _ hc => (hfree hc).mp ha) (fun _ hc => h.fits (by rw [hp.callback, hc]))
        rw [appCommandTasks_invoke hs hp ha]
        have hword : handedOver (app, .commandTasks answers) =
            if AppCommandTaskCallbackMode.invoke = .invoke ∧
                callback = .performShiftRegisterSendData then
              some ⟨app.command.shiftRegister.data, app.command.shiftRegister.numBytes⟩
            else none := by
          by_cases hsend : callback = .performShiftRegisterSendData
          · subst hsend
            rw [handedOver, if_pos ⟨hs, hp.callback, (hfree rfl).mp ha⟩, if_pos ⟨rfl, rfl⟩]
          · rw [handedOver, if_neg (by simp [hp.callback, hsend]), if_neg fun h => hsend h.2]
        rw [hword]
        exact hstep
    | running =>
      obtain ⟨cmdIo, callback, hp⟩ := hlistening.task (by simp [hs])
      rw [appCommandTasks_update hs hp, handedOver, if_neg (by simp [hs])]
      exact perform_shift answers callback cmdIo .update app (fun hmode => by cases hmode)
        (fun hmode => by cases hmode)
  | line line =>
    obtain ⟨enabled, heq⟩ := appLine_eq app line
    show ShiftStep app.shiftRegister (appLine app line).1.shiftRegister
      (appLines (appLine app line).2) none
    rw [heq, appLine_lines]
    exact .same

/-! ## The chain -/

theorem ShiftStep.fits {d d' : AppShiftRegisterData} {ws : List (Write ShiftPin)} {w : Option Word}
    (h : ShiftStep d d' ws w) {w' : Word} (hw : w = some w') : w'.Fits := by
  cases h with
  | sent hidle w hfits => exact Option.some.inj hw ▸ hfits
  | _ => cases hw

theorem ShiftStep.none_of_busy {d d' : AppShiftRegisterData} {ws : List (Write ShiftPin)}
    {w : Option Word} (h : ShiftStep d d' ws w) (hbusy : d.state ≠ .idle) : w = none := by
  cases h with
  | sent hidle => exact absurd hidle hbusy
  | _ => rfl

/-- `EN` alone does nothing to the chain. -/
theorem feed_enabled (c : Chain 48) (ls : Levels ShiftPin) (enabled : Bool) :
    c.feed .data .srck .rck ls (ShiftRegister.lines (appShiftRegisterSetEnabled enabled)) = c := by
  cases enabled <;> cases h : ls .en <;>
    simp [appShiftRegisterSetEnabled, ShiftRegister.lines, ShiftRegister.pullUp, ShiftRegister.pullDown,
      ShiftRegister.pinOn, ShiftRegister.pinOff, ShiftRegisterEvent.line?, Chain.feed, rising, h,
      Chain.edge]

/-- The chain `c` after the writes `ws` for the words `words`, in front of which is the module `d`. -/
inductive Latching (c : Chain 48) (ls : Levels ShiftPin) (words : List Word) (d : AppShiftRegisterData)
    (ws : List (Write ShiftPin)) : Prop
  | idle (h : d.state = .idle) (hchain : c.feed .data .srck .rck ls ws = words.foldl Word.load c)
  | sending (before : List Word) (w : Word) (pre : List (Write ShiftPin)) (d₀ : AppShiftRegisterData)
      (j : Nat) (hwords : words = before ++ [w]) (hfits : w.Fits) (hj : j ≤ 19 * w.numBytes)
      (hd : d = w.sending d₀ j) (hws : ws = pre ++ w.sent d₀ j)
      (hchain : c.feed .data .srck .rck ls pre = before.foldl Word.load c)

variable {c : Chain 48} {ls : Levels ShiftPin} {words : List Word} {d d' : AppShiftRegisterData}
  {ws es : List (Write ShiftPin)} {w : Option Word}

theorem Word.sending_succ (w : Word) (d₀ : AppShiftRegisterData) (j : Nat) :
    w.sending d₀ (j + 1) = (appShiftRegisterTasks (w.sending d₀ j)).1 ∧
      w.sent d₀ (j + 1) =
        w.sent d₀ j ++ ShiftRegister.lines (appShiftRegisterTasks (w.sending d₀ j)).2 := by
  unfold Word.sending Word.sent
  rw [ShiftRegister.run_add, ShiftRegister.trace_add]
  refine ⟨rfl, ?_⟩
  rw [ShiftRegister.lines, ShiftRegister.lines, ShiftRegister.lines, List.filterMap_append]
  congr 2
  exact List.append_nil _

/-- The whole frame of a word loads it. -/
theorem Word.feed_sent (w : Word) (hfits : w.Fits) (d₀ : AppShiftRegisterData) (c : Chain 48)
    (ls : Levels ShiftPin) :
    c.feed .data .srck .rck ls (w.sent d₀ (19 * w.numBytes + 1)) = w.load c :=
  Chain.feed_frame (by decide)
    (ShiftRegister.lines_send_frame w.data w.numBytes d₀ ls hfits.1) c

theorem latching_step (h : Latching c ls words d ws) (hstep : ShiftStep d d' es w) :
    Latching c ls (words ++ w.toList) d' (ws ++ es) := by
  cases hstep with
  | same =>
    rw [Option.toList_none, List.append_nil, List.append_nil]
    exact h
  | enabled hidle enabled =>
    rw [Option.toList_none, List.append_nil]
    rcases h with ⟨-, hchain⟩ | ⟨before, w, pre, d₀, j, -, hfits, hj, rfl, -, -⟩
    · refine .idle hidle ?_
      rw [Chain.feed_append, feed_enabled, hchain]
    · exact absurd hidle (ShiftRegister.busy_before_end w.data w.numBytes d₀ hfits.1 (by omega))
  | sent hidle w hfits =>
    rw [List.append_nil]
    rcases h with ⟨-, hchain⟩ | ⟨before, w', pre, d₀, j, -, hfits', hj, rfl, -, -⟩
    · exact .sending words w ws d 0 rfl hfits (Nat.zero_le _) rfl (List.append_nil ws).symm hchain
    · exact absurd hidle (ShiftRegister.busy_before_end w'.data w'.numBytes d₀ hfits'.1 (by omega))
  | tasks =>
    rw [Option.toList_none, List.append_nil]
    rcases h with ⟨hidle, hchain⟩ | ⟨before, w, pre, d₀, j, hwords, hfits, hj, rfl, rfl, hchain⟩
    · have htasks : appShiftRegisterTasks d = (d, []) := by simp [appShiftRegisterTasks, hidle]
      rw [htasks]
      refine .idle hidle ?_
      rw [show ShiftRegister.lines [] = [] from rfl, List.append_nil, hchain]
    · obtain ⟨hnext, hsent⟩ := w.sending_succ d₀ j
      rw [List.append_assoc, ← hsent, ← hnext]
      by_cases hlast : j = 19 * w.numBytes
      · subst hlast
        refine .idle (ShiftRegister.run_send w.data w.numBytes d₀ hfits.1).2 ?_
        rw [Chain.feed_append, hchain, w.feed_sent hfits, hwords, List.foldl_append]
        rfl
      · exact .sending before w pre d₀ (j + 1) hwords hfits (by omega) rfl rfl hchain

/-- While a word is being sent the outputs are those before it, or it is there. -/
theorem Latching.outputs (h : Latching c ls words d ws) :
    (c.feed .data .srck .rck ls ws).outputs = (words.dropLast.foldl Word.load c).outputs ∨
      (c.feed .data .srck .rck ls ws).outputs = (words.foldl Word.load c).outputs := by
  rcases h with ⟨-, hchain⟩ | ⟨before, w, pre, d₀, j, rfl, hfits, hj, -, rfl, hchain⟩
  · exact .inr (by rw [hchain])
  · obtain ⟨k, hk⟩ := Nat.exists_eq_add_of_le (show j ≤ 19 * w.numBytes + 1 by omega)
    have hframe := ShiftRegister.lines_send_frame w.data w.numBytes d₀ (after ls pre) hfits.1
    rw [hk, ShiftRegister.trace_add, ShiftRegister.lines, List.filterMap_append] at hframe
    have hpart := Chain.feed_frame_part (by decide) hframe (before.foldl Word.load c)
    rw [Chain.feed_append, hchain, List.dropLast_concat, List.foldl_append]
    rcases hpart with hpart | hpart
    · exact .inl hpart
    · exact .inr (congrArg Chain.outputs hpart)

/-! ## Every run -/

/-- Six zero bytes, as `APP_Nixie_Initialize` hands them over. -/
def Word.blank : Word := ⟨Vector.replicate _ 0, numNixieShiftRegisters⟩

theorem Word.blank_fits : Word.blank.Fits := ⟨by decide, by decide⟩

theorem shiftReady_appInitialize (app : AppData) (i2cOpened : Bool) :
    ShiftReady (appInitialize app i2cOpened) :=
  ⟨⟨none, listening_appInitialize app i2cOpened⟩, nofun, rfl⟩

theorem handed_append (vs vs' : List (AppData × AppCall)) :
    handed (vs ++ vs') = handed vs ++ handed vs' := List.filterMap_append

theorem handed_visits_cons (app : AppData) (call : AppCall) (calls : List AppCall) :
    handed (App.machine.visits app (call :: calls)) =
      handed [(app, call)] ++ handed (App.machine.visits (App.machine.step app call).1 calls) :=
  handed_append [(app, call)] _

theorem handed_singleton (v : AppData × AppCall) : handed [v] = (handedOver v).toList := by
  rw [handed, List.filterMap_cons]
  cases handedOver v <;> rfl

/-- A call keeps the invariant, whatever it hands over. -/
theorem latching_call {app : AppData} {words : List Word} {ws : List (Write ShiftPin)}
    (hready : ShiftReady app) (h : Latching c ls words app.shiftRegister ws) (call : AppCall) :
    Latching c ls (words ++ handed [(app, call)]) (App.machine.step app call).1.shiftRegister
      (ws ++ appLines (App.machine.step app call).2) ∧
    ∀ w ∈ handed [(app, call)], w.Fits := by
  have hstep := shift_step hready call
  rw [handed_singleton]
  exact ⟨latching_step h hstep, fun w' hw' => hstep.fits (Option.mem_toList.mp hw')⟩

/-- The invariant of every run of the application. -/
theorem latching_run {app : AppData} {words : List Word} {ws : List (Write ShiftPin)}
    (hready : ShiftReady app) (h : Latching c ls words app.shiftRegister ws)
    (hfits : ∀ w ∈ words, w.Fits) (calls : List AppCall) :
    ShiftReady (App.machine.run app calls) ∧
      Latching c ls (words ++ handed (App.machine.visits app calls))
        (App.machine.run app calls).shiftRegister (ws ++ appLines (App.machine.trace app calls)) ∧
      ∀ w ∈ words ++ handed (App.machine.visits app calls), w.Fits := by
  induction calls generalizing app words ws with
  | nil =>
    rw [show handed (App.machine.visits app []) = [] from rfl, List.append_nil,
      show appLines (App.machine.trace app []) = [] from rfl, List.append_nil]
    exact ⟨hready, h, hfits⟩
  | cons call calls ih =>
    obtain ⟨hnext, hfits'⟩ := latching_call hready h call
    rw [handed_visits_cons, Machine.trace_cons, appLines_append, ← List.append_assoc,
      ← List.append_assoc]
    exact ih (shiftReady_step hready call) hnext
      fun w hw => (List.mem_append.mp hw).elim (hfits w) (hfits' w)

theorem latching_appInitialize (app : AppData) (i2cOpened : Bool) (c : Chain 48)
    (ls : Levels ShiftPin) :
    Latching c ls [Word.blank] (appInitialize app i2cOpened).shiftRegister [] :=
  .sending [] Word.blank [] (appShiftRegisterInitialize app.shiftRegister).1 0 rfl Word.blank_fits
    (Nat.zero_le _) rfl rfl rfl

/-- The words of a run from the initialized application on. -/
def wordsOf (start : AppData) (calls : List AppCall) : List Word :=
  Word.blank :: handed (App.machine.visits start calls)

theorem latching_start (app : AppData) (i2cOpened : Bool) (calls : List AppCall) (c : Chain 48)
    (ls : Levels ShiftPin) :
    let start := appInitialize app i2cOpened
    ShiftReady (App.machine.run start calls) ∧
      Latching c ls (wordsOf start calls) (App.machine.run start calls).shiftRegister
        (appLines (App.machine.trace start calls)) ∧
      ∀ w ∈ wordsOf start calls, w.Fits :=
  latching_run (shiftReady_appInitialize app i2cOpened) (latching_appInitialize app i2cOpened c ls)
    (fun _ hw => List.mem_singleton.mp hw ▸ Word.blank_fits) calls

theorem Latching.chain (h : Latching c ls words d ws) (hidle : d.state = .idle) :
    c.feed .data .srck .rck ls ws = words.foldl Word.load c := by
  rcases h with ⟨-, hchain⟩ | ⟨before, w, pre, d₀, j, -, hfits, hj, rfl, -, -⟩
  · exact hchain
  · exact absurd hidle (ShiftRegister.busy_before_end w.data w.numBytes d₀ hfits.1 (by omega))

/-- **The registers are written word by word.** After any calls from the initialized application on, the
chain behind the lines, whatever it held before, is as if the words that were handed over had been
loaded at once and in order, if the module is idle. Otherwise the last of them is being sent: the
outputs are those of the words before it, or it is on them already. Every word has one to six
bytes. -/
theorem words_latched (app : AppData) (i2cOpened : Bool) (calls : List AppCall) (c : Chain 48)
    (ls : Levels ShiftPin) :
    let start := appInitialize app i2cOpened
    let words := wordsOf start calls
    let chain := c.feed .data .srck .rck ls (appLines (App.machine.trace start calls))
    ((App.machine.run start calls).shiftRegister.state = .idle → chain = words.foldl Word.load c) ∧
    (chain.outputs = (words.dropLast.foldl Word.load c).outputs ∨
      chain.outputs = (words.foldl Word.load c).outputs) ∧
    ∀ w ∈ words, w.Fits := by
  intro start words chain
  obtain ⟨-, h, hfits⟩ := latching_start app i2cOpened calls c ls
  exact ⟨h.chain, h.outputs, hfits⟩

/-! ## No word is lost -/

def isShiftTasks : AppCall → Bool
  | .shiftRegisterTasks => true
  | _ => false

theorem idleWithin_le {d : AppShiftRegisterData} {k k' : Nat} (h : Display.IdleWithin k d)
    (hk : k ≤ k') : Display.IdleWithin k' d := by
  obtain ⟨m, rfl⟩ := Nat.exists_eq_add_of_le hk
  induction m with
  | zero => exact h
  | succ m ih => exact Display.idleWithin_succ (ih (Nat.le_add_right _ _))

theorem idleWithin_pred {d : AppShiftRegisterData} {k : Nat} (h : Display.IdleWithin k d) :
    Display.IdleWithin (k - 1) (appShiftRegisterTasks d).1 := by
  cases k with
  | zero => exact Display.idleWithin_tasks (Display.idleWithin_succ h)
  | succ k => exact Display.idleWithin_tasks h

theorem idleWithin_step {app : AppData} (h : ShiftReady app)
    (hk : Display.IdleWithin 115 app.shiftRegister) (call : AppCall) :
    Display.IdleWithin 115 (App.machine.step app call).1.shiftRegister := by
  have hstep := shift_step h call
  generalize (App.machine.step app call).1.shiftRegister = d' at hstep
  generalize appLines (App.machine.step app call).2 = es at hstep
  generalize handedOver (app, call) = w at hstep
  cases hstep with
  | same => exact hk
  | tasks => exact idleWithin_le (idleWithin_pred hk) (Nat.sub_le _ _)
  | enabled => exact hk
  | sent hidle w hfits => exact Display.idleWithin_sending _ w.data hfits.1 hfits.2 0

theorem Latching.idleWithin (h : Latching c ls words d ws) : Display.IdleWithin 115 d := by
  rcases h with ⟨hidle, -⟩ | ⟨before, w, pre, d₀, j, -, hfits, hj, rfl, -, -⟩
  · exact idleWithin_le (k := 0) hidle (Nat.zero_le _)
  · exact Display.idleWithin_sending d₀ w.data hfits.1 hfits.2 j

end Shifting

end NixieTracker
