import NixieTracker.App.Tracker

/-!
# A number reaches the tubes in time

The nixie module waits for the shift register module, which the console may take before it. In an
iteration of the main loop the module is called right after the shift register module, and so before the
console.

* `Awaits`: a value is to be handed over. `Awaits.aside` is a call of another module, `Awaits.round` an
  iteration of the loop.
* `handed_over_in_time`, `idle_in_time`: the two halves of the way.
* `value_shown_in_time`: the value is on the outputs.
-/

namespace NixieTracker

open Lib Lib.Wave HttpsClient Scheduler Shifting

namespace Tracker

/-! ## What waits -/

/-- The number of calls before the registers are written. -/
def callsToWrite : AppNixieState → Nat
  | .beginDisplaySequence => 3
  | .decodeDisplayValue => 2
  | .encodeShiftRegister => 1
  | _ => 0

/-- The display of `s` has begun. The module writes after `p` more calls, and the shift register module
is free within `k`. -/
structure Awaits (l : Ledger) (app : AppData) (s : Shown) (p k : Nat) : Prop where
  tracked : Tracked l app
  ready : ShiftReady app
  begun : l.begun = l.written ++ [s]
  calls : callsToWrite app.nixie.state = p
  free : Display.IdleWithin k app.shiftRegister

/-- A word for `s` was handed over last. -/
structure HandedOver (l : Ledger) (app : AppData) (s : Shown) : Prop where
  tracked : Tracked l app
  ready : ShiftReady app
  word : ∃ before w, l.words = before ++ [(w, some s)]
  free : Display.IdleWithin 115 app.shiftRegister

section Step

variable {l : Ledger} {app : AppData} {s : Shown} {p k : Nat}

/-- The module is on its way to the registers. -/
theorem Awaits.displaying (h : Awaits l app s p k) : p ≤ 3 ∧ ∃ d₀ : AppNixieData,
    d₀.state = .beginDisplaySequence ∧ Wired d₀ ∧ d₀.displayValue = s.value ∧
      app.nixie = Display.nixieAt d₀ p := by
  cases h.tracked.phase with
  | settled hs hdone =>
    have hbegun := hdone.symm.trans h.begun
    simp at hbegun
  | displaying s' d₀ q hq hs hwired hvalue hd hbegun =>
    obtain rfl : s' = s := by
      have hsame := hbegun.symm.trans h.begun
      simpa using hsame
    have hp : p = q := by
      rw [← h.calls, hd]
      interval_cases q
      · rfl
      · rfl
      · rfl
      · exact congrArg callsToWrite hs
    subst hp
    exact ⟨hq, d₀, hs, hwired, hvalue, hd⟩

theorem Awaits.busy (h : Awaits l app s p k) : Displaying app.nixie.state := by
  obtain ⟨hp, d₀, hs, -, -, hd⟩ := h.displaying
  exact hd ▸ nixieAt_displaying hs hp

/-- A call of another module leaves the state of the display alone. -/
theorem Awaits.state_other (h : Awaits l app s p k) (call : AppCall)
    (hcall : ∀ answers, call ≠ .nixieTasks answers) :
    (App.machine.step app call).1.nixie.state = app.nixie.state := by
  have hbusy := h.busy
  obtain ⟨last, hlast⟩ := h.tracked.listening
  cases call with
  | nixieTasks answers => exact absurd rfl (hcall answers)
  | httpsClientTasks net =>
    have hstep := responseStep hlast net
    show (appHttpsTasks app net).1.nixie.state = _
    generalize (appHttpsTasks app net).1.nixie = d' at hstep
    generalize (appHttpsClientTasks net app.httpsClient).2.flatMap nixieBytes = bytes at hstep
    cases hstep with
    | quiet => rfl
    | received bytes hs => exact bufferReceivedCallback_state app.nixie bytes
    | handled hs => simp [Displaying, hs] at hbusy
    | failed hs => simp [Displaying, hs] at hbusy
  | commandTasks answers =>
    have hidle : app.nixie.state ≠ .idle := by
      intro hs
      simp [Displaying, hs] at hbusy
    show (appCommandTasks app answers).1.nixie.state = _
    have hstep := appCommandTasks_step answers hlast.task
    generalize appCommandTasks app answers = result at hstep ⊢
    cases hstep with
    | waits es => rfl
    | performs callback cmdIo mode es =>
      rw [afterPerform_nixie, perform_nixie_busy answers _ mode app hidle]
  | line line =>
    obtain ⟨⟨enabled, hnixie⟩, -⟩ :=
      (show (AppCall.line line).MakesNoRequest from trivial).step app l.request
    rw [hnixie]
    rfl
  | flashTasks _ | rtcTasks _ | shiftRegisterTasks => rfl

/-- A call of another module. -/
theorem Awaits.aside (h : Awaits l app s p k) (call : AppCall)
    (hcall : ∀ answers, call ≠ .nixieTasks answers) {k' : Nat}
    (hfree : Display.IdleWithin k' (App.machine.step app call).1.shiftRegister) :
    Awaits (observe l (app, call)) (App.machine.step app call).1 s p k' := by
  have hstate := h.state_other call hcall
  have hbusy := h.busy
  have hvalue : valueOf l.begun call = none := by
    cases call with
    | nixieTasks answers => exact absurd rfl (hcall answers)
    | _ => rfl
  refine ⟨tracked_step h.tracked call, shiftReady_step h.ready call, ?_, hstate ▸ h.calls, hfree⟩
  have hbegins : begins l.request.body app (App.machine.step app call).1 = [] :=
    begins_nil fun hb => hstate ▸ hb
  rw [written_observe (.inr hvalue), ← h.begun]
  show l.begun ++ begins l.request.body app (App.machine.step app call).1 = _
  rw [hbegins, List.append_nil]

/-- A call of the module itself. -/
theorem Awaits.nixie (h : Awaits l app s p k) (answers : NixieAnswers) :
    (app.shiftRegister.state = .idle ∧ p = 0 ∧
      HandedOver (observe l (app, .nixieTasks answers))
        (App.machine.step app (.nixieTasks answers)).1 s) ∨
    ((p = 0 → app.shiftRegister.state ≠ .idle) ∧
      Awaits (observe l (app, .nixieTasks answers))
        (App.machine.step app (.nixieTasks answers)).1 s (p - 1) k ∧
      (App.machine.step app (.nixieTasks answers)).1.shiftRegister = app.shiftRegister) := by
  obtain ⟨hp, d₀, hs, -, -, hd⟩ := h.displaying
  have hready := shiftReady_step h.ready (.nixieTasks answers)
  have htracked := tracked_step h.tracked (.nixieTasks answers)
  have hgoes {p' : Nat} (hp' : p' < 3)
      (hnixie : (appNixieModuleTasks app answers).1.nixie = Display.nixieAt d₀ p')
      (hshift : (appNixieModuleTasks app answers).1.shiftRegister = app.shiftRegister)
      (hword : handedOver (app, .nixieTasks answers) = none) :
      Awaits (observe l (app, .nixieTasks answers)) (App.machine.step app (.nixieTasks answers)).1 s
        p' k := by
    have hnixie' : (App.machine.step app (.nixieTasks answers)).1.nixie = Display.nixieAt d₀ p' := hnixie
    have hshift' : (App.machine.step app (.nixieTasks answers)).1.shiftRegister = app.shiftRegister :=
      hshift
    have hbegins : begins l.request.body app (App.machine.step app (.nixieTasks answers)).1 = [] :=
      begins_nil fun hb => absurd (hnixie' ▸ hb) (nixieAt_begin hp')
    refine ⟨htracked, hready, ?_, ?_, hshift' ▸ h.free⟩
    · rw [written_observe (.inl hword), ← h.begun]
      show l.begun ++ begins l.request.body app (App.machine.step app (.nixieTasks answers)).1 = _
      rw [hbegins, List.append_nil]
    · rw [hnixie']
      interval_cases p' <;> rfl
  have hstep := displayStep hp hs hd answers
  cases hstep with
  | prepared p hp hnixie hshift =>
    have hword := handedOver_prepared answers hs (by omega) hd
    exact .inr ⟨(fun h => by cases h), hgoes hp hnixie hshift hword, hshift⟩
  | waits hbusy hnixie hshift =>
    have hword : handedOver (app, .nixieTasks answers) = none := handedOver_none fun _ => hbusy
    exact .inr ⟨fun _ => hbusy, hgoes (by omega) hnixie hshift hword, hshift⟩
  | sent hfree hnixie hshift =>
    have hword := handedOver_sent answers hd hfree
    have hfree' : Display.IdleWithin 115 app.shiftRegister :=
      idleWithin_le (k := 0) hfree (Nat.zero_le _)
    refine .inl ⟨hfree, rfl, htracked, hready, ?_, idleWithin_step h.ready hfree' _⟩
    refine ⟨l.words, ⟨Display.bytesToSend d₀, d₀.numShiftRegisters⟩, ?_⟩
    show l.words ++ (handed [(app, .nixieTasks answers)]).map (⟨·, l.begun.getLast?⟩) = _
    rw [handed_singleton, hword, h.begun, List.getLast?_concat]
    rfl

end Step

/-! ## Iterations of the loop -/

/-- The calls before the shift register module's. -/
def AppRound.before (round : AppRound) : List AppCall :=
  round.lines.map .line ++ [.rtcTasks round.rtc, .flashTasks round.flash, .httpsClientTasks round.net]

theorem calls_eq (round : AppRound) : round.calls = AppRound.before round ++
    [.shiftRegisterTasks, .nixieTasks round.nixie, .commandTasks round.command] := by
  simp [AppRound.calls, AppRound.before]

/-- Calls that leave the shift register module alone. -/
def Aside : AppCall → Prop
  | .line _ | .rtcTasks _ | .flashTasks _ | .httpsClientTasks _ => True
  | _ => False

theorem aside_shiftRegister {call : AppCall} (h : Aside call) (app : AppData) :
    (App.machine.step app call).1.shiftRegister = app.shiftRegister := by
  cases call with
  | line line =>
    obtain ⟨enabled, heq⟩ := appLine_eq app line
    show (appLine app line).1.shiftRegister = _
    rw [heq]
  | httpsClientTasks net =>
    show (appHttpsTasks app net).1.shiftRegister = _
    rw [(appHttpsTasks_same app net).eq]
  | rtcTasks _ | flashTasks _ => rfl
  | _ => exact h.elim

section Rounds

variable {l : Ledger} {app : AppData} {s : Shown} {p k : Nat}

/-- What is noted after some calls. -/
def noted (l : Ledger) (app : AppData) (calls : List AppCall) : Ledger :=
  (App.machine.visits app calls).foldl observe l

theorem noted_append (l : Ledger) (app : AppData) (calls calls' : List AppCall) :
    noted l app (calls ++ calls') = noted (noted l app calls) (App.machine.run app calls) calls' := by
  unfold noted
  rw [Machine.visits_append, List.foldl_append]

theorem Awaits.aside_run (h : Awaits l app s p k) {calls : List AppCall}
    (hcalls : ∀ call ∈ calls, Aside call) :
    Awaits (noted l app calls) (App.machine.run app calls) s p k := by
  induction calls generalizing l app with
  | nil => exact h
  | cons call calls ih =>
    have hcall := hcalls call (List.mem_cons_self ..)
    have hfree : Display.IdleWithin k (App.machine.step app call).1.shiftRegister :=
      aside_shiftRegister hcall app ▸ h.free
    have hother : ∀ answers, call ≠ .nixieTasks answers := by
      rintro answers rfl
      exact hcall
    exact ih (h.aside call hother hfree) fun c hc => hcalls c (List.mem_cons_of_mem _ hc)

/-- Only `shift_register` touches the shift register module, in its first call. -/
theorem perform_shiftRegister_other (answers : CommandAnswers) (callback : AppCommandTaskCallback)
    (cmdIo : Option CmdIo) (mode : AppCommandTaskCallbackMode) (app : AppData)
    (h : mode = .invoke → callback.ownCheck ≠ .performShiftRegisterCheckAvailable) :
    (perform answers callback cmdIo mode app).2.1.shiftRegister = app.shiftRegister := by
  cases hc : callback.ownCheck with
  | performFetchCheckAvailable =>
    cases callback with
    | performFetch =>
      cases mode with
      | invoke =>
        simp only [perform, performFetch]
        split <;> rfl
      | update => rfl
    | _ => cases hc
  | performFlashCheckAvailable => rw [perform_flash answers cmdIo mode app hc]
  | performNixieCheckAvailable =>
    obtain ⟨nixie, union, heq⟩ := perform_nixie answers cmdIo mode app hc
    rw [heq]
  | performRTCCheckAvailable =>
    obtain ⟨v, heq⟩ := perform_rtc answers cmdIo mode app hc
    rw [heq]
    rfl
  | performShiftRegisterCheckAvailable =>
    cases mode with
    | invoke => exact absurd hc (h rfl)
    | update => cases callback <;> first | rfl | cases hc

/-- The command task does not take the shift register module while it is busy. -/
theorem command_shiftRegister {app : AppData} (h : ShiftReady app) (answers : CommandAnswers)
    (hbusy : app.shiftRegister.state ≠ .idle) :
    (App.machine.step app (.commandTasks answers)).1.shiftRegister = app.shiftRegister := by
  obtain ⟨last, hlast⟩ := h.listening
  show (appCommandTasks app answers).1.shiftRegister = _
  have hstep := appCommandTasks_step answers hlast.task
  generalize appCommandTasks app answers = result at hstep ⊢
  cases hstep with
  | waits es => rfl
  | performs callback cmdIo mode es hcallback hinvoke =>
    refine perform_shiftRegister_other answers callback _ mode app fun hm hc => ?_
    obtain ⟨-, ha⟩ := hinvoke hm
    rw [hc] at ha
    apply hbusy
    simpa [performCheckAvailable, performShiftRegisterCheckAvailable, appShiftRegisterIsBusy] using ha

/-- The bound on the shift register module after an iteration; before the module writes, the console may
take it. -/
def nextFree (p k : Nat) : Nat := if p = 0 then k - 1 else 115

/-- An iteration hands the word over, or brings the module nearer to that. -/
theorem Awaits.round (h : Awaits l app s p k) (hk : k ≤ 115) (round : AppRound) :
    (∃ before, before <+: round.calls ∧
      HandedOver (noted l app before) (App.machine.run app before) s) ∨
    (Awaits (noted l app round.calls) (App.machine.run app round.calls) s (p - 1) (nextFree p k) ∧
      (p = 0 → 0 < k)) := by
  have haside : ∀ call ∈ AppRound.before round, Aside call := by
    intro call hcall
    simp only [AppRound.before, List.mem_append, List.mem_map, List.mem_cons, List.not_mem_nil,
      or_false] at hcall
    rcases hcall with ⟨line, -, rfl⟩ | rfl | rfl | rfl <;> trivial
  have h₁ := h.aside_run haside
  -- The shift register module.
  have h₂ : Awaits _ _ s p (k - 1) := h₁.aside .shiftRegisterTasks (fun _ h => by cases h)
    (idleWithin_pred h₁.free)
  rw [calls_eq]
  rcases h₂.nixie round.nixie with ⟨-, -, hover⟩ | ⟨hbusy, h₃, hshift⟩
  · left
    refine ⟨AppRound.before round ++ [.shiftRegisterTasks, .nixieTasks round.nixie], ?_, ?_⟩
    · rw [List.prefix_append_right_inj]
      exact List.prefix_append [_, _] [_]
    · rw [noted_append, Machine.run_append]
      exact hover
  · right
    rw [noted_append, Machine.run_append]
    refine ⟨h₃.aside (.commandTasks round.command) (fun _ h => by cases h) ?_, fun hp => ?_⟩
    · unfold nextFree
      split
      · rename_i hp
        rw [command_shiftRegister h₃.ready _ (hshift ▸ hbusy hp)]
        exact h₃.free
      · exact idleWithin_step h₃.ready (idleWithin_le h₃.free (by omega)) _
    · apply Nat.pos_of_ne_zero
      rintro rfl
      exact hbusy hp h₂.free

/-- The iterations that are needed. -/
def roundsToWrite (p k : Nat) : Nat := if p = 0 then k + 1 else p + 116

theorem handed_over_in_time (h : Awaits l app s p k) (hk : k ≤ 115) {rounds : List AppRound}
    (hlen : roundsToWrite p k ≤ rounds.length) :
    ∃ before, before <+: loopCalls rounds ∧
      HandedOver (noted l app before) (App.machine.run app before) s := by
  induction rounds generalizing l app p k with
  | nil =>
    unfold roundsToWrite at hlen
    rw [List.length_nil] at hlen
    split at hlen <;> omega
  | cons round rounds ih =>
    rw [List.length_cons] at hlen
    rw [show loopCalls (round :: rounds) = round.calls ++ loopCalls rounds from List.flatMap_cons ..]
    rcases h.round hk round with ⟨before, hbefore, hover⟩ | ⟨hnext, hpos⟩
    · exact ⟨before, hbefore.trans (List.prefix_append _ _), hover⟩
    · have hk' : nextFree p k ≤ 115 := by
        unfold nextFree
        split <;> omega
      have hlen' : roundsToWrite (p - 1) (nextFree p k) ≤ rounds.length := by
        unfold roundsToWrite nextFree at *
        split at hlen <;> split <;> simp_all <;> omega
      obtain ⟨before, hbefore, hover⟩ := ih hnext hk' hlen'
      refine ⟨round.calls ++ before, ?_, ?_⟩
      · rw [List.prefix_append_right_inj]
        exact hbefore
      · rw [noted_append, Machine.run_append]
        exact hover

/-! ## The word is sent -/

/-- While a word is being sent, a call hands over no other. -/
theorem sending_step (hready : ShiftReady app) (hk : Display.IdleWithin k app.shiftRegister)
    (hbusy : app.shiftRegister.state ≠ .idle) (call : AppCall) :
    handed [(app, call)] = [] ∧
      Display.IdleWithin (if isShiftTasks call then k - 1 else k)
        (App.machine.step app call).1.shiftRegister := by
  have hstep := shift_step hready call
  rw [handed_singleton]
  by_cases hcall : isShiftTasks call = true
  · rw [if_pos hcall]
    cases call with
    | shiftRegisterTasks => exact ⟨by rw [hstep.none_of_busy hbusy]; rfl, idleWithin_pred hk⟩
    | _ => cases hcall
  · rw [if_neg hcall]
    generalize (App.machine.step app call).1.shiftRegister = d' at hstep
    generalize appLines (App.machine.step app call).2 = es at hstep
    generalize handedOver (app, call) = w at hstep
    cases hstep with
    | same => exact ⟨rfl, hk⟩
    | tasks => exact ⟨rfl, idleWithin_le (idleWithin_pred hk) (Nat.sub_le _ _)⟩
    | enabled => exact ⟨rfl, hk⟩
    | sent hidle => exact absurd hidle hbusy

theorem idle_in_time (hready : ShiftReady app) (hk : Display.IdleWithin k app.shiftRegister)
    {later : List AppCall} (hcalls : k ≤ later.countP isShiftTasks) :
    ∃ before, before <+: later ∧ handed (App.machine.visits app before) = [] ∧
      (App.machine.run app before).shiftRegister.state = .idle := by
  induction later generalizing app k with
  | nil =>
    rw [List.countP_nil] at hcalls
    exact ⟨[], List.nil_prefix, rfl, idleWithin_le hk hcalls⟩
  | cons call later ih =>
    by_cases hidle : app.shiftRegister.state = .idle
    · exact ⟨[], List.nil_prefix, rfl, hidle⟩
    obtain ⟨hnone, hnext⟩ := sending_step hready hk hidle call
    have hcalls' : (if isShiftTasks call then k - 1 else k) ≤ later.countP isShiftTasks := by
      rw [List.countP_cons] at hcalls
      split <;> simp_all
    obtain ⟨before, hbefore, hwords, hend⟩ := ih (shiftReady_step hready call) hnext hcalls'
    refine ⟨call :: before, List.cons_prefix_cons.mpr ⟨rfl, hbefore⟩, ?_, hend⟩
    rw [handed_visits_cons, hnone, hwords, List.append_nil]

/-- Without a new word the words that are noted stay. -/
theorem noted_words {calls : List AppCall} (h : handed (App.machine.visits app calls) = []) :
    (noted l app calls).words = l.words := by
  induction calls generalizing l app with
  | nil => rfl
  | cons call calls ih =>
    rw [handed_visits_cons, List.append_eq_nil_iff] at h
    refine (ih (l := observe l (app, call)) h.2).trans ?_
    show l.words ++ (handed [(app, call)]).map _ = l.words
    rw [h.1, List.map_nil, List.append_nil]

theorem countP_loopCalls (rounds : List AppRound) :
    (loopCalls rounds).countP isShiftTasks = rounds.length := by
  induction rounds with
  | nil => rfl
  | cons round rounds ih =>
    have hlines : (AppRound.before round).countP isShiftTasks = 0 := by
      rw [List.countP_eq_zero]
      intro call hcall
      simp only [AppRound.before, List.mem_append, List.mem_map, List.mem_cons, List.not_mem_nil,
        or_false] at hcall
      rcases hcall with ⟨line, -, rfl⟩ | rfl | rfl | rfl <;> exact Bool.false_ne_true
    rw [show loopCalls (round :: rounds) = round.calls ++ loopCalls rounds from List.flatMap_cons ..,
      List.countP_append, ih, calls_eq, List.countP_append, hlines, List.length_cons, Nat.add_comm]
    rfl

end Rounds

/-- **A number reaches the tubes in time.** Whenever the display of a value has begun and its word is not
handed over yet, whatever is typed and answered meanwhile: within as many iterations of the main loop as
it takes to prepare the word behind another one that is being sent, and then to send it, the shift
register module gets idle with exactly the digits of the value on the outputs. -/
theorem value_shown_in_time (app : AppData) (i2cOpened : Bool) (calls : List AppCall) {s : Shown}
    (hbegun : (ledger (App.machine.visits (appInitialize app i2cOpened) calls)).begun =
      (ledger (App.machine.visits (appInitialize app i2cOpened) calls)).written ++ [s])
    {rounds : List AppRound} (hrounds : 119 + 115 ≤ rounds.length) (c : Chain 48)
    (ls : Levels ShiftPin) :
    let start := appInitialize app i2cOpened
    ∃ before, before <+: loopCalls rounds ∧
      (App.machine.run start (calls ++ before)).shiftRegister.state = .idle ∧
      ∀ b k, output (c.feed .data .srck .rck ls
        (appLines (App.machine.trace start (calls ++ before)))) b k = true ↔ Lit s.value b k := by
  intro start
  have htracked : Tracked (ledger (App.machine.visits start calls)) (App.machine.run start calls) :=
    tracked_run (tracked_appInitialize app i2cOpened) calls
  obtain ⟨hready, hlatching, -⟩ := latching_start app i2cOpened calls c ls
  have hawaits : Awaits _ _ s _ 115 := ⟨htracked, hready, hbegun, rfl, hlatching.idleWithin⟩
  -- The word is handed over.
  have hlen : roundsToWrite (callsToWrite (App.machine.run start calls).nixie.state) 115 ≤
      (rounds.take 119).length := by
    have hp := hawaits.displaying.1
    rw [List.length_take]
    unfold roundsToWrite
    split <;> omega
  obtain ⟨before, hbefore, hover⟩ := handed_over_in_time hawaits (Nat.le_refl 115) hlen
  obtain ⟨later, hlater⟩ := hbefore
  -- It is sent.
  have hcalls : loopCalls rounds = before ++ (later ++ loopCalls (rounds.drop 119)) := by
    rw [← List.append_assoc, hlater]
    unfold loopCalls
    rw [← List.flatMap_append, List.take_append_drop]
  have hcount : 115 ≤ (later ++ loopCalls (rounds.drop 119)).countP isShiftTasks := by
    rw [List.countP_append, countP_loopCalls, List.length_drop]
    omega
  obtain ⟨sending, hsending, hnone, hidle⟩ := idle_in_time hover.ready hover.free hcount
  rw [← Machine.run_append, ← Machine.run_append] at hidle
  refine ⟨before ++ sending, ?_, hidle, ?_⟩
  · rw [hcalls, List.prefix_append_right_inj]
    exact hsending
  · obtain ⟨latched, hwords, hlast, houtputs⟩ :=
      exists_latched app i2cOpened (calls ++ (before ++ sending)) c ls
    have htracked' : Tracked (ledger (App.machine.visits start (calls ++ (before ++ sending))))
        (App.machine.run start (calls ++ (before ++ sending))) :=
      tracked_run (tracked_appInitialize app i2cOpened) _
    obtain ⟨words, w, hword⟩ := hover.word
    have hnoted : (ledger (App.machine.visits start (calls ++ (before ++ sending)))).words =
        words ++ [(w, some s)] := by
      have hsplit : ledger (App.machine.visits start (calls ++ (before ++ sending))) =
          noted (noted (ledger (App.machine.visits start calls)) (App.machine.run start calls) before)
            (App.machine.run (App.machine.run start calls) before) sending := by
        rw [← noted_append]
        exact noted_append _ start calls _
      rw [hsplit, noted_words hnone, hword]
    refine (lit_of_latched htracked' hwords (w := w) ?_ houtputs).2
    rw [hlast hidle, hnoted, List.getLast?_concat]

/-- `nixie display 1234` is typed and performed. -/
def typedCalls : List AppCall :=
  [.line (.ofWords [nixieWord, displayWord, ⟨lit "1234", by decide⟩]),
    .commandTasks AppRound.calm.command]

theorem value_shown_in_time_typed :
    ∃ before, before <+: loopCalls (List.replicate 234 .calm) ∧
      (App.machine.run (appInitialize .zeroed true) (typedCalls ++ before)).shiftRegister.state =
        .idle ∧
      ∀ b k, output ((⟨fun _ => false, fun _ => false⟩ : Chain 48).feed .data .srck .rck
          (fun _ => false) (appLines (App.machine.trace (appInitialize .zeroed true)
            (typedCalls ++ before)))) b k = true ↔
        Lit #v[52, 51, 50, 49] b k :=
  value_shown_in_time .zeroed true typedCalls (s := ⟨.command (lit "4321"), #v[52, 51, 50, 49]⟩)
    (by decide +kernel) (by rw [List.length_replicate]) _ _

end Tracker

end NixieTracker
