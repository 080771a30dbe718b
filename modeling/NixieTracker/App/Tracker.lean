import NixieTracker.App.Display
import NixieTracker.App.Shifting

/-!
# The tubes show the number of the server

The way of a number through the application: the bytes of a response, the digits behind the token, the
word for the registers, the outputs of the chain.

* `Ledger`: what an observer of the calls notes. `Origin.Gives` and `Encodes` say what a value and a
  word have to be.
* `Tracked`: the invariant; `tracked_step` is its step, with a lemma for each module.
* `values_tracked`: the values and the words of every run.
* `tubes_show_values`: the outputs that follow.
-/

namespace NixieTracker

open Lib Lib.Wave HttpsClient Scheduler Shifting

namespace Tracker

/-! ## The observer -/

/-- Where a value comes from: the bytes of a response, or what is stored for `nixie display`. -/
inductive Origin where
  | response (body : List UInt8)
  | command (stored : List UInt8)
  deriving DecidableEq

/-- A value whose display has begun. -/
structure Shown where
  origin : Origin
  value : Buf maxNixieTubes
  deriving DecidableEq

/-- What an observer notes: the nixie module's current request with the bytes that came for it, the
values whose display has begun, and the words for the registers, each with the value that it is for if
the nixie module has handed it over. -/
structure Ledger where
  request : RequestLog
  begun : List Shown
  words : List (Word × Option Shown)

/-- The values that are on their way to the tubes. -/
def Ledger.written (l : Ledger) : List Shown := l.words.filterMap (·.2)

/-- The display that a call begins. -/
def begins (body : List UInt8) (app app' : AppData) : List Shown :=
  if app'.nixie.state = .beginDisplaySequence then
    match app.nixie.state with
    | .shuffleServerValue => [⟨.response body, app'.nixie.displayValue⟩]
    | .idle => [⟨.command app.displayStored, app'.nixie.displayValue⟩]
    | _ => []
  else []

/-- The value that the word of a call is for. -/
def valueOf (begun : List Shown) : AppCall → Option Shown
  | .nixieTasks _ => begun.getLast?
  | _ => none

def observe (l : Ledger) (v : AppData × AppCall) : Ledger :=
  let r := App.machine.step v.1 v.2
  { request := r.2.foldl observeRequest l.request
    begun := l.begun ++ begins l.request.body v.1 r.1
    words := l.words ++ (handed [v]).map (⟨·, valueOf l.begun v.2⟩) }

/-- What is noted of a run from the initialized application on, which has handed over zeros. -/
def ledger (visits : List (AppData × AppCall)) : Ledger :=
  visits.foldl observe ⟨⟨none, false, false, []⟩, [], [(.blank, none)]⟩

/-- The value is right: the digits behind the first token of the response, or the stored bytes up to
their first NUL, and NULs from there on. -/
def Origin.Gives : Origin → Buf maxNixieTubes → Prop
  | .response body, value => ∃ p, FirstAt defaultToken body p ∧
      value.toList =
        shownDigits (leadingDigits maxNixieTubes (body.drop (p + defaultToken.length)))
  | .command stored, value => ∀ i (_ : i < maxNixieTubes),
      value[i] = if 0 ∈ stored.take (i + 1) then 0 else (stored[i]?).getD 0

/-- The bytes of a list up to its first NUL. -/
theorem getElem?_cstr (stored : List UInt8) (i : Nat) :
    ((cstr stored)[i]?).getD 0 = if 0 ∈ stored.take (i + 1) then 0 else (stored[i]?).getD 0 := by
  induction stored generalizing i with
  | nil => simp [cstr]
  | cons b bs ih =>
    by_cases hb : b = 0
    · simp [cstr, hb]
    · have hcstr : cstr (b :: bs) = b :: cstr bs := by simp [cstr, hb]
      rw [hcstr]
      cases i with
      | zero => simp [Ne.symm hb]
      | succ i => simp [ih, Ne.symm hb]

/-- What `APP_Nixie_Display` makes of the stored bytes. -/
theorem gives_strncpyDisplay (stored : List UInt8) :
    (Origin.command stored).Gives (strncpyDisplay stored) := by
  intro i hi
  exact (getElem_strncpyDisplay stored hi).trans (getElem?_cstr stored i)

/-- Output `k` of register `b` is that of a digit that a tube shows. -/
def Lit (value : Buf maxNixieTubes) (b : Fin numNixieShiftRegisters) (k : Fin 8) : Prop :=
  ∃ t < maxNixieTubes, ∃ symbol, Shows value t symbol ∧ placeOf t symbol = some ⟨b.val, k.val⟩

/-- The word has a bit exactly for each digit that a tube shows. -/
def Encodes (w : Word) (s : Shown) : Prop :=
  w.numBytes = numNixieShiftRegisters ∧
  ∀ (b : Fin numNixieShiftRegisters) (k : Fin 8),
    ((w.data[numNixieShiftRegisters - 1 - b.val]?).getD 0).toNat.testBit k.val = true ↔
      Lit s.value b k

/-! ## The invariant -/

/-- The states of a display. -/
def Displaying (s : AppNixieState) : Prop :=
  s ∈ [.beginDisplaySequence, .decodeDisplayValue, .encodeShiftRegister, .writeShiftRegister]

/-- How far the module is with the values that the observer has noted. -/
inductive Phase (l : Ledger) (d : AppNixieData) : Prop
  | settled (h : ¬ Displaying d.state) (hdone : l.begun = l.written)
  | displaying (s : Shown) (d₀ : AppNixieData) (p : Nat) (hp : p ≤ 3)
      (h : d₀.state = .beginDisplaySequence) (hwired : Wired d₀) (hvalue : d₀.displayValue = s.value)
      (hd : d = Display.nixieAt d₀ p) (hbegun : l.begun = l.written ++ [s])

structure Tracked (l : Ledger) (app : AppData) : Prop where
  listening : ∃ last, Listening app last
  answered : Answered l.request.body app.nixie
  wired : Wired app.nixie
  gives : ∀ s ∈ l.begun, s.origin.Gives s.value
  encodes : ∀ w s, (w, some s) ∈ l.words → Encodes w s
  phase : Phase l app.nixie

/-- No more than one value is not handed over yet. -/
theorem Phase.pending {l : Ledger} {d : AppNixieData} (h : Phase l d) :
    ∃ pending, l.begun = l.written ++ pending ∧ pending.length ≤ 1 ∧
      (d.state = .idle → pending = []) := by
  cases h with
  | displaying s d₀ p hp h hwired hvalue hd hbegun =>
    refine ⟨[s], hbegun, Nat.le_refl 1, fun hidle => ?_⟩
    rw [hd] at hidle
    exact absurd hidle (Display.nixieAt_state h hp)
  | settled h hdone => exact ⟨[], by rw [hdone, List.append_nil], Nat.zero_le 1, fun _ => rfl⟩

/-- The states of a display. -/
theorem nixieAt_displaying {d₀ : AppNixieData} (hs : d₀.state = .beginDisplaySequence) {p : Nat}
    (hp : p ≤ 3) : Displaying (Display.nixieAt d₀ p).state := by
  interval_cases p
  · exact List.mem_of_elem_eq_true rfl
  · exact List.mem_of_elem_eq_true rfl
  · exact List.mem_of_elem_eq_true rfl
  · exact hs ▸ List.mem_cons_self ..

/-- Without a display all values are handed over. -/
theorem Phase.written {l : Ledger} {d : AppNixieData} (h : Phase l d) (hs : ¬ Displaying d.state) :
    l.begun = l.written := by
  cases h with
  | settled _ hdone => exact hdone
  | displaying s d₀ p hp h hwired hvalue hd hbegun => exact absurd (hd ▸ nixieAt_displaying h hp) hs

/-! ## What a call changes -/

section Observe

variable {l : Ledger} {app : AppData} {call : AppCall}

/-- The module hands over a word only in the last state of a display, to an idle module. -/
theorem handedOver_none {answers : NixieAnswers}
    (h : app.nixie.state = .writeShiftRegister → app.shiftRegister.state ≠ .idle) :
    handedOver (app, .nixieTasks answers) = none :=
  if_neg fun hs => h hs.1 hs.2

theorem begins_nil {body : List UInt8} {app' : AppData}
    (h : app'.nixie.state = .beginDisplaySequence → app.nixie.state = .beginDisplaySequence) :
    begins body app app' = [] := by
  unfold begins
  split
  · rename_i hbegin
    rw [h hbegin]
  · rfl

/-- Words without a value. -/
theorem written_observe (h : handedOver (app, call) = none ∨ valueOf l.begun call = none) :
    (observe l (app, call)).written = l.written := by
  show List.filterMap _ (l.words ++ _) = _
  rw [List.filterMap_append, handed_singleton]
  rcases h with h | h
  · rw [h]
    exact List.append_nil _
  · simp only [h]
    cases handedOver (app, call) <;> exact List.append_nil _

theorem Tracked.after (h : Tracked l app)
    (hgives : ∀ s ∈ begins l.request.body app (App.machine.step app call).1, s.origin.Gives s.value)
    (hencodes : ∀ w s, handedOver (app, call) = some w → valueOf l.begun call = some s → Encodes w s)
    (hphase : Phase (observe l (app, call)) (App.machine.step app call).1.nixie) :
    Tracked (observe l (app, call)) (App.machine.step app call).1 := by
  obtain ⟨last, hlast⟩ := h.listening
  have hsetUp := setUpFields_step hlast call
  refine ⟨⟨_, listening_step app call last hlast⟩, answered_step hlast h.answered call,
    h.wired.congr hsetUp, ?_, ?_, hphase⟩
  · intro s hs
    rcases List.mem_append.mp hs with hs | hs
    · exact h.gives s hs
    · exact hgives s hs
  · intro w s hw
    rcases List.mem_append.mp hw with hw | hw
    · exact h.encodes w s hw
    · obtain ⟨w', hw', heq⟩ := List.mem_map.mp hw
      obtain ⟨rfl, hvalue⟩ := Prod.mk.inj heq
      rw [handed_singleton, Option.mem_toList] at hw'
      exact hencodes w' s hw' hvalue

theorem Phase.congr {l' : Ledger} {d : AppNixieData} (h : Phase l d) (hbegun : l'.begun = l.begun)
    (hwritten : l'.written = l.written) : Phase l' d := by
  cases h with
  | settled h hdone => exact .settled h (by rw [hbegun, hwritten, hdone])
  | displaying s d₀ p hp h hwired hvalue hd hdone =>
    exact .displaying s d₀ p hp h hwired hvalue hd (by rw [hbegun, hwritten, hdone])

/-- A call that begins no display and hands over no word for a value. -/
theorem Tracked.keeps (h : Tracked l app)
    (hbegins : begins l.request.body app (App.machine.step app call).1 = [])
    (hword : handedOver (app, call) = none ∨ valueOf l.begun call = none)
    (hphase : Phase l (App.machine.step app call).1.nixie) :
    Tracked (observe l (app, call)) (App.machine.step app call).1 := by
  refine h.after ?_ ?_ (hphase.congr ?_ (written_observe hword))
  · rw [hbegins]
    intro s hs
    cases hs
  · intro w s hw hs
    rcases hword with hnone | hnone
    · rw [hnone] at hw
      cases hw
    · rw [hnone] at hs
      cases hs
  · show l.begun ++ begins l.request.body app (App.machine.step app call).1 = _
    rw [hbegins, List.append_nil]

/-- A call without a display, before or after it. -/
theorem Tracked.settles (h : Tracked l app) (hs : ¬ Displaying app.nixie.state)
    (hs' : ¬ Displaying (App.machine.step app call).1.nixie.state)
    (hword : handedOver (app, call) = none ∨ valueOf l.begun call = none) :
    Tracked (observe l (app, call)) (App.machine.step app call).1 := by
  refine h.keeps (begins_nil fun hb => absurd ?_ hs') hword (.settled hs' (h.phase.written hs))
  rw [hb]
  exact List.mem_cons_self ..

/-- The periodic requests are switched. -/
theorem Phase.setEnabled {d : AppNixieData} (h : Phase l d) (enabled : Bool) :
    Phase l (appNixiePeriodicTasksSetEnabled d enabled) := by
  cases h with
  | settled h hdone => exact .settled h hdone
  | displaying s d₀ p hp h hwired hvalue hd hdone =>
    refine .displaying s (appNixiePeriodicTasksSetEnabled d₀ enabled) p hp h
      ⟨hwired.numNixies, hwired.numShiftRegisters, hwired.nixieTypes, hwired.digitPlace⟩ hvalue ?_ hdone
    rw [hd]
    interval_cases p <;> rfl

end Observe

/-! ## One call -/

/-- A call that is neither of the client, nor of the module, nor of the command task. -/
theorem tracked_other {l : Ledger} {app : AppData} (h : Tracked l app) {call : AppCall}
    (hcall : call.MakesNoRequest) :
    Tracked (observe l (app, call)) (App.machine.step app call).1 := by
  obtain ⟨enabled, hnixie⟩ := (hcall.step app l.request).1
  refine h.keeps ?_ (.inr ?_) ?_
  · apply begins_nil
    rw [hnixie]
    exact id
  · cases call <;> first | rfl | exact hcall.elim
  · rw [hnixie]
    exact h.phase.setEnabled enabled

theorem tracked_https {l : Ledger} {app : AppData} (h : Tracked l app) (net : NetAnswers) :
    Tracked (observe l (app, .httpsClientTasks net))
      (App.machine.step app (.httpsClientTasks net)).1 := by
  obtain ⟨last, hlast⟩ := h.listening
  have hstep := responseStep hlast net
  by_cases hs : app.nixie.state = .waitHttpsResponse
  · refine h.settles (by simp [Displaying, hs]) ?_ (.inr rfl)
    show ¬ Displaying (appHttpsTasks app net).1.nixie.state
    generalize (appHttpsTasks app net).1.nixie = d' at hstep
    generalize (appHttpsClientTasks net app.httpsClient).2.flatMap nixieBytes = bytes at hstep
    cases hstep with
    | quiet => simp [Displaying, hs]
    | received bytes => simp [Displaying, bufferReceivedCallback_state, hs]
    | handled =>
      rw [requestHandledCallback_state]
      split <;> simp [Displaying]
    | failed => simp [Displaying, errorCallback]
  · have hsame : (App.machine.step app (.httpsClientTasks net)).1.nixie = app.nixie := by
      show (appHttpsTasks app net).1.nixie = app.nixie
      generalize (appHttpsTasks app net).1.nixie = d' at hstep
      generalize (appHttpsClientTasks net app.httpsClient).2.flatMap nixieBytes = bytes at hstep
      cases hstep with
      | quiet => rfl
      | received bytes hw => exact absurd hw hs
      | handled hw => exact absurd hw hs
      | failed hw => exact absurd hw hs
    exact h.keeps (begins_nil (by rw [hsame]; exact id)) (.inr rfl) (hsame ▸ h.phase)

/-! ## The nixie module -/

/-- The digits of the response are moved to the end and filled up. -/
theorem tracked_shuffled {l : Ledger} {app : AppData} (h : Tracked l app)
    (hs : app.nixie.state = .shuffleServerValue) (answers : NixieAnswers) :
    Tracked (observe l (app, .nixieTasks answers))
      (App.machine.step app (.nixieTasks answers)).1 := by
  have hsettled : ¬ Displaying app.nixie.state := by simp [Displaying, hs]
  have hword : handedOver (app, .nixieTasks answers) = none := handedOver_none (by simp [hs])
  have hnixie : (App.machine.step app (.nixieTasks answers)).1.nixie =
      (shuffleServerValueDigits app.nixie).1 := by
    show (appNixieModuleTasks app answers).1.nixie = _
    rw [appNixieModuleTasks_nixie]
    simp only [appNixieTasks, AppData.nixieView, hs]
  have hstate := shuffleServerValueDigits_state app.nixie
  cases hout : app.nixie.displayValueOut.isSome with
  | true =>
    rw [hout, if_pos rfl] at hstate
    exact h.settles hsettled (by simp [Displaying, hnixie, hstate]) (.inl hword)
  | false =>
    rw [hout, if_neg Bool.false_ne_true] at hstate
    let s : Shown := ⟨.response l.request.body, (shuffleServerValueDigits app.nixie).1.displayValue⟩
    have hbegins : begins l.request.body app (App.machine.step app (.nixieTasks answers)).1 = [s] := by
      unfold begins
      rw [hnixie, hstate, if_pos rfl, hs]
    refine h.after ?_ ?_ ?_
    · rw [hbegins]
      intro s' hs'
      obtain rfl := List.mem_singleton.mp hs'
      exact h.answered.shuffled hs
    · intro w s' hw
      rw [hword] at hw
      cases hw
    · have hwired : Wired (App.machine.step app (.nixieTasks answers)).1.nixie := by
        obtain ⟨last, hlast⟩ := h.listening
        exact h.wired.congr (setUpFields_step hlast (.nixieTasks answers))
      rw [hnixie] at hwired ⊢
      refine .displaying s _ 3 (Nat.le_refl 3) hstate hwired rfl rfl ?_
      rw [written_observe (.inl hword), ← h.phase.written hsettled]
      exact congrArg (l.begun ++ ·) hbegins

theorem tracked_settled {l : Ledger} {app : AppData} (h : Tracked l app)
    (hs : ¬ Displaying app.nixie.state) (answers : NixieAnswers) :
    Tracked (observe l (app, .nixieTasks answers))
      (App.machine.step app (.nixieTasks answers)).1 := by
  by_cases hshuffle : app.nixie.state = .shuffleServerValue
  · exact tracked_shuffled h hshuffle answers
  refine h.settles hs ?_ (.inl (handedOver_none fun hw => absurd (by simp [Displaying, hw]) hs))
  obtain ⟨events, hstep, -⟩ := appNixieModuleTasks_step app answers
  show ¬ Displaying (appNixieModuleTasks app answers).1.nixie.state
  generalize (appNixieModuleTasks app answers).1 = app' at hstep
  cases hstep with
  | waiting => exact hs
  | submitted => simp [Displaying, AppNixieData.submit]
  | stored out hw => exact absurd hw hshuffle
  | moved nixie shiftRegister hnext =>
    show ¬ Displaying nixie.state
    generalize app.nixie.state = st at hs hnext hshuffle
    generalize nixie.state = st' at hnext
    cases hnext <;> simp_all [Displaying]

/-- The bytes that are handed over encode the value. -/
theorem encodes_bytesToSend {d : AppNixieData} (h : Wired d) {s : Shown}
    (hvalue : d.displayValue = s.value) :
    Encodes ⟨Display.bytesToSend d, d.numShiftRegisters⟩ s := by
  refine ⟨h.numShiftRegisters, fun b k => ?_⟩
  have hlt : numNixieShiftRegisters - 1 - b.val < numNixieShiftRegisters := by omega
  rw [Vector.getElem?_eq_getElem hlt, Option.getD_some]
  refine (encode_decode_testBit h b.isLt).trans ?_
  rw [hvalue]
  constructor
  · rintro ⟨t, ht, symbol, hshows, hplace⟩
    exact ⟨t, ht, symbol, hshows, (h.digitPlace t ht symbol hshows.2).symm.trans hplace⟩
  · rintro ⟨t, ht, symbol, hshows, hplace⟩
    exact ⟨t, ht, symbol, hshows, (h.digitPlace t ht symbol hshows.2).trans hplace⟩

/-- A call of the module on its way to the registers, with `p` calls to go before they are written. -/
inductive DisplayStep (d₀ : AppNixieData) (app app' : AppData) : Nat → Prop
  | prepared (p : Nat) (hp : p < 3) (hnixie : app'.nixie = Display.nixieAt d₀ p)
      (hshift : app'.shiftRegister = app.shiftRegister) : DisplayStep d₀ app app' (p + 1)
  | waits (hbusy : app.shiftRegister.state ≠ .idle) (hnixie : app'.nixie = Display.nixieAt d₀ 0)
      (hshift : app'.shiftRegister = app.shiftRegister) : DisplayStep d₀ app app' 0
  | sent (hfree : app.shiftRegister.state = .idle) (hnixie : app'.nixie.state = .idle)
      (hshift : app'.shiftRegister =
        appShiftRegisterSendData app.shiftRegister (Display.bytesToSend d₀) d₀.numShiftRegisters) :
    DisplayStep d₀ app app' 0

theorem displayStep {app : AppData} {d₀ : AppNixieData} {p : Nat} (hp : p ≤ 3)
    (hs : d₀.state = .beginDisplaySequence) (hd : app.nixie = Display.nixieAt d₀ p)
    (answers : NixieAnswers) : DisplayStep d₀ app (appNixieModuleTasks app answers).1 p := by
  have hstep : ∀ {v : NixieView AppListener},
      (Display.step .nixie app.nixieView (.nixie answers)).1 = v →
      (appNixieModuleTasks app answers).1.nixie = v.nixie ∧
        (appNixieModuleTasks app answers).1.shiftRegister = v.shiftRegister := by
    rintro v rfl
    have hview := appNixieModuleTasks_view app answers
    exact ⟨congrArg NixieView.nixie hview, congrArg NixieView.shiftRegister hview⟩
  cases p with
  | succ p =>
    obtain ⟨hnixie, hshift⟩ := hstep (congrArg Prod.fst
      (Display.nixieAt_step AppListener.nixie hs answers (v := app.nixieView) (by omega) hd))
    exact .prepared p (by omega) hnixie hshift
  | zero =>
    obtain ⟨hwait, hsend⟩ := Display.write_step AppListener.nixie (v := app.nixieView) answers hd
    by_cases hfree : app.shiftRegister.state = .idle
    · obtain ⟨hnixie, hshift⟩ := hstep (congrArg Prod.fst (hsend hfree))
      exact .sent hfree (congrArg AppNixieData.state hnixie) hshift
    · obtain ⟨hnixie, hshift⟩ := hstep (congrArg Prod.fst (hwait hfree))
      exact .waits hfree (hnixie.trans hd) hshift

theorem nixieAt_begin {d₀ : AppNixieData} {p : Nat} (hp : p < 3) :
    (Display.nixieAt d₀ p).state ≠ .beginDisplaySequence := by
  interval_cases p <;> simp [Display.nixieAt, encodeShiftRegister, decodeDisplayValue]

/-- The word that is handed over at the end of a display. -/
theorem handedOver_sent {app : AppData} {d₀ : AppNixieData} (answers : NixieAnswers)
    (hd : app.nixie = Display.nixieAt d₀ 0) (hfree : app.shiftRegister.state = .idle) :
    handedOver (app, .nixieTasks answers) = some ⟨Display.bytesToSend d₀, d₀.numShiftRegisters⟩ := by
  have hstate : app.nixie.state = .writeShiftRegister := hd ▸ rfl
  rw [handedOver, if_pos ⟨hstate, hfree⟩, hd]
  rfl

theorem handedOver_prepared {app : AppData} {d₀ : AppNixieData} (answers : NixieAnswers)
    (hs : d₀.state = .beginDisplaySequence) {p : Nat} (hp : p < 3)
    (hd : app.nixie = Display.nixieAt d₀ (p + 1)) : handedOver (app, .nixieTasks answers) = none := by
  refine handedOver_none fun hw => ?_
  rw [hd] at hw
  interval_cases p
  · cases hw
  · cases hw
  · cases hs.symm.trans hw

theorem tracked_displaying {l : Ledger} {app : AppData} (h : Tracked l app) {s : Shown}
    {d₀ : AppNixieData} {p : Nat} (hp : p ≤ 3) (hs : d₀.state = .beginDisplaySequence)
    (hwired : Wired d₀) (hvalue : d₀.displayValue = s.value) (hd : app.nixie = Display.nixieAt d₀ p)
    (hbegun : l.begun = l.written ++ [s]) (answers : NixieAnswers) :
    Tracked (observe l (app, .nixieTasks answers))
      (App.machine.step app (.nixieTasks answers)).1 := by
  -- The module goes on towards the registers.
  have hgoes {p' : Nat} (hp' : p' < 3)
      (hnixie : (appNixieModuleTasks app answers).1.nixie = Display.nixieAt d₀ p')
      (hword : handedOver (app, .nixieTasks answers) = none) :
      Tracked (observe l (app, .nixieTasks answers))
        (App.machine.step app (.nixieTasks answers)).1 := by
    refine h.keeps (begins_nil ?_) (.inl hword) ?_
    · intro hb
      rw [show (App.machine.step app (.nixieTasks answers)).1.nixie = _ from hnixie] at hb
      exact absurd hb (nixieAt_begin hp')
    · show Phase l (appNixieModuleTasks app answers).1.nixie
      rw [hnixie]
      exact .displaying s d₀ p' (by omega) hs hwired hvalue rfl hbegun
  cases displayStep hp hs hd answers with
  | prepared p hp hnixie => exact hgoes hp hnixie (handedOver_prepared answers hs (by omega) hd)
  | waits hbusy hnixie => exact hgoes (by omega) hnixie (handedOver_none fun _ => hbusy)
  | sent hfree hnixie =>
    have hword := handedOver_sent answers hd hfree
    have hlast : valueOf l.begun (.nixieTasks answers) = some s := by
      show l.begun.getLast? = some s
      rw [hbegun, List.getLast?_concat]
    have hbegins : begins l.request.body app (App.machine.step app (.nixieTasks answers)).1 = [] :=
      begins_nil fun hb => by cases hnixie.symm.trans hb
    refine h.after ?_ ?_ ?_
    · rw [hbegins]
      intro s' hs'
      cases hs'
    · intro w s' hw hs'
      rw [hword, Option.some.injEq] at hw
      rw [hlast, Option.some.injEq] at hs'
      subst hw hs'
      exact encodes_bytesToSend hwired hvalue
    · refine .settled ?_ ?_
      · show ¬ Displaying (appNixieModuleTasks app answers).1.nixie.state
        rw [hnixie]
        simp [Displaying]
      · show l.begun ++ begins l.request.body app _ = List.filterMap _ (l.words ++ _)
        rw [hbegins, List.append_nil, List.filterMap_append, handed_singleton, hword, hlast, hbegun]
        rfl

theorem tracked_nixie {l : Ledger} {app : AppData} (h : Tracked l app) (answers : NixieAnswers) :
    Tracked (observe l (app, .nixieTasks answers))
      (App.machine.step app (.nixieTasks answers)).1 := by
  cases h.phase with
  | settled hs _ => exact tracked_settled h hs answers
  | displaying s d₀ p hp hs hwired hvalue hd hbegun =>
    exact tracked_displaying h hp hs hwired hvalue hd hbegun answers

/-! ## The console -/

/-- What a callback does to an idle module. -/
inductive IdleStep (app : AppData) : AppNixieData → Prop
  | same : IdleStep app app.nixie
  | fetch (out value : Option Address) : IdleStep app
      { app.nixie with state := .beginHttpRequest, isFetchedOut := out, displayValueOut := value }
  | display : IdleStep app
      { app.nixie with
        displayValue := strncpyDisplay app.displayStored
        state := .beginDisplaySequence }

theorem perform_idle (answers : CommandAnswers) (callback : AppCommandTaskCallback)
    (cmdIo : Option CmdIo) (mode : AppCommandTaskCallbackMode) {app : AppData}
    (h : app.nixie.state = .idle) :
    IdleStep app (perform answers callback cmdIo mode app).2.1.nixie := by
  by_cases hc : callback.ownCheck = .performNixieCheckAvailable
  · cases callback with
    | performNixieDisplay =>
      cases mode with
      | invoke =>
        simp only [perform, performNixieDisplay, performOnce, appNixieDisplay, appNixieIsBusy, h,
          ne_eq, not_true_eq_false, decide_false, Bool.false_eq_true, if_false]
        exact .display
      | update => exact .same
    | performNixieFetch =>
      cases mode with
      | invoke =>
        rw [show perform answers .performNixieFetch cmdIo .invoke app =
          performNixieFetch app cmdIo .invoke from rfl, performNixieFetch_idle h cmdIo]
        exact .fetch _ _
      | update =>
        simp only [perform, performNixieFetch]
        split <;> exact .same
    | _ => cases hc
  · rw [perform_nixie_other answers cmdIo mode app hc]
    exact .same

/-- A call of the command task, as the callback leaves the module. -/
theorem tracked_perform {l : Ledger} {app : AppData} (h : Tracked l app) {answers : CommandAnswers}
    (callback : AppCommandTaskCallback) (cmdIo : Option CmdIo) (mode : AppCommandTaskCallbackMode)
    (hnixie : (App.machine.step app (.commandTasks answers)).1.nixie =
      (perform answers callback cmdIo mode app).2.1.nixie) :
    Tracked (observe l (app, .commandTasks answers))
      (App.machine.step app (.commandTasks answers)).1 := by
  by_cases hidle : app.nixie.state = .idle
  · have hsettled : ¬ Displaying app.nixie.state := by simp [Displaying, hidle]
    have hstep := perform_idle answers callback cmdIo mode hidle
    rw [← hnixie] at hstep
    have hwired : Wired (App.machine.step app (.commandTasks answers)).1.nixie := by
      obtain ⟨last, hlast⟩ := h.listening
      exact h.wired.congr (setUpFields_step hlast (.commandTasks answers))
    have hkeeps (hs : ¬ Displaying (App.machine.step app (.commandTasks answers)).1.nixie.state) :
        Tracked (observe l (app, .commandTasks answers))
          (App.machine.step app (.commandTasks answers)).1 := h.settles hsettled hs (.inr rfl)
    generalize happ' : (App.machine.step app (.commandTasks answers)).1 = app' at hstep hwired hkeeps
    generalize hd' : app'.nixie = d' at hstep
    cases hstep with
    | same => exact hkeeps (by simp [hd', hidle, Displaying])
    | fetch out value => exact hkeeps (by simp [hd', Displaying])
    | display =>
      let s : Shown := ⟨.command app.displayStored, strncpyDisplay app.displayStored⟩
      have hbegins :
          begins l.request.body app (App.machine.step app (.commandTasks answers)).1 = [s] := by
        unfold begins
        rw [happ', hd', if_pos rfl, hidle]
      rw [← happ']
      refine h.after ?_ (fun w s _ hs => by cases hs) ?_
      · rw [hbegins]
        intro s' hs'
        obtain rfl := List.mem_singleton.mp hs'
        exact gives_strncpyDisplay app.displayStored
      · rw [happ', hd']
        refine .displaying s _ 3 (Nat.le_refl 3) rfl (hd' ▸ hwired) rfl rfl ?_
        rw [written_observe (.inr rfl), ← h.phase.written hsettled]
        exact congrArg (l.begun ++ ·) hbegins
  · rw [perform_nixie_busy answers cmdIo mode app hidle] at hnixie
    exact h.keeps (begins_nil fun hb => hnixie ▸ hb) (.inr rfl) (hnixie ▸ h.phase)

theorem tracked_command {l : Ledger} {app : AppData} (h : Tracked l app) (answers : CommandAnswers) :
    Tracked (observe l (app, .commandTasks answers))
      (App.machine.step app (.commandTasks answers)).1 := by
  obtain ⟨last, hlast⟩ := h.listening
  have hstep := appCommandTasks_step answers hlast.task
  generalize hresult : appCommandTasks app answers = result at hstep
  cases hstep with
  | waits es =>
    have hsame : (App.machine.step app (.commandTasks answers)).1 = app := congrArg Prod.fst hresult
    refine h.keeps (begins_nil fun hb => ?_) (.inr rfl) ?_
    · rwa [hsame] at hb
    · rw [hsame]
      exact h.phase
  | performs callback cmdIo mode es =>
    exact tracked_perform h callback cmdIo mode (congrArg (·.1.nixie) hresult)

/-! ## Every run -/

theorem tracked_step {l : Ledger} {app : AppData} (h : Tracked l app) (call : AppCall) :
    Tracked (observe l (app, call)) (App.machine.step app call).1 := by
  cases call with
  | httpsClientTasks net => exact tracked_https h net
  | nixieTasks answers => exact tracked_nixie h answers
  | commandTasks answers => exact tracked_command h answers
  | line _ | flashTasks _ | rtcTasks _ | shiftRegisterTasks => exact tracked_other h trivial

theorem tracked_run {l : Ledger} {app : AppData} (h : Tracked l app) (calls : List AppCall) :
    Tracked ((App.machine.visits app calls).foldl observe l) (App.machine.run app calls) := by
  induction calls generalizing l app with
  | nil => exact h
  | cons call calls ih => exact ih (tracked_step h call)

theorem tracked_appInitialize (app : AppData) (i2cOpened : Bool) :
    Tracked ⟨⟨none, false, false, []⟩, [], [(.blank, none)]⟩ (appInitialize app i2cOpened) := by
  refine ⟨⟨none, listening_appInitialize app i2cOpened⟩,
    (ownedInv_appInitialize app i2cOpened).2, ?_, ?_, ?_, .settled ?_ rfl⟩
  · exact appNixieInitialize_wired app.nixie (appShiftRegisterInitialize app.shiftRegister).1
  · intro s hs
    cases hs
  · intro w s hw
    cases List.mem_singleton.mp hw
  · show ¬ Displaying .idle
    simp [Displaying]

theorem words_foldl (visits : List (AppData × AppCall)) (l : Ledger) :
    (visits.foldl observe l).words.map Prod.fst = l.words.map Prod.fst ++ handed visits := by
  induction visits generalizing l with
  | nil => exact (List.append_nil _).symm
  | cons v visits ih =>
    have hone : (observe l v).words.map Prod.fst = l.words.map Prod.fst ++ handed [v] := by
      show (l.words ++ (handed [v]).map _).map Prod.fst = _
      rw [List.map_append, List.map_map]
      exact congrArg _ (List.map_id _)
    rw [List.foldl_cons, ih, hone, List.append_assoc, ← handed_append]
    rfl

theorem words_ledger (start : AppData) (calls : List AppCall) :
    (ledger (App.machine.visits start calls)).words.map Prod.fst = wordsOf start calls :=
  words_foldl _ _

/-- **The values on their way.** Of every run from the initialized application on: each value whose
display has begun is right, the digits behind the first token of a response or, for `nixie display`, the
stored bytes up to their first NUL. The nixie module hands over a word for each of them, once and in
order, with a bit exactly for each digit shown; only the last one may still be under way, and none is
when the module is idle. -/
theorem values_tracked (app : AppData) (i2cOpened : Bool) (calls : List AppCall) :
    let start := appInitialize app i2cOpened
    let l := ledger (App.machine.visits start calls)
    (∀ s ∈ l.begun, s.origin.Gives s.value) ∧
    (∃ pending, l.begun = l.written ++ pending ∧ pending.length ≤ 1 ∧
      ((App.machine.run start calls).nixie.state = .idle → pending = [])) ∧
    (∀ w s, (w, some s) ∈ l.words → Encodes w s) ∧
    l.words.map Prod.fst = wordsOf start calls := by
  intro start l
  have h : Tracked l (App.machine.run start calls) :=
    tracked_run (tracked_appInitialize app i2cOpened) calls
  exact ⟨h.gives, h.phase.pending, h.encodes, words_ledger start calls⟩

/-! ## The tubes -/

theorem place_lt (b : Fin numNixieShiftRegisters) (k : Fin 8) : 8 * b.val + k.val < 48 := by
  have hb : b.val < 6 := b.isLt
  omega

/-- Output `k` of register `b`; register `0` is the nearest. -/
def output (c : Chain 48) (b : Fin numNixieShiftRegisters) (k : Fin 8) : Bool :=
  c.outputs ⟨8 * b.val + k.val, place_lt b k⟩

/-- The last byte on the wire is the one for the nearest register, its last bit is bit 0. -/
theorem output_load {w : Word} (hn : w.numBytes = numNixieShiftRegisters) (c : Chain 48)
    (b : Fin numNixieShiftRegisters) (k : Fin 8) :
    output (w.load c) b k =
      ((w.data[numNixieShiftRegisters - 1 - b.val]?).getD 0).toNat.testBit k.val := by
  have hb : b.val < 6 := b.isLt
  have hlen : (ShiftRegister.wireBits w.data w.numBytes).length = 48 := by
    rw [ShiftRegister.wireBits, List.length_map, List.length_range, hn]
    rfl
  unfold output Word.load Chain.load
  rw [Chain.latch_outputs, Chain.stages_shiftAll _ _ _ (by rw [hlen]; simp only; omega)]
  simp only [ShiftRegister.wireBits, List.getElem_map, List.getElem_range, ShiftRegister.bitAt,
    List.length_map, List.length_range, hn]
  have hbyte : (8 * numNixieShiftRegisters - 1 - (8 * b.val + k.val)) / 8 =
      numNixieShiftRegisters - 1 - b.val := by
    show (48 - 1 - _) / 8 = 6 - 1 - _
    omega
  have hbit : 7 - (8 * numNixieShiftRegisters - 1 - (8 * b.val + k.val)) % 8 = k.val := by
    show 7 - (48 - 1 - _) % 8 = _
    omega
  rw [hbyte, hbit]

/-- Among the digits of a tube only the one shown is lit. -/
theorem lit_iff {value : Buf maxNixieTubes} {t : Nat} (ht : t < maxNixieTubes) {symbol : UInt8}
    (hs : isDigit symbol = true) {b : Fin numNixieShiftRegisters} {k : Fin 8}
    (hplace : placeOf t symbol = some ⟨b.val, k.val⟩) : Lit value b k ↔ Shows value t symbol := by
  constructor
  · rintro ⟨t', ht', symbol', hshows, hplace'⟩
    obtain ⟨rfl, rfl⟩ := placeOf_injective ht ht' hs hshows.2 (hplace.trans hplace'.symm)
    exact hshows
  · intro hshows
    exact ⟨t, ht, symbol, hshows, hplace⟩

/-- The words on the outputs, of those that are noted. -/
theorem exists_latched (app : AppData) (i2cOpened : Bool) (calls : List AppCall) (c : Chain 48)
    (ls : Levels ShiftPin) :
    let start := appInitialize app i2cOpened
    let l := ledger (App.machine.visits start calls)
    ∃ latched, (latched = l.words ∨ latched = l.words.dropLast) ∧
      ((App.machine.run start calls).shiftRegister.state = .idle → latched = l.words) ∧
      (c.feed .data .srck .rck ls (appLines (App.machine.trace start calls))).outputs =
        ((latched.map Prod.fst).foldl Word.load c).outputs := by
  intro start l
  have hlatching := (latching_start app i2cOpened calls c ls).2.1
  rw [← words_ledger] at hlatching
  by_cases hidle : (App.machine.run start calls).shiftRegister.state = .idle
  · exact ⟨l.words, .inl rfl, fun _ => rfl, congrArg Chain.outputs (hlatching.chain hidle)⟩
  · rcases hlatching.outputs with houtputs | houtputs
    · refine ⟨l.words.dropLast, .inr rfl, fun h => absurd h hidle, ?_⟩
      rw [List.map_dropLast]
      exact houtputs
    · exact ⟨l.words, .inl rfl, fun h => absurd h hidle, houtputs⟩

/-- The outputs are those of the value that the last word is for. -/
theorem lit_of_latched {l : Ledger} {app : AppData} (h : Tracked l app)
    {latched : List (Word × Option Shown)} (hwords : latched = l.words ∨ latched = l.words.dropLast)
    {w : Word} {s : Shown} (hlast : latched.getLast? = some (w, some s)) {c chain : Chain 48}
    (houtputs : chain.outputs = ((latched.map Prod.fst).foldl Word.load c).outputs) :
    s.origin.Gives s.value ∧ ∀ b k, output chain b k = true ↔ Lit s.value b k := by
  obtain ⟨before, rfl⟩ := List.getLast?_eq_some_iff.mp hlast
  have hmem : (w, some s) ∈ l.words := by
    rcases hwords with hwords | hwords
    · exact hwords ▸ List.mem_append_right _ (List.mem_singleton_self _)
    · exact (List.dropLast_sublist _).mem
        (hwords ▸ List.mem_append_right _ (List.mem_singleton_self _))
  have hvalue : s ∈ l.begun := by
    obtain ⟨pending, hbegun, -⟩ := h.phase.pending
    rw [hbegun]
    exact List.mem_append_left _ (List.mem_filterMap.mpr ⟨_, hmem, rfl⟩)
  obtain ⟨hsix, hbits⟩ := h.encodes w s hmem
  refine ⟨h.gives s hvalue, fun b k => ?_⟩
  have hchain : output chain b k = output (w.load ((before.map Prod.fst).foldl Word.load c)) b k := by
    unfold output
    rw [houtputs, List.map_append, List.foldl_append]
    rfl
  rw [hchain, output_load hsix]
  exact hbits b k

/-- **The registers show the number.** After any calls from the initialized application on, whatever the
chain of the registers held: its outputs are those after the words handed over so far or, while the last
one is being sent, perhaps still those before it. If the last of these words is for a value, the value
is right, and an output is on if and only if it is that of a digit of the value; so among the outputs of
a tube's digits that of a digit is on if and only if the value has it there. -/
theorem tubes_show_values (app : AppData) (i2cOpened : Bool) (calls : List AppCall) (c : Chain 48)
    (ls : Levels ShiftPin) :
    let start := appInitialize app i2cOpened
    let l := ledger (App.machine.visits start calls)
    let chain := c.feed .data .srck .rck ls (appLines (App.machine.trace start calls))
    ∃ latched, (latched = l.words ∨ latched = l.words.dropLast) ∧
      ((App.machine.run start calls).shiftRegister.state = .idle → latched = l.words) ∧
      chain.outputs = ((latched.map Prod.fst).foldl Word.load c).outputs ∧
      ∀ w s, latched.getLast? = some (w, some s) →
        s.origin.Gives s.value ∧
        (∀ b k, output chain b k = true ↔ Lit s.value b k) ∧
        ∀ t < maxNixieTubes, ∀ symbol, isDigit symbol = true →
          ∀ (b : Fin numNixieShiftRegisters) (k : Fin 8), placeOf t symbol = some ⟨b.val, k.val⟩ →
            (output chain b k = true ↔ Shows s.value t symbol) := by
  intro start l chain
  have h : Tracked l (App.machine.run start calls) :=
    tracked_run (tracked_appInitialize app i2cOpened) calls
  obtain ⟨latched, hwords, hidle, houtputs⟩ := exists_latched app i2cOpened calls c ls
  refine ⟨latched, hwords, hidle, houtputs, fun w s hlast => ?_⟩
  obtain ⟨hgives, hon⟩ := lit_of_latched h hwords hlast houtputs
  exact ⟨hgives, hon, fun t ht symbol hs b k hplace => (hon b k).trans (lit_iff ht hs hplace)⟩

end Tracker

end NixieTracker
