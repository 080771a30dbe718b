import NixieTracker.App.Steps

/-!
# `nixie display`

The argument of the command goes through a `strncpy`, `reverse_bytes` and a second `strncpy` in
`APP_Nixie_Display`. The second one takes an array for a string: it stops at the first NUL, and after
the reversal the padding of a short argument stands in front.

* `getElem_reverseBytes`: the loop of `reverse_bytes` mirrors the array.
* `appNixieDisplay_eq_iff`: `APP_Nixie_Display` keeps an array without a character behind a NUL.
* `nixie_display_shown_iff`: what is displayed is what was typed if and only if nothing or at least four
  characters were typed, and the stored argument was not overwritten while the command waited.
-/

namespace NixieTracker

open Lib Scheduler

/-! ## `reverse_bytes` -/

theorem getElem_swapIfInBounds {n : Nat} (mem : Buf n) {lo hi k : Nat} (hlo : lo < n) (hhi : hi < n)
    (hk : k < n) :
    (mem.swapIfInBounds lo hi)[k] =
      if k = lo then mem[hi] else if k = hi then mem[lo] else mem[k] := by
  have hk' : k < (mem.toArray.swapIfInBounds lo hi).size := by simpa using hk
  have h := Array.getElem_swapIfInBounds hk'
  refine Eq.trans (show _ = _ from h) ?_
  by_cases hklo : k = lo
  · simp [hklo, hhi]
  · by_cases hkhi : k = hi
    · subst hkhi
      simp [hklo, hlo]
    · simp [hklo, hkhi]

/-- The rounds between `lo` and `hi` mirror the bytes between them. -/
theorem getElem_reverseBytesLoop {size : Nat} (n : Nat) (mem : Buf size) {lo hi k : Nat}
    (hhi : hi < size) (hlo : lo ≤ hi + 1) (hn : hi ≤ lo + n) (hk : k < size) :
    (reverseBytesLoop mem lo hi n)[k] =
      if h : lo ≤ k ∧ k ≤ hi then mem[lo + hi - k] else mem[k] := by
  induction n generalizing mem lo hi with
  | zero =>
    rw [reverseBytesLoop]
    split
    · -- One byte at most is left.
      congr 1
      omega
    · rfl
  | succ n ih =>
    rw [reverseBytesLoop]
    by_cases hlt : lo < hi
    · rw [if_pos hlt, ih _ (by omega) (by omega) (by omega)]
      by_cases hin : lo + 1 ≤ k ∧ k ≤ hi - 1
      · rw [dif_pos hin, dif_pos (by omega), getElem_swapIfInBounds mem (by omega) hhi (by omega),
          if_neg (by omega), if_neg (by omega)]
        congr 1
        omega
      · rw [dif_neg hin, getElem_swapIfInBounds mem (by omega) hhi hk]
        by_cases hklo : k = lo
        · rw [if_pos hklo, dif_pos (by omega)]
          congr 1
          omega
        · by_cases hkhi : k = hi
          · rw [if_neg hklo, if_pos hkhi, dif_pos (by omega)]
            congr 1
            omega
          · rw [if_neg hklo, if_neg hkhi, dif_neg (by omega)]
    · rw [if_neg hlt]
      split
      · congr 1
        omega
      · rfl

/-- `reverse_bytes` mirrors the array. -/
theorem getElem_reverseBytes {size : Nat} (mem : Buf size) {k : Nat} (hk : k < size) :
    (reverseBytes mem)[k] = mem[size - 1 - k] := by
  rw [reverseBytes, getElem_reverseBytesLoop size mem (by omega) (by omega) (by omega) hk,
    dif_pos (by omega)]
  congr 1
  omega

/-! ## The two copies -/

/-- No character stands behind a NUL. -/
def NulPadded (display : Buf maxNixieTubes) : Prop :=
  ∀ i j : Fin maxNixieTubes, i < j → display[i] = 0 → display[j] = 0

instance (display : Buf maxNixieTubes) : Decidable (NulPadded display) :=
  inferInstanceAs (Decidable (∀ i j : Fin maxNixieTubes, i < j → display[i] = 0 → display[j] = 0))

theorem getElem_strncpyDisplay (value : List UInt8) {i : Nat} (hi : i < maxNixieTubes) :
    (strncpyDisplay value)[i] = ((cstr value)[i]?).getD 0 := by
  simp [strncpyDisplay]

section Array

variable (value : Buf maxNixieTubes) {i : Nat}

theorem getElem_strncpyDisplay_of_lt (hi : i < maxNixieTubes)
    (h : i < (cstr value.toList).length) :
    (strncpyDisplay value.toList)[i] = value[i] ∧ value[i] ≠ 0 := by
  have heq : (cstr value.toList)[i] = value[i] := (cstr_isPrefix value.toList).getElem h
  refine ⟨?_, fun hzero => zero_not_mem_cstr value.toList ?_⟩
  · rw [getElem_strncpyDisplay _ hi, List.getElem?_eq_getElem h, Option.getD_some, heq]
  · rw [← hzero, ← heq]
    exact List.getElem_mem h

theorem getElem_strncpyDisplay_of_le (hi : i < maxNixieTubes)
    (h : (cstr value.toList).length ≤ i) : (strncpyDisplay value.toList)[i] = 0 := by
  rw [getElem_strncpyDisplay _ hi, List.getElem?_eq_none h, Option.getD_none]

theorem nulPadded_strncpyDisplay (value : Buf maxNixieTubes) :
    NulPadded (strncpyDisplay value.toList) := by
  intro i j hij hzero
  apply getElem_strncpyDisplay_of_le value j.isLt
  by_contra hlt
  have hi := getElem_strncpyDisplay_of_lt value i.isLt (by omega)
  exact hi.2 (hi.1 ▸ hzero)

/-- The copy of an array as a string is the array if no character stands behind a NUL. -/
theorem strncpyDisplay_eq_iff (value : Buf maxNixieTubes) :
    strncpyDisplay value.toList = value ↔ NulPadded value := by
  constructor
  · intro h i j hij hzero
    have hi : (cstr value.toList).length ≤ i.val := by
      by_contra hlt
      exact (getElem_strncpyDisplay_of_lt value i.isLt (by omega)).2 hzero
    have hj := getElem_strncpyDisplay_of_le value j.isLt (by omega)
    rwa [h] at hj
  · intro h
    apply Vector.ext
    intro i hi
    by_cases hlt : i < (cstr value.toList).length
    · exact (getElem_strncpyDisplay_of_lt value hi hlt).1
    · rw [getElem_strncpyDisplay_of_le value hi (by omega)]
      -- The NUL that ends the string stands at `i` or before.
      have hnul := value.getElem_length_cstr (by omega)
      rcases Nat.eq_or_lt_of_le (Nat.le_of_not_lt hlt) with heq | hlt'
      · rw [← hnul]
        congr 1
      · exact (h ⟨_, by omega⟩ ⟨i, hi⟩ hlt' hnul).symm

end Array

/-- `APP_Nixie_Display` of an idle module. -/
theorem appNixieDisplay_eq_iff {d : AppNixieData} (h : d.state = .idle) (value : Buf maxNixieTubes) :
    (appNixieDisplay d value.toList).2.displayValue = value ↔ NulPadded value := by
  rw [← strncpyDisplay_eq_iff]
  simp [appNixieDisplay, appNixieIsBusy, h]

/-! ## The argument -/

/-- The display shows the first characters of the argument, the first one in the last place. -/
def ShowsArgument (display : Buf maxNixieTubes) (s : Argument) : Prop :=
  ∀ i : Fin maxNixieTubes, display[maxNixieTubes - 1 - i.val] = (s.val[i.val]?).getD 0

instance (display : Buf maxNixieTubes) (s : Argument) : Decidable (ShowsArgument display s) :=
  inferInstanceAs (Decidable (∀ i : Fin maxNixieTubes,
    display[maxNixieTubes - 1 - i.val] = (s.val[i.val]?).getD 0))

theorem getElem_displayArgument (s : Argument) {k : Nat} (hk : k < maxNixieTubes) :
    (displayArgument s)[k] = (s.val[maxNixieTubes - 1 - k]?).getD 0 := by
  rw [displayArgument, getElem_reverseBytes _ hk, getElem_strncpyDisplay _ (by omega),
    cstr_eq_self s.property]

theorem showsArgument_iff {display : Buf maxNixieTubes} {s : Argument} :
    ShowsArgument display s ↔ display = displayArgument s := by
  constructor
  · intro h
    apply Vector.ext
    intro k hk
    rw [getElem_displayArgument s hk, ← h ⟨maxNixieTubes - 1 - k, by omega⟩]
    congr 1
    simp only
    omega
  · rintro rfl i
    rw [getElem_displayArgument s (by omega)]
    congr 2
    omega

theorem getD_eq_zero_iff (s : Argument) (i : Nat) :
    (s.val[i]?).getD 0 = 0 ↔ s.val.length ≤ i := by
  constructor
  · intro h
    by_contra hlt
    rw [List.getElem?_eq_getElem (by omega), Option.getD_some] at h
    have hmem : s.val[i] ∈ s.val := List.getElem_mem (by omega)
    rw [h] at hmem
    exact s.property hmem
  · intro h
    rw [List.getElem?_eq_none h, Option.getD_none]

theorem nulPadded_displayArgument (s : Argument) :
    NulPadded (displayArgument s) ↔ s.val = [] ∨ maxNixieTubes ≤ s.val.length := by
  constructor
  · intro h
    by_contra hne
    have hsize : maxNixieTubes = 4 := rfl
    obtain ⟨hne, hshort⟩ := not_or.mp hne
    have hpos : 0 < s.val.length := List.length_pos_iff.mpr hne
    -- The padding stands at 0, the first character at 3.
    have hlast := h 0 3 (by decide) (by
      show (displayArgument s)[0] = 0
      rw [getElem_displayArgument s (by decide), getD_eq_zero_iff]
      omega)
    replace hlast : (displayArgument s)[3] = 0 := hlast
    rw [getElem_displayArgument s (by decide), getD_eq_zero_iff] at hlast
    omega
  · intro h i j hij hzero
    replace hzero : (displayArgument s)[i.val] = 0 := hzero
    show (displayArgument s)[j.val] = 0
    rw [getElem_displayArgument s (by omega), getD_eq_zero_iff] at hzero ⊢
    rcases h with h | h
    · simp [h]
    · omega

/-- What the second copy makes of the stored bytes. -/
theorem strncpyDisplay_shows_iff (stored : Buf maxNixieTubes) (s : Argument) :
    ShowsArgument (strncpyDisplay stored.toList) s ↔
      (s.val = [] ∧ stored[0] = 0) ∨
        (maxNixieTubes ≤ s.val.length ∧ stored = displayArgument s) := by
  have hsize : maxNixieTubes = 4 := rfl
  rw [showsArgument_iff]
  constructor
  · intro h
    have hpadded := nulPadded_strncpyDisplay stored
    rw [h, nulPadded_displayArgument] at hpadded
    rcases hpadded with hs | hs
    · refine .inl ⟨hs, ?_⟩
      by_contra hne
      have hpos : 0 < (cstr stored.toList).length := by
        by_contra hle
        have hnul := stored.getElem_length_cstr (by omega)
        have hzero : (cstr stored.toList).length = 0 := by omega
        simp only [hzero] at hnul
        exact hne hnul
      have hfirst := (getElem_strncpyDisplay_of_lt stored (by decide) hpos).1
      simp only [h, getElem_displayArgument s (show 0 < maxNixieTubes by decide), hs] at hfirst
      exact hne hfirst.symm
    · refine .inr ⟨hs, ?_⟩
      have hfull : 3 < (cstr stored.toList).length := by
        by_contra hle
        have hlast := getElem_strncpyDisplay_of_le stored (show 3 < maxNixieTubes by decide)
          (by omega)
        simp only [h, getElem_displayArgument s (show 3 < maxNixieTubes by decide)] at hlast
        rw [getD_eq_zero_iff] at hlast
        omega
      rw [← h]
      apply Vector.ext
      intro k hk
      exact (getElem_strncpyDisplay_of_lt stored hk (by omega)).1.symm
  · rintro (⟨hs, hzero⟩ | ⟨hs, rfl⟩)
    · apply Vector.ext
      intro k hk
      have hempty : (cstr stored.toList).length = 0 := by
        by_contra hne
        exact (getElem_strncpyDisplay_of_lt stored (by decide) (by omega)).2 hzero
      rw [getElem_strncpyDisplay_of_le stored hk (by omega), getElem_displayArgument s hk, hs]
      rfl
    · exact (strncpyDisplay_eq_iff _).mpr ((nulPadded_displayArgument s).mpr (.inr hs))

/-! ## The command -/

/-- The line `nixie display s`. -/
def nixieDisplayLine (cmdIo : CmdIo) (stack : Int × Int × Int) (s : Argument) : ConsoleLine :=
  ⟨cmdIo, [nixieWord, displayWord, s], stack⟩

/-- `display.value` in the union. -/
def AppData.displayStored (app : AppData) : List UInt8 :=
  app.command.nixie.privateData.read 0 maxNixieTubes

theorem appLine_nixieDisplay {app : AppData} (h : app.command.task.state = .none) (cmdIo : CmdIo)
    (stack : Int × Int × Int) (s : Argument) :
    (appLine app (nixieDisplayLine cmdIo stack s)).1 =
      { app with
        command.task :=
          ⟨.waitAvailable, some .performNixieDisplay, some cmdIo, some .performNixieCheckAvailable⟩
        command.nixie := ⟨app.command.nixie.privateData.write 0 (displayArgument s).toList⟩ } := by
  have hname : (commands.find? fun c => Argument.streq nixieWord c.1) =
      some ("nixie", .nixie) := by decide +kernel
  have hword : Argument.streq displayWord "display" = true := by decide +kernel
  have hrun : consoleLine app.command (nixieDisplayLine cmdIo stack s) =
      appCmdNixieDisplay app.command cmdIo (nixieDisplayLine cmdIo stack s).argv := by
    simp only [consoleLine, nixieDisplayLine, List.head?_cons, hname, runCommand, appCommandNixie,
      appCommandCheckAvailable, appCommandIsBusy, appCommandTaskIsBusy, h, ne_eq, not_true_eq_false,
      decide_false, Bool.not_false, Bool.not_true, Bool.false_eq_true, if_false,
      List.getElem?_cons_succ, List.getElem?_cons_zero, hword, if_true]
  rw [appLine, hrun]
  rfl

/-- While the command waits: its task is pending, and without a pointer of `APP_Nixie_Fetch` nothing
is written into the union. -/
structure DisplayPending (cmdIo : CmdIo) (typed app : AppData) : Prop where
  task : Pending app.command.task cmdIo .performNixieDisplay .performNixieCheckAvailable
  stored : typed.nixie.displayValueOut = none →
    app.nixie.displayValueOut = none ∧ app.command.nixie = typed.command.nixie

theorem DisplayPending.congr {cmdIo : CmdIo} {typed app app' : AppData}
    (h : DisplayPending cmdIo typed app) (htask : app'.command.task = app.command.task)
    (hunion : app'.command.nixie = app.command.nixie)
    (hout : app'.nixie.displayValueOut = app.nixie.displayValueOut) :
    DisplayPending cmdIo typed app' := by
  refine ⟨by rw [htask]; exact h.task, fun hnone => ?_⟩
  rw [hout, hunion]
  exact h.stored hnone

theorem displayPending_step {cmdIo : CmdIo} {typed : AppData} (app : AppData) (call : AppCall)
    (hwait : app.command.task.state = .waitAvailable)
    (hwait' : (App.machine.step app call).1.command.task.state = .waitAvailable)
    (h : DisplayPending cmdIo typed app) :
    DisplayPending cmdIo typed (App.machine.step app call).1 := by
  cases call with
  | httpsClientTasks net =>
    have hsame := appHttpsTasks_same app net
    show DisplayPending cmdIo typed (appHttpsTasks app net).1
    exact h.congr (by rw [hsame.eq]) (by rw [hsame.eq]) hsame.nixie.displayValueOut
  | nixieTasks answers =>
    obtain ⟨events, hstep, -⟩ := appNixieModuleTasks_step app answers
    show DisplayPending cmdIo typed (appNixieModuleTasks app answers).1
    generalize (appNixieModuleTasks app answers).1 = app' at hstep
    cases hstep with
    | waiting => exact h
    | submitted => exact h.congr rfl rfl rfl
    | stored out hs hsome =>
      refine ⟨?_, fun hnone => ?_⟩
      · obtain ⟨union, hstored⟩ := storeNixieEvents_eq
          { app with nixie := (shuffleServerValueDigits app.nixie).1 }
          (shuffleServerValueDigits app.nixie).2
        rw [hstored]
        exact h.task
      · rw [(h.stored hnone).1] at hsome
        cases hsome
    | moved nixie shiftRegister hnext hsame => exact h.congr rfl rfl hsame
  | commandTasks answers =>
    show DisplayPending cmdIo typed (appCommandTasks app answers).1
    cases ha : performCheckAvailable .performNixieCheckAvailable app with
    | false =>
      rw [appCommandTasks_unavailable hwait h.task ha]
      exact h
    | true =>
      -- The command would be invoked.
      replace hwait' : (appCommandTasks app answers).1.command.task.state = .waitAvailable := hwait'
      rw [appCommandTasks_invoke hwait h.task ha] at hwait'
      cases hwait'
  | line line =>
    have hbusy : app.command.task.state ≠ .none := by simp [hwait]
    show DisplayPending cmdIo typed (appLine app line).1
    rw [appLine_busy hbusy]
    exact h
  | flashTasks answers => exact h.congr rfl rfl rfl
  | rtcTasks answers => exact h.congr rfl rfl rfl
  | shiftRegisterTasks => exact h.congr rfl rfl rfl

theorem performNixieDisplay_idle {app : AppData} (h : app.nixie.state = .idle) :
    (performNixieDisplay app .invoke).2.1.nixie.displayValue = strncpyDisplay app.displayStored := by
  simp [performNixieDisplay, performOnce, appNixieDisplay, appNixieIsBusy, h,
    AppData.displayStored]

/-- **`nixie display`.** `APP_Nixie_Display` shows its argument if and only if no character stands
behind a NUL in it. A command typed while no task is scheduled, after any calls during which it waits,
shows its argument when it is invoked if and only if the argument is empty, or has at least four
characters and is still what is stored; it is still stored if the module had no pointer left of
`APP_Nixie_Fetch`. -/
theorem nixie_display_shown_iff (app : AppData) (hnone : app.command.task.state = .none) :
    (∀ (d : AppNixieData) (value : Buf maxNixieTubes), d.state = .idle →
      ((appNixieDisplay d value.toList).2.displayValue = value ↔ NulPadded value)) ∧
    ∀ (cmdIo : CmdIo) (stack : Int × Int × Int) (s : Argument) (calls : List AppCall)
      (answers : CommandAnswers),
      let typed := (App.machine.step app (.line (nixieDisplayLine cmdIo stack s))).1
      let waited := App.machine.run typed calls
      (∀ before, before <+: calls →
        (App.machine.run typed before).command.task.state = .waitAvailable) →
      waited.nixie.state = .idle →
      (ShowsArgument (App.machine.step waited (.commandTasks answers)).1.nixie.displayValue s ↔
        (s.val = [] ∧ waited.displayStored[0]? = some 0) ∨
          (maxNixieTubes ≤ s.val.length ∧ waited.displayStored = typed.displayStored)) ∧
      (typed.nixie.displayValueOut = none → waited.displayStored = typed.displayStored) := by
  refine ⟨fun d value hidle => appNixieDisplay_eq_iff hidle value, ?_⟩
  intro cmdIo stack s calls answers typed waited hwait hidle
  have htyped : typed = _ := appLine_nixieDisplay hnone cmdIo stack s
  have hpending : DisplayPending cmdIo typed waited := by
    refine Machine.run_inv_while displayPending_step hwait ⟨?_, fun h => ⟨h, rfl⟩⟩
    rw [htyped]
    exact ⟨rfl, rfl, rfl⟩
  have hargument : typed.displayStored = (displayArgument s).toList := by
    rw [htyped]
    have hlen : (displayArgument s).toList.length = maxNixieTubes := Vector.length_toList
    have hread : (app.command.nixie.privateData.write 0 (displayArgument s).toList).read 0
        (displayArgument s).toList.length = (displayArgument s).toList :=
      Buf.read_write _ (by rw [hlen]; decide)
    rwa [hlen] at hread
  obtain ⟨stored, hstored⟩ : ∃ stored : Buf maxNixieTubes, stored.toList = waited.displayStored :=
    ⟨⟨⟨waited.displayStored⟩, Buf.length_read _ (by decide)⟩, rfl⟩
  have hshown : (App.machine.step waited (.commandTasks answers)).1.nixie.displayValue =
      strncpyDisplay stored.toList := by
    have havailable : performCheckAvailable .performNixieCheckAvailable waited = true := by
      simp [performCheckAvailable, performNixieCheckAvailable, appNixieIsBusy, hidle]
    show (appCommandTasks waited answers).1.nixie.displayValue = _
    rw [appCommandTasks_invoke (hwait calls (List.prefix_refl _)) hpending.task havailable, hstored]
    exact performNixieDisplay_idle hidle
  refine ⟨?_, fun hout => ?_⟩
  · rw [hshown, strncpyDisplay_shows_iff, ← hstored, hargument]
    simp [Vector.toList_inj]
  · rw [AppData.displayStored, (hpending.stored hout).2]
    rfl

/-- `nixie display 1234` of an idle module. -/
theorem nixie_display_shown_1234 :
    ShowsArgument (App.machine.step (App.machine.step (appInitialize .zeroed true)
      (.line (nixieDisplayLine 0 (0, 0, 0) ⟨lit "1234", by decide⟩))).1
      (.commandTasks AppRound.calm.command)).1.nixie.displayValue ⟨lit "1234", by decide⟩ := by
  have hwait : ∀ before, before <+: ([] : List AppCall) →
      (App.machine.run (App.machine.step (appInitialize .zeroed true)
        (.line (nixieDisplayLine 0 (0, 0, 0) ⟨lit "1234", by decide⟩))).1
        before).command.task.state = .waitAvailable := by
    intro before hb
    rw [List.prefix_nil.mp hb]
    decide +kernel
  exact (((nixie_display_shown_iff (appInitialize .zeroed true) (by decide +kernel)).2 0 (0, 0, 0)
    ⟨lit "1234", by decide⟩ [] AppRound.calm.command hwait (by decide +kernel)).1).mpr
      (.inr ⟨by decide, rfl⟩)

/-- `nixie display 42` of an idle module shows nothing. -/
theorem nixie_display_42 :
    ¬ ShowsArgument (App.machine.step (App.machine.step (appInitialize .zeroed true)
      (.line (nixieDisplayLine 0 (0, 0, 0) ⟨lit "42", by decide⟩))).1
      (.commandTasks AppRound.calm.command)).1.nixie.displayValue ⟨lit "42", by decide⟩ := by
  decide +kernel

end NixieTracker
