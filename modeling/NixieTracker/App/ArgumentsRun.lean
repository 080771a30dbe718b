import NixieTracker.App.Arguments

/-!
# The handlers over the argument vector

The handlers that read `argv` entry by entry compute what the handlers over lists of arguments do.

* `Argv.appCommand_run`: for every registered command the data and the console events are those of
  `runCommand`.
-/

namespace NixieTracker

open Lib

/-- The arguments as a list. -/
def Arguments.toList (a : Arguments) : List Argument := a.given.map CString.argument

/-- The events of the console's own model. -/
def CommandEvent.console? : CommandEvent → Option ConsoleEvent
  | .console e => some e
  | _ => none

/-- The data and the console events of an outcome. -/
def CommandOutcome.result (o : CommandOutcome) : ConsoleResult :=
  (o.data, o.events.filterMap (·.console?))

@[simp] theorem result_ofResult (r : ConsoleResult) : (CommandOutcome.ofResult r).result = r := by
  have h : ∀ es : List ConsoleEvent, (es.map CommandEvent.console).filterMap (·.console?) = es := by
    intro es
    induction es with
    | nil => rfl
    | cons e es ih => exact congrArg (e :: ·) ih
  exact Prod.ext rfl (h r.2)

@[simp] theorem result_printed (d : AppCommandData) : (CommandOutcome.printed d).result = (d, []) :=
  rfl

@[simp] theorem result_ite (c : Prop) [Decidable c] (o o' : CommandOutcome) :
    (if c then o else o').result = if c then o.result else o'.result := apply_ite ..

/-! ## Reading arguments -/

@[simp] theorem Arguments.length_toList (a : Arguments) : a.toList.length = a.argc :=
  List.length_map ..

theorem toList_getElem?_one (a : Arguments) :
    a.toList[1]? = if a.argc = 1 then none else some (a.argv 1).argument := by
  obtain ⟨_ | ⟨s0, _ | ⟨s1, l⟩⟩, hne, behind⟩ := a
  · exact absurd rfl hne
  · rfl
  · rfl

@[simp] theorem run_argStreq (v : Nat → CString) (i : Nat) (t : String) :
    (argStreq i t).run v = (v i).argument.streq t := rfl

@[simp] theorem run_andStreq (v : Nat → CString) (c : Bool) (i : Nat) (t : String) :
    (andStreq c i t).run v = (c && (v i).argument.streq t) := by
  cases c <;> rfl

namespace Argv

variable (d : AppCommandData) (cmdIo : CmdIo) (argc : Nat) (v : Nat → CString) (a : Arguments)

@[simp] theorem run_appCmdUsage : (appCmdUsage d).run v = .printed d := rfl

@[simp] theorem run_dispatch_nil : (dispatch d []).run v = .printed d := rfl

@[simp] theorem run_dispatch_cons (name : String) (command : ArgvQuery CommandOutcome)
    (table : List (String × ArgvQuery CommandOutcome)) :
    (dispatch d ((name, command) :: table)).run v =
      if (v 1).argument.streq name then command.run v else (dispatch d table).run v := by
  rw [dispatch, Query.run_bind, run_argStreq, Query.run_ite]

theorem run_appCommandOf (table : List (String × ArgvQuery CommandOutcome)) :
    (appCommandOf d argc table).run v =
      if !appCommandCheckAvailable d then .printed d
      else if argc = 1 then .printed d
      else (dispatch d table).run v := by
  unfold appCommandOf
  rw [Query.run_ite, Query.run_ite]
  rfl

theorem run_appCmdSchedule (callback : AppCommandTaskCallback)
    (checkAvailable : AppCommandTaskCheckAvailableCallback) :
    ((appCmdSchedule d cmdIo argc callback checkAvailable).run v).result =
      if argc ≠ 2 then (d, []) else schedule d cmdIo callback checkAvailable := by
  unfold appCmdSchedule
  split <;> simp

/-! ## The commands

The list is taken apart as far as the command tells lengths apart. -/

theorem appCmdFetch_run : ((appCmdFetch d cmdIo a.argc).run a.argv).result =
    NixieTracker.appCmdFetch d cmdIo a.toList := by
  obtain ⟨_ | ⟨s0, _ | ⟨s1, _ | ⟨s2, l⟩⟩⟩, hne, behind⟩ := a
  all_goals
    simp [appCmdFetch, NixieTracker.appCmdFetch, Arguments.argc, Arguments.argv, Arguments.toList,
      CString.argument]

theorem appCmdNixieDisplay_run : ((appCmdNixieDisplay d cmdIo a.argc).run a.argv).result =
    NixieTracker.appCmdNixieDisplay d cmdIo a.toList := by
  obtain ⟨_ | ⟨s0, _ | ⟨s1, _ | ⟨s2, _ | ⟨s3, l⟩⟩⟩⟩, hne, behind⟩ := a
  all_goals
    simp [appCmdNixieDisplay, NixieTracker.appCmdNixieDisplay, Arguments.argc, Arguments.argv,
      Arguments.toList]

theorem appCmdNixiePeriodic_run : ((appCmdNixiePeriodic d a.argc).run a.argv).result =
    NixieTracker.appCmdNixiePeriodic d a.toList := by
  obtain ⟨_ | ⟨s0, _ | ⟨s1, _ | ⟨s2, _ | ⟨s3, l⟩⟩⟩⟩, hne, behind⟩ := a
  all_goals
    simp [appCmdNixiePeriodic, NixieTracker.appCmdNixiePeriodic, Arguments.argc, Arguments.argv,
      Arguments.toList]

theorem appCmdRTCOscillator_run : ((appCmdRTCOscillator d cmdIo a.argc).run a.argv).result =
    NixieTracker.appCmdRTCOscillator d cmdIo a.toList := by
  obtain ⟨_ | ⟨s0, _ | ⟨s1, _ | ⟨s2, _ | ⟨s3, l⟩⟩⟩⟩, hne, behind⟩ := a
  all_goals
    simp [appCmdRTCOscillator, NixieTracker.appCmdRTCOscillator, Arguments.argc, Arguments.argv,
      Arguments.toList]

theorem appCmdRTCBattery_run : ((appCmdRTCBattery d cmdIo a.argc).run a.argv).result =
    NixieTracker.appCmdRTCBattery d cmdIo a.toList := by
  obtain ⟨_ | ⟨s0, _ | ⟨s1, _ | ⟨s2, _ | ⟨s3, l⟩⟩⟩⟩, hne, behind⟩ := a
  all_goals
    simp [appCmdRTCBattery, NixieTracker.appCmdRTCBattery, Arguments.argc, Arguments.argv,
      Arguments.toList]

theorem appCmdRTCRegister_run : ((appCmdRTCRegister d cmdIo a.argc).run a.argv).result =
    NixieTracker.appCmdRTCRegister d cmdIo a.toList := by
  obtain ⟨_ | ⟨s0, _ | ⟨s1, _ | ⟨s2, _ | ⟨s3, _ | ⟨s4, _ | ⟨s5, l⟩⟩⟩⟩⟩⟩, hne, behind⟩ := a
  all_goals
    simp [appCmdRTCRegister, NixieTracker.appCmdRTCRegister, Arguments.argc, Arguments.argv,
      Arguments.toList, CString.argument]

theorem dateDecode_run (stack : Int × Int × Int) : (dateDecode stack).run v =
    NixieTracker.dateDecode (v 2).argument (v 3).argument (v 4).argument (v 5).argument
      (v 6).argument stack := rfl

theorem appCmdRTCDate_run (stack : Int × Int × Int) :
    ((appCmdRTCDate d cmdIo a.argc stack).run a.argv).result =
      NixieTracker.appCmdRTCDate d cmdIo a.toList stack := by
  obtain ⟨_ | ⟨s0, _ | ⟨s1, _ | ⟨s2, _ | ⟨s3, _ | ⟨s4, _ | ⟨s5, _ | ⟨s6, _ | ⟨s7, l⟩⟩⟩⟩⟩⟩⟩⟩, hne,
    behind⟩ := a
  case cons.cons.cons.cons.cons.cons.cons.nil =>
    simp [appCmdRTCDate, NixieTracker.appCmdRTCDate, Arguments.argc, Arguments.argv,
      Arguments.toList, dateDecode_run]
    generalize NixieTracker.dateDecode _ _ _ _ _ stack = decoded
    cases decoded <;> simp
  all_goals
    simp [appCmdRTCDate, NixieTracker.appCmdRTCDate, Arguments.argc, Arguments.toList]

theorem commandShiftRegisterSetEnabledOrDisabled_run :
    ((commandShiftRegisterSetEnabledOrDisabled d cmdIo a.argc).run a.argv).result =
      NixieTracker.commandShiftRegisterSetEnabledOrDisabled d cmdIo a.toList := by
  obtain ⟨_ | ⟨s0, _ | ⟨s1, _ | ⟨s2, l⟩⟩⟩, hne, behind⟩ := a
  all_goals
    simp [commandShiftRegisterSetEnabledOrDisabled,
      NixieTracker.commandShiftRegisterSetEnabledOrDisabled, Arguments.argc, Arguments.argv,
      Arguments.toList]

/-- The loop sets `n` bytes from `i` on. -/
theorem getElem_sendDataLoop (data : Vector UInt8 shiftRegisterMaxData) (i n k : Nat)
    (hk : k < shiftRegisterMaxData) : ((sendDataLoop data i n).run v)[k] =
      if i ≤ k ∧ k < i + n then toUInt8 (atoi (v (k + 2)).chars) else data[k] := by
  induction n generalizing data i with
  | zero => rw [if_neg (by omega)]; rfl
  | succ n ih =>
    rw [sendDataLoop, Query.run_bind, Query.run_entry, ih, Vector.getElem_setIfInBounds hk]
    by_cases hik : i = k
    · subst hik
      rw [if_neg (by omega), if_pos rfl, if_pos (by omega)]
    · rw [if_neg hik]
      exact if_congr (by omega) rfl rfl

theorem toList_drop_two (k : Nat) : (a.toList.drop 2)[k]? =
    if k < a.argc - 2 then some (a.argv (k + 2)).argument else none := by
  rw [List.getElem?_drop, Arguments.toList, List.getElem?_map, Nat.add_comm 2 k]
  unfold Arguments.argv Arguments.argc
  by_cases hk : k + 2 < a.given.length
  · rw [List.getElem?_eq_getElem hk, if_pos (by omega)]
    rfl
  · rw [List.getElem?_eq_none (by omega), if_neg (by omega)]
    rfl

theorem sendDataLoop_run (data : Vector UInt8 shiftRegisterMaxData) :
    (sendDataLoop data 0 (minZz (a.argc - 2) shiftRegisterMaxData)).run a.argv =
      sendData data (a.toList.drop 2) := by
  ext k hk
  rw [getElem_sendDataLoop, sendData, Vector.getElem_ofFn, toList_drop_two, minZz_eq]
  by_cases hlt : k < a.argc - 2
  · rw [if_pos (by omega), if_pos hlt]
    rfl
  · rw [if_neg (by omega), if_neg hlt]
    rfl

theorem commandShiftRegisterSendData_run :
    ((commandShiftRegisterSendData d cmdIo a.argc).run a.argv).result =
      NixieTracker.commandShiftRegisterSendData d cmdIo a.toList := by
  unfold commandShiftRegisterSendData NixieTracker.commandShiftRegisterSendData
  rw [Arguments.length_toList]
  split
  · rfl
  · rw [Query.run_bind, sendDataLoop_run, Query.run_pure, result_ofResult]

/-! ## The handlers -/

theorem appCommandFetch_run : ((appCommandFetch d cmdIo a.argc).run a.argv).result =
    NixieTracker.appCommandFetch d cmdIo a.toList := by
  unfold appCommandFetch NixieTracker.appCommandFetch
  rw [Arguments.length_toList, Query.run_ite, result_ite, Query.run_ite, result_ite,
    appCmdFetch_run]
  rfl

theorem appCommandFlash_run : ((appCommandFlash d cmdIo a.argc).run a.argv).result =
    NixieTracker.appCommandFlash d cmdIo a.toList := by
  unfold appCommandFlash NixieTracker.appCommandFlash
  rw [run_appCommandOf, toList_getElem?_one]
  by_cases h1 : a.argc = 1
  · simp [h1]
  · simp [h1, appCmdFlashSectors, appCmdFlashFormat, run_appCmdSchedule,
      NixieTracker.appCmdFlashSectors, NixieTracker.appCmdFlashFormat]

theorem appCommandNixie_run : ((appCommandNixie d cmdIo a.argc).run a.argv).result =
    NixieTracker.appCommandNixie d cmdIo a.toList := by
  unfold appCommandNixie NixieTracker.appCommandNixie
  rw [run_appCommandOf, toList_getElem?_one]
  by_cases h1 : a.argc = 1
  · simp [h1]
  · simp [h1, appCmdNixieDisplay_run, appCmdNixiePeriodic_run, appCmdNixieFetch,
      run_appCmdSchedule, NixieTracker.appCmdNixieFetch]

theorem appCommandRTC_run (stack : Int × Int × Int) :
    ((appCommandRTC d cmdIo a.argc stack).run a.argv).result =
      NixieTracker.appCommandRTC d cmdIo a.toList stack := by
  unfold appCommandRTC NixieTracker.appCommandRTC
  rw [run_appCommandOf, toList_getElem?_one]
  by_cases h1 : a.argc = 1
  · simp [h1]
  · simp [h1, appCmdRTCOscillator_run, appCmdRTCDate_run, appCmdRTCBattery_run,
      appCmdRTCRegister_run, appCmdRTCDump, run_appCmdSchedule, NixieTracker.appCmdRTCDump]

theorem appCommandShiftRegister_run :
    ((appCommandShiftRegister d cmdIo a.argc).run a.argv).result =
      NixieTracker.appCommandShiftRegister d cmdIo a.toList := by
  have hpos : 0 < a.argc := List.length_pos_iff.mpr a.nonempty
  unfold appCommandShiftRegister NixieTracker.appCommandShiftRegister
  rw [toList_getElem?_one]
  by_cases h1 : a.argc = 1
  · simp [h1]
  · have h2 : 2 ≤ a.argc := by omega
    simp [h1, h2, commandShiftRegisterSetEnabledOrDisabled_run,
      commandShiftRegisterSendData_run]

/-! ## The handlers that leave the data alone -/

/-- The handler neither changes the data nor talks to the scheduler. -/
abbrev Quiet (q : ArgvQuery CommandOutcome) : Prop := q.Gives (fun o => o.result = (d, [])) v

section Quiet

variable {d argc v}

theorem quiet_usage : Quiet d v (appCmdUsage d) := rfl

theorem quiet_printed : Quiet d v (pure (.printed d)) := rfl

theorem quiet_dispatch {table : List (String × ArgvQuery CommandOutcome)}
    (h : ∀ e ∈ table, Quiet d v e.2) : Quiet d v (dispatch d table) := by
  induction table with
  | nil => exact quiet_usage
  | cons e table ih =>
    obtain ⟨he, htable⟩ := List.forall_mem_cons.mp h
    exact .bind (.ite (fun _ => he) fun _ => ih htable)

theorem quiet_appCommandOf {table : List (String × ArgvQuery CommandOutcome)}
    (h : ∀ e ∈ table, Quiet d v e.2) : Quiet d v (appCommandOf d argc table) :=
  .ite (fun _ => quiet_printed) fun _ => .ite (fun _ => quiet_usage) fun _ => quiet_dispatch h

/-- The commands that switch something on or off. -/
theorem quiet_enable {es es' : List CommandEvent} (h : es.filterMap (·.console?) = [])
    (h' : es'.filterMap (·.console?) = []) : Quiet d v (do
      if ← argStreq 2 "enable" then return ⟨true, d, es⟩
      else if ← argStreq 2 "disable" then return ⟨true, d, es'⟩
      else appCmdUsage d) :=
  .bind (.ite (fun _ => Prod.ext rfl h) fun _ => .bind (.ite (fun _ => Prod.ext rfl h')
    fun _ => quiet_usage))

theorem quiet_appCommandDebug (build : DebugBuild) : Quiet d v (appCommandDebug d argc build) := by
  have hwolf : Quiet d v (appCmdDebugWolfSSL d argc build) :=
    .ite (fun _ => .ite (fun _ => quiet_usage) fun _ => quiet_enable rfl rfl) fun _ => quiet_printed
  exact .ite (fun _ => quiet_appCommandOf (List.forall_mem_singleton.mpr hwolf)) fun _ => quiet_printed

theorem quiet_iwSecurityMode {length : Nat → Bool} {key : Nat}
    {set : CString → UInt16 → List CommandEvent}
    (hset : ∀ s len, (set s len).filterMap (·.console?) = []) :
    Quiet d v (iwSecurityMode d length key set) :=
  .bind (.ite (fun _ => rfl) fun _ => .bind (Prod.ext rfl (hset _ _)))

theorem console_iwSecuritySetWEP (context : WepContext) (key : CString) (len : UInt16) :
    (iwSecuritySetWEP context key len).filterMap (·.console?) = [] := by
  unfold iwSecuritySetWEP
  split
  · rfl
  · split <;> rfl

theorem console_iwSecuritySetPassPhrase (type : WepSecurityType) (context : WepContext)
    (key : CString) (len : UInt16) :
    (iwSecuritySetPassPhrase type context key len).filterMap (·.console?) = [] := by
  unfold iwSecuritySetPassPhrase
  split <;> rfl

theorem console_iwSecuritySetWPSPIN (context : WepContext) (key : CString) (len : UInt16) :
    (iwSecuritySetWPSPIN context key len).filterMap (·.console?) = [] := by
  unfold iwSecuritySetWPSPIN
  split <;> rfl

theorem quiet_appCommandIwSecurity (context : WepContext) :
    Quiet d v (appCommandIwSecurity d argc context) := by
  refine .bind (.ite (fun _ => rfl) fun _ => ?_)
  refine .bind (.ite (fun _ => ?wep40) fun _ => ?_)
  case wep40 => exact quiet_iwSecurityMode (console_iwSecuritySetWEP context)
  refine .bind (.ite (fun _ => ?wep104) fun _ => ?_)
  case wep104 => exact quiet_iwSecurityMode (console_iwSecuritySetWEP context)
  refine .bind (.ite (fun _ => ?wpa) fun _ => ?_)
  case wpa => exact quiet_iwSecurityMode (console_iwSecuritySetPassPhrase _ context)
  refine .bind (.ite (fun _ => ?wpa2) fun _ => ?_)
  case wpa2 => exact quiet_iwSecurityMode (console_iwSecuritySetPassPhrase _ context)
  refine .bind (.ite (fun _ => ?pin) fun _ => rfl)
  case pin => exact quiet_iwSecurityMode (console_iwSecuritySetWPSPIN context)

theorem quiet_appCommandNTP : Quiet d v (appCommandNTP d argc) := by
  have hseconds : Quiet d v (appCmdNTPSeconds d argc) :=
    .ite (fun _ => quiet_usage) fun _ => quiet_printed
  exact .ite (fun _ => quiet_usage) fun _ => quiet_dispatch (List.forall_mem_singleton.mpr hseconds)

theorem quiet_appCommandPhy : Quiet d v (appCommandPhy d argc) := by
  refine quiet_appCommandOf fun e he => ?_
  rcases List.mem_pair.mp he with rfl | rfl
  · rfl
  · rfl

theorem quiet_appCommandPower : Quiet d v (appCommandPower d argc) := by
  have hhv : Quiet d v (appCmdPowerHV d argc) :=
    .ite (fun _ => quiet_usage) fun _ => quiet_enable rfl rfl
  exact quiet_appCommandOf (List.forall_mem_singleton.mpr hhv)

end Quiet

/-- The handlers compute the results of `runCommand`. -/
theorem appCommand_run (build : DebugBuild) (locals : CommandLocals) (command : ConsoleCommand) :
    ((appCommand d cmdIo a.argc build locals command).run a.argv).result =
      runCommand d ⟨cmdIo, a.toList, locals.stack⟩ command := by
  cases command with
  | debug => exact quiet_appCommandDebug build
  | fetch => exact appCommandFetch_run d cmdIo a
  | flash => exact appCommandFlash_run d cmdIo a
  | iwsecurity => exact quiet_appCommandIwSecurity locals.context
  | nixie => exact appCommandNixie_run d cmdIo a
  | ntp => exact quiet_appCommandNTP
  | phy => exact quiet_appCommandPhy
  | power => exact quiet_appCommandPower
  | rtc => exact appCommandRTC_run d cmdIo a locals.stack
  | shiftRegister => exact appCommandShiftRegister_run d cmdIo a

end Argv

end NixieTracker
