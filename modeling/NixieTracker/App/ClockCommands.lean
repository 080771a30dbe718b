import NixieTracker.App.RtcReports
import NixieTracker.Rtc.Bus

/-!
# The commands of `rtc`

* `ClockCommand`: a command with its arguments. `effect` and `shows` are what it is for: the registers
  that it leaves behind, and what it shows of those that it finds.
* `ofLine`: the command that is typed.
* `consoleLine_clock`: the console schedules it, with its arguments stored; `consoleLine_other`: no other
  line has to do with the clock.
* `perform_invoke`, `perform_idle`: its callback starts its operation, and prints what it shows.
-/

namespace NixieTracker

open Lib RtcOperation

inductive ClockCommand where
  | setOscillator (enable : Bool)
  | oscillatorStatus
  | showDate
  | setDate (dateTime : RtcDateTime)
  | setBattery (enable : Bool)
  | batteryStatus
  | dump
  | readRegister (address : UInt8)
  | writeRegister (address value : UInt8)
  deriving DecidableEq

namespace ClockCommand

def operation : ClockCommand → RtcOperation
  | .setOscillator e => .enableOscillator e
  | .oscillatorStatus => .oscillatorStatus commandRTCAddress
  | .showDate => .readDateAndTime commandRTCAddress
  | .setDate t => .writeDateAndTime t
  | .setBattery e => .enableBatteryBackup e
  | .batteryStatus => .batteryBackupStatus commandRTCAddress
  | .dump => .readNumRegisters commandRTCAddress (Fin.last rtcNumRegisters)
  | .readRegister a => .readRegister a commandRTCRegisterValue
  | .writeRegister a x => .writeRegister a x

/-- The registers that the command leaves behind. -/
def effect (c : ClockCommand) (registers : Memory) : Memory := c.operation.effect registers

/-- What the command shows of the registers. -/
def shows (c : ClockCommand) (registers : Memory) : Option Printed :=
  c.operation.report (c.operation.answer registers)

example (registers : Memory) :
    dump.effect registers = registers ∧ dump.shows registers = some (.registers (registers.load 0 31)) :=
  ⟨rfl, rfl⟩

/-! ## The words -/

def ofSwitch (on off : String) (set : Bool → ClockCommand) (status : ClockCommand) :
    List Argument → Option ClockCommand
  | [word] =>
    if word.streq on then some (set true)
    else if word.streq off then some (set false)
    else if word.streq "status" then some status
    else none
  | _ => none

def ofDate (stack : Int × Int × Int) : List Argument → Option ClockCommand
  | [] => some .showDate
  | [dayOfWeek, day, month, year, time] =>
    (dateDecode dayOfWeek day month year time stack).map .setDate
  | _ => none

def ofDump : List Argument → Option ClockCommand
  | [] => some .dump
  | _ => none

def ofRegister : List Argument → Option ClockCommand
  | [word, address] =>
    if word.streq "read" then some (.readRegister (toUInt8 (atoi address.val))) else none
  | [word, address, value] =>
    if word.streq "write" then
      some (.writeRegister (toUInt8 (atoi address.val)) (toUInt8 (atoi value.val)))
    else none
  | _ => none

/-- The command of the words behind `rtc`. -/
def ofWords (stack : Int × Int × Int) : List Argument → Option ClockCommand
  | [] => none
  | command :: words =>
    if command.streq "oscillator" then ofSwitch "start" "stop" .setOscillator .oscillatorStatus words
    else if command.streq "date" then ofDate stack words
    else if command.streq "battery" then ofSwitch "enable" "disable" .setBattery .batteryStatus words
    else if command.streq "dump" then ofDump words
    else if command.streq "register" then ofRegister words
    else none

def ofLine (line : ConsoleLine) : Option ClockCommand :=
  match line.argv with
  | [] => none
  | name :: words => if name.streq "rtc" then ofWords line.stack words else none

/-! ## The task -/

def callback : ClockCommand → AppCommandTaskCallback
  | .setOscillator true => .performRTCOscillatorStart
  | .setOscillator false => .performRTCOscillatorStop
  | .oscillatorStatus => .performRTCOscillatorStatus
  | .showDate => .performRTCDateShow
  | .setDate _ => .performRTCDateSet
  | .setBattery true => .performRTCBatteryEnable
  | .setBattery false => .performRTCBatteryDisable
  | .batteryStatus => .performRTCBatteryStatus
  | .dump => .performRTCDump
  | .readRegister _ => .performRTCRegisterRead
  | .writeRegister _ _ => .performRTCRegisterWrite

/-- The union with the arguments of the command. -/
def storeArguments (d : AppCommandRTCData) : ClockCommand → AppCommandRTCData
  | .setDate t => d.store commandRTCAddress t.bytes
  | .readRegister a => d.store commandRTCAddress [a]
  | .writeRegister a x => (d.store commandRTCAddress [a]).store commandRTCRegisterValue [x]
  | _ => d

/-- The arguments of the command are in the union. -/
def StoredIn (d : AppCommandRTCData) : ClockCommand → Prop
  | .setDate t => d.load RtcDateTime.size = t.bytes
  | .readRegister a => d.registerAddress = a
  | .writeRegister a x => d.registerAddress = a ∧ d.registerValue = x
  | _ => True

theorem storedIn_storeArguments (c : ClockCommand) (d : AppCommandRTCData) :
    c.StoredIn (c.storeArguments d) := by
  cases c with
  | setDate t => exact d.memory.load_store commandRTCAddress.toNat t.bytes
  | readRegister a =>
    exact (List.cons.inj (d.memory.load_store commandRTCAddress.toNat [a])).1
  | writeRegister a x =>
    have hvalue := (d.store commandRTCAddress [a]).memory.load_store commandRTCRegisterValue.toNat [x]
    exact ⟨rfl, (List.cons.inj hvalue).1⟩
  | _ => trivial

@[simp] theorem callback_ownCheck (c : ClockCommand) :
    c.callback.ownCheck = .performRTCCheckAvailable := by
  cases c with
  | setOscillator e | setBattery e => cases e <;> rfl
  | _ => rfl

/-- What the console does with the command. -/
def scheduled (c : ClockCommand) (d : AppCommandData) (cmdIo : CmdIo) : ConsoleResult :=
  schedule { d with rtc := c.storeArguments d.rtc } cmdIo c.callback .performRTCCheckAvailable

/-- The console with the command, if there is one. -/
def result (c : Option ClockCommand) (d : AppCommandData) (cmdIo : CmdIo) : ConsoleResult :=
  match c with
  | some c => c.scheduled d cmdIo
  | none => (d, [])

section Lines

variable {d : AppCommandData} {cmdIo : CmdIo} {name command : Argument} {words : List Argument}

theorem result_ite (p : Prop) [Decidable p] (c c' : Option ClockCommand) :
    result (if p then c else c') d cmdIo = if p then result c d cmdIo else result c' d cmdIo :=
  apply_ite (result · d cmdIo) p c c'

theorem appCmdRTCOscillator_eq : appCmdRTCOscillator d cmdIo (name :: command :: words) =
    result (ofSwitch "start" "stop" .setOscillator .oscillatorStatus words) d cmdIo := by
  match words with
  | [] | _ :: _ :: _ => rfl
  | [word] =>
    simp only [ofSwitch, result_ite]
    rfl

theorem appCmdRTCBattery_eq : appCmdRTCBattery d cmdIo (name :: command :: words) =
    result (ofSwitch "enable" "disable" .setBattery .batteryStatus words) d cmdIo := by
  match words with
  | [] | _ :: _ :: _ => rfl
  | [word] =>
    simp only [ofSwitch, result_ite]
    rfl

theorem appCmdRTCDate_eq (stack : Int × Int × Int) :
    appCmdRTCDate d cmdIo (name :: command :: words) stack = result (ofDate stack words) d cmdIo := by
  match words with
  | [] | [_] | [_, _] | [_, _, _] | [_, _, _, _] | _ :: _ :: _ :: _ :: _ :: _ :: _ => rfl
  | [dayOfWeek, day, month, year, time] =>
    simp only [appCmdRTCDate, ofDate]
    cases dateDecode dayOfWeek day month year time stack <;> rfl

theorem appCmdRTCDump_eq :
    appCmdRTCDump d cmdIo (name :: command :: words) = result (ofDump words) d cmdIo := by
  cases words with
  | nil => rfl
  | cons w words =>
    unfold appCmdRTCDump
    rw [if_pos (by simp)]
    rfl

theorem appCmdRTCRegister_eq :
    appCmdRTCRegister d cmdIo (name :: command :: words) = result (ofRegister words) d cmdIo := by
  match words with
  | [] | [_] | _ :: _ :: _ :: _ :: _ => rfl
  | [word, address] | [word, address, value] =>
    simp only [ofRegister, result_ite]
    rfl

theorem appCommandRTC_eq (h : d.task.state = .none) (stack : Int × Int × Int) :
    appCommandRTC d cmdIo (name :: words) stack = result (ofWords stack words) d cmdIo := by
  have havailable : appCommandCheckAvailable d = true := by
    simp [appCommandCheckAvailable, appCommandIsBusy, appCommandTaskIsBusy, h]
  unfold appCommandRTC
  rw [havailable, Bool.not_true, if_neg Bool.false_ne_true]
  cases words with
  | nil => rfl
  | cons command words =>
    simp only [List.getElem?_cons_succ, List.getElem?_cons_zero, ofWords, result_ite,
      appCmdRTCOscillator_eq, appCmdRTCDate_eq, appCmdRTCBattery_eq, appCmdRTCDump_eq,
      appCmdRTCRegister_eq]
    rfl

/-- The word `rtc` names the commands of the clock. -/
theorem find_rtc (h : name.streq "rtc" = true) :
    commands.find? (fun c => name.streq c.1) = some ("rtc", .rtc) := by
  have hval : name.val = lit "rtc" := of_decide_eq_true h
  have hother : ∀ t : String, lit "rtc" ≠ lit t → name.streq t = false := by
    intro t ht
    unfold Argument.streq
    rw [hval]
    exact decide_eq_false ht
  simp only [commands, List.find?_cons, h, hother "debug" (by decide +kernel),
    hother "fetch" (by decide +kernel), hother "flash" (by decide +kernel),
    hother "iwsecurity" (by decide +kernel), hother "nixie" (by decide +kernel),
    hother "ntp" (by decide +kernel), hother "phy" (by decide +kernel),
    hother "power" (by decide +kernel)]

theorem find_other {entry : String × ConsoleCommand} (h : name.streq "rtc" = false)
    (hfind : commands.find? (fun c => name.streq c.1) = some entry) : entry.2 ≠ .rtc := by
  have hmem := List.mem_of_find?_eq_some hfind
  have hname : name.streq entry.1 = true := by simpa using List.find?_some hfind
  intro hrtc
  simp only [commands, List.mem_cons, List.not_mem_nil, or_false] at hmem
  rcases hmem with rfl | rfl | rfl | rfl | rfl | rfl | rfl | rfl | rfl | rfl <;> cases hrtc
  rw [h] at hname
  cases hname

end Lines

def usesClock (callback : AppCommandTaskCallback) : Bool :=
  callback.ownCheck = .performRTCCheckAvailable

/-- A command of the clock is scheduled or running. -/
def Busy (task : AppCommandTaskData) : Prop :=
  task.state ≠ .none ∧ task.callback.any usesClock = true

section OtherLines

variable {d : AppCommandData} {cmdIo : CmdIo} {argv : List Argument}

theorem not_busy_none {task : AppCommandTaskData} (h : task.state = .none) : ¬ Busy task :=
  fun hbusy => hbusy.1 h

theorem not_busy_schedule {d : AppCommandData} (cmdIo : CmdIo) {callback : AppCommandTaskCallback}
    (h : usesClock callback = false) (checkAvailable : AppCommandTaskCheckAvailableCallback) :
    ¬ Busy (schedule d cmdIo callback checkAvailable).1.task := by
  rintro ⟨-, huses⟩
  rw [show (schedule d cmdIo callback checkAvailable).1.task.callback = some callback from rfl,
    Option.any_some, h] at huses
  cases huses

/-- The other commands do not schedule a callback of the clock. -/
theorem runCommand_other {command : ConsoleCommand} (h : d.task.state = .none)
    (hc : command ≠ .rtc) (line : ConsoleLine) : ¬ Busy (runCommand d line command).1.task := by
  have hnone : ¬ Busy d.task := not_busy_none h
  have hschedule (d : AppCommandData) (callback : AppCommandTaskCallback)
      (h : usesClock callback = false) (check : AppCommandTaskCheckAvailableCallback) :
      ¬ Busy (schedule d line.cmdIo callback check).1.task := not_busy_schedule line.cmdIo h check
  cases command with
  | rtc => exact absurd rfl hc
  | debug | iwsecurity | ntp | phy | power => exact hnone
  | fetch =>
    simp only [runCommand, appCommandFetch, appCmdFetch]
    repeat' split
    all_goals first | exact hnone | exact hschedule _ _ rfl _
  | flash =>
    simp only [runCommand, appCommandFlash, appCmdFlashSectors, appCmdFlashFormat]
    repeat' split
    all_goals first | exact hnone | exact hschedule _ _ rfl _
  | nixie =>
    simp only [runCommand, appCommandNixie, appCmdNixieDisplay, appCmdNixiePeriodic,
      appCmdNixieFetch]
    repeat' split
    all_goals first | exact hnone | exact hschedule _ _ rfl _
  | shiftRegister =>
    simp only [runCommand, appCommandShiftRegister, commandShiftRegisterSetEnabledOrDisabled,
      commandShiftRegisterSendData]
    repeat' split
    all_goals first | exact hnone | exact hschedule _ _ rfl _

end OtherLines

/-- A line with a command of the clock, typed while no task is scheduled. -/
theorem consoleLine_clock {d : AppCommandData} (h : d.task.state = .none) {line : ConsoleLine}
    {c : ClockCommand} (hc : ofLine line = some c) :
    consoleLine d line = c.scheduled d line.cmdIo := by
  obtain ⟨cmdIo, argv, stack⟩ := line
  cases argv with
  | nil => cases hc
  | cons name words =>
    simp only [ofLine] at hc
    split at hc
    · rename_i hname
      simp only [consoleLine, List.head?_cons, find_rtc hname, runCommand, appCommandRTC_eq h, hc]
      rfl
    · cases hc

theorem consoleLine_other {d : AppCommandData} (h : d.task.state = .none) {line : ConsoleLine}
    (hc : ofLine line = none) : ¬ Busy (consoleLine d line).1.task := by
  obtain ⟨cmdIo, argv, stack⟩ := line
  have hnone : ¬ Busy d.task := not_busy_none h
  unfold consoleLine
  split
  · exact hnone
  · rename_i name hhead
    split
    · exact hnone
    · rename_i entry command hfind
      cases argv with
      | nil => cases hhead
      | cons name' words =>
        cases hhead
        cases hname : name.streq "rtc" with
        | false => exact runCommand_other h (find_other hname hfind) _
        | true =>
          rw [find_rtc hname] at hfind
          cases hfind
          simp only [ofLine, hname, if_true] at hc
          simp only [runCommand, appCommandRTC_eq h, hc]
          exact hnone

/-! ## The callback -/

theorem shows_isReport (c : ClockCommand) (registers : Memory) {text : Printed}
    (h : c.shows registers = some text) : text.isReport = true := by
  cases c with
  | oscillatorStatus | showDate | batteryStatus | dump | readRegister =>
    cases h
    rfl
  | _ => cases h

section Callback

variable {app : AppData} {c : ClockCommand} (answers : CommandAnswers) (io : Option CmdIo)

theorem perform_invoke (h : c.StoredIn app.command.rtc) :
    perform answers c.callback io .invoke app =
      (.running, app.setRtcView (c.operation.start app.rtcView answers.i2c).1,
        (c.operation.start app.rtcView answers.i2c).2.map .rtc) := by
  cases c with
  | setOscillator e | setBattery e => cases e <;> rfl
  | oscillatorStatus | showDate | batteryStatus | dump => rfl
  | setDate t =>
    have hload : app.command.rtc.load RtcDateTime.size = t.bytes := h
    simp only [perform, callback, performRTCDateSet, hload, RtcDateTime.ofBytes_bytes]
    rfl
  | readRegister a =>
    obtain rfl : app.command.rtc.registerAddress = a := h
    rfl
  | writeRegister a x =>
    obtain ⟨rfl, rfl⟩ : app.command.rtc.registerAddress = a ∧ app.command.rtc.registerValue = x := h
    rfl

/-- The other callbacks have nothing to do with the clock. -/
theorem perform_aside (answers : CommandAnswers) {callback : AppCommandTaskCallback}
    (h : usesClock callback = false) (io : Option CmdIo) (mode : AppCommandTaskCallbackMode)
    (app : AppData) :
    (perform answers callback io mode app).2.1.rtcView = app.rtcView ∧
      ∀ e ∈ (perform answers callback io mode app).2.2, e.isOther = true := by
  have hnone : ∀ e ∈ ([] : List AppEvent), e.isOther = true := fun e he => by cases he
  have hone {event : AppEvent} (h : event.isOther = true) : ∀ e ∈ [event], e.isOther = true :=
    List.forall_mem_singleton.mpr h
  cases callback with
  | performFetch =>
    cases mode with
    | invoke =>
      simp only [perform, performFetch]
      split
      · exact ⟨rfl, hnone⟩
      · exact ⟨rfl, hone rfl⟩
    | update => exact ⟨rfl, hnone⟩
  | performFlashSectors =>
    cases mode with
    | invoke => exact ⟨rfl, hone (by split <;> rfl)⟩
    | update => exact ⟨rfl, hnone⟩
  | performFlashFormat =>
    cases mode with
    | invoke => exact ⟨rfl, hone rfl⟩
    | update => exact ⟨rfl, hnone⟩
  | performNixieDisplay => cases mode <;> exact ⟨rfl, hnone⟩
  | performNixieFetch =>
    have hcheck : AppCommandTaskCallback.performNixieFetch.ownCheck = .performNixieCheckAvailable := rfl
    obtain ⟨nixie, union, heq⟩ := perform_nixie answers io mode app hcheck
    rw [heq]
    refine ⟨rfl, ?_⟩
    cases mode with
    | invoke =>
      refine List.forall_mem_append.mpr ⟨?_, List.forall_mem_map.mpr fun n _ => rfl⟩
      split
      · exact hone rfl
      · exact hnone
    | update =>
      simp only [perform, performNixieFetch]
      split
      · exact hnone
      · exact hone (by split <;> rfl)
  | performShiftRegisterSetEnabled | performShiftRegisterSetDisabled =>
    cases mode with
    | invoke => exact ⟨rfl, List.forall_mem_map.mpr fun r _ => rfl⟩
    | update => exact ⟨rfl, hnone⟩
  | performShiftRegisterSendData => cases mode <;> exact ⟨rfl, hnone⟩
  | _ => cases h

/-- A callback of the clock ends with what it reports, and the writing ones report nothing. -/
theorem perform_update (c : ClockCommand) : ∃ start report,
    perform answers c.callback io .update app = performRTC start report app io .update ∧
      (c.callback.reports = false → report app = []) := by
  cases c with
  | setOscillator e | setBattery e =>
    cases e <;> (unfold perform; exact ⟨_, _, rfl, fun _ => rfl⟩)
  | setDate | writeRegister => unfold perform; exact ⟨_, _, rfl, fun _ => rfl⟩
  | _ => unfold perform; exact ⟨_, _, rfl, fun hno => by cases hno⟩

theorem perform_busy (c : ClockCommand) (h : rtcIsBusy app.rtc = true) :
    perform answers c.callback io .update app = (.running, app, []) := by
  obtain ⟨start, report, hperform, -⟩ := c.perform_update answers io
  rw [hperform, performRTC_busy h]

/-- The command ends, and shows what its operation has read. -/
theorem perform_idle {registers : Memory} (c : ClockCommand) (h : rtcIsBusy app.rtc = false)
    (hst : c.operation.Stored (c.operation.answer registers) app.command.rtc.memory) :
    perform answers c.callback io .update app =
      (.finished, app, (c.shows registers).toList.map (.print io)) := by
  have hread (register : UInt8) (hop : c.callback.reads register = some c.operation) :
      perform answers c.callback io .update app =
        (.finished, app, (c.shows registers).toList.map (.print io)) := by
    obtain ⟨text, htext, hperform⟩ := perform_reported hop h hst answers io
    rw [hperform, shows, htext]
    rfl
  have hwrite (hno : c.callback.reports = false) (hshows : c.shows registers = none) :
      perform answers c.callback io .update app =
        (.finished, app, (c.shows registers).toList.map (.print io)) := by
    obtain ⟨start, report, hperform, hreport⟩ := c.perform_update answers io
    rw [hperform, performRTC_idle h, hreport hno, hshows]
    rfl
  cases c with
  | oscillatorStatus | showDate | batteryStatus | dump => exact hread 0 rfl
  | readRegister a => exact hread a rfl
  | setOscillator e | setBattery e => cases e <;> exact hwrite rfl rfl
  | setDate | writeRegister => exact hwrite rfl rfl

end Callback

end ClockCommand

end NixieTracker
