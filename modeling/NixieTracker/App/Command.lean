import NixieTracker.App.CommandTask
import NixieTracker.Nixie.Tasks
import NixieTracker.Rtc.Driver

/-!
# The console commands (`app_command*.c`)

What a line of the console does at once: it prints something, talks to a module, or stores its
arguments in `AppCommandData` and schedules a task.

* `consoleLine`: the dispatch by `commands`, as the command processor does it.
* `appCommandFetch`, `appCommandFlash`, `appCommandNixie`, `appCommandRTC`,
  `appCommandShiftRegister`: the commands that schedule tasks. The other registered commands do not
  touch `AppCommandData`.

The texts of the usage and error messages are left out.
-/

namespace NixieTracker

open Lib

/-- An argument of a command line: the characters of a C string. -/
abbrev Argument := { s : List UInt8 // 0 ∉ s }

/-- `STREQ` with a literal. -/
def Argument.streq (s : Argument) (t : String) : Bool := s.val = lit t

/-! ## Per-command data -/

structure AppCommandFetchData where
  url : Buf maxUrl
  requestActive : Bool

/-- `AppCommandNixieData`. `privateData` is the union `_private`: `display.value` and
`fetch.is_fetched` at 0, `fetch.value` at 1. -/
structure AppCommandNixieData where
  privateData : Buf 5

/-- `AppCommandRTCData`: the memory in which the union `_private` lies, at `commandRTCAddress`.
`oscillator`, `battery`, `date` and `dump` start there; `reg` has the address first, then the
value. -/
structure AppCommandRTCData where
  memory : Memory

/-- `&app_data->command.rtc._private`. -/
def commandRTCAddress : UInt32 := 0x80002000

/-- `&app_data->command.rtc._private.reg.register_value`. -/
def commandRTCRegisterValue : UInt32 := commandRTCAddress + 1

namespace AppCommandRTCData

/-- The `len` bytes of the union. -/
def load (d : AppCommandRTCData) (len : Nat) : List UInt8 :=
  d.memory.load commandRTCAddress.toNat len

def store (d : AppCommandRTCData) (address : UInt32) (bytes : List UInt8) : AppCommandRTCData :=
  { d with memory := d.memory.store address.toNat bytes }

/-- `reg.register_address`. -/
def registerAddress (d : AppCommandRTCData) : UInt8 := d.memory commandRTCAddress.toNat

/-- `reg.register_value`. -/
def registerValue (d : AppCommandRTCData) : UInt8 := d.memory commandRTCRegisterValue.toNat

end AppCommandRTCData

structure AppCommandShiftRegisterData where
  data : Vector UInt8 shiftRegisterMaxData
  numBytes : Nat

structure AppCommandData where
  task : AppCommandTaskData
  fetch : AppCommandFetchData
  nixie : AppCommandNixieData
  rtc : AppCommandRTCData
  shiftRegister : AppCommandShiftRegisterData

/-- The console's memory before `APP_Command_Initialize`, as the program is loaded. -/
def AppCommandData.zeroed : AppCommandData where
  task := ⟨.none, none, none, none⟩
  fetch := ⟨Vector.replicate _ 0, false⟩
  nixie := ⟨Vector.replicate _ 0⟩
  rtc := ⟨fun _ => 0⟩
  shiftRegister := ⟨Vector.replicate _ 0, 0⟩

/-- The argument storage: what the tasks use of `AppCommandData`. -/
abbrev CommandStorage :=
  AppCommandFetchData × AppCommandNixieData × AppCommandRTCData × AppCommandShiftRegisterData

def AppCommandData.storage (d : AppCommandData) : CommandStorage :=
  (d.fetch, d.nixie, d.rtc, d.shiftRegister)

def AppCommandData.setStorage (d : AppCommandData) (s : CommandStorage) : AppCommandData :=
  ⟨d.task, s.1, s.2.1, s.2.2.1, s.2.2.2⟩

@[simp] theorem setStorage_task (d : AppCommandData) (s : CommandStorage) :
    (d.setStorage s).task = d.task := rfl

@[simp] theorem storage_setStorage (d : AppCommandData) (s : CommandStorage) :
    (d.setStorage s).storage = s := rfl

@[simp] theorem setStorage_storage (d : AppCommandData) : d.setStorage d.storage = d := rfl

/-- `sizeof` of the union `_private` of `AppCommandRTCData`. -/
abbrev commandRTCSize : Nat := rtcNumRegisters

/-- `APP_Command_Initialize`, with the `memset`s of the commands. -/
def appCommandInitialize (d : AppCommandData) : AppCommandData where
  task := appCommandTaskInitialize d.task
  fetch := ⟨Vector.replicate _ 0, false⟩
  nixie := d.nixie
  rtc := d.rtc.store commandRTCAddress (List.replicate commandRTCSize 0)
  shiftRegister := ⟨Vector.replicate _ 0, 0⟩

/-- What a line does outside `AppCommandData`. -/
inductive ConsoleEvent where
  | task (e : TaskEvent)
  /-- `APP_Nixie_PeriodicTasksSetEnabled`. -/
  | periodicTasksSetEnabled (enabled : Bool)
  deriving DecidableEq, Repr

/-- The result of a line. -/
abbrev ConsoleResult := AppCommandData × List ConsoleEvent

def appCommandIsBusy (d : AppCommandData) : Bool := appCommandTaskIsBusy d.task

def appCommandCheckAvailable (d : AppCommandData) : Bool := !appCommandIsBusy d

/-- `APP_Command_Task_Schedule` from a command. -/
def schedule (d : AppCommandData) (cmdIo : CmdIo) (callback : AppCommandTaskCallback)
    (checkAvailable : AppCommandTaskCheckAvailableCallback) : ConsoleResult :=
  let (task, events) := appCommandTaskSchedule d.task cmdIo callback checkAvailable
  ({ d with task }, events.map .task)

/-! ## `fetch` -/

def appCmdFetch (d : AppCommandData) (cmdIo : CmdIo) (argv : List Argument) : ConsoleResult :=
  match argv with
  | [_, url] =>
    schedule { d with fetch := { d.fetch with url := safeStrncpy d.fetch.url url.val maxUrl } } cmdIo
      .performFetch .performFetchCheckAvailable
  | _ => (d, [])

def appCommandFetch (d : AppCommandData) (cmdIo : CmdIo) (argv : List Argument) : ConsoleResult :=
  if !appCommandCheckAvailable d then (d, [])
  else if argv.length = 1 then (d, [])
  else appCmdFetch d cmdIo argv

/-! ## `flash` -/

def appCmdFlashSectors (d : AppCommandData) (cmdIo : CmdIo) (argv : List Argument) :
    ConsoleResult :=
  if argv.length ≠ 2 then (d, [])
  else schedule d cmdIo .performFlashSectors .performFlashCheckAvailable

def appCmdFlashFormat (d : AppCommandData) (cmdIo : CmdIo) (argv : List Argument) :
    ConsoleResult :=
  if argv.length ≠ 2 then (d, [])
  else schedule d cmdIo .performFlashFormat .performFlashCheckAvailable

def appCommandFlash (d : AppCommandData) (cmdIo : CmdIo) (argv : List Argument) : ConsoleResult :=
  if !appCommandCheckAvailable d then (d, [])
  else
    match argv[1]? with
    | none => (d, [])
    | some command =>
      if command.streq "sectors" then appCmdFlashSectors d cmdIo argv
      else if command.streq "format" then appCmdFlashFormat d cmdIo argv
      else (d, [])

/-! ## `nixie` -/

/-- The loop of `reverse_bytes`; `n` bounds its rounds. -/
def reverseBytesLoop {size : Nat} (mem : Buf size) (lo hi : Nat) : Nat → Buf size
  | 0 => mem
  | n + 1 =>
    if lo < hi then reverseBytesLoop (mem.swapIfInBounds lo hi) (lo + 1) (hi - 1) n else mem

/-- `reverse_bytes`. -/
def reverseBytes {size : Nat} (mem : Buf size) : Buf size :=
  reverseBytesLoop mem 0 (size - 1) size

/-- What `appCmdNixieDisplay` makes of its argument. -/
def displayArgument (value : Argument) : Buf maxNixieTubes :=
  reverseBytes (strncpyDisplay value.val)

def appCmdNixieDisplay (d : AppCommandData) (cmdIo : CmdIo) (argv : List Argument) :
    ConsoleResult :=
  match argv with
  | [_, _, value] =>
    schedule
      { d with nixie := ⟨d.nixie.privateData.write 0 (displayArgument value).toList⟩ } cmdIo
      .performNixieDisplay .performNixieCheckAvailable
  | _ => (d, [])

def appCmdNixiePeriodic (d : AppCommandData) (argv : List Argument) : ConsoleResult :=
  match argv with
  | [_, _, value] =>
    if value.streq "enable" then (d, [.periodicTasksSetEnabled true])
    else if value.streq "disable" then (d, [.periodicTasksSetEnabled false])
    else (d, [])
  | _ => (d, [])

def appCmdNixieFetch (d : AppCommandData) (cmdIo : CmdIo) (argv : List Argument) : ConsoleResult :=
  if argv.length ≠ 2 then (d, [])
  else schedule d cmdIo .performNixieFetch .performNixieCheckAvailable

def appCommandNixie (d : AppCommandData) (cmdIo : CmdIo) (argv : List Argument) : ConsoleResult :=
  if !appCommandCheckAvailable d then (d, [])
  else
    match argv[1]? with
    | none => (d, [])
    | some command =>
      if command.streq "display" then appCmdNixieDisplay d cmdIo argv
      else if command.streq "periodic" then appCmdNixiePeriodic d argv
      else if command.streq "fetch" then appCmdNixieFetch d cmdIo argv
      else (d, [])

/-! ## `rtc` -/

def appCmdRTCOscillator (d : AppCommandData) (cmdIo : CmdIo) (argv : List Argument) :
    ConsoleResult :=
  match argv with
  | [_, _, command] =>
    if command.streq "start" then
      schedule d cmdIo .performRTCOscillatorStart .performRTCCheckAvailable
    else if command.streq "stop" then
      schedule d cmdIo .performRTCOscillatorStop .performRTCCheckAvailable
    else if command.streq "status" then
      schedule d cmdIo .performRTCOscillatorStatus .performRTCCheckAvailable
    else (d, [])
  | _ => (d, [])

def daysOfWeek : List String := ["Mon", "Tue", "Wed", "Thu", "Fri", "Sat", "Sun"]

def months : List String :=
  ["Jan", "Feb", "Mar", "Apr", "May", "Jun", "Jul", "Aug", "Sep", "Oct", "Nov", "Dec"]

/-- `%d` of `sscanf`: the value and what follows it. -/
def scanInt (s : List UInt8) : Option (Int × List UInt8) :=
  let s := s.dropWhile isSpace
  let (sign, s) : Int × List UInt8 := match s with
    | 45 :: t => (-1, t)
    | 43 :: t => (1, t)
    | t => (1, t)
  if s.takeWhile isDigit = [] then none
  else some (sign * digitsValue (s.takeWhile isDigit), s.dropWhile isDigit)

/-- `sscanf(s, "%d:%d:%d", &hour, &minute, &second)`; `stack` is what the three variables hold
before. -/
def scanTime (s : List UInt8) (stack : Int × Int × Int) : Int × Int × Int :=
  match scanInt s with
  | none => stack
  | some (hour, 58 :: s) =>
    match scanInt s with
    | none => (hour, stack.2)
    | some (minute, 58 :: s) =>
      match scanInt s with
      | none => (hour, minute, stack.2.2)
      | some (second, _) => (hour, minute, second)
    | some (minute, _) => (hour, minute, stack.2.2)
  | some (hour, _) => (hour, stack.2)

/-- The index of a name. -/
def indexOfName (names : List String) (name : Argument) : Option Nat :=
  names.findIdx? fun n => name.streq n

/-- The conversion to `uint8_t`. -/
def toUInt8 (i : Int) : UInt8 := UInt8.ofNat (i % 2 ^ 8).toNat

/-- `dateDecode` of the five arguments. -/
def dateDecode (dayOfWeekName day monthName year time : Argument) (stack : Int × Int × Int) :
    Option RtcDateTime :=
  let day := atoi day.val
  let year := atoi year.val
  let (hour, minute, second) := scanTime time.val stack
  match indexOfName daysOfWeek dayOfWeekName with
  | none => none
  | some dayOfWeek =>
    if day < 0 ∨ 31 < day then none
    else
      match indexOfName months monthName with
      | none => none
      | some month =>
        if year < 2001 ∨ 2399 < year then none
        else if hour < 0 ∨ 24 < hour then none
        else if minute < 0 ∨ 59 < minute then none
        else if second < 0 ∨ 59 < second then none
        else
          some {
            seconds := toUInt8 second
            minutes := toUInt8 minute
            hours := toUInt8 hour
            dayOfWeek := toUInt8 dayOfWeek
            day := toUInt8 day
            month := toUInt8 month
            year := toUInt8 (year - 2000) }

def appCmdRTCDate (d : AppCommandData) (cmdIo : CmdIo) (argv : List Argument)
    (stack : Int × Int × Int) : ConsoleResult :=
  match argv with
  | [_, _] => schedule d cmdIo .performRTCDateShow .performRTCCheckAvailable
  | [_, _, dayOfWeek, day, month, year, time] =>
    match dateDecode dayOfWeek day month year time stack with
    | some dateTime =>
      schedule { d with rtc := d.rtc.store commandRTCAddress dateTime.bytes } cmdIo
        .performRTCDateSet .performRTCCheckAvailable
    | none => (d, [])
  | _ => (d, [])

def appCmdRTCBattery (d : AppCommandData) (cmdIo : CmdIo) (argv : List Argument) :
    ConsoleResult :=
  match argv with
  | [_, _, command] =>
    if command.streq "enable" then
      schedule d cmdIo .performRTCBatteryEnable .performRTCCheckAvailable
    else if command.streq "disable" then
      schedule d cmdIo .performRTCBatteryDisable .performRTCCheckAvailable
    else if command.streq "status" then
      schedule d cmdIo .performRTCBatteryStatus .performRTCCheckAvailable
    else (d, [])
  | _ => (d, [])

def appCmdRTCDump (d : AppCommandData) (cmdIo : CmdIo) (argv : List Argument) : ConsoleResult :=
  if argv.length ≠ 2 then (d, [])
  else schedule d cmdIo .performRTCDump .performRTCCheckAvailable

def appCmdRTCRegister (d : AppCommandData) (cmdIo : CmdIo) (argv : List Argument) :
    ConsoleResult :=
  match argv with
  | [_, _, command, address] =>
    if command.streq "read" then
      schedule { d with rtc := d.rtc.store commandRTCAddress [toUInt8 (atoi address.val)] } cmdIo
        .performRTCRegisterRead .performRTCCheckAvailable
    else (d, [])
  | [_, _, command, address, value] =>
    if command.streq "write" then
      let rtc := d.rtc.store commandRTCAddress [toUInt8 (atoi address.val)]
      let rtc := rtc.store commandRTCRegisterValue [toUInt8 (atoi value.val)]
      schedule { d with rtc } cmdIo .performRTCRegisterWrite .performRTCCheckAvailable
    else (d, [])
  | _ => (d, [])

def appCommandRTC (d : AppCommandData) (cmdIo : CmdIo) (argv : List Argument)
    (stack : Int × Int × Int) : ConsoleResult :=
  if !appCommandCheckAvailable d then (d, [])
  else
    match argv[1]? with
    | none => (d, [])
    | some command =>
      if command.streq "oscillator" then appCmdRTCOscillator d cmdIo argv
      else if command.streq "date" then appCmdRTCDate d cmdIo argv stack
      else if command.streq "battery" then appCmdRTCBattery d cmdIo argv
      else if command.streq "dump" then appCmdRTCDump d cmdIo argv
      else if command.streq "register" then appCmdRTCRegister d cmdIo argv
      else (d, [])

/-! ## `shift_register` -/

def commandShiftRegisterSetEnabledOrDisabled (d : AppCommandData) (cmdIo : CmdIo)
    (argv : List Argument) : ConsoleResult :=
  match argv with
  | [_, command] =>
    if command.streq "enable" then
      schedule d cmdIo .performShiftRegisterSetEnabled .performShiftRegisterCheckAvailable
    else if command.streq "disable" then
      schedule d cmdIo .performShiftRegisterSetDisabled .performShiftRegisterCheckAvailable
    else (d, [])
  | _ => (d, [])

/-- The bytes of the arguments over the ones that are stored. -/
def sendData (old : Vector UInt8 shiftRegisterMaxData) (values : List Argument) :
    Vector UInt8 shiftRegisterMaxData :=
  Vector.ofFn fun i => match values[i.val]? with
    | some value => toUInt8 (atoi value.val)
    | none => old[i]

def commandShiftRegisterSendData (d : AppCommandData) (cmdIo : CmdIo) (argv : List Argument) :
    ConsoleResult :=
  if argv.length < 3 then (d, [])
  else
    let numBytes := minZz (argv.length - 2) shiftRegisterMaxData
    schedule
      { d with shiftRegister := ⟨sendData d.shiftRegister.data (argv.drop 2), numBytes⟩ } cmdIo
      .performShiftRegisterSendData .performShiftRegisterCheckAvailable

def appCommandShiftRegister (d : AppCommandData) (cmdIo : CmdIo) (argv : List Argument) :
    ConsoleResult :=
  if !appCommandCheckAvailable d then (d, [])
  else
    match argv[1]? with
    | none => (d, [])
    | some command =>
      if argv.length = 2 ∧ command.streq "enable" then
        commandShiftRegisterSetEnabledOrDisabled d cmdIo argv
      else if argv.length = 2 ∧ command.streq "disable" then
        commandShiftRegisterSetEnabledOrDisabled d cmdIo argv
      else if command.streq "send" then commandShiftRegisterSendData d cmdIo argv
      else (d, [])

/-! ## The command table -/

/-- The commands of the table `commands`. -/
inductive ConsoleCommand where
  | debug | fetch | flash | iwsecurity | nixie | ntp | phy | power | rtc | shiftRegister
  deriving DecidableEq, Repr

def commands : List (String × ConsoleCommand) :=
  [("debug", .debug), ("fetch", .fetch), ("flash", .flash), ("iwsecurity", .iwsecurity),
    ("nixie", .nixie), ("ntp", .ntp), ("phy", .phy), ("power", .power), ("rtc", .rtc),
    ("shift_register", .shiftRegister)]

/-- A line typed at the device `cmdIo`; `stack` is what uninitialized local variables hold. -/
structure ConsoleLine where
  cmdIo : CmdIo
  argv : List Argument
  stack : Int × Int × Int

/-- A line of these words. -/
def ConsoleLine.ofWords (words : List Argument) : ConsoleLine := ⟨0, words, (0, 0, 0)⟩

def nixieWord : Argument := ⟨lit "nixie", by decide +kernel⟩
def fetchWord : Argument := ⟨lit "fetch", by decide +kernel⟩
def displayWord : Argument := ⟨lit "display", by decide +kernel⟩

def runCommand (d : AppCommandData) (line : ConsoleLine) : ConsoleCommand → ConsoleResult
  | .fetch => appCommandFetch d line.cmdIo line.argv
  | .flash => appCommandFlash d line.cmdIo line.argv
  | .nixie => appCommandNixie d line.cmdIo line.argv
  | .rtc => appCommandRTC d line.cmdIo line.argv line.stack
  | .shiftRegister => appCommandShiftRegister d line.cmdIo line.argv
  | .debug | .iwsecurity | .ntp | .phy | .power => (d, [])

/-- The command whose name is the first word of the line. -/
def consoleLine (d : AppCommandData) (line : ConsoleLine) : ConsoleResult :=
  match line.argv.head? with
  | none => (d, [])
  | some name =>
    match commands.find? fun c => name.streq c.1 with
    | none => (d, [])
    | some (_, command) => runCommand d line command

end NixieTracker
