import NixieTracker.App.Command
import NixieTracker.Lib.Query
import NixieTracker.Util.Url

/-!
# What the console commands read (`app_command_*.c`)

All registered commands as computations that read their `argv`, entry by entry. An entry is the C
string it points to; behind the entry `argc - 1` the memory may hold anything.

* `Argv.appCommand`: the handlers. `argc` is checked where the source checks it, and `&&` and `else if`
  read their `argv` only if they come to it.
* `iwSecuritySet*`, `Argv.appCommandIwSecurity`: the keys of the Wi-Fi security modes and the context
  that is handed to the driver.

The texts that are printed are left out.
-/

namespace NixieTracker

open Lib

/-! ## The argument vector -/

/-- `argc` and `argv` of a line: the strings that were given, and what `argv` holds behind them. -/
structure Arguments where
  given : List CString
  nonempty : given ≠ []
  behind : Nat → CString

namespace Arguments

variable (a : Arguments)

def argc : Nat := a.given.length

def argv (i : Nat) : CString := (a.given[i]?).getD (a.behind (i - a.given.length))

end Arguments

/-- The characters alone. -/
def CString.argument (s : CString) : Argument := ⟨s.chars, s.nulFree⟩

/-- A computation that reads `argv`. -/
abbrev ArgvQuery (α : Type) := Query Nat CString α

/-- `argv[i]`. -/
abbrev arg (i : Nat) : ArgvQuery CString := Query.entry i

/-- `STREQ(argv[i], t)`. -/
def argStreq (i : Nat) (t : String) : ArgvQuery Bool := do
  let s ← arg i
  return s.argument.streq t

/-- `c && STREQ(argv[i], t)`. -/
def andStreq (c : Bool) (i : Nat) (t : String) : ArgvQuery Bool :=
  if c then argStreq i t else return false

/-! ## Wi-Fi security -/

/-- The values of `wepSecurityType`. -/
inductive WepSecurityType where
  | wep40 | wep104 | wpaWithPassPhrase | wpa2WithPassPhrase | wpsPin
  deriving DecidableEq, Repr

/-- What the commands set of `DRV_WIFI_WEP_CONTEXT`. The size of its array `wepKey` is the Wi-Fi
driver's. -/
structure WepContext where
  capacity : Nat
  wepSecurityType : WepSecurityType
  wepKeyLength : Nat
  wepKey : Buf capacity

/-- The assignments to the context and the `memcpy` of the key. -/
def WepContext.setKey (context : WepContext) (type : WepSecurityType) (key : CString)
    (len : UInt16) : WepContext where
  capacity := context.capacity
  wepSecurityType := type
  wepKeyLength := len.toNat
  wepKey := context.wepKey.write 0 (key.mem.load 0 len.toNat)

/-- What a line does outside `AppCommandData`. -/
inductive CommandEvent where
  | console (e : ConsoleEvent)
  /-- `APP_HTTPS_Client_SetWolfSSLDebug`. -/
  | setWolfSSLDebug (enabled : Bool)
  /-- `DRV_WIFI_SecurityOpenSet`. -/
  | securityOpenSet
  /-- `DRV_WIFI_SecurityWepSet`. -/
  | securityWepSet (context : WepContext)
  /-- `APP_Network_PHY_Up` and `APP_Network_PHY_Down`. -/
  | phyUp
  | phyDown
  /-- `APP_Power_Enable` of the high voltage supply. -/
  | powerEnable (enabled : Bool)

def iwSecuritySetWEP (context : WepContext) (key : CString) (len : UInt16) : List CommandEvent :=
  if len = 10 then [.securityWepSet (context.setKey .wep40 key len)]
  else if len = 26 then [.securityWepSet (context.setKey .wep104 key len)]
  else []

/-- `IwSecurity_Set_WPA` and `IwSecurity_Set_WPA2` differ in the type. -/
def iwSecuritySetPassPhrase (type : WepSecurityType) (context : WepContext) (key : CString)
    (len : UInt16) : List CommandEvent :=
  if 8 ≤ len ∧ len ≤ 63 then [.securityWepSet (context.setKey type key len)] else []

def iwSecuritySetWPA := iwSecuritySetPassPhrase .wpaWithPassPhrase

def iwSecuritySetWPA2 := iwSecuritySetPassPhrase .wpa2WithPassPhrase

def iwSecuritySetWPSPIN (context : WepContext) (key : CString) (len : UInt16) :
    List CommandEvent :=
  if len = 8 then [.securityWepSet (context.setKey .wpsPin key len)] else []

/-! ## The handlers -/

/-- The value a handler returns, the data it leaves, and what it does besides. -/
structure CommandOutcome where
  returned : Bool
  data : AppCommandData
  events : List CommandEvent

/-- A line that prints something. -/
def CommandOutcome.printed (d : AppCommandData) : CommandOutcome := ⟨true, d, []⟩

/-- A line that returns true, with its result. -/
def CommandOutcome.ofResult (r : ConsoleResult) : CommandOutcome := ⟨true, r.1, r.2.map .console⟩

/-- Which parts of the debug commands are compiled. -/
structure DebugBuild where
  sysDebugEnable : Bool
  debugWolfSSL : Bool

/-- What the local variables of the handlers hold before they are assigned. -/
structure CommandLocals where
  stack : Int × Int × Int
  context : WepContext

namespace Argv

section Handlers

variable (d : AppCommandData) (cmdIo : CmdIo) (argc : Nat)

/-- The usage of a command prints its name. -/
def appCmdUsage : ArgvQuery CommandOutcome := do
  let _argv0 ← arg 0
  return .printed d

/-- The rest of a handler: the command of the table with the name `argv[1]`. -/
def dispatch : List (String × ArgvQuery CommandOutcome) → ArgvQuery CommandOutcome
  | [] => appCmdUsage d
  | (name, command) :: table => do
    if ← argStreq 1 name then command else dispatch table

/-- A handler that selects a command by `argv[1]`, when no other command is busy. -/
def appCommandOf (table : List (String × ArgvQuery CommandOutcome)) :
    ArgvQuery CommandOutcome :=
  if !appCommandCheckAvailable d then return .printed d
  else if argc = 1 then appCmdUsage d
  else dispatch d table

/-- A command without arguments that schedules a task. -/
def appCmdSchedule (callback : AppCommandTaskCallback)
    (checkAvailable : AppCommandTaskCheckAvailableCallback) : ArgvQuery CommandOutcome :=
  if argc ≠ 2 then appCmdUsage d
  else return .ofResult (schedule d cmdIo callback checkAvailable)

/-! ### `debug` -/

def appCmdDebugWolfSSL (build : DebugBuild) : ArgvQuery CommandOutcome := do
  if build.debugWolfSSL then
    if argc ≠ 3 then appCmdUsage d
    else if ← argStreq 2 "enable" then return ⟨true, d, [.setWolfSSLDebug true]⟩
    else if ← argStreq 2 "disable" then return ⟨true, d, [.setWolfSSLDebug false]⟩
    else appCmdUsage d
  else return .printed d

def appCommandDebug (build : DebugBuild) : ArgvQuery CommandOutcome :=
  if build.sysDebugEnable then appCommandOf d argc [("wolfssl", appCmdDebugWolfSSL d argc build)]
  else return .printed d

/-! ### `fetch` -/

def appCmdFetch : ArgvQuery CommandOutcome := do
  if argc ≠ 2 then appCmdUsage d
  else
    let url ← arg 1
    return .ofResult (schedule
      { d with fetch := { d.fetch with url := safeStrncpy d.fetch.url url.chars maxUrl } } cmdIo
      .performFetch .performFetchCheckAvailable)

def appCommandFetch : ArgvQuery CommandOutcome :=
  if !appCommandCheckAvailable d then return .printed d
  else if argc = 1 then appCmdUsage d
  else appCmdFetch d cmdIo argc

/-! ### `flash` -/

def appCmdFlashSectors := appCmdSchedule d cmdIo argc .performFlashSectors .performFlashCheckAvailable

def appCmdFlashFormat := appCmdSchedule d cmdIo argc .performFlashFormat .performFlashCheckAvailable

def appCommandFlash : ArgvQuery CommandOutcome :=
  appCommandOf d argc
    [("sectors", appCmdFlashSectors d cmdIo argc), ("format", appCmdFlashFormat d cmdIo argc)]

/-! ### `iwsecurity` -/

/-- A mode with a key: the length of `argv[2]` is checked, and `argv[key]` is set. -/
def iwSecurityMode (length : Nat → Bool) (key : Nat)
    (set : CString → UInt16 → List CommandEvent) : ArgvQuery CommandOutcome := do
  let len := (← arg 2).chars.length
  if !length len then return ⟨false, d, []⟩
  else
    let key ← arg key
    return ⟨true, d, set key (UInt16.ofNat len)⟩

def appCommandIwSecurity (context : WepContext) : ArgvQuery CommandOutcome := do
  if ← andStreq (argc = 2) 1 "open" then return ⟨true, d, [.securityOpenSet]⟩
  else if ← andStreq (3 = argc) 1 "wep40" then
    iwSecurityMode d (fun len => len = 10) 2 (iwSecuritySetWEP context)
  else if ← andStreq (argc = 3) 1 "wep104" then
    iwSecurityMode d (fun len => len = 26) 2 (iwSecuritySetWEP context)
  else if ← andStreq (argc = 3) 1 "wpa" then
    iwSecurityMode d (fun len => !(len < 8 || len > 63)) 2 (iwSecuritySetWPA context)
  else if ← andStreq (argc = 3) 1 "wpa2" then
    iwSecurityMode d (fun len => !(len < 8 || len > 63)) 2 (iwSecuritySetWPA2 context)
  else if ← andStreq (argc = 3) 1 "pin" then
    iwSecurityMode d (fun len => len = 8) 3 (iwSecuritySetWPSPIN context)
  else return ⟨false, d, []⟩

/-! ### `nixie` -/

def appCmdNixieDisplay : ArgvQuery CommandOutcome := do
  if argc ≠ 3 then appCmdUsage d
  else
    let value ← arg 2
    return .ofResult (schedule
      { d with
        nixie := ⟨d.nixie.privateData.write 0 (displayArgument value.argument).toList⟩ } cmdIo
      .performNixieDisplay .performNixieCheckAvailable)

def appCmdNixiePeriodic : ArgvQuery CommandOutcome := do
  if argc = 2 then return .printed d
  else if argc ≠ 3 then appCmdUsage d
  else if ← argStreq 2 "enable" then return .ofResult (d, [.periodicTasksSetEnabled true])
  else if ← argStreq 2 "disable" then return .ofResult (d, [.periodicTasksSetEnabled false])
  else appCmdUsage d

def appCmdNixieFetch := appCmdSchedule d cmdIo argc .performNixieFetch .performNixieCheckAvailable

def appCommandNixie : ArgvQuery CommandOutcome :=
  appCommandOf d argc
    [("display", appCmdNixieDisplay d cmdIo argc), ("periodic", appCmdNixiePeriodic d argc),
      ("fetch", appCmdNixieFetch d cmdIo argc)]

/-! ### `ntp` -/

def appCmdNTPSeconds : ArgvQuery CommandOutcome :=
  if argc ≠ 2 then appCmdUsage d else return .printed d

/-- This handler does not ask whether another command is busy. -/
def appCommandNTP : ArgvQuery CommandOutcome :=
  if argc = 1 then appCmdUsage d else dispatch d [("seconds", appCmdNTPSeconds d argc)]

/-! ### `phy` -/

def appCommandPhy : ArgvQuery CommandOutcome :=
  appCommandOf d argc
    [("up", return ⟨true, d, [.phyUp]⟩), ("down", return ⟨true, d, [.phyDown]⟩)]

/-! ### `power` -/

def appCmdPowerHV : ArgvQuery CommandOutcome := do
  if argc ≠ 3 then appCmdUsage d
  else if ← argStreq 2 "enable" then return ⟨true, d, [.powerEnable true]⟩
  else if ← argStreq 2 "disable" then return ⟨true, d, [.powerEnable false]⟩
  else appCmdUsage d

def appCommandPower : ArgvQuery CommandOutcome :=
  appCommandOf d argc [("hv", appCmdPowerHV d argc)]

/-! ### `rtc` -/

def appCmdRTCOscillator : ArgvQuery CommandOutcome := do
  if argc ≠ 3 then appCmdUsage d
  else if ← argStreq 2 "start" then
    return .ofResult (schedule d cmdIo .performRTCOscillatorStart .performRTCCheckAvailable)
  else if ← argStreq 2 "stop" then
    return .ofResult (schedule d cmdIo .performRTCOscillatorStop .performRTCCheckAvailable)
  else if ← argStreq 2 "status" then
    return .ofResult (schedule d cmdIo .performRTCOscillatorStatus .performRTCCheckAvailable)
  else appCmdUsage d

def dateDecode (stack : Int × Int × Int) : ArgvQuery (Option RtcDateTime) := do
  let dayOfWeekName ← arg 2
  let day ← arg 3
  let monthName ← arg 4
  let year ← arg 5
  let time ← arg 6
  return NixieTracker.dateDecode dayOfWeekName.argument day.argument monthName.argument
    year.argument time.argument stack

def appCmdRTCDate (stack : Int × Int × Int) : ArgvQuery CommandOutcome := do
  if argc = 2 then
    return .ofResult (schedule d cmdIo .performRTCDateShow .performRTCCheckAvailable)
  else if argc = 7 then
    match ← dateDecode stack with
    | some dateTime =>
      return .ofResult (schedule { d with rtc := d.rtc.store commandRTCAddress dateTime.bytes } cmdIo
        .performRTCDateSet .performRTCCheckAvailable)
    | none => return .printed d
  else appCmdUsage d

def appCmdRTCBattery : ArgvQuery CommandOutcome := do
  if argc ≠ 3 then appCmdUsage d
  else if ← argStreq 2 "enable" then
    return .ofResult (schedule d cmdIo .performRTCBatteryEnable .performRTCCheckAvailable)
  else if ← argStreq 2 "disable" then
    return .ofResult (schedule d cmdIo .performRTCBatteryDisable .performRTCCheckAvailable)
  else if ← argStreq 2 "status" then
    return .ofResult (schedule d cmdIo .performRTCBatteryStatus .performRTCCheckAvailable)
  else appCmdUsage d

def appCmdRTCDump := appCmdSchedule d cmdIo argc .performRTCDump .performRTCCheckAvailable

def appCmdRTCRegister : ArgvQuery CommandOutcome := do
  if argc < 4 then appCmdUsage d
  else if ← andStreq (argc = 4) 2 "read" then
    let address ← arg 3
    return .ofResult (schedule
      { d with rtc := d.rtc.store commandRTCAddress [toUInt8 (atoi address.chars)] } cmdIo
      .performRTCRegisterRead .performRTCCheckAvailable)
  else if ← andStreq (argc = 5) 2 "write" then
    let address ← arg 3
    let rtc := d.rtc.store commandRTCAddress [toUInt8 (atoi address.chars)]
    let value ← arg 4
    let rtc := rtc.store commandRTCRegisterValue [toUInt8 (atoi value.chars)]
    return .ofResult (schedule { d with rtc } cmdIo .performRTCRegisterWrite
      .performRTCCheckAvailable)
  else appCmdUsage d

def appCommandRTC (stack : Int × Int × Int) : ArgvQuery CommandOutcome :=
  appCommandOf d argc
    [("oscillator", appCmdRTCOscillator d cmdIo argc), ("date", appCmdRTCDate d cmdIo argc stack),
      ("battery", appCmdRTCBattery d cmdIo argc), ("dump", appCmdRTCDump d cmdIo argc),
      ("register", appCmdRTCRegister d cmdIo argc)]

/-! ### `shift_register` -/

def commandShiftRegisterSetEnabledOrDisabled : ArgvQuery CommandOutcome := do
  if argc ≠ 2 then appCmdUsage d
  else if ← argStreq 1 "enable" then
    return .ofResult (schedule d cmdIo .performShiftRegisterSetEnabled
      .performShiftRegisterCheckAvailable)
  else if ← argStreq 1 "disable" then
    return .ofResult (schedule d cmdIo .performShiftRegisterSetDisabled
      .performShiftRegisterCheckAvailable)
  else appCmdUsage d

/-- The loop over `data`, from the byte `i` on; `n` bytes are left. -/
def sendDataLoop (data : Vector UInt8 shiftRegisterMaxData) (i : Nat) :
    Nat → ArgvQuery (Vector UInt8 shiftRegisterMaxData)
  | 0 => return data
  | n + 1 => do
    let value ← arg (i + 2)
    sendDataLoop (data.setIfInBounds i (toUInt8 (atoi value.chars))) (i + 1) n

def commandShiftRegisterSendData : ArgvQuery CommandOutcome := do
  if argc < 3 then appCmdUsage d
  else
    let numBytes := minZz (argc - 2) shiftRegisterMaxData
    let data ← sendDataLoop d.shiftRegister.data 0 numBytes
    return .ofResult (schedule { d with shiftRegister := ⟨data, numBytes⟩ } cmdIo
      .performShiftRegisterSendData .performShiftRegisterCheckAvailable)

def appCommandShiftRegister : ArgvQuery CommandOutcome := do
  if !appCommandCheckAvailable d then return .printed d
  else if argc = 1 then appCmdUsage d
  else if ← andStreq (argc = 2) 1 "enable" then
    commandShiftRegisterSetEnabledOrDisabled d cmdIo argc
  else if ← andStreq (argc = 2) 1 "disable" then
    commandShiftRegisterSetEnabledOrDisabled d cmdIo argc
  else if ← andStreq (argc ≥ 2) 1 "send" then commandShiftRegisterSendData d cmdIo argc
  else appCmdUsage d

/-- The handlers of the table `commands`. -/
def appCommand (build : DebugBuild) (locals : CommandLocals) :
    ConsoleCommand → ArgvQuery CommandOutcome
  | .debug => appCommandDebug d argc build
  | .fetch => appCommandFetch d cmdIo argc
  | .flash => appCommandFlash d cmdIo argc
  | .iwsecurity => appCommandIwSecurity d argc locals.context
  | .nixie => appCommandNixie d cmdIo argc
  | .ntp => appCommandNTP d argc
  | .phy => appCommandPhy d argc
  | .power => appCommandPower d argc
  | .rtc => appCommandRTC d cmdIo argc locals.stack
  | .shiftRegister => appCommandShiftRegister d cmdIo argc

end Handlers

end Argv

end NixieTracker
