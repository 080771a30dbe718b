import NixieTracker.Lib.Machine

/-!
# The network module (`app_network.c`, `app_network_utils.c`)

One call of `APP_Network_Tasks` is a step: it takes what the TCP/IP stack and the Wi-Fi driver answer
(`NetworkAnswers`) and gives the next state and what the module does (`NetworkEvent`). The interfaces
are those of the stack's configuration (`NetworkConfig`), or any (`NetworkInterfaces`): then an
interface behind the module's arrays counts as up and nothing is kept for it.

IPv6, NBNS, mDNS and the DHCP server are not part of the configured stack, so that the code for them is
compiled out. The console messages are left out, and the Wi-Fi module's device information.
-/

namespace NixieTracker

open Lib

abbrev wifiInterfaceName : String := "MRF24W"
abbrev wifiReconnectionRetryLimit : UInt32 := 16
abbrev wifiDhcpWaitThreshold : Int := 60

/-- `TCPIP_NET_HANDLE`: the interface with this index; `NULL` is `none`. -/
abbrev NetHandle := Option Nat

/-- The names of the interfaces. -/
structure NetworkInterfaces where
  names : List String

namespace NetworkInterfaces

/-- `TCPIP_STACK_NumberOfNetworksGet`. -/
def numNets (nets : NetworkInterfaces) : Nat := nets.names.length

/-- `IS_WIFI_INTERFACE` of the name of the interface. -/
def isWifiInterface (nets : NetworkInterfaces) (net : NetHandle) : Bool :=
  net.bind (nets.names[·]?) = some wifiInterfaceName

/-- `TCPIP_STACK_NetHandleGet` of the Wi-Fi interface. -/
def wifiHandle (nets : NetworkInterfaces) : NetHandle :=
  nets.names.findIdx? (· = wifiInterfaceName)

end NetworkInterfaces

/-- The interfaces as the firmware configures them. The module supports two: `was_net_up` and `last_ip`
have no more entries. -/
structure NetworkConfig extends NetworkInterfaces where
  atMostTwo : names.length ≤ 2

instance : CoeOut NetworkConfig NetworkInterfaces := ⟨NetworkConfig.toNetworkInterfaces⟩

inductive AppNetworkState where
  | tcpipWaitInit | wifiConfig | tcpipModulesEnable | tcpipTransact | tcpipError
  deriving DecidableEq, Repr

/-- `AppNetworkData`, with the static variables of `appNetworkRun`. -/
structure AppNetworkData where
  state : AppNetworkState
  ipWait : Int
  wifiDefaultIp : UInt32
  wifiNetHandle : NetHandle
  isWifiPowerSaveConfigured : Bool
  wasNetUp : Vector Bool 2
  reconnRetries : UInt32
  startTick : UInt32
  lastIp : Vector UInt32 2
  deriving DecidableEq

/-- `SYS_STATUS`: a negative value is an error. -/
inductive SysStatus where
  | error | ready | busy
  deriving DecidableEq, Repr

/-- `IWPRIV_CONN_STATUS`; the other values are alike. -/
inductive IwprivConnStatus where
  | connectionSuccessful | connectionFailed | connectionReestablished | other
  deriving DecidableEq, Repr

/-- What the stack, the Wi-Fi driver and the timer answer during one call of `APP_Network_Tasks`. -/
structure NetworkAnswers where
  tcpipStatus : SysStatus
  /-- `driverStatus.isOpen` of `DRVSTATUS_GET`. -/
  driverIsOpen : Bool
  /-- `conn.status` of `CONNSTATUS_GET`. -/
  connStatus : IwprivConnStatus
  netIsUp : NetHandle → Bool
  netAddress : NetHandle → UInt32
  tickCount : UInt32
  /-- The count that `start_tick` is set to. -/
  startTickCount : UInt32
  tickCounterFrequency : UInt32

/-- What the module does. -/
inductive NetworkEvent where
  /-- The calls of `APP_Network_TPCIP_IfModulesEnable` and `APP_Network_TCPIP_IfModulesDisable`. -/
  | ifModulesEnable (net : NetHandle)
  | ifModulesDisable (net : NetHandle)
  | dhcpEnable (net : NetHandle)
  | dhcpDisable (net : NetHandle)
  | dnsEnable (net : NetHandle)
  | dnsDisable (net : NetHandle)
  | powersaveConfig (enable : Bool)
  | netDown (net : NetHandle)
  | netUp (net : NetHandle)
  deriving DecidableEq, Repr

/-! ## Helpers (`app_network_utils.c`) -/

/-- Spelled as in the source. -/
def appNetworkTPCIPIfModulesEnable (net : NetHandle) : List NetworkEvent :=
  [.ifModulesEnable net, .dhcpEnable net, .dnsEnable net]

def appNetworkTCPIPIfModulesDisable (nets : NetworkInterfaces) (answers : NetworkAnswers)
    (net : NetHandle) : List NetworkEvent :=
  .ifModulesDisable net ::
    (if nets.isWifiInterface net && answers.netIsUp net then [.powersaveConfig false] else []) ++
    [.dhcpDisable net, .dnsDisable net]

def appNetworkTCPIPIfaceDown (net : NetHandle) : List NetworkEvent := [.netDown net]

def appNetworkTCPIPIfaceUp (net : NetHandle) : List NetworkEvent := [.netUp net]

/-- `timestamp_dhcp_kickin`; the DHCP client is configured. -/
def timestampDhcpKickin (d : AppNetworkData) : AppNetworkData := { d with ipWait := 1 }

/-! ## The states -/

/-- The first result is false while the stack is not ready. -/
def appNetworkTCPIPInitWait (nets : NetworkInterfaces) (answers : NetworkAnswers) (d : AppNetworkData) :
    Bool × AppNetworkData :=
  match answers.tcpipStatus with
  | .error => (true, { d with state := .tcpipError })
  | .ready =>
    let hasWifi := (List.range nets.numNets).any fun i => nets.isWifiInterface (some i)
    (true, { d with state := if hasWifi then .wifiConfig else .tcpipModulesEnable })
  | .busy => (false, d)

def appNetworkWifiConfig (nets : NetworkInterfaces) (answers : NetworkAnswers) (d : AppNetworkData) :
    Bool × AppNetworkData :=
  if answers.driverIsOpen then
    (true, { d with
      wifiNetHandle := nets.wifiHandle
      wifiDefaultIp := answers.netAddress nets.wifiHandle
      state := .tcpipModulesEnable })
  else (false, d)

def appNetworkTCPIPModuleEnable (nets : NetworkInterfaces) (d : AppNetworkData) :
    AppNetworkData × List NetworkEvent :=
  ({ d with state := .tcpipTransact },
    (List.range nets.numNets).flatMap fun i => appNetworkTPCIPIfModulesEnable (some i))

/-- `was_net_up[i]`. -/
def AppNetworkData.wasUp (d : AppNetworkData) (i : Nat) : Bool := (d.wasNetUp[i]?).getD true

/-- The interface went down: its modules are disabled. -/
def followDown (nets : NetworkInterfaces) (answers : NetworkAnswers) (i : Nat) (d : AppNetworkData) :
    AppNetworkData × List NetworkEvent :=
  if !answers.netIsUp (some i) && d.wasUp i then
    ({ d with
      wasNetUp := d.wasNetUp.setIfInBounds i false
      isWifiPowerSaveConfigured :=
        if nets.isWifiInterface (some i) then false else d.isWifiPowerSaveConfigured },
      appNetworkTCPIPIfModulesDisable nets answers (some i))
  else (d, [])

/-- The interface came up: its modules are enabled. -/
def followUp (answers : NetworkAnswers) (i : Nat) (d : AppNetworkData) :
    AppNetworkData × List NetworkEvent :=
  if answers.netIsUp (some i) && !d.wasUp i then
    ({ d with wasNetUp := d.wasNetUp.setIfInBounds i true },
      appNetworkTPCIPIfModulesEnable (some i))
  else (d, [])

/-- One round of the loop over the interfaces in `appNetworkRun`. -/
def followInterface (nets : NetworkInterfaces) (answers : NetworkAnswers)
    (run : AppNetworkData × List NetworkEvent) (i : Nat) : AppNetworkData × List NetworkEvent :=
  let (d, events) := run
  let (d, down) := followDown nets answers i d
  let (d, up) := followUp answers i d
  (d, events ++ down ++ up)

/-- The new address of an interface. -/
def noteAddress (answers : NetworkAnswers) (d : AppNetworkData) (i : Nat) : AppNetworkData :=
  let address := answers.netAddress (some i)
  if d.lastIp[i]? = some address then d
  else
    { d with
      lastIp := d.lastIp.setIfInBounds i address
      ipWait := if address ≠ 0 then 0 else d.ipWait }

/-- The wait for an address. -/
def countIpWait (answers : NetworkAnswers) (d : AppNetworkData) : AppNetworkData :=
  if answers.tickCount - d.startTick ≥ answers.tickCounterFrequency / 2 then
    let ipWait := if d.ipWait = 0 then 0 else d.ipWait + 1
    { d with
      ipWait := if ipWait > wifiDhcpWaitThreshold then 0 else ipWait
      startTick := answers.startTickCount }
  else d

/-- `appNetworkRun` behind the `switch` over the connection. -/
def runInterfaces (nets : NetworkInterfaces) (answers : NetworkAnswers) (d : AppNetworkData) :
    AppNetworkData × List NetworkEvent :=
  let (d, events) := (List.range nets.numNets).foldl (followInterface nets answers) (d, [])
  let configure := !d.isWifiPowerSaveConfigured && answers.netIsUp d.wifiNetHandle &&
    answers.netAddress d.wifiNetHandle ≠ d.wifiDefaultIp
  let d := { d with isWifiPowerSaveConfigured := configure || d.isWifiPowerSaveConfigured }
  let d := (List.range nets.numNets).foldl (noteAddress answers) d
  (countIpWait answers d, events ++ if configure then [.powersaveConfig true] else [])

def appNetworkRun (nets : NetworkInterfaces) (answers : NetworkAnswers) (d : AppNetworkData) :
    AppNetworkData × List NetworkEvent :=
  match answers.connStatus with
  | .connectionSuccessful => runInterfaces nets answers { d with reconnRetries := 0 }
  | .connectionFailed =>
    let retries := d.reconnRetries
    let d := { d with reconnRetries := d.reconnRetries + 1 }
    if retries < wifiReconnectionRetryLimit then
      ({ d with isWifiPowerSaveConfigured := false, state := .wifiConfig },
        appNetworkTCPIPIfModulesDisable nets answers d.wifiNetHandle ++
          appNetworkTCPIPIfaceDown d.wifiNetHandle ++ appNetworkTCPIPIfaceUp d.wifiNetHandle)
    else runInterfaces nets answers d
  | .connectionReestablished =>
    let (d', events) :=
      runInterfaces nets answers (timestampDhcpKickin { d with isWifiPowerSaveConfigured := false })
    (d', .dhcpDisable d.wifiNetHandle :: .dhcpEnable d.wifiNetHandle :: events)
  | .other => runInterfaces nets answers d

/-! ## The public functions -/

/-- The module's memory as the program is loaded. -/
def AppNetworkData.loaded : AppNetworkData where
  state := .tcpipWaitInit
  ipWait := 0
  wifiDefaultIp := 0
  wifiNetHandle := none
  isWifiPowerSaveConfigured := false
  wasNetUp := #v[true, true]
  reconnRetries := 0
  startTick := 0
  lastIp := #v[0xffffffff, 0xffffffff]

def appNetworkInitialize (d : AppNetworkData) : AppNetworkData :=
  { d with
    state := .tcpipWaitInit
    ipWait := 0
    wifiDefaultIp := 0xffffffff
    wifiNetHandle := none }

/-- From `APP_NETWORK_TCPIP_MODULES_ENABLE` on. -/
def tasksFromModulesEnable (nets : NetworkInterfaces) (d : AppNetworkData) :
    AppNetworkData × List NetworkEvent :=
  let (d, events) := appNetworkTCPIPModuleEnable nets d
  (timestampDhcpKickin d, events)

/-- From `APP_NETWORK_WIFI_CONFIG` on: the cases fall through. -/
def tasksFromWifiConfig (nets : NetworkInterfaces) (answers : NetworkAnswers) (d : AppNetworkData) :
    AppNetworkData × List NetworkEvent :=
  match appNetworkWifiConfig nets answers d with
  | (false, d) => (d, [])
  | (true, d) => tasksFromModulesEnable nets d

def appNetworkTasks (nets : NetworkInterfaces) (answers : NetworkAnswers) (d : AppNetworkData) :
    AppNetworkData × List NetworkEvent :=
  match d.state with
  | .tcpipWaitInit =>
    match appNetworkTCPIPInitWait nets answers d with
    | (false, d) => (d, [])
    | (true, d) => tasksFromWifiConfig nets answers d
  | .wifiConfig => tasksFromWifiConfig nets answers d
  | .tcpipModulesEnable => tasksFromModulesEnable nets d
  | .tcpipTransact => appNetworkRun nets answers d
  | .tcpipError => (d, [])

def Network.machine (cfg : NetworkConfig) : Machine AppNetworkData NetworkAnswers NetworkEvent where
  step d answers := appNetworkTasks cfg answers d

/-- One call of `APP_Network_Tasks`, with the interfaces that it finds. -/
structure NetworkTick where
  nets : NetworkInterfaces
  answers : NetworkAnswers

/-- The module while the interfaces may differ from call to call. -/
def Network.polled : Machine AppNetworkData NetworkTick NetworkEvent where
  step d tick := appNetworkTasks tick.nets tick.answers d

end NixieTracker
