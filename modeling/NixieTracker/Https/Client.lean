import NixieTracker.Lib.Machine
import NixieTracker.Util.Url

/-!
# The HTTPS client (`app_https_client.c`)

One call of `APP_HTTPS_Client_Tasks` is a step: it takes the answers of the network layers
(`NetAnswers`) and gives the next state and what the client did to the outside (`ClientEvent`): calls
into the network layers and calls of the listener's callbacks. A callback is a tag of type `κ` that
says whose it is; what the listener does in it is not part of the client. `NULL` is `none`.
-/

namespace NixieTracker

open Lib

abbrev maxUrl : Nat := 128
abbrev maxUrlScheme : Nat := 6
abbrev maxUrlHost : Nat := 32
abbrev maxUrlPath : Nat := 64
abbrev httpsClientNetworkBufferSize : Nat := 256

/-- The `num_bytes` bytes at `buffer` of a `buffer_received` call; the count is a `uint16_t`. -/
abbrev Received := { bytes : List UInt8 // bytes.length < 2 ^ 16 }

/-- `AppHttpsClientCallbacks`; a callback and its `user_data` are one tag. -/
structure AppHttpsClientCallbacks (κ : Type) where
  bufferReceived : Option κ
  requestHandled : Option κ
  error : Option κ
  deriving DecidableEq, Repr

inductive AppHTTPSClientState where
  | idle | beginSequence | waitForNetwork | parseRequestUrl | processRequest | waitOnDns
  | startConnection | waitForConnection | closeConnection | waitForSslConnect | sendRequest
  | waitForResponse | error
  deriving DecidableEq, Repr

inductive AppHTTPSClientIPMode where
  | ipv4 | ipv6
  deriving DecidableEq, Repr

/-- `IP_MULTI_ADDRESS`: the member stored last. -/
inductive IpMultiAddress where
  | v4Add (bytes : List UInt8)
  | v6Add (bytes : List UInt8)
  deriving DecidableEq, Repr

/-- `NET_PRES_SKT_HANDLE_T`. -/
abbrev Socket := Int

/-- `INVALID_SOCKET`. -/
abbrev invalidSocket : Socket := -1

/-- `AppHTTPSClientData`. `afterUrl` is the memory behind the array `request_url`. -/
structure AppHTTPSClientData (κ : Type) where
  ipModeConfig : AppHTTPSClientIPMode
  state : AppHTTPSClientState
  callbacks : AppHttpsClientCallbacks κ
  requestUrl : Buf maxUrl
  afterUrl : Memory
  timeout : UInt64
  scheme : List UInt8
  host : List UInt8
  port : UInt16
  path : List UInt8
  dnsQueryIpMode : AppHTTPSClientIPMode
  ipMode : AppHTTPSClientIPMode
  ipAddress : IpMultiAddress
  socket : Socket
  networkBuffer : Buf httpsClientNetworkBufferSize

/-- The client's memory before `APP_HTTPS_Client_Initialize`, as the program is loaded. -/
def AppHTTPSClientData.zeroed (κ : Type) : AppHTTPSClientData κ where
  ipModeConfig := .ipv4
  state := .idle
  callbacks := ⟨none, none, none⟩
  requestUrl := Vector.replicate _ 0
  afterUrl := fun _ => 0
  timeout := 0
  scheme := List.replicate maxUrlScheme 0
  host := List.replicate maxUrlHost 0
  port := 0
  path := List.replicate maxUrlPath 0
  dnsQueryIpMode := .ipv4
  ipMode := .ipv4
  ipAddress := .v4Add [0, 0, 0, 0]
  socket := 0
  networkBuffer := Vector.replicate _ 0

/-- The result of `TCPIP_DNS_IsResolved`, with the address that it stores. -/
inductive DnsIsResolved where
  | pending
  | ok (address : List UInt8)
  | failed
  deriving DecidableEq, Repr

/-- What the network layers answer during one call of `APP_HTTPS_Client_Tasks`. -/
structure NetAnswers where
  systemCount : UInt64
  systemFrequency : UInt64
  /-- `TCPIP_Helper_StringToIPAddress`, `TCPIP_Helper_StringToIPv6Address`. -/
  stringToIPAddress : List UInt8 → Option (List UInt8)
  stringToIPv6Address : List UInt8 → Option (List UInt8)
  /-- `TCPIP_DNS_Resolve`: a `TCPIP_DNS_RESULT`. -/
  dnsResolve : List UInt8 → AppHTTPSClientIPMode → Int
  dnsIsResolved : List UInt8 → AppHTTPSClientIPMode → DnsIsResolved
  socketOpen : AppHTTPSClientIPMode → UInt16 → IpMultiAddress → Socket
  socketIsConnected : Socket → Bool
  socketEncryptSocket : Socket → Bool
  socketIsNegotiatingEncryption : Socket → Bool
  socketIsSecure : Socket → Bool
  socketWriteIsReady : Socket → Bool
  socketWrite : Socket → List UInt8 → UInt16
  socketReadIsReady : Socket → Bool
  socketWasReset : Socket → Bool
  socketRead : Socket → List UInt8

/-- A network that takes every host for the address `127.0.0.1`, connects at once and sends nothing
back. -/
def NetAnswers.direct (encrypts : Bool) : NetAnswers where
  systemCount := 0
  systemFrequency := 0
  stringToIPAddress _ := some [127, 0, 0, 1]
  stringToIPv6Address _ := none
  dnsResolve _ _ := -1
  dnsIsResolved _ _ := .failed
  socketOpen _ _ _ := 1
  socketIsConnected _ := true
  socketEncryptSocket _ := encrypts
  socketIsNegotiatingEncryption _ := false
  socketIsSecure _ := encrypts
  socketWriteIsReady _ := true
  socketWrite _ bytes := UInt16.ofNat bytes.length
  socketReadIsReady _ := false
  socketWasReset _ := true
  socketRead _ := []

/-- What the client does to the outside. -/
inductive ClientEvent (κ : Type) where
  | dnsResolve (host : List UInt8) (type : AppHTTPSClientIPMode)
  | socketOpen (type : AppHTTPSClientIPMode) (port : UInt16) (address : IpMultiAddress)
      (socket : Socket)
  | socketEncryptSocket (socket : Socket)
  | socketWrite (socket : Socket) (bytes : List UInt8)
  | socketRead (socket : Socket)
  | socketClose (socket : Socket)
  | bufferReceived (callback : κ) (bytes : Received)
  | requestHandled (callback : κ)
  | error (callback : κ)

section Client

variable {κ : Type}

def enterErrorState (d : AppHTTPSClientData κ) : AppHTTPSClientData κ := { d with state := .error }

/-- `checkNetworkIsAvailable` is a stub in the source. -/
def checkNetworkIsAvailable (_ : AppHTTPSClientData κ) : Bool := true

def waitForNetworkAvailable (net : NetAnswers) (d : AppHTTPSClientData κ) : AppHTTPSClientData κ :=
  if checkNetworkIsAvailable d then { d with state := .parseRequestUrl }
  else if net.systemCount > d.timeout then enterErrorState d
  else d

/-- The request URL as a string in memory. -/
def AppHTTPSClientData.url (d : AppHTTPSClientData κ) : CString where
  chars := cstr d.requestUrl.toList
  nulFree := zero_not_mem_cstr _
  fits := by
    have h := (List.takeWhile_prefix (l := d.requestUrl.toList) (· ≠ 0)).length_le
    have : maxUrl = 128 := rfl
    rw [Vector.length_toList] at h
    unfold cstr
    omega
  past i :=
    let j := (cstr d.requestUrl.toList).length + 1 + i
    (d.requestUrl[j]?).getD (d.afterUrl (j - maxUrl))

/-- The parts that the client asks for. -/
def AppHTTPSClientData.urlParts (d : AppHTTPSClientData κ) : UrlParts where
  scheme := some d.scheme
  user := none
  password := none
  host := some d.host
  port := some d.port
  path := none
  query := none
  fragment := none
  pathSuffix := some d.path

def clientUrlSizes : UrlSizes where
  maxScheme := maxUrlScheme
  maxUser := 0
  maxPassword := 0
  maxHost := maxUrlHost
  maxPath := 0
  maxQuery := 0
  maxFragment := 0
  maxPathSuffix := maxUrlPath

/-- Spelled as in the source. -/
def pasreRequestURL (d : AppHTTPSClientData κ) : AppHTTPSClientData κ :=
  let (parsed, out) := urlParseGetParts d.url clientUrlSizes d.urlParts
  let d := { d with
    scheme := out.scheme.getD d.scheme
    host := out.host.getD d.host
    port := out.port.getD d.port
    path := out.pathSuffix.getD d.path }
  if !parsed then enterErrorState d else { d with state := .processRequest }

def processRequest (net : NetAnswers) (d : AppHTTPSClientData κ) :
    AppHTTPSClientData κ × List (ClientEvent κ) :=
  match net.stringToIPAddress (cstr d.host) with
  | some address =>
    ({ d with ipAddress := .v4Add address, ipMode := .ipv4, state := .startConnection }, [])
  | none =>
    match net.stringToIPv6Address (cstr d.host) with
    | some address =>
      ({ d with ipAddress := .v6Add address, ipMode := .ipv6, state := .startConnection }, [])
    | none =>
      let result := net.dnsResolve (cstr d.host) d.ipModeConfig
      let d := { d with dnsQueryIpMode := d.ipModeConfig }
      (if result ≥ 0 then { d with state := .waitOnDns } else enterErrorState d,
        [.dnsResolve (cstr d.host) d.ipModeConfig])

def checkDNSResolveStatus (net : NetAnswers) (d : AppHTTPSClientData κ) :
    AppHTTPSClientData κ × List (ClientEvent κ) :=
  match net.dnsIsResolved (cstr d.host) d.dnsQueryIpMode with
  | .pending => (d, [])
  | .ok address =>
    ({ d with
      ipAddress := match d.dnsQueryIpMode with
        | .ipv4 => .v4Add address
        | .ipv6 => .v6Add address
      ipMode := d.dnsQueryIpMode
      state := .startConnection }, [])
  | .failed =>
    if d.dnsQueryIpMode = .ipv6 then
      let result := net.dnsResolve (cstr d.host) .ipv4
      (if result ≥ 0 then { d with state := .waitOnDns } else enterErrorState d,
        [.dnsResolve (cstr d.host) .ipv4])
    else (enterErrorState d, [])

def startNetworkConnection (net : NetAnswers) (d : AppHTTPSClientData κ) :
    AppHTTPSClientData κ × List (ClientEvent κ) :=
  let socket := net.socketOpen d.ipMode d.port d.ipAddress
  let d := { d with socket }
  (if socket = invalidSocket then enterErrorState d else { d with state := .waitForConnection },
    [.socketOpen d.ipMode d.port d.ipAddress socket])

/-- `STREQ_LEN(data->request_url, "https://", 8)`. -/
def AppHTTPSClientData.wantsEncryption (d : AppHTTPSClientData κ) : Bool :=
  streqLen d.url.mem 0 (litMem "https://") 0 8

def waitNetworkConnection (net : NetAnswers) (d : AppHTTPSClientData κ) :
    AppHTTPSClientData κ × List (ClientEvent κ) :=
  if !net.socketIsConnected d.socket then (d, [])
  else if d.wantsEncryption then
    (if !net.socketEncryptSocket d.socket then { d with state := .closeConnection }
      else { d with state := .waitForSslConnect },
      [.socketEncryptSocket d.socket])
  else ({ d with state := .sendRequest }, [])

def closeNetworkConnection (d : AppHTTPSClientData κ) :
    AppHTTPSClientData κ × List (ClientEvent κ) :=
  ({ d with state := .idle }, [.socketClose d.socket])

def waitForSSLConnect (net : NetAnswers) (d : AppHTTPSClientData κ) :
    AppHTTPSClientData κ × List (ClientEvent κ) :=
  if net.socketIsNegotiatingEncryption d.socket then (d, [])
  else if !net.socketIsSecure d.socket then (enterErrorState d, [.socketClose d.socket])
  else ({ d with state := .sendRequest }, [])

/-- The text of the request. -/
def AppHTTPSClientData.requestText (d : AppHTTPSClientData κ) : List UInt8 :=
  lit "GET " ++ cstr d.path ++ lit " HTTP/1.1\r\n" ++ lit "Host: " ++ cstr d.host ++ lit "\r\n" ++
    lit "Connection: close\r\n\r\n"

def sendRequest (net : NetAnswers) (d : AppHTTPSClientData κ) :
    AppHTTPSClientData κ × List (ClientEvent κ) :=
  if !net.socketWriteIsReady d.socket then (d, [])
  else
    -- `safe_snprintf` returns the length of the whole text and cuts what it writes.
    let len := UInt16.ofNat d.requestText.length
    let d := { d with
      networkBuffer := d.networkBuffer.write 0
        (d.requestText.take (httpsClientNetworkBufferSize - 1) ++ [0]) }
    let bytes := cstr d.networkBuffer.toList
    let numBytesWritten := net.socketWrite d.socket bytes
    (if numBytesWritten ≠ len then enterErrorState d else { d with state := .waitForResponse },
      [.socketWrite d.socket bytes])

/-- `NET_PRES_SocketRead` fills at most the network buffer. -/
def receive (net : NetAnswers) (d : AppHTTPSClientData κ) : Received :=
  ⟨(net.socketRead d.socket).take httpsClientNetworkBufferSize, by
    have := List.length_take_le httpsClientNetworkBufferSize (net.socketRead d.socket)
    have : httpsClientNetworkBufferSize = 256 := rfl
    omega⟩

def waitForResponse (net : NetAnswers) (d : AppHTTPSClientData κ) :
    AppHTTPSClientData κ × List (ClientEvent κ) :=
  if !net.socketReadIsReady d.socket then
    if net.socketWasReset d.socket then
      ({ d with state := .closeConnection },
        (d.callbacks.requestHandled.map ClientEvent.requestHandled).toList)
    else (d, [])
  else
    let bytes := receive net d
    ({ d with networkBuffer := d.networkBuffer.write 0 bytes.val },
      .socketRead d.socket ::
        (d.callbacks.bufferReceived.map fun k => ClientEvent.bufferReceived k bytes).toList)

def handleError (d : AppHTTPSClientData κ) : AppHTTPSClientData κ × List (ClientEvent κ) :=
  ({ d with state := .idle }, (d.callbacks.error.map ClientEvent.error).toList)

def appHttpsClientInitialize (d : AppHTTPSClientData κ) : AppHTTPSClientData κ :=
  { d with state := .idle, ipModeConfig := .ipv4 }

def appHttpsClientTasks (net : NetAnswers) (d : AppHTTPSClientData κ) :
    AppHTTPSClientData κ × List (ClientEvent κ) :=
  match d.state with
  | .idle => (d, [])
  | .beginSequence =>
    ({ d with state := .waitForNetwork, timeout := net.systemCount + net.systemFrequency }, [])
  | .waitForNetwork => (waitForNetworkAvailable net d, [])
  | .parseRequestUrl => (pasreRequestURL d, [])
  | .processRequest => processRequest net d
  | .waitOnDns => checkDNSResolveStatus net d
  | .startConnection => startNetworkConnection net d
  | .waitForConnection => waitNetworkConnection net d
  | .closeConnection => closeNetworkConnection d
  | .waitForSslConnect => waitForSSLConnect net d
  | .sendRequest => sendRequest net d
  | .waitForResponse => waitForResponse net d
  | .error => handleError d

def appHttpsClientIsBusy (d : AppHTTPSClientData κ) : Bool := d.state ≠ .idle

/-- `APP_HTTPS_Client_Request`; `url` holds the characters of the C string. -/
def appHttpsClientRequest (d : AppHTTPSClientData κ) (url : List UInt8)
    (callbacks : AppHttpsClientCallbacks κ) : Bool × AppHTTPSClientData κ :=
  if appHttpsClientIsBusy d then (false, d)
  else
    (true, { d with
      requestUrl := safeStrncpy d.requestUrl url maxUrl
      callbacks
      state := .beginSequence })

end Client

end NixieTracker
