import NixieTracker.Https.Completion
import NixieTracker.Util.UrlSplit

/-!
# What a request takes over from earlier ones

Two clients with different histories that accept the same URL.

* `Determined`: the text of the URL determines host and port.
* `pasreRequestURL_cases`: the client after parsing, in terms of the pieces of the URL.
* `Alike`: what the two clients have in common while they serve the request; `alike_step`.
* `request_independent_iff`: both contact the same hosts in the same way, whatever their histories,
  if and only if the URL is determined; the parser assigns all its outputs in the same cases.
-/

namespace NixieTracker

open Lib

/-! ## Determined URLs -/

/-- The URL as the client keeps it. -/
def keptUrl (url : List UInt8) : List UInt8 := cstr (url.take (maxUrl - 1))

/-- `host[:port]` of an authority, given what is behind the first colon of the URL. -/
def hostAndPort (rest : List UInt8) : List UInt8 := (splitAt (upTo (lit "/?#") (rest.drop 2))).2

/-- The text of the URL decides where it leads: it has no colon and is rejected, or it has an authority
of three characters or more (with what is behind it) and a port, its own or that of the scheme. -/
def Determined (url : List UInt8) : Prop :=
  match onFrom [58] url with
  | [] => True
  | _ :: rest => 5 ≤ rest.length ∧ rest.take 2 = lit "//" ∧
      (url.take 4 = lit "http" ∨ 58 ∈ hostAndPort rest)

instance (url : List UInt8) : Decidable (Determined url) := by
  unfold Determined
  split <;> infer_instance

theorem onFrom_eq_nil_iff {c : UInt8} {s : List UInt8} : onFrom [c] s = [] ↔ c ∉ s := by
  unfold onFrom
  rw [List.dropWhile_eq_nil_iff]
  constructor
  · intro h hm
    simpa using h c hm
  · intro h b hb
    have : b ≠ c := fun he => h (he ▸ hb)
    simpa using this

theorem schemePort_isSome {url : List UInt8} :
    (schemePort url).isSome ↔ url.take 4 = lit "http" := by
  unfold schemePort
  split
  · rename_i h
    have h4 : url.take 4 = lit "http" := by
      have := congrArg (List.take 4) h
      rwa [List.take_take] at this
    simpa using h4
  · split
    · rename_i h
      simpa using h
    · rename_i h
      simpa using h

theorem splitUrl_of_authority {url rest : List UInt8} (hon : onFrom [58] url = 58 :: rest)
    (hauth : 5 ≤ rest.length ∧ rest.take 2 = lit "//") :
    ∃ pieces, splitUrl url = some pieces ∧ pieces.host.isSome ∧
      (pieces.port.isSome ↔ url.take 4 = lit "http" ∨ 58 ∈ hostAndPort rest) := by
  have hport : (splitHostAndPort (hostAndPort rest) (onFrom (lit "/?#") (rest.drop 2))
      (schemePort url)).2.isSome ↔ url.take 4 = lit "http" ∨ 58 ∈ hostAndPort rest := by
    unfold splitHostAndPort
    dsimp only
    split
    · rename_i h
      rw [schemePort_isSome]
      exact ⟨.inl, fun h' => h'.resolve_right (onFrom_eq_nil_iff.mp h)⟩
    · rename_i h
      exact ⟨fun _ => .inr (not_not.mp fun hn => h (onFrom_eq_nil_iff.mpr hn)), fun _ => rfl⟩
  unfold splitUrl
  rw [hon]
  dsimp only
  rw [if_pos hauth]
  refine ⟨_, rfl, ?_⟩
  by_cases htail : onFrom (lit "/?#") (rest.drop 2) = []
  · rw [if_pos htail]
    exact ⟨rfl, hport⟩
  · rw [if_neg htail]
    exact ⟨rfl, hport⟩

/-- The pieces of a determined URL, and what is missing in those of any other. -/
theorem determined_cases (url : List UInt8) :
    (Determined url ∧ splitUrl url = none) ∨
    ∃ pieces, splitUrl url = some pieces ∧
      (Determined url ↔ pieces.host.isSome ∧ pieces.port.isSome) := by
  by_cases hnil : onFrom [58] url = []
  · refine .inl ⟨?_, ?_⟩
    · unfold Determined
      rw [hnil]
      trivial
    · unfold splitUrl
      rw [hnil]
  · obtain ⟨rest, -, hon⟩ := splitUrl_scheme hnil
    have hdet : Determined url ↔ 5 ≤ rest.length ∧ rest.take 2 = lit "//" ∧
        (url.take 4 = lit "http" ∨ 58 ∈ hostAndPort rest) := by
      unfold Determined
      rw [hon]
    by_cases hauth : 5 ≤ rest.length ∧ rest.take 2 = lit "//"
    · obtain ⟨pieces, heq, hhost, hport⟩ := splitUrl_of_authority hon hauth
      refine .inr ⟨pieces, heq, hdet.trans ?_⟩
      rw [hport]
      exact ⟨fun h => ⟨hhost, h.2.2⟩, fun h => ⟨hauth.1, hauth.2, h.2⟩⟩
    · obtain ⟨pieces, heq, hhost⟩ := splitUrl_of_path hon hauth
      refine .inr ⟨pieces, heq, hdet.trans ?_⟩
      rw [hhost]
      exact ⟨fun h => absurd ⟨h.1, h.2.1⟩ hauth, fun h => absurd h.1 (by simp)⟩

/-! ## The client after parsing -/

namespace HttpsClient

variable {κ : Type}

/-- What parsing stores: a host or a port that is not in the URL stays. -/
structure Parsed (pieces : UrlPieces) (d d' : AppHTTPSClientData κ) : Prop where
  scheme : cstr d'.scheme = pieces.scheme.take (maxUrlScheme - 1)
  host : ∀ s ∈ pieces.host, cstr d'.host = s.take (maxUrlHost - 1)
  noHost : pieces.host = none → d'.host = d.host
  port : d'.port = pieces.port.getD d.port
  path : cstr d'.path = pieces.pathSuffix.take (maxUrlPath - 1)
  rest : d' = { d with
    scheme := d'.scheme
    host := d'.host
    port := d'.port
    path := d'.path
    state := .processRequest }

theorem urlParts_parsed {pieces : UrlPieces} {d : AppHTTPSClientData κ} {new : UrlParts}
    (h : WrotePieces clientUrlSizes pieces d.urlParts new) :
    Parsed pieces d { d with
      scheme := new.scheme.getD d.scheme
      host := new.host.getD d.host
      port := new.port.getD d.port
      path := new.pathSuffix.getD d.path
      state := .processRequest } := by
  obtain ⟨scheme, hs, hs'⟩ := h.scheme.of_some (by decide)
  obtain ⟨path, hp, hp'⟩ := h.pathSuffix.of_some (by decide)
  constructor
  case scheme => rw [hs]; exact hs'
  case path => rw [hp]; exact hp'
  case port => rw [h.port]; rfl
  case host =>
    intro s hm
    have hw := h.host
    rw [Option.mem_def.mp hm] at hw
    obtain ⟨host, hh, hh'⟩ := hw.of_some (by decide)
    rw [hh]
    exact hh'
  case noHost =>
    intro hnone
    have hw := h.host
    rw [hnone] at hw
    show new.host.getD d.host = d.host
    rw [show new.host = some d.host from hw]
    rfl
  case rest => rfl

/-- The client after parsing: in error without a colon, else with the pieces of the URL. -/
theorem pasreRequestURL_cases (d : AppHTTPSClientData κ) :
    match splitUrl d.url.chars with
    | none => pasreRequestURL d = { d with state := .error }
    | some pieces => Parsed pieces d (pasreRequestURL d) := by
  have h := urlParseGetParts_eq d.url clientUrlSizes d.urlParts
  unfold pasreRequestURL
  cases hs : splitUrl d.url.chars with
  | none =>
    rw [hs] at h
    dsimp only at h ⊢
    rw [h]
    rfl
  | some pieces =>
    rw [hs] at h
    obtain ⟨new, heq, hw⟩ := h
    dsimp only
    rw [heq]
    exact urlParts_parsed hw

theorem wantsEncryption_iff (d : AppHTTPSClientData κ) :
    d.wantsEncryption = true ↔ d.url.chars.take 8 = lit "https://" :=
  d.url.holds.streqLen_iff (holds_litMem (t := "https://") (by decide)) 8

/-- The bytes that `sendRequest` writes to the socket. -/
theorem cstr_networkBuffer (d : AppHTTPSClientData κ) :
    cstr (d.networkBuffer.write 0
      (d.requestText.take (httpsClientNetworkBufferSize - 1) ++ [0])).toList =
    cstr (d.requestText.take (httpsClientNetworkBufferSize - 1)) := by
  apply Buf.cstr_write
  have := List.length_take_le (httpsClientNetworkBufferSize - 1) d.requestText
  have : httpsClientNetworkBufferSize = 256 := rfl
  omega

/-! ## Two clients with the same request -/

/-- The URL is parsed. -/
def PastParsing (s : AppHTTPSClientState) : Prop :=
  s ∉ [.idle, .beginSequence, .waitForNetwork, .parseRequestUrl, .error]

instance (s : AppHTTPSClientState) : Decidable (PastParsing s) := by
  unfold PastParsing
  infer_instance

/-- The two clients agree on everything that the rest of the request reads. -/
structure Alike (d e : AppHTTPSClientData κ) : Prop where
  ipModeConfig : d.ipModeConfig = e.ipModeConfig
  state : d.state = e.state
  callbacks : d.callbacks = e.callbacks
  url : d.url.chars = e.url.chars
  determined : Determined d.url.chars
  parts : PastParsing d.state →
    cstr d.host = cstr e.host ∧ d.port = e.port ∧ cstr d.path = cstr e.path
  query : d.state = .waitOnDns → d.dnsQueryIpMode = e.dnsQueryIpMode
  address : d.state = .startConnection → d.ipMode = e.ipMode ∧ d.ipAddress = e.ipAddress
  socket : HasSocket d.state → d.socket = e.socket

section Alike

variable {d e : AppHTTPSClientData κ}

/-- The state `s` reads nothing that the state `r` does not. -/
def ReadsNoMore (r s : AppHTTPSClientState) : Prop :=
  (PastParsing s → PastParsing r) ∧ (HasSocket s → HasSocket r) ∧
    (s = .waitOnDns → r = .waitOnDns) ∧ (s = .startConnection → r = .startConnection)

instance (r s : AppHTTPSClientState) : Decidable (ReadsNoMore r s) := by
  unfold ReadsNoMore
  infer_instance

theorem Alike.goto (h : Alike d e) {r s : AppHTTPSClientState} (hr : d.state = r)
    (hrs : ReadsNoMore r s) : Alike { d with state := s } { e with state := s } := by
  subst hr
  obtain ⟨hp, hs, hq, ha⟩ := hrs
  exact ⟨h.ipModeConfig, rfl, h.callbacks, h.url, h.determined, fun h' => h.parts (hp h'),
    fun h' => h.query (hq h'), fun h' => h.address (ha h'), fun h' => h.socket (hs h')⟩

/-- The URL determines all that parsing stores. -/
theorem alike_pasreRequestURL (h : Alike d e) (hs : d.state = .parseRequestUrl) :
    Alike (pasreRequestURL d) (pasreRequestURL e) := by
  have hd := pasreRequestURL_cases d
  have he := pasreRequestURL_cases e
  rw [← h.url] at he
  rcases determined_cases d.url.chars with ⟨-, hnone⟩ | ⟨pieces, hsome, hdet⟩
  · rw [hnone] at hd he
    rw [hd, he]
    exact h.goto hs (by decide)
  · rw [hsome] at hd he
    obtain ⟨hhost, hport⟩ := hdet.mp h.determined
    obtain ⟨host, hhost⟩ := Option.isSome_iff_exists.mp hhost
    obtain ⟨port, hport⟩ := Option.isSome_iff_exists.mp hport
    have hparts : cstr (pasreRequestURL d).host = cstr (pasreRequestURL e).host ∧
        (pasreRequestURL d).port = (pasreRequestURL e).port ∧
        cstr (pasreRequestURL d).path = cstr (pasreRequestURL e).path := by
      refine ⟨(hd.host host hhost).trans (he.host host hhost).symm, ?_, hd.path.trans he.path.symm⟩
      rw [hd.port, he.port, hport]
      rfl
    generalize pasreRequestURL d = d' at *
    generalize pasreRequestURL e = e' at *
    rw [hd.rest, he.rest]
    exact ⟨h.ipModeConfig, rfl, h.callbacks, h.url, h.determined, fun _ => hparts, by simp, by simp,
      by simp [HasSocket]⟩

theorem alike_processRequest (net : NetAnswers) (h : Alike d e) (hs : d.state = .processRequest) :
    (processRequest net d).2 = (processRequest net e).2 ∧
      Alike (processRequest net d).1 (processRequest net e).1 := by
  have hparts := h.parts (by rw [hs]; decide)
  unfold processRequest
  dsimp only
  rw [← hparts.1, ← h.ipModeConfig]
  cases net.stringToIPAddress (cstr d.host) with
  | some address =>
    exact ⟨rfl, rfl, rfl, h.callbacks, h.url, h.determined, fun _ => hparts, by simp,
      fun _ => ⟨rfl, rfl⟩, by simp [HasSocket]⟩
  | none =>
    cases net.stringToIPv6Address (cstr d.host) with
    | some address =>
      exact ⟨rfl, rfl, rfl, h.callbacks, h.url, h.determined, fun _ => hparts, by simp,
        fun _ => ⟨rfl, rfl⟩, by simp [HasSocket]⟩
    | none =>
      refine ⟨rfl, ?_⟩
      by_cases hres : net.dnsResolve (cstr d.host) d.ipModeConfig ≥ 0
      · simp only [hres, if_true]
        exact ⟨rfl, rfl, h.callbacks, h.url, h.determined, fun _ => hparts,
          fun _ => rfl, by simp, by simp [HasSocket]⟩
      · simp only [hres, if_false]
        exact ⟨rfl, rfl, h.callbacks, h.url, h.determined, by simp [enterErrorState, PastParsing],
          by simp [enterErrorState], by simp [enterErrorState], by simp [enterErrorState, HasSocket]⟩

theorem alike_checkDNSResolveStatus (net : NetAnswers) (h : Alike d e) (hs : d.state = .waitOnDns) :
    (checkDNSResolveStatus net d).2 = (checkDNSResolveStatus net e).2 ∧
      Alike (checkDNSResolveStatus net d).1 (checkDNSResolveStatus net e).1 := by
  have hparts := h.parts (by rw [hs]; decide)
  have hquery := h.query hs
  have hresolved := congrArg₂ net.dnsIsResolved hparts.1 hquery
  unfold checkDNSResolveStatus
  rw [hresolved]
  cases net.dnsIsResolved (cstr e.host) e.dnsQueryIpMode with
  | pending => exact ⟨rfl, h⟩
  | ok address =>
    refine ⟨rfl, h.ipModeConfig, rfl, h.callbacks, h.url, h.determined, fun _ => hparts, by simp,
      fun _ => ⟨hquery, ?_⟩, by simp [HasSocket]⟩
    dsimp only
    rw [hquery]
  | failed =>
    have hresolve := congrFun (congrArg net.dnsResolve hparts.1) .ipv4
    dsimp only
    by_cases h6 : d.dnsQueryIpMode = .ipv6
    · rw [if_pos h6, if_pos (hquery.symm.trans h6), hresolve, hparts.1]
      refine ⟨rfl, ?_⟩
      by_cases hres : net.dnsResolve (cstr e.host) .ipv4 ≥ 0
      · simp only [hres, if_true]
        exact h.goto (s := .waitOnDns) hs (by decide)
      · simp only [hres, if_false]
        exact h.goto (s := .error) hs (by decide)
    · rw [if_neg h6, if_neg fun h' => h6 (hquery.trans h')]
      exact ⟨rfl, h.goto (s := .error) hs (by decide)⟩

theorem alike_startNetworkConnection (net : NetAnswers) (h : Alike d e)
    (hs : d.state = .startConnection) :
    (startNetworkConnection net d).2 = (startNetworkConnection net e).2 ∧
      Alike (startNetworkConnection net d).1 (startNetworkConnection net e).1 := by
  have hparts := h.parts (by rw [hs]; decide)
  obtain ⟨hmode, haddress⟩ := h.address hs
  unfold startNetworkConnection
  rw [← hparts.2.1, ← hmode, ← haddress]
  refine ⟨rfl, ?_⟩
  dsimp only
  by_cases hinvalid : net.socketOpen d.ipMode d.port d.ipAddress = invalidSocket
  · rw [if_pos hinvalid, if_pos hinvalid]
    exact ⟨h.ipModeConfig, rfl, h.callbacks, h.url, h.determined,
      by simp [enterErrorState, PastParsing], by simp [enterErrorState], by simp [enterErrorState],
      by simp [enterErrorState, HasSocket]⟩
  · rw [if_neg hinvalid, if_neg hinvalid]
    exact ⟨h.ipModeConfig, rfl, h.callbacks, h.url, h.determined, fun _ => ⟨hparts.1, rfl, hparts.2.2⟩,
      by simp, by simp, fun _ => rfl⟩

theorem alike_waitNetworkConnection (net : NetAnswers) (h : Alike d e)
    (hs : d.state = .waitForConnection) :
    (waitNetworkConnection net d).2 = (waitNetworkConnection net e).2 ∧
      Alike (waitNetworkConnection net d).1 (waitNetworkConnection net e).1 := by
  have hsocket := h.socket (by rw [hs]; decide)
  have hwants : d.wantsEncryption = e.wantsEncryption := by
    rw [Bool.eq_iff_iff, wantsEncryption_iff, wantsEncryption_iff, h.url]
  have hconn := congrArg net.socketIsConnected hsocket
  have hok := congrArg net.socketEncryptSocket hsocket
  have hevent := congrArg (fun k => [ClientEvent.socketEncryptSocket (κ := κ) k]) hsocket
  unfold waitNetworkConnection
  rw [hconn, hok, hwants]
  cases net.socketIsConnected e.socket with
  | false => exact ⟨rfl, h⟩
  | true =>
    cases e.wantsEncryption with
    | false => exact ⟨rfl, h.goto (s := .sendRequest) hs (by decide)⟩
    | true =>
      cases net.socketEncryptSocket e.socket with
      | false => exact ⟨hevent, h.goto (s := .closeConnection) hs (by decide)⟩
      | true => exact ⟨hevent, h.goto (s := .waitForSslConnect) hs (by decide)⟩

theorem alike_waitForSSLConnect (net : NetAnswers) (h : Alike d e)
    (hs : d.state = .waitForSslConnect) :
    (waitForSSLConnect net d).2 = (waitForSSLConnect net e).2 ∧
      Alike (waitForSSLConnect net d).1 (waitForSSLConnect net e).1 := by
  have hsocket := h.socket (by rw [hs]; decide)
  have hbusy := congrArg net.socketIsNegotiatingEncryption hsocket
  have hok := congrArg net.socketIsSecure hsocket
  have hevent := congrArg (fun k => [ClientEvent.socketClose (κ := κ) k]) hsocket
  unfold waitForSSLConnect
  rw [hbusy, hok]
  cases net.socketIsNegotiatingEncryption e.socket with
  | true => exact ⟨rfl, h⟩
  | false =>
    cases net.socketIsSecure e.socket with
    | false => exact ⟨hevent, h.goto (s := .error) hs (by decide)⟩
    | true => exact ⟨rfl, h.goto (s := .sendRequest) hs (by decide)⟩

/-- The request has the same text, and is cut in the same place. -/
theorem alike_sendRequest (net : NetAnswers) (h : Alike d e) (hs : d.state = .sendRequest) :
    (NixieTracker.sendRequest net d).2 = (NixieTracker.sendRequest net e).2 ∧
      Alike (NixieTracker.sendRequest net d).1 (NixieTracker.sendRequest net e).1 := by
  have hparts := h.parts (by rw [hs]; decide)
  have hsocket := h.socket (by rw [hs]; decide)
  have htext : d.requestText = e.requestText := by
    unfold AppHTTPSClientData.requestText
    rw [hparts.1, hparts.2.2]
  have hready := congrArg net.socketWriteIsReady hsocket
  have hbytes : cstr (d.networkBuffer.write 0
        (d.requestText.take (httpsClientNetworkBufferSize - 1) ++ [0])).toList =
      cstr (e.networkBuffer.write 0
        (e.requestText.take (httpsClientNetworkBufferSize - 1) ++ [0])).toList := by
    rw [cstr_networkBuffer, cstr_networkBuffer, htext]
  have hwritten := congrArg₂ net.socketWrite hsocket hbytes
  unfold NixieTracker.sendRequest
  dsimp only
  rw [hready, hwritten, hbytes, htext]
  cases net.socketWriteIsReady e.socket with
  | false => exact ⟨rfl, h⟩
  | true =>
    refine ⟨congrArg (fun k => [ClientEvent.socketWrite k _]) hsocket, ?_⟩
    simp only [Bool.not_true, if_false, Bool.false_eq_true]
    split
    · exact ⟨h.ipModeConfig, rfl, h.callbacks, h.url, h.determined,
        by simp [enterErrorState, PastParsing], by simp [enterErrorState], by simp [enterErrorState],
        by simp [enterErrorState, HasSocket]⟩
    · exact ⟨h.ipModeConfig, rfl, h.callbacks, h.url, h.determined, fun _ => hparts, by simp,
        by simp, fun _ => hsocket⟩

theorem alike_waitForResponse (net : NetAnswers) (h : Alike d e) (hs : d.state = .waitForResponse) :
    (waitForResponse net d).2 = (waitForResponse net e).2 ∧
      Alike (waitForResponse net d).1 (waitForResponse net e).1 := by
  have hsocket := h.socket (by rw [hs]; decide)
  have hready := congrArg net.socketReadIsReady hsocket
  have hreset := congrArg net.socketWasReset hsocket
  have hbytes : receive net d = receive net e := by
    unfold receive
    simp only [hsocket]
  unfold waitForResponse
  dsimp only
  rw [hready, hreset, hbytes]
  cases net.socketReadIsReady e.socket with
  | true =>
    refine ⟨?_, h.ipModeConfig, h.state, h.callbacks, h.url, h.determined, h.parts, h.query,
      h.address, h.socket⟩
    simp only [Bool.not_true, if_false, Bool.false_eq_true, hsocket, h.callbacks]
  | false =>
    cases net.socketWasReset e.socket with
    | false => exact ⟨rfl, h⟩
    | true =>
      refine ⟨?_, h.goto (s := .closeConnection) hs (by decide)⟩
      simp only [Bool.not_false, if_true, h.callbacks]

/-- **One call** does the same for both clients. -/
theorem alike_tasks (net : NetAnswers) (h : Alike d e) :
    (appHttpsClientTasks net d).2 = (appHttpsClientTasks net e).2 ∧
      Alike (appHttpsClientTasks net d).1 (appHttpsClientTasks net e).1 := by
  unfold appHttpsClientTasks
  rw [← h.state]
  cases hs : d.state with
  | idle => exact ⟨rfl, h⟩
  | beginSequence =>
    exact ⟨rfl, h.ipModeConfig, rfl, h.callbacks, h.url, h.determined, by simp [PastParsing],
      by simp, by simp, by simp [HasSocket]⟩
  | waitForNetwork => exact ⟨rfl, h.goto (s := .parseRequestUrl) hs (by decide)⟩
  | parseRequestUrl => exact ⟨rfl, alike_pasreRequestURL h hs⟩
  | processRequest => exact alike_processRequest net h hs
  | waitOnDns => exact alike_checkDNSResolveStatus net h hs
  | startConnection => exact alike_startNetworkConnection net h hs
  | waitForConnection => exact alike_waitNetworkConnection net h hs
  | closeConnection =>
    have hsocket := h.socket (by rw [hs]; decide)
    exact ⟨congrArg (fun k => [ClientEvent.socketClose (κ := κ) k]) hsocket,
      h.goto (s := .idle) hs (by decide)⟩
  | waitForSslConnect => exact alike_waitForSSLConnect net h hs
  | sendRequest => exact alike_sendRequest net h hs
  | waitForResponse => exact alike_waitForResponse net h hs
  | error =>
    refine ⟨?_, h.goto (s := .idle) hs (by decide)⟩
    simp only [handleError, h.callbacks]

end Alike

/-! ## Independence of the history -/

/-- The client when it is only polled. -/
def polling (κ : Type) : Machine (AppHTTPSClientData κ) NetAnswers (ClientEvent κ) where
  step d net := appHttpsClientTasks net d

theorem alike_trace {d e : AppHTTPSClientData κ} (h : Alike d e) (nets : List NetAnswers) :
    (polling κ).trace d nets = (polling κ).trace e nets :=
  (Machine.trace_eq (R := Alike) (fun _ _ net h => alike_tasks net h) h nets).1

theorem ipModeConfig_tasks (net : NetAnswers) (d : AppHTTPSClientData κ) :
    (appHttpsClientTasks net d).1.ipModeConfig = d.ipModeConfig := by
  unfold appHttpsClientTasks
  cases d.state with
  | idle | beginSequence | waitForNetwork | closeConnection | error => rfl
  | parseRequestUrl =>
    simp only [pasreRequestURL, enterErrorState]
    split <;> rfl
  | processRequest =>
    simp only [processRequest, enterErrorState]
    split <;> (try split) <;> (try split) <;> rfl
  | waitOnDns =>
    simp only [checkDNSResolveStatus, enterErrorState]
    split <;> (try split) <;> (try split) <;> rfl
  | startConnection =>
    simp only [startNetworkConnection, enterErrorState]
    split <;> rfl
  | waitForConnection =>
    simp only [waitNetworkConnection]
    split <;> (try split) <;> (try split) <;> rfl
  | waitForSslConnect =>
    simp only [waitForSSLConnect, enterErrorState]
    split <;> (try split) <;> rfl
  | sendRequest =>
    simp only [NixieTracker.sendRequest, enterErrorState]
    split <;> (try split) <;> rfl
  | waitForResponse =>
    simp only [waitForResponse]
    split <;> (try split) <;> rfl

/-- No input changes the configuration. -/
theorem ipModeConfig_run (d₀ : AppHTTPSClientData κ) (before : List (ClientInput κ)) :
    ((machine κ).run (appHttpsClientInitialize d₀) before).ipModeConfig = .ipv4 := by
  refine Machine.run_inv (M := machine κ) (I := fun d => d.ipModeConfig = .ipv4) (fun d i h => ?_) rfl
    before
  cases i with
  | tasks net => exact (ipModeConfig_tasks net d).trans h
  | request url callbacks =>
    by_cases hidle : d.state = .idle
    · show (step d _).1.ipModeConfig = _
      rw [step_request_idle hidle]
      exact h
    · show (step d _).1.ipModeConfig = _
      rw [step_request_busy hidle]
      exact h

/-- What the network sees of a request. -/
inductive Contact where
  | lookUp (host : List UInt8) (type : AppHTTPSClientIPMode)
  | connect (type : AppHTTPSClientIPMode) (port : UInt16) (address : IpMultiAddress)
  | encrypt
  | send (bytes : List UInt8)
  deriving DecidableEq

def contact? : ClientEvent κ → Option Contact
  | .dnsResolve host type => some (.lookUp host type)
  | .socketOpen type port address _ => some (.connect type port address)
  | .socketEncryptSocket _ => some .encrypt
  | .socketWrite _ bytes => some (.send bytes)
  | _ => none

def contacts (es : List (ClientEvent κ)) : List Contact := es.filterMap contact?

/-- The client that has been asked for `url`. -/
def asked (d : AppHTTPSClientData κ) (url : List UInt8) (callbacks : AppHttpsClientCallbacks κ) :
    AppHTTPSClientData κ :=
  (appHttpsClientRequest d url callbacks).2

/-- Whatever the client was asked before, and whatever came of it: a request for `url` has the same
contacts and the same callbacks. -/
def Independent (d₀ : AppHTTPSClientData κ) (url : List UInt8) : Prop :=
  ∀ (before before' : List (ClientInput κ)) (callbacks : AppHttpsClientCallbacks κ)
    (nets : List NetAnswers),
    let d := (machine κ).run (appHttpsClientInitialize d₀) before
    let d' := (machine κ).run (appHttpsClientInitialize d₀) before'
    d.state = .idle → d'.state = .idle →
      contacts ((polling κ).trace (asked d url callbacks) nets) =
        contacts ((polling κ).trace (asked d' url callbacks) nets) ∧
      calls ((polling κ).trace (asked d url callbacks) nets) =
        calls ((polling κ).trace (asked d' url callbacks) nets)

theorem asked_idle {d : AppHTTPSClientData κ} (h : d.state = .idle) (url : List UInt8)
    (callbacks : AppHttpsClientCallbacks κ) : asked d url callbacks = accept d url callbacks :=
  congrArg Prod.fst (step_request_idle h url callbacks)

theorem url_accept (d : AppHTTPSClientData κ) (url : List UInt8)
    (callbacks : AppHttpsClientCallbacks κ) :
    (accept d url callbacks).url.chars = keptUrl url :=
  cstr_safeStrncpy d.requestUrl url (by decide) (Nat.le_refl _)

theorem independent_of_determined (d₀ : AppHTTPSClientData κ) {url : List UInt8}
    (h : Determined (keptUrl url)) : Independent d₀ url := by
  intro before before' callbacks nets d d' hd hd'
  have hconfig : d.ipModeConfig = d'.ipModeConfig :=
    (ipModeConfig_run d₀ before).trans (ipModeConfig_run d₀ before').symm
  have halike : Alike (accept d url callbacks) (accept d' url callbacks) :=
    ⟨hconfig, rfl, rfl, (url_accept ..).trans (url_accept ..).symm, by rwa [url_accept],
      by simp [accept, PastParsing], by simp [accept], by simp [accept],
      by simp [accept, HasSocket]⟩
  rw [asked_idle hd, asked_idle hd', alike_trace halike nets]
  exact ⟨rfl, rfl⟩

/-! ## What is left of an earlier request -/

/-- A network that takes every host for an address, but where no connection can be opened. -/
def NetAnswers.refusing : NetAnswers :=
  { NetAnswers.direct true with socketOpen := fun _ _ _ => invalidSocket }

/-- A network that knows no host. -/
def NetAnswers.unknowing : NetAnswers :=
  { NetAnswers.direct true with stringToIPAddress := fun _ => none }

/-- A request for `url` that ends in an error. -/
def visit (κ : Type) (url : List UInt8) : List (ClientInput κ) :=
  .request url ⟨none, none, none⟩ :: List.replicate 6 (.tasks NetAnswers.refusing)

/-- The client that has parsed the URL. -/
def parsed (net : NetAnswers) (d : AppHTTPSClientData κ) (url : List UInt8) : AppHTTPSClientData κ :=
  pasreRequestURL { accept d url ⟨none, none, none⟩ with
    state := .parseRequestUrl
    timeout := net.systemCount + net.systemFrequency }

theorem parsed_cases (net : NetAnswers) (d : AppHTTPSClientData κ) {url : List UInt8}
    {pieces : UrlPieces} (hs : splitUrl (keptUrl url) = some pieces) :
    (parsed net d url).state = .processRequest ∧
      (parsed net d url).ipModeConfig = d.ipModeConfig ∧
      (∀ s ∈ pieces.host, cstr (parsed net d url).host = s.take (maxUrlHost - 1)) ∧
      (pieces.host = none → (parsed net d url).host = d.host) ∧
      (parsed net d url).port = pieces.port.getD d.port := by
  have h := pasreRequestURL_cases { accept d url ⟨none, none, none⟩ with
    state := .parseRequestUrl
    timeout := net.systemCount + net.systemFrequency }
  rw [show AppHTTPSClientData.url { accept d url ⟨none, none, none⟩ with
    state := .parseRequestUrl
    timeout := net.systemCount + net.systemFrequency } =
      (accept d url ⟨none, none, none⟩).url from rfl, url_accept, hs] at h
  have h : Parsed pieces _ (parsed net d url) := h
  exact ⟨congrArg AppHTTPSClientData.state h.rest,
    (congrArg AppHTTPSClientData.ipModeConfig h.rest).trans rfl, h.host, h.noHost, h.port⟩

theorem run_visit {d : AppHTTPSClientData κ} (hd : d.state = .idle) {url : List UInt8}
    {pieces : UrlPieces} (hs : splitUrl (keptUrl url) = some pieces) {host : List UInt8}
    (hhost : pieces.host = some host) {port : UInt16} (hport : pieces.port = some port) :
    ((machine κ).run d (visit κ url)).state = .idle ∧
      cstr ((machine κ).run d (visit κ url)).host = host.take (maxUrlHost - 1) ∧
      ((machine κ).run d (visit κ url)).port = port := by
  obtain ⟨hstate, -, hh, -, hp⟩ := parsed_cases NetAnswers.refusing d hs
  rw [hport] at hp
  have hconnect : (appHttpsClientTasks NetAnswers.refusing (parsed NetAnswers.refusing d url)).1 =
      { parsed NetAnswers.refusing d url with
        ipAddress := .v4Add [127, 0, 0, 1]
        ipMode := .ipv4
        state := .startConnection } := by
    unfold appHttpsClientTasks
    rw [hstate]
    rfl
  have hrun : (machine κ).run d (visit κ url) = { parsed NetAnswers.refusing d url with
      ipAddress := .v4Add [127, 0, 0, 1]
      ipMode := .ipv4
      socket := invalidSocket
      state := .idle } := by
    have haccept : (machine κ).run d (visit κ url) = (machine κ).run
        (appHttpsClientTasks NetAnswers.refusing (parsed NetAnswers.refusing d url)).1
        [.tasks NetAnswers.refusing, .tasks NetAnswers.refusing] := by
      unfold visit
      rw [Machine.run_cons, show ((machine κ).step d (.request url ⟨none, none, none⟩)).1 =
        accept d url ⟨none, none, none⟩ from congrArg Prod.fst (step_request_idle hd ..)]
      rfl
    rw [haccept, hconnect]
    rfl
  rw [hrun]
  exact ⟨rfl, hh host hhost, hp⟩

theorem trace_lookUp {d : AppHTTPSClientData κ} {url : List UInt8} {pieces : UrlPieces}
    (hs : splitUrl (keptUrl url) = some pieces) :
    contacts ((polling κ).trace (accept d url ⟨none, none, none⟩)
        (List.replicate 4 NetAnswers.unknowing)) =
      [.lookUp (cstr (parsed NetAnswers.unknowing d url).host) d.ipModeConfig] := by
  obtain ⟨hstate, hconfig, -⟩ := parsed_cases NetAnswers.unknowing d hs
  have htrace : (polling κ).trace (accept d url ⟨none, none, none⟩)
      (List.replicate 4 NetAnswers.unknowing) =
      (appHttpsClientTasks NetAnswers.unknowing (parsed NetAnswers.unknowing d url)).2 ++ [] := rfl
  rw [htrace, List.append_nil]
  unfold appHttpsClientTasks
  rw [hstate]
  show contacts [ClientEvent.dnsResolve _ _] = _
  rw [hconfig]
  rfl

theorem trace_connect {d : AppHTTPSClientData κ} {url : List UInt8} {pieces : UrlPieces}
    (hs : splitUrl (keptUrl url) = some pieces) :
    contacts ((polling κ).trace (accept d url ⟨none, none, none⟩)
        (List.replicate 5 NetAnswers.refusing)) =
      [.connect .ipv4 (parsed NetAnswers.refusing d url).port (.v4Add [127, 0, 0, 1])] := by
  obtain ⟨hstate, -⟩ := parsed_cases NetAnswers.refusing d hs
  have htrace : (polling κ).trace (accept d url ⟨none, none, none⟩)
      (List.replicate 5 NetAnswers.refusing) =
      (polling κ).trace (parsed NetAnswers.refusing d url)
        (List.replicate 2 NetAnswers.refusing) := rfl
  rw [htrace, List.replicate, Machine.trace_cons]
  show contacts ((appHttpsClientTasks _ _).2 ++ (polling κ).trace (appHttpsClientTasks _ _).1 _) = _
  unfold appHttpsClientTasks
  rw [hstate]
  rfl

/-- The pieces of the two URLs that the clients below were asked for before. -/
theorem splitUrl_visited :
    splitUrl (keptUrl (lit "http://one/")) = some ⟨lit "http", some [], some [], some (lit "one"),
      some 80, lit "/", [], [], lit "/"⟩ ∧
    splitUrl (keptUrl (lit "https://two/")) = some ⟨lit "https", some [], some [],
      some (lit "two"), some 443, lit "/", [], [], lit "/"⟩ := by
  decide

theorem determined_of_independent {d₀ : AppHTTPSClientData κ} {url : List UInt8}
    (h : Independent d₀ url) : Determined (keptUrl url) := by
  by_contra hdet
  rcases determined_cases (keptUrl url) with ⟨h', -⟩ | ⟨pieces, hs, hiff⟩
  · exact hdet h'
  obtain ⟨hone, htwo⟩ := splitUrl_visited
  obtain ⟨hd, hhost, hport⟩ :=
    run_visit (d := appHttpsClientInitialize d₀) rfl hone rfl rfl
  obtain ⟨hd', hhost', hport'⟩ :=
    run_visit (d := appHttpsClientInitialize d₀) rfl htwo rfl rfl
  have hsame := fun nets => (h (visit κ (lit "http://one/")) (visit κ (lit "https://two/"))
    ⟨none, none, none⟩ nets hd hd').1
  rw [asked_idle hd, asked_idle hd'] at hsame
  generalize (machine κ).run (appHttpsClientInitialize d₀) (visit κ (lit "http://one/")) = d at *
  generalize (machine κ).run (appHttpsClientInitialize d₀) (visit κ (lit "https://two/")) = d' at *
  cases hmissing : pieces.host with
  | none =>
    -- The host of the earlier request is looked up.
    have hlook := hsame (List.replicate 4 NetAnswers.unknowing)
    obtain ⟨-, -, -, hkeep, -⟩ := parsed_cases NetAnswers.unknowing d hs
    obtain ⟨-, -, -, hkeep', -⟩ := parsed_cases NetAnswers.unknowing d' hs
    rw [trace_lookUp hs, trace_lookUp hs, hkeep hmissing, hkeep' hmissing, hhost, hhost'] at hlook
    exact absurd (Contact.lookUp.inj (List.cons.inj hlook).1).1 (by decide)
  | some host =>
    have hnoport : pieces.port = none := by
      rw [← Option.not_isSome_iff_eq_none]
      intro hp
      exact hdet (hiff.mpr ⟨by rw [hmissing]; rfl, hp⟩)
    -- The port of the earlier request is connected to.
    have hconnect := hsame (List.replicate 5 NetAnswers.refusing)
    obtain ⟨-, -, -, -, hkeep⟩ := parsed_cases NetAnswers.refusing d hs
    obtain ⟨-, -, -, -, hkeep'⟩ := parsed_cases NetAnswers.refusing d' hs
    rw [hnoport] at hkeep hkeep'
    rw [trace_connect hs, trace_connect hs, hkeep, hkeep'] at hconnect
    have hports := (Contact.connect.inj (List.cons.inj hconnect).1).2.1
    exact absurd (hport.symm.trans (hports.trans hport')) (by decide)

/-! ## The outputs of the parser -/

/-- The outputs that the client asks for, with these contents. -/
def requested (scheme host : List UInt8) (port : UInt16) (path : List UInt8) : UrlParts :=
  ⟨some scheme, none, none, some host, some port, none, none, none, some path⟩

/-- A parse that succeeds leaves nothing of what was in the requested outputs before. -/
def AssignsAll (url : List UInt8) : Prop :=
  ∀ (u : CString) (scheme scheme' host host' path path' : List UInt8) (port port' : UInt16),
    u.chars = url →
    (urlParseGetParts u clientUrlSizes (requested scheme host port path)).1 = true →
    let out := (urlParseGetParts u clientUrlSizes (requested scheme host port path)).2
    let out' := (urlParseGetParts u clientUrlSizes (requested scheme' host' port' path')).2
    out.scheme.map cstr = out'.scheme.map cstr ∧ out.host.map cstr = out'.host.map cstr ∧
      out.port = out'.port ∧ out.pathSuffix.map cstr = out'.pathSuffix.map cstr

theorem assignsAll_of_determined {url : List UInt8} (h : Determined url) : AssignsAll url := by
  intro u scheme scheme' host host' path path' port port' hu htrue out out'
  have hp := urlParseGetParts_eq u clientUrlSizes (requested scheme host port path)
  have hp' := urlParseGetParts_eq u clientUrlSizes (requested scheme' host' port' path')
  rw [hu] at hp hp'
  rcases determined_cases url with ⟨-, hnone⟩ | ⟨pieces, hs, hiff⟩
  · rw [hnone] at hp
    rw [hp] at htrue
    cases htrue
  · rw [hs] at hp hp'
    obtain ⟨new, heq, hw⟩ := hp
    obtain ⟨new', heq', hw'⟩ := hp'
    obtain ⟨hhost, hport⟩ := hiff.mp h
    obtain ⟨ht, hhost⟩ := Option.isSome_iff_exists.mp hhost
    obtain ⟨pt, hport⟩ := Option.isSome_iff_exists.mp hport
    have hwh := hw.host
    have hwh' := hw'.host
    rw [hhost] at hwh hwh'
    simp only [out, out', heq, heq']
    refine ⟨hw.scheme.map_congr hw'.scheme (by decide), hwh.map_congr hwh' (by decide), ?_,
      hw.pathSuffix.map_congr hw'.pathSuffix (by decide)⟩
    rw [hw.port, hw'.port, hport]
    rfl

theorem determined_of_assignsAll {url : List UInt8} (h0 : 0 ∉ url) (hlen : url.length < 2 ^ 32)
    (h : AssignsAll url) : Determined url := by
  by_contra hdet
  rcases determined_cases url with ⟨h', -⟩ | ⟨pieces, hs, hiff⟩
  · exact hdet h'
  have hp := urlParseGetParts_eq ⟨url, h0, hlen, fun _ => 0⟩ clientUrlSizes (requested [] [] 0 [])
  have hp' := urlParseGetParts_eq ⟨url, h0, hlen, fun _ => 0⟩ clientUrlSizes
    (requested [] [1] 1 [])
  dsimp only at hp hp'
  rw [hs] at hp hp'
  obtain ⟨new, heq, hw⟩ := hp
  obtain ⟨new', heq', hw'⟩ := hp'
  obtain ⟨-, hhost, hport, -⟩ := h ⟨url, h0, hlen, fun _ => 0⟩ [] [] [] [1] [] [] 0 1 rfl
    (congrArg Prod.fst heq)
  rw [heq, heq'] at hhost hport
  cases hmissing : pieces.host with
  | none =>
    have hwh := hw.host
    have hwh' := hw'.host
    rw [hmissing] at hwh hwh'
    have hwh : new.host = some [] := hwh
    have hwh' : new'.host = some [1] := hwh'
    rw [hwh, hwh'] at hhost
    exact absurd hhost (by decide)
  | some host =>
    have hnoport : pieces.port = none := by
      rw [← Option.not_isSome_iff_eq_none]
      intro hp
      exact hdet (hiff.mpr ⟨by rw [hmissing]; rfl, hp⟩)
    rw [hw.port, hw'.port, hnoport] at hport
    exact absurd hport (by decide)

/-- **Independence.** A request for `url` is independent of earlier ones if and only if what the
client keeps of `url` is determined; and in the same cases the parser, when it returns true, has
assigned every output that the client asks for. -/
theorem request_independent_iff (d₀ : AppHTTPSClientData κ) (url : List UInt8) :
    (Independent d₀ url ↔ Determined (keptUrl url)) ∧
      (AssignsAll (keptUrl url) ↔ Determined (keptUrl url)) := by
  have h0 : 0 ∉ keptUrl url := zero_not_mem_cstr _
  have hlen : (keptUrl url).length < 2 ^ 32 := by
    rw [← url_accept d₀ url ⟨none, none, none⟩]
    exact CString.fits _
  refine ⟨⟨determined_of_independent, independent_of_determined d₀⟩,
    ⟨determined_of_assignsAll h0 hlen, assignsAll_of_determined⟩⟩

/-- A URL of another scheme: the request goes to the port of the earlier one. -/
theorem request_influenced :
    let d := (machine Nat).run (appHttpsClientInitialize (.zeroed Nat)) (visit Nat (lit "http://one/"))
    let d' := (machine Nat).run (appHttpsClientInitialize (.zeroed Nat))
      (visit Nat (lit "https://two/"))
    let nets := List.replicate 5 NetAnswers.refusing
    (d.state = .idle ∧ d'.state = .idle) ∧
      contacts ((polling Nat).trace (asked d (lit "ftp://host/") ⟨none, none, none⟩) nets) =
        [.connect .ipv4 80 (.v4Add [127, 0, 0, 1])] ∧
      contacts ((polling Nat).trace (asked d' (lit "ftp://host/") ⟨none, none, none⟩) nets) =
        [.connect .ipv4 443 (.v4Add [127, 0, 0, 1])] := by
  decide +kernel

end HttpsClient

end NixieTracker
