import NixieTracker.Https.Independence
import NixieTracker.Util.UrlAuthority

/-!
# Whom a request contacts

All that the network sees of one request, whatever it answers.

* `Target`: what the client reads of its data once the URL is parsed. `Target.Contacts` are the contacts
  that go with it: lookups of the host, one connection, the start of the encryption, the request.
* `ahead_trace`: what is still to come in each state of the client.
* `contacts_request`: the contacts of a request for a URL. A URL without a colon is rejected.
-/

namespace NixieTracker

open Lib

variable {κ : Type}

namespace HttpsClient

/-- What a request is after: the parts of the URL in the client's buffers. -/
structure Target where
  host : List UInt8
  port : UInt16
  encrypted : Bool
  text : List UInt8

def target (d : AppHTTPSClientData κ) : Target where
  host := cstr d.host
  port := d.port
  encrypted := d.wantsEncryption
  text := cstr (d.requestText.take (httpsClientNetworkBufferSize - 1))

/-- The contacts on an open connection. -/
def Target.session (t : Target) : List Contact :=
  (if t.encrypted then [.encrypt] else []) ++ [.send t.text]

/-- The network gives the address for the host. -/
inductive Resolves (net : NetAnswers) (host : List UInt8) :
    AppHTTPSClientIPMode → IpMultiAddress → Prop
  | text4 {bytes} (h : net.stringToIPAddress host = some bytes) :
    Resolves net host .ipv4 (.v4Add bytes)
  | text6 {bytes} (h : net.stringToIPv6Address host = some bytes) :
    Resolves net host .ipv6 (.v6Add bytes)
  | dns4 {bytes} (h : net.dnsIsResolved host .ipv4 = .ok bytes) :
    Resolves net host .ipv4 (.v4Add bytes)
  | dns6 {bytes} (h : net.dnsIsResolved host .ipv6 = .ok bytes) :
    Resolves net host .ipv6 (.v6Add bytes)

/-- Lookups of the host; then one connection, to an address that the network gave for it; then, as
far as it comes, the session. -/
def Target.Contacts (t : Target) (nets : List NetAnswers) (cs : List Contact) : Prop :=
  ∃ lookUps rest, cs = lookUps ++ rest ∧ (∀ c ∈ lookUps, ∃ type, c = .lookUp t.host type) ∧
    (rest = [] ∨ ∃ type address, (∃ net ∈ nets, Resolves net t.host type address) ∧
      rest <+: .connect type t.port address :: t.session)

/-- The contacts that are still to come. -/
def Ahead (nets : List NetAnswers) (d : AppHTTPSClientData κ) (cs : List Contact) : Prop :=
  match d.state with
  | .processRequest | .waitOnDns => (target d).Contacts nets cs
  | .startConnection => cs <+: .connect d.ipMode d.port d.ipAddress :: (target d).session
  | .waitForConnection => cs <+: (target d).session
  | .waitForSslConnect | .sendRequest => cs <+: [.send (target d).text]
  | _ => cs = []

/-- The URL is still to be parsed. -/
def BeforeParsing (s : AppHTTPSClientState) : Prop :=
  s ∈ [.beginSequence, .waitForNetwork, .parseRequestUrl]

@[simp] theorem contacts_append (es es' : List (ClientEvent κ)) :
    contacts (es ++ es') = contacts es ++ contacts es' := List.filterMap_append ..

theorem Target.Contacts.nil (t : Target) (nets : List NetAnswers) : t.Contacts nets [] :=
  ⟨[], [], rfl, nofun, .inl rfl⟩

theorem ahead_nil (nets : List NetAnswers) (d : AppHTTPSClientData κ) : Ahead nets d [] := by
  unfold Ahead
  split <;> first | exact .nil _ _ | exact List.nil_prefix .. | rfl

theorem Target.Contacts.weaken {t : Target} {nets : List NetAnswers} {cs : List Contact}
    (h : t.Contacts nets cs) (net : NetAnswers) : t.Contacts (net :: nets) cs := by
  obtain ⟨lookUps, rest, heq, hl, hr⟩ := h
  refine ⟨lookUps, rest, heq, hl, hr.imp_right ?_⟩
  rintro ⟨type, address, ⟨net', hm, hres⟩, hp⟩
  exact ⟨type, address, ⟨net', List.mem_cons_of_mem _ hm, hres⟩, hp⟩

theorem Target.Contacts.lookUp {t : Target} {nets : List NetAnswers} {cs : List Contact}
    (h : t.Contacts nets cs) (type : AppHTTPSClientIPMode) :
    t.Contacts nets (.lookUp t.host type :: cs) := by
  obtain ⟨lookUps, rest, rfl, hl, hr⟩ := h
  refine ⟨.lookUp t.host type :: lookUps, rest, rfl, fun c hc => ?_, hr⟩
  rcases List.mem_cons.mp hc with rfl | hc
  · exact ⟨type, rfl⟩
  · exact hl c hc

/-- The connection that is started when the address is known. -/
theorem Target.Contacts.connect {t : Target} {net : NetAnswers} {nets : List NetAnswers}
    {cs : List Contact} {type : AppHTTPSClientIPMode} {address : IpMultiAddress}
    (hnet : Resolves net t.host type address)
    (h : cs <+: .connect type t.port address :: t.session) : t.Contacts (net :: nets) cs :=
  ⟨[], cs, rfl, nofun, .inr ⟨type, address, ⟨net, List.mem_cons_self .., hnet⟩, h⟩⟩

/-- What a contact can be. -/
theorem Target.Contacts.mem {t : Target} {nets : List NetAnswers} {cs : List Contact}
    (h : t.Contacts nets cs) {c : Contact} (hc : c ∈ cs) :
    (∃ type, c = .lookUp t.host type) ∨
    (∃ type address, (∃ net ∈ nets, Resolves net t.host type address) ∧
      c = .connect type t.port address) ∨
    (t.encrypted = true ∧ c = .encrypt) ∨ c = .send t.text := by
  obtain ⟨lookUps, rest, rfl, hl, hr⟩ := h
  rcases List.mem_append.mp hc with hc | hc
  · exact .inl (hl c hc)
  · rcases hr with rfl | ⟨type, address, hnet, hp⟩
    · cases hc
    · rcases List.mem_cons.mp (hp.subset hc) with rfl | hc
      · exact .inr (.inl ⟨type, address, hnet, rfl⟩)
      · rcases List.mem_append.mp hc with hc | hc
        · split at hc
          · rename_i henc
            exact .inr (.inr (.inl ⟨henc, List.mem_singleton.mp hc⟩))
          · cases hc
        · exact .inr (.inr (.inr (List.mem_singleton.mp hc)))

theorem append_cons_isPrefix {α : Type} {before after init : List α} {x y : α}
    (h : before ++ x :: after <+: init ++ [y]) (hx : x ∉ init) : before = init ∧ x = y := by
  obtain ⟨t, ht⟩ := h
  rw [List.append_assoc] at ht
  rcases List.append_eq_append_iff.mp ht with ⟨as, rfl, has⟩ | ⟨bs, rfl, hbs⟩
  · cases as with
    | nil => exact ⟨(List.append_nil _).symm, (List.cons.inj has).1⟩
    | cons a as =>
      obtain rfl : x = a := (List.cons.inj has).1
      exact absurd (by simp) hx
  · cases bs with
    | nil => exact ⟨List.append_nil _, (List.cons.inj hbs).1.symm⟩
    | cons b bs =>
      have := congrArg List.length hbs
      simp at this

/-- The request is sent when all else is done. -/
theorem Target.Contacts.before_send {t : Target} {nets : List NetAnswers}
    {before after : List Contact} {bytes : List UInt8}
    (h : t.Contacts nets (before ++ .send bytes :: after)) :
    ∃ lookUps type address, (∀ c ∈ lookUps, ∃ type, c = .lookUp t.host type) ∧
      before = lookUps ++
        .connect type t.port address :: if t.encrypted then [.encrypt] else [] := by
  obtain ⟨lookUps, rest, heq, hl, hr⟩ := h
  have hnotMem : .send bytes ∉ lookUps := by
    intro hm
    obtain ⟨type, htype⟩ := hl _ hm
    cases htype
  rcases hr with rfl | ⟨type, address, -, hp⟩
  · rw [List.append_nil] at heq
    exact absurd (heq ▸ by simp) hnotMem
  · refine ⟨lookUps, type, address, hl, ?_⟩
    have hall : before ++ .send bytes :: after <+:
        (lookUps ++ .connect type t.port address :: if t.encrypted then [.encrypt] else []) ++
          [.send t.text] := by
      rw [heq, List.append_assoc]
      exact (List.prefix_append_right_inj lookUps).mpr hp
    refine (append_cons_isPrefix hall ?_).1
    cases t.encrypted <;> simp [hnotMem]

section Steps

variable {net : NetAnswers} {nets : List NetAnswers} {d : AppHTTPSClientData κ} {cs : List Contact}

theorem ahead_processRequest (h : Ahead nets (processRequest net d).1 cs) :
    (target d).Contacts (net :: nets) (contacts (processRequest net d).2 ++ cs) := by
  revert h
  unfold processRequest
  split
  · rename_i address haddress
    exact fun h => .connect (.text4 haddress) h
  · split
    · rename_i address haddress
      exact fun h => .connect (.text6 haddress) h
    · dsimp only
      split
      · exact fun h => (Target.Contacts.weaken h net).lookUp d.ipModeConfig
      · rintro ⟨⟩
        exact (Target.Contacts.nil _ _).lookUp d.ipModeConfig

theorem ahead_checkDNSResolveStatus (hs : d.state = .waitOnDns)
    (h : Ahead nets (checkDNSResolveStatus net d).1 cs) :
    (target d).Contacts (net :: nets) (contacts (checkDNSResolveStatus net d).2 ++ cs) := by
  revert h
  unfold checkDNSResolveStatus
  split
  · intro h
    simp only [Ahead, hs] at h
    exact h.weaken net
  · rename_i address haddress
    dsimp only [Ahead]
    cases hmode : d.dnsQueryIpMode with
    | ipv4 =>
      rw [hmode] at haddress
      exact fun h => .connect (.dns4 haddress) h
    | ipv6 =>
      rw [hmode] at haddress
      exact fun h => .connect (.dns6 haddress) h
  · split
    · dsimp only
      split
      · exact fun h => (Target.Contacts.weaken h net).lookUp .ipv4
      · rintro ⟨⟩
        exact (Target.Contacts.nil _ _).lookUp .ipv4
    · rintro ⟨⟩
      exact Target.Contacts.nil _ _

theorem ahead_startNetworkConnection (h : Ahead nets (startNetworkConnection net d).1 cs) :
    contacts (startNetworkConnection net d).2 ++ cs <+:
      .connect d.ipMode d.port d.ipAddress :: (target d).session := by
  refine (List.prefix_cons_inj _).mpr ?_
  revert h
  unfold startNetworkConnection
  dsimp only
  split
  · rintro ⟨⟩
    exact List.nil_prefix ..
  · exact fun h => h

theorem ahead_waitNetworkConnection (hs : d.state = .waitForConnection)
    (h : Ahead nets (waitNetworkConnection net d).1 cs) :
    contacts (waitNetworkConnection net d).2 ++ cs <+: (target d).session := by
  revert h
  unfold waitNetworkConnection
  split
  · intro h
    simp only [Ahead, hs] at h
    exact h
  · split
    · rename_i hwants
      have hsession : (target d).session = [.encrypt, .send (target d).text] := by
        simp [Target.session, target, hwants]
      rw [hsession]
      dsimp only
      split
      · rintro ⟨⟩
        exact (List.prefix_cons_inj _).mpr (List.nil_prefix ..)
      · exact fun h => (List.prefix_cons_inj _).mpr h
    · rename_i hwants
      have hsession : (target d).session = [.send (target d).text] := by
        simp [Target.session, target, hwants]
      rw [hsession]
      exact fun h => h

theorem ahead_waitForSSLConnect (hs : d.state = .waitForSslConnect)
    (h : Ahead nets (waitForSSLConnect net d).1 cs) :
    contacts (waitForSSLConnect net d).2 ++ cs <+: [.send (target d).text] := by
  revert h
  unfold waitForSSLConnect
  split
  · intro h
    simp only [Ahead, hs] at h
    exact h
  · split
    · rintro ⟨⟩
      exact List.nil_prefix ..
    · exact fun h => h

theorem ahead_sendRequest (hs : d.state = .sendRequest)
    (h : Ahead nets (NixieTracker.sendRequest net d).1 cs) :
    contacts (NixieTracker.sendRequest net d).2 ++ cs <+: [.send (target d).text] := by
  revert h
  unfold NixieTracker.sendRequest
  split
  · intro h
    simp only [Ahead, hs] at h
    exact h
  · intro h
    obtain rfl : cs = [] := by
      dsimp only at h
      split at h <;> exact h
    dsimp only
    rw [cstr_networkBuffer]
    exact List.prefix_refl _

theorem ahead_waitForResponse (hs : d.state = .waitForResponse)
    (h : Ahead nets (waitForResponse net d).1 cs) :
    contacts (waitForResponse net d).2 ++ cs = [] := by
  revert h
  unfold waitForResponse
  split
  · split
    · rintro ⟨⟩
      cases d.callbacks.requestHandled <;> rfl
    · intro h
      simp only [Ahead, hs] at h
      exact h
  · intro h
    simp only [Ahead, hs] at h
    subst h
    cases d.callbacks.bufferReceived <;> rfl

/-- **One call**: what it contacts comes before what is still to come after it. -/
theorem ahead_tasks (hs : ¬ BeforeParsing d.state) (h : Ahead nets (appHttpsClientTasks net d).1 cs) :
    Ahead (net :: nets) d (contacts (appHttpsClientTasks net d).2 ++ cs) := by
  unfold appHttpsClientTasks at h ⊢
  unfold Ahead
  cases hstate : d.state with
  | idle =>
    rw [hstate] at h
    simp only [Ahead, hstate] at h
    exact h
  | beginSequence => exact absurd (by simp [hstate, BeforeParsing]) hs
  | waitForNetwork => exact absurd (by simp [hstate, BeforeParsing]) hs
  | parseRequestUrl => exact absurd (by simp [hstate, BeforeParsing]) hs
  | processRequest =>
    rw [hstate] at h
    exact ahead_processRequest h
  | waitOnDns =>
    rw [hstate] at h
    exact ahead_checkDNSResolveStatus hstate h
  | startConnection =>
    rw [hstate] at h
    exact ahead_startNetworkConnection h
  | waitForConnection =>
    rw [hstate] at h
    exact ahead_waitNetworkConnection hstate h
  | closeConnection =>
    rw [hstate] at h
    exact h
  | waitForSslConnect =>
    rw [hstate] at h
    exact ahead_waitForSSLConnect hstate h
  | sendRequest =>
    rw [hstate] at h
    exact ahead_sendRequest hstate h
  | waitForResponse =>
    rw [hstate] at h
    exact ahead_waitForResponse hstate h
  | error =>
    rw [hstate] at h
    obtain rfl : cs = [] := h
    cases hc : d.callbacks.error <;> simp [handleError, hc, contacts, contact?]

end Steps

theorem beforeParsing_tasks {d : AppHTTPSClientData κ} (h : ¬ BeforeParsing d.state)
    (net : NetAnswers) : ¬ BeforeParsing (appHttpsClientTasks net d).1.state := by
  unfold appHttpsClientTasks
  cases hs : d.state with
  | idle => simp [hs, BeforeParsing]
  | beginSequence | waitForNetwork | parseRequestUrl =>
    exact absurd (by simp [hs, BeforeParsing]) h
  | processRequest =>
    simp only [processRequest, enterErrorState]
    split <;> (try split) <;> (try split) <;> simp [BeforeParsing]
  | waitOnDns =>
    simp only [checkDNSResolveStatus, enterErrorState]
    split <;> (try split) <;> (try split) <;> simp [BeforeParsing, hs]
  | startConnection =>
    simp only [startNetworkConnection, enterErrorState]
    split <;> simp [BeforeParsing]
  | waitForConnection =>
    simp only [waitNetworkConnection]
    split <;> (try split) <;> (try split) <;> simp [BeforeParsing, hs]
  | closeConnection => simp [closeNetworkConnection, BeforeParsing]
  | waitForSslConnect =>
    simp only [waitForSSLConnect, enterErrorState]
    split <;> (try split) <;> simp [BeforeParsing, hs]
  | sendRequest =>
    simp only [NixieTracker.sendRequest, enterErrorState]
    split <;> (try split) <;> simp [BeforeParsing, hs]
  | waitForResponse =>
    simp only [waitForResponse]
    split <;> (try split) <;> simp [BeforeParsing, hs]
  | error => simp [handleError, BeforeParsing]

/-- All contacts of a client that is past parsing. -/
theorem ahead_trace {d : AppHTTPSClientData κ} (h : ¬ BeforeParsing d.state)
    (nets : List NetAnswers) : Ahead nets d (contacts ((polling κ).trace d nets)) := by
  induction nets generalizing d with
  | nil => exact ahead_nil [] d
  | cons net nets ih =>
    rw [Machine.trace_cons, contacts_append]
    exact ahead_tasks h (ih (beforeParsing_tasks h net))

/-- The client that has accepted the request when it parses the URL. -/
def readyToParse (d : AppHTTPSClientData κ) (url : List UInt8)
    (callbacks : AppHttpsClientCallbacks κ) (first : NetAnswers) : AppHTTPSClientData κ :=
  { accept d url callbacks with
    state := .parseRequestUrl
    timeout := first.systemCount + first.systemFrequency }

/-- Before the URL is parsed nothing is contacted, and the third call parses it. -/
theorem trace_accept (d : AppHTTPSClientData κ) (url : List UInt8)
    (callbacks : AppHttpsClientCallbacks κ) (nets : List NetAnswers) :
    (nets.length < 3 ∧ (polling κ).trace (accept d url callbacks) nets = []) ∨
    ∃ first second third rest, nets = first :: second :: third :: rest ∧
      (polling κ).trace (accept d url callbacks) nets =
        (polling κ).trace (pasreRequestURL (readyToParse d url callbacks first)) rest := by
  match nets with
  | [] => exact .inl ⟨by decide, rfl⟩
  | [_] => exact .inl ⟨by simp, rfl⟩
  | [_, _] => exact .inl ⟨by simp, rfl⟩
  | first :: second :: third :: rest => exact .inr ⟨first, second, third, rest, rfl, rfl⟩

/-! ## What is kept of a URL -/

/-- `scheme://authority` with what stands behind it. -/
def urlText (scheme authority tail : List UInt8) : List UInt8 :=
  scheme ++ 58 :: (lit "//" ++ (authority ++ tail))

theorem keptUrl_eq {url : List UInt8} (h0 : 0 ∉ url) : keptUrl url = url.take (maxUrl - 1) :=
  cstr_eq_self fun h => h0 (List.mem_of_mem_take h)

/-- The scheme with its colon fits: the rest of the URL is cut. -/
theorem keptUrl_urlText {scheme authority tail : List UInt8} (h0 : 0 ∉ urlText scheme authority tail)
    (hlen : scheme.length < maxUrl - 1) :
    keptUrl (urlText scheme authority tail) =
      scheme ++ 58 :: (lit "//" ++ (authority ++ tail)).take (maxUrl - 2 - scheme.length) := by
  have hroom : maxUrl - 1 - scheme.length = maxUrl - 2 - scheme.length + 1 := by
    have : maxUrl = 128 := rfl
    omega
  rw [keptUrl_eq h0, urlText, List.take_append, List.take_of_length_le (by omega), hroom,
    List.take_succ_cons]

/-- The scheme fills the buffer: no colon is kept. -/
theorem splitUrl_longScheme {scheme authority tail : List UInt8} (hfree : Free [58] scheme)
    (h0 : 0 ∉ urlText scheme authority tail) (hlen : maxUrl - 1 ≤ scheme.length) :
    splitUrl (keptUrl (urlText scheme authority tail)) = none := by
  have hkept : keptUrl (urlText scheme authority tail) = scheme.take (maxUrl - 1) := by
    rw [keptUrl_eq h0, urlText, List.take_append_of_le_length hlen]
  have hon : onFrom [58] (scheme.take (maxUrl - 1)) = [] :=
    Free.onFrom_eq fun b hb => hfree b (List.mem_of_mem_take hb)
  rw [hkept]
  unfold splitUrl
  rw [hon]

section Kept

variable {scheme authority tail : List UInt8}

/-- Authority and tail of a URL that is cut `room` characters behind the colon. -/
theorem upTo_cut (hfree : Free (lit "/?#") authority) (htail : EndsAuthority tail) (room : Nat) :
    upTo (lit "/?#") (((lit "//" ++ (authority ++ tail)).take room).drop 2) =
        authority.take (room - 2) ∧
      onFrom (lit "/?#") (((lit "//" ++ (authority ++ tail)).take room).drop 2) =
        tail.take (room - 2 - authority.length) := by
  obtain ⟨hup, hon⟩ := hfree.cut_ends htail
  have hdrop : ((lit "//" ++ (authority ++ tail)).take room).drop 2 =
      (authority ++ tail).take (room - 2) := List.drop_take ..
  rw [hdrop, upTo_take, onFrom_take, hup, hon]
  exact ⟨rfl, rfl⟩

end Kept

/-! ## What a request is after -/

/-- The text of a request. -/
def requestTextOf (path host : List UInt8) : List UInt8 :=
  lit "GET " ++ path ++ lit " HTTP/1.1\r\n" ++ lit "Host: " ++ host ++ lit "\r\n" ++
    lit "Connection: close\r\n\r\n"

/-- What a request for a URL with these pieces is after. -/
structure RequestTarget (d : AppHTTPSClientData κ) (url : List UInt8) (pieces : UrlPieces)
    (t : Target) : Prop where
  host : ∀ s ∈ pieces.host, t.host = s.take (maxUrlHost - 1)
  noHost : pieces.host = none → t.host = cstr d.host
  port : t.port = pieces.port.getD d.port
  encrypted : t.encrypted = true ↔ (keptUrl url).take 8 = lit "https://"
  text : t.text = cstr ((requestTextOf (pieces.pathSuffix.take (maxUrlPath - 1)) t.host).take
    (httpsClientNetworkBufferSize - 1))

theorem target_pasreRequestURL (d : AppHTTPSClientData κ) :
    let out := (urlParseGetParts d.url clientUrlSizes d.urlParts).2
    target (pasreRequestURL d) =
      ⟨cstr (out.host.getD d.host), out.port.getD d.port, d.wantsEncryption,
        cstr ((requestTextOf (cstr (out.pathSuffix.getD d.path)) (cstr (out.host.getD d.host))).take
          (httpsClientNetworkBufferSize - 1))⟩ := by
  unfold pasreRequestURL
  dsimp only
  split <;> rfl

theorem requestTarget_accept (d : AppHTTPSClientData κ) {url : List UInt8}
    (callbacks : AppHttpsClientCallbacks κ) {pieces : UrlPieces}
    (hsplit : splitUrl (keptUrl url) = some pieces) :
    RequestTarget d url pieces (target (pasreRequestURL (accept d url callbacks))) := by
  have hparsed := pasreRequestURL_cases (accept d url callbacks)
  rw [url_accept, hsplit] at hparsed
  have hurl : (pasreRequestURL (accept d url callbacks)).url.chars = keptUrl url := by
    rw [hparsed.rest]
    exact url_accept d url callbacks
  refine ⟨hparsed.host, fun hnone => ?_, hparsed.port, ?_, ?_⟩
  · exact congrArg cstr (hparsed.noHost hnone)
  · rw [← hurl]
    exact wantsEncryption_iff _
  · rw [← hparsed.path]
    rfl

/-- **The contacts of a request**, whatever the network answers. A URL that the parser finds no colon in
is rejected; any other leads to the host, the port and the path that the client has for it. -/
theorem contacts_request (d : AppHTTPSClientData κ) (url : List UInt8)
    (callbacks : AppHttpsClientCallbacks κ) :
    match splitUrl (keptUrl url) with
    | none => ∀ nets, contacts ((polling κ).trace (accept d url callbacks) nets) = []
    | some pieces => ∃ t, RequestTarget d url pieces t ∧
        ∀ nets, t.Contacts nets (contacts ((polling κ).trace (accept d url callbacks) nets)) := by
  cases hsplit : splitUrl (keptUrl url) with
  | none =>
    intro nets
    rcases trace_accept d url callbacks nets with ⟨-, hnil⟩ | ⟨first, second, third, rest, -, heq⟩
    · rw [hnil]
      rfl
    · have hparsed := pasreRequestURL_cases (readyToParse d url callbacks first)
      rw [show (readyToParse d url callbacks first).url = (accept d url callbacks).url from rfl,
        url_accept, hsplit] at hparsed
      have hstate : (pasreRequestURL (readyToParse d url callbacks first)).state = .error :=
        congrArg AppHTTPSClientData.state hparsed
      have hpast : ¬ BeforeParsing
          (pasreRequestURL (readyToParse d url callbacks first)).state := by
        simp [hstate, BeforeParsing]
      have hahead := ahead_trace hpast rest
      simp only [Ahead, hstate] at hahead
      rw [heq, hahead]
  | some pieces =>
    refine ⟨_, requestTarget_accept d callbacks hsplit, fun nets => ?_⟩
    rcases trace_accept d url callbacks nets with ⟨-, hnil⟩ | ⟨first, second, third, rest, rfl, heq⟩
    · rw [hnil]
      exact .nil _ _
    · have hparsed := pasreRequestURL_cases (readyToParse d url callbacks first)
      rw [show (readyToParse d url callbacks first).url = (accept d url callbacks).url from rfl,
        url_accept, hsplit] at hparsed
      have hstate : (pasreRequestURL (readyToParse d url callbacks first)).state =
          .processRequest := congrArg AppHTTPSClientData.state hparsed.rest
      have hpast : ¬ BeforeParsing
          (pasreRequestURL (readyToParse d url callbacks first)).state := by
        simp [hstate, BeforeParsing]
      have hahead := ahead_trace hpast rest
      simp only [Ahead, hstate] at hahead
      rw [target_pasreRequestURL] at hahead ⊢
      rw [heq]
      exact ((hahead.weaken third).weaken second).weaken first

/-! ## A network that lets the client do all this -/

theorem trace_direct {d : AppHTTPSClientData κ} (hs : d.state = .processRequest) :
    ∃ nets, contacts ((polling κ).trace d nets) =
      .connect .ipv4 d.port (.v4Add [127, 0, 0, 1]) :: (target d).session := by
  have hprocess : appHttpsClientTasks (NetAnswers.direct true) d =
      ({ d with
        ipAddress := .v4Add [127, 0, 0, 1]
        ipMode := .ipv4
        state := .startConnection }, []) := by
    unfold appHttpsClientTasks
    rw [hs]
    rfl
  have hconnect : appHttpsClientTasks (NetAnswers.direct true) { d with
        ipAddress := .v4Add [127, 0, 0, 1]
        ipMode := .ipv4
        state := .startConnection } =
      ({ d with
        ipAddress := .v4Add [127, 0, 0, 1]
        ipMode := .ipv4
        socket := 1
        state := .waitForConnection },
        [.socketOpen .ipv4 d.port (.v4Add [127, 0, 0, 1]) 1]) := rfl
  have hsend : ∀ e : AppHTTPSClientData κ, e.state = .sendRequest →
      contacts (appHttpsClientTasks (NetAnswers.direct true) e).2 = [.send (target e).text] := by
    intro e he
    unfold appHttpsClientTasks
    rw [he]
    exact congrArg (fun bytes => [Contact.send bytes]) (cstr_networkBuffer e)
  cases hw : d.wantsEncryption with
  | false =>
    have hwait : appHttpsClientTasks (NetAnswers.direct true) { d with
          ipAddress := .v4Add [127, 0, 0, 1]
          ipMode := .ipv4
          socket := 1
          state := .waitForConnection } =
        ({ d with
          ipAddress := .v4Add [127, 0, 0, 1]
          ipMode := .ipv4
          socket := 1
          state := .sendRequest }, []) :=
      if_neg (c := d.wantsEncryption = true) (by simp [hw])
    have hsession : (target d).session = [.send (target d).text] := by
      simp [Target.session, target, hw]
    refine ⟨List.replicate 4 (NetAnswers.direct true), ?_⟩
    simp only [List.replicate, Machine.trace_cons, Machine.trace_nil, contacts_append]
    simp only [polling, hprocess, hconnect, hwait, hsend]
    rw [hsession]
    rfl
  | true =>
    have hwait : appHttpsClientTasks (NetAnswers.direct true) { d with
          ipAddress := .v4Add [127, 0, 0, 1]
          ipMode := .ipv4
          socket := 1
          state := .waitForConnection } =
        ({ d with
          ipAddress := .v4Add [127, 0, 0, 1]
          ipMode := .ipv4
          socket := 1
          state := .waitForSslConnect }, [.socketEncryptSocket 1]) :=
      if_pos (c := d.wantsEncryption = true) hw
    have hsecure : appHttpsClientTasks (NetAnswers.direct true) { d with
          ipAddress := .v4Add [127, 0, 0, 1]
          ipMode := .ipv4
          socket := 1
          state := .waitForSslConnect } =
        ({ d with
          ipAddress := .v4Add [127, 0, 0, 1]
          ipMode := .ipv4
          socket := 1
          state := .sendRequest }, []) := rfl
    have hsession : (target d).session = [.encrypt, .send (target d).text] := by
      simp [Target.session, target, hw]
    refine ⟨List.replicate 5 (NetAnswers.direct true), ?_⟩
    simp only [List.replicate, Machine.trace_cons, Machine.trace_nil, contacts_append]
    simp only [polling, hprocess, hconnect, hwait, hsecure, hsend]
    rw [hsession]
    rfl

/-- With some network all that the request is after is done. -/
theorem trace_session (d : AppHTTPSClientData κ) {url : List UInt8}
    (callbacks : AppHttpsClientCallbacks κ) {pieces : UrlPieces}
    (hsplit : splitUrl (keptUrl url) = some pieces) :
    ∃ t, RequestTarget d url pieces t ∧
      ∃ nets, contacts ((polling κ).trace (accept d url callbacks) nets) =
        .connect .ipv4 t.port (.v4Add [127, 0, 0, 1]) :: t.session := by
  refine ⟨_, requestTarget_accept d callbacks hsplit, ?_⟩
  have hparsed := pasreRequestURL_cases (readyToParse d url callbacks (NetAnswers.direct true))
  rw [show (readyToParse d url callbacks (NetAnswers.direct true)).url =
    (accept d url callbacks).url from rfl, url_accept, hsplit] at hparsed
  have hstate : (pasreRequestURL (readyToParse d url callbacks (NetAnswers.direct true))).state =
      .processRequest := congrArg AppHTTPSClientData.state hparsed.rest
  obtain ⟨nets, hnets⟩ := trace_direct hstate
  refine ⟨NetAnswers.direct true :: NetAnswers.direct true :: NetAnswers.direct true :: nets, ?_⟩
  have hthird : (polling κ).trace (accept d url callbacks)
      (NetAnswers.direct true :: NetAnswers.direct true :: NetAnswers.direct true :: nets) =
      (polling κ).trace (pasreRequestURL (readyToParse d url callbacks (NetAnswers.direct true)))
        nets := rfl
  have hport : (pasreRequestURL (readyToParse d url callbacks (NetAnswers.direct true))).port =
      (target (pasreRequestURL (accept d url callbacks))).port := by
    rw [target_pasreRequestURL]
    exact congrArg Target.port (target_pasreRequestURL _)
  rw [hthird, hnets, hport, target_pasreRequestURL, target_pasreRequestURL]
  rfl

end HttpsClient

end NixieTracker
