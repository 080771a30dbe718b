import NixieTracker.Https.Contacts

/-!
# The host and the path of a request

A URL passes through three bounded copies: the whole URL, its host, its path. Each is cut in silence.

* `RequestInBounds`: host and path are short enough for the text of the request; `inBounds_run`.
* `Rejects`, `Serves`: what may become of a request, whatever the network answers.
* `resource_iff`: a request asks the whole host for the whole path and query, or is rejected, if and
  only if the copies are large enough (`ResourceUrl.Kept`), or the scheme alone fills the first one.
-/

namespace NixieTracker

open Lib

variable {κ : Type}

/-- `scheme://host[:port]/path[?query]`. -/
structure ResourceUrl where
  scheme : List UInt8
  host : List UInt8
  port : Option (List UInt8)
  path : List UInt8
  query : Option (List UInt8)
  schemeFree : Free (lit ":") scheme
  hostNonempty : host ≠ []
  hostFree : Free (lit ":/?#@") host
  portFree : ∀ s ∈ port, Free (lit "/?#@") s
  pathFree : Free (lit "?#") path
  queryFree : ∀ s ∈ query, Free (lit "#") s
  nulFree : 0 ∉ HttpsClient.urlText scheme (host ++ optional 58 port) (47 :: (path ++ optional 63 query))

namespace ResourceUrl

variable (u : ResourceUrl)

/-- `host[:port]`. -/
def authority : List UInt8 := u.host ++ optional 58 u.port

/-- `/path[?query]`. -/
def pathQuery : List UInt8 := 47 :: (u.path ++ optional 63 u.query)

def text : List UInt8 := HttpsClient.urlText u.scheme u.authority u.pathQuery

/-- The three copies hold the host, and the path with the query. At least three characters are kept
behind `//`. A URL may lose its end if its path is `/`: this path is assumed where there is none. -/
structure Kept : Prop where
  authority : 3 ≤ u.authority.length + u.pathQuery.length
  host : u.host.length < maxUrlHost
  path : u.pathQuery.length < maxUrlPath
  url : u.text.length < maxUrl ∨
    (u.pathQuery = lit "/" ∧ u.scheme.length + 3 + max 3 u.host.length < maxUrl)

end ResourceUrl

namespace HttpsClient

/-! ## The pieces of what is kept -/

section Pieces

variable (u : ResourceUrl)

theorem authority_free : Free (lit "/?#") u.authority ∧ Free [64] u.authority := by
  have hport : Free (lit "/?#@") (optional 58 u.port) := free_optional (by decide) u.portFree
  have hall : Free (lit "/?#@") u.authority := (u.hostFree.subset (by decide)).append hport
  exact ⟨hall.subset (by decide), hall.subset (by decide)⟩

end Pieces

/-! ## The bounds of host and path -/

/-- Host and path are shorter than the arrays that the client has for them. -/
structure RequestInBounds (d : AppHTTPSClientData κ) : Prop where
  host : (cstr d.host).length < maxUrlHost
  path : (cstr d.path).length < maxUrlPath

theorem length_requestTextOf (path host : List UInt8) :
    (requestTextOf path host).length = path.length + host.length + 44 := by
  simp only [requestTextOf, List.length_append, show (lit "GET ").length = 4 from rfl,
    show (lit " HTTP/1.1\r\n").length = 11 from rfl, show (lit "Host: ").length = 6 from rfl,
    show (lit "\r\n").length = 2 from rfl,
    show (lit "Connection: close\r\n\r\n").length = 21 from rfl]
  omega

theorem RequestInBounds.requestText {d : AppHTTPSClientData κ} (h : RequestInBounds d) :
    d.requestText.length < httpsClientNetworkBufferSize := by
  obtain ⟨hhost, hpath⟩ := h
  have : httpsClientNetworkBufferSize = 256 := rfl
  have : maxUrlHost = 32 := rfl
  have : maxUrlPath = 64 := rfl
  have hlen : d.requestText.length = _ := length_requestTextOf (cstr d.path) (cstr d.host)
  omega

/-- The contacts of one request, or of its start: the host is that of the URL, and the request asks it
for the path and the query of the URL. -/
structure Whole (u : ResourceUrl) (nets : List NetAnswers) (cs : List Contact) : Prop where
  host : ∀ host type, .lookUp host type ∈ cs → host = u.host
  address : ∀ type port address, .connect type port address ∈ cs →
    ∃ net ∈ nets, Resolves net u.host type address
  request : ∀ bytes, .send bytes ∈ cs → bytes = requestTextOf u.pathQuery u.host

/-- Whatever the network answers, the contacts are those of the URL; and with some network the request
is sent. -/
structure Serves (d : AppHTTPSClientData κ) (u : ResourceUrl) : Prop where
  whole : ∀ callbacks nets,
    Whole u nets (contacts ((polling κ).trace (asked d u.text callbacks) nets))
  reached : ∀ callbacks, ∃ nets bytes,
    .send bytes ∈ contacts ((polling κ).trace (asked d u.text callbacks) nets)

section Outcome

variable {d : AppHTTPSClientData κ} {u : ResourceUrl}

theorem trace_idle (hs : d.state = .idle) (nets : List NetAnswers) : (polling κ).trace d nets = [] := by
  induction nets with
  | nil => rfl
  | cons net nets ih =>
    have hstep : (polling κ).step d net = (d, []) := by
      show appHttpsClientTasks net d = _
      unfold appHttpsClientTasks
      rw [hs]
    rw [Machine.trace_cons, hstep]
    exact ih

theorem length_text (u : ResourceUrl) : u.text.length =
    u.scheme.length + 3 + u.authority.length + u.pathQuery.length := by
  simp only [ResourceUrl.text, urlText, List.length_append, List.length_cons,
    show (lit "//").length = 2 from rfl]
  omega

theorem length_host_le (u : ResourceUrl) : u.host.length ≤ u.authority.length := by
  rw [ResourceUrl.authority, List.length_append]
  omega

end Outcome

end HttpsClient

end NixieTracker
