import NixieTracker.Https.Contacts

/-!
# Port and encryption by default

The scheme of a URL without a port is looked at twice: the parser compares the first five or four
characters of the URL and chooses the port, the client compares the first eight and encrypts.

* `SchemeDecides`: the contacts of a request go to the port of the scheme, and are encrypted for
  `https`.
* `scheme_decides_iff`: this holds if and only if no scheme other than `http` and `https` starts with
  `http`; `scheme_misread`: `httpx` goes to the port of `http`.
-/

namespace NixieTracker

open Lib

variable {κ : Type}

namespace HttpsClient

/-- `scheme://host` with anything behind it but a port. -/
structure PortlessUrl where
  scheme : List UInt8
  host : List UInt8
  tail : List UInt8
  schemeFree : Free (lit ":") scheme
  hostNonempty : host ≠ []
  hostFree : Free (lit ":/?#") host
  ends : EndsAuthority tail
  nulFree : 0 ∉ urlText scheme host tail

def PortlessUrl.text (u : PortlessUrl) : List UInt8 := urlText u.scheme u.host u.tail

/-- The contacts of one request: the port of the scheme, and encryption before the request is sent. -/
structure ByScheme (scheme : List UInt8) (cs : List Contact) : Prop where
  https : ∀ type port address, .connect type port address ∈ cs → (port = 443 ↔ scheme = lit "https")
  http : ∀ type port address, .connect type port address ∈ cs → (port = 80 ↔ scheme = lit "http")
  clear : .encrypt ∈ cs → scheme = lit "https"
  encrypted : ∀ before bytes after, cs = before ++ .send bytes :: after →
    (.encrypt ∈ before ↔ scheme = lit "https")
  together : ∀ before bytes after, cs = before ++ .send bytes :: after →
    (.encrypt ∈ before ↔ ∃ type address, .connect type 443 address ∈ before)

/-- Whatever the network answers, the scheme decides; and a URL of the two schemes is requested if the
network allows it. -/
structure SchemeDecides (d : AppHTTPSClientData κ) (u : PortlessUrl) : Prop where
  always : ∀ callbacks nets,
    ByScheme u.scheme (contacts ((polling κ).trace (asked d u.text callbacks) nets))
  reached : u.scheme = lit "http" ∨ u.scheme = lit "https" → ∀ callbacks, ∃ nets bytes,
    .send bytes ∈ contacts ((polling κ).trace (asked d u.text callbacks) nets)

/-! ## What the two tests see -/

/-- A test for the start of a URL sees only the scheme if it asks for no colon. -/
theorem take_scheme_iff (scheme rest : List UInt8) {text : List UInt8} (h : 58 ∉ text) :
    (scheme ++ 58 :: rest).take text.length = text ↔ text <+: scheme := by
  have htake : (scheme ++ 58 :: rest).take text.length = text ↔ text <+: scheme ++ 58 :: rest := by
    rw [List.prefix_iff_eq_take, eq_comm]
  rw [htake]
  constructor
  · intro hp
    rcases List.prefix_or_prefix_of_prefix hp (List.prefix_append scheme (58 :: rest)) with hs | hs
    · exact hs
    · obtain ⟨t, rfl⟩ := hs
      rw [List.prefix_append_right_inj] at hp
      cases t with
      | nil => simp
      | cons b t =>
        obtain ⟨rfl, -⟩ := List.cons_prefix_cons.mp hp
        exact absurd (by simp) h
  · exact fun hp => hp.trans (List.prefix_append ..)

theorem splitAt_subset (s : List UInt8) : (splitAt s).2 ⊆ s := by
  unfold splitAt
  split
  · exact fun _ hb => hb
  · exact fun b hb => (List.dropWhile_suffix _).subset (List.mem_of_mem_drop hb)

/-- The URL as the client keeps it, where the scheme leaves room for the colon. -/
theorem keptUrl_portless (u : PortlessUrl) (hlen : u.scheme.length < maxUrl - 1) :
    ∃ rest, keptUrl u.text = u.scheme ++ 58 :: rest ∧ 58 ∉ hostAndPort rest ∧
      (u.scheme = lit "https" → rest.take 2 = lit "//") := by
  refine ⟨_, keptUrl_urlText u.nulFree hlen, fun hm => ?_, fun hs => ?_⟩
  · have hcut := (upTo_cut (u.hostFree.subset (by decide)) u.ends (maxUrl - 2 - u.scheme.length)).1
    unfold hostAndPort at hm
    rw [hcut] at hm
    exact u.hostFree 58 (List.mem_of_mem_take (splitAt_subset _ hm)) (by decide)
  · rw [hs, List.take_take]
    rfl

/-- Without a port in the URL the parser gives the one of the scheme. -/
theorem splitUrl_portless {scheme rest : List UInt8} (hfree : Free (lit ":") scheme)
    (hport : 58 ∉ hostAndPort rest) :
    ∃ pieces, splitUrl (scheme ++ 58 :: rest) = some pieces ∧
      pieces.port = schemePort (scheme ++ 58 :: rest) := by
  have hon : onFrom [58] (scheme ++ 58 :: rest) = 58 :: rest := hfree.onFrom_append (by decide)
  have hdefault : ∀ tail default, (splitHostAndPort (hostAndPort rest) tail default).2 = default :=
    fun _ _ => if_pos (onFrom_eq_nil_iff.mpr hport)
  unfold splitUrl
  rw [hon]
  dsimp only
  split
  · refine ⟨_, rfl, ?_⟩
    split
    · exact hdefault _ _
    · exact hdefault _ _
  · exact ⟨_, rfl, rfl⟩

/-- The port of the scheme is chosen by its start. -/
theorem schemePort_scheme (scheme rest : List UInt8) :
    schemePort (scheme ++ 58 :: rest) =
      if lit "https" <+: scheme then some 443
      else if lit "http" <+: scheme then some 80 else none := by
  have h5 := take_scheme_iff scheme rest (show 58 ∉ lit "https" by decide)
  have h4 := take_scheme_iff scheme rest (show 58 ∉ lit "http" by decide)
  unfold schemePort
  simp only [← h5, ← h4]
  rfl

/-- Encryption is chosen by the scheme as a whole. -/
theorem take_https_iff {scheme rest : List UInt8} (hfree : Free (lit ":") scheme)
    (hrest : scheme = lit "https" → rest.take 2 = lit "//") :
    (scheme ++ 58 :: rest).take 8 = lit "https://" ↔ scheme = lit "https" := by
  constructor
  · intro h
    have hscheme : upTo [58] (scheme ++ 58 :: rest) = scheme := hfree.upTo_append (by decide)
    have hup := congrArg (upTo [58]) h
    rw [upTo_take, hscheme] at hup
    have h5 := take_scheme_iff scheme rest (show 58 ∉ lit "https" by decide)
    have hp : lit "https" <+: scheme := h5.mp (by
      have := congrArg (List.take 5) h
      rwa [List.take_take] at this)
    have hlen := congrArg List.length hup
    rw [List.length_take] at hlen
    have heq : (upTo [58] (lit "https://")).length = (lit "https").length := by decide
    have := hp.length_le
    have : (lit "https").length = 5 := rfl
    exact (hp.eq_of_length (by omega)).symm
  · intro h
    have hr := hrest h
    subst h
    exact congrArg (lit "https:" ++ ·) hr

/-! ## The contacts -/

/-- A target whose port and encryption go with the scheme. -/
structure Target.Fits (t : Target) (scheme : List UInt8) : Prop where
  https : t.port = 443 ↔ scheme = lit "https"
  http : t.port = 80 ↔ scheme = lit "http"
  encrypted : t.encrypted = true ↔ scheme = lit "https"

theorem Target.Fits.byScheme {t : Target} {scheme : List UInt8} (h : t.Fits scheme)
    {nets : List NetAnswers} {cs : List Contact} (hcs : t.Contacts nets cs) :
    ByScheme scheme cs := by
  have hport : ∀ type port address, .connect type port address ∈ cs → port = t.port := by
    intro type port address hc
    rcases hcs.mem hc with ⟨_, h⟩ | ⟨_, _, _, h⟩ | ⟨_, h⟩ | h
    all_goals cases h
    rfl
  have hencrypt : ∀ before bytes after, cs = before ++ .send bytes :: after →
      (.encrypt ∈ before ↔ scheme = lit "https") ∧
        ∃ type address, .connect type t.port address ∈ before := by
    rintro before bytes after rfl
    obtain ⟨lookUps, type, address, hl, rfl⟩ := hcs.before_send
    have hnotMem : .encrypt ∉ lookUps := by
      intro hm
      obtain ⟨type, htype⟩ := hl _ hm
      cases htype
    refine ⟨?_, type, address, by simp⟩
    rw [← h.encrypted]
    cases t.encrypted <;> simp [hnotMem]
  constructor
  case https => exact fun type port address hc => hport type port address hc ▸ h.https
  case http => exact fun type port address hc => hport type port address hc ▸ h.http
  case clear =>
    intro hc
    rcases hcs.mem hc with ⟨_, h'⟩ | ⟨_, _, _, h'⟩ | ⟨henc, -⟩ | h'
    · cases h'
    · cases h'
    · exact h.encrypted.mp henc
    · cases h'
  case encrypted => exact fun before bytes after heq => (hencrypt before bytes after heq).1
  case together =>
    intro before bytes after heq
    obtain ⟨hiff, type, address, hc⟩ := hencrypt before bytes after heq
    rw [hiff, ← h.https]
    constructor
    · intro h443
      rw [h443] at hc
      exact ⟨type, address, hc⟩
    · rintro ⟨type', address', hc'⟩
      exact (hport type' 443 address' (heq ▸ List.mem_append_left _ hc')).symm

/-- Port and encryption of a target, in terms of the scheme. -/
theorem target_portless {d : AppHTTPSClientData κ} {u : PortlessUrl} {pieces : UrlPieces}
    {t : Target} (hlen : u.scheme.length < maxUrl - 1)
    (hsplit : splitUrl (keptUrl u.text) = some pieces)
    (ht : RequestTarget d u.text pieces t) :
    t.port = (if lit "https" <+: u.scheme then 443
      else if lit "http" <+: u.scheme then 80 else d.port) ∧
      (t.encrypted = true ↔ u.scheme = lit "https") := by
  obtain ⟨rest, hkept, hport, hrest⟩ := keptUrl_portless u hlen
  obtain ⟨pieces', hsplit', hscheme⟩ := splitUrl_portless u.schemeFree hport
  rw [← hkept, hsplit] at hsplit'
  obtain rfl : pieces = pieces' := Option.some.inj hsplit'
  constructor
  · rw [ht.port, hscheme, schemePort_scheme]
    split
    · rfl
    · split <;> rfl
  · rw [ht.encrypted, hkept]
    exact take_https_iff u.schemeFree hrest

/-- The parser tells the scheme: none but `http` and `https` starts with `http`, of those that leave
room for a colon in the client's buffer. -/
def PortlessUrl.Distinct (u : PortlessUrl) : Prop :=
  lit "http" <+: u.scheme →
    u.scheme = lit "http" ∨ u.scheme = lit "https" ∨ maxUrl - 1 ≤ u.scheme.length

theorem target_fits {d : AppHTTPSClientData κ} (h80 : d.port ≠ 80) (h443 : d.port ≠ 443)
    {u : PortlessUrl} (hu : u.Distinct) {pieces : UrlPieces} {t : Target}
    (hlen : u.scheme.length < maxUrl - 1) (hsplit : splitUrl (keptUrl u.text) = some pieces)
    (ht : RequestTarget d u.text pieces t) : t.Fits u.scheme := by
  obtain ⟨hport, hencrypted⟩ := target_portless hlen hsplit ht
  by_cases hhttp : lit "http" <+: u.scheme
  · rcases hu hhttp with hs | hs | hs
    · rw [hs] at hport hencrypted
      have h80 : t.port = 80 :=
        (hport.trans (if_neg (by decide +kernel))).trans (if_pos (by decide +kernel))
      rw [hs]
      exact ⟨by rw [h80]; decide, by rw [h80]; decide, hencrypted⟩
    · rw [hs] at hport hencrypted
      have h443 : t.port = 443 := hport.trans (if_pos (by decide +kernel))
      rw [hs]
      exact ⟨by rw [h443]; decide, by rw [h443]; decide, hencrypted⟩
    · omega
  · have hhttps : ¬ lit "https" <+: u.scheme := fun h => hhttp (.trans (by decide) h)
    rw [if_neg hhttps, if_neg hhttp] at hport
    have hne : u.scheme ≠ lit "http" := fun h => hhttp (h ▸ List.prefix_refl _)
    have hnes : u.scheme ≠ lit "https" := fun h => hhttps (h ▸ List.prefix_refl _)
    rw [← hport] at h80 h443
    exact ⟨iff_of_false h443 hnes, iff_of_false h80 hne, hencrypted⟩

theorem schemeDecides_of_distinct {d : AppHTTPSClientData κ} (hs : d.state = .idle)
    (h80 : d.port ≠ 80) (h443 : d.port ≠ 443) {u : PortlessUrl} (hu : u.Distinct) :
    SchemeDecides d u := by
  by_cases hlen : u.scheme.length < maxUrl - 1
  · obtain ⟨rest, hkept, hport, -⟩ := keptUrl_portless u hlen
    obtain ⟨pieces, hsplit, -⟩ := splitUrl_portless u.schemeFree hport
    rw [← hkept] at hsplit
    constructor
    · intro callbacks nets
      have hcontacts := contacts_request d u.text callbacks
      rw [hsplit] at hcontacts
      obtain ⟨t, ht, hcs⟩ := hcontacts
      rw [asked_idle hs]
      exact (target_fits h80 h443 hu hlen hsplit ht).byScheme (hcs nets)
    · intro _ callbacks
      obtain ⟨t, -, nets, hnets⟩ := trace_session d callbacks hsplit
      refine ⟨nets, t.text, ?_⟩
      rw [asked_idle hs, hnets]
      exact List.mem_cons_of_mem _ (List.mem_append_right _ (List.mem_singleton_self _))
  · have hnone : splitUrl (keptUrl u.text) = none :=
      splitUrl_longScheme u.schemeFree u.nulFree (by omega)
    constructor
    · intro callbacks nets
      have hcontacts := contacts_request d u.text callbacks
      rw [hnone] at hcontacts
      rw [asked_idle hs, hcontacts nets]
      exact ⟨nofun, nofun, nofun, by simp, by simp⟩
    · rintro (hscheme | hscheme)
      · rw [hscheme] at hlen
        exact absurd (by decide) hlen
      · rw [hscheme] at hlen
        exact absurd (by decide) hlen

theorem distinct_of_schemeDecides {d : AppHTTPSClientData κ} (hs : d.state = .idle)
    {u : PortlessUrl} (h : SchemeDecides d u) : u.Distinct := by
  intro hhttp
  by_cases hlen : u.scheme.length < maxUrl - 1
  · obtain ⟨rest, hkept, hport, -⟩ := keptUrl_portless u hlen
    obtain ⟨pieces, hsplit, -⟩ := splitUrl_portless u.schemeFree hport
    rw [← hkept] at hsplit
    obtain ⟨t, ht, nets, hnets⟩ := trace_session d ⟨none, none, none⟩ hsplit
    have hby := h.always ⟨none, none, none⟩ nets
    rw [asked_idle hs, hnets] at hby
    have h443 := hby.https .ipv4 t.port (.v4Add [127, 0, 0, 1]) (List.mem_cons_self ..)
    have h80 := hby.http .ipv4 t.port (.v4Add [127, 0, 0, 1]) (List.mem_cons_self ..)
    have hport := (target_portless hlen hsplit ht).1
    by_cases hhttps : lit "https" <+: u.scheme
    · rw [if_pos hhttps] at hport
      exact .inr (.inl (h443.mp hport))
    · rw [if_neg hhttps, if_pos hhttp] at hport
      exact .inl (h80.mp hport)
  · exact .inr (.inr (by omega))

/-- **Default ports.** Port and encryption of a request for a URL without a port go with its scheme if
and only if the parser tells the scheme. -/
theorem scheme_decides_iff (d : AppHTTPSClientData κ) (hs : d.state = .idle) (h80 : d.port ≠ 80)
    (h443 : d.port ≠ 443) (u : PortlessUrl) : SchemeDecides d u ↔ u.Distinct :=
  ⟨distinct_of_schemeDecides hs, schemeDecides_of_distinct hs h80 h443⟩

theorem nixieOrg_hostFree : Free (lit ":/?#") (lit "nixie.org") := by decide +kernel

/-- `scheme://nixie.org/`. -/
def nixieOrgUrl (scheme : List UInt8) (hfree : Free (lit ":") scheme)
    (h0 : 0 ∉ urlText scheme (lit "nixie.org") (lit "/")) : PortlessUrl where
  scheme
  host := lit "nixie.org"
  tail := lit "/"
  schemeFree := hfree
  hostNonempty := nixieOrg_nonempty
  hostFree := nixieOrg_hostFree
  ends := slash_ends
  nulFree := h0

theorem https_nulFree : 0 ∉ urlText (lit "https") (lit "nixie.org") (lit "/") := by
  decide +kernel

theorem scheme_decides_https :
    SchemeDecides (.zeroed Nat) (nixieOrgUrl (lit "https") https_free https_nulFree) ↔
      (nixieOrgUrl (lit "https") https_free https_nulFree).Distinct :=
  scheme_decides_iff (.zeroed Nat) rfl (by decide +kernel) (by decide +kernel) _

/-- `httpsx://nixie.org/` is requested in clear text from port 443. -/
theorem scheme_misread :
    contacts ((polling Nat).trace (asked (.zeroed Nat) (lit "httpsx://nixie.org/") ⟨none, none, none⟩)
        (List.replicate 7 (NetAnswers.direct true))) =
      [.connect .ipv4 443 (.v4Add [127, 0, 0, 1]),
        .send (requestTextOf (lit "/") (lit "nixie.org"))] ∧
    ¬ ∀ (d : AppHTTPSClientData Nat) (u : PortlessUrl), d.state = .idle → d.port ≠ 80 →
      d.port ≠ 443 → SchemeDecides d u := by
  have htrace : contacts ((polling Nat).trace
      (asked (.zeroed Nat) (lit "httpsx://nixie.org/") ⟨none, none, none⟩)
        (List.replicate 7 (NetAnswers.direct true))) =
      [.connect .ipv4 443 (.v4Add [127, 0, 0, 1]),
        .send (requestTextOf (lit "/") (lit "nixie.org"))] := by
    decide +kernel
  refine ⟨htrace, fun h => ?_⟩
  have hby := (h (.zeroed Nat) (nixieOrgUrl (lit "httpsx") (by decide +kernel) (by decide +kernel)) rfl
    (by decide +kernel) (by decide +kernel)).always ⟨none, none, none⟩
      (List.replicate 7 (NetAnswers.direct true))
  have hcontact := (hby.https .ipv4 443 (.v4Add [127, 0, 0, 1]) (htrace ▸ List.mem_cons_self ..)).mp rfl
  exact absurd hcontact (by decide)

end HttpsClient

end NixieTracker
