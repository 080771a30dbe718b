import NixieTracker.Util.UrlAuthority

/-!
# Explicit ports

`UrlWithPort` holds the parts of `scheme://[user[:password]@]host:digits`, with any text for the digits
and whatever may stand behind an authority.

* `UrlWithPort.splitUrl_text`: the port the parser finds is the one `atoi` reads in the digits, cut to
  16 bits, if the part behind the colon has five characters.
* `UrlWithPort.portKept_iff`: the parser returns a number of 16 bits as the port; it never refuses a
  port, and for no digits at all it returns 0 in place of the default.
-/

namespace NixieTracker

open Lib

/-! ## The text -/

/-- The parts of a URL with a colon behind its host. -/
structure UrlWithPort where
  scheme : List UInt8
  userInfo : Option UserInfo
  host : List UInt8
  digits : List UInt8
  tail : List UInt8
  schemeFree : Free (lit ":") scheme
  hostFree : Free (lit ":/?#@") host
  digitsFree : Free (lit "/?#") digits
  /-- An `@` in the digits of a URL without user information would be the end of one. -/
  atFree : userInfo = none → Free (lit "@") digits
  tailEnds : EndsAuthority tail

namespace UrlWithPort

variable (u : UrlWithPort)

/-- `host:digits`. -/
def hostText : List UInt8 := u.host ++ 58 :: u.digits

/-- `[user[:password]@]host:digits`. -/
def authority : List UInt8 :=
  match u.userInfo with
  | none => u.hostText
  | some i => UrlComponents.userText i ++ 64 :: u.hostText

/-- `scheme://[user[:password]@]host:digits[tail]`. -/
def text : List UInt8 := u.scheme ++ 58 :: (lit "//" ++ (u.authority ++ u.tail))

/-- The port of the scheme, as `urlParse_scheme` leaves it: without a known one the caller's value. -/
def defaultPort (old : UInt16) : UInt16 := (schemePort u.text).getD old

/-- Three characters stand behind `//`. -/
def HostRead : Prop := 3 ≤ u.authority.length + u.tail.length

instance : Decidable u.HostRead := inferInstanceAs (Decidable (3 ≤ _))

end UrlWithPort

/-- A decimal number in 0..65535; leading zeros are allowed. -/
structure IsPort (digits : List UInt8) : Prop where
  nonempty : digits ≠ []
  digit : ∀ b ∈ digits, isDigit b = true
  le : digitsValue digits ≤ 65535

/-- The outcome keeps the port of the URL: the number, the default if there are no digits, and no
success if they are anything else. -/
structure PortKept (digits : List UInt8) (default : UInt16) (result : Bool × UrlParts) : Prop where
  number : IsPort digits → result.1 = true ∧ result.2.port = some (UInt16.ofNat (digitsValue digits))
  empty : digits = [] → result.1 = true ∧ result.2.port = some default
  other : digits ≠ [] → ¬ IsPort digits → result.1 = false

/-! ## What `atoi` reads -/

/-- Without digits `atoi` reads the tail, in which there is no number. -/
theorem atoi_of_ends {tail : List UInt8} (h : EndsAuthority tail) : atoi tail = 0 := by
  cases tail with
  | nil => rfl
  | cons c t =>
    have hc : c = 47 ∨ c = 63 ∨ c = 35 := by
      have := h c rfl
      rw [show lit "/?#" = [47, 63, 35] from by decide +kernel] at this
      simpa using this
    rcases hc with rfl | rfl | rfl
    all_goals rfl

/-- A number of 16 bits survives `atoi` and the conversion. -/
theorem IsPort.toUInt16_atoi {digits tail : List UInt8} (h : IsPort digits)
    (htail : EndsAuthority tail) :
    toUInt16 (atoi (digits ++ tail)) = UInt16.ofNat (digitsValue digits) := by
  have hle := h.le
  have hmod : (min (digitsValue digits : Int) (2 ^ 31 - 1) % 2 ^ 16).toNat = digitsValue digits := by
    omega
  rw [atoi_digits h.nonempty h.digit (isDigit_of_ends htail), toUInt16, hmod]

/-! ## The pieces -/

namespace UrlWithPort

variable (u : UrlWithPort)

theorem host_free {needles : List UInt8} (h : needles ⊆ lit ":/?#@") : Free needles u.host :=
  u.hostFree.subset h

theorem hostText_free : Free (lit "/?#") u.hostText :=
  (u.host_free (by decide)).append (u.digitsFree.cons (by decide))

theorem authority_free : Free (lit "/?#") u.authority := by
  unfold authority
  cases u.userInfo with
  | none => exact u.hostText_free
  | some i =>
    have huser : Free (lit "/?#") (UrlComponents.userText i) :=
      UrlComponents.userText_free i (by decide)
    exact huser.append (u.hostText_free.cons (by decide))

/-- The first `@` is the one behind the user information. -/
theorem splitAt_authority : (splitAt u.authority).2 = u.hostText := by
  unfold splitAt authority
  cases hinfo : u.userInfo with
  | none =>
    have hat : Free [64] u.hostText :=
      (u.host_free (by decide)).append ((u.atFree hinfo).cons (by decide))
    dsimp only
    rw [hat.onFrom_eq, if_pos rfl]
  | some i =>
    have huser : Free [64] (UrlComponents.userText i) :=
      UrlComponents.userText_free i (by decide)
    dsimp only
    rw [huser.onFrom_append (List.mem_singleton_self _), if_neg (List.cons_ne_nil _ _)]
    rfl

/-- The port starts behind the first colon, and `atoi` reads on into the tail. -/
theorem splitHostAndPort_hostText (default : Option UInt16) :
    (splitHostAndPort u.hostText u.tail default).2 =
      some (toUInt16 (atoi (u.digits ++ u.tail))) := by
  have hhost : Free [58] u.host := u.host_free (by decide)
  unfold splitHostAndPort hostText
  rw [hhost.onFrom_append (List.mem_singleton_self _), if_neg (List.cons_ne_nil _ _)]
  rfl

/-- The parser accepts the URL, whatever the digits are. -/
theorem splitUrl_text : ∃ pieces, splitUrl u.text = some pieces ∧ pieces.port =
    if u.HostRead then some (toUInt16 (atoi (u.digits ++ u.tail))) else schemePort u.text := by
  by_cases hread : u.HostRead
  · have hsplit := splitUrl_cut u.schemeFree u.authority_free u.tailEnds hread
    refine ⟨_, hsplit, ?_⟩
    rw [splitAt_authority, if_pos hread, ← u.splitHostAndPort_hostText (schemePort u.text)]
    split <;> rfl
  · have hon : onFrom [58] u.text = 58 :: (lit "//" ++ (u.authority ++ u.tail)) :=
      u.schemeFree.onFrom_append (by decide)
    have hshort : ¬ 5 ≤ (lit "//" ++ (u.authority ++ u.tail)).length := by
      rw [List.length_append, List.length_append]
      exact fun h5 => hread (Nat.le_of_add_le_add_left h5)
    unfold splitUrl
    rw [hon]
    dsimp only
    rw [if_neg fun h => hshort h.1, if_neg hread]
    exact ⟨_, rfl, rfl⟩

/-! ## The port -/

/-- What is returned for the port: a requested port is always given a value, with success. -/
theorem urlParseGetParts_port {url : CString} (htext : url.chars = u.text) (max : UrlSizes)
    {out : UrlParts} {old : UInt16} (hold : out.port = some old) :
    (urlParseGetParts url max out).1 = true ∧
    (urlParseGetParts url max out).2.port = some
      (if u.HostRead then toUInt16 (atoi (u.digits ++ u.tail)) else u.defaultPort old) := by
  obtain ⟨pieces, hsplit, hpieces⟩ := u.splitUrl_text
  have hparse := urlParseGetParts_eq url max out
  rw [htext, hsplit] at hparse
  obtain ⟨new, heq, hw⟩ := hparse
  have hport := hw.port
  rw [hold, hpieces, Option.map_some] at hport
  rw [heq]
  refine ⟨rfl, hport.trans ?_⟩
  unfold defaultPort
  split <;> rfl

/-- The parser finds the port: there are no digits or a number of 16 bits, and either the digits are
read exactly if there are some, or the port of the scheme is their value anyway. -/
structure PortFound (old : UInt16) : Prop where
  digits : u.digits = [] ∨ IsPort u.digits
  read : (u.HostRead ↔ u.digits ≠ []) ∨ u.defaultPort old = UInt16.ofNat (digitsValue u.digits)

/-- The value that is read, without digits 0. -/
theorem toUInt16_digits (h : u.digits = [] ∨ IsPort u.digits) :
    toUInt16 (atoi (u.digits ++ u.tail)) = UInt16.ofNat (digitsValue u.digits) := by
  rcases h with h | h
  · rw [h, List.nil_append, atoi_of_ends u.tailEnds]
    rfl
  · exact h.toUInt16_atoi u.tailEnds

/-- **Explicit ports.** `urlParseGetParts` keeps the port of a URL if and only if it finds it: any other
text behind the colon is accepted as a port. -/
theorem portKept_iff (url : CString) (htext : url.chars = u.text) (max : UrlSizes) (out : UrlParts)
    (old : UInt16) (hold : out.port = some old) :
    PortKept u.digits (u.defaultPort old) (urlParseGetParts url max out) ↔ u.PortFound old := by
  obtain ⟨htrue, hport⟩ := u.urlParseGetParts_port htext max hold
  constructor
  · intro h
    have hdigits : u.digits = [] ∨ IsPort u.digits := by
      by_contra hnot
      have hfalse := h.other (fun hnil => hnot (.inl hnil)) fun hp => hnot (.inr hp)
      exact Bool.noConfusion (htrue.symm.trans hfalse)
    refine ⟨hdigits, ?_⟩
    rw [u.toUInt16_digits hdigits] at hport
    rcases hdigits with hnil | hnum
    · have hdefault := hport.symm.trans (h.empty hnil).2
      by_cases hread : u.HostRead
      · rw [if_pos hread] at hdefault
        exact .inr (Option.some.inj hdefault).symm
      · exact .inl ⟨fun hr => absurd hr hread, fun hne => absurd hnil hne⟩
    · have hnumber := hport.symm.trans (h.number hnum).2
      by_cases hread : u.HostRead
      · exact .inl ⟨fun _ => hnum.nonempty, fun _ => hread⟩
      · rw [if_neg hread] at hnumber
        exact .inr (Option.some.inj hnumber)
  · intro h
    rw [u.toUInt16_digits h.digits] at hport
    constructor
    case number =>
      intro hnum
      refine ⟨htrue, hport.trans (congrArg some ?_)⟩
      split
      · rfl
      · rename_i hread
        exact h.read.resolve_left fun hiff => hread (hiff.mpr hnum.nonempty)
    case empty =>
      intro hnil
      refine ⟨htrue, hport.trans (congrArg some ?_)⟩
      split
      · rename_i hread
        exact (h.read.resolve_left fun hiff => hiff.mp hread hnil).symm
      · rfl
    case other => exact fun hne hnum => absurd h.digits (not_or.mpr ⟨hne, hnum⟩)

end UrlWithPort

theorem http_free : Free (lit ":") (lit "http") := by decide +kernel

theorem me_free : Free (lit ":/?#@") (lit "me") := by decide +kernel

theorem mePassword_free : ∀ s ∈ some (lit "a:b"), Free (lit "/?#@") s := by decide +kernel

/-- The parts of `http://me:a:b@nixie.org:digits/`. -/
def nixieOrgPort (digits : List UInt8) (h : Free (lit "/?#") digits) : UrlWithPort where
  scheme := lit "http"
  userInfo := some ⟨lit "me", some (lit "a:b"), me_free, mePassword_free⟩
  host := lit "nixie.org"
  digits := digits
  tail := lit "/"
  schemeFree := http_free
  hostFree := nixieOrg_free
  digitsFree := h
  atFree := nofun
  tailEnds := slash_ends

theorem portKept_nixieOrg : PortKept (lit "08080") 80
    (urlParseGetParts ⟨lit "http://me:a:b@nixie.org:08080/", by decide +kernel, by decide +kernel,
      fun _ => 0⟩ (.all 64) .empty) :=
  ((nixieOrgPort (lit "08080") (by decide +kernel)).portKept_iff _ (by decide +kernel) _ _ 0 rfl).mpr
    ⟨.inr ⟨by decide +kernel, by decide +kernel, by decide +kernel⟩,
      .inl (by decide +kernel)⟩

/-- `http://me:a:b@nixie.org:65616/` is accepted, with port 80. -/
theorem port_not_kept :
    ¬ ∀ (u : UrlWithPort) (url : CString), url.chars = u.text → ∀ max out old,
      out.port = some old → PortKept u.digits (u.defaultPort old) (urlParseGetParts url max out) := by
  intro h
  have hkept := h (nixieOrgPort (lit "65616") (by decide +kernel))
    ⟨lit "http://me:a:b@nixie.org:65616/", by decide +kernel, by decide +kernel, fun _ => 0⟩
    (by decide +kernel) (.all 64) .empty 0 rfl
  have hlarge : ¬ digitsValue (lit "65616") ≤ 65535 := by decide +kernel
  have hfalse := hkept.other (by decide +kernel) fun hp => hlarge hp.le
  have htrue : (urlParseGetParts ⟨lit "http://me:a:b@nixie.org:65616/", by decide +kernel,
      by decide +kernel, fun _ => 0⟩ (.all 64) .empty).1 = true := by decide +kernel
  rw [hfalse] at htrue
  cases htrue

end NixieTracker
