import NixieTracker.Util.UrlRoundTrip

/-!
# URLs with an authority and no path

The parser on `scheme://authority` with whatever stands behind.

* `splitUrl_authority`: the pieces, if the part behind the colon has five characters.
* `pathless_parts_iff`: a URL that ends with its authority is parsed into its parts if the authority has
  three characters; with a query or a fragment behind it the path comes out empty.
-/

namespace NixieTracker

open Lib

namespace UrlComponents

variable (u : UrlComponents)

/-- `[?query][#fragment]`. -/
def pathlessSuffix : List UInt8 := optional 63 u.query ++ optional 35 u.fragment

/-- `scheme://[user[:password]@]host[:port][?query][#fragment]`: the path is left out. -/
def pathless : List UInt8 := u.scheme ++ 58 :: (lit "//" ++ (u.authority ++ u.pathlessSuffix))

/-! ## The pieces -/

/-- The pieces of the authority, where no path follows. -/
def authorityPieces (default : Option UInt16) : UrlPieces where
  scheme := u.scheme
  user := some (u.userInfo.elim [] UserInfo.user)
  password := some ((u.userInfo.bind UserInfo.password).getD [])
  host := some u.host
  port := u.port.elim default fun p => some (UInt16.ofNat p.value)
  path := lit "/"
  query := []
  fragment := []
  pathSuffix := lit "/"

theorem splitUrl_authority {tail url : List UInt8} (htail : EndsAuthority tail)
    (hurl : url = u.scheme ++ 58 :: (lit "//" ++ (u.authority ++ tail)))
    (hlen : 3 ≤ u.authority.length + tail.length) :
    splitUrl url = some (if tail = [] then u.authorityPieces (schemePort url)
      else withPath (u.authorityPieces (schemePort url)) tail) := by
  have hsplit := splitUrl_cut u.schemeFree u.authority_free htail hlen
  rw [← hurl, u.splitAt_authority] at hsplit
  dsimp only at hsplit
  rwa [u.splitHostAndPort_tail htail] at hsplit

theorem endsAuthority_pathlessSuffix : EndsAuthority u.pathlessSuffix := by
  intro c hc
  unfold pathlessSuffix at hc
  cases hq : u.query with
  | some s =>
    rw [hq] at hc
    cases hc
    decide
  | none =>
    cases hf : u.fragment with
    | some s =>
      rw [hq, hf] at hc
      cases hc
      decide
    | none =>
      rw [hq, hf] at hc
      cases hc

theorem pathlessSuffix_eq_nil : u.pathlessSuffix = [] ↔ u.query = none ∧ u.fragment = none := by
  unfold pathlessSuffix
  cases u.query <;> cases u.fragment <;> simp [optional]

/-- In front of the query and the fragment there is no path. -/
theorem splitPath_pathlessSuffix :
    splitPath u.pathlessSuffix = ([], u.query.getD [], u.fragment.getD []) := by
  have hquery : Free [35] (optional 63 u.query) := free_optional (by decide) u.queryFree
  have hcut := hquery.cut u.fragment
  have hcut' := Free.cut (c := 63) (s := []) nofun u.query
  rw [List.nil_append] at hcut'
  unfold splitPath pathlessSuffix
  dsimp only
  rw [hcut.1, hcut.2, hcut'.1, hcut'.2]

theorem schemePort_pathless_https (h : u.scheme = lit "https") : schemePort u.pathless = some 443 := by
  unfold schemePort pathless
  rw [h]
  rfl

theorem schemePort_pathless_http (h : u.scheme = lit "http") : schemePort u.pathless = some 80 := by
  unfold schemePort pathless
  rw [h]
  rfl

theorem length_pathless : u.pathless.length =
    u.scheme.length + 3 + u.authority.length + u.pathlessSuffix.length := by
  simp only [pathless, List.length_append, List.length_cons, show (lit "//").length = 2 from rfl]
  omega

end UrlComponents

/-! ## The outputs -/

/-- The outputs `new` hold the parts `u` of a URL without a path, each where the output is not
`NULL`. -/
structure YieldsPathless (u : UrlComponents) (old new : UrlParts) : Prop where
  user : new.user.map cstr = old.user.map fun _ => u.userInfo.elim [] UserInfo.user
  password : new.password.map cstr =
    old.password.map fun _ => (u.userInfo.bind UserInfo.password).getD []
  host : new.host.map cstr = old.host.map fun _ => u.host
  path : new.path.map cstr = old.path.map fun _ => lit "/"
  query : new.query.map cstr = old.query.map fun _ => u.query.getD []
  fragment : new.fragment.map cstr = old.fragment.map fun _ => u.fragment.getD []
  pathSuffix : ∀ s ∈ new.pathSuffix, (cstr s).head? = some 47
  explicitPort : ∀ p ∈ u.port, new.port = old.port.map fun _ => UInt16.ofNat p.value
  httpsPort : u.port = none → u.scheme = lit "https" → new.port = old.port.map fun _ => 443
  httpPort : u.port = none → u.scheme = lit "http" → new.port = old.port.map fun _ => 80

/-- The authority has three characters and ends the URL. -/
structure UrlComponents.EndsWithAuthority (u : UrlComponents) : Prop where
  query : u.query = none
  fragment : u.fragment = none
  length : 3 ≤ u.authority.length

theorem yieldsPathless_of_ends {u : UrlComponents} (h : u.EndsWithAuthority) (url : CString)
    (max : UrlSizes) (out : UrlParts) (htext : url.chars = u.pathless)
    (hmax : max.Exceed url.chars.length) :
    ∃ parts, urlParseGetParts url max out = (true, parts) ∧ YieldsPathless u out parts := by
  have hnil : u.pathlessSuffix = [] := u.pathlessSuffix_eq_nil.mpr ⟨h.query, h.fragment⟩
  have hsplit : splitUrl u.pathless = _ :=
    u.splitUrl_authority u.endsAuthority_pathlessSuffix rfl (by have := h.length; omega)
  rw [if_pos hnil] at hsplit
  have hparse := urlParseGetParts_eq url max out
  rw [htext, hsplit] at hparse
  obtain ⟨parts, heq, hw⟩ := hparse
  rw [htext, u.length_pathless, hnil] at hmax
  have huser := u.length_user_le
  have hpassword := u.length_password_le
  have hhost := u.length_host_le
  refine ⟨parts, heq, ?_⟩
  constructor
  case user => exact hw.user.map_cstr (by have := hmax.user; omega)
  case password => exact hw.password.map_cstr (by have := hmax.password; omega)
  case host => exact hw.host.map_cstr (by have := hmax.host; omega)
  case path =>
    exact hw.path.map_cstr (by have := hmax.path; show 1 < _; omega)
  case query =>
    rw [h.query]
    exact hw.query.map_cstr (by have := hmax.query; show 0 < _; omega)
  case fragment =>
    rw [h.fragment]
    exact hw.fragment.map_cstr (by have := hmax.fragment; show 0 < _; omega)
  case pathSuffix =>
    intro s hs
    have hsuffix := hw.pathSuffix.map_cstr (by have := hmax.pathSuffix; show 1 < _; omega)
    rw [Option.mem_def.mp hs, Option.map_some] at hsuffix
    obtain ⟨old, -, hold⟩ := Option.map_eq_some_iff.mp hsuffix.symm
    rw [← hold]
    rfl
  case explicitPort =>
    intro p hp
    rw [hw.port, UrlComponents.authorityPieces, Option.mem_def.mp hp]
    rfl
  case httpsPort =>
    intro hp hs
    rw [hw.port, UrlComponents.authorityPieces, hp, Option.elim_none, u.schemePort_pathless_https hs]
    rfl
  case httpPort =>
    intro hp hs
    rw [hw.port, UrlComponents.authorityPieces, hp, Option.elim_none, u.schemePort_pathless_http hs]
    rfl

/-- Empty buffers, and their sizes for a URL. -/
def UrlParts.empty : UrlParts :=
  ⟨some [], some [], some [], some [], some 0, some [], some [], some [], some []⟩

def UrlSizes.all (n : Nat) : UrlSizes := ⟨n, n, n, n, n, n, n, n⟩

theorem UrlSizes.all_exceed (n : Nat) : (UrlSizes.all (n + 1)).Exceed n := by
  constructor <;> exact Nat.lt_succ_self n

theorem ends_of_yieldsPathless {u : UrlComponents} {url : CString} {parts : UrlParts}
    (htext : url.chars = u.pathless)
    (hparts : urlParseGetParts url (.all (url.chars.length + 1)) .empty = (true, parts))
    (h : YieldsPathless u .empty parts) : u.EndsWithAuthority := by
  have hparse := urlParseGetParts_eq url (.all (url.chars.length + 1)) .empty
  -- The host is found only with three characters behind `//`.
  have hlen : 3 ≤ u.authority.length + u.pathlessSuffix.length := by
    by_contra hshort
    have hon : onFrom [58] url.chars = 58 :: (lit "//" ++ (u.authority ++ u.pathlessSuffix)) := by
      rw [htext]
      exact u.schemeFree.onFrom_append (by decide)
    obtain ⟨pieces, hs, hnone⟩ := splitUrl_of_path hon (by
      simp only [List.length_append, show (lit "//").length = 2 from rfl]
      omega)
    rw [hs] at hparse
    obtain ⟨new, heq, hw⟩ := hparse
    obtain rfl : new = parts := (Prod.mk.inj (heq.symm.trans hparts)).2
    have hhost := h.host
    have hkept := hw.host
    rw [hnone] at hkept
    rw [show new.host = UrlParts.empty.host from hkept] at hhost
    exact u.hostNonempty (Option.some.inj hhost).symm
  have hsplit := u.splitUrl_authority u.endsAuthority_pathlessSuffix htext hlen
  have hnil : u.pathlessSuffix = [] := by
    by_contra hne
    rw [hsplit, if_neg hne] at hparse
    obtain ⟨new, heq, hw⟩ := hparse
    obtain rfl : new = parts := (Prod.mk.inj (heq.symm.trans hparts)).2
    have hempty := hw.path.map_cstr (by
      simp only [withPath, u.splitPath_pathlessSuffix]
      exact Nat.succ_pos _)
    have hpath := h.path
    rw [hempty] at hpath
    simp only [withPath, u.splitPath_pathlessSuffix] at hpath
    exact absurd (Option.some.inj hpath) (by decide)
  obtain ⟨hq, hf⟩ := u.pathlessSuffix_eq_nil.mp hnil
  rw [hnil] at hlen
  exact ⟨hq, hf, hlen⟩

/-- **Pathless URLs.** `urlParseGetParts` returns the parts of a URL without a path, `/` for the path
and a path suffix that starts with `/`, in all outputs that are large enough, if and only if the URL
ends with its authority and this has three characters. -/
theorem pathless_parts_iff (u : UrlComponents) (url : CString) (htext : url.chars = u.pathless) :
    (∀ max out, max.Exceed url.chars.length →
      ∃ parts, urlParseGetParts url max out = (true, parts) ∧ YieldsPathless u out parts) ↔
    u.EndsWithAuthority := by
  constructor
  · intro h
    obtain ⟨parts, heq, hyields⟩ := h _ .empty (UrlSizes.all_exceed _)
    exact ends_of_yieldsPathless htext heq hyields
  · exact fun h max out hmax => yieldsPathless_of_ends h url max out htext hmax

/-- The parts of `https://nixie.org`, and of URLs with a query behind it. -/
def nixieOrg (query : Option (List UInt8)) (h : ∀ s ∈ query, Free (lit "#") s) : UrlComponents where
  scheme := lit "https"
  userInfo := none
  host := lit "nixie.org"
  port := none
  path := lit "a"
  query := query
  fragment := none
  schemeFree := https_free
  hostNonempty := nixieOrg_nonempty
  hostFree := nixieOrg_free
  pathNonempty := by decide
  pathFree := by decide +kernel
  queryFree := h

theorem pathless_parts_nixieOrg :
    ∃ parts, urlParseGetParts ⟨lit "https://nixie.org", by decide +kernel, by decide +kernel,
        fun _ => 0⟩ (.all ((lit "https://nixie.org").length + 1)) .empty = (true, parts) ∧
      YieldsPathless (nixieOrg none nofun) .empty parts :=
  (pathless_parts_iff (nixieOrg none nofun)
    ⟨lit "https://nixie.org", by decide +kernel, by decide +kernel, fun _ => 0⟩
    (by decide +kernel)).mpr ⟨rfl, rfl, by decide⟩ _ _ (UrlSizes.all_exceed _)

/-- `https://nixie.org?bugs`: the path is empty, and the path suffix starts with `?`. -/
theorem pathless_parts_query :
    ¬ ∀ (u : UrlComponents) (url : CString), url.chars = u.pathless →
      ∀ max out, max.Exceed url.chars.length →
        ∃ parts, urlParseGetParts url max out = (true, parts) ∧ YieldsPathless u out parts := by
  intro h
  obtain ⟨parts, heq, hyields⟩ := h (nixieOrg (some (lit "bugs")) (by decide +kernel))
    ⟨lit "https://nixie.org?bugs", by decide +kernel, by decide, fun _ => 0⟩ (by decide +kernel)
    _ .empty (UrlSizes.all_exceed _)
  have hpath : (urlParseGetParts ⟨lit "https://nixie.org?bugs", by decide +kernel, by decide,
      fun _ => 0⟩ (.all ((lit "https://nixie.org?bugs").length + 1)) .empty).2.path.map cstr =
      some [] := by decide +kernel
  rw [heq, hyields.path] at hpath
  exact absurd (Option.some.inj hpath) (by decide)

end NixieTracker
