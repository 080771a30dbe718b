import NixieTracker.Util.UrlAuthority

/-!
# Path, query and fragment

The end of a URL, which the parser returns as a whole and in parts.

* `splitUrl_pathSuffix`: the pieces agree for every URL that the parser accepts.
* `pathSuffix_splits`: so do the outputs.
* `noAuthority_parts_iff`: without an authority the end of the URL is found only if it has fewer than
  two characters. Otherwise the last two are lost; they are taken for `//`.
-/

namespace NixieTracker

open Lib

/-- The outputs for the end of a URL have room for `n` characters and the NUL, where they are not
`NULL`. -/
structure UrlParts.HasRoom (out : UrlParts) (max : UrlSizes) (n : Nat) : Prop where
  path : out.path.isSome → n < max.maxPath
  query : out.query.isSome → n < max.maxQuery
  fragment : out.fragment.isSome → n < max.maxFragment
  pathSuffix : out.pathSuffix.isSome → n < max.maxPathSuffix

/-- The outputs `new` hold the path, the query and the fragment of `suffix`, each where the output is
not `NULL`. -/
structure YieldsPath (suffix : List UInt8) (old new : UrlParts) : Prop where
  path : new.path.map cstr = old.path.map fun _ => (splitPath suffix).1
  query : new.query.map cstr = old.query.map fun _ => (splitPath suffix).2.1
  fragment : new.fragment.map cstr = old.fragment.map fun _ => (splitPath suffix).2.2

/-! ## The pieces -/

theorem onFrom_cons_eq {c b : UInt8} {s t : List UInt8} (h : onFrom [c] s = b :: t) : b = c := by
  have hne := List.head?_dropWhile_not (p := (· ∉ [c])) s
  unfold onFrom at h
  rw [h] at hne
  simpa using hne

/-- A cut at a delimiter gives the parts on both sides. -/
theorem upTo_optional (c : UInt8) (s : List UInt8) :
    ∃ o, s = upTo [c] s ++ optional c o ∧ o.getD [] = (onFrom [c] s).drop 1 := by
  cases h : onFrom [c] s with
  | nil => exact ⟨none, by rw [optional, List.append_nil, onFrom_eq_nil.mp h], rfl⟩
  | cons b t =>
    obtain rfl := onFrom_cons_eq h
    refine ⟨some t, ?_, rfl⟩
    rw [optional, ← h, upTo_append_onFrom]

/-- What `splitPath` gives is all of the string, but for the delimiters. -/
theorem splitPath_join (s : List UInt8) : ∃ query fragment,
    s = (splitPath s).1 ++ optional 63 query ++ optional 35 fragment ∧
      query.getD [] = (splitPath s).2.1 ∧ fragment.getD [] = (splitPath s).2.2 := by
  obtain ⟨fragment, hs, hfragment⟩ := upTo_optional 35 s
  obtain ⟨query, ht, hquery⟩ := upTo_optional 63 (upTo [35] s)
  refine ⟨query, fragment, ?_, hquery, hfragment⟩
  show s = upTo [63] (upTo [35] s) ++ optional 63 query ++ optional 35 fragment
  rw [← ht, ← hs]

theorem splitPath_length (s : List UInt8) : (splitPath s).1.length ≤ s.length ∧
    (splitPath s).2.1.length ≤ s.length ∧ (splitPath s).2.2.length ≤ s.length := by
  obtain ⟨query, fragment, hs, hquery, hfragment⟩ := splitPath_join s
  have hlen := congrArg List.length hs
  have hq := UrlComponents.length_le_optional 63 query
  have hf := UrlComponents.length_le_optional 35 fragment
  rw [← hquery, ← hfragment]
  simp only [List.length_append] at hlen
  omega

theorem length_onFrom_le (needles s : List UInt8) : (onFrom needles s).length ≤ s.length :=
  (List.dropWhile_suffix _).length_le

theorem length_pathPastScheme_le (rest : List UInt8) : (pathPastScheme rest).length ≤ rest.length := by
  unfold pathPastScheme
  split
  · exact Nat.le_refl _
  · exact (List.take_prefix ..).length_le

/-- The parts of the end of a URL are the end of the URL split up. -/
theorem splitUrl_pathSuffix {url : List UInt8} {pieces : UrlPieces} (h : splitUrl url = some pieces) :
    splitPath pieces.pathSuffix = (pieces.path, pieces.query, pieces.fragment) ∧
      pieces.pathSuffix.length ≤ url.length := by
  by_cases hnil : onFrom [58] url = []
  · unfold splitUrl at h
    rw [hnil] at h
    cases h
  · obtain ⟨rest, hurl, hon⟩ := splitUrl_scheme hnil
    have hlen := congrArg List.length hurl
    rw [List.length_append, List.length_cons] at hlen
    unfold splitUrl at h
    rw [hon] at h
    dsimp only at h
    split at h
    · split at h
      · obtain rfl := (Option.some.inj h).symm
        exact ⟨rfl, by show 1 ≤ _; omega⟩
      · obtain rfl := (Option.some.inj h).symm
        refine ⟨rfl, ?_⟩
        have htail := length_onFrom_le (lit "/?#") (rest.drop 2)
        rw [List.length_drop] at htail
        show (onFrom (lit "/?#") (rest.drop 2)).length ≤ _
        omega
    · obtain rfl := (Option.some.inj h).symm
      refine ⟨rfl, ?_⟩
      have hpath := length_pathPastScheme_le rest
      show (pathPastScheme rest).length ≤ _
      omega

/-! ## The outputs -/

/-- An output that is `NULL` or has room. -/
theorem Wrote.map_of_room {s : List UInt8} {n maxCopy : Nat} {old new : Option (List UInt8)}
    (h : Wrote (some s) maxCopy old new) (hs : s.length ≤ n) (hroom : old.isSome → n < maxCopy) :
    new.map cstr = old.map fun _ => s := by
  cases old with
  | none => rw [h.eq_none]; rfl
  | some b => exact h.map_cstr (Nat.lt_of_le_of_lt hs (hroom rfl))

section Outputs

variable {url : CString} {max : UrlSizes} {out parts : UrlParts} {pieces : UrlPieces}

theorem yieldsPath_of_wrote (hroom : out.HasRoom max url.chars.length)
    (hsplit : splitUrl url.chars = some pieces) (hw : WrotePieces max pieces out parts) :
    YieldsPath pieces.pathSuffix out parts ∧
      parts.pathSuffix.map cstr = out.pathSuffix.map fun _ => pieces.pathSuffix := by
  obtain ⟨hpath, hlen⟩ := splitUrl_pathSuffix hsplit
  obtain ⟨h1, h2, h3⟩ := splitPath_length pieces.pathSuffix
  rw [hpath] at h1 h2 h3
  refine ⟨?_, hw.pathSuffix.map_of_room hlen hroom.pathSuffix⟩
  constructor
  case path =>
    rw [hpath]
    exact hw.path.map_of_room (h1.trans hlen) hroom.path
  case query =>
    rw [hpath]
    exact hw.query.map_of_room (h2.trans hlen) hroom.query
  case fragment =>
    rw [hpath]
    exact hw.fragment.map_of_room (h3.trans hlen) hroom.fragment

/-- **The suffix and its parts.** Whatever URL is accepted, the path suffix, split at its first `#` and
then at the first `?`, gives the path, the query and the fragment, and it is
`path[?query][#fragment]`. -/
theorem pathSuffix_splits (hroom : out.HasRoom max url.chars.length)
    (hparse : urlParseGetParts url max out = (true, parts)) {suffix : List UInt8}
    (hsuffix : parts.pathSuffix.map cstr = some suffix) :
    YieldsPath suffix out parts ∧
      ∃ query fragment, suffix = (splitPath suffix).1 ++ optional 63 query ++ optional 35 fragment ∧
        query.getD [] = (splitPath suffix).2.1 ∧ fragment.getD [] = (splitPath suffix).2.2 := by
  refine ⟨?_, splitPath_join suffix⟩
  have heq := urlParseGetParts_eq url max out
  cases hsplit : splitUrl url.chars with
  | none =>
    rw [hsplit, hparse] at heq
    cases heq
  | some pieces =>
    rw [hsplit] at heq
    obtain ⟨new, hnew, hw⟩ := heq
    obtain rfl : parts = new := (Prod.mk.inj (hparse.symm.trans hnew)).2
    obtain ⟨hyields, hpathSuffix⟩ := yieldsPath_of_wrote hroom hsplit hw
    rw [hsuffix] at hpathSuffix
    obtain ⟨_, -, heq⟩ := Option.map_eq_some_iff.mp hpathSuffix.symm
    rwa [← heq]

end Outputs

theorem empty_hasRoom (n : Nat) : UrlParts.empty.HasRoom (.all (n + 1)) n := by
  constructor <;> exact fun _ => Nat.lt_succ_self n

/-- A URL with a query and a fragment behind its authority. -/
def bugsUrl : CString := ⟨lit "https://nixie.org?bugs#4", by decide +kernel, by decide, fun _ => 0⟩

theorem pathSuffix_splits_bugsUrl :
    YieldsPath (lit "?bugs#4") .empty
      (urlParseGetParts bugsUrl (.all (bugsUrl.chars.length + 1)) .empty).2 := by
  have hparse : urlParseGetParts bugsUrl (.all (bugsUrl.chars.length + 1)) .empty =
      (true, (urlParseGetParts bugsUrl (.all (bugsUrl.chars.length + 1)) .empty).2) := by
    decide +kernel
  have hsuffix : (urlParseGetParts bugsUrl (.all (bugsUrl.chars.length + 1)) .empty).2.pathSuffix.map
      cstr = some (lit "?bugs#4") := by
    decide +kernel
  exact (pathSuffix_splits (empty_hasRoom bugsUrl.chars.length) hparse hsuffix).1

/-! ## URLs without an authority -/

section NoAuthority

variable {scheme rest : List UInt8}

/-- The outputs `new` hold all of `rest`, the end of a URL, as a whole and in parts. -/
structure YieldsRest (rest : List UInt8) (old new : UrlParts) : Prop where
  parts : YieldsPath rest old new
  pathSuffix : new.pathSuffix.map cstr = old.pathSuffix.map fun _ => rest

theorem splitUrl_noAuthority (hfree : Free (lit ":") scheme) (hrest : rest.take 2 ≠ lit "//") :
    ∃ pieces, splitUrl (scheme ++ 58 :: rest) = some pieces ∧
      pieces.pathSuffix = pathPastScheme rest := by
  have hon : onFrom [58] (scheme ++ 58 :: rest) = 58 :: rest := hfree.onFrom_append (by decide)
  unfold splitUrl
  rw [hon]
  dsimp only
  rw [if_neg fun h => hrest h.2]
  exact ⟨_, rfl, rfl⟩

theorem pathPastScheme_eq_iff : pathPastScheme rest = rest ↔ rest.length < 2 := by
  unfold pathPastScheme
  split
  · exact iff_of_true rfl ‹_›
  · refine iff_of_false (fun h => ?_) ‹_›
    have hlen := congrArg List.length h
    rw [List.length_take] at hlen
    omega

/-- **URLs without an authority.** The parser returns the end of `scheme:rest`, as a whole and in parts,
in all outputs that have room for it, if and only if `rest` has fewer than two characters. -/
theorem noAuthority_parts_iff (hfree : Free (lit ":") scheme) (hrest : rest.take 2 ≠ lit "//")
    (url : CString) (hurl : url.chars = scheme ++ 58 :: rest) :
    (∀ max out, out.HasRoom max url.chars.length →
      ∃ parts, urlParseGetParts url max out = (true, parts) ∧ YieldsRest rest out parts) ↔
    rest.length < 2 := by
  obtain ⟨pieces, hsplit, hsuffix⟩ := splitUrl_noAuthority hfree hrest
  rw [← hurl] at hsplit
  have hparse : ∀ max out, ∃ new, urlParseGetParts url max out = (true, new) ∧
      WrotePieces max pieces out new := by
    intro max out
    have heq := urlParseGetParts_eq url max out
    rw [hsplit] at heq
    exact heq
  constructor
  · intro h
    obtain ⟨parts, heq, hyields⟩ := h _ _ (empty_hasRoom url.chars.length)
    obtain ⟨new, hnew, hw⟩ := hparse (.all (url.chars.length + 1)) .empty
    obtain rfl : parts = new := (Prod.mk.inj (heq.symm.trans hnew)).2
    have hkept := (yieldsPath_of_wrote (empty_hasRoom _) hsplit hw).2
    rw [hsuffix, hyields.pathSuffix] at hkept
    exact pathPastScheme_eq_iff.mp (Option.some.inj hkept).symm
  · intro hshort max out hroom
    obtain ⟨new, hnew, hw⟩ := hparse max out
    obtain ⟨hpath, hkept⟩ := yieldsPath_of_wrote hroom hsplit hw
    rw [hsuffix, pathPastScheme_eq_iff.mpr hshort] at hpath hkept
    exact ⟨new, hnew, hpath, hkept⟩

/-- `mailto:#`. -/
theorem noAuthority_parts_mailto :
    ∃ parts, urlParseGetParts ⟨lit "mailto:#", by decide +kernel, by decide +kernel, fun _ => 0⟩
        (.all ((lit "mailto:#").length + 1)) .empty = (true, parts) ∧
      YieldsRest (lit "#") .empty parts :=
  (noAuthority_parts_iff (show Free (lit ":") (lit "mailto") by decide +kernel) (by decide +kernel)
    ⟨lit "mailto:#", by decide +kernel, by decide +kernel, fun _ => 0⟩ (by decide +kernel)).mpr
      (by decide +kernel) _ _ (empty_hasRoom _)

def mailtoUrl : CString :=
  ⟨lit "mailto:nixie?bugs", by decide +kernel, by decide +kernel, fun _ => 0⟩

/-- `mailto:nixie?bugs`: the query is cut to `bu`. -/
theorem noAuthority_parts_cut :
    ¬ ∀ (scheme rest : List UInt8), Free (lit ":") scheme → rest.take 2 ≠ lit "//" →
      ∀ url : CString, url.chars = scheme ++ 58 :: rest →
        ∀ max out, out.HasRoom max url.chars.length →
          ∃ parts, urlParseGetParts url max out = (true, parts) ∧ YieldsRest rest out parts := by
  intro h
  obtain ⟨parts, heq, hyields⟩ := h (lit "mailto") (lit "nixie?bugs") (by decide +kernel)
    (by decide +kernel) mailtoUrl (by decide +kernel) _ _ (empty_hasRoom _)
  have hquery : (urlParseGetParts mailtoUrl (.all (mailtoUrl.chars.length + 1)) .empty).2.query.map
      cstr = some (lit "bu") := by
    decide +kernel
  rw [heq, hyields.parts.query] at hquery
  exact absurd (Option.some.inj hquery) (by decide +kernel)

end NoAuthority

end NixieTracker
