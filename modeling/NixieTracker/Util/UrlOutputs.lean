import NixieTracker.Util.UrlSplit

/-!
# The outputs of the URL parser

Two calls for the same URL, with different outputs `NULL`, different sizes and different memory behind
the URL.

* `OutputsEnd`: an output is not written, or has a NUL within its size; `outputsEnd_urlParseGetParts`.
* `outputs_agree`: the calls return the same, and an output of both is the same but for the cut.
-/

namespace NixieTracker

open Lib

/-! ## The NUL -/

/-- An output that is not written, or has a NUL within its size. -/
def StaysOrEnds (maxCopy : Nat) (old new : Option (List UInt8)) : Prop :=
  new = old ∨ ∀ b ∈ new, 0 ∈ b.take maxCopy

theorem StaysOrEnds.trans {maxCopy : Nat} {o o' o'' : Option (List UInt8)}
    (h : StaysOrEnds maxCopy o o') (h' : StaysOrEnds maxCopy o' o'') : StaysOrEnds maxCopy o o'' := by
  rcases h' with rfl | h'
  · exact h
  · exact .inr h'

theorem staysOrEnds_copy (old : Option (List UInt8)) (mem : Memory) (src len maxCopy : Nat) :
    StaysOrEnds maxCopy old (safeStrncpyLen old mem src len maxCopy) := by
  cases old with
  | none => exact .inl rfl
  | some b =>
    by_cases h0 : maxCopy = 0
    · exact .inl (congrArg some (if_pos h0))
    · refine .inr fun b' hb' => ?_
      obtain rfl : (if maxCopy = 0 then b
          else copyTo b (mem.load src (minZz len (maxCopy - 1)) ++ [0])) = b' := Option.some.inj hb'
      have hlen : (mem.load src (minZz len (maxCopy - 1))).length ≤ maxCopy - 1 := by
        rw [Memory.load, List.length_map, List.length_range, minZz_eq]
        exact Nat.min_le_right ..
      rw [if_neg h0, copyTo, List.append_assoc, List.take_append, List.mem_append]
      refine .inr ?_
      obtain ⟨n, hn⟩ : ∃ n, maxCopy - (mem.load src (minZz len (maxCopy - 1))).length = n + 1 :=
        ⟨maxCopy - (mem.load src (minZz len (maxCopy - 1))).length - 1, by omega⟩
      rw [hn, List.singleton_append, List.take_succ_cons]
      exact List.mem_cons_self ..

/-- All outputs. -/
structure OutputsEnd (max : UrlSizes) (old new : UrlParts) : Prop where
  scheme : StaysOrEnds max.maxScheme old.scheme new.scheme
  user : StaysOrEnds max.maxUser old.user new.user
  password : StaysOrEnds max.maxPassword old.password new.password
  host : StaysOrEnds max.maxHost old.host new.host
  path : StaysOrEnds max.maxPath old.path new.path
  query : StaysOrEnds max.maxQuery old.query new.query
  fragment : StaysOrEnds max.maxFragment old.fragment new.fragment
  pathSuffix : StaysOrEnds max.maxPathSuffix old.pathSuffix new.pathSuffix

section OutputsEnd

variable (url : CString) (max : UrlSizes) (p len : Nat) (out : UrlParts)

theorem OutputsEnd.refl : OutputsEnd max out out :=
  ⟨.inl rfl, .inl rfl, .inl rfl, .inl rfl, .inl rfl, .inl rfl, .inl rfl, .inl rfl⟩

variable {max out}

theorem OutputsEnd.trans {out' out'' : UrlParts} (h : OutputsEnd max out out')
    (h' : OutputsEnd max out' out'') : OutputsEnd max out out'' where
  scheme := h.scheme.trans h'.scheme
  user := h.user.trans h'.user
  password := h.password.trans h'.password
  host := h.host.trans h'.host
  path := h.path.trans h'.path
  query := h.query.trans h'.query
  fragment := h.fragment.trans h'.fragment
  pathSuffix := h.pathSuffix.trans h'.pathSuffix

theorem OutputsEnd.result {result : Bool × UrlParts} {ok : Bool} {new : UrlParts}
    (h : OutputsEnd max out result.2) (heq : result = (ok, new)) : OutputsEnd max out new := by
  rw [heq] at h
  exact h

variable (max out)

/-- A default port changes no string. -/
theorem outputsEnd_port (port : Option UInt16) : OutputsEnd max out { out with port } :=
  ⟨.inl rfl, .inl rfl, .inl rfl, .inl rfl, .inl rfl, .inl rfl, .inl rfl, .inl rfl⟩

theorem outputsEnd_urlParseScheme : OutputsEnd max out (urlParseScheme url max p len out).2 := by
  have hcopy : OutputsEnd max out { out with
      scheme := safeStrncpyLen out.scheme url.mem p len max.maxScheme } :=
    ⟨staysOrEnds_copy .., .inl rfl, .inl rfl, .inl rfl, .inl rfl, .inl rfl, .inl rfl, .inl rfl⟩
  unfold urlParseScheme
  dsimp only
  split
  · exact hcopy
  · split
    · exact hcopy.trans (outputsEnd_port max _ (some 443))
    · split
      · exact hcopy.trans (outputsEnd_port max _ (some 80))
      · exact hcopy

theorem outputsEnd_urlParseUserAndPassword :
    OutputsEnd max out (urlParseUserAndPassword url max p len out).2 := by
  unfold urlParseUserAndPassword
  split
  · exact .refl max out
  · split
    all_goals exact ⟨.inl rfl, staysOrEnds_copy .., staysOrEnds_copy .., .inl rfl, .inl rfl, .inl rfl,
      .inl rfl, .inl rfl⟩

theorem outputsEnd_urlParseHostAndPort :
    OutputsEnd max out (urlParseHostAndPort url max p len out).2 := by
  unfold urlParseHostAndPort
  split
  · exact .refl max out
  · split
    all_goals exact ⟨.inl rfl, .inl rfl, .inl rfl, staysOrEnds_copy .., .inl rfl, .inl rfl, .inl rfl,
      .inl rfl⟩

theorem outputsEnd_urlParseUserPasswordHostAndPort :
    OutputsEnd max out (urlParseUserPasswordHostAndPort url max p len out).2 := by
  unfold urlParseUserPasswordHostAndPort
  split
  · rename_i at_ hat
    have huser := outputsEnd_urlParseUserAndPassword url max p (at_ - p) out
    dsimp only
    split
    · rename_i heq
      exact huser.result heq
    · rename_i heq
      exact (huser.result heq).trans (outputsEnd_urlParseHostAndPort url max _ _ _)
  · have hempty : OutputsEnd max out { out with
        user := safeStrncpyLen out.user (litMem "") 0 1 max.maxUser
        password := safeStrncpyLen out.password (litMem "") 0 1 max.maxPassword } :=
      ⟨.inl rfl, staysOrEnds_copy .., staysOrEnds_copy .., .inl rfl, .inl rfl, .inl rfl, .inl rfl,
        .inl rfl⟩
    exact hempty.trans (outputsEnd_urlParseHostAndPort url max _ _ _)

theorem outputsEnd_urlParseFragment :
    OutputsEnd max out (urlParseFragment url max p len out).1 := by
  unfold urlParseFragment
  split
  all_goals exact ⟨.inl rfl, .inl rfl, .inl rfl, .inl rfl, .inl rfl, .inl rfl, staysOrEnds_copy ..,
    .inl rfl⟩

theorem outputsEnd_urlParseQuery : OutputsEnd max out (urlParseQuery url max p len out).1 := by
  unfold urlParseQuery
  split
  all_goals exact ⟨.inl rfl, .inl rfl, .inl rfl, .inl rfl, .inl rfl, staysOrEnds_copy .., .inl rfl,
    .inl rfl⟩

theorem outputsEnd_urlParsePathQueryAndFragment :
    OutputsEnd max out (urlParsePathQueryAndFragment url max p len out).2 := by
  unfold urlParsePathQueryAndFragment
  split
  · exact .refl max out
  · have hfragment := outputsEnd_urlParseFragment url max p len out
    have hquery := outputsEnd_urlParseQuery url max p (urlParseFragment url max p len out).2
      (urlParseFragment url max p len out).1
    exact (hfragment.trans hquery).trans ⟨.inl rfl, .inl rfl, .inl rfl, .inl rfl,
      staysOrEnds_copy .., .inl rfl, .inl rfl, .inl rfl⟩

theorem outputsEnd_urlParsePathSuffix (urlPart : Option Nat) :
    OutputsEnd max out (urlParsePathSuffix url max urlPart len out).2 := by
  cases urlPart with
  | none =>
    exact ⟨.inl rfl, .inl rfl, .inl rfl, .inl rfl, staysOrEnds_copy .., staysOrEnds_copy ..,
      staysOrEnds_copy .., staysOrEnds_copy ..⟩
  | some urlPart =>
    have hcopy : OutputsEnd max out { out with
        pathSuffix := safeStrncpyLen out.pathSuffix url.mem urlPart len max.maxPathSuffix } :=
      ⟨.inl rfl, .inl rfl, .inl rfl, .inl rfl, .inl rfl, .inl rfl, .inl rfl, staysOrEnds_copy ..⟩
    exact hcopy.trans (outputsEnd_urlParsePathQueryAndFragment url max urlPart len _)

theorem outputsEnd_urlParsePastScheme :
    OutputsEnd max out (urlParsePastScheme url max p len out).2 := by
  unfold urlParsePastScheme
  generalize sizeAdd len 2 = len'
  split
  · dsimp only
    split
    · rename_i heq
      exact (outputsEnd_urlParseUserPasswordHostAndPort url max _ _ out).result heq
    · rename_i heq
      have hauthority := (outputsEnd_urlParseUserPasswordHostAndPort url max _ _ out).result heq
      generalize sizeSub len' _ = left
      exact hauthority.trans (outputsEnd_urlParsePathSuffix url max left _ _)
  · exact outputsEnd_urlParsePathSuffix url max len out _

/-- Every output that the parser writes has a NUL within its size. -/
theorem outputsEnd_urlParseGetParts : OutputsEnd max out (urlParseGetParts url max out).2 := by
  unfold urlParseGetParts
  split
  · exact .refl max out
  · rename_i schemeLen hcolon
    dsimp only
    generalize sizeSub (sizeSub url.chars.length schemeLen) 3 = left
    split
    · rename_i heq
      exact (outputsEnd_urlParseScheme url max _ _ out).result heq
    · rename_i heq
      have hscheme := (outputsEnd_urlParseScheme url max _ _ out).result heq
      exact hscheme.trans (outputsEnd_urlParsePastScheme url max _ left _)

end OutputsEnd

/-! ## Two calls -/

/-- One output of two calls that both ask for it, in arrays of at least the sizes they give: it is left
alone in both, or both hold a string, and the shorter array holds the start of the longer one's. -/
def Agrees (maxCopy maxCopy' : Nat) (old old' new new' : Option (List UInt8)) : Prop :=
  ∀ b ∈ old, ∀ b' ∈ old', 0 < maxCopy → 0 < maxCopy' → maxCopy ≤ b.length → maxCopy' ≤ b'.length →
    (new = some b ∧ new' = some b') ∨
    ∃ c c', new = some c ∧ new' = some c' ∧ 0 ∈ c.take maxCopy ∧ 0 ∈ c'.take maxCopy' ∧
      (maxCopy ≤ maxCopy' → cstr c = (cstr c').take (maxCopy - 1)) ∧
      (maxCopy' ≤ maxCopy → cstr c' = (cstr c).take (maxCopy' - 1))

/-- A string of an array without a NUL is the whole array. -/
theorem zero_mem_take {b : List UInt8} {n : Nat} (hlen : (cstr b).length < n) (hn : n ≤ b.length) :
    0 ∈ b.take n := by
  have hz := getElem_length_cstr (show (cstr b).length < b.length by omega)
  exact hz ▸ List.mem_take_iff_getElem.mpr ⟨_, by omega, rfl⟩

/-- An array that is not written already holds what would be written. -/
theorem StaysOrEnds.ends {piece b c : List UInt8} {maxCopy : Nat}
    (h : StaysOrEnds maxCopy (some b) (some c)) (h0 : 0 < maxCopy) (hb : maxCopy ≤ b.length)
    (hc : cstr c = piece.take (maxCopy - 1)) : 0 ∈ c.take maxCopy := by
  rcases h with heq | hends
  · obtain rfl : c = b := Option.some.inj heq
    refine zero_mem_take ?_ hb
    rw [hc]
    have := List.length_take_le (maxCopy - 1) piece
    omega
  · exact hends c rfl

theorem agrees_of_wrote {piece : Option (List UInt8)} {maxCopy maxCopy' : Nat}
    {old old' new new' : Option (List UInt8)} (h : Wrote piece maxCopy old new)
    (h' : Wrote piece maxCopy' old' new') (hends : StaysOrEnds maxCopy old new)
    (hends' : StaysOrEnds maxCopy' old' new') : Agrees maxCopy maxCopy' old old' new new' := by
  rintro b hb b' hb' h0 h0' hlen hlen'
  obtain rfl : old = some b := hb
  obtain rfl : old' = some b' := hb'
  cases piece with
  | none => exact .inl ⟨h, h'⟩
  | some s =>
    obtain ⟨c, rfl, hc⟩ := h.of_some (by omega)
    obtain ⟨c', rfl, hc'⟩ := h'.of_some (by omega)
    refine .inr ⟨c, c', rfl, rfl, hends.ends h0 hlen hc, hends'.ends h0' hlen' hc', ?_, ?_⟩
    · intro hle
      rw [hc, hc', List.take_take, Nat.min_eq_left (by omega)]
    · intro hle
      rw [hc, hc', List.take_take, Nat.min_eq_left (by omega)]

/-- All outputs of two calls. -/
structure OutputsAgree (max max' : UrlSizes) (old old' new new' : UrlParts) : Prop where
  scheme : Agrees max.maxScheme max'.maxScheme old.scheme old'.scheme new.scheme new'.scheme
  user : Agrees max.maxUser max'.maxUser old.user old'.user new.user new'.user
  password : Agrees max.maxPassword max'.maxPassword old.password old'.password new.password
    new'.password
  host : Agrees max.maxHost max'.maxHost old.host old'.host new.host new'.host
  port : ∀ p, old.port = some p → old'.port = some p → new.port = new'.port
  path : Agrees max.maxPath max'.maxPath old.path old'.path new.path new'.path
  query : Agrees max.maxQuery max'.maxQuery old.query old'.query new.query new'.query
  fragment : Agrees max.maxFragment max'.maxFragment old.fragment old'.fragment new.fragment
    new'.fragment
  pathSuffix : Agrees max.maxPathSuffix max'.maxPathSuffix old.pathSuffix old'.pathSuffix
    new.pathSuffix new'.pathSuffix

/-- **Independent outputs.** Two calls for one URL, with whatever outputs `NULL`, whatever sizes and
whatever memory behind the URL, return the same, and agree in all outputs that both ask for. -/
theorem outputs_agree (url : CString) (past' : Memory) (max max' : UrlSizes) (out out' : UrlParts) :
    let result := urlParseGetParts url max out
    let result' := urlParseGetParts { url with past := past' } max' out'
    result.1 = result'.1 ∧ OutputsAgree max max' out out' result.2 result'.2 := by
  intro result result'
  have hends : OutputsEnd max out result.2 := outputsEnd_urlParseGetParts url max out
  have hends' : OutputsEnd max' out' result'.2 := outputsEnd_urlParseGetParts _ max' out'
  have hparse := urlParseGetParts_eq url max out
  have hparse' := urlParseGetParts_eq { url with past := past' } max' out'
  dsimp only at hparse'
  cases hsplit : splitUrl url.chars with
  | none =>
    rw [hsplit] at hparse hparse'
    have hresult : result = (false, out) := hparse
    have hresult' : result' = (false, out') := hparse'
    rw [hresult, hresult']
    have hstay : ∀ {n n' : Nat} {o o' : Option (List UInt8)}, Agrees n n' o o' o o' :=
      fun _ hb _ hb' _ _ _ _ => .inl ⟨hb, hb'⟩
    exact ⟨rfl, hstay, hstay, hstay, hstay, fun p hp hp' => hp.trans hp'.symm, hstay, hstay, hstay,
      hstay⟩
  | some pieces =>
    rw [hsplit] at hparse hparse'
    obtain ⟨new, hnew, hw⟩ := hparse
    obtain ⟨new', hnew', hw'⟩ := hparse'
    have hresult : result = (true, new) := hnew
    have hresult' : result' = (true, new') := hnew'
    rw [hresult] at hends ⊢
    rw [hresult'] at hends' ⊢
    refine ⟨rfl, ?_⟩
    constructor
    case scheme => exact agrees_of_wrote hw.scheme hw'.scheme hends.scheme hends'.scheme
    case user => exact agrees_of_wrote hw.user hw'.user hends.user hends'.user
    case password => exact agrees_of_wrote hw.password hw'.password hends.password hends'.password
    case host => exact agrees_of_wrote hw.host hw'.host hends.host hends'.host
    case port =>
      intro p hp hp'
      show new.port = new'.port
      rw [hw.port, hw'.port, hp, hp']
    case path => exact agrees_of_wrote hw.path hw'.path hends.path hends'.path
    case query => exact agrees_of_wrote hw.query hw'.query hends.query hends'.query
    case fragment => exact agrees_of_wrote hw.fragment hw'.fragment hends.fragment hends'.fragment
    case pathSuffix =>
      exact agrees_of_wrote hw.pathSuffix hw'.pathSuffix hends.pathSuffix hends'.pathSuffix

end NixieTracker
