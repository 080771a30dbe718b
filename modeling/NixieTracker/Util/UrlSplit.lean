import NixieTracker.Util.Url

/-!
# What the URL parser computes

The parser of `util_url.c` in terms of lists.

* `Holds mem p s`: the C string `s` lies in memory at `p`. `Holds.strchrAnyLen_eq`, `Holds.streqLen_iff`
  and `Holds.wrote` say what searching, comparing and copying there give, also where the lengths
  reach past the NUL.
* `splitUrl`: the pieces of a URL as the parser cuts it, without buffers and lengths.
* `urlParseGetParts_eq`: `urlParseGetParts` returns true exactly if `splitUrl` gives pieces, and leaves
  each piece in its buffer, cut to the size of the buffer; what is not in the pieces keeps its value.
-/

namespace NixieTracker

open Lib

/-! ## C strings in memory -/

/-- The C string `s` lies in memory at `p`. -/
structure Holds (mem : Memory) (p : Nat) (s : List UInt8) : Prop where
  chars : ∀ i (h : i < s.length), mem (p + i) = s[i]
  nul : mem (p + s.length) = 0
  nulFree : 0 ∉ s

section Holds

variable {mem : Memory} {p : Nat} {b : UInt8} {s : List UInt8}

theorem Holds.head (h : Holds mem p (b :: s)) : mem p = b := h.chars 0 (Nat.zero_lt_succ _)

theorem Holds.head_ne (h : Holds mem p (b :: s)) : b ≠ 0 := by
  rintro rfl
  exact h.nulFree (List.mem_cons_self ..)

theorem Holds.head_nil (h : Holds mem p []) : mem p = 0 := h.nul

theorem Holds.tail (h : Holds mem p (b :: s)) : Holds mem (p + 1) s where
  chars i hi := by
    have := h.chars (i + 1) (by simpa using hi)
    rw [Nat.add_assoc, Nat.add_comm 1 i]
    exact this
  nul := by
    rw [Nat.add_assoc, Nat.add_comm 1 s.length]
    exact h.nul
  nulFree hm := h.nulFree (List.mem_cons_of_mem _ hm)

theorem Holds.drop {i : Nat} (h : Holds mem p s) (hi : i ≤ s.length) :
    Holds mem (p + i) (s.drop i) := by
  induction i generalizing p s with
  | zero => exact h
  | succ i ih =>
    cases s with
    | nil => cases hi
    | cons b s =>
      rw [Nat.add_comm i 1, ← Nat.add_assoc, Nat.add_comm 1 i, List.drop_succ_cons]
      exact ih h.tail (by simpa using hi)

theorem CString.holds (url : CString) : Holds url.mem 0 url.chars where
  chars i hi := by simp [CString.mem, hi]
  nul := by simp [CString.mem]
  nulFree := url.nulFree

theorem holds_litMem {t : String} (ht : 0 ∉ lit t) : Holds (litMem t) 0 (lit t) where
  chars i hi := by simp [litMem, hi]
  nul := by simp [litMem]
  nulFree := ht

/-- The part of a string before the first character of `needles`. -/
def upTo (needles s : List UInt8) : List UInt8 := s.takeWhile (· ∉ needles)

/-- The part of a string from the first character of `needles` on. -/
def onFrom (needles s : List UInt8) : List UInt8 := s.dropWhile (· ∉ needles)

theorem upTo_append_onFrom (needles s : List UInt8) : upTo needles s ++ onFrom needles s = s :=
  List.takeWhile_append_dropWhile

theorem take_upTo_length (needles s : List UInt8) : s.take (upTo needles s).length = upTo needles s :=
  (List.prefix_iff_eq_take.mp (List.takeWhile_prefix _)).symm

theorem drop_upTo_length (needles s : List UInt8) :
    s.drop (upTo needles s).length = onFrom needles s := by
  have h : (upTo needles s ++ onFrom needles s).drop (upTo needles s).length = onFrom needles s :=
    List.drop_left
  rwa [upTo_append_onFrom] at h

theorem onFrom_eq_nil {needles s : List UInt8} : onFrom needles s = [] ↔ upTo needles s = s := by
  constructor
  · intro h
    simpa [h] using upTo_append_onFrom needles s
  · intro h
    have := upTo_append_onFrom needles s
    rw [h] at this
    simpa using this

@[simp] theorem upTo_nil (needles : List UInt8) : upTo needles [] = [] := rfl

@[simp] theorem onFrom_nil (needles : List UInt8) : onFrom needles [] = [] := rfl

theorem upTo_cons (needles : List UInt8) (b : UInt8) (s : List UInt8) :
    upTo needles (b :: s) = if b ∈ needles then [] else b :: upTo needles s := by
  unfold upTo
  rw [List.takeWhile_cons]
  by_cases hb : b ∈ needles <;> simp [hb]

theorem onFrom_cons (needles : List UInt8) (b : UInt8) (s : List UInt8) :
    onFrom needles (b :: s) = if b ∈ needles then b :: s else onFrom needles s := by
  unfold onFrom
  rw [List.dropWhile_cons]
  by_cases hb : b ∈ needles <;> simp [hb]

/-- What is cut off at the end of a string is missing at the end of the two parts. -/
theorem upTo_take (needles s : List UInt8) (n : Nat) :
    upTo needles (s.take n) = (upTo needles s).take n := by
  induction s generalizing n with
  | nil => simp
  | cons b s ih =>
    cases n with
    | zero => simp
    | succ n =>
      rw [List.take_succ_cons, upTo_cons, upTo_cons, ih]
      by_cases hb : b ∈ needles <;> simp [hb]

theorem onFrom_take (needles s : List UInt8) (n : Nat) :
    onFrom needles (s.take n) = (onFrom needles s).take (n - (upTo needles s).length) := by
  have h := congrArg (List.take n) (upTo_append_onFrom needles s)
  rw [List.take_append, ← upTo_append_onFrom needles (s.take n), upTo_take] at h
  exact (List.append_cancel_left h).symm

theorem Holds.strchrAnyLen_eq (h : Holds mem p s) (needles : List UInt8) (n : Nat) :
    strchrAnyLen mem p needles n =
      if onFrom needles (s.take n) = [] then none else some (p + (upTo needles (s.take n)).length) := by
  induction n generalizing p s with
  | zero => simp [strchrAnyLen, onFrom]
  | succ n ih =>
    cases s with
    | nil => simp [strchrAnyLen, h.head_nil, onFrom]
    | cons b s =>
      rw [strchrAnyLen, h.head, if_neg h.head_ne, List.take_succ_cons]
      by_cases hb : b ∈ needles
      · rw [if_pos hb, onFrom_cons, upTo_cons, if_pos hb, if_pos hb]
        simp
      · rw [if_neg hb, ih h.tail, onFrom_cons, upTo_cons, if_neg hb, if_neg hb, List.length_cons,
          Nat.add_assoc, Nat.add_comm 1]

theorem strchrLen_eq_any (mem : Memory) (p : Nat) (c : UInt8) (n : Nat) :
    strchrLen mem p c n = strchrAnyLen mem p [c] n := by
  induction n generalizing p with
  | zero => rfl
  | succ n ih => simp only [strchrLen, strchrAnyLen, ih, List.mem_singleton]

/-- What `strchr_len` finds: nothing, or the end of the part before the character. -/
theorem Holds.strchrLen_cases (h : Holds mem p s) (c : UInt8) (n : Nat) :
    (strchrLen mem p c n = none ∧ onFrom [c] (s.take n) = [] ∧ upTo [c] (s.take n) = s.take n) ∨
    ∃ t, strchrLen mem p c n = some (p + (upTo [c] (s.take n)).length) ∧
      onFrom [c] (s.take n) = c :: t ∧ s.take n = upTo [c] (s.take n) ++ c :: t := by
  rw [strchrLen_eq_any, h.strchrAnyLen_eq]
  cases hf : onFrom [c] (s.take n) with
  | nil => exact .inl ⟨if_pos rfl, rfl, onFrom_eq_nil.mp hf⟩
  | cons b t =>
    have hb : b = c := by
      have := List.head?_dropWhile_not (p := (· ∉ [c])) (s.take n)
      unfold onFrom at hf
      rw [hf] at this
      simpa using this
    subst hb
    refine .inr ⟨t, if_neg (by simp), rfl, ?_⟩
    conv => lhs; rw [← upTo_append_onFrom [b] (s.take n), hf]

/-- `strncmp` compares the first `n` characters. -/
theorem Holds.streqLen_iff {mem' : Memory} {q : Nat} {t : List UInt8} (h : Holds mem p s)
    (h' : Holds mem' q t) (n : Nat) : streqLen mem p mem' q n = true ↔ s.take n = t.take n := by
  induction n generalizing p q s t with
  | zero => simp [streqLen]
  | succ n ih =>
    rw [streqLen]
    cases s with
    | nil =>
      cases t with
      | nil => simp [h.head_nil, h'.head_nil]
      | cons c t => simp [h.head_nil, h'.head, h'.head_ne.symm]
    | cons b s =>
      cases t with
      | nil => simp [h.head, h'.head_nil, h.head_ne]
      | cons c t =>
        rw [h.head, h'.head]
        by_cases hbc : b = c
        · rw [if_neg (by simpa using hbc), if_neg h.head_ne, ih h.tail h'.tail]
          simp [hbc]
        · simp [hbc]

/-- A copy is cut at the NUL, whatever is copied behind it. -/
theorem Holds.cstr_load (h : Holds mem p s) (k : Nat) (rest : List UInt8) :
    cstr (mem.load p k ++ 0 :: rest) = s.take k := by
  induction k generalizing p s with
  | zero => simp [Memory.load, cstr]
  | succ k ih =>
    rw [Memory.load_succ, List.cons_append, cstr, List.takeWhile_cons]
    cases s with
    | nil => simp [h.head_nil]
    | cons b s =>
      rw [if_pos (by simpa [h.head] using h.head_ne), h.head, List.take_succ_cons]
      exact congrArg (b :: ·) (ih h.tail)

end Holds

/-! ## Output buffers -/

/-- An output of the parser before and after: `piece` is its new text, `none` if it is not touched. -/
def Wrote (piece : Option (List UInt8)) (maxCopy : Nat) (old new : Option (List UInt8)) : Prop :=
  match piece, old with
  | none, old => new = old
  | some _, none => new = none
  | some s, some b =>
    if maxCopy = 0 then new = some b else ∃ b', new = some b' ∧ cstr b' = s.take (maxCopy - 1)

theorem Wrote.eq_none {piece : Option (List UInt8)} {maxCopy : Nat} {new : Option (List UInt8)}
    (h : Wrote piece maxCopy none new) : new = none := by
  cases piece <;> exact h

theorem Wrote.of_some {s b : List UInt8} {maxCopy : Nat} {new : Option (List UInt8)}
    (h : Wrote (some s) maxCopy (some b) new) (h0 : maxCopy ≠ 0) :
    ∃ b', new = some b' ∧ cstr b' = s.take (maxCopy - 1) := by
  unfold Wrote at h
  simpa only [h0, if_false] using h

/-- A buffer with room for the text gets the text. -/
theorem Wrote.cstr_eq {s b : List UInt8} {maxCopy : Nat} {new : Option (List UInt8)}
    (h : Wrote (some s) maxCopy (some b) new) (hlen : s.length < maxCopy) :
    ∃ b', new = some b' ∧ cstr b' = s := by
  obtain ⟨b', hnew, hb⟩ := h.of_some (by omega)
  exact ⟨b', hnew, hb.trans (List.take_of_length_le (by omega))⟩

/-- What was in the buffer before does not matter. -/
theorem Wrote.map_congr {s b b' : List UInt8} {maxCopy : Nat} {new new' : Option (List UInt8)}
    (h : Wrote (some s) maxCopy (some b) new) (h' : Wrote (some s) maxCopy (some b') new')
    (h0 : maxCopy ≠ 0) : new.map cstr = new'.map cstr := by
  obtain ⟨c, rfl, hc⟩ := h.of_some h0
  obtain ⟨c', rfl, hc'⟩ := h'.of_some h0
  exact congrArg some (hc.trans hc'.symm)

theorem Holds.wrote {mem : Memory} {p : Nat} {s : List UInt8} (h : Holds mem p s) (len maxCopy : Nat)
    (old : Option (List UInt8)) :
    Wrote (some (s.take len)) maxCopy old (safeStrncpyLen old mem p len maxCopy) := by
  cases old with
  | none => rfl
  | some b =>
    by_cases h0 : maxCopy = 0
    · simp [Wrote, safeStrncpyLen, h0]
    · simp only [Wrote, safeStrncpyLen, h0, if_false, Option.map_some, Option.some.injEq,
        exists_eq_left']
      rw [copyTo, List.append_assoc, List.singleton_append, h.cstr_load, minZz_eq, List.take_take,
        Nat.min_comm]

theorem wrote_empty (maxCopy : Nat) (old : Option (List UInt8)) :
    Wrote (some []) maxCopy old (safeStrncpyLen old (litMem "") 0 1 maxCopy) :=
  (holds_litMem (t := "") (by decide)).wrote 1 maxCopy old

theorem wrote_slash (maxCopy : Nat) (old : Option (List UInt8)) :
    Wrote (some (lit "/")) maxCopy old (safeStrncpyLen old (litMem "/") 0 1 maxCopy) :=
  (holds_litMem (t := "/") (by decide)).wrote 1 maxCopy old

/-! ## The pieces -/

/-- The pieces of a URL; `none` for an output that is not touched. -/
structure UrlPieces where
  scheme : List UInt8
  user : Option (List UInt8)
  password : Option (List UInt8)
  host : Option (List UInt8)
  port : Option UInt16
  path : List UInt8
  query : List UInt8
  fragment : List UInt8
  pathSuffix : List UInt8
  deriving DecidableEq

/-- The port that goes with the scheme: the start of the URL decides. -/
def schemePort (url : List UInt8) : Option UInt16 :=
  if url.take 5 = lit "https" then some 443 else if url.take 4 = lit "http" then some 80 else none

/-- `user[:password]`. -/
def splitUserAndPassword (s : List UInt8) : List UInt8 × List UInt8 :=
  (upTo [58] s, (onFrom [58] s).drop 1)

/-- `host[:port]`, with the text behind it: `atoi` reads on. -/
def splitHostAndPort (s rest : List UInt8) (default : Option UInt16) :
    List UInt8 × Option UInt16 :=
  (upTo [58] s,
    if onFrom [58] s = [] then default else some (toUInt16 (atoi ((onFrom [58] s).drop 1 ++ rest))))

/-- `[user[:password]@]host[:port]`: the first two, and the last two. -/
def splitAt (s : List UInt8) : (List UInt8 × List UInt8) × List UInt8 :=
  if onFrom [64] s = [] then (([], []), s)
  else (splitUserAndPassword (upTo [64] s), (onFrom [64] s).drop 1)

/-- `[/path][?query][#fragment]`. -/
def splitPath (s : List UInt8) : List UInt8 × List UInt8 × List UInt8 :=
  let t := upTo [35] s
  (upTo [63] t, (onFrom [63] t).drop 1, (onFrom [35] s).drop 1)

/-- The pieces behind an authority: without a path the path is `/`. -/
def withPath (pieces : UrlPieces) (tail : List UInt8) : UrlPieces :=
  let (path, query, fragment) := splitPath tail
  { pieces with path, query, fragment, pathSuffix := tail }

/-- What the parser takes for the path when there is no authority: the length it computes is two
short, and wraps around if there are fewer characters. -/
def pathPastScheme (rest : List UInt8) : List UInt8 :=
  if rest.length < 2 then rest else rest.take (rest.length - 2)

/-- The pieces of a URL as the parser cuts it. -/
def splitUrl (url : List UInt8) : Option UrlPieces :=
  match onFrom [58] url with
  | [] => none
  | _ :: rest =>
    let pieces : UrlPieces :=
      ⟨upTo [58] url, none, none, none, schemePort url, lit "/", [], [], lit "/"⟩
    if 5 ≤ rest.length ∧ rest.take 2 = lit "//" then
      let first := upTo (lit "/?#") (rest.drop 2)
      let tail := onFrom (lit "/?#") (rest.drop 2)
      let (userPassword, hostPort) := splitAt first
      let (host, port) := splitHostAndPort hostPort tail (schemePort url)
      let pieces := { pieces with
        user := some userPassword.1
        password := some userPassword.2
        host := some host
        port }
      some (if tail = [] then pieces else withPath pieces tail)
    else some (withPath pieces (pathPastScheme rest))

/-- The outputs `new` are the outputs `old` with the pieces in them. -/
structure WrotePieces (max : UrlSizes) (pieces : UrlPieces) (old new : UrlParts) : Prop where
  scheme : Wrote (some pieces.scheme) max.maxScheme old.scheme new.scheme
  user : Wrote pieces.user max.maxUser old.user new.user
  password : Wrote pieces.password max.maxPassword old.password new.password
  host : Wrote pieces.host max.maxHost old.host new.host
  port : new.port = old.port.map fun p => pieces.port.getD p
  path : Wrote (some pieces.path) max.maxPath old.path new.path
  query : Wrote (some pieces.query) max.maxQuery old.query new.query
  fragment : Wrote (some pieces.fragment) max.maxFragment old.fragment new.fragment
  pathSuffix : Wrote (some pieces.pathSuffix) max.maxPathSuffix old.pathSuffix new.pathSuffix

/-! ## The helpers compute the pieces -/

theorem CString.holds_drop (url : CString) {p : Nat} (hp : p ≤ url.chars.length) :
    Holds url.mem p (url.chars.drop p) := by
  have := url.holds.drop hp
  rwa [Nat.zero_add] at this

/-- `strchr_len` finds `c` in the `len` characters from `p` on; `i` characters stand before it there,
and `t` behind it. -/
structure FoundAt (url : CString) (p len : Nat) (c : UInt8) (i : Nat) (t : List UInt8) : Prop where
  found : strchrLen url.mem p c len = some (p + i)
  split : onFrom [c] ((url.chars.drop p).take len) = c :: t
  lt : i < len
  bound : p + i + 1 ≤ url.chars.length
  before : (url.chars.drop p).take i = upTo [c] ((url.chars.drop p).take len)
  behind : (url.chars.drop (p + i + 1)).take (len - (i + 1)) = t
  rest : (url.chars.drop (p + i + 1)).drop (len - (i + 1)) = (url.chars.drop p).drop len

theorem strchrLen_cases (url : CString) {p : Nat} (hp : p ≤ url.chars.length) (c : UInt8) (len : Nat) :
    (strchrLen url.mem p c len = none ∧ onFrom [c] ((url.chars.drop p).take len) = [] ∧
      upTo [c] ((url.chars.drop p).take len) = (url.chars.drop p).take len) ∨
    ∃ i t, FoundAt url p len c i t := by
  rcases (url.holds_drop hp).strchrLen_cases c len with h | ⟨t, hf, hon, hseg⟩
  · exact .inl h
  · have hlen := congrArg List.length hseg
    rw [List.length_append, List.length_cons, List.length_take, List.length_drop] at hlen
    have hfront := take_upTo_length [c] ((url.chars.drop p).take len)
    have hback := drop_upTo_length [c] ((url.chars.drop p).take len)
    rw [List.take_take, Nat.min_eq_left (by omega)] at hfront
    refine .inr ⟨_, t, hf, hon, by omega, by omega, hfront, ?_, ?_⟩
    · rw [Nat.add_assoc, ← List.drop_drop, ← List.drop_take, ← List.drop_drop, hback, hon]
      rfl
    · rw [List.drop_drop, List.drop_drop]
      congr 1
      omega

section Helpers

variable (url : CString) (max : UrlSizes) (p len : Nat) (out : UrlParts)

variable {url p len} in
/-- The copies of what stands before and behind a found character. -/
theorem FoundAt.wrote {c : UInt8} {i : Nat} {t : List UInt8} (h : FoundAt url p len c i t)
    (maxCopy : Nat) (old : Option (List UInt8)) :
    Wrote (some (upTo [c] ((url.chars.drop p).take len))) maxCopy old
      (safeStrncpyLen old url.mem p i maxCopy) ∧
    Wrote (some t) maxCopy old
      (safeStrncpyLen old url.mem (p + i + 1) (len - (i + 1)) maxCopy) := by
  have hbound := h.bound
  constructor
  · rw [← h.before]
    exact (url.holds_drop (by omega)).wrote _ _ _
  · have hbehind := h.behind
    subst hbehind
    exact (url.holds_drop hbound).wrote _ _ _

theorem urlParseScheme_eq : ∃ scheme, urlParseScheme url max 0 len out =
    (true, { out with
      scheme := scheme
      port := out.port.map fun p => (schemePort url.chars).getD p }) ∧
    Wrote (some (url.chars.take len)) max.maxScheme out.scheme scheme := by
  refine ⟨_, ?_, url.holds.wrote len max.maxScheme out.scheme⟩
  have hhttps := url.holds.streqLen_iff (holds_litMem (t := "https") (by decide)) 5
  have hhttp := url.holds.streqLen_iff (holds_litMem (t := "http") (by decide)) 4
  unfold urlParseScheme schemePort
  cases hport : out.port with
  | none => simp
  | some port =>
    by_cases h5 : streqLen url.mem 0 (litMem "https") 0 5 = true
    · simp [h5, hhttps.mp h5, List.take, lit]
    · have h5' : ¬ url.chars.take 5 = lit "https" := fun h => h5 (hhttps.mpr h)
      by_cases h4 : streqLen url.mem 0 (litMem "http") 0 4 = true
      · have h4' : url.chars.take 4 = lit "http" := hhttp.mp h4
        simp [h5, h5', h4, h4']
      · have h4' : ¬ url.chars.take 4 = lit "http" := fun h => h4 (hhttp.mpr h)
        simp [h5, h5', h4, h4']

theorem urlParseUserAndPassword_eq (hp : p ≤ url.chars.length) (hl : len < 2 ^ 32) :
    ∃ user password, urlParseUserAndPassword url max p len out =
      (true, { out with user := user, password := password }) ∧
    Wrote (some (splitUserAndPassword ((url.chars.drop p).take len)).1) max.maxUser out.user user ∧
    Wrote (some (splitUserAndPassword ((url.chars.drop p).take len)).2) max.maxPassword out.password
      password := by
  unfold urlParseUserAndPassword splitUserAndPassword
  by_cases hnone : out.user.isNone ∧ out.password.isNone
  · rw [if_pos hnone]
    obtain ⟨hu, hpw⟩ := hnone
    rw [Option.isNone_iff_eq_none] at hu hpw
    refine ⟨out.user, out.password, rfl, ?_, ?_⟩
    · rw [hu]
      rfl
    · rw [hpw]
      rfl
  · rw [if_neg hnone]
    rcases strchrLen_cases url hp 58 len with ⟨hf, hnil, hall⟩ | ⟨i, t, h⟩
    · rw [hf, hnil, hall]
      exact ⟨_, _, rfl, (url.holds_drop hp).wrote len _ _, wrote_empty _ _⟩
    · have hlt := h.lt
      rw [h.found, h.split]
      dsimp only
      rw [Nat.add_sub_cancel_left, sizeSub_eq hlt hl]
      exact ⟨_, _, rfl, (h.wrote _ _).1, (h.wrote _ _).2⟩

theorem urlParseHostAndPort_eq (hp : p ≤ url.chars.length) {default old : Option UInt16}
    (hport : out.port = old.map default.getD) :
    let hostPort := splitHostAndPort ((url.chars.drop p).take len) ((url.chars.drop p).drop len)
      default
    ∃ host, urlParseHostAndPort url max p len out =
      (true, { out with host := host, port := old.map hostPort.2.getD }) ∧
    Wrote (some hostPort.1) max.maxHost out.host host := by
  dsimp only
  unfold urlParseHostAndPort splitHostAndPort
  by_cases hnone : out.host.isNone ∧ out.port.isNone
  · rw [if_pos hnone]
    obtain ⟨hhost, hp0⟩ := hnone
    rw [Option.isNone_iff_eq_none] at hhost hp0
    have hold : old = none := by
      rw [hp0] at hport
      exact Option.map_eq_none_iff.mp hport.symm
    refine ⟨out.host, ?_, ?_⟩
    · rw [hold, Option.map_none, ← hp0]
    · rw [hhost]
      rfl
  · rw [if_neg hnone]
    rcases strchrLen_cases url hp 58 len with ⟨hf, hnil, hall⟩ | ⟨i, t, h⟩
    · rw [hf, hnil, hall]
      dsimp only
      rw [if_pos rfl, ← hport]
      exact ⟨_, rfl, (url.holds_drop hp).wrote len _ _⟩
    · -- `atoi` reads on behind the part.
      have hrest : url.chars.drop (p + i + 1) = t ++ (url.chars.drop p).drop len := by
        rw [← List.take_append_drop (len - (i + 1)) (url.chars.drop (p + i + 1)), h.behind, h.rest]
      rw [h.found, h.split]
      dsimp only
      rw [Nat.add_sub_cancel_left, hrest, if_neg (List.cons_ne_nil _ _), hport, Option.map_map]
      exact ⟨_, rfl, (h.wrote _ _).1⟩

theorem urlParseUserPasswordHostAndPort_eq (hp : p ≤ url.chars.length) (hl : len < 2 ^ 32)
    {default old : Option UInt16} (hport : out.port = old.map default.getD) :
    let s := (url.chars.drop p).take len
    let hostPort := splitHostAndPort (splitAt s).2 ((url.chars.drop p).drop len) default
    ∃ user password host, urlParseUserPasswordHostAndPort url max p len out =
      (true, { out with user, password, host, port := old.map hostPort.2.getD }) ∧
    Wrote (some (splitAt s).1.1) max.maxUser out.user user ∧
    Wrote (some (splitAt s).1.2) max.maxPassword out.password password ∧
    Wrote (some hostPort.1) max.maxHost out.host host := by
  intro s hostPort
  unfold urlParseUserPasswordHostAndPort
  rcases strchrLen_cases url hp 64 len with ⟨hf, hnil, -⟩ | ⟨i, t, h⟩
  · have hat : splitAt s = (([], []), s) := if_pos hnil
    obtain ⟨host, heq, hw⟩ := urlParseHostAndPort_eq url max p len { out with
      user := safeStrncpyLen out.user (litMem "") 0 1 max.maxUser
      password := safeStrncpyLen out.password (litMem "") 0 1 max.maxPassword } hp hport
    have hhp : hostPort = splitHostAndPort s ((url.chars.drop p).drop len) default := by
      simp only [hostPort, hat]
    rw [hf]
    dsimp only
    rw [heq, hhp, hat]
    exact ⟨_, _, host, rfl, wrote_empty _ _, wrote_empty _ _, hw⟩
  · have hlt := h.lt
    have hat : splitAt s = (splitUserAndPassword (upTo [64] s), t) := by
      unfold splitAt
      rw [show onFrom [64] s = 64 :: t from h.split, if_neg (List.cons_ne_nil _ _)]
      rfl
    have hhp : hostPort = splitHostAndPort t ((url.chars.drop p).drop len) default := by
      simp only [hostPort, hat]
    obtain ⟨user, password, heq, hu, hpw⟩ :=
      urlParseUserAndPassword_eq url max p i out hp (by omega)
    obtain ⟨host, heq', hw⟩ := urlParseHostAndPort_eq url max (p + i + 1) (len - (i + 1))
      { out with user := user, password := password } h.bound hport
    rw [h.behind, h.rest] at heq' hw
    rw [h.before] at hu hpw
    rw [h.found]
    dsimp only
    rw [Nat.add_sub_cancel_left, heq]
    dsimp only
    rw [sizeSub_eq hlt hl, heq', hhp, hat]
    exact ⟨user, password, host, rfl, hu, hpw, hw⟩

/-- Cutting at `#`, and at `?`: the part behind goes to the output, the part before stays. -/
theorem urlParseFragment_eq (hp : p ≤ url.chars.length) (hl : len < 2 ^ 32) :
    let s := (url.chars.drop p).take len
    ∃ fragment rest, urlParseFragment url max p len out = ({ out with fragment := fragment }, rest) ∧
      Wrote (some ((onFrom [35] s).drop 1)) max.maxFragment out.fragment fragment ∧
      rest < 2 ^ 32 ∧ (url.chars.drop p).take rest = upTo [35] s := by
  intro s
  unfold urlParseFragment
  rcases strchrLen_cases url hp 35 len with ⟨hf, hnil, hall⟩ | ⟨i, t, h⟩
  · rw [hf, show onFrom [35] s = [] from hnil, show upTo [35] s = s from hall]
    exact ⟨_, len, rfl, wrote_empty _ _, hl, rfl⟩
  · have hlt := h.lt
    rw [h.found, show onFrom [35] s = 35 :: t from h.split]
    dsimp only
    rw [Nat.add_sub_cancel_left, sizeSub_eq (Nat.le_of_lt hlt) hl,
      sizeSub_eq (by omega) (by omega), Nat.sub_sub]
    exact ⟨_, i, rfl, (h.wrote _ _).2, by omega, h.before⟩

theorem urlParseQuery_eq (hp : p ≤ url.chars.length) (hl : len < 2 ^ 32) :
    let s := (url.chars.drop p).take len
    ∃ query rest, urlParseQuery url max p len out = ({ out with query := query }, rest) ∧
      Wrote (some ((onFrom [63] s).drop 1)) max.maxQuery out.query query ∧
      rest < 2 ^ 32 ∧ (url.chars.drop p).take rest = upTo [63] s := by
  intro s
  unfold urlParseQuery
  rcases strchrLen_cases url hp 63 len with ⟨hf, hnil, hall⟩ | ⟨i, t, h⟩
  · rw [hf, show onFrom [63] s = [] from hnil, show upTo [63] s = s from hall]
    exact ⟨_, len, rfl, wrote_empty _ _, hl, rfl⟩
  · have hlt := h.lt
    rw [h.found, show onFrom [63] s = 63 :: t from h.split]
    dsimp only
    rw [Nat.add_sub_cancel_left, sizeSub_eq (Nat.le_of_lt hlt) hl,
      sizeSub_eq (by omega) (by omega), Nat.sub_sub]
    exact ⟨_, i, rfl, (h.wrote _ _).2, by omega, h.before⟩

theorem urlParsePathQueryAndFragment_eq (hp : p ≤ url.chars.length) (hl : len < 2 ^ 32) :
    let s := splitPath ((url.chars.drop p).take len)
    ∃ path query fragment, urlParsePathQueryAndFragment url max p len out =
        (true, { out with path, query, fragment }) ∧
      Wrote (some s.1) max.maxPath out.path path ∧
      Wrote (some s.2.1) max.maxQuery out.query query ∧
      Wrote (some s.2.2) max.maxFragment out.fragment fragment := by
  intro s
  unfold urlParsePathQueryAndFragment
  by_cases hnone : out.path.isNone ∧ out.query.isNone ∧ out.fragment.isNone
  · rw [if_pos hnone]
    obtain ⟨h1, h2, h3⟩ := hnone
    rw [Option.isNone_iff_eq_none] at h1 h2 h3
    refine ⟨out.path, out.query, out.fragment, rfl, ?_, ?_, ?_⟩
    · rw [h1]
      rfl
    · rw [h2]
      rfl
    · rw [h3]
      rfl
  · obtain ⟨fragment, rest, heq, hwf, hrest, hcut⟩ := urlParseFragment_eq url max p len out hp hl
    obtain ⟨query, rest', heq', hwq, -, hcut'⟩ :=
      urlParseQuery_eq url max p rest { out with fragment := fragment } hp hrest
    rw [hcut] at hwq hcut'
    rw [if_neg hnone, heq]
    dsimp only
    rw [heq']
    refine ⟨_, query, fragment, rfl, ?_, hwq, hwf⟩
    have hw := (url.holds_drop hp).wrote rest' max.maxPath out.path
    rwa [hcut'] at hw

/-- The end of the parser, on what is left of the URL. -/
theorem urlParsePathSuffix_eq (hp : p ≤ url.chars.length) (hl : len < 2 ^ 32) {s : List UInt8}
    (hs : (url.chars.drop p).take len = s) :
    ∃ path query fragment pathSuffix, urlParsePathSuffix url max (some p) len out =
        (true, { out with path, query, fragment, pathSuffix }) ∧
      Wrote (some (splitPath s).1) max.maxPath out.path path ∧
      Wrote (some (splitPath s).2.1) max.maxQuery out.query query ∧
      Wrote (some (splitPath s).2.2) max.maxFragment out.fragment fragment ∧
      Wrote (some s) max.maxPathSuffix out.pathSuffix pathSuffix := by
  subst hs
  obtain ⟨path, query, fragment, heq, h1, h2, h3⟩ := urlParsePathQueryAndFragment_eq url max p len
    { out with pathSuffix := safeStrncpyLen out.pathSuffix url.mem p len max.maxPathSuffix } hp hl
  exact ⟨path, query, fragment, _, heq, h1, h2, h3, (url.holds_drop hp).wrote len _ _⟩

end Helpers

/-! ## The whole parser -/

theorem splitUrl_scheme {url : List UInt8} (h : onFrom [58] url ≠ []) :
    ∃ rest, url = upTo [58] url ++ 58 :: rest ∧ onFrom [58] url = 58 :: rest := by
  cases hf : onFrom [58] url with
  | nil => exact absurd hf h
  | cons b rest =>
    have hb : b = 58 := by
      have := List.head?_dropWhile_not (p := (· ∉ [(58 : UInt8)])) url
      unfold onFrom at hf
      rw [hf] at this
      simpa using this
    subst hb
    refine ⟨rest, ?_, rfl⟩
    conv => lhs; rw [← upTo_append_onFrom [58] url, hf]

/-- Without an authority the parser leaves the host alone. -/
theorem splitUrl_of_path {url rest : List UInt8} (hon : onFrom [58] url = 58 :: rest)
    (hauth : ¬ (5 ≤ rest.length ∧ rest.take 2 = lit "//")) :
    ∃ pieces, splitUrl url = some pieces ∧ pieces.host = none := by
  unfold splitUrl
  rw [hon]
  dsimp only
  rw [if_neg hauth]
  exact ⟨_, rfl, rfl⟩

/-- `memmem` of a single character. -/
theorem memmem_colon (s : List UInt8) :
    memmem s (lit ":") = if onFrom [58] s = [] then none else some (upTo [58] s).length := by
  have hne : lit ":" ≠ [] := by decide
  -- The character does not stand before the end of `upTo`.
  have hbefore : ∀ q < (upTo [58] s).length, ¬ OccursAt (lit ":") s q := by
    intro q hq hocc
    have hget : s[q]? = some 58 := by
      obtain ⟨t, ht⟩ := hocc
      have := List.head?_drop (l := s) (i := q)
      rw [← ht] at this
      exact this.symm
    rw [← upTo_append_onFrom [58] s, List.getElem?_append_left hq,
      List.getElem?_eq_getElem hq] at hget
    have hmem := List.mem_takeWhile_imp (List.getElem_mem hq)
    rw [Option.some.inj hget] at hmem
    simp at hmem
  rw [memmem_eq_firstOcc hne]
  split
  · rename_i hnil
    rw [onFrom_eq_nil.mp hnil] at hbefore
    refine (firstOcc_eq_none hne).mpr fun q hocc => ?_
    have hq := hocc.bound hne
    exact hbefore q (by simp [lit] at hq; omega) hocc
  · rename_i hsome
    obtain ⟨rest, -, hon⟩ := splitUrl_scheme hsome
    refine (firstOcc_eq_some hne).mpr ⟨?_, hbefore⟩
    unfold OccursAt
    rw [drop_upTo_length, hon]
    exact ⟨rest, rfl⟩

section Parser

variable {url : CString} {max : UrlSizes} {p : Nat} {old : UrlParts} {scheme text : List UInt8}
  {newScheme : Option (List UInt8)} {rest : List UInt8}

/-- The outputs when the part past the scheme is parsed. -/
abbrev pastScheme (old : UrlParts) (newScheme : Option (List UInt8)) (default : Option UInt16) :
    UrlParts :=
  { old with scheme := newScheme, port := old.port.map default.getD }

theorem urlParsePastScheme_authority (hp : p + rest.length = url.chars.length)
    (hrest : url.chars.drop p = rest) (h5 : 5 ≤ rest.length) (hslash : rest.take 2 = lit "//")
    (hscheme : Wrote (some scheme) max.maxScheme old.scheme newScheme) (default : Option UInt16) :
    let first := upTo (lit "/?#") (rest.drop 2)
    let tail := onFrom (lit "/?#") (rest.drop 2)
    let hostPort := splitHostAndPort (splitAt first).2 tail default
    let pieces : UrlPieces := ⟨scheme, some (splitAt first).1.1, some (splitAt first).1.2,
      some hostPort.1, hostPort.2, lit "/", [], [], lit "/"⟩
    ∃ new, urlParsePastScheme url max p (rest.length - 2) (pastScheme old newScheme default) =
        (true, new) ∧
      WrotePieces max (if tail = [] then pieces else withPath pieces tail) old new := by
  intro first tail hostPort pieces
  have hfits := url.fits
  have hrest2 : url.chars.drop (p + 2) = rest.drop 2 := by rw [← List.drop_drop, hrest]
  have hlen2 : (rest.drop 2).length = rest.length - 2 := List.length_drop ..
  have hsplit : first ++ tail = rest.drop 2 := upTo_append_onFrom ..
  have hlens : first.length + tail.length = rest.length - 2 := by
    rw [← hlen2, ← hsplit, List.length_append]
  -- `//` is there, and the length with the two added again is that of the rest.
  have heq2 : streqLen url.mem p (litMem "//") 0 2 = true := by
    have hh := url.holds_drop (p := p) (by omega)
    rw [hrest] at hh
    exact (hh.streqLen_iff (holds_litMem (t := "//") (by decide)) 2).mpr hslash
  have hlen : sizeAdd (rest.length - 2) 2 = rest.length := by
    rw [sizeAdd_eq (by omega)]
    omega
  have hany : strchrAnyLen url.mem (p + 2) (lit "/?#") rest.length =
      if tail = [] then none else some (p + 2 + first.length) := by
    have hh := url.holds_drop (p := p + 2) (by omega)
    rw [hrest2] at hh
    rw [hh.strchrAnyLen_eq, List.take_of_length_le (by omega)]
  unfold urlParsePastScheme
  rw [if_pos ⟨by omega, heq2⟩, hlen]
  dsimp only
  rw [hany]
  by_cases htail : tail = []
  · rw [if_pos htail, if_pos htail]
    have htake : (url.chars.drop (p + 2)).take rest.length = first := by
      rw [hrest2, List.take_of_length_le (by omega), ← hsplit, htail, List.append_nil]
    have hdrop : (url.chars.drop (p + 2)).drop rest.length = tail := by
      rw [hrest2, htail]
      exact List.drop_eq_nil_of_le (by omega)
    obtain ⟨user, password, host, heq, hu, hpw, hh⟩ := urlParseUserPasswordHostAndPort_eq url max
      (p + 2) rest.length (pastScheme old newScheme default) (by omega) (by omega) rfl
    rw [htake, hdrop] at heq hh
    rw [htake] at hu hpw
    dsimp only
    rw [heq]
    exact ⟨_, rfl, hscheme, hu, hpw, hh, rfl, wrote_slash _ _, wrote_empty _ _, wrote_empty _ _,
      wrote_slash _ _⟩
  · rw [if_neg htail, if_neg htail]
    obtain ⟨user, password, host, heq, hu, hpw, hh⟩ := urlParseUserPasswordHostAndPort_eq url max
      (p + 2) first.length (pastScheme old newScheme default) (by omega) (by omega) rfl
    rw [hrest2, take_upTo_length, drop_upTo_length] at heq hh
    rw [hrest2, take_upTo_length] at hu hpw
    have htake : (url.chars.drop (p + 2 + first.length)).take (rest.length - first.length) =
        tail := by
      rw [← List.drop_drop, hrest2, drop_upTo_length]
      exact List.take_of_length_le (show tail.length ≤ _ by omega)
    have hsub : sizeSub rest.length first.length = rest.length - first.length :=
      sizeSub_eq (by omega) (by omega)
    obtain ⟨path, query, fragment, pathSuffix, heq', h1, h2, h3, h4⟩ := urlParsePathSuffix_eq url max
      (p + 2 + first.length) (rest.length - first.length) { pastScheme old newScheme default with
        user, password, host, port := old.port.map hostPort.2.getD } (by omega) (by omega) htake
    dsimp only
    rw [Nat.add_sub_cancel_left, heq]
    dsimp only
    rw [hsub, heq']
    exact ⟨_, rfl, hscheme, hu, hpw, hh, rfl, h1, h2, h3, h4⟩

theorem take_sizeSub_two (h : rest.length < 2 ^ 32) :
    rest.take (sizeSub rest.length 2) = pathPastScheme rest := by
  unfold pathPastScheme
  split
  · exact List.take_of_length_le (by unfold sizeSub; omega)
  · rw [sizeSub_eq (by omega) h]

theorem urlParsePastScheme_path (hp : p + rest.length = url.chars.length)
    (hrest : url.chars.drop p = rest) (hnot : ¬ (5 ≤ rest.length ∧ rest.take 2 = lit "//"))
    (hscheme : Wrote (some scheme) max.maxScheme old.scheme newScheme) (default : Option UInt16) :
    let pieces : UrlPieces := ⟨scheme, none, none, none, default, lit "/", [], [], lit "/"⟩
    ∃ new, urlParsePastScheme url max p (sizeSub rest.length 2)
        (pastScheme old newScheme default) = (true, new) ∧
      WrotePieces max (withPath pieces (pathPastScheme rest)) old new := by
  intro pieces
  have hfits := url.fits
  have hh := url.holds_drop (p := p) (by omega)
  rw [hrest] at hh
  have heq2 := hh.streqLen_iff (holds_litMem (t := "//") (by decide)) 2
  obtain ⟨path, query, fragment, pathSuffix, heq, h1, h2, h3, h4⟩ := urlParsePathSuffix_eq url max p
    (sizeSub rest.length 2) (pastScheme old newScheme default) (by omega) (Nat.mod_lt _ (by decide))
    ((congrArg (List.take _) hrest).trans (take_sizeSub_two (by omega)))
  have hcond : ¬ (3 ≤ sizeSub rest.length 2 ∧ streqLen url.mem p (litMem "//") 0 2) := by
    rintro ⟨h3, hs⟩
    have hslash : rest.take 2 = lit "//" := heq2.mp hs
    have hlen := congrArg List.length hslash
    rw [List.length_take, show (lit "//").length = 2 from rfl] at hlen
    rw [sizeSub_eq (by omega) (by omega)] at h3
    exact hnot ⟨by omega, hslash⟩
  unfold urlParsePastScheme
  rw [if_neg hcond, heq]
  exact ⟨_, rfl, hscheme, rfl, rfl, rfl, rfl, h1, h2, h3, h4⟩

end Parser

/-- The parser returns the pieces of the URL in their buffers, and false if there are none. -/
theorem urlParseGetParts_eq (url : CString) (max : UrlSizes) (out : UrlParts) :
    match splitUrl url.chars with
    | none => urlParseGetParts url max out = (false, out)
    | some pieces => ∃ new, urlParseGetParts url max out = (true, new) ∧
        WrotePieces max pieces out new := by
  have hfits := url.fits
  obtain ⟨newScheme, heq, hscheme⟩ := urlParseScheme_eq url max
    (upTo [58] url.chars).length out
  rw [take_upTo_length] at hscheme
  by_cases hnil : onFrom [58] url.chars = []
  · unfold urlParseGetParts splitUrl
    rw [memmem_colon, hnil, if_pos rfl]
  · obtain ⟨rest, hurl, hon⟩ := splitUrl_scheme hnil
    have hp : (upTo [58] url.chars).length + 1 + rest.length = url.chars.length := by
      have := congrArg List.length hurl
      rw [List.length_append, List.length_cons] at this
      omega
    have hrest : url.chars.drop ((upTo [58] url.chars).length + 1) = rest := by
      rw [← List.drop_drop, drop_upTo_length, hon]
      rfl
    have hlen : sizeSub (sizeSub url.chars.length (upTo [58] url.chars).length) 3 =
        sizeSub rest.length 2 := by
      rw [sizeSub_eq (by omega) hfits, show url.chars.length - (upTo [58] url.chars).length =
        rest.length + 1 by omega]
      unfold sizeSub
      omega
    unfold urlParseGetParts splitUrl
    rw [memmem_colon, if_neg hnil, hon]
    dsimp only
    rw [heq]
    dsimp only
    rw [hlen]
    by_cases hauth : 5 ≤ rest.length ∧ rest.take 2 = lit "//"
    · rw [if_pos hauth, sizeSub_eq (by omega) (by omega)]
      exact urlParsePastScheme_authority hp hrest hauth.1 hauth.2 hscheme _
    · rw [if_neg hauth]
      exact urlParsePastScheme_path hp hrest hauth hscheme _

end NixieTracker
