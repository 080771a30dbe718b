import NixieTracker.Lib.Checked
import NixieTracker.Util.UrlSplit

/-!
# What the URL parser reads

The parser once more, without a result where it reads the URL behind its NUL or where a length wraps
around.

* `CString.read`, `CopyInside`: a character of the URL or its NUL, and a copy of them.
* `LastFits`: the length that is computed behind `//` is two too large, so that the copy of the last
  piece of the URL stops at the NUL only if its buffer is at most two bytes larger.
* `cutChecked_eq`, `cutChecked_last` and the like: a part that ends before the end of the URL is read
  inside, the rest of the URL with two bytes more under that condition.
* `parts_read_inside_iff`: the condition for the whole parser.
-/

namespace NixieTracker

open Lib

/-! ## The parser with checks -/

/-- The character at `p`: the NUL is the last one of the string. -/
def CString.read (url : CString) (p : Nat) : Option UInt8 :=
  if p ≤ url.chars.length then some (url.mem p) else none

/-- The bytes that `safe_strncpy_len` copies are those of the string. -/
def CopyInside (url : CString) (dst : Option (List UInt8)) (src len maxCopy : Nat) : Prop :=
  dst = none ∨ maxCopy = 0 ∨ src + minZz len (maxCopy - 1) ≤ url.chars.length + 1

instance (url : CString) (dst : Option (List UInt8)) (src len maxCopy : Nat) :
    Decidable (CopyInside url dst src len maxCopy) := inferInstanceAs (Decidable (_ ∨ _))

section Checked

variable (url : CString) (max : UrlSizes)

def strchrLenChecked (needle : UInt8) : Nat → Nat → Option (Option Nat)
  | _, 0 => some none
  | haystack, n + 1 => do
    let ch ← url.read haystack
    if ch = 0 then some none
    else if ch = needle then some (some haystack)
    else strchrLenChecked needle (haystack + 1) n

def strchrAnyLenChecked (needles : List UInt8) : Nat → Nat → Option (Option Nat)
  | _, 0 => some none
  | haystack, n + 1 => do
    let ch ← url.read haystack
    if ch = 0 then some none
    else if ch ∈ needles then some (some haystack)
    else strchrAnyLenChecked needles (haystack + 1) n

def streqLenChecked (b : Memory) : Nat → Nat → Nat → Option Bool
  | _, _, 0 => some true
  | p, q, n + 1 => do
    let ch ← url.read p
    if ch ≠ b q then some false
    else if ch = 0 then some true
    else streqLenChecked b (p + 1) (q + 1) n

def safeStrncpyLenChecked (dst : Option (List UInt8)) (src len maxCopy : Nat) :
    Option (Option (List UInt8)) :=
  if CopyInside url dst src len maxCopy then some (safeStrncpyLen dst url.mem src len maxCopy)
  else none

/-- `atoi` reads up to the NUL at most. -/
def atoiChecked (p : Nat) : Option Int :=
  if p ≤ url.chars.length then some (atoi (url.chars.drop p)) else none

def urlParseSchemeChecked (urlPart len : Nat) (out : UrlParts) : Option (Bool × UrlParts) := do
  let scheme ← safeStrncpyLenChecked url out.scheme urlPart len max.maxScheme
  let out := { out with scheme }
  if out.port.isNone then some (true, out)
  else do
    let https ← streqLenChecked url (litMem "https") urlPart 0 5
    if https then some (true, { out with port := some 443 })
    else do
      let http ← streqLenChecked url (litMem "http") urlPart 0 4
      some (true, if http then { out with port := some 80 } else out)

def urlParseUserAndPasswordChecked (urlPart len : Nat) (out : UrlParts) :
    Option (Bool × UrlParts) :=
  if out.user.isNone ∧ out.password.isNone then some (true, out)
  else do
    match ← strchrLenChecked url 58 urlPart len with
    | none =>
      let user ← safeStrncpyLenChecked url out.user urlPart len max.maxUser
      some (true, { out with
        user
        password := safeStrncpyLen out.password (litMem "") 0 1 max.maxPassword })
    | some colon =>
      let user ← safeStrncpyLenChecked url out.user urlPart (colon - urlPart) max.maxUser
      let passwordLen ← checkedSub len (colon - urlPart + 1)
      let password ←
        safeStrncpyLenChecked url out.password (colon + 1) passwordLen max.maxPassword
      some (true, { out with user, password })

def urlParseHostAndPortChecked (urlPart len : Nat) (out : UrlParts) : Option (Bool × UrlParts) :=
  if out.host.isNone ∧ out.port.isNone then some (true, out)
  else do
    match ← strchrLenChecked url 58 urlPart len with
    | none =>
      let host ← safeStrncpyLenChecked url out.host urlPart len max.maxHost
      some (true, { out with host })
    | some colon =>
      let host ← safeStrncpyLenChecked url out.host urlPart (colon - urlPart) max.maxHost
      if out.port.isNone then some (true, { out with host })
      else do
        let port ← atoiChecked url (colon + 1)
        some (true, { out with host, port := some (toUInt16 port) })

def urlParseUserPasswordHostAndPortChecked (urlPart len : Nat) (out : UrlParts) :
    Option (Bool × UrlParts) := do
  match ← strchrLenChecked url 64 urlPart len with
  | some at_ =>
    let userPasswordLen := at_ - urlPart
    match ← urlParseUserAndPasswordChecked url max urlPart userPasswordLen out with
    | (false, out) => some (false, out)
    | (true, out) =>
      let len ← checkedSub len (userPasswordLen + 1)
      urlParseHostAndPortChecked url max (at_ + 1) len out
  | none =>
    urlParseHostAndPortChecked url max urlPart len
      { out with
        user := safeStrncpyLen out.user (litMem "") 0 1 max.maxUser
        password := safeStrncpyLen out.password (litMem "") 0 1 max.maxPassword }

/-- The search for the fragment or the query, and the copy of what stands behind the character. -/
def cutChecked (needle : UInt8) (dst : Option (List UInt8)) (maxCopy urlPart len : Nat) :
    Option (Option (List UInt8) × Nat) := do
  match ← strchrLenChecked url needle urlPart len with
  | some token =>
    let left ← checkedSub len (token - urlPart)
    let behind ← checkedSub left 1
    let piece ← safeStrncpyLenChecked url dst (token + 1) behind maxCopy
    some (piece, token - urlPart)
  | none => some (safeStrncpyLen dst (litMem "") 0 1 maxCopy, len)

def urlParseFragmentChecked (urlPart len : Nat) (out : UrlParts) : Option (UrlParts × Nat) := do
  let (fragment, len) ← cutChecked url 35 out.fragment max.maxFragment urlPart len
  some ({ out with fragment }, len)

def urlParseQueryChecked (urlPart len : Nat) (out : UrlParts) : Option (UrlParts × Nat) := do
  let (query, len) ← cutChecked url 63 out.query max.maxQuery urlPart len
  some ({ out with query }, len)

def urlParsePathQueryAndFragmentChecked (urlPart len : Nat) (out : UrlParts) :
    Option (Bool × UrlParts) :=
  if out.path.isNone ∧ out.query.isNone ∧ out.fragment.isNone then some (true, out)
  else do
    let (out, len) ← urlParseFragmentChecked url max urlPart len out
    let (out, len) ← urlParseQueryChecked url max urlPart len out
    let path ← safeStrncpyLenChecked url out.path urlPart len max.maxPath
    some (true, { out with path })

def urlParsePathSuffixChecked (urlPart : Option Nat) (len : Nat) (out : UrlParts) :
    Option (Bool × UrlParts) :=
  match urlPart with
  | none =>
    some (true, { out with
      path := safeStrncpyLen out.path (litMem "/") 0 1 max.maxPath
      query := safeStrncpyLen out.query (litMem "") 0 1 max.maxQuery
      fragment := safeStrncpyLen out.fragment (litMem "") 0 1 max.maxFragment
      pathSuffix := safeStrncpyLen out.pathSuffix (litMem "/") 0 1 max.maxPathSuffix })
  | some urlPart => do
    let pathSuffix ← safeStrncpyLenChecked url out.pathSuffix urlPart len max.maxPathSuffix
    urlParsePathQueryAndFragmentChecked url max urlPart len { out with pathSuffix }

/-- `STREQ_LEN` is only evaluated if `len` is large enough. -/
def hasAuthorityChecked (urlPart len : Nat) : Option Bool :=
  if 3 ≤ len then streqLenChecked url (litMem "//") urlPart 0 2 else some false

def urlParsePastSchemeChecked (urlPart len : Nat) (out : UrlParts) :
    Option (Bool × UrlParts) := do
  if ← hasAuthorityChecked url urlPart len then
    let urlPart := urlPart + 2
    let len ← checkedAdd len 2
    let pathStart ← strchrAnyLenChecked url (lit "/?#") urlPart len
    let firstPartLength := match pathStart with
      | some pathStart => pathStart - urlPart
      | none => len
    match ← urlParseUserPasswordHostAndPortChecked url max urlPart firstPartLength out with
    | (false, out) => some (false, out)
    | (true, out) =>
      let len ← checkedSub len firstPartLength
      urlParsePathSuffixChecked url max pathStart len out
  else urlParsePathSuffixChecked url max (some urlPart) len out

/-- `strstr` and `strlen` read up to the NUL. -/
def urlParseGetPartsChecked (out : UrlParts) : Option (Bool × UrlParts) :=
  match memmem url.chars (lit ":") with
  | none => some (false, out)
  | some schemeLen => do
    match ← urlParseSchemeChecked url max 0 schemeLen out with
    | (false, out) => some (false, out)
    | (true, out) =>
      let len ← checkedSub url.chars.length schemeLen
      let len ← checkedSub len 3
      urlParsePastSchemeChecked url max (schemeLen + 1) len out

end Checked

/-! ## The condition -/

/-- The buffer is at most two bytes larger than the piece. -/
def LastFits (dst : Option (List UInt8)) (piece : List UInt8) (maxCopy : Nat) : Prop :=
  dst = none ∨ maxCopy ≤ piece.length + 2

instance (dst : Option (List UInt8)) (piece : List UInt8) (maxCopy : Nat) :
    Decidable (LastFits dst piece maxCopy) := inferInstanceAs (Decidable (_ ∨ _))

/-- The last piece of `[/path][?query][#fragment]`. -/
def PathFits (max : UrlSizes) (out : UrlParts) (s : List UInt8) : Prop :=
  if onFrom [35] s ≠ [] then LastFits out.fragment (splitPath s).2.2 max.maxFragment
  else if onFrom [63] s ≠ [] then LastFits out.query (splitPath s).2.1 max.maxQuery
  else LastFits out.path s max.maxPath

instance (max : UrlSizes) (out : UrlParts) (s : List UInt8) : Decidable (PathFits max out s) := by
  unfold PathFits
  infer_instance

/-- The last piece of `[user[:password]@]host[:port]`; behind a colon nothing is copied. -/
def HostFits (max : UrlSizes) (out : UrlParts) (s : List UInt8) : Prop :=
  onFrom [58] (splitAt s).2 ≠ [] ∨ LastFits out.host (splitAt s).2 max.maxHost

instance (max : UrlSizes) (out : UrlParts) (s : List UInt8) : Decidable (HostFits max out s) :=
  inferInstanceAs (Decidable (_ ∨ _))

/-- What stands behind `//`. -/
def AuthorityFits (max : UrlSizes) (out : UrlParts) (s : List UInt8) : Prop :=
  let tail := onFrom (lit "/?#") s
  if tail = [] then HostFits max out s
  else LastFits out.pathSuffix tail max.maxPathSuffix ∧ PathFits max out tail

instance (max : UrlSizes) (out : UrlParts) (s : List UInt8) : Decidable (AuthorityFits max out s) := by
  unfold AuthorityFits
  infer_instance

/-- What stands behind the colon of the scheme. -/
def ReadsInside (url : List UInt8) (max : UrlSizes) (out : UrlParts) : Prop :=
  ∀ rest, onFrom [58] url = 58 :: rest →
    2 ≤ rest.length ∧ (5 ≤ rest.length → rest.take 2 = lit "//" → AuthorityFits max out (rest.drop 2))

/-! ## Searches and copies -/

section Copies

variable {url : CString} {p n : Nat}

/-- The NUL ends a search. -/
theorem CString.succ_le (hp : p ≤ url.chars.length) (h : url.mem p ≠ 0) : p + 1 ≤ url.chars.length := by
  rcases Nat.lt_or_eq_of_le hp with hlt | rfl
  · exact hlt
  · exact absurd url.holds.nul (by rwa [Nat.zero_add])

theorem strchrAnyLenChecked_eq (needles : List UInt8) (hp : p ≤ url.chars.length) (n : Nat) :
    strchrAnyLenChecked url needles p n = some (strchrAnyLen url.mem p needles n) := by
  induction n generalizing p with
  | zero => rfl
  | succ n ih =>
    unfold strchrAnyLenChecked strchrAnyLen CString.read
    rw [if_pos hp, Option.bind_eq_bind, Option.bind_some]
    split
    · rfl
    · rename_i hne
      split
      · rfl
      · exact ih (url.succ_le hp hne)

theorem strchrLenChecked_eq (needle : UInt8) (hp : p ≤ url.chars.length) (n : Nat) :
    strchrLenChecked url needle p n = some (strchrLen url.mem p needle n) := by
  induction n generalizing p with
  | zero => rfl
  | succ n ih =>
    unfold strchrLenChecked strchrLen CString.read
    rw [if_pos hp, Option.bind_eq_bind, Option.bind_some]
    split
    · rfl
    · rename_i hne
      split
      · rfl
      · exact ih (url.succ_le hp hne)

theorem streqLenChecked_eq (b : Memory) (q : Nat) (hp : p ≤ url.chars.length) (n : Nat) :
    streqLenChecked url b p q n = some (streqLen url.mem p b q n) := by
  induction n generalizing p q with
  | zero => rfl
  | succ n ih =>
    unfold streqLenChecked streqLen CString.read
    rw [if_pos hp, Option.bind_eq_bind, Option.bind_some]
    split
    · rfl
    · split
      · rfl
      · rename_i hne
        exact ih (q + 1) (url.succ_le hp hne)

theorem safeStrncpyLenChecked_eq (dst : Option (List UInt8)) {len : Nat} (maxCopy : Nat)
    (h : p + len ≤ url.chars.length) :
    safeStrncpyLenChecked url dst p len maxCopy = some (safeStrncpyLen dst url.mem p len maxCopy) := by
  apply if_pos
  refine .inr (.inr ?_)
  rw [minZz_eq]
  omega

/-- A copy of the rest of the string with two bytes more. -/
theorem copyInside_iff (dst : Option (List UInt8)) (maxCopy : Nat) (hp : p ≤ url.chars.length)
    (hn : n = (url.chars.drop p).length + 2) :
    CopyInside url dst p n maxCopy ↔ LastFits dst (url.chars.drop p) maxCopy := by
  rw [List.length_drop] at hn
  unfold CopyInside LastFits
  rw [List.length_drop, minZz_eq]
  by_cases hdst : dst = none
  · exact iff_of_true (.inl hdst) (.inl hdst)
  · rw [or_iff_right hdst, or_iff_right hdst]
    omega

end Copies

/-! ## The authority -/

section Authority

variable {url : CString} {max : UrlSizes} {p len : Nat} {out : UrlParts}

theorem urlParseSchemeChecked_eq (h : p + len ≤ url.chars.length) :
    urlParseSchemeChecked url max p len out = some (urlParseScheme url max p len out) := by
  unfold urlParseSchemeChecked urlParseScheme
  rw [safeStrncpyLenChecked_eq _ _ h, streqLenChecked_eq _ _ (by omega),
    streqLenChecked_eq _ _ (by omega)]
  simp only [Option.bind_eq_bind, Option.bind_some]
  split
  · rfl
  · split
    · rfl
    · split <;> rfl

theorem urlParseUserAndPasswordChecked_eq (h : p + len ≤ url.chars.length) :
    urlParseUserAndPasswordChecked url max p len out =
      some (urlParseUserAndPassword url max p len out) := by
  have hfits := url.fits
  unfold urlParseUserAndPasswordChecked urlParseUserAndPassword
  split
  · rfl
  · rw [strchrLenChecked_eq _ (by omega)]
    rcases strchrLen_cases url (p := p) (by omega) 58 len with ⟨hf, -, -⟩ | ⟨i, t, hi⟩
    · rw [hf]
      simp only [Option.bind_eq_bind, Option.bind_some, safeStrncpyLenChecked_eq _ _ h]
    · have hlt := hi.lt
      rw [hi.found]
      simp only [Option.bind_eq_bind, Option.bind_some, Nat.add_sub_cancel_left,
        checkedSub_eq hlt, sizeSub_eq hlt (show len < 2 ^ 32 by omega)]
      rw [safeStrncpyLenChecked_eq _ _ (by omega), safeStrncpyLenChecked_eq _ _ (by omega)]
      rfl

/-- The host is copied if no port follows. -/
theorem urlParseHostAndPortChecked_eq (hp : p ≤ url.chars.length) :
    urlParseHostAndPortChecked url max p len out =
      if onFrom [58] ((url.chars.drop p).take len) ≠ [] ∨ CopyInside url out.host p len max.maxHost
      then some (urlParseHostAndPort url max p len out) else none := by
  unfold urlParseHostAndPortChecked urlParseHostAndPort
  by_cases hnone : out.host.isNone ∧ out.port.isNone
  · rw [if_pos hnone, if_pos hnone, if_pos (.inr (.inl (Option.isNone_iff_eq_none.mp hnone.1)))]
  · rw [if_neg hnone, if_neg hnone, strchrLenChecked_eq _ hp]
    rcases strchrLen_cases url hp 58 len with ⟨hf, hnil, -⟩ | ⟨i, t, hi⟩
    · rw [hf, hnil]
      simp only [Option.bind_eq_bind, Option.bind_some, ne_eq, not_true_eq_false, false_or]
      unfold safeStrncpyLenChecked
      split <;> rfl
    · have hbound := hi.bound
      have hcolon : onFrom [58] ((url.chars.drop p).take len) ≠ [] := by
        rw [hi.split]
        exact List.cons_ne_nil _ _
      rw [hi.found, if_pos (.inl hcolon)]
      simp only [Option.bind_eq_bind, Option.bind_some, Nat.add_sub_cancel_left]
      rw [safeStrncpyLenChecked_eq _ _ (by omega), Option.bind_some, atoiChecked, if_pos hbound]
      cases out.port <;> rfl

/-- The part up to a path. -/
theorem urlParseUserPasswordHostAndPortChecked_eq (h : p + len ≤ url.chars.length) :
    urlParseUserPasswordHostAndPortChecked url max p len out =
      some (urlParseUserPasswordHostAndPort url max p len out) := by
  have hfits := url.fits
  have hcopy {q l : Nat} (hq : q + l ≤ url.chars.length) (out : UrlParts) :
      urlParseHostAndPortChecked url max q l out = some (urlParseHostAndPort url max q l out) := by
    have hinside : CopyInside url out.host q l max.maxHost := by
      refine .inr (.inr ?_)
      rw [minZz_eq]
      omega
    rw [urlParseHostAndPortChecked_eq (by omega), if_pos (.inr hinside)]
  unfold urlParseUserPasswordHostAndPortChecked urlParseUserPasswordHostAndPort
  rw [strchrLenChecked_eq _ (by omega)]
  rcases strchrLen_cases url (p := p) (by omega) 64 len with ⟨hf, -, -⟩ | ⟨i, t, hi⟩
  · rw [hf]
    exact hcopy h _
  · have hlt := hi.lt
    have hbound := hi.bound
    obtain ⟨user, password, heq, -, -⟩ :=
      urlParseUserAndPassword_eq url max p i out (by omega) (by omega)
    rw [hi.found]
    simp only [Option.bind_eq_bind, Option.bind_some, Nat.add_sub_cancel_left]
    rw [urlParseUserAndPasswordChecked_eq (by omega), heq]
    simp only [Option.bind_some, checkedSub_eq hlt, sizeSub_eq hlt (show len < 2 ^ 32 by omega)]
    exact hcopy (by omega) _

/-- The rest of the URL with two bytes more. -/
theorem urlParseHostAndPortChecked_last (hp : p ≤ url.chars.length)
    (hlen : len = (url.chars.drop p).length + 2) :
    urlParseHostAndPortChecked url max p len out =
      if onFrom [58] (url.chars.drop p) ≠ [] ∨ LastFits out.host (url.chars.drop p) max.maxHost then
        some (urlParseHostAndPort url max p len out) else none := by
  rw [urlParseHostAndPortChecked_eq hp, List.take_of_length_le (by omega)]
  exact if_congr (or_congr_right (copyInside_iff _ _ hp hlen)) rfl rfl

theorem urlParseUserPasswordHostAndPortChecked_last (hp : p ≤ url.chars.length)
    (hlen : len = (url.chars.drop p).length + 2) (hfits : len < 2 ^ 32) :
    urlParseUserPasswordHostAndPortChecked url max p len out =
      if HostFits max out (url.chars.drop p) then
        some (urlParseUserPasswordHostAndPort url max p len out) else none := by
  have hall : (url.chars.drop p).take len = url.chars.drop p :=
    List.take_of_length_le (by omega)
  unfold urlParseUserPasswordHostAndPortChecked urlParseUserPasswordHostAndPort
  rw [strchrLenChecked_eq _ hp]
  rcases strchrLen_cases url hp 64 len with ⟨hf, hnil, -⟩ | ⟨i, t, hi⟩
  · rw [hall] at hnil
    have hat : splitAt (url.chars.drop p) = (([], []), url.chars.drop p) := if_pos hnil
    rw [hf]
    simp only [Option.bind_eq_bind, Option.bind_some]
    rw [urlParseHostAndPortChecked_last hp hlen]
    exact if_congr (by rw [HostFits, hat]) rfl rfl
  · have hlt := hi.lt
    have hbound := hi.bound
    have hsplit := hi.split
    rw [hall] at hsplit
    have hdrop : t = url.chars.drop (p + i + 1) := by
      rw [← hi.behind]
      exact List.take_of_length_le (by rw [List.length_drop] at hlen ⊢; omega)
    have hat : (splitAt (url.chars.drop p)).2 = url.chars.drop (p + i + 1) := by
      unfold NixieTracker.splitAt
      rw [hsplit, if_neg (List.cons_ne_nil _ _), ← hdrop]
      rfl
    have hrest : len - (i + 1) = (url.chars.drop (p + i + 1)).length + 2 := by
      rw [List.length_drop] at hlen ⊢
      omega
    obtain ⟨user, password, heq, -, -⟩ := urlParseUserAndPassword_eq url max p i out hp (by omega)
    rw [hi.found]
    simp only [Option.bind_eq_bind, Option.bind_some, Nat.add_sub_cancel_left]
    rw [urlParseUserAndPasswordChecked_eq (by omega), heq]
    simp only [Option.bind_some, checkedSub_eq hlt, sizeSub_eq hlt hfits]
    rw [urlParseHostAndPortChecked_last hbound hrest]
    exact if_congr (by rw [HostFits, hat]) rfl rfl

end Authority

/-! ## The path -/

section Path

variable {url : CString} {max : UrlSizes} {p len : Nat} {out : UrlParts}

/-- The search for the fragment or the query, without checks. -/
def cut (url : CString) (needle : UInt8) (dst : Option (List UInt8)) (maxCopy urlPart len : Nat) :
    Option (List UInt8) × Nat :=
  match strchrLen url.mem urlPart needle len with
  | some token =>
    (safeStrncpyLen dst url.mem (token + 1) (sizeSub (sizeSub len (token - urlPart)) 1) maxCopy,
      token - urlPart)
  | none => (safeStrncpyLen dst (litMem "") 0 1 maxCopy, len)

theorem urlParseFragment_eq_cut : urlParseFragment url max p len out =
    ({ out with fragment := (cut url 35 out.fragment max.maxFragment p len).1 },
      (cut url 35 out.fragment max.maxFragment p len).2) := by
  unfold urlParseFragment cut
  cases strchrLen url.mem p 35 len <;> rfl

theorem urlParseQuery_eq_cut : urlParseQuery url max p len out =
    ({ out with query := (cut url 63 out.query max.maxQuery p len).1 },
      (cut url 63 out.query max.maxQuery p len).2) := by
  unfold urlParseQuery cut
  cases strchrLen url.mem p 63 len <;> rfl

variable (needle : UInt8) (dst : Option (List UInt8)) (maxCopy : Nat)

theorem cut_missing (hp : p ≤ url.chars.length)
    (h : onFrom [needle] ((url.chars.drop p).take len) = []) :
    cut url needle dst maxCopy p len = (safeStrncpyLen dst (litMem "") 0 1 maxCopy, len) := by
  unfold cut
  rcases strchrLen_cases url hp needle len with ⟨hf, -, -⟩ | ⟨i, t, hi⟩
  · rw [hf]
  · rw [hi.split] at h
    cases h

/-- What is left stands before the character. -/
theorem cut_found (hp : p ≤ url.chars.length)
    (h : onFrom [needle] ((url.chars.drop p).take len) ≠ []) :
    p + (cut url needle dst maxCopy p len).2 ≤ url.chars.length := by
  unfold cut
  rcases strchrLen_cases url hp needle len with ⟨-, hnil, -⟩ | ⟨i, t, hi⟩
  · exact absurd hnil h
  · have hbound := hi.bound
    rw [hi.found]
    dsimp only
    omega

theorem cutChecked_eq (h : p + len ≤ url.chars.length) :
    cutChecked url needle dst maxCopy p len = some (cut url needle dst maxCopy p len) ∧
      p + (cut url needle dst maxCopy p len).2 ≤ url.chars.length := by
  have hfits := url.fits
  have hp : p ≤ url.chars.length := by omega
  unfold cutChecked
  rw [strchrLenChecked_eq _ hp]
  rcases strchrLen_cases url hp needle len with ⟨hf, hnil, -⟩ | ⟨i, t, hi⟩
  · rw [cut_missing needle dst maxCopy hp hnil, hf]
    exact ⟨rfl, h⟩
  · have hlt := hi.lt
    refine ⟨?_, cut_found needle dst maxCopy hp (by rw [hi.split]; exact List.cons_ne_nil _ _)⟩
    unfold cut
    rw [hi.found]
    simp only [Option.bind_eq_bind, Option.bind_some, Nat.add_sub_cancel_left,
      checkedSub_eq (Nat.le_of_lt hlt), checkedSub_eq (show 1 ≤ len - i by omega),
      sizeSub_eq (Nat.le_of_lt hlt) (show len < 2 ^ 32 by omega),
      sizeSub_eq (show 1 ≤ len - i by omega) (show len - i < 2 ^ 32 by omega)]
    rw [safeStrncpyLenChecked_eq _ _ (by omega)]
    rfl

/-- The rest of the URL with two bytes more: they belong to what stands behind the character. -/
theorem cutChecked_last (hp : p ≤ url.chars.length) (hlen : len = (url.chars.drop p).length + 2)
    (hfits : len < 2 ^ 32) :
    cutChecked url needle dst maxCopy p len =
      if onFrom [needle] (url.chars.drop p) = [] ∨
        LastFits dst ((onFrom [needle] (url.chars.drop p)).drop 1) maxCopy then
        some (cut url needle dst maxCopy p len) else none := by
  have hall : (url.chars.drop p).take len = url.chars.drop p := List.take_of_length_le (by omega)
  unfold cutChecked
  rw [strchrLenChecked_eq _ hp]
  rcases strchrLen_cases url hp needle len with ⟨hf, hnil, -⟩ | ⟨i, t, hi⟩
  · rw [cut_missing needle dst maxCopy hp hnil, hf]
    rw [hall] at hnil
    rw [if_pos (.inl hnil)]
    rfl
  · have hlt := hi.lt
    have hbound := hi.bound
    have hsplit := hi.split
    rw [hall] at hsplit
    have hdrop : t = url.chars.drop (p + i + 1) := by
      rw [← hi.behind]
      exact List.take_of_length_le (by rw [List.length_drop] at hlen ⊢; omega)
    have hrest : len - i - 1 = (url.chars.drop (p + i + 1)).length + 2 := by
      rw [List.length_drop] at hlen ⊢
      omega
    unfold cut
    rw [hi.found, hsplit]
    simp only [Option.bind_eq_bind, Option.bind_some, Nat.add_sub_cancel_left,
      checkedSub_eq (Nat.le_of_lt hlt), checkedSub_eq (show 1 ≤ len - i by omega),
      sizeSub_eq (Nat.le_of_lt hlt) hfits,
      sizeSub_eq (show 1 ≤ len - i by omega) (show len - i < 2 ^ 32 by omega)]
    have hiff : CopyInside url dst (p + i + 1) (len - i - 1) maxCopy ↔
        (needle :: t = [] ∨ LastFits dst ((needle :: t).drop 1) maxCopy) := by
      rw [copyInside_iff dst maxCopy hbound hrest, or_iff_right (List.cons_ne_nil _ _),
        List.drop_succ_cons, List.drop_zero, ← hdrop]
    unfold safeStrncpyLenChecked
    by_cases hin : CopyInside url dst (p + i + 1) (len - i - 1) maxCopy
    · rw [if_pos hin, if_pos (hiff.mp hin)]
      rfl
    · rw [if_neg hin, if_neg fun h => hin (hiff.mpr h)]
      rfl

variable {needle dst maxCopy}

theorem urlParsePathQueryAndFragmentChecked_eq (h : p + len ≤ url.chars.length) :
    urlParsePathQueryAndFragmentChecked url max p len out =
      some (urlParsePathQueryAndFragment url max p len out) := by
  unfold urlParsePathQueryAndFragmentChecked urlParsePathQueryAndFragment
  split
  · rfl
  · obtain ⟨hfragment, hleft⟩ := cutChecked_eq 35 out.fragment max.maxFragment h
    obtain ⟨hquery, hleft'⟩ := cutChecked_eq 63 out.query max.maxQuery hleft
    unfold urlParseFragmentChecked urlParseQueryChecked
    simp only [urlParseFragment_eq_cut, urlParseQuery_eq_cut, hfragment, hquery,
      safeStrncpyLenChecked_eq _ _ hleft', Option.bind_eq_bind, Option.bind_some]

/-- Only the last piece is at the end of the URL. -/
theorem urlParsePathQueryAndFragmentChecked_last (hp : p ≤ url.chars.length)
    (hlen : len = (url.chars.drop p).length + 2) (hfits : len < 2 ^ 32) :
    urlParsePathQueryAndFragmentChecked url max p len out =
      if PathFits max out (url.chars.drop p) then
        some (urlParsePathQueryAndFragment url max p len out) else none := by
  have hall : (url.chars.drop p).take len = url.chars.drop p := List.take_of_length_le (by omega)
  unfold urlParsePathQueryAndFragmentChecked urlParsePathQueryAndFragment
  by_cases hnone : out.path.isNone ∧ out.query.isNone ∧ out.fragment.isNone
  · rw [if_pos hnone, if_pos hnone, if_pos]
    obtain ⟨hpath, hquery, hfragment⟩ := hnone
    rw [Option.isNone_iff_eq_none] at hpath hquery hfragment
    unfold PathFits
    split
    · exact .inl hfragment
    · split
      · exact .inl hquery
      · exact .inl hpath
  · rw [if_neg hnone, if_neg hnone]
    unfold urlParseFragmentChecked urlParseQueryChecked
    simp only [urlParseFragment_eq_cut, urlParseQuery_eq_cut,
      cutChecked_last 35 out.fragment max.maxFragment hp hlen hfits, Option.bind_eq_bind]
    by_cases h35 : onFrom [35] (url.chars.drop p) = []
    · have hup : upTo [35] (url.chars.drop p) = url.chars.drop p := onFrom_eq_nil.mp h35
      have hcut : (cut url 35 out.fragment max.maxFragment p len).2 = len := by
        rw [cut_missing 35 _ _ hp (by rwa [hall])]
      simp only [if_pos (Or.inl h35), Option.bind_some, hcut,
        cutChecked_last 63 out.query max.maxQuery hp hlen hfits]
      by_cases h63 : onFrom [63] (url.chars.drop p) = []
      · have hcut' : (cut url 63 out.query max.maxQuery p len).2 = len := by
          rw [cut_missing 63 _ _ hp (by rwa [hall])]
        simp only [if_pos (Or.inl h63), Option.bind_some, hcut', safeStrncpyLenChecked]
        have hiff : CopyInside url out.path p len max.maxPath ↔ PathFits max out (url.chars.drop p) := by
          rw [copyInside_iff _ _ hp hlen, PathFits, if_neg (not_not_intro h35),
            if_neg (not_not_intro h63)]
        by_cases hin : CopyInside url out.path p len max.maxPath
        · rw [if_pos hin, if_pos (hiff.mp hin), Option.bind_some]
        · rw [if_neg hin, if_neg fun h => hin (hiff.mpr h), Option.bind_none]
      · have hleft := cut_found 63 out.query max.maxQuery hp (by rwa [hall])
        have hiff : (onFrom [63] (url.chars.drop p) = [] ∨
            LastFits out.query ((onFrom [63] (url.chars.drop p)).drop 1) max.maxQuery) ↔
              PathFits max out (url.chars.drop p) := by
          rw [or_iff_right h63, PathFits, if_neg (not_not_intro h35), if_pos h63, splitPath, hup]
        by_cases hin : PathFits max out (url.chars.drop p)
        · simp only [if_pos hin, if_pos (hiff.mpr hin), Option.bind_some,
            safeStrncpyLenChecked_eq _ _ hleft]
        · simp only [if_neg hin, if_neg fun h => hin (hiff.mp h), Option.bind_none]
    · have hleft := cut_found 35 out.fragment max.maxFragment hp (by rwa [hall])
      obtain ⟨hquery, hleft'⟩ := cutChecked_eq 63 out.query max.maxQuery hleft
      have hiff : (onFrom [35] (url.chars.drop p) = [] ∨
          LastFits out.fragment ((onFrom [35] (url.chars.drop p)).drop 1) max.maxFragment) ↔
            PathFits max out (url.chars.drop p) := by
        rw [or_iff_right h35, PathFits, if_pos h35, splitPath]
      by_cases hin : PathFits max out (url.chars.drop p)
      · simp only [if_pos hin, if_pos (hiff.mpr hin), Option.bind_some, hquery,
          safeStrncpyLenChecked_eq _ _ hleft']
      · simp only [if_neg hin, if_neg fun h => hin (hiff.mp h), Option.bind_none]

theorem urlParsePathSuffixChecked_eq (h : p + len ≤ url.chars.length) :
    urlParsePathSuffixChecked url max (some p) len out =
      some (urlParsePathSuffix url max (some p) len out) := by
  unfold urlParsePathSuffixChecked urlParsePathSuffix
  dsimp only
  rw [safeStrncpyLenChecked_eq _ _ h]
  exact urlParsePathQueryAndFragmentChecked_eq h

theorem urlParsePathSuffixChecked_last (hp : p ≤ url.chars.length)
    (hlen : len = (url.chars.drop p).length + 2) (hfits : len < 2 ^ 32) :
    urlParsePathSuffixChecked url max (some p) len out =
      if LastFits out.pathSuffix (url.chars.drop p) max.maxPathSuffix ∧
        PathFits max out (url.chars.drop p) then
        some (urlParsePathSuffix url max (some p) len out) else none := by
  unfold urlParsePathSuffixChecked urlParsePathSuffix safeStrncpyLenChecked
  dsimp only
  by_cases hsuffix : LastFits out.pathSuffix (url.chars.drop p) max.maxPathSuffix
  · rw [if_pos ((copyInside_iff _ _ hp hlen).mpr hsuffix), Option.bind_eq_bind, Option.bind_some,
      urlParsePathQueryAndFragmentChecked_last hp hlen hfits]
    exact if_congr (and_iff_right hsuffix).symm rfl rfl
  · rw [if_neg fun h => hsuffix ((copyInside_iff _ _ hp hlen).mp h), if_neg fun h => hsuffix h.1]
    rfl

end Path

/-! ## The whole parser -/

section Parser

variable {url : CString} {max : UrlSizes} {p len : Nat} {out : UrlParts}

theorem hasAuthorityChecked_eq (hp : p ≤ url.chars.length) :
    hasAuthorityChecked url p len =
      some (decide (3 ≤ len ∧ streqLen url.mem p (litMem "//") 0 2 = true)) := by
  unfold hasAuthorityChecked
  rw [streqLenChecked_eq _ _ hp]
  by_cases h3 : 3 ≤ len
  · simp [h3]
  · simp [h3]

theorem urlParsePastSchemeChecked_path (h : p + len ≤ url.chars.length)
    (hnot : ¬ (3 ≤ len ∧ streqLen url.mem p (litMem "//") 0 2 = true)) :
    urlParsePastSchemeChecked url max p len out = some (urlParsePastScheme url max p len out) := by
  unfold urlParsePastSchemeChecked urlParsePastScheme
  rw [hasAuthorityChecked_eq (by omega), if_neg hnot, Option.bind_eq_bind, Option.bind_some,
    if_neg (by rw [decide_eq_true_iff]; exact hnot)]
  exact urlParsePathSuffixChecked_eq h

/-- `len += 2` is two too much behind `//`. -/
theorem urlParsePastSchemeChecked_authority (hp : p + 2 ≤ url.chars.length)
    (hlen : len = (url.chars.drop (p + 2)).length)
    (hyes : 3 ≤ len ∧ streqLen url.mem p (litMem "//") 0 2 = true) :
    urlParsePastSchemeChecked url max p len out =
      if AuthorityFits max out (url.chars.drop (p + 2)) then
        some (urlParsePastScheme url max p len out) else none := by
  have hfits := url.fits
  have hlength : len = url.chars.length - (p + 2) := by rw [hlen, List.length_drop]
  have hall : (url.chars.drop (p + 2)).take (len + 2) = url.chars.drop (p + 2) :=
    List.take_of_length_le (by omega)
  have hlens := congrArg List.length (upTo_append_onFrom (lit "/?#") (url.chars.drop (p + 2)))
  rw [List.length_append, ← hlen] at hlens
  have hany := (url.holds_drop hp).strchrAnyLen_eq (lit "/?#") (len + 2)
  rw [hall] at hany
  have hport : out.port = out.port.map (Option.getD none) := by cases out.port <;> rfl
  unfold urlParsePastSchemeChecked urlParsePastScheme
  rw [hasAuthorityChecked_eq (by omega), if_pos hyes, Option.bind_eq_bind, Option.bind_some,
    if_pos (by rw [decide_eq_true_iff]; exact hyes), sizeAdd_eq (by omega), checkedAdd_eq (by omega),
    Option.bind_eq_bind, Option.bind_some, strchrAnyLenChecked_eq _ hp, Option.bind_eq_bind,
    Option.bind_some]
  dsimp only
  rw [hany]
  unfold AuthorityFits
  by_cases htail : onFrom (lit "/?#") (url.chars.drop (p + 2)) = []
  · simp only [if_pos htail]
    rw [urlParseUserPasswordHostAndPortChecked_last hp (by omega) (by omega)]
    obtain ⟨user, password, host, heq, -, -, -⟩ := urlParseUserPasswordHostAndPort_eq url max
      (p + 2) (len + 2) out hp (by omega) hport
    rw [heq]
    by_cases hhost : HostFits max out (url.chars.drop (p + 2))
    · simp only [if_pos hhost, Option.bind_eq_bind, Option.bind_some, checkedSub_eq (Nat.le_refl _)]
      rfl
    · simp only [if_neg hhost, Option.bind_eq_bind, Option.bind_none]
  · simp only [if_neg htail, Nat.add_sub_cancel_left]
    rw [urlParseUserPasswordHostAndPortChecked_eq (by omega)]
    obtain ⟨user, password, host, heq, -, -, -⟩ := urlParseUserPasswordHostAndPort_eq url max
      (p + 2) (upTo (lit "/?#") (url.chars.drop (p + 2))).length out hp (by omega) hport
    have hdrop : url.chars.drop (p + 2 + (upTo (lit "/?#") (url.chars.drop (p + 2))).length) =
        onFrom (lit "/?#") (url.chars.drop (p + 2)) := by
      rw [← List.drop_drop, drop_upTo_length]
    have hlast (out' : UrlParts) :
        urlParsePathSuffixChecked url max
          (some (p + 2 + (upTo (lit "/?#") (url.chars.drop (p + 2))).length))
          (len + 2 - (upTo (lit "/?#") (url.chars.drop (p + 2))).length) out' = _ :=
      urlParsePathSuffixChecked_last (by omega) (by rw [hdrop]; omega) (by omega)
    simp only [hdrop] at hlast
    rw [heq]
    simp only [Option.bind_eq_bind, Option.bind_some, checkedSub_eq
      (show (upTo (lit "/?#") (url.chars.drop (p + 2))).length ≤ len + 2 by omega),
      sizeSub_eq (show (upTo (lit "/?#") (url.chars.drop (p + 2))).length ≤ len + 2 by omega)
        (show len + 2 < 2 ^ 32 by omega)]
    exact hlast _

end Parser

/-- **Reads.** The parser reads the URL up to its NUL only, and no length wraps around, if and only if
at least two characters follow the first colon, and behind `//` (with three more characters) the buffer
for the last piece of the URL is `NULL`, or at most two bytes larger than the piece. -/
theorem parts_read_inside_iff (url : CString) (max : UrlSizes) (out : UrlParts) :
    urlParseGetPartsChecked url max out = some (urlParseGetParts url max out) ↔
      ReadsInside url.chars max out := by
  have hfits := url.fits
  unfold urlParseGetPartsChecked urlParseGetParts ReadsInside
  by_cases hnil : onFrom [58] url.chars = []
  · rw [memmem_colon, if_pos hnil, hnil]
    exact iff_of_true rfl nofun
  obtain ⟨rest, hurl, hon⟩ := splitUrl_scheme hnil
  have hp : (upTo [58] url.chars).length + 1 + rest.length = url.chars.length := by
    have := congrArg List.length hurl
    rw [List.length_append, List.length_cons] at this
    omega
  obtain ⟨scheme, heq, -⟩ := urlParseScheme_eq url max (upTo [58] url.chars).length out
  have hdrop : url.chars.drop ((upTo [58] url.chars).length + 1) = rest := by
    rw [← List.drop_drop, drop_upTo_length, hon]
    rfl
  rw [memmem_colon, if_neg hnil, hon]
  generalize (upTo [58] url.chars).length = schemeLen at hp heq hdrop ⊢
  have hbehind : (∀ rest', 58 :: rest = 58 :: rest' → 2 ≤ rest'.length ∧ (5 ≤ rest'.length →
      rest'.take 2 = lit "//" → AuthorityFits max out (rest'.drop 2))) ↔
      2 ≤ rest.length ∧ (5 ≤ rest.length → rest.take 2 = lit "//" →
        AuthorityFits max out (rest.drop 2)) := by
    constructor
    · exact fun h => h rest rfl
    · rintro h rest' heq
      cases heq
      exact h
  rw [hbehind]
  dsimp only
  rw [urlParseSchemeChecked_eq (by omega), heq]
  simp only [Option.bind_eq_bind, Option.bind_some, checkedSub_eq
    (show schemeLen ≤ url.chars.length by omega), sizeSub_eq
    (show schemeLen ≤ url.chars.length by omega) hfits]
  by_cases h2 : 2 ≤ rest.length
  · have hslash := (url.holds_drop (p := schemeLen + 1) (by omega)).streqLen_iff
      (holds_litMem (t := "//") (by decide)) 2
    rw [hdrop] at hslash
    have h3 : 3 ≤ url.chars.length - schemeLen := by omega
    have hlen : url.chars.length - schemeLen - 3 = rest.length - 2 := by omega
    rw [checkedSub_eq h3, sizeSub_eq h3 (by omega), Option.bind_some, hlen, and_iff_right h2]
    by_cases hauth : 5 ≤ rest.length ∧ rest.take 2 = lit "//"
    · rw [urlParsePastSchemeChecked_authority (by omega)
        (by rw [← List.drop_drop, hdrop, List.length_drop]) ⟨by omega, hslash.mpr hauth.2⟩,
        ← List.drop_drop, hdrop]
      constructor
      · intro h _ _
        split at h
        · assumption
        · cases h
      · intro h
        exact if_pos (h hauth.1 hauth.2)
    · rw [urlParsePastSchemeChecked_path (by omega)]
      · exact iff_of_true rfl fun h5 htake => absurd ⟨h5, htake⟩ hauth
      · rintro ⟨h5, htake⟩
        exact hauth ⟨by omega, hslash.mp htake⟩
  · rw [checkedSub_eq_none (by omega)]
    exact iff_of_false nofun fun h => h2 h.1

/-- An output for the host only, of 64 bytes. -/
def hostOnly : UrlParts :=
  ⟨none, none, none, some (List.replicate 64 0), none, none, none, none, none⟩

/-- The copy of the host of `http://nixie.org` reads the byte behind the NUL. -/
theorem nixieOrg_read_outside :
    urlParseGetPartsChecked ⟨lit "http://nixie.org", by decide +kernel, by decide, fun _ => 0⟩
        ⟨0, 0, 0, 64, 0, 0, 0, 0⟩ hostOnly = none ∧
      ¬ ∀ url max out, urlParseGetPartsChecked url max out = some (urlParseGetParts url max out) := by
  have hnone : urlParseGetPartsChecked
      ⟨lit "http://nixie.org", by decide +kernel, by decide, fun _ => 0⟩
      ⟨0, 0, 0, 64, 0, 0, 0, 0⟩ hostOnly = none := by
    decide +kernel
  refine ⟨hnone, fun h => ?_⟩
  rw [h] at hnone
  cases hnone

end NixieTracker
