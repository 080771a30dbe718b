import NixieTracker.Util.String

/-!
# The URL parser (`util_url.c`)

`urlParseGetParts` and its helpers. A URL is a C string in memory (`CString`): its characters, and
what the memory holds behind the terminating NUL, since some lengths of the parser reach past it.
Pointers into the URL are offsets. The outputs are the buffers as they are afterwards (`UrlParts`); an
output that is `none` is a `NULL` pointer. Lengths are of type `size_t` and wrap around.
-/

namespace NixieTracker

open Lib

/-- A NUL-terminated string in memory. -/
structure CString where
  chars : List UInt8
  nulFree : 0 ∉ chars
  fits : chars.length < 2 ^ 32
  /-- The memory behind the NUL. -/
  past : Memory

/-- The memory from the start of the string on. -/
def CString.mem (s : CString) : Memory := fun i =>
  if i < s.chars.length then (s.chars[i]?).getD 0
  else if i = s.chars.length then 0
  else s.past (i - s.chars.length - 1)

/-- The outputs of the parser: the memory at each pointer that is not `NULL`. -/
structure UrlParts where
  scheme : Option (List UInt8)
  user : Option (List UInt8)
  password : Option (List UInt8)
  host : Option (List UInt8)
  port : Option UInt16
  path : Option (List UInt8)
  query : Option (List UInt8)
  fragment : Option (List UInt8)
  pathSuffix : Option (List UInt8)
  deriving DecidableEq

/-- The sizes of the output buffers. -/
structure UrlSizes where
  maxScheme : Nat
  maxUser : Nat
  maxPassword : Nat
  maxHost : Nat
  maxPath : Nat
  maxQuery : Nat
  maxFragment : Nat
  maxPathSuffix : Nat
  deriving DecidableEq

section Parser

variable (url : CString) (max : UrlSizes)

/-- `urlParse_scheme`: the part before `://`. -/
def urlParseScheme (urlPart len : Nat) (out : UrlParts) : Bool × UrlParts :=
  let out := { out with scheme := safeStrncpyLen out.scheme url.mem urlPart len max.maxScheme }
  if out.port.isNone then (true, out)
  else if streqLen url.mem urlPart (litMem "https") 0 5 then (true, { out with port := some 443 })
  else if streqLen url.mem urlPart (litMem "http") 0 4 then (true, { out with port := some 80 })
  else (true, out)

/-- `urlParse_userAndPassword`: `user[:password]`. -/
def urlParseUserAndPassword (urlPart len : Nat) (out : UrlParts) : Bool × UrlParts :=
  if out.user.isNone ∧ out.password.isNone then (true, out)
  else
    match strchrLen url.mem urlPart 58 len with
    | none =>
      (true, { out with
        user := safeStrncpyLen out.user url.mem urlPart len max.maxUser
        password := safeStrncpyLen out.password (litMem "") 0 1 max.maxPassword })
    | some colon =>
      (true, { out with
        user := safeStrncpyLen out.user url.mem urlPart (colon - urlPart) max.maxUser
        password := safeStrncpyLen out.password url.mem (colon + 1)
          (sizeSub len (colon - urlPart + 1)) max.maxPassword })

/-- `urlParse_hostAndPort`: `host[:port]`. -/
def urlParseHostAndPort (urlPart len : Nat) (out : UrlParts) : Bool × UrlParts :=
  if out.host.isNone ∧ out.port.isNone then (true, out)
  else
    match strchrLen url.mem urlPart 58 len with
    | none => (true, { out with host := safeStrncpyLen out.host url.mem urlPart len max.maxHost })
    | some colon =>
      (true, { out with
        host := safeStrncpyLen out.host url.mem urlPart (colon - urlPart) max.maxHost
        port := out.port.map fun _ => toUInt16 (atoi (url.chars.drop (colon + 1))) })

/-- `urlParse_userPasswordHostAndPort`: `[user[:password]@]host[:port]`. -/
def urlParseUserPasswordHostAndPort (urlPart len : Nat) (out : UrlParts) : Bool × UrlParts :=
  match strchrLen url.mem urlPart 64 len with
  | some at_ =>
    let userPasswordLen := at_ - urlPart
    match urlParseUserAndPassword url max urlPart userPasswordLen out with
    | (false, out) => (false, out)
    | (true, out) =>
      urlParseHostAndPort url max (at_ + 1) (sizeSub len (userPasswordLen + 1)) out
  | none =>
    urlParseHostAndPort url max urlPart len
      { out with
        user := safeStrncpyLen out.user (litMem "") 0 1 max.maxUser
        password := safeStrncpyLen out.password (litMem "") 0 1 max.maxPassword }

/-- "Get fragment": the outputs, and the length that is left for `[/path][?query]`. -/
def urlParseFragment (urlPart len : Nat) (out : UrlParts) : UrlParts × Nat :=
  match strchrLen url.mem urlPart 35 len with
  | some token =>
    ({ out with
      fragment := safeStrncpyLen out.fragment url.mem (token + 1)
        (sizeSub (sizeSub len (token - urlPart)) 1) max.maxFragment },
      token - urlPart)
  | none => ({ out with fragment := safeStrncpyLen out.fragment (litMem "") 0 1 max.maxFragment }, len)

/-- "Get query": the outputs, and the length that is left for `[/path]`. -/
def urlParseQuery (urlPart len : Nat) (out : UrlParts) : UrlParts × Nat :=
  match strchrLen url.mem urlPart 63 len with
  | some token =>
    ({ out with
      query := safeStrncpyLen out.query url.mem (token + 1)
        (sizeSub (sizeSub len (token - urlPart)) 1) max.maxQuery },
      token - urlPart)
  | none => ({ out with query := safeStrncpyLen out.query (litMem "") 0 1 max.maxQuery }, len)

/-- `urlParse_pathQueryAndFragment`: `[/path][?query][#fragment]`. -/
def urlParsePathQueryAndFragment (urlPart len : Nat) (out : UrlParts) : Bool × UrlParts :=
  if out.path.isNone ∧ out.query.isNone ∧ out.fragment.isNone then (true, out)
  else
    let (out, len) := urlParseFragment url max urlPart len out
    let (out, len) := urlParseQuery url max urlPart len out
    (true, { out with path := safeStrncpyLen out.path url.mem urlPart len max.maxPath })

/-- The end of `urlParse_pastScheme`; there may be no path left. -/
def urlParsePathSuffix (urlPart : Option Nat) (len : Nat) (out : UrlParts) : Bool × UrlParts :=
  match urlPart with
  | none =>
    (true, { out with
      path := safeStrncpyLen out.path (litMem "/") 0 1 max.maxPath
      query := safeStrncpyLen out.query (litMem "") 0 1 max.maxQuery
      fragment := safeStrncpyLen out.fragment (litMem "") 0 1 max.maxFragment
      pathSuffix := safeStrncpyLen out.pathSuffix (litMem "/") 0 1 max.maxPathSuffix })
  | some urlPart =>
    urlParsePathQueryAndFragment url max urlPart len
      { out with
        pathSuffix := safeStrncpyLen out.pathSuffix url.mem urlPart len max.maxPathSuffix }

/-- `urlParse_pastScheme`:
`[//[user[:password]@]host[:port]][/path][?query][#fragment]`. -/
def urlParsePastScheme (urlPart len : Nat) (out : UrlParts) : Bool × UrlParts :=
  if 3 ≤ len ∧ streqLen url.mem urlPart (litMem "//") 0 2 then
    let urlPart := urlPart + 2
    let len := sizeAdd len 2
    let pathStart := strchrAnyLen url.mem urlPart (lit "/?#") len
    let firstPartLength := match pathStart with
      | some pathStart => pathStart - urlPart
      | none => len
    match urlParseUserPasswordHostAndPort url max urlPart firstPartLength out with
    | (false, out) => (false, out)
    | (true, out) => urlParsePathSuffix url max pathStart (sizeSub len firstPartLength) out
  else urlParsePathSuffix url max (some urlPart) len out

/-- `urlParseGetParts`: `scheme:[//[user[:password]@]host[:port]][/path][?query][#fragment]`. -/
def urlParseGetParts (out : UrlParts) : Bool × UrlParts :=
  match memmem url.chars (lit ":") with
  | none => (false, out)
  | some schemeLen =>
    match urlParseScheme url max 0 schemeLen out with
    | (false, out) => (false, out)
    | (true, out) =>
      let totalLen := url.chars.length
      urlParsePastScheme url max (schemeLen + 1) (sizeSub (sizeSub totalLen schemeLen) 3) out

end Parser

end NixieTracker
