import Mathlib.Data.Nat.Digits.Defs
import Mathlib.Tactic.IntervalCases
import NixieTracker.Util.UrlSplit

/-!
# The URL parser undoes URL building

`UrlComponents` holds the parts of a URL with what they must be free of, and `UrlComponents.text`
joins them with their delimiters.

* `splitUrl_cut`: the cut of a URL with an authority and whatever may stand behind it.
* `splitUrl_text`: the parser cuts the text into the parts it was built of.
* `parts_of_text`: with buffers larger than the URL, `urlParseGetParts` returns these parts.
-/

namespace NixieTracker

open Lib

/-! ## The text of a URL -/

/-- No character of `s` is one of `needles`. -/
def Free (needles s : List UInt8) : Prop := ∀ b ∈ s, b ∉ needles

instance (needles s : List UInt8) : Decidable (Free needles s) :=
  inferInstanceAs (Decidable (∀ b ∈ s, b ∉ needles))

/-- `user[:password]`. -/
structure UserInfo where
  user : List UInt8
  password : Option (List UInt8)
  userFree : Free (lit ":/?#@") user
  passwordFree : ∀ s ∈ password, Free (lit "/?#@") s

/-- An explicit port. -/
structure ExplicitPort where
  value : Nat
  pos : 0 < value
  le : value ≤ 65535

/-- The parts of a URL. -/
structure UrlComponents where
  scheme : List UInt8
  userInfo : Option UserInfo
  host : List UInt8
  port : Option ExplicitPort
  path : List UInt8
  query : Option (List UInt8)
  fragment : Option (List UInt8)
  schemeFree : Free (lit ":") scheme
  hostNonempty : host ≠ []
  hostFree : Free (lit ":/?#@") host
  pathNonempty : path ≠ []
  pathFree : Free (lit "?#") path
  queryFree : ∀ s ∈ query, Free (lit "#") s

/-- A number in decimal. -/
def decimal (n : Nat) : List UInt8 := (Nat.digits 10 n).reverse.map fun d => UInt8.ofNat (48 + d)

/-- A part with the delimiter before it. -/
def optional (delimiter : UInt8) : Option (List UInt8) → List UInt8
  | none => []
  | some s => delimiter :: s

namespace UrlComponents

variable (u : UrlComponents)

def userText (i : UserInfo) : List UInt8 := i.user ++ optional 58 i.password

/-- `host[:port]`. -/
def hostText : List UInt8 := u.host ++ optional 58 (u.port.map fun p => decimal p.value)

/-- `[user[:password]@]host[:port]`. -/
def authority : List UInt8 :=
  match u.userInfo with
  | none => u.hostText
  | some i => userText i ++ 64 :: u.hostText

/-- `/path[?query][#fragment]`. -/
def pathSuffix : List UInt8 := 47 :: u.path ++ (optional 63 u.query ++ optional 35 u.fragment)

/-- `scheme://[user[:password]@]host[:port]/path[?query][#fragment]`. -/
def text : List UInt8 := u.scheme ++ 58 :: (lit "//" ++ (u.authority ++ u.pathSuffix))

/-- The parts as the parser should find them. -/
def pieces : UrlPieces where
  scheme := u.scheme
  user := some (u.userInfo.elim [] UserInfo.user)
  password := some ((u.userInfo.bind UserInfo.password).getD [])
  host := some u.host
  port := u.port.elim (schemePort u.text) fun p => some (UInt16.ofNat p.value)
  path := 47 :: u.path
  query := u.query.getD []
  fragment := u.fragment.getD []
  pathSuffix := u.pathSuffix

end UrlComponents

/-! ## Decimal numbers -/

theorem digitsValue_reverse (ds : List Nat) (h : ∀ d ∈ ds, d < 10) :
    digitsValue (ds.reverse.map fun d => UInt8.ofNat (48 + d)) = Nat.ofDigits 10 ds := by
  induction ds with
  | nil => rfl
  | cons d ds ih =>
    have hd : (UInt8.ofNat (48 + d)).toNat - 48 = d := by
      have := h d (List.mem_cons_self ..)
      rw [UInt8.toNat_ofNat', Nat.mod_eq_of_lt (by omega)]
      omega
    have ih := ih fun e he => h e (List.mem_cons_of_mem _ he)
    unfold digitsValue at ih ⊢
    rw [List.reverse_cons, List.map_append, List.foldl_append, ih, Nat.ofDigits_cons]
    simp only [List.map_cons, List.map_nil, List.foldl_cons, List.foldl_nil, hd]
    omega

theorem digitsValue_decimal (n : Nat) : digitsValue (decimal n) = n := by
  unfold decimal
  rw [digitsValue_reverse _ fun d hd => Nat.digits_lt_base (by decide) hd, Nat.ofDigits_digits]

theorem isDigit_of_mem_decimal {n : Nat} {b : UInt8} (h : b ∈ decimal n) : isDigit b = true := by
  unfold decimal at h
  rw [List.mem_map] at h
  obtain ⟨d, hd, rfl⟩ := h
  have hlt : d < 10 := Nat.digits_lt_base (by decide) (List.mem_reverse.mp hd)
  interval_cases d <;> rfl

theorem decimal_ne_nil {n : Nat} (h : 0 < n) : decimal n ≠ [] := by
  unfold decimal
  simpa using Nat.digits_ne_nil_iff_ne_zero.mpr (Nat.ne_of_gt h)

theorem decimal_free {needles : List UInt8} (h : ∀ b, isDigit b = true → b ∉ needles) (n : Nat) :
    Free needles (decimal n) :=
  fun b hb => h b (isDigit_of_mem_decimal hb)

theorem isDigit_iff (b : UInt8) : isDigit b = true ↔ 48 ≤ b.toNat ∧ b.toNat ≤ 57 := by
  simp [isDigit, UInt8.le_iff_toNat_le]

theorem isSpace_of_isDigit {b : UInt8} (h : isDigit b = true) : isSpace b = false := by
  rw [isDigit_iff] at h
  have h32 : b ≠ 32 := by
    rintro rfl
    exact absurd h.1 (by decide)
  simp [isSpace, h32, UInt8.lt_iff_toNat_lt]
  omega

/-- `atoi` of a run of digits is its value, whatever stands behind it; values of more than 31 bits are
clamped. -/
theorem atoi_digits {ds t : List UInt8} (hne : ds ≠ []) (hdigit : ∀ b ∈ ds, isDigit b = true)
    (ht : ∀ c ∈ t.head?, isDigit c = false) :
    atoi (ds ++ t) = min (digitsValue ds : Int) (2 ^ 31 - 1) := by
  have hrest : t.takeWhile isDigit = [] := by
    cases t with
    | nil => rfl
    | cons c t => exact List.takeWhile_cons_of_neg (by simp [ht c rfl])
  have hfirst : (ds ++ t).takeWhile isDigit = ds := by
    rw [List.takeWhile_append_of_pos hdigit, hrest, List.append_nil]
  -- No blank, and no sign.
  cases ds with
  | nil => exact absurd rfl hne
  | cons b s =>
    have hb := hdigit b (List.mem_cons_self ..)
    have h45 : b ≠ 45 := by
      rintro rfl
      exact absurd hb (by decide)
    have h43 : b ≠ 43 := by
      rintro rfl
      exact absurd hb (by decide)
    unfold atoi
    rw [List.cons_append, List.dropWhile_cons_of_neg (by simp [isSpace_of_isDigit hb])]
    rw [List.cons_append] at hfirst
    dsimp only
    split
    · rename_i heq
      exact absurd (List.cons.inj heq).1 h45
    · rename_i heq
      exact absurd (List.cons.inj heq).1 h43
    · rw [hfirst]
      omega

/-- `atoi` reads a number up to the character behind it. -/
theorem atoi_decimal {n : Nat} (h1 : 0 < n) (h2 : n ≤ 65535) {t : List UInt8}
    (ht : ∀ c ∈ t.head?, isDigit c = false) : atoi (decimal n ++ t) = n := by
  rw [atoi_digits (decimal_ne_nil h1) (fun b hb => isDigit_of_mem_decimal hb) ht, digitsValue_decimal]
  omega

/-! ## The cuts -/

section Cuts

variable {needles s t : List UInt8} {c : UInt8}

theorem Free.append (hs : Free needles s) (ht : Free needles t) : Free needles (s ++ t) := by
  intro b hb
  rcases List.mem_append.mp hb with h | h
  · exact hs b h
  · exact ht b h

theorem Free.cons (hc : c ∉ needles) (hs : Free needles s) : Free needles (c :: s) := by
  intro b hb
  rcases List.mem_cons.mp hb with rfl | h
  · exact hc
  · exact hs b h

theorem Free.subset {needles' : List UInt8} (hs : Free needles s) (h : needles' ⊆ needles) :
    Free needles' s :=
  fun b hb hm => hs b hb (h hm)

theorem Free.upTo_eq (hs : Free needles s) : upTo needles s = s :=
  List.takeWhile_eq_self_iff.mpr fun b hb => by simpa using hs b hb

theorem Free.onFrom_eq (hs : Free needles s) : onFrom needles s = [] := onFrom_eq_nil.mpr hs.upTo_eq

theorem Free.upTo_append (hs : Free needles s) (hc : c ∈ needles) :
    upTo needles (s ++ c :: t) = s := by
  unfold upTo
  rw [List.takeWhile_append_of_pos fun b hb => by simpa using hs b hb,
    List.takeWhile_cons_of_neg (by simpa using hc), List.append_nil]

theorem Free.onFrom_append (hs : Free needles s) (hc : c ∈ needles) :
    onFrom needles (s ++ c :: t) = c :: t := by
  unfold onFrom
  rw [List.dropWhile_append_of_pos fun b hb => by simpa using hs b hb,
    List.dropWhile_cons_of_neg (by simpa using hc)]

/-- A cut gives back an optional part behind its delimiter. -/
theorem Free.cut (hs : Free [c] s) (o : Option (List UInt8)) :
    upTo [c] (s ++ optional c o) = s ∧ (onFrom [c] (s ++ optional c o)).drop 1 = o.getD [] := by
  cases o with
  | none =>
    rw [optional, List.append_nil, hs.upTo_eq, hs.onFrom_eq]
    exact ⟨rfl, rfl⟩
  | some t =>
    rw [optional, hs.upTo_append (List.mem_singleton_self c),
      hs.onFrom_append (List.mem_singleton_self c)]
    exact ⟨rfl, rfl⟩

theorem free_optional (hc : c ∉ needles) {o : Option (List UInt8)} (h : ∀ s ∈ o, Free needles s) :
    Free needles (optional c o) := by
  cases o with
  | none => exact fun _ hb => absurd hb List.not_mem_nil
  | some s => exact (h s rfl).cons hc

/-- What may stand behind an authority. -/
def EndsAuthority (tail : List UInt8) : Prop := ∀ c ∈ tail.head?, c ∈ lit "/?#"

theorem isDigit_of_ends {tail : List UInt8} (h : EndsAuthority tail) :
    ∀ c ∈ tail.head?, isDigit c = false := by
  have hall : ∀ c ∈ lit "/?#", isDigit c = false := by decide +kernel
  exact fun c hc => hall c (h c hc)

theorem slash_ends : EndsAuthority (lit "/") := by
  intro c hc
  cases hc
  decide

/-- The authority is what stands before its end. -/
theorem Free.cut_ends {s tail : List UInt8} (hs : Free (lit "/?#") s) (htail : EndsAuthority tail) :
    upTo (lit "/?#") (s ++ tail) = s ∧ onFrom (lit "/?#") (s ++ tail) = tail := by
  cases tail with
  | nil =>
    rw [List.append_nil]
    exact ⟨hs.upTo_eq, hs.onFrom_eq⟩
  | cons c t => exact ⟨hs.upTo_append (htail c rfl), hs.onFrom_append (htail c rfl)⟩

/-- The cut of a URL with an authority: three characters have to stand behind `//`. -/
theorem splitUrl_cut {scheme authority tail : List UInt8} (hscheme : Free (lit ":") scheme)
    (hfree : Free (lit "/?#") authority) (htail : EndsAuthority tail)
    (hlen : 3 ≤ authority.length + tail.length) :
    let url := scheme ++ 58 :: (lit "//" ++ (authority ++ tail))
    let hostPort := splitHostAndPort (splitAt authority).2 tail (schemePort url)
    let pieces : UrlPieces := ⟨scheme, some (splitAt authority).1.1, some (splitAt authority).1.2,
      some hostPort.1, hostPort.2, lit "/", [], [], lit "/"⟩
    splitUrl url = some (if tail = [] then pieces else withPath pieces tail) := by
  intro url hostPort pieces
  have hup : upTo [58] url = scheme := hscheme.upTo_append (by decide)
  have hon : onFrom [58] url = 58 :: (lit "//" ++ (authority ++ tail)) :=
    hscheme.onFrom_append (by decide)
  have hlen5 : 5 ≤ (lit "//" ++ (authority ++ tail)).length := by
    simp only [List.length_append, show (lit "//").length = 2 from rfl]
    omega
  have hdrop : (lit "//" ++ (authority ++ tail)).drop 2 = authority ++ tail := rfl
  have hcut := hfree.cut_ends htail
  unfold splitUrl
  rw [hon]
  dsimp only
  rw [if_pos ⟨hlen5, rfl⟩, hdrop, hcut.1, hcut.2, hup]

end Cuts

namespace UrlComponents

variable (u : UrlComponents)

theorem splitUserAndPassword_userText (i : UserInfo) :
    splitUserAndPassword (userText i) = (i.user, i.password.getD []) := by
  have hcut := Free.cut (c := 58) (i.userFree.subset (by decide)) i.password
  unfold splitUserAndPassword userText
  rw [hcut.1, hcut.2]

/-- A port ends where the authority does. -/
theorem splitHostAndPort_tail {tail : List UInt8} (htail : EndsAuthority tail)
    (default : Option UInt16) :
    splitHostAndPort u.hostText tail default =
      (u.host, u.port.elim default fun p => some (UInt16.ofNat p.value)) := by
  have hfree : Free [58] u.host := u.hostFree.subset (by decide)
  have hcut := hfree.cut (u.port.map fun p => decimal p.value)
  unfold splitHostAndPort hostText
  rw [hcut.1, hcut.2]
  cases hport : u.port with
  | none =>
    rw [Option.map_none, optional, List.append_nil, hfree.onFrom_eq, if_pos rfl]
    rfl
  | some p =>
    have hatoi : atoi (decimal p.value ++ tail) = p.value :=
      atoi_decimal p.pos p.le (isDigit_of_ends htail)
    have hle := p.le
    have hmod : ((p.value : Int) % 2 ^ 16).toNat = p.value := by omega
    rw [Option.map_some, optional, hfree.onFrom_append (List.mem_singleton_self _),
      if_neg (List.cons_ne_nil _ _), Option.getD_some, hatoi, toUInt16, hmod]
    rfl

theorem hostText_free {needles : List UInt8} (h : needles ⊆ lit "/?#@") : Free needles u.hostText := by
  have hcolon : 58 ∉ needles := fun hm => absurd (h hm) (by decide)
  have hdigit : ∀ b, isDigit b = true → b ∉ needles := by
    intro b hb hm
    have hall : ∀ b ∈ lit "/?#@", isDigit b = false := by decide +kernel
    rw [hall b (h hm)] at hb
    cases hb
  refine Free.append (u.hostFree.subset fun b hb => List.mem_cons_of_mem _ (h hb))
    (free_optional hcolon fun s hs => ?_)
  obtain ⟨p, -, rfl⟩ := Option.map_eq_some_iff.mp hs
  exact decimal_free hdigit p.value

theorem userText_free (i : UserInfo) {needles : List UInt8} (h : needles ⊆ lit "/?#@") :
    Free needles (userText i) :=
  Free.append (i.userFree.subset fun b hb => List.mem_cons_of_mem _ (h hb))
    (free_optional (fun hm => absurd (h hm) (by decide)) fun s hs =>
      (i.passwordFree s hs).subset h)

theorem authority_free : Free (lit "/?#") u.authority := by
  have hsub : lit "/?#" ⊆ lit "/?#@" := by decide
  unfold authority
  split
  · exact u.hostText_free hsub
  · rename_i i _
    exact (userText_free i hsub).append ((u.hostText_free hsub).cons (by decide))

theorem splitAt_authority : splitAt u.authority =
    ((u.userInfo.elim [] UserInfo.user, (u.userInfo.bind UserInfo.password).getD []), u.hostText) := by
  have hhost : Free [64] u.hostText := u.hostText_free (by decide)
  unfold splitAt authority
  cases u.userInfo with
  | none =>
    dsimp only
    rw [hhost.onFrom_eq, if_pos rfl]
    rfl
  | some i =>
    have huser : Free [64] (userText i) := userText_free i (by decide)
    have hat : (64 : UInt8) ∈ [64] := List.mem_singleton_self _
    dsimp only
    rw [huser.onFrom_append hat, if_neg (List.cons_ne_nil _ _), huser.upTo_append hat,
      splitUserAndPassword_userText]
    rfl

/-- The path ends at the query, and the query at the fragment. -/
theorem splitPath_pathSuffix :
    splitPath u.pathSuffix = (47 :: u.path, u.query.getD [], u.fragment.getD []) := by
  have hpath : Free (lit "?#") (47 :: u.path) := u.pathFree.cons (by decide)
  have hquery : Free [35] (47 :: u.path ++ optional 63 u.query) :=
    (hpath.subset (by decide)).append (free_optional (by decide) u.queryFree)
  have hcut := hquery.cut u.fragment
  have hcut' := Free.cut (c := 63) (hpath.subset (by decide)) u.query
  unfold splitPath pathSuffix
  dsimp only
  rw [← List.append_assoc, hcut.1, hcut.2, hcut'.1, hcut'.2]

theorem length_authority_pos : 0 < u.authority.length := by
  have hhost := List.length_pos_iff.mpr u.hostNonempty
  unfold authority hostText
  split
  · rw [List.length_append]
    omega
  · rw [List.length_append, List.length_cons]
    omega

/-- The parser cuts the text into the parts it was built of. -/
theorem splitUrl_text : splitUrl u.text = some u.pieces := by
  have hpath := List.length_pos_iff.mpr u.pathNonempty
  have hauthority := u.length_authority_pos
  have hsuffix : u.pathSuffix = 47 :: (u.path ++ (optional 63 u.query ++ optional 35 u.fragment)) := rfl
  have hends : EndsAuthority u.pathSuffix := by
    rintro c ⟨⟩
    decide
  have hsplit := splitUrl_cut u.schemeFree u.authority_free hends (by
    rw [hsuffix, List.length_cons, List.length_append]
    omega)
  rw [u.splitAt_authority] at hsplit
  dsimp only at hsplit
  rw [u.splitHostAndPort_tail hends, if_neg (by rw [hsuffix]; exact List.cons_ne_nil _ _), withPath,
    splitPath_pathSuffix] at hsplit
  exact hsplit

/-! ## The round trip -/

theorem length_user_le : (u.userInfo.elim [] UserInfo.user).length ≤ u.authority.length := by
  unfold authority userText
  cases u.userInfo with
  | none => exact Nat.zero_le _
  | some i => simp only [Option.elim_some, List.length_append]; omega

theorem length_password_le :
    ((u.userInfo.bind UserInfo.password).getD []).length ≤ u.authority.length := by
  unfold authority userText
  cases u.userInfo with
  | none => exact Nat.zero_le _
  | some i =>
    rw [Option.bind_some]
    dsimp only
    cases i.password with
    | none => exact Nat.zero_le _
    | some s => simp only [Option.getD_some, optional, List.length_append, List.length_cons]; omega

theorem length_host_le : u.host.length ≤ u.authority.length := by
  unfold authority hostText
  cases u.userInfo with
  | none => simp only [List.length_append]; omega
  | some i => simp only [List.length_append, List.length_cons]; omega

theorem length_le_optional (c : UInt8) (o : Option (List UInt8)) :
    (o.getD []).length ≤ (optional c o).length := by
  cases o with
  | none => exact Nat.zero_le _
  | some s => exact Nat.le_succ _

theorem length_text : u.text.length =
    u.scheme.length + 3 + u.authority.length + u.pathSuffix.length := by
  simp only [text, List.length_append, List.length_cons, show (lit "//").length = 2 from rfl]
  omega

theorem length_pathSuffix : u.pathSuffix.length =
    u.path.length + 1 + (optional 63 u.query).length + (optional 35 u.fragment).length := by
  simp only [pathSuffix, List.length_append, List.length_cons]
  omega

theorem schemePort_text_https (h : u.scheme = lit "https") : schemePort u.text = some 443 := by
  unfold schemePort text
  rw [h]
  rfl

theorem schemePort_text_http (h : u.scheme = lit "http") : schemePort u.text = some 80 := by
  unfold schemePort text
  rw [h]
  rfl

end UrlComponents

/-- Every output has room for `n` characters and the NUL. -/
structure UrlSizes.Exceed (max : UrlSizes) (n : Nat) : Prop where
  scheme : n < max.maxScheme
  user : n < max.maxUser
  password : n < max.maxPassword
  host : n < max.maxHost
  path : n < max.maxPath
  query : n < max.maxQuery
  fragment : n < max.maxFragment
  pathSuffix : n < max.maxPathSuffix

/-- The outputs `new` hold the parts `u`, each where the output is not `NULL`. -/
structure Yields (u : UrlComponents) (old new : UrlParts) : Prop where
  scheme : new.scheme.map cstr = old.scheme.map fun _ => u.scheme
  user : new.user.map cstr = old.user.map fun _ => u.userInfo.elim [] UserInfo.user
  password : new.password.map cstr =
    old.password.map fun _ => (u.userInfo.bind UserInfo.password).getD []
  host : new.host.map cstr = old.host.map fun _ => u.host
  path : new.path.map cstr = old.path.map fun _ => lit "/" ++ u.path
  query : new.query.map cstr = old.query.map fun _ => u.query.getD []
  fragment : new.fragment.map cstr = old.fragment.map fun _ => u.fragment.getD []
  pathSuffix : new.pathSuffix.map cstr = old.pathSuffix.map fun _ => u.pathSuffix
  explicitPort : ∀ p ∈ u.port, new.port = old.port.map fun _ => UInt16.ofNat p.value
  httpsPort : u.port = none → u.scheme = lit "https" → new.port = old.port.map fun _ => 443
  httpPort : u.port = none → u.scheme = lit "http" → new.port = old.port.map fun _ => 80

theorem Wrote.map_cstr {s : List UInt8} {maxCopy : Nat} {old new : Option (List UInt8)}
    (h : Wrote (some s) maxCopy old new) (hlen : s.length < maxCopy) :
    new.map cstr = old.map fun _ => s := by
  cases old with
  | none => rw [h.eq_none]; rfl
  | some b =>
    obtain ⟨b', rfl, hb⟩ := h.cstr_eq hlen
    simp [hb]

/-- `urlParseGetParts` of a URL that was built of parts returns these parts. -/
theorem parts_of_text (u : UrlComponents) (url : CString) (max : UrlSizes) (out : UrlParts)
    (htext : url.chars = u.text) (hmax : max.Exceed url.chars.length) :
    ∃ parts, urlParseGetParts url max out = (true, parts) ∧ Yields u out parts := by
  have hparse := urlParseGetParts_eq url max out
  rw [htext, u.splitUrl_text] at hparse
  obtain ⟨parts, heq, hw⟩ := hparse
  rw [htext, u.length_text] at hmax
  have huser := u.length_user_le
  have hpassword := u.length_password_le
  have hhost := u.length_host_le
  have hsuffix := u.length_pathSuffix
  have hquery := UrlComponents.length_le_optional 63 u.query
  have hfragment := UrlComponents.length_le_optional 35 u.fragment
  refine ⟨parts, heq, ?_⟩
  constructor
  case scheme => exact hw.scheme.map_cstr (by have := hmax.scheme; show u.scheme.length < _; omega)
  case user => exact hw.user.map_cstr (by have := hmax.user; omega)
  case password => exact hw.password.map_cstr (by have := hmax.password; omega)
  case host => exact hw.host.map_cstr (by have := hmax.host; omega)
  case path =>
    exact hw.path.map_cstr (by have := hmax.path; show u.path.length + 1 < _; omega)
  case query =>
    exact hw.query.map_cstr (by have := hmax.query; show (u.query.getD []).length < _; omega)
  case fragment =>
    exact hw.fragment.map_cstr
      (by have := hmax.fragment; show (u.fragment.getD []).length < _; omega)
  case pathSuffix =>
    exact hw.pathSuffix.map_cstr
      (by have := hmax.pathSuffix; show u.pathSuffix.length < _; omega)
  case explicitPort =>
    intro p hp
    rw [hw.port, UrlComponents.pieces, Option.mem_def.mp hp]
    rfl
  case httpsPort =>
    intro hp hs
    rw [hw.port, UrlComponents.pieces, hp, Option.elim_none, u.schemePort_text_https hs]
    rfl
  case httpPort =>
    intro hp hs
    rw [hw.port, UrlComponents.pieces, hp, Option.elim_none, u.schemePort_text_http hs]
    rfl

theorem https_free : Free (lit ":") (lit "https") := by decide +kernel

theorem nixieOrg_nonempty : lit "nixie.org" ≠ [] := by decide +kernel

theorem nixieOrg_free : Free (lit ":/?#@") (lit "nixie.org") := by decide +kernel

/-- `https://me:a:b@nixie.org:8080/a@b?c?d#e` in full-size buffers. -/
theorem parts_of_text_full : ∃ parts,
    urlParseGetParts ⟨lit "https://me:a:b@nixie.org:8080/a@b?c?d#e", by decide, by decide, fun _ => 0⟩
        ⟨64, 64, 64, 64, 64, 64, 64, 64⟩
        ⟨some [], some [], some [], some [], some 0, some [], some [], some [], some []⟩ =
      (true, parts) ∧
    Yields ⟨lit "https", some ⟨lit "me", some (lit "a:b"), by decide +kernel,
          by decide +kernel⟩, lit "nixie.org",
        some ⟨8080, by decide, by decide⟩, lit "a@b", some (lit "c?d"), some (lit "e"),
        https_free, nixieOrg_nonempty, nixieOrg_free, by decide, by decide +kernel,
        by decide +kernel⟩
      ⟨some [], some [], some [], some [], some 0, some [], some [], some [], some []⟩ parts :=
  parts_of_text _ _ _ _ (by simp [UrlComponents.text, UrlComponents.authority,
    UrlComponents.hostText, UrlComponents.userText, UrlComponents.pathSuffix, optional, decimal, lit])
    ⟨by decide, by decide, by decide, by decide, by decide, by decide, by decide, by decide⟩

end NixieTracker
