import NixieTracker.Nixie.ServerValue

/-!
# The response in pieces

The server response comes in pieces of any size, and the token or the digits behind it may lie
across any number of them. `bufferReceivedCallback` keeps a part of what it has seen; the invariant
`Scan tok R d` says what it keeps after the bytes `R`:

* no token yet: the last `T + 4` bytes (`Scan.absent`);
* a token with less than four bytes behind it: everything from the token on (`Scan.waiting`);
* else the value is parsed, from the first token (`Scan.parsed`).

Each path of the callback is a lemma about the bytes it keeps (`tokenInCyclicBuffer_scan`,
`keepTail_scan`, `tokenInNewBuffer_scan`); `bufferReceivedCallback_scan` is the step,
`foldl_scan` the run. `response_scanned` is the result: the pieces do not matter.
-/

namespace NixieTracker

open Lib

/-- A module set up for four tubes and the token `tok`, which lies in its array with a NUL. -/
structure ScanConfig (tok : List UInt8) (d : AppNixieData) : Prop where
  numNixies : d.numNixies = maxNixieTubes
  token : cstr d.token.toList = tok
  tokenLen : d.tokenLen = tok.length
  maxLen : d.maxCyclicBufferLen = 2 * (tok.length + maxNixieTubes)
  nonempty : tok ≠ []
  short : tok.length < maxNixieToken

/-- The bytes that the cyclic buffer holds. -/
def Keeps (d : AppNixieData) (bytes : List UInt8) : Prop :=
  d.cyclicBufferLen = bytes.length ∧ d.cyclicBuffer.read 0 bytes.length = bytes

/-- The fields that the callbacks of a response write. -/
structure SameButResponse (d d' : AppNixieData) : Prop where
  eq : d' = { d with
    state := d'.state
    displayValue := d'.displayValue
    isValueParsed := d'.isValueParsed
    cyclicBuffer := d'.cyclicBuffer
    cyclicBufferLen := d'.cyclicBufferLen }

/-- What the module knows after the bytes `R` of a response, if the display was `v` before. -/
inductive Scan (tok : List UInt8) (v : Buf maxNixieTubes) (R : List UInt8) (d : AppNixieData) : Prop
  | absent (h : Absent tok R) (parsed : d.isValueParsed = false) (display : d.displayValue = v)
      (keeps : Keeps d (R.drop (R.length - (tok.length + maxNixieTubes))))
  | waiting (p : Nat) (h : FirstAt tok R p) (parsed : d.isValueParsed = false)
      (display : d.displayValue = v) (keeps : Keeps d (R.drop p))
      (short : R.length < p + tok.length + maxNixieTubes)
  | parsed (p : Nat) (h : FirstAt tok R p) (parsed : d.isValueParsed = true)
      (display : d.displayValue =
        parsedDisplay (leadingDigits maxNixieTubes (R.drop (p + tok.length))))
      (enough : p + tok.length + maxNixieTubes ≤ R.length)

section Config

variable {tok : List UInt8} {d d' : AppNixieData}

@[simp] theorem appendToCyclicBuffer_isValueParsed (d : AppNixieData) (src : List UInt8) (k : Nat) :
    (appendToCyclicBuffer d src k).isValueParsed = d.isValueParsed := rfl

@[simp] theorem appendToCyclicBuffer_displayValue (d : AppNixieData) (src : List UInt8) (k : Nat) :
    (appendToCyclicBuffer d src k).displayValue = d.displayValue := rfl

theorem SameButResponse.config (h : SameButResponse d d') (hc : ScanConfig tok d) :
    ScanConfig tok d' := by
  obtain ⟨h1, h2, h3, h4, h5, h6⟩ := hc
  constructor <;> (try rw [h.eq]) <;> assumption

theorem SameButResponse.displayValueOut (h : SameButResponse d d') :
    d'.displayValueOut = d.displayValueOut := by
  rw [h.eq]

theorem SameButResponse.isFetchedOut (h : SameButResponse d d') :
    d'.isFetchedOut = d.isFetchedOut := by
  rw [h.eq]

theorem SameButResponse.refl (d : AppNixieData) : SameButResponse d d := ⟨rfl⟩

theorem SameButResponse.trans {d'' : AppNixieData} (h : SameButResponse d d')
    (h' : SameButResponse d' d'') : SameButResponse d d'' := by
  obtain ⟨h⟩ := h
  obtain ⟨h'⟩ := h'
  constructor
  rw [h', h]

theorem keeps_length_le {bytes : List UInt8} (h : Keeps d bytes) : bytes.length ≤ cyclicBufferSize := by
  have hl := congrArg List.length h.2
  simp only [Buf.read, List.length_take, List.length_drop, Vector.length_toList] at hl
  omega

theorem Keeps.read {bytes : List UInt8} (h : Keeps d bytes) :
    d.cyclicBuffer.read 0 d.cyclicBufferLen = bytes := by
  rw [h.1]
  exact h.2

/-- The kept bytes behind the token. -/
theorem Keeps.read_drop {bytes : List UInt8} {k : Nat} (h : Keeps d bytes) (hk : k ≤ bytes.length) :
    d.cyclicBuffer.read k (sizeSub d.cyclicBufferLen k) = bytes.drop k := by
  have hb : bytes.length ≤ 136 := keeps_length_le h
  rw [h.1, sizeSub_eq hk (by omega), Buf.read_eq_read_zero _ (show k + (bytes.length - k) ≤ bytes.length
    by omega), h.2, List.take_of_length_le (by rw [List.length_drop])]

/-- Bytes appended to the kept ones. -/
theorem appendToCyclicBuffer_keeps {bytes src : List UInt8} {k : Nat} (h : Keeps d bytes)
    (hk : k ≤ src.length) (hfit : bytes.length + k ≤ cyclicBufferSize) :
    Keeps (appendToCyclicBuffer d src k) (bytes ++ src.take k) := by
  have htake : (src.take k).length = k := by
    rw [List.length_take]
    omega
  constructor
  · rw [List.length_append, htake, ← h.1]
    rfl
  · show (d.cyclicBuffer.write d.cyclicBufferLen (src.take k)).read 0 _ = _
    rw [List.length_append, h.1, Buf.take_write _ (by omega), h.2]

/-- Bytes moved to the front. -/
theorem keeps_write_zero (d : AppNixieData) {new : List UInt8} {k : Nat} (hk : new.length = k)
    (hfit : k ≤ cyclicBufferSize) :
    Keeps { d with cyclicBuffer := d.cyclicBuffer.write 0 new, cyclicBufferLen := k } new := by
  subst hk
  exact ⟨rfl, Buf.read_write _ (by omega)⟩

theorem moveToFront_keeps {bytes : List UInt8} {q : Nat} (h : Keeps d bytes)
    (hq : q ≤ bytes.length) : Keeps (moveToFront d q) (bytes.drop q) := by
  have hb : bytes.length ≤ 136 := keeps_length_le h
  have hkept : sizeSub d.cyclicBufferLen q = bytes.length - q := by
    rw [h.1, sizeSub_eq hq (by omega)]
  have hread : d.cyclicBuffer.read q (bytes.length - q) = bytes.drop q := hkept ▸ h.read_drop hq
  simp only [moveToFront, hkept, hread]
  exact keeps_write_zero d (List.length_drop ..) (by show _ ≤ 136; omega)

/-! ## The paths of the callback -/

/-- The token moves to the front, and as many bytes as it left follow. -/
theorem tokenToFront_keeps {glued buffer : List UInt8} {k q : Nat} (h : Keeps d glued)
    (hq : q ≤ glued.length) (hk : k ≤ buffer.length) (hb : buffer.length < 2 ^ 16) :
    Keeps (tokenToFront d buffer k q) (glued.drop q ++ (buffer.drop k).take q) := by
  have hfit : glued.length ≤ 136 := keeps_length_le h
  unfold tokenToFront
  by_cases h0 : q = 0
  · subst h0
    simpa using h
  rw [if_pos h0]
  have hfront := moveToFront_keeps h hq
  simp only
  split
  · have hextra : minZz q (sizeSub buffer.length k) = min q (buffer.length - k) := by
      rw [minZz_eq, sizeSub_eq hk (by omega)]
    have htake : (buffer.drop k).take q = (buffer.drop k).take (min q (buffer.length - k)) :=
      List.take_eq_take_min.trans (by rw [List.length_drop])
    rw [htake, hextra]
    apply appendToCyclicBuffer_keeps hfront
    · rw [List.length_drop]
      omega
    · rw [List.length_drop]
      show _ ≤ 136
      omega
  · rename_i heq
    have heq : buffer.length = k := by simpa using heq
    rw [List.drop_eq_nil_of_le (show buffer.length ≤ _ by omega), List.take_nil, List.append_nil]
    exact hfront

theorem appendToCyclicBuffer_same (d : AppNixieData) (src : List UInt8) (k : Nat) :
    SameButResponse d (appendToCyclicBuffer d src k) := ⟨rfl⟩

theorem moveToFront_same (d : AppNixieData) (q : Nat) : SameButResponse d (moveToFront d q) := ⟨rfl⟩

theorem tokenToFront_same (d : AppNixieData) (buffer : List UInt8) (k q : Nat) :
    SameButResponse d (tokenToFront d buffer k q) := by
  unfold tokenToFront
  split
  · dsimp only
    split
    · exact (moveToFront_same d q).trans (appendToCyclicBuffer_same ..)
    · exact moveToFront_same d q
  · exact .refl d

theorem tokenToFront_value (d : AppNixieData) (buffer : List UInt8) (k q : Nat) :
    (tokenToFront d buffer k q).isValueParsed = d.isValueParsed ∧
      (tokenToFront d buffer k q).displayValue = d.displayValue := by
  unfold tokenToFront
  split
  · dsimp only
    split <;> exact ⟨rfl, rfl⟩
  · exact ⟨rfl, rfl⟩

theorem parseValueFromBuffer_same (d : AppNixieData) (bytes : List UInt8) :
    SameButResponse d (parseValueFromBuffer d bytes) := ⟨rfl⟩

/-- Enough bytes behind the first token: the value is parsed. -/
theorem parseValueFromBuffer_scan {v : Buf maxNixieTubes} {R bytes : List UInt8} {p : Nat}
    (hc : ScanConfig tok d) (h : FirstAt tok R p) (hb : bytes <+: R.drop (p + tok.length))
    (h4 : maxNixieTubes ≤ bytes.length) : Scan tok v R (parseValueFromBuffer d bytes) := by
  have hlen := hb.length_le
  rw [List.length_drop] at hlen
  have : maxNixieTubes = 4 := rfl
  obtain ⟨rest, hrest⟩ := hb
  refine .parsed p h rfl ?_ (by omega)
  rw [parseValueFromBuffer_displayValue hc.numNixies, ← hrest, leadingDigits_append h4]

theorem tokenInCyclicBuffer_scan {v : Buf maxNixieTubes} {R glued buffer : List UInt8}
    {p q k : Nat} (hc : ScanConfig tok d) (hp : d.isValueParsed = false) (hv : d.displayValue = v)
    (hkeeps : Keeps d glued) (hq : q + tok.length ≤ glued.length) (hk : k ≤ buffer.length)
    (hb : buffer.length < 2 ^ 16) (h : FirstAt tok R p)
    (hR : R.drop p = glued.drop q ++ buffer.drop k)
    (hfull : buffer.drop k = [] ∨ glued.length = 2 * (tok.length + maxNixieTubes)) :
    Scan tok v R (tokenInCyclicBuffer d buffer (tok.length + maxNixieTubes) k q) := by
  have hsame := tokenToFront_same d buffer k q
  obtain ⟨hp', hv'⟩ := tokenToFront_value d buffer k q
  have hc' := hsame.config hc
  have hkeeps' := tokenToFront_keeps (q := q) hkeeps (by omega) hk hb
  have hbound := h.here.bound hc.nonempty
  have htotal := congrArg List.length hR
  have h4 : maxNixieTubes = 4 := rfl
  simp only [List.length_append, List.length_drop] at htotal
  unfold tokenInCyclicBuffer
  simp only
  generalize tokenToFront d buffer k q = d₁ at hsame hp' hv' hc' hkeeps'
  generalize hkept : glued.drop q ++ (buffer.drop k).take q = kept at hkeeps'
  have hklen : kept.length = glued.length - q + min q (buffer.length - k) := by
    rw [← hkept, List.length_append, List.length_take, List.length_drop, List.length_drop]
  split
  · rename_i hlt
    -- Too few bytes: then all of the new ones are in the cyclic buffer.
    rw [hkeeps'.1] at hlt
    have hall : kept = R.drop p := by
      rw [← hkept, hR]
      rcases hfull with hnil | hfull
      · rw [hnil, List.take_nil]
      · rw [List.take_of_length_le (by rw [List.length_drop]; omega)]
    refine .waiting p h (hp'.trans hp) (hv'.trans hv) (hall ▸ hkeeps') ?_
    rw [hall, List.length_drop] at hlt
    omega
  · rename_i hge
    rw [hkeeps'.1] at hge
    rw [hc'.tokenLen, hkeeps'.read_drop (by omega)]
    refine parseValueFromBuffer_scan hc' h ?_ (by rw [List.length_drop]; omega)
    rw [← List.drop_drop, hR, ← hkept, List.drop_append_of_le_length (by rw [List.length_drop]; omega),
      List.drop_append_of_le_length (by rw [List.length_drop]; omega)]
    exact (List.prefix_append_right_inj _).mpr (List.take_prefix ..)

theorem keepTail_same (d : AppNixieData) (buffer : List UInt8) (k : Nat) :
    SameButResponse d (keepTail d buffer k) := ⟨rfl⟩

/-- The last bytes of the response so far are kept. -/
theorem keepTail_keeps {R buffer : List UInt8} {k : Nat} (hc : ScanConfig tok d)
    (hk : k ≤ buffer.length) (hb : buffer.length < 2 ^ 16)
    (hkeeps : Keeps d (R.drop (R.length - (tok.length + maxNixieTubes)) ++ buffer.take k)) :
    Keeps (keepTail d buffer k)
      ((R ++ buffer).drop ((R ++ buffer).length - (tok.length + maxNixieTubes))) := by
  have h4 : maxNixieTubes = 4 := rfl
  have hshort : tok.length < 64 := hc.short
  have hfit : _ ≤ 136 := keeps_length_le hkeeps
  obtain ⟨hlen, hread⟩ := hkeeps
  generalize hM : tok.length + maxNixieTubes = M at *
  generalize hold : R.drop (R.length - M) = old at *
  have holdlen : old.length = min R.length M := by
    rw [← hold, List.length_drop]
    omega
  have htake : (buffer.take k).length = k := by
    rw [List.length_take]
    omega
  rw [List.length_append, htake] at hlen hread hfit
  -- The sizes that the code computes.
  have hcl : sizeSub d.cyclicBufferLen k = old.length := by
    rw [hlen, sizeSub_eq (by omega) (by omega), Nat.add_sub_cancel]
  have hnew : minZz buffer.length (d.tokenLen + d.numNixies) = min buffer.length M := by
    rw [minZz_eq, hc.tokenLen, hc.numNixies, hM]
  have hnum : minZz old.length (sizeSub (d.tokenLen + d.numNixies) (min buffer.length M)) =
      min old.length (M - min buffer.length M) := by
    rw [minZz_eq, hc.tokenLen, hc.numNixies, hM, sizeSub_eq (by omega) (by omega)]
  have hstart : sizeSub old.length (min old.length (M - min buffer.length M)) =
      old.length - min old.length (M - min buffer.length M) := sizeSub_eq (by omega) (by omega)
  have hfrom : sizeSub buffer.length (min buffer.length M) = buffer.length - min buffer.length M :=
    sizeSub_eq (by omega) (by omega)
  generalize hn : min buffer.length M = n at *
  generalize ho : min old.length (M - n) = o at *
  have holdread : d.cyclicBuffer.read (old.length - o) o = old.drop (old.length - o) := by
    rw [Buf.read_eq_read_zero _ (show old.length - o + o ≤ old.length + k by omega), hread,
      List.drop_append_of_le_length (by omega), List.take_append_of_le_length
        (by rw [List.length_drop]; omega), List.take_of_length_le (by rw [List.length_drop]; omega)]
  have hbuf : (buffer.drop (buffer.length - n)).take n = buffer.drop (buffer.length - n) :=
    List.take_of_length_le (by rw [List.length_drop]; omega)
  have hlast : (R ++ buffer).drop ((R ++ buffer).length - M) =
      old.drop (old.length - o) ++ buffer.drop (buffer.length - n) := by
    rw [List.length_append, List.drop_append, ← hold, List.drop_drop]
    congr 1
    · by_cases hbig : M ≤ buffer.length
      · rw [List.drop_eq_nil_of_le (by omega), List.drop_eq_nil_of_le (by rw [hold]; omega)]
      · congr 1
        rw [hold]
        omega
    · congr 1
      omega
  have hlens : (old.drop (old.length - o)).length = o ∧
      (buffer.drop (buffer.length - n)).length = n := by
    rw [List.length_drop, List.length_drop]
    omega
  rw [hlast]
  unfold keepTail
  simp only [hcl, hnew, hnum, hstart, hfrom, holdread, hbuf]
  constructor
  · show n + o = _
    rw [List.length_append, hlens.1, hlens.2, Nat.add_comm]
  · show Buf.read (Buf.write _ o (buffer.drop (buffer.length - n))) 0 _ = _
    rw [List.length_append, hlens.1, Buf.take_write _ (by rw [hlens.2]; show _ ≤ 136; omega)]
    congr 1
    by_cases h0 : o = 0
    · rw [if_neg (by simpa using h0), h0, Nat.sub_zero, List.drop_length]
      rfl
    · rw [if_pos h0]
      have hread : (Buf.write d.cyclicBuffer 0 (old.drop (old.length - o))).read 0
          (old.drop (old.length - o)).length = old.drop (old.length - o) :=
        Buf.read_write d.cyclicBuffer (by rw [hlens.1]; show _ ≤ 136; omega)
      rwa [hlens.1] at hread

theorem tokenInNewBuffer_same (d : AppNixieData) (buffer : List UInt8) (k q : Nat) :
    SameButResponse d (tokenInNewBuffer d buffer k q) := by
  unfold tokenInNewBuffer
  split
  · exact parseValueFromBuffer_same ..
  · exact ⟨rfl⟩

theorem tokenInNewBuffer_scan {v : Buf maxNixieTubes} {R buffer : List UInt8} {p q : Nat}
    (hc : ScanConfig tok d) (hp : d.isValueParsed = false) (hv : d.displayValue = v)
    (hq : q + tok.length ≤ buffer.length) (hb : buffer.length < 2 ^ 16) (h : FirstAt tok R p)
    (hR : R.drop p = buffer.drop q) :
    Scan tok v R (tokenInNewBuffer d buffer (tok.length + maxNixieTubes) q) := by
  have h4 : maxNixieTubes = 4 := rfl
  have hshort : tok.length < 64 := hc.short
  have hlen := congrArg List.length hR
  rw [List.length_drop, List.length_drop] at hlen
  have hbound := h.here.bound hc.nonempty
  have hsub : sizeSub buffer.length q = buffer.length - q := sizeSub_eq (by omega) (by omega)
  unfold tokenInNewBuffer
  rw [hsub]
  split
  · rename_i hge
    have hcount : sizeSub (sizeSub buffer.length d.tokenLen) q = buffer.length - (q + tok.length) := by
      rw [hc.tokenLen, sizeSub_eq (a := buffer.length) (by omega) (by omega),
        sizeSub_eq (by omega) (by omega)]
      omega
    have hbytes : R.drop (p + tok.length) = buffer.drop (q + tok.length) := by
      rw [← List.drop_drop, hR, List.drop_drop]
    rw [hcount, hc.tokenLen, List.take_of_length_le (by rw [List.length_drop])]
    refine parseValueFromBuffer_scan hc h ?_ (by rw [List.length_drop]; omega)
    exact hbytes ▸ List.prefix_rfl
  · rename_i hlt
    rw [List.take_of_length_le (by rw [List.length_drop])]
    refine .waiting p h hp hv ?_ (by omega)
    rw [hR]
    exact keeps_write_zero d (List.length_drop ..) (by show _ ≤ 136; omega)

/-! ## One piece -/

theorem bufferReceivedCallback_same (d : AppNixieData) (received : Received) :
    SameButResponse d (bufferReceivedCallback d received) := by
  unfold bufferReceivedCallback
  simp only
  split
  · exact .refl d
  · refine (appendToCyclicBuffer_same d received.val
      (minZz received.val.length (sizeSub d.maxCyclicBufferLen d.cyclicBufferLen))).trans ?_
    split
    · unfold tokenInCyclicBuffer
      simp only
      split
      · exact tokenToFront_same ..
      · exact (tokenToFront_same ..).trans (parseValueFromBuffer_same ..)
    · split
      · exact keepTail_same ..
      · exact tokenInNewBuffer_same ..

theorem parseValueFromBuffer_state (d : AppNixieData) (bytes : List UInt8) :
    (parseValueFromBuffer d bytes).state = d.state := rfl

theorem tokenInCyclicBuffer_state (d : AppNixieData) (buffer : List UInt8) (required k q : Nat) :
    (tokenInCyclicBuffer d buffer required k q).state = d.state := by
  have hfront : (tokenToFront d buffer k q).state = d.state := by
    unfold tokenToFront
    split
    · dsimp only
      split <;> rfl
    · rfl
  unfold tokenInCyclicBuffer
  simp only
  generalize tokenToFront d buffer k q = d' at hfront ⊢
  split
  · exact hfront
  · rw [parseValueFromBuffer_state, hfront]

theorem tokenInNewBuffer_state (d : AppNixieData) (buffer : List UInt8) (required q : Nat) :
    (tokenInNewBuffer d buffer required q).state = d.state := by
  unfold tokenInNewBuffer
  split
  · rw [parseValueFromBuffer_state]
  · rfl

theorem keepTail_state (d : AppNixieData) (buffer : List UInt8) (k : Nat) :
    (keepTail d buffer k).state = d.state := rfl

/-- The pieces of a response do not change the state. -/
theorem bufferReceivedCallback_state (d : AppNixieData) (received : Received) :
    (bufferReceivedCallback d received).state = d.state := by
  unfold bufferReceivedCallback
  simp only
  split
  · rfl
  · generalize hglued : appendToCyclicBuffer d received.val _ = d'
    have hd' : d'.state = d.state := by
      rw [← hglued]
      rfl
    split
    · rw [tokenInCyclicBuffer_state, hd']
    · split
      · rw [keepTail_state, hd']
      · rw [tokenInNewBuffer_state, hd']

/-- The number of bytes that go behind the kept ones: all, or the buffer gets full. -/
theorem appendSuffixLen_eq {old : List UInt8} (buffer : List UInt8) (hc : ScanConfig tok d)
    (hkeeps : Keeps d old) (hold : old.length ≤ tok.length + maxNixieTubes) :
    minZz buffer.length (sizeSub d.maxCyclicBufferLen d.cyclicBufferLen) =
      min buffer.length (2 * (tok.length + maxNixieTubes) - old.length) := by
  have h4 : maxNixieTubes = 4 := rfl
  have hshort : tok.length < 64 := hc.short
  rw [minZz_eq, hc.maxLen, hkeeps.1, sizeSub_eq (by omega) (by omega)]

/-- A piece while the token is absent. `pre` are the bytes that are not kept any more. -/
theorem bufferReceivedCallback_absent {v : Buf maxNixieTubes} {R : List UInt8}
    (hc : ScanConfig tok d) (h : Absent tok R) (hp : d.isValueParsed = false)
    (hv : d.displayValue = v)
    (hkeeps : Keeps d (R.drop (R.length - (tok.length + maxNixieTubes)))) (received : Received) :
    Scan tok v (R ++ received.val) (bufferReceivedCallback d received) := by
  obtain ⟨buffer, hb⟩ := received
  have h4 : maxNixieTubes = 4 := rfl
  have hshort : tok.length < 64 := hc.short
  obtain ⟨pre, old, hR, hold, hpre⟩ : ∃ pre old, R = pre ++ old ∧
      R.drop (R.length - (tok.length + maxNixieTubes)) = old ∧
      (old.length = tok.length + maxNixieTubes ∨ pre = [] ∧ old.length < tok.length + maxNixieTubes) := by
    refine ⟨_, _, (List.take_append_drop (R.length - (tok.length + maxNixieTubes)) R).symm, rfl, ?_⟩
    rw [List.length_drop]
    by_cases hlong : tok.length + maxNixieTubes ≤ R.length
    · exact .inl (by omega)
    · refine .inr ⟨?_, by omega⟩
      rw [Nat.sub_eq_zero_of_le (by omega), List.take_zero]
  have hlen : old.length ≤ tok.length + maxNixieTubes := by omega
  rw [hold] at hkeeps
  -- The bytes behind the kept ones, and what does not fit.
  have hk := appendSuffixLen_eq buffer hc hkeeps hlen
  generalize hkval : min buffer.length (2 * (tok.length + maxNixieTubes) - old.length) = k at hk
  have hglued : Keeps (appendToCyclicBuffer d buffer k) (old ++ buffer.take k) :=
    appendToCyclicBuffer_keeps hkeeps (by omega) (by show _ ≤ 136; omega)
  have hc' := (appendToCyclicBuffer_same d buffer k).config hc
  have hgluedlen : (old ++ buffer.take k).length = old.length + k := by
    rw [List.length_append, List.length_take]
    omega
  have hfull : buffer.drop k = [] ∨
      (old ++ buffer.take k).length = 2 * (tok.length + maxNixieTubes) := by
    rw [hgluedlen]
    by_cases hall : buffer.length ≤ k
    · exact .inl (List.drop_eq_nil_of_le hall)
    · exact .inr (by omega)
  have hsep : Separates tok pre old buffer := by
    rcases hpre with hlong | ⟨hnil, -⟩
    · exact .inl (by omega)
    · exact .inr (.inl hnil)
  have hsep' : Separates tok old (buffer.take k) (buffer.drop k) := by
    rcases hfull with hnil | hlong
    · exact .inr (.inr hnil)
    · rw [hgluedlen] at hlong
      refine .inl ?_
      rw [List.length_take]
      omega
  have habs : Absent tok (pre ++ old) := hR ▸ h
  have hsplit : buffer.take k ++ buffer.drop k = buffer := List.take_append_drop k buffer
  rw [hR, List.append_assoc]
  unfold bufferReceivedCallback
  simp only [hp, Bool.false_eq_true, if_false]
  rw [hk, hglued.read, hc.tokenLen, hc.numNixies, hc'.token]
  -- `token` is not touched by the append.
  cases hglue : strstrLen (old ++ buffer.take k) tok with
  | some q =>
    have hq := (strstrLen_eq_some hc.nonempty).mp hglue
    have hfirst : FirstAt tok (old ++ buffer) q := by
      have := hq.append hc.nonempty (buffer.drop k)
      rwa [List.append_assoc, hsplit] at this
    have hbound := hq.here.bound hc.nonempty
    refine tokenInCyclicBuffer_scan hc' hp hv hglued hbound (by omega) hb
      (firstAt_absent_append habs hsep hfirst) ?_ hfull
    rw [List.drop_append, List.drop_eq_nil_of_le (Nat.le_add_right ..), Nat.add_sub_cancel_left,
      List.nil_append]
    conv => lhs; rw [← hsplit, ← List.append_assoc]
    rw [List.drop_append_of_le_length (by omega)]
  | none =>
    have hnone := (strstrLen_eq_none hc.nonempty).mp hglue
    cases hnew : strstrLen buffer tok with
    | some q =>
      have hq := (strstrLen_eq_some hc.nonempty).mp hnew
      have hfirst : FirstAt tok (old ++ buffer) (old.length + q) := by
        have := firstAt_absent_append hnone hsep' (hsplit.symm ▸ hq)
        rwa [hsplit] at this
      refine tokenInNewBuffer_scan hc' hp hv (hq.here.bound hc.nonempty) hb
        (firstAt_absent_append habs hsep hfirst) ?_
      rw [← List.append_assoc, ← Nat.add_assoc, ← List.length_append, List.drop_append,
        List.drop_eq_nil_of_le (Nat.le_add_right ..), Nat.add_sub_cancel_left, List.nil_append]
    | none =>
      have habsnew := (strstrLen_eq_none hc.nonempty).mp hnew
      have hrest : Absent tok (old ++ buffer) := by
        have := absent_append hnone hsep' (hsplit.symm ▸ habsnew)
        rwa [hsplit] at this
      refine .absent (absent_append habs hsep hrest) hp hv ?_
      rw [← List.append_assoc, ← hR]
      exact keepTail_keeps hc' (by omega) hb (hold.symm ▸ hglued)

/-- A piece while the token waits for the bytes behind it: it stays at the front. -/
theorem bufferReceivedCallback_waiting {v : Buf maxNixieTubes} {R : List UInt8} {p : Nat}
    (hc : ScanConfig tok d) (h : FirstAt tok R p) (hp : d.isValueParsed = false)
    (hv : d.displayValue = v) (hkeeps : Keeps d (R.drop p))
    (hshort : R.length < p + tok.length + maxNixieTubes) (received : Received) :
    Scan tok v (R ++ received.val) (bufferReceivedCallback d received) := by
  obtain ⟨buffer, hb⟩ := received
  have h4 : maxNixieTubes = 4 := rfl
  have htok : tok.length < 64 := hc.short
  have hbound := h.here.bound hc.nonempty
  have hlen : (R.drop p).length = R.length - p := List.length_drop ..
  have hk := appendSuffixLen_eq buffer hc hkeeps (by omega)
  generalize hkval : min buffer.length (2 * (tok.length + maxNixieTubes) - (R.drop p).length) = k at hk
  have hglued : Keeps (appendToCyclicBuffer d buffer k) (R.drop p ++ buffer.take k) :=
    appendToCyclicBuffer_keeps hkeeps (by omega) (by show _ ≤ 136; omega)
  have hc' := (appendToCyclicBuffer_same d buffer k).config hc
  have hgluedlen : (R.drop p ++ buffer.take k).length = R.length - p + k := by
    rw [List.length_append, List.length_take, hlen]
    omega
  have hfull : buffer.drop k = [] ∨
      (R.drop p ++ buffer.take k).length = 2 * (tok.length + maxNixieTubes) := by
    rw [hgluedlen]
    by_cases hall : buffer.length ≤ k
    · exact .inl (List.drop_eq_nil_of_le hall)
    · exact .inr (by omega)
  have hfront : FirstAt tok (R.drop p ++ buffer.take k) 0 := by
    refine FirstAt.append ⟨?_, fun q hq => absurd hq (Nat.not_lt_zero q)⟩ hc.nonempty _
    exact h.here
  unfold bufferReceivedCallback
  simp only [hp, Bool.false_eq_true, if_false]
  rw [hk, hglued.read, hc.tokenLen, hc.numNixies, hc'.token,
    (strstrLen_eq_some hc.nonempty).mpr hfront]
  refine tokenInCyclicBuffer_scan hc' hp hv hglued (by omega) (by omega) hb
    (h.append hc.nonempty buffer) ?_ hfull
  rw [List.drop_zero, List.append_assoc, List.take_append_drop,
    List.drop_append_of_le_length (by omega)]

/-- **One piece.** What the module knows of the response grows with the piece. -/
theorem bufferReceivedCallback_scan {v : Buf maxNixieTubes} {R : List UInt8}
    (hc : ScanConfig tok d) (h : Scan tok v R d) (received : Received) :
    Scan tok v (R ++ received.val) (bufferReceivedCallback d received) := by
  cases h with
  | absent h hp hv hkeeps => exact bufferReceivedCallback_absent hc h hp hv hkeeps received
  | waiting p h hp hv hkeeps hshort =>
    exact bufferReceivedCallback_waiting hc h hp hv hkeeps hshort received
  | parsed p h hp hv henough =>
    have h4 : maxNixieTubes = 4 := rfl
    have hstop : bufferReceivedCallback d received = d := by
      unfold bufferReceivedCallback
      simp only [hp, if_true]
    rw [hstop]
    refine .parsed p (h.append hc.nonempty _) hp ?_ ?_
    · rw [hv, List.drop_append_of_le_length (by omega),
        leadingDigits_append (by rw [List.length_drop]; omega)]
    · rw [List.length_append]
      omega

/-! ## A whole response -/

theorem foldl_same (d : AppNixieData) (chunks : List Received) :
    SameButResponse d (chunks.foldl bufferReceivedCallback d) := by
  induction chunks generalizing d with
  | nil => exact .refl d
  | cons r chunks ih => exact (bufferReceivedCallback_same d r).trans (ih _)

/-- The bytes of the pieces, in order. -/
def response (chunks : List Received) : List UInt8 := chunks.flatMap (·.val)

/-- **The pieces of a response.** The invariant after any number of pieces. -/
theorem foldl_scan {v : Buf maxNixieTubes} {R : List UInt8} (hc : ScanConfig tok d)
    (h : Scan tok v R d) (chunks : List Received) :
    Scan tok v (R ++ response chunks) (chunks.foldl bufferReceivedCallback d) := by
  induction chunks generalizing d R with
  | nil => simpa [response] using h
  | cons r chunks ih =>
    have := ih ((bufferReceivedCallback_same d r).config hc) (bufferReceivedCallback_scan hc h r)
    rw [response, List.flatMap_cons, ← List.append_assoc]
    exact this

/-- A module reset for a request knows nothing of the response yet. -/
theorem scan_reset (hc : ScanConfig tok d) (hp : d.isValueParsed = false)
    (hl : d.cyclicBufferLen = 0) : Scan tok d.displayValue [] d := by
  refine .absent ?_ hp rfl ⟨by simpa using hl, by simp [Buf.read]⟩
  rw [absent_iff, List.infix_nil]
  exact hc.nonempty

theorem parseKeptValue_of_parsed (h : d.isValueParsed = true) : parseKeptValue d = d := by
  unfold parseKeptValue
  rw [if_neg (by simp [h])]

theorem parseKeptValue_of_found (h : d.isValueParsed = false) {p : Nat}
    (hf : strstrLen (d.cyclicBuffer.read 0 d.cyclicBufferLen) (cstr d.token.toList) = some p) :
    parseKeptValue d = parseValueFromBuffer d
      (d.cyclicBuffer.read d.tokenLen (sizeSub d.cyclicBufferLen d.tokenLen)) := by
  unfold parseKeptValue
  rw [if_pos (by simp [h]), hf]

theorem parseKeptValue_of_absent (h : d.isValueParsed = false)
    (hf : strstrLen (d.cyclicBuffer.read 0 d.cyclicBufferLen) (cstr d.token.toList) = none) :
    parseKeptValue d = d := by
  unfold parseKeptValue
  rw [if_pos (by simp [h]), hf]

/-- The end of a response that has the token: its value is in the display. -/
theorem requestHandledCallback_found {v : Buf maxNixieTubes} {S : List UInt8} {p : Nat}
    (hc : ScanConfig tok d) (h : Scan tok v S d) (hp : FirstAt tok S p) :
    (requestHandledCallback d).isValueParsed = true ∧
      (requestHandledCallback d).state = .shuffleServerValue ∧
      (requestHandledCallback d).displayValue =
        parsedDisplay (leadingDigits maxNixieTubes (S.drop (p + tok.length))) := by
  cases h with
  | absent h => exact absurd h hp.not_absent
  | waiting q h hparsed hv hkeeps hshort =>
    obtain rfl := hp.unique h
    have hfront : FirstAt tok (S.drop p) 0 := ⟨h.here, fun q hq => absurd hq (Nat.not_lt_zero q)⟩
    have hbound := h.here.bound hc.nonempty
    have hbytes : d.cyclicBuffer.read d.tokenLen (sizeSub d.cyclicBufferLen d.tokenLen) =
        S.drop (p + tok.length) := by
      rw [hc.tokenLen, hkeeps.read_drop (by rw [List.length_drop]; omega), List.drop_drop]
    have hfound : strstrLen (d.cyclicBuffer.read 0 d.cyclicBufferLen) (cstr d.token.toList) =
        some 0 := by
      rw [hkeeps.read, hc.token]
      exact (strstrLen_eq_some hc.nonempty).mpr hfront
    have heq : parseKeptValue d = parseValueFromBuffer d (S.drop (p + tok.length)) := by
      rw [parseKeptValue_of_found hparsed hfound, hbytes]
    unfold requestHandledCallback
    rw [heq]
    exact ⟨rfl, rfl, parseValueFromBuffer_displayValue hc.numNixies _⟩
  | parsed q h hparsed hv =>
    obtain rfl := hp.unique h
    unfold requestHandledCallback
    simp only [parseKeptValue_of_parsed hparsed, hparsed, if_true]
    exact ⟨trivial, trivial, hv⟩

/-- The end of a response that does not have it. -/
theorem requestHandledCallback_absent {v : Buf maxNixieTubes} {S : List UInt8}
    (hc : ScanConfig tok d) (h : Scan tok v S d) (ha : Absent tok S) :
    (requestHandledCallback d).isValueParsed = false ∧ (requestHandledCallback d).state = .idle ∧
      (requestHandledCallback d).displayValue = v := by
  cases h with
  | waiting q h => exact absurd ha h.not_absent
  | parsed q h => exact absurd ha h.not_absent
  | absent h hparsed hv hkeeps =>
    have hkept : Absent tok (S.drop (S.length - (tok.length + maxNixieTubes))) := by
      refine Absent.right (s := S.take (S.length - (tok.length + maxNixieTubes))) ?_
      rwa [List.take_append_drop]
    have heq : parseKeptValue d = d := by
      refine parseKeptValue_of_absent hparsed ?_
      rw [hkeeps.read, hc.token]
      exact (strstrLen_eq_none hc.nonempty).mpr hkept
    unfold requestHandledCallback
    simp only [heq, hparsed, hv]
    exact ⟨trivial, rfl, trivial⟩

theorem parseKeptValue_same (d : AppNixieData) : SameButResponse d (parseKeptValue d) := by
  unfold parseKeptValue
  split
  · split
    · exact parseValueFromBuffer_same ..
    · exact .refl d
  · exact .refl d

theorem requestHandledCallback_same (d : AppNixieData) :
    SameButResponse d (requestHandledCallback d) := (parseKeptValue_same d).trans ⟨rfl⟩

/-- The digits as the tubes get them: the least significant first, filled up with `'0'`. -/
def shownDigits (ds : List UInt8) : List UInt8 :=
  ds.reverse ++ List.replicate (maxNixieTubes - ds.length) 48

/-- The module after the whole response, at its end. -/
def afterResponse (d : AppNixieData) (chunks : List Received) : AppNixieData :=
  requestHandledCallback (chunks.foldl bufferReceivedCallback d)

theorem afterResponse_same (d : AppNixieData) (chunks : List Received) :
    SameButResponse d (afterResponse d chunks) :=
  (foldl_same d chunks).trans (requestHandledCallback_same _)

theorem shuffleServerValueDigits_state (d : AppNixieData) :
    (shuffleServerValueDigits d).1.state =
      if d.displayValueOut.isSome then .idle else .beginDisplaySequence := by
  unfold shuffleServerValueDigits
  cases d.displayValueOut <;> rfl

/-- The result of a response depends on its bytes only. -/
theorem afterResponse_cases (hc : ScanConfig tok d) (hp : d.isValueParsed = false)
    (hl : d.cyclicBufferLen = 0) (chunks : List Received) :
    (∃ p, FirstAt tok (response chunks) p ∧ (afterResponse d chunks).isValueParsed = true ∧
      (afterResponse d chunks).state = .shuffleServerValue ∧
      (afterResponse d chunks).displayValue =
        parsedDisplay (leadingDigits maxNixieTubes ((response chunks).drop (p + tok.length)))) ∨
    (Absent tok (response chunks) ∧ (afterResponse d chunks).isValueParsed = false ∧
      (afterResponse d chunks).state = .idle ∧
      (afterResponse d chunks).displayValue = d.displayValue) := by
  have hscan := foldl_scan hc (scan_reset hc hp hl) chunks
  have hc' := (foldl_same d chunks).config hc
  rw [List.nil_append] at hscan
  rcases absent_or_firstAt hc.nonempty (response chunks) with ha | ⟨p, hf⟩
  · exact .inr ⟨ha, requestHandledCallback_absent hc' hscan ha⟩
  · exact .inl ⟨p, hf, requestHandledCallback_found hc' hscan hf⟩

end Config

/-! ## Tokens -/

/-- Every token of `1` to `63` characters can be set up. -/
theorem setToken_scanConfig {tok : List UInt8} (hz : 0 ∉ tok) (h1 : tok ≠ [])
    (h63 : tok.length < maxNixieToken) {d : AppNixieData} (hn : d.numNixies = maxNixieTubes) :
    ScanConfig tok (setToken d tok) := by
  have htok : cstr (safeStrncpy d.token tok maxNixieToken).toList = tok := by
    rw [cstr_safeStrncpy _ _ (by decide) (Nat.le_refl _), List.take_of_length_le
      (by show _ ≤ 63; have : tok.length < 64 := h63; omega)]
    exact cstr_eq_self hz
  refine ⟨hn, htok, ?_, ?_, h1, h63⟩
  · show (cstr (safeStrncpy d.token tok maxNixieToken).toList).length = _
    rw [htok]
  · show 2 * ((cstr (safeStrncpy d.token tok maxNixieToken).toList).length + d.numNixies) = _
    rw [htok, hn]

theorem registeredTubes_numNixies (d : AppNixieData) (h : d.numNixies = 0) :
    (registeredTubes.foldl registerTube d).numNixies = maxNixieTubes := by
  simp [registeredTubes, registerTube, h]

/-- `APP_Nixie_Initialize` sets the module up for its own token. -/
theorem appNixieInitialize_scanConfig (d : AppNixieData) (shiftRegister : AppShiftRegisterData) :
    ScanConfig defaultToken (appNixieInitialize d shiftRegister).1 := by
  obtain ⟨d', hd', hn⟩ : ∃ d', d' = registeredTubes.foldl registerTube { d with
      state := .idle
      displayValueOut := none
      periodicTasksEnabled := true
      periodicNextTime := 0
      taskFromPeriodic := false
      numNixies := 0 } ∧ d'.numNixies = maxNixieTubes :=
    ⟨_, rfl, registeredTubes_numNixies _ rfl⟩
  unfold appNixieInitialize
  simp only
  rw [← hd']
  obtain ⟨h1, h2, h3, h4, h5, h6⟩ : ScanConfig defaultToken
      (setToken { d' with requestUrl := safeStrncpy d'.requestUrl defaultRequestUrl maxUrl }
        defaultToken) :=
    setToken_scanConfig (by decide) (by decide) (by decide) hn
  exact ⟨h1, h2, h3, h4, h5, h6⟩

/-! ## The result -/

variable {tok : List UInt8} {d : AppNixieData}

/-- **Streaming is scanning.** After a response in any pieces, the value is parsed exactly if the
token occurs in the response. Then the shuffle leaves the digits behind the first token in the
display; else the module is idle with the display it had. Two ways to cut the same response give
the same display and the same next states. -/
theorem response_scanned (hc : ScanConfig tok d) (hp : d.isValueParsed = false)
    (hl : d.cyclicBufferLen = 0) (chunks : List Received) :
    let S := response chunks
    let d' := afterResponse d chunks
    (d'.isValueParsed = true ↔ tok <:+: S) ∧
    (∀ p, FirstAt tok S p → d'.state = .shuffleServerValue ∧
      (shuffleServerValueDigits d').1.displayValue.toList =
        shownDigits (leadingDigits maxNixieTubes (S.drop (p + tok.length)))) ∧
    (¬ tok <:+: S → d'.state = .idle ∧ d'.displayValue = d.displayValue) ∧
    ∀ chunks', response chunks' = S →
      (afterResponse d chunks').displayValue = d'.displayValue ∧
      (afterResponse d chunks').state = d'.state ∧
      (shuffleServerValueDigits (afterResponse d chunks')).1.displayValue =
        (shuffleServerValueDigits d').1.displayValue ∧
      (shuffleServerValueDigits (afterResponse d chunks')).1.state =
        (shuffleServerValueDigits d').1.state := by
  intro S d'
  have hn : d'.numNixies = maxNixieTubes := ((afterResponse_same d chunks).config hc).numNixies
  refine ⟨?_, ?_, ?_, ?_⟩
  · rcases afterResponse_cases hc hp hl chunks with ⟨p, hf, hparsed, -⟩ | ⟨ha, hparsed, -⟩
    · exact ⟨fun _ => hf.here.infix, fun _ => hparsed⟩
    · refine ⟨fun h => ?_, fun h => absurd h (absent_iff.mp ha)⟩
      rw [hparsed] at h
      cases h
  · intro p hf
    rcases afterResponse_cases hc hp hl chunks with ⟨q, hq, -, hs, hv⟩ | ⟨ha, -⟩
    · obtain rfl := hf.unique hq
      refine ⟨hs, ?_⟩
      rw [shuffleServerValueDigits_displayValue]
      exact shuffledDigits_toList hn (holdsDigits_parsedDisplay hn hv)
    · exact absurd ha hf.not_absent
  · intro hnot
    rcases afterResponse_cases hc hp hl chunks with ⟨p, hf, -⟩ | ⟨-, -, hs, hv⟩
    · exact absurd hf.here.infix hnot
    · exact ⟨hs, hv⟩
  · intro chunks' hS
    have hout : (afterResponse d chunks').displayValueOut = d'.displayValueOut :=
      (afterResponse_same d chunks').displayValueOut.trans
        (afterResponse_same d chunks).displayValueOut.symm
    have hn' : (afterResponse d chunks').numNixies = d'.numNixies :=
      ((afterResponse_same d chunks').config hc).numNixies.trans hn.symm
    have heq : (afterResponse d chunks').displayValue = d'.displayValue ∧
        (afterResponse d chunks').state = d'.state := by
      rcases afterResponse_cases hc hp hl chunks with ⟨p, hf, -, hs, hv⟩ | ⟨ha, -, hs, hv⟩ <;>
        rcases afterResponse_cases hc hp hl chunks' with ⟨p', hf', -, hs', hv'⟩ | ⟨ha', -, hs', hv'⟩ <;>
        rw [hS] at *
      · obtain rfl := hf.unique hf'
        exact ⟨hv'.trans hv.symm, hs'.trans hs.symm⟩
      · exact absurd ha' hf.not_absent
      · exact absurd ha hf'.not_absent
      · exact ⟨hv'.trans hv.symm, hs'.trans hs.symm⟩
    refine ⟨heq.1, heq.2, ?_, ?_⟩
    · rw [shuffleServerValueDigits_displayValue, shuffleServerValueDigits_displayValue]
      unfold shuffledDigits numLeadingNull
      rw [heq.1, hn']
    · rw [shuffleServerValueDigits_state, shuffleServerValueDigits_state, hout]

/-- The default token cut in two, with two digits behind it. -/
theorem response_scanned_default :
    (shuffleServerValueDigits
      (afterResponse (appNixieInitialize AppNixieData.zeroed AppShiftRegisterData.zeroed).1
        [⟨lit "<b>Open Ta", by decide⟩, ⟨lit "sks>Open Tas", by decide⟩,
          ⟨lit "ks (42)</b>", by decide⟩])).1.displayValue.toList = lit "2400" :=
  (((response_scanned
    (appNixieInitialize_scanConfig AppNixieData.zeroed AppShiftRegisterData.zeroed) rfl rfl
    [⟨lit "<b>Open Ta", by decide⟩, ⟨lit "sks>Open Tas", by decide⟩,
      ⟨lit "ks (42)</b>", by decide⟩]).2.1 13
    ((firstOcc_eq_some (by decide)).mp (by decide +kernel))).2).trans (by decide +kernel)

end NixieTracker
