import NixieTracker.Lib.Checked
import NixieTracker.Nixie.Streaming
import NixieTracker.Nixie.Tasks

/-!
# The cyclic buffer

The callbacks of a response once more, with every subtraction of sizes, every copy and every length that
is stored checked: there is no result where a difference wraps around, a copy leaves its buffers or
`cyclic_buffer_len <= max_cyclic_buffer_len <= sizeof(cyclic_buffer)` fails.

* `Bounded`: the two inequalities. `bufferReceivedChecked_eq`: while they hold the checked callback has
  a result, that of the callback; `bounded_bufferReceivedCallback`.
* `cyclicBuffer_invariant`: what the buffer holds after any number of pieces.
-/

namespace NixieTracker

open Lib

/-- `cyclic_buffer_len <= max_cyclic_buffer_len <= sizeof(cyclic_buffer)`. -/
structure Bounded (d : AppNixieData) : Prop where
  len : d.cyclicBufferLen ≤ d.maxCyclicBufferLen
  max : d.maxCyclicBufferLen ≤ cyclicBufferSize

instance (d : AppNixieData) : Decidable (Bounded d) :=
  decidable_of_iff (d.cyclicBufferLen ≤ d.maxCyclicBufferLen ∧ d.maxCyclicBufferLen ≤ cyclicBufferSize)
    ⟨fun h => ⟨h.1, h.2⟩, fun h => ⟨h.len, h.max⟩⟩

/-! ## The callbacks with checks -/

/-- A new `cyclic_buffer_len`. -/
def storeLen (d : AppNixieData) (len : Nat) : Option AppNixieData :=
  if Bounded { d with cyclicBufferLen := len } then some { d with cyclicBufferLen := len } else none

/-- `appendToCyclicBuffer`, from `start` of the source on. -/
def appendChecked (d : AppNixieData) (src : List UInt8) (start len : Nat) : Option AppNixieData := do
  let cyclicBuffer ← d.cyclicBuffer.checkedCopy d.cyclicBufferLen src start len
  storeLen { d with cyclicBuffer } (d.cyclicBufferLen + len)

def moveToFrontChecked (d : AppNixieData) (prefixLen : Nat) : Option AppNixieData := do
  let kept ← checkedSub d.cyclicBufferLen prefixLen
  let cyclicBuffer ← d.cyclicBuffer.checkedCopy 0 d.cyclicBuffer.toList prefixLen kept
  storeLen { d with cyclicBuffer } kept

def tokenToFrontChecked (d : AppNixieData) (buffer : List UInt8) (appendSuffixLen prefixLen : Nat) :
    Option AppNixieData :=
  if prefixLen ≠ 0 then do
    let d ← moveToFrontChecked d prefixLen
    if buffer.length ≠ appendSuffixLen then do
      let left ← checkedSub buffer.length appendSuffixLen
      appendChecked d buffer appendSuffixLen (minZz prefixLen left)
    else some d
  else some d

def tokenInCyclicBufferChecked (d : AppNixieData) (buffer : List UInt8)
    (requiredLen appendSuffixLen prefixLen : Nat) : Option AppNixieData := do
  let d ← tokenToFrontChecked d buffer appendSuffixLen prefixLen
  if d.cyclicBufferLen < requiredLen then some d
  else do
    let len ← checkedSub d.cyclicBufferLen d.tokenLen
    some (parseValueFromBuffer d (d.cyclicBuffer.read d.tokenLen len))

/-- The first half of `keepTail`: the last bytes that were kept before move to the front. -/
def keepOldBytesChecked (d : AppNixieData) (numOldBytes : Nat) : Option AppNixieData :=
  if numOldBytes ≠ 0 then do
    let start ← checkedSub d.cyclicBufferLen numOldBytes
    let cyclicBuffer ← d.cyclicBuffer.checkedCopy 0 d.cyclicBuffer.toList start numOldBytes
    some { d with cyclicBuffer }
  else some d

def keepTailChecked (d : AppNixieData) (buffer : List UInt8) (appendSuffixLen : Nat) :
    Option AppNixieData := do
  let cyclicBufferLen ← checkedSub d.cyclicBufferLen appendSuffixLen
  let d ← storeLen d cyclicBufferLen
  let maxStoreBytes := d.tokenLen + d.numNixies
  let numNewBytes := minZz buffer.length maxStoreBytes
  let room ← checkedSub maxStoreBytes numNewBytes
  let numOldBytes := minZz d.cyclicBufferLen room
  let d ← keepOldBytesChecked d numOldBytes
  let start ← checkedSub buffer.length numNewBytes
  let cyclicBuffer ← d.cyclicBuffer.checkedCopy numOldBytes buffer start numNewBytes
  storeLen { d with cyclicBuffer } (numNewBytes + numOldBytes)

def tokenInNewBufferChecked (d : AppNixieData) (buffer : List UInt8) (requiredLen prefixLen : Nat) :
    Option AppNixieData := do
  let left ← checkedSub buffer.length prefixLen
  if requiredLen ≤ left then do
    let rest ← checkedSub buffer.length d.tokenLen
    let len ← checkedSub rest prefixLen
    some (parseValueFromBuffer d ((buffer.drop (prefixLen + d.tokenLen)).take len))
  else do
    let cyclicBuffer ← d.cyclicBuffer.checkedCopy 0 buffer prefixLen left
    storeLen { d with cyclicBuffer } left

def bufferReceivedChecked (d : AppNixieData) (received : Received) : Option AppNixieData :=
  let buffer := received.val
  if d.isValueParsed then some d
  else do
    let requiredLen := d.tokenLen + d.numNixies
    let room ← checkedSub d.maxCyclicBufferLen d.cyclicBufferLen
    let appendSuffixLen := minZz buffer.length room
    let d ← appendChecked d buffer 0 appendSuffixLen
    match strstrLen (d.cyclicBuffer.read 0 d.cyclicBufferLen) (cstr d.token.toList) with
    | some prefixLen => tokenInCyclicBufferChecked d buffer requiredLen appendSuffixLen prefixLen
    | none =>
      match strstrLen buffer (cstr d.token.toList) with
      | none => keepTailChecked d buffer appendSuffixLen
      | some prefixLen => tokenInNewBufferChecked d buffer requiredLen prefixLen

/-- The last look relies on the token at the front of the kept bytes. -/
def parseKeptChecked (d : AppNixieData) : Option AppNixieData :=
  if !d.isValueParsed then
    match strstrLen (d.cyclicBuffer.read 0 d.cyclicBufferLen) (cstr d.token.toList) with
    | some prefixLen => do
      let len ← checkedSub d.cyclicBufferLen d.tokenLen
      if prefixLen = 0 then
        some (parseValueFromBuffer d (d.cyclicBuffer.read d.tokenLen len))
      else none
    | none => some d
  else some d

def requestHandledChecked (d : AppNixieData) : Option AppNixieData := do
  let d ← parseKeptChecked d
  some { d with state := if d.isValueParsed then .shuffleServerValue else .idle }

/-! ## The checks pass -/

section Checks

variable {d : AppNixieData}

theorem storeLen_eq (h : Bounded { d with cyclicBufferLen := n }) :
    storeLen d n = some { d with cyclicBufferLen := n } := if_pos h

theorem appendChecked_eq {src : List UInt8} {start len : Nat} (h : Bounded d)
    (hlen : d.cyclicBufferLen + len ≤ d.maxCyclicBufferLen) (hstart : start + len ≤ src.length) :
    appendChecked d src start len = some (appendToCyclicBuffer d (src.drop start) len) := by
  have hmax := h.max
  unfold appendChecked
  rw [d.cyclicBuffer.checkedCopy_eq (by omega) hstart]
  exact storeLen_eq ⟨hlen, h.max⟩

theorem moveToFrontChecked_eq {q : Nat} (h : Bounded d) (hq : q ≤ d.cyclicBufferLen) :
    moveToFrontChecked d q = some (moveToFront d q) := by
  obtain ⟨hlen, hmax⟩ := h
  have hsize : cyclicBufferSize = 136 := rfl
  have hkept : sizeSub d.cyclicBufferLen q = d.cyclicBufferLen - q := sizeSub_eq hq (by omega)
  have hmove : d.cyclicBuffer.checkedCopy 0 d.cyclicBuffer.toList q (d.cyclicBufferLen - q) = _ :=
    d.cyclicBuffer.checkedMove_eq (by omega) (by omega)
  have hkeptLen : d.cyclicBufferLen - q ≤ d.maxCyclicBufferLen := by omega
  unfold moveToFrontChecked moveToFront
  simp only [hkept, checkedSub_eq hq, hmove, Option.bind_eq_bind, Option.bind_some]
  exact storeLen_eq ⟨hkeptLen, hmax⟩

theorem moveToFront_cyclicBufferLen (d : AppNixieData) (q : Nat) :
    (moveToFront d q).cyclicBufferLen = sizeSub d.cyclicBufferLen q := rfl

theorem moveToFront_maxCyclicBufferLen (d : AppNixieData) (q : Nat) :
    (moveToFront d q).maxCyclicBufferLen = d.maxCyclicBufferLen := rfl

theorem bounded_moveToFront {q : Nat} (h : Bounded d) (hq : q ≤ d.cyclicBufferLen) :
    Bounded (moveToFront d q) ∧ (moveToFront d q).cyclicBufferLen = d.cyclicBufferLen - q := by
  obtain ⟨hlen, hmax⟩ := h
  have hsize : cyclicBufferSize = 136 := rfl
  have hfits : d.cyclicBufferLen < 2 ^ 32 := by omega
  have hval : (moveToFront d q).cyclicBufferLen = d.cyclicBufferLen - q := by
    rw [moveToFront_cyclicBufferLen, sizeSub_eq hq hfits]
  refine ⟨⟨?_, ?_⟩, hval⟩
  · rw [hval, moveToFront_maxCyclicBufferLen]
    exact (Nat.sub_le ..).trans hlen
  · rw [moveToFront_maxCyclicBufferLen]
    exact hmax

theorem bounded_append {src : List UInt8} {len : Nat} (h : Bounded d)
    (hlen : d.cyclicBufferLen + len ≤ d.maxCyclicBufferLen) :
    Bounded (appendToCyclicBuffer d src len) := ⟨hlen, h.max⟩

theorem tokenToFrontChecked_eq {buffer : List UInt8} {k q : Nat} (h : Bounded d)
    (hq : q ≤ d.cyclicBufferLen) (hk : k ≤ buffer.length) (hb : buffer.length < 2 ^ 16) :
    tokenToFrontChecked d buffer k q = some (tokenToFront d buffer k q) ∧
      Bounded (tokenToFront d buffer k q) := by
  unfold tokenToFrontChecked tokenToFront
  by_cases h0 : q = 0
  · rw [if_neg (by simpa using h0), if_neg (by simpa using h0)]
    exact ⟨rfl, h⟩
  · rw [if_pos h0, if_pos h0]
    obtain ⟨hfront, hlen⟩ := bounded_moveToFront h hq
    have hmax := moveToFront_maxCyclicBufferLen d q
    have hle := h.len
    simp only [moveToFrontChecked_eq h hq, Option.bind_eq_bind, Option.bind_some]
    generalize moveToFront d q = d₁ at hfront hlen hmax ⊢
    by_cases hall : buffer.length = k
    · rw [if_neg (by simpa using hall), if_neg (by simpa using hall)]
      exact ⟨rfl, hfront⟩
    · have hleft : sizeSub buffer.length k = buffer.length - k := sizeSub_eq hk (by omega)
      rw [if_pos hall, if_pos hall, hleft, checkedSub_eq hk, Option.bind_some, minZz_eq]
      have hroom : d₁.cyclicBufferLen + min q (buffer.length - k) ≤ d₁.maxCyclicBufferLen := by omega
      exact ⟨appendChecked_eq hfront hroom (by omega), bounded_append hfront hroom⟩

theorem tokenInCyclicBufferChecked_eq {buffer : List UInt8} {n k q : Nat} (h : Bounded d)
    (hq : q ≤ d.cyclicBufferLen) (hk : k ≤ buffer.length) (hb : buffer.length < 2 ^ 16) :
    tokenInCyclicBufferChecked d buffer (d.tokenLen + n) k q =
        some (tokenInCyclicBuffer d buffer (d.tokenLen + n) k q) ∧
      Bounded (tokenInCyclicBuffer d buffer (d.tokenLen + n) k q) := by
  obtain ⟨hfront, hbounded⟩ := tokenToFrontChecked_eq h hq hk hb
  have htoken : (tokenToFront d buffer k q).tokenLen = d.tokenLen := by
    rw [(tokenToFront_same d buffer k q).eq]
  have hsize : cyclicBufferSize = 136 := rfl
  unfold tokenInCyclicBufferChecked tokenInCyclicBuffer
  simp only [hfront, Option.bind_eq_bind, Option.bind_some]
  generalize tokenToFront d buffer k q = d₁ at hbounded htoken
  obtain ⟨hlen, hmax⟩ := hbounded
  by_cases hshort : d₁.cyclicBufferLen < d.tokenLen + n
  · rw [if_pos hshort, if_pos hshort]
    exact ⟨rfl, hlen, hmax⟩
  · have hle : d₁.tokenLen ≤ d₁.cyclicBufferLen := by omega
    have hvalue : sizeSub d₁.cyclicBufferLen d₁.tokenLen = d₁.cyclicBufferLen - d₁.tokenLen :=
      sizeSub_eq hle (by omega)
    rw [if_neg hshort, if_neg hshort, checkedSub_eq hle, hvalue]
    exact ⟨rfl, hlen, hmax⟩

theorem tokenInNewBufferChecked_eq {buffer : List UInt8} {q : Nat} (h : Bounded d)
    (hq : q + d.tokenLen ≤ buffer.length) (hb : buffer.length < 2 ^ 16)
    (hstore : d.tokenLen + d.numNixies ≤ d.maxCyclicBufferLen) :
    tokenInNewBufferChecked d buffer (d.tokenLen + d.numNixies) q =
        some (tokenInNewBuffer d buffer (d.tokenLen + d.numNixies) q) ∧
      Bounded (tokenInNewBuffer d buffer (d.tokenLen + d.numNixies) q) := by
  obtain ⟨hlen, hmax⟩ := h
  have hsize : cyclicBufferSize = 136 := rfl
  have hleft : sizeSub buffer.length q = buffer.length - q := sizeSub_eq (by omega) (by omega)
  have hrest : sizeSub buffer.length d.tokenLen = buffer.length - d.tokenLen :=
    sizeSub_eq (by omega) (by omega)
  have hvalue : sizeSub (buffer.length - d.tokenLen) q = buffer.length - d.tokenLen - q :=
    sizeSub_eq (by omega) (by omega)
  unfold tokenInNewBufferChecked tokenInNewBuffer
  simp only [hleft, hrest, hvalue, checkedSub_eq (show q ≤ buffer.length by omega),
    checkedSub_eq (show d.tokenLen ≤ buffer.length by omega),
    checkedSub_eq (show q ≤ buffer.length - d.tokenLen by omega), Option.bind_eq_bind,
    Option.bind_some]
  by_cases henough : d.tokenLen + d.numNixies ≤ buffer.length - q
  · rw [if_pos henough, if_pos henough]
    exact ⟨rfl, hlen, hmax⟩
  · rw [if_neg henough, if_neg henough, d.cyclicBuffer.checkedCopy_eq (by omega) (by omega)]
    have hbounded : buffer.length - q ≤ d.maxCyclicBufferLen := by omega
    exact ⟨storeLen_eq ⟨hbounded, hmax⟩, hbounded, hmax⟩

theorem keepOldBytesChecked_eq {n : Nat} (h : Bounded d) (hn : n ≤ d.cyclicBufferLen) :
    keepOldBytesChecked d n = some { d with
      cyclicBuffer :=
        if n ≠ 0 then d.cyclicBuffer.write 0 (d.cyclicBuffer.read (d.cyclicBufferLen - n) n)
        else d.cyclicBuffer } := by
  obtain ⟨hlen, hmax⟩ := h
  unfold keepOldBytesChecked
  by_cases h0 : n = 0
  · rw [if_neg (by simpa using h0), if_neg (by simpa using h0)]
  · have hmove : d.cyclicBuffer.checkedCopy 0 d.cyclicBuffer.toList (d.cyclicBufferLen - n) n = _ :=
      d.cyclicBuffer.checkedMove_eq (by omega) (by omega)
    rw [if_pos h0, if_pos h0]
    simp only [checkedSub_eq hn, hmove, Option.bind_eq_bind, Option.bind_some]

theorem keepTailChecked_eq {buffer : List UInt8} {k : Nat} (h : Bounded d)
    (hk : k ≤ d.cyclicBufferLen) (hb : buffer.length < 2 ^ 16)
    (hstore : d.tokenLen + d.numNixies ≤ d.maxCyclicBufferLen) :
    keepTailChecked d buffer k = some (keepTail d buffer k) ∧ Bounded (keepTail d buffer k) := by
  obtain ⟨hlen, hmax⟩ := h
  have hsize : cyclicBufferSize = 136 := rfl
  have hold : sizeSub d.cyclicBufferLen k = d.cyclicBufferLen - k := sizeSub_eq hk (by omega)
  have hstored : storeLen d (d.cyclicBufferLen - k) = _ :=
    storeLen_eq ⟨(Nat.sub_le ..).trans hlen, hmax⟩
  unfold keepTailChecked keepTail
  simp only [hold, checkedSub_eq hk, hstored, Option.bind_eq_bind, Option.bind_some, minZz_eq]
  generalize hnew : min buffer.length (d.tokenLen + d.numNixies) = n
  have hroom : sizeSub (d.tokenLen + d.numNixies) n = d.tokenLen + d.numNixies - n :=
    sizeSub_eq (by omega) (by omega)
  simp only [hroom, checkedSub_eq (show n ≤ d.tokenLen + d.numNixies by omega), Option.bind_some]
  generalize hkept : min (d.cyclicBufferLen - k) (d.tokenLen + d.numNixies - n) = o
  have hbounded : Bounded { d with cyclicBufferLen := d.cyclicBufferLen - k } :=
    ⟨(Nat.sub_le ..).trans hlen, hmax⟩
  have hmoved := keepOldBytesChecked_eq (n := o) hbounded (by show o ≤ d.cyclicBufferLen - k; omega)
  have hstart : sizeSub (d.cyclicBufferLen - k) o = d.cyclicBufferLen - k - o :=
    sizeSub_eq (by omega) (by omega)
  have hfrom : sizeSub buffer.length n = buffer.length - n := sizeSub_eq (by omega) (by omega)
  simp only [hmoved, hstart, hfrom, checkedSub_eq (show n ≤ buffer.length by omega),
    Option.bind_some]
  rw [Buf.checkedCopy_eq _ (by omega) (by omega)]
  have hfit : n + o ≤ d.maxCyclicBufferLen := by omega
  exact ⟨storeLen_eq ⟨hfit, hmax⟩, hfit, hmax⟩

/-! ## The callbacks -/

variable {tok : List UInt8}

theorem strstrLen_bound {haystack : List UInt8} {p : Nat} (hc : ScanConfig tok d)
    (h : strstrLen haystack (cstr d.token.toList) = some p) :
    p + d.tokenLen ≤ haystack.length := by
  rw [hc.token] at h
  rw [hc.tokenLen]
  exact ((strstrLen_eq_some hc.nonempty).mp h).here.bound hc.nonempty

theorem bounded_of_config (hc : ScanConfig tok d) (hl : d.cyclicBufferLen = 0) : Bounded d := by
  have hshort : tok.length < 64 := hc.short
  have hmax := hc.maxLen
  have h4 : maxNixieTubes = 4 := rfl
  exact ⟨by omega, show _ ≤ 136 by omega⟩

/-- **One piece.** All checks pass. -/
theorem bufferReceivedChecked_eq (hc : ScanConfig tok d) (h : Bounded d) (received : Received) :
    bufferReceivedChecked d received = some (bufferReceivedCallback d received) ∧
      Bounded (bufferReceivedCallback d received) := by
  obtain ⟨buffer, hb⟩ := received
  have hsize : cyclicBufferSize = 136 := rfl
  have hle := h.len
  have hmax := h.max
  have hroom : sizeSub d.maxCyclicBufferLen d.cyclicBufferLen =
      d.maxCyclicBufferLen - d.cyclicBufferLen := sizeSub_eq hle (by omega)
  have hstore : d.tokenLen + d.numNixies ≤ d.maxCyclicBufferLen := by
    rw [hc.tokenLen, hc.numNixies, hc.maxLen]
    omega
  unfold bufferReceivedChecked bufferReceivedCallback
  simp only [hroom, checkedSub_eq hle, Option.bind_eq_bind, Option.bind_some, minZz_eq]
  split
  · exact ⟨rfl, h⟩
  · generalize hk : min buffer.length (d.maxCyclicBufferLen - d.cyclicBufferLen) = k
    have hfits : d.cyclicBufferLen + k ≤ d.maxCyclicBufferLen := by omega
    have happend : appendChecked d buffer 0 k = some (appendToCyclicBuffer d buffer k) :=
      appendChecked_eq h hfits (by omega)
    have hbounded := (bounded_append h hfits : Bounded (appendToCyclicBuffer d buffer k))
    have hc' := (appendToCyclicBuffer_same d buffer k).config hc
    have hlen : (appendToCyclicBuffer d buffer k).cyclicBufferLen = d.cyclicBufferLen + k := rfl
    have hsame : (appendToCyclicBuffer d buffer k).tokenLen = d.tokenLen ∧
        (appendToCyclicBuffer d buffer k).numNixies = d.numNixies ∧
        (appendToCyclicBuffer d buffer k).maxCyclicBufferLen = d.maxCyclicBufferLen :=
      ⟨rfl, rfl, rfl⟩
    simp only [happend, Option.bind_some]
    generalize appendToCyclicBuffer d buffer k = d₁ at *
    obtain ⟨htoken, hnum, hmaxLen⟩ := hsame
    rw [← htoken, ← hnum]
    rw [← htoken, ← hnum, ← hmaxLen] at hstore
    cases hglued : strstrLen (d₁.cyclicBuffer.read 0 d₁.cyclicBufferLen) (cstr d₁.token.toList) with
    | some q =>
      have hbound := strstrLen_bound hc' hglued
      rw [Buf.length_read _ (by omega)] at hbound
      exact tokenInCyclicBufferChecked_eq hbounded (by omega) (by omega) hb
    | none =>
      cases hnew : strstrLen buffer (cstr d₁.token.toList) with
      | none => exact keepTailChecked_eq hbounded (by omega) hb hstore
      | some q => exact tokenInNewBufferChecked_eq hbounded (strstrLen_bound hc' hnew) hb hstore

/-- The end of a response: the token, if it is kept, is at the front. -/
theorem requestHandledChecked_eq {v : Buf maxNixieTubes} {R : List UInt8} (hc : ScanConfig tok d)
    (h : Bounded d) (hscan : Scan tok v R d) :
    requestHandledChecked d = some (requestHandledCallback d) := by
  have hsize : cyclicBufferSize = 136 := rfl
  have hle := h.len
  have hmax := h.max
  have hkept : parseKeptChecked d = some (parseKeptValue d) := by
    unfold parseKeptChecked parseKeptValue
    cases hparsed : d.isValueParsed with
    | true => rfl
    | false =>
      cases hfound : strstrLen (d.cyclicBuffer.read 0 d.cyclicBufferLen) (cstr d.token.toList) with
      | none => rfl
      | some q =>
        have hbound := strstrLen_bound hc hfound
        rw [Buf.length_read _ (by omega)] at hbound
        have hvalue : sizeSub d.cyclicBufferLen d.tokenLen = d.cyclicBufferLen - d.tokenLen :=
          sizeSub_eq (by omega) (by omega)
        have hq := hfound
        rw [hc.token] at hq
        have hfirst := (strstrLen_eq_some hc.nonempty).mp hq
        obtain rfl : q = 0 := by
          cases hscan with
          | absent ha _ _ hkeeps =>
            rw [hkeeps.read] at hfirst
            have habs : Absent tok (R.drop (R.length - (tok.length + maxNixieTubes))) := by
              have : Absent tok (R.take (R.length - (tok.length + maxNixieTubes)) ++
                  R.drop (R.length - (tok.length + maxNixieTubes))) := by
                rwa [List.take_append_drop]
              exact this.right
            exact absurd habs hfirst.not_absent
          | waiting p hp _ _ hkeeps =>
            rw [hkeeps.read] at hfirst
            exact hfirst.unique ⟨hp.here, fun r hr => absurd hr (Nat.not_lt_zero r)⟩
          | parsed p _ hp =>
            rw [hparsed] at hp
            cases hp
        simp only [checkedSub_eq (show d.tokenLen ≤ d.cyclicBufferLen by omega), hvalue,
          Option.bind_eq_bind, Option.bind_some]
        rfl
  unfold requestHandledChecked requestHandledCallback
  simp only [hkept, Option.bind_eq_bind, Option.bind_some]

/-! ## A whole response -/

/-- The pieces of a response: all checks pass, and the module stays in bounds. -/
theorem foldlM_checked (hc : ScanConfig tok d) (h : Bounded d) (chunks : List Received) :
    chunks.foldlM bufferReceivedChecked d = some (chunks.foldl bufferReceivedCallback d) ∧
      Bounded (chunks.foldl bufferReceivedCallback d) := by
  induction chunks generalizing d with
  | nil => exact ⟨rfl, h⟩
  | cons r chunks ih =>
    obtain ⟨hone, hbounded⟩ := bufferReceivedChecked_eq hc h r
    have hc' := (bufferReceivedCallback_same d r).config hc
    rw [List.foldlM_cons, hone]
    exact ih hc' hbounded

/-- What the cyclic buffer holds after the bytes `R` of a response, before a value is parsed. -/
inductive Represents (tok R : List UInt8) (d : AppNixieData) : Prop
  | absent (h : Absent tok R)
      (keeps : Keeps d (R.drop (R.length - min R.length (tok.length + maxNixieTubes))))
  | waiting (p : Nat) (h : FirstAt tok R p) (keeps : Keeps d (R.drop p))
      (short : d.cyclicBufferLen < tok.length + maxNixieTubes)

theorem Scan.represents {v : Buf maxNixieTubes} {R : List UInt8} (h : Scan tok v R d)
    (hp : d.isValueParsed = false) : Represents tok R d := by
  cases h with
  | absent ha _ _ hkeeps =>
    refine .absent ha ?_
    rwa [show R.length - min R.length (tok.length + maxNixieTubes) =
      R.length - (tok.length + maxNixieTubes) by omega]
  | waiting p hf _ _ hkeeps hshort =>
    have h4 : maxNixieTubes = 4 := rfl
    refine .waiting p hf hkeeps ?_
    rw [hkeeps.1, List.length_drop]
    omega
  | parsed p _ hparsed =>
    rw [hp] at hparsed
    cases hparsed

/-- The module that has submitted its request to an idle client. -/
theorem submitted_eq {κ : Type} (self : κ) (d : AppNixieData) {client : AppHTTPSClientData κ}
    (hidle : appHttpsClientIsBusy client = false) :
    (waitHttpsClientAndSendRequest self d client).1 =
      { d with isValueParsed := false, cyclicBufferLen := 0, state := .waitHttpsResponse } := by
  unfold waitHttpsClientAndSendRequest appHttpsClientRequest
  simp only [hidle, Bool.false_eq_true, if_false]

/-- **The cyclic buffer.** After any pieces of a response to a request: no subtraction of sizes has
wrapped around, no copy has left its buffers and every length that was stored was in bounds; the same
goes for the end of the response; and while no value is parsed the buffer holds the last bytes of what
has been received, or all from the token on. -/
theorem cyclicBuffer_invariant {κ : Type} (self : κ) (client : AppHTTPSClientData κ)
    (hidle : appHttpsClientIsBusy client = false) (hc : ScanConfig tok d) (chunks : List Received) :
    let submitted := (waitHttpsClientAndSendRequest self d client).1
    let d' := chunks.foldl bufferReceivedCallback submitted
    chunks.foldlM bufferReceivedChecked submitted = some d' ∧
      requestHandledChecked d' = some (requestHandledCallback d') ∧ Bounded d' ∧
      (d'.isValueParsed = false → Represents tok (response chunks) d') := by
  intro submitted d'
  have hsubmitted : submitted = _ := submitted_eq self d hidle
  have hsame : SameButResponse d submitted := ⟨by rw [hsubmitted]⟩
  have hc₀ := hsame.config hc
  have hl : submitted.cyclicBufferLen = 0 := by rw [hsubmitted]
  have hp : submitted.isValueParsed = false := by rw [hsubmitted]
  have hscan := foldl_scan hc₀ (scan_reset hc₀ hp hl) chunks
  rw [List.nil_append] at hscan
  have hc' : ScanConfig tok d' := (foldl_same submitted chunks).config hc₀
  obtain ⟨hchecked, hbounded⟩ := foldlM_checked hc₀ (bounded_of_config hc₀ hl) chunks
  exact ⟨hchecked, requestHandledChecked_eq hc' hbounded hscan, hbounded, hscan.represents⟩

/-- The default token in three pieces, with two bytes behind it. -/
theorem cyclicBuffer_default :
    let d := (appNixieInitialize AppNixieData.zeroed AppShiftRegisterData.zeroed).1
    let submitted := (waitHttpsClientAndSendRequest 0 d (.zeroed Nat)).1
    Represents defaultToken (lit "<b>Open Tasks>Open Tasks (4")
      ([(⟨lit "<b>Open Ta", by decide⟩ : Received), ⟨lit "sks>Open Tas", by decide⟩,
        ⟨lit "ks (4", by decide⟩].foldl bufferReceivedCallback submitted) :=
  (cyclicBuffer_invariant 0 (.zeroed Nat) rfl
    (appNixieInitialize_scanConfig AppNixieData.zeroed AppShiftRegisterData.zeroed)
    [⟨lit "<b>Open Ta", by decide⟩, ⟨lit "sks>Open Tas", by decide⟩, ⟨lit "ks (4", by decide⟩]).2.2.2
    (by decide +kernel)

end Checks

end NixieTracker
