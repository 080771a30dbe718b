import NixieTracker.Nixie.Data

/-!
# The value in a server response

What `parseValueFromBuffer` and `shuffleServerValueDigits` leave in `display_value`, for a display of
up to `MAX_NIXIE_TUBES` tubes.

* `leadingDigits n bytes`: the run of decimal digits at the start of `bytes`, cut to `n` digits.
* `parseValueFromBuffer_getElem`: the digits stand at the most significant end, the first one
  highest; the tubes that are left hold `'\0'`.
* `shuffledDigits_getElem`: after the shuffle the last digit stands at index `0`, and `'0'` fills
  the most significant end.
-/

namespace NixieTracker

open Lib

/-- The run of decimal digits at the start, cut to `n` digits. -/
def leadingDigits (n : Nat) (bytes : List UInt8) : List UInt8 := (bytes.takeWhile isDigit).take n

theorem length_leadingDigits (n : Nat) (bytes : List UInt8) : (leadingDigits n bytes).length ≤ n := by
  rw [leadingDigits, List.length_take]
  exact Nat.min_le_left ..

theorem leadingDigits_eq_takeWhile (n : Nat) (bytes : List UInt8) :
    leadingDigits n bytes = (bytes.take n).takeWhile isDigit := List.take_takeWhile

/-- `n` bytes decide about the first `n` digits. -/
theorem leadingDigits_append {n : Nat} {bytes : List UInt8} (h : n ≤ bytes.length)
    (rest : List UInt8) : leadingDigits n (bytes ++ rest) = leadingDigits n bytes := by
  rw [leadingDigits_eq_takeWhile, leadingDigits_eq_takeWhile, List.take_append_of_le_length h]

theorem isDigit_ne_zero {ch : UInt8} (h : isDigit ch = true) : ch ≠ 0 := by
  rintro rfl
  cases h

theorem leadingDigits_ne_zero {n i : Nat} {bytes : List UInt8}
    (hi : i < (leadingDigits n bytes).length) : (leadingDigits n bytes)[i] ≠ 0 := by
  have hm : (leadingDigits n bytes)[i] ∈ bytes.takeWhile isDigit :=
    List.mem_of_mem_take (List.getElem_mem hi)
  exact isDigit_ne_zero (List.mem_takeWhile_imp hm)

/-! ## The loops of `parseValueFromBuffer` -/

theorem sizeSub_index {n index : Nat} (hn : n ≤ maxNixieTubes) (h : index < n) :
    sizeSub (sizeSub n index) 1 = n - index - 1 := by
  have : n ≤ 4 := hn
  rw [sizeSub_eq (a := n) (by omega) (by omega), sizeSub_eq (by omega) (by omega)]

/-- An index past the tubes wraps around, far out of the array. -/
theorem sizeSub_index_wraps {n index : Nat} (hn : n ≤ index) (h : index < maxNixieTubes) :
    maxNixieTubes ≤ sizeSub (sizeSub n index) 1 := by
  have : index < 4 := h
  show 4 ≤ _
  unfold sizeSub
  omega

theorem copyDigits_index (n : Nat) (v : Buf maxNixieTubes) (index : Nat) (bytes : List UInt8) :
    (copyDigits n v index bytes).2 = index + (bytes.takeWhile isDigit).length := by
  induction bytes generalizing v index with
  | nil => rfl
  | cons ch bytes ih =>
    rw [copyDigits, List.takeWhile_cons]
    split
    · rw [ih, List.length_cons]
      omega
    · rfl

theorem copyDigits_getElem {n index j : Nat} (v : Buf maxNixieTubes) {bytes : List UInt8}
    (hn : n ≤ maxNixieTubes) (hb : index + bytes.length ≤ n) (hj : j < maxNixieTubes) :
    (copyDigits n v index bytes).1[j] =
      if n - index ≤ j then v[j] else ((bytes.takeWhile isDigit)[n - index - 1 - j]?).getD v[j] := by
  induction bytes generalizing v index with
  | nil => simp [copyDigits]
  | cons ch bytes ih =>
    rw [List.length_cons] at hb
    rw [copyDigits, List.takeWhile_cons]
    by_cases hd : isDigit ch = true
    · rw [if_pos hd, if_pos hd, ih _ (by omega), sizeSub_index hn (by omega),
        Vector.getElem_setIfInBounds]
      rcases Nat.lt_trichotomy j (n - index - 1) with hlt | heq | hgt
      · rw [if_neg (by omega), if_neg (by omega), if_neg (by omega),
          show n - index - 1 - j = (n - (index + 1) - 1 - j) + 1 by omega, List.getElem?_cons_succ]
      · subst heq
        rw [if_pos (by omega), if_pos rfl, if_neg (by omega), Nat.sub_self]
        rfl
      · rw [if_pos (by omega), if_neg (by omega), if_pos (by omega)]
    · rw [if_neg hd, if_neg hd]
      simp

theorem zeroUnusedDigits_getElem {n index j : Nat} (v : Buf maxNixieTubes)
    (hn : n ≤ maxNixieTubes) (hj : j < maxNixieTubes) :
    (zeroUnusedDigits n v index)[j] = if j < n - index then 0 else v[j] := by
  have loop : ∀ (k index : Nat) (v : Buf maxNixieTubes), index + k = maxNixieTubes →
      ((List.range' index k).foldl
        (fun v index => v.setIfInBounds (sizeSub (sizeSub n index) 1) 0) v)[j] =
        if j < n - index then 0 else v[j] := by
    intro k
    induction k with
    | zero =>
      intro index v h
      rw [if_neg (by omega)]
      rfl
    | succ k ih =>
      intro index v h
      rw [List.range'_succ, List.foldl_cons, ih _ _ (by omega), Vector.getElem_setIfInBounds]
      by_cases hi : index < n
      · rw [sizeSub_index hn hi]
        by_cases hj : j < n - index
        · rw [if_pos hj]
          split
          · rfl
          · rw [if_pos (by omega)]
        · rw [if_neg (by omega), if_neg (by omega), if_neg hj]
      · have := sizeSub_index_wraps (Nat.le_of_not_lt hi) (by omega)
        rw [if_neg (by omega), if_neg (by omega), if_neg (by omega)]
  unfold zeroUnusedDigits
  by_cases h : index ≤ maxNixieTubes
  · exact loop _ _ _ (by omega)
  · rw [Nat.sub_eq_zero_of_le (by omega), if_neg (by omega)]
    rfl

/-- The display after the parser: the first digit at the most significant end. -/
theorem parseValueFromBuffer_getElem {d : AppNixieData} (buffer : List UInt8) {j : Nat}
    (hn : d.numNixies ≤ maxNixieTubes) (hj : j < d.numNixies) :
    (parseValueFromBuffer d buffer).displayValue[j] =
      ((leadingDigits d.numNixies buffer)[d.numNixies - 1 - j]?).getD 0 := by
  have hj' : j < maxNixieTubes := by omega
  have hlen : (buffer.take (minZz buffer.length d.numNixies)) = buffer.take d.numNixies := by
    rw [minZz_eq]
    rcases Nat.le_total buffer.length d.numNixies with h | h
    · rw [Nat.min_eq_left h, List.take_of_length_le h, List.take_of_length_le (Nat.le_refl _)]
    · rw [Nat.min_eq_right h]
  have htake : (buffer.take d.numNixies).length ≤ d.numNixies := List.length_take_le ..
  show (zeroUnusedDigits _ (copyDigits _ _ _ (buffer.take (minZz _ _))).1
    (copyDigits _ _ _ (buffer.take (minZz _ _))).2)[j] = _
  rw [hlen, zeroUnusedDigits_getElem _ hn hj', copyDigits_index, copyDigits_getElem _ hn (by omega) hj',
    ← leadingDigits_eq_takeWhile]
  simp only [Nat.zero_add, Nat.sub_zero]
  by_cases h : d.numNixies - 1 - j < (leadingDigits d.numNixies buffer).length
  · rw [if_neg (by omega), if_neg (by omega), List.getElem?_eq_getElem h]
    rfl
  · rw [if_pos (by omega), List.getElem?_eq_none (by omega)]
    rfl

/-- The display of a full set of tubes. -/
def parsedDisplay (ds : List UInt8) : Buf maxNixieTubes :=
  Vector.ofFn fun j => (ds[maxNixieTubes - 1 - j.val]?).getD 0

theorem parseValueFromBuffer_displayValue {d : AppNixieData} (hn : d.numNixies = maxNixieTubes)
    (buffer : List UInt8) :
    (parseValueFromBuffer d buffer).displayValue =
      parsedDisplay (leadingDigits maxNixieTubes buffer) := by
  apply Vector.ext
  intro j hj
  rw [parseValueFromBuffer_getElem buffer (by omega) (by omega), hn]
  simp [parsedDisplay]

/-! ## The shuffle -/

/-- A display that holds digits the way the parser leaves them. -/
structure HoldsDigits (d : AppNixieData) (ds : List UInt8) : Prop where
  short : ds.length ≤ d.numNixies
  nonzero : ∀ i (h : i < ds.length), ds[i] ≠ 0
  at_index : ∀ j (_ : j < d.numNixies) (h : j < maxNixieTubes),
    d.displayValue[j] = (ds[d.numNixies - 1 - j]?).getD 0

theorem length_takeWhile_eq {α : Type} {p : α → Bool} {l : List α} {k : Nat} (hk : k ≤ l.length)
    (hp : ∀ i (h : i < l.length), i < k → p l[i] = true)
    (hq : ∀ (h : k < l.length), p l[k] = false) : (l.takeWhile p).length = k := by
  induction l generalizing k with
  | nil => simpa using (Nat.le_zero.mp hk).symm
  | cons a l ih =>
    cases k with
    | zero =>
      have ha : p a = false := hq (by simp)
      rw [List.takeWhile_cons_of_neg (by simp [ha])]
      rfl
    | succ k =>
      have ha : p a = true := hp 0 (by simp) (by omega)
      rw [List.takeWhile_cons_of_pos ha, List.length_cons, Nat.add_right_cancel_iff]
      apply ih
      · simpa using hk
      · intro i h hi
        exact hp (i + 1) (by simpa using h) (by omega)
      · intro h
        exact hq (by simpa using h)

theorem numLeadingNull_eq {d : AppNixieData} {ds : List UInt8} (hn : d.numNixies ≤ maxNixieTubes)
    (h : HoldsDigits d ds) : numLeadingNull d = d.numNixies - ds.length := by
  have hs := h.short
  unfold numLeadingNull
  have hlen : (d.displayValue.toList.take d.numNixies).length = d.numNixies := by
    rw [List.length_take, Vector.length_toList]
    omega
  apply length_takeWhile_eq
  · omega
  · intro i hi hk
    rw [List.getElem_take, Vector.getElem_toList, h.at_index i (by omega) (by omega),
      List.getElem?_eq_none (by omega)]
    rfl
  · intro hi
    rw [List.getElem_take, Vector.getElem_toList, h.at_index _ (by omega) (by omega),
      List.getElem?_eq_getElem (by omega)]
    simpa using h.nonzero _ _

theorem foldl_setIfInBounds_getElem {n k j : Nat} (v : Buf maxNixieTubes) (hk : k ≤ n)
    (hj : j < maxNixieTubes) :
    ((List.range k).foldl (fun v a => v.setIfInBounds (n - a - 1) 48) v)[j] =
      if n - k ≤ j ∧ j < n then 48 else v[j] := by
  induction k with
  | zero =>
    rw [if_neg (by omega)]
    rfl
  | succ k ih =>
    rw [List.range_succ, List.foldl_append, List.foldl_cons, List.foldl_nil,
      Vector.getElem_setIfInBounds, ih (by omega)]
    by_cases h : n - (k + 1) ≤ j ∧ j < n
    · rw [if_pos h]
      split
      · rfl
      · rw [if_pos (by omega)]
    · rw [if_neg (by omega), if_neg (by omega), if_neg h]

/-- The display after the shuffle: the last digit at index `0`, `'0'` above the first one. -/
theorem shuffledDigits_getElem {d : AppNixieData} {ds : List UInt8} {j : Nat}
    (hn : d.numNixies ≤ maxNixieTubes) (h : HoldsDigits d ds) (hj : j < d.numNixies)
    (hj' : j < maxNixieTubes) : (shuffledDigits d)[j] = (ds.reverse[j]?).getD 48 := by
  have hs := h.short
  have hk := numLeadingNull_eq hn h
  have hrev : ∀ (hm : j < ds.length), (ds.reverse[j]?).getD 48 = ds[ds.length - 1 - j] := by
    intro hm
    rw [List.getElem?_eq_getElem (by simpa using hm), List.getElem_reverse]
    rfl
  unfold shuffledDigits
  simp only [hk]
  split
  · have hm : j < ds.length := by omega
    rw [h.at_index j hj hj', List.getElem?_eq_getElem (by omega), hrev hm]
    simp only [Option.getD_some]
    congr 1
    omega
  · rw [foldl_setIfInBounds_getElem _ (by omega) hj']
    have hread : (d.displayValue.read (d.numNixies - ds.length)
        (d.numNixies - (d.numNixies - ds.length))).length = ds.length := by
      rw [Buf.length_read _ (by omega)]
      omega
    by_cases hm : j < ds.length
    · rw [if_neg (by omega), Buf.getElem_write _ _ (by omega) (by omega),
        Buf.getElem_read _ _ (by omega), h.at_index _ (by omega), List.getElem?_eq_getElem (by omega),
        hrev hm]
      simp only [Option.getD_some]
      congr 1
      omega
    · rw [if_pos (by omega), List.getElem?_eq_none (by simpa using hm)]
      rfl

theorem holdsDigits_parsedDisplay {d : AppNixieData} {bytes : List UInt8}
    (hn : d.numNixies = maxNixieTubes)
    (hv : d.displayValue = parsedDisplay (leadingDigits maxNixieTubes bytes)) :
    HoldsDigits d (leadingDigits maxNixieTubes bytes) where
  short := hn ▸ length_leadingDigits ..
  nonzero _ h := leadingDigits_ne_zero h
  at_index j _ h := by
    rw [hn]
    simp [hv, parsedDisplay]

/-- The digits with the least significant one first, filled up with `'0'`. -/
theorem shuffledDigits_toList {d : AppNixieData} {ds : List UInt8}
    (hn : d.numNixies = maxNixieTubes) (h : HoldsDigits d ds) :
    (shuffledDigits d).toList = ds.reverse ++ List.replicate (maxNixieTubes - ds.length) 48 := by
  have hs := h.short
  apply List.ext_getElem
  · simp
    omega
  · intro j h1 h2
    rw [Vector.length_toList] at h1
    rw [Vector.getElem_toList, shuffledDigits_getElem (by omega) h (by omega) h1]
    by_cases hm : j < ds.length
    · rw [List.getElem_append_left (by simpa using hm), List.getElem?_eq_getElem (by simpa using hm)]
      rfl
    · rw [List.getElem_append_right (by simpa using hm), List.getElem?_eq_none (by simpa using hm)]
      simp

/-- The shuffle touches the display, the state and the pointers of a fetch. -/
theorem shuffleServerValueDigits_displayValue (d : AppNixieData) :
    (shuffleServerValueDigits d).1.displayValue = shuffledDigits d := by
  unfold shuffleServerValueDigits
  cases d.displayValueOut <;> rfl

end NixieTracker
