import NixieTracker.Lib.Search
import NixieTracker.Lib.Buffer

/-!
# Strings and memory (`util_string.c`, `util_math.c`, `gcc/memmem.c`)

The string functions of the firmware, and what the C library ones do that it calls.

A function that stays within a given number of bytes takes them as a list. One that may run past
the end of a string takes the `Memory` that the string lies in and an offset for each pointer.
-/

namespace NixieTracker

open Lib

/-- `min_zz`. -/
def minZz (a b : Nat) : Nat := if a < b then a else b

theorem minZz_eq (a b : Nat) : minZz a b = min a b := by
  unfold minZz
  split <;> omega

/-- The characters of a string literal. -/
def lit (s : String) : List UInt8 := s.toList.map fun c => UInt8.ofNat c.toNat

/-- The memory of a string literal. -/
def litMem (s : String) : Memory := fun i => ((lit s)[i]?).getD 0

/-! ## Searching -/

/-- The loop of `memmem`, with `n` positions left from `begin` to `last_possible`. -/
def memmemLoop (haystack needle : List UInt8) (begin : Nat) : Nat → Option Nat
  | 0 => none
  | n + 1 =>
    if haystack[begin]? = needle[0]? ∧
        (haystack.drop (begin + 1)).take (needle.length - 1) = needle.drop 1 then
      some begin
    else memmemLoop haystack needle (begin + 1) n

/-- `memmem`, as an offset into `haystack`. -/
def memmem (haystack needle : List UInt8) : Option Nat :=
  if needle.length = 0 then some 0
  else if haystack.length < needle.length then none
  else memmemLoop haystack needle 0 (haystack.length - needle.length + 1)

/-- `strstr_len`: `needle` holds the characters of the C string. -/
def strstrLen (haystack needle : List UInt8) : Option Nat := memmem haystack needle

/-- `strchr_len`. -/
def strchrLen (mem : Memory) (haystack : Nat) (needle : UInt8) : Nat → Option Nat
  | 0 => none
  | n + 1 =>
    if mem haystack = 0 then none
    else if mem haystack = needle then some haystack
    else strchrLen mem (haystack + 1) needle n

/-- `strchr_any_len`. -/
def strchrAnyLen (mem : Memory) (haystack : Nat) (needles : List UInt8) : Nat → Option Nat
  | 0 => none
  | n + 1 =>
    if mem haystack = 0 then none
    else if mem haystack ∈ needles then some haystack
    else strchrAnyLen mem (haystack + 1) needles n

/-- `strncmp(a, b, n) == 0`. -/
def streqLen (a : Memory) (p : Nat) (b : Memory) (q : Nat) : Nat → Bool
  | 0 => true
  | n + 1 =>
    if a p ≠ b q then false
    else if a p = 0 then true
    else streqLen a (p + 1) b (q + 1) n

/-! ## Copying -/

/-- `dst` after `memcpy` of `bytes` to its start. -/
def copyTo (dst bytes : List UInt8) : List UInt8 := bytes ++ dst.drop bytes.length

/-- `safe_strnlen` of a string in an array; behind the array there are no characters. -/
def safeStrnlen : List UInt8 → Nat → Nat
  | [], _ => 0
  | _, 0 => 0
  | b :: s, n + 1 => if b = 0 then 0 else safeStrnlen s n + 1

/-- `safe_strncpy` to an array, of which it may fill `maxCopy` bytes. -/
def safeStrncpy {n : Nat} (dst : Buf n) (src : List UInt8) (maxCopy : Nat) : Buf n :=
  if maxCopy = 0 then dst else dst.write 0 (src.take (safeStrnlen src (maxCopy - 1)) ++ [0])

/-- `safe_strncpy_len` to the memory at `dst`, which is left alone if it is `NULL`. -/
def safeStrncpyLen (dst : Option (List UInt8)) (mem : Memory) (src len maxCopy : Nat) :
    Option (List UInt8) :=
  dst.map fun old =>
    if maxCopy = 0 then old else copyTo old (mem.load src (minZz len (maxCopy - 1)) ++ [0])

/-! ## `atoi` -/

def isDigit (ch : UInt8) : Bool := 48 ≤ ch && ch ≤ 57

/-- `isspace` of the C locale. -/
def isSpace (ch : UInt8) : Bool := ch = 32 || (9 ≤ ch && ch ≤ 13)

/-- The value of a run of decimal digits. -/
def digitsValue (ds : List UInt8) : Nat := ds.foldl (fun n ch => 10 * n + (ch.toNat - 48)) 0

/-- `atoi` of a C string, as `strtol` with base 10 and a 32-bit `long`: blanks, a sign, digits; a
value outside the range is clamped to it. -/
def atoi (s : List UInt8) : Int :=
  let s := s.dropWhile isSpace
  let magnitude (t : List UInt8) : Int := digitsValue (t.takeWhile isDigit)
  let value := match s with
    | 45 :: t => -magnitude t
    | 43 :: t => magnitude t
    | t => magnitude t
  max (-2 ^ 31) (min value (2 ^ 31 - 1))

/-- The conversion to `uint16_t`. -/
def toUInt16 (i : Int) : UInt16 := UInt16.ofNat (i % 2 ^ 16).toNat

/-! ## What the searches find -/

theorem occursAt_iff_begin {haystack needle : List UInt8} {p : Nat} (hne : needle ≠ []) :
    OccursAt needle haystack p ↔ haystack[p]? = needle[0]? ∧
      (haystack.drop (p + 1)).take (needle.length - 1) = needle.drop 1 := by
  cases needle with
  | nil => exact absurd rfl hne
  | cons a needle =>
    unfold OccursAt
    by_cases hp : p < haystack.length
    · rw [List.drop_eq_getElem_cons hp, List.cons_prefix_cons, List.prefix_iff_eq_take,
        List.getElem?_eq_getElem hp]
      simp only [List.getElem?_cons_zero, List.length_cons, Nat.add_sub_cancel, List.drop_one,
        List.tail_cons, Option.some.injEq]
      exact ⟨fun ⟨h1, h2⟩ => ⟨h1.symm, h2.symm⟩, fun ⟨h1, h2⟩ => ⟨h1.symm, h2.symm⟩⟩
    · rw [List.drop_eq_nil_of_le (by omega), List.getElem?_eq_none (by omega)]
      simp

theorem memmemLoop_eq_some {haystack needle : List UInt8} (hne : needle ≠ []) {begin n p : Nat} :
    memmemLoop haystack needle begin n = some p ↔
      begin ≤ p ∧ p < begin + n ∧ OccursAt needle haystack p ∧
        ∀ q, begin ≤ q → q < p → ¬ OccursAt needle haystack q := by
  induction n generalizing begin with
  | zero => simp only [memmemLoop, reduceCtorEq, false_iff]; omega
  | succ n ih =>
    rw [memmemLoop]
    simp only [← occursAt_iff_begin hne]
    by_cases h : OccursAt needle haystack begin
    · rw [if_pos h]
      constructor
      · rintro ⟨⟩
        exact ⟨le_rfl, by omega, h, by omega⟩
      · rintro ⟨h1, -, -, h4⟩
        rcases Nat.eq_or_lt_of_le h1 with rfl | hlt
        · rfl
        · exact absurd h (h4 begin le_rfl hlt)
    · rw [if_neg h, ih]
      constructor
      · rintro ⟨h1, h2, h3, h4⟩
        refine ⟨by omega, by omega, h3, fun q hq hqp => ?_⟩
        rcases Nat.eq_or_lt_of_le hq with rfl | hlt
        · exact h
        · exact h4 q hlt hqp
      · rintro ⟨h1, h2, h3, h4⟩
        have hne' : begin ≠ p := fun he => h (he ▸ h3)
        exact ⟨by omega, by omega, h3, fun q hq hqp => h4 q (by omega) hqp⟩

/-- `memmem` finds the first occurrence. -/
theorem memmem_eq_firstOcc {haystack needle : List UInt8} (hne : needle ≠ []) :
    memmem haystack needle = firstOcc needle haystack := by
  have hpos := List.length_pos_iff.mpr hne
  apply Option.ext
  intro p
  rw [firstOcc_eq_some hne, memmem, if_neg (by omega)]
  split
  · rename_i hlt
    simp only [reduceCtorEq, false_iff]
    intro h
    have := h.here.bound hne
    omega
  · rw [memmemLoop_eq_some hne]
    constructor
    · rintro ⟨-, -, h3, h4⟩
      exact ⟨h3, fun q hq => h4 q (Nat.zero_le q) hq⟩
    · intro h
      have := h.here.bound hne
      exact ⟨Nat.zero_le p, by omega, h.here, fun q _ hq => h.before q hq⟩

theorem strstrLen_eq_some {haystack needle : List UInt8} (hne : needle ≠ []) {p : Nat} :
    strstrLen haystack needle = some p ↔ FirstAt needle haystack p := by
  rw [strstrLen, memmem_eq_firstOcc hne, firstOcc_eq_some hne]

theorem strstrLen_eq_none {haystack needle : List UInt8} (hne : needle ≠ []) :
    strstrLen haystack needle = none ↔ Absent needle haystack := by
  rw [strstrLen, memmem_eq_firstOcc hne, firstOcc_eq_none hne]

/-! ## What the copies leave -/

theorem safeStrnlen_eq (s : List UInt8) (n : Nat) : safeStrnlen s n = (cstr (s.take n)).length := by
  induction s generalizing n with
  | nil => simp [safeStrnlen]
  | cons b s ih =>
    cases n with
    | zero => simp [safeStrnlen]
    | succ n =>
      rw [safeStrnlen, List.take_succ_cons, cstr, List.takeWhile_cons]
      by_cases hb : b = 0
      · simp [hb]
      · simp [hb, ih, cstr]

/-- The array holds the start of the string, as much of it as fits, and a NUL. -/
theorem cstr_safeStrncpy {n maxCopy : Nat} (dst : Buf n) (src : List UInt8) (h1 : 0 < maxCopy)
    (hn : maxCopy ≤ n) :
    cstr (safeStrncpy dst src maxCopy).toList = cstr (src.take (maxCopy - 1)) := by
  have hlen : (cstr (src.take (maxCopy - 1))).length ≤ maxCopy - 1 := by
    have := (List.takeWhile_prefix (l := src.take (maxCopy - 1)) (· ≠ 0)).length_le
    rw [List.length_take] at this
    unfold cstr
    omega
  have hsrc : src.take (cstr (src.take (maxCopy - 1))).length = cstr (src.take (maxCopy - 1)) := by
    have h := List.prefix_iff_eq_take.mp
      ((List.takeWhile_prefix (l := src.take (maxCopy - 1)) (· ≠ 0)).trans (List.take_prefix ..))
    exact h.symm
  unfold safeStrncpy
  rw [if_neg (by omega), safeStrnlen_eq, hsrc]
  rw [Buf.cstr_write dst (by omega)]
  exact cstr_eq_self (zero_not_mem_cstr _)

end NixieTracker
