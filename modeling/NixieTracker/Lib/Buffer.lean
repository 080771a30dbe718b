import Mathlib.Algebra.Group.Int.Defs
import Mathlib.Algebra.Group.Nat.Defs
import Mathlib.Data.List.TakeWhile

/-!
# Byte buffers, C strings and sizes

Fixed arrays of bytes as a C program uses them. The module knows nothing of a particular program.

* `Buf n`: an array of `n` bytes; `read`/`write` copy a run of bytes out of and into it
  (`memcpy`, `memmove`, `memset`). The part of a run that lies outside the array is dropped.
* `read_write`: what was written is read back; `read_write_of_disjoint`: elsewhere nothing changes.
* `take_write`: a write at `off` extends the first `off` bytes by the written ones.
* `Memory`: a byte-addressed memory; `load_store`: what was stored is loaded back.
* `cstr`: the characters before the first NUL.
* `sizeSub`/`sizeAdd`: arithmetic of the 32-bit `size_t`, with its wrap-around.
-/

namespace Lib

/-- An array of `n` bytes. -/
abbrev Buf (n : Nat) := Vector UInt8 n

/-- The characters of a C string in memory: those before the first NUL. -/
def cstr (bytes : List UInt8) : List UInt8 := bytes.takeWhile (· ≠ 0)

/-- `a - b` of type `size_t`. -/
def sizeSub (a b : Nat) : Nat := (a + 2 ^ 32 - b) % 2 ^ 32

/-- `a + b` of type `size_t`. -/
def sizeAdd (a b : Nat) : Nat := (a + b) % 2 ^ 32

theorem sizeAdd_eq {a b : Nat} (h : a + b < 2 ^ 32) : sizeAdd a b = a + b := Nat.mod_eq_of_lt h

theorem sizeSub_eq {a b : Nat} (h : b ≤ a) (ha : a < 2 ^ 32) : sizeSub a b = a - b := by
  unfold sizeSub
  omega

@[simp] theorem cstr_nil : cstr [] = [] := rfl

theorem zero_not_mem_cstr (bytes : List UInt8) : 0 ∉ cstr bytes := by
  intro h
  simpa using List.mem_takeWhile_imp h

theorem cstr_eq_self {bytes : List UInt8} (h : 0 ∉ bytes) : cstr bytes = bytes :=
  List.takeWhile_eq_self_iff.mpr fun b hb => by
    have : b ≠ 0 := fun h0 => h (h0 ▸ hb)
    simpa using this

/-- What stands behind the first NUL does not matter. -/
theorem cstr_append_zero (bytes rest : List UInt8) : cstr (bytes ++ 0 :: rest) = cstr bytes := by
  unfold cstr
  induction bytes with
  | nil => simp
  | cons b bytes ih =>
    rw [List.cons_append, List.takeWhile_cons, List.takeWhile_cons, ih]

theorem cstr_isPrefix (bytes : List UInt8) : cstr bytes <+: bytes := List.takeWhile_prefix _

/-- The character behind a string is NUL. -/
theorem getElem_length_cstr {bytes : List UInt8} (h : (cstr bytes).length < bytes.length) :
    bytes[(cstr bytes).length] = 0 := by
  induction bytes with
  | nil => cases h
  | cons b bytes ih =>
    by_cases hb : b = 0
    · subst hb
      rfl
    · have hc : cstr (b :: bytes) = b :: cstr bytes := by simp [cstr, hb]
      simp only [hc, List.length_cons, List.getElem_cons_succ]
      exact ih (by simpa [hc] using h)

namespace Buf

variable {n : Nat}

/-- The `len` bytes from `off` on. -/
def read (b : Buf n) (off len : Nat) : List UInt8 := (b.toList.drop off).take len

/-- The bytes from `off` on become `bytes`. Irreducible, so that states that differ by a write are
not compared byte by byte. -/
@[irreducible] def write (b : Buf n) (off : Nat) (bytes : List UInt8) : Buf n :=
  Vector.ofFn fun i => if off ≤ i.val then (bytes[i.val - off]?).getD b[i] else b[i]

theorem getElem_write_of_lt (b : Buf n) {off i : Nat} (bytes : List UInt8) (hn : i < n)
    (h : i < off) : (b.write off bytes)[i] = b[i] := by
  simp [write, Nat.not_le.mpr h]

theorem getElem_write_of_le (b : Buf n) {off i : Nat} (bytes : List UInt8) (hn : i < n)
    (h : off + bytes.length ≤ i) : (b.write off bytes)[i] = b[i] := by
  simp [write, show off ≤ i by omega, List.getElem?_eq_none (show bytes.length ≤ i - off by omega)]

theorem getElem_write (b : Buf n) {off i : Nat} {bytes : List UInt8} (hn : i < n) (h : off ≤ i)
    (hi : i - off < bytes.length) : (b.write off bytes)[i] = bytes[i - off] := by
  simp [write, h, List.getElem?_eq_getElem hi]

theorem length_read (b : Buf n) {off len : Nat} (h : off + len ≤ n) :
    (b.read off len).length = len := by
  simp only [read, List.length_take, List.length_drop, Vector.length_toList]
  omega

theorem getElem_read (b : Buf n) {off len i : Nat} (hi : i < (b.read off len).length)
    (hn : off + i < n) : (b.read off len)[i] = b[off + i] := by
  simp [read]

/-- What was written is read back. -/
theorem read_write (b : Buf n) {off : Nat} {bytes : List UInt8} (h : off + bytes.length ≤ n) :
    (b.write off bytes).read off bytes.length = bytes := by
  apply List.ext_getElem (length_read _ h)
  intro i h1 h2
  rw [getElem_read _ _ (by omega), getElem_write _ (by omega) (by omega) (by omega)]
  simp only [Nat.add_sub_cancel_left]

/-- Bytes outside the written run keep their value. -/
theorem read_write_of_disjoint (b : Buf n) {off o len : Nat} (bytes : List UInt8)
    (h : o + len ≤ off ∨ off + bytes.length ≤ o) : (b.write off bytes).read o len = b.read o len := by
  apply List.ext_getElem (by simp [read])
  intro i h1 h2
  have hi : i < len ∧ o + i < n := by
    simp only [read, List.length_take, List.length_drop, Vector.length_toList] at h2
    omega
  rw [getElem_read _ _ hi.2, getElem_read _ _ hi.2]
  rcases h with h | h
  · exact getElem_write_of_lt _ _ hi.2 (by omega)
  · exact getElem_write_of_le _ _ hi.2 (by omega)

/-- A write at `off` extends the first `off` bytes by the written ones. -/
theorem take_write (b : Buf n) {off : Nat} {bytes : List UInt8} (h : off + bytes.length ≤ n) :
    (b.write off bytes).read 0 (off + bytes.length) = b.read 0 off ++ bytes := by
  have hl : (b.read 0 off).length = off := length_read b (by omega)
  apply List.ext_getElem
  · rw [length_read _ (by omega), List.length_append, hl]
  intro i h1 h2
  rw [length_read _ (by omega)] at h1
  rw [getElem_read _ _ (by omega)]
  simp only [Nat.zero_add]
  by_cases hi : i < off
  · rw [List.getElem_append_left (by omega), getElem_read _ _ (by omega),
      getElem_write_of_lt _ _ (by omega) hi]
    simp only [Nat.zero_add]
  · rw [List.getElem_append_right (by omega), getElem_write _ (by omega) (by omega) (by omega)]
    simp only [hl]

/-- The byte behind the string that an array starts with. -/
theorem getElem_length_cstr (b : Buf n) (h : (cstr b.toList).length < n) :
    b[(cstr b.toList).length] = 0 := by
  have h' : (cstr b.toList).length < b.toList.length := by rwa [Vector.length_toList]
  rw [← Vector.getElem_toList h', Lib.getElem_length_cstr h']

theorem read_zero_eq_take (b : Buf n) (len : Nat) : b.read 0 len = b.toList.take len := by
  simp [read]

/-- The C string after a copy of `bytes` and a NUL to the start. -/
theorem cstr_write (b : Buf n) {bytes : List UInt8} (h : bytes.length < n) :
    cstr (b.write 0 (bytes ++ [0])).toList = cstr bytes := by
  have hlen : (bytes ++ [0]).length = bytes.length + 1 := by simp
  have hw : (b.write 0 (bytes ++ [0])).read 0 (bytes ++ [0]).length = bytes ++ [0] :=
    read_write b (by omega)
  rw [read_zero_eq_take] at hw
  rw [← List.take_append_drop (bytes ++ [0]).length (b.write 0 (bytes ++ [0])).toList, hw,
    List.append_assoc]
  exact cstr_append_zero bytes _

/-- A run within the first `len` bytes. -/
theorem read_eq_read_zero (b : Buf n) {off len k : Nat} (h : off + k ≤ len) :
    b.read off k = ((b.read 0 len).drop off).take k := by
  simp only [read, List.drop_zero, List.drop_take, List.take_take]
  rw [Nat.min_eq_left (by omega)]

end Buf

/-- A byte-addressed memory. -/
abbrev Memory := Nat → UInt8

namespace Memory

/-- The bytes from the address on become `bytes`. -/
def store (m : Memory) (address : Nat) (bytes : List UInt8) : Memory := fun a =>
  if address ≤ a then (bytes[a - address]?).getD (m a) else m a

/-- The `len` bytes from the address on. -/
def load (m : Memory) (address len : Nat) : List UInt8 :=
  (List.range len).map fun i => m (address + i)

theorem load_succ (m : Memory) (address len : Nat) :
    m.load address (len + 1) = m address :: m.load (address + 1) len := by
  simp [load, List.range_succ_eq_map, Nat.add_assoc, Nat.add_comm 1]

/-- What was stored is loaded back. -/
theorem load_store (m : Memory) (address : Nat) (bytes : List UInt8) :
    (m.store address bytes).load address bytes.length = bytes := by
  apply List.ext_getElem (by simp [load])
  intro i h1 h2
  simp [load, store, List.getElem?_eq_getElem h2]

end Memory

end Lib
