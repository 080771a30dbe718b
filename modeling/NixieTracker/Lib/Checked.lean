import NixieTracker.Lib.Buffer

/-!
# Checked sizes and copies

Arithmetic of `size_t` and copies that give no result where a C program would wrap around or leave its
arrays. A function that is written with them and has a result is one that never did so. The module
knows nothing of a particular program.

* `checkedSub`, `checkedAdd`: no wrap-around, as in `sizeSub_eq` and `sizeAdd_eq`.
* `checkedSet`: an assignment within its array.
* `Buf.checkedCopy`: `memcpy` and `memmove` within the source and the destination.
* `foldlM_eq_some`, `foldlM_eq_none`: a loop has a result if all its rounds have one.
-/

namespace Lib

/-- `a - b` of type `size_t`, where it does not wrap around. -/
def checkedSub (a b : Nat) : Option Nat := if b ≤ a then some (a - b) else none

/-- `a + b` of type `size_t`, where it does not wrap around. -/
def checkedAdd (a b : Nat) : Option Nat := if a + b < 2 ^ 32 then some (a + b) else none

theorem checkedSub_eq {a b : Nat} (h : b ≤ a) : checkedSub a b = some (a - b) := if_pos h

theorem checkedSub_eq_none {a b : Nat} (h : a < b) : checkedSub a b = none := if_neg (by omega)

theorem checkedAdd_eq {a b : Nat} (h : a + b < 2 ^ 32) : checkedAdd a b = some (a + b) := if_pos h

section Set

variable {α : Type} {n i : Nat}

/-- `v[i] = a`, where the index is inside. -/
def checkedSet (v : Vector α n) (i : Nat) (a : α) : Option (Vector α n) :=
  if i < n then some (v.setIfInBounds i a) else none

theorem checkedSet_eq (v : Vector α n) (a : α) (h : i < n) :
    checkedSet v i a = some (v.setIfInBounds i a) := if_pos h

theorem checkedSet_eq_none (v : Vector α n) (a : α) (h : n ≤ i) : checkedSet v i a = none :=
  if_neg (by omega)

end Set

/-- `len` bytes from `start` of `src` are copied to `off`, where both runs are inside. -/
def Buf.checkedCopy {n : Nat} (dst : Buf n) (off : Nat) (src : List UInt8) (start len : Nat) :
    Option (Buf n) :=
  if off + len ≤ n ∧ start + len ≤ src.length then some (dst.write off ((src.drop start).take len))
  else none

theorem Buf.checkedCopy_eq {n : Nat} (dst : Buf n) {off : Nat} {src : List UInt8} {start len : Nat}
    (hoff : off + len ≤ n) (hstart : start + len ≤ src.length) :
    dst.checkedCopy off src start len = some (dst.write off ((src.drop start).take len)) :=
  if_pos ⟨hoff, hstart⟩

/-- A copy within one buffer. -/
theorem Buf.checkedMove_eq {n : Nat} (b : Buf n) {off start len : Nat} (hoff : off + len ≤ n)
    (hstart : start + len ≤ n) :
    b.checkedCopy off b.toList start len = some (b.write off (b.read start len)) :=
  b.checkedCopy_eq hoff (by rwa [Vector.length_toList])

/-! ## Loops -/

section Loop

variable {σ α : Type} {f : σ → α → Option σ} {l : List α}

theorem foldlM_eq_some {g : σ → α → σ} (h : ∀ s, ∀ a ∈ l, f s a = some (g s a)) (s : σ) :
    l.foldlM f s = some (l.foldl g s) := by
  induction l generalizing s with
  | nil => rfl
  | cons a l ih =>
    rw [List.foldlM_cons, h s a (List.mem_cons_self ..)]
    exact ih (fun s b hb => h s b (List.mem_cons_of_mem _ hb)) _

theorem foldlM_eq_none {a : α} (ha : a ∈ l) (h : ∀ s, f s a = none) (s : σ) :
    l.foldlM f s = none := by
  induction l generalizing s with
  | nil => cases ha
  | cons b l ih =>
    rw [List.foldlM_cons]
    rcases List.mem_cons.mp ha with rfl | ha
    · rw [h]
      rfl
    · cases f s b with
      | none => rfl
      | some s => exact ih ha s

end Loop

end Lib
