import Mathlib.Data.List.Basic

/-!
# The first occurrence of a word

Where a word stands in a sequence that is known only in parts. The module knows nothing of a
particular program.

* `OccursAt pat s p`: the word `pat` stands in `s` at position `p`; `FirstAt` for the first such
  position, `Absent` for none.
* `firstOcc pat s`: that position, computed.
* `FirstAt.append`: more items behind a first occurrence do not move it.
* `firstAt_absent_append`: where `pat` is absent from `a ++ b`, its first occurrence in `b ++ c`
  is the one in `a ++ (b ++ c)`, if `b` separates `a` from `c` (`Separates`).
-/

namespace Lib

variable {α : Type} {pat s t a b c : List α} {p q : Nat}

/-- `pat` stands in `s` at position `p`. -/
def OccursAt (pat s : List α) (p : Nat) : Prop := pat <+: s.drop p

instance [DecidableEq α] (pat s : List α) (p : Nat) : Decidable (OccursAt pat s p) :=
  inferInstanceAs (Decidable (pat <+: s.drop p))

/-- `pat` stands in `s` at position `p` and at no smaller one. -/
structure FirstAt (pat s : List α) (p : Nat) : Prop where
  here : OccursAt pat s p
  before : ∀ q < p, ¬ OccursAt pat s q

/-- `pat` stands nowhere in `s`. -/
def Absent (pat s : List α) : Prop := ∀ p, ¬ OccursAt pat s p

theorem OccursAt.bound (h : OccursAt pat s p) (hne : pat ≠ []) : p + pat.length ≤ s.length := by
  have hlen := h.length_le
  have := List.length_pos_iff.mpr hne
  rw [List.length_drop] at hlen
  omega

theorem OccursAt.infix (h : OccursAt pat s p) : pat <:+: s :=
  h.isInfix.trans (List.drop_suffix p s).isInfix

theorem occursAt_of_append (u v : List α) : OccursAt pat (u ++ pat ++ v) u.length := by
  unfold OccursAt
  rw [List.append_assoc, List.drop_left]
  exact List.prefix_append pat v

theorem absent_iff : Absent pat s ↔ ¬ pat <:+: s := by
  constructor
  · rintro h ⟨u, v, rfl⟩
    exact h _ (occursAt_of_append u v)
  · intro h p hp
    exact h hp.infix

/-- An occurrence that ends within `s` does not depend on what follows `s`. -/
theorem occursAt_append_left (h : p + pat.length ≤ s.length) :
    OccursAt pat (s ++ t) p ↔ OccursAt pat s p := by
  unfold OccursAt
  rw [List.drop_append_of_le_length (by omega)]
  constructor
  · intro hp
    exact List.prefix_of_prefix_length_le hp (List.prefix_append _ _)
      (by rw [List.length_drop]; omega)
  · intro hp
    exact hp.trans (List.prefix_append _ _)

theorem occursAt_append_right : OccursAt pat (s ++ t) (s.length + p) ↔ OccursAt pat t p := by
  unfold OccursAt
  rw [List.drop_append, List.drop_eq_nil_of_le (Nat.le_add_right ..), Nat.add_sub_cancel_left,
    List.nil_append]

theorem OccursAt.append (h : OccursAt pat s p) (hne : pat ≠ []) (t : List α) :
    OccursAt pat (s ++ t) p := (occursAt_append_left (h.bound hne)).mpr h

theorem Absent.right (h : Absent pat (s ++ t)) : Absent pat t :=
  fun _ hp => h _ (occursAt_append_right.mpr hp)

theorem FirstAt.unique (hp : FirstAt pat s p) (hq : FirstAt pat s q) : p = q := by
  rcases Nat.lt_trichotomy p q with h | h | h
  · exact absurd hp.here (hq.before p h)
  · exact h
  · exact absurd hq.here (hp.before q h)

theorem FirstAt.not_absent (h : FirstAt pat s p) : ¬ Absent pat s := fun ha => ha p h.here

/-- More items behind a first occurrence do not move it. -/
theorem FirstAt.append (h : FirstAt pat s p) (hne : pat ≠ []) (t : List α) :
    FirstAt pat (s ++ t) p := by
  have hb := h.here.bound hne
  refine ⟨h.here.append hne t, fun q hq hq' => h.before q hq ?_⟩
  exact (occursAt_append_left (by omega)).mp hq'

/-- `b` is long enough for no occurrence of `pat` to reach from `a` into `c`. -/
def Separates (pat a b c : List α) : Prop := pat.length ≤ b.length + 1 ∨ a = [] ∨ c = []

/-- An occurrence that starts in `a` ends in `a ++ b`. -/
theorem Separates.not_occursAt (hb : Separates pat a b c) (ha : Absent pat (a ++ b))
    (hp : p < a.length) : ¬ OccursAt pat (a ++ (b ++ c)) p := by
  intro h
  rcases hb with hb | rfl | rfl
  · rw [← List.append_assoc] at h
    exact ha p ((occursAt_append_left (by rw [List.length_append]; omega)).mp h)
  · cases hp
  · rw [List.append_nil] at h
    exact ha p h

/-- Where `pat` is absent from `a ++ b`, nothing is missed by looking at `b ++ c` only. -/
theorem firstAt_absent_append (ha : Absent pat (a ++ b)) (hb : Separates pat a b c)
    (h : FirstAt pat (b ++ c) q) : FirstAt pat (a ++ (b ++ c)) (a.length + q) := by
  refine ⟨occursAt_append_right.mpr h.here, fun i hi hi' => ?_⟩
  by_cases hlt : i < a.length
  · exact hb.not_occursAt ha hlt hi'
  · obtain ⟨j, rfl⟩ := Nat.exists_eq_add_of_le (Nat.le_of_not_lt hlt)
    exact h.before j (by omega) (occursAt_append_right.mp hi')

theorem absent_append (ha : Absent pat (a ++ b)) (hb : Separates pat a b c)
    (h : Absent pat (b ++ c)) : Absent pat (a ++ (b ++ c)) := by
  intro i hi
  by_cases hlt : i < a.length
  · exact hb.not_occursAt ha hlt hi
  · obtain ⟨j, rfl⟩ := Nat.exists_eq_add_of_le (Nat.le_of_not_lt hlt)
    exact h j (occursAt_append_right.mp hi)

/-- The position of the first occurrence of `pat` in `s`. -/
def firstOcc [DecidableEq α] (pat s : List α) : Option Nat :=
  (List.range (s.length + 1)).find? fun p => decide (OccursAt pat s p)

theorem firstOcc_eq_some [DecidableEq α] (hne : pat ≠ []) :
    firstOcc pat s = some p ↔ FirstAt pat s p := by
  unfold firstOcc
  rw [List.find?_range_eq_some]
  simp only [decide_eq_true_eq, Bool.not_eq_true', decide_eq_false_iff_not, List.mem_range]
  constructor
  · rintro ⟨h, -, hb⟩
    exact ⟨h, hb⟩
  · intro h
    have := h.here.bound hne
    exact ⟨h.here, by omega, h.before⟩

theorem firstOcc_eq_none [DecidableEq α] (hne : pat ≠ []) :
    firstOcc pat s = none ↔ Absent pat s := by
  unfold firstOcc
  rw [List.find?_range_eq_none]
  simp only [Bool.not_eq_true', decide_eq_false_iff_not]
  constructor
  · intro h p hp
    have := hp.bound hne
    exact h p (by omega) hp
  · intro h p _
    exact h p

theorem absent_or_firstAt [DecidableEq α] (hne : pat ≠ []) (s : List α) :
    Absent pat s ∨ ∃ p, FirstAt pat s p := by
  cases h : firstOcc pat s with
  | none => exact .inl ((firstOcc_eq_none hne).mp h)
  | some p => exact .inr ⟨p, (firstOcc_eq_some hne).mp h⟩

end Lib
