import Mathlib.Data.List.Basic

/-!
# Switches

The uses of something that can be turned on and off, as a list of `Bool`s (`true` turns on). It starts
turned off, and is used well if every use changes it.

* `Alternating`: the uses alternate, turning on first; `alternating_concat` for one use more.
* `isOn`: what the last use has left.
-/

namespace Lib

/-- The uses alternate, and the first one turns on. -/
def Alternating (uses : List Bool) : Prop :=
  ∀ k b, uses[k]? = some b → b = decide (k % 2 = 0)

/-- The last use has turned on. -/
def isOn (uses : List Bool) : Bool := uses.getLast?.getD false

@[simp] theorem alternating_nil : Alternating [] := nofun

@[simp] theorem isOn_nil : isOn [] = false := rfl

@[simp] theorem isOn_concat (uses : List Bool) (b : Bool) : isOn (uses ++ [b]) = b := by
  simp [isOn]

/-- The first uses of a list that alternates. -/
theorem Alternating.of_append {uses rest : List Bool} (h : Alternating (uses ++ rest)) :
    Alternating uses := by
  intro k b hk
  refine h k b ?_
  rw [List.getElem?_append_left (List.getElem?_eq_some_iff.mp hk).1]
  exact hk

/-- It is on after an odd number of alternating uses. -/
theorem Alternating.isOn_eq {uses : List Bool} (h : Alternating uses) :
    isOn uses = decide (uses.length % 2 = 1) := by
  unfold isOn
  rw [List.getLast?_eq_getElem?]
  cases hlast : uses[uses.length - 1]? with
  | none =>
    rw [List.getElem?_eq_none_iff] at hlast
    have hlen : uses.length = 0 := by omega
    simp [hlen]
  | some b =>
    have hlen : uses.length - 1 < uses.length := (List.getElem?_eq_some_iff.mp hlast).1
    rw [h _ b hlast, Option.getD_some]
    apply decide_eq_decide.mpr
    omega

/-- One use more alternates if it changes the switch. -/
theorem alternating_concat {uses : List Bool} {b : Bool} :
    Alternating (uses ++ [b]) ↔ Alternating uses ∧ isOn uses = !b := by
  constructor
  · intro h
    have hlast := h uses.length b (by simp)
    refine ⟨h.of_append, ?_⟩
    rw [h.of_append.isOn_eq, hlast, ← decide_not]
    apply decide_eq_decide.mpr
    omega
  · rintro ⟨h, hon⟩ k c hk
    rcases Nat.lt_trichotomy k uses.length with hlt | rfl | hgt
    · rw [List.getElem?_append_left hlt] at hk
      exact h k c hk
    · have hc : b = c := by simpa using hk
      rw [h.isOn_eq] at hon
      rw [← hc, ← Bool.not_not b, ← hon, ← decide_not]
      apply decide_eq_decide.mpr
      omega
    · rw [List.getElem?_eq_none (by simp; omega)] at hk
      cases hk

end Lib
