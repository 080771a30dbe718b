/-!
# Computations that read a vector

A computation that asks for entries of a vector; what it asks for next may depend on the answers. The
module knows nothing of a particular program.

* `Query.run`, `Query.asked`: the result, and the indices that are asked for on the way to it.
* `Query.Gives`, `Query.Within`: the result, or every index that is asked for, has a property. There is
  one rule for each way to build a computation.
* `Query.run_congr`: the result depends on the entries that are asked for only.
-/

namespace Lib

/-- A computation that asks for entries `β` with indices `ι`. -/
inductive Query (ι β α : Type)
  | done (a : α)
  | ask (i : ι) (next : β → Query ι β α)

namespace Query

variable {ι β α γ : Type}

/-- The result over the vector `v`. -/
def run (v : ι → β) : Query ι β α → α
  | done a => a
  | ask i next => (next (v i)).run v

/-- The indices that are asked for over the vector `v`, in their order. -/
def asked (v : ι → β) : Query ι β α → List ι
  | done _ => []
  | ask i next => i :: (next (v i)).asked v

def bind : Query ι β α → (α → Query ι β γ) → Query ι β γ
  | done a, f => f a
  | ask i next, f => ask i fun b => (next b).bind f

instance : Monad (Query ι β) where
  pure := done
  bind := bind

/-- The entry with the index `i`. -/
def entry (i : ι) : Query ι β β := ask i done

/-! ## Results -/

section Run

variable (v : ι → β)

@[simp] theorem run_pure (a : α) : (pure a : Query ι β α).run v = a := rfl

@[simp] theorem run_entry (i : ι) : (entry i : Query ι β β).run v = v i := rfl

@[simp] theorem run_bind (q : Query ι β α) (f : α → Query ι β γ) :
    (q >>= f).run v = (f (q.run v)).run v := by
  induction q with
  | done a => rfl
  | ask i next ih => exact ih (v i)

theorem asked_bind (q : Query ι β α) (f : α → Query ι β γ) :
    (q >>= f).asked v = q.asked v ++ (f (q.run v)).asked v := by
  induction q with
  | done a => rfl
  | ask i next ih => exact congrArg (i :: ·) (ih (v i))

@[simp] theorem run_ite (c : Prop) [Decidable c] (q r : Query ι β α) :
    (if c then q else r).run v = if c then q.run v else r.run v := by
  split <;> rfl

/-- The result has the property `P`. -/
def Gives (P : α → Prop) (v : ι → β) (q : Query ι β α) : Prop := P (q.run v)

variable {v} {P : α → Prop}

theorem Gives.ite {c : Prop} [Decidable c] {q r : Query ι β α} (hq : c → q.Gives P v)
    (hr : ¬ c → r.Gives P v) : (if c then q else r).Gives P v := by
  split
  · rename_i h
    exact hq h
  · rename_i h
    exact hr h

theorem Gives.bind {q : Query ι β γ} {f : γ → Query ι β α} (h : (f (q.run v)).Gives P v) :
    (q >>= f).Gives P v := by
  unfold Gives
  rw [run_bind]
  exact h

end Run

/-! ## What is asked for -/

/-- Every index that is asked for has the property `p`. -/
def Within (p : ι → Prop) (v : ι → β) (q : Query ι β α) : Prop := ∀ i ∈ q.asked v, p i

section Within

variable {p : ι → Prop} {v : ι → β}

theorem within_pure (a : α) : (pure a : Query ι β α).Within p v := fun _ h => absurd h List.not_mem_nil

theorem within_entry {i : ι} : (entry i : Query ι β β).Within p v ↔ p i := List.forall_mem_singleton

theorem within_bind {q : Query ι β α} {f : α → Query ι β γ} :
    (q >>= f).Within p v ↔ q.Within p v ∧ (f (q.run v)).Within p v := by
  unfold Within
  rw [asked_bind, List.forall_mem_append]

theorem Within.bind {q : Query ι β α} {f : α → Query ι β γ} (hq : q.Within p v)
    (hf : (f (q.run v)).Within p v) : (q >>= f).Within p v := within_bind.mpr ⟨hq, hf⟩

theorem Within.ite {c : Prop} [Decidable c] {q r : Query ι β α} (hq : c → q.Within p v)
    (hr : ¬ c → r.Within p v) : (if c then q else r).Within p v := by
  split
  · rename_i h
    exact hq h
  · rename_i h
    exact hr h

end Within

/-- A vector with the same entries where they are asked for gives the same result. -/
theorem run_congr {v w : ι → β} {q : Query ι β α} (h : q.Within (fun i => v i = w i) v) :
    q.run v = q.run w := by
  induction q with
  | done a => rfl
  | ask i next ih =>
    obtain ⟨hi, hnext⟩ := List.forall_mem_cons.mp h
    have hrest := ih (v i) hnext
    rw [hi] at hrest
    show (next (v i)).run v = (next (w i)).run w
    rw [hi, hrest]

end Query

end Lib
