import Mathlib.Data.List.Induction

/-!
# Digital lines and chains of shift registers

The writes of a program to its output lines, as a waveform, and what a serial-in, parallel-out
chain of registers makes of it. The module knows nothing of a particular program.

* A `Write` sets one line to a level; `Levels` are the levels of all lines.
* `rising ls ws`: the rising edges of the writes `ws` from the levels `ls`, each with the levels
  at that moment. Writing a high line high again is no edge.
* `wave ls ws`: the levels after each of the writes.
* `Chain n`: `n` stages, stage `0` at the serial input. A rising edge of the clock shifts the data
  level in at stage `0`; a rising edge of the latch copies the stages to the outputs.
* `stages_shiftAll`: after the bits `xs`, stage `i` holds the bit that came `i` edges before the
  last one.
* `Frame`: writes that clock the bits `xs` and then latch once. `feed_frame`: a chain that sees
  a frame shifts the bits in and copies its stages to the outputs, whatever else the other lines do.
  `feed_frame_part`: before its end the outputs do not change, or all of it is latched.
-/

namespace Lib

/-- The level of each line. -/
abbrev Levels (π : Type) := π → Bool

/-- A write of a level to a line. -/
abbrev Write (π : Type) := π × Bool

namespace Wave

variable {π : Type} [DecidableEq π]

def write (ls : Levels π) (w : Write π) : Levels π := fun p => if p = w.1 then w.2 else ls p

@[simp] theorem write_self (ls : Levels π) (p : π) (b : Bool) : write ls (p, b) p = b := by
  simp [write]

theorem write_ne (ls : Levels π) {p q : π} (b : Bool) (h : q ≠ p) : write ls (p, b) q = ls q := by
  simp [write, h]

/-- The levels after the writes. -/
def after (ls : Levels π) (ws : List (Write π)) : Levels π := ws.foldl write ls

/-- The levels after each of the writes. -/
def wave (ls : Levels π) : List (Write π) → List (Levels π)
  | [] => []
  | w :: ws => write ls w :: wave (write ls w) ws

/-- The rising edges of the writes: the line and the levels at the edge. -/
def rising (ls : Levels π) : List (Write π) → List (π × Levels π)
  | [] => []
  | w :: ws =>
    if w.2 = true ∧ ls w.1 = false then (w.1, write ls w) :: rising (write ls w) ws
    else rising (write ls w) ws

@[simp] theorem after_nil (ls : Levels π) : after ls [] = ls := rfl

@[simp] theorem after_cons (ls : Levels π) (w : Write π) (ws : List (Write π)) :
    after ls (w :: ws) = after (write ls w) ws := rfl

theorem after_append (ls : Levels π) (us vs : List (Write π)) :
    after ls (us ++ vs) = after (after ls us) vs := List.foldl_append ..

theorem rising_append (ls : Levels π) (us vs : List (Write π)) :
    rising ls (us ++ vs) = rising ls us ++ rising (after ls us) vs := by
  induction us generalizing ls with
  | nil => rfl
  | cons w us ih =>
    simp only [List.cons_append, rising, ih, after_cons]
    split <;> rfl

/-- A line that no write lowers stays high. -/
theorem wave_high {ls : Levels π} {p : π} {ws : List (Write π)} (h0 : ls p = true)
    (hw : (p, false) ∉ ws) : ∀ l ∈ wave ls ws, l p = true := by
  induction ws generalizing ls with
  | nil => intro l hl; cases hl
  | cons w ws ih =>
    obtain ⟨q, b⟩ := w
    have h1 : write ls (q, b) p = true := by
      by_cases hq : p = q
      · subst hq; rw [write_self]; cases b
        · simp at hw
        · rfl
      · rw [write_ne _ _ hq]; exact h0
    intro l hl
    rcases List.mem_cons.mp hl with rfl | hl
    · exact h1
    · exact ih h1 (fun hm => hw (List.mem_cons_of_mem _ hm)) l hl

/-- The levels at the rising edges of line `p`. -/
def edges (p : π) (ls : Levels π) (ws : List (Write π)) : List (Levels π) :=
  ((rising ls ws).filter (·.1 = p)).map (·.2)

theorem edges_append (p : π) (ls : Levels π) (us vs : List (Write π)) :
    edges p ls (us ++ vs) = edges p ls us ++ edges p (after ls us) vs := by
  simp [edges, rising_append]

/-- The writes `ws`, from the levels `ls`, are a frame of the bits `xs`: the clock edges see the
bits on the data line, and the latch has one edge, after the last clock edge. -/
structure Frame (data clock latch : π) (ls : Levels π) (xs : List Bool) (ws : List (Write π)) :
    Prop where
  bits : (edges clock ls ws).map (fun l => l data) = xs
  order : ((rising ls ws).filter (fun e => e.1 = clock ∨ e.1 = latch)).map (·.1) =
    List.replicate xs.length clock ++ [latch]

end Wave

/-- A chain of `n` register stages with an output latch for each. -/
structure Chain (n : Nat) where
  stages : Fin n → Bool
  outputs : Fin n → Bool

namespace Chain

variable {n : Nat} {π : Type}

/-- One clock edge: the bit enters at stage `0`, the other stages take their neighbour's bit. -/
def shift (c : Chain n) (b : Bool) : Chain n :=
  { c with stages := fun i => if i.val = 0 then b else c.stages ⟨i.val - 1, by omega⟩ }

/-- One latch edge. -/
def latch (c : Chain n) : Chain n := { c with outputs := c.stages }

/-- The clock edges for the bits `xs`, first bit first. -/
def shiftAll (c : Chain n) (xs : List Bool) : Chain n := xs.foldl shift c

/-- What the chain does at a rising edge of any line. -/
def edge [DecidableEq π] (data clock latchLine : π) (c : Chain n) (e : π × Levels π) : Chain n :=
  if e.1 = clock then c.shift (e.2 data) else if e.1 = latchLine then c.latch else c

/-- The chain after the writes to its lines. -/
def feed [DecidableEq π] (data clock latchLine : π) (c : Chain n) (ls : Levels π)
    (ws : List (Write π)) : Chain n :=
  (Wave.rising ls ws).foldl (edge data clock latchLine) c

theorem feed_append [DecidableEq π] (data clock latchLine : π) (c : Chain n) (ls : Levels π)
    (us vs : List (Write π)) :
    c.feed data clock latchLine ls (us ++ vs) =
      (c.feed data clock latchLine ls us).feed data clock latchLine (Wave.after ls us) vs := by
  simp [feed, Wave.rising_append]

theorem foldl_edge_filter [DecidableEq π] (data clock latchLine : π) (c : Chain n)
    (es : List (π × Levels π)) :
    es.foldl (edge data clock latchLine) c =
      (es.filter (fun e => e.1 = clock ∨ e.1 = latchLine)).foldl (edge data clock latchLine) c := by
  induction es generalizing c with
  | nil => rfl
  | cons e es ih =>
    by_cases he : e.1 = clock ∨ e.1 = latchLine
    · rw [List.filter_cons_of_pos (by simpa using he)]
      exact ih _
    · rw [List.filter_cons_of_neg (by simpa using he)]
      obtain ⟨h1, h2⟩ := not_or.mp he
      rw [List.foldl_cons, show edge data clock latchLine c e = c by simp [edge, h1, h2]]
      exact ih c

theorem foldl_edge_clock [DecidableEq π] (data clock latchLine : π) (c : Chain n)
    (es : List (π × Levels π)) (h : ∀ e ∈ es, e.1 = clock) :
    es.foldl (edge data clock latchLine) c = c.shiftAll (es.map fun e => e.2 data) := by
  induction es generalizing c with
  | nil => rfl
  | cons e es ih =>
    rw [List.foldl_cons, show edge data clock latchLine c e = c.shift (e.2 data) by
      simp [edge, h e (List.mem_cons_self ..)]]
    exact ih _ fun e' he' => h e' (List.mem_cons_of_mem _ he')

@[simp] theorem shift_outputs (c : Chain n) (b : Bool) : (c.shift b).outputs = c.outputs := rfl

@[simp] theorem latch_outputs (c : Chain n) : c.latch.outputs = c.stages := rfl

@[simp] theorem latch_stages (c : Chain n) : c.latch.stages = c.stages := rfl

theorem shiftAll_append (c : Chain n) (xs ys : List Bool) :
    c.shiftAll (xs ++ ys) = (c.shiftAll xs).shiftAll ys := List.foldl_append ..

/-- Stage `i` after the bits `xs`: the bit that came `i` edges before the last one. -/
theorem stages_shiftAll (c : Chain n) (xs : List Bool) (i : Fin n) (h : i.val < xs.length) :
    (c.shiftAll xs).stages i = xs[xs.length - 1 - i.val] := by
  induction xs using List.reverseRecOn generalizing i with
  | nil => simp at h
  | append_singleton xs b ih =>
    rw [shiftAll_append]
    show (Chain.shift (c.shiftAll xs) b).stages i = _
    simp only [shift]
    split
    · rename_i h0
      simp [h0]
    · rename_i h0
      have h1 : i.val < xs.length + 1 := by simpa using h
      rw [ih ⟨i.val - 1, by omega⟩ (by simp only; omega),
        List.getElem_append_left (by simp; omega)]
      congr 1
      simp only [List.length_append, List.length_singleton]
      omega

/-- A frame shifts its bits in and latches once. -/
theorem feed_frame [DecidableEq π] {data clock latchLine : π} (hne : clock ≠ latchLine)
    {ls : Levels π} {xs : List Bool} {ws : List (Write π)}
    (h : Wave.Frame data clock latchLine ls xs ws) (c : Chain n) :
    c.feed data clock latchLine ls ws = (c.shiftAll xs).latch := by
  obtain ⟨es, last, he, hes, hlast⟩ := List.map_eq_append_iff.mp h.order
  obtain ⟨e, rfl, hl⟩ := List.map_eq_singleton_iff.mp hlast
  have hclock : ∀ e ∈ es, e.1 = clock := fun e he' =>
    List.eq_of_mem_replicate (hes ▸ List.mem_map_of_mem he')
  -- Only the clock edges of the frame see the bits: the last edge is the latch.
  have hbits : es.map (fun e => e.2 data) = xs := by
    rw [← h.bits]
    have hf : (Wave.rising ls ws).filter (fun e => e.1 = clock) =
        ((Wave.rising ls ws).filter (fun e => e.1 = clock ∨ e.1 = latchLine)).filter
          (fun e => e.1 = clock) := by
      rw [List.filter_filter]
      congr 1
      funext e
      by_cases h1 : e.1 = clock <;> simp [h1]
    have hself : es.filter (fun e => e.1 = clock) = es :=
      List.filter_eq_self.mpr fun e he' => by simp [hclock e he']
    rw [Wave.edges, hf, he, List.filter_append, hself]
    simp [hl, hne.symm]
  rw [feed, foldl_edge_filter, he, List.foldl_append, foldl_edge_clock _ _ _ _ _ hclock, hbits]
  simp [edge, hl, hne.symm]

@[simp] theorem shiftAll_outputs (c : Chain n) (xs : List Bool) :
    (c.shiftAll xs).outputs = c.outputs := by
  induction xs generalizing c with
  | nil => rfl
  | cons b xs ih => exact (ih (c.shift b)).trans (c.shift_outputs b)

/-- The bits are shifted in and latched, at once. -/
def load (c : Chain n) (xs : List Bool) : Chain n := (c.shiftAll xs).latch

/-- In the middle of a frame the outputs are as before it, or the frame is latched. -/
theorem feed_frame_part [DecidableEq π] {data clock latchLine : π} (hne : clock ≠ latchLine)
    {ls : Levels π} {xs : List Bool} {ws ws' : List (Write π)}
    (h : Wave.Frame data clock latchLine ls xs (ws ++ ws')) (c : Chain n) :
    (c.feed data clock latchLine ls ws).outputs = c.outputs ∨
      c.feed data clock latchLine ls ws = c.load xs := by
  have horder := h.order
  rw [Wave.rising_append, List.filter_append, List.map_append] at horder
  have hfeed : c.feed data clock latchLine ls ws =
      ((Wave.rising ls ws).filter (fun e => e.1 = clock ∨ e.1 = latchLine)).foldl
        (edge data clock latchLine) c := foldl_edge_filter ..
  have hclock : ∀ k, ((Wave.rising ls ws).filter
      (fun e => e.1 = clock ∨ e.1 = latchLine)).map (·.1) = List.replicate k clock →
      (c.feed data clock latchLine ls ws).outputs = c.outputs := by
    intro k hk
    rw [hfeed, foldl_edge_clock, shiftAll_outputs]
    exact fun e he => List.eq_of_mem_replicate (hk ▸ List.mem_map_of_mem he)
  rcases List.append_eq_append_iff.mp horder with ⟨as, has, -⟩ | ⟨cs, hcs, hlast⟩
  · -- Only clock edges so far.
    obtain ⟨-, hrep, -⟩ := List.replicate_eq_append_iff.mp has
    exact .inl (hclock _ hrep)
  · cases cs with
    | nil => exact .inl (hclock _ (hcs.trans (List.append_nil _)))
    | cons e cs =>
      -- The latch was the last edge.
      obtain ⟨-, hnil⟩ := List.cons.inj hlast
      have hnone := List.map_eq_nil_iff.mp (List.append_eq_nil_iff.mp hnil.symm).2
      refine .inr ?_
      have hwhole := feed_frame hne h c
      rw [feed, foldl_edge_filter, Wave.rising_append, List.filter_append, hnone,
        List.append_nil] at hwhole
      rw [hfeed, hwhole, load]

end Chain

end Lib
