import Mathlib.Data.List.Basic

/-!
# Full-duplex links

Items are written to one end of a link. For each item that goes over the wire the peer at the other
end gives one back, which waits until it is read. The module knows nothing of a particular program.

* `Peer`: what the other end answers. `replies` and `after` are its answers to a list of items and
  what becomes of it.
* `Link`: the items that wait on both sides. `move` lets some items over the wire; `Moves` is any
  number of them.
* `Carries P s sent taken l`: the link `l` after the items `sent` were written and `taken` were read.
  Every operation keeps it (`Carries.moves`, `Carries.write`, `Carries.read`).
* `Carries.length_sent`: no item is lost. `Carries.taken_eq`: what was read is what the peer answered,
  in order.
-/

namespace Lib

/-- A peer in the states `σ`: what it answers to an item, and its next state. -/
structure Peer (σ α β : Type) where
  reply : σ → α → β
  next : σ → α → σ

namespace Peer

variable {σ α β : Type} (P : Peer σ α β)

/-- The answers to the items, in order. -/
def replies (s : σ) : List α → List β
  | [] => []
  | x :: xs => P.reply s x :: replies (P.next s x) xs

/-- The state after the items. -/
def after (s : σ) (xs : List α) : σ := xs.foldl P.next s

@[simp] theorem replies_nil (s : σ) : P.replies s [] = [] := rfl

@[simp] theorem replies_cons (s : σ) (x : α) (xs : List α) :
    P.replies s (x :: xs) = P.reply s x :: P.replies (P.next s x) xs := rfl

@[simp] theorem after_nil (s : σ) : P.after s [] = s := rfl

theorem after_append (s : σ) (xs ys : List α) :
    P.after s (xs ++ ys) = P.after (P.after s xs) ys := List.foldl_append

theorem replies_append (s : σ) (xs ys : List α) :
    P.replies s (xs ++ ys) = P.replies s xs ++ P.replies (P.after s xs) ys := by
  induction xs generalizing s with
  | nil => rfl
  | cons x xs ih =>
    rw [List.cons_append, replies_cons, replies_cons, ih]
    rfl

@[simp] theorem length_replies (s : σ) (xs : List α) : (P.replies s xs).length = xs.length := by
  induction xs generalizing s with
  | nil => rfl
  | cons x xs ih => rw [replies_cons, List.length_cons, List.length_cons, ih]

end Peer

/-- The items that wait to go over the wire, the answers that wait to be read, and the peer. -/
structure Link (σ α β : Type) where
  out : List α
  back : List β
  peer : σ

namespace Link

variable {σ α β : Type}

/-- The items that were written and not answered to the reader yet. -/
def inFlight (l : Link σ α β) : Nat := l.out.length + l.back.length

/-- A link on which nothing waits. -/
def quiet (s : σ) : Link σ α β := ⟨[], [], s⟩

def write (l : Link σ α β) (x : α) : Link σ α β := { l with out := l.out ++ [x] }

/-- The first `n` waiting items go over the wire. -/
def move (P : Peer σ α β) (n : Nat) (l : Link σ α β) : Link σ α β where
  out := l.out.drop n
  back := l.back ++ P.replies l.peer (l.out.take n)
  peer := P.after l.peer (l.out.take n)

/-- Some items went over the wire. -/
def Moves (P : Peer σ α β) (l l' : Link σ α β) : Prop := ∃ n, l' = l.move P n

variable {P : Peer σ α β} {l l' : Link σ α β} {s : σ}

@[simp] theorem inFlight_quiet : (quiet s : Link σ α β).inFlight = 0 := rfl

@[simp] theorem inFlight_write (x : α) : (l.write x).inFlight = l.inFlight + 1 := by
  simp only [inFlight, write, List.length_append, List.length_singleton]
  omega

theorem inFlight_eq_zero : l.inFlight = 0 ↔ l = quiet l.peer := by
  obtain ⟨out, back, peer⟩ := l
  simp [inFlight, quiet]

theorem Moves.refl (l : Link σ α β) : Moves P l l := ⟨0, by simp [move]⟩

@[simp] theorem inFlight_move (n : Nat) : (l.move P n).inFlight = l.inFlight := by
  simp only [inFlight, move, List.length_append, List.length_drop, Peer.length_replies,
    List.length_take]
  omega

theorem Moves.inFlight (h : Moves P l l') : l'.inFlight = l.inFlight := by
  obtain ⟨n, rfl⟩ := h
  exact inFlight_move n

/-- Time only adds to the answers. -/
theorem Moves.back_le (h : Moves P l l') : l.back.length ≤ l'.back.length := by
  obtain ⟨n, rfl⟩ := h
  simp [move]

theorem move_quiet (n : Nat) : (quiet s).move P n = quiet s := by
  simp [move, quiet]

/-- The link `l` after the items `sent` were written and `taken` were read, with the peer in the
state `s` before. -/
structure Carries (P : Peer σ α β) (s : σ) (sent : List α) (taken : List β) (l : Link σ α β) :
    Prop where
  exists_done : ∃ done, sent = done ++ l.out ∧ taken ++ l.back = P.replies s done ∧
    l.peer = P.after s done

namespace Carries

variable {sent : List α} {taken : List β}

theorem quiet (s : σ) : Carries P s [] [] (quiet s) := ⟨[], rfl, rfl, rfl⟩

theorem moves (h : Carries P s sent taken l) (hm : Moves P l l') : Carries P s sent taken l' := by
  obtain ⟨done, hsent, htaken, hpeer⟩ := h
  obtain ⟨n, rfl⟩ := hm
  refine ⟨done ++ l.out.take n, ?_, ?_, ?_⟩
  · rw [hsent, List.append_assoc]
    exact congrArg (done ++ ·) (List.take_append_drop n l.out).symm
  · rw [Peer.replies_append, ← htaken, ← hpeer, List.append_assoc]
    rfl
  · rw [Peer.after_append, ← hpeer]
    rfl

theorem write (h : Carries P s sent taken l) (x : α) :
    Carries P s (sent ++ [x]) taken (l.write x) := by
  obtain ⟨done, hsent, htaken, hpeer⟩ := h
  refine ⟨done, ?_, htaken, hpeer⟩
  rw [hsent, List.append_assoc]
  rfl

theorem read (h : Carries P s sent taken l) {y : β} {rest : List β} (hy : l.back = y :: rest) :
    Carries P s sent (taken ++ [y]) { l with back := rest } := by
  obtain ⟨done, hsent, htaken, hpeer⟩ := h
  refine ⟨done, hsent, ?_, hpeer⟩
  rw [← htaken, hy, List.append_assoc]
  rfl

/-- What was written was read, or is in flight. -/
theorem length_sent (h : Carries P s sent taken l) : sent.length = taken.length + l.inFlight := by
  obtain ⟨done, hsent, htaken, -⟩ := h
  have hlen := congrArg List.length htaken
  rw [List.length_append, Peer.length_replies] at hlen
  rw [hsent, List.length_append, Link.inFlight]
  omega

/-- What was read are the peer's first answers. -/
theorem taken_prefix (h : Carries P s sent taken l) : taken <+: P.replies s sent := by
  obtain ⟨done, hsent, htaken, -⟩ := h
  rw [hsent, Peer.replies_append, ← htaken, List.append_assoc]
  exact List.prefix_append _ _

/-- With everything read, the peer has answered everything. -/
theorem taken_eq (h : Carries P s sent taken l) (hlen : taken.length = sent.length) :
    taken = P.replies s sent ∧ l = Link.quiet (P.after s sent) := by
  have hzero : l.inFlight = 0 := by
    have := h.length_sent
    omega
  have hquiet := inFlight_eq_zero.mp hzero
  obtain ⟨done, hsent, htaken, hpeer⟩ := h
  rw [hquiet] at hsent htaken
  simp only [Link.quiet, List.append_nil] at hsent htaken
  subst hsent
  exact ⟨htaken, hquiet.trans (by rw [hpeer])⟩

end Carries

end Link

end Lib
