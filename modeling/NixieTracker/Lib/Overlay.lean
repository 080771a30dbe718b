import Mathlib.Data.List.Induction

/-!
# Storage that lies over other storage

The members of a C union share their bytes. A program that uses several members at a time is safe if
each access stays in the array that it names, and if each byte that it reads through a member was last
written through the same member. The module knows nothing of a particular program; the members are a
type `μ`.

* `CType`, `structOffsets`: where the fields of a C structure lie.
* `UnionField`: a field of a member; `Access`: some of its bytes are read or written.
* `lastWriter`: the member through which a byte was last written.
* `Safe`: a log of accesses is safe; `Safe.of_prefix`, `safe_of_one` for a single member,
  `not_safe_of_read`, and `safe_iff_goesOn` for a log of known accesses.
-/

namespace Lib.Overlay

/-! ## Layout -/

/-- A type of C: its size and its alignment. -/
structure CType where
  size : Nat
  align : Nat
  deriving DecidableEq, Repr

/-- An array of `n` bytes. -/
def CType.bytes (n : Nat) : CType := ⟨n, 1⟩

/-- A pointer of 32 bits. -/
def CType.pointer : CType := ⟨4, 4⟩

/-- The next multiple of the alignment. -/
def alignUp (n align : Nat) : Nat := (n + align - 1) / align * align

/-- The offsets of the fields of a structure; `start` bytes lie before them. -/
def structOffsets (start : Nat) : List CType → List Nat
  | [] => []
  | t :: ts => alignUp start t.align :: structOffsets (alignUp start t.align + t.size) ts

/-! ## Accesses -/

/-- A field of a member: where it lies in the union, and its size. -/
structure UnionField (μ : Type) where
  member : μ
  offset : Nat
  size : Nat
  deriving DecidableEq, Repr

inductive AccessKind where
  | read | write
  deriving DecidableEq, Repr

/-- The `count` bytes from `index` on of a field. -/
structure Access (μ : Type) where
  kind : AccessKind
  field : UnionField μ
  index : Nat
  count : Nat
  deriving DecidableEq, Repr

namespace Access

variable {μ : Type}

/-- The access stays in its field. -/
def Inside (a : Access μ) : Prop := a.index + a.count ≤ a.field.size

/-- The byte of the union with this index among those of the access. -/
def byte (a : Access μ) (i : Nat) : Nat := a.field.offset + a.index + i

/-- The access writes the byte of the union. -/
def Writes (a : Access μ) (b : Nat) : Prop :=
  a.kind = .write ∧ a.byte 0 ≤ b ∧ b < a.byte a.count

instance (a : Access μ) : Decidable a.Inside := inferInstanceAs (Decidable (_ ≤ _))

instance (a : Access μ) (b : Nat) : Decidable (a.Writes b) := inferInstanceAs (Decidable (_ ∧ _))

end Access

section Safe

variable {μ : Type}

/-- The member through which the byte was last written. -/
def lastWriter (log : List (Access μ)) (b : Nat) : Option μ :=
  log.foldl (fun m a => if a.Writes b then some a.field.member else m) none

/-- What the access reads was not written through another member since. -/
def Kept (log : List (Access μ)) (a : Access μ) : Prop :=
  a.kind = .read → ∀ i < a.count,
    lastWriter log (a.byte i) = none ∨ lastWriter log (a.byte i) = some a.field.member

/-- Each access stays in its field, and reads what was written through its own member. -/
structure Safe (log : List (Access μ)) : Prop where
  inside : ∀ a ∈ log, a.Inside
  kept : ∀ before a after, log = before ++ a :: after → Kept before a

theorem Safe.of_prefix {log log' : List (Access μ)} (h : Safe log') (hp : log <+: log') : Safe log := by
  obtain ⟨rest, rfl⟩ := hp
  refine ⟨fun a ha => h.inside a (List.mem_append_left _ ha), fun before a after hsplit => ?_⟩
  refine h.kept before a (after ++ rest) ?_
  rw [hsplit, List.append_assoc, List.cons_append]

theorem lastWriter_concat (log : List (Access μ)) (a : Access μ) (b : Nat) :
    lastWriter (log ++ [a]) b = if a.Writes b then some a.field.member else lastWriter log b := by
  unfold lastWriter
  rw [List.foldl_append, List.foldl_cons, List.foldl_nil]

/-- A read is no write. -/
theorem lastWriter_concat_read {log : List (Access μ)} {a : Access μ} (h : a.kind = .read) (b : Nat) :
    lastWriter (log ++ [a]) b = lastWriter log b := by
  rw [lastWriter_concat, if_neg]
  intro hwrites
  exact absurd (h.symm.trans hwrites.1) (by decide)

/-- A byte is written by one of the members of the log. -/
theorem lastWriter_of_forall {log : List (Access μ)} {m : μ} (h : ∀ a ∈ log, a.field.member = m)
    (b : Nat) : lastWriter log b = none ∨ lastWriter log b = some m := by
  induction log using List.reverseRecOn with
  | nil => exact .inl rfl
  | append_singleton log a ih =>
    rw [lastWriter_concat]
    split
    · exact .inr (congrArg some (h a (List.mem_append_right _ (List.mem_singleton_self a))))
    · exact ih fun a ha => h a (List.mem_append_left _ ha)

/-- Accesses through a single member. -/
theorem safe_of_one {log : List (Access μ)} {m : μ}
    (h : ∀ a ∈ log, a.field.member = m ∧ a.Inside) : Safe log := by
  refine ⟨fun a ha => (h a ha).2, fun before a after hsplit _ i _ => ?_⟩
  subst hsplit
  rw [(h a (List.mem_append_right _ (List.mem_cons_self ..))).1]
  exact lastWriter_of_forall (fun a ha => (h a (List.mem_append_left _ ha)).1) _

/-- A read of what another member has written. -/
theorem not_safe_of_read {before after : List (Access μ)} {a : Access μ} {m : μ} {i : Nat}
    (hread : a.kind = .read) (hi : i < a.count) (hm : m ≠ a.field.member)
    (hwritten : lastWriter before (a.byte i) = some m) : ¬ Safe (before ++ a :: after) := by
  intro h
  rcases h.kept before a after rfl hread i hi with hnone | hown
  · rw [hwritten] at hnone
    cases hnone
  · rw [hwritten] at hown
    exact hm (Option.some.inj hown)

/-- The accesses go on safely behind these. -/
def GoesOn (before : List (Access μ)) : List (Access μ) → Prop
  | [] => True
  | a :: as => a.Inside ∧ Kept before a ∧ GoesOn (before ++ [a]) as

theorem goesOn_iff {before log : List (Access μ)} :
    GoesOn before log ↔ (∀ a ∈ log, a.Inside) ∧
      ∀ between a after, log = between ++ a :: after → Kept (before ++ between) a := by
  induction log generalizing before with
  | nil => simp [GoesOn]
  | cons a as ih =>
    unfold GoesOn
    rw [ih]
    constructor
    · rintro ⟨hinside, hkept, hinsides, hkepts⟩
      refine ⟨fun b hb => ?_, fun between b after hsplit => ?_⟩
      · rcases List.mem_cons.mp hb with rfl | hb
        · exact hinside
        · exact hinsides b hb
      · cases between with
        | nil =>
          obtain ⟨rfl, -⟩ := List.cons_eq_cons.mp hsplit
          rwa [List.append_nil]
        | cons c between =>
          obtain ⟨rfl, hrest⟩ := List.cons_eq_cons.mp hsplit
          have hb := hkepts between b after hrest
          rwa [List.append_assoc] at hb
    · rintro ⟨hinsides, hkepts⟩
      refine ⟨hinsides a (List.mem_cons_self ..), ?_, fun b hb => hinsides b (List.mem_cons_of_mem _ hb),
        fun between b after hrest => ?_⟩
      · have ha := hkepts [] a as rfl
        rwa [List.append_nil] at ha
      · have hb := hkepts (a :: between) b after (by rw [hrest, List.cons_append])
        rwa [List.append_assoc]

/-- The accesses of a safe log go on one by one. -/
theorem safe_iff_goesOn {log : List (Access μ)} : Safe log ↔ GoesOn [] log := by
  rw [goesOn_iff]
  exact ⟨fun h => ⟨h.inside, fun between a after hsplit => h.kept between a after hsplit⟩,
    fun h => ⟨h.1, fun before a after hsplit => h.2 before a after hsplit⟩⟩

instance [DecidableEq μ] (log : List (Access μ)) (a : Access μ) : Decidable (Kept log a) :=
  inferInstanceAs (Decidable (_ → ∀ i < a.count, _))

instance decidableGoesOn [DecidableEq μ] :
    (before log : List (Access μ)) → Decidable (GoesOn before log)
  | _, [] => .isTrue trivial
  | before, a :: as =>
    have := decidableGoesOn (before ++ [a]) as
    inferInstanceAs (Decidable (_ ∧ _ ∧ _))

instance [DecidableEq μ] (log : List (Access μ)) : Decidable (Safe log) :=
  decidable_of_iff _ safe_iff_goesOn.symm

end Safe

end Lib.Overlay
