/-!
# Machines with inputs and outputs

A polled program as a machine: one call takes an input (what its environment answers) and gives
the next state and the events of the call, in order. The module knows nothing of a particular
program.

* `run`/`trace`: the state and the events after a list of inputs.
* `Along P s is`: `P` holds of the state before each step of a run and of the step's input.
* `visits`: each step's state with its input; `along_iff_visits`.
* `mem_trace`: an event of a run is an event of one of its steps.
* `run_inv`: what every step keeps, every run keeps; `run_inv_along` for a step that keeps it
  only under `P`, `run_inv_while` for one that keeps it while both states have a property.
* `history_inv_along`: an invariant of the state, the visits and the events so far.
* `run_wait`: a state that only certain inputs change.
* `exists_run_fixed`: a block of inputs that leads down a well-founded relation comes to rest.
* `foldl_trace`: an observer, a fold over the events, that learns nothing but the inputs.
* `watch_inv`: an invariant of the state together with an observer's value, such as a property of the
  order of the events.
* `watch_iff_along`: a property that an invariant gives, and that a bad step ends;
  `watch_iff_along_doomed` where it ends later.
* `exists_run_of_steps`: a machine whose steps are runs of another one.
* `trace_eq`: two machines whose steps agree through a relation give the same events on the same
  inputs.
* `observed_along`: a machine whose steps are steps of another one, or none, as an observer of its visits
  tells; the visible events of its runs are those of the other machine.
-/

namespace Lib

/-- A deterministic machine: states `σ`, inputs `ι`, events `ε`. -/
structure Machine (σ ι ε : Type) where
  step : σ → ι → σ × List ε

namespace Machine

variable {σ ι ε μ : Type} (M : Machine σ ι ε)

/-- The state after the inputs. -/
def run (s : σ) : List ι → σ
  | [] => s
  | i :: is => run (M.step s i).1 is

/-- The events of the steps on the inputs, in order. -/
def trace (s : σ) : List ι → List ε
  | [] => []
  | i :: is => (M.step s i).2 ++ trace (M.step s i).1 is

/-- `P` holds of each state of the run (before the last) with the input taken there. -/
def Along (P : σ → ι → Prop) (s : σ) : List ι → Prop
  | [] => True
  | i :: is => P s i ∧ Along P (M.step s i).1 is

/-- The states of the run (before the last), each with the input taken there. -/
def visits (s : σ) : List ι → List (σ × ι)
  | [] => []
  | i :: is => (s, i) :: visits (M.step s i).1 is

@[simp] theorem run_nil (s : σ) : M.run s [] = s := rfl

@[simp] theorem run_cons (s : σ) (i : ι) (is : List ι) :
    M.run s (i :: is) = M.run (M.step s i).1 is := rfl

@[simp] theorem trace_nil (s : σ) : M.trace s [] = [] := rfl

@[simp] theorem trace_cons (s : σ) (i : ι) (is : List ι) :
    M.trace s (i :: is) = (M.step s i).2 ++ M.trace (M.step s i).1 is := rfl

@[simp] theorem along_nil (P : σ → ι → Prop) (s : σ) : M.Along P s [] := trivial

@[simp] theorem along_cons (P : σ → ι → Prop) (s : σ) (i : ι) (is : List ι) :
    M.Along P s (i :: is) ↔ P s i ∧ M.Along P (M.step s i).1 is := Iff.rfl

@[simp] theorem visits_nil (s : σ) : M.visits s [] = [] := rfl

@[simp] theorem visits_cons (s : σ) (i : ι) (is : List ι) :
    M.visits s (i :: is) = (s, i) :: M.visits (M.step s i).1 is := rfl

theorem run_append (s : σ) (is js : List ι) : M.run s (is ++ js) = M.run (M.run s is) js := by
  induction is generalizing s with
  | nil => rfl
  | cons i is ih => exact ih _

theorem trace_append (s : σ) (is js : List ι) :
    M.trace s (is ++ js) = M.trace s is ++ M.trace (M.run s is) js := by
  induction is generalizing s with
  | nil => rfl
  | cons i is ih => simp [ih]

theorem visits_append (s : σ) (is js : List ι) :
    M.visits s (is ++ js) = M.visits s is ++ M.visits (M.run s is) js := by
  induction is generalizing s with
  | nil => rfl
  | cons i is ih => simp [ih]

theorem along_append (P : σ → ι → Prop) (s : σ) (is js : List ι) :
    M.Along P s (is ++ js) ↔ M.Along P s is ∧ M.Along P (M.run s is) js := by
  induction is generalizing s with
  | nil => simp
  | cons i is ih => simp [ih, and_assoc]

instance decidableAlong (P : σ → ι → Prop) [∀ s i, Decidable (P s i)] :
    (s : σ) → (is : List ι) → Decidable (M.Along P s is)
  | _, [] => .isTrue trivial
  | s, i :: is =>
    have := decidableAlong P (M.step s i).1 is
    inferInstanceAs (Decidable (P s i ∧ M.Along P (M.step s i).1 is))

variable {M}

/-- An event of a run happens in one of its steps. -/
theorem mem_trace {s : σ} {is : List ι} {e : ε} :
    e ∈ M.trace s is ↔
      ∃ before i after, is = before ++ i :: after ∧ e ∈ (M.step (M.run s before) i).2 := by
  constructor
  · intro h
    induction is generalizing s with
    | nil => cases h
    | cons i is ih =>
      rcases List.mem_append.mp h with h | h
      · exact ⟨[], i, is, rfl, h⟩
      · obtain ⟨before, j, after, rfl, he⟩ := ih h
        exact ⟨i :: before, j, after, rfl, he⟩
  · rintro ⟨before, i, after, rfl, he⟩
    rw [trace_append, trace_cons]
    exact List.mem_append_right _ (List.mem_append_left _ he)

theorem along_iff_visits {P : σ → ι → Prop} {s : σ} {is : List ι} :
    M.Along P s is ↔ ∀ v ∈ M.visits s is, P v.1 v.2 := by
  induction is generalizing s with
  | nil => simp
  | cons i is ih => simp [ih]

theorem mem_visits {s : σ} {is : List ι} {v : σ × ι} :
    v ∈ M.visits s is ↔ ∃ before after, is = before ++ v.2 :: after ∧ M.run s before = v.1 := by
  constructor
  · intro h
    induction is generalizing s with
    | nil => cases h
    | cons i is ih =>
      rcases List.mem_cons.mp h with rfl | h
      · exact ⟨[], is, rfl, rfl⟩
      · obtain ⟨before, after, rfl, hrun⟩ := ih h
        exact ⟨i :: before, after, rfl, hrun⟩
  · rintro ⟨before, after, rfl, hrun⟩
    rw [visits_append, visits_cons, hrun]
    exact List.mem_append_right _ (List.mem_cons_self ..)

/-- What a step keeps under `P`, a run keeps that satisfies `P` along its way. -/
theorem run_inv_along {I : σ → Prop} {P : σ → ι → Prop}
    (hstep : ∀ s i, P s i → I s → I (M.step s i).1) {s : σ} {is : List ι}
    (hP : M.Along P s is) (hs : I s) : I (M.run s is) := by
  induction is generalizing s with
  | nil => exact hs
  | cons i is ih => exact ih hP.2 (hstep s i hP.1 hs)

/-- An invariant of the state, of the visits and of the events so far. -/
theorem history_inv_along {I : σ → List (σ × ι) → List ε → Prop} {P : σ → ι → Prop}
    (hstep : ∀ s i vs es, P s i → I s vs es →
      I (M.step s i).1 (vs ++ [(s, i)]) (es ++ (M.step s i).2))
    {s : σ} {is : List ι} {vs : List (σ × ι)} {es : List ε} (hP : M.Along P s is) (hs : I s vs es) :
    I (M.run s is) (vs ++ M.visits s is) (es ++ M.trace s is) := by
  induction is generalizing s vs es with
  | nil => simpa using hs
  | cons i is ih =>
    have hnext := ih hP.2 (hstep s i vs es hP.1 hs)
    rw [List.append_assoc, List.append_assoc] at hnext
    exact hnext

/-- What every step keeps, every run keeps. -/
theorem run_inv {I : σ → Prop} (hstep : ∀ s i, I s → I (M.step s i).1) {s : σ} (hs : I s)
    (is : List ι) : I (M.run s is) := by
  induction is generalizing s with
  | nil => exact hs
  | cons i is ih => exact ih (hstep s i hs)

/-- What a step keeps between two states with `W`, a run keeps whose states all have `W`. -/
theorem run_inv_while {I W : σ → Prop}
    (hstep : ∀ s i, W s → W (M.step s i).1 → I s → I (M.step s i).1) {s : σ} {is : List ι}
    (hW : ∀ before, before <+: is → W (M.run s before)) (hs : I s) : I (M.run s is) := by
  induction is generalizing s with
  | nil => exact hs
  | cons i is ih =>
    have hnil : W s := hW [] (List.nil_prefix ..)
    have hone : W (M.step s i).1 := hW [i] ((List.prefix_cons_inj i).mpr (List.nil_prefix ..))
    exact ih (fun before hb => hW (i :: before) ((List.prefix_cons_inj i).mpr hb))
      (hstep s i hnil hone hs)

/-- Where each step of `M` is a run of `N` that keeps the relation `R`, every run of `M` is a run of `N`
with the same events. `f` and `g` are what the inputs of the two machines bring along. -/
theorem exists_run_of_steps {τ κ α : Type} {N : Machine τ κ ε} {R : σ → τ → Prop}
    {P : σ → ι → Prop} {Q : κ → Prop} {f : ι → List α} {g : κ → List α}
    (hstep : ∀ s t i, P s i → R s t → ∃ js, (∀ j ∈ js, Q j) ∧ js.flatMap g = f i ∧
      N.trace t js = (M.step s i).2 ∧ R (M.step s i).1 (N.run t js))
    {s : σ} {t : τ} {is : List ι} (hP : M.Along P s is) (hs : R s t) :
    ∃ js, (∀ j ∈ js, Q j) ∧ js.flatMap g = is.flatMap f ∧ N.trace t js = M.trace s is ∧
      R (M.run s is) (N.run t js) := by
  induction is generalizing s t with
  | nil => exact ⟨[], by simp, rfl, rfl, hs⟩
  | cons i is ih =>
    obtain ⟨js, hjs, hfirst, htrace, hR⟩ := hstep s t i hP.1 hs
    obtain ⟨ks, hks, hrest, htrace', hR'⟩ := ih hP.2 hR
    refine ⟨js ++ ks, fun j hj => (List.mem_append.mp hj).elim (hjs j) (hks j), ?_, ?_, ?_⟩
    · rw [List.flatMap_append, hfirst, hrest, List.flatMap_cons]
    · rw [trace_append, htrace, htrace', trace_cons]
    · rw [run_append]
      exact hR'

/-- A state that no input changes. -/
theorem run_fixed {s : σ} (h : ∀ i, (M.step s i).1 = s) (is : List ι) : M.run s is = s := by
  induction is with
  | nil => rfl
  | cons i is ih => rw [run_cons, h i, ih]

/-- The run of a state that waits for an input with `go`, and goes to `t` then. -/
theorem run_wait {go : ι → Bool} {s t : σ} (hwait : ∀ i, go i = false → (M.step s i).1 = s)
    (hgo : ∀ i, go i = true → (M.step s i).1 = t) {is : List ι} {n : Nat}
    (h : n + 1 ≤ is.countP go) : ∃ js, M.run s is = M.run t js ∧ n ≤ js.countP go := by
  induction is with
  | nil => cases h
  | cons i is ih =>
    cases hi : go i with
    | true =>
      rw [List.countP_cons_of_pos hi] at h
      exact ⟨is, by rw [run_cons, hgo i hi], by omega⟩
    | false =>
      rw [List.countP_cons_of_neg (by simp [hi])] at h
      obtain ⟨js, hjs, hn⟩ := ih h
      exact ⟨js, by rw [run_cons, hwait i hi, hjs], hn⟩

/-- Inputs each of which changes nothing or leads down: none of them changes the state, or the run leads
down. -/
theorem run_fixed_or_below {r : σ → σ → Prop} {I : σ → Prop} {is : List ι}
    (hstep : ∀ s, I s → ∀ i ∈ is, I (M.step s i).1 ∧ ((M.step s i).1 = s ∨ r (M.step s i).1 s))
    {s : σ} (hs : I s) :
    I (M.run s is) ∧ ((M.run s is = s ∧ ∀ i ∈ is, (M.step s i).1 = s) ∨
      Relation.TransGen r (M.run s is) s) := by
  induction is generalizing s with
  | nil => exact ⟨hs, .inl ⟨rfl, fun i hi => by cases hi⟩⟩
  | cons i is ih =>
    obtain ⟨hI, hfirst⟩ := hstep s hs i (List.mem_cons_self ..)
    obtain ⟨hrun, hrest⟩ := ih (fun s hs j hj => hstep s hs j (List.mem_cons_of_mem _ hj)) hI
    refine ⟨hrun, ?_⟩
    rw [run_cons]
    rcases hfirst with hsame | hlower
    · rw [hsame] at hrest ⊢
      rcases hrest with ⟨hfixed, hall⟩ | hbelow
      · refine .inl ⟨hfixed, fun j hj => ?_⟩
        rcases List.mem_cons.mp hj with rfl | hj
        · exact hsame
        · exact hall j hj
      · exact .inr hbelow
    · rcases hrest with ⟨hfixed, -⟩ | hbelow
      · rw [hfixed]
        exact .inr (.single hlower)
      · exact .inr (.trans hbelow (.single hlower))

/-- A block of inputs each of which changes nothing or leads down a well-founded relation: repeated
often enough it comes to a state that none of its inputs changes. -/
theorem exists_run_fixed {r : σ → σ → Prop} (hr : WellFounded r) {I : σ → Prop} {block : List ι}
    (hstep : ∀ s, I s → ∀ i ∈ block,
      I (M.step s i).1 ∧ ((M.step s i).1 = s ∨ r (M.step s i).1 s)) {s : σ} (hs : I s) :
    ∃ n t, M.run s (List.replicate n block).flatten = t ∧ I t ∧ ∀ i ∈ block, (M.step t i).1 = t := by
  induction s using hr.transGen.induction with
  | _ s ih =>
    obtain ⟨hI, ⟨-, hfixed⟩ | hbelow⟩ := run_fixed_or_below hstep hs
    · exact ⟨0, s, rfl, hs, hfixed⟩
    · obtain ⟨n, t, hrun, ht⟩ := ih _ hbelow hI
      refine ⟨n + 1, t, ?_, ht⟩
      rw [List.replicate_succ, List.flatten_cons, run_append, hrun]

/-- An observer that keeps the whole log. -/
theorem foldl_concat {α : Type} (log es : List α) :
    es.foldl (fun log e => log ++ [e]) log = log ++ es := by
  induction es generalizing log with
  | nil => exact (List.append_nil log).symm
  | cons e es ih => rw [List.foldl_cons, ih, List.append_assoc, List.singleton_append]

/-- An observer to whom each step says what `k` makes of its input. -/
theorem foldl_trace {obs : μ → ε → μ} {k : μ → ι → μ}
    (hstep : ∀ s i m, (M.step s i).2.foldl obs m = k m i) (s : σ) (is : List ι) (m : μ) :
    (M.trace s is).foldl obs m = is.foldl k m := by
  induction is generalizing s m with
  | nil => rfl
  | cons i is ih => rw [trace_cons, List.foldl_append, hstep, ih, List.foldl_cons]

/-- An invariant of the state and of an observer's value holds after every run. -/
theorem watch_inv {obs : μ → ε → μ} {I : σ → μ → Prop}
    (hstep : ∀ s i m, I s m → I (M.step s i).1 ((M.step s i).2.foldl obs m)) {s : σ} {m : μ}
    (hs : I s m) (is : List ι) : I (M.run s is) ((M.trace s is).foldl obs m) := by
  induction is generalizing s m with
  | nil => exact hs
  | cons i is ih =>
    rw [trace_cons, List.foldl_append]
    exact ih (hstep s i m hs)

/-- A property of the reached states and of the observer's value that follows from an invariant, where
the invariant is kept by every step but the bad ones, and a bad step ends the property: the property
holds all along a run if and only if no step is bad. -/
theorem watch_iff_along {obs : μ → ε → μ} {I G : σ → μ → Prop} {B : σ → ι → Prop}
    (hstep : ∀ s i m, ¬ B s i → I s m → I (M.step s i).1 ((M.step s i).2.foldl obs m))
    (hgood : ∀ s m, I s m → G s m)
    (hbad : ∀ s i m, B s i → I s m → ¬ G (M.step s i).1 ((M.step s i).2.foldl obs m))
    {s : σ} {m : μ} (hs : I s m) (is : List ι) :
    (∀ before, before <+: is → G (M.run s before) ((M.trace s before).foldl obs m)) ↔
      M.Along (fun s i => ¬ B s i) s is := by
  induction is generalizing s m with
  | nil =>
    refine ⟨fun _ => trivial, fun _ before hb => ?_⟩
    obtain rfl := List.prefix_nil.mp hb
    exact hgood s m hs
  | cons i is ih =>
    rw [along_cons]
    by_cases hB : B s i
    · refine ⟨fun h => absurd (h [i] ?_) ?_, fun h => absurd hB h.1⟩
      · exact (List.prefix_cons_inj i).mpr (List.nil_prefix ..)
      · simpa using hbad s i m hB hs
    · rw [← ih (hstep s i m hB hs)]
      constructor
      · refine fun h => ⟨hB, fun before hb => ?_⟩
        simpa [List.foldl_append] using h (i :: before) ((List.prefix_cons_inj i).mpr hb)
      · rintro ⟨-, h⟩ before hb
        cases before with
        | nil => exact hgood s m hs
        | cons j before =>
          obtain ⟨rfl, hrest⟩ := List.cons_prefix_cons.mp hb
          simpa [List.foldl_append] using h before hrest

/-- The same where a bad step dooms the property and does not end it yet: a doomed run goes on until
the property is ended, by an input of `X` at the latest. The property holds all along a run, and after
one more input of `X`, if and only if no step of the run is bad. -/
theorem watch_iff_along_doomed {obs : μ → ε → μ} {I G D : σ → μ → Prop} {B : σ → ι → Prop}
    {X : ι → Prop}
    (hstep : ∀ s i m, ¬ B s i → I s m → I (M.step s i).1 ((M.step s i).2.foldl obs m))
    (hgood : ∀ s m, I s m → G s m)
    (hlast : ∀ s i m, X i → I s m → G (M.step s i).1 ((M.step s i).2.foldl obs m))
    (hbad : ∀ s i m, B s i → I s m → D (M.step s i).1 ((M.step s i).2.foldl obs m))
    (hdoomed : ∀ s i m, D s m → ¬ G (M.step s i).1 ((M.step s i).2.foldl obs m) ∨
      D (M.step s i).1 ((M.step s i).2.foldl obs m))
    (hend : ∀ s i m, X i → D s m → ¬ G (M.step s i).1 ((M.step s i).2.foldl obs m))
    {x : ι} (hx : X x) {s : σ} {m : μ} (hs : I s m) (is : List ι) :
    (∀ x, X x → ∀ before, before <+: is ++ [x] →
      G (M.run s before) ((M.trace s before).foldl obs m)) ↔
    M.Along (fun s i => ¬ B s i) s is := by
  have hfails : ∀ is s m, D s m → ¬ ∀ before, before <+: is ++ [x] →
      G (M.run s before) ((M.trace s before).foldl obs m) := by
    intro is
    induction is with
    | nil =>
      intro s m hD h
      have hlast := h [x] (List.prefix_refl _)
      simp only [M.run_cons, M.run_nil, M.trace_cons, M.trace_nil, List.append_nil] at hlast
      exact hend s x m hx hD hlast
    | cons i is ih =>
      intro s m hD h
      rcases hdoomed s i m hD with hG | hD'
      · have hone := h [i] ((List.prefix_cons_inj i).mpr (List.nil_prefix ..))
        simp only [M.run_cons, M.run_nil, M.trace_cons, M.trace_nil, List.append_nil] at hone
        exact hG hone
      · refine ih _ _ hD' fun before hb => ?_
        simpa [List.foldl_append] using h (i :: before) ((List.prefix_cons_inj i).mpr hb)
  induction is generalizing s m with
  | nil =>
    refine ⟨fun _ => trivial, fun _ y hy before hb => ?_⟩
    rcases List.prefix_cons_iff.mp hb with rfl | ⟨t, rfl, ht⟩
    · exact hgood s m hs
    · obtain rfl := List.prefix_nil.mp ht
      simpa using hlast s y m hy hs
  | cons i is ih =>
    rw [along_cons]
    by_cases hB : B s i
    · refine ⟨fun h => absurd (fun before hb => ?_) (hfails is _ _ (hbad s i m hB hs)),
        fun h => absurd hB h.1⟩
      simpa [List.foldl_append] using h x hx (i :: before) ((List.prefix_cons_inj i).mpr hb)
    · refine Iff.trans ?_ (and_congr_right' (ih (hstep s i m hB hs)))
      constructor
      · refine fun h => ⟨hB, fun y hy before hb => ?_⟩
        simpa [List.foldl_append] using h y hy (i :: before) ((List.prefix_cons_inj i).mpr hb)
      · rintro ⟨-, h⟩ y hy before hb
        cases before with
        | nil => exact hgood s m hs
        | cons j before =>
          obtain ⟨rfl, hrest⟩ := List.cons_prefix_cons.mp hb
          simpa [List.foldl_append] using h y hy before hrest

/-- Two machines whose steps keep `R` and give the same events on the same input give the same
events on every list of inputs. -/
theorem trace_eq {τ : Type} {N : Machine τ ι ε} {R : σ → τ → Prop}
    (hstep : ∀ s t i, R s t → (M.step s i).2 = (N.step t i).2 ∧ R (M.step s i).1 (N.step t i).1)
    {s : σ} {t : τ} (h : R s t) (is : List ι) :
    M.trace s is = N.trace t is ∧ R (M.run s is) (N.run t is) := by
  induction is generalizing s t with
  | nil => exact ⟨rfl, h⟩
  | cons i is ih =>
    obtain ⟨he, hR⟩ := hstep s t i h
    obtain ⟨ht, hr⟩ := ih hR
    exact ⟨by rw [trace_cons, trace_cons, he, ht], hr⟩

/-- Where each step of `M` does what an observer `O` makes of it as inputs of `N`, with the same visible
events, so does every run. -/
theorem observed_along {τ κ γ : Type} {N : Machine τ κ ε} {O : Machine γ (σ × ι) κ}
    {visible : ε → Bool} {R : γ → σ → τ → Prop} {P : σ → ι → Prop}
    (hstep : ∀ g s t i, P s i → R g s t →
      (M.step s i).2.filter visible = N.trace t (O.step g (s, i)).2 ∧
        R (O.step g (s, i)).1 (M.step s i).1 (N.run t (O.step g (s, i)).2))
    {g : γ} {s : σ} {t : τ} {is : List ι} (hP : M.Along P s is) (h : R g s t) :
    (M.trace s is).filter visible = N.trace t (O.trace g (M.visits s is)) ∧
      R (O.run g (M.visits s is)) (M.run s is) (N.run t (O.trace g (M.visits s is))) := by
  induction is generalizing g s t with
  | nil => exact ⟨rfl, h⟩
  | cons i is ih =>
    obtain ⟨he, hR⟩ := hstep g s t i hP.1 h
    obtain ⟨ht, hr⟩ := ih hP.2 hR
    rw [visits_cons, trace_cons, run_cons, trace_cons, run_cons, trace_append, run_append,
      List.filter_append, he, ht]
    exact ⟨rfl, hr⟩

end Machine

end Lib
