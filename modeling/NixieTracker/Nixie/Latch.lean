import NixieTracker.Nixie.Wiring
import NixieTracker.ShiftRegister.Transmission

/-!
# What is latched is what is to be displayed

The nixie module and the shift register module, called in any order, in front of the chain of six
registers.

* `nixieAt_step`, `showing_step`: what one call does on the way from `BEGIN_DISPLAY_SEQUENCE` to `IDLE`.
* `DisplayRun`: a run of both modules from `BEGIN_DISPLAY_SEQUENCE` until both are idle.
* `rounds_end`: calls in turn lead to the end of such a run.
* `output_iff`: an output is on if and only if a tube shows a digit that is wired to it.
* `latched_is_displayed`: the outputs of every run, and what follows for the tubes.
-/

namespace NixieTracker

open Lib Lib.Wave

/-- A call of `APP_Nixie_Tasks` or of `APP_ShiftRegister_Tasks`. -/
inductive DisplayCall where
  | nixie (answers : NixieAnswers)
  | shiftRegister

inductive DisplayEvent where
  | nixie (e : NixieEvent)
  | shiftRegister (e : ShiftRegisterEvent)

namespace Display

variable {κ : Type}

def step (self : κ) (v : NixieView κ) : DisplayCall → NixieView κ × List DisplayEvent
  | .nixie answers =>
    ((appNixieTasks self answers v).1, (appNixieTasks self answers v).2.map .nixie)
  | .shiftRegister =>
    ({ v with shiftRegister := (appShiftRegisterTasks v.shiftRegister).1 },
      (appShiftRegisterTasks v.shiftRegister).2.map .shiftRegister)

def machine (self : κ) : Machine (NixieView κ) DisplayCall DisplayEvent where
  step := step self

/-- The writes to the lines of the registers. -/
def lines (es : List DisplayEvent) : List (Write ShiftPin) :=
  es.filterMap fun
    | .nixie _ => none
    | .shiftRegister e => e.line?

/-- The module's data with `p` calls to go before the registers are written. -/
def nixieAt (d : AppNixieData) : Nat → AppNixieData
  | 0 => encodeShiftRegister (decodeDisplayValue d)
  | 1 => decodeDisplayValue d
  | 2 => { d with state := .decodeDisplayValue }
  | _ => d

/-- The bytes that are to be sent. -/
def bytesToSend (d : AppNixieData) : Buf numNixieShiftRegisters := (nixieAt d 0).registerShiftState

section Steps

variable {d : AppNixieData} (self : κ) {v : NixieView κ}

theorem nixieAt_state (hd : d.state = .beginDisplaySequence) {p : Nat} (hp : p ≤ 3) :
    (nixieAt d p).state ≠ .idle := by
  interval_cases p
  · simp [nixieAt, encodeShiftRegister]
  · simp [nixieAt, decodeDisplayValue]
  · simp [nixieAt]
  · simp [nixieAt, hd]

/-- The calls that prepare the bytes. -/
theorem nixieAt_step (hd : d.state = .beginDisplaySequence) (answers : NixieAnswers) {p : Nat}
    (hp : p < 3) (hv : v.nixie = nixieAt d (p + 1)) :
    step self v (.nixie answers) = ({ v with nixie := nixieAt d p }, []) := by
  unfold step appNixieTasks
  rw [hv]
  interval_cases p
  · rfl
  · rfl
  · simp [nixieAt, hd]

/-- The call that hands the bytes over, once the shift register module is free. -/
theorem write_step (answers : NixieAnswers) (hv : v.nixie = nixieAt d 0) :
    (v.shiftRegister.state ≠ .idle → step self v (.nixie answers) = (v, [])) ∧
    (v.shiftRegister.state = .idle → step self v (.nixie answers) =
      ({ v with
        nixie := { nixieAt d 0 with state := .idle }
        shiftRegister := appShiftRegisterSendData v.shiftRegister (bytesToSend d)
          d.numShiftRegisters }, [])) := by
  have hwrite : step self v (.nixie answers) =
      ({ v with
        nixie := (writeShiftRegister (nixieAt d 0) v.shiftRegister).1
        shiftRegister := (writeShiftRegister (nixieAt d 0) v.shiftRegister).2 }, []) := by
    unfold step appNixieTasks
    rw [hv]
    rfl
  rw [hwrite]
  unfold writeShiftRegister appShiftRegisterIsBusy
  constructor
  · intro hbusy
    rw [if_pos (by simpa using hbusy), ← hv]
  · intro hfree
    rw [if_neg (by simpa using hfree)]
    rfl

/-- The bytes are being prepared, or they are handed over. -/
def Showing (d : AppNixieData) (v : NixieView κ) : Prop :=
  (∃ p ≤ 3, v.nixie = nixieAt d p) ∨
    (v.nixie.state = .idle ∧ ∃ shiftRegister, v.shiftRegister =
      appShiftRegisterSendData shiftRegister (bytesToSend d) d.numShiftRegisters)

theorem showing_step (hbegin : d.state = .beginDisplaySequence) (call : DisplayCall)
    (hbusy : v.nixie.state ≠ .idle) (h : Showing d v) : Showing d (step self v call).1 := by
  rcases h with ⟨p, hp, hv⟩ | ⟨hidle, -⟩
  · cases call with
    | shiftRegister => exact .inl ⟨p, hp, hv⟩
    | nixie answers =>
      cases p with
      | zero =>
        obtain ⟨hwait, hsend⟩ := write_step self answers hv
        by_cases hfree : v.shiftRegister.state = .idle
        · rw [hsend hfree]
          exact .inr ⟨rfl, v.shiftRegister, rfl⟩
        · rw [hwait hfree]
          exact .inl ⟨0, hp, hv⟩
      | succ p =>
        rw [nixieAt_step self hbegin answers (by omega) hv]
        exact .inl ⟨p, by omega, rfl⟩
  · exact absurd hidle hbusy

end Steps

/-! ## Runs -/

/-- The fields that `APP_Nixie_Initialize` sets up for the display. -/
def SetUp (d : AppNixieData) : Prop :=
  ∃ (memory : AppNixieData) (shiftRegister : AppShiftRegisterData),
    let set := (appNixieInitialize memory shiftRegister).1
    d.numNixies = set.numNixies ∧ d.numShiftRegisters = set.numShiftRegisters ∧
      d.nixieTypes = set.nixieTypes ∧ d.cathodeMapping = set.cathodeMapping

theorem SetUp.wired {d : AppNixieData} (h : SetUp d) : Wired d := by
  obtain ⟨memory, shiftRegister, h1, h2, h3, h4⟩ := h
  obtain ⟨w1, w2, w3, w4⟩ := appNixieInitialize_wired memory shiftRegister
  refine ⟨h1.trans w1, h2.trans w2, ?_, ?_⟩
  · rw [h3]
    exact w3
  · unfold cathodePlace
    rw [h4]
    exact w4

/-- A run of the nixie module from `BEGIN_DISPLAY_SEQUENCE` to `IDLE`, with calls of the shift register
module anywhere between, and then of the shift register module until it is idle. The lines have any
levels before it, and the chain of the six registers any content. -/
structure DisplayRun (κ : Type) where
  self : κ
  start : NixieView κ
  calls : List DisplayCall
  /-- The number of calls of the shift register module at the end. -/
  rest : Nat
  levels : Levels ShiftPin
  chain : Chain 48
  setUp : SetUp start.nixie
  begins : start.nixie.state = .beginDisplaySequence
  busy : (machine self).Along (fun v _ => v.nixie.state ≠ .idle) start calls
  idle : ((machine self).run start calls).nixie.state = .idle
  sent : (ShiftRegister.machine.run ((machine self).run start calls).shiftRegister
    (ShiftRegister.calls rest)).state = .idle

namespace DisplayRun

variable (r : DisplayRun κ)

/-- The line writes of the run. -/
def lines : List (Write ShiftPin) :=
  Display.lines ((machine r.self).trace r.start r.calls) ++
    ShiftRegister.lines (ShiftRegister.machine.trace
      ((machine r.self).run r.start r.calls).shiftRegister (ShiftRegister.calls r.rest))

/-- Output `k` of register `b` after the run; register `0` is the nearest. -/
def output (b : Fin numNixieShiftRegisters) (k : Fin 8) : Bool :=
  (r.chain.feed .data .srck .rck r.levels r.lines).outputs ⟨8 * b.val + k.val, by
    have : b.val < 6 := b.isLt
    omega⟩

theorem handedOver : ∃ shiftRegister, ((machine r.self).run r.start r.calls).shiftRegister =
    appShiftRegisterSendData shiftRegister (bytesToSend r.start.nixie) numNixieShiftRegisters := by
  have hshowing : Showing r.start.nixie ((machine r.self).run r.start r.calls) :=
    Machine.run_inv_along (fun v call => showing_step r.self r.begins call) r.busy
      (.inl ⟨3, Nat.le_refl _, rfl⟩)
  rcases hshowing with ⟨p, hp, hv⟩ | ⟨-, shiftRegister, h⟩
  · have hidle := r.idle
    rw [hv] at hidle
    exact absurd hidle (nixieAt_state r.begins hp)
  · rw [r.setUp.wired.numShiftRegisters] at h
    exact ⟨shiftRegister, h⟩

/-- The last transmission of the run is a frame of the bytes. -/
theorem rest_trace (shiftRegister : AppShiftRegisterData) (rest : Nat)
    (h : (ShiftRegister.machine.run (appShiftRegisterSendData shiftRegister
      (bytesToSend r.start.nixie) numNixieShiftRegisters) (ShiftRegister.calls rest)).state = .idle) :
    ShiftRegister.machine.trace (appShiftRegisterSendData shiftRegister
        (bytesToSend r.start.nixie) numNixieShiftRegisters) (ShiftRegister.calls rest) =
      ShiftRegister.machine.trace (appShiftRegisterSendData shiftRegister
        (bytesToSend r.start.nixie) numNixieShiftRegisters)
        (ShiftRegister.calls (19 * numNixieShiftRegisters + 1)) := by
  have hlong : 19 * numNixieShiftRegisters + 1 ≤ rest := by
    by_contra hlt
    exact ShiftRegister.busy_before_end _ _ shiftRegister (by decide) (by omega) h
  obtain ⟨k, rfl⟩ := Nat.exists_eq_add_of_le hlong
  rw [ShiftRegister.trace_add, ShiftRegister.trace_idle (ShiftRegister.run_send _ _ _ (by decide)).2,
    List.append_nil]

/-- The chain is left with the bits of the bytes, latched. -/
theorem output_eq (b : Fin numNixieShiftRegisters) (k : Fin 8) :
    r.output b k =
      (bytesToSend r.start.nixie)[numNixieShiftRegisters - 1 - b.val].toNat.testBit k.val := by
  obtain ⟨shiftRegister, h⟩ := r.handedOver
  have hsent := r.sent
  have hb : b.val < 6 := b.isLt
  rw [h] at hsent
  unfold output lines
  rw [h, r.rest_trace shiftRegister r.rest hsent, Chain.feed_append,
    Chain.feed_frame (by decide) (ShiftRegister.lines_send_frame _ _ _ _ (by decide))]
  have hlen :
      (ShiftRegister.wireBits (bytesToSend r.start.nixie) numNixieShiftRegisters).length = 48 := by
    rw [ShiftRegister.wireBits, List.length_map, List.length_range]
    rfl
  rw [Chain.latch_outputs, Chain.stages_shiftAll _ _ _ (by rw [hlen]; simp only; omega)]
  simp only [ShiftRegister.wireBits, List.getElem_map, List.getElem_range, ShiftRegister.bitAt,
    List.length_map, List.length_range]
  -- The last byte on the wire is the one for the nearest register, its last bit is bit 0.
  have hbyte : (8 * numNixieShiftRegisters - 1 - (8 * b.val + k.val)) / 8 =
      numNixieShiftRegisters - 1 - b.val := by
    show (48 - 1 - _) / 8 = 6 - 1 - _
    omega
  have hbit : 7 - (8 * numNixieShiftRegisters - 1 - (8 * b.val + k.val)) % 8 = k.val := by
    show 7 - (48 - 1 - _) % 8 = _
    omega
  rw [hbyte, hbit, Vector.getElem?_eq_getElem (by omega)]
  rfl

/-- The cathode of `symbol` on tube `t` is lit. -/
def Lit (t : Nat) (symbol : UInt8) : Prop :=
  ∃ (b : Fin numNixieShiftRegisters) (k : Fin 8),
    cathodePlace r.start.nixie t (in12aSymbolToCathodeIndex symbol) = some ⟨b.val, k.val⟩ ∧
      r.output b k = true

theorem output_iff (b : Fin numNixieShiftRegisters) (k : Fin 8) :
    r.output b k = true ↔ ∃ t < maxNixieTubes, ∃ symbol, Shows r.start.nixie.displayValue t symbol ∧
      cathodePlace r.start.nixie t (in12aSymbolToCathodeIndex symbol) = some ⟨b.val, k.val⟩ := by
  rw [r.output_eq b k]
  exact encode_decode_testBit r.setUp.wired b.isLt

/-- A digit's cathode is lit if and only if its tube shows that digit. -/
theorem lit_iff {t : Nat} (ht : t < maxNixieTubes) {symbol : UInt8} (hs : isDigit symbol = true) :
    r.Lit t symbol ↔ Shows r.start.nixie.displayValue t symbol := by
  have hplace := r.setUp.wired.digitPlace
  constructor
  · rintro ⟨b, k, hwired, hon⟩
    obtain ⟨t', ht', symbol', hshows, hwired'⟩ := (r.output_iff b k).mp hon
    rw [hplace t ht symbol hs] at hwired
    rw [hplace t' ht' symbol' hshows.2] at hwired'
    obtain ⟨rfl, rfl⟩ := placeOf_injective ht ht' hs hshows.2 (hwired.trans hwired'.symm)
    exact hshows
  · intro hshows
    obtain ⟨b, k, hb, hk, hof⟩ := placeOf_digit ht hs
    have hwired := (hplace t ht symbol hs).trans hof
    exact ⟨⟨b, hb⟩, ⟨k, hk⟩, hwired, (r.output_iff ⟨b, hb⟩ ⟨k, hk⟩).mpr ⟨t, ht, symbol, hshows, hwired⟩⟩

/-- One digit of a tube is lit at most. -/
theorem existsUnique_lit {t : Nat} (ht : t < maxNixieTubes)
    (h : ∃ symbol, Shows r.start.nixie.displayValue t symbol) :
    ∃! symbol, isDigit symbol = true ∧ r.Lit t symbol := by
  obtain ⟨symbol, hs⟩ := h
  refine ⟨symbol, ⟨hs.2, (r.lit_iff ht hs.2).mpr hs⟩, ?_⟩
  rintro symbol' ⟨hdigit, hlit⟩
  have hs' := (r.lit_iff ht hdigit).mp hlit
  exact Option.some.inj (hs'.1.symm.trans hs.1)

/-- Runs with the same outputs show the same digits. -/
theorem shows_of_output_eq {r r' : DisplayRun κ} (h : r.output = r'.output) {t : Nat}
    (ht : t < maxNixieTubes) {symbol : UInt8} (hs : Shows r.start.nixie.displayValue t symbol) :
    Shows r'.start.nixie.displayValue t symbol := by
  obtain ⟨b, k, hwired, hon⟩ := (r.lit_iff ht hs.2).mpr hs
  refine (r'.lit_iff ht hs.2).mp ⟨b, k, ?_, ?_⟩
  · rwa [r'.setUp.wired.digitPlace t ht symbol hs.2, ← r.setUp.wired.digitPlace t ht symbol hs.2]
  · rwa [← h]

end DisplayRun

/-! ## The end of a run -/

/-- The modules are called in turn, as in the main loop. -/
def rounds (answers : List NixieAnswers) : List DisplayCall :=
  answers.flatMap fun a => [.shiftRegister, .nixie a]

/-- The shift register module is idle after `k` more calls. -/
def IdleWithin (k : Nat) (d : AppShiftRegisterData) : Prop :=
  (ShiftRegister.machine.run d (ShiftRegister.calls k)).state = .idle

theorem idleWithin_succ {k : Nat} {d : AppShiftRegisterData} (h : IdleWithin k d) :
    IdleWithin (k + 1) d := by
  unfold IdleWithin at *
  rw [ShiftRegister.run_add, ShiftRegister.run_idle h]
  exact h

theorem idleWithin_tasks {k : Nat} {d : AppShiftRegisterData} (h : IdleWithin (k + 1) d) :
    IdleWithin k (appShiftRegisterTasks d).1 := h

/-- A transmission that has begun ends within 115 calls. -/
theorem idleWithin_sending (d : AppShiftRegisterData) (data : Vector UInt8 shiftRegisterMaxData)
    {numBytes : Nat} (h1 : 1 ≤ numBytes) (h6 : numBytes ≤ shiftRegisterMaxData) (j : Nat) :
    IdleWithin 115 (ShiftRegister.machine.run (appShiftRegisterSendData d data numBytes)
      (ShiftRegister.calls j)) := by
  have h6 : numBytes ≤ 6 := h6
  obtain ⟨k, hk⟩ := Nat.exists_eq_add_of_le (show 19 * numBytes + 1 ≤ j + 115 by omega)
  have hidle := (ShiftRegister.run_send data numBytes d h1).2
  unfold IdleWithin
  rw [← ShiftRegister.run_add, hk, ShiftRegister.run_add, ShiftRegister.run_idle hidle]
  exact hidle

/-- With `p` calls to go before the bytes are written and a transmission that ends within `k` calls,
`p + k + 1` rounds are enough; the induction is on their sum. -/
theorem rounds_end (self : κ) {d : AppNixieData} (hd : d.state = .beginDisplaySequence)
    (answers : List NixieAnswers) {p k : Nat} (hp : p ≤ 3) (hlen : p + k + 1 ≤ answers.length)
    {v : NixieView κ} (hv : v.nixie = nixieAt d p) (hk : IdleWithin k v.shiftRegister) :
    ∃ m, (machine self).Along (fun v _ => v.nixie.state ≠ .idle) v (rounds (answers.take m)) ∧
      ((machine self).run v (rounds (answers.take m))).nixie.state = .idle := by
  induction answers generalizing p k v with
  | nil => simp at hlen
  | cons a answers ih =>
    rw [List.length_cons] at hlen
    have hbusy : v.nixie.state ≠ .idle := hv ▸ nixieAt_state hd hp
    -- The shift register module's call does not touch the nixie module.
    let v₁ : NixieView κ := { v with shiftRegister := (appShiftRegisterTasks v.shiftRegister).1 }
    have hk₁ : IdleWithin k v₁.shiftRegister := idleWithin_tasks (idleWithin_succ hk)
    have hv₁ : v₁.nixie = nixieAt d p := hv
    -- A run of the rounds after the first one, after that one.
    have hcons : ∀ {v₂ : NixieView κ}, (step self v₁ (.nixie a)).1 = v₂ →
        (∃ m, (machine self).Along (fun v _ => v.nixie.state ≠ .idle) v₂ (rounds (answers.take m)) ∧
          ((machine self).run v₂ (rounds (answers.take m))).nixie.state = .idle) →
        ∃ m, (machine self).Along (fun v _ => v.nixie.state ≠ .idle) v
            (rounds ((a :: answers).take m)) ∧
          ((machine self).run v (rounds ((a :: answers).take m))).nixie.state = .idle := by
      rintro v₂ rfl ⟨m, halong, hidle⟩
      exact ⟨m + 1, ⟨hbusy, hbusy, halong⟩, hidle⟩
    cases p with
    | succ p =>
      refine hcons (congrArg Prod.fst (nixieAt_step self hd a (by omega) hv₁)) ?_
      exact ih (by omega) (by omega) rfl hk₁
    | zero =>
      obtain ⟨hwait, hsend⟩ := write_step self a hv₁
      by_cases hfree : v₁.shiftRegister.state = .idle
      · exact hcons (congrArg Prod.fst (hsend hfree)) ⟨0, trivial, rfl⟩
      · cases k with
        | zero =>
          exact absurd hk₁ hfree
        | succ k =>
          refine hcons (congrArg Prod.fst (hwait hfree)) ?_
          exact ih (by omega) (by omega) hv₁ (idleWithin_tasks hk)

/-- **The display.** From `BEGIN_DISPLAY_SEQUENCE`, with the shift register module anywhere in an
earlier transmission or idle after it, at most 119 rounds of the main loop and then 115 calls of the
shift register module make a `DisplayRun`. After every `DisplayRun` an output is on if and only if a
tube shows a digit that is wired to it. So exactly one digit of a tube is lit if it shows a digit,
and none otherwise; no digit of another tube has the same place; runs with the same outputs show the
same digit on every tube that shows one in either. -/
theorem latched_is_displayed :
    (∀ (self : κ) (start : NixieView κ) (answers : List NixieAnswers) (levels : Levels ShiftPin)
        (chain : Chain 48) (d : AppShiftRegisterData) (data : Vector UInt8 shiftRegisterMaxData)
        (numBytes j : Nat),
      SetUp start.nixie → start.nixie.state = .beginDisplaySequence →
      1 ≤ numBytes → numBytes ≤ shiftRegisterMaxData →
      start.shiftRegister = ShiftRegister.machine.run (appShiftRegisterSendData d data numBytes)
        (ShiftRegister.calls j) →
      answers.length = 119 →
      ∃ r : DisplayRun κ, ∃ m, r.self = self ∧ r.start = start ∧
        r.calls = rounds (answers.take m) ∧ r.rest = 115 ∧ r.levels = levels ∧ r.chain = chain) ∧
    ∀ r : DisplayRun κ,
      (∀ (b : Fin numNixieShiftRegisters) (k : Fin 8), r.output b k = true ↔
        ∃ t < maxNixieTubes, ∃ symbol, Shows r.start.nixie.displayValue t symbol ∧
          cathodePlace r.start.nixie t (in12aSymbolToCathodeIndex symbol) =
            some ⟨b.val, k.val⟩) ∧
      (∀ t < maxNixieTubes,
        ((∃ symbol, Shows r.start.nixie.displayValue t symbol) →
          ∃! symbol, isDigit symbol = true ∧ r.Lit t symbol) ∧
        ((¬ ∃ symbol, Shows r.start.nixie.displayValue t symbol) →
          ∀ symbol, isDigit symbol = true → ¬ r.Lit t symbol)) ∧
      (∀ t < maxNixieTubes, ∀ t' < maxNixieTubes, ∀ s s', isDigit s = true → isDigit s' = true →
        cathodePlace r.start.nixie t (in12aSymbolToCathodeIndex s) =
          cathodePlace r.start.nixie t' (in12aSymbolToCathodeIndex s') → t = t' ∧ s = s') ∧
      ∀ r' : DisplayRun κ, r.output = r'.output → ∀ t < maxNixieTubes, ∀ symbol,
        (Shows r.start.nixie.displayValue t symbol ↔ Shows r'.start.nixie.displayValue t symbol) := by
  refine ⟨?_, fun r => ⟨r.output_iff, fun t ht => ⟨r.existsUnique_lit ht, ?_⟩, ?_, ?_⟩⟩
  · intro self start answers levels chain d data numBytes j hset hbegin h1 h6 hsending hlen
    have hwithin : IdleWithin 115 start.shiftRegister := hsending ▸ idleWithin_sending d data h1 h6 j
    obtain ⟨m, halong, hidle⟩ := rounds_end self hbegin answers (p := 3) (k := 115)
      (Nat.le_refl _) (by omega) rfl hwithin
    have hshowing : Showing start.nixie ((machine self).run start (rounds (answers.take m))) :=
      Machine.run_inv_along (fun v call => showing_step self hbegin call) halong
        (.inl ⟨3, Nat.le_refl _, rfl⟩)
    rcases hshowing with ⟨p, hp, hv⟩ | ⟨-, shiftRegister, h⟩
    · exact absurd (hv ▸ hidle) (nixieAt_state hbegin hp)
    · refine ⟨⟨self, start, rounds (answers.take m), 115, levels, chain, hset, hbegin, halong,
        hidle, ?_⟩, m, rfl, rfl, rfl, rfl, rfl, rfl⟩
      rw [h, hset.wired.numShiftRegisters]
      exact (ShiftRegister.run_send _ _ shiftRegister (by decide)).2
  · intro hnone symbol hs hlit
    exact hnone ⟨symbol, (r.lit_iff ht hs).mp hlit⟩
  · intro t ht t' ht' s s' hs hs' heq
    have hplace := r.setUp.wired.digitPlace
    rw [hplace t ht s hs, hplace t' ht' s' hs'] at heq
    exact placeOf_injective ht ht' hs hs' heq
  · intro r' h t ht symbol
    exact ⟨DisplayRun.shows_of_output_eq h ht, DisplayRun.shows_of_output_eq h.symm ht⟩

/-- The display is shown for the first time, `42` with a blank before it, while the registers are
still being cleared. -/
theorem latched_is_displayed_first :
    ∃ r : DisplayRun Unit, r.start.nixie.displayValue = #v[50, 52, 0, 48] ∧ r.rest = 115 := by
  obtain ⟨r, m, -, hstart, -, hrest, -⟩ := latched_is_displayed.1 ()
    ⟨{ (appNixieInitialize .zeroed .zeroed).1 with
        state := .beginDisplaySequence
        displayValue := #v[50, 52, 0, 48] },
      .zeroed Unit, appShiftRegisterSendData .zeroed (Vector.replicate 6 0) 6⟩
    (List.replicate 119 ⟨0, 0, 0, false⟩) (fun _ => false) ⟨fun _ => false, fun _ => false⟩ .zeroed
    (Vector.replicate 6 0) 6 0 ⟨.zeroed, .zeroed, rfl, rfl, rfl, rfl⟩ rfl (by decide) (by decide) rfl
    (by simp)
  exact ⟨r, by rw [hstart], hrest⟩

end Display

end NixieTracker
