import NixieTracker.ShiftRegister.Driver
import Mathlib.Data.Nat.Bitwise

/-!
# A transmission is one serial frame

`bitAt data i`: the `i`-th bit on the wire, the most significant bit of `data[0]` first.

* `run_bit`, `run_bits`, `run_byte`, `run_bytes`: what the calls for one bit, some bits of a byte,
  a byte with its pause and several bytes do to the module and which events they give, by induction
  over the bits and then over the bytes.
* `run_send`/`trace_send`: a whole transmission. It takes `19 * numBytes + 1` calls from
  `APP_ShiftRegister_SendData`, whatever the module did before.
* `lines_send_frame`: the line writes of a transmission are a `Lib.Wave.Frame` of the bits.
* `sendData_transmits`: the contract of the module on its four lines.
-/

namespace NixieTracker

namespace ShiftRegister

open Lib Lib.Wave

variable (data : Vector UInt8 shiftRegisterMaxData) (numBytes : Nat)

/-- The `i`-th bit on the wire: bit `7 - i % 8` of `data[i / 8]`. -/
def bitAt (i : Nat) : Bool := ((data[i / 8]?).getD 0).toNat.testBit (7 - i % 8)

/-- The events of the two calls for the `i`-th bit. -/
def bitEvents (i : Nat) : List ShiftRegisterEvent :=
  [.read (i / 8), .port .data (!bitAt data i), pullUp .srck, pullDown .srck]

/-- The module before the calls for bit `k` of byte `b`. -/
def atBit (b k : Nat) : AppShiftRegisterData :=
  { state := .transmitStep, data, numBytes, currentByte := b, currentBit := k, counter := 0 }

theorem range_add_range' (m k : Nat) : List.range m ++ List.range' m k = List.range (m + k) := by
  rw [List.range_eq_range', List.range_eq_range', ← List.range'_append_1, Nat.zero_add]

theorem calls_add (j k : Nat) : calls (j + k) = calls j ++ calls k :=
  (List.replicate_append_replicate ..).symm

theorem run_add (d : AppShiftRegisterData) (j k : Nat) :
    machine.run d (calls (j + k)) = machine.run (machine.run d (calls j)) (calls k) := by
  rw [calls_add, Machine.run_append]

theorem trace_add (d : AppShiftRegisterData) (j k : Nat) :
    machine.trace d (calls (j + k)) =
      machine.trace d (calls j) ++ machine.trace (machine.run d (calls j)) (calls k) := by
  rw [calls_add, Machine.trace_append]

/-- The mask of `transmitStep` picks one bit of the byte. -/
theorem and_bit_ne_zero (x : UInt8) {j : Nat} (hj : j < 8) :
    x &&& UInt8.ofNat (1 <<< j) ≠ 0 ↔ x.toNat.testBit j = true := by
  have hpow : (UInt8.ofNat (1 <<< j)).toNat = 2 ^ j := by
    rw [Nat.one_shiftLeft, UInt8.toNat_ofNat']
    exact Nat.mod_eq_of_lt (Nat.pow_lt_pow_right (by decide) hj)
  rw [ne_eq, ← UInt8.toNat_inj, UInt8.toNat_and, hpow, Nat.and_two_pow]
  cases x.toNat.testBit j <;> simp

theorem dataSet_bit {b k : Nat} (hk : k < 8) :
    dataSet ((data[b]?).getD 0 &&& UInt8.ofNat (1 <<< (7 - k))) =
      .port .data (!bitAt data (8 * b + k)) := by
  have hb : (8 * b + k) / 8 = b := by omega
  have hm : (8 * b + k) % 8 = k := by omega
  have h := and_bit_ne_zero ((data[b]?).getD 0) (j := 7 - k) (by omega)
  unfold dataSet bitAt
  rw [hb, hm]
  by_cases hx : (data[b]?).getD 0 &&& UInt8.ofNat (1 <<< (7 - k)) = 0
  · rw [if_neg (by simp [hx]), Bool.eq_false_iff.mpr (fun ht => (h.mpr ht) hx)]; rfl
  · rw [if_pos hx, h.mp hx]; rfl

/-- The two calls for bit `k` of byte `b`: the rising and the falling clock edge. -/
theorem run_bit {b k : Nat} (hk : k < 8) :
    machine.run (atBit data numBytes b k) (calls 2) = atBit data numBytes b (k + 1) ∧
      machine.trace (atBit data numBytes b k) (calls 2) = bitEvents data (8 * b + k) := by
  have hne : k ≠ 8 := by omega
  have hb : (8 * b + k) / 8 = b := by omega
  have hset := dataSet_bit data (b := b) hk
  constructor
  · simp [calls, machine, List.replicate, appShiftRegisterTasks, atBit, transmitStep, hne]
  · simp [calls, machine, List.replicate, appShiftRegisterTasks, atBit, transmitStep, hne,
      bitEvents, hb, hset]

/-- The calls for the bits `0..k` of byte `b`. -/
theorem run_bits {b k : Nat} (hk : k ≤ 8) :
    machine.run (atBit data numBytes b 0) (calls (2 * k)) = atBit data numBytes b k ∧
      machine.trace (atBit data numBytes b 0) (calls (2 * k)) =
        (List.range' (8 * b) k).flatMap (bitEvents data) := by
  induction k with
  | zero => exact ⟨rfl, rfl⟩
  | succ k ih =>
    obtain ⟨hr, ht⟩ := ih (by omega)
    obtain ⟨hr', ht'⟩ := run_bit data numBytes (b := b) (k := k) (by omega)
    rw [show 2 * (k + 1) = 2 * k + 2 by omega, run_add, trace_add, hr, ht, hr', ht',
      List.range'_1_concat]
    simp

/-- The calls for a byte that is not the last one, with the pause after it. -/
theorem run_byte {b : Nat} (hb : b + 1 < numBytes) :
    machine.run (atBit data numBytes b 0) (calls 19) = atBit data numBytes (b + 1) 0 ∧
      machine.trace (atBit data numBytes b 0) (calls 19) =
        (List.range' (8 * b) 8).flatMap (bitEvents data) := by
  obtain ⟨hr, ht⟩ := run_bits data numBytes (b := b) (k := 8) (Nat.le_refl 8)
  have hne : b + 1 ≠ numBytes := by omega
  have hend : machine.run (atBit data numBytes b 8) (calls 3) = atBit data numBytes (b + 1) 0 ∧
      machine.trace (atBit data numBytes b 8) (calls 3) = [] := by
    simp [calls, machine, List.replicate, appShiftRegisterTasks, atBit, transmitStep,
      transmitPause, hne]
  rw [show (19 : Nat) = 2 * 8 + 3 from rfl, run_add, trace_add, hr, ht, hend.1, hend.2]
  simp

/-- The calls for the last byte, the latch and the way to `IDLE`. -/
theorem run_last {b : Nat} (hb : b + 1 = numBytes) :
    (machine.run (atBit data numBytes b 0) (calls 18)).state = .transmitFinish ∧
      (machine.run (atBit data numBytes b 0) (calls 19)).state = .idle ∧
      machine.trace (atBit data numBytes b 0) (calls 19) =
        (List.range' (8 * b) 8).flatMap (bitEvents data) ++
          [pullUp .rck, pullDown .rck, pullDown .en] := by
  obtain ⟨hr, ht⟩ := run_bits data numBytes (b := b) (k := 8) (Nat.le_refl 8)
  refine ⟨?_, ?_, ?_⟩
  · rw [show (18 : Nat) = 2 * 8 + 2 from rfl, run_add, hr]
    simp [calls, machine, List.replicate, appShiftRegisterTasks, atBit, transmitStep,
      transmitFinish, hb]
  · rw [show (19 : Nat) = 2 * 8 + 3 from rfl, run_add, hr]
    simp [calls, machine, List.replicate, appShiftRegisterTasks, atBit, transmitStep,
      transmitFinish, hb]
  · rw [show (19 : Nat) = 2 * 8 + 3 from rfl, trace_add, hr, ht]
    simp [calls, machine, List.replicate, appShiftRegisterTasks, atBit, transmitStep,
      transmitFinish, hb]

/-- The calls for the first `m` bytes, none of them the last one. -/
theorem run_bytes {m : Nat} (hm : m < numBytes) :
    machine.run (atBit data numBytes 0 0) (calls (19 * m)) = atBit data numBytes m 0 ∧
      machine.trace (atBit data numBytes 0 0) (calls (19 * m)) =
        (List.range (8 * m)).flatMap (bitEvents data) := by
  induction m with
  | zero => exact ⟨rfl, rfl⟩
  | succ m ih =>
    obtain ⟨hr, ht⟩ := ih (by omega)
    obtain ⟨hr', ht'⟩ := run_byte data numBytes (b := m) hm
    rw [show 19 * (m + 1) = 19 * m + 19 by omega, run_add, trace_add, hr, ht, hr', ht',
      show 8 * (m + 1) = 8 * m + 8 by omega, ← range_add_range', List.flatMap_append]
    simp

/-- The events of the first call. -/
def beginEvents : List ShiftRegisterEvent :=
  [pullDown .data, pullDown .rck, pullDown .srck, pullUp .en]

theorem run_begin (d : AppShiftRegisterData) :
    machine.run (appShiftRegisterSendData d data numBytes) (calls 1) = atBit data numBytes 0 0 ∧
      machine.trace (appShiftRegisterSendData d data numBytes) (calls 1) = beginEvents :=
  ⟨rfl, rfl⟩

/-- A whole transmission ends in `IDLE`, and its last but one call does not. -/
theorem run_send (d : AppShiftRegisterData) (hn : 1 ≤ numBytes) :
    (machine.run (appShiftRegisterSendData d data numBytes) (calls (19 * numBytes))).state =
        .transmitFinish ∧
      (machine.run (appShiftRegisterSendData d data numBytes)
        (calls (19 * numBytes + 1))).state = .idle := by
  obtain ⟨m, rfl⟩ : ∃ m, numBytes = m + 1 := ⟨numBytes - 1, by omega⟩
  obtain ⟨hr, -⟩ := run_bytes data (m + 1) (m := m) (by omega)
  obtain ⟨h18, h19, -⟩ := run_last data (m + 1) (b := m) rfl
  constructor
  · rw [show 19 * (m + 1) = 1 + 19 * m + 18 by omega, run_add, run_add, (run_begin ..).1, hr, h18]
  · rw [show 19 * (m + 1) + 1 = 1 + 19 * m + 19 by omega, run_add, run_add, (run_begin ..).1, hr,
      h19]

theorem trace_send (d : AppShiftRegisterData) (hn : 1 ≤ numBytes) :
    machine.trace (appShiftRegisterSendData d data numBytes) (calls (19 * numBytes + 1)) =
      beginEvents ++ ((List.range (8 * numBytes)).flatMap (bitEvents data) ++
        [pullUp .rck, pullDown .rck, pullDown .en]) := by
  obtain ⟨m, rfl⟩ : ∃ m, numBytes = m + 1 := ⟨numBytes - 1, by omega⟩
  obtain ⟨hr, ht⟩ := run_bytes data (m + 1) (m := m) (by omega)
  obtain ⟨-, -, ht'⟩ := run_last data (m + 1) (b := m) rfl
  rw [show 19 * (m + 1) + 1 = 1 + (19 * m + 19) by omega, trace_add, (run_begin ..).1,
    (run_begin ..).2, trace_add, hr, ht, ht', show 8 * (m + 1) = 8 * m + 8 by omega,
    ← range_add_range', List.flatMap_append]
  simp

/-- `IDLE` is left only by `APP_ShiftRegister_SendData`. -/
theorem run_idle {d : AppShiftRegisterData} (h : d.state = .idle) (k : Nat) :
    machine.run d (calls k) = d := by
  induction k with
  | zero => rfl
  | succ k ih =>
    rw [Nat.add_comm, run_add, show machine.run d (calls 1) = d by
      simp [calls, machine, List.replicate, appShiftRegisterTasks, h]]
    exact ih

theorem trace_idle {d : AppShiftRegisterData} (h : d.state = .idle) (k : Nat) :
    machine.trace d (calls k) = [] := by
  induction k with
  | zero => rfl
  | succ k ih =>
    rw [Nat.add_comm, trace_add, run_idle h, ih, List.append_nil]
    simp [calls, machine, List.replicate, appShiftRegisterTasks, h]

/-- The module is busy until the last call of a transmission. -/
theorem busy_before_end (d : AppShiftRegisterData) (hn : 1 ≤ numBytes) {k : Nat}
    (hk : k < 19 * numBytes + 1) :
    (machine.run (appShiftRegisterSendData d data numBytes) (calls k)).state ≠ .idle := by
  intro hidle
  have h := (run_send data numBytes d hn).1
  obtain ⟨j, hj⟩ := Nat.exists_eq_add_of_le (Nat.le_of_lt_succ hk)
  rw [hj, run_add, run_idle hidle, hidle] at h
  cases h

/-! ## The lines -/

/-- The line writes for one bit: the data level, then a clock pulse. -/
def bitLines (x : Bool) : List (Write ShiftPin) := [(.data, x), (.srck, true), (.srck, false)]

theorem lines_bits (is : List Nat) :
    lines (is.flatMap (bitEvents data)) = (is.map (bitAt data)).flatMap bitLines := by
  induction is with
  | nil => rfl
  | cons i is ih =>
    simp only [List.flatMap_cons, List.map_cons, lines, List.filterMap_append] at ih ⊢
    rw [ih]
    simp [bitEvents, bitLines, ShiftRegisterEvent.line?, pullUp, pullDown, pinOn, pinOff]

theorem reads_bits (is : List Nat) : reads (is.flatMap (bitEvents data)) = is.map (· / 8) := by
  induction is with
  | nil => rfl
  | cons i is ih =>
    simp only [List.flatMap_cons, List.map_cons, reads, List.filterMap_append] at ih ⊢
    rw [ih]
    simp [bitEvents, ShiftRegisterEvent.read?, pullUp, pullDown, pinOn, pinOff]

/-- The line writes of the first call. -/
def beginLines : List (Write ShiftPin) := [(.data, false), (.rck, false), (.srck, false), (.en, true)]

/-- The line writes of the last two calls: the latch pulse, then the outputs are enabled. -/
def endLines : List (Write ShiftPin) := [(.rck, true), (.rck, false), (.en, false)]

/-- The bits of a transmission in the order of the wire. -/
def wireBits : List Bool := (List.range (8 * numBytes)).map (bitAt data)

/-- The line writes of a whole transmission. -/
theorem lines_send (d : AppShiftRegisterData) (hn : 1 ≤ numBytes) :
    lines (machine.trace (appShiftRegisterSendData d data numBytes) (calls (19 * numBytes + 1))) =
      beginLines ++ ((wireBits data numBytes).flatMap bitLines ++ endLines) := by
  rw [trace_send data numBytes d hn, wireBits, ← lines_bits]
  simp [lines, beginEvents, beginLines, endLines, ShiftRegisterEvent.line?, pullUp, pullDown, pinOn,
    pinOff]

/-- Clock pulses with `SRCK` low before them: one rising edge of `SRCK` for each bit, none of
`RCK`; the levels of the other lines stay. -/
theorem rising_bits {ls : Levels ShiftPin} (h : ls .srck = false) (xs : List Bool) :
    (edges .srck ls (xs.flatMap bitLines)).map (fun l => l .data) = xs ∧
      ((rising ls (xs.flatMap bitLines)).filter (fun e => e.1 = .srck ∨ e.1 = .rck)).map (·.1) =
        List.replicate xs.length .srck ∧
      after ls (xs.flatMap bitLines) .srck = false ∧
      after ls (xs.flatMap bitLines) .rck = ls .rck ∧
      after ls (xs.flatMap bitLines) .en = ls .en := by
  induction xs generalizing ls with
  | nil => simp [edges, rising, h]
  | cons x xs ih =>
    have hlow : after ls (bitLines x) .srck = false := by simp [bitLines, write]
    obtain ⟨he, ho, hs, hr, hn⟩ := ih hlow
    have hx : rising ls (bitLines x) =
        (if x = true ∧ ls .data = false then [(ShiftPin.data, write ls (.data, x))] else []) ++
          [(.srck, write (write ls (.data, x)) (.srck, true))] := by
      by_cases hd : x = true ∧ ls .data = false <;> simp [bitLines, rising, write, h, hd]
    rw [List.flatMap_cons, edges_append, rising_append, after_append, List.map_append, he,
      List.filter_append, List.map_append, ho, hx]
    refine ⟨?_, ?_, hs, by rw [hr]; simp [bitLines, write], by rw [hn]; simp [bitLines, write]⟩
    · rw [edges, hx]
      split <;> simp [write]
    · split <;> simp [List.replicate_succ]

/-- The first call gives no rising edge of `SRCK` or `RCK` and leaves both low and `EN` high. -/
theorem rising_begin (ls : Levels ShiftPin) :
    (rising ls beginLines).filter (fun e => e.1 = .srck ∨ e.1 = .rck) = [] ∧
      edges .srck ls beginLines = [] ∧ after ls beginLines .srck = false ∧
      after ls beginLines .rck = false ∧ after ls beginLines .en = true := by
  cases h : ls .en <;> simp [beginLines, edges, rising, write, h]

/-- The last two calls give one rising edge of `RCK`. -/
theorem rising_end {ls : Levels ShiftPin} (h : ls .rck = false) :
    rising ls endLines = [(.rck, write ls (.rck, true))] := by
  simp [endLines, rising, write, h]

/-- The line writes of a transmission are one frame of its bits, from any levels. -/
theorem lines_send_frame (d : AppShiftRegisterData) (ls : Levels ShiftPin) (hn : 1 ≤ numBytes) :
    Frame .data .srck .rck ls (wireBits data numBytes)
      (lines (machine.trace (appShiftRegisterSendData d data numBytes)
        (calls (19 * numBytes + 1)))) := by
  obtain ⟨ho₀, he₀, hs, hr, -⟩ := rising_begin ls
  obtain ⟨he, ho, -, hr', -⟩ := rising_bits hs (wireBits data numBytes)
  have hend := rising_end (hr'.trans hr)
  rw [lines_send data numBytes d hn]
  constructor
  · rw [edges_append, edges_append, he₀, List.nil_append, List.map_append, he, edges, hend]
    simp
  · rw [rising_append, rising_append, List.filter_append, List.filter_append, ho₀, List.nil_append,
      List.map_append, ho, hend]
    simp

/-- **The transmission.** From any state of the module and any levels of the lines,
`APP_ShiftRegister_SendData` of `1` to `6` bytes followed by calls of `APP_ShiftRegister_Tasks`
reaches `IDLE` at call `19 * numBytes + 1` and not before. The line writes on the way are one frame
of the bits; `EN` is high from the end of the first call to the `RCK` edge; only the first
`numBytes` staged bytes are read; at the end `SRCK`, `RCK` and `EN` are low. -/
theorem sendData_transmits (d : AppShiftRegisterData) (ls : Levels ShiftPin) (h1 : 1 ≤ numBytes)
    (h6 : numBytes ≤ shiftRegisterMaxData) :
    let d₀ := appShiftRegisterSendData d data numBytes
    let len := 19 * numBytes + 1
    let first := lines (machine.trace d₀ (calls 1))
    let ws := lines (machine.trace d₀ (calls len))
    (machine.run d₀ (calls len)).state = .idle ∧
    (∀ k < len, (machine.run d₀ (calls k)).state ≠ .idle) ∧
    Frame .data .srck .rck ls (wireBits data numBytes) ws ∧
    (∃ mid post, ws = first ++ mid ++ (.rck, true) :: post ∧
      after ls (first ++ mid) .rck = false ∧
      ∀ l ∈ after ls first :: wave (after ls first) (mid ++ [(.rck, true)]), l .en = true) ∧
    (∀ i ∈ reads (machine.trace d₀ (calls len)), i < numBytes ∧ i < shiftRegisterMaxData) ∧
    after ls ws .srck = false ∧ after ls ws .rck = false ∧ after ls ws .en = false := by
  intro d₀ len first ws
  have hws : ws = beginLines ++ ((wireBits data numBytes).flatMap bitLines ++ endLines) :=
    lines_send data numBytes d h1
  have hfirst : first = beginLines := rfl
  obtain ⟨-, -, hs, hr, hen⟩ := rising_begin ls
  obtain ⟨-, -, hs', hr', -⟩ := rising_bits hs (wireBits data numBytes)
  refine ⟨(run_send data numBytes d h1).2, fun k hk => busy_before_end data numBytes d h1 hk,
    lines_send_frame data numBytes d ls h1, ?_, ?_, ?_⟩
  · refine ⟨(wireBits data numBytes).flatMap bitLines, [(.rck, false), (.en, false)], ?_, ?_, ?_⟩
    · rw [hws, hfirst, List.append_assoc]; rfl
    · rw [hfirst, after_append, hr', hr]
    · intro l hl
      rcases List.mem_cons.mp hl with rfl | hl
      · exact hen
      · exact wave_high hen (by simp [bitLines]) l hl
  · intro i hi
    have htrace : machine.trace d₀ (calls len) = _ := trace_send data numBytes d h1
    have hmem : i ∈ (List.range (8 * numBytes)).map (· / 8) := by
      rw [← reads_bits data]
      rw [htrace] at hi
      simpa [reads, beginEvents, ShiftRegisterEvent.read?, pullUp, pullDown, pinOn, pinOff] using hi
    obtain ⟨j, hj, rfl⟩ := List.mem_map.mp hmem
    have := List.mem_range.mp hj
    omega
  · rw [hws, after_append, after_append]
    refine ⟨?_, rfl, rfl⟩
    simpa [endLines, write] using hs'

/-- Six bytes sent in the middle of a pause, all lines high. -/
theorem sendData_transmits_six :
    (machine.run (appShiftRegisterSendData
        ⟨.transmitPause, Vector.replicate 6 0, 0, 0, 0, 1⟩ (Vector.replicate 6 0xaa) 6)
        (calls 115)).state = .idle :=
  (sendData_transmits (Vector.replicate 6 0xaa) 6
    ⟨.transmitPause, Vector.replicate 6 0, 0, 0, 0, 1⟩ (fun _ => true) (by decide) (by decide)).1

end ShiftRegister

end NixieTracker
