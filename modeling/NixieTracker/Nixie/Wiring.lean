import NixieTracker.Nixie.Tasks
import Mathlib.Tactic.IntervalCases

/-!
# From symbols to register bits

* `Wired`: the display as `APP_Nixie_Initialize` sets it up; `appNixieInitialize_wired`.
* `placeOf t symbol`: the bit that the table of `APP_Nixie_Initialize` gives the symbol of tube `t`.
  `placeOf_injective`: no two digits share a bit, on one tube or on two.
* `decodeDisplayValue_cathodes`, `encodeShiftRegister_bit`: the bits of `register_shift_state` that
  are set are those of the digits shown.
-/

namespace NixieTracker

open Lib

/-! ## The wiring table -/

/-- `cathode_mapping[t][cathode]`. -/
def cathodePlace (d : AppNixieData) (t : Nat) (cathode : Int) : Option NixieCathodeBit :=
  (d.cathodeMapping[t]?).bind (·[cathode.toNat]?)

/-- The place of a symbol in the table of `APP_Nixie_Initialize`. -/
def placeOf (t : Nat) (symbol : UInt8) : Option NixieCathodeBit :=
  (registeredTubes[t]?).bind fun tube => (tube.2.find? (·.symbol = symbol)).map (·.place)

/-- The decimal digits. -/
def digits : List UInt8 := [48, 49, 50, 51, 52, 53, 54, 55, 56, 57]

theorem mem_digits {symbol : UInt8} : symbol ∈ digits ↔ isDigit symbol = true := by
  constructor
  · intro h
    have hall : ∀ s ∈ digits, isDigit s = true := by decide +kernel
    exact hall symbol h
  · intro h
    have hlt : symbol.toNat < 256 := symbol.toNat_lt
    have hall : ∀ n < 256, isDigit (UInt8.ofNat n) = true → UInt8.ofNat n ∈ digits := by
      decide +kernel
    have := hall symbol.toNat hlt
    rw [UInt8.ofNat_toNat] at this
    exact this h

/-- Every digit of every tube has a place on the six registers. -/
theorem placeOf_digit {t : Nat} (ht : t < maxNixieTubes) {symbol : UInt8}
    (hs : isDigit symbol = true) :
    ∃ b k : Nat, b < 6 ∧ k < 8 ∧ placeOf t symbol = some ⟨b, k⟩ := by
  have hall : ∀ t < 4, ∀ s ∈ digits, ∃ b < 6, ∃ k < 8,
      placeOf t s = some ⟨(b : Nat), (k : Nat)⟩ := by
    decide +kernel
  obtain ⟨b, hb, k, hk, h⟩ := hall t ht symbol (mem_digits.mpr hs)
  exact ⟨b, k, hb, hk, h⟩

/-- No two digits share a bit. -/
theorem placeOf_injective {t t' : Nat} (ht : t < maxNixieTubes) (ht' : t' < maxNixieTubes)
    {s s' : UInt8} (hs : isDigit s = true) (hs' : isDigit s' = true)
    (h : placeOf t s = placeOf t' s') : t = t' ∧ s = s' := by
  have hall : ∀ t t' : Fin maxNixieTubes, ∀ s ∈ digits, ∀ s' ∈ digits,
      placeOf t s = placeOf t' s' → t = t' ∧ s = s' := by
    decide +kernel
  obtain ⟨htt, hss⟩ := hall ⟨t, ht⟩ ⟨t', ht'⟩ s (mem_digits.mpr hs) s' (mem_digits.mpr hs') h
  exact ⟨congrArg Fin.val htt, hss⟩

/-! ## The display as it is set up -/

/-- The display as `APP_Nixie_Initialize` sets it up. -/
structure Wired (d : AppNixieData) : Prop where
  numNixies : d.numNixies = maxNixieTubes
  numShiftRegisters : d.numShiftRegisters = numNixieShiftRegisters
  nixieTypes : ∀ t (h : t < maxNixieTubes), d.nixieTypes[t] = .in12a
  digitPlace : ∀ t < maxNixieTubes, ∀ symbol, isDigit symbol = true →
    cathodePlace d t (in12aSymbolToCathodeIndex symbol) = placeOf t symbol

section Registration

/-- The loop of `NIXIE_CATHODE` entries keeps what it does not set. -/
theorem foldl_setPlace_of_not_mem (cs : List NixieCathode) (i : Nat)
    (h : i ∉ cs.map (·.cathodeIndex)) (row : Vector NixieCathodeBit maxNixieCathode) :
    (cs.foldl (fun row c => row.setIfInBounds c.cathodeIndex c.place) row)[i]? = row[i]? := by
  induction cs generalizing row with
  | nil => rfl
  | cons c cs ih =>
    rw [List.map_cons, List.mem_cons, not_or] at h
    rw [List.foldl_cons, ih h.2, Vector.getElem?_setIfInBounds_ne (Ne.symm h.1)]

theorem foldl_setPlace_of_mem {cs : List NixieCathode} (hnd : (cs.map (·.cathodeIndex)).Nodup)
    {c : NixieCathode} (hc : c ∈ cs) (hlt : c.cathodeIndex < maxNixieCathode)
    (row : Vector NixieCathodeBit maxNixieCathode) :
    (cs.foldl (fun row c => row.setIfInBounds c.cathodeIndex c.place) row)[c.cathodeIndex]? =
      some c.place := by
  induction cs generalizing row with
  | nil => cases hc
  | cons a cs ih =>
    rw [List.map_cons, List.nodup_cons] at hnd
    rw [List.foldl_cons]
    rcases List.mem_cons.mp hc with rfl | hc
    · rw [foldl_setPlace_of_not_mem _ _ hnd.1, Vector.getElem?_setIfInBounds_self_of_lt hlt]
    · exact ih hnd.2 hc _

/-- One tube after another. -/
theorem foldl_registerTube (tubes : List (NixieType × List NixieCathode)) (d : AppNixieData)
    (h : d.numNixies + tubes.length ≤ maxNixieTubes) :
    (tubes.foldl registerTube d).numNixies = d.numNixies + tubes.length ∧
    (∀ t < d.numNixies, (tubes.foldl registerTube d).cathodeMapping[t]? = d.cathodeMapping[t]? ∧
      (tubes.foldl registerTube d).nixieTypes[t]? = d.nixieTypes[t]?) ∧
    ∀ i (hi : i < tubes.length),
      (tubes.foldl registerTube d).nixieTypes[d.numNixies + i]? = some tubes[i].1 ∧
      ∃ row, (tubes.foldl registerTube d).cathodeMapping[d.numNixies + i]? =
        some (tubes[i].2.foldl (fun row c => row.setIfInBounds c.cathodeIndex c.place) row) := by
  induction tubes generalizing d with
  | nil => exact ⟨rfl, fun t _ => ⟨rfl, rfl⟩, fun i hi => absurd hi (Nat.not_lt_zero i)⟩
  | cons tube tubes ih =>
    rw [List.length_cons] at h
    have hlt : d.numNixies < maxNixieTubes := by omega
    have hnum : (registerTube d tube).numNixies = d.numNixies + 1 := rfl
    obtain ⟨h1, h2, h3⟩ := ih (registerTube d tube) (by rw [hnum]; omega)
    rw [hnum] at h1 h2 h3
    rw [List.foldl_cons]
    refine ⟨?_, ?_, ?_⟩
    · rw [h1, List.length_cons]
      omega
    · intro t ht
      obtain ⟨hm, hty⟩ := h2 t (by omega)
      rw [hm, hty]
      exact ⟨Vector.getElem?_setIfInBounds_ne (by omega),
        Vector.getElem?_setIfInBounds_ne (by omega)⟩
    · intro i hi
      cases i with
      | zero =>
        obtain ⟨hm, hty⟩ := h2 d.numNixies (Nat.lt_succ_self _)
        rw [Nat.add_zero, hm, hty]
        exact ⟨Vector.getElem?_setIfInBounds_self_of_lt hlt, _,
          Vector.getElem?_setIfInBounds_self_of_lt hlt⟩
      | succ i =>
        have := h3 i (by simpa using hi)
        rw [show d.numNixies + (i + 1) = d.numNixies + 1 + i by omega]
        exact this

/-- The entry of a digit in the table has the index that `IN12A_SymbolToCathodeIndex` gives it. -/
theorem entry_of_digit : ∀ t, ∀ ht : t < registeredTubes.length, ∀ symbol ∈ digits,
    ∃ c ∈ registeredTubes[t].2, placeOf t symbol = some c.place ∧
      in12aSymbolToCathodeIndex symbol = c.cathodeIndex ∧ c.cathodeIndex < maxNixieCathode := by
  decide +kernel

theorem nodup_entries : ∀ t, ∀ ht : t < registeredTubes.length,
    registeredTubes[t].1 = .in12a ∧ (registeredTubes[t].2.map (·.cathodeIndex)).Nodup := by
  decide +kernel

end Registration

theorem appNixieInitialize_wired (d : AppNixieData) (shiftRegister : AppShiftRegisterData) :
    Wired (appNixieInitialize d shiftRegister).1 := by
  obtain ⟨h1, -, h3⟩ := foldl_registerTube registeredTubes { d with
    state := .idle
    displayValueOut := none
    periodicTasksEnabled := true
    periodicNextTime := 0
    taskFromPeriodic := false
    numNixies := 0 } (Nat.le_refl _)
  constructor
  case numNixies => exact h1
  case numShiftRegisters => rfl
  case nixieTypes =>
    intro t ht
    obtain ⟨hty, -⟩ := h3 t ht
    rw [(nodup_entries t ht).1, Nat.zero_add] at hty
    exact (Vector.getElem?_eq_some_iff.mp hty).2
  case digitPlace =>
    intro t ht symbol hs
    obtain ⟨-, row, hrow⟩ := h3 t ht
    obtain ⟨c, hc, hplace, hindex, hlt⟩ := entry_of_digit t ht symbol (mem_digits.mpr hs)
    rw [Nat.zero_add] at hrow
    rw [hplace, hindex]
    unfold cathodePlace
    rw [show (appNixieInitialize d shiftRegister).1.cathodeMapping[t]? = some _ from hrow]
    exact foldl_setPlace_of_mem (nodup_entries t ht).2 hc hlt row

/-! ## Decoding and encoding -/

/-- The cathode of a symbol of an IN-12A tube. -/
theorem in12aSymbolToCathodeIndex_eq_neg_one {symbol : UInt8} :
    in12aSymbolToCathodeIndex symbol = -1 ↔ isDigit symbol = false := by
  have hall : ∀ n < 256, in12aSymbolToCathodeIndex (UInt8.ofNat n) = -1 ↔
      isDigit (UInt8.ofNat n) = false := by
    decide +kernel
  have := hall symbol.toNat symbol.toNat_lt
  rwa [UInt8.ofNat_toNat] at this

/-- A loop that sets one element in each round. -/
theorem foldl_setCathode (f : Nat → Int) (cathodes : Vector Int maxNixieTubes) {n t : Nat}
    (hn : n ≤ maxNixieTubes) (ht : t < n) :
    ((List.range n).foldl (fun cathodes i => cathodes.setIfInBounds i (f i)) cathodes)[t]? =
      some (f t) := by
  induction n with
  | zero => cases ht
  | succ n ih =>
    rw [List.range_succ, List.foldl_append, List.foldl_cons, List.foldl_nil]
    rcases Nat.lt_succ_iff_lt_or_eq.mp ht with hlt | rfl
    · rw [Vector.getElem?_setIfInBounds_ne (by omega)]
      exact ih (by omega) hlt
    · exact Vector.getElem?_setIfInBounds_self_of_lt (by omega)

/-- The cathode of tube `t` is that of the symbol at the mirrored index, as the type at that index has
it. -/
theorem decodeDisplayValue_getElem? {d : AppNixieData} (hn : d.numNixies ≤ maxNixieTubes) {t : Nat}
    (ht : t < d.numNixies) {type : NixieType} (htype : d.nixieTypes[d.numNixies - t - 1]? = some type)
    {symbol : UInt8} (hs : d.displayValue[d.numNixies - t - 1]? = some symbol) :
    (decodeDisplayValue d).cathodes[t]? = some (nixieSymbolToCathodeIndex type symbol) := by
  let cathode (i : Nat) : Int := nixieSymbolToCathodeIndex
    ((d.nixieTypes[d.numNixies - i - 1]?).getD .in12a) ((d.displayValue[d.numNixies - i - 1]?).getD 0)
  have hfold : (decodeDisplayValue d).cathodes = (List.range d.numNixies).foldl
      (fun cathodes i => cathodes.setIfInBounds i (cathode i)) d.cathodes := by
    refine List.foldl_ext _ _ _ fun cathodes i hi => ?_
    have hi : i < d.numNixies := List.mem_range.mp hi
    have hlt : d.numNixies - i - 1 < maxNixieTubes := by omega
    dsimp only [cathode]
    rw [Vector.getElem?_eq_getElem hlt, Vector.getElem?_eq_getElem hlt]
    rfl
  rw [hfold, foldl_setCathode _ _ hn ht]
  dsimp only [cathode]
  rw [htype, hs]
  rfl

/-- Tube `t` gets the cathode of the symbol at `3 - t`. -/
theorem decodeDisplayValue_cathodes {d : AppNixieData} (h : Wired d) {t : Nat}
    (ht : t < maxNixieTubes) {symbol : UInt8}
    (hs : d.displayValue[maxNixieTubes - t - 1]? = some symbol) :
    (decodeDisplayValue d).cathodes[t]? = some (in12aSymbolToCathodeIndex symbol) := by
  have hlt : maxNixieTubes - t - 1 < maxNixieTubes := by omega
  have hn := h.numNixies
  exact decodeDisplayValue_getElem? (t := t) (Nat.le_of_eq hn) (by omega)
    (by rw [hn, Vector.getElem?_eq_getElem hlt, h.nixieTypes _ hlt]) (by rw [hn, hs])

/-- The bit that tube `i` sets. -/
def tubePlace (d : AppNixieData) (i : Nat) : Option NixieCathodeBit :=
  match d.cathodes[i]? with
  | none => none
  | some cathode => if cathode = -1 then none else cathodePlace d i cathode

/-- The place is on the registers. -/
def OnRegisters (place : NixieCathodeBit) : Prop :=
  ∃ b k : Nat, b < numNixieShiftRegisters ∧ k < 8 ∧ place = ⟨b, k⟩

theorem testBit_one_shiftLeft {j k : Nat} (hj : j < 8) :
    (UInt8.ofNat (1 <<< j)).toNat.testBit k = decide (j = k) := by
  have hpow : (UInt8.ofNat (1 <<< j)).toNat = 2 ^ j := by
    rw [Nat.one_shiftLeft, UInt8.toNat_ofNat']
    exact Nat.mod_eq_of_lt (Nat.pow_lt_pow_right (by decide) hj)
  rw [hpow, Nat.testBit_two_pow]

section Encode

variable {d : AppNixieData}

/-- One round of the loop sets the bit of its tube. -/
theorem encodeCathode_testBit (hn : d.numShiftRegisters ≤ numNixieShiftRegisters) {i : Nat}
    (hp : ∀ place ∈ tubePlace d i, OnRegisters place ∧ place.byte < d.numShiftRegisters)
    (registers : Buf numNixieShiftRegisters) {j k : Nat} (hj : j < numNixieShiftRegisters) :
    (encodeCathode d registers i)[j].toNat.testBit k = true ↔
      registers[j].toNat.testBit k = true ∨
        tubePlace d i = some ⟨(d.numShiftRegisters : Int) - j - 1, k⟩ := by
  unfold tubePlace at hp ⊢
  unfold encodeCathode
  cases hc : d.cathodes[i]? with
  | none => simp
  | some cathode =>
    rw [hc] at hp
    dsimp only at hp ⊢
    by_cases hneg : cathode = -1
    · rw [if_pos hneg, if_pos hneg]
      simp
    · rw [if_neg hneg] at hp ⊢
      rw [if_neg hneg]
      unfold cathodePlace at hp ⊢
      cases hplace : (d.cathodeMapping[i]?).bind (·[cathode.toNat]?) with
      | none => simp
      | some place =>
        obtain ⟨⟨b', k', -, hk', rfl⟩, hb'⟩ := hp place hplace
        have hb' : (b' : Int) < d.numShiftRegisters := hb'
        have hnum : (d.numShiftRegisters - (b' : Int) - 1 : Int).toNat =
            d.numShiftRegisters - 1 - b' := by
          omega
        have hlt : d.numShiftRegisters - 1 - b' < numNixieShiftRegisters := by omega
        have hsame : some (⟨b', k'⟩ : NixieCathodeBit) = some ⟨(d.numShiftRegisters : Int) - j - 1, k⟩ ↔
            d.numShiftRegisters - 1 - b' = j ∧ k' = k := by
          rw [Option.some.injEq, NixieCathodeBit.mk.injEq]
          omega
        dsimp only
        rw [hnum, Vector.getElem?_eq_getElem hlt, Vector.getElem_setIfInBounds, Int.toNat_natCast,
          hsame]
        by_cases hbb : d.numShiftRegisters - 1 - b' = j
        · subst hbb
          rw [if_pos rfl, UInt8.toNat_or, Nat.testBit_or, testBit_one_shiftLeft hk', Bool.or_eq_true,
            decide_eq_true_iff, and_iff_right rfl]
        · rw [if_neg hbb]
          exact (or_iff_left fun hboth => hbb hboth.1).symm

/-- The bits that the loop sets. -/
theorem encodeShiftRegister_testBit (hn : d.numShiftRegisters ≤ numNixieShiftRegisters)
    (hp : ∀ t < d.numNixies, ∀ place ∈ tubePlace d t,
      OnRegisters place ∧ place.byte < d.numShiftRegisters)
    {j k : Nat} (hj : j < numNixieShiftRegisters) :
    (encodeShiftRegister d).registerShiftState[j].toNat.testBit k = true ↔
      ∃ t < d.numNixies, tubePlace d t = some ⟨(d.numShiftRegisters : Int) - j - 1, k⟩ := by
  have hloop : ∀ n ≤ d.numNixies,
      ((List.range n).foldl (encodeCathode d) (Vector.replicate _ 0))[j].toNat.testBit k = true ↔
      ∃ t < n, tubePlace d t = some ⟨(d.numShiftRegisters : Int) - j - 1, k⟩ := by
    intro n hn'
    induction n with
    | zero => simp
    | succ n ih =>
      rw [List.range_succ, List.foldl_append, List.foldl_cons, List.foldl_nil,
        encodeCathode_testBit hn (hp n (by omega)) _ hj, ih (by omega)]
      constructor
      · rintro (⟨t, ht, hplace⟩ | hplace)
        · exact ⟨t, by omega, hplace⟩
        · exact ⟨n, by omega, hplace⟩
      · rintro ⟨t, ht, hplace⟩
        rcases Nat.lt_succ_iff_lt_or_eq.mp ht with hlt | rfl
        · exact .inl ⟨t, hlt, hplace⟩
        · exact .inr hplace
  exact hloop d.numNixies (Nat.le_refl _)

end Encode

/-- Tube `t` shows the digit `symbol`. -/
def Shows (display : Buf maxNixieTubes) (t : Nat) (symbol : UInt8) : Prop :=
  display[maxNixieTubes - t - 1]? = some symbol ∧ isDigit symbol = true

theorem tubePlace_decodeDisplayValue {d : AppNixieData} (h : Wired d) {t : Nat}
    (ht : t < maxNixieTubes) (place : NixieCathodeBit) :
    tubePlace (decodeDisplayValue d) t = some place ↔
      ∃ symbol, Shows d.displayValue t symbol ∧
        cathodePlace d t (in12aSymbolToCathodeIndex symbol) = some place := by
  have hlt : maxNixieTubes - t - 1 < maxNixieTubes := by omega
  obtain ⟨s, hs⟩ : ∃ s, d.displayValue[maxNixieTubes - t - 1]? = some s :=
    ⟨_, Vector.getElem?_eq_getElem hlt⟩
  unfold tubePlace
  rw [decodeDisplayValue_cathodes h ht hs]
  dsimp only
  by_cases hdigit : isDigit s = true
  · have hcathode : in12aSymbolToCathodeIndex s ≠ -1 := by
      intro hneg
      rw [in12aSymbolToCathodeIndex_eq_neg_one, hdigit] at hneg
      cases hneg
    rw [if_neg hcathode]
    constructor
    · intro hplace
      exact ⟨s, ⟨hs, hdigit⟩, hplace⟩
    · rintro ⟨s', ⟨hs', -⟩, hplace⟩
      rw [hs] at hs'
      cases hs'
      exact hplace
  · rw [if_pos (in12aSymbolToCathodeIndex_eq_neg_one.mpr (Bool.eq_false_iff.mpr hdigit))]
    constructor
    · intro hnone
      cases hnone
    · rintro ⟨s', ⟨hs', hd⟩, -⟩
      rw [hs] at hs'
      cases hs'
      exact absurd hd hdigit

/-- **The registers.** After decoding and encoding, bit `k` of the byte for register `b` is set if and
only if a tube shows a digit whose cathode is wired to that bit. -/
theorem encode_decode_testBit {d : AppNixieData} (h : Wired d) {b k : Nat}
    (hb : b < numNixieShiftRegisters) :
    (encodeShiftRegister (decodeDisplayValue d)).registerShiftState[numNixieShiftRegisters - 1 - b].toNat.testBit
        k = true ↔
      ∃ t < maxNixieTubes, ∃ symbol, Shows d.displayValue t symbol ∧
        cathodePlace d t (in12aSymbolToCathodeIndex symbol) = some ⟨b, k⟩ := by
  have hwired : Wired (decodeDisplayValue d) :=
    ⟨h.numNixies, h.numShiftRegisters, h.nixieTypes, h.digitPlace⟩
  have hp : ∀ t < maxNixieTubes, ∀ place ∈ tubePlace (decodeDisplayValue d) t,
      OnRegisters place ∧ place.byte < numNixieShiftRegisters := by
    intro t ht place hplace
    obtain ⟨symbol, hshows, hplace⟩ := (tubePlace_decodeDisplayValue h ht place).mp hplace
    obtain ⟨b, k, hb, hk, hof⟩ := placeOf_digit ht hshows.2
    rw [h.digitPlace t ht symbol hshows.2, hof] at hplace
    cases hplace
    exact ⟨⟨b, k, hb, hk, rfl⟩, Int.ofNat_lt.mpr hb⟩
  have hregister : ((decodeDisplayValue d).numShiftRegisters : Int) -
      (numNixieShiftRegisters - 1 - b : Nat) - 1 = b := by
    rw [hwired.numShiftRegisters]
    omega
  rw [encodeShiftRegister_testBit (Nat.le_of_eq hwired.numShiftRegisters)
    (by rwa [hwired.numNixies, hwired.numShiftRegisters]) (by omega), hregister, hwired.numNixies]
  constructor
  · rintro ⟨t, ht, hplace⟩
    exact ⟨t, ht, (tubePlace_decodeDisplayValue h ht _).mp hplace⟩
  · rintro ⟨t, ht, hplace⟩
    exact ⟨t, ht, (tubePlace_decodeDisplayValue h ht _).mpr hplace⟩

end NixieTracker
