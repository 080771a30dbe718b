import NixieTracker.Lib.Checked
import NixieTracker.Nixie.ServerValue
import NixieTracker.Nixie.Wiring

/-!
# Other displays

The way of a value to the registers, for every display that the tables of `AppNixieData` can describe:
one to `MAX_NIXIE_TUBES` tubes of either type, one to six registers and any mapping of the cathodes.

* `parseValueChecked`, `shuffledDigitsChecked`, `decodeDisplayValueChecked`,
  `encodeShiftRegisterChecked`: the functions once more, without a result where they index outside of
  an array.
* `Supported`: the displays. `DisplayCorrect`, `ServerCorrect`: what is to be shown of a value of
  `display_value` and of a value of the server.
* `pipeline_correct_iff`: a `','` is only shown right where no IN-12B tube has to do with it, a bit has
  to be one of a byte, and a value of the server needs a display of four tubes.
-/

namespace NixieTracker

open Lib

/-! ## The functions with checks -/

def copyDigitsChecked (numNixies : Nat) (display : Buf maxNixieTubes) (index : Nat) :
    List UInt8 → Option (Buf maxNixieTubes × Nat)
  | [] => some (display, index)
  | ch :: bytes =>
    if isDigit ch then do
      let display ← checkedSet display (sizeSub (sizeSub numNixies index) 1) ch
      copyDigitsChecked numNixies display (index + 1) bytes
    else some (display, index)

def zeroUnusedDigitsChecked (numNixies : Nat) (display : Buf maxNixieTubes) (index : Nat) :
    Option (Buf maxNixieTubes) :=
  (List.range' index (maxNixieTubes - index)).foldlM
    (fun display index => checkedSet display (sizeSub (sizeSub numNixies index) 1) 0) display

def parseValueChecked (d : AppNixieData) (buffer : List UInt8) : Option AppNixieData := do
  let numBytes := minZz buffer.length d.numNixies
  let (display, index) ← copyDigitsChecked d.numNixies d.displayValue 0 (buffer.take numBytes)
  let display ← zeroUnusedDigitsChecked d.numNixies display index
  some { d with displayValue := display, isValueParsed := true }

/-- `shuffledDigits`; the loop that counts the leading `'\0'` may read all tubes. -/
def shuffledDigitsChecked (d : AppNixieData) : Option (Buf maxNixieTubes) :=
  if maxNixieTubes < d.numNixies then none
  else
    let k := numLeadingNull d
    if k = 0 then some d.displayValue
    else do
      let moved ← d.displayValue.checkedCopy 0 d.displayValue.toList k (d.numNixies - k)
      (List.range k).foldlM (fun display a => checkedSet display (d.numNixies - a - 1) 48) moved

def decodeTubeChecked (d : AppNixieData) (cathodes : Vector Int maxNixieTubes) (i : Nat) :
    Option (Vector Int maxNixieTubes) := do
  let nixieIndex := d.numNixies - i - 1
  let type ← d.nixieTypes[nixieIndex]?
  let symbol ← d.displayValue[nixieIndex]?
  checkedSet cathodes i (nixieSymbolToCathodeIndex type symbol)

def decodeDisplayValueChecked (d : AppNixieData) : Option AppNixieData := do
  let cathodes ← (List.range d.numNixies).foldlM (decodeTubeChecked d) d.cathodes
  some { d with cathodes, state := .encodeShiftRegister }

def encodeCathodeChecked (d : AppNixieData) (registers : Buf numNixieShiftRegisters) (i : Nat) :
    Option (Buf numNixieShiftRegisters) := do
  let cathode ← d.cathodes[i]?
  if cathode = -1 then some registers
  else if cathode < 0 then none
  else do
    let place ← cathodePlace d i cathode
    let numByte : Int := d.numShiftRegisters - place.byte - 1
    if numByte < 0 then none
    else do
      let old ← registers[numByte.toNat]?
      checkedSet registers numByte.toNat (old ||| UInt8.ofNat (1 <<< place.bit.toNat))

def encodeShiftRegisterChecked (d : AppNixieData) : Option AppNixieData := do
  let registers ← (List.range d.numNixies).foldlM (encodeCathodeChecked d) (Vector.replicate _ 0)
  some { d with registerShiftState := registers, state := .writeShiftRegister }

/-! ## The displays -/

/-- The symbol that tube `t` shows. -/
def tubeSymbol (d : AppNixieData) (t : Nat) : Option UInt8 := d.displayValue[d.numNixies - t - 1]?

/-- The cathode index of a symbol in the type of tube `t`. -/
def typeCathode (d : AppNixieData) (t : Nat) (symbol : UInt8) : Option Int :=
  (d.nixieTypes[t]?).map (nixieSymbolToCathodeIndex · symbol)

/-- The position that the symbol's cathode on tube `t` is mapped to. -/
def symbolPlace (d : AppNixieData) (t : Nat) (symbol : UInt8) : Option NixieCathodeBit :=
  (typeCathode d t symbol).bind fun cathode =>
    if cathode = -1 then none else cathodePlace d t cathode

/-- The mapped position of the cathode that is lit on tube `t`. -/
def litPlace (d : AppNixieData) (t : Nat) : Option NixieCathodeBit :=
  (tubeSymbol d t).bind (symbolPlace d t)

/-- A display that the tables can describe. The positions are those of the cathodes that the symbols of
the tube's type have: `bit` is the assertion of `encodeShiftRegister`. -/
structure Supported (d : AppNixieData) : Prop where
  tubes : 1 ≤ d.numNixies ∧ d.numNixies ≤ maxNixieTubes
  registers : 1 ≤ d.numShiftRegisters ∧ d.numShiftRegisters ≤ numNixieShiftRegisters
  byte : ∀ t < d.numNixies, ∀ symbol, ∀ place ∈ symbolPlace d t symbol,
    0 ≤ place.byte ∧ place.byte < d.numShiftRegisters
  bit : ∀ t < d.numNixies, ∀ symbol, ∀ place ∈ symbolPlace d t symbol, place.bit ≤ 8
  distinct : ∀ t < d.numNixies, ∀ t' < d.numNixies, ∀ symbol symbol' : UInt8,
    ∀ place ∈ symbolPlace d t symbol, place ∈ symbolPlace d t' symbol' → t = t' ∧ symbol = symbol'

/-- The positions of the bits of `register_shift_state` that are set. -/
def setBits (d : AppNixieData) : Set NixieCathodeBit :=
  {place | ∃ (j k : Nat) (register : UInt8), d.registerShiftState[j]? = some register ∧
    register.toNat.testBit k = true ∧ place = ⟨(d.numShiftRegisters : Int) - j - 1, k⟩}

/-- The value of `display_value` is decoded and encoded right. -/
structure DisplayCorrect (d : AppNixieData) : Prop where
  decoded : decodeDisplayValueChecked d = some (decodeDisplayValue d)
  encoded : encodeShiftRegisterChecked (decodeDisplayValue d) =
    some (encodeShiftRegister (decodeDisplayValue d))
  ownType : ∀ t < d.numNixies,
    (decodeDisplayValue d).cathodes[t]? = (tubeSymbol d t).bind (typeCathode d t)
  bits : setBits (encodeShiftRegister (decodeDisplayValue d)) =
    {place | ∃ t < d.numNixies, litPlace d t = some place}
  onePerTube : ∀ t < d.numNixies, ∀ symbol ∈ tubeSymbol d t, typeCathode d t symbol ≠ some (-1) →
    ∃ place, litPlace d t = some place ∧ ∀ t' < d.numNixies, litPlace d t' = some place → t' = t

/-- The server value is parsed, shuffled, decoded and encoded right. -/
structure ServerCorrect (d : AppNixieData) (buffer : List UInt8) : Prop where
  parsed : parseValueChecked d buffer = some (parseValueFromBuffer d buffer)
  shuffled : shuffledDigitsChecked (parseValueFromBuffer d buffer) =
    some (shuffledDigits (parseValueFromBuffer d buffer))
  display : DisplayCorrect (shuffleServerValueDigits (parseValueFromBuffer d buffer)).1

/-- The bit of the symbol's cathode is one of a byte. -/
def BitFits (d : AppNixieData) (t : Nat) (symbol : UInt8) : Prop :=
  ∀ place ∈ symbolPlace d t symbol, 0 ≤ place.bit ∧ place.bit < 8

/-- A `','` stands only on IN-12A tubes whose mirror image is one, too. -/
structure DisplayFits (d : AppNixieData) : Prop where
  comma : ∀ t < d.numNixies, tubeSymbol d t = some 44 →
    d.nixieTypes[t]? = some .in12a ∧ d.nixieTypes[d.numNixies - t - 1]? = some .in12a
  bit : ∀ t < d.numNixies, ∀ symbol ∈ tubeSymbol d t, BitFits d t symbol

/-- The digits of the server value, with `'0'` in front of them. -/
def serverDigits (buffer : List UInt8) : List UInt8 :=
  let ds := leadingDigits maxNixieTubes buffer
  List.replicate (maxNixieTubes - ds.length) 48 ++ ds

structure ServerFits (d : AppNixieData) (buffer : List UInt8) : Prop where
  tubes : d.numNixies = maxNixieTubes
  bit : ∀ t < d.numNixies, ∀ symbol ∈ (serverDigits buffer)[t]?, BitFits d t symbol

/-! ## Symbols -/

section Symbols

variable {d : AppNixieData} {t : Nat} {symbol : UInt8}

/-- A symbol has no cathode, or one of the ten of the digits. -/
theorem in12aSymbolToCathodeIndex_cases (symbol : UInt8) :
    in12aSymbolToCathodeIndex symbol = -1 ∨
      (2 ≤ in12aSymbolToCathodeIndex symbol ∧ in12aSymbolToCathodeIndex symbol < maxNixieCathode) := by
  have hall : ∀ n < 256, in12aSymbolToCathodeIndex (UInt8.ofNat n) = -1 ∨
      (2 ≤ in12aSymbolToCathodeIndex (UInt8.ofNat n) ∧
        in12aSymbolToCathodeIndex (UInt8.ofNat n) < maxNixieCathode) := by
    decide +kernel
  have := hall symbol.toNat symbol.toNat_lt
  rwa [UInt8.ofNat_toNat] at this

/-- The two types differ in the comma only. -/
theorem nixieSymbolToCathodeIndex_of_ne_comma (type : NixieType) (h : symbol ≠ 44) :
    nixieSymbolToCathodeIndex type symbol = in12aSymbolToCathodeIndex symbol := by
  cases type with
  | in12a => rfl
  | in12b =>
    show in12bSymbolToCathodeIndex symbol = _
    unfold in12bSymbolToCathodeIndex in12aSymbolToCathodeIndex
    rw [if_neg h]

theorem nixieSymbolToCathodeIndex_comma (type : NixieType) :
    nixieSymbolToCathodeIndex type 44 = if type = .in12b then 12 else -1 := by
  cases type <;> rfl

theorem exists_type (d : AppNixieData) (ht : t < maxNixieTubes) : ∃ type, d.nixieTypes[t]? = some type :=
  ⟨_, Vector.getElem?_eq_getElem ht⟩

theorem exists_tubeSymbol (ht : t < d.numNixies) (hn : d.numNixies ≤ maxNixieTubes) :
    ∃ symbol, tubeSymbol d t = some symbol :=
  ⟨_, Vector.getElem?_eq_getElem (by omega)⟩

theorem typeCathode_eq {type : NixieType} (h : d.nixieTypes[t]? = some type) :
    typeCathode d t symbol = some (nixieSymbolToCathodeIndex type symbol) := by
  rw [typeCathode, h]
  rfl

theorem symbolPlace_eq {type : NixieType} (h : d.nixieTypes[t]? = some type) :
    symbolPlace d t symbol = if nixieSymbolToCathodeIndex type symbol = -1 then none
      else cathodePlace d t (nixieSymbolToCathodeIndex type symbol) := by
  rw [symbolPlace, typeCathode_eq h]
  rfl

theorem exists_cathodePlace {cathode : Int} (d : AppNixieData) (ht : t < maxNixieTubes)
    (h : cathode < maxNixieCathode) : ∃ place, cathodePlace d t cathode = some place := by
  unfold cathodePlace
  have hpos : 0 < maxNixieCathode := by decide
  rw [Vector.getElem?_eq_getElem ht, Option.bind_some]
  exact ⟨_, Vector.getElem?_eq_getElem (by omega)⟩

end Symbols

/-! ## The value of the server -/

section Server

variable {d : AppNixieData}

theorem copyDigitsChecked_eq {n : Nat} (hn : n ≤ maxNixieTubes) (display : Buf maxNixieTubes)
    (index : Nat) (bytes : List UInt8) (h : index + bytes.length ≤ n) :
    copyDigitsChecked n display index bytes = some (copyDigits n display index bytes) := by
  induction bytes generalizing display index with
  | nil => rfl
  | cons ch bytes ih =>
    rw [List.length_cons] at h
    unfold copyDigitsChecked copyDigits
    split
    · rw [sizeSub_index hn (by omega), checkedSet_eq _ _ (by omega)]
      exact ih _ _ (by omega)
    · rfl

/-- The second loop runs up to the size of the array. -/
theorem zeroUnusedDigitsChecked_eq {n : Nat} (hn : n = maxNixieTubes) (display : Buf maxNixieTubes)
    (index : Nat) :
    zeroUnusedDigitsChecked n display index = some (zeroUnusedDigits n display index) := by
  subst hn
  apply foldlM_eq_some
  intro display i hi
  have hi := List.mem_range'_1.mp hi
  rw [sizeSub_index (Nat.le_refl _) (by omega)]
  exact checkedSet_eq _ _ (by omega)

theorem zeroUnusedDigitsChecked_eq_none {n index : Nat} (hn : n < maxNixieTubes) (h : index ≤ n)
    (display : Buf maxNixieTubes) : zeroUnusedDigitsChecked n display index = none := by
  apply foldlM_eq_none (a := n) (List.mem_range'_1.mpr (by omega))
  exact fun display => checkedSet_eq_none _ _ (sizeSub_index_wraps (Nat.le_refl n) hn)

theorem length_take_minZz (buffer : List UInt8) (n : Nat) :
    (buffer.take (minZz buffer.length n)).length ≤ n := by
  rw [minZz_eq, List.length_take]
  omega

/-- With fewer tubes than the array has elements the parser leaves the array, whatever the value is. -/
theorem parseValueChecked_eq_iff (hn : d.numNixies ≤ maxNixieTubes) (buffer : List UInt8) :
    parseValueChecked d buffer = some (parseValueFromBuffer d buffer) ↔
      d.numNixies = maxNixieTubes := by
  have hcopy := copyDigitsChecked_eq hn d.displayValue 0
    (buffer.take (minZz buffer.length d.numNixies))
    (by rw [Nat.zero_add]; exact length_take_minZz buffer _)
  have hindex : (copyDigits d.numNixies d.displayValue 0
      (buffer.take (minZz buffer.length d.numNixies))).2 ≤ d.numNixies := by
    rw [copyDigits_index, Nat.zero_add]
    exact (List.takeWhile_prefix _).length_le.trans (length_take_minZz buffer _)
  unfold parseValueChecked
  dsimp only
  rw [hcopy, Option.bind_eq_bind, Option.bind_some]
  constructor
  · intro h
    apply Classical.byContradiction
    intro hne
    rw [zeroUnusedDigitsChecked_eq_none (by omega) hindex] at h
    cases h
  · intro h
    rw [zeroUnusedDigitsChecked_eq h]
    rfl

/-- The shuffle stays inside. -/
theorem shuffledDigitsChecked_eq (hn : d.numNixies ≤ maxNixieTubes) :
    shuffledDigitsChecked d = some (shuffledDigits d) := by
  have hk : numLeadingNull d ≤ d.numNixies := by
    unfold numLeadingNull
    exact (List.takeWhile_prefix _).length_le.trans (List.length_take_le ..)
  unfold shuffledDigitsChecked shuffledDigits
  rw [if_neg (Nat.not_lt.mpr hn)]
  dsimp only
  split
  · rfl
  · rw [Buf.checkedMove_eq _ (by omega) (by omega), Option.bind_eq_bind, Option.bind_some]
    apply foldlM_eq_some
    intro display a ha
    have ha := List.mem_range.mp ha
    exact checkedSet_eq _ _ (by omega)

end Server

/-! ## Decoding and encoding -/

section Display

variable {d : AppNixieData} {t : Nat}

theorem decodeDisplayValueChecked_eq (hn : d.numNixies ≤ maxNixieTubes) :
    decodeDisplayValueChecked d = some (decodeDisplayValue d) := by
  unfold decodeDisplayValueChecked
  have hfold : (List.range d.numNixies).foldlM (decodeTubeChecked d) d.cathodes =
      some (decodeDisplayValue d).cathodes := by
    refine foldlM_eq_some (fun cathodes i hi => ?_) d.cathodes
    have hi := List.mem_range.mp hi
    have hlt : d.numNixies - i - 1 < maxNixieTubes := by omega
    unfold decodeTubeChecked
    dsimp only
    rw [Vector.getElem?_eq_getElem hlt, Vector.getElem?_eq_getElem hlt]
    exact checkedSet_eq _ _ (by omega)
  rw [hfold]
  rfl

/-- The cathode of a tube is that of its own type, unless it shows a `','` and the types differ. -/
theorem ownType_iff (hn : d.numNixies ≤ maxNixieTubes) (ht : t < d.numNixies) :
    (decodeDisplayValue d).cathodes[t]? = (tubeSymbol d t).bind (typeCathode d t) ↔
      (tubeSymbol d t = some 44 → d.nixieTypes[t]? = d.nixieTypes[d.numNixies - t - 1]?) := by
  obtain ⟨type, htype⟩ := exists_type d (Nat.lt_of_lt_of_le ht hn)
  obtain ⟨mirrored, hmirrored⟩ := exists_type (t := d.numNixies - t - 1) d (by omega)
  obtain ⟨symbol, hsymbol⟩ := exists_tubeSymbol ht hn
  rw [decodeDisplayValue_getElem? hn ht hmirrored hsymbol, hsymbol, Option.bind_some,
    typeCathode_eq htype, htype, hmirrored, Option.some.injEq, Option.some.injEq, Option.some.injEq]
  by_cases hcomma : symbol = 44
  · subst hcomma
    rw [nixieSymbolToCathodeIndex_comma, nixieSymbolToCathodeIndex_comma]
    cases type <;> cases mirrored <;> decide
  · rw [nixieSymbolToCathodeIndex_of_ne_comma _ hcomma, nixieSymbolToCathodeIndex_of_ne_comma _ hcomma]
    exact ⟨fun _ h => absurd h hcomma, fun _ => rfl⟩

/-- Then the bit that `encodeShiftRegister` sets is the mapped one. -/
theorem tubePlace_eq_litPlace (hn : d.numNixies ≤ maxNixieTubes) (ht : t < d.numNixies)
    (hown : (decodeDisplayValue d).cathodes[t]? = (tubeSymbol d t).bind (typeCathode d t)) :
    tubePlace (decodeDisplayValue d) t = litPlace d t := by
  obtain ⟨type, htype⟩ := exists_type d (Nat.lt_of_lt_of_le ht hn)
  obtain ⟨symbol, hsymbol⟩ := exists_tubeSymbol ht hn
  unfold tubePlace litPlace
  rw [hown, hsymbol, Option.bind_some, Option.bind_some, typeCathode_eq htype, symbolPlace_eq htype]
  rfl

/-- There is no element for the comma in a row of `cathode_mapping`. -/
theorem encodeShiftRegisterChecked_eq_none (ht : t < d.numNixies) (h : d.cathodes[t]? = some 12) :
    encodeShiftRegisterChecked d = none := by
  unfold encodeShiftRegisterChecked
  rw [foldlM_eq_none (List.mem_range.mpr ht)]
  · rfl
  · intro registers
    unfold encodeCathodeChecked
    have hplace : cathodePlace d t 12 = none := by
      unfold cathodePlace
      cases d.cathodeMapping[t]? with
      | none => rfl
      | some row => exact Vector.getElem?_eq_none (Nat.le_refl 12)
    rw [h]
    show (do
      let place ← cathodePlace d t 12
      _) = none
    rw [hplace]
    rfl

/-- The registers of one tube. -/
theorem encodeCathodeChecked_eq (hn : d.numShiftRegisters ≤ numNixieShiftRegisters) {cathode : Int}
    (hcathode : d.cathodes[t]? = some cathode) (hneg : cathode = -1 ∨ 0 ≤ cathode)
    (hplace : cathode ≠ -1 → ∃ place, cathodePlace d t cathode = some place ∧
      0 ≤ place.byte ∧ place.byte < d.numShiftRegisters)
    (registers : Buf numNixieShiftRegisters) :
    encodeCathodeChecked d registers t = some (encodeCathode d registers t) := by
  unfold encodeCathodeChecked encodeCathode
  rw [hcathode, Option.bind_eq_bind, Option.bind_some]
  dsimp only
  split
  · rfl
  · rename_i hlit
    have hnonneg : ¬ cathode < 0 := Int.not_lt.mpr (hneg.resolve_left hlit)
    obtain ⟨place, hplace, hlow, hhigh⟩ := hplace hlit
    have hlt : (d.numShiftRegisters - place.byte - 1 : Int).toNat < numNixieShiftRegisters := by omega
    rw [if_neg hnonneg, hplace, Option.bind_eq_bind, Option.bind_some, if_neg (by omega)]
    unfold cathodePlace at hplace
    rw [hplace]
    dsimp only
    rw [Vector.getElem?_eq_getElem hlt]
    exact checkedSet_eq _ _ hlt

/-- Every bit of a byte has a place. -/
theorem setBits_bit {place : NixieCathodeBit} (h : place ∈ setBits d) :
    0 ≤ place.bit ∧ place.bit < 8 := by
  obtain ⟨j, k, register, -, hbit, rfl⟩ := h
  have hk : k < 8 := by
    apply Classical.byContradiction
    intro hk
    have hlt : register.toNat < 2 ^ k :=
      Nat.lt_of_lt_of_le register.toNat_lt (Nat.pow_le_pow_right (by decide) (Nat.le_of_not_lt hk))
    rw [Nat.testBit_lt_two_pow hlt] at hbit
    cases hbit
  exact ⟨Int.natCast_nonneg k, Int.ofNat_lt.mpr hk⟩

theorem DisplayCorrect.fits (h : DisplayCorrect d) (hn : d.numNixies ≤ maxNixieTubes) :
    DisplayFits d where
  comma t ht hcomma := by
    have hsame := (ownType_iff hn ht).mp (h.ownType t ht) hcomma
    obtain ⟨type, htype⟩ := exists_type d (Nat.lt_of_lt_of_le ht hn)
    rw [← hsame, htype]
    cases type with
    | in12a => exact ⟨rfl, rfl⟩
    | in12b =>
      -- The cathode of the comma has no position.
      have hcathode : (decodeDisplayValue d).cathodes[t]? = some 12 := by
        rw [h.ownType t ht, hcomma, Option.bind_some, typeCathode_eq htype]
        rfl
      have hencoded := h.encoded
      rw [encodeShiftRegisterChecked_eq_none (d := decodeDisplayValue d) ht hcathode] at hencoded
      cases hencoded
  bit t ht symbol hsymbol place hplace := by
    have hlit : place ∈ {place | ∃ t < d.numNixies, litPlace d t = some place} :=
      ⟨t, ht, by rw [litPlace, hsymbol, Option.bind_some, hplace]⟩
    rw [← h.bits] at hlit
    exact setBits_bit hlit

/-- A symbol that has a cathode on its tube has a position there. -/
theorem DisplayFits.place (h : DisplayFits d) (hn : d.numNixies ≤ maxNixieTubes) (ht : t < d.numNixies)
    {symbol : UInt8} (hsymbol : tubeSymbol d t = some symbol) {type : NixieType}
    (htype : d.nixieTypes[t]? = some type) :
    nixieSymbolToCathodeIndex type symbol = -1 ∨ 0 ≤ nixieSymbolToCathodeIndex type symbol ∧
      ∃ place, cathodePlace d t (nixieSymbolToCathodeIndex type symbol) = some place := by
  have hindex : nixieSymbolToCathodeIndex type symbol = in12aSymbolToCathodeIndex symbol := by
    by_cases hcomma : symbol = 44
    · subst hcomma
      rw [(h.comma t ht hsymbol).1] at htype
      cases htype
      rfl
    · exact nixieSymbolToCathodeIndex_of_ne_comma type hcomma
  rw [hindex]
  refine (in12aSymbolToCathodeIndex_cases symbol).imp_right fun hrange => ?_
  exact ⟨by omega, exists_cathodePlace d (Nat.lt_of_lt_of_le ht hn) hrange.2⟩

theorem DisplayFits.ownType (h : DisplayFits d) (hn : d.numNixies ≤ maxNixieTubes)
    (ht : t < d.numNixies) :
    (decodeDisplayValue d).cathodes[t]? = (tubeSymbol d t).bind (typeCathode d t) := by
  rw [ownType_iff hn ht]
  intro hcomma
  rw [(h.comma t ht hcomma).1, (h.comma t ht hcomma).2]

/-- What is lit on a tube is on the registers. -/
theorem DisplayFits.onRegisters (h : DisplayFits d) (hs : Supported d) (ht : t < d.numNixies)
    {place : NixieCathodeBit} (hplace : litPlace d t = some place) :
    OnRegisters place ∧ place.byte < d.numShiftRegisters := by
  obtain ⟨symbol, hsymbol, hplace⟩ := Option.bind_eq_some_iff.mp hplace
  obtain ⟨hlow, hhigh⟩ := hs.byte t ht symbol place hplace
  obtain ⟨hbit, hbit'⟩ := h.bit t ht symbol hsymbol place hplace
  have := hs.registers.2
  refine ⟨⟨place.byte.toNat, place.bit.toNat, by omega, by omega, ?_⟩, hhigh⟩
  rw [Int.toNat_of_nonneg hlow, Int.toNat_of_nonneg hbit]

theorem DisplayFits.encoded (h : DisplayFits d) (hs : Supported d) :
    encodeShiftRegisterChecked (decodeDisplayValue d) =
      some (encodeShiftRegister (decodeDisplayValue d)) := by
  have hn := hs.tubes.2
  unfold encodeShiftRegisterChecked
  rw [foldlM_eq_some (g := encodeCathode (decodeDisplayValue d))]
  · rfl
  · intro registers t ht
    have ht : t < d.numNixies := List.mem_range.mp ht
    obtain ⟨type, htype⟩ := exists_type d (Nat.lt_of_lt_of_le ht hn)
    obtain ⟨symbol, hsymbol⟩ := exists_tubeSymbol ht hn
    have hcathode := h.ownType hn ht
    rw [hsymbol, Option.bind_some, typeCathode_eq htype] at hcathode
    have hcases := h.place hn ht hsymbol htype
    apply encodeCathodeChecked_eq (d := decodeDisplayValue d) hs.registers.2 hcathode
      (hcases.imp_right And.left)
    intro hlit
    obtain ⟨place, hplace⟩ := (hcases.resolve_left hlit).2
    have hsymbolPlace : symbolPlace d t symbol = some place := by
      rw [symbolPlace_eq htype, if_neg hlit, hplace]
    exact ⟨place, hplace, hs.byte t ht symbol place hsymbolPlace⟩

theorem DisplayFits.testBit (h : DisplayFits d) (hs : Supported d) {j k : Nat}
    (hj : j < numNixieShiftRegisters) :
    (encodeShiftRegister (decodeDisplayValue d)).registerShiftState[j].toNat.testBit k = true ↔
      ∃ t < d.numNixies, litPlace d t = some ⟨(d.numShiftRegisters : Int) - j - 1, k⟩ := by
  have hplace : ∀ t < d.numNixies, tubePlace (decodeDisplayValue d) t = litPlace d t :=
    fun t ht => tubePlace_eq_litPlace hs.tubes.2 ht (h.ownType hs.tubes.2 ht)
  rw [encodeShiftRegister_testBit (d := decodeDisplayValue d) hs.registers.2 ?_ hj]
  · constructor
    · rintro ⟨t, ht, hlit⟩
      exact ⟨t, ht, (hplace t ht).symm.trans hlit⟩
    · rintro ⟨t, ht, hlit⟩
      exact ⟨t, ht, (hplace t ht).trans hlit⟩
  · intro t ht place hlit
    exact h.onRegisters hs ht ((hplace t ht).symm.trans hlit)

theorem DisplayFits.setBits (h : DisplayFits d) (hs : Supported d) :
    setBits (encodeShiftRegister (decodeDisplayValue d)) =
      {place | ∃ t < d.numNixies, litPlace d t = some place} := by
  ext place
  constructor
  · rintro ⟨j, k, register, hregister, hbit, rfl⟩
    obtain ⟨hj, rfl⟩ := Vector.getElem?_eq_some_iff.mp hregister
    exact (h.testBit hs hj).mp hbit
  · rintro ⟨t, ht, hlit⟩
    obtain ⟨⟨b, k, -, -, rfl⟩, hb⟩ := h.onRegisters hs ht hlit
    have hb : (b : Int) < d.numShiftRegisters := hb
    have hj : d.numShiftRegisters - b - 1 < numNixieShiftRegisters := by
      have := hs.registers.2
      omega
    have hplace : (⟨b, k⟩ : NixieCathodeBit) =
        ⟨(d.numShiftRegisters : Int) - (d.numShiftRegisters - b - 1 : Nat) - 1, k⟩ := by
      congr 1
      omega
    refine ⟨d.numShiftRegisters - b - 1, k, _, Vector.getElem?_eq_getElem hj, ?_, hplace⟩
    exact (h.testBit hs hj).mpr ⟨t, ht, by rw [hlit, hplace]⟩

theorem DisplayFits.onePerTube (h : DisplayFits d) (hs : Supported d) (ht : t < d.numNixies)
    {symbol : UInt8} (hsymbol : tubeSymbol d t = some symbol)
    (hcathode : typeCathode d t symbol ≠ some (-1)) :
    ∃ place, litPlace d t = some place ∧ ∀ t' < d.numNixies, litPlace d t' = some place → t' = t := by
  obtain ⟨type, htype⟩ := exists_type d (Nat.lt_of_lt_of_le ht hs.tubes.2)
  have hlit : nixieSymbolToCathodeIndex type symbol ≠ -1 := by
    rw [typeCathode_eq htype] at hcathode
    exact fun heq => hcathode (congrArg some heq)
  obtain ⟨place, hplace⟩ := ((h.place hs.tubes.2 ht hsymbol htype).resolve_left hlit).2
  have hsymbolPlace : symbolPlace d t symbol = some place := by
    rw [symbolPlace_eq htype, if_neg hlit, hplace]
  refine ⟨place, by rw [litPlace, hsymbol, Option.bind_some, hsymbolPlace], fun t' ht' hlit' => ?_⟩
  obtain ⟨symbol', -, hplace'⟩ := Option.bind_eq_some_iff.mp hlit'
  exact (hs.distinct t' ht' t ht symbol' symbol place hplace' hsymbolPlace).1

theorem DisplayFits.correct (h : DisplayFits d) (hs : Supported d) : DisplayCorrect d where
  decoded := decodeDisplayValueChecked_eq hs.tubes.2
  encoded := h.encoded hs
  ownType _ ht := h.ownType hs.tubes.2 ht
  bits := h.setBits hs
  onePerTube _ ht _ hsymbol hcathode := h.onePerTube hs ht hsymbol hcathode

end Display

/-! ## The whole way -/

section Whole

variable {d d' : AppNixieData}

/-- The tables decide about the positions. -/
theorem symbolPlace_congr (htypes : d'.nixieTypes = d.nixieTypes)
    (hmapping : d'.cathodeMapping = d.cathodeMapping) : symbolPlace d' = symbolPlace d := by
  funext t symbol
  unfold symbolPlace typeCathode cathodePlace
  rw [htypes, hmapping]

/-- The server value leaves the tables as they are. -/
theorem shuffle_parse_tables (d : AppNixieData) (buffer : List UInt8) :
    let d' := (shuffleServerValueDigits (parseValueFromBuffer d buffer)).1
    d'.numNixies = d.numNixies ∧ d'.numShiftRegisters = d.numShiftRegisters ∧
      symbolPlace d' = symbolPlace d := by
  unfold shuffleServerValueDigits
  cases (parseValueFromBuffer d buffer).displayValueOut <;>
    exact ⟨rfl, rfl, symbolPlace_congr rfl rfl⟩

theorem Supported.congr (h : Supported d) (hn : d'.numNixies = d.numNixies)
    (hregisters : d'.numShiftRegisters = d.numShiftRegisters)
    (hplace : symbolPlace d' = symbolPlace d) : Supported d' := by
  constructor
  case tubes => rw [hn]; exact h.tubes
  case registers => rw [hregisters]; exact h.registers
  case byte => rw [hn, hregisters, hplace]; exact h.byte
  case bit => rw [hn, hplace]; exact h.bit
  case distinct => rw [hn, hplace]; exact h.distinct

theorem length_serverDigits (buffer : List UInt8) : (serverDigits buffer).length = maxNixieTubes := by
  have := length_leadingDigits maxNixieTubes buffer
  unfold serverDigits
  rw [List.length_append, List.length_replicate]
  omega

theorem isDigit_of_mem_serverDigits {buffer : List UInt8} {symbol : UInt8}
    (h : symbol ∈ serverDigits buffer) : isDigit symbol = true := by
  rcases List.mem_append.mp h with hzero | hdigit
  · rw [List.eq_of_mem_replicate hzero]
    rfl
  · exact List.mem_takeWhile_imp (List.mem_of_mem_take hdigit)

/-- Tube `t` shows the digit `t` of the server value. -/
theorem tubeSymbol_shuffle_parse (hn : d.numNixies = maxNixieTubes) (buffer : List UInt8) {t : Nat}
    (ht : t < maxNixieTubes) :
    tubeSymbol (shuffleServerValueDigits (parseValueFromBuffer d buffer)).1 t =
      (serverDigits buffer)[t]? := by
  have hparsed := holdsDigits_parsedDisplay (d := parseValueFromBuffer d buffer) hn
    (parseValueFromBuffer_displayValue hn buffer)
  have hshown : (shuffledDigits (parseValueFromBuffer d buffer)).toList =
      (serverDigits buffer).reverse := by
    rw [shuffledDigits_toList (d := parseValueFromBuffer d buffer) hn hparsed, serverDigits,
      List.reverse_append, List.reverse_replicate]
  unfold tubeSymbol
  rw [(shuffle_parse_tables d buffer).1, hn, shuffleServerValueDigits_displayValue,
    ← Vector.getElem?_toList, hshown, List.getElem?_reverse (by rw [length_serverDigits]; omega),
    length_serverDigits]
  congr 1
  omega

theorem displayFits_shuffle_parse (hn : d.numNixies = maxNixieTubes) (buffer : List UInt8) :
    DisplayFits (shuffleServerValueDigits (parseValueFromBuffer d buffer)).1 ↔
      ∀ t < d.numNixies, ∀ symbol ∈ (serverDigits buffer)[t]?, BitFits d t symbol := by
  obtain ⟨htubes, -, hplace⟩ := shuffle_parse_tables d buffer
  have hbits (t : Nat) (symbol : UInt8) :
      BitFits (shuffleServerValueDigits (parseValueFromBuffer d buffer)).1 t symbol ↔
        BitFits d t symbol := by
    unfold BitFits
    rw [hplace]
  constructor
  · intro h t ht symbol hsymbol
    rw [← tubeSymbol_shuffle_parse hn buffer (hn ▸ ht)] at hsymbol
    exact (hbits t symbol).mp (h.bit t (htubes ▸ ht) symbol hsymbol)
  · intro h
    refine ⟨fun t ht hcomma => ?_, fun t ht symbol hsymbol => ?_⟩
    · rw [htubes, hn] at ht
      rw [tubeSymbol_shuffle_parse hn buffer ht] at hcomma
      exact absurd (isDigit_of_mem_serverDigits (List.mem_of_getElem? hcomma)) (by decide)
    · rw [htubes] at ht
      rw [tubeSymbol_shuffle_parse hn buffer (hn ▸ ht)] at hsymbol
      exact (hbits t symbol).mpr (h t ht symbol hsymbol)

end Whole

/-! ## The display as it is set up -/

section SetUp

variable {d : AppNixieData} {t : Nat}

theorem Wired.symbolPlace (h : Wired d) (ht : t < maxNixieTubes) (symbol : UInt8) :
    symbolPlace d t symbol = if isDigit symbol then placeOf t symbol else none := by
  have htype : d.nixieTypes[t]? = some .in12a := by
    rw [Vector.getElem?_eq_getElem ht, h.nixieTypes t ht]
  rw [symbolPlace_eq htype]
  by_cases hdigit : isDigit symbol = true
  · have hcathode : in12aSymbolToCathodeIndex symbol ≠ -1 := by
      rw [Ne, in12aSymbolToCathodeIndex_eq_neg_one, hdigit]
      decide
    rw [if_pos hdigit, ← h.digitPlace t ht symbol hdigit]
    exact if_neg hcathode
  · rw [if_neg hdigit]
    exact if_pos (in12aSymbolToCathodeIndex_eq_neg_one.mpr (Bool.eq_false_iff.mpr hdigit))

theorem Wired.place (h : Wired d) (ht : t < d.numNixies) {symbol : UInt8} {place : NixieCathodeBit}
    (hplace : place ∈ NixieTracker.symbolPlace d t symbol) :
    t < maxNixieTubes ∧ isDigit symbol = true ∧ placeOf t symbol = some place ∧ OnRegisters place := by
  have ht : t < maxNixieTubes := by rwa [h.numNixies] at ht
  rw [h.symbolPlace ht] at hplace
  split at hplace
  · rename_i hdigit
    obtain ⟨b, k, hb, hk, hof⟩ := placeOf_digit ht hdigit
    refine ⟨ht, hdigit, hplace, b, k, hb, hk, ?_⟩
    exact Option.some.inj (hplace.symm.trans hof)
  · cases hplace

theorem Wired.supported (h : Wired d) : Supported d := by
  constructor
  case tubes => rw [h.numNixies]; decide
  case registers => rw [h.numShiftRegisters]; decide
  case byte =>
    intro t ht symbol place hplace
    obtain ⟨-, -, -, b, k, hb, -, rfl⟩ := h.place ht hplace
    rw [h.numShiftRegisters]
    exact ⟨Int.natCast_nonneg b, Int.ofNat_lt.mpr hb⟩
  case bit =>
    intro t ht symbol place hplace
    obtain ⟨-, -, -, b, k, -, hk, rfl⟩ := h.place ht hplace
    exact Int.ofNat_le.mpr (Nat.le_of_lt hk)
  case distinct =>
    intro t ht t' ht' symbol symbol' place hplace hplace'
    obtain ⟨ht, hdigit, hof, -⟩ := h.place ht hplace
    obtain ⟨ht', hdigit', hof', -⟩ := h.place ht' hplace'
    exact placeOf_injective ht ht' hdigit hdigit' (hof.trans hof'.symm)

/-- On it, every value is shown right. -/
theorem Wired.fits (h : Wired d) : DisplayFits d ∧ ∀ buffer, ServerFits d buffer := by
  have hbit : ∀ t < d.numNixies, ∀ symbol, BitFits d t symbol := by
    intro t ht symbol place hplace
    obtain ⟨-, -, -, b, k, -, hk, rfl⟩ := h.place ht hplace
    exact ⟨Int.natCast_nonneg k, Int.ofNat_lt.mpr hk⟩
  have htype : ∀ t < maxNixieTubes, d.nixieTypes[t]? = some .in12a := by
    intro t ht
    rw [Vector.getElem?_eq_getElem ht, h.nixieTypes t ht]
  have hn := h.numNixies
  refine ⟨⟨fun t ht _ => ⟨htype t (by omega), htype _ (by omega)⟩,
    fun t ht symbol _ => hbit t ht symbol⟩, fun buffer => ⟨hn, fun t ht symbol _ => hbit t ht symbol⟩⟩

/-- The first tubes of a display are one. -/
theorem Supported.fewer (h : Supported d) {n : Nat} (hpos : 1 ≤ n) (hn : n ≤ d.numNixies) :
    Supported { d with numNixies := n } where
  tubes := ⟨hpos, hn.trans h.tubes.2⟩
  registers := h.registers
  byte t ht := h.byte t (Nat.lt_of_lt_of_le ht hn)
  bit t ht := h.bit t (Nat.lt_of_lt_of_le ht hn)
  distinct t ht t' ht' := h.distinct t (Nat.lt_of_lt_of_le ht hn) t' (Nat.lt_of_lt_of_le ht' hn)

end SetUp

/-- **The display.** What is to be shown is shown if and only if, for a value of `display_value`, each
`','` stands on an IN-12A tube whose mirror image is one, too, and the bits of the symbols are those
of a byte; for a value of the server, the display has `MAX_NIXIE_TUBES` tubes and the bits of the
digits are those of a byte. -/
theorem pipeline_correct_iff {d : AppNixieData} (h : Supported d) :
    (DisplayCorrect d ↔ DisplayFits d) ∧ ∀ buffer, ServerCorrect d buffer ↔ ServerFits d buffer := by
  refine ⟨⟨fun hcorrect => hcorrect.fits h.tubes.2, fun hfits => hfits.correct h⟩, fun buffer => ?_⟩
  obtain ⟨htubes, hregisters, hplace⟩ := shuffle_parse_tables d buffer
  have hs := h.congr htubes hregisters hplace
  constructor
  · intro hcorrect
    have hn := (parseValueChecked_eq_iff h.tubes.2 buffer).mp hcorrect.parsed
    exact ⟨hn, (displayFits_shuffle_parse hn buffer).mp (hcorrect.display.fits hs.tubes.2)⟩
  · intro hfits
    exact ⟨(parseValueChecked_eq_iff h.tubes.2 buffer).mpr hfits.tubes,
      shuffledDigitsChecked_eq h.tubes.2,
      ((displayFits_shuffle_parse hfits.tubes buffer).mpr hfits.bit).correct hs⟩

/-- The display of the firmware. -/
def firmwareDisplay : AppNixieData := (appNixieInitialize .zeroed .zeroed).1

theorem firmwareDisplay_wired : Wired firmwareDisplay := appNixieInitialize_wired _ _

theorem firmwareDisplay_correct :
    DisplayCorrect firmwareDisplay ∧ ServerCorrect firmwareDisplay (lit "42") :=
  let h := pipeline_correct_iff firmwareDisplay_wired.supported
  ⟨h.1.mpr firmwareDisplay_wired.fits.1, (h.2 _).mpr (firmwareDisplay_wired.fits.2 _)⟩

/-- On a display with its first two tubes, `42` is written around the array. -/
theorem twoTubes_not_correct :
    parseValueChecked { firmwareDisplay with numNixies := 2 } (lit "42") = none ∧
      ¬ ∀ d, Supported d → DisplayCorrect d ∧ ∀ buffer, ServerCorrect d buffer := by
  have hnone : parseValueChecked { firmwareDisplay with numNixies := 2 } (lit "42") = none := by
    decide +kernel
  refine ⟨hnone, fun h => ?_⟩
  have hsupported : Supported { firmwareDisplay with numNixies := 2 } :=
    firmwareDisplay_wired.supported.fewer (by decide) (by decide)
  have hparsed := ((h _ hsupported).2 (lit "42")).parsed
  rw [hnone] at hparsed
  cases hparsed

end NixieTracker
