import NixieTracker.Util.String
import NixieTracker.ShiftRegister.Driver
import NixieTracker.Https.Client

/-!
# The nixie module: its data (`app_nixie.h`) and the parts of `app_nixie.c` around one value

* The symbols of a tube: `IN12A_SymbolToCathodeIndex`, `IN12B_SymbolToCathodeIndex`.
* The server response: `parseValueFromBuffer`, `bufferReceivedCallback`, `requestHandledCallback`,
  `errorCallback`, `shuffleServerValueDigits`.
* The way to the tubes: `decodeDisplayValue`, `encodeShiftRegister`, and the wiring that
  `APP_Nixie_Initialize` sets up.

The client and the shift register that the module talks to are parameters where a function needs
them. Writes through the pointers given to `APP_Nixie_Fetch` are events.
-/

namespace NixieTracker

open Lib

abbrev maxNixieTubes : Nat := 4
abbrev numNixieShiftRegisters : Nat := 6
abbrev maxNixieCathode : Nat := 12
abbrev maxNixieToken : Nat := 64

/-- `sizeof(cyclic_buffer)`. -/
abbrev cyclicBufferSize : Nat := 2 * (maxNixieToken + maxNixieTubes)

inductive NixieType where
  | in12a | in12b
  deriving DecidableEq, Repr

inductive AppNixieState where
  | idle | error
  | beginHttpRequest | waitHttpsClient | waitHttpsResponse | shuffleServerValue
  | beginDisplaySequence | decodeDisplayValue | encodeShiftRegister | writeShiftRegister
  deriving DecidableEq, Repr

structure NixieCathodeBit where
  byte : Int
  bit : Int
  deriving DecidableEq, Repr

/-- A place of the caller's memory. -/
abbrev Address := Nat

/-- `AppNixieData` without the two pointers to the client and the shift register. -/
structure AppNixieData where
  state : AppNixieState
  periodicTasksEnabled : Bool
  periodicNextTime : UInt64
  taskFromPeriodic : Bool
  numNixies : Nat
  nixieTypes : Vector NixieType maxNixieTubes
  cathodeMapping : Vector (Vector NixieCathodeBit maxNixieCathode) maxNixieTubes
  numShiftRegisters : Nat
  requestUrl : Buf maxUrl
  token : Buf maxNixieToken
  tokenLen : Nat
  isValueParsed : Bool
  cyclicBuffer : Buf cyclicBufferSize
  cyclicBufferLen : Nat
  maxCyclicBufferLen : Nat
  displayValue : Buf maxNixieTubes
  cathodes : Vector Int maxNixieTubes
  registerShiftState : Buf numNixieShiftRegisters
  displayValueOut : Option Address
  isFetchedOut : Option Address
  deriving DecidableEq

/-- The module's memory before `APP_Nixie_Initialize`, as the program is loaded. -/
def AppNixieData.zeroed : AppNixieData where
  state := .idle
  periodicTasksEnabled := false
  periodicNextTime := 0
  taskFromPeriodic := false
  numNixies := 0
  nixieTypes := Vector.replicate _ .in12a
  cathodeMapping := Vector.replicate _ (Vector.replicate _ ⟨0, 0⟩)
  numShiftRegisters := 0
  requestUrl := Vector.replicate _ 0
  token := Vector.replicate _ 0
  tokenLen := 0
  isValueParsed := false
  cyclicBuffer := Vector.replicate _ 0
  cyclicBufferLen := 0
  maxCyclicBufferLen := 0
  displayValue := Vector.replicate _ 0
  cathodes := Vector.replicate _ 0
  registerShiftState := Vector.replicate _ 0
  displayValueOut := none
  isFetchedOut := none

/-- A write through a pointer given to `APP_Nixie_Fetch`. -/
inductive NixieEvent where
  | storeValue (dst : Address) (value : Buf maxNixieTubes)
  | storeIsFetched (dst : Option Address) (value : Bool)
  deriving DecidableEq

/-! ## Symbols -/

def in12aSymbolToCathodeIndex (symbol : UInt8) : Int :=
  if symbol = 48 then 2
  else if 48 < symbol ∧ symbol ≤ 57 then 12 - (symbol.toNat - 48 : Int)
  else -1

def in12bSymbolToCathodeIndex (symbol : UInt8) : Int :=
  if symbol = 48 then 2
  else if 48 < symbol ∧ symbol ≤ 57 then 12 - (symbol.toNat - 48 : Int)
  else if symbol = 44 then 12
  else -1

def nixieSymbolToCathodeIndex : NixieType → UInt8 → Int
  | .in12a => in12aSymbolToCathodeIndex
  | .in12b => in12bSymbolToCathodeIndex

/-! ## The server response -/

/-- The first loop of `parseValueFromBuffer` over the bytes that are left: the display so far and
the index. -/
def copyDigits (numNixies : Nat) (display : Buf maxNixieTubes) (index : Nat) :
    List UInt8 → Buf maxNixieTubes × Nat
  | [] => (display, index)
  | ch :: bytes =>
    if isDigit ch then
      copyDigits numNixies (display.setIfInBounds (sizeSub (sizeSub numNixies index) 1) ch)
        (index + 1) bytes
    else (display, index)

/-- The second loop of `parseValueFromBuffer`. -/
def zeroUnusedDigits (numNixies : Nat) (display : Buf maxNixieTubes) (index : Nat) :
    Buf maxNixieTubes :=
  (List.range' index (maxNixieTubes - index)).foldl
    (fun display index => display.setIfInBounds (sizeSub (sizeSub numNixies index) 1) 0) display

def parseValueFromBuffer (d : AppNixieData) (buffer : List UInt8) : AppNixieData :=
  let numBytes := minZz buffer.length d.numNixies
  let (display, index) := copyDigits d.numNixies d.displayValue 0 (buffer.take numBytes)
  { d with displayValue := zeroUnusedDigits d.numNixies display index, isValueParsed := true }

/-- `memcpy` of `len` bytes behind the kept ones. -/
def appendToCyclicBuffer (d : AppNixieData) (src : List UInt8) (len : Nat) : AppNixieData :=
  { d with
    cyclicBuffer := d.cyclicBuffer.write d.cyclicBufferLen (src.take len)
    cyclicBufferLen := d.cyclicBufferLen + len }

/-- `memmove` of the kept bytes from `prefixLen` on to the front. -/
def moveToFront (d : AppNixieData) (prefixLen : Nat) : AppNixieData :=
  let kept := sizeSub d.cyclicBufferLen prefixLen
  { d with
    cyclicBuffer := d.cyclicBuffer.write 0 (d.cyclicBuffer.read prefixLen kept)
    cyclicBufferLen := kept }

/-- The token lies in the cyclic buffer at `prefixLen`: it is moved to the front, and the freed
bytes are filled from the received ones. -/
def tokenToFront (d : AppNixieData) (buffer : List UInt8) (appendSuffixLen prefixLen : Nat) :
    AppNixieData :=
  if prefixLen ≠ 0 then
    let d := moveToFront d prefixLen
    if buffer.length ≠ appendSuffixLen then
      let extraSuffixLen := minZz prefixLen (sizeSub buffer.length appendSuffixLen)
      appendToCyclicBuffer d (buffer.drop appendSuffixLen) extraSuffixLen
    else d
  else d

/-- The value is parsed once enough bytes lie behind the token. -/
def tokenInCyclicBuffer (d : AppNixieData) (buffer : List UInt8)
    (requiredLen appendSuffixLen prefixLen : Nat) : AppNixieData :=
  let d := tokenToFront d buffer appendSuffixLen prefixLen
  if d.cyclicBufferLen < requiredLen then d
  else
    parseValueFromBuffer d
      (d.cyclicBuffer.read d.tokenLen (sizeSub d.cyclicBufferLen d.tokenLen))

/-- The token is in neither buffer: the last bytes of both are kept. -/
def keepTail (d : AppNixieData) (buffer : List UInt8) (appendSuffixLen : Nat) : AppNixieData :=
  let cyclicBufferLen := sizeSub d.cyclicBufferLen appendSuffixLen
  let maxStoreBytes := d.tokenLen + d.numNixies
  let numNewBytes := minZz buffer.length maxStoreBytes
  let numOldBytes := minZz cyclicBufferLen (sizeSub maxStoreBytes numNewBytes)
  let cyclicBuffer :=
    if numOldBytes ≠ 0 then
      d.cyclicBuffer.write 0 (d.cyclicBuffer.read (sizeSub cyclicBufferLen numOldBytes) numOldBytes)
    else d.cyclicBuffer
  { d with
    cyclicBuffer := cyclicBuffer.write numOldBytes
      ((buffer.drop (sizeSub buffer.length numNewBytes)).take numNewBytes)
    cyclicBufferLen := numNewBytes + numOldBytes }

/-- The token is in the new bytes only, at `prefixLen`. -/
def tokenInNewBuffer (d : AppNixieData) (buffer : List UInt8) (requiredLen prefixLen : Nat) :
    AppNixieData :=
  if requiredLen ≤ sizeSub buffer.length prefixLen then
    parseValueFromBuffer d
      ((buffer.drop (prefixLen + d.tokenLen)).take
        (sizeSub (sizeSub buffer.length d.tokenLen) prefixLen))
  else
    { d with
      cyclicBuffer := d.cyclicBuffer.write 0
        ((buffer.drop prefixLen).take (sizeSub buffer.length prefixLen))
      cyclicBufferLen := sizeSub buffer.length prefixLen }

def bufferReceivedCallback (d : AppNixieData) (received : Received) : AppNixieData :=
  let buffer := received.val
  if d.isValueParsed then d
  else
    let requiredLen := d.tokenLen + d.numNixies
    let appendSuffixLen := minZz buffer.length (sizeSub d.maxCyclicBufferLen d.cyclicBufferLen)
    let d := appendToCyclicBuffer d buffer appendSuffixLen
    match strstrLen (d.cyclicBuffer.read 0 d.cyclicBufferLen) (cstr d.token.toList) with
    | some prefixLen => tokenInCyclicBuffer d buffer requiredLen appendSuffixLen prefixLen
    | none =>
      match strstrLen buffer (cstr d.token.toList) with
      | none => keepTail d buffer appendSuffixLen
      | some prefixLen => tokenInNewBuffer d buffer requiredLen prefixLen

/-- A last look at the kept bytes. -/
def parseKeptValue (d : AppNixieData) : AppNixieData :=
  if !d.isValueParsed then
    match strstrLen (d.cyclicBuffer.read 0 d.cyclicBufferLen) (cstr d.token.toList) with
    | some _ =>
      parseValueFromBuffer d
        (d.cyclicBuffer.read d.tokenLen (sizeSub d.cyclicBufferLen d.tokenLen))
    | none => d
  else d

def requestHandledCallback (d : AppNixieData) : AppNixieData :=
  let d := parseKeptValue d
  { d with state := if d.isValueParsed then .shuffleServerValue else .idle }

def errorCallback (d : AppNixieData) : AppNixieData := { d with state := .error }

/-- `num_leading_null`. -/
def numLeadingNull (d : AppNixieData) : Nat :=
  ((d.displayValue.toList.take d.numNixies).takeWhile (· = 0)).length

/-- The digits move to the least significant end, `'0'` fills the others. -/
def shuffledDigits (d : AppNixieData) : Buf maxNixieTubes :=
  let k := numLeadingNull d
  if k = 0 then d.displayValue
  else
    let moved := d.displayValue.write 0 (d.displayValue.read k (d.numNixies - k))
    (List.range k).foldl (fun display a => display.setIfInBounds (d.numNixies - a - 1) 48) moved

def shuffleServerValueDigits (d : AppNixieData) : AppNixieData × List NixieEvent :=
  let d := { d with displayValue := shuffledDigits d }
  match d.displayValueOut with
  | some out =>
    ({ d with state := .idle, displayValueOut := none, isFetchedOut := none },
      [.storeValue out d.displayValue, .storeIsFetched d.isFetchedOut true])
  | none => ({ d with state := .beginDisplaySequence }, [])

/-! ## The way to the tubes -/

def decodeDisplayValue (d : AppNixieData) : AppNixieData :=
  let cathodes := (List.range d.numNixies).foldl
    (fun cathodes i =>
      let nixieIndex := d.numNixies - i - 1
      match d.nixieTypes[nixieIndex]?, d.displayValue[nixieIndex]? with
      | some type, some symbol => cathodes.setIfInBounds i (nixieSymbolToCathodeIndex type symbol)
      | _, _ => cathodes)
    d.cathodes
  { d with cathodes, state := .encodeShiftRegister }

/-- One round of the loop of `encodeShiftRegister`. The result of `|=` is cut to a byte. -/
def encodeCathode (d : AppNixieData) (registers : Buf numNixieShiftRegisters) (i : Nat) :
    Buf numNixieShiftRegisters :=
  match d.cathodes[i]? with
  | none => registers
  | some cathode =>
    if cathode = -1 then registers
    else
      match (d.cathodeMapping[i]?).bind (·[cathode.toNat]?) with
      | none => registers
      | some place =>
        let numByte := (d.numShiftRegisters - place.byte - 1 : Int).toNat
        match registers[numByte]? with
        | none => registers
        | some old =>
          registers.setIfInBounds numByte (old ||| UInt8.ofNat (1 <<< place.bit.toNat))

def encodeShiftRegister (d : AppNixieData) : AppNixieData :=
  let registers := (List.range d.numNixies).foldl (encodeCathode d) (Vector.replicate _ 0)
  { d with registerShiftState := registers, state := .writeShiftRegister }

def writeShiftRegister (d : AppNixieData) (shiftRegister : AppShiftRegisterData) :
    AppNixieData × AppShiftRegisterData :=
  if appShiftRegisterIsBusy shiftRegister then (d, shiftRegister)
  else
    ({ d with state := .idle },
      appShiftRegisterSendData shiftRegister d.registerShiftState d.numShiftRegisters)

/-! ## Initialization -/

/-- `NIXIE_CATHODE(symbol, cathode_index, shift_byte, shift_bit)`. -/
structure NixieCathode where
  symbol : UInt8
  cathodeIndex : Nat
  place : NixieCathodeBit
  deriving DecidableEq

def nixieCathode (symbol : Char) (cathodeIndex : Nat) (shiftByte shiftBit : Int) : NixieCathode :=
  ⟨UInt8.ofNat symbol.toNat, cathodeIndex, ⟨shiftByte, shiftBit⟩⟩

/-- The tubes of the display with their wiring, in the order of `NIXIE_REGISTER_BEGIN`. -/
def registeredTubes : List (NixieType × List NixieCathode) :=
  [(.in12a, -- J2
    [nixieCathode '0' 2 3 3, nixieCathode '9' 3 3 1, nixieCathode '8' 4 3 4,
      nixieCathode '7' 5 3 0, nixieCathode '6' 6 3 5, nixieCathode '5' 7 2 7,
      nixieCathode '4' 8 3 6, nixieCathode '3' 9 2 6, nixieCathode '2' 10 3 7,
      nixieCathode '1' 11 2 5]),
    (.in12a, -- J3
    [nixieCathode '0' 2 2 0, nixieCathode '9' 3 1 6, nixieCathode '8' 4 2 1,
      nixieCathode '7' 5 1 5, nixieCathode '6' 6 2 2, nixieCathode '5' 7 1 4,
      nixieCathode '4' 8 2 3, nixieCathode '3' 9 1 0, nixieCathode '2' 10 2 4,
      nixieCathode '1' 11 1 1]),
    (.in12a, -- J4
    [nixieCathode '0' 2 1 2, nixieCathode '9' 3 0 0, nixieCathode '8' 4 1 3,
      nixieCathode '7' 5 0 1, nixieCathode '6' 6 0 7, nixieCathode '5' 7 0 2,
      nixieCathode '4' 8 0 6, nixieCathode '3' 9 0 3, nixieCathode '2' 10 0 5,
      nixieCathode '1' 11 5 3]),
    (.in12a, -- J5
    [nixieCathode '0' 2 4 5, nixieCathode '9' 3 4 6, nixieCathode '8' 4 4 4,
      nixieCathode '7' 5 5 7, nixieCathode '6' 6 5 0, nixieCathode '5' 7 5 6,
      nixieCathode '4' 8 5 1, nixieCathode '3' 9 5 5, nixieCathode '2' 10 5 2,
      nixieCathode '1' 11 5 4])]

/-- `NIXIE_TUBE_BEGIN` to `NIXIE_TUBE_END` for one tube. -/
def registerTube (d : AppNixieData) (tube : NixieType × List NixieCathode) : AppNixieData :=
  let t := d.numNixies
  let row := tube.2.foldl (fun row c => row.setIfInBounds c.cathodeIndex c.place)
    ((d.cathodeMapping[t]?).getD (Vector.replicate _ ⟨0, 0⟩))
  { d with
    nixieTypes := d.nixieTypes.setIfInBounds t tube.1
    cathodeMapping := d.cathodeMapping.setIfInBounds t row
    numNixies := t + 1 }

def defaultRequestUrl : List UInt8 :=
  lit "https://developer.blender.org/maniphest/project/2/type/Bug/query/open/"

def defaultToken : List UInt8 := lit ">Open Tasks ("

/-- The token and what depends on its length. -/
def setToken (d : AppNixieData) (token : List UInt8) : AppNixieData :=
  let d := { d with token := safeStrncpy d.token token maxNixieToken }
  let tokenLen := (cstr d.token.toList).length
  { d with tokenLen, maxCyclicBufferLen := 2 * (tokenLen + d.numNixies) }

/-- `APP_Nixie_Initialize`; `is_fetched_out` and the other fields keep what the memory held. -/
def appNixieInitialize (d : AppNixieData) (shiftRegister : AppShiftRegisterData) :
    AppNixieData × AppShiftRegisterData :=
  let d := { d with
    state := .idle
    displayValueOut := none
    periodicTasksEnabled := true
    periodicNextTime := 0
    taskFromPeriodic := false
    numNixies := 0 }
  let d := registeredTubes.foldl registerTube d
  let d := { d with requestUrl := safeStrncpy d.requestUrl defaultRequestUrl maxUrl }
  let d := setToken d defaultToken
  let d := { d with numShiftRegisters := 6, registerShiftState := Vector.replicate _ 0 }
  (d, appShiftRegisterSendData shiftRegister d.registerShiftState d.numShiftRegisters)

end NixieTracker
