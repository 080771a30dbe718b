import NixieTracker.Spi.Driver

/-!
# The sub-tasks of the SPI driver

The driver keeps no more bytes in flight than the transmit buffer holds, so nothing is lost on either
side (`SpiModule.Lawful` says what the module does as long as that is so).

* `DrvSpiJob.frame`: the bytes that a job puts on the wire.
* `DrvSpiJob.during`: the job after some bytes of its frame were written and some were read.
* `During`: the invariant of a transfer. `send8Bit_during` and `receive8Bit_during` are the sub-tasks:
  what they write and read, and that they keep the invariant.
-/

namespace NixieTracker

open Lib Lib.Link

/-- What the driver relies on: the module carries the bytes of `view` to the peer and back. No function
loses one as long as no more bytes are in flight than the transmit buffer holds. -/
structure SpiModule.Lawful {η σ : Type} (spi : SpiModule η) (errorTasks : ErrorTasks η)
    (P : Peer σ UInt8 UInt8) (view : η → Link σ UInt8 UInt8) : Prop where
  size_pos : 0 < spi.txFifoSize
  size_lt : spi.txFifoSize < 256
  /-- A byte that is being shifted out may be counted or not. -/
  transmitCount : ∀ h, (view h).inFlight ≤ spi.txFifoSize →
    (spi.transmitCount h).1 ≤ (view h).out.length ∧ Moves P (view h) (view (spi.transmitCount h).2)
  receiveCount : ∀ h, (view h).inFlight ≤ spi.txFifoSize →
    Moves P (view h) (view (spi.receiveCount h).2) ∧
      (view h).back.length ≤ (spi.receiveCount h).1 ∧
      (spi.receiveCount h).1 ≤ (view (spi.receiveCount h).2).back.length
  bufferWrite : ∀ h x, (view h).inFlight < spi.txFifoSize →
    Moves P ((view h).write x) (view (spi.bufferWrite h x))
  bufferRead : ∀ h y rest, (view h).inFlight ≤ spi.txFifoSize → (view h).back = y :: rest →
    (spi.bufferRead h).1 = y ∧ Moves P { view h with back := rest } (view (spi.bufferRead h).2)
  bufferClear : ∀ h, (view h).inFlight = 0 → view (spi.bufferClear h) = view h
  wait : ∀ h, (view h).inFlight ≤ spi.txFifoSize → Moves P (view h) (view (spi.wait h))
  /-- With no byte lost the error tasks find nothing to do. -/
  errorTasks : ∃ pass : η → η, ∀ h, (view h).inFlight ≤ spi.txFifoSize →
    Moves P (view h) (view (pass h)) ∧
      ∀ drv t, t.port = h → errorTasks drv t = (drv, { t with port := pass h })

namespace DrvSpiJob

/-- The bytes that a job exchanges. -/
def total (job : DrvSpiJob) : Nat := job.dataLeftToTx + job.dummyLeftToTx

/-- The bytes that a job puts on the wire. -/
def frame (dummyByteValue : UInt16) (job : DrvSpiJob) : List UInt8 :=
  job.txBuffer.take job.dataLeftToTx ++ List.replicate job.dummyLeftToTx dummyByteValue.toUInt8

/-- A job as it is added: its buffers are as long as it says, and it exchanges as many bytes in both
directions. -/
structure Balanced (job : DrvSpiJob) : Prop where
  txBuffer : job.dataLeftToTx ≤ job.txBuffer.length
  rxBuffer : job.dataLeftToRx ≤ job.rxBuffer.length
  total : job.dataLeftToRx + job.dummyLeftToRx = job.total
  small : job.total < 2 ^ 32
  dataTxed : job.dataTxed = 0
  dataRxed : job.dataRxed = 0

/-- The job after `sent` bytes of its frame were written and the bytes `taken` were read. -/
def during (job : DrvSpiJob) (sent : Nat) (taken : List UInt8) : DrvSpiJob :=
  { job with
    status := .processing
    dataLeftToTx := job.dataLeftToTx - sent
    dummyLeftToTx := job.dummyLeftToTx - (sent - job.dataLeftToTx)
    dataTxed := min sent job.dataLeftToTx
    dataLeftToRx := job.dataLeftToRx - taken.length
    dummyLeftToRx := job.dummyLeftToRx - (taken.length - job.dataLeftToRx)
    dataRxed := min taken.length job.dataLeftToRx
    rxBuffer := taken.take job.dataLeftToRx ++ job.rxBuffer.drop (min taken.length job.dataLeftToRx) }

variable {job : DrvSpiJob} {dummyByteValue : UInt16} {sent : Nat} {taken : List UInt8}

theorem Balanced.length_frame (hb : job.Balanced) (dummyByteValue : UInt16) :
    (job.frame dummyByteValue).length = job.total := by
  rw [frame, List.length_append, List.length_take, List.length_replicate,
    Nat.min_eq_left hb.txBuffer]
  rfl

theorem Balanced.during_start (hb : job.Balanced) :
    job.during 0 [] = { job with status := .processing } := by
  unfold during
  simp [hb.dataTxed, hb.dataRxed]

theorem Balanced.leftToTx_during (hb : job.Balanced) (hs : sent ≤ job.total) :
    (job.during sent taken).leftToTx = job.total - sent := by
  have hsmall := hb.small
  have htotal : job.total = job.dataLeftToTx + job.dummyLeftToTx := rfl
  unfold leftToTx during
  rw [sizeAdd_eq (by simp only; omega)]
  simp only
  omega

theorem Balanced.leftToRx_during (hb : job.Balanced) (ht : taken.length ≤ job.total) :
    (job.during sent taken).leftToRx = job.total - taken.length := by
  have hsmall := hb.small
  have htotal := hb.total
  unfold leftToRx during
  rw [sizeAdd_eq (by simp only; omega)]
  simp only
  omega

/-- The loop of the send sub-task writes the next bytes of the frame. -/
theorem Balanced.unitsToSend_during (hb : job.Balanced) {k : Nat} (hk : sent + k ≤ job.dataLeftToTx) :
    (job.during sent taken).unitsToSend k = ((job.frame dummyByteValue).drop sent).take k := by
  have htx := hb.txBuffer
  have hlen := hb.length_frame dummyByteValue
  have htotal : job.dataLeftToTx ≤ job.total := Nat.le_add_right ..
  refine List.ext_getElem ?_ fun i h1 h2 => ?_
  · rw [unitsToSend, List.length_map, List.length_range, List.length_take, List.length_drop, hlen]
    omega
  · have hi : i < k := by simpa [unitsToSend] using h1
    have hmin : min sent job.dataLeftToTx = sent := by omega
    simp only [unitsToSend, during, List.getElem_map, List.getElem_range, List.getElem_take,
      List.getElem_drop, frame, hmin]
    rw [List.getElem_append_left (by rw [List.length_take]; omega), List.getElem_take,
      List.getElem?_eq_getElem (by omega)]
    rfl

theorem drop_frame (hb : job.Balanced) (hs : job.dataLeftToTx ≤ sent) :
    (job.frame dummyByteValue).drop sent =
      List.replicate (job.total - sent) dummyByteValue.toUInt8 := by
  have hlen : (job.txBuffer.take job.dataLeftToTx).length = job.dataLeftToTx := by
    rw [List.length_take]
    exact Nat.min_eq_left hb.txBuffer
  rw [frame, List.drop_append, hlen, List.drop_eq_nil_of_le (by omega), List.nil_append,
    List.drop_replicate, total]
  congr 1
  omega

end DrvSpiJob

section SubTasks

variable {η σ : Type} {spi : SpiModule η} {errorTasks : ErrorTasks η} {P : Peer σ UInt8 UInt8}
  {view : η → Link σ UInt8 UInt8} {s : σ} {job : DrvSpiJob} {dummyByteValue : UInt16} {sent : Nat}
  {taken : List UInt8} {t : Transfer η}

/-- The invariant of a transfer of `job` that began with the peer in the state `s`: the first `sent`
bytes of the frame were written, and the bytes `taken` were read. -/
structure During (spi : SpiModule η) (P : Peer σ UInt8 UInt8) (view : η → Link σ UInt8 UInt8) (s : σ)
    (dummyByteValue : UInt16) (job : DrvSpiJob) (sent : Nat) (taken : List UInt8) (t : Transfer η) :
    Prop where
  job_eq : t.job = job.during sent taken
  carries : Carries P s ((job.frame dummyByteValue).take sent) taken (view t.port)
  sent_le : sent ≤ job.total
  count : taken.length + t.symbolsInProgress = sent
  room : t.symbolsInProgress ≤ spi.txFifoSize

theorem During.inFlight (h : During spi P view s dummyByteValue job sent taken t)
    (hb : job.Balanced) : (view t.port).inFlight = t.symbolsInProgress := by
  have hlen := h.carries.length_sent
  have hsent := h.sent_le
  have hcount := h.count
  rw [List.length_take, hb.length_frame] at hlen
  omega

theorem During.taken_le (h : During spi P view s dummyByteValue job sent taken t) :
    taken.length ≤ job.total := by
  have hcount := h.count
  have hsent := h.sent_le
  omega

/-- Time passes. -/
theorem During.moves (h : During spi P view s dummyByteValue job sent taken t) {port : η}
    (hm : Moves P (view t.port) (view port)) :
    During spi P view s dummyByteValue job sent taken { t with port } :=
  ⟨h.job_eq, h.carries.moves hm, h.sent_le, h.count, h.room⟩

/-! ## Sending -/

theorem writeUnits_carries (hlaw : spi.Lawful errorTasks P view) {sent : List UInt8} {port : η}
    (units : List UInt8) (h : Carries P s sent taken (view port))
    (hroom : (view port).inFlight + units.length ≤ spi.txFifoSize) :
    Carries P s (sent ++ units) taken (view (writeUnits spi port units)) ∧
      (view port).back.length ≤ (view (writeUnits spi port units)).back.length := by
  induction units generalizing sent port with
  | nil => exact ⟨by simpa [writeUnits] using h, Nat.le_refl _⟩
  | cons x units ih =>
    rw [List.length_cons] at hroom
    have hm := hlaw.bufferWrite port x (by omega)
    have hflight := hm.inFlight
    rw [inFlight_write] at hflight
    obtain ⟨hrest, hback⟩ := ih ((h.write x).moves hm) (by omega)
    rw [List.append_assoc, List.singleton_append] at hrest
    exact ⟨hrest, Nat.le_trans hm.back_le hback⟩

/-- What a sub-task writes are the next bytes of the frame. -/
theorem writeUnits_during (hlaw : spi.Lawful errorTasks P view) (hb : job.Balanced)
    (h : During spi P view s dummyByteValue job sent taken t) {k : Nat} (hk : sent + k ≤ job.total)
    (hroom : t.symbolsInProgress + k ≤ spi.txFifoSize) {units : List UInt8}
    (hunits : units = ((job.frame dummyByteValue).drop sent).take k) :
    During spi P view s dummyByteValue job (sent + k) taken
        ⟨job.during (sent + k) taken, sizeAdd t.symbolsInProgress k, writeUnits spi t.port units⟩ ∧
      (view t.port).back.length ≤ (view (writeUnits spi t.port units)).back.length := by
  have hcount := h.count
  have hsize := hlaw.size_lt
  have hlen : units.length = k := by
    rw [hunits, List.length_take, List.length_drop, hb.length_frame]
    omega
  have hsum : sizeAdd t.symbolsInProgress k = t.symbolsInProgress + k := sizeAdd_eq (by omega)
  obtain ⟨hcarries, hback⟩ :=
    writeUnits_carries hlaw units h.carries (by rw [h.inFlight hb]; omega)
  rw [hsum]
  refine ⟨⟨rfl, ?_, hk, by simp only; omega, hroom⟩, hback⟩
  rw [List.take_add, ← hunits]
  exact hcarries

theorem toNat_sub_units {bufferBytes : UInt8} {k : Nat} (hk : k ≤ bufferBytes.toNat) :
    (bufferBytes - UInt8.ofNat k).toNat = bufferBytes.toNat - k := by
  have hlt := bufferBytes.toNat_lt
  have hnat : (UInt8.ofNat k).toNat = k := by
    rw [UInt8.toNat_ofNat']
    exact Nat.mod_eq_of_lt (by omega)
  rw [UInt8.toNat_sub_of_le _ _ (UInt8.le_iff_toNat_le.mpr (by rw [hnat]; exact hk)), hnat]

theorem writeSymbols_during (hlaw : spi.Lawful errorTasks P view) (hb : job.Balanced)
    (h : During spi P view s dummyByteValue job sent taken t) (bufferBytes : UInt8)
    (hroom : bufferBytes.toNat + t.symbolsInProgress ≤ spi.txFifoSize) {k : Nat}
    (hk : k = min (job.dataLeftToTx - sent) bufferBytes.toNat) :
    During spi P view s dummyByteValue job (sent + k) taken (writeSymbols spi bufferBytes t).2 ∧
      (writeSymbols spi bufferBytes t).1.toNat = bufferBytes.toNat - k ∧
      (writeSymbols spi bufferBytes t).2.symbolsInProgress = t.symbolsInProgress + k ∧
      (view t.port).back.length ≤ (view (writeSymbols spi bufferBytes t).2.port).back.length := by
  have hsize := hlaw.size_lt
  have htotal : job.dataLeftToTx ≤ job.total := Nat.le_add_right ..
  have hmin : min t.job.dataLeftToTx bufferBytes.toNat = k := by rw [h.job_eq, hk]; rfl
  unfold writeSymbols
  rw [hmin]
  by_cases hzero : k = 0
  · rw [hzero, if_neg (by simp)]
    exact ⟨h, rfl, rfl, Nat.le_refl _⟩
  · have hlt : sent + k ≤ job.dataLeftToTx := by omega
    have hsum : sizeAdd t.symbolsInProgress k = t.symbolsInProgress + k := sizeAdd_eq (by omega)
    have hsmall := hb.small
    have hunits : t.job.unitsToSend k = ((job.frame dummyByteValue).drop sent).take k := by
      rw [h.job_eq]
      exact hb.unitsToSend_during hlt
    have hjob : ({ t.job with
        dataLeftToTx := sizeSub t.job.dataLeftToTx k
        dataTxed := sizeAdd t.job.dataTxed k } : DrvSpiJob) = job.during (sent + k) taken := by
      rw [h.job_eq]
      simp only [DrvSpiJob.during, DrvSpiJob.mk.injEq, true_and, and_true]
      rw [sizeSub_eq (by omega) (by omega), sizeAdd_eq (by omega)]
      omega
    rw [if_pos hzero]
    simp only
    rw [hjob]
    obtain ⟨hnext, hback⟩ := writeUnits_during hlaw hb h (by omega) (by omega) hunits
    exact ⟨hnext, toNat_sub_units (by omega), hsum, hback⟩

theorem sendDummies_during (hlaw : spi.Lawful errorTasks P view) (hb : job.Balanced)
    (h : During spi P view s dummyByteValue job sent taken t) {bufferBytes : UInt8}
    (hroom : bufferBytes.toNat + t.symbolsInProgress ≤ spi.txFifoSize)
    (hdata : bufferBytes.toNat = 0 ∨ job.dataLeftToTx ≤ sent) {k : Nat}
    (hk : k = min (job.total - sent) bufferBytes.toNat) :
    During spi P view s dummyByteValue job (sent + k) taken
        (sendDummies spi dummyByteValue bufferBytes t) ∧
      (view t.port).back.length ≤ (view (sendDummies spi dummyByteValue bufferBytes t).port).back.length := by
  have hsmall := hb.small
  have htotal : job.total = job.dataLeftToTx + job.dummyLeftToTx := rfl
  have hleft : t.job.dummyLeftToTx = job.dummyLeftToTx - (sent - job.dataLeftToTx) := by
    rw [h.job_eq]
    rfl
  have hmin : min t.job.dummyLeftToTx bufferBytes.toNat = k := by omega
  unfold sendDummies
  rw [hmin]
  by_cases hzero : k = 0
  · rw [hzero, if_neg (by simp)]
    exact ⟨h, Nat.le_refl _⟩
  · have hdata : job.dataLeftToTx ≤ sent := by omega
    have hunits : List.replicate k dummyByteValue.toUInt8 =
        ((job.frame dummyByteValue).drop sent).take k := by
      rw [DrvSpiJob.drop_frame hb hdata, List.take_replicate]
      congr 1
      omega
    have hjob : ({ t.job with dummyLeftToTx := sizeSub t.job.dummyLeftToTx k } : DrvSpiJob) =
        job.during (sent + k) taken := by
      rw [h.job_eq]
      simp only [DrvSpiJob.during, DrvSpiJob.mk.injEq, true_and, and_true]
      rw [sizeSub_eq (by omega) (by omega)]
      omega
    rw [if_pos hzero]
    simp only
    rw [hjob]
    exact writeUnits_during hlaw hb h (by omega) (by omega) hunits

/-- **The send sub-task** fills the window: it writes as many bytes of the frame as are left, or as
many as may still be in flight. -/
theorem send8Bit_during (hlaw : spi.Lawful errorTasks P view) (hb : job.Balanced)
    (h : During spi P view s dummyByteValue job sent taken t) :
    During spi P view s dummyByteValue job
        (sent + min (job.total - sent) (spi.txFifoSize - t.symbolsInProgress)) taken
        (send8Bit spi dummyByteValue t) ∧
      (view t.port).back.length ≤ (view (send8Bit spi dummyByteValue t).port).back.length := by
  have hsize := hlaw.size_lt
  have hroom := h.room
  have hflight := h.inFlight hb
  have htotal : job.total = job.dataLeftToTx + job.dummyLeftToTx := rfl
  obtain ⟨hcount, hmoves⟩ := hlaw.transmitCount t.port (by omega)
  have hmax : max t.symbolsInProgress (spi.transmitCount t.port).1 = t.symbolsInProgress := by
    simp only [inFlight] at hflight
    omega
  have hbytes : (UInt8.ofNat spi.txFifoSize - UInt8.ofNat t.symbolsInProgress).toNat =
      spi.txFifoSize - t.symbolsInProgress := by
    have hnat : (UInt8.ofNat spi.txFifoSize).toNat = spi.txFifoSize := by
      rw [UInt8.toNat_ofNat']
      exact Nat.mod_eq_of_lt (by omega)
    rw [toNat_sub_units (by omega), hnat]
  obtain ⟨hsent, hleft, hprogress, hback₁⟩ := writeSymbols_during hlaw hb (h.moves hmoves)
    (UInt8.ofNat spi.txFifoSize - UInt8.ofNat t.symbolsInProgress)
    (by rw [hbytes]; simp only; omega) rfl
  obtain ⟨hdummies, hback₂⟩ := sendDummies_during hlaw hb hsent
    (by rw [hprogress, hleft, hbytes]; simp only; omega) (by rw [hleft, hbytes]; omega) rfl
  rw [hleft, hbytes] at hdummies
  unfold send8Bit
  simp only
  rw [hmax]
  refine ⟨?_, Nat.le_trans hmoves.back_le (Nat.le_trans hback₁ hback₂)⟩
  convert hdummies using 1
  omega

/-! ## Receiving -/

theorem set_units {rxBuffer : List UInt8} {loc : Nat} (hloc : loc < rxBuffer.length) (x : UInt8)
    (units : List UInt8) :
    (rxBuffer.set loc x).take (loc + 1) ++ units ++
        (rxBuffer.set loc x).drop (loc + 1 + units.length) =
      rxBuffer.take loc ++ x :: units ++ rxBuffer.drop (loc + (x :: units).length) := by
  rw [List.take_succ_eq_append_getElem (by simpa using hloc), List.getElem_set_self,
    List.take_set_of_le (Nat.le_refl _), List.drop_set_of_lt (by omega), List.length_cons,
    show loc + (units.length + 1) = loc + 1 + units.length by omega]
  simp only [List.append_assoc, List.cons_append, List.nil_append]

theorem receiveUnits_succ (port : η) (rxBuffer : List UInt8) (loc n : Nat) :
    receiveUnits spi port rxBuffer loc (n + 1) =
      receiveUnits spi (spi.bufferRead port).2 (rxBuffer.set loc (spi.bufferRead port).1) (loc + 1)
        n := rfl

/-- The units of a receive loop lie where it began. -/
theorem receiveUnits_carries (hlaw : spi.Lawful errorTasks P view) {sent : List UInt8} (n : Nat)
    {port : η} {rxBuffer : List UInt8} {loc : Nat} {taken : List UInt8}
    (h : Carries P s sent taken (view port)) (hflight : (view port).inFlight ≤ spi.txFifoSize)
    (hn : n ≤ (view port).back.length) (hloc : loc + n ≤ rxBuffer.length) :
    ∃ units, units.length = n ∧
      (receiveUnits spi port rxBuffer loc n).1 =
        rxBuffer.take loc ++ units ++ rxBuffer.drop (loc + n) ∧
      Carries P s sent (taken ++ units) (view (receiveUnits spi port rxBuffer loc n).2) ∧
      (view port).back.length ≤ (view (receiveUnits spi port rxBuffer loc n).2).back.length + n := by
  induction n generalizing port rxBuffer loc taken with
  | zero => exact ⟨[], rfl, by simp [receiveUnits], by simpa [receiveUnits] using h, by simp [receiveUnits]⟩
  | succ n ih =>
    obtain ⟨x, rest, hback⟩ : ∃ x rest, (view port).back = x :: rest :=
      List.exists_cons_of_length_pos (by omega)
    obtain ⟨hx, hmoves⟩ := hlaw.bufferRead port x rest hflight hback
    have hrest := hmoves.back_le
    have hflight' := hmoves.inFlight
    have hlen : (view port).back.length = rest.length + 1 := by rw [hback, List.length_cons]
    simp only [inFlight] at hrest hflight' hflight hlen
    have hset : loc + 1 + n ≤ (rxBuffer.set loc x).length := by
      rw [List.length_set]
      omega
    obtain ⟨units, hunits, hbuffer, hcarries, hleft⟩ := ih ((h.read hback).moves hmoves)
      (by simp only [inFlight]; omega) (by omega) hset
    rw [receiveUnits_succ, hx]
    refine ⟨x :: units, by rw [List.length_cons, hunits], ?_, ?_, by omega⟩
    · rw [hbuffer, ← hunits, set_units (by omega), List.length_cons]
    · rwa [List.append_assoc, List.singleton_append] at hcarries

theorem dropUnits_carries (hlaw : spi.Lawful errorTasks P view) {sent : List UInt8} (n : Nat)
    {port : η} {taken : List UInt8} (h : Carries P s sent taken (view port))
    (hflight : (view port).inFlight ≤ spi.txFifoSize) (hn : n ≤ (view port).back.length) :
    ∃ units, units.length = n ∧
      Carries P s sent (taken ++ units) (view (dropUnits spi port n)) := by
  induction n generalizing port taken with
  | zero => exact ⟨[], rfl, by simpa [dropUnits] using h⟩
  | succ n ih =>
    obtain ⟨x, rest, hback⟩ : ∃ x rest, (view port).back = x :: rest :=
      List.exists_cons_of_length_pos (by omega)
    obtain ⟨-, hmoves⟩ := hlaw.bufferRead port x rest hflight hback
    have hrest := hmoves.back_le
    have hflight' := hmoves.inFlight
    have hlen : (view port).back.length = rest.length + 1 := by rw [hback, List.length_cons]
    simp only [inFlight] at hrest hflight' hflight hlen
    obtain ⟨units, hunits, hcarries⟩ := ih ((h.read hback).moves hmoves)
      (by simp only [inFlight]; omega) (by omega)
    refine ⟨x :: units, by rw [List.length_cons, hunits], ?_⟩
    rw [List.append_assoc, List.singleton_append] at hcarries
    exact hcarries

/-- The received bytes extend what is in the buffer already. -/
theorem rxBuffer_during {rxBuffer taken units : List UInt8} {n : Nat}
    (h : taken.length + units.length ≤ n) :
    let buffer := taken.take n ++ rxBuffer.drop (min taken.length n)
    let loc := min taken.length n
    buffer.take loc ++ units ++ buffer.drop (loc + units.length) =
      (taken ++ units).take n ++ rxBuffer.drop (min (taken ++ units).length n) := by
  intro buffer loc
  have hloc : loc = taken.length := Nat.min_eq_left (by omega)
  have htaken : taken.take n = taken := List.take_of_length_le (by omega)
  have hall : (taken ++ units).take n = taken ++ units :=
    List.take_of_length_le (by rw [List.length_append]; omega)
  have hmin : min (taken ++ units).length n = taken.length + units.length := by
    rw [List.length_append]
    omega
  have hbuffer : buffer = taken ++ rxBuffer.drop taken.length := by
    show taken.take n ++ rxBuffer.drop loc = _
    rw [htaken, hloc]
  rw [hbuffer, hloc, hall, hmin, List.take_left, List.drop_append, List.drop_eq_nil_of_le (by omega),
    List.nil_append, List.drop_drop]
  congr 2
  omega

/-- The bytes that wait to be read are in flight. -/
theorem During.back_le (h : During spi P view s dummyByteValue job sent taken t) (hb : job.Balanced) :
    (view t.port).back.length ≤ t.symbolsInProgress := by
  rw [← h.inFlight hb]
  exact Nat.le_add_left ..

theorem receiveData_during (hlaw : spi.Lawful errorTasks P view) (hb : job.Balanced)
    (h : During spi P view s dummyByteValue job sent taken t) (bufferBytes : UInt8)
    (hback : bufferBytes.toNat ≤ (view t.port).back.length) {k : Nat}
    (hk : k = min (job.dataLeftToRx - taken.length) bufferBytes.toNat) :
    ∃ units, units.length = k ∧
      During spi P view s dummyByteValue job sent (taken ++ units) (receiveData spi bufferBytes t).2 ∧
      (receiveData spi bufferBytes t).1.toNat = bufferBytes.toNat - k ∧
      (view t.port).back.length ≤ (view (receiveData spi bufferBytes t).2.port).back.length + k := by
  have hflight := h.inFlight hb
  have hle := h.back_le hb
  have hcount := h.count
  have hroom := h.room
  have hsize := hlaw.size_lt
  have hsmall := hb.small
  have hsent := h.sent_le
  have htotal := hb.total
  have hrx := hb.rxBuffer
  have hmin : min t.job.dataLeftToRx bufferBytes.toNat = k := by rw [h.job_eq, hk]; rfl
  unfold receiveData
  rw [hmin]
  by_cases hzero : k = 0
  · rw [hzero, if_neg (by simp)]
    exact ⟨[], rfl, by rwa [List.append_nil], rfl, Nat.le_refl _⟩
  · have hlt : taken.length + k ≤ job.dataLeftToRx := by omega
    have hlen : t.job.dataRxed + k ≤ t.job.rxBuffer.length := by
      rw [h.job_eq]
      simp only [DrvSpiJob.during, List.length_append, List.length_take, List.length_drop]
      omega
    obtain ⟨units, hunits, hbuffer, hcarries, hleft⟩ := receiveUnits_carries hlaw k h.carries
      (by omega) (by omega) hlen
    have hjob : ({ t.job with
        dataLeftToRx := sizeSub t.job.dataLeftToRx k
        rxBuffer := (receiveUnits spi t.port t.job.rxBuffer t.job.dataRxed k).1
        dataRxed := sizeAdd t.job.dataRxed k } : DrvSpiJob) = job.during sent (taken ++ units) := by
      rw [hbuffer, h.job_eq]
      simp only [DrvSpiJob.during, DrvSpiJob.mk.injEq, true_and, and_true]
      rw [← hunits, rxBuffer_during (by omega), sizeSub_eq (by omega) (by omega),
        sizeAdd_eq (by omega)]
      simp only [List.length_append, true_and]
      omega
    rw [if_pos hzero]
    simp only
    rw [hjob]
    refine ⟨units, hunits, ⟨rfl, hcarries, hsent, ?_, ?_⟩, toNat_sub_units (by omega), hleft⟩
    · simp only
      rw [sizeSub_eq (by omega) (by omega), List.length_append]
      omega
    · rw [sizeSub_eq (by omega) (by omega)]
      simp only
      omega

theorem receiveDummies_during (hlaw : spi.Lawful errorTasks P view) (hb : job.Balanced)
    (h : During spi P view s dummyByteValue job sent taken t) {bufferBytes : UInt8}
    (hback : bufferBytes.toNat ≤ (view t.port).back.length)
    (hdata : bufferBytes.toNat = 0 ∨ job.dataLeftToRx ≤ taken.length) :
    ∃ units, units.length = bufferBytes.toNat ∧
      During spi P view s dummyByteValue job sent (taken ++ units)
        (receiveDummies spi bufferBytes t) := by
  have hflight := h.inFlight hb
  have hle := h.back_le hb
  have hcount := h.count
  have hroom := h.room
  have hsize := hlaw.size_lt
  have hsmall := hb.small
  have hsent := h.sent_le
  have htotal := hb.total
  have hleft : t.job.dummyLeftToRx = job.dummyLeftToRx - (taken.length - job.dataLeftToRx) := by
    rw [h.job_eq]
    rfl
  have hmin : min t.job.dummyLeftToRx bufferBytes.toNat = bufferBytes.toNat := by omega
  unfold receiveDummies
  rw [hmin]
  by_cases hzero : bufferBytes.toNat = 0
  · rw [hzero, if_neg (by simp)]
    exact ⟨[], rfl, by rwa [List.append_nil]⟩
  · have hdata : job.dataLeftToRx ≤ taken.length := by omega
    obtain ⟨units, hunits, hcarries⟩ := dropUnits_carries hlaw bufferBytes.toNat h.carries
      (by omega) hback
    have hjob : ({ t.job with
        dummyLeftToRx := sizeSub t.job.dummyLeftToRx bufferBytes.toNat } : DrvSpiJob) =
        job.during sent (taken ++ units) := by
      rw [h.job_eq]
      simp only [DrvSpiJob.during, DrvSpiJob.mk.injEq, true_and, and_true]
      rw [sizeSub_eq (by omega) (by omega), List.take_append_of_le_length hdata, List.length_append,
        Nat.min_eq_right hdata, Nat.min_eq_right (by omega)]
      simp only [true_and, and_true]
      omega
    rw [if_pos hzero]
    simp only
    rw [hjob]
    refine ⟨units, hunits, rfl, hcarries, hsent, ?_, ?_⟩
    · simp only
      rw [sizeSub_eq (by omega) (by omega), List.length_append]
      omega
    · rw [sizeSub_eq (by omega) (by omega)]
      simp only
      omega

/-- **The receive sub-task** reads everything that has come by then, and stores what is not a dummy. -/
theorem receive8Bit_during (hlaw : spi.Lawful errorTasks P view) (hb : job.Balanced)
    (h : During spi P view s dummyByteValue job sent taken t) :
    ∃ units, (view t.port).back.length ≤ units.length ∧
      During spi P view s dummyByteValue job sent (taken ++ units) (receive8Bit spi t) := by
  have hflight := h.inFlight hb
  have hroom := h.room
  have hsize := hlaw.size_lt
  have hsent := h.sent_le
  have htotal := hb.total
  have hcount := h.count
  obtain ⟨hmoves, hlow, hhigh⟩ := hlaw.receiveCount t.port (by omega)
  have hnow := h.moves hmoves
  have hback := hnow.back_le hb
  simp only at hback
  have hbytes : (UInt8.ofNat (spi.receiveCount t.port).1).toNat = (spi.receiveCount t.port).1 := by
    rw [UInt8.toNat_ofNat']
    exact Nat.mod_eq_of_lt (by omega)
  obtain ⟨units, hunits, hdata, hleft, hrest⟩ := receiveData_during hlaw hb hnow
    (UInt8.ofNat (spi.receiveCount t.port).1) (by rw [hbytes]; exact hhigh) rfl
  simp only at hrest
  obtain ⟨dummies, hdummies, hend⟩ := receiveDummies_during hlaw hb hdata
    (by rw [hleft]; omega)
    (by rw [hleft, hbytes, List.length_append, hunits, hbytes]; omega)
  refine ⟨units ++ dummies, ?_, ?_⟩
  · rw [List.length_append, hdummies, hleft, hbytes, hunits, hbytes]
    omega
  · rw [← List.append_assoc]
    exact hend

end SubTasks

end NixieTracker
