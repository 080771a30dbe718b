import NixieTracker.Lib.Buffer
import NixieTracker.Lib.Link
import NixieTracker.Lib.Machine

/-!
# The SPI driver (`driver/spi/dynamic`)

The dynamic SPI driver of the framework as a master with the enhanced buffers and bytes on the wire:
`drv_spi_master_ebm_tasks.c` and `drv_spi_tasks.c`, polled and from its interrupt.

* `SpiModule`: the peripheral library and the module behind it. Time passes within its functions.
* `Transfer`: what the sub-tasks work on; `send8Bit` and `receive8Bit` are what the polled and the
  interrupt sub-tasks have in common.
* `drvSpiPolledMasterEBM8BitTasks`: one call of the polled tasks.
* `isrPass`, `drvSpiISRMasterEBM8BitTasks`: one pass of the interrupt's loop, and the loop.

The queue of the driver (`DRV_SPI_SYS_QUEUE`) is the one that the project file names
(`drv_spi_sys_queue_fifo.c`): a list, with new jobs at its end. What its functions return besides, and
whether an interrupt would fire again, is answered with each call.
-/

namespace NixieTracker

open Lib

/-- The fields of `DRV_SPI_CLIENT_OBJECT` that the tasks read; a callback is there or `NULL`. -/
structure DrvSpiClient where
  baudRate : Nat
  operationStarting : Bool
  operationEnded : Bool
  deriving DecidableEq, Repr

/-- `DRV_SPI_BUFFER_EVENT`. -/
inductive DrvSpiBufferEvent where
  | pending | processing | complete | error
  deriving DecidableEq, Repr

/-- `DRV_SPI_JOB_OBJECT`. -/
structure DrvSpiJob where
  client : DrvSpiClient
  txBuffer : List UInt8
  rxBuffer : List UInt8
  dataLeftToTx : Nat
  dummyLeftToTx : Nat
  dataTxed : Nat
  dataLeftToRx : Nat
  dummyLeftToRx : Nat
  dataRxed : Nat
  status : DrvSpiBufferEvent
  completeCB : Bool
  context : Nat
  deriving DecidableEq, Repr

/-- `SPI_FIFO_INTERRUPT`: when the transmit and when the receive buffer raises its interrupt. -/
inductive SpiTransmitInterrupt where
  | oneHalfEmptyOrMore | completelyEmpty
  deriving DecidableEq, Repr

inductive SpiReceiveInterrupt where
  | oneHalfFullOrMore | notEmpty
  deriving DecidableEq, Repr

/-- The state of the interrupts: which sources are enabled, and the modes of the buffers. -/
structure SpiInterrupts where
  rxSource : Bool
  txSource : Bool
  errSource : Bool
  transmitMode : SpiTransmitInterrupt
  receiveMode : SpiReceiveInterrupt
  deriving DecidableEq, Repr

/-- The fields of `DRV_SPI_DRIVER_OBJECT` that the tasks use. -/
structure DrvSpi where
  currentJob : Option DrvSpiJob
  queue : List DrvSpiJob
  symbolsInProgress : Nat
  dummyByteValue : UInt16
  currentBaudRate : Nat
  txEnabled : Bool
  rxEnabled : Bool
  interrupts : SpiInterrupts
  deriving DecidableEq, Repr

/-- The functions of the peripheral library on a module in the states `η`. The clock of the module
runs within all of them, and in `wait` while the driver is not called. -/
structure SpiModule (η : Type) where
  /-- `PLIB_SPI_TX_8BIT_FIFO_SIZE`, `PLIB_SPI_RX_8BIT_FIFO_SIZE`, `PLIB_SPI_RX_8BIT_HW_MARK`. -/
  txFifoSize : Nat
  rxFifoSize : Nat
  rxHwMark : Nat
  /-- `PLIB_SPI_FIFOCountGet` of the transmit and of the receive buffer. -/
  transmitCount : η → Nat × η
  receiveCount : η → Nat × η
  bufferWrite : η → UInt8 → η
  bufferRead : η → UInt8 × η
  bufferClear : η → η
  wait : η → η

/-- The driver with its module. -/
structure SpiState (η : Type) where
  drv : DrvSpi
  port : η

/-- What the tasks do outside the driver and the module. A callback gets the job's handle, so its client
sees the job as it is then. -/
inductive SpiEvent where
  | operationStarting (job : DrvSpiJob)
  | baudRateSet (baudRate : Nat)
  | completeCB (job : DrvSpiJob)
  | operationEnded (job : DrvSpiJob)
  /-- `DRV_SPI_SYS_QUEUE_FreeElement`: the job goes back to the free ones. -/
  | freed (job : DrvSpiJob)
  | assertion (message : String)
  deriving DecidableEq, Repr

/-- What the functions of the queue return: is it `DRV_SPI_SYS_QUEUE_SUCCESS`. -/
structure QueueAnswers where
  dequeue : Bool
  freeElement : Bool
  deriving DecidableEq, Repr

/-- The current job with what the sub-tasks use beside it. -/
structure Transfer (η : Type) where
  job : DrvSpiJob
  symbolsInProgress : Nat
  port : η

section SubTasks

variable {η : Type} (spi : SpiModule η)

/-! ## The sub-tasks -/

/-- The bytes at `bufferLoc` that the first loop of the send sub-task writes. -/
def DrvSpiJob.unitsToSend (job : DrvSpiJob) (dataUnits : Nat) : List UInt8 :=
  (List.range dataUnits).map fun counter => (job.txBuffer[job.dataTxed + counter]?).getD 0

/-- A loop of `PLIB_SPI_BufferWrite`. -/
def writeUnits (port : η) (units : List UInt8) : η := units.foldl spi.bufferWrite port

/-- The loop that receives units to the buffer, from `loc` on. -/
def receiveUnits (port : η) (rxBuffer : List UInt8) (loc : Nat) : Nat → List UInt8 × η
  | 0 => (rxBuffer, port)
  | units + 1 =>
    let (unit, port) := spi.bufferRead port
    receiveUnits port (rxBuffer.set loc unit) (loc + 1) units

/-- The loop that receives units and throws them away. -/
def dropUnits (port : η) : Nat → η
  | 0 => port
  | units + 1 => dropUnits (spi.bufferRead port).2 units

/-- The first part of the send sub-task: up to `bufferBytes` bytes of the buffer. -/
def writeSymbols (bufferBytes : UInt8) (t : Transfer η) : UInt8 × Transfer η :=
  let dataUnits := min t.job.dataLeftToTx bufferBytes.toNat
  if dataUnits ≠ 0 then
    (bufferBytes - UInt8.ofNat dataUnits,
      { job := { t.job with
          dataLeftToTx := sizeSub t.job.dataLeftToTx dataUnits
          dataTxed := sizeAdd t.job.dataTxed dataUnits }
        symbolsInProgress := sizeAdd t.symbolsInProgress dataUnits
        port := writeUnits spi t.port (t.job.unitsToSend dataUnits) })
  else (bufferBytes, t)

/-- The second part: dummy bytes into what is left. -/
def sendDummies (dummyByteValue : UInt16) (bufferBytes : UInt8) (t : Transfer η) : Transfer η :=
  let dummyUnits := min t.job.dummyLeftToTx bufferBytes.toNat
  if dummyUnits ≠ 0 then
    { job := { t.job with dummyLeftToTx := sizeSub t.job.dummyLeftToTx dummyUnits }
      symbolsInProgress := sizeAdd t.symbolsInProgress dummyUnits
      port := writeUnits spi t.port (List.replicate dummyUnits dummyByteValue.toUInt8) }
  else t

/-- What `DRV_SPI_MasterEBMSend8BitISR` and `DRV_SPI_MasterEBMSend8BitPolled` have in common. -/
def send8Bit (dummyByteValue : UInt16) (t : Transfer η) : Transfer η :=
  let (count, port) := spi.transmitCount t.port
  let symbolsInTransit := UInt8.ofNat (max t.symbolsInProgress count)
  let bufferBytes := UInt8.ofNat spi.txFifoSize - symbolsInTransit
  let (bufferBytes, t) := writeSymbols spi bufferBytes { t with port }
  sendDummies spi dummyByteValue bufferBytes t

def receiveData (bufferBytes : UInt8) (t : Transfer η) : UInt8 × Transfer η :=
  let dataUnits := min t.job.dataLeftToRx bufferBytes.toNat
  if dataUnits ≠ 0 then
    let (rxBuffer, port) := receiveUnits spi t.port t.job.rxBuffer t.job.dataRxed dataUnits
    (bufferBytes - UInt8.ofNat dataUnits,
      { job := { t.job with
          dataLeftToRx := sizeSub t.job.dataLeftToRx dataUnits
          rxBuffer
          dataRxed := sizeAdd t.job.dataRxed dataUnits }
        symbolsInProgress := sizeSub t.symbolsInProgress dataUnits
        port })
  else (bufferBytes, t)

def receiveDummies (bufferBytes : UInt8) (t : Transfer η) : Transfer η :=
  let dummyUnits := min t.job.dummyLeftToRx bufferBytes.toNat
  if dummyUnits ≠ 0 then
    { job := { t.job with dummyLeftToRx := sizeSub t.job.dummyLeftToRx dummyUnits }
      symbolsInProgress := sizeSub t.symbolsInProgress dummyUnits
      port := dropUnits spi t.port dummyUnits }
  else t

/-- What `DRV_SPI_MasterEBMReceive8BitISR` and `DRV_SPI_MasterEBMReceive8BitPolled` have in common. -/
def receive8Bit (t : Transfer η) : Transfer η :=
  let (count, port) := spi.receiveCount t.port
  let (bufferBytes, t) := receiveData spi (UInt8.ofNat count) { t with port }
  receiveDummies spi bufferBytes t

def DrvSpiJob.leftToTx (job : DrvSpiJob) : Nat := sizeAdd job.dataLeftToTx job.dummyLeftToTx

def DrvSpiJob.leftToRx (job : DrvSpiJob) : Nat := sizeAdd job.dataLeftToRx job.dummyLeftToRx

def drvSpiMasterEBMSend8BitPolled (dummyByteValue : UInt16) (t : Transfer η) : Transfer η :=
  send8Bit spi dummyByteValue t

def drvSpiMasterEBMReceive8BitPolled (t : Transfer η) : Transfer η := receive8Bit spi t

/-- With no more data to send the interrupt sub-task turns to the receive interrupt. -/
def drvSpiMasterEBMSend8BitISR (drv : DrvSpi) (t : Transfer η) : DrvSpi × Transfer η :=
  let t := send8Bit spi drv.dummyByteValue t
  if t.job.leftToTx = 0 then
    ({ drv with
        interrupts := { drv.interrupts with transmitMode := .completelyEmpty }
        txEnabled := false
        rxEnabled := true }, t)
  else (drv, t)

def drvSpiMasterEBMReceive8BitISR (drv : DrvSpi) (t : Transfer η) : DrvSpi × Transfer η :=
  let t := receive8Bit spi t
  if t.job.leftToRx < spi.rxHwMark then
    ({ drv with interrupts := { drv.interrupts with receiveMode := .notEmpty } }, t)
  else (drv, t)

end SubTasks

section Tasks

variable {η : Type} (spi : SpiModule η)

/-! ## The tasks -/

/-- The calls at the start of a job: the callback of its client, and another baud rate. -/
def startEvents (currentBaudRate : Nat) (job : DrvSpiJob) : List SpiEvent :=
  (if job.client.operationStarting then [.operationStarting job] else []) ++
    if job.client.baudRate ≠ currentBaudRate then [.baudRateSet job.client.baudRate] else []

/-- A job that was taken from the queue is set up. -/
def startJob (drv : DrvSpi) (job : DrvSpiJob) (queue : List DrvSpiJob) : DrvSpi :=
  { drv with
    currentJob := some { job with status := .processing }
    queue
    symbolsInProgress := 0
    currentBaudRate := job.client.baudRate }

/-- The calls at the end of a job, as far as the one that frees it. -/
def endEvents (job : DrvSpiJob) : List SpiEvent :=
  (if job.completeCB then [.completeCB job] else []) ++
    if job.client.operationEnded then [.operationEnded job] else []

/-- The driver with the transfer's count; the job is the one that `currentJob` points to, if any. -/
def DrvSpi.store {η : Type} (drv : DrvSpi) (t : Transfer η) : DrvSpi :=
  { drv with currentJob := drv.currentJob.map fun _ => t.job, symbolsInProgress := t.symbolsInProgress }

/-- `DRV_SPI_PolledErrorTasks` or `DRV_SPI_ISRErrorTasks`, on the driver and its current job. -/
abbrev ErrorTasks (η : Type) : Type := DrvSpi → Transfer η → DrvSpi × Transfer η

/-- The end of a job. If it is not freed it stays the current one. -/
def endJob {η : Type} (freeElement : Bool) (drv : DrvSpi) (t : Transfer η) :
    SpiState η × List SpiEvent :=
  let job := { t.job with status := .complete }
  let drv := drv.store { t with job }
  if freeElement then
    (⟨{ drv with currentJob := none }, t.port⟩, endEvents job ++ [.freed job])
  else
    (⟨drv, t.port⟩,
      endEvents job ++ [.assertion "\r\nSPI Driver: Queue free element error."])

/-- The sub-tasks of one call for the current job. -/
def polledTransfer (errorTasks : ErrorTasks η) (answers : QueueAnswers) (drv : DrvSpi)
    (job : DrvSpiJob) (port : η) : SpiState η × List SpiEvent :=
  let t : Transfer η := ⟨job, drv.symbolsInProgress, port⟩
  let t := if t.job.leftToTx ≠ 0 then drvSpiMasterEBMSend8BitPolled spi drv.dummyByteValue t else t
  let (drv, t) := errorTasks drv t
  let t := if t.job.leftToRx ≠ 0 then drvSpiMasterEBMReceive8BitPolled spi t else t
  if t.job.leftToRx = 0 then endJob answers.freeElement drv t
  else (⟨drv.store t, t.port⟩, [])

/-- One call of `DRV_SPI_PolledMasterEBM8BitTasks`. -/
def drvSpiPolledMasterEBM8BitTasks (errorTasks : ErrorTasks η) (answers : QueueAnswers)
    (s : SpiState η) : SpiState η × List SpiEvent :=
  match s.drv.currentJob with
  | some job => polledTransfer spi errorTasks answers s.drv job s.port
  | none =>
    if !answers.dequeue then (s, [.assertion "\r\nSPI Driver: Error in dequeing."])
    else
      match s.drv.queue with
      | [] => (s, [])
      | job :: queue =>
        let drv := startJob s.drv job queue
        let (s', events) := polledTransfer spi errorTasks answers drv { job with status := .processing }
          (spi.bufferClear s.port)
        (s', startEvents s.drv.currentBaudRate job ++ events)

/-- What is answered during one pass of the interrupt's loop. -/
structure IsrAnswers where
  queue : QueueAnswers
  /-- The jobs that are added in the meantime, by callbacks or by interrupts of a higher priority. -/
  added : List DrvSpiJob
  /-- After its status is cleared, an interrupt is active again at once. -/
  firesAgain : Bool
  deriving DecidableEq, Repr

/-- How a pass of the loop ends. -/
inductive PassEnd where
  | continueLoop | breakLoop | return0
  deriving DecidableEq, Repr

/-- The interrupt modes for a job that does not fit into the buffers. -/
def selectModes (job : DrvSpiJob) (drv : DrvSpi) : DrvSpi :=
  if spi.rxFifoSize < job.leftToTx then
    { drv with interrupts := { drv.interrupts with
        transmitMode := .oneHalfEmptyOrMore
        receiveMode := .oneHalfFullOrMore } }
  else drv

/-- The sub-tasks of one pass for the current job. -/
def isrTransfer (errorTasks : ErrorTasks η) (answers : IsrAnswers) (drv : DrvSpi) (job : DrvSpiJob)
    (port : η) : SpiState η × List SpiEvent × PassEnd :=
  let t : Transfer η := ⟨job, drv.symbolsInProgress, port⟩
  let (drv, t) := if t.job.leftToTx ≠ 0 then drvSpiMasterEBMSend8BitISR spi drv t else (drv, t)
  let (drv, t) := errorTasks drv t
  let (drv, t) := if t.job.leftToRx ≠ 0 then drvSpiMasterEBMReceive8BitISR spi drv t else (drv, t)
  let drv := { drv with queue := drv.queue ++ answers.added }
  if t.job.leftToRx = 0 then
    let (s, events) := endJob answers.queue.freeElement { drv with rxEnabled := false } t
    (s, events,
      if !answers.queue.freeElement then .return0
      else if drv.queue ≠ [] then .continueLoop else .breakLoop)
  else if drv.currentJob = none then (⟨drv.store t, t.port⟩, [], .breakLoop)
  else if answers.firesAgain then (⟨drv.store t, t.port⟩, [], .continueLoop)
  else
    -- Nothing would fire at once, so both sources are enabled again.
    (⟨{ drv.store t with
        interrupts := { drv.interrupts with rxSource := true, txSource := true } }, t.port⟩,
      [], .return0)

/-- One pass of the loop in `DRV_SPI_ISRMasterEBM8BitTasks`. -/
def isrPass (errorTasks : ErrorTasks η) (answers : IsrAnswers) (s : SpiState η) :
    SpiState η × List SpiEvent × PassEnd :=
  match s.drv.currentJob with
  | some job => isrTransfer spi errorTasks answers s.drv job s.port
  | none =>
    if !answers.queue.dequeue then
      (⟨{ s.drv with queue := s.drv.queue ++ answers.added }, s.port⟩,
        [.assertion "\r\nSPI Driver: Error in dequeing."], .return0)
    else
      match s.drv.queue with
      | [] => (⟨{ s.drv with txEnabled := false, queue := answers.added }, s.port⟩, [], .return0)
      | job :: queue =>
        let drv := selectModes spi job (startJob s.drv job queue)
        let (s', events, pass) := isrTransfer spi errorTasks answers drv
          { job with status := .processing } (spi.bufferClear s.port)
        (s', startEvents s.drv.currentBaudRate job ++ events, pass)

/-- The loop, with the answers of each of its passes. -/
def isrLoop (errorTasks : ErrorTasks η) (s : SpiState η) :
    List IsrAnswers → Option (SpiState η × List SpiEvent)
  | [] => none
  | answers :: rest =>
    match isrPass spi errorTasks answers s with
    | (s, events, .continueLoop) => (isrLoop errorTasks s rest).map fun r => (r.1, events ++ r.2)
    | (s, events, _) => if rest = [] then some (s, events) else none

/-- One call of `DRV_SPI_ISRMasterEBM8BitTasks`: the sources are disabled, then the loop runs. There is
no result if it does not take just the given passes. -/
def drvSpiISRMasterEBM8BitTasks (errorTasks : ErrorTasks η) (answers : List IsrAnswers)
    (s : SpiState η) : Option (SpiState η × List SpiEvent) :=
  let off := { s.drv.interrupts with rxSource := false, txSource := false, errSource := false }
  isrLoop spi errorTasks ⟨{ s.drv with interrupts := off }, s.port⟩ answers

end Tasks

end NixieTracker
