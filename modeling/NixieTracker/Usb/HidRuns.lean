import NixieTracker.Usb.Hid

/-!
# The read requests of the USB HID module

* `AtMostOne`: the invariant of the runs in which the device is configured only between the calls, and
  reset at any place. `hid_reads_fit`: there is room for each request.
* `OneRequest`: the invariant of the runs in which the device is not reset within a call.
  `hid_one_request`: the main task has a request out or a report to look at, never both.
-/

namespace NixieTracker

open Lib

namespace Hid

/-! ## The handlers -/

/-- The handler leaves the state and the configuration alone. -/
theorem hidEventHandler_frame (d : AppUsbHidData) (e : UsbDeviceHidEvent) :
    let d' := (appUsbDeviceHIDEventHandler d e).1
    d'.state = d.state ∧ d'.isDeviceConfigured = d.isDeviceConfigured ∧
      d'.rxTransferHandle = d.rxTransferHandle := by
  cases e <;> unfold appUsbDeviceHIDEventHandler <;> simp only <;> (try split) <;> simp

/-- The requests of the device layer, and the report that has come and is not seen. -/
def load (s : HidSystem) : Nat := s.reads.length + s.data.isHidDataReceived.toNat

theorem load_eq_zero_iff {s : HidSystem} :
    load s = 0 ↔ s.reads = [] ∧ s.data.isHidDataReceived = false := by
  simp [load, Bool.toNat_eq_zero]

/-- A request that ends makes room for the report. -/
theorem load_report {s : HidSystem} {e : UsbDeviceHidEvent} (hlegal : Legal s (.hid e)) :
    (readsAfterReport s.reads e).length ≤ s.reads.length ∧ load (step s (.hid e)).1 ≤ load s := by
  cases e with
  | reportReceived handle =>
    have hmem : handle ∈ s.reads := hlegal
    have hpos := List.length_pos_of_mem hmem
    have hlen := List.length_erase_of_mem hmem
    have hone : s.data.isHidDataReceived.toNat ≤ 1 := Bool.toNat_le _
    simp only [load, step, readsAfterReport, appUsbDeviceHIDEventHandler, hlen]
    refine ⟨by omega, ?_⟩
    split
    · simp only [Bool.toNat_true]
      omega
    · omega
  | reportSent handle =>
    refine ⟨Nat.le_refl _, ?_⟩
    simp only [load, step, readsAfterReport, appUsbDeviceHIDEventHandler]
    split <;> exact Nat.le_refl _
  | setIdle duration => exact ⟨Nat.le_refl _, Nat.le_refl _⟩
  | getIdle => exact ⟨Nat.le_refl _, Nat.le_refl _⟩
  | other => exact ⟨Nat.le_refl _, Nat.le_refl _⟩

/-! ## Configurations between the calls -/

/-- The device is configured only while no call of the tasks is in progress. -/
def ConfiguredBetween (s : HidSystem) (call : HidCall) : Prop :=
  Legal s call ∧ ∀ value, call = .device (.configured value) → s.place = .entry

/-- What holds after every run in which the device is configured only between the calls. -/
structure AtMostOne (s : HidSystem) : Prop where
  unconfigured : s.data.isDeviceConfigured = false → s.reads = []
  load_le : load s ≤ 1
  /-- Outside of the main task no request is out. A call that has seen the configuration goes on to the
  main task, unless the device was reset meanwhile. -/
  place : match s.place with
    | .entry => s.data.state = .mainTask ∨ s.reads = []
    | .openDevice | .setHandler | .toWait | .waitConfigured | .clearReceived =>
      s.data.state ≠ .mainTask ∧ s.reads = []
    | .setTransmitted | .toMain => load s = 0
    | .backToWait => s.reads = []
    | .mainConfigured | .mainReceived => s.data.state = .mainTask ∨ s.data.isDeviceConfigured = false
    | .mainClear => s.reads = [] ∧ (s.data.state = .mainTask ∨ s.data.isDeviceConfigured = false)
    | .receive => load s = 0 ∧ (s.data.state = .mainTask ∨ s.data.isDeviceConfigured = false)

theorem atMostOne_of_initialized {s : HidSystem} (h : Initialized s) : AtMostOne s := by
  obtain ⟨memory, rfl⟩ := h
  exact ⟨fun _ => rfl, Nat.zero_le _, .inr rfl⟩

/-- **One access** of the tasks. -/
theorem atMostOne_task {s : HidSystem} (h : AtMostOne s) {answers : UsbAnswers}
    (hlegal : Legal s (.task answers)) : AtMostOne (step s (.task answers)).1 := by
  obtain ⟨⟨state, usHandle, configured, tx, rx, value, received, transmitted, idleRate⟩, place, reads⟩
    := s
  obtain ⟨openHandle, reportReceive⟩ := answers
  obtain ⟨hnone, hload, hplace⟩ := h
  cases place with
  | entry => cases state <;> constructor <;> simp_all [step, hidStep, load]
  | openDevice => cases openHandle <;> constructor <;> simp_all [step, hidStep, load]
  | waitConfigured => cases configured <;> constructor <;> simp_all [step, hidStep, load]
  | mainConfigured => cases configured <;> constructor <;> simp_all [step, hidStep, load]
  | mainReceived =>
    rcases hplace with hp | hp <;> cases received <;> constructor <;> simp_all [step, hidStep, load]
  | receive =>
    -- The one access that adds a request: the queue is empty.
    obtain ⟨hempty, hstate⟩ := hplace
    obtain ⟨hreads, hreceived⟩ := load_eq_zero_iff.mp hempty
    obtain ⟨htaken, -⟩ := hlegal rfl
    cases reportReceive <;> constructor <;>
      simp_all [step, hidStep, load, queueSizeReportReceive]
  | _ => constructor <;> simp_all [step, hidStep, load]

/-- Fewer requests at the same place, with the same state. -/
theorem AtMostOne.mono {s : HidSystem} (h : AtMostOne s) {data : AppUsbHidData} {reads : List Nat}
    (hstate : data.state = s.data.state)
    (hconfigured : data.isDeviceConfigured = s.data.isDeviceConfigured)
    (hreads : reads.length ≤ s.reads.length) (hload : load ⟨data, s.place, reads⟩ ≤ load s) :
    AtMostOne ⟨data, s.place, reads⟩ := by
  have hnone (hs : s.reads = []) : reads = [] := by
    rw [hs] at hreads
    exact List.length_eq_zero_iff.mp (Nat.le_zero.mp hreads)
  have hzero (hs : load s = 0) : load ⟨data, s.place, reads⟩ = 0 := Nat.le_zero.mp (hs ▸ hload)
  refine ⟨fun hc => hnone (h.unconfigured (hconfigured.symm.trans hc)),
    Nat.le_trans hload h.load_le, ?_⟩
  have hplace := h.place
  simp only [hstate, hconfigured]
  split at hplace <;> rename_i hp <;> simp only [hp] at hzero ⊢
  case h_1 => exact hplace.imp_right hnone
  all_goals simp_all

/-- A device that is reset drops all requests. -/
theorem AtMostOne.reset {s : HidSystem} (h : AtMostOne s) :
    AtMostOne ⟨{ s.data with isDeviceConfigured := false, state := .waitForConfiguration },
      s.place, []⟩ := by
  have hreceived : s.data.isHidDataReceived.toNat ≤ 1 := Bool.toNat_le _
  have hplace := h.place
  refine ⟨fun _ => rfl, Nat.le_trans (Nat.le_of_eq (Nat.zero_add _)) hreceived, ?_⟩
  simp only
  split at hplace <;> simp_all [load]

theorem atMostOne_step (s : HidSystem) (call : HidCall) (hcall : ConfiguredBetween s call)
    (h : AtMostOne s) : AtMostOne (step s call).1 := by
  obtain ⟨hlegal, hbetween⟩ := hcall
  cases call with
  | task answers => exact atMostOne_task h hlegal
  | device e =>
    cases e
    case reset => exact h.reset
    case deconfigured => exact h.reset
    case configured value =>
      obtain ⟨d, place, reads⟩ := s
      obtain rfl : place = .entry := hbetween value rfl
      exact ⟨nofun, h.load_le, h.place⟩
    all_goals exact h
  | hid e =>
    obtain ⟨hstate, hconfigured, -⟩ := hidEventHandler_frame s.data e
    obtain ⟨hreads, hload⟩ := load_report hlegal
    exact h.mono hstate hconfigured hreads hload

/-- **There is room for each read request**, wherever in a call of the tasks the device is reset, if it
is configured only between the calls: the device layer has no other one when the module places it. -/
theorem hid_reads_fit {s : HidSystem} (h : Initialized s) {calls : List HidCall}
    (hcalls : machine.Along ConfiguredBetween s calls) :
    let s' := machine.run s calls
    s'.reads.length ≤ queueSizeReportReceive ∧
      (s'.place = .receive → s'.reads.length < queueSizeReportReceive) := by
  intro s'
  have hinv : AtMostOne s' := Machine.run_inv_along atMostOne_step hcalls (atMostOne_of_initialized h)
  refine ⟨Nat.le_trans (Nat.le_add_right _ _) hinv.load_le, fun hp => ?_⟩
  have hplace := hinv.place
  rw [hp] at hplace
  rw [(load_eq_zero_iff.mp hplace.1).1]
  decide

/-- The tasks go on by `n` accesses; the device layer gives the handle `handle`. -/
def tasks (n : Nat) (handle : UsbHandle) : List HidCall := List.replicate n (.task ⟨some 0, handle⟩)

/-- The module before the device layer is opened. -/
def coldStart : HidSystem :=
  ⟨appUsbHidInitialize ⟨.error, none, false, none, none, 0, false, false, 0⟩, .entry, []⟩

/-- The device is opened and configured, and the module is about to place its first request. -/
def firstRequest : List HidCall := tasks 4 none ++ .device (.configured 1) :: tasks 5 none

theorem hid_reads_fit_first :
    (machine.run coldStart firstRequest).reads.length < queueSizeReportReceive :=
  have hcalls : machine.Along ConfiguredBetween coldStart firstRequest := by
    simp [firstRequest, tasks, List.replicate, coldStart, machine, step, ConfiguredBetween, Legal,
      hidStep, appUsbHidInitialize, appUsbDeviceEventHandler]
  (hid_reads_fit ⟨_, rfl⟩ hcalls).2 rfl

-- The device is reset and configured again just before the request: the module waits for the
-- configuration once more, with a request out, and places another one.
example :
    let again : List HidCall := [.device .reset, .device (.configured 1)]
    let s := machine.run coldStart (firstRequest ++ again ++ tasks 1 (some 1) ++ tasks 5 none)
    s.place = .receive ∧ s.reads = [1] := by decide

/-! ## Resets between the calls -/

/-- The device is reset only while no call of the tasks is in progress. -/
def ResetBetween (s : HidSystem) (call : HidCall) : Prop :=
  Legal s call ∧ (call = .device .reset ∨ call = .device .deconfigured → s.place = .entry)

/-- A request is out under the handle of the module, or its report has come. -/
def Listening (s : HidSystem) : Prop :=
  (∃ handle, s.reads = [handle] ∧ s.data.rxTransferHandle = some handle ∧
    s.data.isHidDataReceived = false) ∨
  s.reads = [] ∧ s.data.isHidDataReceived = true

/-- What holds after every run in which the device is reset only between the calls. -/
def OneRequest (s : HidSystem) : Prop :=
  match s.place with
  | .entry => s.data.state = .mainTask ∧ s.data.isDeviceConfigured = true ∧ Listening s ∨
      s.data.state ≠ .mainTask ∧ s.reads = []
  | .openDevice | .setHandler | .toWait => s.data.state ≠ .mainTask ∧ s.reads = []
  | .waitConfigured => s.data.state = .waitForConfiguration ∧ s.reads = []
  | .clearReceived => s.data.state = .waitForConfiguration ∧ s.data.isDeviceConfigured = true ∧
      s.reads = []
  | .setTransmitted | .toMain => s.data.state = .waitForConfiguration ∧
      s.data.isDeviceConfigured = true ∧ s.reads = [] ∧ s.data.isHidDataReceived = false
  | .mainConfigured | .mainReceived => s.data.state = .mainTask ∧ s.data.isDeviceConfigured = true ∧
      Listening s
  | .backToWait => False
  | .mainClear => s.data.state = .mainTask ∧ s.data.isDeviceConfigured = true ∧ s.reads = []
  | .receive => s.data.state = .mainTask ∧ s.data.isDeviceConfigured = true ∧ s.reads = [] ∧
      s.data.isHidDataReceived = false

theorem oneRequest_of_initialized {s : HidSystem} (h : Initialized s) : OneRequest s := by
  obtain ⟨memory, rfl⟩ := h
  exact .inr ⟨by simp [appUsbHidInitialize], rfl⟩

theorem oneRequest_task {s : HidSystem} (h : OneRequest s) {answers : UsbAnswers}
    (hlegal : Legal s (.task answers)) : OneRequest (step s (.task answers)).1 := by
  obtain ⟨⟨state, usHandle, configured, tx, rx, value, received, transmitted, idleRate⟩, place, reads⟩
    := s
  obtain ⟨openHandle, reportReceive⟩ := answers
  cases place with
  | entry => cases state <;> simp_all [OneRequest, step, hidStep, Listening]
  | openDevice => cases openHandle <;> simp_all [OneRequest, step, hidStep]
  | waitConfigured => cases configured <;> simp_all [OneRequest, step, hidStep]
  | mainReceived => cases received <;> simp_all [OneRequest, step, hidStep, Listening]
  | receive =>
    -- The device layer takes the request, under a handle that the module keeps.
    obtain ⟨hstate, hconfigured, hreads, hreceived⟩ := h
    obtain ⟨htaken, -⟩ := hlegal rfl
    cases reportReceive with
    | none =>
      have hroom : reads.length < queueSizeReportReceive := by
        rw [show reads = [] from hreads]
        decide
      exact absurd rfl (htaken.mpr ⟨hconfigured, hroom⟩)
    | some handle => simp_all [OneRequest, step, hidStep, Listening]
  | _ => simp_all [OneRequest, step, hidStep, Listening]

/-- The device is reset, and no call is in progress. -/
theorem oneRequest_reset {s : HidSystem} (hplace : s.place = .entry) :
    OneRequest ⟨{ s.data with isDeviceConfigured := false, state := .waitForConfiguration },
      s.place, []⟩ := by
  rw [hplace]
  exact .inr ⟨by simp, rfl⟩

/-- An event after which the module is as before. -/
theorem OneRequest.congr {s : HidSystem} (h : OneRequest s) {data : AppUsbHidData}
    (hstate : data.state = s.data.state) (hrx : data.rxTransferHandle = s.data.rxTransferHandle)
    (hreceived : data.isHidDataReceived = s.data.isHidDataReceived)
    (hconfigured : s.data.isDeviceConfigured = true → data.isDeviceConfigured = true) :
    OneRequest ⟨data, s.place, s.reads⟩ := by
  obtain ⟨d, place, reads⟩ := s
  cases place <;> simp only [OneRequest, Listening, hstate, hrx, hreceived] at h ⊢ <;> grind

/-- A request that is out is the one that the module waits for. -/
theorem OneRequest.of_mem {s : HidSystem} (h : OneRequest s) {handle : Nat} (hmem : handle ∈ s.reads) :
    s.data.state = .mainTask ∧ s.data.isDeviceConfigured = true ∧ s.reads = [handle] ∧
      s.data.rxTransferHandle = some handle ∧
      (s.place = .entry ∨ s.place = .mainConfigured ∨ s.place = .mainReceived) := by
  obtain ⟨d, place, reads⟩ := s
  have hlistening : Listening ⟨d, place, reads⟩ → reads = [handle] ∧
      d.rxTransferHandle = some handle := by
    rintro (⟨handle', hreads, hrx, -⟩ | ⟨hreads, -⟩)
    · rw [show reads = [handle'] from hreads] at hmem
      obtain rfl := List.mem_singleton.mp hmem
      exact ⟨hreads, hrx⟩
    · rw [show reads = [] from hreads] at hmem
      cases hmem
  have hsome : reads ≠ [] := List.ne_nil_of_mem hmem
  cases place with
  | entry =>
    rcases h with ⟨hstate, hconfigured, hl⟩ | ⟨-, hnil⟩
    · exact ⟨hstate, hconfigured, (hlistening hl).1, (hlistening hl).2, .inl rfl⟩
    · exact absurd hnil hsome
  | mainConfigured =>
    obtain ⟨hstate, hconfigured, hl⟩ := h
    exact ⟨hstate, hconfigured, (hlistening hl).1, (hlistening hl).2, .inr (.inl rfl)⟩
  | mainReceived =>
    obtain ⟨hstate, hconfigured, hl⟩ := h
    exact ⟨hstate, hconfigured, (hlistening hl).1, (hlistening hl).2, .inr (.inr rfl)⟩
  | _ => simp_all [OneRequest]

theorem oneRequest_received {s : HidSystem} (h : OneRequest s) {handle : Nat}
    (hmem : handle ∈ s.reads) : OneRequest (step s (.hid (.reportReceived handle))).1 := by
  obtain ⟨hstate, hconfigured, hreads, hrx, hplace⟩ := h.of_mem hmem
  have hnone : s.reads.erase handle = [] := by
    rw [hreads, List.erase_cons_head]
  simp only [step, appUsbDeviceHIDEventHandler, readsAfterReport, hrx, if_true, hnone]
  unfold OneRequest
  rcases hplace with hp | hp | hp <;> simp only [hp]
  · exact .inl ⟨hstate, hconfigured, .inr ⟨rfl, rfl⟩⟩
  · exact ⟨hstate, hconfigured, .inr ⟨rfl, rfl⟩⟩
  · exact ⟨hstate, hconfigured, .inr ⟨rfl, rfl⟩⟩

theorem oneRequest_step (s : HidSystem) (call : HidCall) (hcall : ResetBetween s call)
    (h : OneRequest s) : OneRequest (step s call).1 := by
  obtain ⟨hlegal, hbetween⟩ := hcall
  cases call with
  | task answers => exact oneRequest_task h hlegal
  | device e =>
    cases e
    case reset => exact oneRequest_reset (hbetween (.inl rfl))
    case deconfigured => exact oneRequest_reset (hbetween (.inr rfl))
    case configured => exact h.congr rfl rfl rfl fun _ => rfl
    all_goals exact h
  | hid e =>
    cases e with
    | reportReceived handle => exact oneRequest_received h hlegal
    | reportSent handle =>
      simp only [step, appUsbDeviceHIDEventHandler, readsAfterReport]
      split
      · exact h.congr rfl rfl rfl id
      · exact h
    | setIdle duration => exact h.congr rfl rfl rfl id
    | getIdle => exact h
    | other => exact h

/-- Between two calls. -/
theorem OneRequest.between {s : HidSystem} (h : OneRequest s) (hplace : s.place = .entry) :
    (s.data.state = .mainTask → s.data.isDeviceConfigured = true ∧ Listening s) ∧
      (s.data.state ≠ .mainTask → s.reads = []) := by
  unfold OneRequest at h
  rw [hplace] at h
  rcases h with ⟨hs, hmain⟩ | ⟨hs, hnone⟩
  · exact ⟨fun _ => hmain, fun hn => absurd hs hn⟩
  · exact ⟨fun hn => absurd hn hs, fun _ => hnone⟩

/-- **The main task never stalls.** When the device is reset only between the calls of the tasks, then
between two calls of the main task the device is configured, and either one request is out, under the
handle that the module waits for, or its report has come and waits for the task; elsewhere no request
is out. -/
theorem hid_one_request {s : HidSystem} (h : Initialized s) {calls : List HidCall}
    (hcalls : machine.Along ResetBetween s calls)
    (hplace : (machine.run s calls).place = .entry) :
    let s' := machine.run s calls
    (s'.data.state = .mainTask → s'.data.isDeviceConfigured = true ∧ Listening s') ∧
      (s'.data.state ≠ .mainTask → s'.reads = []) := by
  intro s'
  exact (Machine.run_inv_along oneRequest_step hcalls (oneRequest_of_initialized h)).between hplace

/-- A report has come, and the task has not seen it. -/
def reportWaiting : List HidCall :=
  firstRequest ++ tasks 1 (some 1) ++ [.hid (.reportReceived 1)]

theorem hid_one_request_waiting : Listening (machine.run coldStart reportWaiting) :=
  have hcalls : machine.Along ResetBetween coldStart reportWaiting := by
    simp [reportWaiting, firstRequest, tasks, List.replicate, coldStart, machine, step, ResetBetween,
      Legal, hidStep, appUsbHidInitialize, appUsbDeviceEventHandler, readsAfter,
      queueSizeReportReceive]
  ((hid_one_request ⟨_, rfl⟩ hcalls rfl).1 rfl).2

/-! ## A reset within a call -/

/-- The device is not reset. -/
def NoReset (s : HidSystem) (call : HidCall) : Prop :=
  Legal s call ∧ call ≠ .device .reset ∧ call ≠ .device .deconfigured

/-- Without a request the device layer reports none. -/
theorem hidEvent_quiet {s : HidSystem} {e : UsbDeviceHidEvent} (hlegal : Legal s (.hid e))
    (hreads : s.reads = []) :
    readsAfterReport s.reads e = [] ∧
      (appUsbDeviceHIDEventHandler s.data e).1.isHidDataReceived = s.data.isHidDataReceived := by
  cases e with
  | reportReceived handle =>
    have hmem : handle ∈ s.reads := hlegal
    rw [hreads] at hmem
    cases hmem
  | reportSent handle =>
    refine ⟨hreads, ?_⟩
    simp only [appUsbDeviceHIDEventHandler]
    split <;> rfl
  | _ => exact ⟨hreads, rfl⟩

/-- The main task with neither a request out nor a report to look at. -/
structure Stalled (s : HidSystem) : Prop where
  state : s.data.state = .mainTask
  configured : s.data.isDeviceConfigured = true
  reads : s.reads = []
  received : s.data.isHidDataReceived = false
  place : s.place = .entry ∨ s.place = .mainConfigured ∨ s.place = .mainReceived

theorem stalled_step (s : HidSystem) (call : HidCall) (hcall : NoReset s call) (h : Stalled s) :
    Stalled (step s call).1 := by
  obtain ⟨hlegal, hreset, hdeconfigured⟩ := hcall
  obtain ⟨hstate, hconfigured, hreads, hreceived, hplace⟩ := h
  cases call with
  | task answers =>
    rcases hplace with hp | hp | hp <;> constructor <;> simp_all [step, hidStep]
  | device e =>
    cases e
    case reset => exact absurd rfl hreset
    case deconfigured => exact absurd rfl hdeconfigured
    all_goals exact ⟨hstate, by simp [step, appUsbDeviceEventHandler, hconfigured], hreads, hreceived,
      hplace⟩
  | hid e =>
    obtain ⟨hstate', hconfigured', -⟩ := hidEventHandler_frame s.data e
    obtain ⟨hreads', hreceived'⟩ := hidEvent_quiet hlegal hreads
    exact ⟨hstate'.trans hstate, hconfigured'.trans hconfigured, hreads', hreceived'.trans hreceived,
      hplace⟩

/-- The device was reset in a call that had found it configured, and is not configured again yet. -/
structure Unconfigured (s : HidSystem) : Prop where
  configured : s.data.isDeviceConfigured = false
  reads : s.reads = []
  place : match s.place with
    | .clearReceived | .waitConfigured => s.data.state = .waitForConfiguration
    | .setTransmitted | .toMain =>
      s.data.state = .waitForConfiguration ∧ s.data.isHidDataReceived = false
    | .receive | .mainConfigured => s.data.state = .mainTask ∧ s.data.isHidDataReceived = false
    | .entry => s.data.state = .waitForConfiguration ∨
      s.data.state = .mainTask ∧ s.data.isHidDataReceived = false
    | .backToWait => True
    | _ => False

/-- The device is neither reset nor configured. -/
def NoConfiguration (s : HidSystem) (call : HidCall) : Prop :=
  NoReset s call ∧ ∀ value, call ≠ .device (.configured value)

theorem unconfigured_step (s : HidSystem) (call : HidCall) (hcall : NoConfiguration s call)
    (h : Unconfigured s) : Unconfigured (step s call).1 := by
  obtain ⟨⟨hlegal, hreset, hdeconfigured⟩, hno⟩ := hcall
  obtain ⟨hconfigured, hreads, hplace⟩ := h
  cases call with
  | task answers =>
    obtain ⟨⟨state, usHandle, configured, tx, rx, value, received, transmitted, idleRate⟩, place,
      reads⟩ := s
    obtain ⟨openHandle, reportReceive⟩ := answers
    cases place with
    | entry => cases state <;> constructor <;> simp_all [step, hidStep]
    | receive =>
      -- The request is refused.
      obtain ⟨htaken, -⟩ := hlegal rfl
      cases reportReceive <;> constructor <;> simp_all [step, hidStep]
    | _ => constructor <;> simp_all [step, hidStep]
  | device e =>
    cases e
    case reset => exact absurd rfl hreset
    case deconfigured => exact absurd rfl hdeconfigured
    case configured value => exact absurd rfl (hno value)
    all_goals exact ⟨hconfigured, hreads, hplace⟩
  | hid e =>
    obtain ⟨hstate', hconfigured', -⟩ := hidEventHandler_frame s.data e
    obtain ⟨hreads', hreceived'⟩ := hidEvent_quiet hlegal hreads
    refine ⟨hconfigured'.trans hconfigured, hreads', ?_⟩
    simp only [step, hstate', hreceived']
    exact hplace

/-- The module has what `OneRequest` says, or it is on its way back to wait for the configuration. -/
def Recovering (s : HidSystem) : Prop := OneRequest s ∨ s.place = .backToWait ∧ s.reads = []

theorem recovering_step (s : HidSystem) (call : HidCall) (hcall : NoReset s call)
    (h : Recovering s) : Recovering (step s call).1 := by
  obtain ⟨hlegal, hreset, hdeconfigured⟩ := hcall
  rcases h with h | ⟨hplace, hreads⟩
  · exact .inl (oneRequest_step s call
      ⟨hlegal, fun hr => hr.elim (fun hr => absurd hr hreset) (fun hr => absurd hr hdeconfigured)⟩ h)
  · cases call with
    | task answers =>
      left
      simp [step, hidStep, hplace, OneRequest, hreads]
    | device e =>
      cases e
      case reset => exact absurd rfl hreset
      case deconfigured => exact absurd rfl hdeconfigured
      all_goals exact .inr ⟨hplace, hreads⟩
    | hid e => exact .inr ⟨hplace, (hidEvent_quiet hlegal hreads).1⟩

/-- The call in which the device was reset has ended with its request refused, and no later one has
seen yet that the device is not configured. -/
def RefusalUnseen (s : HidSystem) : Prop :=
  s.data.state = .mainTask ∧ (s.place = .entry ∨ s.place = .mainConfigured)

/-- The next configuration. -/
theorem Unconfigured.configured_again {s : HidSystem} (h : Unconfigured s) (value : UInt8) :
    (RefusalUnseen s → Stalled (step s (.device (.configured value))).1) ∧
      (¬ RefusalUnseen s → Recovering (step s (.device (.configured value))).1) := by
  obtain ⟨d, place, reads⟩ := s
  obtain ⟨-, hreads, hplace⟩ := h
  replace hreads : reads = [] := hreads
  subst hreads
  refine ⟨fun ⟨hstate, hp⟩ => ?_, fun hseen => ?_⟩
  · replace hstate : d.state = .mainTask := hstate
    rcases hp with hp | hp
    · obtain rfl : place = .entry := hp
      have hreceived : d.isHidDataReceived = false := by simpa [hstate] using hplace
      exact ⟨hstate, rfl, rfl, hreceived, .inl rfl⟩
    · obtain rfl : place = .mainConfigured := hp
      exact ⟨hstate, rfl, rfl, hplace.2, .inr (.inl rfl)⟩
  · cases place <;>
      simp_all [Recovering, RefusalUnseen, OneRequest, step, appUsbDeviceEventHandler, readsAfter]

/-- The places of a call that has found the device configured, before the main task. -/
def FoundConfigured (place : HidPlace) : Prop :=
  place = .clearReceived ∨ place = .setTransmitted ∨ place = .toMain

/-- The device is reset there. -/
theorem unconfigured_reset {s : HidSystem} (h : OneRequest s) (hplace : FoundConfigured s.place)
    {e : UsbDeviceEvent} (he : e = .reset ∨ e = .deconfigured) :
    Unconfigured (step s (.device e)).1 := by
  have hstep : (step s (.device e)).1 =
      ⟨{ s.data with isDeviceConfigured := false, state := .waitForConfiguration }, s.place, []⟩ := by
    rcases he with rfl | rfl <;> rfl
  rw [hstep]
  refine ⟨rfl, rfl, ?_⟩
  rcases hplace with hp | hp | hp <;> simp_all [OneRequest]

/-- **A reset within a call can stall the main task.** Where the device was reset only between the
calls, let it now be reset after a call has found it configured and before the call begins the main
task. If it is configured again after the request of the call was refused and before a later call has
seen that it is not configured, then the main task has no request out and places none, until the device
is reset again. Otherwise the module recovers: between two later calls of the main task the device is
configured and a request is out or its report waits for the task; elsewhere no request is out. -/
theorem hid_reset_stalls {start s u : HidSystem} {before waiting after : List HidCall}
    {e : UsbDeviceEvent} (h : Initialized start) (hbefore : machine.Along ResetBetween start before)
    (hs : machine.run start before = s) (hplace : FoundConfigured s.place)
    (he : e = .reset ∨ e = .deconfigured)
    (hwaiting : machine.Along NoConfiguration (step s (.device e)).1 waiting)
    (hu : machine.run s (.device e :: waiting) = u) (value : UInt8)
    (hafter : machine.Along NoReset (step u (.device (.configured value))).1 after) :
    let s' := machine.run u (.device (.configured value) :: after)
    (RefusalUnseen u → Stalled s') ∧
      (¬ RefusalUnseen u → s'.place = .entry →
        (s'.data.state = .mainTask → s'.data.isDeviceConfigured = true ∧ Listening s') ∧
          (s'.data.state ≠ .mainTask → s'.reads = [])) := by
  intro s'
  have hone : OneRequest s :=
    hs ▸ Machine.run_inv_along oneRequest_step hbefore (oneRequest_of_initialized h)
  have hunconfigured : Unconfigured u := by
    rw [← hu, Machine.run_cons]
    exact Machine.run_inv_along unconfigured_step hwaiting (unconfigured_reset hone hplace he)
  obtain ⟨hstalls, hrecovers⟩ := hunconfigured.configured_again value
  have hrun : s' = machine.run (step u (.device (.configured value))).1 after := rfl
  refine ⟨fun hr => hrun ▸ Machine.run_inv_along stalled_step hafter (hstalls hr), fun hr hentry => ?_⟩
  have hend : Recovering s' := hrun ▸ Machine.run_inv_along recovering_step hafter (hrecovers hr)
  rcases hend with hend | ⟨hback, -⟩
  · exact hend.between hentry
  · rw [hentry] at hback
    cases hback

/-- The device is reset just before the main task begins, and configured again after the call. -/
theorem hid_reset_stalls_first :
    let s := machine.run coldStart (tasks 4 none ++ .device (.configured 1) :: tasks 4 none)
    Stalled (machine.run (machine.run s (.device .reset :: tasks 2 none)) [.device (.configured 2)]) :=
  have hbefore : machine.Along ResetBetween coldStart
      (tasks 4 none ++ .device (.configured 1) :: tasks 4 none) := by
    simp [tasks, List.replicate, coldStart, machine, step, ResetBetween, Legal, hidStep,
      appUsbHidInitialize, appUsbDeviceEventHandler, readsAfter]
  have hwaiting : machine.Along NoConfiguration (step (machine.run coldStart
      (tasks 4 none ++ .device (.configured 1) :: tasks 4 none)) (.device .reset)).1
      (tasks 2 none) := by
    simp [tasks, List.replicate, coldStart, machine, step, NoConfiguration, NoReset, Legal, hidStep,
      appUsbHidInitialize, appUsbDeviceEventHandler, readsAfter]
  (hid_reset_stalls ⟨_, rfl⟩ hbefore rfl (.inr (.inr rfl)) (.inl rfl) hwaiting rfl 2
    (show machine.Along NoReset _ [] from trivial)).1 ⟨rfl, .inl rfl⟩

end Hid

end NixieTracker
