import NixieTracker.Network.Modules

/-!
# A failed initialization of the TCP/IP stack

`appNetworkTCPIPInitWait` sets `APP_NETWORK_TCPIP_ERROR` and returns true, so that the case falls
through to `appNetworkWifiConfig`. Where that finds the Wi-Fi driver open it overwrites the state, and
the modules of all interfaces are enabled over the failed stack.

* `FailureFinal`: the error is kept from the call that sees it on, nothing is enabled from then on, and
  `APP_NETWORK_TCPIP_TRANSACT` is entered over a ready stack only.
* `failure_final_iff`: a run is so if and only if no call that sees the error finds the Wi-Fi driver
  open.
-/

namespace NixieTracker

open Lib

namespace Network

/-- The call waits for the stack and sees this status. -/
def SeesStatus (status : SysStatus) (d : AppNetworkData) (tick : NetworkTick) : Prop :=
  d.state = .tcpipWaitInit ∧ tick.answers.tcpipStatus = status

/-- The call sees a negative status of the stack, and finds the Wi-Fi driver open. -/
def FailureOverwritten (d : AppNetworkData) (tick : NetworkTick) : Prop :=
  SeesStatus .error d tick ∧ tick.answers.driverIsOpen = true

instance (status : SysStatus) (d : AppNetworkData) (tick : NetworkTick) :
    Decidable (SeesStatus status d tick) := inferInstanceAs (Decidable (_ ∧ _))

instance (d : AppNetworkData) (tick : NetworkTick) : Decidable (FailureOverwritten d tick) :=
  inferInstanceAs (Decidable (_ ∧ _))

/-- The property of the run from this state. -/
structure FailureFinal (d : AppNetworkData) (ticks : List NetworkTick) : Prop where
  stays : ∀ before tick after, before ++ tick :: after <+: ticks →
    SeesStatus .error (polled.run d before) tick →
    (polled.run d (before ++ tick :: after)).state = .tcpipError
  quiet : ∀ before tick after, before ++ tick :: after <+: ticks →
    SeesStatus .error (polled.run d before) tick →
    ∀ net, .ifModulesEnable net ∉ polled.trace (polled.run d before) (tick :: after)
  ready : ∀ before, before <+: ticks → (polled.run d before).state = .tcpipTransact →
    ∃ v ∈ polled.visits d before, SeesStatus .ready v.1 v.2

/-! ## One call -/

section Step

variable {d : AppNetworkData} {tick : NetworkTick}

/-- The error is never left. -/
theorem polled_error (hd : d.state = .tcpipError) (tick : NetworkTick) :
    polled.step d tick = (d, []) := by
  show appNetworkTasks tick.nets tick.answers d = (d, [])
  simp only [appNetworkTasks, hd]

/-- A call that sees the error goes on to the Wi-Fi configuration. -/
theorem polled_sees_error (h : SeesStatus .error d tick) :
    polled.step d tick =
      tasksFromWifiConfig tick.nets tick.answers { d with state := .tcpipError } := by
  show appNetworkTasks tick.nets tick.answers d = _
  simp only [appNetworkTasks, h.1, appNetworkTCPIPInitWait, h.2]

/-- The error is kept while the driver is closed. -/
theorem polled_failed (h : SeesStatus .error d tick) (hopen : ¬ FailureOverwritten d tick) :
    polled.step d tick = ({ d with state := .tcpipError }, []) := by
  have hclosed : ¬ tick.answers.driverIsOpen = true := fun ho => hopen ⟨h, ho⟩
  obtain ⟨d', heq, -, -⟩ :=
    tasksFromWifiConfig_cases tick.answers tick.nets { d with state := .tcpipError }
  rw [polled_sees_error h, heq, if_neg hclosed]

/-- The driver overwrites the error. -/
theorem polled_overwritten (h : FailureOverwritten d tick) :
    (polled.step d tick).1.state = .tcpipTransact := by
  obtain ⟨d', heq, hstate, -⟩ :=
    tasksFromWifiConfig_cases tick.answers tick.nets { d with state := .tcpipError }
  rw [polled_sees_error h.1, heq, if_pos h.2]
  exact hstate

/-- The stack is waited for, or it failed. -/
def NotReady (d : AppNetworkData) : Prop := d.state = .tcpipWaitInit ∨ d.state = .tcpipError

/-- Only a ready stack ends the wait without an error. -/
theorem notReady_step (hopen : ¬ FailureOverwritten d tick) (hready : ¬ SeesStatus .ready d tick)
    (h : NotReady d) : NotReady (polled.step d tick).1 := by
  rcases h with hwait | herror
  · cases hstatus : tick.answers.tcpipStatus with
    | ready => exact absurd ⟨hwait, hstatus⟩ hready
    | error =>
      rw [polled_failed ⟨hwait, hstatus⟩ hopen]
      exact .inr rfl
    | busy =>
      show NotReady (appNetworkTasks tick.nets tick.answers d).1
      simp only [appNetworkTasks, hwait, appNetworkTCPIPInitWait, hstatus]
      exact .inl hwait
  · rw [polled_error herror]
    exact .inr herror

end Step

/-! ## The run -/

/-- From the error on nothing happens. -/
theorem polled_run_error {d : AppNetworkData} (hd : d.state = .tcpipError) (ticks : List NetworkTick) :
    polled.run d ticks = d ∧ polled.trace d ticks = [] := by
  induction ticks with
  | nil => exact ⟨rfl, rfl⟩
  | cons tick ticks ih =>
    rw [Machine.run_cons, Machine.trace_cons, polled_error hd]
    exact ih

/-- From the call that sees the error on, while the driver is closed. -/
theorem polled_run_failed {d : AppNetworkData} {tick : NetworkTick} (h : SeesStatus .error d tick)
    (hopen : ¬ FailureOverwritten d tick) (after : List NetworkTick) :
    (polled.run d (tick :: after)).state = .tcpipError ∧ polled.trace d (tick :: after) = [] := by
  obtain ⟨hrun, htrace⟩ :=
    polled_run_error (d := { d with state := .tcpipError }) rfl after
  rw [Machine.run_cons, Machine.trace_cons, polled_failed h hopen, hrun, htrace]
  exact ⟨rfl, rfl⟩

/-- Without a ready stack the run waits or has failed. -/
theorem polled_run_notReady {d : AppNetworkData} {ticks : List NetworkTick}
    (hopen : polled.Along (fun d tick => ¬ FailureOverwritten d tick) d ticks)
    (hready : ¬ ∃ v ∈ polled.visits d ticks, SeesStatus .ready v.1 v.2) (hd : NotReady d) :
    NotReady (polled.run d ticks) := by
  have hboth : polled.Along
      (fun d tick => ¬ FailureOverwritten d tick ∧ ¬ SeesStatus .ready d tick) d ticks := by
    rw [Machine.along_iff_visits] at hopen ⊢
    exact fun v hv => ⟨hopen v hv, fun hsees => hready ⟨v, hv, hsees⟩⟩
  exact Machine.run_inv_along (fun _ _ h => notReady_step h.1 h.2) hboth hd

/-- **A failed stack is final.** In a run from the initialized module a call that sees a negative status
leaves the state `APP_NETWORK_TCPIP_ERROR`, no later call changes it, no module is enabled from that
call on, and `APP_NETWORK_TCPIP_TRANSACT` is reached after a call that saw the stack ready; if and
only if no call that sees a negative status finds the Wi-Fi driver open. -/
theorem failure_final_iff (d : AppNetworkData) (ticks : List NetworkTick) :
    FailureFinal (appNetworkInitialize d) ticks ↔
      polled.Along (fun d tick => ¬ FailureOverwritten d tick) (appNetworkInitialize d) ticks := by
  constructor
  · intro h
    rw [Machine.along_iff_visits]
    rintro ⟨s, tick⟩ hv hover
    obtain ⟨before, after, rfl, rfl⟩ := Machine.mem_visits.mp hv
    have hprefix : before ++ tick :: [] <+: before ++ tick :: after :=
      (List.prefix_append_right_inj _).mpr ((List.prefix_cons_inj _).mpr (List.nil_prefix ..))
    have herror := h.stays before tick [] hprefix hover.1
    rw [Machine.run_append, Machine.run_cons, Machine.run_nil, polled_overwritten hover] at herror
    cases herror
  · intro h
    have hsplit (before : List NetworkTick) (tick : NetworkTick) (after : List NetworkTick)
        (hp : before ++ tick :: after <+: ticks) :
        ¬ FailureOverwritten (polled.run (appNetworkInitialize d) before) tick := by
      obtain ⟨rest, rfl⟩ := hp
      rw [Machine.along_append, Machine.along_append] at h
      exact h.1.2.1
    refine ⟨fun before tick after hp hsees => ?_, fun before tick after hp hsees net => ?_,
      fun before hp hstate => ?_⟩
    · rw [Machine.run_append]
      exact (polled_run_failed hsees (hsplit before tick after hp) after).1
    · rw [(polled_run_failed hsees (hsplit before tick after hp) after).2]
      exact List.not_mem_nil
    · by_contra hready
      obtain ⟨rest, rfl⟩ := hp
      rw [Machine.along_append] at h
      rcases polled_run_notReady h.1 hready (.inl rfl) with hwait | herror
      · rw [hstate] at hwait
        cases hwait
      · rw [hstate] at herror
        cases herror

/-- The stack failed, and the Wi-Fi driver is open. -/
def stackFailed : NetworkTick :=
  ⟨firmwareConfig, { networkUp .other with tcpipStatus := .error }⟩

/-- The first call enables the modules of both interfaces over the failed stack. -/
theorem failure_overwritten :
    (polled.run initialized [stackFailed]).state = .tcpipTransact ∧
      .ifModulesEnable (some 1) ∈ polled.trace initialized [stackFailed] ∧
      ¬ FailureFinal (appNetworkInitialize .loaded) [stackFailed] := by
  refine ⟨by decide +kernel, by decide +kernel, fun h => ?_⟩
  have hover : FailureOverwritten initialized stackFailed := by decide +kernel
  have htransact : (polled.run (appNetworkInitialize .loaded) [stackFailed]).state = .tcpipTransact :=
    polled_overwritten hover
  have herror := h.stays [] stackFailed [] (List.prefix_refl _) hover.1
  exact absurd (herror.symm.trans htransact) (by decide)

end Network

end NixieTracker
