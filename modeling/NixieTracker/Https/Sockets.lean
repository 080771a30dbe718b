import NixieTracker.Https.Completion

/-!
# Sockets are closed once

Closing is done by hand on the ways out of a request. `SocketLog` is what an observer of the network
layer knows of the sockets; `SocketsInv` says which states hold one.

* `socketsInv_step`: every call keeps it, but the one in which `NET_PRES_SocketWrite` takes less than
  the whole request (`WriteRefused`): the client goes to its error state then, which closes nothing.
* `sockets_closed_iff`: the sockets of a run are closed as they should if and only if that does not
  happen.
-/

namespace NixieTracker

open Lib

variable {κ : Type}

namespace HttpsClient

/-- The sockets that are open, and whether one was used or closed that is not. -/
structure SocketLog where
  opened : List Socket
  misused : Bool
  deriving DecidableEq, Repr

def observeSocketEvent (m : SocketLog) : ClientEvent κ → SocketLog
  | .socketOpen _ _ _ socket =>
    if socket = invalidSocket then m else { m with opened := socket :: m.opened }
  | .socketClose socket => ⟨m.opened.erase socket, m.misused || socket ∉ m.opened⟩
  | .socketEncryptSocket socket | .socketWrite socket _ | .socketRead socket =>
    { m with misused := m.misused || socket ∉ m.opened }
  | _ => m

def observeSocket (m : SocketLog) : ClientLog κ → SocketLog
  | .event e => observeSocketEvent m e
  | .accepted _ => m

/-- What an observer knows after the events. -/
def socketLog (log : List (ClientLog κ)) : SocketLog := log.foldl observeSocket ⟨[], false⟩

/-- No socket was misused, and an idle client has closed all of them. -/
structure SocketsClosed (d : AppHTTPSClientData κ) (m : SocketLog) : Prop where
  used : m.misused = false
  closed : d.state = .idle → m.opened = []

/-- The network layer is ready and takes less than the whole request. -/
def WriteRefused (d : AppHTTPSClientData κ) : ClientInput κ → Prop
  | .tasks net =>
    d.state = .sendRequest ∧ net.socketWriteIsReady d.socket = true ∧
      net.socketWrite d.socket (cstr (d.networkBuffer.write 0
        (d.requestText.take (httpsClientNetworkBufferSize - 1) ++ [0])).toList) ≠
        UInt16.ofNat d.requestText.length
  | .request _ _ => False

/-- The client's socket is the open one. -/
structure SocketsInv (d : AppHTTPSClientData κ) (m : SocketLog) : Prop where
  used : m.misused = false
  has : HasSocket d.state → m.opened = [d.socket]
  none : ¬ HasSocket d.state → m.opened = []

theorem SocketsInv.closed {d : AppHTTPSClientData κ} {m : SocketLog} (h : SocketsInv d m) :
    SocketsClosed d m :=
  ⟨h.used, fun hidle => h.none (by simp [hidle, HasSocket])⟩

/-- A step without an event for the network layer between two states that have a socket, or two that
have none. -/
theorem SocketsInv.quiet {d d' : AppHTTPSClientData κ} {m : SocketLog} (h : SocketsInv d m)
    (hstate : HasSocket d'.state ↔ HasSocket d.state) (hsocket : d'.socket = d.socket) :
    SocketsInv d' m :=
  ⟨h.used, fun hs => by rw [hsocket]; exact h.has (hstate.mp hs),
    fun hs => h.none (fun h' => hs (hstate.mpr h'))⟩

/-- A client without a socket goes on without one. -/
theorem SocketsInv.without {d d' : AppHTTPSClientData κ} {m : SocketLog} (h : SocketsInv d m)
    (hd : ¬ HasSocket d.state) (hd' : ¬ HasSocket d'.state) : SocketsInv d' m :=
  ⟨h.used, fun hs => absurd hs hd', fun _ => h.none hd⟩

/-- A call on the open socket does not misuse it. -/
theorem SocketsInv.use {d : AppHTTPSClientData κ} {m : SocketLog} (h : SocketsInv d m)
    (hd : HasSocket d.state) :
    { m with misused := m.misused || decide (d.socket ∉ m.opened) } = m := by
  have hmem : d.socket ∈ m.opened := by
    rw [h.has hd]
    exact List.mem_singleton_self _
  simp [hmem]

/-- The open socket is closed. -/
theorem SocketsInv.close {d d' : AppHTTPSClientData κ} {m : SocketLog} (h : SocketsInv d m)
    (hd : HasSocket d.state) (hd' : ¬ HasSocket d'.state) :
    SocketsInv d' ⟨m.opened.erase d.socket, m.misused || decide (d.socket ∉ m.opened)⟩ := by
  refine ⟨?_, fun hs => absurd hs hd', fun _ => ?_⟩
  · simp [h.used, h.has hd]
  · simp [h.has hd]

section Calls

variable {d : AppHTTPSClientData κ} {m : SocketLog} (net : NetAnswers)

theorem pasreRequestURL_state (d : AppHTTPSClientData κ) :
    (pasreRequestURL d).state = .error ∨ (pasreRequestURL d).state = .processRequest := by
  simp only [pasreRequestURL]
  split
  · exact .inl rfl
  · exact .inr rfl

theorem socketsInv_processRequest (h : SocketsInv d m) (hs : d.state = .processRequest) :
    SocketsInv (processRequest net d).1 ((processRequest net d).2.foldl observeSocketEvent m) := by
  have hd : ¬ HasSocket d.state := by simp [hs, HasSocket]
  unfold processRequest
  split
  · exact h.without hd (of_decide_eq_false rfl)
  · split
    · exact h.without hd (of_decide_eq_false rfl)
    · simp only [List.foldl_cons, List.foldl_nil, observeSocketEvent]
      split <;> exact h.without hd (of_decide_eq_false rfl)

theorem socketsInv_checkDNSResolveStatus (h : SocketsInv d m) (hs : d.state = .waitOnDns) :
    SocketsInv (checkDNSResolveStatus net d).1
      ((checkDNSResolveStatus net d).2.foldl observeSocketEvent m) := by
  have hd : ¬ HasSocket d.state := by simp [hs, HasSocket]
  unfold checkDNSResolveStatus
  split
  · exact h
  · exact h.without hd (of_decide_eq_false rfl)
  · split
    · simp only [List.foldl_cons, List.foldl_nil, observeSocketEvent]
      split <;> exact h.without hd (of_decide_eq_false rfl)
    · exact h.without hd (of_decide_eq_false rfl)

theorem socketsInv_startNetworkConnection (h : SocketsInv d m) (hs : d.state = .startConnection) :
    SocketsInv (startNetworkConnection net d).1
      ((startNetworkConnection net d).2.foldl observeSocketEvent m) := by
  have hnone : m.opened = [] := h.none (by simp [hs, HasSocket])
  simp only [startNetworkConnection, List.foldl_cons, List.foldl_nil, observeSocketEvent]
  split
  · exact ⟨h.used, fun hs => absurd hs (of_decide_eq_false rfl), fun _ => hnone⟩
  · exact ⟨h.used, fun _ => by rw [hnone], fun hn => absurd (of_decide_eq_true rfl) hn⟩

theorem socketsInv_waitNetworkConnection (h : SocketsInv d m) (hs : d.state = .waitForConnection) :
    SocketsInv (waitNetworkConnection net d).1
      ((waitNetworkConnection net d).2.foldl observeSocketEvent m) := by
  have hd : HasSocket d.state := by simp [hs, HasSocket]
  unfold waitNetworkConnection
  split
  · exact h
  · split
    · simp only [List.foldl_cons, List.foldl_nil, observeSocketEvent, h.use hd]
      split <;> exact h.quiet (iff_of_true (of_decide_eq_true rfl) hd) rfl
    · exact h.quiet (iff_of_true (of_decide_eq_true rfl) hd) rfl

theorem socketsInv_waitForSSLConnect (h : SocketsInv d m) (hs : d.state = .waitForSslConnect) :
    SocketsInv (waitForSSLConnect net d).1
      ((waitForSSLConnect net d).2.foldl observeSocketEvent m) := by
  have hd : HasSocket d.state := by simp [hs, HasSocket]
  unfold waitForSSLConnect
  split
  · exact h
  · split
    · exact h.close hd (of_decide_eq_false rfl)
    · exact h.quiet (iff_of_true (of_decide_eq_true rfl) hd) rfl

theorem socketsInv_sendRequest (h : SocketsInv d m) (hs : d.state = .sendRequest)
    (hwrite : ¬ WriteRefused d (.tasks net)) :
    SocketsInv (sendRequest net d).1 ((sendRequest net d).2.foldl observeSocketEvent m) := by
  have hd : HasSocket d.state := by simp [hs, HasSocket]
  unfold sendRequest
  split
  · exact h
  · rename_i hready
    simp only [List.foldl_cons, List.foldl_nil, observeSocketEvent, h.use hd]
    split
    · rename_i hne
      exact absurd ⟨hs, by simpa using hready, hne⟩ hwrite
    · exact h.quiet (iff_of_true (of_decide_eq_true rfl) hd) rfl

theorem observeSocketEvent_requestHandled (k : Option κ) :
    (k.map ClientEvent.requestHandled).toList.foldl observeSocketEvent m = m := by
  cases k <;> rfl

theorem observeSocketEvent_bufferReceived (k : Option κ) (bytes : Received) :
    (k.map (ClientEvent.bufferReceived · bytes)).toList.foldl observeSocketEvent m = m := by
  cases k <;> rfl

theorem observeSocketEvent_error (k : Option κ) :
    (k.map ClientEvent.error).toList.foldl observeSocketEvent m = m := by
  cases k <;> rfl

theorem socketsInv_waitForResponse (h : SocketsInv d m) (hs : d.state = .waitForResponse) :
    SocketsInv (waitForResponse net d).1 ((waitForResponse net d).2.foldl observeSocketEvent m) := by
  have hd : HasSocket d.state := by simp [hs, HasSocket]
  unfold waitForResponse
  split
  · split
    · rw [observeSocketEvent_requestHandled]
      exact h.quiet (iff_of_true (of_decide_eq_true rfl) hd) rfl
    · exact h
  · simp only [List.foldl_cons, observeSocketEvent, h.use hd, observeSocketEvent_bufferReceived]
    exact h.quiet Iff.rfl rfl

/-- One call of `APP_HTTPS_Client_Tasks`, as the observer of the sockets sees it. -/
theorem socketsInv_tasks (h : SocketsInv d m) (hwrite : ¬ WriteRefused d (.tasks net)) :
    SocketsInv (appHttpsClientTasks net d).1
      ((appHttpsClientTasks net d).2.foldl observeSocketEvent m) := by
  unfold appHttpsClientTasks
  cases hs : d.state with
  | idle => exact h
  | beginSequence => exact h.without (by simp [hs, HasSocket]) (of_decide_eq_false rfl)
  | waitForNetwork => exact h.without (by simp [hs, HasSocket]) (of_decide_eq_false rfl)
  | parseRequestUrl =>
    refine h.without (by simp [hs, HasSocket]) ?_
    rcases pasreRequestURL_state d with hp | hp <;> rw [hp] <;> simp [HasSocket]
  | processRequest => exact socketsInv_processRequest net h hs
  | waitOnDns => exact socketsInv_checkDNSResolveStatus net h hs
  | startConnection => exact socketsInv_startNetworkConnection net h hs
  | waitForConnection => exact socketsInv_waitNetworkConnection net h hs
  | closeConnection => exact h.close (by simp [hs, HasSocket]) (of_decide_eq_false rfl)
  | waitForSslConnect => exact socketsInv_waitForSSLConnect net h hs
  | sendRequest => exact socketsInv_sendRequest net h hs hwrite
  | waitForResponse => exact socketsInv_waitForResponse net h hs
  | error =>
    simp only [handleError, observeSocketEvent_error]
    exact h.without (by simp [hs, HasSocket]) (of_decide_eq_false rfl)

end Calls

theorem foldl_observeSocket (es : List (ClientEvent κ)) (m : SocketLog) :
    (es.map ClientLog.event).foldl observeSocket m = es.foldl observeSocketEvent m := by
  rw [List.foldl_map]
  rfl

theorem socketsInv_step (d : AppHTTPSClientData κ) (i : ClientInput κ) (m : SocketLog)
    (hwrite : ¬ WriteRefused d i) (h : SocketsInv d m) :
    SocketsInv ((machine κ).step d i).1 (((machine κ).step d i).2.foldl observeSocket m) := by
  cases i with
  | tasks net =>
    show SocketsInv (appHttpsClientTasks net d).1
      (((appHttpsClientTasks net d).2.map ClientLog.event).foldl observeSocket m)
    rw [foldl_observeSocket]
    exact socketsInv_tasks net h hwrite
  | request url callbacks =>
    show SocketsInv (step d (.request url callbacks)).1
      ((step d (.request url callbacks)).2.foldl observeSocket m)
    by_cases hidle : d.state = .idle
    · rw [step_request_idle hidle]
      exact h.without (by simp [hidle, HasSocket]) (of_decide_eq_false rfl)
    · rw [step_request_busy hidle]
      exact h

/-! ## A refused write -/

/-- The client is in its error state and has not closed its socket. -/
structure SocketLeaks (d : AppHTTPSClientData κ) (m : SocketLog) : Prop where
  state : d.state = .error
  opened : m.opened ≠ []

theorem socketLeaks_of_writeRefused (d : AppHTTPSClientData κ) (i : ClientInput κ) (m : SocketLog)
    (hwrite : WriteRefused d i) (h : SocketsInv d m) :
    SocketLeaks ((machine κ).step d i).1 (((machine κ).step d i).2.foldl observeSocket m) ∧
      (((machine κ).step d i).2.foldl observeSocket m).misused = false := by
  cases i with
  | request url callbacks => cases hwrite
  | tasks net =>
    obtain ⟨hs, hready, hne⟩ := hwrite
    have hd : HasSocket d.state := by simp [hs, HasSocket]
    show SocketLeaks (appHttpsClientTasks net d).1
        (((appHttpsClientTasks net d).2.map ClientLog.event).foldl observeSocket m) ∧
      (((appHttpsClientTasks net d).2.map ClientLog.event).foldl observeSocket m).misused = false
    rw [foldl_observeSocket]
    simp only [appHttpsClientTasks, hs, sendRequest, hready, Bool.not_true, Bool.false_eq_true,
      if_false, hne, ne_eq, not_false_eq_true, if_true, List.foldl_cons, List.foldl_nil,
      observeSocketEvent, h.use hd]
    exact ⟨⟨rfl, by rw [h.has hd]; exact List.cons_ne_nil _ _⟩, h.used⟩

/-- The next call of `APP_HTTPS_Client_Tasks` leaves the client idle, with the open socket. -/
theorem socketLeaks_tasks {d : AppHTTPSClientData κ} {m : SocketLog} (h : SocketLeaks d m)
    (net : NetAnswers) :
    ¬ SocketsClosed ((machine κ).step d (.tasks net)).1
      (((machine κ).step d (.tasks net)).2.foldl observeSocket m) := by
  intro hclosed
  have hidle : ((machine κ).step d (.tasks net)).1.state = .idle := by
    show (appHttpsClientTasks net d).1.state = .idle
    simp [appHttpsClientTasks, h.state, handleError]
  have hsame : ((machine κ).step d (.tasks net)).2.foldl observeSocket m = m := by
    show ((appHttpsClientTasks net d).2.map ClientLog.event).foldl observeSocket m = m
    rw [foldl_observeSocket]
    simp only [appHttpsClientTasks, h.state, handleError, observeSocketEvent_error]
  rw [hsame] at hclosed
  exact h.opened (hclosed.closed hidle)

theorem socketsClosed_tasks {d : AppHTTPSClientData κ} {m : SocketLog} (h : SocketsInv d m)
    (net : NetAnswers) :
    SocketsClosed ((machine κ).step d (.tasks net)).1
      (((machine κ).step d (.tasks net)).2.foldl observeSocket m) := by
  by_cases hwrite : WriteRefused d (.tasks net)
  · obtain ⟨hleaks, hused⟩ := socketLeaks_of_writeRefused d _ m hwrite h
    refine ⟨hused, fun hidle => ?_⟩
    rw [hleaks.state] at hidle
    cases hidle
  · exact (socketsInv_step d _ m hwrite h).closed

/-- **Sockets.** A run from the initialized client, followed by one more call of
`APP_HTTPS_Client_Tasks`: no socket is used or closed that is not open, and whenever the client is idle
every socket that was opened is closed; if and only if no call of the run finds the network layer ready
to write and taking less than the whole request. -/
theorem sockets_closed_iff (d₀ : AppHTTPSClientData κ) (is : List (ClientInput κ)) :
    (∀ net before, before <+: is ++ [.tasks net] →
      SocketsClosed ((machine κ).run (appHttpsClientInitialize d₀) before)
        (socketLog ((machine κ).trace (appHttpsClientInitialize d₀) before))) ↔
    (machine κ).Along (fun d i => ¬ WriteRefused d i) (appHttpsClientInitialize d₀) is := by
  have hinit : SocketsInv (appHttpsClientInitialize d₀) ⟨[], false⟩ :=
    ⟨rfl, fun hs => absurd hs (of_decide_eq_false rfl), fun _ => rfl⟩
  have hwatch := Machine.watch_iff_along_doomed (X := fun i => ∃ net, i = .tasks net)
    socketsInv_step (fun _ _ h => h.closed)
    (by rintro d _ m ⟨net, rfl⟩ h; exact socketsClosed_tasks h net)
    (fun d i m hwrite h => (socketLeaks_of_writeRefused d i m hwrite h).1)
    (fun d i m h => by
      cases i with
      | tasks net => exact .inl (socketLeaks_tasks h net)
      | request url callbacks =>
        right
        show SocketLeaks (step d (.request url callbacks)).1
          ((step d (.request url callbacks)).2.foldl observeSocket m)
        rw [step_request_busy (by simp [h.state])]
        exact h)
    (by rintro d _ m ⟨net, rfl⟩ h; exact socketLeaks_tasks h net)
    ⟨.direct true, rfl⟩ hinit is
  rw [← hwatch]
  exact ⟨fun h _ ⟨net, hx⟩ => hx ▸ h net, fun h net => h _ ⟨net, rfl⟩⟩

/-- The socket takes nothing of the request. -/
theorem socket_not_closed :
    ¬ ∀ is, SocketsClosed ((machine Nat).run (appHttpsClientInitialize (.zeroed Nat)) is)
      (socketLog ((machine Nat).trace (appHttpsClientInitialize (.zeroed Nat)) is)) := by
  intro h
  have hleft : ((machine Nat).run (appHttpsClientInitialize (.zeroed Nat))
      (.request (lit "http://127.0.0.1/") ⟨none, none, none⟩ ::
        List.replicate 8 (.tasks { NetAnswers.direct false with socketWrite := fun _ _ => 0 }))).state =
        .idle ∧
      (socketLog ((machine Nat).trace (appHttpsClientInitialize (.zeroed Nat))
        (.request (lit "http://127.0.0.1/") ⟨none, none, none⟩ ::
          List.replicate 8
            (.tasks { NetAnswers.direct false with socketWrite := fun _ _ => 0 })))).opened = [1] := by
    decide +kernel
  have hnil := (h _).closed hleft.1
  rw [hleft.2] at hnil
  cases hnil

end HttpsClient

end NixieTracker
