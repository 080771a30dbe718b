import NixieTracker.Https.Client

/-!
# Every accepted request is completed once

The client as a machine, and which callbacks of a request it calls.

* `appHttpsClientTasks_active`: what one call of `APP_HTTPS_Client_Tasks` can do between the acceptance
  of a request and its completion.
* `Served`: the invariant from the acceptance on; `served_step`, `served_run`.
* `request_completed_iff`: a request that the client is done with was completed exactly once if and
  only if `NET_PRES_SocketEncryptSocket` did not refuse on the way. If it refuses, the client closes
  the connection and is idle again without a word to the listener.
-/

namespace NixieTracker

open Lib

variable {κ : Type}

/-- A call of a callback, without the received bytes. -/
inductive CallbackCall (κ : Type) where
  | bufferReceived (callback : κ)
  | requestHandled (callback : κ)
  | error (callback : κ)
  deriving DecidableEq, Repr

def ClientEvent.call? : ClientEvent κ → Option (CallbackCall κ)
  | .bufferReceived k _ => some (.bufferReceived k)
  | .requestHandled k => some (.requestHandled k)
  | .error k => some (.error k)
  | _ => none

/-- The callbacks that are called, in order. -/
def calls (es : List (ClientEvent κ)) : List (CallbackCall κ) := es.filterMap (·.call?)

/-- An input of the client: a call of `APP_HTTPS_Client_Tasks` or of `APP_HTTPS_Client_Request`. -/
inductive ClientInput (κ : Type) where
  | tasks (net : NetAnswers)
  | request (url : List UInt8) (callbacks : AppHttpsClientCallbacks κ)

/-- The client from the outside: what it does, and the requests it accepts. -/
inductive ClientLog (κ : Type) where
  | event (e : ClientEvent κ)
  | accepted (callbacks : AppHttpsClientCallbacks κ)

namespace HttpsClient

def step (d : AppHTTPSClientData κ) : ClientInput κ → AppHTTPSClientData κ × List (ClientLog κ)
  | .tasks net => ((appHttpsClientTasks net d).1, (appHttpsClientTasks net d).2.map .event)
  | .request url callbacks =>
    ((appHttpsClientRequest d url callbacks).2,
      if (appHttpsClientRequest d url callbacks).1 then [.accepted callbacks] else [])

def machine (κ : Type) : Machine (AppHTTPSClientData κ) (ClientInput κ) (ClientLog κ) where
  step := step

/-- The events without the acceptances. -/
def events (log : List (ClientLog κ)) : List (ClientEvent κ) :=
  log.filterMap fun
    | .event e => some e
    | .accepted _ => none

/-- No request is accepted. -/
def NoneAccepted (log : List (ClientLog κ)) : Prop := ∀ c, ClientLog.accepted c ∉ log

theorem noneAccepted_append {us vs : List (ClientLog κ)} :
    NoneAccepted (us ++ vs) ↔ NoneAccepted us ∧ NoneAccepted vs := by
  simp only [NoneAccepted, List.mem_append, not_or]
  exact forall_and

@[simp] theorem events_append (us vs : List (ClientLog κ)) :
    events (us ++ vs) = events us ++ events vs := List.filterMap_append ..

@[simp] theorem events_map_event (es : List (ClientEvent κ)) : events (es.map .event) = es := by
  induction es with
  | nil => rfl
  | cons e es ih => exact congrArg (e :: ·) ih

@[simp] theorem calls_append (us vs : List (ClientEvent κ)) : calls (us ++ vs) = calls us ++ calls vs :=
  List.filterMap_append ..

/-- The state of the client that has accepted a request. -/
def accept (d : AppHTTPSClientData κ) (url : List UInt8) (callbacks : AppHttpsClientCallbacks κ) :
    AppHTTPSClientData κ :=
  { d with requestUrl := safeStrncpy d.requestUrl url maxUrl, callbacks, state := .beginSequence }

theorem step_request_idle {d : AppHTTPSClientData κ} (h : d.state = .idle) (url : List UInt8)
    (callbacks : AppHttpsClientCallbacks κ) :
    step d (.request url callbacks) = (accept d url callbacks, [.accepted callbacks]) := by
  simp [step, appHttpsClientRequest, appHttpsClientIsBusy, accept, h]

theorem step_request_busy {d : AppHTTPSClientData κ} (h : d.state ≠ .idle) (url : List UInt8)
    (callbacks : AppHttpsClientCallbacks κ) : step d (.request url callbacks) = (d, []) := by
  simp [step, appHttpsClientRequest, appHttpsClientIsBusy, h]

theorem noneAccepted_tasks (d : AppHTTPSClientData κ) (nets : List NetAnswers) :
    NoneAccepted ((machine κ).trace d (nets.map .tasks)) := by
  induction nets generalizing d with
  | nil =>
    intro c hc
    cases hc
  | cons net nets ih =>
    rw [List.map_cons, Machine.trace_cons, noneAccepted_append]
    refine ⟨fun c hc => ?_, ih _⟩
    obtain ⟨e, -, he⟩ := List.mem_map.mp hc
    cases he

/-- Between acceptance and completion. -/
def Active (s : AppHTTPSClientState) : Prop := s ≠ .idle ∧ s ≠ .closeConnection

/-- The socket is open. -/
def HasSocket (s : AppHTTPSClientState) : Prop :=
  s ∈ [.waitForConnection, .closeConnection, .waitForSslConnect, .sendRequest, .waitForResponse]

instance (s : AppHTTPSClientState) : Decidable (HasSocket s) := by
  unfold HasSocket
  infer_instance

/-- The step in which the start of the TLS negotiation is refused. -/
def EncryptRefused (d : AppHTTPSClientData κ) : ClientInput κ → Prop
  | .tasks net =>
    d.state = .waitForConnection ∧ net.socketIsConnected d.socket = true ∧
      d.wantsEncryption = true ∧ net.socketEncryptSocket d.socket = false
  | .request _ _ => False

instance (d : AppHTTPSClientData κ) (i : ClientInput κ) : Decidable (EncryptRefused d i) := by
  cases i <;> unfold EncryptRefused <;> infer_instance

/-- **One call in the middle of a request**: the client goes on without a callback, is refused the
encryption, hands over received bytes, or completes the request. -/
theorem appHttpsClientTasks_active (net : NetAnswers) {d : AppHTTPSClientData κ}
    (h : Active d.state) :
    (appHttpsClientTasks net d).1.callbacks = d.callbacks ∧
    ((¬ EncryptRefused d (.tasks net) ∧ Active (appHttpsClientTasks net d).1.state ∧
        (calls (appHttpsClientTasks net d).2 = [] ∨
          calls (appHttpsClientTasks net d).2 =
            (d.callbacks.bufferReceived.map CallbackCall.bufferReceived).toList)) ∨
      (EncryptRefused d (.tasks net) ∧ (appHttpsClientTasks net d).1.state = .closeConnection ∧
        calls (appHttpsClientTasks net d).2 = []) ∨
      (¬ EncryptRefused d (.tasks net) ∧ ¬ Active (appHttpsClientTasks net d).1.state ∧
        (calls (appHttpsClientTasks net d).2 =
            (d.callbacks.requestHandled.map CallbackCall.requestHandled).toList ∨
          calls (appHttpsClientTasks net d).2 =
            (d.callbacks.error.map CallbackCall.error).toList))) := by
  have hrefused : d.state ≠ .waitForConnection → ¬ EncryptRefused d (.tasks net) :=
    fun hne hr => hne hr.1
  unfold appHttpsClientTasks
  cases hs : d.state with
  | idle => exact absurd hs h.1
  | closeConnection => exact absurd hs h.2
  | beginSequence =>
    exact ⟨rfl, .inl ⟨hrefused (by simp [hs]), by simp [Active], .inl rfl⟩⟩
  | waitForNetwork =>
    exact ⟨rfl, .inl ⟨hrefused (by simp [hs]), by simp [Active, waitForNetworkAvailable,
      checkNetworkIsAvailable], .inl rfl⟩⟩
  | parseRequestUrl =>
    refine ⟨?_, .inl ⟨hrefused (by simp [hs]), ?_, .inl rfl⟩⟩ <;>
      simp only [pasreRequestURL, enterErrorState] <;> split <;> simp [Active]
  | processRequest =>
    refine ⟨?_, .inl ⟨hrefused (by simp [hs]), ?_, .inl ?_⟩⟩ <;>
      simp only [processRequest, enterErrorState] <;> split <;> (try split) <;> (try split) <;>
      simp [Active, calls, ClientEvent.call?]
  | waitOnDns =>
    refine ⟨?_, .inl ⟨hrefused (by simp [hs]), ?_, .inl ?_⟩⟩ <;>
      simp only [checkDNSResolveStatus, enterErrorState] <;> split <;> (try split) <;>
      (try split) <;> simp [Active, calls, ClientEvent.call?, hs]
  | startConnection =>
    refine ⟨?_, .inl ⟨hrefused (by simp [hs]), ?_, .inl ?_⟩⟩ <;>
      simp only [startNetworkConnection, enterErrorState] <;> (try split) <;>
      simp [Active, calls, ClientEvent.call?]
  | waitForConnection =>
    simp only [waitNetworkConnection]
    by_cases hconn : net.socketIsConnected d.socket = true
    · by_cases henc : d.wantsEncryption = true
      · by_cases hok : net.socketEncryptSocket d.socket = true
        · refine ⟨?_, .inl ⟨?_, ?_, .inl ?_⟩⟩ <;>
            simp [hconn, henc, hok, Active, calls, ClientEvent.call?, EncryptRefused]
        · refine ⟨?_, .inr (.inl ⟨?_, ?_, ?_⟩)⟩ <;>
            simp [hconn, henc, hok, hs, calls, ClientEvent.call?, EncryptRefused]
      · refine ⟨?_, .inl ⟨?_, ?_, .inl ?_⟩⟩ <;>
          simp [hconn, henc, Active, calls, EncryptRefused]
    · refine ⟨?_, .inl ⟨?_, ?_, .inl ?_⟩⟩ <;> simp [hconn, hs, Active, calls, EncryptRefused]
  | waitForSslConnect =>
    refine ⟨?_, .inl ⟨hrefused (by simp [hs]), ?_, .inl ?_⟩⟩ <;>
      simp only [waitForSSLConnect, enterErrorState] <;> split <;> (try split) <;>
      simp [Active, calls, ClientEvent.call?, hs]
  | sendRequest =>
    refine ⟨?_, .inl ⟨hrefused (by simp [hs]), ?_, .inl ?_⟩⟩ <;>
      simp only [NixieTracker.sendRequest, enterErrorState] <;> split <;> (try split) <;>
      simp [Active, calls, ClientEvent.call?, hs]
  | waitForResponse =>
    simp only [waitForResponse]
    by_cases hready : net.socketReadIsReady d.socket = true
    · refine ⟨?_, .inl ⟨hrefused (by simp [hs]), ?_, .inr ?_⟩⟩
      · simp [hready]
      · simp [hready, hs, Active]
      · cases d.callbacks.bufferReceived <;> simp [hready, calls, ClientEvent.call?]
    · by_cases hreset : net.socketWasReset d.socket = true
      · refine ⟨?_, .inr (.inr ⟨hrefused (by simp [hs]), ?_, .inl ?_⟩)⟩
        · simp [hready, hreset]
        · simp [hready, hreset, Active]
        · cases d.callbacks.requestHandled <;> simp [hready, hreset, calls, ClientEvent.call?]
      · refine ⟨?_, .inl ⟨hrefused (by simp [hs]), ?_, .inl ?_⟩⟩ <;>
          simp [hready, hreset, hs, Active, calls]
  | error =>
    simp only [handleError]
    refine ⟨trivial, .inr (.inr ⟨hrefused (by simp [hs]), by simp [Active], .inr ?_⟩)⟩
    cases d.callbacks.error <;> simp [calls, ClientEvent.call?]

/-- Outside a request a call does at most close the socket. -/
theorem appHttpsClientTasks_inactive (net : NetAnswers) {d : AppHTTPSClientData κ}
    (h : ¬ Active d.state) :
    (appHttpsClientTasks net d).1.callbacks = d.callbacks ∧
      (appHttpsClientTasks net d).1.state = .idle ∧ calls (appHttpsClientTasks net d).2 = [] ∧
      ¬ EncryptRefused d (.tasks net) := by
  have hs : d.state = .idle ∨ d.state = .closeConnection := by
    by_contra hne
    exact h (not_or.mp hne)
  unfold appHttpsClientTasks
  rcases hs with hs | hs
  · simp [hs, calls, EncryptRefused]
  · simp [hs, calls, closeNetworkConnection, ClientEvent.call?, EncryptRefused]

/-- A call of `APP_HTTPS_Client_Tasks` finds the response at its end: nothing is left to read, and the
peer has closed the connection. -/
structure ResponseEnds (net : NetAnswers) (d : AppHTTPSClientData κ) : Prop where
  state : d.state = .waitForResponse
  readIsReady : net.socketReadIsReady d.socket = false
  wasReset : net.socketWasReset d.socket = true

/-- `request_handled` is called at the end of a response only. -/
theorem requestHandled_called {net : NetAnswers} {d : AppHTTPSClientData κ} {k : κ}
    (h : .requestHandled k ∈ calls (appHttpsClientTasks net d).2) : ResponseEnds net d := by
  unfold appHttpsClientTasks at h
  cases hs : d.state <;> rw [hs] at h
  case waitForResponse =>
    simp only [waitForResponse] at h
    cases hready : net.socketReadIsReady d.socket with
    | true => simp [hready, calls, ClientEvent.call?] at h
    | false =>
      cases hreset : net.socketWasReset d.socket with
      | true => exact ⟨hs, hready, hreset⟩
      | false => simp [hready, hreset, calls] at h
  case processRequest =>
    simp only [processRequest] at h
    split at h
    · cases h
    · split at h <;> simp [calls, ClientEvent.call?] at h
  case waitOnDns =>
    simp only [checkDNSResolveStatus] at h
    split at h
    · cases h
    · cases h
    · split at h <;> simp [calls, ClientEvent.call?] at h
  case startConnection => simp [startNetworkConnection, calls, ClientEvent.call?] at h
  case waitForConnection =>
    simp only [waitNetworkConnection] at h
    split at h
    · cases h
    · split at h <;> simp [calls, ClientEvent.call?] at h
  case closeConnection => simp [closeNetworkConnection, calls, ClientEvent.call?] at h
  case waitForSslConnect =>
    simp only [waitForSSLConnect] at h
    split at h
    · cases h
    · split at h <;> simp [calls, ClientEvent.call?] at h
  case sendRequest =>
    simp only [NixieTracker.sendRequest] at h
    split at h <;> simp [calls, ClientEvent.call?] at h
  case error => simp [handleError, calls, ClientEvent.call?] at h
  all_goals cases h

/-- A listener with all three callbacks. -/
structure Listener (κ : Type) where
  bufferReceived : κ
  requestHandled : κ
  error : κ

def Listener.callbacks (l : Listener κ) : AppHttpsClientCallbacks κ :=
  ⟨some l.bufferReceived, some l.requestHandled, some l.error⟩

/-- Some calls of `buffer_received` and no other. -/
def Underway (l : Listener κ) (cs : List (CallbackCall κ)) : Prop :=
  ∃ n, cs = List.replicate n (.bufferReceived l.bufferReceived)

/-- Some calls of `buffer_received`, then one of `request_handled` or `error`. -/
def CompletedOnce (l : Listener κ) (cs : List (CallbackCall κ)) : Prop :=
  ∃ n last, cs = List.replicate n (.bufferReceived l.bufferReceived) ++ [last] ∧
    (last = .requestHandled l.requestHandled ∨ last = .error l.error)

theorem Underway.append_received {l : Listener κ} {cs : List (CallbackCall κ)} (h : Underway l cs) :
    Underway l (cs ++ [.bufferReceived l.bufferReceived]) := by
  obtain ⟨n, rfl⟩ := h
  exact ⟨n + 1, List.replicate_succ'.symm⟩

theorem Underway.complete {l : Listener κ} {cs : List (CallbackCall κ)} (h : Underway l cs)
    {last : CallbackCall κ} (hl : last = .requestHandled l.requestHandled ∨ last = .error l.error) :
    CompletedOnce l (cs ++ [last]) := by
  obtain ⟨n, rfl⟩ := h
  exact ⟨n, last, rfl, hl⟩

theorem Underway.not_completedOnce {l : Listener κ} {cs : List (CallbackCall κ)} (h : Underway l cs) :
    ¬ CompletedOnce l cs := by
  obtain ⟨n, rfl⟩ := h
  rintro ⟨m, last, heq, hl⟩
  have hm : last ∈ List.replicate n (CallbackCall.bufferReceived l.bufferReceived) := by
    rw [heq]
    simp
  rw [List.eq_of_mem_replicate hm] at hl
  rcases hl with hl | hl <;> cases hl

/-- The state of a request of `l`, after the calls `cs`. `refused`: the encryption was refused. -/
structure Served (l : Listener κ) (d : AppHTTPSClientData κ) (cs : List (CallbackCall κ))
    (refused : Prop) : Prop where
  callbacks : d.callbacks = l.callbacks
  active : Active d.state → Underway l cs ∧ ¬ refused
  done : ¬ Active d.state → (CompletedOnce l cs ∧ ¬ refused) ∨ (Underway l cs ∧ refused)

theorem served_step {l : Listener κ} {d : AppHTTPSClientData κ} {cs : List (CallbackCall κ)}
    {refused : Prop} (h : Served l d cs refused) (i : ClientInput κ)
    (hi : NoneAccepted (step d i).2) :
    Served l (step d i).1 (cs ++ calls (events (step d i).2)) (refused ∨ EncryptRefused d i) := by
  cases i with
  | request url callbacks =>
    -- The request is not accepted, so the client is busy and nothing happens.
    by_cases hidle : d.state = .idle
    · rw [step_request_idle hidle] at hi
      exact absurd (List.mem_singleton.mpr rfl) (hi callbacks)
    · rw [step_request_busy hidle]
      simpa [events, calls, EncryptRefused] using h
  | tasks net =>
    simp only [step, events_map_event]
    by_cases hact : Active d.state
    · obtain ⟨hu, hr⟩ := h.active hact
      obtain ⟨hcb, hcases⟩ := appHttpsClientTasks_active net hact
      rw [h.callbacks] at hcb hcases
      simp only [hr, false_or]
      rcases hcases with ⟨hnr, hact', hcs⟩ | ⟨hyes, hclose, hcs⟩ | ⟨hnr, hact', hcs⟩
      · refine ⟨hcb, fun _ => ⟨?_, hnr⟩, fun hn => absurd hact' hn⟩
        rcases hcs with hcs | hcs <;> rw [hcs]
        · rwa [List.append_nil]
        · exact hu.append_received
      · rw [hcs, List.append_nil]
        refine ⟨hcb, fun hact' => absurd hclose hact'.2, fun _ => .inr ⟨hu, hyes⟩⟩
      · refine ⟨hcb, fun hy => absurd hy hact', fun _ => .inl ⟨?_, hnr⟩⟩
        rcases hcs with hcs | hcs <;> rw [hcs]
        · exact hu.complete (.inl rfl)
        · exact hu.complete (.inr rfl)
    · obtain ⟨hcb, hidle, hcs, hnr⟩ := appHttpsClientTasks_inactive net hact
      rw [hcs, List.append_nil]
      refine ⟨hcb.trans h.callbacks, fun hact' => absurd hidle hact'.1, fun _ => ?_⟩
      simp only [hnr, or_false]
      exact h.done hact

theorem served_run {l : Listener κ} {d : AppHTTPSClientData κ} {cs : List (CallbackCall κ)}
    {refused : Prop} (h : Served l d cs refused) (is : List (ClientInput κ))
    (hi : NoneAccepted ((machine κ).trace d is)) :
    Served l ((machine κ).run d is) (cs ++ calls (events ((machine κ).trace d is)))
      (refused ∨ ¬ (machine κ).Along (fun d i => ¬ EncryptRefused d i) d is) := by
  induction is generalizing d cs refused with
  | nil => simpa [events, calls] using h
  | cons i is ih =>
    rw [Machine.trace_cons, noneAccepted_append] at hi
    have hrun := ih (served_step h i hi.1) hi.2
    rw [Machine.run_cons, Machine.trace_cons, events_append, calls_append, ← List.append_assoc,
      Machine.along_cons, not_and_or, not_not, ← or_assoc]
    exact hrun

/-- A listener without a request of its own gets no call, however often the client is polled. -/
theorem idle_run {d : AppHTTPSClientData κ} (h : d.state = .idle) (is : List (ClientInput κ))
    (hi : NoneAccepted ((machine κ).trace d is)) :
    calls (events ((machine κ).trace d is)) = [] ∧ ((machine κ).run d is).state = .idle := by
  induction is generalizing d with
  | nil => exact ⟨rfl, h⟩
  | cons i is ih =>
    rw [Machine.trace_cons, noneAccepted_append] at hi
    have hstep : (step d i).1.state = .idle ∧ calls (events (step d i).2) = [] := by
      cases i with
      | tasks net =>
        obtain ⟨-, hs, hcs, -⟩ := appHttpsClientTasks_inactive net (d := d) (fun hact => hact.1 h)
        simp only [step, events_map_event]
        exact ⟨hs, hcs⟩
      | request url callbacks =>
        have hnone : NoneAccepted (step d (.request url callbacks)).2 := hi.1
        rw [step_request_idle h] at hnone
        exact absurd (List.mem_singleton.mpr rfl) (hnone callbacks)
    obtain ⟨hcs, hrun⟩ := ih hstep.1 hi.2
    refine ⟨?_, hrun⟩
    rw [Machine.trace_cons, events_append, calls_append, List.append_eq_nil_iff]
    exact ⟨hstep.2, hcs⟩

/-- The client right after it accepted a request of `l`. -/
theorem served_accepted {l : Listener κ} {d : AppHTTPSClientData κ} (h : d.state = .idle)
    (url : List UInt8) :
    (step d (.request url l.callbacks)).2 = [.accepted l.callbacks] ∧
      Served l (step d (.request url l.callbacks)).1 [] False := by
  rw [step_request_idle h]
  have hact : Active (accept d url l.callbacks).state := by simp [Active, accept]
  exact ⟨rfl, rfl, fun _ => ⟨⟨0, rfl⟩, not_false⟩, fun hn => absurd hact hn⟩

/-- **Completion.** A run from the initialized client. As long as no request is accepted, no callback
is called. After any inputs `before`, a request of `l` is accepted, and no other one during the inputs
`after`: the callbacks that are called since are those of `l`, some of `buffer_received` and then at
most one of `request_handled` or `error`. Once the client is idle the request is completed exactly
once if and only if no step of `after` was refused the encryption of the socket. -/
theorem request_completed_iff (d₀ : AppHTTPSClientData κ) (before after : List (ClientInput κ))
    (url : List UInt8) (l : Listener κ)
    (hidle : ((machine κ).run (appHttpsClientInitialize d₀) before).state = .idle) :
    let d := (machine κ).run (appHttpsClientInitialize d₀) before
    let d' := (step d (.request url l.callbacks)).1
    let cs := calls (events ((machine κ).trace d' after))
    (NoneAccepted ((machine κ).trace (appHttpsClientInitialize d₀) before) →
      calls (events ((machine κ).trace (appHttpsClientInitialize d₀) before)) = []) ∧
    (step d (.request url l.callbacks)).2 = [.accepted l.callbacks] ∧
    (NoneAccepted ((machine κ).trace d' after) →
      (Underway l cs ∨ CompletedOnce l cs) ∧
      (((machine κ).run d' after).state = .idle →
        (CompletedOnce l cs ↔ (machine κ).Along (fun d i => ¬ EncryptRefused d i) d' after))) := by
  intro d d' cs
  obtain ⟨hacc, hserved⟩ := served_accepted (l := l) hidle url
  refine ⟨fun hnone => (idle_run rfl before hnone).1, hacc, fun hnone => ?_⟩
  have hrun := served_run hserved after hnone
  rw [List.nil_append, false_or] at hrun
  refine ⟨?_, fun hdone => ?_⟩
  · by_cases hact : Active ((machine κ).run d' after).state
    · exact .inl (hrun.active hact).1
    · rcases hrun.done hact with ⟨h, -⟩ | ⟨h, -⟩
      · exact .inr h
      · exact .inl h
  · rcases hrun.done (fun hact => hact.1 hdone) with ⟨h, hok⟩ | ⟨h, hrefused⟩
    · exact ⟨fun _ => not_not.mp hok, fun _ => h⟩
    · exact ⟨fun hc => absurd hc h.not_completedOnce, fun hok => absurd hok hrefused⟩

/-- The listener and the client of the runs below, right after the request was accepted. -/
def acceptedDirect : AppHTTPSClientData Nat :=
  (step (appHttpsClientInitialize (.zeroed Nat))
    (.request (lit "https://127.0.0.1/") (Listener.callbacks ⟨0, 1, 2⟩))).1

/-- A request that runs to its end, encrypted. -/
theorem request_completed_direct :
    CompletedOnce ⟨0, 1, 2⟩ (calls (events ((machine Nat).trace acceptedDirect
      ((List.replicate 10 (NetAnswers.direct true)).map .tasks)))) :=
  (((request_completed_iff (.zeroed Nat) []
    ((List.replicate 10 (NetAnswers.direct true)).map .tasks)
    (lit "https://127.0.0.1/") ⟨0, 1, 2⟩ rfl).2.2 (noneAccepted_tasks _ _)).2
    (by decide +kernel)).mpr (by decide +kernel)

/-- The socket refuses the encryption: the client is idle again and no callback was called. -/
theorem request_not_completed :
    let inputs := (List.replicate 10 (NetAnswers.direct false)).map ClientInput.tasks
    NoneAccepted ((machine Nat).trace acceptedDirect inputs) ∧
      ((machine Nat).run acceptedDirect inputs).state = .idle ∧
      ¬ CompletedOnce ⟨0, 1, 2⟩ (calls (events ((machine Nat).trace acceptedDirect inputs))) := by
  refine ⟨noneAccepted_tasks _ _, by decide +kernel, ?_⟩
  have hcalls : calls (events ((machine Nat).trace acceptedDirect
      ((List.replicate 10 (NetAnswers.direct false)).map ClientInput.tasks))) = [] := by
    decide +kernel
  rw [hcalls]
  exact Underway.not_completedOnce ⟨0, rfl⟩

end HttpsClient

end NixieTracker
