import NixieTracker.Https.Sockets

/-!
# Which lookups a request makes

`TCPIP_DNS_Resolve` is called for the configured address family, and a second time for IPv4 if an IPv6
lookup fails. An observer notes the families of a request's lookups, the latest first.

* `LookUpsInv`: the invariant; `lookUpsInv_step`: every call keeps it, but the one in which the
  fallback is accepted (`FallbackTaken`). The client waits for the IPv4 lookup then, and goes on
  asking for IPv6.
* `lookUps_follow_iff`: the client asks for the family of its last lookup, makes no lookup beyond the
  fallback, and connects to the family it has resolved, if and only if no fallback is accepted.
-/

namespace NixieTracker

open Lib

variable {κ : Type}

/-- The address family of the stored member. -/
def IpMultiAddress.family : IpMultiAddress → AppHTTPSClientIPMode
  | .v4Add _ => .ipv4
  | .v6Add _ => .ipv6

namespace HttpsClient

/-- The lookups of the last accepted request, the latest first. -/
def observeLookUp (m : List AppHTTPSClientIPMode) : ClientLog κ → List AppHTTPSClientIPMode
  | .event (.dnsResolve _ type) => type :: m
  | .event _ => m
  | .accepted _ => []

def lookUps (log : List (ClientLog κ)) : List AppHTTPSClientIPMode := log.foldl observeLookUp []

/-- What the comment at `ip_mode_config` allows: a lookup of the configured family, and then, if that is
IPv6, a fallback to IPv4. -/
def AsConfigured (config : AppHTTPSClientIPMode) (m : List AppHTTPSClientIPMode) : Prop :=
  m = [] ∨ m = [config] ∨ (config = .ipv6 ∧ m = [.ipv4, .ipv6])

/-- The client follows its lookups. -/
structure LookUpsFollowed (d : AppHTTPSClientData κ) (m : List AppHTTPSClientIPMode) : Prop where
  /-- It asks for the family of the last lookup. -/
  asked : d.state = .waitOnDns → m.head? = some d.dnsQueryIpMode
  lookUps : AsConfigured d.ipModeConfig m
  /-- It connects to an address of the family that it notes. -/
  address : d.state = .startConnection → d.ipMode = d.ipAddress.family

/-- An IPv6 lookup has failed, and the IPv4 lookup is accepted. -/
def FallbackTaken (d : AppHTTPSClientData κ) : ClientInput κ → Prop
  | .tasks net =>
    d.state = .waitOnDns ∧ d.dnsQueryIpMode = .ipv6 ∧
      net.dnsIsResolved (cstr d.host) .ipv6 = .failed ∧ 0 ≤ net.dnsResolve (cstr d.host) .ipv4
  | .request _ _ => False

instance (d : AppHTTPSClientData κ) : ∀ i : ClientInput κ, Decidable (FallbackTaken d i)
  | .tasks _ => inferInstanceAs (Decidable (_ ∧ _ ∧ _ ∧ _))
  | .request _ _ => inferInstanceAs (Decidable False)

/-- No lookup has been made yet. -/
def BeforeLookUp (s : AppHTTPSClientState) : Prop :=
  s ∈ [.beginSequence, .waitForNetwork, .parseRequestUrl, .processRequest]

/-- No lookup will be made any more, and the connection is not started from here. -/
def AfterLookUp (s : AppHTTPSClientState) : Prop :=
  ¬ BeforeLookUp s ∧ s ≠ .waitOnDns ∧ s ≠ .startConnection

instance (s : AppHTTPSClientState) : Decidable (BeforeLookUp s) := by
  unfold BeforeLookUp
  infer_instance

instance (s : AppHTTPSClientState) : Decidable (AfterLookUp s) := by
  unfold AfterLookUp
  infer_instance

/-- A request makes its one lookup before it waits. -/
structure LookUpsInv (d : AppHTTPSClientData κ) (m : List AppHTTPSClientIPMode) : Prop where
  before : BeforeLookUp d.state → m = []
  waiting : d.state = .waitOnDns → m = [d.ipModeConfig] ∧ d.dnsQueryIpMode = d.ipModeConfig
  lookUps : AsConfigured d.ipModeConfig m
  address : d.state = .startConnection → d.ipMode = d.ipAddress.family

theorem LookUpsInv.followed {d : AppHTTPSClientData κ} {m : List AppHTTPSClientIPMode}
    (h : LookUpsInv d m) : LookUpsFollowed d m := by
  refine ⟨fun hs => ?_, h.lookUps, h.address⟩
  obtain ⟨rfl, hmode⟩ := h.waiting hs
  rw [hmode]
  rfl

theorem lookUpsInv_after {d : AppHTTPSClientData κ} {m : List AppHTTPSClientIPMode}
    (hm : AsConfigured d.ipModeConfig m) (hs : AfterLookUp d.state) : LookUpsInv d m :=
  ⟨fun hb => absurd hb hs.1, fun hw => absurd hw hs.2.1, hm, fun hc => absurd hc hs.2.2⟩

theorem lookUpsInv_before {d : AppHTTPSClientData κ} (hs : BeforeLookUp d.state) :
    LookUpsInv d [] := by
  refine ⟨fun _ => rfl, fun hw => ?_, .inl rfl, fun hc => ?_⟩
  · rw [hw] at hs
    exact absurd hs (by decide)
  · rw [hc] at hs
    exact absurd hs (by decide)

section Calls

variable {d : AppHTTPSClientData κ} {m : List AppHTTPSClientIPMode} (net : NetAnswers)

/-- Events that are not lookups. -/
def NoLookUp (es : List (ClientEvent κ)) : Prop := ∀ e ∈ es, ∀ host type, e ≠ .dnsResolve host type

theorem foldl_observeLookUp {es : List (ClientEvent κ)} (h : NoLookUp es)
    (m : List AppHTTPSClientIPMode) : (es.map ClientLog.event).foldl observeLookUp m = m := by
  induction es with
  | nil => rfl
  | cons e es ih =>
    have hobserve : observeLookUp m (.event e) = m := by
      cases e with
      | dnsResolve host type => exact absurd rfl (h _ (List.mem_cons_self ..) host type)
      | _ => rfl
    rw [List.map_cons, List.foldl_cons, hobserve]
    exact ih fun e he => h e (List.mem_cons_of_mem _ he)

/-- From the start of the connection on there are no lookups. -/
theorem tasks_after (h : AfterLookUp d.state ∨ d.state = .startConnection) :
    AfterLookUp (appHttpsClientTasks net d).1.state ∧
      (appHttpsClientTasks net d).1.ipModeConfig = d.ipModeConfig ∧
      NoLookUp (appHttpsClientTasks net d).2 := by
  unfold appHttpsClientTasks
  cases hs : d.state with
  | beginSequence | waitForNetwork | parseRequestUrl | processRequest | waitOnDns =>
    rw [hs] at h
    exact absurd h (by decide)
  | idle => simp [hs, NoLookUp, AfterLookUp, BeforeLookUp]
  | error => simp [handleError, NoLookUp, AfterLookUp, BeforeLookUp]
  | closeConnection => simp [closeNetworkConnection, NoLookUp, AfterLookUp, BeforeLookUp]
  | startConnection =>
    simp only [startNetworkConnection]
    split <;> simp [enterErrorState, NoLookUp, AfterLookUp, BeforeLookUp]
  | waitForConnection =>
    simp only [waitNetworkConnection]
    split
    · simp [hs, NoLookUp, AfterLookUp, BeforeLookUp]
    · split
      · split <;> simp [NoLookUp, AfterLookUp, BeforeLookUp]
      · simp [NoLookUp, AfterLookUp, BeforeLookUp]
  | waitForSslConnect =>
    simp only [waitForSSLConnect]
    split
    · simp [hs, NoLookUp, AfterLookUp, BeforeLookUp]
    · split <;> simp [enterErrorState, NoLookUp, AfterLookUp, BeforeLookUp]
  | sendRequest =>
    simp only [sendRequest]
    split
    · simp [hs, NoLookUp, AfterLookUp, BeforeLookUp]
    · split <;> simp [enterErrorState, NoLookUp, AfterLookUp, BeforeLookUp]
  | waitForResponse =>
    simp only [waitForResponse]
    split
    · split <;> simp [hs, NoLookUp, AfterLookUp, BeforeLookUp]
    · simp [hs, NoLookUp, AfterLookUp, BeforeLookUp]

/-- The lookup of a request that has made none. -/
theorem lookUpsInv_processRequest :
    LookUpsInv (processRequest net d).1
      (((processRequest net d).2.map ClientLog.event).foldl observeLookUp []) := by
  unfold processRequest
  split
  · exact ⟨fun _ => rfl, fun hw => (by cases hw), .inl rfl, fun _ => rfl⟩
  · split
    · exact ⟨fun _ => rfl, fun hw => (by cases hw), .inl rfl, fun _ => rfl⟩
    · simp only [List.map_cons, List.map_nil, List.foldl_cons, List.foldl_nil, observeLookUp]
      split
      · exact ⟨fun hb => absurd hb (of_decide_eq_false rfl), fun _ => ⟨rfl, rfl⟩, .inr (.inl rfl),
          fun hc => (by cases hc)⟩
      · exact lookUpsInv_after (.inr (.inl rfl)) (of_decide_eq_true rfl)

/-- A poll keeps waiting, gives an address of the family that was looked up, or ends the lookup. -/
theorem lookUpsInv_checkDNSResolveStatus (h : LookUpsInv d m) (hs : d.state = .waitOnDns)
    (htaken : ¬ FallbackTaken d (.tasks net)) :
    LookUpsInv (checkDNSResolveStatus net d).1
      (((checkDNSResolveStatus net d).2.map ClientLog.event).foldl observeLookUp m) := by
  obtain ⟨hm, hmode⟩ := h.waiting hs
  unfold checkDNSResolveStatus
  split
  · exact h
  · refine ⟨fun hb => absurd hb (of_decide_eq_false rfl), fun hw => (by cases hw), h.lookUps,
      fun _ => ?_⟩
    dsimp only
    cases d.dnsQueryIpMode <;> rfl
  · rename_i hfailed
    split
    · rename_i hipv6
      rw [hipv6] at hfailed
      have hrefused : ¬ 0 ≤ net.dnsResolve (cstr d.host) .ipv4 :=
        fun hok => htaken ⟨hs, hipv6, hfailed, hok⟩
      simp only [ge_iff_le, if_neg hrefused, List.map_cons, List.map_nil, List.foldl_cons,
        List.foldl_nil, observeLookUp]
      -- The fallback is refused, and is the request's last lookup.
      have hconfig : d.ipModeConfig = .ipv6 := hmode.symm.trans hipv6
      refine lookUpsInv_after (.inr (.inr ⟨hconfig, ?_⟩)) (of_decide_eq_true rfl)
      rw [hm, hconfig]
    · exact lookUpsInv_after h.lookUps (of_decide_eq_true rfl)

/-- One call of `APP_HTTPS_Client_Tasks`, as the observer of the lookups sees it. -/
theorem lookUpsInv_tasks (h : LookUpsInv d m) (htaken : ¬ FallbackTaken d (.tasks net)) :
    LookUpsInv (appHttpsClientTasks net d).1
      (((appHttpsClientTasks net d).2.map ClientLog.event).foldl observeLookUp m) := by
  by_cases hafter : AfterLookUp d.state ∨ d.state = .startConnection
  · obtain ⟨hstate, hconfig, hnone⟩ := tasks_after net hafter
    rw [foldl_observeLookUp hnone]
    exact lookUpsInv_after (hconfig ▸ h.lookUps) hstate
  have hstate := h.before
  unfold appHttpsClientTasks
  cases hs : d.state with
  | waitOnDns => exact lookUpsInv_checkDNSResolveStatus net h hs htaken
  | beginSequence | waitForNetwork =>
    rw [hstate (by rw [hs]; decide)]
    exact lookUpsInv_before (of_decide_eq_true rfl)
  | parseRequestUrl =>
    rw [hstate (by rw [hs]; decide)]
    rcases pasreRequestURL_state d with hp | hp
    · exact lookUpsInv_after (.inl rfl) (by rw [hp]; decide)
    · exact lookUpsInv_before (by rw [hp]; decide)
  | processRequest =>
    rw [hstate (by rw [hs]; decide)]
    exact lookUpsInv_processRequest net
  | _ =>
    rw [hs] at hafter
    exact absurd (of_decide_eq_true rfl) hafter

end Calls

theorem lookUpsInv_step (d : AppHTTPSClientData κ) (i : ClientInput κ)
    (m : List AppHTTPSClientIPMode) (htaken : ¬ FallbackTaken d i) (h : LookUpsInv d m) :
    LookUpsInv ((machine κ).step d i).1 (((machine κ).step d i).2.foldl observeLookUp m) := by
  cases i with
  | tasks net => exact lookUpsInv_tasks net h htaken
  | request url callbacks =>
    show LookUpsInv (step d (.request url callbacks)).1
      ((step d (.request url callbacks)).2.foldl observeLookUp m)
    by_cases hidle : d.state = .idle
    · rw [step_request_idle hidle]
      exact lookUpsInv_before (of_decide_eq_true rfl)
    · rw [step_request_busy hidle]
      exact h

/-- After the fallback the client waits for the IPv4 lookup, and asks for an IPv6 address. -/
theorem not_followed_of_fallbackTaken (d : AppHTTPSClientData κ) (i : ClientInput κ)
    (m : List AppHTTPSClientIPMode) (htaken : FallbackTaken d i) (_ : LookUpsInv d m) :
    ¬ LookUpsFollowed ((machine κ).step d i).1 (((machine κ).step d i).2.foldl observeLookUp m) := by
  cases i with
  | request url callbacks => cases htaken
  | tasks net =>
    obtain ⟨hs, hipv6, hfailed, hok⟩ := htaken
    intro hfollowed
    have hasked := hfollowed.asked
    simp [machine, step, appHttpsClientTasks, hs, checkDNSResolveStatus, hipv6, hfailed, hok,
      observeLookUp] at hasked

/-- The client as it is initialized, with a configured address family. -/
def initialized (d : AppHTTPSClientData κ) (config : AppHTTPSClientIPMode) : AppHTTPSClientData κ :=
  { appHttpsClientInitialize d with ipModeConfig := config }

/-- **Lookups.** For every configured family, in every state that a run reaches: a waiting client asks
for the family of the request's last lookup, the lookups are those that the configuration allows, with
one fallback at most, and the noted family is that of the resolved address; if and only if no call of
the run takes the fallback. -/
theorem lookUps_follow_iff (d₀ : AppHTTPSClientData κ) (config : AppHTTPSClientIPMode)
    (is : List (ClientInput κ)) :
    (∀ before, before <+: is → LookUpsFollowed ((machine κ).run (initialized d₀ config) before)
      (lookUps ((machine κ).trace (initialized d₀ config) before))) ↔
    (machine κ).Along (fun d i => ¬ FallbackTaken d i) (initialized d₀ config) is := by
  have hinit : LookUpsInv (initialized d₀ config) [] :=
    lookUpsInv_after (.inl rfl) (of_decide_eq_true rfl)
  exact Machine.watch_iff_along lookUpsInv_step (fun _ _ h => h.followed)
    not_followed_of_fallbackTaken hinit is

/-- A network in which every name has an IPv4 address only. -/
def onlyIpv4 : NetAnswers :=
  { NetAnswers.direct true with
    stringToIPAddress := fun _ => none
    dnsResolve := fun _ _ => 0
    dnsIsResolved := fun _ type => if type = .ipv4 then .ok [127, 0, 0, 1] else .failed }

/-- The fallback is taken again and again, and the IPv4 address is never asked for. -/
theorem fallback_repeated :
    let run (n : Nat) : List (ClientInput Nat) :=
      .request (lit "http://localhost/") ⟨none, none, none⟩ :: List.replicate n (.tasks onlyIpv4)
    lookUps ((machine Nat).trace (initialized (.zeroed Nat) .ipv6) (run 7)) =
        [.ipv4, .ipv4, .ipv4, .ipv6] ∧
      ((machine Nat).run (initialized (.zeroed Nat) .ipv6) (run 7)).dnsQueryIpMode = .ipv6 ∧
      ¬ ∀ is, LookUpsFollowed ((machine Nat).run (initialized (.zeroed Nat) .ipv6) is)
        (lookUps ((machine Nat).trace (initialized (.zeroed Nat) .ipv6) is)) := by
  intro run
  have hlookUps : lookUps ((machine Nat).trace (initialized (.zeroed Nat) .ipv6) (run 7)) =
      [.ipv4, .ipv4, .ipv4, .ipv6] := by decide +kernel
  refine ⟨hlookUps, by decide +kernel, fun h => ?_⟩
  have hallowed := (h (run 7)).lookUps
  rw [hlookUps] at hallowed
  simp [AsConfigured] at hallowed

end HttpsClient

end NixieTracker
