import NixieTracker.Network.Modules

/-!
# The limit of the Wi-Fi resets

`reconn_retries` counts every call that finds the connection failed, also the calls that do not reset
any more. It has 32 bits: after `2 ^ 32` such calls it starts again, and so do the resets.

* `RetriesInv`: since the last successful connection `reconn_retries` is the number of failures modulo
  `2 ^ 32`, and of each `2 ^ 32` failures in a row the first `WIFI_RECONNECTION_RETRY_LIMIT` have
  reset the Wi-Fi interface; `retriesInv_step`: every call keeps it that sees no successful connection.
* `resets_limited_iff`: the limit is kept if and only if there are no more than `2 ^ 32` failures.
-/

namespace NixieTracker

open Lib

namespace Network

/-- The call follows the connection and sees this status. -/
def SeesConnection (status : IwprivConnStatus) (d : AppNetworkData) (tick : NetworkTick) : Prop :=
  d.state = .tcpipTransact ∧ tick.answers.connStatus = status

instance (status : IwprivConnStatus) (d : AppNetworkData) (tick : NetworkTick) :
    Decidable (SeesConnection status d tick) := inferInstanceAs (Decidable (_ ∧ _))

/-- The visits that see a failed connection. -/
def failures (vs : List (AppNetworkData × NetworkTick)) : Nat :=
  vs.countP fun v => SeesConnection .connectionFailed v.1 v.2

/-- `APP_Network_TCPIP_IfaceDown`: a reset calls it once, and nothing else does. -/
def isReset : NetworkEvent → Bool
  | .netDown _ => true
  | _ => false

/-- How often the Wi-Fi interface is reset. -/
def resets (log : List NetworkEvent) : Nat := log.countP isReset

/-- The calls follow the start of the module or a successful connection, and see no other one. -/
structure Unconnected (before ticks : List NetworkTick) : Prop where
  start : before = [] ∨ ∃ earlier tick, before = earlier ++ [tick] ∧
    SeesConnection .connectionSuccessful (polled.run initialized earlier) tick
  unconnected : polled.Along (fun d tick => ¬ SeesConnection .connectionSuccessful d tick)
    (polled.run initialized before) ticks

/-- The retries and the resets since the last successful connection. -/
structure RetriesInv (d : AppNetworkData) (vs : List (AppNetworkData × NetworkTick))
    (log : List NetworkEvent) : Prop where
  counted : d.reconnRetries.toNat = failures vs % UInt32.size
  limited : resets log = 16 * (failures vs / UInt32.size) + min 16 (failures vs % UInt32.size)

/-! ## The resets of one call -/

theorem resets_append (us vs : List NetworkEvent) : resets (us ++ vs) = resets us + resets vs :=
  List.countP_append ..

theorem resets_enable (net : NetHandle) : resets (appNetworkTPCIPIfModulesEnable net) = 0 := rfl

theorem resets_disable (nets : NetworkInterfaces) (answers : NetworkAnswers) (net : NetHandle) :
    resets (appNetworkTCPIPIfModulesDisable nets answers net) = 0 := by
  unfold appNetworkTCPIPIfModulesDisable
  cases nets.isWifiInterface net && answers.netIsUp net <;> rfl

theorem resets_enableAll (nets : NetworkInterfaces) : resets (enableAll nets) = 0 := by
  unfold enableAll
  induction nets.numNets with
  | zero => rfl
  | succ n ih =>
    rw [List.range_succ, List.flatMap_append, resets_append, ih, List.flatMap_singleton, resets_enable]

section Step

variable (nets : NetworkInterfaces) (answers : NetworkAnswers) (d : AppNetworkData)

/-- Following the interfaces resets nothing. -/
theorem resets_followInterfaces (is : List Nat) (events : List NetworkEvent) :
    resets (is.foldl (followInterface nets answers) (d, events)).2 = resets events := by
  induction is generalizing d events with
  | nil => rfl
  | cons i is ih =>
    have hdown : resets (followDown nets answers i d).2 = 0 := by
      unfold followDown
      split
      · exact resets_disable nets answers (some i)
      · rfl
    have hup (d : AppNetworkData) : resets (followUp answers i d).2 = 0 := by
      unfold followUp
      split <;> rfl
    rw [List.foldl_cons]
    refine (ih _ _).trans ?_
    show resets (events ++ (followDown nets answers i d).2 ++ (followUp answers i _).2) = resets events
    rw [resets_append, resets_append, hdown, hup]
    rfl

theorem runInterfaces_retries :
    (runInterfaces nets answers d).1.reconnRetries = d.reconnRetries ∧
      resets (runInterfaces nets answers d).2 = 0 := by
  obtain ⟨hcontrol, powersave, hevents, hpowersave, -⟩ := runInterfaces_eq nets d answers
  refine ⟨hcontrol.retries, ?_⟩
  rw [hevents, resets_append, resets_followInterfaces]
  rcases hpowersave with rfl | rfl <;> rfl

/-- A failed connection is counted, and resets the Wi-Fi interface below the limit. -/
theorem appNetworkRun_failed (h : answers.connStatus = .connectionFailed) :
    (appNetworkRun nets answers d).1.reconnRetries = d.reconnRetries + 1 ∧
      resets (appNetworkRun nets answers d).2 =
        (decide (d.reconnRetries < wifiReconnectionRetryLimit)).toNat := by
  simp only [appNetworkRun, h]
  by_cases hretry : d.reconnRetries < wifiReconnectionRetryLimit
  · rw [if_pos hretry, decide_eq_true hretry]
    refine ⟨rfl, ?_⟩
    rw [resets_append, resets_append, resets_disable]
    rfl
  · rw [if_neg hretry, decide_eq_false hretry]
    exact runInterfaces_retries nets answers { d with reconnRetries := d.reconnRetries + 1 }

/-- Any other connection but a successful one leaves the retries alone. -/
theorem appNetworkRun_other (hfailed : answers.connStatus ≠ .connectionFailed)
    (hsuccessful : answers.connStatus ≠ .connectionSuccessful) :
    (appNetworkRun nets answers d).1.reconnRetries = d.reconnRetries ∧
      resets (appNetworkRun nets answers d).2 = 0 := by
  cases h : answers.connStatus with
  | connectionFailed => exact absurd h hfailed
  | connectionSuccessful => exact absurd h hsuccessful
  | connectionReestablished =>
    simp only [appNetworkRun, h]
    exact runInterfaces_retries nets answers
      (timestampDhcpKickin { d with isWifiPowerSaveConfigured := false })
  | other =>
    simp only [appNetworkRun, h]
    exact runInterfaces_retries nets answers d

end Step

section Retries

variable {d : AppNetworkData} {tick : NetworkTick}

theorem polled_transact (hd : d.state = .tcpipTransact) (tick : NetworkTick) :
    polled.step d tick = appNetworkRun tick.nets tick.answers d := by
  show appNetworkTasks tick.nets tick.answers d = _
  simp only [appNetworkTasks, hd]

theorem polled_failed_connection (h : SeesConnection .connectionFailed d tick) :
    (polled.step d tick).1.reconnRetries = d.reconnRetries + 1 ∧
      resets (polled.step d tick).2 =
        (decide (d.reconnRetries < wifiReconnectionRetryLimit)).toNat := by
  rw [polled_transact h.1]
  exact appNetworkRun_failed tick.nets tick.answers d h.2

theorem polled_other_connection (hfailed : ¬ SeesConnection .connectionFailed d tick)
    (hsuccessful : ¬ SeesConnection .connectionSuccessful d tick) :
    (polled.step d tick).1.reconnRetries = d.reconnRetries ∧ resets (polled.step d tick).2 = 0 := by
  by_cases hd : d.state = .tcpipTransact
  · rw [polled_transact hd]
    exact appNetworkRun_other tick.nets tick.answers d (fun h => hfailed ⟨hd, h⟩)
      (fun h => hsuccessful ⟨hd, h⟩)
  · obtain ⟨hsame, hcases⟩ := appNetworkTasks_setup tick.answers tick.nets hd
    refine ⟨hsame.retries, ?_⟩
    show resets (appNetworkTasks tick.nets tick.answers d).2 = 0
    rcases hcases with ⟨hevents, -⟩ | ⟨hevents, -⟩
    · rw [hevents]
      rfl
    · rw [hevents, resets_enableAll]

/-- A successful connection forgets the retries. -/
theorem polled_successful_connection (h : SeesConnection .connectionSuccessful d tick) :
    (polled.step d tick).1.reconnRetries = 0 := by
  rw [polled_transact h.1]
  simp only [appNetworkRun, h.2]
  exact (runInterfaces_retries tick.nets tick.answers { d with reconnRetries := 0 }).1

end Retries

/-! ## The run -/

theorem failures_concat (vs : List (AppNetworkData × NetworkTick)) (d : AppNetworkData)
    (tick : NetworkTick) :
    failures (vs ++ [(d, tick)]) =
      failures vs + (decide (SeesConnection .connectionFailed d tick)).toNat := by
  unfold failures
  rw [List.countP_append, List.countP_singleton]
  cases decide (SeesConnection .connectionFailed d tick) <;> rfl

/-- One failure more. -/
theorem reset_count (n : Nat) :
    16 * (n / UInt32.size) + min 16 (n % UInt32.size) + (decide (n % UInt32.size < 16)).toNat =
      16 * ((n + 1) / UInt32.size) + min 16 ((n + 1) % UInt32.size) := by
  unfold UInt32.size
  by_cases h : n % 4294967296 < 16
  · rw [decide_eq_true h, Bool.toNat_true]
    omega
  · rw [decide_eq_false h, Bool.toNat_false]
    omega

/-- Every call that sees no successful connection. -/
theorem retriesInv_step (d : AppNetworkData) (tick : NetworkTick)
    (vs : List (AppNetworkData × NetworkTick)) (log : List NetworkEvent)
    (hsuccessful : ¬ SeesConnection .connectionSuccessful d tick) (h : RetriesInv d vs log) :
    RetriesInv (polled.step d tick).1 (vs ++ [(d, tick)]) (log ++ (polled.step d tick).2) := by
  by_cases hfailed : SeesConnection .connectionFailed d tick
  · obtain ⟨hretries, hresets⟩ := polled_failed_connection hfailed
    have hlimit : decide (d.reconnRetries < wifiReconnectionRetryLimit) =
        decide (failures vs % UInt32.size < 16) := by
      rw [← h.counted]
      rfl
    refine ⟨?_, ?_⟩
    · rw [hretries, UInt32.toNat_add, h.counted, failures_concat, decide_eq_true hfailed]
      exact Nat.mod_add_mod ..
    · rw [resets_append, hresets, hlimit, h.limited, failures_concat, decide_eq_true hfailed]
      exact reset_count _
  · obtain ⟨hretries, hresets⟩ := polled_other_connection hfailed hsuccessful
    have hcount : failures (vs ++ [(d, tick)]) = failures vs := by
      rw [failures_concat, decide_eq_false hfailed]
      rfl
    refine ⟨?_, ?_⟩
    · rw [hretries, hcount]
      exact h.counted
    · rw [resets_append, hresets, hcount]
      exact h.limited

/-- The counter at the start of such calls. -/
theorem Unconnected.retries {before ticks : List NetworkTick} (h : Unconnected before ticks) :
    (polled.run initialized before).reconnRetries = 0 := by
  rcases h.start with rfl | ⟨earlier, tick, rfl, hsees⟩
  · rfl
  · rw [Machine.run_append]
    exact polled_successful_connection hsees

/-- The number of the resets. -/
theorem Unconnected.resets_eq {before ticks : List NetworkTick} (h : Unconnected before ticks) :
    resets (polled.trace (polled.run initialized before) ticks) =
      16 * (failures (polled.visits (polled.run initialized before) ticks) / UInt32.size) +
        min 16 (failures (polled.visits (polled.run initialized before) ticks) % UInt32.size) := by
  have hstart : RetriesInv (polled.run initialized before) [] [] := by
    refine ⟨?_, rfl⟩
    rw [h.retries]
    rfl
  exact (Machine.history_inv_along retriesInv_step h.unconnected hstart).limited

/-- **The reconnection limit.** In a part of a run that starts with the module or behind a successful
connection and sees no other one, the Wi-Fi interface is reset at most `WIFI_RECONNECTION_RETRY_LIMIT`
times; if and only if at most `2 ^ 32` of its calls see a failed connection. -/
theorem resets_limited_iff {before ticks : List NetworkTick} (h : Unconnected before ticks) :
    resets (polled.trace (polled.run initialized before) ticks) ≤ wifiReconnectionRetryLimit.toNat ↔
      failures (polled.visits (polled.run initialized before) ticks) ≤ UInt32.size := by
  rw [h.resets_eq]
  generalize failures _ = n
  show 16 * (n / UInt32.size) + min 16 (n % UInt32.size) ≤ 16 ↔ n ≤ UInt32.size
  unfold UInt32.size
  omega

/-! ## A connection that keeps failing -/

/-- The stack is ready, the driver is open and the interfaces are up. -/
def tickUp (status : IwprivConnStatus) : NetworkTick := ⟨firmwareConfig, networkUp status⟩

/-- The module starts, and the connection fails from then on. -/
def failingTicks (n : Nat) : List NetworkTick :=
  tickUp .other :: List.replicate n (tickUp .connectionFailed)

theorem failingTicks_unconnected (n : Nat) : Unconnected [] (failingTicks n) := by
  refine ⟨.inl rfl, ?_⟩
  rw [Machine.along_iff_visits]
  rintro ⟨d, tick⟩ hv ⟨-, hsuccessful⟩
  obtain ⟨before, after, hticks, -⟩ := Machine.mem_visits.mp hv
  have htick : tick ∈ failingTicks n := by
    rw [hticks]
    exact List.mem_append_right _ (List.mem_cons_self ..)
  rcases List.mem_cons.mp htick with rfl | htick
  · cases hsuccessful
  · rw [List.eq_of_mem_replicate htick] at hsuccessful
    cases hsuccessful

/-- A failed connection is retried at once, over the open driver. -/
theorem polled_tickUp {d : AppNetworkData} (hd : d.state = .tcpipTransact ∨ d.state = .wifiConfig) :
    ((polled.step d (tickUp .connectionFailed)).1.state = .tcpipTransact ∨
        (polled.step d (tickUp .connectionFailed)).1.state = .wifiConfig) ∧
      (d.state = .wifiConfig → (polled.step d (tickUp .connectionFailed)).1.state = .tcpipTransact) := by
  rcases hd with hd | hd
  · refine ⟨?_, fun hconfig => ?_⟩
    · rw [polled_transact hd]
      simp only [appNetworkRun, tickUp, networkUp]
      split
      · exact .inr rfl
      · exact .inl ((runInterfaces_eq _ _ _).1.state.trans hd)
    · rw [hd] at hconfig
      cases hconfig
  · obtain ⟨d', heq, hstate, -⟩ :=
      tasksFromWifiConfig_cases (networkUp .connectionFailed) firmwareConfig d
    have hstep : polled.step d (tickUp .connectionFailed) = (d', enableAll firmwareConfig) := by
      show appNetworkTasks firmwareConfig (networkUp .connectionFailed) d = _
      simp only [appNetworkTasks, hd]
      exact heq
    rw [hstep]
    exact ⟨.inl hstate, fun _ => hstate⟩

/-- Of two calls one sees the failed connection. -/
theorem le_failures {d : AppNetworkData} (hd : d.state = .tcpipTransact ∨ d.state = .wifiConfig)
    (n : Nat) :
    n ≤ failures (polled.visits d (List.replicate (2 * n) (tickUp .connectionFailed))) := by
  induction n generalizing d with
  | zero => exact Nat.zero_le _
  | succ n ih =>
    obtain ⟨hnext, hretried⟩ := polled_tickUp hd
    have hrest := ih (polled_tickUp hnext).1
    have hone : 1 ≤ failures [(d, tickUp .connectionFailed),
        ((polled.step d (tickUp .connectionFailed)).1, tickUp .connectionFailed)] := by
      refine List.countP_pos_iff.mpr ?_
      rcases hd with hd | hd
      · exact ⟨_, List.mem_cons_self .., decide_eq_true ⟨hd, rfl⟩⟩
      · exact ⟨_, List.mem_cons_of_mem _ (List.mem_cons_self ..),
          decide_eq_true ⟨hretried hd, rfl⟩⟩
    have hsplit (v w : AppNetworkData × NetworkTick) (vs : List (AppNetworkData × NetworkTick)) :
        failures (v :: w :: vs) = failures [v, w] + failures vs := by
      show failures ([v, w] ++ vs) = _
      exact List.countP_append ..
    rw [Nat.mul_succ, List.replicate_succ, List.replicate_succ, Machine.visits_cons,
      Machine.visits_cons, hsplit]
    omega

/-- With so many failures the limit is not kept. -/
theorem failingTicks_resets {n : Nat} (hn : UInt32.size < n) :
    ¬ resets (polled.trace initialized (failingTicks (2 * n))) ≤ wifiReconnectionRetryLimit.toNat := by
  have hup : (polled.step initialized (tickUp .other)).1.state = .tcpipTransact := by decide +kernel
  have hmany := le_failures (.inl hup) n
  have hfirst : failures (polled.visits initialized (failingTicks (2 * n))) =
      failures (polled.visits (polled.step initialized (tickUp .other)).1
        (List.replicate (2 * n) (tickUp .connectionFailed))) :=
    List.countP_cons_of_neg (by decide +kernel)
  have hresets := (failingTicks_unconnected (2 * n)).resets_eq
  rw [Machine.run_nil, hfirst] at hresets
  rw [hresets]
  generalize failures _ = m at hmany ⊢
  show ¬ 16 * (m / UInt32.size) + min 16 (m % UInt32.size) ≤ 16
  unfold UInt32.size at hn ⊢
  omega

/-- Seventeen resets and more in a run that never sees a successful connection. -/
theorem resets_not_limited :
    Unconnected [] (failingTicks (2 * (UInt32.size + 1))) ∧
      ¬ resets (polled.trace initialized (failingTicks (2 * (UInt32.size + 1)))) ≤
        wifiReconnectionRetryLimit.toNat :=
  ⟨failingTicks_unconnected _, failingTicks_resets (Nat.lt_succ_self _)⟩

/-- A connection that fails three times. -/
theorem resets_limited_three :
    resets (polled.trace initialized (failingTicks 6)) ≤ wifiReconnectionRetryLimit.toNat :=
  (resets_limited_iff (failingTicks_unconnected 6)).mpr (by decide +kernel)

end Network

end NixieTracker
