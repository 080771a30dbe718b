import NixieTracker.Lib.Switch
import NixieTracker.Network.Tasks

/-!
# The modules of an interface are enabled and disabled in turn

Three places of the network module enable or disable the modules of an interface: the initial enabling
of all interfaces, the loop that follows an interface down and up, and the reset of the Wi-Fi
interface, which goes back to the initial enabling. Only the second one keeps `was_net_up`.

* `ModulesInv`: outside `APP_NETWORK_TCPIP_TRANSACT` all modules are disabled, in it they are enabled as
  `was_net_up` says; `modulesInv_step`: every call keeps it, but a reset that finds another interface
  than the Wi-Fi one, or the Wi-Fi one down (`ResetDisturbs`).
* `modules_alternate_iff`: the calls alternate and `was_net_up` is right if and only if there is no such
  reset.
-/

namespace NixieTracker

open Lib

namespace Network

/-- The event as a use of the modules of the interface. -/
def moduleCall (i : Nat) : NetworkEvent → Option Bool
  | .ifModulesEnable net => if net = some i then some true else none
  | .ifModulesDisable net => if net = some i then some false else none
  | _ => none

/-- The calls that enable and disable the modules of the interface, in order. -/
def moduleCalls (i : Nat) (log : List NetworkEvent) : List Bool := log.filterMap (moduleCall i)

/-- The property of a state, with the events so far. -/
structure ModulesFollow (cfg : NetworkConfig) (d : AppNetworkData) (log : List NetworkEvent) :
    Prop where
  alternate : ∀ i < cfg.numNets, Alternating (moduleCalls i log)
  tracked : d.state = .tcpipTransact → ∀ i < cfg.numNets, isOn (moduleCalls i log) = d.wasUp i

/-- The call resets the Wi-Fi interface while there is another one, or while it is down. -/
def ResetDisturbs (cfg : NetworkConfig) (d : AppNetworkData) (answers : NetworkAnswers) : Prop :=
  d.state = .tcpipTransact ∧ answers.connStatus = .connectionFailed ∧
    d.reconnRetries < wifiReconnectionRetryLimit ∧
    ∃ i < cfg.numNets, d.wifiNetHandle ≠ some i ∨ d.wasUp i = false

instance (cfg : NetworkConfig) (d : AppNetworkData) (answers : NetworkAnswers) :
    Decidable (ResetDisturbs cfg d answers) := inferInstanceAs (Decidable (_ ∧ _))

/-- In `APP_NETWORK_TCPIP_TRANSACT` the modules are enabled as `was_net_up` says, otherwise they are
disabled and will all be enabled. -/
structure ModulesInv (cfg : NetworkConfig) (d : AppNetworkData) (log : List NetworkEvent) :
    Prop where
  alternate : ∀ i < cfg.numNets, Alternating (moduleCalls i log)
  transact : d.state = .tcpipTransact → ∀ i < cfg.numNets, isOn (moduleCalls i log) = d.wasUp i
  setup : d.state ≠ .tcpipTransact → ∀ i < cfg.numNets,
    isOn (moduleCalls i log) = false ∧ d.wasUp i = true

theorem ModulesInv.follow {cfg : NetworkConfig} {d : AppNetworkData} {log : List NetworkEvent}
    (h : ModulesInv cfg d log) : ModulesFollow cfg d log := ⟨h.alternate, h.transact⟩

/-! ## The calls of one interface -/

section Calls

variable (cfg : NetworkConfig) (answers : NetworkAnswers) (i : Nat)

theorem moduleCalls_append (us vs : List NetworkEvent) :
    moduleCalls i (us ++ vs) = moduleCalls i us ++ moduleCalls i vs := List.filterMap_append ..

theorem moduleCalls_enable (net : NetHandle) :
    moduleCalls i (appNetworkTPCIPIfModulesEnable net) = if net = some i then [true] else [] := by
  by_cases h : net = some i <;> simp [moduleCalls, appNetworkTPCIPIfModulesEnable, moduleCall, h]

theorem moduleCalls_disable (net : NetHandle) :
    moduleCalls i (appNetworkTCPIPIfModulesDisable cfg answers net) =
      if net = some i then [false] else [] := by
  unfold appNetworkTCPIPIfModulesDisable
  generalize (cfg.isWifiInterface net && answers.netIsUp net) = powersave
  cases powersave <;> by_cases h : net = some i <;> simp [moduleCalls, moduleCall, h]

/-- The initial enabling calls each interface once. -/
theorem moduleCalls_enableAll (n : Nat) :
    moduleCalls i ((List.range n).flatMap fun j => appNetworkTPCIPIfModulesEnable (some j)) =
      if i < n then [true] else [] := by
  induction n with
  | zero => rfl
  | succ n ih =>
    rw [List.range_succ, List.flatMap_append, moduleCalls_append, ih, List.flatMap_singleton,
      moduleCalls_enable]
    grind

end Calls

/-! ## What the loops leave alone -/

/-- The state and the retries are the same. -/
structure SameControl (d' d : AppNetworkData) : Prop where
  state : d'.state = d.state
  retries : d'.reconnRetries = d.reconnRetries

theorem SameControl.trans {d₁ d₂ d₃ : AppNetworkData} (h : SameControl d₁ d₂)
    (h' : SameControl d₂ d₃) : SameControl d₁ d₃ :=
  ⟨h.state.trans h'.state, h.retries.trans h'.retries⟩

/-- A loop whose rounds keep the state and the retries. -/
theorem sameControl_foldl {β : Type} {f : β → Nat → β} (data : β → AppNetworkData)
    (h : ∀ b i, SameControl (data (f b i)) (data b)) (b : β) (is : List Nat) :
    SameControl (data (is.foldl f b)) (data b) := by
  induction is generalizing b with
  | nil => exact ⟨rfl, rfl⟩
  | cons i is ih => exact (ih (f b i)).trans (h b i)

theorem sameControl_followInterface (nets : NetworkInterfaces) (answers : NetworkAnswers)
    (run : AppNetworkData × List NetworkEvent) (i : Nat) :
    SameControl (followInterface nets answers run i).1 run.1 := by
  have hdown : SameControl (followDown nets answers i run.1).1 run.1 := by
    unfold followDown
    split <;> exact ⟨rfl, rfl⟩
  have hup (d : AppNetworkData) : SameControl (followUp answers i d).1 d := by
    unfold followUp
    split <;> exact ⟨rfl, rfl⟩
  exact (hup _).trans hdown

theorem noteAddress_keeps (answers : NetworkAnswers) (d : AppNetworkData) (i : Nat) :
    SameControl (noteAddress answers d i) d ∧ (noteAddress answers d i).wasNetUp = d.wasNetUp := by
  unfold noteAddress
  dsimp only
  split <;> exact ⟨⟨rfl, rfl⟩, rfl⟩

theorem countIpWait_keeps (answers : NetworkAnswers) (d : AppNetworkData) :
    SameControl (countIpWait answers d) d ∧ (countIpWait answers d).wasNetUp = d.wasNetUp := by
  unfold countIpWait
  split <;> exact ⟨⟨rfl, rfl⟩, rfl⟩

theorem noteAddresses_wasNetUp (answers : NetworkAnswers) (d : AppNetworkData) (is : List Nat) :
    (is.foldl (noteAddress answers) d).wasNetUp = d.wasNetUp := by
  induction is generalizing d with
  | nil => rfl
  | cons i is ih => exact (ih _).trans (noteAddress_keeps answers d i).2

/-- What `appNetworkRun` does behind the loop leaves the state, the retries and the flags alone. -/
theorem runInterfaces_eq (nets : NetworkInterfaces) (d : AppNetworkData) (answers : NetworkAnswers) :
    SameControl (runInterfaces nets answers d).1 d ∧
      ∃ powersave : List NetworkEvent, (runInterfaces nets answers d).2 =
          ((List.range nets.numNets).foldl (followInterface nets answers) (d, [])).2 ++ powersave ∧
        (powersave = [] ∨ powersave = [.powersaveConfig true]) ∧
        ∀ i, (runInterfaces nets answers d).1.wasUp i =
          ((List.range nets.numNets).foldl (followInterface nets answers) (d, [])).1.wasUp i := by
  have hloop := sameControl_foldl Prod.fst (sameControl_followInterface nets answers) (d, [])
    (List.range nets.numNets)
  unfold runInterfaces
  generalize (List.range nets.numNets).foldl (followInterface nets answers) (d, []) = run at hloop ⊢
  dsimp only
  have hnote (d : AppNetworkData) := sameControl_foldl id
    (fun d i => (noteAddress_keeps answers d i).1) d (List.range nets.numNets)
  refine ⟨?_, _, rfl, ?_, fun i => ?_⟩
  · refine (countIpWait_keeps answers _).1.trans ((hnote _).trans ?_)
    exact ⟨hloop.state, hloop.retries⟩
  · split
    · exact .inr rfl
    · exact .inl rfl
  · unfold AppNetworkData.wasUp
    rw [(countIpWait_keeps answers _).2, noteAddresses_wasNetUp]

/-! ## The loop over the interfaces -/

/-- The modules are enabled as `was_net_up` says. -/
def Tracked (cfg : NetworkConfig) (d : AppNetworkData) (log : List NetworkEvent) : Prop :=
  ∀ i < cfg.numNets, Alternating (moduleCalls i log) ∧ isOn (moduleCalls i log) = d.wasUp i

theorem wasUp_set (d : AppNetworkData) {i : Nat} (hi : i < 2) (b : Bool) (j : Nat) :
    ((d.wasNetUp.setIfInBounds i b)[j]?).getD true = if i = j then b else d.wasUp j := by
  rw [Vector.getElem?_setIfInBounds]
  by_cases hij : i = j
  · rw [if_pos hij, if_pos hij, if_pos hi]
    rfl
  · rw [if_neg hij, if_neg hij]
    rfl

section Loop

variable {cfg : NetworkConfig} {d : AppNetworkData} {log : List NetworkEvent}

/-- The modules of one interface change along with its flag. -/
theorem Tracked.use {d' : AppNetworkData} {events : List NetworkEvent} {i : Nat} {b : Bool}
    (h : Tracked cfg d log) (hold : d.wasUp i = !b)
    (hnew : ∀ j, d'.wasUp j = if i = j then b else d.wasUp j)
    (hcalls : ∀ j, moduleCalls j events = if i = j then [b] else []) :
    Tracked cfg d' (log ++ events) := by
  intro j hj
  obtain ⟨halternate, hon⟩ := h j hj
  rw [moduleCalls_append, hcalls, hnew]
  by_cases hij : i = j
  · subst hij
    rw [if_pos rfl, if_pos rfl, isOn_concat, alternating_concat]
    exact ⟨⟨halternate, hon.trans hold⟩, rfl⟩
  · rw [if_neg hij, if_neg hij, List.append_nil]
    exact ⟨halternate, hon⟩

theorem tracked_followDown (h : Tracked cfg d log) (answers : NetworkAnswers) {i : Nat} (hi : i < 2) :
    Tracked cfg (followDown cfg answers i d).1 (log ++ (followDown cfg answers i d).2) := by
  unfold followDown
  split
  · rename_i hdown
    simp only [Bool.and_eq_true] at hdown
    refine h.use (by rw [hdown.2]; rfl) (fun j => wasUp_set d hi false j) fun j => ?_
    rw [moduleCalls_disable]
    simp
  · rwa [List.append_nil]

theorem tracked_followUp (h : Tracked cfg d log) (answers : NetworkAnswers) {i : Nat} (hi : i < 2) :
    Tracked cfg (followUp answers i d).1 (log ++ (followUp answers i d).2) := by
  unfold followUp
  split
  · rename_i hup
    simp only [Bool.and_eq_true, Bool.not_eq_true'] at hup
    refine h.use (by rw [hup.2]; rfl) (fun j => wasUp_set d hi true j) fun j => ?_
    rw [moduleCalls_enable]
    simp
  · rwa [List.append_nil]

/-- The loop over the interfaces. -/
theorem tracked_followInterfaces (answers : NetworkAnswers) (is : List Nat) (his : ∀ i ∈ is, i < 2)
    {events : List NetworkEvent} (h : Tracked cfg d (log ++ events)) :
    Tracked cfg (is.foldl (followInterface cfg answers) (d, events)).1
      (log ++ (is.foldl (followInterface cfg answers) (d, events)).2) := by
  induction is generalizing d events with
  | nil => exact h
  | cons i is ih =>
    have hi : i < 2 := his i (List.mem_cons_self ..)
    have hround := tracked_followUp (tracked_followDown h answers hi) answers hi
    rw [List.append_assoc, List.append_assoc, ← List.append_assoc events] at hround
    exact ih (fun j hj => his j (List.mem_cons_of_mem _ hj)) hround

/-- The state is kept, and the modules follow the interfaces. -/
theorem tracked_runInterfaces (h : Tracked cfg d log) (answers : NetworkAnswers) :
    (runInterfaces cfg answers d).1.state = d.state ∧
      Tracked cfg (runInterfaces cfg answers d).1 (log ++ (runInterfaces cfg answers d).2) := by
  obtain ⟨hcontrol, powersave, hevents, hpowersave, hflags⟩ := runInterfaces_eq cfg d answers
  refine ⟨hcontrol.state, fun i hi => ?_⟩
  have hquiet : moduleCalls i powersave = [] := by
    rcases hpowersave with rfl | rfl <;> rfl
  have hloop := tracked_followInterfaces answers (List.range cfg.numNets)
    (fun j hj => Nat.lt_of_lt_of_le (List.mem_range.mp hj) cfg.atMostTwo) (by rwa [List.append_nil]) i hi
  rw [hevents, ← List.append_assoc, moduleCalls_append, hquiet, List.append_nil, hflags]
  exact hloop

end Loop

/-! ## One call -/

/-- All modules are enabled. -/
def enableAll (nets : NetworkInterfaces) : List NetworkEvent :=
  (List.range nets.numNets).flatMap fun i => appNetworkTPCIPIfModulesEnable (some i)

section Step

variable {cfg : NetworkConfig} {d : AppNetworkData} {log : List NetworkEvent}
  (answers : NetworkAnswers)

/-- The flags and the retries are the same. -/
structure SameStatics (d' d : AppNetworkData) : Prop where
  wasNetUp : d'.wasNetUp = d.wasNetUp
  retries : d'.reconnRetries = d.reconnRetries

/-- The Wi-Fi driver is open, or the call waits for it. -/
theorem tasksFromWifiConfig_cases (nets : NetworkInterfaces) (d : AppNetworkData) :
    ∃ d', tasksFromWifiConfig nets answers d =
        (if answers.driverIsOpen then (d', enableAll nets) else (d, [])) ∧
      d'.state = .tcpipTransact ∧ SameStatics d' d := by
  refine ⟨(tasksFromModulesEnable nets { d with
    wifiNetHandle := nets.wifiHandle
    wifiDefaultIp := answers.netAddress nets.wifiHandle
    state := .tcpipModulesEnable }).1, ?_, rfl, ⟨rfl, rfl⟩⟩
  unfold tasksFromWifiConfig appNetworkWifiConfig
  cases answers.driverIsOpen <;> rfl

/-- Outside `APP_NETWORK_TCPIP_TRANSACT` nothing is called, or all modules are enabled and the state is
left. -/
theorem appNetworkTasks_setup (nets : NetworkInterfaces) (hs : d.state ≠ .tcpipTransact) :
    SameStatics (appNetworkTasks nets answers d).1 d ∧
      (((appNetworkTasks nets answers d).2 = [] ∧
          (appNetworkTasks nets answers d).1.state ≠ .tcpipTransact) ∨
        ((appNetworkTasks nets answers d).2 = enableAll nets ∧
          (appNetworkTasks nets answers d).1.state = .tcpipTransact)) := by
  have hconfig (d₁ : AppNetworkData) (hs₁ : d₁.state ≠ .tcpipTransact) (hsame : SameStatics d₁ d) :
      SameStatics (tasksFromWifiConfig nets answers d₁).1 d ∧
        (((tasksFromWifiConfig nets answers d₁).2 = [] ∧
            (tasksFromWifiConfig nets answers d₁).1.state ≠ .tcpipTransact) ∨
          ((tasksFromWifiConfig nets answers d₁).2 = enableAll nets ∧
            (tasksFromWifiConfig nets answers d₁).1.state = .tcpipTransact)) := by
    obtain ⟨d', heq, hstate, hsame'⟩ := tasksFromWifiConfig_cases answers nets d₁
    rw [heq]
    split
    · exact ⟨⟨hsame'.wasNetUp.trans hsame.wasNetUp, hsame'.retries.trans hsame.retries⟩,
        .inr ⟨rfl, hstate⟩⟩
    · exact ⟨hsame, .inl ⟨rfl, hs₁⟩⟩
  unfold appNetworkTasks
  cases hd : d.state with
  | tcpipTransact => exact absurd hd hs
  | tcpipError => exact ⟨⟨rfl, rfl⟩, .inl ⟨rfl, hs⟩⟩
  | tcpipModulesEnable => exact ⟨⟨rfl, rfl⟩, .inr ⟨rfl, rfl⟩⟩
  | wifiConfig => exact hconfig d hs ⟨rfl, rfl⟩
  | tcpipWaitInit =>
    simp only [appNetworkTCPIPInitWait]
    cases answers.tcpipStatus with
    | busy => exact ⟨⟨rfl, rfl⟩, .inl ⟨rfl, hs⟩⟩
    | error => exact hconfig _ nofun ⟨rfl, rfl⟩
    | ready =>
      refine hconfig _ ?_ ⟨rfl, rfl⟩
      dsimp only
      split <;> exact nofun

/-- A run of the interfaces, if the call does not reset the Wi-Fi interface. -/
theorem appNetworkRun_cases (cfg : NetworkConfig) (d : AppNetworkData) :
    (answers.connStatus = .connectionFailed ∧ d.reconnRetries < wifiReconnectionRetryLimit ∧
      ∃ events, (∀ i, moduleCalls i events = if d.wifiNetHandle = some i then [false] else []) ∧
        (appNetworkRun cfg answers d).2 = events ∧
        (appNetworkRun cfg answers d).1.state = .wifiConfig ∧
        (appNetworkRun cfg answers d).1.wasNetUp = d.wasNetUp) ∨
    (¬ (answers.connStatus = .connectionFailed ∧ d.reconnRetries < wifiReconnectionRetryLimit) ∧
      ∃ d' before, d'.state = d.state ∧ d'.wasNetUp = d.wasNetUp ∧
        (∀ i, moduleCalls i before = []) ∧
        appNetworkRun cfg answers d =
          ((runInterfaces cfg answers d').1, before ++ (runInterfaces cfg answers d').2)) := by
  unfold appNetworkRun
  cases hstatus : answers.connStatus with
  | connectionSuccessful =>
    exact .inr ⟨nofun, { d with reconnRetries := 0 }, [], rfl, rfl, fun _ => rfl, rfl⟩
  | other => exact .inr ⟨nofun, d, [], rfl, rfl, fun _ => rfl, rfl⟩
  | connectionReestablished =>
    exact .inr ⟨nofun, timestampDhcpKickin { d with isWifiPowerSaveConfigured := false },
      [.dhcpDisable d.wifiNetHandle, .dhcpEnable d.wifiNetHandle], rfl, rfl, fun _ => rfl, rfl⟩
  | connectionFailed =>
    dsimp only
    by_cases hretry : d.reconnRetries < wifiReconnectionRetryLimit
    · rw [if_pos hretry]
      refine .inl ⟨rfl, hretry, _, fun i => ?_, rfl, rfl, rfl⟩
      rw [List.append_assoc, moduleCalls_append, moduleCalls_disable]
      exact List.append_nil _
    · rw [if_neg hretry]
      exact .inr ⟨fun hboth => hretry hboth.2,
        { d with reconnRetries := d.reconnRetries + 1 }, [], rfl, rfl, fun _ => rfl, rfl⟩

theorem wasUp_congr {d d' : AppNetworkData} (h : d'.wasNetUp = d.wasNetUp) (i : Nat) :
    d'.wasUp i = d.wasUp i := by
  unfold AppNetworkData.wasUp
  rw [h]

theorem modulesInv_setup (h : ModulesInv cfg d log) (hs : d.state ≠ .tcpipTransact) :
    ModulesInv cfg (appNetworkTasks cfg answers d).1 (log ++ (appNetworkTasks cfg answers d).2) := by
  obtain ⟨hsame, hcases⟩ := appNetworkTasks_setup answers cfg hs
  have hup := wasUp_congr hsame.wasNetUp
  rcases hcases with ⟨hevents, hstate⟩ | ⟨hevents, hstate⟩
  · rw [hevents, List.append_nil]
    refine ⟨h.alternate, fun ht => absurd ht hstate, fun _ i hi => ?_⟩
    rw [hup]
    exact h.setup hs i hi
  · rw [hevents]
    have hcalls (i : Nat) (hi : i < cfg.numNets) :
        moduleCalls i (log ++ enableAll cfg) = moduleCalls i log ++ [true] := by
      rw [moduleCalls_append, enableAll, moduleCalls_enableAll, if_pos hi]
    refine ⟨fun i hi => ?_, fun _ i hi => ?_, fun hn => absurd hstate hn⟩
    · rw [hcalls i hi, alternating_concat]
      exact ⟨h.alternate i hi, (h.setup hs i hi).1⟩
    · rw [hcalls i hi, isOn_concat, hup, (h.setup hs i hi).2]

theorem modulesInv_run (h : ModulesInv cfg d log) (hs : d.state = .tcpipTransact)
    (hreset : ¬ ResetDisturbs cfg d answers) :
    ModulesInv cfg (appNetworkRun cfg answers d).1 (log ++ (appNetworkRun cfg answers d).2) := by
  rcases appNetworkRun_cases answers cfg d with
    ⟨hfailed, hretry, events, hcalls, hevents, hstate, hup⟩ |
    ⟨-, d', before, hstate, hup, hquiet, heq⟩
  · -- The only interface is the Wi-Fi one, and it is up.
    have honly (i : Nat) (hi : i < cfg.numNets) : d.wifiNetHandle = some i ∧ d.wasUp i = true := by
      by_contra hnot
      refine hreset ⟨hs, hfailed, hretry, i, hi, ?_⟩
      rw [not_and_or, Bool.not_eq_true] at hnot
      exact hnot
    have hlog (i : Nat) (hi : i < cfg.numNets) :
        moduleCalls i (log ++ (appNetworkRun cfg answers d).2) = moduleCalls i log ++ [false] := by
      rw [moduleCalls_append, hevents, hcalls, if_pos (honly i hi).1]
    refine ⟨fun i hi => ?_, fun ht => ?_, fun _ i hi => ?_⟩
    · rw [hlog i hi, alternating_concat, h.transact hs i hi, (honly i hi).2]
      exact ⟨h.alternate i hi, rfl⟩
    · rw [hstate] at ht
      cases ht
    · rw [hlog i hi, isOn_concat, wasUp_congr hup]
      exact ⟨rfl, (honly i hi).2⟩
  · have htracked : Tracked cfg d' (log ++ before) := by
      intro i hi
      rw [moduleCalls_append, hquiet, List.append_nil, wasUp_congr hup]
      exact ⟨h.alternate i hi, h.transact hs i hi⟩
    obtain ⟨hstate', hrun⟩ := tracked_runInterfaces htracked answers
    rw [heq, ← List.append_assoc]
    exact ⟨fun i hi => (hrun i hi).1, fun _ i hi => (hrun i hi).2,
      fun hn => absurd (hstate'.trans (hstate.trans hs)) hn⟩

end Step

/-- An observer that keeps the whole log. -/
def record (log : List NetworkEvent) (e : NetworkEvent) : List NetworkEvent := log ++ [e]

theorem foldl_record (log events : List NetworkEvent) : events.foldl record log = log ++ events :=
  Machine.foldl_concat log events

/-- Every call but a reset that disturbs. -/
theorem modulesInv_step (cfg : NetworkConfig) (d : AppNetworkData) (answers : NetworkAnswers)
    (log : List NetworkEvent) (hreset : ¬ ResetDisturbs cfg d answers) (h : ModulesInv cfg d log) :
    ModulesInv cfg ((machine cfg).step d answers).1
      (((machine cfg).step d answers).2.foldl record log) := by
  rw [foldl_record]
  by_cases hs : d.state = .tcpipTransact
  · have hrun := modulesInv_run answers h hs hreset
    show ModulesInv cfg (appNetworkTasks cfg answers d).1 (log ++ (appNetworkTasks cfg answers d).2)
    rwa [show appNetworkTasks cfg answers d = appNetworkRun cfg answers d by
      unfold appNetworkTasks; rw [hs]]
  · exact modulesInv_setup answers h hs

/-! ## A reset that disturbs -/

/-- The calls do not alternate, or will not when all modules are enabled again. -/
def Doomed (cfg : NetworkConfig) (d : AppNetworkData) (log : List NetworkEvent) : Prop :=
  (∃ i < cfg.numNets, ¬ Alternating (moduleCalls i log)) ∨
    (d.state = .wifiConfig ∧
      ∃ i < cfg.numNets, isOn (moduleCalls i log) = true ∨ d.wasUp i = false)

theorem not_alternating_append {i : Nat} {log : List NetworkEvent}
    (h : ¬ Alternating (moduleCalls i log)) (events : List NetworkEvent) :
    ¬ Alternating (moduleCalls i (log ++ events)) := by
  rw [moduleCalls_append]
  exact fun halternate => h halternate.of_append

/-- The reset leaves the other interface enabled, or disables the Wi-Fi one twice. -/
theorem doomed_of_reset (cfg : NetworkConfig) (d : AppNetworkData) (answers : NetworkAnswers)
    (log : List NetworkEvent) (hreset : ResetDisturbs cfg d answers) (h : ModulesInv cfg d log) :
    Doomed cfg ((machine cfg).step d answers).1
      (((machine cfg).step d answers).2.foldl record log) := by
  obtain ⟨hs, hfailed, hretry, i, hi, hdisturbs⟩ := hreset
  rw [foldl_record]
  show Doomed cfg (appNetworkTasks cfg answers d).1 (log ++ (appNetworkTasks cfg answers d).2)
  rw [show appNetworkTasks cfg answers d = appNetworkRun cfg answers d by
    unfold appNetworkTasks; rw [hs]]
  rcases appNetworkRun_cases answers cfg d with
    ⟨-, -, events, hcalls, hevents, hstate, hup⟩ | ⟨hno, -⟩
  · rw [hevents]
    by_cases hnet : d.wifiNetHandle = some i
    · -- The modules of the Wi-Fi interface are disabled already.
      have hdown : d.wasUp i = false := hdisturbs.resolve_left fun hne => hne hnet
      refine .inl ⟨i, hi, ?_⟩
      rw [moduleCalls_append, hcalls, if_pos hnet, alternating_concat, h.transact hs i hi, hdown]
      exact fun hboth => absurd hboth.2 (by decide)
    · refine .inr ⟨hstate, i, hi, ?_⟩
      rw [moduleCalls_append, hcalls, if_neg hnet, List.append_nil, wasUp_congr hup,
        h.transact hs i hi]
      cases d.wasUp i
      · exact .inr rfl
      · exact .inl rfl
  · exact absurd ⟨hfailed, hretry⟩ hno

/-- As soon as the Wi-Fi driver is open again, the property is broken. -/
theorem doomed_open {cfg : NetworkConfig} {d : AppNetworkData} {answers : NetworkAnswers}
    {log : List NetworkEvent} (hopen : answers.driverIsOpen = true) (h : Doomed cfg d log) :
    ¬ ModulesFollow cfg ((machine cfg).step d answers).1
      (((machine cfg).step d answers).2.foldl record log) := by
  rw [foldl_record]
  intro hfollow
  rcases h with ⟨i, hi, halternate⟩ | ⟨hs, i, hi, hleft⟩
  · exact not_alternating_append halternate _ (hfollow.alternate i hi)
  · obtain ⟨d', heq, hstate, hsame⟩ := tasksFromWifiConfig_cases answers cfg d
    rw [if_pos hopen] at heq
    rw [show (machine cfg).step d answers = (d', enableAll cfg) by
      rw [← heq]; show appNetworkTasks cfg answers d = _; unfold appNetworkTasks; rw [hs]] at hfollow
    have hcalls : moduleCalls i (log ++ enableAll cfg) = moduleCalls i log ++ [true] := by
      rw [moduleCalls_append, enableAll, moduleCalls_enableAll, if_pos hi]
    have halternate := hfollow.alternate i hi
    have htracked := hfollow.tracked hstate i hi
    rw [hcalls] at halternate htracked
    rw [isOn_concat, wasUp_congr hsame.wasNetUp] at htracked
    rcases hleft with hon | hdown
    · rw [alternating_concat, hon] at halternate
      exact absurd halternate.2 (by decide)
    · rw [hdown] at htracked
      cases htracked

theorem doomed_step (cfg : NetworkConfig) (d : AppNetworkData) (answers : NetworkAnswers)
    (log : List NetworkEvent) (h : Doomed cfg d log) :
    ¬ ModulesFollow cfg ((machine cfg).step d answers).1
        (((machine cfg).step d answers).2.foldl record log) ∨
      Doomed cfg ((machine cfg).step d answers).1
        (((machine cfg).step d answers).2.foldl record log) := by
  by_cases hopen : answers.driverIsOpen = true
  · exact .inl (doomed_open hopen h)
  rw [foldl_record]
  rcases h with ⟨i, hi, halternate⟩ | ⟨hs, i, hi, hleft⟩
  · exact .inl fun hfollow => not_alternating_append halternate _ (hfollow.alternate i hi)
  · right
    obtain ⟨d', heq, -, -⟩ := tasksFromWifiConfig_cases answers cfg d
    rw [if_neg hopen] at heq
    rw [show (machine cfg).step d answers = (d, []) by
      rw [← heq]; show appNetworkTasks cfg answers d = _; unfold appNetworkTasks; rw [hs],
      List.append_nil]
    exact .inr ⟨hs, i, hi, hleft⟩

/-- A call that finds the Wi-Fi driver open and no failed connection. -/
def Settles (answers : NetworkAnswers) : Prop :=
  answers.driverIsOpen = true ∧ answers.connStatus ≠ .connectionFailed

/-- The module as it is initialized. -/
def initialized : AppNetworkData := appNetworkInitialize .loaded

/-- **The network modules.** A run from the initialized module, followed by one more call that finds the
Wi-Fi driver open and no failed connection: for each interface the calls alternate, and in
`APP_NETWORK_TCPIP_TRANSACT` its modules are enabled as `was_net_up` says; if and only if no call of the
run resets the Wi-Fi interface while there is another one, or while it is down. -/
theorem modules_alternate_iff (cfg : NetworkConfig) (is : List NetworkAnswers) :
    (∀ answers, Settles answers → ∀ before, before <+: is ++ [answers] →
      ModulesFollow cfg ((machine cfg).run initialized before)
        ((machine cfg).trace initialized before)) ↔
    (machine cfg).Along (fun d answers => ¬ ResetDisturbs cfg d answers) initialized is := by
  have hinit : ModulesInv cfg initialized [] := by
    refine ⟨fun _ _ => alternating_nil, nofun, fun _ i hi => ⟨rfl, ?_⟩⟩
    have hall : ∀ i : Fin 2, initialized.wasUp i = true := by decide
    exact hall ⟨i, Nat.lt_of_lt_of_le hi cfg.atMostTwo⟩
  have hwatch := Machine.watch_iff_along_doomed (modulesInv_step cfg) (fun _ _ h => h.follow)
    (fun d answers log (hx : Settles answers) h =>
      (modulesInv_step cfg d answers log (fun hreset => hx.2 hreset.2.1) h).follow)
    (doomed_of_reset cfg) (doomed_step cfg) (fun _ _ _ hx h => doomed_open hx.1 h)
    (x := ⟨.ready, true, .other, fun _ => true, fun _ => 0, 0, 0, 0⟩) ⟨rfl, nofun⟩ hinit is
  rw [← hwatch]
  simp only [foldl_record, List.nil_append]

/-- The interfaces of the firmware. -/
def firmwareConfig : NetworkConfig where
  names := ["PIC32INT", wifiInterfaceName]
  atMostTwo := by decide

/-- The stack is ready, the driver is open and all interfaces are up. -/
def networkUp (connStatus : IwprivConnStatus) : NetworkAnswers :=
  ⟨.ready, true, connStatus, fun _ => true, fun _ => 0, 0, 0, 0⟩

/-- After a failed Wi-Fi connection the modules of the wired interface are enabled twice. -/
theorem modules_enabled_twice :
    moduleCalls 0 ((machine firmwareConfig).trace initialized
        [networkUp .other, networkUp .connectionFailed, networkUp .other]) = [true, true] ∧
      ¬ ∀ is, ModulesFollow firmwareConfig ((machine firmwareConfig).run initialized is)
        ((machine firmwareConfig).trace initialized is) := by
  have htwice : moduleCalls 0 ((machine firmwareConfig).trace initialized
      [networkUp .other, networkUp .connectionFailed, networkUp .other]) = [true, true] := by
    decide +kernel
  refine ⟨htwice, fun h => ?_⟩
  have halternate := (h [networkUp .other, networkUp .connectionFailed, networkUp .other]).alternate 0
    (by decide)
  rw [htwice] at halternate
  exact absurd (halternate 1 true rfl) (by decide)

end Network

end NixieTracker
