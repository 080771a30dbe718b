import NixieTracker.App.ArgumentsRun
import NixieTracker.Util.UrlSplit

/-!
# The arguments the console commands use

* `Argv.appCommand_within_iff`: the handlers read the arguments that were given, except for a WPS PIN
  of eight characters.
* `Argv.run_appCommand_behind`: then what lies behind the arguments does not matter.
* `Argv.usesArguments_iff`: in these cases, and no others, a handler reads no argument that was not
  given, and hands over the key that was typed.
-/

namespace NixieTracker

open Lib

theorem Arguments.argc_pos (a : Arguments) : 0 < a.argc := List.length_pos_iff.mpr a.nonempty

namespace Argv

variable {d : AppCommandData} {cmdIo : CmdIo} {argc : Nat} {v : Nat → CString}

/-! ## What is read -/

/-- The computation reads the first `argc` arguments only. -/
abbrev ReadsGiven {α : Type} (argc : Nat) (v : Nat → CString) (q : ArgvQuery α) : Prop :=
  q.Within (· < argc) v

theorem argStreq_within {i : Nat} (h : i < argc) (t : String) : ReadsGiven argc v (argStreq i t) :=
  .bind (Query.within_entry.mpr h) (Query.within_pure _)

theorem andStreq_within {c : Bool} {i : Nat} (h : c = true → i < argc) (t : String) :
    ReadsGiven argc v (andStreq c i t) :=
  .ite (fun hc => argStreq_within (h hc) t) fun _ => Query.within_pure _

theorem usage_within (h : 0 < argc) : ReadsGiven argc v (appCmdUsage d) :=
  .bind (Query.within_entry.mpr h) (Query.within_pure _)

theorem dispatch_within (h : 1 < argc) {table : List (String × ArgvQuery CommandOutcome)}
    (htable : ∀ e ∈ table, ReadsGiven argc v e.2) : ReadsGiven argc v (dispatch d table) := by
  induction table with
  | nil => exact usage_within (by omega)
  | cons e table ih =>
    obtain ⟨he, hrest⟩ := List.forall_mem_cons.mp htable
    exact .bind (argStreq_within h _) (.ite (fun _ => he) fun _ => ih hrest)

theorem appCommandOf_within (h : 0 < argc) {table : List (String × ArgvQuery CommandOutcome)}
    (htable : ∀ e ∈ table, ReadsGiven argc v e.2) : ReadsGiven argc v (appCommandOf d argc table) := by
  refine .ite (fun _ => Query.within_pure _) fun _ => .ite (fun _ => usage_within h) fun h1 => ?_
  exact dispatch_within (by omega) htable

theorem appCmdSchedule_within (h : 0 < argc) (callback : AppCommandTaskCallback)
    (checkAvailable : AppCommandTaskCheckAvailableCallback) :
    ReadsGiven argc v (appCmdSchedule d cmdIo argc callback checkAvailable) :=
  .ite (fun _ => usage_within h) fun _ => Query.within_pure _

/-- A choice by `argv[i]`. -/
theorem choice_within {i : Nat} (h : i < argc) {t : String} {q r : ArgvQuery CommandOutcome}
    (hq : ReadsGiven argc v q) (hr : ReadsGiven argc v r) :
    ReadsGiven argc v (do if ← argStreq i t then q else r) :=
  .bind (argStreq_within h t) (.ite (fun _ => hq) fun _ => hr)

/-- A choice by `c && STREQ(argv[i], t)`. -/
theorem andChoice_within {c : Bool} {i : Nat} (h : c = true → i < argc) {t : String}
    {q r : ArgvQuery CommandOutcome}
    (hq : c = true → (v i).argument.streq t = true → ReadsGiven argc v q)
    (hr : ReadsGiven argc v r) : ReadsGiven argc v (do if ← andStreq c i t then q else r) := by
  refine .bind (andStreq_within h t) (.ite (fun hrun => ?_) fun _ => hr)
  rw [run_andStreq, Bool.and_eq_true] at hrun
  exact hq hrun.1 hrun.2

/-- The commands that switch something on or off. -/
theorem enable_within (h : 2 < argc) (o o' : CommandOutcome) : ReadsGiven argc v (do
    if ← argStreq 2 "enable" then return o
    else if ← argStreq 2 "disable" then return o'
    else appCmdUsage d) :=
  choice_within h (Query.within_pure _)
    (choice_within h (Query.within_pure _) (usage_within (by omega)))

theorem appCommandDebug_within (h : 0 < argc) (build : DebugBuild) :
    ReadsGiven argc v (appCommandDebug d argc build) := by
  have hwolf : ReadsGiven argc v (appCmdDebugWolfSSL d argc build) := by
    refine .ite (fun _ => .ite (fun _ => usage_within h) fun h3 => ?_) fun _ => Query.within_pure _
    exact enable_within (by omega) _ _
  refine .ite (fun _ => ?_) fun _ => Query.within_pure _
  exact appCommandOf_within h (List.forall_mem_singleton.mpr hwolf)

theorem appCommandFetch_within (h : 0 < argc) : ReadsGiven argc v (appCommandFetch d cmdIo argc) := by
  have hfetch : ReadsGiven argc v (appCmdFetch d cmdIo argc) := by
    refine .ite (fun _ => usage_within h) fun h2 => ?_
    exact .bind (Query.within_entry.mpr (by omega)) (Query.within_pure _)
  exact .ite (fun _ => Query.within_pure _) fun _ => .ite (fun _ => usage_within h) fun _ => hfetch

theorem appCommandFlash_within (h : 0 < argc) : ReadsGiven argc v (appCommandFlash d cmdIo argc) := by
  refine appCommandOf_within h (List.forall_mem_cons.mpr ⟨?_, List.forall_mem_singleton.mpr ?_⟩)
  · exact appCmdSchedule_within h _ _
  · exact appCmdSchedule_within h _ _

theorem appCommandNixie_within (h : 0 < argc) : ReadsGiven argc v (appCommandNixie d cmdIo argc) := by
  have hdisplay : ReadsGiven argc v (appCmdNixieDisplay d cmdIo argc) := by
    refine .ite (fun _ => usage_within h) fun h3 => ?_
    exact .bind (Query.within_entry.mpr (by omega)) (Query.within_pure _)
  have hperiodic : ReadsGiven argc v (appCmdNixiePeriodic d argc) := by
    refine .ite (fun _ => Query.within_pure _) fun _ => .ite (fun _ => usage_within h) fun h3 => ?_
    exact enable_within (by omega) _ _
  refine appCommandOf_within h (List.forall_mem_cons.mpr ⟨hdisplay,
    List.forall_mem_cons.mpr ⟨hperiodic, List.forall_mem_singleton.mpr ?_⟩⟩)
  exact appCmdSchedule_within h _ _

theorem appCommandNTP_within (h : 0 < argc) : ReadsGiven argc v (appCommandNTP d argc) := by
  have hseconds : ReadsGiven argc v (appCmdNTPSeconds d argc) :=
    .ite (fun _ => usage_within h) fun _ => Query.within_pure _
  refine .ite (fun _ => usage_within h) fun h1 => ?_
  exact dispatch_within (by omega) (List.forall_mem_singleton.mpr hseconds)

theorem appCommandPhy_within (h : 0 < argc) : ReadsGiven argc v (appCommandPhy d argc) :=
  appCommandOf_within h (List.forall_mem_cons.mpr ⟨Query.within_pure _,
    List.forall_mem_singleton.mpr (Query.within_pure _)⟩)

theorem appCommandPower_within (h : 0 < argc) : ReadsGiven argc v (appCommandPower d argc) := by
  have hhv : ReadsGiven argc v (appCmdPowerHV d argc) := by
    refine .ite (fun _ => usage_within h) fun h3 => ?_
    exact enable_within (by omega) _ _
  exact appCommandOf_within h (List.forall_mem_singleton.mpr hhv)

/-- A choice between three words in `argv[2]`. -/
theorem status_within (h : 2 < argc) {t1 t2 t3 : String} (o1 o2 o3 : CommandOutcome) :
    ReadsGiven argc v (do
      if ← argStreq 2 t1 then return o1
      else if ← argStreq 2 t2 then return o2
      else if ← argStreq 2 t3 then return o3
      else appCmdUsage d) :=
  choice_within h (Query.within_pure _) (choice_within h (Query.within_pure _)
    (choice_within h (Query.within_pure _) (usage_within (by omega))))

theorem dateDecode_within (h : 6 < argc) (stack : Int × Int × Int) :
    ReadsGiven argc v (dateDecode stack) :=
  .bind (Query.within_entry.mpr (by omega)) (.bind (Query.within_entry.mpr (by omega))
    (.bind (Query.within_entry.mpr (by omega)) (.bind (Query.within_entry.mpr (by omega))
      (.bind (Query.within_entry.mpr h) (Query.within_pure _)))))

theorem appCmdRTCDate_within (h : 0 < argc) (stack : Int × Int × Int) :
    ReadsGiven argc v (appCmdRTCDate d cmdIo argc stack) := by
  refine .ite (fun _ => Query.within_pure _) fun _ => .ite (fun h7 => ?_) fun _ => usage_within h
  refine .bind (dateDecode_within (by omega) stack) ?_
  split
  · exact Query.within_pure _
  · exact Query.within_pure _

theorem appCmdRTCRegister_within (h : 0 < argc) :
    ReadsGiven argc v (appCmdRTCRegister d cmdIo argc) := by
  refine .ite (fun _ => usage_within h) fun h4 => ?_
  refine andChoice_within (fun _ => by omega) (fun _ _ => ?read)
    (andChoice_within (fun _ => by omega) (fun h5 _ => ?write) (usage_within h))
  case read => exact .bind (Query.within_entry.mpr (by omega)) (Query.within_pure _)
  case write =>
    have h5 : argc = 5 := of_decide_eq_true h5
    exact .bind (Query.within_entry.mpr (by omega))
      (.bind (Query.within_entry.mpr (by omega)) (Query.within_pure _))

theorem appCommandRTC_within (h : 0 < argc) (stack : Int × Int × Int) :
    ReadsGiven argc v (appCommandRTC d cmdIo argc stack) := by
  have hoscillator : ReadsGiven argc v (appCmdRTCOscillator d cmdIo argc) :=
    .ite (fun _ => usage_within h) fun h3 => status_within (by omega) _ _ _
  have hbattery : ReadsGiven argc v (appCmdRTCBattery d cmdIo argc) :=
    .ite (fun _ => usage_within h) fun h3 => status_within (by omega) _ _ _
  refine appCommandOf_within h (List.forall_mem_cons.mpr ⟨hoscillator, List.forall_mem_cons.mpr
    ⟨appCmdRTCDate_within h stack, List.forall_mem_cons.mpr ⟨hbattery, List.forall_mem_cons.mpr
      ⟨?_, List.forall_mem_singleton.mpr (appCmdRTCRegister_within h)⟩⟩⟩⟩)
  exact appCmdSchedule_within h _ _

/-- The loop reads as many arguments as bytes are left. -/
theorem sendDataLoop_within {n : Nat} (data : Vector UInt8 shiftRegisterMaxData) (i : Nat)
    (h : i + n + 2 ≤ argc) : ReadsGiven argc v (sendDataLoop data i n) := by
  induction n generalizing data i with
  | zero => exact Query.within_pure _
  | succ n ih => exact .bind (Query.within_entry.mpr (by omega)) (ih _ (i + 1) (by omega))

theorem appCommandShiftRegister_within (h : 0 < argc) :
    ReadsGiven argc v (appCommandShiftRegister d cmdIo argc) := by
  have hset : ReadsGiven argc v (commandShiftRegisterSetEnabledOrDisabled d cmdIo argc) := by
    refine .ite (fun _ => usage_within h) fun h2 => ?_
    exact choice_within (by omega) (Query.within_pure _)
      (choice_within (by omega) (Query.within_pure _) (usage_within h))
  have hsend : ReadsGiven argc v (commandShiftRegisterSendData d cmdIo argc) := by
    refine .ite (fun _ => usage_within h) fun h3 => .bind ?_ (Query.within_pure _)
    have hle : minZz (argc - 2) shiftRegisterMaxData ≤ argc - 2 := by
      rw [minZz_eq]
      exact Nat.min_le_left ..
    exact sendDataLoop_within _ 0 (by omega)
  refine .ite (fun _ => Query.within_pure _) fun _ => .ite (fun _ => usage_within h) fun h1 => ?_
  exact andChoice_within (fun _ => by omega) (fun _ _ => hset)
    (andChoice_within (fun _ => by omega) (fun _ _ => hset)
      (andChoice_within (fun _ => by omega) (fun _ _ => hsend) (usage_within h)))

/-! ## The WPS PIN -/

theorem iwSecurityMode_within (h : 2 < argc) {length : Nat → Bool} {key : Nat}
    {set : CString → UInt16 → List CommandEvent}
    (hkey : length (v 2).chars.length = true → key < argc) :
    ReadsGiven argc v (iwSecurityMode d length key set) := by
  refine .bind (Query.within_entry.mpr h) (.ite (fun _ => Query.within_pure _) fun hlen => ?_)
  exact .bind (Query.within_entry.mpr (hkey (by simpa using hlen))) (Query.within_pure _)

/-- `iwsecurity pin` with a PIN of eight characters. -/
structure PinTyped (argc : Nat) (v : Nat → CString) : Prop where
  argc_eq : argc = 3
  mode : (v 1).argument.streq "pin" = true
  length : (v 2).chars.length = 8

theorem appCommandIwSecurity_within (context : WepContext) (hpin : ¬ PinTyped argc v) :
    ReadsGiven argc v (appCommandIwSecurity d argc context) := by
  have h1 : decide (argc = 3) = true → 1 < argc := fun h3 => by
    have := of_decide_eq_true h3
    omega
  have hmode : ∀ {length set}, decide (argc = 3) = true →
      ReadsGiven argc v (iwSecurityMode d length 2 set) := fun h3 => by
    have := of_decide_eq_true h3
    exact iwSecurityMode_within (by omega) fun _ => by omega
  refine andChoice_within (fun h2 => ?_) (fun _ _ => Query.within_pure _)
    (andChoice_within (fun h3 => ?_) (fun h3 _ => ?_)
      (andChoice_within h1 (fun h3 _ => hmode h3) (andChoice_within h1 (fun h3 _ => hmode h3)
        (andChoice_within h1 (fun h3 _ => hmode h3)
          (andChoice_within h1 (fun h3 hmode => ?pin) (Query.within_pure _))))))
  case pin =>
    have h3 := of_decide_eq_true h3
    refine iwSecurityMode_within (by omega) fun hlen => ?_
    exact absurd ⟨h3, hmode, of_decide_eq_true hlen⟩ hpin
  · have := of_decide_eq_true h2
    omega
  · have := of_decide_eq_true h3
    omega
  · have := of_decide_eq_true h3
    exact hmode (decide_eq_true this.symm)

/-- A choice that is not taken, and one that is. -/
theorem andChoice_next {c : Bool} {i : Nat} {t : String} {q r : ArgvQuery CommandOutcome}
    (h : ReadsGiven argc v (do if ← andStreq c i t then q else r))
    (hne : (v i).argument.streq t = false) : ReadsGiven argc v r := by
  have hrest := (Query.within_bind.mp h).2
  rwa [run_andStreq, hne, Bool.and_false, if_neg Bool.false_ne_true] at hrest

theorem andChoice_taken {c : Bool} {i : Nat} {t : String} {q r : ArgvQuery CommandOutcome}
    (h : ReadsGiven argc v (do if ← andStreq c i t then q else r)) (hc : c = true)
    (heq : (v i).argument.streq t = true) : ReadsGiven argc v q := by
  have hrest := (Query.within_bind.mp h).2
  rwa [run_andStreq, hc, heq, Bool.and_true, if_pos rfl] at hrest

/-- The PIN is taken from `argv[3]`, of which there is none. -/
theorem appCommandIwSecurity_pin (context : WepContext) (hpin : PinTyped argc v) :
    ¬ ReadsGiven argc v (appCommandIwSecurity d argc context) := by
  intro h
  have hval : (v 1).argument.val = lit "pin" := of_decide_eq_true hpin.mode
  have hother : ∀ t, lit "pin" ≠ lit t → (v 1).argument.streq t = false := by
    intro t ht
    unfold Argument.streq
    rw [hval]
    exact decide_eq_false ht
  have hopen := andChoice_next h (hother "open" (by decide +kernel))
  have hwep40 := andChoice_next hopen (hother "wep40" (by decide +kernel))
  have hwep104 := andChoice_next hwep40 (hother "wep104" (by decide +kernel))
  have hwpa := andChoice_next hwep104 (hother "wpa" (by decide +kernel))
  have hwpa2 := andChoice_next hwpa (hother "wpa2" (by decide +kernel))
  have hmode := andChoice_taken hwpa2 (decide_eq_true hpin.argc_eq) hpin.mode
  have hkey := (Query.within_bind.mp hmode).2
  rw [Query.run_entry, hpin.length, if_neg (by decide)] at hkey
  have hlt : 3 < argc := (Query.within_bind.mp hkey).1 3 (List.mem_singleton_self _)
  have := hpin.argc_eq
  omega

/-- The handlers read the arguments that were given, except for the PIN. -/
theorem appCommand_within_iff (h : 0 < argc) (build : DebugBuild) (locals : CommandLocals)
    (command : ConsoleCommand) :
    ReadsGiven argc v (appCommand d cmdIo argc build locals command) ↔
      ¬ (command = .iwsecurity ∧ PinTyped argc v) := by
  constructor
  · rintro hreads ⟨rfl, hpin⟩
    exact appCommandIwSecurity_pin locals.context hpin hreads
  · intro hpin
    cases command with
    | debug => exact appCommandDebug_within h build
    | fetch => exact appCommandFetch_within h
    | flash => exact appCommandFlash_within h
    | iwsecurity => exact appCommandIwSecurity_within _ fun hp => hpin ⟨rfl, hp⟩
    | nixie => exact appCommandNixie_within h
    | ntp => exact appCommandNTP_within h
    | phy => exact appCommandPhy_within h
    | power => exact appCommandPower_within h
    | rtc => exact appCommandRTC_within h locals.stack
    | shiftRegister => exact appCommandShiftRegister_within h

/-- What `argv` holds behind the arguments does not matter, except for the PIN. -/
theorem run_appCommand_behind (a : Arguments) (behind : Nat → CString) (build : DebugBuild)
    (locals : CommandLocals) (command : ConsoleCommand)
    (hpin : ¬ (command = .iwsecurity ∧ PinTyped a.argc a.argv)) :
    (appCommand d cmdIo a.argc build locals command).run a.argv =
      (appCommand d cmdIo a.argc build locals command).run { a with behind }.argv := by
  have hreads : ReadsGiven a.argc a.argv (appCommand d cmdIo a.argc build locals command) :=
    (appCommand_within_iff a.argc_pos build locals command).mpr hpin
  apply Query.run_congr
  intro i hi
  have hlt : i < a.given.length := hreads i hi
  unfold Arguments.argv
  rw [List.getElem?_eq_getElem hlt]
  rfl

end Argv

/-! ## The keys -/

/-- The key is in the array of the context, with its length. -/
structure WepContext.HasKey (context : WepContext) (key : List UInt8) : Prop where
  fits : key.length ≤ context.capacity
  length : context.wepKeyLength = key.length
  bytes : context.wepKey.read 0 key.length = key

theorem CString.load_mem (s : CString) : s.mem.load 0 s.chars.length = s.chars := by
  apply List.ext_getElem (by simp [Memory.load])
  intro i h1 h2
  simpa [Memory.load] using s.holds.chars i h2

/-- The `memcpy` of a key stays within an array for the longest one. -/
theorem WepContext.setKey_hasKey {context : WepContext} (hcapacity : 63 ≤ context.capacity)
    (type : WepSecurityType) (s : CString) (h : s.chars.length ≤ 63) :
    (context.setKey type s (UInt16.ofNat s.chars.length)).HasKey s.chars := by
  have hlen : (UInt16.ofNat s.chars.length).toNat = s.chars.length := by
    rw [UInt16.toNat_ofNat']
    omega
  have hfits : s.chars.length ≤ context.capacity := h.trans hcapacity
  refine ⟨hfits, hlen, ?_⟩
  show (context.wepKey.write 0 (s.mem.load 0 _)).read 0 s.chars.length = s.chars
  rw [hlen, s.load_mem]
  exact context.wepKey.read_write (by omega)

/-- The function hands a context with the key to the driver. -/
def SetsKey (context : WepContext) (set : CString → UInt16 → List CommandEvent) (len : Nat) : Prop :=
  ∃ type, ∀ s, set s (UInt16.ofNat len) = [.securityWepSet (context.setKey type s (UInt16.ofNat len))]

theorem iwSecuritySetWEP_sets (context : WepContext) {len : Nat} (h : len = 10 ∨ len = 26) :
    SetsKey context (iwSecuritySetWEP context) len := by
  rcases h with rfl | rfl
  · exact ⟨_, fun _ => rfl⟩
  · exact ⟨_, fun _ => rfl⟩

theorem iwSecuritySetPassPhrase_sets (type : WepSecurityType) (context : WepContext) {len : Nat}
    (h8 : 8 ≤ len) (h63 : len ≤ 63) : SetsKey context (iwSecuritySetPassPhrase type context) len := by
  have hlen : (UInt16.ofNat len).toNat = len := by
    rw [UInt16.toNat_ofNat']
    omega
  have hle : 8 ≤ UInt16.ofNat len ∧ UInt16.ofNat len ≤ 63 := by
    rw [UInt16.le_iff_toNat_le, UInt16.le_iff_toNat_le, hlen]
    exact ⟨h8, h63⟩
  exact ⟨type, fun _ => if_pos hle⟩

/-- The outcome of an accepted mode with a key hands over the key. -/
structure PassesKey (argc : Nat) (key : List UInt8) (o : CommandOutcome) : Prop where
  handed : argc = 3 → o.returned = true → ∃ context, .securityWepSet context ∈ o.events
  hasKey : ∀ context, .securityWepSet context ∈ o.events → context.HasKey key

namespace Argv

variable {d : AppCommandData} {cmdIo : CmdIo} {argc : Nat} {v : Nat → CString} {key : List UInt8}

theorem passesKey_refused : PassesKey argc key ⟨false, d, []⟩ where
  handed _ h := absurd h Bool.false_ne_true
  hasKey _ h := absurd h List.not_mem_nil

theorem passesKey_set {context : WepContext} (hcapacity : 63 ≤ context.capacity)
    {set : CString → UInt16 → List CommandEvent} {s : CString} (h63 : s.chars.length ≤ 63)
    (hset : SetsKey context set s.chars.length) :
    PassesKey argc s.chars ⟨true, d, set s (UInt16.ofNat s.chars.length)⟩ := by
  obtain ⟨type, hset⟩ := hset
  rw [hset]
  constructor
  · exact fun _ _ => ⟨_, List.mem_singleton_self _⟩
  · intro c hc
    cases List.mem_singleton.mp hc
    exact WepContext.setKey_hasKey hcapacity type s h63

theorem andChoice_passes {c : Bool} {i : Nat} {t : String} {q r : ArgvQuery CommandOutcome}
    (hq : c = true → (v i).argument.streq t = true → q.Gives (PassesKey argc key) v)
    (hr : r.Gives (PassesKey argc key) v) :
    Query.Gives (PassesKey argc key) v (do if ← andStreq c i t then q else r) := by
  refine .bind (.ite (fun hrun => ?_) fun _ => hr)
  rw [run_andStreq, Bool.and_eq_true] at hrun
  exact hq hrun.1 hrun.2

theorem iwSecurityMode_passes {context : WepContext} (hcapacity : 63 ≤ context.capacity)
    {length : Nat → Bool} {set : CString → UInt16 → List CommandEvent}
    (hset : ∀ len, length len = true → len ≤ 63 ∧ SetsKey context set len) :
    (iwSecurityMode d length 2 set).Gives (PassesKey argc (v 2).chars) v := by
  refine .bind (.ite (fun _ => passesKey_refused) fun hlen => .bind ?_)
  obtain ⟨h63, hset⟩ := hset (v 2).chars.length (by simpa using hlen)
  exact passesKey_set hcapacity h63 hset

/-- A mode with an unsuitable key is refused. -/
theorem iwSecurityMode_refused {length : Nat → Bool} {i : Nat}
    {set : CString → UInt16 → List CommandEvent} (hlen : length (v 2).chars.length = false) :
    (iwSecurityMode d length i set).Gives (PassesKey argc key) v := by
  refine .bind (.ite (fun _ => passesKey_refused) fun hnot => ?_)
  exact absurd (congrArg (!·) hlen) hnot

theorem appCommandIwSecurity_passes {context : WepContext} (hcapacity : 63 ≤ context.capacity)
    (hpin : ¬ PinTyped argc v) :
    (appCommandIwSecurity d argc context).Gives (PassesKey argc (v 2).chars) v := by
  refine andChoice_passes (fun h2 _ => ?open_) (andChoice_passes (fun _ _ => ?wep40)
    (andChoice_passes (fun _ _ => ?wep104) (andChoice_passes (fun _ _ => ?wpa)
      (andChoice_passes (fun _ _ => ?wpa2)
        (andChoice_passes (fun h3 hmode => ?pin) passesKey_refused)))))
  case open_ =>
    have h2 : argc = 2 := of_decide_eq_true h2
    constructor
    · intro h3
      omega
    · intro c hc
      cases List.mem_singleton.mp hc
  case wep40 =>
    refine iwSecurityMode_passes hcapacity fun len hlen => ?_
    have hlen : len = 10 := of_decide_eq_true hlen
    exact ⟨by omega, iwSecuritySetWEP_sets context (.inl hlen)⟩
  case wep104 =>
    refine iwSecurityMode_passes hcapacity fun len hlen => ?_
    have hlen : len = 26 := of_decide_eq_true hlen
    exact ⟨by omega, iwSecuritySetWEP_sets context (.inr hlen)⟩
  case wpa =>
    refine iwSecurityMode_passes hcapacity fun len hlen => ?_
    have hlen : 8 ≤ len ∧ len ≤ 63 := by simpa using hlen
    exact ⟨hlen.2, iwSecuritySetPassPhrase_sets _ context hlen.1 hlen.2⟩
  case wpa2 =>
    refine iwSecurityMode_passes hcapacity fun len hlen => ?_
    have hlen : 8 ≤ len ∧ len ≤ 63 := by simpa using hlen
    exact ⟨hlen.2, iwSecuritySetPassPhrase_sets _ context hlen.1 hlen.2⟩
  case pin =>
    refine iwSecurityMode_refused (decide_eq_false fun h8 => ?_)
    exact hpin ⟨of_decide_eq_true h3, hmode, h8⟩

/-! ## The arguments used -/

/-- A line uses its arguments: the handler reads none that was not given, and an accepted Wi-Fi security
mode with a key hands over `argv[2]`. -/
structure UsesArguments (d : AppCommandData) (cmdIo : CmdIo) (build : DebugBuild)
    (locals : CommandLocals) (a : Arguments) (command : ConsoleCommand) : Prop where
  given : ∀ i ∈ (appCommand d cmdIo a.argc build locals command).asked a.argv, i < a.argc
  key : command = .iwsecurity → PassesKey a.argc (a.argv 2).chars
    ((appCommand d cmdIo a.argc build locals command).run a.argv)

/-- **Arguments.** A registered command uses its arguments if and only if it is not `iwsecurity pin`
with a PIN of eight characters, where the driver's array for the key has room for the longest pass
phrase that the commands accept. -/
theorem usesArguments_iff (d : AppCommandData) (cmdIo : CmdIo) (build : DebugBuild)
    (locals : CommandLocals) (hcapacity : 63 ≤ locals.context.capacity) (a : Arguments)
    (command : ConsoleCommand) :
    UsesArguments d cmdIo build locals a command ↔
      ¬ (command = .iwsecurity ∧ PinTyped a.argc a.argv) := by
  have hreads : ReadsGiven a.argc a.argv (appCommand d cmdIo a.argc build locals command) ↔ _ :=
    appCommand_within_iff a.argc_pos build locals command
  constructor
  · exact fun h => hreads.mp h.given
  · intro hpin
    refine ⟨hreads.mpr hpin, ?_⟩
    rintro rfl
    exact appCommandIwSecurity_passes hcapacity fun hp => hpin ⟨rfl, hp⟩

/-- The local variables with an array of 64 bytes for the key. -/
def locals64 : CommandLocals := ⟨(0, 0, 0), ⟨64, .wep40, 0, Vector.replicate 64 0⟩⟩

/-- A line with `iwsecurity`. -/
def iwsecurityArguments (mode key : CString) : Arguments where
  given := [⟨lit "iwsecurity", by decide +kernel, by decide +kernel, fun _ => 0⟩, mode, key]
  nonempty := List.cons_ne_nil _ _
  behind _ := ⟨[], List.not_mem_nil, by decide +kernel, fun _ => 0⟩

/-- `iwsecurity wep40 0123456789`. -/
def wepArguments : Arguments :=
  iwsecurityArguments ⟨lit "wep40", by decide +kernel, by decide +kernel, fun _ => 0⟩
    ⟨lit "0123456789", by decide +kernel, by decide +kernel, fun _ => 0⟩

theorem usesArguments_wep40 :
    UsesArguments .zeroed 0 ⟨false, false⟩ locals64 wepArguments .iwsecurity := by
  have hmode : (wepArguments.argv 1).argument.streq "pin" = false := by decide +kernel
  refine (usesArguments_iff _ _ _ locals64 (show 63 ≤ 64 by decide) _ _).mpr ?_
  rintro ⟨-, hpin⟩
  exact Bool.false_ne_true (hmode.symm.trans hpin.mode)

/-- `iwsecurity pin 12345670`. -/
def pinArguments : Arguments :=
  iwsecurityArguments ⟨lit "pin", by decide +kernel, by decide +kernel, fun _ => 0⟩
    ⟨lit "12345670", by decide +kernel, by decide +kernel, fun _ => 0⟩

theorem arguments_not_used : ¬ ∀ d cmdIo build locals a command,
    63 ≤ locals.context.capacity → UsesArguments d cmdIo build locals a command := by
  intro h
  have huses := h .zeroed 0 ⟨false, false⟩ locals64 pinArguments .iwsecurity (show 63 ≤ 64 by decide)
  have hread : 3 ∈ (appCommand .zeroed 0 3 ⟨false, false⟩ locals64 .iwsecurity).asked
      pinArguments.argv := by decide +kernel
  have hlt : 3 < 3 := huses.given 3 hread
  omega

end Argv

end NixieTracker
