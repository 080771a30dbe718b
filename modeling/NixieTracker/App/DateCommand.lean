import Mathlib.Data.List.Basic
import NixieTracker.App.Loop
import NixieTracker.Rtc.DateTime
import NixieTracker.Rtc.FollowUp

/-!
# The command `rtc date` (`dateDecode`, `performRTCDateShow`)

* `scanInts`: the values of the conversions of `"%d:%d:%d"` that match; `scanTime_eq` fills the three
  variables with them.
* `decode_eq_some`: what an accepted date is made of.
* `accepted_date_stored_iff`: an accepted date is stored as it was typed, and fits the chip, if and only
  if its day is not 0, its hour not 24 and its year before 2100.
* `line_decides_iff`: the result depends on the line alone if and only if the time has three integers,
  or something else in the line is rejected.
* `shown_date_in_tables_iff`: when the printed names are in their tables. The week day 7 and the months
  from 12 on come out of the registers, and a failed read leaves anything.
-/

namespace NixieTracker

open Lib

/-! ## The time argument -/

/-- The values of `n` conversions `%d` with a colon in between, as far as they match. -/
def scanInts : Nat → List UInt8 → List Int
  | 0, _ => []
  | n + 1, s =>
    match scanInt s with
    | none => []
    | some (value, rest) =>
      value :: match rest with
        | 58 :: s => scanInts n s
        | _ => []

/-- The variables of conversions that do not match keep what they hold. -/
theorem scanTime_eq (s : List UInt8) (stack : Int × Int × Int) :
    scanTime s stack = ((scanInts 3 s).getD 0 stack.1, (scanInts 3 s).getD 1 stack.2.1,
      (scanInts 3 s).getD 2 stack.2.2) := by
  unfold scanTime
  split
  · simp [scanInts, *]
  · split
    · simp [scanInts, *]
    · split <;> simp [scanInts, *]
    · simp [scanInts, *]
  · simp [scanInts, *]

/-! ## What is accepted -/

/-- The arguments of `rtc date`. -/
structure DateArguments where
  dayOfWeekName : Argument
  day : Argument
  monthName : Argument
  year : Argument
  time : Argument

namespace DateArguments

def decode (a : DateArguments) (stack : Int × Int × Int) : Option RtcDateTime :=
  dateDecode a.dayOfWeekName a.day a.monthName a.year a.time stack

/-- What follows the name of the command in its line. -/
def argv (a : DateArguments) : List Argument :=
  [a.dayOfWeekName, a.day, a.monthName, a.year, a.time]

/-- What stands before the time is accepted. -/
structure AcceptsDate (a : DateArguments) : Prop where
  dayOfWeek : (indexOfName daysOfWeek a.dayOfWeekName).isSome
  day : 0 ≤ atoi a.day.val ∧ atoi a.day.val ≤ 31
  month : (indexOfName months a.monthName).isSome
  year : 2001 ≤ atoi a.year.val ∧ atoi a.year.val ≤ 2399

end DateArguments

/-- The limits of hour, minute and second. -/
def timeLimits : List Int := [24, 59, 59]

def AcceptsTime (time : Int × Int × Int) : Prop :=
  (0 ≤ time.1 ∧ time.1 ≤ 24) ∧ (0 ≤ time.2.1 ∧ time.2.1 ≤ 59) ∧ (0 ≤ time.2.2 ∧ time.2.2 ≤ 59)

theorem indexOfName_eq_some {names : List String} {name : Argument} {i : Nat}
    (h : indexOfName names name = some i) : ∃ n, names[i]? = some n ∧ name.val = lit n := by
  obtain ⟨hi, hname, -⟩ := List.findIdx?_eq_some_iff_getElem.mp h
  exact ⟨names[i], List.getElem?_eq_getElem hi, of_decide_eq_true hname⟩

namespace DateArguments

/-- An accepted date has the fields of the line. -/
theorem decode_eq_some {a : DateArguments} {stack : Int × Int × Int} {t : RtcDateTime} :
    a.decode stack = some t ↔ a.AcceptsDate ∧ AcceptsTime (scanTime a.time.val stack) ∧
      ∃ i j, indexOfName daysOfWeek a.dayOfWeekName = some i ∧
        indexOfName months a.monthName = some j ∧ t = {
          seconds := toUInt8 (scanTime a.time.val stack).2.2
          minutes := toUInt8 (scanTime a.time.val stack).2.1
          hours := toUInt8 (scanTime a.time.val stack).1
          dayOfWeek := toUInt8 i
          day := toUInt8 (atoi a.day.val)
          month := toUInt8 j
          year := toUInt8 (atoi a.year.val - 2000) } := by
  unfold decode dateDecode
  generalize scanTime a.time.val stack = time
  obtain ⟨hour, minute, second⟩ := time
  constructor
  · intro h
    dsimp only at h
    split at h
    · cases h
    rename_i i hi
    split at h
    · cases h
    split at h
    · cases h
    rename_i hday j hj
    split at h
    · cases h
    split at h
    · cases h
    split at h
    · cases h
    split at h
    · cases h
    refine ⟨⟨by rw [hi]; rfl, by omega, by rw [hj]; rfl, by omega⟩, ?_, i, j, hi, hj, ?_⟩
    · simp only [AcceptsTime]
      omega
    · exact (Option.some.inj h).symm
  · rintro ⟨⟨-, hday, -, hyear⟩, ⟨hhour, hminute, hsecond⟩, i, j, hi, hj, rfl⟩
    dsimp only at hhour hminute hsecond ⊢
    rw [hi, hj]
    dsimp only
    rw [if_neg (by omega), if_neg (by omega), if_neg (by omega), if_neg (by omega),
      if_neg (by omega)]

theorem decode_isSome {a : DateArguments} {stack : Int × Int × Int} :
    (a.decode stack).isSome ↔ a.AcceptsDate ∧ AcceptsTime (scanTime a.time.val stack) := by
  rw [Option.isSome_iff_exists]
  constructor
  · rintro ⟨t, ht⟩
    obtain ⟨hdate, htime, -⟩ := decode_eq_some.mp ht
    exact ⟨hdate, htime⟩
  · rintro ⟨hdate, htime⟩
    obtain ⟨i, hi⟩ := Option.isSome_iff_exists.mp hdate.dayOfWeek
    obtain ⟨j, hj⟩ := Option.isSome_iff_exists.mp hdate.month
    exact ⟨_, decode_eq_some.mpr ⟨hdate, htime, i, j, hi, hj, rfl⟩⟩

end DateArguments

/-! ## The narrowing to the fields of the chip -/

theorem toNat_toUInt8 (i : Int) : ((toUInt8 i).toNat : Int) = i % 256 := by
  unfold toUInt8
  rw [UInt8.toNat_ofNat']
  omega

theorem toNat_toUInt8_eq {i : Int} (h0 : 0 ≤ i) (h1 : i ≤ 255) : ((toUInt8 i).toNat : Int) = i := by
  rw [toNat_toUInt8]
  omega

/-- Two decimal digits, one in each half of the byte. -/
def TwoDigits (bcd : UInt8) : Prop := bcd >>> 4 ≤ 9 ∧ bcd &&& 0xf ≤ 9

instance (bcd : UInt8) : Decidable (TwoDigits bcd) := inferInstanceAs (Decidable (_ ∧ _))

theorem convertToBCD_twoDigits {n : UInt8} (h : n.toNat ≤ 99) : TwoDigits (convertToBCD n) := by
  have hall : ∀ n : Fin 100, TwoDigits (convertToBCD (UInt8.ofNat n)) := by decide +kernel
  have hn := hall ⟨n.toNat, by omega⟩
  rwa [UInt8.ofNat_toNat] at hn

/-- The name at the index of the table. -/
def NamedBy (names : List String) (index : UInt8) (name : Argument) : Prop :=
  ∃ n, names[index.toNat]? = some n ∧ name.val = lit n

theorem namedBy_of_index {names : List String} {name : Argument} {i : Nat}
    (h : indexOfName names name = some i) (hlen : names.length ≤ 255) :
    NamedBy names (toUInt8 i) name := by
  obtain ⟨n, hn, hname⟩ := indexOfName_eq_some h
  have hi : i < names.length := (List.getElem?_eq_some_iff.mp hn).1
  have hnat : ((toUInt8 i).toNat : Int) = i := toNat_toUInt8_eq (by omega) (by omega)
  refine ⟨n, ?_, hname⟩
  rwa [show (toUInt8 i).toNat = i by omega]

/-- The stored date is the typed one, and valid for the chip. `time` is the typed time. -/
structure StoredAsTyped (a : DateArguments) (time : Int × Int × Int) (t : RtcDateTime) : Prop where
  year : (t.year.toNat : Int) + 2000 = atoi a.year.val
  yearDigits : t.year.toNat ≤ 99 ∧ TwoDigits (convertToBCD t.year)
  hours : (t.hours.toNat : Int) = time.1 ∧ t.hours.toNat ≤ 23
  minutes : (t.minutes.toNat : Int) = time.2.1 ∧ t.minutes.toNat ≤ 59
  seconds : (t.seconds.toNat : Int) = time.2.2 ∧ t.seconds.toNat ≤ 59
  day : (t.day.toNat : Int) = atoi a.day.val ∧ 1 ≤ t.day.toNat ∧ t.day.toNat ≤ 31
  dayOfWeek : NamedBy daysOfWeek t.dayOfWeek a.dayOfWeekName
  month : NamedBy months t.month a.monthName

/-- **Accepted dates.** A date that is accepted with a complete time is stored as it was typed, valid
for the chip, if and only if its day is at least 1, its hour at most 23 and its year at most 2099. -/
theorem accepted_date_stored_iff {a : DateArguments} {t : RtcDateTime} {hour minute second : Int}
    (stack : Int × Int × Int) (hscan : scanInts 3 a.time.val = [hour, minute, second])
    (h : a.decode stack = some t) :
    StoredAsTyped a (hour, minute, second) t ↔
      1 ≤ atoi a.day.val ∧ hour ≤ 23 ∧ atoi a.year.val ≤ 2099 := by
  have htime : scanTime a.time.val stack = (hour, minute, second) := by
    rw [scanTime_eq, hscan]
    rfl
  obtain ⟨hdate, haccepts, i, j, hi, hj, rfl⟩ := DateArguments.decode_eq_some.mp h
  rw [htime] at haccepts ⊢
  obtain ⟨⟨hhour, hhour'⟩, ⟨hminute, hminute'⟩, ⟨hsecond, hsecond'⟩⟩ := haccepts
  dsimp only at hhour hhour' hminute hminute' hsecond hsecond'
  have hhours := toNat_toUInt8_eq hhour (by omega)
  have hminutes := toNat_toUInt8_eq hminute (by omega)
  have hseconds := toNat_toUInt8_eq hsecond (by omega)
  have hday := toNat_toUInt8_eq hdate.day.1 (by have := hdate.day.2; omega)
  have hyear := toNat_toUInt8 (atoi a.year.val - 2000)
  obtain ⟨hyear0, -⟩ := hdate.year
  obtain ⟨-, hday1⟩ := hdate.day
  constructor
  · intro hstored
    have hstoredHour := hstored.hours
    have hstoredDay := hstored.day
    have hstoredYear := hstored.year
    have hdigits := hstored.yearDigits.1
    dsimp only at hstoredHour hstoredDay hstoredYear hdigits
    omega
  · rintro ⟨hday0, hhour23, hyear1⟩
    have hdigits : (toUInt8 (atoi a.year.val - 2000)).toNat ≤ 99 := by omega
    exact {
      year := by dsimp only; omega
      yearDigits := ⟨hdigits, convertToBCD_twoDigits hdigits⟩
      hours := ⟨hhours, by dsimp only; omega⟩
      minutes := ⟨hminutes, by dsimp only; omega⟩
      seconds := ⟨hseconds, by dsimp only; omega⟩
      day := ⟨hday, by dsimp only; omega, by dsimp only; omega⟩
      dayOfWeek := namedBy_of_index hi (by decide)
      month := namedBy_of_index hj (by decide) }

/-- The first of January of a year, with a time. -/
def newYear (year time : Argument) : DateArguments :=
  ⟨⟨lit "Mon", by decide +kernel⟩, ⟨lit "1", by decide +kernel⟩, ⟨lit "Jan", by decide +kernel⟩,
    year, time⟩

def halfPastTwelve : Argument := ⟨lit "12:30:00", by decide +kernel⟩

theorem newYear_2018_stored :
    StoredAsTyped (newYear ⟨lit "2018", by decide +kernel⟩ halfPastTwelve) (12, 30, 0)
      ⟨0, 30, 12, 0, 1, 0, 18⟩ :=
  (accepted_date_stored_iff (0, 0, 0) (by decide +kernel) (by decide +kernel)).mpr
    (by decide +kernel)

/-- The year 2300 is accepted and stored as 2044. -/
theorem newYear_2300_not_stored :
    (newYear ⟨lit "2300", by decide +kernel⟩ halfPastTwelve).decode (0, 0, 0) =
        some ⟨0, 30, 12, 0, 1, 0, 44⟩ ∧
      scanInts 3 halfPastTwelve.val = [12, 30, 0] ∧
      ¬ StoredAsTyped (newYear ⟨lit "2300", by decide +kernel⟩ halfPastTwelve) (12, 30, 0)
        ⟨0, 30, 12, 0, 1, 0, 44⟩ := by
  refine ⟨by decide +kernel, by decide +kernel, fun hstored => ?_⟩
  have hyear : ((44 : Nat) : Int) + 2000 = atoi (lit "2300") := hstored.year
  exact absurd hyear (by decide +kernel)

/-! ## What the result depends on -/

/-- The result is that of the line alone: it is the same whatever the variables hold before, a time
without three integers is not accepted, and a line that is not accepted changes nothing. -/
structure LineDecides (a : DateArguments) : Prop where
  sameResult : ∀ stack stack', a.decode stack = a.decode stack'
  rejects : (scanInts 3 a.time.val).length ≠ 3 → ∀ stack, a.decode stack = none
  unchanged : ∀ (d : AppCommandData) (cmdIo : CmdIo) (program command : Argument)
    (stack : Int × Int × Int), a.decode stack = none →
      appCmdRTCDate d cmdIo (program :: command :: a.argv) stack = (d, [])

/-- A value of the time is out of its range. -/
def TimeRejected (values : List Int) : Prop :=
  ∃ p ∈ values.zip timeLimits, ¬ (0 ≤ p.1 ∧ p.1 ≤ p.2)

instance (values : List Int) : Decidable (TimeRejected values) :=
  inferInstanceAs (Decidable (∃ _ ∈ _, _))

/-- The time is rejected, whatever the variables hold, if one of its own values is. -/
theorem not_acceptsTime_of_rejected {s : List UInt8} (h : TimeRejected (scanInts 3 s))
    (stack : Int × Int × Int) : ¬ AcceptsTime (scanTime s stack) := by
  rw [scanTime_eq]
  rintro ⟨hhour, hminute, hsecond⟩
  obtain ⟨p, hp, hout⟩ := h
  generalize scanInts 3 s = values at hp hhour hminute hsecond
  cases values with
  | nil => cases hp
  | cons hour values =>
    rcases List.mem_cons.mp hp with rfl | hp
    · exact hout hhour
    cases values with
    | nil => cases hp
    | cons minute values =>
      rcases List.mem_cons.mp hp with rfl | hp
      · exact hout hminute
      cases values with
      | nil => cases hp
      | cons second values =>
        rcases List.mem_cons.mp hp with rfl | hp
        · exact hout hsecond
        · cases values <;> cases hp

/-- Otherwise it is accepted where the variables hold 0. -/
theorem acceptsTime_of_not_rejected {s : List UInt8} (h : ¬ TimeRejected (scanInts 3 s)) :
    AcceptsTime (scanTime s (0, 0, 0)) := by
  have hin (i : Nat) (limit : Int) (hlimit : timeLimits[i]? = some limit) (h0 : 0 ≤ limit) :
      0 ≤ (scanInts 3 s).getD i 0 ∧ (scanInts 3 s).getD i 0 ≤ limit := by
    rw [List.getD_eq_getElem?_getD]
    cases hvalue : (scanInts 3 s)[i]? with
    | none => exact ⟨Int.le_refl 0, h0⟩
    | some value =>
      by_contra hout
      refine h ⟨(value, limit), List.mem_iff_getElem?.mpr ⟨i, ?_⟩, hout⟩
      rw [List.getElem?_zip_eq_some]
      exact ⟨hvalue, hlimit⟩
  rw [scanTime_eq]
  exact ⟨hin 0 24 rfl (by decide), hin 1 59 rfl (by decide), hin 2 59 rfl (by decide)⟩

/-- **Decoding.** The line alone decides if and only if its time has three integers, or a value of the
time is out of range, or something before the time is not accepted. -/
theorem line_decides_iff (a : DateArguments) :
    LineDecides a ↔ (scanInts 3 a.time.val).length = 3 ∨ TimeRejected (scanInts 3 a.time.val) ∨
      ¬ a.AcceptsDate := by
  constructor
  · intro hdecides
    by_contra hcond
    rw [not_or, not_or, not_not] at hcond
    obtain ⟨hlen, htime, hdate⟩ := hcond
    have hsome := DateArguments.decode_isSome.mpr ⟨hdate, acceptsTime_of_not_rejected htime⟩
    rw [hdecides.rejects hlen] at hsome
    cases hsome
  · intro hcond
    have hnone (hrejected : TimeRejected (scanInts 3 a.time.val) ∨ ¬ a.AcceptsDate) (stack) :
        a.decode stack = none := by
      rw [← Option.not_isSome_iff_eq_none, DateArguments.decode_isSome]
      rintro ⟨hdate, htime⟩
      rcases hrejected with hvalue | hdate'
      · exact not_acceptsTime_of_rejected hvalue stack htime
      · exact hdate' hdate
    refine ⟨fun stack stack' => ?_, fun hlen => ?_, fun d cmdIo program command stack hdecode => ?_⟩
    · rcases hcond with hlen | hrejected
      · obtain ⟨hour, minute, second, hscan⟩ := List.length_eq_three.mp hlen
        unfold DateArguments.decode dateDecode
        rw [scanTime_eq, scanTime_eq, hscan]
        rfl
      · rw [hnone hrejected, hnone hrejected]
    · exact hnone (hcond.resolve_left hlen)
    · unfold DateArguments.decode at hdecode
      simp only [appCmdRTCDate, DateArguments.argv, hdecode]

/-- The time `12:30` is accepted with the second that the variable holds. -/
theorem short_time_not_decided :
    (newYear ⟨lit "2018", by decide +kernel⟩ ⟨lit "12:30", by decide +kernel⟩).decode (0, 0, 7) =
        some ⟨7, 30, 12, 0, 1, 0, 18⟩ ∧
      (newYear ⟨lit "2018", by decide +kernel⟩ ⟨lit "12:30", by decide +kernel⟩).decode (0, 0, 99) =
        none ∧
      ¬ LineDecides (newYear ⟨lit "2018", by decide +kernel⟩ ⟨lit "12:30", by decide +kernel⟩) := by
  have hseven : (newYear ⟨lit "2018", by decide +kernel⟩ ⟨lit "12:30", by decide +kernel⟩).decode
      (0, 0, 7) = some ⟨7, 30, 12, 0, 1, 0, 18⟩ := by decide +kernel
  refine ⟨hseven, by decide +kernel, fun hdecides => ?_⟩
  rw [hdecides.rejects (by decide +kernel)] at hseven
  cases hseven

/-! ## Showing the date -/

/-- The application when the callback has started and the clock has been polled. -/
def dateShowRun (app : AppData) (cmdIo : Option CmdIo) (start : I2cAnswers)
    (polls : List I2cAnswers) : AppData :=
  let started := (performRTCDateShow start app cmdIo .invoke).2.1
  started.setRtcView (Rtc.machine.run started.rtcView (polls.map .tasks))

/-- The next call of the callback prints the date. -/
def PrintsDate (answers : I2cAnswers) (app : AppData) (cmdIo : Option CmdIo) (t : RtcDateTime) :
    Prop :=
  .print cmdIo (.date t) ∈ (performRTCDateShow answers app cmdIo .update).2.2

/-- The indexes of the printed names are in the tables. -/
def InTables (dayOfWeek month : UInt8) : Prop :=
  dayOfWeek.toNat < daysOfWeek.length ∧ month.toNat < months.length

instance (dayOfWeek month : UInt8) : Decidable (InTables dayOfWeek month) :=
  inferInstanceAs (Decidable (_ ∧ _))

/-- What decides over the two indexes. If the driver does not take the transfer, it is what the union
held; if the transfer fails, so are the bytes that were not received, and those that were are not
converted. -/
def ShowsInTables (app : AppData) (start : I2cAnswers) (polls : List I2cAnswers) : Prop :=
  let union (i : Nat) : UInt8 := app.command.rtc.memory (commandRTCAddress.toNat + i)
  if Accepts app.rtcView start then
    match polls.find? fun answers => answers.transferStatus ≠ .pending with
    | none => True
    | some answers =>
      if answers.transferStatus = .complete then
        answers.received 3 &&& 7 ≠ 7 ∧ answers.received 5 &&& 0xf ≤ 11
      else
        let stored (i : Nat) := if i < answers.numReceived then answers.received i else union i
        InTables (stored 3) (stored 5)
  else InTables (union 3) (union 5)

theorem printsDate_iff {answers : I2cAnswers} {app : AppData} {cmdIo : Option CmdIo}
    {t : RtcDateTime} : PrintsDate answers app cmdIo t ↔ rtcIsBusy app.rtc = false ∧
      t = .ofBytes (app.command.rtc.load RtcDateTime.size) := by
  unfold PrintsDate performRTCDateShow performRTC
  cases rtcIsBusy app.rtc <;> simp

/-- The start of an operation leaves the callers' memory alone. -/
theorem start_memory (op : RtcOperation) (v : RtcView) (answers : I2cAnswers) :
    (op.start v answers).1.memory = v.memory := by
  have hprepare : (op.prepare v).memory = v.memory := by cases op <;> rfl
  rw [op.start_eq]
  rcases startTransfer_cases (op.prepare v) answers op.transmitted op.receive with
    ⟨-, heq⟩ | ⟨-, handle, heq⟩
  · rw [heq]
    exact hprepare
  · rw [heq]
    exact hprepare

/-- Polls of a clock that is not busy. -/
theorem run_polls_idle {v : RtcView} (h : rtcIsBusy v.rtc = false) (polls : List I2cAnswers) :
    Rtc.machine.run v (polls.map .tasks) = v := by
  induction polls with
  | nil => rfl
  | cons answers polls ih =>
    have hstep : (Rtc.machine.step v (.tasks answers)).1 = v :=
      congrArg Prod.fst (rtcTasks_idle h answers)
    rw [List.map_cons, Machine.run_cons, hstep]
    exact ih

/-- The first poll that finds the transfer finished ends it. -/
theorem run_polls {v : RtcView} (hdone : ∀ answers, answers.transferStatus ≠ .pending →
      rtcIsBusy (rtcTasks v answers).1.rtc = false) (polls : List I2cAnswers) :
    Rtc.machine.run v (polls.map .tasks) =
      match polls.find? fun answers => answers.transferStatus ≠ .pending with
      | none => v
      | some answers => (rtcTasks v answers).1 := by
  induction polls with
  | nil => rfl
  | cons answers polls ih =>
    rw [List.map_cons, Machine.run_cons, List.find?_cons]
    by_cases hpending : answers.transferStatus = .pending
    · have hstep : (Rtc.machine.step v (.tasks answers)).1 = v :=
        congrArg Prod.fst (rtcTasks_pending hpending)
      rw [hstep, ih]
      simp [hpending]
    · simp only [ne_eq, hpending, not_false_eq_true, decide_true]
      exact run_polls_idle (hdone answers hpending) polls

/-- The bytes of the date in the union, as the tables are indexed. -/
theorem ofBytes_load (d : AppCommandRTCData) :
    (RtcDateTime.ofBytes (d.load RtcDateTime.size)).dayOfWeek =
        d.memory (commandRTCAddress.toNat + 3) ∧
      (RtcDateTime.ofBytes (d.load RtcDateTime.size)).month =
        d.memory (commandRTCAddress.toNat + 5) := ⟨rfl, rfl⟩

theorem dayOfWeek_inTables (b : UInt8) :
    (convertFromBCD (b &&& 7)).toNat < daysOfWeek.length ↔ b &&& 7 ≠ 7 := by
  have hall : ∀ n : Fin 256, (convertFromBCD (UInt8.ofNat n &&& 7)).toNat < daysOfWeek.length ↔
      UInt8.ofNat n &&& 7 ≠ 7 := by decide +kernel
  have hb := hall ⟨b.toNat, b.toNat_lt⟩
  rwa [UInt8.ofNat_toNat] at hb

theorem month_inTables (b : UInt8) :
    (convertFromBCD (b &&& 0xf)).toNat < months.length ↔ b &&& 0xf ≤ 11 := by
  have hall : ∀ n : Fin 256, (convertFromBCD (UInt8.ofNat n &&& 0xf)).toNat < months.length ↔
      UInt8.ofNat n &&& 0xf ≤ 11 := by decide +kernel
  have hb := hall ⟨b.toNat, b.toNat_lt⟩
  rwa [UInt8.ofNat_toNat] at hb

section Waiting

variable {v : RtcView} {answers : I2cAnswers}

/-- The read is complete: the date is converted from the received registers. -/
theorem tasks_dateRead (h : (RtcOperation.readDateAndTime commandRTCAddress).Waiting v)
    (hs : answers.transferStatus = .complete) :
    (rtcTasks v answers).1.rtc.state = .none ∧
      (rtcTasks v answers).1.memory.load commandRTCAddress.toNat 7 =
        (dateTimeOfRegisters (.ofBytes (RtcOperation.firstBytes answers.received 7))).bytes := by
  rw [rtcTasks_complete h.state hs]
  exact Board.runNextTask_convert (RtcOperation.deliver_served h answers).1 answers

/-- The read has failed: the received bytes stay as they are. -/
theorem tasks_dateFailed (h : (RtcOperation.readDateAndTime commandRTCAddress).Waiting v)
    (hs : answers.transferStatus = .error) :
    (rtcTasks v answers).1.rtc.state = .error ∧
      ∀ i < 7, (rtcTasks v answers).1.memory (commandRTCAddress.toNat + i) =
        if i < answers.numReceived then answers.received i
        else v.memory (commandRTCAddress.toNat + i) := by
  rw [rtcTasks_error h.state hs]
  refine ⟨rfl, fun i hi => ?_⟩
  unfold RtcView.deliver
  rw [h.receive]
  simp only [RtcOperation.receive, RtcView.setState, RtcView.put, Memory.store]
  rw [if_pos (Nat.le_add_right _ _), Nat.add_sub_cancel_left]
  by_cases hreceived : i < answers.numReceived
  · rw [List.getElem?_map, List.getElem?_range (by simp [RtcDateTime.size]; omega)]
    simp [hreceived]
  · rw [List.getElem?_eq_none (by simp [RtcDateTime.size]; omega)]
    simp [hreceived]

end Waiting

/-- **Showing the date.** When the date is printed, the indexes of the two names are in the tables if
and only if the registers, or what a failed read leaves in the union, hold such indexes. -/
theorem shown_date_in_tables_iff (answers : I2cAnswers) (cmdIo : Option CmdIo) {app : AppData}
    {start : I2cAnswers} {polls : List I2cAnswers} {t : RtcDateTime}
    (h : PrintsDate answers (dateShowRun app cmdIo start polls) cmdIo t) :
    InTables t.dayOfWeek t.month ↔ ShowsInTables app start polls := by
  obtain ⟨hidle, rfl⟩ := printsDate_iff.mp h
  rw [(ofBytes_load _).1, (ofBytes_load _).2]
  have hrun : (dateShowRun app cmdIo start polls).rtcView = Rtc.machine.run
      ((RtcOperation.readDateAndTime commandRTCAddress).start app.rtcView start).1
      (polls.map .tasks) := rfl
  change rtcIsBusy (dateShowRun app cmdIo start polls).rtcView.rtc = false at hidle
  change InTables ((dateShowRun app cmdIo start polls).rtcView.memory _)
    ((dateShowRun app cmdIo start polls).rtcView.memory _) ↔ _
  rw [hrun] at hidle ⊢
  have hmemory := start_memory (.readDateAndTime commandRTCAddress) app.rtcView start
  have hcases := RtcOperation.start_cases (.readDateAndTime commandRTCAddress) (v := app.rtcView)
    start (fun hnone => by cases hnone)
  generalize ((RtcOperation.readDateAndTime commandRTCAddress).start app.rtcView start).1 = v
    at hidle hmemory hcases ⊢
  unfold ShowsInTables
  rcases hcases with ⟨hacc, hwait, -⟩ | ⟨hacc, hstate, -⟩
  · have hdone (answers : I2cAnswers) (hs : answers.transferStatus ≠ .pending) :
        rtcIsBusy (rtcTasks v answers).1.rtc = false := by
      cases hstatus : answers.transferStatus with
      | complete => rw [rtcIsBusy, (tasks_dateRead hwait hstatus).1]; rfl
      | error => rw [rtcIsBusy, (tasks_dateFailed hwait hstatus).1]; rfl
      | pending => exact absurd hstatus hs
    rw [if_pos hacc]
    rw [run_polls hdone] at hidle ⊢
    cases hfind : polls.find? fun answers => answers.transferStatus ≠ .pending with
    | none =>
      rw [hfind] at hidle
      rw [(rtcIsBusy_iff _).mpr hwait.state] at hidle
      cases hidle
    | some answers =>
      dsimp only
      cases hstatus : answers.transferStatus with
      | complete =>
        have hload := (tasks_dateRead hwait hstatus).2
        have hday : (rtcTasks v answers).1.memory (commandRTCAddress.toNat + 3) =
            convertFromBCD (answers.received 3 &&& 7) := congrArg (fun bs => bs.getD 3 0) hload
        have hmonth : (rtcTasks v answers).1.memory (commandRTCAddress.toNat + 5) =
            convertFromBCD (answers.received 5 &&& 0xf) := congrArg (fun bs => bs.getD 5 0) hload
        rw [if_pos rfl, ← dayOfWeek_inTables, ← month_inTables, hday, hmonth]
        exact Iff.rfl
      | error =>
        have hstored := (tasks_dateFailed hwait hstatus).2
        rw [if_neg (by decide), hstored 3 (by decide), hstored 5 (by decide), hmemory]
        exact Iff.rfl
      | pending =>
        have hnot := List.find?_some hfind
        simp [hstatus] at hnot
  · rw [if_neg hacc, run_polls_idle (by rw [rtcIsBusy, hstate]; rfl), hmemory]
    exact Iff.rfl

/-- A read that is complete at the first poll, of registers with the bytes. -/
def dateRead (registers : List UInt8) : I2cAnswers :=
  ⟨.complete, (registers.getD · 0), 7, .complete, 1⟩

/-- Sunday, the first of January 2018. -/
theorem sunday_in_tables :
    InTables 6 0 ↔ ShowsInTables .zeroed (dateRead []) [dateRead [0, 0, 0, 6, 1, 0, 0x18]] :=
  shown_date_in_tables_iff (dateRead []) none (t := ⟨0, 0, 0, 6, 1, 0, 18⟩)
    (printsDate_iff.mpr (by decide +kernel))

/-- The week day 7 is read from the registers and has no name. -/
theorem eighth_day_not_in_tables :
    PrintsDate (dateRead [])
        (dateShowRun .zeroed none (dateRead []) [dateRead [0, 0, 0, 7, 1, 0, 0x18]]) none
        ⟨0, 0, 0, 7, 1, 0, 18⟩ ∧
      ¬ InTables 7 0 :=
  ⟨printsDate_iff.mpr (by decide +kernel), by decide⟩

end NixieTracker
