/-
  SparkNet.Calendar — the day in the name of a log file.

  `GetDayStr` (`include/TimeHelper.h`) and `CLog::setLogAtt` stream the
  `floor<days>` of a time: the calendar of the bundled `date`
  (`include/date/date.h`) makes year, month and day of the number of a day, and
  prints them.  A time is in nanoseconds from the first day of 1970.

  Main results:
    * `days_iff_dates` — numbers of days and dates are the same thing, and the
      order of dates is that of days;
    * `dayStr_lt_iff` — the texts of the days sort as the days;
    * `logFiles_sorted` — so do the log files of a program.
-/
import SparkNet.LogConfig
import SparkNet.Numerals
import SparkNet.RotatingSink

namespace SparkNet

/-! ## §1. Days and dates. -/

/-- Nanoseconds to a day. -/
def nanosPerDay : Int := 86400000000000

/-- `floor<days>`, for which the division of durations truncates. -/
def floorDays (time : Int) : Int :=
  let t := time.tdiv nanosPerDay
  if time < t * nanosPerDay then t - 1 else t

structure YearMonthDay where
  /-- A `short`. -/
  year : BitVec 16
  month : Nat
  day : Nat
  deriving DecidableEq, Repr

namespace YearMonthDay

/-- `year_month_day::from_days`. -/
def fromDays (dp : Int) : YearMonthDay :=
  let z := dp + 719468
  let era := (if 0 ≤ z then z else z - 146096).tdiv 146097
  let doe := (z - era * 146097).toNat
  let yoe := (doe - doe / 1460 + doe / 36524 - doe / 146096) / 365
  let y : Int := yoe + era * 400
  let doy := doe - (365 * yoe + yoe / 4 - yoe / 100)
  let mp := (5 * doy + 2) / 153
  let d := doy - (153 * mp + 2) / 5 + 1
  let m := if mp < 10 then mp + 3 else mp - 9
  ⟨BitVec.ofInt 16 (y + if m ≤ 2 then 1 else 0), m, d⟩

def toDays (self : YearMonthDay) : Int :=
  let y := self.year.toInt - if self.month ≤ 2 then 1 else 0
  let m := self.month
  let d := self.day
  let era := (if 0 ≤ y then y else y - 399).tdiv 400
  let yoe := (y - era * 400).toNat
  -- `unsigned` wraps: the day before the first of March is no day of the year
  let doy := BitVec.ofNat 32 ((153 * (if 2 < m then m - 3 else m + 9) + 2) / 5 + d) - 1#32
  let doe := BitVec.ofNat 32 (yoe * 365 + yoe / 4 - yoe / 100) + doy
  era * 146097 + doe.toInt - 719468

/-- `year::is_leap`. -/
def isLeap (y : BitVec 16) : Bool :=
  y.toInt.tmod 4 == 0 && (y.toInt.tmod 100 != 0 || y.toInt.tmod 400 == 0)

/-- `year::ok`, `month::ok`, `day::ok`. -/
def yearOk (y : BitVec 16) : Bool := y.toInt != -32768

def monthOk (m : Nat) : Bool := 1 ≤ m && m ≤ 12

def dayOk (d : Nat) : Bool := 1 ≤ d && d ≤ 31

/-- `year_month_day_last::day`. -/
def lastDay (y : BitVec 16) (m : Nat) : Nat :=
  if (m ≠ 2 ∨ isLeap y = false) ∧ monthOk m = true then
    [31, 28, 31, 30, 31, 30, 31, 31, 30, 31, 30, 31].getD (m - 1) 29
  else 29

def ok (self : YearMonthDay) : Bool :=
  yearOk self.year && monthOk self.month && 1 ≤ self.day
    && self.day ≤ lastDay self.year self.month

/-- `operator<`. -/
def lt (x y : YearMonthDay) : Bool :=
  if x.year.toInt < y.year.toInt then true
  else if y.year.toInt < x.year.toInt then false
  else if x.month < y.month then true
  else if y.month < x.month then false
  else x.day < y.day

end YearMonthDay

/-! ## §2. The divisions. -/

/-- The division of the code rounds down. -/
theorem floorDays_eq (time : Int) : floorDays time = time / nanosPerDay := by
  unfold floorDays nanosPerDay
  rw [Int.tdiv_eq_ediv, show Int.sign 86400000000000 = 1 from rfl]
  dsimp only
  split_ifs <;> omega

/-- So does the one of the eras, -/
theorem era_of_days (z : Int) :
    (if 0 ≤ z then z else z - 146096).tdiv 146097 = z / 146097 := by
  rw [Int.tdiv_eq_ediv, show Int.sign 146097 = 1 from rfl]
  split_ifs <;> omega

theorem era_of_year (y : Int) : (if 0 ≤ y then y else y - 399).tdiv 400 = y / 400 := by
  rw [Int.tdiv_eq_ediv, show Int.sign 400 = 1 from rfl]
  split_ifs <;> omega

/-- and a leap year is one. -/
theorem isLeap_iff (y : BitVec 16) : YearMonthDay.isLeap y = true
    ↔ y.toInt % 4 = 0 ∧ (y.toInt % 100 ≠ 0 ∨ y.toInt % 400 = 0) := by
  have hmod : ∀ n : Int, y.toInt.tmod n = 0 ↔ y.toInt % n = 0 := fun n => by
    rw [← Int.dvd_iff_tmod_eq_zero, Int.dvd_iff_emod_eq_zero]
  simp [YearMonthDay.isLeap, hmod]

/-- A day of an era in centuries, groups of four years, and days. -/
theorem doe_split {doe : Nat} (h : doe < 146097) : ∃ c q r, c ≤ 3 ∧ q ≤ 24 ∧ r ≤ 1460
    ∧ doe = 36524 * c + 1461 * q + r ∧ (c < 3 → q = 24 → r ≤ 1459) := by
  by_cases hlast : doe = 146096
  · exact ⟨3, 24, 1460, by omega, by omega, by omega, by omega, by omega⟩
  · refine ⟨doe / 36524, doe % 36524 / 1461, doe % 36524 % 1461, ?_, ?_, ?_, ?_, ?_⟩ <;> omega

/-- The year of the era. -/
theorem yoe_eq {c q r doe : Nat} (hc : c ≤ 3) (hq : q ≤ 24) (hr : r ≤ 1460)
    (hlast : c < 3 → q = 24 → r ≤ 1459) (hdoe : doe = 36524 * c + 1461 * q + r) :
    (doe - doe / 1460 + doe / 36524 - doe / 146096) / 365 = 100 * c + 4 * q + min (r / 365) 3 := by
  by_cases hend : doe = 146096
  · obtain ⟨rfl, rfl, rfl⟩ : c = 3 ∧ q = 24 ∧ r = 1460 := by omega
    rw [hend]
    rfl
  · have hcarry : (24 * c + q + r) / 1460 ≤ 1 := by omega
    have h1460 : doe / 1460 = 25 * c + q + (24 * c + q + r) / 1460 := by
      have hsum : doe = 1460 * (25 * c + q) + (24 * c + q + r) := by omega
      rw [hsum, Nat.mul_add_div (by decide)]
    have h36524 : doe / 36524 = c := by
      rw [hdoe, Nat.add_assoc, Nat.mul_add_div (by decide), Nat.div_eq_of_lt (by omega)]
      rfl
    have h146096 : doe / 146096 = 0 := Nat.div_eq_of_lt (by omega)
    rw [h1460, h36524, h146096]
    -- a carry takes one day, never from the first day of a year
    have hyear : (r - (24 * c + q + r) / 1460) / 365 = min (r / 365) 3 := by omega
    have hdays : doe - (25 * c + q + (24 * c + q + r) / 1460) + c - 0
        = 365 * (100 * c + 4 * q) + (r - (24 * c + q + r) / 1460) := by
      omega
    rw [hdays, Nat.mul_add_div (by decide), hyear]

/-! ## §3. Days of an era. -/

/-- Day `doy` of year `yoe` of an era; years begin in March, and a last day 365 is
a leap day. -/
structure InEra (yoe doy : Nat) : Prop where
  year : yoe < 400
  day : doy ≤ 365
  leap : doy = 365 → (yoe + 1) % 4 = 0 ∧ ((yoe + 1) % 100 ≠ 0 ∨ (yoe + 1) % 400 = 0)

/-- Its number in the era. -/
def dayOfEra (yoe doy : Nat) : Nat := yoe * 365 + yoe / 4 - yoe / 100 + doy

/-- The code's year of the era. -/
def yearOfEra (doe : Nat) : Nat := (doe - doe / 1460 + doe / 36524 - doe / 146096) / 365

/-- The year in centuries, groups of four years, and years. -/
theorem dayOfEra_eq {c q y : Nat} (hq : q ≤ 24) (hy : y ≤ 3) (doy : Nat) :
    dayOfEra (100 * c + 4 * q + y) doy = 36524 * c + 1461 * q + (365 * y + doy) := by
  have h4 : (100 * c + 4 * q + y) / 4 = 25 * c + q := by omega
  have h100 : (100 * c + 4 * q + y) / 100 = c := by omega
  unfold dayOfEra
  rw [h4, h100]
  omega

theorem inEra_of_lt {doe : Nat} (h : doe < 146097) :
    ∃ yoe doy, InEra yoe doy ∧ doe = dayOfEra yoe doy := by
  obtain ⟨c, q, r, hc, hq, hr, hdoe, hlast⟩ := doe_split h
  obtain ⟨y, doy, hy, hr', hdoy⟩ : ∃ y doy, y ≤ 3 ∧ r = 365 * y + doy
      ∧ (doy ≤ 364 ∨ doy = 365 ∧ y = 3) := by
    by_cases hleap : r = 1460
    · exact ⟨3, 365, le_rfl, by omega, Or.inr ⟨rfl, rfl⟩⟩
    · exact ⟨r / 365, r % 365, by omega, by omega, by omega⟩
  refine ⟨100 * c + 4 * q + y, doy, ⟨by omega, by omega, fun h365 => ?_⟩, ?_⟩
  · -- a leap day is not in the last year of a century, but in that of the era
    obtain hdoy | ⟨_, rfl⟩ := hdoy
    · omega
    · by_cases hc3 : c = 3
      · omega
      · have := hlast (by omega)
        omega
  · rw [dayOfEra_eq hq hy, ← hr', hdoe]

theorem InEra.lt {yoe doy : Nat} (h : InEra yoe doy) : dayOfEra yoe doy < 146097 := by
  have hyear := h.year
  have hday := h.day
  unfold dayOfEra
  by_cases hlast : yoe = 399
  · subst hlast
    omega
  · omega

/-- The code finds the year again. -/
theorem InEra.yearOfEra {yoe doy : Nat} (h : InEra yoe doy) :
    yearOfEra (dayOfEra yoe doy) = yoe := by
  have hyear := h.year
  obtain ⟨c, q, y, rfl, hc, hq, hy⟩ : ∃ c q y, yoe = 100 * c + 4 * q + y ∧ c ≤ 3 ∧ q ≤ 24
      ∧ y ≤ 3 := ⟨yoe / 100, yoe % 100 / 4, yoe % 4, by omega, by omega, by omega, by omega⟩
  have hday := h.day
  have hleap : doy = 365 → y = 3 ∧ (q = 24 → c = 3) := by
    intro h365
    obtain ⟨h4, h100⟩ := h.leap h365
    omega
  have hyoe := yoe_eq (c := c) (q := q) (r := 365 * y + doy) hc hq (by omega) (by omega)
    (dayOfEra_eq hq hy doy)
  unfold SparkNet.yearOfEra
  rw [hyoe]
  omega

/-- Days of the eras are ordered by year, then by day. -/
theorem InEra.lt_iff {yoe doy yoe' doy' : Nat} (h : InEra yoe doy) (h' : InEra yoe' doy')
    (era era' : Int) :
    era * 146097 + dayOfEra yoe doy < era' * 146097 + dayOfEra yoe' doy'
      ↔ era * 400 + yoe < era' * 400 + yoe' ∨ era * 400 + yoe = era' * 400 + yoe' ∧ doy < doy' := by
  have hlater : ∀ {k j k' j' : Nat}, InEra k j → InEra k' j' → k < k' →
      dayOfEra k j < dayOfEra k' j' := by
    intro k j k' j' hj hj' hlt
    have hstart : dayOfEra (k + 1) 0 ≤ dayOfEra k' j' := by
      have h4 : (k + 1) / 4 ≤ k' / 4 := Nat.div_le_div_right hlt
      have h100 : k' / 100 ≤ (k + 1) / 100 + (k' - (k + 1)) := by omega
      unfold dayOfEra
      omega
    have hnext : dayOfEra k j < dayOfEra (k + 1) 0 := by
      have hyear' := hj'.year
      have hday := hj.day
      have hleap := hj.leap
      unfold dayOfEra
      by_cases h365 : j = 365
      · obtain ⟨h4, h100⟩ := hleap h365
        omega
      · omega
    omega
  have hlt := h.lt
  have hlt' := h'.lt
  have hyear := h.year
  have hyear' := h'.year
  have hsame : yoe = yoe' → (dayOfEra yoe doy < dayOfEra yoe' doy' ↔ doy < doy') := by
    rintro rfl
    unfold dayOfEra
    omega
  have hbefore := hlater h h'
  have hafter := hlater h' h
  omega

/-! ## §4. Months. -/

/-- The days of the months, from March on. -/
def monthLength (mp : Nat) : Nat := [31, 30, 31, 30, 31, 31, 30, 31, 30, 31, 31, 29].getD mp 0

/-- Month and day of a day of the year. -/
theorem month_of_day {doy mp : Nat} (h : doy ≤ 365) (hmp : mp = (5 * doy + 2) / 153) :
    mp ≤ 11 ∧ (153 * mp + 2) / 5 ≤ doy ∧ doy - (153 * mp + 2) / 5 + 1 ≤ monthLength mp := by
  have hle : mp ≤ 11 := by omega
  refine ⟨hle, ?_⟩
  unfold monthLength
  interval_cases mp <;> simp only [List.getD_cons_zero, List.getD_cons_succ] <;> omega

/-- They lead back to it. -/
theorem day_of_month {mp d : Nat} (hmp : mp ≤ 11) (hd : 1 ≤ d) (hlen : d ≤ monthLength mp) :
    (153 * mp + 2) / 5 + d - 1 ≤ 365 ∧ (5 * ((153 * mp + 2) / 5 + d - 1) + 2) / 153 = mp := by
  unfold monthLength at hlen
  interval_cases mp <;> simp only [List.getD_cons_zero, List.getD_cons_succ] at hlen <;> omega

/-! ## §5. The calendar. -/

namespace YearMonthDay

/-- The first and the last day with a year. -/
def minDay : Int := -12687428

def maxDay : Int := 11248737

/-- A month that counts from March, as one of the year, -/
def monthOf (mp : Nat) : Nat := if mp < 10 then mp + 3 else mp - 9

/-- its year, -/
def civilYear (era : Int) (yoe mp : Nat) : Int := yoe + era * 400 + if mp < 10 then 0 else 1

/-- and the date of a day. -/
def dateOf (era : Int) (yoe doy : Nat) : YearMonthDay :=
  let mp := (5 * doy + 2) / 153
  ⟨BitVec.ofInt 16 (civilYear era yoe mp), monthOf mp, doy - (153 * mp + 2) / 5 + 1⟩

/-- A day is one of an era. -/
theorem exists_inEra (dp : Int) : ∃ era yoe doy, InEra yoe doy
    ∧ dp = era * 146097 + dayOfEra yoe doy - 719468 := by
  obtain ⟨yoe, doy, h, hdoe⟩ := inEra_of_lt
    (show ((dp + 719468) % 146097).toNat < 146097 by omega)
  exact ⟨(dp + 719468) / 146097, yoe, doy, h, by omega⟩

theorem fromDays_eq {yoe doy : Nat} (h : InEra yoe doy) (era : Int) :
    fromDays (era * 146097 + dayOfEra yoe doy - 719468) = dateOf era yoe doy := by
  have hlt := h.lt
  have hday := h.day
  have hera : (era * 146097 + dayOfEra yoe doy) / 146097 = era := by omega
  have hdoe : (era * 146097 + (dayOfEra yoe doy : Int) - era * 146097).toNat
      = dayOfEra yoe doy := by
    omega
  have hdoy : dayOfEra yoe doy - (365 * yoe + yoe / 4 - yoe / 100) = doy := by
    unfold dayOfEra
    omega
  have hyoe := h.yearOfEra
  unfold SparkNet.yearOfEra at hyoe
  unfold fromDays
  dsimp only
  rw [Int.sub_add_cancel, era_of_days, hera, hdoe, hyoe, hdoy]
  have hle := (month_of_day hday rfl).1
  unfold dateOf civilYear monthOf
  dsimp only
  congr 2
  split_ifs <;> omega

/-- A short holds the year. -/
theorem toInt_year {y : Int} (hmin : -32768 ≤ y) (hmax : y ≤ 32767) :
    (BitVec.ofInt 16 y).toInt = y := by
  rw [BitVec.toInt_ofInt]
  unfold Int.bmod
  dsimp only
  split_ifs <;> omega

/-- The days with a year. -/
theorem year_of_day {era : Int} {yoe doy : Nat} (h : InEra yoe doy) :
    minDay ≤ era * 146097 + dayOfEra yoe doy - 719468
        ∧ era * 146097 + dayOfEra yoe doy - 719468 ≤ maxDay
      ↔ -32767 ≤ civilYear era yoe ((5 * doy + 2) / 153)
        ∧ civilYear era yoe ((5 * doy + 2) / 153) ≤ 32767 := by
  -- the first of January of the first year, the last of December of the last
  have hfirst : InEra 32 306 := ⟨by decide, by decide, by decide⟩
  have hlast : InEra 367 305 := ⟨by decide, by decide, by decide⟩
  have hmin : minDay = -82 * 146097 + dayOfEra 32 306 - 719468 := by decide
  have hmax : maxDay = 81 * 146097 + dayOfEra 367 305 - 719468 := by decide
  have hbefore := h.lt_iff hfirst era (-82)
  have hafter := hlast.lt_iff h 81 era
  have hday := h.day
  have hyear : ∀ y : Int, civilYear era yoe ((5 * doy + 2) / 153) = y
      ↔ (doy < 306 ∧ era * 400 + yoe = y) ∨ (306 ≤ doy ∧ era * 400 + yoe + 1 = y) := by
    intro y
    unfold civilYear
    split_ifs <;> omega
  generalize civilYear era yoe ((5 * doy + 2) / 153) = y at hyear ⊢
  have hy := (hyear y).mp rfl
  rw [hmin, hmax]
  omega

theorem monthOk_monthOf {mp : Nat} (h : mp ≤ 11) : monthOk (monthOf mp) = true := by
  interval_cases mp <;> rfl

theorem lastDay_monthOf (y : BitVec 16) {mp : Nat} (h : mp ≤ 10) :
    lastDay y (monthOf mp) = monthLength mp := by
  unfold lastDay monthOf monthLength monthOk
  interval_cases mp <;> simp

theorem lastDay_february (y : BitVec 16) : lastDay y 2 = if isLeap y then 29 else 28 := by
  unfold lastDay monthOk
  cases isLeap y <;> simp

theorem isLeap_ofInt {era : Int} {yoe : Nat} (hmin : -32767 ≤ era * 400 + yoe)
    (hmax : era * 400 + yoe ≤ 32767) :
    isLeap (BitVec.ofInt 16 (yoe + era * 400)) = true
      ↔ yoe % 4 = 0 ∧ (yoe % 100 ≠ 0 ∨ yoe % 400 = 0) := by
  rw [isLeap_iff, toInt_year (by omega) (by omega)]
  omega

/-- The dates are good. -/
theorem ok_dateOf {era : Int} {yoe doy : Nat} (h : InEra yoe doy)
    (hmin : -32767 ≤ civilYear era yoe ((5 * doy + 2) / 153))
    (hmax : civilYear era yoe ((5 * doy + 2) / 153) ≤ 32767) : (dateOf era yoe doy).ok = true := by
  have hday := h.day
  obtain ⟨hmp, hstart, hlen⟩ := month_of_day hday rfl
  have hyear : (dateOf era yoe doy).year.toInt = civilYear era yoe ((5 * doy + 2) / 153) :=
    toInt_year (by omega) hmax
  have hyearOk : yearOk (dateOf era yoe doy).year = true := by
    simp only [yearOk, hyear, bne_iff_ne]
    omega
  have hmonthOk : monthOk (dateOf era yoe doy).month = true := monthOk_monthOf hmp
  have hlast : (dateOf era yoe doy).day ≤ lastDay (dateOf era yoe doy).year
      (dateOf era yoe doy).month := by
    show doy - (153 * ((5 * doy + 2) / 153) + 2) / 5 + 1
      ≤ lastDay (dateOf era yoe doy).year (monthOf ((5 * doy + 2) / 153))
    by_cases hfeb : (5 * doy + 2) / 153 = 11
    · -- in February a day 29 is the leap day
      have hcivil : civilYear era yoe 11 = (yoe + 1 : Nat) + era * 400 := by
        unfold civilYear
        omega
      rw [hfeb, hcivil] at hmin hmax
      have hyear' : (dateOf era yoe doy).year = BitVec.ofInt 16 ((yoe + 1 : Nat) + era * 400) := by
        show BitVec.ofInt 16 (civilYear era yoe ((5 * doy + 2) / 153)) = _
        rw [hfeb, hcivil]
      rw [hfeb, hyear', show monthOf 11 = 2 from rfl, lastDay_february]
      split
      · omega
      · rename_i hleap
        rw [isLeap_ofInt (by omega) (by omega)] at hleap
        have h365 : doy ≠ 365 := fun h365 => hleap (h.leap h365)
        omega
    · rw [lastDay_monthOf _ (by omega)]
      exact hlen
  unfold ok
  rw [hyearOk, hmonthOk]
  simp only [Bool.true_and, Bool.and_eq_true, decide_eq_true_eq]
  exact ⟨Nat.le_add_left 1 _, hlast⟩

/-- The `unsigned` of the way back does not wrap on the days of an era. -/
theorem toInt_doe {yoe doy : Nat} (h : InEra yoe doy) :
    (BitVec.ofNat 32 (yoe * 365 + yoe / 4 - yoe / 100) + (BitVec.ofNat 32 (doy + 1) - 1#32)).toInt
      = dayOfEra yoe doy := by
  have hlt := h.lt
  have hsum : BitVec.ofNat 32 (yoe * 365 + yoe / 4 - yoe / 100) + (BitVec.ofNat 32 (doy + 1) - 1#32)
      = BitVec.ofNat 32 (dayOfEra yoe doy) := by
    rw [BitVec.ofNat_add doy 1, BitVec.add_sub_cancel, ← BitVec.ofNat_add]
    rfl
  rw [hsum, BitVec.toInt_ofNat']
  apply Int.bmod_eq_of_le
  · omega
  · omega

/-- The way back. -/
theorem toDays_dateOf {era : Int} {yoe doy : Nat} (h : InEra yoe doy)
    (hmin : -32767 ≤ civilYear era yoe ((5 * doy + 2) / 153))
    (hmax : civilYear era yoe ((5 * doy + 2) / 153) ≤ 32767) :
    (dateOf era yoe doy).toDays = era * 146097 + dayOfEra yoe doy - 719468 := by
  obtain ⟨hmp, hstart, _⟩ := month_of_day h.day rfl
  have hyear : (dateOf era yoe doy).year.toInt = civilYear era yoe ((5 * doy + 2) / 153) :=
    toInt_year (by omega) hmax
  have hmonth : (dateOf era yoe doy).month = monthOf ((5 * doy + 2) / 153) := rfl
  have hday : (dateOf era yoe doy).day = doy - (153 * ((5 * doy + 2) / 153) + 2) / 5 + 1 := rfl
  have hcivil : civilYear era yoe ((5 * doy + 2) / 153)
      - (if monthOf ((5 * doy + 2) / 153) ≤ 2 then 1 else 0) = yoe + era * 400 := by
    unfold civilYear monthOf
    split_ifs <;> omega
  have hback : (if 2 < monthOf ((5 * doy + 2) / 153) then monthOf ((5 * doy + 2) / 153) - 3
      else monthOf ((5 * doy + 2) / 153) + 9) = (5 * doy + 2) / 153 := by
    unfold monthOf
    split_ifs <;> omega
  have hlt := h.year
  have hera : ((yoe : Int) + era * 400) / 400 = era := by omega
  have hyoe : ((yoe : Int) + era * 400 - era * 400).toNat = yoe := by omega
  have hdoy : (153 * ((5 * doy + 2) / 153) + 2) / 5
      + (doy - (153 * ((5 * doy + 2) / 153) + 2) / 5 + 1) = doy + 1 := by omega
  unfold toDays
  dsimp only
  rw [hyear, hmonth, hday, hcivil, hback, era_of_year, hera, hyoe, hdoy, toInt_doe h]

/-- A good date is that of a day. -/
theorem exists_dateOf {x : YearMonthDay} (hok : x.ok = true) : ∃ era yoe doy, InEra yoe doy
    ∧ x = dateOf era yoe doy ∧ -32767 ≤ civilYear era yoe ((5 * doy + 2) / 153)
    ∧ civilYear era yoe ((5 * doy + 2) / 153) ≤ 32767 := by
  obtain ⟨year, month, day⟩ := x
  simp only [ok, yearOk, monthOk, Bool.and_eq_true, decide_eq_true_eq, bne_iff_ne] at hok
  obtain ⟨⟨⟨hyear, hmonth₁, hmonth₂⟩, hday⟩, hlast⟩ := hok
  obtain ⟨mp, hmp, rfl⟩ : ∃ mp ≤ 11, month = monthOf mp := by
    refine ⟨if 2 < month then month - 3 else month + 9, ?_, ?_⟩
    · split <;> omega
    · unfold monthOf
      split_ifs <;> omega
  have hlen : day ≤ monthLength mp := by
    by_cases hfeb : mp = 11
    · subst hfeb
      rw [show monthOf 11 = 2 from rfl, lastDay_february] at hlast
      show day ≤ 29
      split at hlast <;> omega
    · rwa [lastDay_monthOf _ (by omega)] at hlast
  obtain ⟨hle, hback⟩ := day_of_month hmp hday hlen
  have hmin := BitVec.le_toInt year
  have hmax := BitVec.toInt_lt (x := year)
  -- the year that began in March
  obtain ⟨era, yoe, hyoe, hcivil⟩ : ∃ (era : Int) (yoe : Nat), yoe < 400
      ∧ civilYear era yoe mp = year.toInt := by
    refine ⟨(year.toInt - if mp < 10 then 0 else 1) / 400,
      ((year.toInt - if mp < 10 then 0 else 1) % 400).toNat, by omega, ?_⟩
    unfold civilYear
    split <;> omega
  refine ⟨era, yoe, (153 * mp + 2) / 5 + day - 1, ⟨hyoe, hle, fun h365 => ?_⟩, ?_, ?_, ?_⟩
  · have hfeb : mp = 11 ∧ day = 29 := by
      rw [h365] at hback
      omega
    obtain ⟨rfl, rfl⟩ := hfeb
    rw [show monthOf 11 = 2 from rfl, lastDay_february] at hlast
    have hleap : isLeap year = true := by
      by_contra hnot
      rw [if_neg hnot] at hlast
      omega
    obtain ⟨h4, h100⟩ := (isLeap_iff year).mp hleap
    unfold civilYear at hcivil
    omega
  · unfold dateOf
    rw [hback]
    dsimp only
    rw [hcivil, BitVec.ofInt_toInt]
    congr 1
    omega
  · rw [hback, hcivil]
    omega
  · rw [hback, hcivil]
    omega

/-- By year, by month, and by day. -/
theorem lt_iff (x y : YearMonthDay) : x.lt y = true
    ↔ x.year.toInt < y.year.toInt ∨ x.year.toInt = y.year.toInt
      ∧ (x.month < y.month ∨ x.month = y.month ∧ x.day < y.day) := by
  unfold lt
  split_ifs <;> simp <;> omega

/-- Dates are ordered as the days from March on. -/
theorem lt_dateOf {era era' : Int} {yoe doy yoe' doy' : Nat} (h : InEra yoe doy)
    (h' : InEra yoe' doy')
    (hmin : -32767 ≤ civilYear era yoe ((5 * doy + 2) / 153))
    (hmax : civilYear era yoe ((5 * doy + 2) / 153) ≤ 32767)
    (hmin' : -32767 ≤ civilYear era' yoe' ((5 * doy' + 2) / 153))
    (hmax' : civilYear era' yoe' ((5 * doy' + 2) / 153) ≤ 32767) :
    (dateOf era yoe doy).lt (dateOf era' yoe' doy') = true
      ↔ era * 400 + yoe < era' * 400 + yoe'
        ∨ era * 400 + yoe = era' * 400 + yoe' ∧ doy < doy' := by
  have hyear : (dateOf era yoe doy).year.toInt = civilYear era yoe ((5 * doy + 2) / 153) :=
    toInt_year (by omega) hmax
  have hyear' : (dateOf era' yoe' doy').year.toInt = civilYear era' yoe' ((5 * doy' + 2) / 153) :=
    toInt_year (by omega) hmax'
  have hstart := (month_of_day h.day rfl).2.1
  have hstart' := (month_of_day h'.day rfl).2.1
  have hday := h.day
  have hday' := h'.day
  have hsame : (5 * doy + 2) / 153 = (5 * doy' + 2) / 153
      → (153 * ((5 * doy + 2) / 153) + 2) / 5 = (153 * ((5 * doy' + 2) / 153) + 2) / 5 :=
    fun heq => by rw [heq]
  rw [lt_iff, hyear, hyear']
  show _ ∨ _ ∧ (monthOf ((5 * doy + 2) / 153) < monthOf ((5 * doy' + 2) / 153)
    ∨ monthOf ((5 * doy + 2) / 153) = monthOf ((5 * doy' + 2) / 153)
      ∧ doy - (153 * ((5 * doy + 2) / 153) + 2) / 5 + 1
        < doy' - (153 * ((5 * doy' + 2) / 153) + 2) / 5 + 1) ↔ _
  unfold monthOf civilYear
  generalize hm : (5 * doy + 2) / 153 = mp at *
  generalize hm' : (5 * doy' + 2) / 153 = mp' at *
  generalize (153 * mp + 2) / 5 = start at *
  generalize (153 * mp' + 2) / 5 = start' at *
  by_cases hwinter : mp < 10 <;> by_cases hwinter' : mp' < 10
  · simp only [if_pos hwinter, if_pos hwinter']
    omega
  · simp only [if_pos hwinter, if_neg hwinter']
    omega
  · simp only [if_neg hwinter, if_pos hwinter']
    omega
  · simp only [if_neg hwinter, if_neg hwinter']
    omega

theorem ok_fromDays {dp : Int} (hmin : minDay ≤ dp) (hmax : dp ≤ maxDay) :
    (fromDays dp).ok = true ∧ (fromDays dp).toDays = dp := by
  obtain ⟨era, yoe, doy, h, rfl⟩ := exists_inEra dp
  obtain ⟨hfirst, hlast⟩ := (year_of_day h).mp ⟨hmin, hmax⟩
  rw [fromDays_eq h]
  exact ⟨ok_dateOf h hfirst hlast, toDays_dateOf h hfirst hlast⟩

theorem lt_iff_toDays {x y : YearMonthDay} (hx : x.ok = true) (hy : y.ok = true) :
    x.lt y = true ↔ x.toDays < y.toDays := by
  obtain ⟨era, yoe, doy, h, rfl, hmin, hmax⟩ := exists_dateOf hx
  obtain ⟨era', yoe', doy', h', rfl, hmin', hmax'⟩ := exists_dateOf hy
  rw [lt_dateOf h h' hmin hmax hmin' hmax', toDays_dateOf h hmin hmax,
    toDays_dateOf h' hmin' hmax', ← h.lt_iff h']
  omega

/-- **Days and dates.**  Every day with a year a `short` holds has a date that is
good, and which leads back to it; every good date has such a day, which leads
back to it; and dates are in the order of their days. -/
theorem days_iff_dates :
    (∀ dp, minDay ≤ dp → dp ≤ maxDay → (fromDays dp).ok = true ∧ (fromDays dp).toDays = dp)
      ∧ (∀ x : YearMonthDay, x.ok = true →
        minDay ≤ x.toDays ∧ x.toDays ≤ maxDay ∧ fromDays x.toDays = x)
      ∧ ∀ x y : YearMonthDay, x.ok = true → y.ok = true →
        (x.lt y = true ↔ x.toDays < y.toDays) := by
  refine ⟨fun dp => ok_fromDays, fun x hx => ?_, fun x y => lt_iff_toDays⟩
  obtain ⟨era, yoe, doy, h, rfl, hmin, hmax⟩ := exists_dateOf hx
  rw [toDays_dateOf h hmin hmax, fromDays_eq h]
  obtain ⟨hfirst, hlast⟩ := (year_of_day h).mpr ⟨hmin, hmax⟩
  exact ⟨hfirst, hlast, rfl⟩

/-- The theorem at a leap day. -/
theorem days_iff_dates_on_leap_day :
    fromDays (⟨2020, 2, 29⟩ : YearMonthDay).toDays = ⟨2020, 2, 29⟩ :=
  (days_iff_dates.2.1 ⟨2020, 2, 29⟩ (by decide)).2.2

/-! ## §6. The texts. -/

/-- `operator<<` of a year: four digits, with the sign in front. -/
def yearText (y : BitVec 16) : Text :=
  (if y.toInt < 0 then '-' :: Numerals.padded 4 y.toInt.natAbs
    else Numerals.padded 4 y.toInt.natAbs)
    ++ if yearOk y then [] else " is not a valid year".toList

def dayText (d : Nat) : Text :=
  Numerals.padded 2 d ++ if dayOk d then [] else " is not a valid day".toList

/-- `operator<<`. -/
def text (self : YearMonthDay) : Text :=
  yearText self.year ++ '-' :: (Numerals.padded 2 self.month ++ '-' :: dayText self.day)
    ++ if self.ok then [] else " is not a valid date".toList

/-- The text of three numbers. -/
def fields (a b c : Nat) : Text :=
  Numerals.padded 4 a ++ '-' :: (Numerals.padded 2 b ++ '-' :: Numerals.padded 2 c)

theorem length_fields {a b c : Nat} (ha : a < 10000) (hb : b < 100) (hc : c < 100) :
    (fields a b c).length = 10 := by
  have h4 : (Numerals.padded 4 a).length = 4 := Numerals.length_padded (by decide) ha
  have h2 : ∀ n < 100, (Numerals.padded 2 n).length = 2 :=
    fun n hn => Numerals.length_padded (by decide) hn
  unfold fields
  simp only [List.length_append, List.length_cons, h4, h2 b hb, h2 c hc]

/-- It sorts by the first, the second and the third. -/
theorem fields_lt_iff {a b c a' b' c' : Nat} (ha : a < 10000) (hb : b < 100) (hc : c < 100)
    (ha' : a' < 10000) (hb' : b' < 100) (hc' : c' < 100) :
    fields a b c < fields a' b' c' ↔ a < a' ∨ a = a' ∧ (b < b' ∨ b = b' ∧ c < c') := by
  have hlen4 : (Numerals.padded 4 a).length = (Numerals.padded 4 a').length :=
    (Numerals.length_padded (by decide) ha).trans (Numerals.length_padded (by decide) ha').symm
  have hlen2 : (Numerals.padded 2 b).length = (Numerals.padded 2 b').length :=
    (Numerals.length_padded (by decide) hb).trans (Numerals.length_padded (by decide) hb').symm
  have hinj4 : Numerals.padded 4 a = Numerals.padded 4 a' ↔ a = a' :=
    ⟨fun h => Numerals.padded_injective (by decide) h ha ha', fun h => by rw [h]⟩
  have hinj2 : Numerals.padded 2 b = Numerals.padded 2 b' ↔ b = b' :=
    ⟨fun h => Numerals.padded_injective (by decide) h hb hb', fun h => by rw [h]⟩
  have hdash : ∀ us vs : Text, '-' :: us < '-' :: vs ↔ us < vs :=
    fun us vs => Numerals.append_left_lt_iff (fun c => by simp) ['-']
  unfold fields
  rw [Numerals.append_lt_append_iff hlen4, hdash, Numerals.append_lt_append_iff hlen2, hdash,
    Numerals.padded_lt_iff (by decide) ha ha', Numerals.padded_lt_iff (by decide) hb hb',
    Numerals.padded_lt_iff (by decide) hc hc', hinj4, hinj2]

theorem monthLength_le (mp : Nat) : monthLength mp ≤ 31 := by
  by_cases h : mp < 12
  · interval_cases mp <;> decide
  · unfold monthLength
    rw [List.getD_eq_getElem?_getD, List.getElem?_eq_none (by simpa using h)]
    exact Nat.zero_le 31

/-- The month and the day of a good date. -/
theorem small_of_ok {x : YearMonthDay} (hok : x.ok = true) : x.month ≤ 12 ∧ x.day ≤ 31 := by
  obtain ⟨era, yoe, doy, h, rfl, _, _⟩ := exists_dateOf hok
  obtain ⟨hmp, hstart, hlen⟩ := month_of_day h.day rfl
  constructor
  · show monthOf _ ≤ 12
    unfold monthOf
    split <;> omega
  · exact hlen.trans (monthLength_le _)

/-- A good date of a year that is not negative. -/
theorem text_eq {x : YearMonthDay} (hok : x.ok = true) (hyear : 0 ≤ x.year.toInt) :
    x.text = fields x.year.toInt.natAbs x.month x.day := by
  have hparts := hok
  simp only [ok, Bool.and_eq_true, decide_eq_true_eq] at hparts
  obtain ⟨⟨⟨hyearOk, _⟩, hday⟩, _⟩ := hparts
  have hdayOk : dayOk x.day = true := by
    simp only [dayOk, Bool.and_eq_true, decide_eq_true_eq]
    exact ⟨hday, (small_of_ok hok).2⟩
  unfold text yearText dayText fields
  rw [hyearOk, hdayOk, hok, if_neg (by omega)]
  simp

/-- The date of a time that 64 bits hold. -/
theorem date_of_time {time : Int} (hmin : -2 ^ 63 ≤ time) (hmax : time < 2 ^ 63) :
    (fromDays (floorDays time)).ok = true
      ∧ (fromDays (floorDays time)).toDays = floorDays time
      ∧ 0 ≤ (fromDays (floorDays time)).year.toInt
      ∧ (fromDays (floorDays time)).year.toInt < 10000 := by
  have hfloor := floorDays_eq time
  unfold nanosPerDay at hfloor
  have hday : minDay ≤ floorDays time ∧ floorDays time ≤ maxDay := by
    unfold minDay maxDay
    omega
  obtain ⟨hok, hback⟩ := ok_fromDays hday.1 hday.2
  have hfirst := (lt_iff_toDays hok (y := ⟨0, 1, 1⟩) (by decide)).not
  have hlast := (lt_iff_toDays (x := ⟨9999, 12, 31⟩) (by decide) hok).not
  rw [hback, lt_iff] at hfirst hlast
  have hday₀ : (⟨0, 1, 1⟩ : YearMonthDay).toDays = -719528 := by decide
  have hday₁ : (⟨9999, 12, 31⟩ : YearMonthDay).toDays = 2932896 := by decide
  have h₀ : (0 : BitVec 16).toInt = 0 := by decide
  have h₁ : (9999 : BitVec 16).toInt = 9999 := by decide
  have hfirst := hfirst.mpr (by rw [hday₀]; omega)
  have hlast := hlast.mpr (by rw [hday₁]; omega)
  simp only [h₀, h₁] at hfirst hlast
  refine ⟨hok, hback, ?_, ?_⟩
  · omega
  · omega

end YearMonthDay

/-- `GetDayStr`. -/
def getDayStr (time : Int) : Text := (YearMonthDay.fromDays (floorDays time)).text

open YearMonthDay in
/-- **The texts sort as the days**, for all times that 64 bits hold. -/
theorem dayStr_lt_iff {time time' : Int} (hmin : -2 ^ 63 ≤ time) (hmax : time < 2 ^ 63)
    (hmin' : -2 ^ 63 ≤ time') (hmax' : time' < 2 ^ 63) :
    getDayStr time < getDayStr time' ↔ floorDays time < floorDays time' := by
  obtain ⟨hok, hback, hyear, hyear₁⟩ := date_of_time hmin hmax
  obtain ⟨hok', hback', hyear', hyear₁'⟩ := date_of_time hmin' hmax'
  obtain ⟨hmonth, hday⟩ := small_of_ok hok
  obtain ⟨hmonth', hday'⟩ := small_of_ok hok'
  have hlt := lt_iff_toDays hok hok'
  rw [hback, hback', lt_iff] at hlt
  unfold getDayStr
  rw [text_eq hok hyear, text_eq hok' hyear',
    fields_lt_iff (by omega) (by omega) (by omega) (by omega) (by omega) (by omega), ← hlt]
  omega

theorem length_dayStr {time : Int} (hmin : -2 ^ 63 ≤ time) (hmax : time < 2 ^ 63) :
    (getDayStr time).length = 10 := by
  obtain ⟨hok, _, hyear, hyear₁⟩ := YearMonthDay.date_of_time hmin hmax
  obtain ⟨hmonth, hday⟩ := YearMonthDay.small_of_ok hok
  unfold getDayStr
  rw [YearMonthDay.text_eq hok hyear]
  exact YearMonthDay.length_fields (by omega) (by omega) (by omega)

/-! ## §7. The log files. -/

theorem rfind_append {xs ys : Text} {ch : Char} (h : ch ∉ ys) :
    rfind (xs ++ ys) ch = rfind xs ch := by
  induction ys using List.reverseRecOn with
  | nil => rw [List.append_nil]
  | append_singleton ys y ih =>
      have hy : (y == ch) = false := by
        have hne : y ≠ ch := fun heq => h (by simp [heq])
        simpa using hne
      have hrest := ih fun hmem => h (List.mem_append_left _ hmem)
      rw [← hrest]
      unfold rfind
      rw [← List.append_assoc, List.reverse_append, List.reverse_singleton, List.singleton_append,
        List.findIdx?_cons, if_neg (by simp [hy]), Option.map_map, List.length_append]
      congr 1
      funext i
      simp only [Function.comp_apply, List.length_singleton]
      omega

theorem rfind_concat (xs : Text) (ch : Char) : rfind (xs ++ [ch]) ch = some xs.length := by
  unfold rfind
  rw [List.reverse_append, List.reverse_singleton, List.singleton_append, List.findIdx?_cons]
  simp

theorem rfind_lt {str : Text} {ch : Char} {i : Nat} (h : rfind str ch = some i) :
    i < str.length := by
  obtain ⟨j, hj, rfl⟩ := Option.map_eq_some_iff.mp h
  have hlt := (List.findIdx?_eq_some_iff_findIdx_eq.mp hj).1
  rw [List.length_reverse] at hlt
  omega

/-- A name that ends in ".log", after something that is no folder. -/
theorem splitByExtension_log (base : Text) {ch : Char} (hch : ch ≠ '/') :
    splitByExtension (base ++ [ch] ++ ".log".toList) = (base ++ [ch], ".log".toList) := by
  have hext : rfind (base ++ [ch] ++ ".log".toList) '.' = some (base.length + 1) := by
    have hdot : base ++ [ch] ++ ".log".toList = base ++ [ch] ++ ['.'] ++ "log".toList := by simp
    rw [hdot, rfind_append (by decide), rfind_concat]
    simp
  have hfolder : rfind (base ++ [ch] ++ ".log".toList) '/' = rfind base '/' := by
    rw [rfind_append (by decide), rfind_append (by simpa using hch.symm)]
  have htake : (base ++ [ch] ++ ".log".toList).take (base.length + 1) = base ++ [ch] :=
    List.take_left' (by simp)
  have hdrop : (base ++ [ch] ++ ".log".toList).drop (base.length + 1) = ".log".toList :=
    List.drop_left' (by simp)
  unfold splitByExtension
  rw [hext, hfolder]
  dsimp only
  rw [if_neg (by simp), htake, hdrop]
  cases hslash : rfind base '/' with
  | none => rfl
  | some i =>
      have hlt := rfind_lt hslash
      dsimp only
      rw [if_neg (by omega)]

/-- The environment of process `pid` of a program that makes its logger at `now`. -/
def LogEnv.at_ (env : LogEnv) (now : Int) (pid : Nat) : LogEnv :=
  { env with today := getDayStr now, pid := pid }

/-- What follows the day in the name of log file `i` of process `pid`. -/
def nameTail (pid i : Nat) : Text :=
  "_p".toList ++ (decimal pid ++ '.' :: if i = 0 then "log".toList else decimal i ++ ".log".toList)

/-- The name of log file `i`. -/
theorem calcFilename_fileName (env : LogEnv) (now : Int) (pid i : Nat) :
    calcFilename (env.at_ now pid).fileName i
      = env.logDir ++ "/".toList ++ env.procName ++ "_".toList
        ++ (getDayStr now ++ nameTail pid i) := by
  obtain ⟨front, ch, hdigits⟩ : ∃ front ch, decimal pid = front ++ [ch] :=
    ⟨_, _, (List.dropLast_append_getLast Nat.toDigits_ne_nil).symm⟩
  have hch : ch ≠ '/' := by
    rintro rfl
    have hmem : '/' ∈ decimal pid := by rw [hdigits]; simp
    exact not_mem_decimal (by decide) pid hmem
  have hname : (env.at_ now pid).fileName
      = (env.logDir ++ "/".toList ++ env.procName ++ "_".toList ++ getDayStr now ++ "_p".toList
        ++ front) ++ [ch] ++ ".log".toList := by
    show env.logDir ++ "/".toList ++ env.procName ++ "_".toList ++ getDayStr now ++ "_p".toList
      ++ decimal pid ++ ".log".toList = _
    rw [hdigits]
    simp only [List.append_assoc]
  unfold calcFilename nameTail
  rw [hname]
  split
  · rw [hdigits]
    simp
  · rw [splitByExtension_log _ hch, hdigits]
    simp

theorem nameTail_inj {pid i pid' j : Nat} (h : nameTail pid i = nameTail pid' j) :
    pid = pid' ∧ i = j := by
  have hdot := not_mem_decimal (show '.'.isDigit = false by decide)
  obtain ⟨hpid, hindex⟩ := append_separator_inj (hdot pid) (hdot pid')
    (List.append_cancel_left h)
  refine ⟨decimal_injective hpid, ?_⟩
  have hlonger : ∀ n, "log".toList ≠ decimal n ++ ".log".toList := by
    intro n heq
    have hlen := congrArg List.length heq
    rw [List.length_append] at hlen
    simp at hlen
  split_ifs at hindex with hi hj hj
  · omega
  · exact absurd hindex (hlonger j)
  · exact absurd hindex.symm (hlonger i)
  · exact decimal_injective (List.append_cancel_right hindex)

/-- **Whose log file it is.**  The log files of a program, of any process, any day
and any generation, sort by the days on which the loggers were made; and no file
is that of two processes, two days or two generations. -/
theorem logFiles_sorted (env : LogEnv) {now now' : Int} (hmin : -2 ^ 63 ≤ now) (hmax : now < 2 ^ 63)
    (hmin' : -2 ^ 63 ≤ now') (hmax' : now' < 2 ^ 63) (pid pid' i j : Nat) :
    (floorDays now < floorDays now' →
        calcFilename (env.at_ now pid).fileName i < calcFilename (env.at_ now' pid').fileName j)
      ∧ (calcFilename (env.at_ now pid).fileName i = calcFilename (env.at_ now' pid').fileName j
        ↔ floorDays now = floorDays now' ∧ pid = pid' ∧ i = j) := by
  have hlt := dayStr_lt_iff hmin hmax hmin' hmax'
  have hgt := dayStr_lt_iff hmin' hmax' hmin hmax
  have hlen := (length_dayStr hmin hmax).trans (length_dayStr hmin' hmax').symm
  rw [calcFilename_fileName, calcFilename_fileName]
  constructor
  · intro hday
    rw [Numerals.append_left_lt_iff (fun c => by simp), Numerals.append_lt_append_iff hlen]
    exact Or.inl (hlt.mpr hday)
  · constructor
    · intro heq
      obtain ⟨hday, htail⟩ := List.append_inj (List.append_cancel_left heq) hlen
      rw [hday] at hlt hgt
      obtain ⟨hpid, hindex⟩ := nameTail_inj htail
      have hirr : ¬ getDayStr now' < getDayStr now' := List.lt_irrefl _
      refine ⟨?_, hpid, hindex⟩
      have h₁ := hlt.not.mp hirr
      have h₂ := hgt.not.mp hirr
      omega
    · rintro ⟨hday, rfl, rfl⟩
      unfold getDayStr
      rw [hday]

/-- A program "p" whose processes log at the turn of a year. -/
def newYearEnv : LogEnv := ⟨fun _ => none, fun _ => none, ['p'], 0, [], [], fun _ => true⟩

/-- The theorem on the last moment of 1999 and the next. -/
theorem logFiles_sorted_on_new_year :
    calcFilename (newYearEnv.at_ 946684799999999999 7).fileName 3
      < calcFilename (newYearEnv.at_ 946684800000000000 6).fileName 0 :=
  (logFiles_sorted newYearEnv (by decide) (by decide) (by decide) (by decide) 7 6 3 0).1 (by decide)

end SparkNet
