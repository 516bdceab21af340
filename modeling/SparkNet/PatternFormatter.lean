/-
  SparkNet.PatternFormatter — how a message becomes a line of the log.

  `pattern_formatter` with its default pattern, and the `full_formatter` it is
  made of (`include/spdlog/pattern_formatter-inl.h`,
  `include/spdlog/details/fmt_helper.h`).  Local time is dear, so both keep a copy:
  one of the `struct tm` of the last second, the other of the text made of it.
  The messages of several threads come in no order of time.

  Main results:
    * `caches_exact` — the copies change no line, exactly in the runs that do not
      begin in the first second of 1970.
-/
import SparkNet.Format
import SparkNet.Numerals
import SparkNet.ThreadPool

namespace SparkNet

/-! ## §1. Numbers. -/

/-- `struct tm`, as far as a line shows it. -/
structure Tm where
  year : Int
  mon : Int
  mday : Int
  hour : Int
  min : Int
  sec : Int
  deriving DecidableEq, Repr

/-- What `memset` makes of `cached_tm_`. -/
def Tm.zero : Tm := ⟨0, 0, 0, 0, 0, 0⟩

/-- What `localtime_r` promises; a second may be a leap second. -/
structure Tm.InRange (tm : Tm) : Prop where
  mon : 0 ≤ tm.mon ∧ tm.mon ≤ 11
  mday : 1 ≤ tm.mday ∧ tm.mday ≤ 31
  hour : 0 ≤ tm.hour ∧ tm.hour ≤ 23
  min : 0 ≤ tm.min ∧ tm.min ≤ 59
  sec : 0 ≤ tm.sec ∧ tm.sec ≤ 60

/-- `fmt_helper::pad2`. -/
def pad2 (n : Int) : Text :=
  if 0 ≤ n ∧ n < 100 then [(n.toNat / 10).digitChar, (n.toNat % 10).digitChar]
  -- unlikely, but just in case, let fmt deal with it
  else (Fmt.format [.int n] 0 "{:02}".toList).getD []

/-- `fmt_helper::pad3`. -/
def pad3 (n : Nat) : Text :=
  if n < 1000 then
    [(n / 100).digitChar, (n % 100 / 10).digitChar, (n % 100 % 10).digitChar]
  else decimal n

/-! ## §2. The formatters. -/

/-- `duration_cast<seconds>`; the clock counts nanoseconds. -/
def LogMsg.secs (msg : LogMsg) : Nat := msg.time / 1000000000

/-- `fmt_helper::time_fraction<milliseconds>`. -/
def LogMsg.millis (msg : LogMsg) : Nat := msg.time / 1000000 - msg.secs * 1000

/-- `level_string_views`. -/
def levelNames : List Text :=
  ["trace".toList, "debug".toList, "info".toList, "warning".toList, "error".toList,
    "critical".toList, "off".toList]

/-- The part of the line that `full_formatter` keeps. -/
def datetimeText (tm : Tm) : Text :=
  '[' :: (Fmt.writeDecimal (tm.year + 1900) ++ '-' :: (pad2 (tm.mon + 1) ++ '-' :: (pad2 tm.mday
    ++ ' ' :: (pad2 tm.hour ++ ':' :: (pad2 tm.min ++ ':' :: (pad2 tm.sec ++ ['.']))))))

/-- The rest of the line, without a source location, which no message here has. -/
def afterDatetime (loggerName : Text) (msg : LogMsg) : Text :=
  pad3 msg.millis ++ ']' :: ' ' :: ((if loggerName.isEmpty then [] else
    '[' :: (loggerName ++ [']', ' '])) ++ '[' :: (levelNames.getD msg.level []
      ++ ']' :: ' ' :: msg.payload))

structure FullFormatter where
  cacheTimestamp : Nat
  cachedDatetime : Text
  deriving DecidableEq, Repr

def FullFormatter.format (self : FullFormatter) (loggerName : Text) (msg : LogMsg) (tm : Tm) :
    FullFormatter × Text :=
  let self :=
    if self.cacheTimestamp ≠ msg.secs ∨ self.cachedDatetime.isEmpty then
      ⟨msg.secs, datetimeText tm⟩
    else self
  (self, self.cachedDatetime ++ afterDatetime loggerName msg)

structure PatternFormatter where
  cachedTm : Tm
  lastLogSecs : Nat
  /-- The only one of `formatters_`. -/
  full : FullFormatter
  deriving DecidableEq, Repr

namespace PatternFormatter

def new : PatternFormatter := ⟨.zero, 0, ⟨0, []⟩⟩

variable (localtime : Nat → Tm) (loggerName : Text)

/-- `format`, of a line that ends in `default_eol`. -/
def format (self : PatternFormatter) (msg : LogMsg) : PatternFormatter × Text :=
  let self :=
    if msg.secs ≠ self.lastLogSecs then
      { self with cachedTm := localtime msg.secs, lastLogSecs := msg.secs }
    else self
  let (full, text) := self.full.format loggerName msg self.cachedTm
  ({ self with full := full }, text ++ ['\n'])

/-- The lines of one message after the other. -/
def formatAll : PatternFormatter → List LogMsg → List Text
  | _, [] => []
  | self, msg :: rest =>
      (self.format localtime loggerName msg).2
        :: formatAll (self.format localtime loggerName msg).1 rest

/-- The line that shows a time. -/
def lineAt (tm : Tm) (msg : LogMsg) : Text :=
  datetimeText tm ++ afterDatetime loggerName msg ++ ['\n']

/-- The line without copies. -/
def line (msg : LogMsg) : Text := lineAt loggerName (localtime msg.secs) msg

/-! ## §3. The caches. -/

/-- Each copy says what is in the line of its second. -/
structure Warm (pf : PatternFormatter) : Prop where
  tm : datetimeText pf.cachedTm = datetimeText (localtime pf.lastLogSecs)
  text : pf.full.cachedDatetime.isEmpty = false →
    pf.full.cachedDatetime = datetimeText (localtime pf.full.cacheTimestamp)

variable {localtime loggerName} {pf : PatternFormatter}

/-- What is taken from the copies and what is made anew. -/
theorem format_cases (localtime : Nat → Tm) (loggerName : Text) (pf : PatternFormatter)
    (msg : LogMsg) :
    ∃ tm full, (msg.secs ≠ pf.lastLogSecs ∧ tm = localtime msg.secs
        ∨ msg.secs = pf.lastLogSecs ∧ tm = pf.cachedTm)
      ∧ (full = ⟨msg.secs, datetimeText tm⟩
        ∨ pf.full.cacheTimestamp = msg.secs ∧ pf.full.cachedDatetime.isEmpty = false
          ∧ full = pf.full)
      ∧ pf.format localtime loggerName msg = (⟨tm, msg.secs, full⟩,
        full.cachedDatetime ++ afterDatetime loggerName msg ++ ['\n']) := by
  have hfull : ∀ tm, ∃ full, (full = ⟨msg.secs, datetimeText tm⟩
      ∨ pf.full.cacheTimestamp = msg.secs ∧ pf.full.cachedDatetime.isEmpty = false
        ∧ full = pf.full)
      ∧ pf.full.format loggerName msg tm
        = (full, full.cachedDatetime ++ afterDatetime loggerName msg) := by
    intro tm
    unfold FullFormatter.format
    split
    · exact ⟨_, Or.inl rfl, rfl⟩
    · next hkept =>
      obtain ⟨hsame, hfilled⟩ := not_or.mp hkept
      exact ⟨_, Or.inr ⟨not_not.mp hsame, Bool.eq_false_iff.mpr hfilled, rfl⟩, rfl⟩
  unfold PatternFormatter.format
  split
  · next hother =>
    obtain ⟨full, hcases, hformat⟩ := hfull (localtime msg.secs)
    refine ⟨localtime msg.secs, full, Or.inl ⟨hother, rfl⟩, hcases, ?_⟩
    dsimp only
    rw [hformat]
  · next hsame =>
    have hsame : msg.secs = pf.lastLogSecs := not_not.mp hsame
    obtain ⟨full, hcases, hformat⟩ := hfull pf.cachedTm
    refine ⟨pf.cachedTm, full, Or.inr ⟨hsame, rfl⟩, hcases, ?_⟩
    dsimp only
    rw [hformat, hsame]

/-- One message, when the copies it may take are good. -/
theorem warm_format {msg : LogMsg}
    (htm : msg.secs = pf.lastLogSecs →
      datetimeText pf.cachedTm = datetimeText (localtime pf.lastLogSecs))
    (htext : pf.full.cachedDatetime.isEmpty = false →
      pf.full.cachedDatetime = datetimeText (localtime pf.full.cacheTimestamp)) :
    Warm localtime (pf.format localtime loggerName msg).1
      ∧ (pf.format localtime loggerName msg).2 = line localtime loggerName msg := by
  obtain ⟨tm, full, htm', hfull, hformat⟩ := format_cases localtime loggerName pf msg
  have hdate : datetimeText tm = datetimeText (localtime msg.secs) := by
    obtain ⟨_, rfl⟩ | ⟨hsame, rfl⟩ := htm'
    · rfl
    · rw [hsame]
      exact htm hsame
  have hcached : full.cachedDatetime = datetimeText (localtime msg.secs)
      ∧ full.cacheTimestamp = msg.secs := by
    obtain rfl | ⟨hsame, hfilled, rfl⟩ := hfull
    · exact ⟨hdate, rfl⟩
    · exact ⟨hsame ▸ htext hfilled, hsame⟩
  rw [hformat]
  constructor
  · exact ⟨hdate, fun _ => hcached.1.trans (congrArg (datetimeText ∘ localtime) hcached.2.symm)⟩
  · exact congrArg (· ++ afterDatetime loggerName msg ++ ['\n']) hcached.1

theorem Warm.format (h : Warm localtime pf) (msg : LogMsg) :
    Warm localtime (pf.format localtime loggerName msg).1
      ∧ (pf.format localtime loggerName msg).2 = line localtime loggerName msg :=
  warm_format (fun _ => h.tm) h.text

theorem Warm.formatAll (h : Warm localtime pf) (msgs : List LogMsg) :
    formatAll localtime loggerName pf msgs = msgs.map (line localtime loggerName) := by
  induction msgs generalizing pf with
  | nil => rfl
  | cons msg rest ih =>
      obtain ⟨hnext, hline⟩ := h.format msg
      rw [PatternFormatter.formatAll, hline, ih hnext, List.map_cons]

theorem pad2_eq {n : Int} (h : 0 ≤ n ∧ n < 100) :
    pad2 n = [(n.toNat / 10).digitChar, (n.toNat % 10).digitChar] := if_pos h

/-- The zeroed copy is of no day: days are counted from one. -/
theorem datetimeText_zero_ne {tm : Tm} (h : tm.InRange) :
    datetimeText Tm.zero ≠ datetimeText tm := by
  intro heq
  obtain ⟨⟨hmon, hmon'⟩, ⟨hmday, hmday'⟩, ⟨hhour, hhour'⟩, ⟨hmin, hmin'⟩, ⟨hsec, hsec'⟩⟩ := h
  have hmonText := pad2_eq (n := tm.mon + 1) ⟨by omega, by omega⟩
  have hmdayText := pad2_eq (n := tm.mday) ⟨by omega, by omega⟩
  have hhourText := pad2_eq (n := tm.hour) ⟨by omega, by omega⟩
  have hminText := pad2_eq (n := tm.min) ⟨by omega, by omega⟩
  have hsecText := pad2_eq (n := tm.sec) ⟨by omega, by omega⟩
  have hzero : pad2 0 = ['0', '0'] := by decide
  have hone : pad2 (0 + 1) = ['0', '1'] := by decide
  unfold datetimeText Tm.zero at heq
  rw [hmonText, hmdayText, hhourText, hminText, hsecText] at heq
  dsimp only at heq
  rw [hzero, hone] at heq
  -- behind the year both texts have sixteen characters
  have hrest := List.append_inj_right' (List.cons.inj heq).2 rfl
  simp only [List.cons_append, List.nil_append, List.cons.injEq] at hrest
  have hten := Numerals.digitChar_inj (a := 0) (by omega) (by omega) hrest.2.2.2.2.1
  have hunit := Numerals.digitChar_inj (a := 0) (by omega) (by omega) hrest.2.2.2.2.2.1
  omega

/-- **The caches change no line**, whatever the order of the times, exactly when
the first message is not from the first second of 1970, for which `cached_tm_` is
taken to be good before it is filled. -/
theorem caches_exact (hepoch : (localtime 0).InRange) (msgs : List LogMsg) :
    formatAll localtime loggerName new msgs = msgs.map (line localtime loggerName)
      ↔ ∀ msg, msgs.head? = some msg → msg.secs ≠ 0 := by
  cases msgs with
  | nil => exact ⟨fun _ msg h => absurd h (by simp), fun _ => rfl⟩
  | cons first rest =>
      constructor
      · intro h msg hmsg hzero
        obtain rfl := Option.some.inj hmsg
        have hline := (List.cons.inj h).1
        obtain ⟨tm, full, htm, hfull, hformat⟩ := format_cases localtime loggerName new first
        -- the zeroed copy is taken, and the text is made of it
        obtain ⟨hother, _⟩ | ⟨_, rfl⟩ := htm
        · exact hother hzero
        obtain rfl | ⟨_, hfilled, _⟩ := hfull
        · rw [hformat] at hline
          unfold line at hline
          rw [hzero] at hline
          have hdate := List.append_cancel_right (List.append_cancel_right hline)
          exact datetimeText_zero_ne hepoch hdate
        · exact Bool.noConfusion hfilled
      · intro h
        have hne := h first rfl
        have hfirst : Warm localtime (new.format localtime loggerName first).1
            ∧ (new.format localtime loggerName first).2 = line localtime loggerName first :=
          warm_format (fun hzero => absurd hzero hne) (fun hfilled => Bool.noConfusion hfilled)
        rw [PatternFormatter.formatAll, hfirst.2, hfirst.1.formatAll, List.map_cons]

/-- `gmtime` on the first day of 1970. -/
def firstDay (t : Nat) : Tm := ⟨70, 0, 1, t / 3600, t / 60 % 60, t % 60⟩

theorem firstDay_inRange {t : Nat} (h : t < 86400) : (firstDay t).InRange := by
  unfold firstDay
  constructor <;> dsimp only <;> omega

/-- A message of the first second, then one of the second after, then one of the
first again. -/
def epochMsgs : List LogMsg :=
  [⟨2, 0, "a".toList⟩, ⟨2, 1000000000, "b".toList⟩, ⟨2, 7000000, "c".toList⟩]

/-- The theorem on them: not the first line. -/
theorem caches_exact_on_epoch :
    formatAll firstDay "logger".toList new epochMsgs
      ≠ epochMsgs.map (line firstDay "logger".toList) :=
  fun h => (caches_exact (firstDay_inRange (by decide)) epochMsgs).mp h _ rfl rfl

example : formatAll firstDay "logger".toList new epochMsgs =
    ["[1900-01-00 00:00:00.000] [logger] [info] a\n".toList,
      "[1970-01-01 00:00:01.000] [logger] [info] b\n".toList,
      "[1970-01-01 00:00:00.007] [logger] [info] c\n".toList] := by
  decide +kernel

end PatternFormatter

end SparkNet
