/-
  SparkNet.LogReader — what the log says to its reader.

  The sink of `LogPipeline` with the formatter it really has, caches and all.  A
  line of the log ends with its line feed; in brackets it shows the time, the
  logger and the level, and the rest of it is the message.

  Main results:
    * `readLog_lines` — the lines of messages without line feeds can be read back;
    * `log_read_back` — what can be read in the files, once the log is closed or at
      rest, is the end of what the threads logged, and everything until the files
      hold half of what they may.
-/
import Mathlib.Data.List.TakeWhile
import SparkNet.LogPipeline
import SparkNet.PatternFormatter

namespace SparkNet

open Runs RotatingSink PatternFormatter

namespace LogReader

/-! ## §1. The reader. -/

/-- The lines that are ended. -/
def lines : Text → List Text
  | [] => []
  | ch :: text =>
      if ch = '\n' then [] :: lines text
      else match lines text with
        | [] => []
        | line :: rest => (ch :: line) :: rest

/-- A text in brackets, a blank, and what follows. -/
def bracketed : Text → Option (Text × Text)
  | '[' :: text => match text.dropWhile (· ≠ ']') with
      | ']' :: ' ' :: rest => some (text.takeWhile (· ≠ ']'), rest)
      | _ => none
  | _ => none

/-- What a line shows. -/
structure Entry where
  stamp : Text
  loggerName : Text
  level : Nat
  payload : Text
  deriving DecidableEq, Repr

def readLine (line : Text) : Option Entry :=
  (bracketed line).bind fun stamp => (bracketed stamp.2).bind fun loggerName =>
    (bracketed loggerName.2).map fun level =>
      ⟨stamp.1, loggerName.1, levelNames.idxOf level.1, level.2⟩

def readLog (text : Text) : List Entry := (lines text).filterMap readLine

/-- What the line of a message should show. -/
def entry (localtime : Nat → Tm) (loggerName : Text) (msg : LogMsg) : Entry :=
  ⟨(datetimeText (localtime msg.secs)).tail ++ pad3 msg.millis, loggerName, msg.level,
    msg.payload⟩

/-- A message that one line shows. -/
structure Legible (localtime : Nat → Tm) (msg : LogMsg) : Prop where
  time : (localtime msg.secs).InRange
  level : msg.level < levelNames.length
  payload : '\n' ∉ msg.payload

/-! ## §2. Lines. -/

theorem lines_append {line : Text} (h : '\n' ∉ line) (text : Text) :
    lines (line ++ '\n' :: text) = line :: lines text := by
  induction line with
  | nil =>
      show lines ('\n' :: text) = _
      rw [lines, if_pos rfl]
  | cons ch line ih =>
      obtain ⟨hch, hline⟩ := not_or.mp (List.mem_cons.not.mp h)
      rw [List.cons_append, lines, if_neg (Ne.symm hch), ih hline]

theorem bracketed_append {text : Text} (h : ']' ∉ text) (rest : Text) :
    bracketed ('[' :: (text ++ ']' :: ' ' :: rest)) = some (text, rest) := by
  have hall : ∀ ch ∈ text, decide (ch ≠ ']') = true := by
    intro ch hch
    rw [decide_eq_true_eq]
    exact fun heq => h (heq ▸ hch)
  have hdrop : (text ++ ']' :: ' ' :: rest).dropWhile (· ≠ ']') = ']' :: ' ' :: rest := by
    rw [List.dropWhile_append_of_pos hall]
    rfl
  have htake : (text ++ ']' :: ' ' :: rest).takeWhile (· ≠ ']') = text := by
    rw [List.takeWhile_append_of_pos hall]
    exact List.append_nil _
  simp only [bracketed, hdrop, htake]

/-- The characters of a time. -/
def InStamp (ch : Char) : Prop := ch.isDigit = true ∨ ch ∈ ['-', ' ', ':', '.']

theorem inStamp_digitChar {d : Nat} (h : d < 10) : InStamp d.digitChar := by
  left
  interval_cases d <;> decide

theorem inStamp_pad2 {n : Int} (h : 0 ≤ n ∧ n < 100) : ∀ ch ∈ pad2 n, InStamp ch := by
  intro ch hch
  rw [pad2_eq h] at hch
  simp only [List.mem_cons, List.not_mem_nil, or_false] at hch
  obtain rfl | rfl := hch
  · exact inStamp_digitChar (by omega)
  · exact inStamp_digitChar (by omega)

theorem inStamp_decimal (n : Nat) : ∀ ch ∈ decimal n, InStamp ch := fun _ hch =>
  Or.inl (Nat.isDigit_of_mem_toDigits (by decide) (by decide) hch)

theorem inStamp_pad3 (n : Nat) : ∀ ch ∈ pad3 n, InStamp ch := by
  intro ch hch
  unfold pad3 at hch
  split at hch
  · simp only [List.mem_cons, List.not_mem_nil, or_false] at hch
    obtain rfl | rfl | rfl := hch <;> exact inStamp_digitChar (by omega)
  · exact inStamp_decimal n ch hch

theorem inStamp_writeDecimal (n : Int) : ∀ ch ∈ Fmt.writeDecimal n, InStamp ch := by
  intro ch hch
  unfold Fmt.writeDecimal at hch
  split at hch
  · obtain rfl | hch := List.mem_cons.mp hch
    · exact Or.inr (by decide)
    · exact inStamp_decimal _ ch hch
  · exact inStamp_decimal _ ch hch

/-- A time is shown without brackets and in one line. -/
theorem inStamp_datetimeText {tm : Tm} (h : tm.InRange) :
    ∀ ch ∈ (datetimeText tm).tail, InStamp ch := by
  obtain ⟨⟨hmon, hmon'⟩, ⟨hmday, hmday'⟩, ⟨hhour, hhour'⟩, ⟨hmin, hmin'⟩, ⟨hsec, hsec'⟩⟩ := h
  have hyear := inStamp_writeDecimal (tm.year + 1900)
  have hmon := inStamp_pad2 (n := tm.mon + 1) ⟨by omega, by omega⟩
  have hmday := inStamp_pad2 (n := tm.mday) ⟨by omega, by omega⟩
  have hhour := inStamp_pad2 (n := tm.hour) ⟨by omega, by omega⟩
  have hmin := inStamp_pad2 (n := tm.min) ⟨by omega, by omega⟩
  have hsec := inStamp_pad2 (n := tm.sec) ⟨by omega, by omega⟩
  have hmark : ∀ ch ∈ ['-', ' ', ':', '.'], InStamp ch := fun _ => Or.inr
  have hdash := hmark '-' (by decide)
  have hcolon := hmark ':' (by decide)
  simp only [datetimeText, List.tail_cons, List.forall_mem_append, List.forall_mem_cons]
  exact ⟨hyear, hdash, hmon, hdash, hmday, hmark ' ' (by decide), hhour, hcolon, hmin, hcolon,
    hsec, hmark '.' (by decide), fun ch hch => absurd hch List.not_mem_nil⟩

/-! ## §3. What is written can be read. -/

section Reading

variable {localtime : Nat → Tm} {loggerName : Text}

theorem line_eq (localtime : Nat → Tm) (loggerName : Text) (hname : loggerName ≠ [])
    (msg : LogMsg) :
    line localtime loggerName msg = '[' :: ((entry localtime loggerName msg).stamp ++ ']' :: ' '
      :: '[' :: (loggerName ++ ']' :: ' ' :: '[' :: (levelNames.getD msg.level [] ++ ']' :: ' '
        :: msg.payload))) ++ ['\n'] := by
  have hfilled : loggerName.isEmpty = false := List.isEmpty_eq_false_iff.mpr hname
  unfold line lineAt afterDatetime
  rw [hfilled, if_neg (by decide)]
  simp [entry, datetimeText]

/-- The name of a level says which it is. -/
theorem idxOf_levelNames {level : Nat} (h : level < levelNames.length) :
    levelNames.idxOf (levelNames.getD level []) = level
      ∧ ']' ∉ levelNames.getD level [] ∧ '\n' ∉ levelNames.getD level [] := by
  have h : level < 7 := h
  interval_cases level <;> decide

theorem InStamp.ne {ch : Char} (h : InStamp ch) : ch ≠ ']' ∧ ch ≠ '\n' := by
  constructor
  · rintro rfl
    exact absurd h (by unfold InStamp; decide)
  · rintro rfl
    exact absurd h (by unfold InStamp; decide)

/-- One line, read back. -/
theorem readLine_line {msg : LogMsg} (hname : loggerName ≠ []) (hbracket : ']' ∉ loggerName)
    (hline : '\n' ∉ loggerName) (h : Legible localtime msg) :
    ∃ text, line localtime loggerName msg = text ++ ['\n'] ∧ '\n' ∉ text
      ∧ readLine text = some (entry localtime loggerName msg) := by
  have hstamp : ∀ ch ∈ (entry localtime loggerName msg).stamp, ch ≠ ']' ∧ ch ≠ '\n' := by
    intro ch hch
    obtain hch | hch := List.mem_append.mp hch
    · exact (inStamp_datetimeText h.time ch hch).ne
    · exact (inStamp_pad3 _ ch hch).ne
  have hstampBracket : ']' ∉ (entry localtime loggerName msg).stamp :=
    fun hmem => (hstamp _ hmem).1 rfl
  have hstampLine : '\n' ∉ (entry localtime loggerName msg).stamp :=
    fun hmem => (hstamp _ hmem).2 rfl
  obtain ⟨hlevel, hlevelBracket, hlevelLine⟩ := idxOf_levelNames h.level
  refine ⟨_, line_eq localtime loggerName hname msg, ?_, ?_⟩
  · simp only [List.mem_cons, List.mem_append, not_or]
    exact ⟨by decide, hstampLine, by decide, by decide, by decide, hline, by decide, by decide,
      by decide, hlevelLine, by decide, by decide, h.payload⟩
  · unfold readLine
    rw [bracketed_append hstampBracket, Option.bind_some, bracketed_append hbracket,
      Option.bind_some, bracketed_append hlevelBracket, Option.map_some, hlevel]
    rfl

/-- **A log can be read back.**  Its text says of every message the time to the
millisecond, the level and the payload, in order, if no payload has a line feed. -/
theorem readLog_lines (hname : loggerName ≠ []) (hbracket : ']' ∉ loggerName)
    (hline : '\n' ∉ loggerName) {msgs : List LogMsg} (h : ∀ msg ∈ msgs, Legible localtime msg) :
    readLog (msgs.map (line localtime loggerName)).flatten
      = msgs.map (entry localtime loggerName) := by
  induction msgs with
  | nil => rfl
  | cons msg rest ih =>
      obtain ⟨text, heq, hend, hread⟩ :=
        readLine_line hname hbracket hline (h msg List.mem_cons_self)
      have ih := ih fun msg' hmsg' => h msg' (List.mem_cons_of_mem _ hmsg')
      unfold readLog at ih ⊢
      rw [List.map_cons, List.flatten_cons, heq, List.append_assoc, List.singleton_append,
        lines_append hend, List.filterMap_cons_some hread, ih, List.map_cons]

end Reading

/-! ## §4. The sink with its formatter. -/

/-- The messages that are to be logged. -/
def messagesOf (ms : List AsyncMsg) : List LogMsg :=
  ms.filterMap fun m => if m.msgType = .log then some m.msg else none

theorem mem_messagesOf {ms : List AsyncMsg} {m : AsyncMsg} (hm : m ∈ ms)
    (hlog : m.msgType = .log) : m.msg ∈ messagesOf ms :=
  List.mem_filterMap.mpr ⟨m, hm, if_pos hlog⟩

theorem linesOf_eq (format : LogMsg → Text) (ms : List AsyncMsg) :
    LogPipeline.linesOf format ms = (messagesOf ms).map format := by
  unfold LogPipeline.linesOf messagesOf
  rw [List.map_filterMap]
  congr 1
  funext m
  by_cases h : m.msgType = .log <;> simp [h]

/-- The name that `setLogAtt` gives the logger. -/
def loggerName : Text := "logger".toList

/-- The logger's calls of its sink, which formats the line itself. -/
def formattedBackend (answers : Nat → OsAnswers) (localtime : Nat → Tm) :
    Backend ((RotatingSink × Nat) × PatternFormatter) where
  log := fun ((sink, n), formatter) msg =>
    let (formatter, formatted) := formatter.format localtime loggerName msg
    (((sink.sinkIt (answers n) formatted).1, n + 1), formatter)
  flush := fun ((sink, n), formatter) => ((sink.flush (answers n), n + 1), formatter)
  sinkLevel := 0
  flushLevel := levelOff

def start (logger : Logger) (answers : Nat → OsAnswers) (disk : Text → Option Text)
    (threads : Nat) : ThreadPool ((RotatingSink × Nat) × PatternFormatter) :=
  .new 100000 threads 1 ((LogPipeline.firstSink logger answers disk, 1), .new)

section Pipeline

variable {answers : Nat → OsAnswers} {localtime : Nat → Tm} {logger : Logger}
  {disk : Text → Option Text}

/-- A message handled: the formatter writes the line that has no caches in it. -/
theorem process_formatted {formatter : PatternFormatter}
    (h : Warm localtime formatter ∨ formatter = .new) (m : AsyncMsg)
    (hm : m.msgType = .log → m.msg.secs ≠ 0) (state : RotatingSink × Nat) :
    ∃ formatter', (Warm localtime formatter' ∨ formatter' = .new)
      ∧ (formattedBackend answers localtime).process (state, formatter) m
        = ((fileBackend answers (line localtime loggerName)).process state m, formatter') := by
  obtain ⟨type, msg⟩ := m
  cases type with
  | log =>
      have hwarm : Warm localtime (formatter.format localtime loggerName msg).1
          ∧ (formatter.format localtime loggerName msg).2 = line localtime loggerName msg := by
        obtain h | rfl := h
        · exact h.format msg
        · exact warm_format (fun hzero => absurd hzero (hm rfl))
            (fun hfilled => Bool.noConfusion hfilled)
      refine ⟨_, Or.inl hwarm.1, ?_⟩
      show (formattedBackend answers localtime).sinkIt (state, formatter) msg
        = ((fileBackend answers (line localtime loggerName)).sinkIt state msg, _)
      have hflush : (formattedBackend answers localtime).shouldFlush msg
          = (fileBackend answers (line localtime loggerName)).shouldFlush msg := rfl
      unfold Backend.sinkIt
      rw [hflush, show (formattedBackend answers localtime).sinkLevel = 0 from rfl,
        show (fileBackend answers (line localtime loggerName)).sinkLevel = 0 from rfl,
        if_pos (Nat.zero_le _), if_pos (Nat.zero_le _)]
      unfold formattedBackend fileBackend
      dsimp only
      rw [hwarm.2]
      split <;> rfl
  | flush => exact ⟨formatter, h, rfl⟩
  | terminate => exact ⟨formatter, h, rfl⟩

/-- What the caches do to the log: nothing. -/
theorem foldl_formatted {formatter : PatternFormatter}
    (h : Warm localtime formatter ∨ formatter = .new) {ms : List AsyncMsg}
    (hms : ∀ m ∈ ms, m.msgType = .log → m.msg.secs ≠ 0) (state : RotatingSink × Nat) :
    (ms.foldl (formattedBackend answers localtime).process (state, formatter)).1
      = ms.foldl (fileBackend answers (line localtime loggerName)).process state := by
  induction ms generalizing formatter state with
  | nil => rfl
  | cons m rest ih =>
      obtain ⟨hhead, hrest⟩ := List.forall_mem_cons.mp hms
      obtain ⟨formatter', h', hprocess⟩ := process_formatted h m hhead state
      rw [List.foldl_cons, List.foldl_cons, hprocess, ih h' hrest]

/-- **The log tells what was logged.**  Let the log be a new one on a system that
refuses nothing, and its messages such as one line shows, none of them from the
first second of 1970.  When the pool has been destroyed, or when no thread can go
on, what can be read in the files, once flushed, is the end of all that was logged,
with time, level and payload, in the order in which it got into the queue, each
thread's in its own; and it is all of it, or the files are half full. -/
theorem log_read_back {env : LogEnv} {self : CLog} (hopens : env.opens env.fileName = true)
    (hset : (self.setLogAtt env).2.logger = some logger) (hos : ∀ n, (answers n).Healthy)
    (hfresh : ∀ i, disk (calcFilename logger.fileName i) = none) (threads : Nat)
    (events : List PoolEvent) (s : ThreadPool ((RotatingSink × Nat) × PatternFormatter))
    (hrun : exec (ThreadPool.step (formattedBackend answers localtime))
      (start logger answers disk threads) events = some s)
    (hdone : s.joined = true ∨ s.Stuck (formattedBackend answers localtime)) {last : OsAnswers}
    (hlast : last.Healthy)
    (hmsgs : ∀ msg ∈ messagesOf s.accepted, Legible localtime msg ∧ msg.secs ≠ 0)
    (hfits : ((messagesOf s.accepted).map (line localtime loggerName)).flatten.length < 2 ^ 64) :
    readLog (s.sinks.1.1.flush last).text
        <:+ (messagesOf s.accepted).map (entry localtime loggerName)
      ∧ (readLog (s.sinks.1.1.flush last).text
          = (messagesOf s.accepted).map (entry localtime loggerName)
        ∨ logger.maxSize.toNat * ((logger.maxFiles.toNat + 1) / 2)
          ≤ (s.sinks.1.1.flush last).text.length)
      ∧ ∀ t, s.postedBy t = s.queue.pushedBy t := by
  have hsound := (ThreadPool.sound_exec (ThreadPool.sound_new _ _ 100000 threads 1) hrun).1
  have hcap : s.queue.q.capacity = 100000 := ThreadPool.capacity_exec hrun
  have hcomplete : ThreadPool.Complete (formattedBackend answers localtime)
      ((LogPipeline.firstSink logger answers disk, 1), .new) 1 s := by
    obtain hjoined | hstuck := hdone
    · exact hsound.done Nat.one_pos hjoined
    · exact (hsound.stuck (by omega) Nat.one_pos hstuck).1
  -- the sink is where it would be without caches, and its files hold generations
  have hsink : (s.accepted.foldl (formattedBackend answers localtime).process
      ((LogPipeline.firstSink logger answers disk, 1), .new)).1
      = s.accepted.foldl (fileBackend answers (line localtime loggerName)).process
        (LogPipeline.firstSink logger answers disk, 1) :=
    foldl_formatted (Or.inr rfl) (fun m hm hlog => (hmsgs _ (mem_messagesOf hm hlog)).2) _
  have hnone : disk logger.fileName = none := by
    rw [← calcFilename_zero logger.fileName]
    exact hfresh 0
  have hlines := linesOf_eq (line localtime loggerName) s.accepted
  have hfits : ((disk logger.fileName).getD []).length
      + (LogPipeline.linesOf (line localtime loggerName) s.accepted).flatten.length < 2 ^ 64 := by
    rw [hnone, hlines, Option.getD_none, List.length_nil, Nat.zero_add]
    exact hfits
  obtain ⟨hholds, hfiles⟩ := LogPipeline.holds_foldl
    (LogPipeline.fileName_ne_nil hopens hset) hos s.accepted hfits
  rw [← hsink, ← hcomplete.sinks rfl] at hholds hfiles
  rw [hlines] at hholds
  obtain ⟨htight, hstart⟩ := tight_found (fun i (_ : 0 < i) => hfresh i) logger.maxSize.toNat
    logger.maxFiles.toNat
  rw [hnone, Option.toList_none] at hstart
  have htext := hholds.text hlast
  rw [hfiles] at htext
  have hread : ∀ msgs : List LogMsg, (∀ msg ∈ msgs, msg ∈ messagesOf s.accepted) →
      readLog (msgs.map (line localtime loggerName)).flatten
        = msgs.map (entry localtime loggerName) := fun msgs hsub =>
    readLog_lines (by decide) (by decide) (by decide) fun msg hmsg => (hmsgs msg (hsub msg hmsg)).1
  refine ⟨?_, ?_, hcomplete.posted⟩
  · -- the generations hold the lines of the last messages
    obtain ⟨before, hkept⟩ := @LogPipeline.kept_generations logger disk
      ((messagesOf s.accepted).map (line localtime loggerName))
    rw [hstart, List.nil_append] at hkept
    have hdrop := congrArg (List.drop before.length) hkept
    rw [List.drop_left, ← List.map_drop] at hdrop
    rw [htext, hdrop, hread _ fun msg hmsg => List.mem_of_mem_drop hmsg, List.map_drop]
    exact List.drop_suffix _ _
  · obtain hall | hheavy := Generations.all_or_heavy
      ((messagesOf s.accepted).map (line localtime loggerName)) htight
    · left
      rw [htext]
      unfold LogPipeline.generations
      rw [hall, hstart, List.nil_append, hread _ fun _ hmsg => hmsg]
    · right
      rw [htext, List.length_flatten]
      exact hheavy

end Pipeline

/-- A thread logs twice on the first day of 1970, and closes the log. -/
def dayOne : List PoolEvent :=
  [.log 0 ⟨2, 3600000000000, "a]".toList⟩, .queue (.produce 0), .queue (.notifyPush 0 none),
    .queue (.consume 0), .queue (.notifyPop 0 none), .process 0,
    .log 0 ⟨4, 3600017000000, "b".toList⟩, .queue (.produce 0), .queue (.notifyPush 0 none),
    .queue (.consume 0), .queue (.notifyPop 0 none), .process 0] ++ LogPipeline.closing

/-- The theorem on that run: of the two lines, each in a file of its own, the reader
sees no others. -/
theorem log_read_back_on_day_one :
    ∃ s, exec (ThreadPool.step (formattedBackend (fun _ => lazyOs) firstDay))
        (start LogPipeline.smallLogger (fun _ => lazyOs) (fun _ => none) 1) dayOne = some s
      ∧ readLog (s.sinks.1.1.flush lazyOs).text
        <:+ [⟨"1970-01-01 01:00:00.000".toList, "logger".toList, 2, "a]".toList⟩,
          ⟨"1970-01-01 01:00:00.017".toList, "logger".toList, 4, "b".toList⟩] := by
  have hseen : (exec (ThreadPool.step (formattedBackend (fun _ => lazyOs) firstDay))
      (start LogPipeline.smallLogger (fun _ => lazyOs) (fun _ => none) 1) dayOne).map
      (fun s => (s.joined, s.accepted)) = some (true, [⟨.log, ⟨2, 3600000000000, "a]".toList⟩⟩,
        ⟨.log, ⟨4, 3600017000000, "b".toList⟩⟩, .ofType .terminate]) := by
    decide +kernel
  obtain ⟨s, hrun, hs⟩ := Option.map_eq_some_iff.mp hseen
  obtain ⟨hjoined, haccepted⟩ := Prod.mk.inj hs
  have hopens : LogPipeline.smallEnv.opens LogPipeline.smallEnv.fileName = true := rfl
  have hset : (LogPipeline.smallLog.setLogAtt LogPipeline.smallEnv).2.logger
      = some LogPipeline.smallLogger := by decide +kernel
  have hmsgs : ∀ msg ∈ messagesOf s.accepted, Legible firstDay msg ∧ msg.secs ≠ 0 := by
    rw [haccepted]
    intro msg hmsg
    have hmsg : msg ∈ [(⟨2, 3600000000000, "a]".toList⟩ : LogMsg),
        ⟨4, 3600017000000, "b".toList⟩] := hmsg
    simp only [List.mem_cons, List.not_mem_nil, or_false] at hmsg
    obtain rfl | rfl := hmsg
    · exact ⟨⟨firstDay_inRange (by decide), by decide, by decide⟩, by decide⟩
    · exact ⟨⟨firstDay_inRange (by decide), by decide, by decide⟩, by decide⟩
  have h := (log_read_back hopens hset (fun _ => lazyOs_healthy) (fun _ => rfl) 1 dayOne s hrun
    (Or.inl hjoined) lazyOs_healthy hmsgs (by rw [haccepted]; decide +kernel)).1
  rw [haccepted] at h
  refine ⟨s, hrun, ?_⟩
  have hentries : (messagesOf [⟨.log, ⟨2, 3600000000000, "a]".toList⟩⟩,
      ⟨.log, ⟨4, 3600017000000, "b".toList⟩⟩, .ofType .terminate]).map
        (entry firstDay loggerName)
      = [⟨"1970-01-01 01:00:00.000".toList, "logger".toList, 2, "a]".toList⟩,
          ⟨"1970-01-01 01:00:00.017".toList, "logger".toList, 4, "b".toList⟩] := by
    decide +kernel
  rw [← hentries]
  exact h

end LogReader

end SparkNet
