/-
  SparkNet.LogLine — what a log statement hands to the sinks.

  `LogStream` collects what is streamed; `~LogOpearator` appends
  "[{}:{}:{}]" to it and passes the whole as the format string
  (`include/Log.h`).  So the message goes through `fmt` and not beside it: a
  brace in it is an escape or a field, and the C string ends at a NUL.

  Main result:
    * `line_verbatim_iff` — a line carries its message verbatim exactly when the
      message has no brace and no NUL.
-/
import Mathlib.Data.List.TakeWhile
import SparkNet.Format
import SparkNet.InetAdress

namespace SparkNet

/-! ## §1. `LogStream` and `LogOpearator`. -/

/-- `std::string::rfind`; `npos` is `none`. -/
def rfind (str : Text) (ch : Char) : Option Nat :=
  (str.reverse.findIdx? (· == ch)).map fun i => str.length - 1 - i

/-- `FileTool::GetShortFilename`. -/
def getShortFilename (str : Text) : Text :=
  let index := match rfind str '/' with
    | none => 0
    | some index => index + 1
  str.drop index

/-- What a C string holds of a `std::string`. -/
def cStr (str : Text) : Text := str.takeWhile (· != '\x00')

/-- `spdlog::logger::log`: what the sinks get.  An exception of `fmt` is caught
there, and the line is dropped. -/
def loggerLog (currentLevel level : Nat) (format : Text) (args : List Fmt.Arg) : Option Text :=
  if currentLevel ≤ level then Fmt.format args 0 format else none

structure LogStream where
  strstrm : Text
  level : Nat

/-- `operator<<` of a value that prints as `value`. -/
def LogStream.insert (self : LogStream) (currentLevel : Nat) (value : Text) : LogStream :=
  if currentLevel ≤ self.level then { self with strstrm := self.strstrm ++ value } else self

structure LogOpearator where
  logstrm : LogStream
  level : Nat
  linenum : Int
  filename : Text
  functionname : Text
  logSysErr : Text
  isAbort : Bool

/-- What the destructor does: the text for the sinks, and does it abort? -/
structure LogOutcome where
  sunk : Option Text
  aborted : Bool

/-- `_logSysErr`, when it is asked for. -/
def sysErrText (logSysErr : Bool) (strerror : Text) : Text :=
  if logSysErr then " sys error:".toList ++ strerror else []

namespace LogOpearator

/-- The constructor; `strerror` is the text for `errno`. -/
def new (level : Nat) (linenum : Int) (filename functionname : Text)
    (logSysErr isabort : Bool) (strerror : Text) : LogOpearator where
  logstrm := ⟨[], level⟩
  level := level
  linenum := linenum
  filename := filename
  functionname := functionname
  logSysErr := sysErrText logSysErr strerror
  isAbort := isabort

def stream (self : LogOpearator) (currentLevel : Nat) (value : Text) : LogOpearator :=
  { self with logstrm := self.logstrm.insert currentLevel value }

/-- The destructor. -/
def destroy (self : LogOpearator) (currentLevel : Nat) : LogOutcome :=
  if currentLevel ≤ self.level then
    let str := self.logstrm.strstrm
    let str := if self.logSysErr.isEmpty then str else str ++ self.logSysErr
    let sunk :=
      if str.isEmpty then none
      else loggerLog currentLevel self.level (cStr (str ++ "[{}:{}:{}]".toList))
        [.str (getShortFilename self.filename), .str self.functionname, .int self.linenum]
    ⟨sunk, self.isAbort⟩
  else ⟨none, false⟩

end LogOpearator

/-- A whole log statement. -/
def logLine (currentLevel level : Nat) (linenum : Int) (filename functionname : Text)
    (logSysErr isabort : Bool) (strerror : Text) (values : List Text) : LogOutcome :=
  let op := LogOpearator.new level linenum filename functionname logSysErr isabort strerror
  (values.foldl (fun (op : LogOpearator) value => op.stream currentLevel value) op).destroy
    currentLevel

/-! ## §2. What a line should be. -/

/-- What follows the last '/'. -/
def shortFilename (file : Text) : Text := (file.reverse.takeWhile (· != '/')).reverse

/-- The text streamed, with the system's error when it was asked for. -/
def message (logSysErr : Bool) (strerror : Text) (values : List Text) : Text :=
  values.flatten ++ sysErrText logSysErr strerror

def place (linenum : Int) (filename functionname : Text) : Text :=
  '[' :: shortFilename filename ++ ':' :: functionname ++ ':' :: Fmt.writeDecimal linenum ++ [']']

/-- A text that a format string copies. -/
def Plain (text : Text) : Prop := '{' ∉ text ∧ '}' ∉ text ∧ '\x00' ∉ text

instance (text : Text) : Decidable (Plain text) :=
  inferInstanceAs (Decidable ('{' ∉ text ∧ '}' ∉ text ∧ '\x00' ∉ text))

/-! ## §3. The pieces. -/

theorem getShortFilename_eq (str : Text) : getShortFilename str = shortFilename str := by
  have hnot : (fun ch : Char => !(ch != '/')) = (· == '/') := by
    funext ch
    simp [bne]
  unfold getShortFilename rfind shortFilename
  rw [List.takeWhile_eq_take_findIdx_not, hnot, List.reverse_take, List.reverse_reverse,
    List.length_reverse]
  cases hfind : str.reverse.findIdx? (· == '/') with
  | none =>
      have hlast := List.findIdx?_eq_none_iff_findIdx_eq.mp hfind
      rw [List.length_reverse] at hlast
      simp [hlast]
  | some i =>
      obtain ⟨hlt, hlast⟩ := List.findIdx?_eq_some_iff_findIdx_eq.mp hfind
      rw [List.length_reverse] at hlt
      have hindex : str.length - 1 - i + 1 = str.length - i := by omega
      simp only [Option.map_some, hlast, hindex]

theorem mem_shortFilename {file : Text} {ch : Char} (h : ch ∈ shortFilename file) : ch ∈ file := by
  have hmem := List.mem_reverse.mp h
  exact List.mem_reverse.mp ((List.takeWhile_prefix _).mem hmem)

theorem cStr_of_not_mem {str : Text} (h : '\x00' ∉ str) : cStr str = str := by
  apply List.takeWhile_eq_self_iff.mpr
  intro ch hch
  have hne : ch ≠ '\x00' := by
    rintro rfl
    exact h hch
  simpa using hne

theorem not_mem_cStr (str : Text) : '\x00' ∉ cStr str := by
  intro h
  have hne := List.mem_takeWhile_imp h
  exact absurd hne (by decide)

/-- What is behind a NUL does not matter. -/
theorem cStr_append_of_mem {str : Text} (h : '\x00' ∈ str) (rest : Text) :
    cStr (str ++ rest) = cStr str := by
  have hshort : (cStr str).length ≠ str.length := by
    intro hlen
    have hall := (List.takeWhile_prefix (l := str) (· != '\x00')).eq_of_length hlen
    exact not_mem_cStr str (by rw [show cStr str = str from hall]; exact h)
  unfold cStr at hshort ⊢
  rw [List.takeWhile_append, if_neg hshort]

/-- An enabled level collects everything that is streamed. -/
theorem foldl_stream {currentLevel : Nat} (values : List Text) :
    ∀ op : LogOpearator, currentLevel ≤ op.logstrm.level →
      values.foldl (fun (op : LogOpearator) value => op.stream currentLevel value) op
        = { op with logstrm := ⟨op.logstrm.strstrm ++ values.flatten, op.logstrm.level⟩ } := by
  induction values with
  | nil =>
      intro op _
      simp
  | cons value values ih =>
      intro op hlevel
      have hstep : op.stream currentLevel value
          = { op with logstrm := ⟨op.logstrm.strstrm ++ value, op.logstrm.level⟩ } := by
        simp [LogOpearator.stream, LogStream.insert, hlevel]
      rw [List.foldl_cons, hstep]
      refine (ih _ ?_).trans ?_
      · exact hlevel
      · simp

/-! ## §4. The format string of a line. -/

/-- A character of a format string that is no brace. -/
theorem format_char {args : List Fmt.Arg} {id : Int} {c : Char} {rest : Text} (hopen : c ≠ '{')
    (hclose : c ≠ '}') :
    Fmt.format args id (c :: rest) = (Fmt.format args id rest).map (c :: ·) := by
  have hcopy : Fmt.format args id ([c] ++ rest) = (Fmt.format args id rest).map ([c] ++ ·) :=
    Fmt.format_copies (by simpa using hopen.symm) (by simpa using hclose.symm)
  exact hcopy

section Tail

variable {filename functionname : Text} {linenum : Int}

/-- What the destructor appends. -/
abbrev tailFormat : Text := "[{}:{}:{}]".toList

/-- The three arguments of a line. -/
abbrev lineArgs (linenum : Int) (filename functionname : Text) : List Fmt.Arg :=
  [.str (getShortFilename filename), .str functionname, .int linenum]

theorem tailFormat_eq : tailFormat
    = '[' :: '{' :: '}' :: ':' :: '{' :: '}' :: ':' :: '{' :: '}' :: [']'] := rfl

theorem barrier_tail : Fmt.Barrier tailFormat := Or.inr ⟨_, rfl⟩

/-- The tail takes all three arguments. -/
theorem format_tail : Fmt.format (lineArgs linenum filename functionname) 0 tailFormat
    = some (place linenum filename functionname) := by
  have hcolon : ∀ {id : Int} {rest : Text},
      Fmt.format (lineArgs linenum filename functionname) id (':' :: rest)
        = (Fmt.format (lineArgs linenum filename functionname) id rest).map (':' :: ·) :=
    format_char (by decide) (by decide)
  rw [tailFormat_eq, format_char (by decide) (by decide), Fmt.format_auto (by decide) rfl, hcolon,
    Fmt.format_auto (by decide) rfl, hcolon, Fmt.format_auto (by decide) rfl,
    format_char (by decide) (by decide), Fmt.format]
  simp [place, getShortFilename_eq, Fmt.Arg.plain]

/-- When an argument has been used before, one is missing. -/
theorem format_tail_used (id : Int) (hid : id ≠ 0) :
    Fmt.format (lineArgs linenum filename functionname) id tailFormat = none := by
  rw [tailFormat_eq, format_char (by decide) (by decide)]
  by_cases hneg : id < 0
  · rw [Fmt.format_auto_none (Or.inl hneg)]
    rfl
  · -- the third field has none left
    have hmissing : (lineArgs linenum filename functionname)[(id + 1 + 1).toNat]? = none := by
      apply List.getElem?_eq_none
      simp only [lineArgs, List.length_cons, List.length_nil]
      omega
    have hthird : Fmt.format (lineArgs linenum filename functionname) (id + 1 + 1)
        ('{' :: '}' :: [']']) = none := Fmt.format_auto_none (Or.inr hmissing)
    have hsecond : Fmt.format (lineArgs linenum filename functionname) (id + 1)
        ('{' :: '}' :: ':' :: '{' :: '}' :: [']']) = none := by
      apply Fmt.format_auto_of_rest
      rw [format_char (by decide) (by decide), hthird]
      rfl
    rw [Fmt.format_auto_of_rest]
    · rfl
    · rw [format_char (by decide) (by decide), hsecond]
      rfl

/-- **A line without NUL** is verbatim exactly when its text has no brace. -/
theorem format_line_iff (text : Text) :
    Fmt.format (lineArgs linenum filename functionname) 0 (text ++ tailFormat)
        = some (text ++ place linenum filename functionname)
      ↔ '{' ∉ text ∧ '}' ∉ text := by
  constructor
  · intro h
    obtain ⟨before, after, hout, hafter, hcase⟩ :=
      Fmt.format_append_cases barrier_tail format_tail_used h
    rw [format_tail] at hafter
    cases hafter
    have hlen : before = text := List.append_cancel_right hout.symm
    rcases hcase with ⟨_, hopen, hclose⟩ | hlt
    · exact ⟨hopen, hclose⟩
    · rw [hlen] at hlt
      exact absurd hlt (Nat.lt_irrefl _)
  · rintro ⟨hopen, hclose⟩
    rw [Fmt.format_copies hopen hclose, format_tail]
    rfl

/-- A text with a NUL in it is cut there, and nothing brings the NUL back. -/
theorem format_nul {text out : Text} (hnul : '\x00' ∈ text) (hfile : '\x00' ∉ filename)
    (hfunction : '\x00' ∉ functionname)
    (h : Fmt.format (lineArgs linenum filename functionname) 0 (cStr (text ++ tailFormat))
      = some out) : '\x00' ∉ out := by
  rw [cStr_append_of_mem hnul] at h
  have hprint : ∀ c : Char, Fmt.Printable c → c ≠ '\x00' := by
    rintro c hc rfl
    exact absurd hc (by decide)
  have hargs : ∀ s, Fmt.Arg.str s ∈ lineArgs linenum filename functionname →
      ∀ c ∈ s, c ≠ '\x00' := by
    intro s hs
    simp only [List.mem_cons, Fmt.Arg.str.injEq, reduceCtorEq, List.not_mem_nil, or_false] at hs
    rcases hs with rfl | rfl
    · rintro c hc rfl
      rw [getShortFilename_eq] at hc
      exact hfile (mem_shortFilename hc)
    · rintro c hc rfl
      exact hfunction hc
  have htext : ∀ c ∈ cStr text, c ≠ '\x00' := by
    rintro c hc rfl
    exact not_mem_cStr text hc
  exact fun hmem => Fmt.format_forall hprint hargs htext h _ hmem rfl

end Tail

/-! ## §5. Whole lines. -/

/-- What the destructor hands to the sinks at an enabled level. -/
theorem sunk_destroy {currentLevel level streamLevel : Nat} (hlevel : currentLevel ≤ level)
    {linenum : Int} {strstrm filename functionname logSysErr : Text} {isAbort : Bool}
    (hne : strstrm ++ logSysErr ≠ []) :
    (LogOpearator.destroy
        ⟨⟨strstrm, streamLevel⟩, level, linenum, filename, functionname, logSysErr, isAbort⟩
        currentLevel).sunk
      = Fmt.format (lineArgs linenum filename functionname) 0
        (cStr (strstrm ++ logSysErr ++ tailFormat)) := by
  have hstr : (if logSysErr.isEmpty then strstrm else strstrm ++ logSysErr)
      = strstrm ++ logSysErr := by
    cases logSysErr with
    | nil => simp
    | cons c t => rfl
  simp only [LogOpearator.destroy, hlevel, if_true]
  rw [hstr, if_neg (by simpa using hne), loggerLog, if_pos hlevel]

theorem sunk_logLine {currentLevel level : Nat} (hlevel : currentLevel ≤ level) (linenum : Int)
    (filename functionname : Text) (logSysErr isabort : Bool) (strerror : Text)
    {values : List Text} (hvalues : values.flatten ≠ []) :
    (logLine currentLevel level linenum filename functionname logSysErr isabort strerror
        values).sunk
      = Fmt.format (lineArgs linenum filename functionname) 0
        (cStr (message logSysErr strerror values ++ tailFormat)) := by
  unfold logLine
  simp only
  rw [foldl_stream values _ hlevel]
  apply sunk_destroy hlevel
  show values.flatten ++ _ ≠ []
  simp [hvalues]

/-- **When a line carries its message verbatim.**  At an enabled level and for every
message that is not empty, with any file name, function name and line number: iff
the message has no brace and no NUL.  Only where a NUL is in the message and in a
name too may chance repair what the NUL cuts off. -/
theorem line_verbatim_iff {currentLevel level : Nat} (hlevel : currentLevel ≤ level)
    (logSysErr isabort : Bool) (strerror : Text) {values : List Text}
    (hvalues : values.flatten ≠ []) :
    (∀ linenum filename functionname,
      ('\x00' ∈ message logSysErr strerror values →
        '\x00' ∉ filename ∧ '\x00' ∉ functionname) →
      ((logLine currentLevel level linenum filename functionname logSysErr isabort strerror
          values).sunk
          = some (message logSysErr strerror values ++ place linenum filename functionname)
        ↔ Plain (message logSysErr strerror values)))
    ∧ ((∀ linenum filename functionname,
        (logLine currentLevel level linenum filename functionname logSysErr isabort strerror
          values).sunk
          = some (message logSysErr strerror values ++ place linenum filename functionname))
      ↔ Plain (message logSysErr strerror values)) := by
  have hline : ∀ linenum filename functionname,
      ('\x00' ∈ message logSysErr strerror values →
        '\x00' ∉ filename ∧ '\x00' ∉ functionname) →
      ((logLine currentLevel level linenum filename functionname logSysErr isabort strerror
          values).sunk
          = some (message logSysErr strerror values ++ place linenum filename functionname)
        ↔ Plain (message logSysErr strerror values)) := by
    intro linenum filename functionname hnames
    rw [sunk_logLine hlevel _ _ _ _ _ _ hvalues]
    by_cases hnul : '\x00' ∈ message logSysErr strerror values
    · -- the message is cut, and nothing in the line has a NUL to put back
      obtain ⟨hfile, hfunction⟩ := hnames hnul
      constructor
      · intro h
        exact absurd (List.mem_append_left _ hnul) (format_nul hnul hfile hfunction h)
      · intro hplain
        exact absurd hnul hplain.2.2
    · have htail : '\x00' ∉ tailFormat := by decide
      rw [cStr_of_not_mem (by simp only [List.mem_append, hnul, htail, or_self, not_false_eq_true]),
        format_line_iff]
      constructor
      · rintro ⟨hopen, hclose⟩
        exact ⟨hopen, hclose, hnul⟩
      · rintro ⟨hopen, hclose, _⟩
        exact ⟨hopen, hclose⟩
  refine ⟨hline, ?_⟩
  constructor
  · intro h
    exact (hline 0 [] [] (fun _ => ⟨List.not_mem_nil, List.not_mem_nil⟩)).mp (h 0 [] [])
  · intro hplain linenum filename functionname
    exact (hline linenum filename functionname fun hnul => absurd hnul hplain.2.2).mpr hplain

/-- The theorem at a line of the library's own. -/
theorem line_verbatim_on_statement :
    (logLine 1 2 42 "src/main.cpp".toList "main".toList false false [] ["conn ".toList,
        "up".toList]).sunk = some "conn up[main.cpp:main:42]".toList := by
  have hvalues : ["conn ".toList, "up".toList].flatten ≠ [] := by decide
  have hlevel : 1 ≤ 2 := by decide
  have hline := (line_verbatim_iff hlevel false false [] hvalues).1 42
    "src/main.cpp".toList "main".toList (fun hnul => absurd hnul (by decide))
  exact hline.mpr (by decide)

/-- **Braces in a message**: a field takes the line's own arguments, and the line is
dropped; an escape loses a brace. -/
theorem braces_are_interpreted :
    (logLine 1 2 42 "src/main.cpp".toList "main".toList false false [] ["{}".toList]).sunk = none
      ∧ (logLine 1 2 42 "src/main.cpp".toList "main".toList false false [] ["\x7b\x7b".toList]).sunk
        = some "\x7b[main.cpp:main:42]".toList
      ∧ ¬ ∀ (values : List Text), values.flatten ≠ [] →
        (logLine 1 2 42 "src/main.cpp".toList "main".toList false false [] values).sunk
          = some (message false [] values
            ++ place 42 "src/main.cpp".toList "main".toList) := by
  have hdropped : (logLine 1 2 42 "src/main.cpp".toList "main".toList false false []
      ["{}".toList]).sunk = none := by
    decide +kernel
  refine ⟨hdropped, by decide +kernel, fun h => ?_⟩
  have hline := h ["{}".toList] (by decide)
  rw [hdropped] at hline
  cases hline

end SparkNet
