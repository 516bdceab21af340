/-
  SparkNet.LogConfig — how the logger gets its settings.

  `CLog::loadLogConfig` (`include/Log.h`) reads up to three sections of the
  configuration file, each over the one before, and assigns the fields as it
  converts them.  The ways out through a missing section set the logger up; the
  ways out through an exception of a conversion or of the parser do not.

  The parser of `nlohmann::json` and the files are parameters.

  Main results:
    * `loadLogConfig_eq` — the three levels are one loop over the sections that
      are present;
    * `init_raises` — an exception leaves the logger unset;
    * `init_configured_iff` — `init` succeeds with the settings of one source
      exactly when the log file can be made and the configuration file is absent,
      or is JSON whose sections are well formed.
-/
import SparkNet.LogLine

namespace SparkNet

/-! ## §1. JSON values and numbers. -/

/-- A JSON value; of numbers and arrays nothing is read. -/
inductive Json where
  | null
  | bool (value : Bool)
  | number (digits : Text)
  | string (value : Text)
  | array (elements : List Json)
  | object (members : List (Text × Json))

namespace Json

def isObject : Json → Bool
  | .object _ => true
  | _ => false

/-- `operator[]` on an object, where a missing member becomes null. -/
def field (self : Json) (key : Text) : Json :=
  match self with
  | .object members => (members.lookup key).getD .null
  | _ => .null

/-- `get<std::string>()`, which raises on every other type. -/
def getString : Json → Option Text
  | .string value => some value
  | _ => none

end Json

/-- `isspace` in the C locale. -/
def isSpace (ch : Char) : Bool :=
  ch == ' ' || ch == '\t' || ch == '\n' || ch == '\x0b' || ch == '\x0c' || ch == '\r'

/-- The sign `strtoul` takes in front. -/
def splitSign : Text → Bool × Text
  | '-' :: rest => (true, rest)
  | '+' :: rest => (false, rest)
  | text => (false, text)

/-- `std::stoul`; `none` is `std::invalid_argument` or `std::out_of_range`.  What
follows the digits is ignored, and a minus negates modulo 2^64. -/
def stoul (str : Text) : Option (BitVec 64) :=
  let (negative, text) := splitSign ((cStr str).dropWhile isSpace)
  let digits := text.takeWhile Char.isDigit
  let value := Nat.ofDigitChars 10 digits 0
  if digits.isEmpty then none
  -- the range is checked before the sign is applied
  else if value ≥ 18446744073709551616 then none
  else some (if negative then -BitVec.ofNat 64 value else BitVec.ofNat 64 value)

/-! ## §2. `CLog`. -/

structure LogConfig where
  level : BitVec 64
  maxFileSize : BitVec 64
  maxFileNum : BitVec 64
  logDir : Text
  deriving DecidableEq, Repr

/-- The constructor: the built-in defaults. -/
def LogConfig.new : LogConfig := ⟨0, 1024 * 1024 * 10, 100, "./log".toList⟩

/-- What `rotating_logger_mt` and `set_level` are given. -/
structure Logger where
  fileName : Text
  maxSize : BitVec 64
  maxFiles : BitVec 64
  level : BitVec 64
  deriving DecidableEq, Repr

structure CLog where
  configFilePath : Text
  procName : Text
  logConfig : LogConfig
  logger : Option Logger
  deriving DecidableEq, Repr

def CLog.new : CLog := ⟨[], [], LogConfig.new, none⟩

/-- What the process finds around it. -/
structure LogEnv where
  /-- The content of a file that can be opened. -/
  file : Text → Option Text
  /-- The JSON parser, which raises on what is no JSON. -/
  parse : Text → Option Json
  procName : Text
  pid : Nat
  pwd : Text
  today : Text
  /-- Can `spdlog` make the logger with this file? -/
  opens : Text → Bool

def LogEnv.logDir (env : LogEnv) : Text := env.pwd ++ "/log".toList ++ "/".toList ++ env.procName

def LogEnv.fileName (env : LogEnv) : Text :=
  env.logDir ++ "/".toList ++ env.procName ++ "_".toList ++ env.today ++ "_p".toList
    ++ decimal env.pid ++ ".log".toList

/-- `stoul` of a member that must be a string. -/
def number (section_ : Json) (key : String) : Option (BitVec 64) :=
  (section_.field key.toList).getString.bind stoul

/-- The four assignments from one section: did they all happen, and what was
assigned until an exception? -/
def readSection (section_ : Json) (config : LogConfig) : Bool × LogConfig :=
  match number section_ "level" with
  | none => (false, config)
  | some level =>
      let config := { config with level := level }
      match number section_ "filenum" with
      | none => (false, config)
      | some maxFileNum =>
          let config := { config with maxFileNum := maxFileNum }
          match number section_ "filesize" with
          | none => (false, config)
          | some maxFileSize =>
              let config := { config with maxFileSize := maxFileSize }
              match (section_.field "dir".toList).getString with
              | none => (false, config)
              | some logDir => (true, { config with logDir := logDir })

namespace CLog

/-- `setLogAtt`: the flag is false when the logger's file makes it raise. -/
def setLogAtt (env : LogEnv) (self : CLog) : Bool × CLog :=
  -- `_logDir` is overwritten: the configured directory is not used
  let config := { self.logConfig with logDir := env.logDir }
  let self := { self with logConfig := config }
  if env.opens env.fileName then
    (true, { self with logger := some ⟨env.fileName, config.maxFileSize * 1024 * 1024,
      config.maxFileNum, config.level⟩ })
  else (false, self)

/-- `setLogAtt(); return 0;` -/
def finish (env : LogEnv) (self : CLog) : Option Int × CLog :=
  let (ok, self) := self.setLogAtt env
  (if ok then some 0 else none, self)

/-- One section is read; an exception ends the function. -/
def readThen (section_ : Json) (self : CLog) (next : CLog → Option Int × CLog) :
    Option Int × CLog :=
  let (ok, config) := readSection section_ self.logConfig
  let self := { self with logConfig := config }
  if ok then next self else (none, self)

/-- `loadLogConfig`; the result is `none` when an exception leaves it. -/
def loadLogConfig (env : LogEnv) (self : CLog) : Option Int × CLog :=
  match env.file self.configFilePath with
  | none => self.finish env
  | some content =>
      match env.parse content with
      -- `ifile >> jv` raises: there is no logger yet
      | none => (none, self)
      | some jv =>
          let log := jv.field "log".toList
          let default_ := log.field "default".toList
          if !jv.isObject || !log.isObject || !default_.isObject then self.finish env
          else self.readThen default_ fun self =>
            let proc := log.field self.procName
            if !proc.isObject then self.finish env
            else self.readThen proc fun self =>
              let cfgTag := self.procName ++ "_".toList ++ decimal env.pid
              let tagged := log.field cfgTag
              if !tagged.isObject then self.finish env
              else self.readThen tagged fun self => self.finish env

/-- `init`; the result is `none` when an exception leaves it. -/
def init (env : LogEnv) (configPath : Text) (self : CLog) : Option Int × CLog :=
  let path := if configPath.isEmpty then "./config.json".toList else configPath
  let (ret, self) :=
    { self with procName := env.procName, configFilePath := path }.loadLogConfig env
  (ret.map fun _ => 0, self)

end CLog

/-! ## §3. What the settings should be. -/

/-- Level, number of files and file size. -/
structure Settings where
  level : BitVec 64
  maxFileNum : BitVec 64
  maxFileSize : BitVec 64
  deriving DecidableEq, Repr

def LogConfig.settings (config : LogConfig) : Settings :=
  ⟨config.level, config.maxFileNum, config.maxFileSize⟩

/-- The settings of a section, if it is well formed. -/
def settings? (section_ : Json) : Option Settings := do
  let level ← number section_ "level"
  let maxFileNum ← number section_ "filenum"
  let maxFileSize ← number section_ "filesize"
  let _ ← (section_.field "dir".toList).getString
  some ⟨level, maxFileNum, maxFileSize⟩

/-- The longest run of objects in front. -/
def present (sections : List Json) : List Json := sections.takeWhile Json.isObject

/-- The sections that are present with all less specific ones, those first. -/
def sectionsOf (env : LogEnv) (jv : Json) : List Json :=
  let log := jv.field "log".toList
  if jv.isObject && log.isObject then
    present [log.field "default".toList, log.field env.procName,
      log.field (env.procName ++ "_".toList ++ decimal env.pid)]
  else []

/-- The document of a file that can be opened and parsed. -/
def LogEnv.document (env : LogEnv) (path : Text) : Option Json := (env.file path).bind env.parse

/-- The sections of the configuration file; none without a document. -/
def LogEnv.sections (env : LogEnv) (path : Text) : List Json :=
  ((env.document path).map (sectionsOf env)).getD []

/-- The most specific section that is well formed, or the built-in defaults. -/
def LogEnv.expected (env : LogEnv) (path : Text) : Settings :=
  ((env.sections path).filterMap settings?).getLast?.getD LogConfig.new.settings

/-- The file that `init` reads. -/
def configFile (configPath : Text) : Text :=
  if configPath.isEmpty then "./config.json".toList else configPath

/-- There is no file, or it is JSON whose sections are well formed. -/
def LogEnv.WellFormed (env : LogEnv) (path : Text) : Prop :=
  env.file path = none
    ∨ (env.document path).isSome ∧ ∀ section_ ∈ env.sections path, (settings? section_).isSome

/-- **The logger is set up**, with the settings of one source. -/
structure Configured (env : LogEnv) (path : Text) (r : Option Int × CLog) : Prop where
  returns : r.1 = some 0
  logger : r.2.logger ≠ none
  settings : r.2.logConfig.settings = env.expected path

/-! ## §4. One section. -/

/-- All four assignments happen exactly when the section is well formed. -/
theorem readSection_completes (section_ : Json) (config : LogConfig) :
    (readSection section_ config).1 = (settings? section_).isSome := by
  unfold readSection settings?
  cases number section_ "level" with
  | none => rfl
  | some level =>
      cases number section_ "filenum" with
      | none => rfl
      | some maxFileNum =>
          cases number section_ "filesize" with
          | none => rfl
          | some maxFileSize => cases (section_.field "dir".toList).getString <;> rfl

/-- Nothing of an earlier section is left by a well-formed one. -/
theorem settings_readSection {section_ : Json} {settings : Settings}
    (h : settings? section_ = some settings) (config : LogConfig) :
    (readSection section_ config).2.settings = settings := by
  unfold settings? at h
  obtain ⟨level, hlevel, h⟩ := Option.bind_eq_some_iff.mp h
  obtain ⟨maxFileNum, hnum, h⟩ := Option.bind_eq_some_iff.mp h
  obtain ⟨maxFileSize, hsize, h⟩ := Option.bind_eq_some_iff.mp h
  obtain ⟨logDir, hdir, h⟩ := Option.bind_eq_some_iff.mp h
  obtain rfl := Option.some.inj h
  simp only [readSection, hlevel, hnum, hsize, hdir, LogConfig.settings]

/-- The logger is made if its file can be opened, with the settings as they are. -/
theorem finish_of_opens {env : LogEnv} (h : env.opens env.fileName = true) (self : CLog) :
    (self.finish env).1 = some 0 ∧ (self.finish env).2.logger ≠ none
      ∧ (self.finish env).2.logConfig.settings = self.logConfig.settings := by
  simp [CLog.finish, CLog.setLogAtt, h, LogConfig.settings]

theorem finish_of_not_opens {env : LogEnv} (h : env.opens env.fileName = false) (self : CLog) :
    (self.finish env).1 = none ∧ (self.finish env).2.logger = self.logger := by
  simp [CLog.finish, CLog.setLogAtt, h]

/-! ## §5. The three levels as a loop. -/

/-- The sections in turn, the logger at the end. -/
def applySections (env : LogEnv) : List Json → CLog → Option Int × CLog
  | [], self => self.finish env
  | section_ :: rest, self => self.readThen section_ (applySections env rest)

theorem applySections_cons {env : LogEnv} {section_ : Json} {rest : List Json} {self : CLog}
    (h : (readSection section_ self.logConfig).1 = true) :
    applySections env (section_ :: rest) self = applySections env rest
      { self with logConfig := (readSection section_ self.logConfig).2 } := by
  simp [applySections, CLog.readThen, h]

/-- **The early returns end the loop**: once the file is parsed, `loadLogConfig` reads the
sections that are present, in their order. -/
theorem loadLogConfig_parsed {env : LogEnv} {self : CLog} {jv : Json}
    (hproc : self.procName = env.procName) (hdoc : env.document self.configFilePath = some jv) :
    self.loadLogConfig env = applySections env (sectionsOf env jv) self := by
  obtain ⟨content, hfile, hparse⟩ := Option.bind_eq_some_iff.mp hdoc
  simp only [CLog.loadLogConfig, hfile, hparse, sectionsOf, present, CLog.readThen, hproc]
  generalize jv.field "log".toList = log
  generalize log.field "default".toList = default_
  generalize log.field env.procName = process
  generalize log.field (env.procName ++ "_".toList ++ decimal env.pid) = tagged
  -- one case for each `is_object` that fails
  cases hjv : jv.isObject with
  | false => simp [applySections]
  | true =>
      cases hlog : log.isObject with
      | false => simp [applySections]
      | true =>
          cases hdefault : default_.isObject with
          | false => simp [applySections, hdefault]
          | true =>
              cases hprocess : process.isObject with
              | false => simp [applySections, hdefault, hprocess, CLog.readThen, hproc]
              | true =>
                  cases htag : tagged.isObject with
                  | false => simp [applySections, hdefault, hprocess, htag, CLog.readThen, hproc]
                  | true => simp [applySections, hdefault, hprocess, htag, CLog.readThen, hproc]

/-- **`loadLogConfig` is one loop**, unless the parser raises. -/
theorem loadLogConfig_eq {env : LogEnv} {self : CLog} (hproc : self.procName = env.procName) :
    self.loadLogConfig env
      = if (env.file self.configFilePath).isSome && (env.document self.configFilePath).isNone then
          (none, self)
        else applySections env (env.sections self.configFilePath) self := by
  cases hfile : env.file self.configFilePath with
  | none => simp [CLog.loadLogConfig, hfile, LogEnv.sections, LogEnv.document, applySections]
  | some content =>
      cases hparse : env.parse content with
      | none => simp [CLog.loadLogConfig, hfile, hparse, LogEnv.document]
      | some jv =>
          have hdoc : env.document self.configFilePath = some jv := by
            simp [LogEnv.document, hfile, hparse]
          rw [loadLogConfig_parsed hproc hdoc]
          simp [LogEnv.sections, hdoc]

/-- **What stops the loop**: a section that is not well formed, or the log file. -/
theorem applySections_returns (env : LogEnv) (sections : List Json) :
    ∀ self : CLog, (applySections env sections self).1.isSome
      ↔ env.opens env.fileName = true ∧ ∀ section_ ∈ sections, (settings? section_).isSome := by
  induction sections with
  | nil =>
      intro self
      show (self.finish env).1.isSome ↔ _
      cases hopens : env.opens env.fileName with
      | true => simp [(finish_of_opens hopens self).1]
      | false => simp [(finish_of_not_opens hopens self).1]
  | cons section_ rest ih =>
      intro self
      have hcompletes := readSection_completes section_ self.logConfig
      cases hsettings : settings? section_ with
      | none =>
          -- the exception of this section ends the loop
          rw [hsettings] at hcompletes
          simp [applySections, CLog.readThen, hcompletes, hsettings]
      | some settings =>
          rw [hsettings] at hcompletes
          rw [applySections_cons hcompletes, ih]
          simp [hsettings]

/-- A loop that returns has made the logger, and the last section's settings stand. -/
theorem applySections_configures (env : LogEnv) (sections : List Json) :
    ∀ self : CLog, (applySections env sections self).1.isSome →
      (applySections env sections self).2.logger ≠ none
        ∧ (applySections env sections self).2.logConfig.settings
          = (sections.filterMap settings?).getLast?.getD self.logConfig.settings := by
  induction sections with
  | nil =>
      intro self hreturns
      have hopens := ((applySections_returns env [] self).mp hreturns).1
      exact (finish_of_opens hopens self).2
  | cons section_ rest ih =>
      intro self hreturns
      have hall := ((applySections_returns env (section_ :: rest) self).mp hreturns).2
      obtain ⟨settings, hsettings⟩ := Option.isSome_iff_exists.mp (hall section_ List.mem_cons_self)
      have hcompletes : (readSection section_ self.logConfig).1 = true := by
        rw [readSection_completes, hsettings]
        rfl
      rw [applySections_cons hcompletes] at hreturns ⊢
      obtain ⟨hlogger, hlast⟩ := ih _ hreturns
      refine ⟨hlogger, ?_⟩
      -- a later section overwrites this one, or this one is the last
      rw [hlast, settings_readSection hsettings, List.filterMap_cons_some hsettings]
      cases hrest : rest.filterMap settings? with
      | nil => rfl
      | cons first others => simp [List.getLast?_cons]

/-- **An exception leaves the logger as it was.** -/
theorem applySections_raises (env : LogEnv) (sections : List Json) :
    ∀ self : CLog, (applySections env sections self).1 = none →
      (applySections env sections self).2.logger = self.logger := by
  induction sections with
  | nil =>
      intro self hraises
      cases hopens : env.opens env.fileName with
      | true => exact absurd hraises (by simp [applySections, (finish_of_opens hopens self).1])
      | false => exact (finish_of_not_opens hopens self).2
  | cons section_ rest ih =>
      intro self hraises
      cases hcompletes : (readSection section_ self.logConfig).1 with
      | false => simp [applySections, CLog.readThen, hcompletes]
      | true =>
          rw [applySections_cons hcompletes] at hraises ⊢
          exact ih _ hraises

/-! ## §6. `init`. -/

/-- The object when `init` calls `loadLogConfig`. -/
abbrev CLog.start (env : LogEnv) (configPath : Text) : CLog :=
  { CLog.new with procName := env.procName, configFilePath := configFile configPath }

theorem init_eq (env : LogEnv) (configPath : Text) :
    CLog.new.init env configPath
      = (((CLog.start env configPath).loadLogConfig env).1.map fun _ => 0,
        ((CLog.start env configPath).loadLogConfig env).2) := rfl

/-- **An exception leaves the logger unset**, and the next log statement follows the null
pointer. -/
theorem init_raises {env : LogEnv} {configPath : Text}
    (h : (CLog.new.init env configPath).1 = none) :
    (CLog.new.init env configPath).2.logger = none := by
  rw [init_eq] at h ⊢
  have hraises := Option.map_eq_none_iff.mp h
  show ((CLog.start env configPath).loadLogConfig env).2.logger = none
  rw [loadLogConfig_eq rfl] at hraises ⊢
  split at hraises
  · rename_i hparser
    rw [if_pos hparser]
    rfl
  · rename_i hparser
    rw [if_neg hparser]
    exact applySections_raises env _ _ hraises

/-- A file that is absent has no sections. -/
theorem wellFormed_iff (env : LogEnv) (path : Text) :
    env.WellFormed path ↔ ¬ ((env.file path).isSome && (env.document path).isNone) = true
      ∧ ∀ section_ ∈ env.sections path, (settings? section_).isSome := by
  unfold LogEnv.WellFormed
  cases hfile : env.file path with
  | none => simp [LogEnv.sections, LogEnv.document, hfile]
  | some content => simp [Option.isSome_iff_ne_none]

/-- **When the logger is set up with the settings of one source.**  For every file,
parser, process name and pid: iff the log file can be made, and the file is absent or
every section that is present is well formed. -/
theorem init_configured_iff (env : LogEnv) (configPath : Text) :
    Configured env (configFile configPath) (CLog.new.init env configPath)
      ↔ env.opens env.fileName = true ∧ env.WellFormed (configFile configPath) := by
  have hload := @loadLogConfig_eq env (CLog.start env configPath) rfl
  rw [init_eq, wellFormed_iff]
  by_cases hparser : ((env.file (configFile configPath)).isSome
      && (env.document (configFile configPath)).isNone) = true
  · -- the parser raises: neither side holds
    rw [if_pos hparser] at hload
    rw [hload]
    constructor
    · intro h
      exact absurd h.returns (by simp)
    · intro h
      exact absurd hparser h.2.1
  · -- the loop runs
    rw [if_neg hparser] at hload
    rw [hload]
    constructor
    · intro h
      obtain ⟨ret, hret, -⟩ := Option.map_eq_some_iff.mp h.returns
      have hreturns := Option.isSome_of_eq_some hret
      obtain ⟨hopens, hall⟩ := (applySections_returns env _ _).mp hreturns
      exact ⟨hopens, hparser, hall⟩
    · intro ⟨hopens, _, hall⟩
      have hreturns := (applySections_returns env _ (CLog.start env configPath)).mpr ⟨hopens, hall⟩
      obtain ⟨ret, hret⟩ := Option.isSome_iff_exists.mp hreturns
      obtain ⟨hlogger, hsettings⟩ := applySections_configures env _ _ hreturns
      exact ⟨Option.map_eq_some_iff.mpr ⟨ret, hret, rfl⟩, hlogger, hsettings⟩

/-- A file count that is no number, in the only section. -/
def mistyped : Text :=
  ("\x7b\"log\":\x7b\"default\":\x7b\"level\":\"2\"," ++
    "\"filenum\":\"ten\",\"filesize\":\"5\",\"dir\":\"log\"\x7d\x7d\x7d").toList

/-- A process "echo" that finds this file. -/
def mistypedEnv : LogEnv where
  file path := if path = "./config.json".toList then some mistyped else none
  parse content :=
    if content = mistyped then
      some (.object [("log".toList, .object [("default".toList, .object
        [("level".toList, .string "2".toList), ("filenum".toList, .string "ten".toList),
          ("filesize".toList, .string "5".toList), ("dir".toList, .string "log".toList)])])])
    else none
  procName := "echo".toList
  pid := 42
  pwd := "/srv".toList
  today := "2020-01-01".toList
  opens _ := true

/-- **A field that is no number**: no logger, the file's level and the built-in count. -/
theorem mistyped_field_leaves_mixture :
    (CLog.new.init mistypedEnv []).1 = none
      ∧ (CLog.new.init mistypedEnv []).2.logger = none
      ∧ (CLog.new.init mistypedEnv []).2.logConfig.settings = ⟨2, 100, 10485760⟩
      ∧ ¬ ∀ (env : LogEnv) (configPath : Text), env.opens env.fileName = true →
        Configured env (configFile configPath) (CLog.new.init env configPath) := by
  have hraises : (CLog.new.init mistypedEnv []).1 = none := by decide +kernel
  have hsettings : (CLog.new.init mistypedEnv []).2.logConfig.settings = ⟨2, 100, 10485760⟩ := by
    decide +kernel
  refine ⟨hraises, init_raises hraises, hsettings, fun h => ?_⟩
  have hconfigured := h mistypedEnv [] rfl
  rw [hconfigured.returns] at hraises
  exact absurd hraises (by simp)

end SparkNet
