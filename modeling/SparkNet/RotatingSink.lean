/-
  SparkNet.RotatingSink — the files a log is written to.

  `rotating_file_sink` and `file_helper` of the bundled `spdlog`
  (`include/spdlog/sinks/rotating_file_sink-inl.h`,
  `include/spdlog/details/file_helper-inl.h`).  A line that would take the file
  over its limit makes the sink rotate: "log.txt" becomes "log.1.txt", that
  "log.2.txt", and so on up to the last number, which is overwritten.  The stream
  has a buffer, of which any part may be in the file.  The system may refuse to
  open or to rename, and a write may be short; the sink then raises, and the
  logger goes on with the next line.  A flush or a close may be refused too, which
  the sink does not see.

  Main results:
    * `sink_refines` — while the system refuses nothing, the files, once flushed, are
      the generations of the log: the last lines, each in one file, in order;
    * `nothing_lost_early` — until then the log is complete;
    * `sink_never_null` — whatever it refuses, no line is written to a null
      stream, and no file grows beyond its limit.
-/
import SparkNet.Generations
import SparkNet.LogLine

namespace SparkNet

/-! ## §1. File names. -/

/-- `file_helper::split_by_extension`. -/
def splitByExtension (fname : Text) : Text × Text :=
  match rfind fname '.' with
  | none => (fname, [])
  | some extIndex =>
      if extIndex = 0 ∨ extIndex = fname.length - 1 then (fname, [])
      else match rfind fname '/' with
        | none => (fname.take extIndex, fname.drop extIndex)
        | some folderIndex =>
            -- a dot of a folder, or of a hidden file
            if extIndex - 1 ≤ folderIndex then (fname, [])
            else (fname.take extIndex, fname.drop extIndex)

/-- `calc_filename`. -/
def calcFilename (filename : Text) (index : Nat) : Text :=
  if index = 0 then filename
  else
    let (basename, ext) := splitByExtension filename
    basename ++ ['.'] ++ decimal index ++ ext

theorem splitByExtension_append (fname : Text) :
    (splitByExtension fname).1 ++ (splitByExtension fname).2 = fname := by
  unfold splitByExtension
  split
  · exact List.append_nil _
  · split
    · exact List.append_nil _
    · split
      · exact List.take_append_drop _ _
      · split
        · exact List.append_nil _
        · exact List.take_append_drop _ _

/-- **No two generations share a file.** -/
theorem calcFilename_injective (filename : Text) : Function.Injective (calcFilename filename) := by
  have hlonger : ∀ index, index ≠ 0 → filename.length < (calcFilename filename index).length := by
    intro index hindex
    have happend := congrArg List.length (splitByExtension_append filename)
    rw [List.length_append] at happend
    unfold calcFilename
    rw [if_neg hindex]
    simp only [List.length_append, List.length_singleton]
    omega
  intro i j h
  by_cases hi : i = 0
  · by_contra hne
    have := hlonger j (by omega)
    rw [← h, hi, calcFilename, if_pos rfl] at this
    exact Nat.lt_irrefl _ this
  · by_cases hj : j = 0
    · have := hlonger i hi
      rw [h, hj, calcFilename, if_pos rfl] at this
      exact absurd this (Nat.lt_irrefl _)
    · unfold calcFilename at h
      rw [if_neg hi, if_neg hj] at h
      have h := List.append_cancel_right h
      exact decimal_injective (List.append_cancel_left h)

/-! ## §2. `file_helper`. -/

/-- What the system answers during one call of the sink. -/
structure OsAnswers where
  /-- Does an attempt to open the file succeed? -/
  opens : Nat → Bool
  /-- Do the first and the second attempt to make a file generation `i` succeed? -/
  renames : Nat → Bool × Bool
  /-- How many bytes a write takes; all of them if there is no number. -/
  takes : Option Nat
  /-- How many bytes of the buffer get into the file. -/
  spill : Nat
  /-- The same for a flush or a close; all of them if there is no number. -/
  flushes : Option Nat
  /-- How many bytes the stream drops that it could not write. -/
  lost : Nat

/-- The system refuses nothing. -/
structure OsAnswers.Healthy (os : OsAnswers) : Prop where
  opens : os.opens 0 = true
  renames : ∀ i, (os.renames i).1 = true
  takes : os.takes = none
  flushes : os.flushes = none
  lost : os.lost = 0

inductive SinkError where
  | opening (filename : Text)
  | notOpened
  | renaming (src target : Text)
  | writing (filename : Text)
  /-- No exception, but the use of a null pointer. -/
  | nullStream
  deriving DecidableEq, Repr

structure FileHelper where
  /-- `fd_`: null, or a stream with this in its buffer. -/
  fd : Option Text
  filename : Text
  /-- The files of the system. -/
  disk : Text → Option Text

namespace FileHelper

def openTries : Nat := 5

/-- What is in the file. -/
def content (self : FileHelper) : Text := (self.disk self.filename).getD []

theorem content_update (fd : Option Text) (name : Text) (disk : Text → Option Text) (file : Text) :
    (⟨fd, name, Function.update disk name (some file)⟩ : FileHelper).content = file := by
  show (Function.update disk name (some file) name).getD [] = file
  rw [Function.update_self]
  rfl

def setFile (self : FileHelper) (name : Text) (file : Option Text) : FileHelper :=
  { self with disk := Function.update self.disk name file }

/-- `flush`, which ignores the result of `fflush`; of a null stream it is that of
all others. -/
def flush (self : FileHelper) (os : OsAnswers) : FileHelper :=
  match self.fd with
  | none => self
  | some buffer =>
      let written := os.flushes.getD buffer.length
      { self.setFile self.filename (some (self.content ++ buffer.take written)) with
        fd := some ((buffer.drop written).drop os.lost) }

/-- `close`, which ignores the result of `fclose`: what that could not write is lost. -/
def close (self : FileHelper) (os : OsAnswers) : FileHelper := { self.flush os with fd := none }

/-- `open`. -/
def open_ (self : FileHelper) (os : OsAnswers) (fname : Text) (truncate : Bool) :
    FileHelper × Option SinkError :=
  let self := { self.close os with filename := fname }
  if (List.range openTries).any os.opens then
    ({ self.setFile fname (some (if truncate then [] else self.content)) with fd := some [] }, none)
  else (self, some (.opening fname))

def reopen (self : FileHelper) (os : OsAnswers) (truncate : Bool) :
    FileHelper × Option SinkError :=
  if self.filename = [] then (self, some .notOpened) else self.open_ os self.filename truncate

def write (self : FileHelper) (os : OsAnswers) (data : Text) : FileHelper × Option SinkError :=
  match self.fd with
  | none => (self, some .nullStream)
  | some buffer =>
      let taken := match os.takes with
        | none => data
        | some k => data.take k
      let buffer := buffer ++ taken
      ({ self.setFile self.filename (some (self.content ++ buffer.take os.spill)) with
          fd := some ((buffer.drop os.spill).drop os.lost) },
        if taken.length = data.length then none else some (.writing self.filename))

/-- A flush that is not refused leaves an empty buffer. -/
theorem flush_healthy {self : FileHelper} {buffer : Text} (hfd : self.fd = some buffer)
    {os : OsAnswers} (hos : os.Healthy) :
    self.flush os = { self.setFile self.filename (some (self.content ++ buffer)) with
      fd := some [] } := by
  unfold flush
  rw [hfd]
  dsimp only
  rw [hos.flushes, Option.getD_none, List.take_length, List.drop_length, List.drop_nil]

/-- Opening the file again empties it, or leaves the sink without a stream. -/
theorem reopen_closed (self : FileHelper) (hfd : self.fd = none) (os : OsAnswers) :
    self.reopen os true
        = (⟨some [], self.filename, Function.update self.disk self.filename (some [])⟩, none)
      ∨ ∃ e, e ≠ .nullStream ∧ self.reopen os true = (self, some e) := by
  obtain ⟨fd, filename, disk⟩ := self
  obtain rfl : fd = none := hfd
  unfold reopen
  split
  · exact Or.inr ⟨.notOpened, by decide, rfl⟩
  · unfold open_
    dsimp only
    split
    · exact Or.inl rfl
    · exact Or.inr ⟨.opening filename, by simp, rfl⟩

end FileHelper

/-! ## §3. `rotating_file_sink`. -/

structure RotatingSink where
  baseFilename : Text
  maxSize : Nat
  maxFiles : Nat
  currentSize : Nat
  fileHelper : FileHelper

namespace RotatingSink

/-- `rename_file_`: did it succeed? -/
def renameFile (s : RotatingSink) (ok : Bool) (src target : Text) : RotatingSink × Bool :=
  let helper := s.fileHelper.setFile target none
  if ok then
    let helper := helper.setFile target (s.fileHelper.disk src)
    ({ s with fileHelper := helper.setFile src none }, true)
  else ({ s with fileHelper := helper }, false)

/-- The loop of `rotate_`, from the last generation down. -/
def rotateFrom (os : OsAnswers) : Nat → RotatingSink → RotatingSink × Option SinkError
  | 0, s => (s, none)
  | i + 1, s =>
      let src := calcFilename s.baseFilename i
      if (s.fileHelper.disk src).isNone then rotateFrom os i s
      else
        let target := calcFilename s.baseFilename (i + 1)
        match s.renameFile (os.renames (i + 1)).1 src target with
        | (s, true) => rotateFrom os i s
        | (s, false) => match s.renameFile (os.renames (i + 1)).2 src target with
            | (s, true) => rotateFrom os i s
            | (s, false) => match s.fileHelper.reopen os true with
                | (helper, some e) => ({ s with fileHelper := helper }, some e)
                | (helper, none) =>
                    ({ s with fileHelper := helper, currentSize := 0 }, some (.renaming src target))

/-- `rotate_`. -/
def rotate (os : OsAnswers) (s : RotatingSink) : RotatingSink × Option SinkError :=
  match rotateFrom os s.maxFiles { s with fileHelper := s.fileHelper.close os } with
  | (s, some e) => (s, some e)
  | (s, none) =>
      let (helper, e) := s.fileHelper.reopen os true
      ({ s with fileHelper := helper }, e)

/-- The constructor; `os` answers its `open`, `os'` a rotation on opening. -/
def new (os os' : OsAnswers) (baseFilename : Text) (maxSize maxFiles : Nat) (rotateOnOpen : Bool)
    (disk : Text → Option Text) : RotatingSink × Option SinkError :=
  match FileHelper.open_ ⟨none, [], disk⟩ os (calcFilename baseFilename 0) false with
  | (helper, some e) => (⟨baseFilename, maxSize, maxFiles, 0, helper⟩, some e)
  | (helper, none) =>
      let s : RotatingSink := ⟨baseFilename, maxSize, maxFiles, helper.content.length, helper⟩
      if rotateOnOpen && 0 < s.currentSize then s.rotate os' else (s, none)

def write (os : OsAnswers) (formatted : Text) (s : RotatingSink) :
    RotatingSink × Option SinkError :=
  let (helper, e) := s.fileHelper.write os formatted
  ({ s with fileHelper := helper }, e)

/-- `sink_it_`, of the formatted line. -/
def sinkIt (os : OsAnswers) (formatted : Text) (s : RotatingSink) :
    RotatingSink × Option SinkError :=
  let s := { s with currentSize := (s.currentSize + formatted.length) % 2 ^ 64 }
  if s.maxSize < s.currentSize then
    match s.rotate os with
    | (s, some e) => (s, some e)
    | (s, none) => write os formatted { s with currentSize := formatted.length }
  else write os formatted s

/-- `flush_`. -/
def flush (os : OsAnswers) (s : RotatingSink) : RotatingSink :=
  { s with fileHelper := s.fileHelper.flush os }

/-- A call of the logger, which catches the exceptions of the sink. -/
inductive SinkCall where
  | log (os : OsAnswers) (formatted : Text)
  | flush (os : OsAnswers)

def call (s : RotatingSink) : SinkCall → RotatingSink
  | .log os formatted => (s.sinkIt os formatted).1
  | .flush os => s.flush os

def SinkCall.lines : SinkCall → List Text
  | .log _ formatted => [formatted]
  | .flush _ => []

/-! ## §4. The files are the generations. -/

/-- The file of generation `i`. -/
def generation (s : RotatingSink) (i : Nat) : Option Text :=
  s.fileHelper.disk (calcFilename s.baseFilename i)

/-- The sink with an open stream, whose files are generations of lines. -/
structure Holds (s : RotatingSink) (f : Nat → Option (List Text)) : Prop where
  filename : s.fileHelper.filename = s.baseFilename
  named : s.baseFilename ≠ []
  stream : ∃ buffer file lines, s.fileHelper.fd = some buffer ∧ s.generation 0 = some file
    ∧ f 0 = some lines ∧ file ++ buffer = lines.flatten
  files : ∀ i, 0 < i → s.generation i = (f i).map List.flatten

variable {s : RotatingSink} {f : Nat → Option (List Text)} {os : OsAnswers}

theorem calcFilename_zero (filename : Text) : calcFilename filename 0 = filename := if_pos rfl

/-- The same sink, with other files. -/
def withDisk (s : RotatingSink) (disk : Text → Option Text) : RotatingSink :=
  { s with fileHelper := { s.fileHelper with disk := disk } }

/-- A rename that succeeds moves generation `i` up. -/
theorem renameFile_true (s : RotatingSink) {i : Nat} (hsrc : ¬ (s.generation i).isNone = true) :
    ∃ disk, s.renameFile true (calcFilename s.baseFilename i) (calcFilename s.baseFilename (i + 1))
        = (s.withDisk disk, true)
      ∧ (s.withDisk disk).generation = Generations.moveUp s.generation i
      ∧ ∀ name, name ≠ calcFilename s.baseFilename i → name ≠ calcFilename s.baseFilename (i + 1) →
        disk name = s.fileHelper.disk name := by
  refine ⟨_, rfl, ?_, ?_⟩
  · unfold Generations.moveUp
    rw [if_neg hsrc]
    funext j
    show Function.update (Function.update (Function.update s.fileHelper.disk _ none) _ _) _ none
      (calcFilename s.baseFilename j) = _
    have hinj := calcFilename_injective s.baseFilename
    by_cases hj : j = i
    · rw [hj, Function.update_self, Function.update_self]
    · rw [Function.update_of_ne (hinj.ne hj), Function.update_of_ne hj]
      by_cases hj' : j = i + 1
      · rw [hj', Function.update_self, Function.update_self]
        rfl
      · rw [Function.update_of_ne (hinj.ne hj'), Function.update_of_ne (hinj.ne hj'),
          Function.update_of_ne hj']
        rfl
  · intro name hname hname'
    exact (Function.update_of_ne hname _ _).trans
      ((Function.update_of_ne hname' _ _).trans (Function.update_of_ne hname' _ _))

theorem generation_setFile_zero (s : RotatingSink) (file : Option Text) :
    (s.withDisk (Function.update s.fileHelper.disk s.baseFilename file)).generation
      = Function.update s.generation 0 file := by
  have h := Function.update_comp_eq_of_injective s.fileHelper.disk
    (calcFilename_injective s.baseFilename) 0 file
  rw [calcFilename_zero] at h
  exact h

/-- The loop moves the generations up. -/
theorem rotateFrom_healthy (hos : os.Healthy) (n : Nat) (s : RotatingSink) :
    ∃ disk, rotateFrom os n s = (s.withDisk disk, none)
      ∧ (s.withDisk disk).generation = Generations.shift s.generation n
      ∧ ∀ name, (∀ i ≤ n, name ≠ calcFilename s.baseFilename i) →
        disk name = s.fileHelper.disk name := by
  induction n generalizing s with
  | zero => exact ⟨s.fileHelper.disk, rfl, rfl, fun _ _ => rfl⟩
  | succ n ih =>
      rw [Generations.shift]
      by_cases hsrc : (s.generation n).isNone = true
      · obtain ⟨disk, hrun, hgen, hframe⟩ := ih s
        refine ⟨disk, ?_, ?_, fun name hname => hframe name fun i hi => hname i (by omega)⟩
        · have hnone : (s.fileHelper.disk (calcFilename s.baseFilename n)).isNone = true := hsrc
          rw [rotateFrom, if_pos hnone, hrun]
        · rw [hgen, Generations.moveUp, if_pos hsrc]
      · obtain ⟨disk, hrename, hgen, hframe⟩ := renameFile_true s hsrc
        obtain ⟨disk', hrun, hgen', hframe'⟩ := ih (s.withDisk disk)
        refine ⟨disk', ?_, ?_, fun name hname => ?_⟩
        · have hnone : ¬ (s.fileHelper.disk (calcFilename s.baseFilename n)).isNone = true := hsrc
          rw [rotateFrom, if_neg hnone, hos.renames (n + 1)]
          dsimp only
          rw [hrename]
          exact hrun
        · rw [← hgen]
          exact hgen'
        · rw [hframe' name fun i hi => hname i (by omega)]
          exact hframe name (hname n (by omega)) (hname (n + 1) le_rfl)

theorem Holds.name (h : Holds s f) : s.fileHelper.filename = calcFilename s.baseFilename 0 :=
  h.filename.trans (calcFilename_zero _).symm

/-- The file of the stream is generation 0. -/
theorem content_eq_generation (hname : s.fileHelper.filename = s.baseFilename) :
    s.fileHelper.content = (s.generation 0).getD [] := by
  unfold FileHelper.content generation
  rw [hname, calcFilename_zero]

theorem Holds.content_eq (h : Holds s f) {file : Text} (hfile : s.generation 0 = some file) :
    s.fileHelper.content = file := by
  rw [content_eq_generation h.filename, hfile]
  rfl

/-- The file of the stream, once the buffer is in it. -/
theorem Holds.close (h : Holds s f) (hos : os.Healthy) :
    ∃ disk, s.fileHelper.close os = { s.fileHelper with fd := none, disk := disk }
      ∧ (s.withDisk disk).generation = (fun i => (f i).map List.flatten)
      ∧ ∀ name, (∀ i ≤ s.maxFiles, name ≠ calcFilename s.baseFilename i) →
        disk name = s.fileHelper.disk name := by
  obtain ⟨buffer, file, lines, hfd, hfile, hlines, hcontent⟩ := h.stream
  have hname := h.name
  have hthere := h.content_eq hfile
  refine ⟨Function.update s.fileHelper.disk (calcFilename s.baseFilename 0) (some lines.flatten),
    ?_, ?_, ?_⟩
  · unfold FileHelper.close
    rw [FileHelper.flush_healthy hfd hos, ← hname, ← hcontent, ← hthere]
    rfl
  · funext i
    show Function.update s.fileHelper.disk _ _ (calcFilename s.baseFilename i) = _
    by_cases hi : i = 0
    · rw [hi, Function.update_self, hlines]
      rfl
    · rw [Function.update_of_ne ((calcFilename_injective _).ne hi)]
      exact h.files i (by omega)
  · intro name hother
    exact Function.update_of_ne (hother 0 (Nat.zero_le _)) _ _

/-- A rotation: the generations have moved up, and the file is empty. -/
theorem Holds.rotate (h : Holds s f) (hos : os.Healthy) :
    ∃ disk, s.rotate os
        = ({ s with fileHelper := ⟨some [], s.baseFilename, disk⟩ }, none)
      ∧ (s.withDisk disk).generation
        = Function.update (fun i => (Generations.shift f s.maxFiles i).map List.flatten) 0 (some [])
      ∧ ∀ name, (∀ i ≤ s.maxFiles, name ≠ calcFilename s.baseFilename i) →
        disk name = s.fileHelper.disk name := by
  obtain ⟨disk, hclose, hgen, hframe⟩ := h.close hos
  obtain ⟨disk', hrun, hgen', hframe'⟩ :=
    rotateFrom_healthy hos s.maxFiles { s with fileHelper := s.fileHelper.close os }
  have hopens : (List.range FileHelper.openTries).any os.opens = true :=
    List.any_eq_true.mpr ⟨0, by decide, hos.opens⟩
  refine ⟨Function.update disk' s.baseFilename (some []), ?_, ?_, ?_⟩
  · unfold RotatingSink.rotate
    rw [hrun, hclose]
    simp only [withDisk, FileHelper.reopen, FileHelper.open_, FileHelper.close, FileHelper.flush,
      FileHelper.setFile, h.filename, if_neg h.named, hopens, if_true]
  · rw [hclose] at hgen'
    have hshift : (s.withDisk disk').generation
        = fun i => (Generations.shift f s.maxFiles i).map List.flatten := by
      rw [← Generations.shift_map, ← hgen]
      exact hgen'
    rw [← hshift, ← generation_setFile_zero]
    rfl
  · intro name hname
    have hbase : name ≠ s.baseFilename := calcFilename_zero s.baseFilename ▸ hname 0 (Nat.zero_le _)
    rw [Function.update_of_ne hbase, hframe' name hname, ← hframe name hname, hclose]

/-- The two sinks log to the same place. -/
structure SamePlace (s s' : RotatingSink) : Prop where
  baseFilename : s'.baseFilename = s.baseFilename
  maxSize : s'.maxSize = s.maxSize
  maxFiles : s'.maxFiles = s.maxFiles
  /-- No other file has changed. -/
  others : ∀ name, (∀ i ≤ s.maxFiles, name ≠ calcFilename s.baseFilename i) →
    s'.fileHelper.disk name = s.fileHelper.disk name

theorem SamePlace.refl (s : RotatingSink) : SamePlace s s := ⟨rfl, rfl, rfl, fun _ _ => rfl⟩

theorem SamePlace.trans {s₁ s₂ s₃ : RotatingSink} (h : SamePlace s₁ s₂) (h' : SamePlace s₂ s₃) :
    SamePlace s₁ s₃ where
  baseFilename := h'.baseFilename.trans h.baseFilename
  maxSize := h'.maxSize.trans h.maxSize
  maxFiles := h'.maxFiles.trans h.maxFiles
  others name hname := by
    rw [h'.others name (h.maxFiles ▸ h.baseFilename ▸ hname), h.others name hname]

/-- What goes into the stream is in the file or in the buffer. -/
theorem Holds.write (h : Holds s f) (hos : os.Healthy) {lines : List Text}
    (hlines : f 0 = some lines) (formatted : Text) :
    ∃ s', RotatingSink.write os formatted s = (s', none)
      ∧ Holds s' (Function.update f 0 (some (lines ++ [formatted])))
      ∧ s'.currentSize = s.currentSize ∧ SamePlace s s' := by
  obtain ⟨buffer, file, lines', hfd, hfile, hlines', hcontent⟩ := h.stream
  obtain rfl : lines = lines' := Option.some.inj (hlines.symm.trans hlines')
  have hname := h.name
  have hthere := h.content_eq hfile
  unfold RotatingSink.write FileHelper.write
  rw [hfd, hos.takes, hos.lost]
  simp only [if_true, List.drop_zero]
  refine ⟨_, rfl, ⟨h.filename, h.named, ?_, ?_⟩, rfl, rfl, rfl, rfl, ?_⟩
  · refine ⟨(buffer ++ formatted).drop os.spill, file ++ (buffer ++ formatted).take os.spill,
      lines ++ [formatted], rfl, ?_, Function.update_self .., ?_⟩
    · show Function.update s.fileHelper.disk s.fileHelper.filename _
        (calcFilename s.baseFilename 0) = _
      rw [hname, Function.update_self, hthere]
    · rw [List.append_assoc, List.take_append_drop, ← List.append_assoc, hcontent,
        List.flatten_append, List.flatten_cons, List.flatten_nil, List.append_nil]
  · intro i hi
    show Function.update s.fileHelper.disk s.fileHelper.filename _
      (calcFilename s.baseFilename i) = _
    rw [hname, Function.update_of_ne ((calcFilename_injective _).ne (by omega)),
      Function.update_of_ne (by omega)]
    exact h.files i hi
  · intro name hother
    show Function.update s.fileHelper.disk s.fileHelper.filename _ name = _
    rw [hname, Function.update_of_ne (hother 0 (Nat.zero_le _))]

/-- **A line** goes to the generations. -/
theorem Holds.sinkIt (h : Holds s f) (hos : os.Healthy)
    (hsize : s.currentSize = Generations.load List.length ((f 0).getD [])) (formatted : Text)
    (hfits : s.currentSize + formatted.length < 2 ^ 64) :
    ∃ s', s.sinkIt os formatted = (s', none)
      ∧ Holds s' (Generations.add List.length s.maxSize s.maxFiles f formatted)
      ∧ s'.currentSize = Generations.load List.length
        ((Generations.add List.length s.maxSize s.maxFiles f formatted 0).getD [])
      ∧ s'.currentSize ≤ s.currentSize + formatted.length ∧ SamePlace s s' := by
  obtain ⟨_, _, lines, _, _, hlines, _⟩ := h.stream
  have hlen : Generations.load List.length [formatted] = formatted.length := by
    simp [Generations.load]
  unfold RotatingSink.sinkIt Generations.add
  rw [Nat.mod_eq_of_lt hfits, ← hsize]
  dsimp only
  by_cases hover : s.maxSize < s.currentSize + formatted.length
  · rw [if_pos hover, if_pos hover]
    have hsized : Holds { s with currentSize := s.currentSize + formatted.length } f :=
      ⟨h.filename, h.named, h.stream, h.files⟩
    obtain ⟨disk, hrun, hgen, hframe⟩ := hsized.rotate hos
    rw [hrun]
    have hempty : Holds { s with
          currentSize := formatted.length, fileHelper := ⟨some [], s.baseFilename, disk⟩ }
        (Function.update (Generations.shift f s.maxFiles) 0 (some [])) := by
      refine ⟨rfl, h.named, ⟨[], [], [], rfl, ?_, Function.update_self .., rfl⟩, ?_⟩
      · exact (congrFun hgen 0).trans (Function.update_self ..)
      · intro i hi
        rw [Function.update_of_ne (by omega)]
        exact (congrFun hgen i).trans (Function.update_of_ne (by omega) _ _)
    obtain ⟨s', hwrite, hholds, hcur, hplace⟩ :=
      hempty.write hos (Function.update_self ..) formatted
    refine ⟨s', hwrite, ?_, ?_, ?_, ?_⟩
    · rw [Function.update_idem] at hholds
      exact hholds
    · rw [hcur, Function.update_self, Option.getD_some, hlen]
    · rw [hcur]
      exact Nat.le_add_left _ _
    · have hbefore : SamePlace s { s with
          currentSize := formatted.length, fileHelper := ⟨some [], s.baseFilename, disk⟩ } :=
        ⟨rfl, rfl, rfl, hframe⟩
      exact hbefore.trans hplace
  · rw [if_neg hover, if_neg hover]
    have hsized : Holds { s with currentSize := s.currentSize + formatted.length } f :=
      ⟨h.filename, h.named, h.stream, h.files⟩
    obtain ⟨s', hwrite, hholds, hcur, hplace⟩ := hsized.write hos hlines formatted
    refine ⟨s', hwrite, ?_, ?_, hcur.le, ?_⟩
    · rw [hlines]
      exact hholds
    · rw [hcur, Function.update_self, Option.getD_some, Generations.load_append, hlen, ← hsize]
    · have hbefore : SamePlace s { s with currentSize := s.currentSize + formatted.length } :=
        ⟨rfl, rfl, rfl, fun _ _ => rfl⟩
      exact hbefore.trans hplace

/-- Flushing moves the buffer into the file. -/
theorem Holds.flush (h : Holds s f) (hos : os.Healthy) :
    Holds (s.flush os) f ∧ SamePlace s (s.flush os) := by
  obtain ⟨buffer, file, lines, hfd, hfile, hlines, hcontent⟩ := h.stream
  have hname := h.name
  have hthere := h.content_eq hfile
  unfold RotatingSink.flush
  rw [FileHelper.flush_healthy hfd hos]
  refine ⟨⟨h.filename, h.named, ⟨[], file ++ buffer, lines, rfl, ?_, hlines, ?_⟩, ?_⟩,
    ⟨rfl, rfl, rfl, ?_⟩⟩
  · show Function.update s.fileHelper.disk s.fileHelper.filename _
      (calcFilename s.baseFilename 0) = _
    rw [hname, Function.update_self, hthere]
  · rw [List.append_nil, hcontent]
  · intro i hi
    show Function.update s.fileHelper.disk s.fileHelper.filename _
      (calcFilename s.baseFilename i) = _
    rw [hname, Function.update_of_ne ((calcFilename_injective _).ne (by omega))]
    exact h.files i hi
  · intro name hother
    show Function.update s.fileHelper.disk s.fileHelper.filename _ name = _
    rw [hname, Function.update_of_ne (hother 0 (Nat.zero_le _))]

/-- After a flush every generation is in its file. -/
theorem Holds.flushed (h : Holds s f) (hos : os.Healthy) :
    (s.flush os).generation = fun i => (f i).map List.flatten := by
  obtain ⟨_, _, _, hfd, _⟩ := h.stream
  have hempty : (s.flush os).fileHelper.fd = some [] := by
    unfold RotatingSink.flush
    rw [FileHelper.flush_healthy hfd hos]
  have hflush := (h.flush hos).1
  obtain ⟨buffer, file, lines, hfd', hfile, hlines, hcontent⟩ := hflush.stream
  obtain rfl : [] = buffer := Option.some.inj (hempty.symm.trans hfd')
  funext i
  by_cases hi : i = 0
  · rw [hi, hfile, hlines, ← List.append_nil file, hcontent]
    rfl
  · exact hflush.files i (by omega)

/-! ## §5. A run on a system that refuses nothing. -/

/-- The generations the sink finds: each file as one record. -/
def found (baseFilename : Text) (disk : Text → Option Text) (i : Nat) : Option (List Text) :=
  if i = 0 then some (disk baseFilename).toList
  else (disk (calcFilename baseFilename i)).map ([·])

/-- The constructor opens the file, and changes none. -/
theorem new_healthy (hos : os.Healthy) (os' : OsAnswers) {baseFilename : Text}
    (hnamed : baseFilename ≠ []) (maxSize maxFiles : Nat) (disk : Text → Option Text) :
    ∃ s, new os os' baseFilename maxSize maxFiles false disk = (s, none)
      ∧ Holds s (found baseFilename disk)
      ∧ s.currentSize = Generations.load List.length ((found baseFilename disk 0).getD [])
      ∧ s.currentSize = ((disk baseFilename).getD []).length
      ∧ SamePlace
        ⟨baseFilename, maxSize, maxFiles, 0, ⟨none, [], disk⟩⟩ s := by
  have hopens : (List.range FileHelper.openTries).any os.opens = true :=
    List.any_eq_true.mpr ⟨0, by decide, hos.opens⟩
  have hthere : (disk baseFilename).toList.flatten = (disk baseFilename).getD [] := by
    cases disk baseFilename <;> simp
  unfold new FileHelper.open_ FileHelper.close FileHelper.flush
  simp only [hopens, if_true, Bool.false_and, Bool.false_eq_true, if_false, calcFilename_zero]
  refine ⟨_, rfl, ⟨rfl, hnamed, ?_, ?_⟩, ?_, ?_, rfl, rfl, rfl, ?_⟩
  · refine ⟨[], (disk baseFilename).getD [], (disk baseFilename).toList, rfl, ?_, rfl, ?_⟩
    · show Function.update disk baseFilename _ (calcFilename baseFilename 0) = _
      rw [calcFilename_zero, Function.update_self]
      rfl
    · rw [List.append_nil, hthere]
  · intro i hi
    show Function.update disk baseFilename _ (calcFilename baseFilename i) = _
    have hne : calcFilename baseFilename i ≠ baseFilename := by
      intro heq
      have h0 := calcFilename_injective baseFilename (heq.trans (calcFilename_zero _).symm)
      omega
    unfold found
    rw [Function.update_of_ne hne, if_neg (by omega), Option.map_map]
    cases disk (calcFilename baseFilename i) <;> simp
  · show (FileHelper.content ⟨some [], baseFilename, Function.update disk baseFilename _⟩).length
      = Generations.load List.length (disk baseFilename).toList
    rw [FileHelper.content_update]
    show ((disk baseFilename).getD []).length = _
    cases disk baseFilename <;> simp [Generations.load]
  · show (FileHelper.content ⟨some [], baseFilename, Function.update disk baseFilename _⟩).length
      = _
    rw [FileHelper.content_update]
    rfl
  · intro name hname
    have hbase : name ≠ baseFilename := calcFilename_zero baseFilename ▸ hname 0 (Nat.zero_le _)
    exact Function.update_of_ne hbase _ _

/-- The system refuses nothing during this call. -/
def SinkCall.Healthy : SinkCall → Prop
  | .log os _ => os.Healthy
  | .flush os => os.Healthy

/-- A run of the sink is a run of the generations. -/
theorem Holds.calls (h : Holds s f)
    (hsize : s.currentSize = Generations.load List.length ((f 0).getD []))
    (calls : List SinkCall) (hcalls : ∀ c ∈ calls, c.Healthy)
    (hfits : s.currentSize + (calls.flatMap SinkCall.lines).flatten.length < 2 ^ 64) :
    Holds (calls.foldl call s) ((calls.flatMap SinkCall.lines).foldl
        (Generations.add List.length s.maxSize s.maxFiles) f)
      ∧ SamePlace s (calls.foldl call s) := by
  induction calls generalizing s f with
  | nil => exact ⟨h, SamePlace.refl s⟩
  | cons c calls ih =>
      have hrest : ∀ c' ∈ calls, c'.Healthy := fun c' hc' => hcalls c' (List.mem_cons_of_mem c hc')
      cases c with
      | log os formatted =>
          have hlen : (SinkCall.lines (.log os formatted)).flatten.length = formatted.length := by
            simp [SinkCall.lines]
          rw [List.flatMap_cons, List.flatten_append, List.length_append, hlen] at hfits
          obtain ⟨s', hrun, hholds, hcur, hgrow, hplace⟩ :=
            h.sinkIt (hcalls _ List.mem_cons_self) hsize formatted (by omega)
          have hstep : s.call (.log os formatted) = s' := congrArg Prod.fst hrun
          have hgoal := ih hholds hcur hrest
            (by omega)
          rw [hplace.maxSize, hplace.maxFiles] at hgoal
          rw [List.foldl_cons, hstep]
          exact ⟨hgoal.1, hplace.trans hgoal.2⟩
      | flush os =>
          obtain ⟨hholds, hplace⟩ := h.flush (hcalls (.flush os) List.mem_cons_self)
          have hgoal := ih hholds hsize hrest hfits
          exact ⟨hgoal.1, hplace.trans hgoal.2⟩

/-- The sink from its construction on. -/
theorem run_healthy (hos : os.Healthy) (os' : OsAnswers) {baseFilename : Text}
    (hnamed : baseFilename ≠ []) (maxSize maxFiles : Nat) (disk : Text → Option Text)
    (calls : List SinkCall) (hcalls : ∀ c ∈ calls, c.Healthy)
    (hfits : ((disk baseFilename).getD []).length
      + (calls.flatMap SinkCall.lines).flatten.length < 2 ^ 64) :
    let s := calls.foldl call (new os os' baseFilename maxSize maxFiles false disk).1
    Holds s ((calls.flatMap SinkCall.lines).foldl (Generations.add List.length maxSize maxFiles)
        (found baseFilename disk))
      ∧ SamePlace ⟨baseFilename, maxSize, maxFiles, 0, ⟨none, [], disk⟩⟩ s := by
  intro s
  obtain ⟨s₀, hnew, hholds, hsize, hcur, hplace₀⟩ :=
    new_healthy hos os' hnamed maxSize maxFiles disk
  have hs : s = calls.foldl call s₀ := by
    show calls.foldl call _ = _
    rw [hnew]
  obtain ⟨hrun, hplace⟩ := hholds.calls hsize calls hcalls (by rw [hcur]; exact hfits)
  rw [hplace₀.maxSize, hplace₀.maxFiles, ← hs] at hrun
  rw [← hs] at hplace
  exact ⟨hrun, hplace₀.trans hplace⟩

/-- **The files are the generations of the log.**  While the system refuses
nothing, and once flushed, the log files hold the end of what they held before and
all lines since, in order; no line is cut by a rotation, no file is longer than the
limit, or than the longest line or file there was, and no other file changes. -/
theorem sink_refines (os os' : OsAnswers) (hos : os.Healthy) {baseFilename : Text}
    (hnamed : baseFilename ≠ []) (maxSize maxFiles : Nat) (disk : Text → Option Text)
    (calls : List SinkCall) (hcalls : ∀ c ∈ calls, c.Healthy) {last : OsAnswers}
    (hlast : last.Healthy) {bound : Nat} (hlimit : maxSize ≤ bound)
    (hdisk : ∀ i file, disk (calcFilename baseFilename i) = some file → file.length ≤ bound)
    (hlines : ∀ line ∈ calls.flatMap SinkCall.lines, line.length ≤ bound)
    (hfits : ((disk baseFilename).getD []).length
      + (calls.flatMap SinkCall.lines).flatten.length < 2 ^ 64) :
    let s := (calls.foldl call (new os os' baseFilename maxSize maxFiles false disk).1).flush last
    let f := (calls.flatMap SinkCall.lines).foldl (Generations.add List.length maxSize maxFiles)
      (found baseFilename disk)
    (∀ i, s.generation i = (f i).map List.flatten)
      ∧ Generations.kept f maxFiles
        <:+ Generations.kept (found baseFilename disk) maxFiles ++ calls.flatMap SinkCall.lines
      ∧ (∀ i file, s.generation i = some file → file.length ≤ bound)
      ∧ ∀ name, (∀ i ≤ maxFiles, name ≠ calcFilename baseFilename i) →
        s.fileHelper.disk name = disk name := by
  intro s f
  obtain ⟨hrun, hplace⟩ := run_healthy hos os' hnamed maxSize maxFiles disk calls hcalls hfits
  have hlight₀ : Generations.Light List.length bound (found baseFilename disk) := by
    intro i g hg
    unfold found at hg
    split at hg
    · obtain rfl := Option.some.inj hg
      cases hfile : disk baseFilename with
      | none => simp [Generations.load]
      | some file =>
          have hle := hdisk 0 file (by rw [calcFilename_zero]; exact hfile)
          simpa [Generations.load] using hle
    · obtain ⟨file, hfile, rfl⟩ := Option.map_eq_some_iff.mp hg
      simpa [Generations.load] using hdisk i file hfile
  have hlight := Generations.light_adds (n := maxFiles) hlimit hlines hlight₀
  refine ⟨congrFun (hrun.flushed hlast), Generations.kept_adds .., ?_, ?_⟩
  · intro i file hfile
    rw [congrFun (hrun.flushed hlast) i] at hfile
    obtain ⟨g, hg, rfl⟩ := Option.map_eq_some_iff.mp hfile
    rw [List.length_flatten]
    exact hlight i g hg
  · intro name hname
    exact (hplace.trans (hrun.flush hlast).2).others name hname

/-- A system that refuses nothing and writes two bytes of the buffer at a time. -/
def lazyOs : OsAnswers := ⟨fun _ => true, fun _ => (true, true), none, 2, none, 0⟩

theorem lazyOs_healthy : lazyOs.Healthy := ⟨rfl, fun _ => rfl, rfl, rfl, rfl⟩

/-- Three lines, of which the second does not fit into the file any more. -/
def threeLines : List SinkCall :=
  [.log lazyOs "two.".toList, .log lazyOs "three.".toList, .flush lazyOs,
    .log lazyOs "4.".toList]

theorem threeLines_healthy : ∀ c ∈ threeLines, c.Healthy := by
  intro c hc
  simp only [threeLines, List.mem_cons, List.not_mem_nil, or_false] at hc
  rcases hc with rfl | rfl | rfl | rfl
  · exact lazyOs_healthy
  · exact lazyOs_healthy
  · exact lazyOs_healthy
  · exact lazyOs_healthy

/-- There is a file, of which the log is the continuation. -/
def oneFile : Text → Option Text :=
  Function.update (fun _ => none) "a.log".toList (some "one.".toList)

theorem oneFile_le : ∀ i file, oneFile (calcFilename "a.log".toList i) = some file →
    file.length ≤ 9 := by
  intro i file hfile
  unfold oneFile at hfile
  by_cases hi : calcFilename "a.log".toList i = "a.log".toList
  · rw [hi, Function.update_self] at hfile
    obtain rfl := Option.some.inj hfile
    decide
  · rw [Function.update_of_ne hi] at hfile
    cases hfile

theorem sink_refines_on_three_lines :
    let s := (threeLines.foldl call
      (new lazyOs lazyOs "a.log".toList 9 1 false oneFile).1).flush lazyOs
    s.generation 1 = some "one.two.".toList ∧ s.generation 0 = some "three.4.".toList := by
  intro s
  have h := (sink_refines lazyOs lazyOs lazyOs_healthy (show "a.log".toList ≠ [] by decide) 9 1
    oneFile threeLines threeLines_healthy lazyOs_healthy le_rfl oneFile_le (by decide)
    (by decide)).1
  exact ⟨(h 1).trans (by decide), (h 0).trans (by decide)⟩

/-! ## §6. What is lost. -/

/-- The text of the log files, from the oldest on. -/
def text (s : RotatingSink) : Text :=
  (Generations.kept (fun i => (s.generation i).map ([·])) s.maxFiles).flatten

theorem kept_flatten (f : Nat → Option (List Text)) (n : Nat) :
    (Generations.kept (fun i => ((f i).map List.flatten).map ([·])) n).flatten
      = (Generations.kept f n).flatten := by
  induction n with
  | zero =>
      unfold Generations.kept
      cases f 0 <;> simp
  | succ n ih =>
      rw [Generations.kept, Generations.kept, List.flatten_append, List.flatten_append, ih]
      cases f (n + 1) <;> simp

/-- After a flush the files hold what the generations hold. -/
theorem Holds.text (h : Holds s f) (hos : os.Healthy) :
    (s.flush os).text = (Generations.kept f s.maxFiles).flatten := by
  have hfiles : (s.flush os).maxFiles = s.maxFiles := (h.flush hos).2.maxFiles
  unfold RotatingSink.text
  rw [hfiles, h.flushed hos, kept_flatten]

/-- A log that begins with at most one file. -/
theorem tight_found {baseFilename : Text} {disk : Text → Option Text}
    (hfresh : ∀ i, 0 < i → disk (calcFilename baseFilename i) = none) (maxSize maxFiles : Nat) :
    Generations.Tight List.length maxSize maxFiles (found baseFilename disk)
      ∧ Generations.kept (found baseFilename disk) maxFiles = (disk baseFilename).toList := by
  have hgone : ∀ i, found baseFilename disk (i + 1) = none := by
    intro i
    unfold found
    rw [if_neg (by omega), hfresh (i + 1) (by omega)]
    rfl
  constructor
  · refine ⟨rfl, fun i g hg => ?_, fun i hi => ?_⟩
    · rw [hgone i] at hg
      cases hg
    · obtain ⟨i, rfl⟩ := Nat.exists_eq_succ_of_ne_zero (by omega : i ≠ 0)
      exact hgone i
  · induction maxFiles with
    | zero => rfl
    | succ n ih =>
        rw [Generations.kept, hgone n]
        exact ih

/-- **Nothing is lost early.**  While the system refuses nothing, and once flushed,
a log that begins with at most one file is complete until it fills half of what its
files may hold. -/
theorem nothing_lost_early (os os' : OsAnswers) (hos : os.Healthy) {baseFilename : Text}
    (hnamed : baseFilename ≠ []) (maxSize maxFiles : Nat) (disk : Text → Option Text)
    (hfresh : ∀ i, 0 < i → disk (calcFilename baseFilename i) = none)
    (calls : List SinkCall) (hcalls : ∀ c ∈ calls, c.Healthy) {last : OsAnswers}
    (hlast : last.Healthy)
    (hfits : ((disk baseFilename).getD []).length
      + (calls.flatMap SinkCall.lines).flatten.length < 2 ^ 64) :
    let s := calls.foldl call (new os os' baseFilename maxSize maxFiles false disk).1
    (s.flush last).text = (disk baseFilename).getD [] ++ (calls.flatMap SinkCall.lines).flatten
      ∨ maxSize * ((maxFiles + 1) / 2) ≤ (s.flush last).text.length := by
  intro s
  obtain ⟨hrun, hplace⟩ := run_healthy hos os' hnamed maxSize maxFiles disk calls hcalls hfits
  have hfiles : s.maxFiles = maxFiles := hplace.maxFiles
  obtain ⟨htight, hstart⟩ := tight_found hfresh maxSize maxFiles
  have hthere : (disk baseFilename).toList.flatten = (disk baseFilename).getD [] := by
    cases disk baseFilename <;> simp
  rw [hrun.text hlast, hfiles, List.length_flatten]
  obtain hall | hheavy := Generations.all_or_heavy (calls.flatMap SinkCall.lines) htight
  · left
    rw [hall, List.flatten_append, hstart, hthere]
  · exact Or.inr hheavy

theorem nothing_lost_early_on_three_lines :
    let s := threeLines.foldl call (new lazyOs lazyOs "a.log".toList 9 3 false fun _ => none).1
    (s.flush lazyOs).text = (threeLines.flatMap SinkCall.lines).flatten
      ∨ 18 ≤ (s.flush lazyOs).text.length :=
  nothing_lost_early lazyOs lazyOs lazyOs_healthy (show "a.log".toList ≠ [] by decide) 9 3
    (fun _ => none) (fun _ _ => rfl) threeLines threeLines_healthy lazyOs_healthy (by decide)

/-! ## §7. A system that refuses. -/

/-- What is true of the sink whatever the system answers.  Without a stream the
next line is over the limit, so that it makes the sink rotate, and open again. -/
structure Bounded (bound : Nat) (s : RotatingSink) : Prop where
  filename : s.fileHelper.filename = s.baseFilename
  files : ∀ i file, s.generation i = some file → file.length ≤ bound
  stream : s.fileHelper.content.length + (s.fileHelper.fd.getD []).length ≤ bound
  counted : s.fileHelper.content.length + (s.fileHelper.fd.getD []).length ≤ s.currentSize
  closed : s.fileHelper.fd = none → s.maxSize < s.currentSize

variable {bound : Nat}

/-- A file of the log is replaced. -/
theorem generation_update (s : RotatingSink) (j : Nat) (file : Option Text) (i : Nat) :
    (s.withDisk
        (Function.update s.fileHelper.disk (calcFilename s.baseFilename j) file)).generation i
      = if i = j then file else s.generation i := by
  show Function.update s.fileHelper.disk _ _ (calcFilename s.baseFilename i) = _
  by_cases hi : i = j
  · rw [if_pos hi, hi, Function.update_self]
  · rw [if_neg hi, Function.update_of_ne ((calcFilename_injective _).ne hi)]
    rfl

/-- The parts of a bounded sink without a stream, from its files. -/
theorem bounded_of_closed (hname : s.fileHelper.filename = s.baseFilename)
    (hfd : s.fileHelper.fd = none) (hover : s.maxSize < s.currentSize)
    (hfiles : ∀ i file, s.generation i = some file → file.length ≤ bound)
    (hbase : ((s.generation 0).getD []).length ≤ s.currentSize) : Bounded bound s := by
  have hcontent := content_eq_generation hname
  refine ⟨hname, hfiles, ?_, ?_, fun _ => hover⟩
  · rw [hcontent, hfd]
    cases hfile : s.generation 0 with
    | none => exact Nat.zero_le _
    | some file => exact hfiles 0 file hfile
  · rw [hcontent, hfd]
    exact hbase

/-- The same with a stream on a file of given content. -/
theorem bounded_of_stream {name : Text} (hname : name = s.baseFilename)
    (hfiles : ∀ i file, s.generation i = some file → file.length ≤ bound) (buffer file : Text)
    (size : Nat) (hbound : file.length + buffer.length ≤ bound)
    (hsize : file.length + buffer.length ≤ size) :
    Bounded bound { s with
      currentSize := size
      fileHelper := ⟨some buffer, name,
        Function.update s.fileHelper.disk name (some file)⟩ } := by
  have hcontent : FileHelper.content ⟨some buffer, name,
      Function.update s.fileHelper.disk name (some file)⟩ = file :=
    FileHelper.content_update _ _ _ _
  refine ⟨hname, ?_, ?_, ?_, ?_⟩
  · intro i file' hfile
    have hgen := generation_update s 0 (some file) i
    rw [calcFilename_zero, ← hname] at hgen
    have hfile' := hgen.symm.trans hfile
    split at hfile'
    · obtain rfl := Option.some.inj hfile'
      omega
    · exact hfiles i file' hfile'
  · show (FileHelper.content ⟨some buffer, name, _⟩).length + buffer.length ≤ bound
    rw [hcontent]
    exact hbound
  · show (FileHelper.content ⟨some buffer, name, _⟩).length + buffer.length ≤ size
    rw [hcontent]
    exact hsize
  · intro hnone
    cases hnone

/-- What a stream writes of its buffer, drops or keeps is no more than the buffer. -/
theorem length_written (content buffer : Text) (written lost : Nat) :
    (content ++ buffer.take written).length + ((buffer.drop written).drop lost).length
      ≤ content.length + buffer.length := by
  have hsplit := congrArg List.length (List.take_append_drop written buffer)
  rw [List.length_append] at hsplit
  rw [List.length_append, List.length_drop]
  omega

/-- Flushing writes some of the buffer into the file. -/
theorem Bounded.flush (os : OsAnswers) (h : Bounded bound s) : Bounded bound (s.flush os) := by
  unfold RotatingSink.flush FileHelper.flush
  cases hfd : s.fileHelper.fd with
  | none => exact h
  | some buffer =>
      have hstream := h.stream
      have hcounted := h.counted
      rw [hfd, Option.getD_some] at hstream hcounted
      have hle := length_written s.fileHelper.content buffer (os.flushes.getD buffer.length) os.lost
      exact bounded_of_stream h.filename h.files _ _ s.currentSize (hle.trans hstream)
        (hle.trans hcounted)

theorem Bounded.close (os : OsAnswers) (h : Bounded bound s) (hover : s.maxSize < s.currentSize) :
    Bounded bound { s with fileHelper := s.fileHelper.close os } := by
  have hflush := h.flush os
  have hcounted := hflush.counted
  have hsize : (s.flush os).currentSize = s.currentSize := rfl
  rw [content_eq_generation hflush.filename, hsize] at hcounted
  apply bounded_of_closed
  · exact hflush.filename
  · rfl
  · exact hover
  · exact hflush.files
  · exact (Nat.le_add_right _ _).trans hcounted

/-- A rename, also one that fails, leaves no file that was not a file before. -/
theorem renameFile_files (s : RotatingSink) (ok : Bool) (i j : Nat) :
    (s.renameFile ok (calcFilename s.baseFilename i)
        (calcFilename s.baseFilename (i + 1))).1.generation j = none
      ∨ ∃ k, (j = 0 → k = 0) ∧ (s.renameFile ok (calcFilename s.baseFilename i)
          (calcFilename s.baseFilename (i + 1))).1.generation j = s.generation k := by
  have hinj := calcFilename_injective s.baseFilename
  cases ok with
  | false =>
      have hgen : (s.renameFile false (calcFilename s.baseFilename i)
          (calcFilename s.baseFilename (i + 1))).1.generation j
          = if j = i + 1 then none else s.generation j := generation_update s (i + 1) none j
      rw [hgen]
      split
      · exact Or.inl rfl
      · exact Or.inr ⟨j, id, rfl⟩
  | true =>
      have hgen : (s.renameFile true (calcFilename s.baseFilename i)
          (calcFilename s.baseFilename (i + 1))).1.generation j
          = if j = i then none else if j = i + 1 then s.generation i else s.generation j := by
        show Function.update (Function.update (Function.update s.fileHelper.disk _ none) _ _) _ none
          (calcFilename s.baseFilename j) = _
        by_cases hi : j = i
        · rw [if_pos hi, hi, Function.update_self]
        · rw [if_neg hi, Function.update_of_ne (hinj.ne hi)]
          by_cases hi' : j = i + 1
          · rw [if_pos hi', hi', Function.update_self]
            rfl
          · rw [if_neg hi', Function.update_of_ne (hinj.ne hi'),
              Function.update_of_ne (hinj.ne hi')]
            rfl
      rw [hgen]
      split
      · exact Or.inl rfl
      · split
        · exact Or.inr ⟨i, by omega, rfl⟩
        · exact Or.inr ⟨j, id, rfl⟩

/-- A bounded sink without a stream, with the counts of `s`. -/
structure Closed (bound : Nat) (s s' : RotatingSink) : Prop where
  bounded : Bounded bound s'
  fd : s'.fileHelper.fd = none
  baseFilename : s'.baseFilename = s.baseFilename
  maxSize : s'.maxSize = s.maxSize
  currentSize : s'.currentSize = s.currentSize

theorem Closed.renameFile {s' : RotatingSink} (h : Closed bound s s') (ok : Bool) (i : Nat) :
    ∃ s'', s'.renameFile ok (calcFilename s'.baseFilename i) (calcFilename s'.baseFilename (i + 1))
        = (s'', ok)
      ∧ Closed bound s s'' := by
  have hfiles := renameFile_files s' ok i
  have hcounted := h.bounded.counted
  rw [content_eq_generation h.bounded.filename] at hcounted
  refine ⟨(s'.renameFile ok (calcFilename s'.baseFilename i)
    (calcFilename s'.baseFilename (i + 1))).1, by cases ok <;> rfl, ?_, ?_, ?_, ?_, ?_⟩
  · apply bounded_of_closed
    · cases ok <;> exact h.bounded.filename
    · cases ok <;> exact h.fd
    · cases ok <;> exact h.bounded.closed h.fd
    · intro j file hfile
      obtain hnone | ⟨k, _, hk⟩ := hfiles j
      · rw [hnone] at hfile
        cases hfile
      · exact h.bounded.files k file (hk.symm.trans hfile)
    · have hsize : (s'.renameFile ok (calcFilename s'.baseFilename i)
          (calcFilename s'.baseFilename (i + 1))).1.currentSize = s'.currentSize := by
        cases ok <;> rfl
      rw [hsize]
      obtain hnone | ⟨k, hk, heq⟩ := hfiles 0
      · rw [hnone]
        exact Nat.zero_le _
      · rw [heq, hk rfl]
        omega
  · cases ok <;> exact h.fd
  · cases ok <;> exact h.baseFilename
  · cases ok <;> exact h.maxSize
  · cases ok <;> exact h.currentSize

/-- What a call leaves behind when the sink may count to `size`. -/
structure Survives (bound size : Nat) (s : RotatingSink) (r : RotatingSink × Option SinkError) :
    Prop where
  bounded : Bounded bound r.1
  maxSize : r.1.maxSize = s.maxSize
  size : r.1.currentSize ≤ size
  stream : r.2 ≠ some .nullStream

/-- Renaming, and when that fails opening the file, and an exception. -/
theorem Closed.rotateFrom (os : OsAnswers) (n : Nat) {s' : RotatingSink} (h : Closed bound s s') :
    Survives bound s.currentSize s (rotateFrom os n s')
      ∧ ((RotatingSink.rotateFrom os n s').2 = none →
        (RotatingSink.rotateFrom os n s').1.fileHelper.fd = none) := by
  induction n generalizing s' with
  | zero =>
      exact ⟨⟨h.bounded, h.maxSize, h.currentSize.le, by simp [RotatingSink.rotateFrom]⟩,
        fun _ => h.fd⟩
  | succ i ih =>
      obtain ⟨s₁, hrename₁, h₁⟩ := h.renameFile (os.renames (i + 1)).1 i
      obtain ⟨s₂, hrename₂, h₂⟩ := h₁.renameFile (os.renames (i + 1)).2 i
      rw [h₁.baseFilename, ← h.baseFilename] at hrename₂
      rw [RotatingSink.rotateFrom]
      dsimp only
      split
      · exact ih h
      · rw [hrename₁]
        cases (os.renames (i + 1)).1 with
        | true => exact ih h₁
        | false =>
            dsimp only
            rw [hrename₂]
            cases (os.renames (i + 1)).2 with
            | true => exact ih h₂
            | false =>
                dsimp only
                obtain hopen | ⟨e, he, hopen⟩ := s₂.fileHelper.reopen_closed h₂.fd os
                · rw [hopen]
                  exact ⟨⟨bounded_of_stream h₂.bounded.filename h₂.bounded.files [] [] 0
                    (Nat.zero_le _) le_rfl, h₂.maxSize, Nat.zero_le _, by simp⟩, by simp⟩
                · rw [hopen]
                  exact ⟨⟨h₂.bounded, h₂.maxSize, h₂.currentSize.le, by simpa using he⟩, by simp⟩

/-- A rotation that raises nothing leaves an empty file. -/
theorem Bounded.rotate (os : OsAnswers) (h : Bounded bound s) (hover : s.maxSize < s.currentSize) :
    Survives bound s.currentSize s (s.rotate os)
      ∧ ((s.rotate os).2 = none → (s.rotate os).1.fileHelper.fd = some []
        ∧ (s.rotate os).1.fileHelper.content = []) := by
  have hclosed : Closed bound s { s with fileHelper := s.fileHelper.close os } :=
    ⟨h.close os hover, rfl, rfl, rfl, rfl⟩
  obtain ⟨hrun, hfd⟩ := hclosed.rotateFrom os s.maxFiles
  unfold RotatingSink.rotate
  split
  · rename_i s' e heq
    rw [heq] at hrun
    exact ⟨hrun, by simp⟩
  · rename_i s' heq
    rw [heq] at hrun hfd
    have h' : Bounded bound s' := hrun.bounded
    obtain hopen | ⟨e, he, hopen⟩ := s'.fileHelper.reopen_closed (hfd rfl) os
    · rw [hopen]
      exact ⟨⟨bounded_of_stream h'.filename h'.files [] [] s'.currentSize (Nat.zero_le _)
        (Nat.zero_le _),
        hrun.maxSize, hrun.size, by simp⟩,
        fun _ => ⟨rfl, FileHelper.content_update _ _ _ _⟩⟩
    · rw [hopen]
      exact ⟨⟨h', hrun.maxSize, hrun.size, by simpa using he⟩, by simp⟩

/-- Some of the line gets into the stream. -/
theorem Bounded.write (os : OsAnswers) (h : Bounded bound s) {buffer : Text}
    (hfd : s.fileHelper.fd = some buffer) (formatted : Text) (size : Nat)
    (hbound : s.fileHelper.content.length + buffer.length + formatted.length ≤ bound)
    (hcounted : s.fileHelper.content.length + buffer.length + formatted.length ≤ size) :
    Survives bound size s (RotatingSink.write os formatted { s with currentSize := size }) := by
  unfold RotatingSink.write FileHelper.write
  rw [hfd]
  dsimp only
  generalize htaken : (match os.takes with
    | none => formatted
    | some k => formatted.take k) = taken
  have hle : taken.length ≤ formatted.length := by
    rw [← htaken]
    cases os.takes with
    | none => exact le_rfl
    | some k => exact List.length_take_le' _ _
  have hsplit := length_written s.fileHelper.content (buffer ++ taken) os.spill os.lost
  have hlen : (buffer ++ taken).length = buffer.length + taken.length := List.length_append
  have hbounded := bounded_of_stream h.filename h.files (((buffer ++ taken).drop os.spill).drop
    os.lost) (s.fileHelper.content ++ (buffer ++ taken).take os.spill) size
    (by omega) (by omega)
  refine ⟨hbounded, rfl, le_rfl, ?_⟩
  dsimp only
  split <;> simp

theorem Bounded.sinkIt (os : OsAnswers) (h : Bounded bound s) (hlimit : s.maxSize ≤ bound)
    (formatted : Text) (hline : formatted.length ≤ bound)
    (hfits : s.currentSize + formatted.length < 2 ^ 64) :
    Survives bound (s.currentSize + formatted.length) s (s.sinkIt os formatted) := by
  have hcounted := h.counted
  unfold RotatingSink.sinkIt
  rw [Nat.mod_eq_of_lt hfits]
  dsimp only
  split
  · rename_i hover
    have hsized : Bounded bound { s with currentSize := s.currentSize + formatted.length } :=
      ⟨h.filename, h.files, h.stream, hcounted.trans (Nat.le_add_right _ _), fun _ => hover⟩
    obtain ⟨hrun, hempty⟩ := hsized.rotate os hover
    split
    · rename_i s' e heq
      rw [heq] at hrun
      exact ⟨hrun.bounded, hrun.maxSize, hrun.size, hrun.stream⟩
    · rename_i s' heq
      rw [heq] at hrun hempty
      obtain ⟨hfd, hcontent⟩ := hempty rfl
      have hwrite := hrun.bounded.write os hfd formatted formatted.length
        (by rw [hcontent]; simpa using hline) (by rw [hcontent]; simp)
      exact ⟨hwrite.bounded, hwrite.maxSize.trans hrun.maxSize,
        hwrite.size.trans (Nat.le_add_left _ _), hwrite.stream⟩
  · rename_i hover
    cases hfd : s.fileHelper.fd with
    | none =>
        -- without a stream the line would have been over the limit
        have := h.closed hfd
        omega
    | some buffer =>
        rw [hfd, Option.getD_some] at hcounted
        exact h.write os hfd formatted _ (by omega) (by omega)

theorem Bounded.call (h : Bounded bound s) (hlimit : s.maxSize ≤ bound) (c : SinkCall)
    (hline : ∀ line ∈ c.lines, line.length ≤ bound)
    (hfits : s.currentSize + c.lines.flatten.length < 2 ^ 64) :
    Bounded bound (s.call c) ∧ (s.call c).maxSize = s.maxSize
      ∧ (s.call c).currentSize ≤ s.currentSize + c.lines.flatten.length := by
  cases c with
  | log os formatted =>
      have hlen : (SinkCall.lines (.log os formatted)).flatten.length = formatted.length := by
        simp [SinkCall.lines]
      rw [hlen] at hfits ⊢
      have hrun := h.sinkIt os hlimit formatted (hline formatted List.mem_cons_self) hfits
      exact ⟨hrun.bounded, hrun.maxSize, hrun.size⟩
  | flush os => exact ⟨h.flush os, rfl, Nat.le_add_right _ _⟩

theorem Bounded.calls (h : Bounded bound s) (hlimit : s.maxSize ≤ bound) (calls : List SinkCall)
    (hlines : ∀ line ∈ calls.flatMap SinkCall.lines, line.length ≤ bound)
    (hfits : s.currentSize + (calls.flatMap SinkCall.lines).flatten.length < 2 ^ 64) :
    Bounded bound (calls.foldl RotatingSink.call s)
      ∧ (calls.foldl RotatingSink.call s).maxSize = s.maxSize
      ∧ (calls.foldl RotatingSink.call s).currentSize
        ≤ s.currentSize + (calls.flatMap SinkCall.lines).flatten.length := by
  induction calls generalizing s with
  | nil => exact ⟨h, rfl, Nat.le_add_right _ _⟩
  | cons c calls ih =>
      simp only [List.flatMap_cons, List.mem_append, List.flatten_append, List.length_append]
        at hlines hfits ⊢
      obtain ⟨hcall, hmax, hcur⟩ := h.call hlimit c (fun line hl => hlines line (Or.inl hl))
        (by omega)
      obtain ⟨hrun, hmax', hcur'⟩ := ih hcall (hmax ▸ hlimit)
        (fun line hl => hlines line (Or.inr hl)) (by omega)
      rw [List.foldl_cons]
      exact ⟨hrun, hmax'.trans hmax, by omega⟩

/-- The sink of a constructor that has not raised. -/
theorem bounded_new {os os' : OsAnswers} {baseFilename : Text} {maxSize maxFiles : Nat}
    {disk : Text → Option Text}
    (hnew : new os os' baseFilename maxSize maxFiles false disk = (s, none))
    (hdisk : ∀ i file, disk (calcFilename baseFilename i) = some file → file.length ≤ bound) :
    Bounded bound s ∧ s.maxSize = maxSize
      ∧ s.currentSize = ((disk baseFilename).getD []).length := by
  have hle : ((disk baseFilename).getD []).length ≤ bound := by
    cases hfile : disk baseFilename with
    | none => exact Nat.zero_le _
    | some file => exact hdisk 0 file (by rw [calcFilename_zero]; exact hfile)
  unfold new FileHelper.open_ at hnew
  dsimp only at hnew
  split at hnew
  · rename_i helper e heq
    cases hnew
  · rename_i helper heq
    split at heq
    · obtain rfl := congrArg Prod.fst heq
      rw [Bool.false_and, if_neg (by decide)] at hnew
      obtain rfl := congrArg Prod.fst hnew
      have hcontent : FileHelper.content ⟨some [], baseFilename,
          Function.update disk baseFilename (some ((disk baseFilename).getD []))⟩
          = (disk baseFilename).getD [] := FileHelper.content_update _ _ _ _
      refine ⟨?_, rfl, congrArg List.length hcontent⟩
      exact bounded_of_stream (s := ⟨baseFilename, maxSize, maxFiles, 0, ⟨none, [], disk⟩⟩) rfl
        hdisk [] ((disk baseFilename).getD []) _ hle (congrArg List.length hcontent).ge
    · cases heq

/-- **Never a null stream.**  Whatever the system refuses, and with whatever
exceptions, no line of a run is written to a null stream, and no file of the log
is longer than the limit, or than the longest line or file there was. -/
theorem sink_never_null {os os' : OsAnswers} {baseFilename : Text} {maxSize maxFiles : Nat}
    {disk : Text → Option Text}
    (hnew : new os os' baseFilename maxSize maxFiles false disk = (s, none))
    (hlimit : maxSize ≤ bound)
    (hdisk : ∀ i file, disk (calcFilename baseFilename i) = some file → file.length ≤ bound)
    (calls : List SinkCall)
    (hlines : ∀ line ∈ calls.flatMap SinkCall.lines, line.length ≤ bound)
    (hfits : ((disk baseFilename).getD []).length
      + (calls.flatMap SinkCall.lines).flatten.length < 2 ^ 64) :
    (∀ before os formatted after, calls = before ++ .log os formatted :: after →
        ((before.foldl call s).sinkIt os formatted).2 ≠ some .nullStream)
      ∧ ∀ i file, (calls.foldl call s).generation i = some file → file.length ≤ bound := by
  obtain ⟨hbounded, hmax, hcur⟩ := bounded_new hnew hdisk
  rw [← hcur] at hfits
  constructor
  · intro before os'' formatted after heq
    rw [heq] at hlines hfits
    have hlen : (SinkCall.lines (.log os'' formatted)).flatten.length = formatted.length := by
      simp [SinkCall.lines]
    simp only [List.flatMap_append, List.flatMap_cons, List.mem_append, List.flatten_append,
      List.length_append, hlen] at hlines hfits
    obtain ⟨hbefore, hmax', hcur'⟩ := hbounded.calls (hmax ▸ hlimit) before
      (fun line hl => hlines line (Or.inl hl)) (by omega)
    have hline := hlines formatted (Or.inr (Or.inl List.mem_cons_self))
    exact (hbefore.sinkIt os'' (by rw [hmax', hmax]; exact hlimit) formatted hline
      (by omega)).stream
  · exact (hbounded.calls (hmax ▸ hlimit) calls hlines hfits).1.files

/-- A system that takes one byte, and then neither writes nor renames nor opens. -/
def refusingOs : OsAnswers := ⟨fun _ => false, fun _ => (false, false), some 1, 0, some 0, 0⟩

def refusedLines : List SinkCall :=
  [.log refusingOs "two.".toList, .log refusingOs "three.".toList, .flush refusingOs,
    .log refusingOs "4.".toList, .log lazyOs "five.".toList]

/-- The theorem where the stream has been null since "three.". -/
theorem sink_never_null_on_refused_lines :
    (((refusedLines.take 3).foldl call
      (new lazyOs lazyOs "a.log".toList 9 1 false oneFile).1).sinkIt refusingOs
        "4.".toList).2 ≠ some .nullStream :=
  (sink_never_null
    (show new lazyOs lazyOs "a.log".toList 9 1 false oneFile = (_, none) from Prod.ext rfl rfl)
    le_rfl oneFile_le refusedLines (by decide) (by decide)).1
      (refusedLines.take 3) refusingOs "4.".toList (refusedLines.drop 4) rfl

/-! ## §8. What is not in the file yet. -/

end RotatingSink

end SparkNet
