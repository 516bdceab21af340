/-
  SparkNet.FileDir — `CreateDirectory` and its buffer (`include/FileDir.h`).

  The path is copied into `tmpDirPath` one character at a time, and the buffer is
  passed to `access()` and `mkdir()` at every separator.  Nothing writes the NUL
  behind the prefix: it is one of the zero bytes the buffer started with, and the
  guard lets a path through that leaves none of them.

  Main results:
    * `createLoop_eq` — the loop makes the prefixes that end in a separator, as
      far as the buffer has a zero byte behind them;
    * `createDirectory_iff` — it does what it should exactly when no separator is
      reached in the last byte of the buffer.
-/
import SparkNet.FileSystem
import SparkNet.InetAdress

namespace SparkNet

open FileSystem

variable {σ : Type*}

/-! ## §1. The function. -/

def MAX_PATH_LEN : Nat := 256

/-- The string a pointer to the buffer stands for, if it ends in the buffer. -/
def cString (buf : Text) : Option Text :=
  if '\x00' ∈ buf then some (buf.takeWhile (· != '\x00')) else none

def isSeparator (ch : Char) : Bool := ch == '\\' || ch == '/'

/-- What it returns, with its calls; the result is `none` when a call is made with
a pointer to characters that are not terminated inside the buffer. -/
abbrev DirResult (σ : Type*) := Attempt (Option Int) σ Text

/-- The loop from index `i` on; `rest` is `directoryPath` from there. -/
def createLoop (fs : FileSystem σ Text) : σ → Text → Nat → Text → DirResult σ
  | s, _, _, [] => ⟨some 0, [], s⟩
  | s, tmpDirPath, i, ch :: rest =>
      let tmpDirPath := tmpDirPath.set i ch
      if isSeparator ch then
        match cString tmpDirPath with
        | none => ⟨none, [], s⟩
        | some path =>
            if fs.access s path then
              (createLoop fs s tmpDirPath (i + 1) rest).after [.access path true]
            else
              let made := fs.mkdir s path
              if made.1 ≠ 0 then
                ⟨some made.1, [.access path false, .mkdir path made.1], made.2⟩
              else
                (createLoop fs made.2 tmpDirPath (i + 1) rest).after
                  [.access path false, .mkdir path made.1]
      else createLoop fs s tmpDirPath (i + 1) rest

def createDirectory (fs : FileSystem σ Text) (s : σ) (directoryPath : Text) : DirResult σ :=
  if directoryPath.length > MAX_PATH_LEN then ⟨some (-1), [], s⟩
  else createLoop fs s (List.replicate MAX_PATH_LEN '\x00') 0 directoryPath

/-! ## §2. What it should do. -/

/-- The prefixes of `done ++ rest` that end in a separator of `rest`. -/
def prefixesFrom (done : Text) : Text → List Text
  | [] => []
  | ch :: rest =>
      if isSeparator ch then (done ++ [ch]) :: prefixesFrom (done ++ [ch]) rest
      else prefixesFrom (done ++ [ch]) rest

/-- The prefixes up to and including a separator, shortest first. -/
def separatorPrefixes (path : Text) : List Text := prefixesFrom [] path

/-- **The prefixes are made in order**, with strings that end in the buffer. -/
structure MakesPrefixes (fs : FileSystem σ Text) (path : Text) (r : DirResult σ) : Prop where
  /-- No call gets characters that run out of the buffer. -/
  terminated : r.ret ≠ none
  /-- Each call is for a prefix up to a separator. -/
  arguments : ∀ call ∈ r.calls, call.path ∈ separatorPrefixes path
  /-- What is made is the prefix that was just not found. -/
  paired : FileSystem.Paired r.calls
  /-- They are tried from the first one on, none left out. -/
  order : accessed r.calls <+: separatorPrefixes path
  shortestFirst : (accessed r.calls).Pairwise fun p q => p.length < q.length
  complete : r.ret = some 0 → ∀ p ∈ separatorPrefixes path, fs.access r.state p = true
  /-- After an error only shorter prefixes have been made. -/
  failed : ∀ ret, r.ret = some ret → ret ≠ 0 →
    ∃ p, r.calls.getLast? = some (.mkdir p ret) ∧ ∀ q ∈ created r.calls, q.length < p.length

/-- The last character is a separator, and it is the last of the buffer too. -/
def EndsInLastByte (path : Text) : Prop :=
  path.length = MAX_PATH_LEN ∧ path.getLast?.any isSeparator = true

instance (path : Text) : Decidable (EndsInLastByte path) :=
  inferInstanceAs (Decidable (path.length = MAX_PATH_LEN ∧ path.getLast?.any isSeparator = true))

/-! ## §3. The prefixes of a path. -/

theorem mem_prefixesFrom {rest p : Text} : ∀ {done : Text}, p ∈ prefixesFrom done rest ↔
    ∃ q ch, p = done ++ (q ++ [ch]) ∧ isSeparator ch = true ∧ q ++ [ch] <+: rest := by
  induction rest with
  | nil => simp [prefixesFrom]
  | cons c rest ih =>
      intro done
      -- either the prefix ends at `c`, or it goes on
      have hsplit : (∃ q ch, p = done ++ (q ++ [ch]) ∧ isSeparator ch = true
            ∧ q ++ [ch] <+: c :: rest)
          ↔ (p = done ++ [c] ∧ isSeparator c = true)
            ∨ ∃ q ch, p = done ++ [c] ++ (q ++ [ch]) ∧ isSeparator ch = true
              ∧ q ++ [ch] <+: rest := by
        constructor
        · rintro ⟨q, ch, hp, hsep, hinit⟩
          cases q with
          | nil =>
              obtain ⟨rfl, _⟩ := List.cons_prefix_cons.mp hinit
              exact Or.inl ⟨hp, hsep⟩
          | cons d q =>
              obtain ⟨rfl, hrest⟩ := List.cons_prefix_cons.mp hinit
              exact Or.inr ⟨q, ch, by simp [hp], hsep, hrest⟩
        · rintro (⟨hp, hsep⟩ | ⟨q, ch, hp, hsep, hinit⟩)
          · exact ⟨[], c, hp, hsep, List.cons_prefix_cons.mpr ⟨rfl, List.nil_prefix⟩⟩
          · exact ⟨c :: q, ch, by simp [hp], hsep, List.cons_prefix_cons.mpr ⟨rfl, hinit⟩⟩
      rw [hsplit, prefixesFrom]
      split
      next hsep => rw [List.mem_cons, ih, and_iff_left hsep]
      next hsep => rw [ih, or_iff_right fun h => hsep h.2]

/-- **A prefix of the list** is a prefix of the path that ends in a separator. -/
theorem mem_separatorPrefixes {path p : Text} : p ∈ separatorPrefixes path ↔
    p <+: path ∧ p.getLast?.any isSeparator = true := by
  unfold separatorPrefixes
  rw [mem_prefixesFrom]
  constructor
  · rintro ⟨q, ch, rfl, hsep, hinit⟩
    rw [List.nil_append]
    exact ⟨hinit, by simpa using hsep⟩
  · rintro ⟨hinit, hlast⟩
    rcases List.eq_nil_or_concat' p with rfl | ⟨q, ch, rfl⟩
    · cases hlast
    · exact ⟨q, ch, rfl, by simpa using hlast, hinit⟩

theorem length_lt_prefixesFrom {rest : Text} :
    ∀ {done : Text}, ∀ p ∈ prefixesFrom done rest, done.length < p.length := by
  induction rest with
  | nil => exact fun _ h => absurd h List.not_mem_nil
  | cons ch rest ih =>
      intro done p hp
      have hdone : (done ++ [ch]).length = done.length + 1 := by simp
      rw [prefixesFrom] at hp
      split at hp
      · rcases List.mem_cons.mp hp with rfl | hp
        · omega
        · have hlt := ih p hp
          omega
      · have hlt := ih p hp
        omega

theorem pairwise_prefixesFrom {rest : Text} :
    ∀ {done : Text}, (prefixesFrom done rest).Pairwise fun p q => p.length < q.length := by
  induction rest with
  | nil => exact List.Pairwise.nil
  | cons ch rest ih =>
      intro done
      rw [prefixesFrom]
      split
      · exact List.Pairwise.cons length_lt_prefixesFrom ih
      · exact ih

theorem prefixesFrom_append {rest more : Text} : ∀ {done : Text},
    prefixesFrom done (rest ++ more)
      = prefixesFrom done rest ++ prefixesFrom (done ++ rest) more := by
  induction rest with
  | nil => simp [prefixesFrom]
  | cons ch rest ih =>
      intro done
      rw [List.cons_append, prefixesFrom, prefixesFrom, ih]
      split
      · simp
      · simp

/-! ## §4. The loop. -/

/-- The buffer when `done` has been copied. -/
abbrev bufferOf (done : Text) : Text :=
  done ++ List.replicate (MAX_PATH_LEN - done.length) '\x00'

theorem set_bufferOf {done : Text} {ch : Char} (hlt : done.length < MAX_PATH_LEN) :
    (bufferOf done).set done.length ch = bufferOf (done ++ [ch]) := by
  have hroom : MAX_PATH_LEN - done.length = MAX_PATH_LEN - (done.length + 1) + 1 := by omega
  rw [bufferOf, List.set_append_right _ _ (Nat.le_refl _), Nat.sub_self, hroom,
    List.replicate_succ, List.set_cons_zero]
  simp [bufferOf]

/-- The zero bytes behind the copy end the string, as long as there is one. -/
theorem cString_bufferOf {done : Text} (hnul : '\x00' ∉ done) (hlt : done.length < MAX_PATH_LEN) :
    cString (bufferOf done) = some done := by
  have hroom : MAX_PATH_LEN - done.length = MAX_PATH_LEN - (done.length + 1) + 1 := by omega
  have hplain : ∀ ch ∈ done, (ch != '\x00') = true := by
    intro ch hch
    have hne : ch ≠ '\x00' := by
      rintro rfl
      exact hnul hch
    simpa using hne
  unfold cString bufferOf
  rw [hroom, List.replicate_succ, if_pos (by simp), List.takeWhile_append_of_pos hplain]
  simp

/-- In a full buffer there is none. -/
theorem cString_full {done : Text} (hnul : '\x00' ∉ done) (hfull : done.length = MAX_PATH_LEN) :
    cString (bufferOf done) = none := by
  unfold cString bufferOf
  rw [hfull, Nat.sub_self, List.replicate_zero, List.append_nil, if_neg hnul]

/-- How the loop ends: at a separator in the last byte, if it gets there. -/
def finish (overrun : Bool) (a : Attempt Int σ Text) : DirResult σ :=
  ⟨if overrun ∧ a.ret = 0 then none else some a.ret, a.calls, a.state⟩

/-- **The loop over a part of the path** that leaves a zero byte makes the prefixes
of that part, and goes on if all were made. -/
theorem createLoop_append (fs : FileSystem σ Text) {part : Text} (more : Text) :
    ∀ {done : Text} (s : σ), '\x00' ∉ done ++ part → (done ++ part).length < MAX_PATH_LEN →
      createLoop fs s (bufferOf done) done.length (part ++ more)
        = if (fs.makeAll s (prefixesFrom done part)).ret = 0 then
            (createLoop fs (fs.makeAll s (prefixesFrom done part)).state (bufferOf (done ++ part))
              (done ++ part).length more).after (fs.makeAll s (prefixesFrom done part)).calls
          else finish false (fs.makeAll s (prefixesFrom done part)) := by
  induction part with
  | nil =>
      intro done s _ _
      simp [prefixesFrom, makeAll, Attempt.after]
  | cons ch part ih =>
      intro done s hnul hlen
      have hassoc : done ++ ch :: part = done ++ [ch] ++ part := by simp
      rw [hassoc] at hnul hlen
      have hdone : done.length < MAX_PATH_LEN := by
        simp only [List.length_append, List.length_cons] at hlen
        omega
      have hcopied : (done ++ [ch]).length < MAX_PATH_LEN := by
        simp only [List.length_append] at hlen ⊢
        omega
      have hclean : '\x00' ∉ done ++ [ch] := fun h => hnul (List.mem_append_left _ h)
      have hnext : done.length + 1 = (done ++ [ch]).length := by simp
      rw [List.cons_append, createLoop, set_bufferOf hdone, hnext, prefixesFrom, hassoc]
      by_cases hsep : isSeparator ch = true
      · simp only [hsep, if_true, cString_bufferOf hclean hcopied]
        -- the directory is there, is made, or cannot be made
        rcases fs.makeAll_cons_cases s (done ++ [ch]) (prefixesFrom (done ++ [ch]) part) with
          ⟨hacc, heq⟩ | ⟨hacc, hret, heq⟩ | ⟨hacc, hret, heq⟩
        · rw [if_pos hacc, ih s hnul hlen, heq]
          split
          next hall => rw [if_pos (by simpa using hall)]; rfl
          next hall => rw [if_neg (by simpa using hall)]; rfl
        · have hmade : ¬ (fs.mkdir s (done ++ [ch])).1 ≠ 0 := not_not.mpr hret
          rw [if_neg (by simp [hacc]), if_neg hmade, ih _ hnul hlen, heq, hret]
          split
          next hall => rw [if_pos (by simpa using hall)]; rfl
          next hall => rw [if_neg (by simpa using hall)]; rfl
        · rw [if_neg (by simp [hacc]), if_pos hret, heq, if_neg hret]
          simp [finish]
      · simp only [hsep, if_false, Bool.false_eq_true]
        exact ih s hnul hlen

/-- The last character of a path that fills the buffer. -/
theorem createLoop_last (fs : FileSystem σ Text) {done : Text} {ch : Char} (s : σ)
    (hnul : '\x00' ∉ done ++ [ch]) (hfull : (done ++ [ch]).length = MAX_PATH_LEN) :
    createLoop fs s (bufferOf done) done.length [ch]
      = ⟨if isSeparator ch then none else some 0, [], s⟩ := by
  have hdone : done.length < MAX_PATH_LEN := by
    rw [← hfull]
    simp
  rw [createLoop, set_bufferOf hdone]
  by_cases hsep : isSeparator ch = true
  · simp only [hsep, if_true, cString_full hnul hfull]
  · simp only [hsep, if_false, Bool.false_eq_true, createLoop]

/-- **`CreateDirectory`** makes the prefixes of the path; a separator in the last
byte of the buffer it does not survive. -/
theorem createDirectory_eq (fs : FileSystem σ Text) (s : σ) {path : Text} (hnul : '\x00' ∉ path)
    (hlen : path.length ≤ MAX_PATH_LEN) :
    createDirectory fs s path = if EndsInLastByte path then
        finish true (fs.makeAll s (separatorPrefixes path.dropLast))
      else finish false (fs.makeAll s (separatorPrefixes path)) := by
  have hbuf : List.replicate MAX_PATH_LEN '\x00' = bufferOf [] := rfl
  rw [createDirectory, if_neg (by omega), hbuf]
  by_cases hlt : path.length < MAX_PATH_LEN
  · have hends : ¬ EndsInLastByte path := fun h => absurd h.1 (by omega)
    have hloop : createLoop fs s (bufferOf []) 0 (path ++ []) = _ :=
      @createLoop_append σ fs path [] [] s hnul hlt
    rw [List.append_nil] at hloop
    rw [if_neg hends, hloop]
    split
    next hall => simp [createLoop, finish, Attempt.after, separatorPrefixes, hall]
    next => rfl
  · -- the path fills the buffer: its last character is a step of its own
    rcases List.eq_nil_or_concat' path with rfl | ⟨part, ch, rfl⟩
    · exact absurd (Nat.zero_lt_of_lt (by decide : 0 < MAX_PATH_LEN)) hlt
    · have hfull : (part ++ [ch]).length = MAX_PATH_LEN := by omega
      have hpart : part.length < MAX_PATH_LEN := by
        rw [← hfull]
        simp
      have hends : EndsInLastByte (part ++ [ch]) ↔ isSeparator ch = true := by
        unfold EndsInLastByte
        simp [hfull]
      have hloop : createLoop fs s (bufferOf []) 0 (part ++ [ch]) = _ :=
        @createLoop_append σ fs part [ch] [] s (fun h => hnul (List.mem_append_left _ h)) hpart
      have hlast := fun t => createLoop_last fs t hnul hfull
      rw [hloop, List.nil_append, hlast]
      by_cases hsep : isSeparator ch = true
      · rw [if_pos (hends.mpr hsep), List.dropLast_concat]
        split
        next hall => simp [finish, Attempt.after, separatorPrefixes, hall]
        next hall => simp [finish, separatorPrefixes, hall]
      · have hsame : separatorPrefixes (part ++ [ch]) = separatorPrefixes part := by
          simp [separatorPrefixes, prefixesFrom_append, prefixesFrom, hsep]
        rw [if_neg (fun h => hsep (hends.mp h)), hsame]
        split
        next hall => simp [finish, Attempt.after, separatorPrefixes, hall]
        next => rfl

/-! ## §5. When it does what it should. -/

/-- The attempt at a list of prefixes of the path. -/
theorem makesPrefixes_makeAll (fs : FileSystem σ Text) (s : σ) {path : Text} {ps : List Text}
    (hps : ps <+: separatorPrefixes path)
    (hall : (fs.makeAll s ps).ret = 0 → ps = separatorPrefixes path) :
    MakesPrefixes fs path (finish false (fs.makeAll s ps)) where
  terminated := by simp [finish]
  arguments call hcall := hps.mem (fs.path_makeAll ps s call hcall)
  paired := fs.paired_makeAll ps s
  order := (fs.accessed_makeAll ps s).trans hps
  shortestFirst := (pairwise_prefixesFrom.sublist hps.sublist).sublist
    (fs.accessed_makeAll ps s).sublist
  complete := by
    intro hret p hp
    have hzero : (fs.makeAll s ps).ret = 0 := by simpa [finish] using hret
    rw [← hall hzero] at hp
    exact fs.makeAll_complete ps s hzero p hp
  failed := by
    intro ret hret hne
    obtain rfl : (fs.makeAll s ps).ret = ret := by simpa [finish] using hret
    obtain ⟨before, p, after, heq, hlast, hcreated⟩ := fs.makeAll_failed ps s hne
    refine ⟨p, hlast, fun q hq => ?_⟩
    have hsorted : ps.Pairwise fun p q => p.length < q.length :=
      pairwise_prefixesFrom.sublist hps.sublist
    rw [heq, List.pairwise_append] at hsorted
    exact hsorted.2.2 q (hcreated q hq) p List.mem_cons_self

/-- **When `CreateDirectory` stays in its buffer and makes every prefix.**  For every
path without NUL that passes the length check, over every file system and state:
iff the path does not have a separator as its 256th character, with all prefixes
before it existing or made. -/
theorem createDirectory_iff (fs : FileSystem σ Text) (s : σ) (path : Text) (hnul : '\x00' ∉ path)
    (hlen : path.length ≤ MAX_PATH_LEN) :
    MakesPrefixes fs path (createDirectory fs s path)
      ↔ ¬ (EndsInLastByte path
        ∧ fs.makeable s (separatorPrefixes path.dropLast) = true) := by
  rw [createDirectory_eq fs s hnul hlen, makeable_iff]
  by_cases hends : EndsInLastByte path
  · rw [if_pos hends]
    by_cases hall : (fs.makeAll s (separatorPrefixes path.dropLast)).ret = 0
    · constructor
      · intro h
        exact absurd (by simp [finish, hall]) h.terminated
      · intro h
        exact absurd ⟨hends, hall⟩ h
    · -- an error comes before the last byte
      have hsame : finish true (fs.makeAll s (separatorPrefixes path.dropLast))
          = finish false (fs.makeAll s (separatorPrefixes path.dropLast)) := by
        simp [finish, hall]
      have hinit : separatorPrefixes path.dropLast <+: separatorPrefixes path := by
        obtain ⟨more, hmore⟩ := List.dropLast_prefix path
        refine ⟨prefixesFrom path.dropLast more, ?_⟩
        have happ : prefixesFrom [] (path.dropLast ++ more) = _ := prefixesFrom_append
        rw [hmore] at happ
        exact happ.symm
      rw [hsame]
      constructor
      · exact fun _ h => hall h.2
      · exact fun _ => makesPrefixes_makeAll fs s hinit fun h => absurd h hall
  · rw [if_neg hends]
    constructor
    · exact fun _ h => hends h.1
    · exact fun _ => makesPrefixes_makeAll fs s List.prefix_rfl fun _ => rfl

/-- A file system in which every directory can be made; the state lists them. -/
def roomy : FileSystem (List Text) Text where
  access s p := decide (p ∈ s)
  mkdir s p := (0, p :: s)
  access_made _ _ _ := by simp
  access_mkdir _ _ _ h := by
    rw [decide_eq_true_eq] at h ⊢
    exact List.mem_cons_of_mem _ h

/-- The theorem at a path with two directories to make. -/
theorem createDirectory_on_path :
    MakesPrefixes roomy "/var/log/echo/".toList
      (createDirectory roomy ["/".toList] "/var/log/echo/".toList) := by
  have hiff := createDirectory_iff roomy ["/".toList] "/var/log/echo/".toList (by decide)
    (by decide)
  exact hiff.mpr (by decide)

/-- **A separator in the last byte**: a path of 256 characters passes the check, and
its last `access()` reads past the buffer. -/
theorem last_byte_overruns :
    (createDirectory roomy [] (List.replicate 255 'a' ++ ['/'])).ret = none
      ∧ ¬ ∀ path : Text, '\x00' ∉ path → path.length ≤ MAX_PATH_LEN →
        MakesPrefixes roomy path (createDirectory roomy [] path) := by
  have hret : (createDirectory roomy [] (List.replicate 255 'a' ++ ['/'])).ret = none := by
    decide +kernel
  refine ⟨hret, fun h => ?_⟩
  have hmakes := h (List.replicate 255 'a' ++ ['/']) (by decide +kernel) (by decide +kernel)
  exact hmakes.terminated hret

end SparkNet
