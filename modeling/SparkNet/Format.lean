/-
  SparkNet.Format — format strings of `fmt` 6.2.

  The part of `spdlog/fmt/bundled/format.h` that a line with strings and integers
  goes through: `parse_format_string` with its escapes and fields, argument
  numbers, the standard format specifiers, and the writing of the two types.  An
  error of the library is an exception; here it is `none`, whatever its text.

  A text is a list of bytes, each a `Char`.

  Main results:
    * `format_copies` — text without braces is copied,
    * `within_replacementField` — a field stops before "[{" and uses the argument
      counter;
    * `format_append_cases` — a string that is formatted with `[{…` behind it has
      no field in it, and loses a character for every escape;
    * `format_forall` — a character of the result is from the string, from an
      argument, or printable.
-/
import Mathlib.Data.List.Basic

namespace Fmt

/-! ## §1. Arguments and specifiers. -/

inductive Arg where
  | str (s : List Char)
  | int (n : Int)
  deriving DecidableEq, Repr

/-- `is_arithmetic_type`, and `is_integral_type`, of the two types. -/
def Arg.isArithmetic : Arg → Bool
  | .str _ => false
  | .int _ => true

inductive Align where
  | none | left | right | center | numeric
  deriving DecidableEq, Repr

inductive Sign where
  | none | minus | plus | space
  deriving DecidableEq, Repr

/-- `basic_format_specs`; a precision or type that is not given is `none`. -/
structure Specs where
  width : Nat
  precision : Option Nat
  type : Option Char
  align : Align
  sign : Sign
  alt : Bool
  fill : List Char
  deriving DecidableEq, Repr

def Specs.new : Specs := ⟨0, none, none, .none, .none, false, [' ']⟩

/-! ## §2. Parsing. -/

/-- `max_value<int>()`. -/
def maxInt : Nat := 2147483647

/-- `parse_nonnegative_int`, with the value so far. -/
def parseNonnegativeInt (value : Nat) : List Char → Option (Nat × List Char)
  | [] => if value > maxInt then none else some (value, [])
  | c :: rest =>
      if c.isDigit then
        if value > maxInt / 10 then none
        else parseNonnegativeInt (value * 10 + (c.toNat - '0'.toNat)) rest
      else if value > maxInt then none
      else some (value, c :: rest)

/-- `next_arg_id`; the counter is negative once an argument was named by number. -/
def nextArgId (id : Int) : Option (Nat × Int) :=
  if 0 ≤ id then some (id.toNat, id + 1) else none

/-- `check_arg_id`. -/
def checkArgId (id : Int) : Option Int :=
  if 0 < id then none else some (-1)

/-- The number of an argument: nothing follows a zero in front. -/
def parseIndex : List Char → Option (Nat × List Char)
  | [] => none
  | c :: rest => if c = '0' then some (0, rest) else parseNonnegativeInt 0 (c :: rest)

/-- `parse_arg_id` with its handlers: the argument, the counter, and what is left
from the '}' or ':' on. -/
def parseArgId (args : List Arg) (id : Int) : List Char → Option (Arg × Int × List Char)
  | [] => none
  | c :: rest =>
      if c = '}' ∨ c = ':' then do
        let (n, id) ← nextArgId id
        let arg ← args[n]?
        some (arg, id, c :: rest)
      else if c.isDigit then do
        let (n, rest) ← parseIndex (c :: rest)
        let d ← rest.head?
        if d = '}' ∨ d = ':' then do
          let id ← checkArgId id
          let arg ← args[n]?
          some (arg, id, rest)
        else none
      -- no argument has a name, so a name is not found
      else none

/-- `get_dynamic_spec`. -/
def dynamicSpec : Arg → Option Nat
  | .int n => if n < 0 ∨ n > maxInt then none else some n.toNat
  | .str _ => none

/-- A width or precision that is an argument, from behind its '{'. -/
def parseDynamic (args : List Arg) (id : Int) (text : List Char) :
    Option (Nat × Int × List Char) := do
  let (arg, id, rest) ← parseArgId args id text
  let n ← dynamicSpec arg
  match rest with
  | [] => none
  | c :: rest => if c = '}' then some (n, id, rest) else none

/-- A continuation byte of UTF-8. -/
def isContinuation (c : Char) : Bool := c.toNat &&& 0xc0 == 0x80

/-- `next_code_point`. -/
def nextCodePoint : List Char → List Char
  | [] => []
  | c :: rest => if c.toNat &&& 0x80 == 0 then rest else rest.dropWhile isContinuation

def alignOf (c : Char) : Option Align :=
  if c = '<' then some .left
  else if c = '>' then some .right
  else if c = '=' then some .numeric
  else if c = '^' then some .center
  else none

/-- `specs_checker::on_align`. -/
def onAlign (arg : Arg) (align : Align) (specs : Specs) : Option Specs :=
  if align = .numeric ∧ ¬ arg.isArithmetic then none else some { specs with align := align }

/-- An alignment without a fill character. -/
def parseBareAlign (arg : Arg) (specs : Specs) : List Char → Option (Specs × List Char)
  | [] => some (specs, [])
  | c :: rest =>
      match alignOf c with
      | some align => (onAlign arg align specs).map fun specs => (specs, rest)
      | none => some (specs, c :: rest)

/-- `parse_align`. -/
def parseAlign (arg : Arg) (specs : Specs) (text : List Char) : Option (Specs × List Char) :=
  match nextCodePoint text with
  | [] => parseBareAlign arg specs text
  | p :: rest =>
      match alignOf p with
      | none => parseBareAlign arg specs text
      | some align =>
          let fill := text.take (text.length - (rest.length + 1))
          if fill.head? = some '{' then none
          -- `fill_t` has room for four bytes
          else if fill.length > 4 then none
          else (onAlign arg align { specs with fill := fill }).map fun specs => (specs, rest)

/-- An optional flag that is for numbers only. -/
def parseFlag (flagOf : Char → Option (Specs → Specs)) (arg : Arg) (specs : Specs) :
    List Char → Option (Specs × List Char)
  | [] => some (specs, [])
  | c :: rest =>
      match flagOf c with
      | some set => if arg.isArithmetic then some (set specs, rest) else none
      | none => some (specs, c :: rest)

/-- `on_plus`, `on_minus` and `on_space`. -/
def signFlag (c : Char) : Option (Specs → Specs) :=
  if c = '+' then some fun specs => { specs with sign := .plus }
  else if c = '-' then some fun specs => { specs with sign := .minus }
  else if c = ' ' then some fun specs => { specs with sign := .space }
  else none

/-- `on_hash`. -/
def hashFlag (c : Char) : Option (Specs → Specs) :=
  if c = '#' then some fun specs => { specs with alt := true } else none

/-- `on_zero`, which writes the first byte of the fill only. -/
def zeroFlag (c : Char) : Option (Specs → Specs) :=
  if c = '0' then
    some fun specs => { specs with align := .numeric, fill := specs.fill.set 0 '0' }
  else none

/-- `parse_width`. -/
def parseWidth (args : List Arg) (id : Int) (specs : Specs) :
    List Char → Option (Specs × Int × List Char)
  | [] => some (specs, id, [])
  | c :: rest =>
      if c.isDigit then
        (parseNonnegativeInt 0 (c :: rest)).map fun (n, rest) =>
          ({ specs with width := n }, id, rest)
      else if c = '{' then
        (parseDynamic args id rest).map fun (n, id, rest) => ({ specs with width := n }, id, rest)
      else some (specs, id, c :: rest)

/-- `parse_precision` from behind the dot. -/
def parsePrecision (args : List Arg) (id : Int) (specs : Specs) :
    List Char → Option (Specs × Int × List Char)
  | [] => none
  | c :: rest =>
      if c.isDigit then
        (parseNonnegativeInt 0 (c :: rest)).map
          fun (n, rest) => ({ specs with precision := some n }, id, rest)
      else if c = '{' then
        (parseDynamic args id rest).map
          fun (n, id, rest) => ({ specs with precision := some n }, id, rest)
      else none

/-- The precision, if there is a dot; `end_precision` refuses it for integers. -/
def parseDot (args : List Arg) (arg : Arg) (id : Int) (specs : Specs) :
    List Char → Option (Specs × Int × List Char)
  | [] => some (specs, id, [])
  | c :: rest =>
      if c = '.' then do
        let parsed ← parsePrecision args id specs rest
        if arg.isArithmetic then none else some parsed
      else some (specs, id, c :: rest)

/-- The type and the '}' behind it. -/
def parseType (specs : Specs) : List Char → Option (Specs × List Char)
  | [] => none
  | c :: rest =>
      if c = '}' then some (specs, rest)
      else
        match rest with
        | [] => none
        | d :: rest => if d = '}' then some ({ specs with type := some c }, rest) else none

/-- `parse_format_specs`, and the test for '}' that `on_format_specs` makes. -/
def parseFormatSpecs (args : List Arg) (arg : Arg) (id : Int) (text : List Char) :
    Option (Specs × Int × List Char) :=
  if text.head? = some '}' then some (Specs.new, id, text.tail)
  else do
    let (specs, text) ← parseAlign arg Specs.new text
    let (specs, text) ← parseFlag signFlag arg specs text
    let (specs, text) ← parseFlag hashFlag arg specs text
    let (specs, text) ← parseFlag zeroFlag arg specs text
    let (specs, id, text) ← parseWidth args id specs text
    let (specs, id, text) ← parseDot args arg id specs text
    let (specs, text) ← parseType specs text
    some (specs, id, text)

/-! ## §3. Writing. -/

/-- `count_code_points`. -/
def countCodePoints (s : List Char) : Nat := s.countP fun c => !isContinuation c

/-- `write_padded`; `points` is the width of the body. -/
def writePadded (specs : Specs) (points : Nat) (body : List Char) : List Char :=
  let padding := specs.width - points
  let fill := fun n => (List.replicate n specs.fill).flatten
  match specs.align with
  | .right => fill padding ++ body
  | .center => fill (padding / 2) ++ body ++ fill (padding - padding / 2)
  | _ => body ++ fill padding

/-- `write` of a string; the precision counts bytes. -/
def writeStr (specs : Specs) (s : List Char) : List Char :=
  let s := match specs.precision with
    | some n => s.take n
    | none => s
  writePadded specs (countCodePoints s) s

/-- `write_int`: `lead` is the sign and the base. -/
def writeDigits (specs : Specs) (lead digits : List Char) : List Char :=
  if specs.align = .numeric then
    let zeros := specs.width - (lead.length + digits.length)
    lead ++ List.replicate zeros (specs.fill.headD ' ') ++ digits
  else
    let align := if specs.align = .none then .right else specs.align
    writePadded { specs with align := align } (lead.length + digits.length) (lead ++ digits)

def writeDecimal (n : Int) : List Char :=
  if n < 0 then '-' :: Nat.toDigits 10 n.natAbs else Nat.toDigits 10 n.natAbs

/-- The sign `int_writer` puts first. -/
def signLead (specs : Specs) (n : Int) : List Char :=
  if n < 0 then ['-']
  else
    match specs.sign with
    | .plus => ['+']
    | .space => [' ']
    | _ => []

/-- `handle_int_type_spec` with `int_writer`. -/
def writeInt (specs : Specs) (n : Int) : Option (List Char) :=
  let lead := signLead specs n
  let base := fun type => if specs.alt then lead ++ ['0', type] else lead
  match specs.type with
  | none | some 'd' => some (writeDigits specs lead (Nat.toDigits 10 n.natAbs))
  | some 'x' => some (writeDigits specs (base 'x') (Nat.toDigits 16 n.natAbs))
  | some 'X' =>
      some (writeDigits specs (base 'X') ((Nat.toDigits 16 n.natAbs).map Char.toUpper))
  | some 'b' => some (writeDigits specs (base 'b') (Nat.toDigits 2 n.natAbs))
  | some 'B' => some (writeDigits specs (base 'B') (Nat.toDigits 2 n.natAbs))
  | some 'o' =>
      let lead := if specs.alt ∧ n ≠ 0 then lead ++ ['0'] else lead
      some (writeDigits specs lead (Nat.toDigits 8 n.natAbs))
  -- the locale groups no digits
  | some 'n' | some 'L' => some (writeDigits specs lead (Nat.toDigits 10 n.natAbs))
  | some _ => none

/-- The argument formatter, with or without specifiers. -/
def writeArg : Arg → Option Specs → Option (List Char)
  | .str s, none => some s
  | .str s, some specs =>
      if specs.type = none ∨ specs.type = some 's' then some (writeStr specs s) else none
  | .int n, none => some (writeDecimal n)
  | .int n, some specs => writeInt specs n

/-! ## §4. Fields and strings. -/

/-- A replacement field from behind its '{': its text, the counter, what is left. -/
def replacementField (args : List Arg) (id : Int) (text : List Char) :
    Option (List Char × Int × List Char) := do
  let (arg, id, rest) ← parseArgId args id text
  match rest with
  | [] => none
  | c :: rest =>
      if c = '}' then
        (writeArg arg none).map fun out => (out, id, rest)
      else if c = ':' then do
        let (specs, id, rest) ← parseFormatSpecs args arg id rest
        (writeArg arg (some specs)).map fun out => (out, id, rest)
      else none

/-! ## §5. How far a field reads. -/

/-- What stops a field: the end of the string, or "[{". -/
def Barrier (tail : List Char) : Prop := tail = [] ∨ ∃ t, tail = '[' :: '{' :: t

/-- `rest` is what is left of `text ++ tail`, and reading did not go into `tail`. -/
def Within (text tail rest : List Char) : Prop := ∃ left, rest = left ++ tail ∧ left <:+ text

namespace Within

variable {text tail rest : List Char} {c : Char}

theorem refl : Within text tail (text ++ tail) := ⟨text, rfl, List.suffix_rfl⟩

theorem cons (h : Within text tail rest) : Within (c :: text) tail rest := by
  obtain ⟨left, hleft, hsuffix⟩ := h
  exact ⟨left, hleft, hsuffix.trans (List.suffix_cons c text)⟩

end Within

section Reading

variable {args : List Arg} {arg : Arg} {id id' : Int} {specs specs' : Specs}
variable {text tail rest : List Char}

theorem within_parseNonnegativeInt (htail : Barrier tail) {n value : Nat}
    (h : parseNonnegativeInt value (text ++ tail) = some (n, rest)) : Within text tail rest := by
  induction text generalizing value with
  | nil =>
      rcases htail with rfl | ⟨t, rfl⟩
      · simp only [List.append_nil, parseNonnegativeInt, Option.ite_none_left_eq_some,
          Option.some.injEq, Prod.mk.injEq] at h
        exact ⟨[], h.2.2.symm, List.suffix_rfl⟩
      · have hstop : ('[').isDigit = false := by decide
        simp only [List.nil_append, parseNonnegativeInt, hstop, Bool.false_eq_true, if_false,
          Option.ite_none_left_eq_some, Option.some.injEq, Prod.mk.injEq] at h
        exact ⟨[], h.2.2.symm, List.suffix_rfl⟩
  | cons c text ih =>
      rw [List.cons_append, parseNonnegativeInt] at h
      split at h
      · rw [Option.ite_none_left_eq_some] at h
        exact (ih h.2).cons
      · rw [Option.ite_none_left_eq_some, Option.some.injEq, Prod.mk.injEq] at h
        exact ⟨c :: text, h.2.2.symm, List.suffix_rfl⟩

theorem nextArgId_ne_zero {n : Nat} (h : nextArgId id = some (n, id')) : id' ≠ 0 := by
  unfold nextArgId at h
  rw [Option.ite_none_right_eq_some, Option.some.injEq, Prod.mk.injEq] at h
  omega

theorem checkArgId_ne_zero (h : checkArgId id = some id') : id' ≠ 0 := by
  unfold checkArgId at h
  rw [Option.ite_none_left_eq_some, Option.some.injEq] at h
  omega

theorem within_parseIndex (htail : Barrier tail) {c : Char} {n : Nat}
    (h : parseIndex (c :: (text ++ tail)) = some (n, rest)) : Within (c :: text) tail rest := by
  rw [parseIndex] at h
  split at h
  · cases h
    exact Within.refl.cons
  · rw [← List.cons_append] at h
    exact within_parseNonnegativeInt htail h

/-- An argument number, after which the counter has been used. -/
theorem within_parseArgId (htail : Barrier tail)
    (h : parseArgId args id (text ++ tail) = some (arg, id', rest)) :
    Within text tail rest ∧ id' ≠ 0 := by
  cases text with
  | nil =>
      rcases htail with rfl | ⟨t, rfl⟩
      · exact absurd h (by simp [parseArgId])
      · have hstop : ('[').isDigit = false := by decide
        exact absurd h (by simp [parseArgId, hstop])
  | cons c text =>
      rw [List.cons_append, parseArgId] at h
      split at h
      · simp only [Option.bind_eq_bind, Option.bind_eq_some_iff, Option.some.injEq,
          Prod.mk.injEq] at h
        obtain ⟨⟨n, id''⟩, hnext, arg', _, _, rfl, rfl⟩ := h
        exact ⟨.refl, nextArgId_ne_zero hnext⟩
      · rw [Option.ite_none_right_eq_some] at h
        obtain ⟨_, h⟩ := h
        simp only [Option.bind_eq_bind, Option.bind_eq_some_iff, Option.ite_none_right_eq_some,
          Option.some.injEq, Prod.mk.injEq] at h
        obtain ⟨⟨n, rest'⟩, hnumber, d, _, _, id'', hcheck, arg', _, _, rfl, rfl⟩ := h
        exact ⟨within_parseIndex htail hnumber, checkArgId_ne_zero hcheck⟩

/-- A dynamic width or precision. -/
theorem within_parseDynamic (htail : Barrier tail) {n : Nat}
    (h : parseDynamic args id (text ++ tail) = some (n, id', rest)) :
    Within text tail rest ∧ id' ≠ 0 := by
  simp only [parseDynamic, Option.bind_eq_bind, Option.bind_eq_some_iff] at h
  obtain ⟨⟨arg, id'', rest'⟩, harg, m, _, h⟩ := h
  obtain ⟨⟨left, rfl, hsuffix⟩, hne⟩ := within_parseArgId htail harg
  cases left with
  | nil =>
      rcases htail with rfl | ⟨t, rfl⟩
      · exact absurd h (by simp)
      · exact absurd h (by simp)
  | cons c left =>
      simp only [List.cons_append, Option.ite_none_right_eq_some, Option.some.injEq,
        Prod.mk.injEq] at h
      obtain ⟨_, _, rfl, rfl⟩ := h
      exact ⟨⟨left, rfl, (List.suffix_cons c left).trans hsuffix⟩, hne⟩

/-- The code point in front ends before "[". -/
theorem nextCodePoint_append (htail : Barrier tail) (c : Char) :
    ∃ left, nextCodePoint (c :: text ++ tail) = left ++ tail ∧ left <:+ text := by
  rw [List.cons_append, nextCodePoint]
  split
  · exact ⟨text, rfl, List.suffix_rfl⟩
  · refine ⟨text.dropWhile isContinuation, ?_, List.dropWhile_suffix _⟩
    rw [List.dropWhile_append]
    split
    next hempty =>
      rw [List.isEmpty_iff.mp hempty]
      rcases htail with rfl | ⟨t, rfl⟩
      · rfl
      · have hstop : isContinuation '[' = false := by decide
        simp [hstop]
    next => rfl

theorem within_parseBareAlign (htail : Barrier tail)
    (h : parseBareAlign arg specs (text ++ tail) = some (specs', rest)) :
    Within text tail rest := by
  cases text with
  | nil =>
      rcases htail with rfl | ⟨t, rfl⟩
      · cases h
        exact .refl
      · have hstop : alignOf '[' = none := by decide
        simp only [List.nil_append, parseBareAlign, hstop, Option.some.injEq, Prod.mk.injEq] at h
        obtain ⟨_, rfl⟩ := h
        exact .refl
  | cons c text =>
      rw [List.cons_append, parseBareAlign] at h
      split at h
      · simp only [Option.map_eq_some_iff, Prod.mk.injEq] at h
        obtain ⟨_, _, _, rfl⟩ := h
        exact Within.refl.cons
      · cases h
        exact .refl

/-- A fill character is read with the alignment behind it, which "[{" is not. -/
theorem within_parseAlign (htail : Barrier tail)
    (h : parseAlign arg specs (text ++ tail) = some (specs', rest)) : Within text tail rest := by
  have hopen : alignOf '[' = none := by decide
  cases text with
  | nil =>
      rcases htail with rfl | ⟨t, rfl⟩
      · have hbare : parseBareAlign arg specs ([] ++ []) = some (specs', rest) := h
        exact within_parseBareAlign (Or.inl rfl) hbare
      · have hbare : parseBareAlign arg specs ([] ++ '[' :: '{' :: t) = some (specs', rest) := h
        exact within_parseBareAlign (Or.inr ⟨t, rfl⟩) hbare
  | cons c text =>
      obtain ⟨left, hleft, hsuffix⟩ :
          ∃ left, nextCodePoint (c :: text ++ tail) = left ++ tail ∧ left <:+ text :=
        nextCodePoint_append htail c
      rw [parseAlign, hleft] at h
      cases left with
      | nil =>
          rcases htail with rfl | ⟨t, rfl⟩
          · exact within_parseBareAlign (Or.inl rfl) h
          · simp only [List.nil_append, hopen] at h
            exact within_parseBareAlign (Or.inr ⟨t, rfl⟩) h
      | cons p left =>
          rw [List.cons_append] at h
          simp only at h
          split at h
          · exact within_parseBareAlign htail h
          · simp only [Option.ite_none_left_eq_some, Option.map_eq_some_iff, Prod.mk.injEq] at h
            obtain ⟨_, _, _, _, _, rfl⟩ := h
            exact ⟨left, rfl, ((List.suffix_cons p left).trans hsuffix).trans
              (List.suffix_cons c text)⟩

/-- The "[" of a barrier is no flag. -/
theorem within_parseFlag (htail : Barrier tail) {flagOf : Char → Option (Specs → Specs)}
    (hstop : flagOf '[' = none)
    (h : parseFlag flagOf arg specs (text ++ tail) = some (specs', rest)) :
    Within text tail rest := by
  cases text with
  | nil =>
      rcases htail with rfl | ⟨t, rfl⟩
      · cases h
        exact .refl
      · simp only [List.nil_append, parseFlag, hstop, Option.some.injEq, Prod.mk.injEq] at h
        obtain ⟨_, rfl⟩ := h
        exact .refl
  | cons c text =>
      rw [List.cons_append, parseFlag] at h
      split at h
      · rw [Option.ite_none_right_eq_some] at h
        cases h.2
        exact Within.refl.cons
      · cases h
        exact .refl

theorem within_parseWidth (htail : Barrier tail)
    (h : parseWidth args id specs (text ++ tail) = some (specs', id', rest)) :
    Within text tail rest ∧ (id' = id ∨ id' ≠ 0) := by
  cases text with
  | nil =>
      rcases htail with rfl | ⟨t, rfl⟩
      · cases h
        exact ⟨.refl, Or.inl rfl⟩
      · have hstop : ('[').isDigit = false := by decide
        simp only [parseWidth, List.nil_append, hstop, Bool.false_eq_true, if_false,
          Char.reduceEq, Option.some.injEq, Prod.mk.injEq] at h
        obtain ⟨_, rfl, rfl⟩ := h
        exact ⟨.refl, Or.inl rfl⟩
  | cons c text =>
      rw [List.cons_append, parseWidth] at h
      split at h
      · simp only [Option.map_eq_some_iff, Prod.mk.injEq] at h
        obtain ⟨⟨n, rest'⟩, hn, _, rfl, rfl⟩ := h
        rw [← List.cons_append] at hn
        exact ⟨within_parseNonnegativeInt htail hn, Or.inl rfl⟩
      · split at h
        · simp only [Option.map_eq_some_iff, Prod.mk.injEq] at h
          obtain ⟨⟨n, id'', rest'⟩, hn, _, rfl, rfl⟩ := h
          obtain ⟨hwithin, hne⟩ := within_parseDynamic htail hn
          exact ⟨hwithin.cons, Or.inr hne⟩
        · cases h
          exact ⟨.refl, Or.inl rfl⟩

theorem within_parsePrecision (htail : Barrier tail)
    (h : parsePrecision args id specs (text ++ tail) = some (specs', id', rest)) :
    Within text tail rest ∧ (id' = id ∨ id' ≠ 0) := by
  cases text with
  | nil =>
      rcases htail with rfl | ⟨t, rfl⟩
      · cases h
      · have hstop : ('[').isDigit = false := by decide
        simp [parsePrecision, hstop] at h
  | cons c text =>
      rw [List.cons_append, parsePrecision] at h
      split at h
      · simp only [Option.map_eq_some_iff, Prod.mk.injEq] at h
        obtain ⟨⟨n, rest'⟩, hn, _, rfl, rfl⟩ := h
        rw [← List.cons_append] at hn
        exact ⟨within_parseNonnegativeInt htail hn, Or.inl rfl⟩
      · rw [Option.ite_none_right_eq_some] at h
        obtain ⟨_, h⟩ := h
        simp only [Option.map_eq_some_iff, Prod.mk.injEq] at h
        obtain ⟨⟨n, id'', rest'⟩, hn, _, rfl, rfl⟩ := h
        obtain ⟨hwithin, hne⟩ := within_parseDynamic htail hn
        exact ⟨hwithin.cons, Or.inr hne⟩

theorem within_parseDot (htail : Barrier tail)
    (h : parseDot args arg id specs (text ++ tail) = some (specs', id', rest)) :
    Within text tail rest ∧ (id' = id ∨ id' ≠ 0) := by
  cases text with
  | nil =>
      rcases htail with rfl | ⟨t, rfl⟩
      · cases h
        exact ⟨.refl, Or.inl rfl⟩
      · simp only [parseDot, List.nil_append, Char.reduceEq, if_false, Option.some.injEq,
          Prod.mk.injEq] at h
        obtain ⟨_, rfl, rfl⟩ := h
        exact ⟨.refl, Or.inl rfl⟩
  | cons c text =>
      rw [List.cons_append, parseDot] at h
      split at h
      · simp only [Option.bind_eq_bind, Option.bind_eq_some_iff, Option.ite_none_left_eq_some,
          Option.some.injEq] at h
        obtain ⟨parsed, hparsed, _, rfl⟩ := h
        obtain ⟨hwithin, hid⟩ := within_parsePrecision htail hparsed
        exact ⟨hwithin.cons, hid⟩
      · cases h
        exact ⟨.refl, Or.inl rfl⟩

/-- A type may be any character, but '}' is behind it. -/
theorem within_parseType (htail : Barrier tail)
    (h : parseType specs (text ++ tail) = some (specs', rest)) : Within text tail rest := by
  cases text with
  | nil =>
      rcases htail with rfl | ⟨t, rfl⟩
      · cases h
      · simp [parseType] at h
  | cons c text =>
      cases text with
      | nil =>
          rcases htail with rfl | ⟨t, rfl⟩
          · simp only [parseType, List.append_nil, Option.ite_none_right_eq_some,
              Option.some.injEq, Prod.mk.injEq, List.nil_eq] at h
            obtain ⟨_, _, rfl⟩ := h
            exact Within.refl.cons
          · simp only [parseType, List.cons_append, List.nil_append, Char.reduceEq, if_false,
              Option.ite_none_right_eq_some, Option.some.injEq, Prod.mk.injEq] at h
            obtain ⟨_, _, rfl⟩ := h
            exact Within.refl.cons
      | cons d text =>
          simp only [List.cons_append, parseType] at h
          split at h
          · cases h
            exact Within.refl.cons
          · rw [Option.ite_none_right_eq_some] at h
            cases h.2
            exact Within.refl.cons.cons

theorem within_parseFormatSpecs (htail : Barrier tail)
    (h : parseFormatSpecs args arg id (text ++ tail) = some (specs', id', rest)) :
    Within text tail rest ∧ (id' = id ∨ id' ≠ 0) := by
  unfold parseFormatSpecs at h
  split at h
  next hclose =>
    cases h
    refine ⟨?_, Or.inl rfl⟩
    cases text with
    | nil =>
        rcases htail with rfl | ⟨t, rfl⟩
        · cases hclose
        · cases hclose
    | cons c text => exact Within.refl.cons
  next =>
    simp only [Option.bind_eq_bind, Option.bind_eq_some_iff, Option.some.injEq,
      Prod.mk.injEq] at h
    obtain ⟨⟨specs₁, text₁⟩, h₁, ⟨specs₂, text₂⟩, h₂, ⟨specs₃, text₃⟩, h₃, ⟨specs₄, text₄⟩, h₄,
      ⟨specs₅, id₅, text₅⟩, h₅, ⟨specs₆, id₆, text₆⟩, h₆, ⟨specs₇, text₇⟩, h₇, _, rfl, rfl⟩ := h
    -- every part leaves a suffix of what the one before it left
    obtain ⟨left₁, rfl, hs₁⟩ := within_parseAlign htail h₁
    obtain ⟨left₂, rfl, hs₂⟩ := within_parseFlag htail rfl h₂
    obtain ⟨left₃, rfl, hs₃⟩ := within_parseFlag htail rfl h₃
    obtain ⟨left₄, rfl, hs₄⟩ := within_parseFlag htail rfl h₄
    obtain ⟨⟨left₅, rfl, hs₅⟩, hid₅⟩ := within_parseWidth htail h₅
    obtain ⟨⟨left₆, rfl, hs₆⟩, hid₆⟩ := within_parseDot htail h₆
    obtain ⟨left₇, rfl, hs₇⟩ := within_parseType htail h₇
    constructor
    · exact ⟨left₇, rfl, hs₇.trans (hs₆.trans (hs₅.trans (hs₄.trans (hs₃.trans (hs₂.trans hs₁)))))⟩
    · rcases hid₆ with rfl | hne
      · exact hid₅
      · exact Or.inr hne

/-- **A field** stays before a barrier and uses the argument counter. -/
theorem within_replacementField (htail : Barrier tail) {out : List Char}
    (h : replacementField args id (text ++ tail) = some (out, id', rest)) :
    (∃ left, rest = left ++ tail ∧ left <:+ text ∧ left.length < text.length) ∧ id' ≠ 0 := by
  simp only [replacementField, Option.bind_eq_bind, Option.bind_eq_some_iff] at h
  obtain ⟨⟨arg, id₁, rest₁⟩, harg, h⟩ := h
  obtain ⟨⟨left₁, rfl, hs₁⟩, hne⟩ := within_parseArgId htail harg
  cases left₁ with
  | nil =>
      rcases htail with rfl | ⟨t, rfl⟩
      · cases h
      · simp at h
  | cons c left₁ =>
      have hle := hs₁.length_le
      have hleft : left₁ <:+ text := (List.suffix_cons c left₁).trans hs₁
      rw [List.length_cons] at hle
      simp only [List.cons_append] at h
      split at h
      · simp only [Option.map_eq_some_iff, Prod.mk.injEq] at h
        obtain ⟨_, _, _, rfl, rfl⟩ := h
        exact ⟨⟨left₁, rfl, hleft, hle⟩, hne⟩
      · simp only [Option.ite_none_right_eq_some, Option.bind_eq_some_iff,
          Option.map_eq_some_iff, Prod.mk.injEq] at h
        obtain ⟨_, ⟨specs, id₂, rest₂⟩, hspecs, _, _, _, rfl, rfl⟩ := h
        obtain ⟨⟨left₂, rfl, hs₂⟩, hid⟩ := within_parseFormatSpecs htail hspecs
        have hle₂ := hs₂.length_le
        refine ⟨⟨left₂, rfl, hs₂.trans hleft, by omega⟩, ?_⟩
        rcases hid with rfl | hne'
        · exact hne
        · exact hne'

end Reading

/-! ## §6. Format strings. -/

theorem replacementField_length {args : List Arg} {id id' : Int} {text out rest : List Char}
    (h : replacementField args id text = some (out, id', rest)) : rest.length < text.length := by
  rw [← List.append_nil text] at h
  obtain ⟨⟨left, rfl, _, hlt⟩, _⟩ := within_replacementField (Or.inl rfl) h
  rw [List.append_nil]
  exact hlt

/-- `parse_format_string` with `format_handler`, in one pass instead of two. -/
def format (args : List Arg) (id : Int) : List Char → Option (List Char)
  | [] => some []
  | c :: rest =>
      if c = '{' then
        match rest with
        | [] => none
        | d :: rest' =>
            if d = '{' then (format args id rest').map ('{' :: ·)
            else
              match _h : replacementField args id (d :: rest') with
              | none => none
              | some (out, id', rest'') => (format args id' rest'').map (out ++ ·)
      else if c = '}' then
        match rest with
        | [] => none
        | d :: rest' => if d = '}' then (format args id rest').map ('}' :: ·) else none
      else (format args id rest).map (c :: ·)
termination_by text => text.length
decreasing_by
  · simp only [List.length_cons]
    omega
  · have hlt := replacementField_length _h
    simp only [List.length_cons] at hlt ⊢
    omega
  · simp only [List.length_cons]
    omega
  · simp only [List.length_cons]
    omega

section Strings

variable {args : List Arg} {id : Int} {text tail out : List Char}

/-- **What one step of the scan can do**: copy a character, take two equal braces
for one, or write a field. -/
theorem format_cons_cases {c : Char} {rest : List Char}
    (h : format args id (c :: rest) = some out) :
    (c ≠ '{' ∧ c ≠ '}' ∧ ∃ out', format args id rest = some out' ∧ out = c :: out')
    ∨ ((c = '{' ∨ c = '}') ∧ ∃ rest' out', rest = c :: rest'
      ∧ format args id rest' = some out' ∧ out = c :: out')
    ∨ (c = '{' ∧ ∃ field id' rest' out', replacementField args id rest = some (field, id', rest')
      ∧ format args id' rest' = some out' ∧ out = field ++ out') := by
  rw [format.eq_def] at h
  simp only at h
  split at h
  next hopen =>
    cases rest with
    | nil => cases h
    | cons d rest =>
        simp only at h
        split at h
        next hd =>
          obtain ⟨out', hout, rfl⟩ := Option.map_eq_some_iff.mp h
          exact Or.inr (Or.inl ⟨Or.inl hopen, rest, out', by rw [hopen, hd], hout, by rw [hopen]⟩)
        next =>
          split at h
          next => cases h
          next field id' rest' hfield =>
            obtain ⟨out', hout, rfl⟩ := Option.map_eq_some_iff.mp h
            exact Or.inr (Or.inr ⟨hopen, field, id', rest', out', hfield, hout, rfl⟩)
  next hopen =>
    split at h
    next hclose =>
      cases rest with
      | nil => cases h
      | cons d rest =>
          simp only [Option.ite_none_right_eq_some, Option.map_eq_some_iff] at h
          obtain ⟨hd, out', hout, rfl⟩ := h
          exact Or.inr (Or.inl ⟨Or.inr hclose, rest, out', by rw [hclose, hd], hout,
            by rw [hclose]⟩)
    next hclose =>
      obtain ⟨out', hout, rfl⟩ := Option.map_eq_some_iff.mp h
      exact Or.inl ⟨hopen, hclose, out', hout, rfl⟩

/-- **Text without braces is copied.** -/
theorem format_copies (hopen : '{' ∉ text) (hclose : '}' ∉ text) :
    format args id (text ++ tail) = (format args id tail).map (text ++ ·) := by
  induction text with
  | nil => simp
  | cons c text ih =>
      rw [List.mem_cons, not_or] at hopen hclose
      have hc : c ≠ '{' := fun hc => hopen.1 hc.symm
      have hc' : c ≠ '}' := fun hc => hclose.1 hc.symm
      rw [List.cons_append, format.eq_def]
      simp only [hc, hc', if_false]
      rw [ih hopen.2 hclose.2, Option.map_map]
      rfl

/-- A pair of braces does not reach into the tail. -/
theorem brace_append (htail : Barrier tail) {c : Char} {rest : List Char}
    (hc : c = '{' ∨ c = '}') (h : text ++ tail = c :: rest) :
    ∃ text', text = c :: text' ∧ rest = text' ++ tail := by
  cases text with
  | nil =>
      rcases htail with rfl | ⟨t, rfl⟩
      · cases h
      · obtain ⟨rfl, _⟩ := List.cons.inj h
        exact absurd hc (by decide)
  | cons d text =>
      rw [List.cons_append] at h
      obtain ⟨rfl, rfl⟩ := List.cons.inj h
      exact ⟨text, rfl, rfl⟩

/-- Once an argument was used, a tail that needs them all fails. -/
theorem format_append_used (htail : Barrier tail)
    (hused : ∀ id, id ≠ 0 → format args id tail = none) (hid : id ≠ 0) :
    format args id (text ++ tail) = none := by
  induction hn : text.length using Nat.strongRecOn generalizing text id with
  | _ n ih =>
    rw [Option.eq_none_iff_forall_ne_some]
    intro out h
    cases text with
    | nil =>
        rw [List.nil_append, hused id hid] at h
        cases h
    | cons c text =>
        rw [List.length_cons] at hn
        rw [List.cons_append] at h
        rcases format_cons_cases h with ⟨_, _, out', hout, _⟩ | ⟨hc, rest, out', hrest, hout, _⟩
          | ⟨_, field, id', rest, out', hfield, hout, _⟩
        · rw [ih text.length (by omega) hid rfl] at hout
          cases hout
        · obtain ⟨text', rfl, rfl⟩ := brace_append htail hc hrest
          rw [List.length_cons] at hn
          rw [ih text'.length (by omega) hid rfl] at hout
          cases hout
        · obtain ⟨⟨left, rfl, _, hlt⟩, hid'⟩ := within_replacementField htail hfield
          rw [ih left.length (by omega) hid' rfl] at hout
          cases hout

/-- **A string before a tail that needs all arguments** is formatted only if it has
no field; each escape in it makes the result shorter. -/
theorem format_append_cases (htail : Barrier tail)
    (hused : ∀ id, id ≠ 0 → format args id tail = none)
    (h : format args id (text ++ tail) = some out) :
    ∃ before after, out = before ++ after ∧ format args id tail = some after
      ∧ (before = text ∧ '{' ∉ text ∧ '}' ∉ text ∨ before.length < text.length) := by
  induction hn : text.length using Nat.strongRecOn generalizing text out with
  | _ n ih =>
    cases text with
    | nil => exact ⟨[], out, rfl, h, Or.inl ⟨rfl, List.not_mem_nil, List.not_mem_nil⟩⟩
    | cons c text =>
        rw [List.length_cons] at hn
        rw [List.cons_append] at h
        rcases format_cons_cases h with ⟨hopen, hclose, out', hout, rfl⟩
          | ⟨hc, rest, out', hrest, hout, rfl⟩ | ⟨_, field, id', rest, out', hfield, hout, _⟩
        · obtain ⟨before, after, rfl, hafter, hcase⟩ := ih text.length (by omega) hout rfl
          refine ⟨c :: before, after, rfl, hafter, ?_⟩
          rcases hcase with ⟨rfl, hno, hno'⟩ | hlt
          · left
            simp [hno, hno', Ne.symm hopen, Ne.symm hclose]
          · right
            simp only [List.length_cons]
            omega
        · -- two braces become one, so the result is shorter from here on
          obtain ⟨text', rfl, rfl⟩ := brace_append htail hc hrest
          rw [List.length_cons] at hn
          obtain ⟨before, after, rfl, hafter, hcase⟩ := ih text'.length (by omega) hout rfl
          refine ⟨c :: before, after, rfl, hafter, Or.inr ?_⟩
          have hle : before.length ≤ text'.length := by
            rcases hcase with ⟨rfl, _⟩ | hlt
            · exact Nat.le_refl _
            · omega
          simp only [List.length_cons]
          omega
        · -- a field leaves one argument too few for the tail
          obtain ⟨⟨left, rfl, _, _⟩, hid'⟩ := within_replacementField htail hfield
          rw [format_append_used htail hused hid'] at hout
          cases hout

/-- What "{}" makes of an argument. -/
def Arg.plain : Arg → List Char
  | .str s => s
  | .int n => writeDecimal n

theorem replacementField_auto {arg : Arg} {rest : List Char} (hid : 0 ≤ id)
    (harg : args[id.toNat]? = some arg) :
    replacementField args id ('}' :: rest) = some (arg.plain, id + 1, rest) := by
  have hparse : parseArgId args id ('}' :: rest) = some (arg, id + 1, '}' :: rest) := by
    simp [parseArgId, nextArgId, hid, harg]
  rw [replacementField, hparse]
  cases arg with
  | str s => rfl
  | int n => rfl

/-- "{}" takes the next argument. -/
theorem format_auto {arg : Arg} {rest : List Char} (hid : 0 ≤ id)
    (harg : args[id.toNat]? = some arg) :
    format args id ('{' :: '}' :: rest) = (format args (id + 1) rest).map (arg.plain ++ ·) := by
  have hfield : replacementField args id ('}' :: rest) = some (arg.plain, id + 1, rest) :=
    replacementField_auto hid harg
  have hne : ¬ '}' = '{' := by decide
  rw [format.eq_def]
  simp only [if_true, hne, if_false]
  split
  next h =>
    rw [hfield] at h
    cases h
  next out id' rest' h =>
    rw [hfield] at h
    cases h
    rfl

/-- It fails when there is none, or when arguments were named by number. -/
theorem format_auto_none {rest : List Char} (h : id < 0 ∨ args[id.toNat]? = none) :
    format args id ('{' :: '}' :: rest) = none := by
  have hfield : replacementField args id ('}' :: rest) = none := by
    have hparse : parseArgId args id ('}' :: rest) = none := by
      rcases h with hid | harg
      · have hneg : ¬ 0 ≤ id := by omega
        simp [parseArgId, nextArgId, hneg]
      · by_cases hid : 0 ≤ id
        · simp [parseArgId, nextArgId, hid, harg]
        · simp [parseArgId, nextArgId, hid]
    rw [replacementField, hparse]
    rfl
  rw [Option.eq_none_iff_forall_ne_some]
  intro out hout
  rcases format_cons_cases hout with ⟨hne, _⟩ | ⟨_, rest', _, hrest, _⟩
    | ⟨_, field, id', rest', _, hsome, _⟩
  · exact hne rfl
  · exact absurd (List.cons.inj hrest).1 (by decide)
  · rw [hfield] at hsome
    cases hsome

/-- It fails when what is behind it does. -/
theorem format_auto_of_rest {rest : List Char} (h : format args (id + 1) rest = none) :
    format args id ('{' :: '}' :: rest) = none := by
  by_cases hid : 0 ≤ id
  · cases harg : args[id.toNat]? with
    | none => exact format_auto_none (Or.inr harg)
    | some arg =>
        rw [format_auto hid harg, h]
        rfl
  · exact format_auto_none (Or.inl (by omega))

end Strings

/-! ## §7. The characters of a result. -/

section Characters

variable {P : Char → Prop} {args : List Arg} {arg : Arg} {id id' : Int} {specs specs' : Specs}
variable {text rest out : List Char}

/-- The characters the writers make up. -/
def Printable (c : Char) : Prop := 32 ≤ c.toNat ∧ c.toNat ≤ 126

instance (c : Char) : Decidable (Printable c) :=
  inferInstanceAs (Decidable (32 ≤ c.toNat ∧ c.toNat ≤ 126))

theorem mem_toDigits {b : Nat} (hb : 1 < b) {c : Char} :
    ∀ {n : Nat}, c ∈ Nat.toDigits b n → ∃ d, d < b ∧ c = Nat.digitChar d := by
  intro n
  induction n using Nat.strongRecOn with
  | _ n ih =>
    intro hc
    rw [Nat.toDigits_eq_if hb] at hc
    split at hc
    next hlt => exact ⟨n, hlt, List.mem_singleton.mp hc⟩
    next hge =>
      rcases List.mem_append.mp hc with hc | hc
      · exact ih (n / b) (Nat.div_lt_self (by omega) hb) hc
      · exact ⟨n % b, Nat.mod_lt n (by omega), List.mem_singleton.mp hc⟩

/-- A digit of any base, in either case. -/
theorem printable_digit {b : Nat} (hb : 1 < b) (hle : b ≤ 16) {n : Nat} {c : Char}
    (hc : c ∈ Nat.toDigits b n) : Printable c ∧ Printable c.toUpper := by
  obtain ⟨d, hd, rfl⟩ := mem_toDigits hb hc
  have hall : ∀ d : Fin 16,
      Printable (Nat.digitChar d) ∧ Printable (Nat.digitChar d).toUpper := by
    decide
  exact hall ⟨d, by omega⟩

theorem forall_writePadded {points : Nat} {body : List Char} (hfill : ∀ c ∈ specs.fill, P c)
    (hbody : ∀ c ∈ body, P c) : ∀ c ∈ writePadded specs points body, P c := by
  have hpad : ∀ n, ∀ c ∈ (List.replicate n specs.fill).flatten, P c := by
    intro n c hc
    obtain ⟨fill, hmem, hc⟩ := List.mem_flatten.mp hc
    rw [List.eq_of_mem_replicate hmem] at hc
    exact hfill c hc
  intro c hc
  unfold writePadded at hc
  simp only at hc
  split at hc
  · rcases List.mem_append.mp hc with hc | hc
    · exact hpad _ c hc
    · exact hbody c hc
  · rcases List.mem_append.mp hc with hc | hc
    · rcases List.mem_append.mp hc with hc | hc
      · exact hpad _ c hc
      · exact hbody c hc
    · exact hpad _ c hc
  · rcases List.mem_append.mp hc with hc | hc
    · exact hbody c hc
    · exact hpad _ c hc

theorem forall_writeStr {s : List Char} (hfill : ∀ c ∈ specs.fill, P c) (hs : ∀ c ∈ s, P c) :
    ∀ c ∈ writeStr specs s, P c := by
  unfold writeStr
  simp only
  apply forall_writePadded hfill
  split
  · exact fun c hc => hs c (List.mem_of_mem_take hc)
  · exact hs

theorem forall_writeDigits {lead digits : List Char} (hprint : ∀ c, Printable c → P c)
    (hfill : ∀ c ∈ specs.fill, P c) (hlead : ∀ c ∈ lead, P c) (hdigits : ∀ c ∈ digits, P c) :
    ∀ c ∈ writeDigits specs lead digits, P c := by
  have hfirst : P (specs.fill.headD ' ') := by
    cases hf : specs.fill with
    | nil => exact hprint ' ' (by decide)
    | cons c fill => exact hfill c (by rw [hf]; exact List.mem_cons_self)
  unfold writeDigits
  simp only
  split
  · intro c hc
    rcases List.mem_append.mp hc with hc | hc
    · rcases List.mem_append.mp hc with hc | hc
      · exact hlead c hc
      · rw [List.eq_of_mem_replicate hc]
        exact hfirst
    · exact hdigits c hc
  · apply forall_writePadded
    · exact hfill
    · intro c hc
      rcases List.mem_append.mp hc with hc | hc
      · exact hlead c hc
      · exact hdigits c hc

theorem forall_writeInt {n : Int} (hprint : ∀ c, Printable c → P c)
    (hfill : ∀ c ∈ specs.fill, P c) (h : writeInt specs n = some out) : ∀ c ∈ out, P c := by
  have hsign : ∀ c ∈ signLead specs n, P c := by
    intro c hc
    apply hprint
    unfold signLead at hc
    split at hc
    · rw [List.mem_singleton.mp hc]
      decide
    · split at hc
      · rw [List.mem_singleton.mp hc]
        decide
      · rw [List.mem_singleton.mp hc]
        decide
      · cases hc
  have hbase : ∀ type, Printable type →
      ∀ c ∈ (if specs.alt then signLead specs n ++ ['0', type] else signLead specs n), P c := by
    intro type htype c hc
    split at hc
    · rcases List.mem_append.mp hc with hc | hc
      · exact hsign c hc
      · rcases List.mem_cons.mp hc with rfl | hc
        · exact hprint _ (by decide)
        · rw [List.mem_singleton.mp hc]
          exact hprint _ htype
    · exact hsign c hc
  have hdigits : ∀ b, 1 < b → b ≤ 16 → ∀ c ∈ Nat.toDigits b n.natAbs, P c :=
    fun b hb hle c hc => hprint c (printable_digit hb hle hc).1
  unfold writeInt at h
  simp only at h
  split at h
  all_goals cases h
  · exact forall_writeDigits hprint hfill hsign (hdigits 10 (by decide) (by decide))
  · exact forall_writeDigits hprint hfill hsign (hdigits 10 (by decide) (by decide))
  · exact forall_writeDigits hprint hfill (hbase 'x' (by decide))
      (hdigits 16 (by decide) (by decide))
  · apply forall_writeDigits hprint hfill (hbase 'X' (by decide))
    intro c hc
    obtain ⟨d, hd, rfl⟩ := List.mem_map.mp hc
    exact hprint _ (printable_digit (by decide) (by decide) hd).2
  · exact forall_writeDigits hprint hfill (hbase 'b' (by decide))
      (hdigits 2 (by decide) (by decide))
  · exact forall_writeDigits hprint hfill (hbase 'B' (by decide))
      (hdigits 2 (by decide) (by decide))
  · apply forall_writeDigits hprint hfill _ (hdigits 8 (by decide) (by decide))
    intro c hc
    split at hc
    · rcases List.mem_append.mp hc with hc | hc
      · exact hsign c hc
      · rw [List.mem_singleton.mp hc]
        exact hprint _ (by decide)
    · exact hsign c hc
  · exact forall_writeDigits hprint hfill hsign (hdigits 10 (by decide) (by decide))
  · exact forall_writeDigits hprint hfill hsign (hdigits 10 (by decide) (by decide))

/-- The characters of an argument without specifiers are its own or printable. -/
theorem forall_plain (hprint : ∀ c, Printable c → P c)
    (harg : ∀ s, arg = .str s → ∀ c ∈ s, P c) : ∀ c ∈ arg.plain, P c := by
  cases arg with
  | str s => exact harg s rfl
  | int n =>
      have hdigits : ∀ c ∈ Nat.toDigits 10 n.natAbs, P c :=
        fun c hc => hprint c (printable_digit (by decide) (by decide) hc).1
      show ∀ c ∈ writeDecimal n, P c
      unfold writeDecimal
      split
      · intro c hc
        rcases List.mem_cons.mp hc with rfl | hc
        · exact hprint _ (by decide)
        · exact hdigits c hc
      · exact hdigits

theorem forall_writeArg (hprint : ∀ c, Printable c → P c) (hfill : ∀ c ∈ specs.fill, P c)
    (harg : ∀ s, arg = .str s → ∀ c ∈ s, P c) (h : writeArg arg (some specs) = some out) :
    ∀ c ∈ out, P c := by
  cases arg with
  | str s =>
      rw [writeArg, Option.ite_none_right_eq_some] at h
      cases h.2
      exact forall_writeStr hfill (harg s rfl)
  | int n => exact forall_writeInt hprint hfill h

theorem parseArgId_mem (h : parseArgId args id text = some (arg, id', rest)) : arg ∈ args := by
  cases text with
  | nil => cases h
  | cons c text =>
      rw [parseArgId] at h
      split at h
      · simp only [Option.bind_eq_bind, Option.bind_eq_some_iff, Option.some.injEq,
          Prod.mk.injEq] at h
        obtain ⟨_, _, arg', hmem, rfl, _⟩ := h
        exact List.mem_of_getElem? hmem
      · simp only [Option.ite_none_right_eq_some, Option.bind_eq_bind, Option.bind_eq_some_iff,
          Option.some.injEq, Prod.mk.injEq] at h
        obtain ⟨_, _, _, _, _, _, _, _, arg', hmem, rfl, _⟩ := h
        exact List.mem_of_getElem? hmem

theorem onAlign_fill {align : Align} (h : onAlign arg align specs = some specs') :
    specs'.fill = specs.fill := by
  rw [onAlign, Option.ite_none_left_eq_some] at h
  cases h.2
  rfl

theorem parseBareAlign_fill (h : parseBareAlign arg specs text = some (specs', rest)) :
    specs'.fill = specs.fill := by
  cases text with
  | nil =>
      cases h
      rfl
  | cons c text =>
      rw [parseBareAlign] at h
      split at h
      · simp only [Option.map_eq_some_iff, Prod.mk.injEq] at h
        obtain ⟨_, halign, rfl, _⟩ := h
        exact onAlign_fill halign
      · cases h
        rfl

/-- A fill is part of the string. -/
theorem forall_parseAlign (hfill : ∀ c ∈ specs.fill, P c) (htext : ∀ c ∈ text, P c)
    (h : parseAlign arg specs text = some (specs', rest)) : ∀ c ∈ specs'.fill, P c := by
  unfold parseAlign at h
  split at h
  · rw [parseBareAlign_fill h]
    exact hfill
  · split at h
    · rw [parseBareAlign_fill h]
      exact hfill
    · simp only [Option.ite_none_left_eq_some, Option.map_eq_some_iff, Prod.mk.injEq] at h
      obtain ⟨_, _, _, halign, rfl, _⟩ := h
      rw [onAlign_fill halign]
      exact fun c hc => htext c (List.mem_of_mem_take hc)

theorem forall_parseFlag {flagOf : Char → Option (Specs → Specs)}
    (hset : ∀ c set, flagOf c = some set → ∀ c ∈ (set specs).fill, P c)
    (hfill : ∀ c ∈ specs.fill, P c) (h : parseFlag flagOf arg specs text = some (specs', rest)) :
    ∀ c ∈ specs'.fill, P c := by
  cases text with
  | nil =>
      cases h
      exact hfill
  | cons c text =>
      rw [parseFlag] at h
      split at h
      next set hflag =>
        rw [Option.ite_none_right_eq_some] at h
        cases h.2
        exact hset c set hflag
      next =>
        cases h
        exact hfill

theorem signFlag_fill {c : Char} {set : Specs → Specs} (h : signFlag c = some set) :
    (set specs).fill = specs.fill := by
  unfold signFlag at h
  split at h
  · cases h
    rfl
  · split at h
    · cases h
      rfl
    · rw [Option.ite_none_right_eq_some] at h
      cases h.2
      rfl

theorem hashFlag_fill {c : Char} {set : Specs → Specs} (h : hashFlag c = some set) :
    (set specs).fill = specs.fill := by
  rw [hashFlag, Option.ite_none_right_eq_some] at h
  cases h.2
  rfl

theorem zeroFlag_fill {c : Char} {set : Specs → Specs} (h : zeroFlag c = some set) :
    (set specs).fill = specs.fill.set 0 '0' := by
  rw [zeroFlag, Option.ite_none_right_eq_some] at h
  cases h.2
  rfl

theorem parseWidth_fill (h : parseWidth args id specs text = some (specs', id', rest)) :
    specs'.fill = specs.fill := by
  cases text with
  | nil =>
      cases h
      rfl
  | cons c text =>
      rw [parseWidth] at h
      split at h
      · obtain ⟨_, _, heq⟩ := Option.map_eq_some_iff.mp h
        cases heq
        rfl
      · split at h
        · obtain ⟨_, _, heq⟩ := Option.map_eq_some_iff.mp h
          cases heq
          rfl
        · cases h
          rfl

theorem parsePrecision_fill (h : parsePrecision args id specs text = some (specs', id', rest)) :
    specs'.fill = specs.fill := by
  cases text with
  | nil => cases h
  | cons c text =>
      rw [parsePrecision] at h
      split at h
      · obtain ⟨_, _, heq⟩ := Option.map_eq_some_iff.mp h
        cases heq
        rfl
      · rw [Option.ite_none_right_eq_some] at h
        obtain ⟨_, _, heq⟩ := Option.map_eq_some_iff.mp h.2
        cases heq
        rfl

theorem parseDot_fill (h : parseDot args arg id specs text = some (specs', id', rest)) :
    specs'.fill = specs.fill := by
  cases text with
  | nil =>
      cases h
      rfl
  | cons c text =>
      rw [parseDot] at h
      split at h
      · simp only [Option.bind_eq_bind, Option.bind_eq_some_iff, Option.ite_none_left_eq_some,
          Option.some.injEq] at h
        obtain ⟨parsed, hparsed, _, rfl⟩ := h
        exact parsePrecision_fill hparsed
      · cases h
        rfl

theorem parseType_fill (h : parseType specs text = some (specs', rest)) :
    specs'.fill = specs.fill := by
  unfold parseType at h
  split at h
  · cases h
  · split at h
    · cases h
      rfl
    · split at h
      · cases h
      · rw [Option.ite_none_right_eq_some] at h
        cases h.2
        rfl

theorem forall_parseFormatSpecs (hprint : ∀ c, Printable c → P c) (htext : ∀ c ∈ text, P c)
    (h : parseFormatSpecs args arg id text = some (specs', id', rest)) :
    ∀ c ∈ specs'.fill, P c := by
  have hnew : ∀ c ∈ Specs.new.fill, P c := by
    intro c hc
    rw [List.mem_singleton.mp hc]
    exact hprint _ (by decide)
  unfold parseFormatSpecs at h
  split at h
  next =>
    cases h
    exact hnew
  next =>
    simp only [Option.bind_eq_bind, Option.bind_eq_some_iff, Option.some.injEq,
      Prod.mk.injEq] at h
    obtain ⟨⟨specs₁, text₁⟩, h₁, ⟨specs₂, text₂⟩, h₂, ⟨specs₃, text₃⟩, h₃, ⟨specs₄, text₄⟩, h₄,
      ⟨specs₅, id₅, text₅⟩, h₅, ⟨specs₆, id₆, text₆⟩, h₆, ⟨specs₇, text₇⟩, h₇, rfl, _⟩ := h
    have hfill₁ := forall_parseAlign hnew htext h₁
    have hfill₂ : ∀ c ∈ specs₂.fill, P c :=
      forall_parseFlag (fun c set hset => by rw [signFlag_fill hset]; exact hfill₁) hfill₁ h₂
    have hfill₃ : ∀ c ∈ specs₃.fill, P c :=
      forall_parseFlag (fun c set hset => by rw [hashFlag_fill hset]; exact hfill₂) hfill₂ h₃
    have hfill₄ : ∀ c ∈ specs₄.fill, P c := by
      apply forall_parseFlag _ hfill₃ h₄
      intro c set hset c hc
      rw [zeroFlag_fill hset] at hc
      rcases List.mem_or_eq_of_mem_set hc with hc | rfl
      · exact hfill₃ c hc
      · exact hprint _ (by decide)
    -- the fill is not touched behind the flags
    rw [parseType_fill h₇, parseDot_fill h₆, parseWidth_fill h₅]
    exact hfill₄

theorem forall_replacementField (hprint : ∀ c, Printable c → P c) (htext : ∀ c ∈ text, P c)
    (hargs : ∀ s, .str s ∈ args → ∀ c ∈ s, P c)
    (h : replacementField args id text = some (out, id', rest)) :
    (∀ c ∈ out, P c) ∧ ∀ c ∈ rest, P c := by
  constructor
  · simp only [replacementField, Option.bind_eq_bind, Option.bind_eq_some_iff] at h
    obtain ⟨⟨arg, id₁, rest₁⟩, harg, h⟩ := h
    have hsuffix : rest₁ <:+ text := by
      rw [← List.append_nil text] at harg
      obtain ⟨⟨left, rfl, hs⟩, _⟩ := within_parseArgId (Or.inl rfl) harg
      rw [List.append_nil]
      exact hs
    have hown : ∀ s, arg = .str s → ∀ c ∈ s, P c := by
      rintro s rfl
      exact hargs s (parseArgId_mem harg)
    cases rest₁ with
    | nil => cases h
    | cons d rest₁ =>
        simp only at h
        split at h
        · obtain ⟨_, hwrite, heq⟩ := Option.map_eq_some_iff.mp h
          cases heq
          have hplain : writeArg arg none = some arg.plain := by
            cases arg <;> rfl
          rw [hplain] at hwrite
          cases hwrite
          exact forall_plain hprint hown
        · simp only [Option.ite_none_right_eq_some, Option.bind_eq_some_iff] at h
          obtain ⟨_, ⟨specs, id₂, rest₂⟩, hspecs, hwritten⟩ := h
          obtain ⟨_, hwrite, heq⟩ := Option.map_eq_some_iff.mp hwritten
          cases heq
          have hrest : ∀ c ∈ rest₁, P c :=
            fun c hc => htext c (hsuffix.mem (List.mem_cons_of_mem d hc))
          exact forall_writeArg hprint (forall_parseFormatSpecs hprint hrest hspecs) hown hwrite
  · rw [← List.append_nil text] at h
    obtain ⟨⟨left, rfl, hs, _⟩, _⟩ := within_replacementField (Or.inl rfl) h
    intro c hc
    rw [List.append_nil] at hc
    exact htext c (hs.mem hc)

/-- **The characters of a result** are from the string, from an argument, or
printable. -/
theorem format_forall (hprint : ∀ c, Printable c → P c)
    (hargs : ∀ s, .str s ∈ args → ∀ c ∈ s, P c) (htext : ∀ c ∈ text, P c)
    (h : format args id text = some out) : ∀ c ∈ out, P c := by
  induction hn : text.length using Nat.strongRecOn generalizing text id out with
  | _ n ih =>
    cases text with
    | nil =>
        rw [format] at h
        cases h
        exact fun c hc => absurd hc List.not_mem_nil
    | cons c text =>
        rw [List.length_cons] at hn
        have hrest : ∀ d ∈ text, P d := fun d hd => htext d (List.mem_cons_of_mem c hd)
        have hcons : ∀ out', (∀ d ∈ out', P d) → ∀ d ∈ c :: out', P d := by
          intro out' hout d hd
          rcases List.mem_cons.mp hd with rfl | hd
          · exact htext d List.mem_cons_self
          · exact hout d hd
        rcases format_cons_cases h with ⟨_, _, out', hout, rfl⟩ | ⟨_, rest', out', rfl, hout, rfl⟩
          | ⟨_, field, id', rest', out', hfield, hout, rfl⟩
        · exact hcons out' (ih text.length (by omega) hrest hout rfl)
        · rw [List.length_cons] at hn
          have hrest' : ∀ d ∈ rest', P d := fun d hd => hrest d (List.mem_cons_of_mem c hd)
          exact hcons out' (ih rest'.length (by omega) hrest' hout rfl)
        · obtain ⟨hown, hrest'⟩ := forall_replacementField hprint hrest hargs hfield
          have hlt := replacementField_length hfield
          intro d hd
          rcases List.mem_append.mp hd with hd | hd
          · exact hown d hd
          · exact ih rest'.length (by omega) hrest' hout rfl d hd

end Characters

end Fmt
