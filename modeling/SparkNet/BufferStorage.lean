/-
  SparkNet.BufferStorage — how large a buffer's vector gets.

  The vector never shrinks, and when `ExtendSpace` enlarges it the consumed
  prefix stays in front of the pending bytes.  What bounds the prefix is the test
  of that branch: it is taken only when the free space and the prefix together
  are too small, so the prefix is shorter than what is appended.

  Main results:
    * `Buffer.length_appendData_le` — a call that enlarges the vector at most
      doubles what is pending after it;
    * `storage_le_peak` — over a run of any length the vector is at most twice as
      large as the most that was ever pending.
-/
import SparkNet.Buffer
import SparkNet.Runs

namespace SparkNet

open Runs

/-! ## §1. A buffer in use. -/

/-- The calls a connection and its users make on a buffer. -/
inductive BufferUse where
  | appendData (data : List Byte)
  | retrieve (len : Nat)
  | retrieveAll
  | hasWrite (len : Nat)
  | hasWriteToEnd

/-- One call; `HasWrite` is for bytes stored in the writable space. -/
def Buffer.use (b : Buffer) : BufferUse → Option Buffer
  | .appendData data => some (b.appendData data)
  | .retrieve len => some (b.retrieve len)
  | .retrieveAll => some b.retrieveAll
  | .hasWrite len => if len ≤ b.writableBytes then some (b.hasWrite len) else none
  | .hasWriteToEnd => some b.hasWriteToEnd

/-- A buffer and the largest `ReadableBytes()` it has had after a call. -/
structure Metered where
  buffer : Buffer
  peak : Nat

namespace Metered

def new : Metered := ⟨Buffer.new, 0⟩

def next (m : Metered) (call : BufferUse) : Option Metered :=
  (m.buffer.use call).map fun b => ⟨b, max m.peak b.readableBytes⟩

end Metered

/-! ## §2. What a call does to the size. -/

namespace Buffer

variable {b : Buffer}

theorem length_retrieve (b : Buffer) (len : Nat) :
    (b.retrieve len).storage.length = b.storage.length := by
  unfold retrieve
  split
  · rfl
  · rfl

theorem length_fill (h : b.Wf) {data : List Byte} (hlen : data.length ≤ b.writableBytes) :
    (b.fill data).storage.length = b.storage.length := by
  have hw := h.write_le_size
  unfold writableBytes at hlen
  show (copyTo b.storage b.writeIndex data).length = b.storage.length
  apply length_copyTo
  omega

/-- The branch that moves the pending bytes to the front keeps the size; the other
one leaves no free space behind the new bytes. -/
theorem length_extendSpace (h : b.Wf) (len : Nat) :
    (b.extendSpace len).storage.length = b.storage.length
      ∨ b.readIndex < len ∧ (b.extendSpace len).storage.length = b.writeIndex + len := by
  have hread := h.read_le_write
  have hwrite := h.write_le_size
  by_cases hgrow : b.writableBytes + b.readIndex < len
  · right
    refine ⟨?_, (extendSpace_sums_le h len).2 hgrow⟩
    omega
  · left
    have hlen : b.contents.length = b.writeIndex - b.readIndex := length_contents h
    rw [extendSpace, if_neg hgrow]
    show (copyTo b.storage 0 b.contents).length = b.storage.length
    apply length_copyTo
    omega

theorem readableBytes_appendData (h : b.Wf) (data : List Byte) :
    (b.appendData data).readableBytes = b.readableBytes + data.length := by
  rw [← length_contents (wf_appendData h data), contents_appendData h, List.length_append,
    length_contents h]

/-- **A vector that is enlarged** is at most twice as large as what is pending. -/
theorem length_appendData_le (h : b.Wf) (data : List Byte) :
    (b.appendData data).storage.length
      ≤ max b.storage.length (2 * (b.appendData data).readableBytes) := by
  have hread := h.read_le_write
  obtain ⟨hwf, hroom, _⟩ := room_spec h data.length
  rw [readableBytes_appendData h, appendData_eq]
  show (fill _ data).storage.length ≤ _
  rw [length_fill hwf hroom]
  split
  next =>
    -- the prefix that stays is shorter than the data
    have hpending : b.readableBytes = b.writeIndex - b.readIndex := rfl
    rcases length_extendSpace h data.length with hsame | ⟨hconsumed, hgrown⟩
    · rw [hsame]
      exact Nat.le_max_left _ _
    · rw [hgrown]
      omega
  next => exact Nat.le_max_left _ _

end Buffer

/-! ## §3. Whole runs. -/

/-- The bound, and what carries it through a run. -/
structure Bounded (m : Metered) : Prop where
  wf : m.buffer.Wf
  size : m.buffer.storage.length ≤ max Buffer.initeSize (2 * m.peak)

theorem bounded_new : Bounded Metered.new where
  wf := Buffer.wf_new
  size := by
    show (List.replicate Buffer.initeSize (0 : Byte)).length ≤ _
    rw [List.length_replicate]
    exact Nat.le_max_left _ _

/-- A call that does not enlarge the vector beyond twice what is pending. -/
theorem Bounded.after {m : Metered} (h : Bounded m) {b : Buffer} (hwf : b.Wf)
    (hsize : b.storage.length ≤ max m.buffer.storage.length (2 * b.readableBytes)) :
    Bounded ⟨b, max m.peak b.readableBytes⟩ where
  wf := hwf
  size := by
    have hold := h.size
    show b.storage.length ≤ max Buffer.initeSize (2 * max m.peak b.readableBytes)
    omega

/-- **Every call** keeps the bound. -/
theorem Bounded.next {m m' : Metered} {call : BufferUse} (h : Bounded m)
    (hnext : m.next call = some m') : Bounded m' := by
  obtain ⟨b, huse, rfl⟩ := Option.map_eq_some_iff.mp hnext
  have hsame : b.storage.length = m.buffer.storage.length →
      b.storage.length ≤ max m.buffer.storage.length (2 * b.readableBytes) := by
    intro hlen
    rw [hlen]
    exact Nat.le_max_left _ _
  cases call with
  | appendData data =>
      cases huse
      exact h.after (Buffer.wf_appendData h.wf data) (Buffer.length_appendData_le h.wf data)
  | retrieve len =>
      cases huse
      exact h.after (Buffer.wf_retrieve h.wf len) (hsame (Buffer.length_retrieve _ len))
  | retrieveAll =>
      cases huse
      exact h.after (Buffer.wf_retrieveAll _) (hsame rfl)
  | hasWrite len =>
      simp only [Buffer.use, Option.ite_none_right_eq_some, Option.some.injEq] at huse
      obtain ⟨hlen, rfl⟩ := huse
      exact h.after (Buffer.wf_hasWrite h.wf hlen) (hsame rfl)
  | hasWriteToEnd =>
      cases huse
      exact h.after (Buffer.wf_hasWriteToEnd h.wf) (hsame rfl)

/-- **Storage stays proportional to what is pending.**  After any run of calls from
the constructor the vector has at most 1024 bytes, or at most twice the largest
number of bytes that were pending after a call of the run. -/
theorem storage_le_peak (calls : List BufferUse) (m : Metered)
    (hrun : exec Metered.next Metered.new calls = some m) :
    m.buffer.storage.length ≤ max Buffer.initeSize (2 * m.peak) := by
  have h : Bounded m :=
    exec_invariant (fun _ _ _ h hnext => Bounded.next h hnext) bounded_new hrun
  exact h.size

/-- The theorem on a run that enlarges the vector behind a consumed prefix. -/
theorem storage_le_peak_on_run :
    ∃ m, exec Metered.next Metered.new [.hasWrite 1000, .retrieve 900,
        .appendData (List.replicate 1000 7), .retrieveAll, .hasWriteToEnd] = some m
      ∧ m.peak = 2000 ∧ m.buffer.storage.length ≤ max Buffer.initeSize (2 * 2000) := by
  have hpeak : (exec Metered.next Metered.new [.hasWrite 1000, .retrieve 900,
      .appendData (List.replicate 1000 7), .retrieveAll, .hasWriteToEnd]).map Metered.peak
      = some 2000 := by
    decide +kernel
  obtain ⟨m, hrun, hm⟩ := Option.map_eq_some_iff.mp hpeak
  have hsize := storage_le_peak _ m hrun
  rw [hm] at hsize
  exact ⟨m, hrun, hm, hsize⟩

end SparkNet
