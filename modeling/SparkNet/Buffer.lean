/-
  SparkNet.Buffer — the byte buffer of a connection.

  `Buffer` is the pair of indices into a `std::vector<char>` that
  `include/Buffer.h` keeps: the bytes from `_readIndex` to `_writeIndex` are
  pending, those before are already consumed, those behind are free.  Indices
  and sizes are natural numbers; `extendSpace_sums_le` bounds every `size_t`
  sum of the code by the size the vector ends up with, so on a run in which
  the vector's size is representable no sum wraps.

  Main results, for a buffer whose indices are in order (`Wf`):
    * `contents_appendData`, `contents_retrieve`, `contents_extendSpace`, … —
      each operation seen as an operation on the pending bytes alone;
    * `ValidBuffer` — buffers that carry `Wf`, with the same operations.
-/
import Mathlib.Data.List.Basic
import Mathlib.Data.List.TakeDrop

namespace SparkNet

/-- A `char` of a stream. -/
abbrev Byte := UInt8

/-- `include/Buffer.h`: the vector and the two indices. -/
structure Buffer where
  storage : List Byte
  readIndex : Nat
  writeIndex : Nat

namespace Buffer

/-! ## §1. The operations of the class. -/

/-- `Buffer::IniteSize`. -/
def initeSize : Nat := 1024

/-- The constructor. -/
def new : Buffer := ⟨List.replicate initeSize 0, 0, 0⟩

def readableBytes (b : Buffer) : Nat := b.writeIndex - b.readIndex

def writableBytes (b : Buffer) : Nat := b.storage.length - b.writeIndex

def retrieveAll (b : Buffer) : Buffer :=
  { b with readIndex := 0, writeIndex := 0 }

def retrieve (b : Buffer) (len : Nat) : Buffer :=
  if b.readableBytes > len then { b with readIndex := b.readIndex + len }
  else b.retrieveAll

def hasWrite (b : Buffer) (len : Nat) : Buffer :=
  { b with writeIndex := b.writeIndex + len }

def hasWriteToEnd (b : Buffer) : Buffer :=
  { b with writeIndex := b.storage.length }

/-- `std::copy(data, data + n, begin() + pos)` on the vector's bytes. -/
def copyTo (storage : List Byte) (pos : Nat) (data : List Byte) : List Byte :=
  storage.take pos ++ data ++ storage.drop (pos + data.length)

/-- Bytes stored from `WritePos()` on, by `std::copy` or by the kernel. -/
def fill (b : Buffer) (data : List Byte) : Buffer :=
  { b with storage := copyTo b.storage b.writeIndex data }

/-- `std::vector<char>::resize`: new elements are value-initialised. -/
def resize (storage : List Byte) (n : Nat) : List Byte :=
  storage.take n ++ List.replicate (n - storage.length) 0

def extendSpace (b : Buffer) (len : Nat) : Buffer :=
  if b.writableBytes + b.readIndex < len then
    { b with storage := resize b.storage (b.writeIndex + len) }
  else
    { storage := copyTo b.storage 0 ((b.storage.take b.writeIndex).drop b.readIndex)
      readIndex := 0
      writeIndex := b.readableBytes }

def appendData (b : Buffer) (data : List Byte) : Buffer :=
  let b := if b.writableBytes < data.length then b.extendSpace data.length else b
  (b.fill data).hasWrite data.length

/-! ## §2. What a buffer holds. -/

/-- The pending bytes: those from `_readIndex` to `_writeIndex`. -/
def contents (b : Buffer) : List Byte := (b.storage.take b.writeIndex).drop b.readIndex

/-- `0 ≤ _readIndex ≤ _writeIndex ≤ _buffer.size()`. -/
structure Wf (b : Buffer) : Prop where
  read_le_write : b.readIndex ≤ b.writeIndex
  write_le_size : b.writeIndex ≤ b.storage.length

theorem length_contents {b : Buffer} (h : b.Wf) : b.contents.length = b.readableBytes := by
  have := h.write_le_size
  simp [contents, readableBytes, Nat.min_eq_left this]

theorem length_copyTo {storage data : List Byte} {pos : Nat}
    (h : pos + data.length ≤ storage.length) :
    (copyTo storage pos data).length = storage.length := by
  simp only [copyTo, List.length_append, List.length_take, List.length_drop]
  omega

/-- What lies before the copied range is untouched, the range itself is the data. -/
theorem take_copyTo {storage data : List Byte} {pos : Nat} (h : pos ≤ storage.length) :
    (copyTo storage pos data).take (pos + data.length) = storage.take pos ++ data := by
  have hlen : (storage.take pos ++ data).length = pos + data.length := by
    simp [Nat.min_eq_left h]
  rw [copyTo, ← hlen, List.take_left]

theorem take_resize {storage : List Byte} {n m : Nat} (hm : m ≤ storage.length) (hn : m ≤ n) :
    (resize storage n).take m = storage.take m := by
  have hlen : m ≤ (storage.take n).length := by
    rw [List.length_take]
    omega
  rw [resize, List.take_append_of_le_length hlen, List.take_take, Nat.min_eq_left hn]

theorem length_resize {storage : List Byte} {n : Nat} (h : storage.length ≤ n) :
    (resize storage n).length = n := by
  simp only [resize, List.length_append, List.length_take, List.length_replicate]
  omega

/-! ## §3. The indices stay in order. -/

theorem wf_new : new.Wf := ⟨Nat.le_refl _, Nat.zero_le _⟩

theorem wf_retrieveAll (b : Buffer) : b.retrieveAll.Wf :=
  ⟨Nat.le_refl _, Nat.zero_le _⟩

theorem wf_retrieve {b : Buffer} (h : b.Wf) (len : Nat) : (b.retrieve len).Wf := by
  unfold retrieve
  split
  next hlt =>
    have : b.readIndex + len ≤ b.writeIndex := by
      unfold readableBytes at hlt
      omega
    exact ⟨this, h.write_le_size⟩
  next => exact wf_retrieveAll b

theorem wf_hasWrite {b : Buffer} (h : b.Wf) {len : Nat} (hlen : len ≤ b.writableBytes) :
    (b.hasWrite len).Wf := by
  obtain ⟨h1, h2⟩ := h
  unfold writableBytes at hlen
  exact ⟨Nat.le_add_right_of_le h1, by show b.writeIndex + len ≤ b.storage.length; omega⟩

theorem wf_hasWriteToEnd {b : Buffer} (h : b.Wf) : b.hasWriteToEnd.Wf :=
  ⟨Nat.le_trans h.read_le_write h.write_le_size, Nat.le_refl _⟩

/-- Filling free space moves no index and keeps the vector's size. -/
theorem wf_fill {b : Buffer} (h : b.Wf) {data : List Byte}
    (hlen : data.length ≤ b.writableBytes) : (b.fill data).Wf := by
  obtain ⟨h1, h2⟩ := h
  unfold writableBytes at hlen
  refine ⟨h1, ?_⟩
  show b.writeIndex ≤ (copyTo b.storage b.writeIndex data).length
  rw [length_copyTo (by omega)]
  exact h2

theorem writableBytes_fill {b : Buffer} (h : b.Wf) {data : List Byte}
    (hlen : data.length ≤ b.writableBytes) : (b.fill data).writableBytes = b.writableBytes := by
  have := h.write_le_size
  unfold writableBytes at hlen
  show (copyTo b.storage b.writeIndex data).length - b.writeIndex = _
  rw [length_copyTo (by omega)]
  rfl

theorem wf_extendSpace {b : Buffer} (h : b.Wf) (len : Nat) : (b.extendSpace len).Wf := by
  obtain ⟨h1, h2⟩ := h
  unfold extendSpace
  split
  next hlt =>
    refine ⟨h1, ?_⟩
    show b.writeIndex ≤ (resize b.storage (b.writeIndex + len)).length
    unfold writableBytes at hlt
    rw [length_resize (by omega)]
    omega
  next =>
    refine ⟨Nat.zero_le _, ?_⟩
    show b.readableBytes ≤ (copyTo _ _ _).length
    have hc : ((b.storage.take b.writeIndex).drop b.readIndex).length = b.readableBytes :=
      length_contents ⟨h1, h2⟩
    have hr : b.readableBytes ≤ b.storage.length := by
      unfold readableBytes
      omega
    rw [length_copyTo (by omega)]
    exact hr

/-- `ExtendSpace(len)` makes room for `len` more bytes. -/
theorem le_writableBytes_extendSpace {b : Buffer} (h : b.Wf) (len : Nat) :
    len ≤ (b.extendSpace len).writableBytes := by
  obtain ⟨h1, h2⟩ := h
  unfold extendSpace
  split
  next hlt =>
    show len ≤ (resize b.storage (b.writeIndex + len)).length - b.writeIndex
    unfold writableBytes at hlt
    rw [length_resize (by omega)]
    omega
  next hge =>
    show len ≤ (copyTo _ _ _).length - b.readableBytes
    have hc : ((b.storage.take b.writeIndex).drop b.readIndex).length = b.readableBytes :=
      length_contents ⟨h1, h2⟩
    unfold writableBytes at hge
    unfold readableBytes at *
    rw [length_copyTo (by omega)]
    omega

/-- No sum the growing branch forms exceeds the size the vector then has: on
runs whose vector sizes fit in `size_t`, the code's additions do not wrap. -/
theorem extendSpace_sums_le {b : Buffer} (h : b.Wf) (len : Nat) :
    b.writableBytes + b.readIndex ≤ b.storage.length ∧
      (b.writableBytes + b.readIndex < len →
        (b.extendSpace len).storage.length = b.writeIndex + len) := by
  obtain ⟨h1, h2⟩ := h
  refine ⟨by unfold writableBytes; omega, fun hlt => ?_⟩
  rw [extendSpace, if_pos hlt]
  unfold writableBytes at hlt
  exact length_resize (by omega)

/-! ## §4. Each operation on the pending bytes. -/

theorem contents_new : new.contents = [] := rfl

theorem contents_retrieveAll (b : Buffer) : b.retrieveAll.contents = [] := by
  simp [contents, retrieveAll]

theorem contents_retrieve {b : Buffer} (h : b.Wf) (len : Nat) :
    (b.retrieve len).contents = b.contents.drop len := by
  unfold retrieve
  split
  next =>
    show (b.storage.take b.writeIndex).drop (b.readIndex + len) = _
    rw [contents, List.drop_drop]
  next hge =>
    have hlen : b.contents.length ≤ len := by
      rw [length_contents h]
      omega
    rw [contents_retrieveAll, List.drop_eq_nil_of_le hlen]

/-- `HasWrite` after a fill appends exactly the bytes filled in. -/
theorem contents_fill_hasWrite {b : Buffer} (h : b.Wf) (data : List Byte) :
    ((b.fill data).hasWrite data.length).contents = b.contents ++ data := by
  have hr : b.readIndex ≤ (b.storage.take b.writeIndex).length := by
    rw [List.length_take, Nat.min_eq_left h.write_le_size]
    exact h.read_le_write
  show ((copyTo b.storage b.writeIndex data).take (b.writeIndex + data.length)).drop
      b.readIndex = _
  rw [take_copyTo h.write_le_size, List.drop_append_of_le_length hr]
  rfl

/-- `HasWriteToEnd` after the whole free space was filled appends all of it. -/
theorem fill_hasWriteToEnd {b : Buffer} (h : b.Wf) {data : List Byte}
    (hlen : data.length = b.writableBytes) :
    (b.fill data).hasWriteToEnd = (b.fill data).hasWrite data.length := by
  have := h.write_le_size
  unfold writableBytes at hlen
  have hs : (copyTo b.storage b.writeIndex data).length = b.writeIndex + data.length := by
    rw [length_copyTo (by omega)]
    omega
  simp only [hasWriteToEnd, hasWrite, fill, hs]

theorem contents_extendSpace {b : Buffer} (h : b.Wf) (len : Nat) :
    (b.extendSpace len).contents = b.contents := by
  unfold extendSpace
  split
  next hlt =>
    show ((resize b.storage (b.writeIndex + len)).take b.writeIndex).drop b.readIndex = _
    rw [take_resize h.write_le_size (Nat.le_add_right _ _)]
    rfl
  next =>
    -- the shifted bytes are the pending ones, now from index 0 on
    have hlen : b.readableBytes = 0 + b.contents.length := by
      rw [length_contents h, Nat.zero_add]
    show ((copyTo b.storage 0 b.contents).take b.readableBytes).drop 0 = _
    rw [hlen, take_copyTo (Nat.zero_le _)]
    simp

theorem appendData_eq {b : Buffer} (data : List Byte) :
    b.appendData data =
      (((if b.writableBytes < data.length then b.extendSpace data.length else b).fill
        data).hasWrite data.length) := rfl

/-- Making room first leaves enough of it and changes no pending byte. -/
theorem room_spec {b : Buffer} (h : b.Wf) (n : Nat) :
    let b' := if b.writableBytes < n then b.extendSpace n else b
    b'.Wf ∧ n ≤ b'.writableBytes ∧ b'.contents = b.contents := by
  intro b'
  show b'.Wf ∧ _
  simp only [b']
  split
  next => exact ⟨wf_extendSpace h n, le_writableBytes_extendSpace h n, contents_extendSpace h n⟩
  next hge => exact ⟨h, Nat.le_of_not_lt hge, rfl⟩

theorem wf_appendData {b : Buffer} (h : b.Wf) (data : List Byte) : (b.appendData data).Wf := by
  obtain ⟨h1, h2, _⟩ := room_spec h data.length
  rw [appendData_eq]
  refine wf_hasWrite (wf_fill h1 h2) ?_
  rw [writableBytes_fill h1 h2]
  exact h2

theorem contents_appendData {b : Buffer} (h : b.Wf) (data : List Byte) :
    (b.appendData data).contents = b.contents ++ data := by
  obtain ⟨h1, _, h3⟩ := room_spec h data.length
  rw [appendData_eq, contents_fill_hasWrite h1, h3]

end Buffer

/-! ## §5. Buffers that carry their invariant. -/

/-- A buffer whose indices are in order.  The connection's two buffers are
only ever changed through these operations. -/
def ValidBuffer : Type := { b : Buffer // b.Wf }

namespace ValidBuffer

def new : ValidBuffer := ⟨Buffer.new, Buffer.wf_new⟩

def contents (b : ValidBuffer) : List Byte := b.1.contents

def readableBytes (b : ValidBuffer) : Nat := b.1.readableBytes

def writableBytes (b : ValidBuffer) : Nat := b.1.writableBytes

def retrieve (b : ValidBuffer) (len : Nat) : ValidBuffer :=
  ⟨b.1.retrieve len, Buffer.wf_retrieve b.2 len⟩

def retrieveAll (b : ValidBuffer) : ValidBuffer :=
  ⟨b.1.retrieveAll, Buffer.wf_retrieveAll b.1⟩

def appendData (b : ValidBuffer) (data : List Byte) : ValidBuffer :=
  ⟨b.1.appendData data, Buffer.wf_appendData b.2 data⟩

/-- The kernel stores `data` at `WritePos()` and `HasWrite` accounts for it. -/
def fillHasWrite (b : ValidBuffer) (data : List Byte) (h : data.length ≤ b.writableBytes) :
    ValidBuffer :=
  ⟨(b.1.fill data).hasWrite data.length, by
    refine Buffer.wf_hasWrite (Buffer.wf_fill b.2 h) ?_
    rw [Buffer.writableBytes_fill b.2 h]
    exact h⟩

/-- The kernel fills all free space and `HasWriteToEnd` accounts for it. -/
def fillHasWriteToEnd (b : ValidBuffer) (data : List Byte) (h : data.length ≤ b.writableBytes) :
    ValidBuffer :=
  ⟨(b.1.fill data).hasWriteToEnd, Buffer.wf_hasWriteToEnd (Buffer.wf_fill b.2 h)⟩

@[simp] theorem contents_new : new.contents = [] := Buffer.contents_new

@[simp] theorem length_contents (b : ValidBuffer) : b.contents.length = b.readableBytes :=
  Buffer.length_contents b.2

@[simp] theorem contents_retrieve (b : ValidBuffer) (len : Nat) :
    (b.retrieve len).contents = b.contents.drop len :=
  Buffer.contents_retrieve b.2 len

@[simp] theorem contents_retrieveAll (b : ValidBuffer) : b.retrieveAll.contents = [] :=
  Buffer.contents_retrieveAll b.1

@[simp] theorem contents_appendData (b : ValidBuffer) (data : List Byte) :
    (b.appendData data).contents = b.contents ++ data :=
  Buffer.contents_appendData b.2 data

@[simp] theorem contents_fillHasWrite (b : ValidBuffer) (data : List Byte)
    (h : data.length ≤ b.writableBytes) :
    (b.fillHasWrite data h).contents = b.contents ++ data :=
  Buffer.contents_fill_hasWrite b.2 data

theorem contents_fillHasWriteToEnd (b : ValidBuffer) (data : List Byte)
    (h : data.length = b.writableBytes) :
    (b.fillHasWriteToEnd data (Nat.le_of_eq h)).contents = b.contents ++ data := by
  show ((b.1.fill data).hasWriteToEnd).contents = _
  rw [Buffer.fill_hasWriteToEnd b.2 h]
  exact Buffer.contents_fill_hasWrite b.2 data

theorem readableBytes_eq (b : ValidBuffer) : b.readableBytes = b.contents.length :=
  (length_contents b).symm

end ValidBuffer

end SparkNet
