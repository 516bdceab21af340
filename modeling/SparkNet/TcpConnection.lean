/-
  SparkNet.TcpConnection — the member functions of a connection.

  Each function of `include/TcpConnection.h` is written as the change it makes
  to the object together with the calls it makes outwards, in order: to the
  kernel through its socket and to `Handler::Update`.  What the kernel answers
  is an argument.  `size_t` and pointers are 64-bit vectors, so the arithmetic
  of `send` is the code's own, wrap-around included.
-/
import SparkNet.Buffer
import SparkNet.Epoller
import SparkNet.InetAdress

namespace SparkNet

/-! ## §1. The kernel's answers. -/

inductive Errno where
  | EAGAIN | EINTR | EPIPE | ECONNRESET | ENOTCONN | EMFILE | EINPROGRESS | EISCONN
  | other (code : Nat)
  deriving DecidableEq, Repr

/-- On Linux the two names are one number. -/
abbrev Errno.EWOULDBLOCK : Errno := .EAGAIN

/-- What `write(fd, p, k)` returns. -/
inductive WriteOutcome where
  | accepted (n : Nat)
  | failed (errno : Errno)
  deriving DecidableEq, Repr

/-- The `ssize_t`. -/
def WriteOutcome.result : WriteOutcome → Int
  | .accepted n => n
  | .failed _ => -1

/-- A kernel accepts at most the `k` bytes it was offered. -/
def WriteOutcome.fits (w : WriteOutcome) (k : Nat) : Prop :=
  match w with
  | .accepted n => n ≤ k
  | .failed _ => True

instance (w : WriteOutcome) (k : Nat) : Decidable (w.fits k) := by
  cases w <;> unfold WriteOutcome.fits <;> infer_instance

/-- What `readv` returns, with the bytes it stored. -/
inductive ReadOutcome where
  | failed (errno : Errno)
  | eof
  | data (bytes : List Byte)
  deriving DecidableEq, Repr

/-- `sizeof extrabuf` in `HandleRead`. -/
def extrabufSize : Nat := 65535

/-- `readv` returns at least one byte and at most what the two areas hold. -/
def ReadOutcome.fits (r : ReadOutcome) (writable : Nat) : Prop :=
  match r with
  | .data bytes => bytes ≠ [] ∧ bytes.length ≤ writable + extrabufSize
  | _ => True

instance (r : ReadOutcome) (n : Nat) : Decidable (r.fits n) := by
  cases r <;> unfold ReadOutcome.fits <;> infer_instance

/-! ## §2. Memory and `size_t`. -/

/-- `size_t` and addresses of the 64-bit machine. -/
abbrev SizeT := BitVec 64

/-- The address space a caller's data lies in. -/
abbrev Memory := SizeT → Byte

/-- The bytes `p[0..n)`. -/
def Memory.read (mem : Memory) (p n : SizeT) : List Byte :=
  (List.range n.toNat).map fun i => mem (p + BitVec.ofNat 64 i)

@[simp] theorem Memory.length_read (mem : Memory) (p n : SizeT) :
    (mem.read p n).length = n.toNat := by
  simp [Memory.read]

/-- Reading from `k` bytes further on drops the first `k` bytes. -/
theorem Memory.read_add (mem : Memory) (p n k : SizeT) (h : k.toNat ≤ n.toNat) :
    mem.read (p + k) (n - k) = (mem.read p n).drop k.toNat := by
  apply List.ext_getElem
  · simp only [Memory.length_read, List.length_drop]
    bv_omega
  · intro i h1 h2
    simp only [Memory.read, List.getElem_map, List.getElem_range, List.getElem_drop]
    congr 1
    bv_omega

/-! ## §3. The class. -/

inductive ConnState where
  | disConnected | connecting | connected | disConnecting
  deriving DecidableEq, Repr

/-- The targets `std::bind` makes of handler callbacks, with the object bound. -/
inductive HandlerCallback where
  | tcpHandleRead (conn : Nat)
  | tcpHandleWrite (conn : Nat)
  | clientHandleWrite (client : Nat)
  | clientHandleError (client : Nat)
  | acceptorHandleRead (server : Nat)
  deriving DecidableEq, Repr

/-- The targets of a connection's close callback. -/
inductive CloseCallback where
  | removeConn (server : Nat)
  | handleClose (client : Nat)
  deriving DecidableEq, Repr

/-- `_socket` and `_handler` share one descriptor, `handler.fd`.  Of the user's
callbacks only whether they are set matters to the library. -/
structure TcpConnection where
  state : ConnState
  name : Text
  inputBuffer : ValidBuffer
  outPutBuffer : ValidBuffer
  handler : Handler HandlerCallback
  addr : InetAdress
  msgCallback : Bool
  connCallback : Bool
  closeCallback : Option CloseCallback

/-- A call a member function makes: to the kernel through the socket, or to
`Handler::Update`.  `append` marks the bytes queued, `shutdown` notes how many
bytes are still queued when the FIN is sent. -/
inductive SockCall where
  | write (direct : Bool) (bytes : List Byte) (outcome : WriteOutcome)
  | append (bytes : List Byte)
  | update
  | shutdown (pending : Nat)
  deriving DecidableEq, Repr

namespace TcpConnection

/-- The constructor; `self` is the object's identity in the callbacks. -/
def new (self : Nat) (name : Text) (fd : Nat) (addr : InetAdress) : TcpConnection where
  state := .connecting
  name := name
  inputBuffer := ValidBuffer.new
  outPutBuffer := ValidBuffer.new
  handler := { (Handler.new fd) with
    readCallback := some (.tcpHandleRead self)
    writeCallback := some (.tcpHandleWrite self) }
  addr := addr
  msgCallback := false
  connCallback := false
  closeCallback := none

/-- `ShutDownWrite`: nothing but a possible `shutdown(fd, SHUT_WR)`. -/
def shutDownWrite (c : TcpConnection) : List SockCall :=
  if !c.handler.isWriting then [.shutdown c.outPutBuffer.readableBytes] else []

def handleWrite (c : TcpConnection) (w : WriteOutcome) : TcpConnection × List SockCall :=
  if c.handler.isWriting then
    let wrote := SockCall.write false c.outPutBuffer.contents w
    if 0 ≤ w.result then
      let c := { c with outPutBuffer := c.outPutBuffer.retrieve w.result.toNat }
      if c.outPutBuffer.readableBytes = 0 then
        let c := { c with handler := c.handler.disableWrite }
        if c.state = .disConnecting then (c, [wrote, .update] ++ c.shutDownWrite)
        else (c, [wrote, .update])
      else (c, [wrote])
    else (c, [wrote])
  else (c, [])

/-- `HandleRead` when `readv` returned bytes: the kernel fills the free tail of
the input buffer first and the stack area behind it. -/
def receive (c : TcpConnection) (bytes : List Byte) : TcpConnection :=
  let writable := c.inputBuffer.writableBytes
  let extrabuf := bytes.drop writable
  { c with
    inputBuffer :=
      if h : bytes.length ≤ writable then c.inputBuffer.fillHasWrite bytes h
      else
        (c.inputBuffer.fillHasWriteToEnd (bytes.take writable)
          (List.length_take_le _ _)).appendData (extrabuf.take (bytes.length - writable)) }

/-- The test in `send` that chooses the direct path. -/
def writesDirectly (c : TcpConnection) : Bool :=
  !c.handler.isWriting && c.outPutBuffer.readableBytes == 0

def send (c : TcpConnection) (mem : Memory) (data len : SizeT) (w : WriteOutcome) :
    TcpConnection × List SockCall :=
  if c.state = .disConnected then (c, [])
  else
    let direct := c.writesDirectly
    -- the `ssize_t` result is stored in a `size_t`
    let nwrite : SizeT := if direct then BitVec.ofInt 64 w.result else 0#64
    let wrote := if direct then [SockCall.write true (mem.read data len) w] else []
    -- so this comparison is between unsigned numbers
    let negative := decide (nwrite < 0#64)
    let sendFault := direct && negative && match w with
      | .failed errno => errno ≠ .EWOULDBLOCK && (errno == .EPIPE || errno == .ECONNRESET)
      | .accepted _ => false
    let remain := if direct && !negative then len - nwrite else len
    if !sendFault && decide (0#64 < remain) then
      let bytes := mem.read (data + nwrite) remain
      let c := { c with outPutBuffer := c.outPutBuffer.appendData bytes }
      if !c.handler.isWriting then
        ({ c with handler := c.handler.enableWrite }, wrote ++ [.append bytes, .update])
      else (c, wrote ++ [.append bytes])
    else (c, wrote)

def shutDown (c : TcpConnection) : TcpConnection × List SockCall :=
  if c.state = .connected then
    let c := { c with state := .disConnecting }
    (c, c.shutDownWrite)
  else (c, [])

/-- `Close` up to the close callback. -/
def closeEnter (c : TcpConnection) : TcpConnection × List SockCall :=
  ({ c with handler := c.handler.disableAll }, [.update])

/-- `Close` after the close callback. -/
def closeReturn (c : TcpConnection) : TcpConnection := { c with state := .disConnected }

/-- `Start` up to the connection callback. -/
def start (c : TcpConnection) : TcpConnection × List SockCall :=
  ({ c with state := .connected, handler := c.handler.enableRead }, [.update])

/-- `GetBuffer()->Retrieve(len)`. -/
def retrieve (c : TcpConnection) (len : Nat) : TcpConnection :=
  { c with inputBuffer := c.inputBuffer.retrieve len }

/-- `GetBuffer()->RetrieveAll()`. -/
def retrieveAll (c : TcpConnection) : TcpConnection :=
  { c with inputBuffer := c.inputBuffer.retrieveAll }

/-! ## §4. What each function does, branch by branch. -/

/-- The bytes a direct write leaves to be queued: what `send` computes from the
result `w` of writing `data[0..len)`. -/
def leftover (mem : Memory) (data len : SizeT) (w : WriteOutcome) : List Byte :=
  mem.read (data + BitVec.ofInt 64 w.result) (len - BitVec.ofInt 64 w.result)

/-- After a partial write the leftover is the unwritten suffix. -/
theorem leftover_accepted (mem : Memory) (data len : SizeT) {n : Nat} (h : n ≤ len.toNat) :
    leftover mem data len (.accepted n) = (mem.read data len).drop n := by
  have hn : (BitVec.ofInt 64 (n : Int)).toNat = n := by
    rw [BitVec.ofInt_natCast, BitVec.toNat_ofNat]
    have := len.isLt
    omega
  rw [leftover, WriteOutcome.result, Memory.read_add _ _ _ _ (by omega), hn]

/-- After a failed write it starts one byte before the data and has `len + 1`
bytes (none if that wraps). -/
theorem leftover_failed (mem : Memory) (data len : SizeT) (errno : Errno) :
    leftover mem data len (.failed errno) = mem.read (data - 1#64) (len + 1#64) := by
  have hminus : BitVec.ofInt 64 (WriteOutcome.failed errno).result = -1#64 := by
    show BitVec.ofInt 64 (-1) = -1#64
    decide
  rw [leftover, hminus, BitVec.sub_neg, ← BitVec.sub_eq_add_neg]

/-- `send` on the direct path, whatever the kernel answers. -/
theorem send_direct {c : TcpConnection} (hst : c.state ≠ .disConnected)
    (hd : c.writesDirectly = true) (mem : Memory) (data len : SizeT) (w : WriteOutcome) :
    c.send mem data len w =
      if leftover mem data len w = [] then
        (c, [.write true (mem.read data len) w])
      else
        ({ c with
            outPutBuffer := c.outPutBuffer.appendData (leftover mem data len w)
            handler := c.handler.enableWrite },
          [.write true (mem.read data len) w, .append (leftover mem data len w), .update]) := by
  have hw : c.handler.isWriting = false := by
    simp only [writesDirectly, Bool.and_eq_true, Bool.not_eq_true'] at hd
    exact hd.1
  have hneg : ∀ x : SizeT, ¬ x < 0#64 := fun x => by bv_omega
  have hempty : leftover mem data len w = [] ↔ ¬ 0#64 < len - BitVec.ofInt 64 w.result := by
    rw [← List.length_eq_zero_iff, leftover, Memory.length_read]
    bv_omega
  simp only [send, if_neg hst, hd, hneg, decide_false, Bool.and_false, Bool.false_and,
    Bool.not_false, Bool.and_true, Bool.true_and, if_true, hw]
  by_cases hl : leftover mem data len w = []
  · simp [hl, hempty.mp hl]
  · have hr : 0#64 < len - BitVec.ofInt 64 w.result := not_not.mp (mt hempty.mpr hl)
    simp only [hl, hr, decide_true, if_true, if_false]
    rfl

/-- `send` when older bytes are queued or write interest is on. -/
theorem send_queued {c : TcpConnection} (hst : c.state ≠ .disConnected)
    (hd : c.writesDirectly = false) (mem : Memory) (data len : SizeT) (w : WriteOutcome) :
    c.send mem data len w =
      if mem.read data len = [] then (c, [])
      else
        ({ c with
            outPutBuffer := c.outPutBuffer.appendData (mem.read data len)
            handler := if c.handler.isWriting then c.handler else c.handler.enableWrite },
          .append (mem.read data len) :: if c.handler.isWriting then [] else [.update]) := by
  have hempty : mem.read data len = [] ↔ ¬ 0#64 < len := by
    rw [← List.length_eq_zero_iff, Memory.length_read]
    bv_omega
  have hdata : data + 0#64 = data := by bv_omega
  simp only [send, if_neg hst, hd, Bool.false_eq_true, if_false, Bool.false_and,
    Bool.not_false, Bool.true_and, List.nil_append, hdata]
  by_cases hl : mem.read data len = []
  · simp [hl, hempty.mp hl]
  · have hr : 0#64 < len := not_not.mp (mt hempty.mpr hl)
    cases hw : c.handler.isWriting <;> simp [hl, hr]

@[simp] theorem send_disConnected {c : TcpConnection} (hst : c.state = .disConnected)
    (mem : Memory) (data len : SizeT) (w : WriteOutcome) : c.send mem data len w = (c, []) := by
  simp only [send, hst, if_true]

@[simp] theorem state_send (c : TcpConnection) (mem : Memory) (data len : SizeT)
    (w : WriteOutcome) : (c.send mem data len w).1.state = c.state := by
  by_cases hst : c.state = .disConnected
  · rw [send_disConnected hst]
  · cases hd : c.writesDirectly with
    | true =>
        rw [send_direct hst hd]
        split <;> rfl
    | false =>
        rw [send_queued hst hd]
        split <;> rfl

/-- `send` sends no FIN. -/
theorem send_no_fin (c : TcpConnection) (mem : Memory) (data len : SizeT) (w : WriteOutcome) :
    ∀ call ∈ (c.send mem data len w).2, ∀ pending, call ≠ .shutdown pending := by
  by_cases hst : c.state = .disConnected
  · simp [send_disConnected hst]
  · cases hd : c.writesDirectly with
    | true =>
        rw [send_direct hst hd]
        split <;> simp
    | false =>
        rw [send_queued hst hd]
        split
        · simp
        · cases c.handler.isWriting <;> simp

@[simp] theorem handler_receive (c : TcpConnection) (bytes : List Byte) :
    (c.receive bytes).handler = c.handler := rfl

/-- `ShutDown` touches neither the buffers nor the mask. -/
theorem shutDown_eq (c : TcpConnection) :
    c.shutDown = if c.state = .connected then
        ({ c with state := .disConnecting },
          if c.handler.isWriting then [] else [.shutdown c.outPutBuffer.readableBytes])
      else (c, []) := by
  simp only [shutDown, shutDownWrite]
  cases c.handler.isWriting <;> rfl

@[simp] theorem outPutBuffer_shutDown (c : TcpConnection) :
    c.shutDown.1.outPutBuffer = c.outPutBuffer := by
  rw [shutDown_eq]
  split <;> rfl

@[simp] theorem handler_shutDown (c : TcpConnection) : c.shutDown.1.handler = c.handler := by
  rw [shutDown_eq]
  split <;> rfl

theorem handleWrite_idle {c : TcpConnection} (hw : c.handler.isWriting = false)
    (w : WriteOutcome) : c.handleWrite w = (c, []) := by
  simp [handleWrite, hw]

theorem handleWrite_failed {c : TcpConnection} (hw : c.handler.isWriting = true)
    (errno : Errno) :
    c.handleWrite (.failed errno) =
      (c, [.write false c.outPutBuffer.contents (.failed errno)]) := by
  simp [handleWrite, hw, WriteOutcome.result]

/-- `HandleWrite` when the kernel takes `n` bytes: the queue loses them, and
when it is then empty write interest goes off and a deferred FIN is sent. -/
theorem handleWrite_accepted {c : TcpConnection} (hw : c.handler.isWriting = true) (n : Nat) :
    c.handleWrite (.accepted n) =
      if (c.outPutBuffer.contents.drop n) = [] then
        ({ c with
            outPutBuffer := c.outPutBuffer.retrieve n
            handler := c.handler.disableWrite },
          [.write false c.outPutBuffer.contents (.accepted n), .update]
            ++ if c.state = .disConnecting then [.shutdown 0] else [])
      else
        ({ c with outPutBuffer := c.outPutBuffer.retrieve n },
          [.write false c.outPutBuffer.contents (.accepted n)]) := by
  have hread : (c.outPutBuffer.retrieve n).readableBytes = 0 ↔
      c.outPutBuffer.contents.drop n = [] := by
    rw [ValidBuffer.readableBytes_eq, List.length_eq_zero_iff, ValidBuffer.contents_retrieve]
  have hres : (0 : Int) ≤ (WriteOutcome.accepted n).result := Int.natCast_nonneg n
  have hnat : (WriteOutcome.accepted n).result.toNat = n := Int.toNat_natCast n
  simp only [handleWrite, hw, if_true, hres, hnat]
  by_cases hd : c.outPutBuffer.contents.drop n = []
  · have h0 := hread.mpr hd
    by_cases hst : c.state = .disConnecting
    · simp [hd, h0, hst, shutDownWrite]
    · simp [hd, h0, hst]
  · simp [hd, mt hread.mp hd]

/-- **`HandleRead` appends exactly the bytes `readv` returned**, in order,
however they were split between the buffer's tail and the stack area. -/
theorem contents_receive (c : TcpConnection) (bytes : List Byte) :
    (c.receive bytes).inputBuffer.contents = c.inputBuffer.contents ++ bytes := by
  by_cases h : bytes.length ≤ c.inputBuffer.writableBytes
  · simp only [receive, h, dite_true]
    exact ValidBuffer.contents_fillHasWrite _ _ h
  · have hlen : (bytes.take c.inputBuffer.writableBytes).length = c.inputBuffer.writableBytes := by
      rw [List.length_take]
      omega
    have htail : (bytes.drop c.inputBuffer.writableBytes).take
        (bytes.length - c.inputBuffer.writableBytes)
        = bytes.drop c.inputBuffer.writableBytes := by
      exact List.take_of_length_le (Nat.le_of_eq List.length_drop)
    simp only [receive, h, dite_false, ValidBuffer.contents_appendData, htail]
    rw [ValidBuffer.contents_fillHasWriteToEnd _ _ hlen, List.append_assoc,
        List.take_append_drop]

/-! ## §5. The error exit of `send`. -/

/-- `nwrite` after the direct write, which answered `w`. -/
def nwrite (c : TcpConnection) (w : WriteOutcome) : SizeT :=
  if c.writesDirectly then BitVec.ofInt 64 w.result else 0#64

/-- `remain` at the same place: it is assigned when `nwrite < 0` is false. -/
def remain (c : TcpConnection) (len : SizeT) (w : WriteOutcome) : SizeT :=
  if c.writesDirectly && !decide (c.nwrite w < 0#64) then len - c.nwrite w else len

/-- An unsigned number is not negative, so a direct write always assigns. -/
theorem remain_eq (c : TcpConnection) (len : SizeT) (w : WriteOutcome) :
    c.remain len w = if c.writesDirectly then len - c.nwrite w else len := by
  have hneg : ¬ c.nwrite w < 0#64 := by bv_omega
  simp only [remain, hneg, decide_false, Bool.not_false, Bool.and_true]

/-- What `send` queues is `remain` bytes from `data + nwrite` on, nothing when
`remain` is 0. -/
theorem send_suffix {c : TcpConnection} (hst : c.state ≠ .disConnected) (mem : Memory)
    (data len : SizeT) (w : WriteOutcome) :
    (c.send mem data len w).1.outPutBuffer =
      if c.remain len w = 0#64 then c.outPutBuffer
      else c.outPutBuffer.appendData (mem.read (data + c.nwrite w) (c.remain len w)) := by
  have hzero : ∀ p n : SizeT, mem.read p n = [] ↔ n = 0#64 := by
    intro p n
    rw [← List.length_eq_zero_iff, Memory.length_read]
    bv_omega
  cases hd : c.writesDirectly with
  | true =>
      rw [send_direct hst hd, remain_eq, nwrite, hd, if_pos rfl, if_pos rfl]
      have hleft : leftover mem data len w = [] ↔ len - BitVec.ofInt 64 w.result = 0#64 :=
        hzero _ _
      by_cases hrest : len - BitVec.ofInt 64 w.result = 0#64
      · rw [if_pos (hleft.mpr hrest), if_pos hrest]
      · rw [if_neg (mt hleft.mp hrest), if_neg hrest]
        rfl
  | false =>
      have hdata : data + 0#64 = data := by bv_omega
      rw [send_queued hst hd, remain_eq, nwrite, hd, if_neg Bool.false_ne_true,
        if_neg Bool.false_ne_true, hdata]
      by_cases hlen : len = 0#64
      · rw [if_pos ((hzero _ _).mpr hlen), if_pos hlen]
      · rw [if_neg (mt (hzero _ _).mp hlen), if_neg hlen]

/-- When nothing remains the event mask stays too. -/
theorem events_send_of_remain {c : TcpConnection} (hst : c.state ≠ .disConnected) (mem : Memory)
    (data len : SizeT) (w : WriteOutcome) (h : c.remain len w = 0#64) :
    (c.send mem data len w).1.handler.events = c.handler.events := by
  have hread : ∀ p, mem.read p 0#64 = [] := fun p =>
    List.length_eq_zero_iff.mp (Memory.length_read mem p 0#64)
  cases hd : c.writesDirectly with
  | true =>
      rw [remain_eq, nwrite, hd, if_pos rfl, if_pos rfl] at h
      rw [send_direct hst hd, if_pos (by rw [leftover, h, hread])]
  | false =>
      rw [remain_eq, hd, if_neg Bool.false_ne_true] at h
      rw [send_queued hst hd, if_pos (by rw [h, hread])]

/-- What `send` owes its caller when the direct write answers `w`. -/
structure SendContained (c : TcpConnection) (mem : Memory) (data len : SizeT) (w : WriteOutcome) :
    Prop where
  /-- A fatal error leaves the queue and the event mask alone. -/
  untouched : c.writesDirectly = true → w = .failed .EPIPE ∨ w = .failed .ECONNRESET →
    (c.send mem data len w).1.outPutBuffer = c.outPutBuffer
      ∧ (c.send mem data len w).1.handler.events = c.handler.events
  /-- What is queued is `remain` bytes from `data + nwrite` on, if there are any. -/
  suffix : (c.send mem data len w).1.outPutBuffer =
    if c.remain len w = 0#64 then c.outPutBuffer
    else c.outPutBuffer.appendData (mem.read (data + c.nwrite w) (c.remain len w))
  /-- It starts within `data[0..len)` ... -/
  nwrite_le : c.nwrite w ≤ len
  /-- ... and is not longer. -/
  remain_le : c.remain len w ≤ len

/-- **The error exit of `send` is exact when it is not needed**: the suffix lies
within the data, and a fatal error leaves the queue alone, exactly when there is
no direct write, it does not fail, or `len + 1` wraps to 0. -/
theorem send_contained_iff {c : TcpConnection} (hst : c.state ≠ .disConnected) (mem : Memory)
    (data len : SizeT) {w : WriteOutcome} (hout : w.fits len.toNat) :
    c.SendContained mem data len w ↔
      (c.writesDirectly = true → 0 ≤ w.result ∨ len + 1#64 = 0#64) := by
  constructor
  · intro h hd
    cases w with
    | accepted n => exact Or.inl (Int.natCast_nonneg n)
    | failed errno =>
        right
        have hle := h.nwrite_le
        rw [nwrite, hd, if_pos rfl] at hle
        have hminus : BitVec.ofInt 64 (WriteOutcome.failed errno).result
            = 18446744073709551615#64 := by
          show BitVec.ofInt 64 (-1) = 18446744073709551615#64
          decide
        -- the largest number is at most `len`
        rw [hminus] at hle
        bv_omega
  · intro h
    cases hd : c.writesDirectly with
    | false =>
        have hn : c.nwrite w = 0#64 := by rw [nwrite, hd, if_neg Bool.false_ne_true]
        have hr : c.remain len w = len := by rw [remain_eq, hd, if_neg Bool.false_ne_true]
        refine ⟨fun hd' => absurd (hd.symm.trans hd') Bool.false_ne_true,
          send_suffix hst mem data len w, ?_, ?_⟩
        · rw [hn]
          bv_omega
        · rw [hr]
          exact BitVec.le_refl len
    | true =>
        have hn : c.nwrite w = BitVec.ofInt 64 w.result := by rw [nwrite, hd, if_pos rfl]
        have hr : c.remain len w = len - BitVec.ofInt 64 w.result := by
          rw [remain_eq, hd, if_pos rfl, hn]
        cases w with
        | accepted n =>
            have hfit : n ≤ len.toNat := hout
            have hnat : (BitVec.ofInt 64 (WriteOutcome.accepted n).result).toNat = n := by
              show (BitVec.ofInt 64 (n : Int)).toNat = n
              rw [BitVec.ofInt_natCast, BitVec.toNat_ofNat]
              have := len.isLt
              omega
            refine ⟨fun _ hfatal => ?_, send_suffix hst mem data len _, ?_, ?_⟩
            · rcases hfatal with hfatal | hfatal <;> exact absurd hfatal (by simp)
            · rw [hn]
              bv_omega
            · rw [hr]
              bv_omega
        | failed errno =>
            -- only the wrapping length is left, and then nothing remains
            have hlen : len + 1#64 = 0#64 := (h hd).resolve_left (show ¬ (0 : Int) ≤ -1 by decide)
            have hminus : BitVec.ofInt 64 (WriteOutcome.failed errno).result = -1#64 := by
              show BitVec.ofInt 64 (-1) = -1#64
              decide
            have hzero : c.remain len (.failed errno) = 0#64 := by
              rw [hr, hminus, BitVec.sub_neg, hlen]
            refine ⟨fun _ _ => ⟨?_, events_send_of_remain hst mem data len _ hzero⟩,
              send_suffix hst mem data len _, ?_, ?_⟩
            · rw [send_suffix hst, if_pos hzero]
            · rw [hn, hminus]
              bv_omega
            · rw [hzero]
              bv_omega

/-- The theorem on a started connection whose write takes one of two bytes. -/
theorem send_contained_on_partial_write :
    ((TcpConnection.new 0 [] 5 InetAdress.new).start.1).SendContained (fun _ => 7) 4096 2
      (.accepted 1) :=
  (send_contained_iff (by decide) _ _ _ (by decide)).mpr fun _ => Or.inl (by decide)

/-- A direct write that fails with EPIPE: `send` queues two bytes for a datum of
one, from the byte before it on, and turns write interest on. -/
theorem fatal_error_queues_two_bytes :
    ¬ ((TcpConnection.new 0 [] 5 InetAdress.new).start.1).SendContained (fun _ => 7) 4096 1
        (.failed .EPIPE)
      ∧ (((TcpConnection.new 0 [] 5 InetAdress.new).start.1).send (fun _ => 7) 4096 1
          (.failed .EPIPE)).1.outPutBuffer.contents = [7, 7]
      ∧ (((TcpConnection.new 0 [] 5 InetAdress.new).start.1).send (fun _ => 7) 4096 1
          (.failed .EPIPE)).1.handler.isWriting = true := by
  refine ⟨fun h => ?_, by decide +kernel, by decide +kernel⟩
  have hle := h.nwrite_le
  revert hle
  decide +kernel

end TcpConnection

end SparkNet
