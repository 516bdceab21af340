/-
  SparkNet.Echo — the program of `Samples/Echo`.

  One client and one server of the library in one program, joined by a `Link`:
  the client at the left end, the connection the server accepted at the right.
  What is typed is sent line by line; the server's message callback sends back
  what it finds in its input buffer; the client's takes one line out of its own.
  The callbacks are the sample's, each run inside the `HandleRead` that calls it.
  A run ends before a line that overruns the buffer of the stdin callback.

  Main results:
    * `Echo.echoed_iff` — what is sent is somewhere on its way round, in order,
      exactly in the runs whose direct writes succeed;
    * `Echo.echo_completes` — the way round is never blocked, and is finite;
    * `Echo.lines_stranded` — the client's callback takes one line in a read, and
      how many it has left behind;
    * `Stdin.overruns_iff` — which input overruns the buffer of the stdin callback.
-/
import Mathlib.Data.List.TakeWhile
import SparkNet.Link

namespace SparkNet

open Runs

/-! ## §1. The stdin callback. -/

namespace Stdin

/-- `'\n'`. -/
def newline : Byte := 10

/-- `sizeof buf`. -/
def bufSize : Nat := 100

/-- The length of the first line, with its newline. -/
def lineLength (input : List Byte) : Nat :=
  if newline ∈ input then input.idxOf newline + 1 else input.length

/-- `fgets(buf, 100, stdin)`: what it stores before the terminating NUL, and what
it leaves. -/
def fgets (input : List Byte) : List Byte × List Byte :=
  let n := min (bufSize - 1) (lineLength input)
  (input.take n, input.drop n)

/-- The C string in the buffer. -/
def string (chunk : List Byte) : List Byte := chunk.takeWhile (· ≠ 0)

/-- `client->Send(strcat(buf, "\n"), strlen(buf))`.  The order in which the two
arguments are evaluated is the compiler's: `strlen` counts the newline that
`strcat` appends only when it runs second. -/
def argument (strlenFirst : Bool) (chunk : List Byte) : List Byte :=
  if strlenFirst then string chunk else string chunk ++ [newline]

/-- `strcat` writes past the end of the buffer. -/
def overruns (chunk : List Byte) : Bool := decide (bufSize < (string chunk).length + 2)

theorem lineLength_le (input : List Byte) : lineLength input ≤ input.length := by
  unfold lineLength
  split
  next h =>
    have := List.idxOf_lt_length_iff.mpr h
    omega
  next => exact Nat.le_refl _

theorem lineLength_pos {input : List Byte} (h : input ≠ []) : 0 < lineLength input := by
  unfold lineLength
  split
  · exact Nat.succ_pos _
  · exact List.length_pos_iff.mpr h

theorem fgets_lt {input : List Byte} (h : input ≠ []) :
    (fgets input).2.length < input.length := by
  have hpos := lineLength_pos h
  have hlen := List.length_pos_iff.mpr h
  simp only [fgets, bufSize, List.length_drop]
  omega

/-- What the callback gets in one call after the other, up to the end of stdin. -/
def chunks (input : List Byte) : List (List Byte) :=
  if h : input = [] then []
  else
    have : (fgets input).2.length < input.length := fgets_lt h
    (fgets input).1 :: chunks (fgets input).2
termination_by input.length

theorem chunks_nil : chunks [] = [] := by
  rw [chunks]
  simp

theorem chunks_cons {input : List Byte} (h : input ≠ []) :
    chunks input = (fgets input).1 :: chunks (fgets input).2 := by
  rw [chunks, dif_neg h]

/-- Without a NUL the string is the whole chunk. -/
theorem string_eq {chunk : List Byte} (h : 0 ∉ chunk) : string chunk = chunk := by
  unfold string
  rw [List.takeWhile_eq_self_iff]
  intro b hb
  rw [decide_eq_true_eq]
  rintro rfl
  exact h hb

/-- Ninety-nine bytes of one line, of which only the last may be its newline. -/
def LongLine (input : List Byte) : Prop :=
  ∃ before line after, input = before ++ line ++ after ∧ line.length = bufSize - 1
    ∧ newline ∉ line.take (bufSize - 2)

/-- A chunk that fills the buffer comes from a long line. -/
theorem longLine_of_fgets {input : List Byte} (h : bufSize - 1 ≤ lineLength input) :
    LongLine input := by
  have hle := lineLength_le input
  refine ⟨[], input.take (bufSize - 1), input.drop (bufSize - 1), ?_, ?_, fun hmem => ?_⟩
  · rw [List.nil_append, List.take_append_drop]
  · rw [List.length_take]
    omega
  · rw [List.take_take] at hmem
    -- the first newline would be nearer
    have hin : newline ∈ input := List.mem_of_mem_take hmem
    have hidx : input.idxOf newline < bufSize - 2 := by
      have hlt := List.idxOf_lt_length_iff.mpr hmem
      rw [List.length_take] at hlt
      have hsame : (input.take (min (bufSize - 2) (bufSize - 1))).idxOf newline
          = input.idxOf newline := by
        conv_rhs => rw [← List.take_append_drop (min (bufSize - 2) (bufSize - 1)) input]
        rw [List.idxOf_append_of_mem hmem]
      rw [hsame] at hlt
      simp only [bufSize] at hlt ⊢
      omega
    unfold lineLength at h
    rw [if_pos hin] at h
    simp only [bufSize] at h hidx
    omega

/-- A long line does not begin in a chunk that is a whole line. -/
theorem longLine_rest {input : List Byte} (h : LongLine input)
    (hshort : lineLength input < bufSize - 1) : LongLine (input.drop (lineLength input)) := by
  obtain ⟨before, line, after, rfl, hlen, hno⟩ := h
  have hlong : line.length ≤ (before ++ line ++ after).length := by
    rw [List.length_append, List.length_append]
    omega
  have hin : newline ∈ before ++ line ++ after := by
    by_contra hnone
    unfold lineLength at hshort
    rw [if_neg hnone] at hshort
    omega
  by_cases hbefore : newline ∈ before
  · have hidx : (before ++ line ++ after).idxOf newline = before.idxOf newline := by
      rw [List.append_assoc, List.idxOf_append_of_mem hbefore]
    have hlt := List.idxOf_lt_length_iff.mpr hbefore
    refine ⟨before.drop (before.idxOf newline + 1), line, after, ?_, hlen, hno⟩
    unfold lineLength
    rw [if_pos hin, hidx, List.append_assoc, List.append_assoc,
      List.drop_append_of_le_length (by omega)]
  · -- the first newline would lie in the line itself, and too early
    exfalso
    unfold lineLength at hshort
    rw [if_pos hin, List.append_assoc, List.idxOf_append_of_notMem hbefore] at hshort
    have hmem : newline ∈ line := by
      by_contra hline
      rw [List.idxOf_append_of_notMem hline] at hshort
      omega
    rw [List.idxOf_append_of_mem hmem] at hshort
    refine hno ?_
    have hlt := List.idxOf_lt_length_iff.mpr hmem
    have hget : line.get ⟨line.idxOf newline, hlt⟩ = newline := List.getElem_idxOf hlt
    rw [List.mem_take_iff_getElem]
    refine ⟨line.idxOf newline, ?_, hget⟩
    simp only [bufSize] at hshort hlen ⊢
    omega

/-- **What the stdin callback does with a text** that holds no NUL.  Its chunks
make up the text, and where `strlen` runs first they are what is sent.  `strcat`
writes past the end of the buffer on some chunk if and only if the text has
ninety-nine bytes of one line. -/
theorem overruns_iff (input : List Byte) (hnul : 0 ∉ input) :
    (chunks input).flatMap (argument true) = input
      ∧ ((∃ chunk ∈ chunks input, overruns chunk = true) ↔ LongLine input) := by
  induction input using chunks.induct with
  | case1 =>
      rw [chunks_nil]
      refine ⟨rfl, ⟨fun ⟨_, hmem, _⟩ => absurd hmem List.not_mem_nil, ?_⟩⟩
      rintro ⟨before, line, after, heq, hlen, _⟩
      have hzero : line = [] := by
        have := congrArg List.length heq
        simp only [List.length_nil, List.length_append] at this
        exact List.length_eq_zero_iff.mp (by omega)
      rw [hzero] at hlen
      exact absurd hlen (by decide)
  | case2 input hnil _ ih =>
      have hle := lineLength_le input
      have hsplit : (fgets input).1 ++ (fgets input).2 = input := List.take_append_drop _ _
      have hchunk : 0 ∉ (fgets input).1 := fun hm => hnul (List.mem_of_mem_take hm)
      have hrest : 0 ∉ (fgets input).2 := fun hm => hnul (List.mem_of_mem_drop hm)
      obtain ⟨hjoin, hover⟩ := ih hrest
      rw [chunks_cons hnil]
      constructor
      · rw [List.flatMap_cons, hjoin, argument, if_pos rfl, string_eq hchunk, hsplit]
      have hfirst : overruns (fgets input).1 = true ↔ bufSize - 1 ≤ lineLength input := by
        rw [overruns, string_eq hchunk, decide_eq_true_eq]
        simp only [fgets, List.length_take, bufSize]
        omega
      rw [List.exists_mem_cons_iff, hfirst, hover]
      constructor
      · rintro (hlong | ⟨before, line, after, heq, hlen', hno⟩)
        · exact longLine_of_fgets hlong
        · refine ⟨(fgets input).1 ++ before, line, after, ?_, hlen', hno⟩
          rw [List.append_assoc, List.append_assoc, ← List.append_assoc before, ← heq, hsplit]
      · intro hlong
        by_cases hshort : lineLength input < bufSize - 1
        · right
          have hmin : min (bufSize - 1) (lineLength input) = lineLength input := by omega
          show LongLine (input.drop (min (bufSize - 1) (lineLength input)))
          rw [hmin]
          exact longLine_rest hlong hshort
        · exact Or.inl (Nat.not_lt.mp hshort)

/-- The theorem on a line of a hundred bytes. -/
theorem overruns_on_long_line :
    ∃ chunk ∈ chunks (List.replicate 100 65), overruns chunk = true := by
  refine (overruns_iff (List.replicate 100 65) (by decide)).2.mpr ?_
  refine ⟨[], List.replicate 99 65, [65], rfl, rfl, by decide⟩

end Stdin

/-! ## §2. The machine. -/

structure Echo where
  link : Link
  /-- What has been typed and not been read by `fgets`. -/
  stdin : List Byte

/-- One event of the poller, with the kernel's answers and, where a callback
sends, where in memory the data lies. -/
inductive EchoOp where
  /-- stdin is readable. -/
  | input (strlenFirst : Bool) (mem : Memory) (data len : SizeT) (w : WriteOutcome)
  | clientWrite (w : WriteOutcome)
  | clientRead (bytes : List Byte)
  | serverRead (bytes : List Byte) (mem : Memory) (data len : SizeT) (w : WriteOutcome)
  | serverWrite (w : WriteOutcome)

/-- Something is typed. -/
def EchoOp.isInput : EchoOp → Bool
  | .input .. => true
  | _ => false

namespace Echo

open Stdin (newline)

/-- The client's message callback, with `contents` in the input buffer: a line is
retrieved if there is one, and no second. -/
def clientCallback (contents : List Byte) : List LinkOp :=
  if newline ∈ contents then [.call .left (.retrieve (contents.idxOf newline + 1))] else []

/-- The operations of an event on the two connections. -/
def ops (e : Echo) : EchoOp → List LinkOp
  | .input _ mem data len w => [.call .left (.send mem data len w)]
  | .clientWrite w => [.call .left (.handleWrite w)]
  | .clientRead bytes =>
      .call .left (.handleRead (.data bytes))
        :: clientCallback ((e.link.ends .left).conn.inputBuffer.contents ++ bytes)
  | .serverRead bytes mem data len w =>
      [.call .right (.handleRead (.data bytes)), .call .right (.send mem data len w),
        .call .right (.retrieve len.toNat)]
  | .serverWrite w => [.call .right (.handleWrite w)]

/-- What the callback passes to `send` lies in memory. -/
def finds (e : Echo) : EchoOp → Bool
  | .input strlenFirst mem data len _ =>
      !e.stdin.isEmpty
        -- past the end of `buf` C++ defines no further run
        && !Stdin.overruns (Stdin.fgets e.stdin).1
        && decide (mem.read data len = Stdin.argument strlenFirst (Stdin.fgets e.stdin).1)
  -- `ReadPos()` and `ReadableBytes()` of the input buffer
  | .serverRead bytes mem data len _ =>
      decide (mem.read data len = (e.link.ends .right).conn.inputBuffer.contents ++ bytes)
  | _ => true

/-- What is left to type. -/
def rest (e : Echo) : EchoOp → List Byte
  | .input .. => (Stdin.fgets e.stdin).2
  | _ => e.stdin

def step (e : Echo) (op : EchoOp) : Option Echo :=
  if e.finds op = true then
    (exec Link.step e.link (e.ops op)).map fun l => ⟨l, e.rest op⟩
  else none

def client (e : Echo) : Session := e.link.ends .left

def server (e : Echo) : Session := e.link.ends .right

/-- What was sent is with the client again, on the way back, in the server's
queue, on the way there, or in the client's queue. -/
def Echoed (e : Echo) : Prop :=
  e.client.received ++ e.link.inFlight .right ++ e.server.queued ++ e.link.inFlight .left
    ++ e.client.queued = e.client.sent

theorem step_eq {e e' : Echo} {op : EchoOp} (h : e.step op = some e') :
    e.finds op = true ∧ exec Link.step e.link (e.ops op) = some e'.link
      ∧ e'.stdin = e.rest op := by
  unfold step at h
  rw [Option.ite_none_right_eq_some] at h
  obtain ⟨hfinds, h⟩ := h
  obtain ⟨l, hl, rfl⟩ := Option.map_eq_some_iff.mp h
  exact ⟨hfinds, hl, rfl⟩

/-! ## §3. What every run keeps. -/

/-- The operations the sample uses. -/
def plain : LinkOp → Bool
  | .call _ (.send ..) => true
  | .call _ (.handleWrite _) => true
  | .call _ (.handleRead (.data _)) => true
  | .call _ (.retrieve _) => true
  | _ => false

/-- A connection that nobody shuts down or closes. -/
structure Running (s : Session) : Prop where
  state : s.conn.state = .connected
  closing : s.closing = 0
  tracks : Session.TracksOutput s.conn
  fin : s.finSent = false

theorem running_step {s s' : Session} {σ : Side} {op : ConnOp} (h : Running s)
    (hop : plain (.call σ op) = true) (hstep : s.step op = some s') : Running s' := by
  cases op with
  | send mem data len w =>
      obtain ⟨_, rfl⟩ := Session.step_send hstep
      refine ⟨(TcpConnection.state_send _ _ _ _ _).trans h.state, h.closing,
        h.tracks.send _ _ _ _, ?_⟩
      show (s.after (s.conn.send mem data len w)).finSent = false
      rw [Link.finSent_after, h.fin, Bool.or_false, List.any_eq_false]
      intro call hcall
      have hno := TcpConnection.send_no_fin s.conn mem data len w call hcall
      cases call with
      | shutdown pending => exact absurd rfl (hno pending)
      | _ => exact Bool.false_ne_true
  | handleWrite w =>
      obtain ⟨_, rfl⟩ := Session.step_handleWrite hstep
      refine ⟨(Link.state_handleWrite _ _).trans h.state, h.closing, h.tracks.handleWrite w, ?_⟩
      rw [Link.finSent_after, h.fin, Bool.or_false]
      cases hw : s.conn.handler.isWriting with
      | false =>
          rw [TcpConnection.handleWrite_idle hw]
          rfl
      | true =>
          cases w with
          | failed errno =>
              rw [TcpConnection.handleWrite_failed hw]
              rfl
          | accepted n =>
              rw [TcpConnection.handleWrite_accepted hw]
              -- the deferred FIN is for DIS_CONNECTING only
              split <;> simp [h.state, SessionEvent.isFin]
  | handleRead r =>
      cases r with
      | data bytes =>
          obtain ⟨_, ⟨_, hr, _⟩ | ⟨hr, _⟩ | ⟨_, _, rfl⟩⟩ := Session.step_handleRead hstep
          · exact absurd hr (by simp)
          · exact absurd hr (by simp)
          · exact ⟨h.state, h.closing, h.tracks, h.fin⟩
      | _ => exact absurd hop (by simp [plain])
  | retrieve len =>
      cases hstep
      exact ⟨h.state, h.closing, h.tracks, h.fin⟩
  | _ => exact absurd hop (by simp [plain])

/-- Both ends, and the network between them. -/
structure Joined (l : Link) : Prop where
  carried : l.Carried
  running : ∀ σ, Running (l.ends σ)
  alive : ∀ σ, l.destroyed σ = false

theorem joined_step (l : Link) (a : LinkOp) (l' : Link) (h : Joined l)
    (ha : plain a = true) (hstep : l.step a = some l') : Joined l' := by
  have hcarried := Link.carried_step l a l' h.carried hstep
  cases a with
  | destroy σ => exact absurd ha (by simp [plain])
  | call σ op =>
      obtain ⟨_, s, hs, _, rfl⟩ := Link.step_call hstep
      refine ⟨hcarried, fun τ => ?_, h.alive⟩
      rcases Side.eq_or_eq_other σ τ with rfl | rfl
      · rw [Link.ends_setEnd]
        exact running_step (h.running τ) ha hs
      · rw [Link.ends_setEnd_other]
        exact h.running _

theorem plain_ops (e : Echo) (op : EchoOp) : ∀ a ∈ e.ops op, plain a = true := by
  intro a ha
  cases op with
  | clientRead bytes =>
      rcases List.mem_cons.mp ha with rfl | ha
      · rfl
      · unfold clientCallback at ha
        split at ha
        · rw [List.mem_singleton.mp ha]
          rfl
        · exact absurd ha List.not_mem_nil
  | serverRead bytes mem data len w =>
      simp only [ops, List.mem_cons, List.not_mem_nil, or_false] at ha
      rcases ha with rfl | rfl | rfl <;> rfl
  | _ =>
      rw [List.mem_singleton.mp ha]
      rfl

theorem Joined.afterEvent {l l' : Link} {e : Echo} {op : EchoOp} (h : Joined l)
    (hrun : exec Link.step l (e.ops op) = some l') : Joined l' :=
  exec_invariant_along joined_step h (Along.of_forall (plain_ops e op) l) hrun

/-- The end that takes no step. -/
theorem other_end {l l' : Link} {σ : Side} {ops : List LinkOp} (hops : Link.opsAt σ ops = [])
    (hrun : exec Link.step l ops = some l') : l'.ends σ = l.ends σ := by
  have h := Link.ends_exec hrun σ
  rw [hops] at h
  exact (Option.some.inj h).symm

theorem clientRead_ops (e : Echo) (bytes : List Byte) :
    Link.opsAt .right (e.ops (.clientRead bytes)) = [] := by
  show Link.opsAt .right (.call .left _ :: clientCallback _) = []
  unfold clientCallback
  split <;> rfl

/-- The three operations of the server's callback, one after the other. -/
theorem serverRead_cases {e e' : Echo} {bytes : List Byte} {mem : Memory} {data len : SizeT}
    {w : WriteOutcome} (h : e.step (.serverRead bytes mem data len w) = some e') :
    mem.read data len = e.server.conn.inputBuffer.contents ++ bytes
      ∧ ∃ s₁ s₂, e.server.step (.handleRead (.data bytes)) = some s₁
        ∧ s₁.step (.send mem data len w) = some s₂
        ∧ s₂.step (.retrieve len.toNat) = some e'.server
        ∧ e'.client = e.client := by
  obtain ⟨hfinds, hrun, _⟩ := step_eq h
  have hat : Link.opsAt .right (e.ops (.serverRead bytes mem data len w))
      = [.handleRead (.data bytes), .send mem data len w, .retrieve len.toNat] := rfl
  have hright := Link.ends_exec hrun .right
  rw [hat] at hright
  obtain ⟨s₁, h1, hrest⟩ := exec_cons_eq_some.mp hright
  obtain ⟨s₂, h2, hrest⟩ := exec_cons_eq_some.mp hrest
  obtain ⟨s₃, h3, hnil⟩ := exec_cons_eq_some.mp hrest
  obtain rfl : s₃ = e'.link.ends .right := Option.some.inj hnil
  exact ⟨of_decide_eq_true hfinds, s₁, s₂, h1, h2, h3, other_end (σ := .left) rfl hrun⟩

/-- One operation, of the client or of the server. -/
theorem single_cases {e e' : Echo} {op : EchoOp} {σ : Side} {cop : ConnOp}
    (hops : e.ops op = [.call σ cop]) (h : e.step op = some e') :
    (e.link.ends σ).step cop = some (e'.link.ends σ)
      ∧ e'.link.ends σ.other = e.link.ends σ.other := by
  obtain ⟨_, hrun, _⟩ := step_eq h
  rw [hops] at hrun
  obtain ⟨l, hstep, hnil⟩ := exec_cons_eq_some.mp hrun
  cases hnil
  obtain ⟨_, s, hs, _, heq⟩ := Link.step_call hstep
  rw [heq, Link.ends_setEnd, Link.ends_setEnd_other]
  exact ⟨hs, rfl⟩

/-! ## §4. The echo. -/

/-- What holds between two events, whatever the kernel answers. -/
structure Settled (e : Echo) : Prop where
  joined : Joined e.link
  /-- The server has sent what it received ... -/
  echoes : e.server.sent = e.server.received
  /-- ... and has nothing left to send. -/
  empty : e.server.conn.inputBuffer.contents = []

/-- `HandleRead` up to the message callback. -/
def afterRead (s : Session) (bytes : List Byte) : Session :=
  { s with
    conn := s.conn.receive bytes
    received := s.received ++ bytes
    events := .messageCallback :: s.events }

/-- What the server's callback makes of a read. -/
theorem serverRead_spec {e e' : Echo} {bytes : List Byte} {mem : Memory} {data len : SizeT}
    {w : WriteOutcome} (h : Settled e)
    (hstep : e.step (.serverRead bytes mem data len w) = some e') :
    mem.read data len = bytes ∧ e'.server.sent = e.server.sent ++ bytes
      ∧ e'.server.received = e.server.received ++ bytes
      ∧ e'.server.conn.inputBuffer.contents = []
      ∧ ∃ s : Session, (afterRead e.server bytes).step (.send mem data len w) = some s
        ∧ s.step (.retrieve len.toNat) = some e'.server := by
  obtain ⟨hmem, s₁, s₂, h1, h2, h3, _⟩ := serverRead_cases hstep
  rw [h.empty, List.nil_append] at hmem
  obtain ⟨_, ⟨_, hr, _⟩ | ⟨hr, _⟩ | ⟨bytes', hr, heq⟩⟩ := Session.step_handleRead h1
  · exact absurd hr (by simp)
  · exact absurd hr (by simp)
  obtain rfl : bytes = bytes' := ReadOutcome.data.inj hr
  obtain rfl : s₁ = afterRead e.server bytes := heq
  obtain ⟨_, hs₂⟩ := Session.step_send h2
  have hlast := Option.some.inj h3
  have hin : (e.server.conn.receive bytes).inputBuffer.contents = bytes := by
    rw [TcpConnection.contents_receive, h.empty, List.nil_append]
  have hlen : bytes.length = len.toNat := by
    rw [← hmem, Memory.length_read]
  refine ⟨hmem, ?_, ?_, ?_, s₂, h2, h3⟩
  · rw [← hlast, ← hmem, hs₂]
    rfl
  · rw [← hlast, hs₂]
    rfl
  · rw [← hlast, hs₂]
    show ((((e.server.conn.receive bytes).send mem data len w).1).inputBuffer.retrieve
      len.toNat).contents = []
    rw [ValidBuffer.contents_retrieve, Session.inputBuffer_send, hin, List.drop_eq_nil_iff]
    exact Nat.le_of_eq hlen

theorem settled_step (e : Echo) (op : EchoOp) (e' : Echo) (h : Settled e)
    (hstep : e.step op = some e') : Settled e' := by
  have hjoined : Joined e'.link := h.joined.afterEvent (step_eq hstep).2.1
  have hclient : Link.opsAt .right (e.ops op) = [] → Settled e' := by
    intro hops
    have hsame : e'.server = e.server := other_end hops (step_eq hstep).2.1
    exact ⟨hjoined, by rw [hsame]; exact h.echoes, by rw [hsame]; exact h.empty⟩
  cases op with
  | input strlenFirst mem data len w => exact hclient rfl
  | clientWrite w => exact hclient rfl
  | clientRead bytes => exact hclient (clientRead_ops e bytes)
  | serverWrite w =>
      obtain ⟨hs, _⟩ := single_cases (σ := .right) rfl hstep
      obtain ⟨_, heq⟩ := Session.step_handleWrite hs
      have hserver : e'.server = e.server.after (e.server.conn.handleWrite w) := heq
      refine ⟨hjoined, ?_, ?_⟩
      · rw [hserver]
        exact h.echoes
      · rw [hserver]
        show (e.server.conn.handleWrite w).1.inputBuffer.contents = []
        rw [Session.inputBuffer_handleWrite]
        exact h.empty
  | serverRead bytes mem data len w =>
      obtain ⟨_, hsent, hreceived, hempty, _⟩ := serverRead_spec h hstep
      exact ⟨hjoined, by rw [hsent, hreceived, h.echoes], hempty⟩

/-- The direct write of the callback's `send`, when it is made, does not return -1. -/
def DirectWrites (e : Echo) : EchoOp → Prop
  | .input _ _ _ _ w => e.client.conn.writesDirectly = true → 0 ≤ w.result
  | .serverRead _ _ _ _ w => e.server.conn.writesDirectly = true → 0 ≤ w.result
  | _ => True

instance (e : Echo) (op : EchoOp) : Decidable (e.DirectWrites op) :=
  match op with
  | .input _ _ _ _ w =>
      inferInstanceAs (Decidable (e.client.conn.writesDirectly = true → 0 ≤ w.result))
  | .serverRead _ _ _ _ w =>
      inferInstanceAs (Decidable (e.server.conn.writesDirectly = true → 0 ≤ w.result))
  | .clientWrite _ | .clientRead _ | .serverWrite _ => isTrue trivial

/-- The law of the way round is the laws of its two halves. -/
theorem Settled.echoed {e : Echo} (h : Settled e) (hs : e.server.OutputFaithful) :
    e.Echoed ↔ e.client.OutputFaithful := by
  have hback := h.joined.carried.delivers.accepted .right
  have hthere := h.joined.carried.delivers.accepted .left
  have hserver : e.server.accepted ++ e.server.queued = e.server.received := hs.trans h.echoes
  unfold Echoed Session.OutputFaithful
  rw [show e.client.received ++ e.link.inFlight .right = e.server.accepted from hback, hserver,
    show e.server.received ++ e.link.inFlight .left = e.client.accepted from hthere]

theorem Settled.echoed' {e : Echo} (h : Settled e) (hc : e.client.OutputFaithful) :
    e.Echoed ↔ e.server.OutputFaithful := by
  refine ⟨fun hecho => ?_, fun hs => (h.echoed hs).mpr hc⟩
  have hback := h.joined.carried.delivers.accepted .right
  have hthere := h.joined.carried.delivers.accepted .left
  unfold Echoed at hecho
  rw [show e.client.received ++ e.link.inFlight .right = e.server.accepted from hback,
    show e.client.sent = e.client.accepted ++ e.client.queued from hc.symm,
    show e.client.accepted = e.server.received ++ e.link.inFlight .left from hthere.symm,
    List.append_cancel_right_eq, List.append_cancel_right_eq] at hecho
  exact hecho.trans h.echoes.symm

/-- The line the client's callback takes, with `contents` in the input buffer. -/
def takesLine (s : Session) (contents : List Byte) : Session :=
  if newline ∈ contents then
    { s with
      conn := s.conn.retrieve (contents.idxOf newline + 1)
      consumed := s.consumed ++ s.conn.inputBuffer.contents.take (contents.idxOf newline + 1) }
  else s

/-- What the client makes of a read. -/
theorem clientRead_eq {e e' : Echo} {bytes : List Byte}
    (hstep : e.step (.clientRead bytes) = some e') :
    e'.client = takesLine (afterRead e.client bytes)
      (e.client.conn.inputBuffer.contents ++ bytes) := by
  obtain ⟨_, hrun, _⟩ := step_eq hstep
  have hleft := Link.ends_exec hrun .left
  have hat : Link.opsAt .left (e.ops (.clientRead bytes)) = .handleRead (.data bytes)
      :: Link.opsAt .left (clientCallback (e.client.conn.inputBuffer.contents ++ bytes)) := rfl
  rw [hat] at hleft
  obtain ⟨s₁, h1, hrest⟩ := exec_cons_eq_some.mp hleft
  obtain ⟨_, ⟨_, hr, _⟩ | ⟨hr, _⟩ | ⟨bytes', hr, heq⟩⟩ := Session.step_handleRead h1
  · exact absurd hr (by simp)
  · exact absurd hr (by simp)
  obtain rfl : bytes = bytes' := ReadOutcome.data.inj hr
  obtain rfl : s₁ = afterRead e.client bytes := heq
  unfold clientCallback at hrest
  unfold takesLine
  split at hrest
  next hline =>
    obtain ⟨s₂, h2, hnil⟩ := exec_cons_eq_some.mp hrest
    obtain rfl : s₂ = e'.client := Option.some.inj hnil
    rw [if_pos hline]
    exact (Option.some.inj h2).symm
  next hline =>
    rw [if_neg hline]
    exact (Option.some.inj hrest).symm

/-- Its callback takes bytes out of the input buffer only. -/
theorem clientRead_spec {e e' : Echo} {bytes : List Byte}
    (hstep : e.step (.clientRead bytes) = some e') :
    e'.client.received = e.client.received ++ bytes ∧ e'.client.sent = e.client.sent
      ∧ e'.client.accepted = e.client.accepted ∧ e'.client.queued = e.client.queued := by
  rw [clientRead_eq hstep, takesLine]
  split <;> exact ⟨rfl, rfl, rfl, rfl⟩

/-- The output laws of both connections survive an event whose direct write
succeeds. -/
theorem faithful_step {e e' : Echo} {op : EchoOp} (h : Settled e)
    (hc : e.client.OutputFaithful) (hs : e.server.OutputFaithful) (hok : e.DirectWrites op)
    (hstep : e.step op = some e') : e'.client.OutputFaithful ∧ e'.server.OutputFaithful := by
  have hstate : ∀ σ, (e.link.ends σ).conn.state = .connected := fun σ => (h.joined.running σ).state
  cases op with
  | input strlenFirst mem data len w =>
      obtain ⟨hstep', hother⟩ := single_cases (σ := .left) rfl hstep
      have hserver : e'.server = e.server := hother
      exact ⟨Session.outputFaithful_step e.client (.send mem data len w) _ hc (hstate .left) hok
          hstep',
        hserver ▸ hs⟩
  | clientWrite w =>
      obtain ⟨hstep', hother⟩ := single_cases (σ := .left) rfl hstep
      have hserver : e'.server = e.server := hother
      exact ⟨Session.outputFaithful_step e.client (.handleWrite w) _ hc trivial trivial hstep',
        hserver ▸ hs⟩
  | clientRead bytes =>
      obtain ⟨_, hsent, haccepted, hqueued⟩ := clientRead_spec hstep
      have hserver : e'.server = e.server :=
        other_end (clientRead_ops e bytes) (step_eq hstep).2.1
      refine ⟨?_, hserver ▸ hs⟩
      rw [Session.OutputFaithful, hsent, haccepted, hqueued]
      exact hc
  | serverWrite w =>
      obtain ⟨hstep', hother⟩ := single_cases (σ := .right) rfl hstep
      have hclient : e'.client = e.client := hother
      exact ⟨hclient ▸ hc,
        Session.outputFaithful_step e.server (.handleWrite w) _ hs trivial trivial hstep'⟩
  | serverRead bytes mem data len w =>
      obtain ⟨_, _, _, _, s, h1, h2⟩ := serverRead_spec h hstep
      have hclient : e'.client = e.client :=
        (serverRead_cases hstep).2.choose_spec.choose_spec.2.2.2
      have hread : (afterRead e.server bytes).OutputFaithful := hs
      have hsend := Session.outputFaithful_step _ (.send mem data len w) s hread (hstate .right)
        hok h1
      exact ⟨hclient ▸ hc,
        Session.outputFaithful_step s (.retrieve len.toNat) _ hsend trivial trivial h2⟩

/-- A direct write that fails breaks the law of its connection. -/
theorem unfaithful_step {e e' : Echo} {op : EchoOp} (h : Settled e)
    (hc : e.client.OutputFaithful) (hs : e.server.OutputFaithful) (hbad : ¬ e.DirectWrites op)
    (hstep : e.step op = some e') : ¬ e'.Echoed := by
  have h' := settled_step e op e' h hstep
  have hstate : ∀ σ, (e.link.ends σ).conn.state = .connected := fun σ => (h.joined.running σ).state
  cases op with
  | input strlenFirst mem data len w =>
      obtain ⟨hstep', hother⟩ := single_cases (σ := .left) rfl hstep
      have hserver : e'.server = e.server := hother
      rw [h'.echoed (hserver ▸ hs)]
      exact Session.not_outputFaithful_step e.client (.send mem data len w) _ hc (hstate .left)
        hbad hstep'
  | serverRead bytes mem data len w =>
      obtain ⟨_, _, _, _, s, h1, h2⟩ := serverRead_spec h hstep
      have hclient : e'.client = e.client :=
        (serverRead_cases hstep).2.choose_spec.choose_spec.2.2.2
      rw [h'.echoed' (hclient ▸ hc)]
      have hread : (afterRead e.server bytes).OutputFaithful := hs
      have hlost := Session.not_outputFaithful_step _ (.send mem data len w) s hread
        (hstate .right) hbad h1
      have hlast := Option.some.inj h2
      rw [← hlast]
      exact hlost
  | _ => exact absurd trivial hbad

/-- A program in which the two have just been connected. -/
def start (link : Link) (stdin : List Byte) : Echo := ⟨link, stdin⟩

theorem running_started (self : Nat) (x : TcpConnection) : Running (Session.started self x) where
  state := rfl
  closing := rfl
  tracks := Session.tracksOutput_step (Session.of (x.asMade self)) .start _
    (fun _ => Session.tracksOutput_new self x.name x.handler.fd x.addr) rfl rfl
  fin := rfl

theorem settled_start {link : Link} (hnew : link.IsNew) (stdin : List Byte) :
    Settled (start link stdin) ∧ (start link stdin).client.OutputFaithful
      ∧ (start link stdin).server.OutputFaithful := by
  have hrunning : ∀ σ, Running (link.ends σ) := by
    intro σ
    obtain ⟨self, x, heq⟩ := hnew.started σ
    rw [heq]
    exact running_started self x
  obtain ⟨self, x, heq⟩ := hnew.started .right
  have hserver : (start link stdin).server = Session.started self x := heq
  refine ⟨⟨⟨hnew.carried, hrunning, hnew.alive⟩, ?_, ?_⟩, hnew.outputFaithful .left,
    hnew.outputFaithful .right⟩
  · rw [hserver]
    rfl
  · rw [hserver]
    exact ValidBuffer.contents_new

/-- **The echo, exactly.**  Client and server have just been connected; anything
is typed that does not overrun the buffer, at any time, and every event comes when
the network lets it.
Throughout the run what the client has sent is, in this order, what it has
received again, what is on its way back, what the server has queued, what is on
its way there and what the client has queued — if and only if no direct write of
the two callbacks returns -1. -/
theorem echoed_iff (link : Link) (stdin : List Byte) (events : List EchoOp) (e : Echo)
    (hnew : link.IsNew) (hrun : exec step (start link stdin) events = some e) :
    Always step Echoed (start link stdin) events
      ↔ Along step DirectWrites (start link stdin) events := by
  obtain ⟨h, hc, hs⟩ := settled_start hnew stdin
  refine always_iff_along (I := fun e => Settled e ∧ e.client.OutputFaithful
    ∧ e.server.OutputFaithful) (D := fun _ _ => True) ?_ ?_ ?_ ⟨h, hc, hs⟩
    (Along.of_forall (fun _ _ => trivial) _) hrun
  · exact fun e h => (h.1.echoed h.2.2).mpr h.2.1
  · exact fun e op e' h _ hok hstep =>
      ⟨settled_step e op e' h.1 hstep, faithful_step h.1 h.2.1 h.2.2 hok hstep⟩
  · exact fun e op e' h _ hbad hstep => unfaithful_step h.1 h.2.1 h.2.2 hbad hstep

/-- "a", "b" and their newlines. -/
def twoLines : List Byte := [97, 10, 98, 10]

/-- The memory that holds them at 0. -/
def twoLinesAt : Memory := fun p => twoLines.getD p.toNat 0

/-- Two lines are typed, sent in three writes, echoed in two and read at once. -/
def session : List EchoOp :=
  [.input true twoLinesAt 0 2 (.accepted 2), .input true twoLinesAt 2 2 (.accepted 1),
   .clientWrite (.accepted 1), .serverRead twoLines twoLinesAt 0 4 (.accepted 3),
   .serverWrite (.accepted 1), .clientRead twoLines]

/-- The theorem on that run. -/
theorem echoed_on_session :
    (exec step (start Link.pair twoLines) session).isSome = true
      ∧ Always step Echoed (start Link.pair twoLines) session := by
  have h : (exec step (start Link.pair twoLines) session).isSome = true := by decide +kernel
  obtain ⟨e, hrun⟩ := Option.isSome_iff_exists.mp h
  exact ⟨h, (echoed_iff Link.pair twoLines session e Link.pair_isNew hrun).mpr
    (by decide +kernel)⟩

/-! ## §5. The way round is finite. -/

/-- How far the bytes under way still have to go: two queues, two flights. -/
def distance (e : Echo) : Nat :=
  4 * e.client.queued.length + 3 * (e.link.inFlight .left).length
    + 2 * e.server.queued.length + (e.link.inFlight .right).length

/-- The event brings bytes further. -/
def carries (e : Echo) : EchoOp → Bool
  | .clientWrite (.accepted n) => e.client.conn.handler.isWriting && decide (0 < n)
  | .serverWrite (.accepted n) => e.server.conn.handler.isWriting && decide (0 < n)
  | .clientRead _ => true
  | .serverRead .. => true
  | _ => false

/-- How many events of a run do. -/
def rounds : Echo → List EchoOp → Nat
  | _, [] => 0
  | e, op :: events =>
      match e.step op with
      | some e' => (if e.carries op then 1 else 0) + rounds e' events
      | none => 0

/-- Between two events, with the output laws. -/
structure Flowing (e : Echo) : Prop where
  settled : Settled e
  client : e.client.OutputFaithful
  server : e.server.OutputFaithful

theorem flowing_step (e : Echo) (op : EchoOp) (e' : Echo) (h : Flowing e) (hok : e.DirectWrites op)
    (hstep : e.step op = some e') : Flowing e' := by
  obtain ⟨hc, hs⟩ := faithful_step h.settled h.client h.server hok hstep
  exact ⟨settled_step e op e' h.settled hstep, hc, hs⟩

/-- The distance counts what has been accepted and received, on both sides. -/
theorem Flowing.distance_eq {e : Echo} (h : Flowing e) :
    e.distance + e.client.accepted.length + e.server.received.length + e.server.accepted.length
      + e.client.received.length = 4 * e.client.sent.length := by
  have hback := congrArg List.length (h.settled.joined.carried.delivers.accepted .right)
  have hthere := congrArg List.length (h.settled.joined.carried.delivers.accepted .left)
  have hc := congrArg List.length h.client
  have hs := congrArg List.length h.server
  rw [h.settled.echoes] at hs
  have hback' : e.client.received.length + (e.link.inFlight .right).length
      = e.server.accepted.length := by
    rw [← List.length_append]
    exact hback
  have hthere' : e.server.received.length + (e.link.inFlight .left).length
      = e.client.accepted.length := by
    rw [← List.length_append]
    exact hthere
  rw [List.length_append] at hc hs
  unfold distance
  omega

/-- The streams only grow. -/
theorem grows {l l' : Link} {ops : List LinkOp} (hrun : exec Link.step l ops = some l')
    (σ : Side) : (l.ends σ).accepted.length ≤ (l'.ends σ).accepted.length
      ∧ (l.ends σ).received.length ≤ (l'.ends σ).received.length := by
  refine exec_invariant (I := fun s : Session => (l.ends σ).accepted.length ≤ s.accepted.length
    ∧ (l.ends σ).received.length ≤ s.received.length) ?_ ⟨Nat.le_refl _, Nat.le_refl _⟩
    (Link.ends_exec hrun σ)
  intro s op s' ⟨ha, hr⟩ hstep
  obtain ⟨hreceived, _, haccepted⟩ := Link.growth hstep
  refine ⟨Nat.le_trans ha haccepted.length_le, ?_⟩
  rw [hreceived, List.length_append]
  omega

/-- `HandleWrite` with write interest moves what the kernel accepts. -/
theorem write_moves {s s' : Session} {n : Nat} (hw : s.conn.handler.isWriting = true)
    (hn : 0 < n) (hstep : s.step (.handleWrite (.accepted n)) = some s') :
    s.accepted.length < s'.accepted.length := by
  obtain ⟨⟨_, hfits⟩, rfl⟩ := Session.step_handleWrite hstep
  have hle : n ≤ s.conn.outPutBuffer.readableBytes := hfits
  rw [Link.accepted_handleWrite hw, List.length_append, List.length_take, Session.queued,
    ValidBuffer.length_contents]
  omega

/-- `readv` returned something. -/
theorem read_moves {s s' : Session} {bytes : List Byte}
    (hstep : s.step (.handleRead (.data bytes)) = some s') : bytes ≠ [] := by
  simp only [Session.step, Option.ite_none_right_eq_some] at hstep
  exact hstep.1.2.1

/-- An event that is not typed leaves what is sent, and one that carries bytes
leaves less to do. -/
theorem carries_lt {e e' : Echo} {op : EchoOp} (h : Flowing e) (hok : e.DirectWrites op)
    (hinput : op.isInput = false) (hstep : e.step op = some e') :
    (if e.carries op then 1 else 0) + e'.distance ≤ e.distance := by
  have h' := flowing_step e op e' h hok hstep
  have hrun := (step_eq hstep).2.1
  have hleft : e.client.accepted.length ≤ e'.client.accepted.length
      ∧ e.client.received.length ≤ e'.client.received.length := grows hrun .left
  have hright : e.server.accepted.length ≤ e'.server.accepted.length
      ∧ e.server.received.length ≤ e'.server.received.length := grows hrun .right
  have hd := h.distance_eq
  have hd' := h'.distance_eq
  have hend : e'.client.sent = e.client.sent → (e.carries op = true →
      e.client.accepted.length < e'.client.accepted.length
      ∨ e.client.received.length < e'.client.received.length
      ∨ e.server.accepted.length < e'.server.accepted.length
      ∨ e.server.received.length < e'.server.received.length) →
      (if e.carries op then 1 else 0) + e'.distance ≤ e.distance := by
    intro hsent hmoves
    rw [hsent] at hd'
    split
    next hcarries =>
      have := hmoves hcarries
      omega
    next => omega
  cases op with
  | input strlenFirst mem data len w => exact absurd hinput (by simp [EchoOp.isInput])
  | clientWrite w =>
      obtain ⟨hstep', _⟩ := single_cases (σ := .left) rfl hstep
      refine hend ?_ fun hcarries => Or.inl ?_
      · obtain ⟨_, heq⟩ := Session.step_handleWrite hstep'
        have hclient : e'.client = e.client.after (e.client.conn.handleWrite w) := heq
        rw [hclient]
        rfl
      · cases w with
        | failed errno => exact absurd hcarries (by simp [carries])
        | accepted n =>
            simp only [carries, Bool.and_eq_true, decide_eq_true_eq] at hcarries
            exact write_moves hcarries.1 hcarries.2 hstep'
  | serverWrite w =>
      obtain ⟨hstep', hother⟩ := single_cases (σ := .right) rfl hstep
      refine hend (congrArg Session.sent hother) fun hcarries => Or.inr (Or.inr (Or.inl ?_))
      cases w with
      | failed errno => exact absurd hcarries (by simp [carries])
      | accepted n =>
          simp only [carries, Bool.and_eq_true, decide_eq_true_eq] at hcarries
          exact write_moves hcarries.1 hcarries.2 hstep'
  | clientRead bytes =>
      obtain ⟨hreceived, hsent, _, _⟩ := clientRead_spec hstep
      refine hend hsent fun _ => Or.inr (Or.inl ?_)
      obtain ⟨l, hl, _⟩ := exec_cons_eq_some.mp hrun
      obtain ⟨_, s, hs, _, _⟩ := Link.step_call hl
      have := List.length_pos_iff.mpr (read_moves hs)
      rw [hreceived, List.length_append]
      omega
  | serverRead bytes mem data len w =>
      obtain ⟨_, s₁, _, h1, _, _, hclient⟩ := serverRead_cases hstep
      obtain ⟨_, _, hreceived, _⟩ := serverRead_spec h.settled hstep
      refine hend (congrArg Session.sent hclient) fun _ => Or.inr (Or.inr (Or.inr ?_))
      have := List.length_pos_iff.mpr (read_moves h1)
      rw [hreceived, List.length_append]
      omega

/-- Over a run. -/
theorem rounds_le : ∀ {events : List EchoOp} {e e' : Echo}, Flowing e →
    exec step e events = some e' → Along step DirectWrites e events →
    (∀ op ∈ events, op.isInput = false) → rounds e events + e'.distance ≤ e.distance := by
  intro events
  induction events with
  | nil =>
      intro e e' _ hrun _ _
      cases hrun
      simp [rounds]
  | cons op events ih =>
      intro e e' h hrun hok hinput
      obtain ⟨e₁, h1, h2⟩ := exec_cons_eq_some.mp hrun
      have hfirst := carries_lt h hok.1 (hinput op List.mem_cons_self) h1
      have hrest := ih (flowing_step e op e₁ h hok.1 h1) h2 (hok.2 e₁ h1)
        fun op' hop' => hinput op' (List.mem_cons_of_mem op hop')
      simp only [rounds, h1]
      omega

/-- Nothing of the sample keeps the network from an operation. -/
theorem Joined.takes {l : Link} (h : Joined l) {σ : Side} {op : ConnOp} {s : Session}
    (hdel : l.delivers σ op = true) (hs : (l.ends σ).step op = some s) :
    l.step (.call σ op) = some (l.setEnd σ s) := by
  have hfin : (l.ends σ).finSent = true → s.accepted = (l.ends σ).accepted := fun hfin =>
    absurd hfin (by simp [(h.running σ).fin])
  simp only [Link.step, if_pos (And.intro (h.alive σ) hdel), hs, Option.bind_some, if_pos hfin]

/-- Queued bytes can be written. -/
theorem Joined.canWrite {l : Link} (h : Joined l) {σ : Side} (hqueue : (l.ends σ).queued ≠ []) :
    (l.ends σ).conn.handler.isWriting = true
      ∧ ∃ l', exec Link.step l [.call σ (.handleWrite (.accepted 1))] = some l' := by
  refine ⟨(h.running σ).tracks.mpr hqueue, ?_⟩
  have hfits : (WriteOutcome.accepted 1).fits (l.ends σ).conn.outPutBuffer.readableBytes := by
    show 1 ≤ (l.ends σ).conn.outPutBuffer.readableBytes
    rw [← ValidBuffer.length_contents]
    exact List.length_pos_iff.mpr hqueue
  have hs : (l.ends σ).step (.handleWrite (.accepted 1))
      = some ((l.ends σ).after ((l.ends σ).conn.handleWrite (.accepted 1))) := by
    rw [Session.step, if_pos ⟨(h.running σ).closing, hfits⟩]
  exact ⟨_, exec_cons_eq_some.mpr ⟨_, h.takes rfl hs, rfl⟩⟩

/-- The next byte in flight can be read. -/
theorem Joined.canRead {l : Link} (h : Joined l) {σ : Side} {b : Byte} {rest : List Byte}
    (hflight : l.inFlight σ.other = b :: rest) :
    (l.ends σ).step (.handleRead (.data [b])) = some (afterRead (l.ends σ) [b])
      ∧ l.step (.call σ (.handleRead (.data [b])))
        = some (l.setEnd σ (afterRead (l.ends σ) [b])) := by
  have hfits : (ReadOutcome.data [b]).fits (l.ends σ).conn.inputBuffer.writableBytes := by
    refine ⟨by simp, ?_⟩
    show 1 ≤ _ + 65535
    omega
  have hs : (l.ends σ).step (.handleRead (.data [b])) = some (afterRead (l.ends σ) [b]) := by
    rw [Session.step, if_pos ⟨(h.running σ).closing, hfits⟩]
    rfl
  exact ⟨hs, h.takes (by simp [Link.delivers, hflight]) hs⟩

/-- The server reads a byte, and sends it with one write. -/
theorem Settled.canEcho {e : Echo} (h : Settled e) {b : Byte} {rest : List Byte}
    (hflight : e.link.inFlight .left = b :: rest) :
    (e.step (.serverRead [b] (fun _ => b) 0 1 (.accepted 1))).isSome = true := by
  obtain ⟨_, hstep₁⟩ := h.joined.canRead (σ := .right) hflight
  have hj₁ := joined_step _ _ _ h.joined rfl hstep₁
  have hsend : (afterRead e.server [b]).step (.send (fun _ => b) 0 1 (.accepted 1))
      = some { (afterRead e.server [b]).after
          ((afterRead e.server [b]).conn.send (fun _ => b) 0 1 (.accepted 1)) with
        sent := (afterRead e.server [b]).sent ++ Memory.read (fun _ => b) 0 1 } := by
    rw [Session.step, if_pos]
    decide
  have hstep₂ := hj₁.takes (σ := .right) rfl (by rw [Link.ends_setEnd]; exact hsend)
  have hj₂ := joined_step _ _ _ hj₁ rfl hstep₂
  have hstep₃ := hj₂.takes (σ := .right) rfl
    (show Session.step _ (.retrieve (1 : SizeT).toNat) = some _ from rfl)
  have hfinds : e.finds (.serverRead [b] (fun _ => b) 0 1 (.accepted 1)) = true := by
    have hempty : (e.link.ends .right).conn.inputBuffer.contents = [] := h.empty
    simp only [finds, hempty, List.nil_append, decide_eq_true_eq]
    rfl
  have hrun : exec Link.step e.link (e.ops (.serverRead [b] (fun _ => b) 0 1 (.accepted 1)))
      = some _ :=
    exec_cons_eq_some.mpr ⟨_, hstep₁, exec_cons_eq_some.mpr ⟨_, hstep₂,
      exec_cons_eq_some.mpr ⟨_, hstep₃, rfl⟩⟩⟩
  simp only [step, hfinds, if_true, hrun, Option.map_some, Option.isSome_some]

/-- The client reads a byte, and perhaps takes a line. -/
theorem Settled.canTake {e : Echo} (h : Settled e) {b : Byte} {rest : List Byte}
    (hflight : e.link.inFlight .right = b :: rest) :
    (e.step (.clientRead [b])).isSome = true := by
  obtain ⟨_, hstep₁⟩ := h.joined.canRead (σ := .left) hflight
  have hj₁ := joined_step _ _ _ h.joined rfl hstep₁
  have hcallback : ∀ contents, ∃ l, exec Link.step
      (e.link.setEnd .left (afterRead (e.link.ends .left) [b])) (clientCallback contents)
        = some l := by
    intro contents
    unfold clientCallback
    split
    · exact ⟨_, exec_cons_eq_some.mpr ⟨_, hj₁.takes (σ := .left) rfl rfl, rfl⟩⟩
    · exact ⟨_, rfl⟩
  obtain ⟨l, hl⟩ := hcallback ((e.link.ends .left).conn.inputBuffer.contents ++ [b])
  have hrun : exec Link.step e.link (e.ops (.clientRead [b])) = some l :=
    exec_cons_eq_some.mpr ⟨_, hstep₁, hl⟩
  simp only [step, finds, if_true, hrun, Option.map_some, Option.isSome_some]

/-- **Never blocked**: as long as something is under way some event carries it. -/
theorem Flowing.progress {e : Echo} (h : Flowing e) (hleft : e.distance ≠ 0) :
    ∃ op, e.carries op = true ∧ op.isInput = false ∧ e.DirectWrites op
      ∧ (e.step op).isSome = true := by
  have hj := h.settled.joined
  by_cases hc : e.client.queued = []
  · cases hthere : e.link.inFlight .left with
    | cons b rest =>
        exact ⟨.serverRead [b] (fun _ => b) 0 1 (.accepted 1), rfl, rfl, fun _ => by decide,
          h.settled.canEcho hthere⟩
    | nil =>
        by_cases hs : e.server.queued = []
        · cases hback : e.link.inFlight .right with
          | cons b rest => exact ⟨.clientRead [b], rfl, rfl, trivial, h.settled.canTake hback⟩
          | nil => exact absurd (by simp [distance, hc, hthere, hs, hback]) hleft
        · obtain ⟨hw, l, hl⟩ := hj.canWrite (σ := .right) hs
          have hcarries : e.carries (.serverWrite (.accepted 1)) = true :=
            Bool.and_eq_true_iff.mpr ⟨hw, rfl⟩
          refine ⟨.serverWrite (.accepted 1), hcarries, rfl, trivial, ?_⟩
          have hrun : exec Link.step e.link (e.ops (.serverWrite (.accepted 1))) = some l := hl
          simp only [step, finds, if_true, hrun, Option.map_some, Option.isSome_some]
  · obtain ⟨hw, l, hl⟩ := hj.canWrite (σ := .left) hc
    have hcarries : e.carries (.clientWrite (.accepted 1)) = true :=
      Bool.and_eq_true_iff.mpr ⟨hw, rfl⟩
    refine ⟨.clientWrite (.accepted 1), hcarries, rfl, trivial, ?_⟩
    have hrun : exec Link.step e.link (e.ops (.clientWrite (.accepted 1))) = some l := hl
    simp only [step, finds, if_true, hrun, Option.map_some, Option.isSome_some]

/-- When nothing is under way, everything is back. -/
theorem Flowing.returned {e : Echo} (h : Flowing e) (hdone : e.distance = 0) :
    e.client.received = e.client.sent := by
  have hecho : e.Echoed := (h.settled.echoed h.server).mpr h.client
  unfold distance at hdone
  have h1 : e.client.queued = [] := List.length_eq_zero_iff.mp (by omega)
  have h2 : e.link.inFlight .left = [] := List.length_eq_zero_iff.mp (by omega)
  have h3 : e.server.queued = [] := List.length_eq_zero_iff.mp (by omega)
  have h4 : e.link.inFlight .right = [] := List.length_eq_zero_iff.mp (by omega)
  unfold Echoed at hecho
  rwa [h1, h2, h3, h4, List.append_nil, List.append_nil, List.append_nil, List.append_nil] at hecho

/-- **The echo completes.**  In every run of the sample whose direct writes
succeed, whatever is typed that does not overrun the buffer: either the client has
received again all that it sent, or some event can bring bytes further; and while
nothing is typed no more than `distance` events do. -/
theorem echo_completes (link : Link) (stdin : List Byte) (events : List EchoOp) (e : Echo)
    (hnew : link.IsNew) (hrun : exec step (start link stdin) events = some e)
    (hok : Along step DirectWrites (start link stdin) events) :
    (e.client.received = e.client.sent
      ∨ ∃ op, e.carries op = true ∧ op.isInput = false ∧ e.DirectWrites op
        ∧ (e.step op).isSome = true)
    ∧ ∀ more e', exec step e more = some e' → Along step DirectWrites e more →
        (∀ op ∈ more, op.isInput = false) → rounds e more + e'.distance ≤ e.distance := by
  obtain ⟨h₀, hc, hs⟩ := settled_start hnew stdin
  have h : Flowing e := exec_invariant_along flowing_step ⟨h₀, hc, hs⟩ hok hrun
  refine ⟨?_, fun more e' => rounds_le h⟩
  by_cases hdone : e.distance = 0
  · exact Or.inl (h.returned hdone)
  · exact Or.inr (h.progress hdone)

/-- The theorem on the run above without its last event: four bytes are on their
way back. -/
theorem echo_completes_on_session :
    ∃ e, exec step (start Link.pair twoLines) (session.take 5) = some e ∧ e.distance = 4
      ∧ (e.client.received = e.client.sent
        ∨ ∃ op, e.carries op = true ∧ op.isInput = false ∧ e.DirectWrites op
          ∧ (e.step op).isSome = true) := by
  have h : (exec step (start Link.pair twoLines) (session.take 5)).map distance = some 4 := by
    decide +kernel
  obtain ⟨e, hrun, hdistance⟩ := Option.map_eq_some_iff.mp h
  exact ⟨e, hrun, hdistance, (echo_completes Link.pair twoLines (session.take 5) e Link.pair_isNew
    hrun (by decide +kernel)).1⟩

/-! ## §6. The client's lines. -/

/-- How many complete lines the bytes hold. -/
def lineCount (bytes : List Byte) : Nat := bytes.count newline

/-- The complete lines left in the input buffer when so many were there and these
bytes are read: one is taken if there is one. -/
def stranded (pending : Nat) : EchoOp → Nat
  | .clientRead bytes => pending + lineCount bytes - 1
  | _ => pending

/-- Through the first newline there is one line. -/
theorem lineCount_take {bytes : List Byte} (h : newline ∈ bytes) :
    lineCount (bytes.take (bytes.idxOf newline + 1)) = 1 := by
  induction bytes with
  | nil => exact absurd h List.not_mem_nil
  | cons b bytes ih =>
      by_cases hb : b = newline
      · subst hb
        simp [lineCount]
      · have hmem : newline ∈ bytes := (List.mem_cons.mp h).resolve_left (Ne.symm hb)
        have hidx : (b :: bytes).idxOf newline = bytes.idxOf newline + 1 :=
          List.idxOf_cons_ne bytes hb
        rw [hidx, List.take_succ_cons]
        simp only [lineCount, List.count_cons_of_ne hb]
        exact ih hmem

/-- Behind it there is one fewer. -/
theorem lineCount_drop {bytes : List Byte} (h : newline ∈ bytes) :
    lineCount (bytes.drop (bytes.idxOf newline + 1)) = lineCount bytes - 1 := by
  have hsplit : lineCount (bytes.take (bytes.idxOf newline + 1))
      + lineCount (bytes.drop (bytes.idxOf newline + 1)) = lineCount bytes := by
    unfold lineCount
    rw [← List.count_append, List.take_append_drop]
  have hone := lineCount_take h
  omega

/-- And it ends in that newline. -/
theorem getLast?_take {bytes : List Byte} (h : newline ∈ bytes) :
    (bytes.take (bytes.idxOf newline + 1)).getLast? = some newline := by
  have hlt := List.idxOf_lt_length_iff.mpr h
  rw [List.take_succ_eq_append_getElem hlt, List.getLast?_append, List.getElem_idxOf]
  rfl

/-- The bytes taken so far are whole lines. -/
def WholeLines (bytes : List Byte) : Prop := bytes = [] ∨ bytes.getLast? = some newline

/-- What an event does to the client's input buffer. -/
theorem input_step {e e' : Echo} {op : EchoOp} (hstep : e.step op = some e') :
    lineCount e'.client.conn.inputBuffer.contents
        = stranded (lineCount e.client.conn.inputBuffer.contents) op
      ∧ (WholeLines e.client.consumed → WholeLines e'.client.consumed) := by
  cases op with
  | input strlenFirst mem data len w =>
      obtain ⟨hs, _⟩ := single_cases (σ := .left) rfl hstep
      obtain ⟨_, heq⟩ := Session.step_send hs
      have hclient : e'.client.conn.inputBuffer = e.client.conn.inputBuffer
          ∧ e'.client.consumed = e.client.consumed := by
        unfold client
        rw [heq]
        exact ⟨Session.inputBuffer_send _ _ _ _ _, rfl⟩
      rw [hclient.1, hclient.2]
      exact ⟨rfl, id⟩
  | clientWrite w =>
      obtain ⟨hs, _⟩ := single_cases (σ := .left) rfl hstep
      obtain ⟨_, heq⟩ := Session.step_handleWrite hs
      have hclient : e'.client.conn.inputBuffer = e.client.conn.inputBuffer
          ∧ e'.client.consumed = e.client.consumed := by
        unfold client
        rw [heq]
        exact ⟨Session.inputBuffer_handleWrite _ _, rfl⟩
      rw [hclient.1, hclient.2]
      exact ⟨rfl, id⟩
  | serverWrite w =>
      have hclient : e'.client = e.client := (single_cases (σ := .right) rfl hstep).2
      rw [hclient]
      exact ⟨rfl, id⟩
  | serverRead bytes mem data len w =>
      obtain ⟨_, _, _, _, _, _, hclient⟩ := serverRead_cases hstep
      rw [hclient]
      exact ⟨rfl, id⟩
  | clientRead bytes =>
      have hcontents : (afterRead e.client bytes).conn.inputBuffer.contents
          = e.client.conn.inputBuffer.contents ++ bytes := TcpConnection.contents_receive _ _
      have hcount : lineCount (e.client.conn.inputBuffer.contents ++ bytes)
          = lineCount e.client.conn.inputBuffer.contents + lineCount bytes := List.count_append
      rw [clientRead_eq hstep, takesLine]
      split
      next hline =>
        refine ⟨?_, fun _ => Or.inr ?_⟩
        · show lineCount (((afterRead e.client bytes).conn.inputBuffer.retrieve _).contents) = _
          rw [ValidBuffer.contents_retrieve, hcontents, lineCount_drop hline, hcount]
          rfl
        · show (e.client.consumed ++ _).getLast? = some newline
          rw [hcontents, List.getLast?_append]
          have hlast := getLast?_take hline
          rw [hlast]
          rfl
      next hline =>
        have hzero := List.count_eq_zero.mpr hline
        refine ⟨?_, id⟩
        rw [hcontents]
        show _ = lineCount e.client.conn.inputBuffer.contents + lineCount bytes - 1
        unfold lineCount at hcount ⊢
        omega

/-- **The lines left behind.**  In every run of the sample the client has taken
whole lines, the first ones of what it has received.  Of the rest its input
buffer holds as many complete lines as `stranded` counts: a read adds those it
brings and takes one if there is one, whether it is among them or was left by an
earlier read; no other event takes any. -/
theorem lines_stranded (link : Link) (stdin : List Byte) (events : List EchoOp) (e : Echo)
    (hnew : link.IsNew) (hrun : exec step (start link stdin) events = some e) :
    e.client.consumed ++ e.client.conn.inputBuffer.contents = e.client.received
      ∧ WholeLines e.client.consumed
      ∧ lineCount e.client.conn.inputBuffer.contents = events.foldl stranded 0 := by
  obtain ⟨h₀, _, _⟩ := settled_start hnew stdin
  have h : Settled e := exec_invariant settled_step h₀ hrun
  have hempty : (start link stdin).client.conn.inputBuffer.contents = []
      ∧ (start link stdin).client.consumed = [] := by
    obtain ⟨self, x, heq⟩ := hnew.started .left
    have hclient : (start link stdin).client = Session.started self x := heq
    rw [hclient]
    exact ⟨ValidBuffer.contents_new, rfl⟩
  have hfold : ∀ {events : List EchoOp} {e₀ : Echo}, exec step e₀ events = some e →
      lineCount e.client.conn.inputBuffer.contents
          = events.foldl stranded (lineCount e₀.client.conn.inputBuffer.contents)
        ∧ (WholeLines e₀.client.consumed → WholeLines e.client.consumed) := by
    intro events
    induction events with
    | nil =>
        intro e₀ hrun
        cases hrun
        exact ⟨rfl, id⟩
    | cons op events ih =>
        intro e₀ hrun
        obtain ⟨e₁, h1, h2⟩ := exec_cons_eq_some.mp hrun
        obtain ⟨hcount, hwhole⟩ := input_step h1
        obtain ⟨hrest, hrest'⟩ := ih h2
        rw [List.foldl_cons, ← hcount]
        exact ⟨hrest, fun hw => hrest' (hwhole hw)⟩
  obtain ⟨hcount, hwhole⟩ := hfold hrun
  refine ⟨h.joined.carried.input .left, hwhole (Or.inl hempty.2), ?_⟩
  rw [hempty.1] at hcount
  exact hcount

/-- The theorem on the run above: both lines arrive in one read, and the second
stays in the input buffer. -/
theorem lines_stranded_on_session :
    ∃ e, exec step (start Link.pair twoLines) session = some e
      ∧ e.client.consumed ++ e.client.conn.inputBuffer.contents = e.client.received
      ∧ lineCount e.client.conn.inputBuffer.contents = 1 := by
  have h : (exec step (start Link.pair twoLines) session).isSome = true := by decide +kernel
  obtain ⟨e, hrun⟩ := Option.isSome_iff_exists.mp h
  obtain ⟨hall, _, hcount⟩ := lines_stranded Link.pair twoLines session e Link.pair_isNew hrun
  exact ⟨e, hrun, hall, hcount.trans (by decide)⟩

end Echo

end SparkNet
