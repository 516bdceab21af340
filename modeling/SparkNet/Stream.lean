/-
  SparkNet.Stream — the byte streams of a connection.

  Output: what the kernel accepted followed by what is queued is what `send`
  was given.  Every operation but one conserves this; the exception is a
  direct write that fails, after which `send` queues one byte from in front of
  the caller's data.  So the law holds throughout a run exactly when no direct
  write of the run fails.

  Input: what the message callback consumed followed by what the input buffer
  holds is what `readv` returned, in every run.
-/
import SparkNet.Session

namespace SparkNet

open Runs

namespace Session

/-! ## §1. The output stream. -/

/-- No byte lost, duplicated, reordered or invented. -/
def OutputFaithful (s : Session) : Prop := s.accepted ++ s.queued = s.sent

/-- The calls to `send` are made while the connection is CONNECTED. -/
def SendsWhileConnected (s : Session) : ConnOp → Prop
  | .send _ _ _ _ => s.conn.state = .connected
  | _ => True

/-- The direct write of a `send`, when it is made, does not return -1. -/
def DirectWriteSucceeds (s : Session) : ConnOp → Prop
  | .send _ _ _ w => s.conn.writesDirectly = true → 0 ≤ w.result
  | _ => True

/-- The errors a kernel may report without the connection being broken. -/
def NonFatal : ConnOp → Prop
  | .send _ _ _ (.failed errno) => errno = .EAGAIN ∨ errno = .EWOULDBLOCK ∨ errno = .EINTR
  | .handleWrite (.failed errno) => errno = .EAGAIN ∨ errno = .EWOULDBLOCK ∨ errno = .EINTR
  | _ => True

/-- A member function that turns the queue `q` and the bytes offered into the
accepted bytes and the new queue keeps the law. -/
theorem OutputFaithful.conserve {s : Session} (h : s.OutputFaithful)
    {r : TcpConnection × List SockCall} (offered : List Byte)
    (hcons : s.queued ++ offered
      = r.2.flatMap SockCall.acceptedBytes ++ r.1.outPutBuffer.contents) :
    { s.after r with sent := s.sent ++ offered }.OutputFaithful := by
  show (s.accepted ++ r.2.flatMap SockCall.acceptedBytes) ++ r.1.outPutBuffer.contents
      = s.sent ++ offered
  rw [List.append_assoc, ← hcons, ← List.append_assoc]
  exact congrArg (· ++ offered) h

theorem writesDirectly_contents {c : TcpConnection} (h : c.writesDirectly = true) :
    c.outPutBuffer.contents = [] := by
  simp only [TcpConnection.writesDirectly, Bool.and_eq_true, beq_iff_eq] at h
  rw [← List.length_eq_zero_iff, ValidBuffer.length_contents, h.2]

/-- `send` conserves bytes unless its direct write fails. -/
theorem send_conserves {c : TcpConnection} (hst : c.state ≠ .disConnected) {mem : Memory}
    {data len : SizeT} {w : WriteOutcome} (hfits : w.fits len.toNat)
    (hok : c.writesDirectly = true → 0 ≤ w.result) :
    c.outPutBuffer.contents ++ mem.read data len
      = (c.send mem data len w).2.flatMap SockCall.acceptedBytes
        ++ (c.send mem data len w).1.outPutBuffer.contents := by
  cases hd : c.writesDirectly with
  | true =>
      cases w with
      | failed errno => exact absurd (hok hd) (by simp [WriteOutcome.result])
      | accepted n =>
          rw [TcpConnection.send_direct hst hd, writesDirectly_contents hd,
              TcpConnection.leftover_accepted mem data len hfits]
          split
          -- all of it was written at once
          next hl => simpa [SockCall.acceptedBytes, WriteOutcome.result,
            writesDirectly_contents hd] using hl
          next => simp [SockCall.acceptedBytes, WriteOutcome.result, writesDirectly_contents hd]
  | false =>
      rw [TcpConnection.send_queued hst hd]
      split
      next hl => simp [hl]
      next => cases c.handler.isWriting <;> simp [SockCall.acceptedBytes]

/-- `HandleWrite` conserves bytes. -/
theorem handleWrite_conserves (c : TcpConnection) (w : WriteOutcome) :
    c.outPutBuffer.contents
      = (c.handleWrite w).2.flatMap SockCall.acceptedBytes
        ++ (c.handleWrite w).1.outPutBuffer.contents := by
  cases hw : c.handler.isWriting with
  | false => simp [TcpConnection.handleWrite_idle hw]
  | true =>
      cases w with
      | failed errno =>
          simp [TcpConnection.handleWrite_failed hw, SockCall.acceptedBytes, WriteOutcome.result]
      | accepted n =>
          rw [TcpConnection.handleWrite_accepted hw]
          split
          next => split <;> simp [SockCall.acceptedBytes, WriteOutcome.result]
          next => simp [SockCall.acceptedBytes, WriteOutcome.result]

/-- **One step**: the law survives every operation whose direct write succeeds. -/
theorem outputFaithful_step (s : Session) (op : ConnOp) (s' : Session) (h : s.OutputFaithful)
    (hsend : SendsWhileConnected s op) (hok : DirectWriteSucceeds s op)
    (hstep : s.step op = some s') : s'.OutputFaithful := by
  have hquiet : ∀ r : TcpConnection × List SockCall, r.1.outPutBuffer = s.conn.outPutBuffer →
      r.2.flatMap SockCall.acceptedBytes = [] →
      (s.accepted ++ r.2.flatMap SockCall.acceptedBytes) ++ r.1.outPutBuffer.contents
        = s.sent := by
    intro r h1 h2
    rw [h1, h2, List.append_nil]
    exact h
  cases op with
  | start => cases hstep; exact hquiet s.conn.start rfl rfl
  | send mem data len w =>
      obtain ⟨hfits, rfl⟩ := step_send hstep
      have hst : s.conn.state ≠ .disConnected := by
        rw [show s.conn.state = .connected from hsend]
        decide
      exact h.conserve _ (send_conserves hst hfits hok)
  | handleWrite w =>
      obtain ⟨_, rfl⟩ := step_handleWrite hstep
      have hfaith := h.conserve (r := s.conn.handleWrite w) []
        (by rw [List.append_nil]; exact handleWrite_conserves s.conn w)
      rw [List.append_nil] at hfaith
      exact hfaith
  | handleRead r =>
      obtain ⟨_, ⟨_, _, rfl⟩ | ⟨_, rfl⟩ | ⟨bytes, _, rfl⟩⟩ := step_handleRead hstep
      · exact h
      · exact hquiet s.conn.closeEnter rfl rfl
      · exact h
  | retrieve len => cases hstep; exact h
  | retrieveAll => cases hstep; exact h
  | shutDown =>
      cases hstep
      refine hquiet s.conn.shutDown (TcpConnection.outPutBuffer_shutDown _) ?_
      rw [TcpConnection.shutDown_eq]
      split
      next => split <;> rfl
      next => rfl
  | close => cases hstep; exact hquiet s.conn.closeEnter rfl rfl
  | closeReturn =>
      obtain ⟨_, rfl⟩ := step_closeReturn hstep
      exact h

/-- A failed direct write breaks the law at once: the queue gains `len + 1`
bytes (modulo 2⁶⁴) where `len` were sent. -/
theorem not_outputFaithful_step (s : Session) (op : ConnOp) (s' : Session)
    (h : s.OutputFaithful) (hsend : SendsWhileConnected s op) (hbad : ¬ DirectWriteSucceeds s op)
    (hstep : s.step op = some s') : ¬ s'.OutputFaithful := by
  cases op with
  | send mem data len w =>
      obtain ⟨_, rfl⟩ := step_send hstep
      have hst : s.conn.state ≠ .disConnected := by
        rw [show s.conn.state = .connected from hsend]
        decide
      simp only [DirectWriteSucceeds, Classical.not_imp] at hbad
      obtain ⟨hd, hneg⟩ := hbad
      cases w with
      | accepted n => exact absurd (Int.natCast_nonneg n) hneg
      | failed errno =>
          have hq : s.queued = [] := writesDirectly_contents hd
          -- the queue holds the leftover of the failed write, whatever it is
          have hafter : (s.conn.send mem data len (.failed errno)).1.outPutBuffer.contents
              = TcpConnection.leftover mem data len (.failed errno)
              ∧ (s.conn.send mem data len (.failed errno)).2.flatMap
                  SockCall.acceptedBytes = [] := by
            rw [TcpConnection.send_direct hst hd]
            split
            next hl => simp [hl, writesDirectly_contents hd, SockCall.acceptedBytes,
              WriteOutcome.result]
            next => simp [writesDirectly_contents hd, SockCall.acceptedBytes,
              WriteOutcome.result]
          intro hfaith
          have hlaw : (s.accepted ++ []) ++ TcpConnection.leftover mem data len (.failed errno)
              = s.sent ++ mem.read data len := by
            rw [← hafter.1, ← hafter.2]
            exact hfaith
          have hsent : s.accepted = s.sent := by
            have hs : s.accepted ++ s.queued = s.sent := h
            rwa [hq, List.append_nil] at hs
          rw [List.append_nil, hsent, List.append_cancel_left_eq,
              TcpConnection.leftover_failed] at hlaw
          -- the leftover has `len + 1` bytes, or none when that wraps: never `len`
          have hlen := congrArg List.length hlaw
          rw [Memory.length_read, Memory.length_read] at hlen
          bv_omega
  | _ => exact absurd trivial hbad

/-- **The output stream, exactly.**  In every run of a connection, from its
constructor, in which `send` is called while the connection is CONNECTED: after
every step the bytes the kernel accepted followed by the queued bytes are the
data passed to `send`, in call order — if and only if no direct write returns -1. -/
theorem output_stream_faithful_iff (self : Nat) (name : Text) (fd : Nat) (addr : InetAdress)
    (ops : List ConnOp) (s : Session)
    (hrun : exec step (new self name fd addr) ops = some s)
    (hsend : Along step SendsWhileConnected (new self name fd addr) ops) :
    Always step OutputFaithful (new self name fd addr) ops ↔
      Along step DirectWriteSucceeds (new self name fd addr) ops :=
  always_iff_along (fun _ h => h) outputFaithful_step not_outputFaithful_step rfl hsend hrun

/-- A caller's memory for examples: the byte at an address is the address. -/
def countingMemory : Memory := fun p => UInt8.ofNat p.toNat

/-- The theorem on a run with a partial write and a drain. -/
theorem output_stream_faithful_on_run :
    Always step OutputFaithful (new 0 [] 5 InetAdress.new)
      [.start, .send countingMemory 1 3 (.accepted 1), .handleWrite (.accepted 2)] := by
  have h : (exec step (new 0 [] 5 InetAdress.new)
      [.start, .send countingMemory 1 3 (.accepted 1), .handleWrite (.accepted 2)]).isSome
        = true := by
    decide +kernel
  obtain ⟨s, hrun⟩ := Option.isSome_iff_exists.mp h
  refine (output_stream_faithful_iff 0 [] 5 InetAdress.new _ s hrun ?_).mpr ?_
  · exact Along.cons rfl trivial (Along.cons rfl rfl ⟨trivial, fun _ _ => trivial⟩)
  · exact Along.cons rfl trivial (Along.cons rfl (fun _ => by decide)
      ⟨trivial, fun _ _ => trivial⟩)

/-- **A full socket buffer invents a byte.**  One byte is sent on a started
connection, the kernel answers EAGAIN, and two bytes are queued: the one in
front of the caller's data and the caller's own. -/
theorem eagain_invents_a_byte :
    ∃ s, exec step (new 0 [] 5 InetAdress.new)
        [.start, .send countingMemory 1 1 (.failed .EAGAIN)] = some s
      ∧ (∀ op ∈ ([.start, .send countingMemory 1 1 (.failed .EAGAIN)] : List ConnOp), NonFatal op)
      ∧ Along step SendsWhileConnected (new 0 [] 5 InetAdress.new)
          [.start, .send countingMemory 1 1 (.failed .EAGAIN)]
      ∧ s.sent = [1] ∧ s.accepted = [] ∧ s.queued = [0, 1] ∧ ¬ s.OutputFaithful := by
  have h : (exec step (new 0 [] 5 InetAdress.new)
      [.start, .send countingMemory 1 1 (.failed .EAGAIN)]).map
        (fun s => (s.sent, s.accepted, s.queued)) = some ([1], [], [0, 1]) := by
    decide +kernel
  obtain ⟨s, hrun, hs⟩ := Option.map_eq_some_iff.mp h
  simp only [Prod.mk.injEq] at hs
  obtain ⟨h1, h2, h3⟩ := hs
  refine ⟨s, hrun, by simp [NonFatal], ?_, h1, h2, h3, ?_⟩
  · exact Along.cons rfl trivial (Along.cons rfl rfl trivial)
  · rw [OutputFaithful, h1, h2, h3]
    decide

/-! ## §2. The input stream. -/

/-- Consumed bytes followed by the readable ones are the bytes received. -/
def InputFaithful (s : Session) : Prop :=
  s.consumed ++ s.conn.inputBuffer.contents = s.received

@[simp] theorem inputBuffer_send (c : TcpConnection) (mem : Memory) (data len : SizeT)
    (w : WriteOutcome) : (c.send mem data len w).1.inputBuffer = c.inputBuffer := by
  by_cases hst : c.state = .disConnected
  · rw [TcpConnection.send_disConnected hst]
  · cases hd : c.writesDirectly with
    | true =>
        rw [TcpConnection.send_direct hst hd]
        split <;> rfl
    | false =>
        rw [TcpConnection.send_queued hst hd]
        split <;> rfl

@[simp] theorem inputBuffer_handleWrite (c : TcpConnection) (w : WriteOutcome) :
    (c.handleWrite w).1.inputBuffer = c.inputBuffer := by
  cases hw : c.handler.isWriting with
  | false => rw [TcpConnection.handleWrite_idle hw]
  | true =>
      cases w with
      | failed errno => rw [TcpConnection.handleWrite_failed hw]
      | accepted n =>
          rw [TcpConnection.handleWrite_accepted hw]
          split <;> rfl

@[simp] theorem inputBuffer_shutDown (c : TcpConnection) :
    c.shutDown.1.inputBuffer = c.inputBuffer := by
  rw [TcpConnection.shutDown_eq]
  split <;> rfl

/-- **One step**: every operation keeps the input law. -/
theorem inputFaithful_step (s : Session) (op : ConnOp) (s' : Session) (h : s.InputFaithful)
    (hstep : s.step op = some s') : s'.InputFaithful := by
  have hsame : ∀ r : TcpConnection × List SockCall, r.1.inputBuffer = s.conn.inputBuffer →
      (s.after r).InputFaithful := by
    intro r hr
    show s.consumed ++ r.1.inputBuffer.contents = s.received
    rw [hr]
    exact h
  cases op with
  | start => cases hstep; exact hsame s.conn.start rfl
  | send mem data len w =>
      obtain ⟨_, rfl⟩ := step_send hstep
      exact hsame _ (inputBuffer_send _ _ _ _ _)
  | handleWrite w =>
      obtain ⟨_, rfl⟩ := step_handleWrite hstep
      exact hsame _ (inputBuffer_handleWrite _ _)
  | handleRead r =>
      obtain ⟨_, ⟨_, _, rfl⟩ | ⟨_, rfl⟩ | ⟨bytes, _, rfl⟩⟩ := step_handleRead hstep
      · exact h
      · exact h
      · show s.consumed ++ (s.conn.receive bytes).inputBuffer.contents = s.received ++ bytes
        rw [TcpConnection.contents_receive, ← List.append_assoc]
        exact congrArg (· ++ bytes) h
  | retrieve len =>
      cases hstep
      show (s.consumed ++ s.conn.inputBuffer.contents.take len)
        ++ (s.conn.inputBuffer.retrieve len).contents = s.received
      rw [ValidBuffer.contents_retrieve, List.append_assoc, List.take_append_drop]
      exact h
  | retrieveAll =>
      cases hstep
      show (s.consumed ++ s.conn.inputBuffer.contents)
        ++ s.conn.inputBuffer.retrieveAll.contents = s.received
      rw [ValidBuffer.contents_retrieveAll, List.append_nil]
      exact h
  | shutDown => cases hstep; exact hsame s.conn.shutDown (inputBuffer_shutDown _)
  | close => cases hstep; exact h
  | closeReturn =>
      obtain ⟨_, rfl⟩ := step_closeReturn hstep
      exact h

/-- **The input stream.**  In every run of a connection from its constructor:
the bytes consumed so far followed by the readable bytes of the input buffer
are the bytes `readv` returned so far, in order — in particular whenever the
message callback is called, with the bytes just read at the end — and a failed
or empty read changes nothing in the buffer. -/
theorem input_stream_faithful (self : Nat) (name : Text) (fd : Nat) (addr : InetAdress)
    (ops : List ConnOp) (s : Session)
    (hrun : exec step (new self name fd addr) ops = some s) :
    s.InputFaithful
    ∧ (∀ bytes s', s.step (.handleRead (.data bytes)) = some s' →
        s'.events.head? = some .messageCallback ∧ s'.received = s.received ++ bytes
        ∧ s'.InputFaithful)
    ∧ ∀ r s', (∀ bytes, r ≠ .data bytes) → s.step (.handleRead r) = some s' →
        s'.conn.inputBuffer = s.conn.inputBuffer := by
  have hs : s.InputFaithful := exec_invariant (I := InputFaithful) inputFaithful_step (by rfl) hrun
  refine ⟨hs, ?_, ?_⟩
  · intro bytes s' hstep
    have hs' := inputFaithful_step s _ s' hs hstep
    obtain ⟨_, ⟨_, h, _⟩ | ⟨h, _⟩ | ⟨bytes', h, rfl⟩⟩ := step_handleRead hstep
    · exact absurd h (by simp)
    · exact absurd h (by simp)
    · cases h
      exact ⟨rfl, rfl, hs'⟩
  · intro r s' hr hstep
    obtain ⟨_, ⟨_, _, rfl⟩ | ⟨_, rfl⟩ | ⟨bytes, h, _⟩⟩ := step_handleRead hstep
    · rfl
    · rfl
    · exact absurd h (hr bytes)

/-- The theorem on a run that reads three bytes and consumes one. -/
theorem input_stream_faithful_on_run :
    ∃ s, exec step (new 0 [] 5 InetAdress.new)
        [.start, .handleRead (.data [7, 8, 9]), .retrieve 1] = some s
      ∧ s.consumed = [7] ∧ s.InputFaithful := by
  have h : (exec step (new 0 [] 5 InetAdress.new)
      [.start, .handleRead (.data [7, 8, 9]), .retrieve 1]).map Session.consumed
        = some [7] := by
    decide +kernel
  obtain ⟨s, hrun, hs⟩ := Option.map_eq_some_iff.mp h
  exact ⟨s, hrun, hs, (input_stream_faithful 0 [] 5 InetAdress.new _ s hrun).1⟩

end Session

end SparkNet
