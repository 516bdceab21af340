/-
  SparkNet.Session — one connection and everything done to it.

  A session is a `TcpConnection` with the history of its life: the calls it
  made, the bytes given to `send`, the bytes the kernel accepted, the bytes
  `readv` returned and the bytes the message callback consumed.  `step` runs
  one public call or one event on it.  `Close` takes two steps, `close` up to
  the close callback and `closeReturn` after it, so that the calls a user makes
  from inside the callback stand between the two; the poller dispatches no
  event there.
-/
import SparkNet.Runs
import SparkNet.TcpConnection

namespace SparkNet

open Runs

/-! ## §1. The machine. -/

/-- What a session's history records. -/
inductive SessionEvent where
  | call (call : SockCall)
  | shutDownCalled
  | closeEntered
  | messageCallback
  deriving DecidableEq, Repr

/-- The bytes of a call that the kernel accepted. -/
def SockCall.acceptedBytes : SockCall → List Byte
  | .write _ bytes w => bytes.take w.result.toNat
  | _ => []

structure Session where
  conn : TcpConnection
  /-- Newest first. -/
  events : List SessionEvent
  /-- All data passed to `send`, in call order. -/
  sent : List Byte
  /-- All bytes the kernel accepted. -/
  accepted : List Byte
  /-- All bytes `readv` returned. -/
  received : List Byte
  /-- All bytes taken out by `Retrieve` and `RetrieveAll`. -/
  consumed : List Byte
  /-- `Close` calls that have not returned. -/
  closing : Nat
  /-- `Close` has been entered. -/
  closeEntered : Bool

inductive ConnOp where
  | start
  | send (mem : Memory) (data len : SizeT) (w : WriteOutcome)
  | handleWrite (w : WriteOutcome)
  | handleRead (r : ReadOutcome)
  | retrieve (len : Nat)
  | retrieveAll
  | shutDown
  | close
  | closeReturn

namespace Session

def of (conn : TcpConnection) : Session := ⟨conn, [], [], [], [], [], 0, false⟩

/-- A connection as constructed. -/
def new (self : Nat) (name : Text) (fd : Nat) (addr : InetAdress) : Session :=
  of (TcpConnection.new self name fd addr)

/-- A member function has run: its object and its calls are recorded. -/
def after (s : Session) (r : TcpConnection × List SockCall) : Session :=
  { s with
    conn := r.1
    events := (r.2.map SessionEvent.call).reverse ++ s.events
    accepted := s.accepted ++ r.2.flatMap SockCall.acceptedBytes }

/-- `Close` up to its callback. -/
def close (s : Session) : Session :=
  { { s with events := .closeEntered :: s.events }.after s.conn.closeEnter with
    closing := s.closing + 1
    closeEntered := true }

/-- One call or event. -/
def step (s : Session) : ConnOp → Option Session
  | .start => some (s.after s.conn.start)
  | .send mem data len w =>
      if w.fits len.toNat then
        some { s.after (s.conn.send mem data len w) with sent := s.sent ++ mem.read data len }
      else none
  | .handleWrite w =>
      if s.closing = 0 ∧ w.fits s.conn.outPutBuffer.readableBytes then
        some (s.after (s.conn.handleWrite w))
      else none
  | .handleRead r =>
      if s.closing = 0 ∧ r.fits s.conn.inputBuffer.writableBytes then
        match r with
        | .failed _ => some s
        | .eof => some s.close
        | .data bytes =>
            some { s with
              conn := s.conn.receive bytes
              received := s.received ++ bytes
              events := .messageCallback :: s.events }
      else none
  | .retrieve len =>
      some { s with
        conn := s.conn.retrieve len
        consumed := s.consumed ++ s.conn.inputBuffer.contents.take len }
  | .retrieveAll =>
      some { s with
        conn := s.conn.retrieveAll
        consumed := s.consumed ++ s.conn.inputBuffer.contents }
  | .shutDown =>
      some ({ s with events := .shutDownCalled :: s.events }.after s.conn.shutDown)
  | .close => some s.close
  | .closeReturn =>
      if 0 < s.closing then
        some { s with conn := s.conn.closeReturn, closing := s.closing - 1 }
      else none

/-- The bytes still queued for output. -/
def queued (s : Session) : List Byte := s.conn.outPutBuffer.contents

/-! ## §2. What each operation does to the session. -/

variable {s s' : Session}

theorem step_send {mem : Memory} {data len : SizeT} {w : WriteOutcome}
    (h : s.step (.send mem data len w) = some s') :
    w.fits len.toNat ∧
      s' = { s.after (s.conn.send mem data len w) with sent := s.sent ++ mem.read data len } := by
  simp only [step, Option.ite_none_right_eq_some, Option.some.injEq] at h
  exact ⟨h.1, h.2.symm⟩

theorem step_handleWrite {w : WriteOutcome} (h : s.step (.handleWrite w) = some s') :
    (s.closing = 0 ∧ w.fits s.conn.outPutBuffer.readableBytes)
      ∧ s' = s.after (s.conn.handleWrite w) := by
  simp only [step, Option.ite_none_right_eq_some, Option.some.injEq] at h
  exact ⟨h.1, h.2.symm⟩

/-- `HandleRead` does nothing, closes, or receives. -/
theorem step_handleRead {r : ReadOutcome} (h : s.step (.handleRead r) = some s') :
    s.closing = 0 ∧
      ((∃ errno, r = .failed errno ∧ s' = s) ∨ (r = .eof ∧ s' = s.close) ∨
        ∃ bytes, r = .data bytes ∧ s' = { s with
          conn := s.conn.receive bytes
          received := s.received ++ bytes
          events := .messageCallback :: s.events }) := by
  simp only [step, Option.ite_none_right_eq_some] at h
  obtain ⟨⟨hc, _⟩, h⟩ := h
  refine ⟨hc, ?_⟩
  -- the three branches of `HandleRead`, as `step` has them
  cases r with
  | failed errno =>
      cases h
      exact Or.inl ⟨errno, rfl, rfl⟩
  | eof =>
      cases h
      exact Or.inr (Or.inl ⟨rfl, rfl⟩)
  | data bytes =>
      cases h
      exact Or.inr (Or.inr ⟨bytes, rfl, rfl⟩)

theorem step_closeReturn (h : s.step .closeReturn = some s') :
    0 < s.closing ∧ s' = { s with conn := s.conn.closeReturn, closing := s.closing - 1 } := by
  simp only [step, Option.ite_none_right_eq_some, Option.some.injEq] at h
  exact ⟨h.1, h.2.symm⟩

end Session

end SparkNet
