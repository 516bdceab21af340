/-
  SparkNet.Link — the two ends of one TCP connection.

  Two sessions, each a `TcpConnection` with its history, joined by the network.
  TCP is a byte stream in each direction: what an end reads is the next part of
  what the other end's kernel accepted, and it reads the end of the stream when
  nothing is in flight any more and the other end has sent its FIN, by
  `ShutdownWrite` or when `~Socket` closed its descriptor.  A descriptor that is
  closed over bytes it has not read resets the connection instead, and then the
  end of the stream is read over bytes that are lost.  The kernel accepts nothing
  from an end that has sent its FIN.  Everything else, how much is accepted and
  delivered at a time and in which order the two ends move, is open.

  Main results:
    * `Link.streams_iff` — what one end sends is what the other consumes, then its
      input buffer, the bytes in flight and the sender's queue, exactly in the
      runs whose direct writes succeed;
    * `Link.eof_after_everything` — an end that reads the end of the stream has all
      that the other end ever sent, if that was courteous and did not reset;
    * `Link.shutdown_completes` — after `ShutDown` the sender's queue empties, its
      bytes arrive, and then, with every byte consumed or buffered, the FIN;
    * `Link.processes_linked` — the same stream between two whole processes.
-/
import SparkNet.Sessions

namespace SparkNet

open Runs

/-! ## §1. The machine. -/

inductive Side where
  | left | right
  deriving DecidableEq, Repr

def Side.other : Side → Side
  | .left => .right
  | .right => .left

@[simp] theorem Side.other_other (σ : Side) : σ.other.other = σ := by
  cases σ <;> rfl

@[simp] theorem Side.other_ne (σ : Side) : σ.other ≠ σ := by
  cases σ <;> decide

theorem Side.eq_or_eq_other (σ τ : Side) : τ = σ ∨ τ = σ.other := by
  cases σ <;> cases τ <;> decide

/-- `shutdown(fd, SHUT_WR)` has been called. -/
def Session.finSent (s : Session) : Bool := s.events.any SessionEvent.isFin

structure Link where
  ends : Side → Session
  /-- `~Socket` has closed the descriptor. -/
  destroyed : Side → Bool

/-- What happens at an end: an operation on its connection, or `~Socket`. -/
inductive LinkOp where
  | call (σ : Side) (op : ConnOp)
  | destroy (σ : Side)

/-- The operation on the connection of end `σ`, if it is one. -/
def LinkOp.at? (σ : Side) : LinkOp → Option ConnOp
  | .call τ op => if τ = σ then some op else none
  | .destroy _ => none

namespace Link

/-- The bytes end `σ` has given to its kernel and the other end has not read. -/
def inFlight (l : Link) (σ : Side) : List Byte :=
  (l.ends σ).accepted.drop (l.ends σ.other).received.length

/-- The descriptor of end `σ` was closed over bytes that it has not read: its
kernel answers them with a reset. -/
def resets (l : Link) (σ : Side) : Bool := l.destroyed σ && !(l.inFlight σ.other).isEmpty

/-- What the network can deliver at end `σ`. -/
def delivers (l : Link) (σ : Side) : ConnOp → Bool
  | .handleRead (.data bytes) => bytes.isPrefixOf (l.inFlight σ.other)
  | .handleRead .eof =>
      (l.inFlight σ.other).isEmpty && ((l.ends σ.other).finSent || l.destroyed σ.other)
        -- after the error that the reset causes
        || l.resets σ.other
  | _ => true

def setEnd (l : Link) (σ : Side) (s : Session) : Link :=
  { l with ends := Function.update l.ends σ s }

/-- One operation at one end. -/
def step (l : Link) : LinkOp → Option Link
  | .call σ op =>
      if l.destroyed σ = false ∧ l.delivers σ op = true then
        ((l.ends σ).step op).bind fun s =>
          -- no write succeeds after the FIN
          if (l.ends σ).finSent = true → s.accepted = (l.ends σ).accepted then
            some (l.setEnd σ s)
          else none
      else none
  | .destroy σ =>
      if l.destroyed σ = true then none
      else some { l with destroyed := Function.update l.destroyed σ true }

/-- Two connections just made and started. -/
structure IsNew (l : Link) : Prop where
  started : ∀ σ, ∃ self x, l.ends σ = Session.started self x
  alive : ∀ σ, l.destroyed σ = false

@[simp] theorem ends_setEnd (l : Link) (σ : Side) (s : Session) : (l.setEnd σ s).ends σ = s := by
  simp [setEnd]

@[simp] theorem ends_setEnd_other (l : Link) (σ : Side) (s : Session) :
    (l.setEnd σ s).ends σ.other = l.ends σ.other := by
  simp [setEnd]

/-- What an operation is. -/
theorem step_call {l l' : Link} {σ : Side} {op : ConnOp} (h : l.step (.call σ op) = some l') :
    l.delivers σ op = true ∧ ∃ s, (l.ends σ).step op = some s
      ∧ ((l.ends σ).finSent = true → s.accepted = (l.ends σ).accepted) ∧ l' = l.setEnd σ s := by
  simp only [step, Option.ite_none_right_eq_some] at h
  obtain ⟨⟨_, hdel⟩, h⟩ := h
  obtain ⟨s, hstep, h⟩ := Option.bind_eq_some_iff.mp h
  rw [Option.ite_none_right_eq_some] at h
  obtain ⟨hfin, h⟩ := h
  exact ⟨hdel, s, hstep, hfin, (Option.some.inj h).symm⟩

/-- No operation is made at an end that is destroyed. -/
theorem alive_of_call {l l' : Link} {σ : Side} {op : ConnOp} (h : l.step (.call σ op) = some l') :
    l.destroyed σ = false := by
  simp only [step, Option.ite_none_right_eq_some] at h
  exact h.1.1

/-- `~Socket` leaves both sessions as they are. -/
theorem step_destroy {l l' : Link} {σ : Side} (h : l.step (.destroy σ) = some l') :
    l' = { l with destroyed := Function.update l.destroyed σ true } := by
  simp only [step, Option.ite_none_left_eq_some, Option.some.injEq] at h
  exact h.2.symm

/-! ## §2. What arrives is what was accepted. -/

/-- An operation adds to the streams. -/
theorem growth {s s' : Session} {op : ConnOp} (h : s.step op = some s') :
    s'.received = s.received ++ op.readBytes ∧ s'.sent = s.sent ++ op.given
      ∧ s.accepted <+: s'.accepted := by
  have hafter : ∀ r : TcpConnection × List SockCall, s.accepted <+: (s.after r).accepted :=
    fun r => List.prefix_append _ _
  have hnil : ∀ l : List Byte, l = l ++ [] := fun l => (List.append_nil l).symm
  cases op with
  | start =>
      cases h
      exact ⟨hnil _, hnil _, hafter _⟩
  | send mem data len w =>
      obtain ⟨_, rfl⟩ := Session.step_send h
      exact ⟨hnil _, rfl, hafter _⟩
  | handleWrite w =>
      obtain ⟨_, rfl⟩ := Session.step_handleWrite h
      exact ⟨hnil _, hnil _, hafter _⟩
  | handleRead r =>
      obtain ⟨_, ⟨_, rfl, rfl⟩ | ⟨rfl, rfl⟩ | ⟨bytes, rfl, rfl⟩⟩ := Session.step_handleRead h
      · exact ⟨hnil _, hnil _, List.prefix_refl _⟩
      · exact ⟨hnil _, hnil _, hafter _⟩
      · exact ⟨rfl, hnil _, List.prefix_refl _⟩
  | retrieve len =>
      cases h
      exact ⟨hnil _, hnil _, List.prefix_refl _⟩
  | retrieveAll =>
      cases h
      exact ⟨hnil _, hnil _, List.prefix_refl _⟩
  | shutDown =>
      cases h
      exact ⟨hnil _, hnil _, hafter _⟩
  | close =>
      cases h
      exact ⟨hnil _, hnil _, hafter _⟩
  | closeReturn =>
      obtain ⟨_, rfl⟩ := Session.step_closeReturn h
      exact ⟨hnil _, hnil _, List.prefix_refl _⟩

/-- Nothing is read that was not accepted, and in the same order. -/
def Delivers (l : Link) : Prop := ∀ σ : Side, (l.ends σ.other).received <+: (l.ends σ).accepted

/-- Then the bytes accepted are those read and those in flight. -/
theorem Delivers.accepted {l : Link} (h : l.Delivers) (σ : Side) :
    (l.ends σ.other).received ++ l.inFlight σ = (l.ends σ).accepted := by
  obtain ⟨rest, hrest⟩ := h σ
  rw [inFlight, ← hrest, List.drop_left]

theorem delivers_step (l : Link) (a : LinkOp) (l' : Link) (h : l.Delivers)
    (hstep : l.step a = some l') : l'.Delivers := by
  cases a with
  | destroy σ =>
      rw [step_destroy hstep]
      exact h
  | call σ op =>
      obtain ⟨hdel, s, hs, _, rfl⟩ := step_call hstep
      obtain ⟨hreceived, _, haccepted⟩ := growth hs
      intro τ
      rcases Side.eq_or_eq_other σ τ with rfl | rfl
      · -- what this end's kernel accepted only grows
        rw [ends_setEnd, ends_setEnd_other]
        exact (h τ).trans haccepted
      · -- what this end reads is next in the other's stream
        rw [ends_setEnd_other, Side.other_other, ends_setEnd, hreceived]
        have hflight := h.accepted σ.other
        rw [Side.other_other] at hflight
        rw [← hflight, List.prefix_append_right_inj]
        cases op with
        | handleRead r =>
            cases r with
            | data bytes => exact List.isPrefixOf_iff_prefix.mp hdel
            | _ => exact List.nil_prefix
        | _ => exact List.nil_prefix

/-! ## §3. The streams. -/

/-- In each direction: the bytes consumed, those in the input buffer, those in
flight and those queued are the bytes sent, in this order. -/
def Faithful (l : Link) : Prop := ∀ σ : Side,
  (l.ends σ.other).consumed ++ (l.ends σ.other).conn.inputBuffer.contents
    ++ l.inFlight σ ++ (l.ends σ).queued = (l.ends σ).sent

/-- What holds whether or not a direct write fails. -/
structure Carried (l : Link) : Prop where
  delivers : l.Delivers
  input : ∀ σ, (l.ends σ).InputFaithful
  /-- Each end has the right mask until it is closed. -/
  masks : ∀ σ, (l.ends σ).Open
  /-- No `Close` waits that was not entered. -/
  idle : ∀ σ, (l.ends σ).closeEntered = false → (l.ends σ).closing = 0

/-- `Close` is entered before it waits. -/
theorem idle_step {s s' : Session} {op : ConnOp} (h : s.closeEntered = false → s.closing = 0)
    (hstep : s.step op = some s') : s'.closeEntered = false → s'.closing = 0 := by
  have hclose : s.close.closeEntered = false → s.close.closing = 0 := fun hopen =>
    absurd hopen (by simp [Session.close])
  cases op with
  | send mem data len w =>
      obtain ⟨_, rfl⟩ := Session.step_send hstep
      exact h
  | handleWrite w =>
      obtain ⟨_, rfl⟩ := Session.step_handleWrite hstep
      exact h
  | handleRead r =>
      obtain ⟨_, ⟨_, _, rfl⟩ | ⟨_, rfl⟩ | ⟨_, _, rfl⟩⟩ := Session.step_handleRead hstep
      · exact h
      · exact hclose
      · exact h
  | close =>
      cases hstep
      exact hclose
  | closeReturn =>
      obtain ⟨_, rfl⟩ := Session.step_closeReturn hstep
      intro hopen
      show s.closing - 1 = 0
      rw [h hopen]
  | _ =>
      cases hstep
      exact h

theorem carried_step (l : Link) (a : LinkOp) (l' : Link) (h : l.Carried)
    (hstep : l.step a = some l') : l'.Carried := by
  have hdelivers := delivers_step l a l' h.delivers hstep
  cases a with
  | destroy σ =>
      obtain rfl := step_destroy hstep
      exact ⟨hdelivers, h.input, h.masks, h.idle⟩
  | call σ op =>
      obtain ⟨_, s, hs, _, rfl⟩ := step_call hstep
      refine ⟨hdelivers, fun τ => ?_, fun τ => ?_, fun τ => ?_⟩ <;>
        rcases Side.eq_or_eq_other σ τ with rfl | rfl
      · rw [ends_setEnd]
        exact Session.inputFaithful_step _ op s (h.input τ) hs
      · rw [ends_setEnd_other]
        exact h.input _
      · rw [ends_setEnd]
        exact Session.open_step _ op s (h.masks τ) hs
      · rw [ends_setEnd_other]
        exact h.masks _
      · rw [ends_setEnd]
        exact idle_step (h.idle τ) hs
      · rw [ends_setEnd_other]
        exact h.idle _

/-- Both directions are the two output laws. -/
theorem Carried.faithful_iff {l : Link} (h : l.Carried) :
    l.Faithful ↔ ∀ σ, (l.ends σ).OutputFaithful := by
  have hlaw : ∀ σ : Side, (l.ends σ.other).consumed ++ (l.ends σ.other).conn.inputBuffer.contents
      ++ l.inFlight σ = (l.ends σ).accepted := by
    intro σ
    rw [show (l.ends σ.other).consumed ++ (l.ends σ.other).conn.inputBuffer.contents
      = (l.ends σ.other).received from h.input σ.other]
    exact h.delivers.accepted σ
  constructor
  · intro hf σ
    have hσ := hf σ
    rw [hlaw σ] at hσ
    exact hσ
  · intro ho σ
    rw [hlaw σ]
    exact ho σ

theorem IsNew.carried {l : Link} (h : l.IsNew) : l.Carried := by
  constructor
  · intro σ
    obtain ⟨self, x, heq⟩ := h.started σ.other
    rw [heq]
    exact List.nil_prefix
  · intro σ
    obtain ⟨self, x, heq⟩ := h.started σ
    rw [heq]
    rfl
  · intro σ
    obtain ⟨self, x, heq⟩ := h.started σ
    rw [heq]
    exact open_started (x := x.asMade self) rfl ValidBuffer.contents_new rfl
  · intro σ _
    obtain ⟨self, x, heq⟩ := h.started σ
    rw [heq]
    rfl

theorem IsNew.outputFaithful {l : Link} (h : l.IsNew) (σ : Side) : (l.ends σ).OutputFaithful := by
  obtain ⟨self, x, heq⟩ := h.started σ
  rw [heq]
  rfl

/-- A condition on the operations of both ends. -/
def Each (C : Session → ConnOp → Prop) (l : Link) : LinkOp → Prop
  | .call σ op => C (l.ends σ) op
  | .destroy _ => True

instance (C : Session → ConnOp → Prop) [∀ s op, Decidable (C s op)] (l : Link) (a : LinkOp) :
    Decidable (Each C l a) :=
  match a with
  | .call σ op => inferInstanceAs (Decidable (C (l.ends σ) op))
  | .destroy _ => isTrue trivial

/-- **The two streams, exactly.**  Two connections are started at the two ends of
the network and used in any way, in any order; data is sent while the sender is
CONNECTED.  Throughout the run, in each direction, what the receiver has taken
out of its input buffer, what is still in it, what is in flight and what the
sender has queued make up what was sent — if and only if no direct write of the
run returns -1. -/
theorem streams_iff (l₀ : Link) (ops : List LinkOp) (l : Link) (hnew : l₀.IsNew)
    (hrun : exec step l₀ ops = some l)
    (hsend : Along step (Each Session.SendsWhileConnected) l₀ ops) :
    Always step Faithful l₀ ops ↔ Along step (Each Session.DirectWriteSucceeds) l₀ ops := by
  refine always_iff_along (I := fun l => l.Carried ∧ ∀ σ, (l.ends σ).OutputFaithful)
    (fun l h => h.1.faithful_iff.mpr h.2) ?_ ?_ ⟨hnew.carried, hnew.outputFaithful⟩ hsend hrun
  · intro l a l' ⟨hcarried, hout⟩ hconnected hok hstep
    refine ⟨carried_step l a l' hcarried hstep, fun τ => ?_⟩
    cases a with
    | destroy σ =>
        rw [step_destroy hstep]
        exact hout τ
    | call σ op =>
        obtain ⟨_, s, hs, _, rfl⟩ := step_call hstep
        rcases Side.eq_or_eq_other σ τ with rfl | rfl
        · rw [ends_setEnd]
          exact Session.outputFaithful_step _ op s (hout τ) hconnected hok hs
        · rw [ends_setEnd_other]
          exact hout _
  · intro l a l' ⟨hcarried, hout⟩ hconnected hbad hstep hfaithful
    have hout' := (carried_step l a l' hcarried hstep).faithful_iff.mp hfaithful
    cases a with
    | destroy σ => exact hbad trivial
    | call σ op =>
        obtain ⟨_, s, hs, _, rfl⟩ := step_call hstep
        -- the end that took the step has lost its output law
        refine Session.not_outputFaithful_step _ op s (hout σ) hconnected hbad hs ?_
        have h := hout' σ
        rwa [ends_setEnd] at h

instance (s : Session) (op : ConnOp) : Decidable (s.SendsWhileConnected op) :=
  match op with
  | .send .. => inferInstanceAs (Decidable (s.conn.state = .connected))
  | .start | .handleWrite _ | .handleRead _ | .retrieve _ | .retrieveAll | .shutDown | .close
  | .closeReturn => isTrue trivial

instance (s : Session) (op : ConnOp) : Decidable (s.DirectWriteSucceeds op) :=
  match op with
  | .send _ _ _ w => inferInstanceAs (Decidable (s.conn.writesDirectly = true → 0 ≤ w.result))
  | .start | .handleWrite _ | .handleRead _ | .retrieve _ | .retrieveAll | .shutDown | .close
  | .closeReturn => isTrue trivial

/-- Two ends for examples. -/
def pair : Link where
  ends
    | .left => Session.startedNew 0 [] 5 InetAdress.new
    | .right => Session.startedNew 1 [] 6 InetAdress.new
  destroyed _ := false

theorem pair_isNew : pair.IsNew where
  started
    | .left => ⟨0, TcpConnection.new 0 [] 5 InetAdress.new, rfl⟩
    | .right => ⟨1, TcpConnection.new 1 [] 6 InetAdress.new, rfl⟩
  alive _ := rfl

/-- Left sends three bytes in two writes and shuts down; right sends one meanwhile
and consumes two. -/
def exchange : List LinkOp :=
  [.call .left (.send Session.countingMemory 1 3 (.accepted 1)),
   .call .right (.handleRead (.data [1])), .call .left .shutDown,
   .call .right (.send Session.countingMemory 8 1 (.accepted 1)),
   .call .left (.handleWrite (.accepted 2)), .call .right (.handleRead (.data [2, 3])),
   .call .right (.retrieve 2)]

/-- The theorem on that run. -/
theorem streams_on_exchange :
    (exec step pair exchange).isSome = true ∧ Always step Faithful pair exchange := by
  have h : (exec step pair exchange).isSome = true := by decide +kernel
  obtain ⟨l, hrun⟩ := Option.isSome_iff_exists.mp h
  exact ⟨h, (streams_iff pair exchange l pair_isNew hrun (by decide +kernel)).mpr
    (by decide +kernel)⟩

/-! ## §4. The half-close. -/

/-- End `σ` sends data while it is CONNECTED and its direct writes succeed;
`ShutDown` is not called in the close callback over a queue that `Close` has
stopped draining.  `Start` has run. -/
def Courteous (s : Session) : ConnOp → Prop
  | .start => False
  | .send _ _ _ w => s.conn.state = .connected ∧ (s.conn.writesDirectly = true → 0 ≤ w.result)
  | .shutDown => s.closeEntered = true → s.conn.state = .connected →
      s.conn.handler.isWriting = true ∨ s.queued = []
  | _ => True

instance (s : Session) (op : ConnOp) : Decidable (Courteous s op) :=
  match op with
  | .start => isFalse id
  | .send _ _ _ w => inferInstanceAs
      (Decidable (s.conn.state = .connected ∧ (s.conn.writesDirectly = true → 0 ≤ w.result)))
  | .shutDown => inferInstanceAs (Decidable (s.closeEntered = true → s.conn.state = .connected →
      s.conn.handler.isWriting = true ∨ s.queued = []))
  | .handleWrite _ | .handleRead _ | .retrieve _ | .retrieveAll | .close
  | .closeReturn => isTrue trivial

/-- What the FIN of an end means. -/
structure Finishing (s : Session) : Prop where
  inv : Session.ShutdownInv s
  output : s.OutputFaithful
  /-- It is sent over an empty queue, and nothing is queued after it. -/
  drained : s.finSent = true → s.queued = []
  /-- After `ShutDown` it is sent as soon as nothing is queued. -/
  sent : s.conn.state = .disConnecting → s.closeEntered = false →
    s.conn.handler.isWriting = false → s.finSent = true

theorem finSent_after (s : Session) (r : TcpConnection × List SockCall) :
    (s.after r).finSent
      = ((r.2.any fun call => SessionEvent.isFin (.call call)) || s.finSent) := by
  unfold Session.finSent
  show ((r.2.map SessionEvent.call).reverse ++ s.events).any _ = _
  rw [List.any_append, List.any_reverse, List.any_map]
  rfl

/-- Before `ShutDown` there is no FIN. -/
theorem finSent_of_connected {s : Session} (h : Session.ShutdownInv s)
    (hst : s.conn.state = .connected) : s.finSent = false := by
  rw [Session.finSent, List.any_eq_false]
  intro e he
  simp [(h.fresh hst).2 e he]

/-- Nor while bytes wait to be written. -/
theorem finSent_of_isWriting {s : Session} (h : Session.ShutdownInv s)
    (hw : s.conn.handler.isWriting = true) : s.finSent = false := by
  rw [Bool.eq_false_iff]
  intro hfin
  obtain ⟨e, he, hf⟩ := List.any_eq_true.mp hfin
  exact absurd (h.finished e he hf) (by simp [hw])

theorem Finishing.handleWrite {s : Session} (h : Finishing s) {w : WriteOutcome}
    (hinv : Session.ShutdownInv (s.after (s.conn.handleWrite w)))
    (hout : (s.after (s.conn.handleWrite w)).OutputFaithful) :
    Finishing (s.after (s.conn.handleWrite w)) := by
  refine ⟨hinv, hout, ?_, ?_⟩ <;> rw [finSent_after]
  · intro hfin
    cases hw : s.conn.handler.isWriting with
    | false =>
        rw [TcpConnection.handleWrite_idle hw] at hfin ⊢
        exact h.drained (by simpa using hfin)
    | true =>
        have hno := finSent_of_isWriting h.inv hw
        cases w with
        | failed errno =>
            rw [TcpConnection.handleWrite_failed hw, hno] at hfin
            exact absurd hfin (by simp [SessionEvent.isFin])
        | accepted n =>
            rw [TcpConnection.handleWrite_accepted hw, hno] at hfin
            show (s.conn.handleWrite (.accepted n)).1.outPutBuffer.contents = []
            rw [TcpConnection.handleWrite_accepted hw]
            split
            next hl => simpa using hl
            next hl => exact absurd hfin (by simp [hl, SessionEvent.isFin])
  · intro hst hopen hidle
    cases hw : s.conn.handler.isWriting with
    | false =>
        have hsame : s.after (s.conn.handleWrite w) = s.after (s.conn, []) := by
          rw [TcpConnection.handleWrite_idle hw]
        rw [hsame] at hst
        rw [h.sent hst hopen hw, Bool.or_true]
    | true =>
        have hmask : (s.conn.handleWrite w).1.handler.isWriting = false := hidle
        have hstate : (s.conn.handleWrite w).1.state = .disConnecting := hst
        cases w with
        | failed errno =>
            rw [TcpConnection.handleWrite_failed hw] at hmask
            exact absurd (hw.symm.trans hmask) (by decide)
        | accepted n =>
            rw [TcpConnection.handleWrite_accepted hw] at hmask hstate ⊢
            split at hmask
            next hl =>
              rw [if_pos hl] at hstate ⊢
              have hdis : s.conn.state = .disConnecting := hstate
              simp [hdis, SessionEvent.isFin]
            next => exact absurd (hw.symm.trans hmask) (by decide)

theorem Finishing.shutDown {s : Session} (h : Finishing s) (hC : Courteous s .shutDown)
    (hinv : Session.ShutdownInv
      ({ s with events := .shutDownCalled :: s.events }.after s.conn.shutDown))
    (hout : ({ s with events := .shutDownCalled :: s.events }.after
      s.conn.shutDown).OutputFaithful) :
    Finishing ({ s with events := .shutDownCalled :: s.events }.after s.conn.shutDown) := by
  have hcalled : Session.finSent { s with events := .shutDownCalled :: s.events } = s.finSent := rfl
  refine ⟨hinv, hout, ?_, ?_⟩ <;> rw [finSent_after, hcalled]
  · intro hfin
    show s.conn.shutDown.1.outPutBuffer.contents = []
    rw [TcpConnection.outPutBuffer_shutDown]
    by_cases hst : s.conn.state = .connected
    · cases hw : s.conn.handler.isWriting with
      | true =>
          rw [TcpConnection.shutDown_eq, if_pos hst, hw, finSent_of_connected h.inv hst] at hfin
          exact absurd hfin (by simp)
      | false =>
          cases hopen : s.closeEntered with
          | true => exact (hC hopen hst).resolve_left (by simp [hw])
          | false =>
              have htracks := h.inv.tracks hopen
              by_contra hq
              exact absurd (htracks.mpr hq) (by simp [hw])
    · rw [TcpConnection.shutDown_eq, if_neg hst] at hfin
      exact h.drained (by simpa using hfin)
  · intro hst hopen hidle
    have hmask : s.conn.handler.isWriting = false := by
      rw [← TcpConnection.handler_shutDown]
      exact hidle
    by_cases hconn : s.conn.state = .connected
    · rw [TcpConnection.shutDown_eq, if_pos hconn, hmask]
      simp [SessionEvent.isFin]
    · have hstate : s.conn.shutDown.1.state = .disConnecting := hst
      rw [TcpConnection.shutDown_eq, if_neg hconn] at hstate
      rw [h.sent hstate hopen hmask, Bool.or_true]

/-- **One step** of a courteous end. -/
theorem finishing_step (s : Session) (op : ConnOp) (s' : Session) (h : Finishing s)
    (hC : Courteous s op) (hstep : s.step op = some s') : Finishing s' := by
  have hinv : Session.ShutdownInv s' := by
    refine Session.shutdownInv_step s op s' h.inv ?_ ?_ hstep
    · rintro rfl
      exact hC
    · cases op with
      | send mem data len w =>
          intro hd
          exact absurd (hC.1.symm.trans hd) (by decide)
      | shutDown => exact hC
      | _ => exact trivial
  have hout : s'.OutputFaithful := by
    refine Session.outputFaithful_step s op s' h.output ?_ ?_ hstep
    · cases op with
      | send mem data len w => exact hC.1
      | _ => exact trivial
    · cases op with
      | send mem data len w => exact hC.2
      | _ => exact trivial
  have hclose : Session.ShutdownInv s.close → s.close.OutputFaithful → Finishing s.close :=
    fun hinv hout => ⟨hinv, hout, h.drained, fun _ hopen => absurd hopen (by simp [Session.close])⟩
  cases op with
  | start => exact absurd hC id
  | send mem data len w =>
      obtain ⟨_, rfl⟩ := Session.step_send hstep
      have hst : (s.conn.send mem data len w).1.state = .connected :=
        (TcpConnection.state_send _ _ _ _ _).trans hC.1
      refine ⟨hinv, hout, fun hfin => ?_, fun hd => absurd (hst.symm.trans hd) (by decide)⟩
      exact absurd (finSent_of_connected hinv hst) (by simp [hfin])
  | handleWrite w =>
      obtain ⟨_, rfl⟩ := Session.step_handleWrite hstep
      exact h.handleWrite hinv hout
  | handleRead r =>
      obtain ⟨_, ⟨_, _, rfl⟩ | ⟨_, rfl⟩ | ⟨bytes, _, rfl⟩⟩ := Session.step_handleRead hstep
      · exact h
      · exact hclose hinv hout
      · exact ⟨hinv, hout, h.drained, h.sent⟩
  | retrieve len =>
      cases hstep
      exact ⟨hinv, hout, h.drained, h.sent⟩
  | retrieveAll =>
      cases hstep
      exact ⟨hinv, hout, h.drained, h.sent⟩
  | shutDown =>
      cases hstep
      exact h.shutDown hC hinv hout
  | close =>
      cases hstep
      exact hclose hinv hout
  | closeReturn =>
      obtain ⟨_, rfl⟩ := Session.step_closeReturn hstep
      exact ⟨hinv, hout, h.drained, fun hd => absurd hd (by simp [TcpConnection.closeReturn])⟩

theorem finishing_started (self : Nat) (x : TcpConnection) :
    Finishing (Session.started self x) where
  inv := {
    order := ⟨Nat.zero_le _, by simp [Session.started, Session.of, Session.after,
      TcpConnection.start], List.pairwise_singleton _ _, List.pairwise_singleton _ _⟩
    tracks := Session.tracksOutput_step (Session.of (x.asMade self)) .start _
      (fun _ => Session.tracksOutput_new self x.name x.handler.fd x.addr) rfl
    started := by simp [Session.started, Session.after, TcpConnection.start]
    fresh := by simp [Session.started, Session.of, Session.after, TcpConnection.start,
      SessionEvent.isFin]
    called := by simp [Session.started, Session.after, TcpConnection.start]
    finished := by simp [Session.started, Session.of, Session.after, TcpConnection.start,
      SessionEvent.isFin] }
  output := rfl
  drained := fun _ => rfl
  sent := fun hd => absurd hd (by simp [Session.started, Session.after, TcpConnection.start])

/-- End `σ` is courteous, and its descriptor is not closed over queued output. -/
def CourteousAt (σ : Side) (l : Link) : LinkOp → Prop
  | .call τ op => τ = σ → Courteous (l.ends σ) op
  | .destroy τ => τ = σ → (l.ends σ).queued = []

instance (σ : Side) (l : Link) (a : LinkOp) : Decidable (CourteousAt σ l a) :=
  match a with
  | .call τ op => inferInstanceAs (Decidable (τ = σ → Courteous (l.ends σ) op))
  | .destroy τ => inferInstanceAs (Decidable (τ = σ → (l.ends σ).queued = []))

/-- What a courteous end keeps, with the network. -/
structure Halving (σ : Side) (l : Link) : Prop where
  carried : l.Carried
  finishing : Finishing (l.ends σ)
  emptied : l.destroyed σ = true → (l.ends σ).queued = []

theorem halving_step {σ : Side} (l : Link) (a : LinkOp) (l' : Link) (h : Halving σ l)
    (hC : CourteousAt σ l a) (hstep : l.step a = some l') : Halving σ l' := by
  have hcarried := carried_step l a l' h.carried hstep
  cases a with
  | destroy τ =>
      obtain rfl := step_destroy hstep
      refine ⟨hcarried, h.finishing, fun hgone => ?_⟩
      by_cases hτ : τ = σ
      · exact hC hτ
      · refine h.emptied ?_
        have hne : σ ≠ τ := fun heq => hτ heq.symm
        simpa [Function.update_of_ne hne] using hgone
  | call τ op =>
      have halive := alive_of_call hstep
      obtain ⟨_, s, hs, _, rfl⟩ := step_call hstep
      refine ⟨hcarried, ?_, ?_⟩ <;> rcases Side.eq_or_eq_other τ σ with rfl | rfl
      · rw [ends_setEnd]
        exact finishing_step _ op s h.finishing (hC rfl) hs
      · rw [ends_setEnd_other]
        exact h.finishing
      · exact fun hgone => absurd (halive.symm.trans hgone) (by decide)
      · rw [ends_setEnd_other]
        exact h.emptied

theorem IsNew.halving {l : Link} (h : l.IsNew) (σ : Side) : Halving σ l := by
  refine ⟨h.carried, ?_, fun hgone => absurd ((h.alive σ).symm.trans hgone) (by decide)⟩
  obtain ⟨self, x, heq⟩ := h.started σ
  rw [heq]
  exact finishing_started self x

/-- Once the FIN is out, sent by either call, and nothing is in flight, the other
end has everything. -/
theorem Halving.arrived {l : Link} {σ : Side} (h : Halving σ l)
    (hfin : (l.ends σ).finSent = true ∨ l.destroyed σ = true) (hflight : l.inFlight σ = []) :
    (l.ends σ.other).consumed ++ (l.ends σ.other).conn.inputBuffer.contents
      = (l.ends σ).sent := by
  have hin : (l.ends σ.other).consumed ++ (l.ends σ.other).conn.inputBuffer.contents
      = (l.ends σ.other).received := h.carried.input σ.other
  have hout : (l.ends σ).accepted ++ (l.ends σ).queued = (l.ends σ).sent := h.finishing.output
  have hnet := h.carried.delivers.accepted σ
  have hqueue : (l.ends σ).queued = [] := hfin.elim h.finishing.drained h.emptied
  rw [hflight, List.append_nil] at hnet
  rw [hin, hnet, ← hout, hqueue, List.append_nil]

/-- How much is left to do for the bytes of end `σ`: a queued byte is written and
read, one in flight is read. -/
def pending (l : Link) (σ : Side) : Nat :=
  2 * (l.ends σ).queued.length + (l.inFlight σ).length

/-- The step brings bytes of end `σ` further. -/
def carries (l : Link) (σ : Side) : LinkOp → Bool
  | .call τ (.handleWrite (.accepted n)) =>
      decide (τ = σ) && (l.ends σ).conn.handler.isWriting && decide (0 < n)
  | .call τ (.handleRead (.data _)) => decide (τ = σ.other)
  | _ => false

/-- How many steps of a run do. -/
def deliveries (σ : Side) : Link → List LinkOp → Nat
  | _, [] => 0
  | l, a :: as =>
      match l.step a with
      | some l' => (if l.carries σ a then 1 else 0) + deliveries σ l' as
      | none => 0

theorem accepted_handleWrite {s : Session} (hw : s.conn.handler.isWriting = true) (n : Nat) :
    (s.after (s.conn.handleWrite (.accepted n))).accepted = s.accepted ++ s.queued.take n := by
  show s.accepted ++ _ = _
  rw [TcpConnection.handleWrite_accepted hw]
  split
  next => split <;> simp [SockCall.acceptedBytes, WriteOutcome.result, Session.queued]
  next => simp [SockCall.acceptedBytes, WriteOutcome.result, Session.queued]

theorem state_handleWrite (c : TcpConnection) (w : WriteOutcome) :
    (c.handleWrite w).1.state = c.state := by
  cases hw : c.handler.isWriting with
  | false => rw [TcpConnection.handleWrite_idle hw]
  | true =>
      cases w with
      | failed errno => rw [TcpConnection.handleWrite_failed hw]
      | accepted n =>
          rw [TcpConnection.handleWrite_accepted hw]
          split <;> rfl

/-- The state never goes back to CONNECTED. -/
theorem state_step {s s' : Session} {op : ConnOp} (h : s.step op = some s')
    (hop : op ≠ .start) (hst : s.conn.state ≠ .connected) : s'.conn.state ≠ .connected := by
  cases op with
  | start => exact absurd rfl hop
  | send mem data len w =>
      obtain ⟨_, rfl⟩ := Session.step_send h
      show (s.conn.send mem data len w).1.state ≠ _
      rwa [TcpConnection.state_send]
  | handleWrite w =>
      obtain ⟨_, rfl⟩ := Session.step_handleWrite h
      show (s.conn.handleWrite w).1.state ≠ _
      rwa [state_handleWrite]
  | handleRead r =>
      obtain ⟨_, ⟨_, _, rfl⟩ | ⟨_, rfl⟩ | ⟨bytes, _, rfl⟩⟩ := Session.step_handleRead h
      all_goals exact hst
  | retrieve len =>
      cases h
      exact hst
  | retrieveAll =>
      cases h
      exact hst
  | shutDown =>
      cases h
      show s.conn.shutDown.1.state ≠ _
      rw [TcpConnection.shutDown_eq, if_neg hst]
      exact hst
  | close =>
      cases h
      exact hst
  | closeReturn =>
      obtain ⟨_, rfl⟩ := Session.step_closeReturn h
      simp [TcpConnection.closeReturn]

/-- What a step does to the bytes of an end that sends nothing: `d` of them move
from the queue into the network, `r` out of it. -/
theorem pending_step {l l' : Link} {σ : Side} {a : LinkOp} (h : Halving σ l)
    (h' : Halving σ l') (hstep : l.step a = some l')
    (hsent : (l'.ends σ).sent = (l.ends σ).sent) :
    ∃ d r, (l'.ends σ).accepted = (l.ends σ).accepted ++ d
      ∧ (l'.ends σ.other).received = (l.ends σ.other).received ++ r
      ∧ l'.pending σ + d.length + r.length = l.pending σ := by
  have hmoves : ∃ d r, (l'.ends σ).accepted = (l.ends σ).accepted ++ d
      ∧ (l'.ends σ.other).received = (l.ends σ.other).received ++ r := by
    cases a with
    | destroy τ =>
        rw [step_destroy hstep]
        exact ⟨[], [], (List.append_nil _).symm, (List.append_nil _).symm⟩
    | call τ op =>
        obtain ⟨_, s, hs, _, rfl⟩ := step_call hstep
        obtain ⟨hreceived, _, d, hd⟩ := growth hs
        rcases Side.eq_or_eq_other τ σ with rfl | rfl
        · rw [ends_setEnd, ends_setEnd_other]
          exact ⟨d, [], hd.symm, (List.append_nil _).symm⟩
        · rw [ends_setEnd_other, Side.other_other, ends_setEnd]
          exact ⟨[], _, (List.append_nil _).symm, hreceived⟩
  obtain ⟨d, r, hd, hr⟩ := hmoves
  refine ⟨d, r, hd, hr, ?_⟩
  -- what is sent, and what has been accepted, is the same sum before and after
  have hqueue := congrArg List.length h.finishing.output
  have hqueue' := congrArg List.length h'.finishing.output
  have hflight := congrArg List.length (h.carried.delivers.accepted σ)
  have hflight' := congrArg List.length (h'.carried.delivers.accepted σ)
  simp only [List.length_append, hd, hr, hsent] at hqueue hqueue' hflight hflight'
  unfold pending
  omega

/-- An end that is past CONNECTED and courteous sends nothing. -/
theorem sent_step {l l' : Link} {σ : Side} {a : LinkOp} (hC : CourteousAt σ l a)
    (hst : (l.ends σ).conn.state ≠ .connected) (hstep : l.step a = some l') :
    (l'.ends σ).sent = (l.ends σ).sent ∧ (l'.ends σ).conn.state ≠ .connected := by
  cases a with
  | destroy τ =>
      rw [step_destroy hstep]
      exact ⟨rfl, hst⟩
  | call τ op =>
      obtain ⟨_, s, hs, _, rfl⟩ := step_call hstep
      rcases Side.eq_or_eq_other τ σ with rfl | rfl
      · rw [ends_setEnd]
        have hcourt : Courteous (l.ends σ) op := hC rfl
        have hop : op ≠ .start := by
          rintro rfl
          exact hcourt
        refine ⟨?_, state_step hs hop hst⟩
        have hgiven : op.given = [] := by
          cases op with
          | send mem data len w => exact absurd hcourt.1 hst
          | _ => rfl
        rw [(growth hs).2.1, hgiven, List.append_nil]
      · rw [ends_setEnd_other]
        exact ⟨rfl, hst⟩

/-- A step that carries bytes leaves less to do. -/
theorem carries_lt {l l' : Link} {σ : Side} {a : LinkOp} (h : Halving σ l)
    (hC : CourteousAt σ l a) (hst : (l.ends σ).conn.state ≠ .connected)
    (hstep : l.step a = some l') :
    (if l.carries σ a then 1 else 0) + l'.pending σ ≤ l.pending σ := by
  obtain ⟨d, r, hd, hr, hpending⟩ := pending_step h (halving_step l a l' h hC hstep) hstep
    (sent_step hC hst hstep).1
  by_cases hcarries : l.carries σ a = true
  · rw [if_pos hcarries]
    suffices hpos : 0 < d.length + r.length by omega
    cases a with
    | destroy τ => exact absurd hcarries (by simp [carries])
    | call τ op =>
        obtain ⟨_, s, hs, _, rfl⟩ := step_call hstep
        cases op with
        | handleWrite w =>
            cases w with
            | failed errno => exact absurd hcarries (by simp [carries])
            | accepted n =>
                simp only [carries, Bool.and_eq_true, decide_eq_true_eq] at hcarries
                obtain ⟨⟨rfl, hw⟩, hn⟩ := hcarries
                obtain ⟨⟨_, hfits⟩, rfl⟩ := Session.step_handleWrite hs
                have hle : n ≤ (l.ends τ).conn.outPutBuffer.readableBytes := hfits
                rw [ends_setEnd, accepted_handleWrite hw, List.append_cancel_left_eq] at hd
                rw [← hd, List.length_take, Session.queued, ValidBuffer.length_contents]
                omega
        | handleRead outcome =>
            cases outcome with
            | data bytes =>
                simp only [carries, decide_eq_true_eq] at hcarries
                subst hcarries
                have hfits : bytes ≠ [] := by
                  simp only [Session.step, Option.ite_none_right_eq_some] at hs
                  exact hs.1.2.1
                rw [ends_setEnd, (growth hs).1, List.append_cancel_left_eq] at hr
                have := List.length_pos_iff.mpr hfits
                rw [← hr]
                exact Nat.add_pos_right _ this
            | _ => exact absurd hcarries (by simp [carries])
        | _ => exact absurd hcarries (by simp [carries])
  · rw [if_neg hcarries]
    omega

/-- Over a run. -/
theorem deliveries_le {σ : Side} : ∀ {as : List LinkOp} {l l' : Link}, Halving σ l →
    (l.ends σ).conn.state ≠ .connected → exec step l as = some l' →
    Along step (CourteousAt σ) l as → deliveries σ l as + l'.pending σ ≤ l.pending σ := by
  intro as
  induction as with
  | nil =>
      intro l l' _ _ hrun _
      cases hrun
      simp [deliveries]
  | cons a as ih =>
      intro l l' h hst hrun hC
      obtain ⟨l₁, h1, h2⟩ := exec_cons_eq_some.mp hrun
      have hfirst := carries_lt h hC.1 hst h1
      have hrest := ih (halving_step l a l₁ h hC.1 h1) (sent_step hC.1 hst h1).2 h2 (hC.2 l₁ h1)
      simp only [deliveries, h1]
      omega

/-- What the network can do next for an end that has called `ShutDown`. -/
inductive Next (l : Link) (σ : Side) : Prop
  /-- Bytes are queued, the poller waits for the descriptor to be writable, and any
  part of them can be written. -/
  | write (hqueue : (l.ends σ).queued ≠ []) (hwaits : (l.ends σ).conn.handler.isWriting = true)
      (hstep : ∀ n ≤ (l.ends σ).queued.length,
        (l.step (.call σ (.handleWrite (.accepted n)))).isSome = true)
  /-- The FIN is sent, the poller of the other end waits for input, and what is in
  flight can be read there. -/
  | read (b : Byte) (rest : List Byte) (hfin : (l.ends σ).finSent = true)
      (hwaits : (l.ends σ.other).conn.handler.events.has EPOLLIN = true)
      (hflight : l.inFlight σ = b :: rest)
      (hstep : (l.step (.call σ.other (.handleRead (.data [b])))).isSome = true)
  /-- The FIN is all that is left, the poller of the other end waits for it, and
  that end has everything. -/
  | eof (hfin : (l.ends σ).finSent = true)
      (hwaits : (l.ends σ.other).conn.handler.events.has EPOLLIN = true)
      (hflight : l.inFlight σ = [])
      (hstep : (l.step (.call σ.other (.handleRead .eof))).isSome = true)
      (hall : (l.ends σ.other).consumed ++ (l.ends σ.other).conn.inputBuffer.contents
        = (l.ends σ).sent)

/-- The step is taken when both machines can take it. -/
theorem step_isSome {l : Link} {σ : Side} {op : ConnOp} {s : Session}
    (halive : l.destroyed σ = false) (hdel : l.delivers σ op = true)
    (hs : (l.ends σ).step op = some s)
    (hfin : (l.ends σ).finSent = true → s.accepted = (l.ends σ).accepted) :
    (l.step (.call σ op)).isSome = true := by
  simp only [step, if_pos (And.intro halive hdel), hs, Option.bind_some, if_pos hfin,
    Option.isSome_some]

/-- An end that is not closed is read. -/
theorem Carried.reads {l : Link} (h : l.Carried) {σ : Side}
    (hopen : (l.ends σ).closeEntered = false) :
    (l.ends σ).conn.handler.events.has EPOLLIN = true := by
  rw [(h.masks σ).events hopen, openMask]
  split <;> decide

theorem Halving.next {l : Link} {σ : Side} (h : Halving σ l)
    (hst : (l.ends σ).conn.state = .disConnecting) (hopen : (l.ends σ).closeEntered = false)
    (hpeer : (l.ends σ.other).closeEntered = false) (halive : ∀ τ, l.destroyed τ = false) :
    Next l σ := by
  have htracks : (l.ends σ).conn.handler.isWriting = true ↔ (l.ends σ).queued ≠ [] :=
    h.finishing.inv.tracks hopen
  have hidle := h.carried.idle σ.other hpeer
  have hwaits := h.carried.reads hpeer
  by_cases hqueue : (l.ends σ).queued = []
  · have hw : (l.ends σ).conn.handler.isWriting = false := by
      rw [Bool.eq_false_iff]
      exact fun hw => htracks.mp hw hqueue
    have hfin := h.finishing.sent hst hopen hw
    cases hflight : l.inFlight σ with
    | nil =>
        refine .eof hfin hwaits hflight ?_ (h.arrived (Or.inl hfin) hflight)
        refine step_isSome (s := (l.ends σ.other).close) (halive _) ?_ ?_ fun _ => ?_
        · simp [delivers, hflight, hfin]
        · simp [Session.step, hidle, ReadOutcome.fits]
        · exact List.append_nil _
    | cons b rest =>
        refine .read b rest hfin hwaits hflight ?_
        have hfits : (ReadOutcome.data [b]).fits
            (l.ends σ.other).conn.inputBuffer.writableBytes := by
          refine ⟨by simp, ?_⟩
          show 1 ≤ _ + 65535
          omega
        refine step_isSome (s := { l.ends σ.other with
          conn := (l.ends σ.other).conn.receive [b]
          received := (l.ends σ.other).received ++ [b]
          events := .messageCallback :: (l.ends σ.other).events }) (halive _) ?_ ?_ fun _ => rfl
        · simp [delivers, hflight]
        · rw [Session.step, if_pos ⟨hidle, hfits⟩]
  · have hw := htracks.mpr hqueue
    refine .write hqueue hw fun n hn => ?_
    have hfits : (WriteOutcome.accepted n).fits (l.ends σ).conn.outPutBuffer.readableBytes := by
      rw [Session.queued, ValidBuffer.length_contents] at hn
      exact hn
    refine step_isSome (halive σ) rfl
      (by rw [Session.step, if_pos ⟨h.carried.idle σ hopen, hfits⟩]) ?_
    intro hfin
    exact absurd (finSent_of_isWriting h.finishing.inv hw) (by simp [hfin])

/-- **A graceful shutdown completes.**  Let an end that has been courteous call
`ShutDown`, let neither end be closed and both descriptors be open.  However the
run got there, the network is not stuck: queued bytes can be written, bytes in
flight read, or else the FIN read, with every byte sent arrived.  And it comes to
an end: whatever both ends do from here on, no more writes and reads bring bytes
of this end further than two for each byte queued and one for each in flight. -/
theorem shutdown_completes (l₀ : Link) (ops : List LinkOp) (l : Link) (σ : Side)
    (hnew : l₀.IsNew) (hrun : exec step l₀ ops = some l)
    (hC : Along step (CourteousAt σ) l₀ ops)
    (hst : (l.ends σ).conn.state = .disConnecting) (hopen : (l.ends σ).closeEntered = false)
    (hpeer : (l.ends σ.other).closeEntered = false) (halive : ∀ τ, l.destroyed τ = false) :
    Next l σ ∧ ∀ more l', exec step l more = some l' → Along step (CourteousAt σ) l more →
      deliveries σ l more + l'.pending σ ≤ l.pending σ := by
  have h : Halving σ l := exec_invariant_along halving_step (hnew.halving σ) hC hrun
  refine ⟨h.next hst hopen hpeer halive, fun more l' hmore hcourt => ?_⟩
  exact deliveries_le h (by rw [hst]; decide) hmore hcourt

/-- The theorem on the same run up to `ShutDown`: two bytes are still queued. -/
theorem shutdown_completes_on_exchange :
    ∃ l, exec step pair (exchange.take 3) = some l ∧ l.pending .left = 4 ∧ Next l .left := by
  have h : (exec step pair (exchange.take 3)).map (fun l =>
      (l.pending .left, (l.ends .left).conn.state, (l.ends .left).closeEntered,
        (l.ends .right).closeEntered, l.destroyed .left, l.destroyed .right))
      = some (4, .disConnecting, false, false, false, false) := by
    decide +kernel
  obtain ⟨l, hrun, hl⟩ := Option.map_eq_some_iff.mp h
  simp only [Prod.mk.injEq] at hl
  obtain ⟨hpending, hst, hopen, hpeer, hleft, hright⟩ := hl
  have halive : ∀ τ, l.destroyed τ = false := by
    intro τ
    cases τ with
    | left => exact hleft
    | right => exact hright
  exact ⟨l, hrun, hpending, (shutdown_completes pair (exchange.take 3) l .left pair_isNew hrun
    (by decide +kernel) hst hopen hpeer halive).1⟩

/-! ## §6. Two processes. -/

/-- The operations at one end. -/
def opsAt (σ : Side) (ops : List LinkOp) : List ConnOp := ops.filterMap (LinkOp.at? σ)

/-- Each end runs its own operations. -/
theorem ends_exec {ops : List LinkOp} : ∀ {l l' : Link}, exec step l ops = some l' →
    ∀ σ, exec Session.step (l.ends σ) (opsAt σ ops) = some (l'.ends σ) := by
  induction ops with
  | nil =>
      intro l l' hrun σ
      cases hrun
      rfl
  | cons a ops ih =>
      intro l l' hrun σ
      obtain ⟨l₁, hstep, hrest⟩ := exec_cons_eq_some.mp hrun
      have hops := ih hrest σ
      cases a with
      | destroy τ =>
          obtain rfl := step_destroy hstep
          exact hops
      | call τ op =>
          obtain ⟨_, s, hs, _, rfl⟩ := step_call hstep
          rcases Side.eq_or_eq_other τ σ with rfl | rfl
          · rw [ends_setEnd] at hops
            have hcons : opsAt σ (.call σ op :: ops) = op :: opsAt σ ops := by
              simp [opsAt, LinkOp.at?]
            rw [hcons]
            exact exec_cons_eq_some.mpr ⟨s, hs, hops⟩
          · rw [ends_setEnd_other] at hops
            have hskip : opsAt τ.other (.call τ op :: ops) = opsAt τ.other ops := by
              simp [opsAt, LinkOp.at?, (Side.other_ne τ).symm]
            rw [hskip]
            exact hops

/-- Connection `c σ` of process `w σ` at end `σ`, when both are started. -/
def between (w : Side → World) (c : Side → Nat) : Link where
  ends σ := Session.started (c σ) ((w σ).conns (c σ))
  destroyed _ := false

/-- **Two processes, one stream each way.**  Two processes run, each with all its
connections, clients, servers and callbacks, and the network joins a connection
of the one to a connection of the other: some interleaving `ops` of the
operations made on the two is a run of the link.  Then each end of the link is the
connection in its process.  If the sends of an end were clean, what its process
sent on the connection is, in order, what has been retrieved at the other end,
what is in the input buffer there, what is in flight, and the first one's output
queue; in flight is what the `write` calls took less what was read. -/
theorem processes_linked (labels : Side → List Label) (w : Side → World) (c : Side → Nat)
    (ops : List LinkOp) (l : Link)
    (hrun : ∀ σ, exec World.next World.init (labels σ) = some (w σ))
    (hfault : ∀ σ, (w σ).fault = none) (hc : ∀ σ, c σ < (w σ).connCount)
    (hops : ∀ σ, World.init.opsAlong (c σ) (labels σ) = .start :: opsAt σ ops)
    (hlink : exec step (between w c) ops = some l) :
    (∀ σ, (w σ).Hosts (c σ) (l.ends σ))
    ∧ ∀ σ, Along World.next (MeetsOps SendsCleanly (c σ)) World.init (labels σ) →
      (l.ends σ.other).consumed ++ ((w σ.other).conns (c σ.other)).inputBuffer.contents
          ++ l.inFlight σ ++ ((w σ).conns (c σ)).outPutBuffer.contents
        = (World.init.opsAlong (c σ) (labels σ)).flatMap ConnOp.given
      ∧ ((World.init.opsAlong (c σ.other) (labels σ.other)).flatMap ConnOp.readBytes).length
          + (l.inFlight σ).length = (w σ).taken (c σ) := by
  have hnew : (between w c).IsNew := ⟨fun τ => ⟨c τ, (w τ).conns (c τ), rfl⟩, fun _ => rfl⟩
  have hcarried : l.Carried :=
    exec_invariant (I := Carried) carried_step hnew.carried hlink
  -- each end is the session its process hosts
  have hhosts : ∀ τ, (w τ).Hosts (c τ) (l.ends τ) ∧ (l.ends τ).Booked (.start :: opsAt τ ops)
      ∧ (Along World.next (MeetsOps SendsCleanly (c τ)) World.init (labels τ) →
          (l.ends τ).OutputFaithful) := by
    intro τ
    obtain ⟨s, ops', hops', hexec, hs, hbooked, hfaithful⟩ :=
      hosts_booked (hrun τ) (hfault τ) (hc τ)
    obtain rfl : opsAt τ ops = ops' := List.cons_injective ((hops τ).symm.trans hops')
    obtain rfl : l.ends τ = s := Option.some.inj ((ends_exec hlink τ).symm.trans hexec)
    exact ⟨hs, hbooked, hfaithful⟩
  refine ⟨fun τ => (hhosts τ).1, fun σ hclean => ?_⟩
  obtain ⟨hs, hbooked, hfaithful⟩ := hhosts σ
  obtain ⟨hs', hbooked', _⟩ := hhosts σ.other
  have hnet := hcarried.delivers.accepted σ
  constructor
  · rw [hops σ, ← hbooked.sent, ← hs'.conn, ← hs.conn,
      show (l.ends σ.other).consumed ++ (l.ends σ.other).conn.inputBuffer.contents
        = (l.ends σ.other).received from hbooked'.input, hnet]
    exact hfaithful hclean
  · rw [hops σ.other, ← hbooked'.received, World.taken, ← hs.marks, ← hbooked.accepted, ← hnet,
      List.length_append]

/-- The server of `servedRun` on the left; on the right a client that sends it
those three bytes and reads the one it writes. -/
def talk : Side → List Label
  | .left => servedRun
  | .right =>
      [.user (.setMessageCallback 0 true), .user (.connect 0 [] 80 (some 5) .ok),
       .user (.clientSend 0 (fun p => UInt8.ofNat p.toNat) 7 3 (.accepted 3)),
       .poll [(5, EPOLLIN)], .resume .idle, .resume { Env.idle with read := .data [1] }, .ret]

/-- How the two interleave. -/
def talkOps : List LinkOp :=
  [.call .right (.send (fun p => UInt8.ofNat p.toNat) 7 3 (.accepted 3)),
   .call .left (.handleRead (.data [7, 8, 9])),
   .call .left (.send (fun p => UInt8.ofNat p.toNat) 1 3 (.accepted 1)),
   .call .right (.handleRead (.data [1])), .call .left (.retrieve 2)]

/-- Where the two processes end. -/
def talked (σ : Side) : World := (exec World.next World.init (talk σ)).getD World.init

theorem talk_run (σ : Side) : exec World.next World.init (talk σ) = some (talked σ) := by
  have h : (exec World.next World.init (talk σ)).isSome = true := by
    cases σ <;> decide +kernel
  obtain ⟨w, hrun⟩ := Option.isSome_iff_exists.mp h
  rw [talked, hrun, Option.getD_some]

set_option maxRecDepth 20000 in
theorem talk_opsAlong (σ : Side) :
    World.init.opsAlong 0 (talk σ) = .start :: opsAt σ talkOps := by
  cases σ <;> rfl

set_option maxRecDepth 20000 in
/-- The theorem on that run, from the client to the server. -/
theorem processes_linked_on_talk :
    ∃ l, exec step (between talked fun _ => 0) talkOps = some l
      ∧ (talked .left).Hosts 0 (l.ends .left)
      ∧ (l.ends .left).consumed ++ ((talked .left).conns 0).inputBuffer.contents
          ++ l.inFlight .right ++ ((talked .right).conns 0).outPutBuffer.contents
        = (World.init.opsAlong 0 (talk .right)).flatMap ConnOp.given
      ∧ ((World.init.opsAlong 0 (talk .left)).flatMap ConnOp.readBytes).length
          + (l.inFlight .right).length = (talked .right).taken 0 := by
  have hfault : ∀ σ, (talked σ).fault = none := by
    intro σ
    cases σ <;> decide +kernel
  have hc : ∀ σ, 0 < (talked σ).connCount := by
    intro σ
    cases σ <;> decide +kernel
  have hlink : (exec step (between talked fun _ => 0) talkOps).isSome = true := by
    decide +kernel
  obtain ⟨l, hl⟩ := Option.isSome_iff_exists.mp hlink
  have h := processes_linked talk talked (fun _ => 0) talkOps l talk_run hfault hc talk_opsAlong hl
  exact ⟨l, hl, h.1 .left, h.2 .right (by decide +kernel)⟩

end Link

end SparkNet
