/-
  SparkNet.Sessions — every connection of a process is a session.

  `Session` runs one connection alone.  In the process its operations come from
  everywhere: the application calls them through a connection pointer or through
  the client, the poller dispatches them, `Close` and `Start` run inside other
  functions, and all of it is interleaved with the other connections and nested
  in their callbacks.  Here a run of the process is projected onto one
  connection, and the projection is a run of `Session` from the constructor.

  Main results:
    * `sees_next` — one step of the process is the operations it makes on the
      connection, or makes the connection;
    * `World.hosted` — so is every run;
    * `queued_output_is_armed` — the kernel waits for exactly what each open
      connection of a process needs;
    * `bytes_accounted` — the streams of each connection, in the whole process.
-/
import Mathlib.Algebra.GroupWithZero.Nat
import SparkNet.Calls
import SparkNet.Deregistration
import SparkNet.Stream
import SparkNet.Shutdown

namespace SparkNet

open Runs

/-! ## §1. What the two machines record. -/

/-- What both a process and a session write down about a connection. -/
inductive Mark where
  | wrote (n : Nat)
  | fin
  | closeEntered
  | message
  deriving DecidableEq, Repr

/-- The mark an event of the process leaves on connection `c`. -/
def Event.mark? (c : Nat) : Event → Option Mark
  | .wrote d n => if d = c then some (.wrote n) else none
  | .fin d => if d = c then some .fin else none
  | .closeEntered d => if d = c then some .closeEntered else none
  | .messageCallback d => if d = c then some .message else none
  | _ => none

def SockCall.mark? : SockCall → Option Mark
  | .write _ bytes out => some (.wrote (bytes.take out.result.toNat).length)
  | .shutdown _ => some .fin
  | _ => none

def SessionEvent.mark? : SessionEvent → Option Mark
  | .call made => made.mark?
  | .closeEntered => some .closeEntered
  | .messageCallback => some .message
  | .shutDownCalled => none

/-- Newest first. -/
def Session.marks (s : Session) : List Mark := s.events.filterMap SessionEvent.mark?

namespace World

def marks (w : World) (c : Nat) : List Mark := w.log.filterMap (Event.mark? c)

/-- The calls of `Close` on the connection that wait for the close callback. -/
def closings (w : World) (c : Nat) : Nat := w.stack.count (.closing c)

/-- Connection `c` of the process is at the point where the session is. -/
structure Hosts (w : World) (c : Nat) (s : Session) : Prop where
  conn : s.conn = w.conns c
  marks : s.marks = w.marks c
  closing : s.closing = w.closings c

/-! ## §2. The projection. -/

/-- The operations a step makes on a connection. -/
def opsOn (w : World) (c : Nat) : Label → List ConnOp
  | .resume env =>
      match w.stack with
      -- the handler of a connection has a read and a write callback, both set
      | .handleEvent (.conn d) mask .read :: _ =>
          if d = c ∧ mask.has readBits = true then [.handleRead env.read] else []
      | .handleEvent (.conn d) mask .write :: _ =>
          if d = c ∧ mask.has EPOLLOUT = true then [.handleWrite env.write] else []
      | .closing d :: _ => if d = c then [.closeReturn] else []
      | _ => []
  | .user (.send d mem data len out) => if d = c then [.send mem data len out] else []
  | .user (.clientSend k mem data len out) =>
      if (w.clients k).conn = some c then [.send mem data len out] else []
  | .user (.disconnect k _) => if (w.clients k).conn = some c then [.shutDown] else []
  | .user (.shutDown d _) => if d = c then [.shutDown] else []
  | .user (.close d) => if d = c then [.close] else []
  | .user (.retrieve d len) => if d = c then [.retrieve len] else []
  | .user (.retrieveAll d) => if d = c then [.retrieveAll] else []
  | _ => []

/-- The operations of a run on a connection; the step that makes it starts it. -/
def opsAlong (w : World) (c : Nat) : List Label → List ConnOp
  | [] => []
  | l :: labels =>
      match w.next l with
      | some w' =>
          (if w.connCount ≤ c ∧ c < w'.connCount then [.start] else w.opsOn c l)
            ++ w'.opsAlong c labels
      | none => []

end World

/-- The object as `make_shared` and the callback setters left it. -/
def TcpConnection.asMade (self : Nat) (x : TcpConnection) : TcpConnection :=
  { TcpConnection.new self x.name x.handler.fd x.addr with
    msgCallback := x.msgCallback
    connCallback := x.connCallback
    closeCallback := x.closeCallback }

/-- The session of a connection that was made like `x` and started. -/
def Session.started (self : Nat) (x : TcpConnection) : Session :=
  (Session.of (x.asMade self)).after (x.asMade self).start

/-! ## §3. What leaves a connection alone. -/

/-- From `w` to `w'` nothing happened to connection `c`. -/
structure Leaves (c : Nat) (w w' : World) : Prop where
  conn : w'.conns c = w.conns c
  marks : w'.marks c = w.marks c
  closings : w'.closings c = w.closings c
  known : c < w'.connCount ↔ c < w.connCount
  fault : w'.fault = none → w.fault = none

namespace Leaves

variable {c : Nat} {w w' w'' : World}

theorem trans (h : Leaves c w w') (h' : Leaves c w' w'') : Leaves c w w'' where
  conn := h'.conn.trans h.conn
  marks := h'.marks.trans h.marks
  closings := h'.closings.trans h.closings
  known := h'.known.trans h.known
  fault := fun hf => h.fault (h'.fault hf)

/-- The same, read from the end of a function. -/
theorem after (h' : Leaves c w' w'') (h : Leaves c w w') : Leaves c w w'' := h.trans h'

theorem of_eq (hconn : w'.conns = w.conns) (hlog : w'.log = w.log) (hst : w'.stack = w.stack)
    (hcount : w'.connCount = w.connCount) (hfault : w'.fault = w.fault) : Leaves c w w' where
  conn := by rw [hconn]
  marks := by rw [World.marks, World.marks, hlog]
  closings := by rw [World.closings, World.closings, hst]
  known := by rw [hcount]
  fault := fun hf => hfault ▸ hf

theorem refl (w : World) : Leaves c w w := of_eq rfl rfl rfl rfl rfl

theorem hosts (h : Leaves c w w') {s : Session} (hs : w.Hosts c s) : w'.Hosts c s where
  conn := hs.conn.trans h.conn.symm
  marks := hs.marks.trans h.marks.symm
  closing := hs.closing.trans h.closings.symm

theorem emit {e : Event} (he : e.mark? c = none) : Leaves c w (w.emit e) where
  conn := rfl
  marks := by
    show (e :: w.log).filterMap (Event.mark? c) = w.log.filterMap (Event.mark? c)
    rw [List.filterMap_cons_none he]
  closings := rfl
  known := Iff.rfl
  fault := id

theorem push {f : Frame} (hf : f ≠ .closing c) : Leaves c w (w.push f) where
  conn := rfl
  marks := rfl
  closings := by
    show (f :: w.stack).count (.closing c) = w.stack.count (.closing c)
    rw [List.count_cons_of_ne hf]
  known := Iff.rfl
  fault := id

/-- The frame on top is exchanged, or returns. -/
theorem setStack {st : List Frame} (hst : st.count (.closing c) = w.closings c) :
    Leaves c w { w with stack := st } where
  conn := rfl
  marks := rfl
  closings := hst
  known := Iff.rfl
  fault := id

theorem pop {f : Frame} {rest : List Frame} (hst : w.stack = f :: rest) (hf : f ≠ .closing c) :
    Leaves c w { w with stack := rest } := by
  apply setStack
  show _ = w.stack.count (.closing c)
  rw [hst, List.count_cons_of_ne hf]

theorem fail (f : Fault) : Leaves c w (w.fail f) where
  conn := rfl
  marks := rfl
  closings := rfl
  known := Iff.rfl
  fault := by
    intro hf
    have hor : w.fault.or (some f) = none := hf
    exact absurd hor (by simp)

theorem setClient (k : Nat) (x : TCPClient) : Leaves c w (w.setClient k x) :=
  of_eq rfl rfl rfl rfl rfl

theorem setServer (s : Nat) (x : TcpServer) : Leaves c w (w.setServer s x) :=
  of_eq rfl rfl rfl rfl rfl

theorem update (ptr : HandlerPtr) (h : Handler HandlerCallback) : Leaves c w (w.update ptr h) := by
  unfold World.update
  split
  · exact of_eq rfl rfl rfl rfl rfl
  · exact fail _

theorem closeFd (fd : Nat) : Leaves c w (w.closeFd fd) :=
  (emit rfl : Leaves c w (w.emit (.fdClosed fd (w.poller.handlers fd).isSome))).trans
    (of_eq rfl rfl rfl rfl rfl)

theorem release (d : Nat) : Leaves c w (w.release d) := by
  unfold World.release World.destroyConn
  simp only
  split
  · exact refl w
  · split
    · exact (closeFd _).after (emit rfl)
    · exact (fail _).after (emit rfl)

theorem letGo (o : Option Nat) : Leaves c w (w.letGo o) := by
  cases o with
  | none => exact refl w
  | some o => exact (release o).after (emit rfl)

theorem setConn {d : Nat} (hd : d ≠ c) (x : TcpConnection) : Leaves c w (w.setConn d x) where
  conn := by
    show Function.update w.conns d x c = w.conns c
    rw [Function.update_of_ne (Ne.symm hd)]
  marks := rfl
  closings := rfl
  known := Iff.rfl
  fault := id

/-- The calls of another connection. -/
theorem connOp {d : Nat} (hd : d ≠ c) (r : TcpConnection × List SockCall) (ok : Bool) :
    Leaves c w (w.connOp d r ok) := by
  have hcall : ∀ (v : World) call, Leaves c v (World.runCall d ok v call) := by
    intro v call
    cases call with
    | write direct bytes out => exact emit (by simp [Event.mark?, hd])
    | append bytes => exact refl v
    | update => exact update _ _
    | shutdown pending =>
        unfold World.runCall
        simp only
        split
        · exact emit (by simp [Event.mark?, hd])
        · exact fail _
  have hcalls : ∀ (calls : List SockCall) (v : World),
      Leaves c v (calls.foldl (World.runCall d ok) v) := by
    intro calls
    induction calls with
    | nil => exact refl
    | cons call calls ih => exact fun v => (hcall v call).trans (ih _)
  exact (hcalls r.2 _).after (setConn hd r.1)

theorem start {d : Nat} (hd : d ≠ c) : Leaves c w (w.start d) := by
  have hop : Leaves c w (w.connOp d (w.conns d).start true) := connOp hd _ _
  unfold World.start
  simp only
  split
  · exact (hop.trans (emit rfl)).trans (push (by simp))
  · exact hop

theorem runDisconnectCallback (k : Nat) : Leaves c w (w.runDisconnectCallback k) := by
  unfold World.runDisconnectCallback
  split
  · exact (push (by simp)).after (emit rfl)
  · exact refl w

/-- The close callback itself, of any connection. -/
theorem removeConn (s d : Nat) : Leaves c w (w.removeConn s d) := by
  unfold World.removeConn
  simp only
  split
  · exact (release d).after (setServer _ _)
  · exact (letGo _).after (setServer _ _)

theorem handleClose (k d : Nat) : Leaves c w (w.handleClose k d) := by
  unfold World.handleClose
  simp only
  split
  · exact ((runDisconnectCallback k).after (release d)).after (setClient _ _)
  · exact fail _

/-- `Close` of another connection. -/
theorem close {d : Nat} (hd : d ≠ c) : Leaves c w (w.close d) := by
  have hstart : Leaves c w (w.closeStart d) :=
    (connOp hd _ _).after (emit (by simp [Event.mark?, hd]))
  unfold World.close
  split
  · simp only
    split
    · exact hstart.trans (setConn hd _)
    next callback _ =>
      have henter : Leaves c w
          (((w.closeStart d).push (.closing d)).emit (.closeCallback d)) :=
        (hstart.trans (push (by simp [hd]))).trans (emit rfl)
      unfold World.runCloseCallback
      cases callback with
      | removeConn s => exact henter.trans (removeConn s d)
      | handleClose k => exact henter.trans (handleClose k d)
  · exact fail _

theorem send {d : Nat} (hd : d ≠ c) (mem : Memory) (data len : SizeT) (out : WriteOutcome) :
    Leaves c w (w.send d mem data len out) := by
  unfold World.send
  split
  · exact connOp hd _ _
  · exact fail _

theorem shutDown {d : Nat} (hd : d ≠ c) (ok : Bool) : Leaves c w (w.shutDown d ok) := by
  unfold World.shutDown
  split
  · exact connOp hd _ _
  · exact fail _

theorem tcpHandleRead {d : Nat} (hd : d ≠ c) (r : ReadOutcome) :
    Leaves c w (w.tcpHandleRead d r) := by
  unfold World.tcpHandleRead
  split
  · cases r with
    | failed errno => exact refl w
    | eof => exact close hd
    | data bytes =>
        have hset : Leaves c w (w.setConn d ((w.conns d).receive bytes)) := setConn hd _
        simp only
        split
        · exact (hset.trans (emit (by simp [Event.mark?, hd]))).trans (push (by simp))
        · exact hset.trans (fail _)
  · exact fail _

theorem tcpHandleWrite {d : Nat} (hd : d ≠ c) (out : WriteOutcome) (ok : Bool) :
    Leaves c w (w.tcpHandleWrite d out ok) := by
  unfold World.tcpHandleWrite
  split
  · exact connOp hd _ _
  · exact fail _

/-- The rest of another `Close`. -/
theorem finishClose {d : Nat} (hd : d ≠ c) : Leaves c w (w.finishClose d) := by
  unfold World.finishClose
  simp only
  split
  · exact (setConn hd _).after (release d)
  · exact (fail _).after (release d)

theorem connecting (k fd : Nat) : Leaves c w (w.connecting k fd) := by
  unfold World.connecting
  simp only
  refine (update _ _).after ((setClient _ _).after ?_)
  cases (w.clients k).connHandler with
  | none => exact of_eq rfl rfl rfl rfl rfl
  | some old =>
      exact Leaves.trans (emit (e := .handlerDestroyed _ _) rfl) (of_eq rfl rfl rfl rfl rfl)

theorem dropConnHandler (k n : Nat) (g : Handler HandlerCallback) :
    Leaves c w (w.dropConnHandler k n g) := by
  unfold World.dropConnHandler
  exact (emit rfl).after ((setClient _ _).after (update _ _))

theorem clientHandleError (k : Nat) : Leaves c w (w.clientHandleError k) := by
  unfold World.clientHandleError
  split
  · split
    · exact fail _
    next n g _ =>
      exact ((dropConnHandler k n g).trans (closeFd g.fd)).trans (runDisconnectCallback k)
  · exact refl w

theorem dial (k : Nat) (ip : Text) (port : BitVec 16) (fd : Nat) :
    Leaves c w (w.dial k ip port fd) := by
  have hlog : Leaves c w (w.emit (.dialled k ((w.clients k).addr.fromIpPort ip port).2.addr)) :=
    emit rfl
  exact hlog.trans (of_eq rfl rfl rfl rfl rfl)

theorem serverStart (s fd : Nat) : Leaves c w (w.serverStart s fd) := by
  unfold World.serverStart
  exact (update _ _).after (of_eq rfl rfl rfl rfl rfl)

end Leaves

/-! ## §4. What happens to a connection. -/

/-- From `w` to `w'` connection `c` saw the operations `ops`, unless the process
has ended. -/
structure Sees (c : Nat) (ops : List ConnOp) (w w' : World) : Prop where
  known : c < w'.connCount ↔ c < w.connCount
  fault : w'.fault = none → w.fault = none
  follows : w'.fault = none → ∀ s, w.Hosts c s →
    ∃ s', exec Session.step s ops = some s' ∧ w'.Hosts c s'

section Sees

variable {c : Nat} {w w' w'' : World} {op : ConnOp} {ops : List ConnOp} {s : Session}

theorem Leaves.sees (h : Leaves c w w') : Sees c [] w w' :=
  ⟨h.known, h.fault, fun _ s hs => ⟨s, rfl, h.hosts hs⟩⟩

theorem Sees.ends (h : Sees c ops w w') (hl : Leaves c w' w'') : Sees c ops w w'' where
  known := hl.known.trans h.known
  fault := fun hf => h.fault (hl.fault hf)
  follows := by
    intro hf s hs
    obtain ⟨s', hrun, hs'⟩ := h.follows (hl.fault hf) s hs
    exact ⟨s', hrun, hl.hosts hs'⟩

theorem Leaves.before (hl : Leaves c w w') (h : Sees c ops w' w'') : Sees c ops w w'' where
  known := h.known.trans hl.known
  fault := fun hf => hl.fault (h.fault hf)
  follows := fun hf s hs => h.follows hf s (hl.hosts hs)

/-- The process ends: nothing is left to show. -/
theorem sees_fail {v : World} (hknown : c < v.connCount ↔ c < w.connCount) (f : Fault) :
    Sees c ops w (v.fail f) := by
  have hne : (v.fail f).fault ≠ none := by
    show v.fault.or (some f) ≠ none
    simp
  exact ⟨hknown, fun hf => absurd hf hne, fun hf => absurd hf hne⟩

/-- One operation. -/
theorem Sees.of_step (hknown : c < w'.connCount ↔ c < w.connCount)
    (hfault : w'.fault = none → w.fault = none)
    (h : w'.fault = none → ∀ s, w.Hosts c s → ∃ s', s.step op = some s' ∧ w'.Hosts c s') :
    Sees c [op] w w' where
  known := hknown
  fault := hfault
  follows := by
    intro hf s hs
    obtain ⟨s', hstep, hs'⟩ := h hf s hs
    exact ⟨s', exec_cons_eq_some.mpr ⟨s', hstep, rfl⟩, hs'⟩

/-- The calls of a member function leave the same marks in both machines. -/
theorem runCalls_marks (ok : Bool) : ∀ (calls : List SockCall) (v : World),
    (calls.foldl (World.runCall c ok) v).fault = none →
      v.fault = none
      ∧ (calls.foldl (World.runCall c ok) v).marks c
        = (calls.filterMap SockCall.mark?).reverse ++ v.marks c := by
  have hcall : ∀ (v : World) (call : SockCall), (World.runCall c ok v call).fault = none →
      v.fault = none
      ∧ (World.runCall c ok v call).marks c = call.mark?.toList ++ v.marks c := by
    intro v call hf
    cases call with
    | write direct bytes out => exact ⟨hf, by simp [World.runCall, World.marks, World.emit,
        Event.mark?, SockCall.mark?]⟩
    | append bytes => exact ⟨hf, rfl⟩
    | update =>
        have hup : Leaves c v (v.update (.conn c) (v.conns c).handler) := .update _ _
        exact ⟨hup.fault hf, hup.marks⟩
    | shutdown pending =>
        cases ok with
        | true => exact ⟨hf, by simp [World.runCall, World.marks, World.emit, Event.mark?,
            SockCall.mark?]⟩
        | false => exact absurd hf (by simp [World.runCall, World.fail])
  intro calls
  induction calls with
  | nil => exact fun v hf => ⟨hf, rfl⟩
  | cons call calls ih =>
      intro v hf
      obtain ⟨hv, hmarks⟩ := ih _ hf
      obtain ⟨h0, hmark⟩ := hcall v call hv
      refine ⟨h0, ?_⟩
      rw [List.foldl_cons, hmarks, hmark]
      cases hm : call.mark? with
      | none => simp [List.filterMap_cons_none hm]
      | some m => simp [List.filterMap_cons_some hm]

theorem fault_connOp {r : TcpConnection × List SockCall} {ok : Bool}
    (hf : (w.connOp c r ok).fault = none) : w.fault = none :=
  (runCalls_marks ok r.2 (w.setConn c r.1) hf).1

theorem connCount_connOp (c : Nat) (r : TcpConnection × List SockCall) (ok : Bool) :
    (w.connOp c r ok).connCount = w.connCount :=
  (World.quiet_runCalls c ok r.2 (w.setConn c r.1)).connCount

/-- **A member function** runs alike in the process and in the session. -/
theorem World.Hosts.connOp (hs : w.Hosts c s) (r : TcpConnection × List SockCall) (ok : Bool)
    (hf : (w.connOp c r ok).fault = none) : (w.connOp c r ok).Hosts c (s.after r) where
  conn := by
    rw [World.conns_connOp, Function.update_self]
    rfl
  marks := by
    show ((r.2.map SessionEvent.call).reverse ++ s.events).filterMap SessionEvent.mark? = _
    rw [World.connOp, (runCalls_marks ok r.2 (w.setConn c r.1) hf).2, List.filterMap_append,
      List.filterMap_reverse, List.filterMap_map]
    exact congrArg (_ ++ ·) hs.marks
  closing := by
    show s.closing = (w.connOp c r ok).stack.count (.closing c)
    rw [World.connOp, (World.quiet_runCalls c ok r.2 (w.setConn c r.1)).stack]
    exact hs.closing

/-- Every step that is one member function. -/
theorem sees_connOp {r : TcpConnection × List SockCall} {ok : Bool}
    (h : ∀ s, w.Hosts c s → ∃ s', s.step op = some s'
      ∧ s'.conn = (s.after r).conn ∧ s'.marks = (s.after r).marks ∧ s'.closing = s.closing) :
    Sees c [op] w (w.connOp c r ok) := by
  refine .of_step (by rw [connCount_connOp]) fault_connOp fun hf s hs => ?_
  obtain ⟨s', hstep, hconn, hmarks, hclosing⟩ := h s hs
  have hafter := hs.connOp r ok hf
  exact ⟨s', hstep, hconn.trans hafter.conn, hmarks.trans hafter.marks,
    hclosing.trans hafter.closing⟩

theorem sees_send {mem : Memory} {data len : SizeT} {out : WriteOutcome}
    (hout : out.fits len.toNat) :
    Sees c [.send mem data len out] w (w.send c mem data len out) := by
  unfold World.send
  split
  · refine sees_connOp fun s hs => ?_
    rw [← hs.conn]
    refine ⟨{ s.after (s.conn.send mem data len out) with sent := s.sent ++ mem.read data len },
      ?_, rfl, rfl, rfl⟩
    rw [Session.step, if_pos hout]
  · exact sees_fail Iff.rfl _

theorem sees_shutDown {ok : Bool} : Sees c [.shutDown] w (w.shutDown c ok) := by
  unfold World.shutDown
  split
  · refine sees_connOp fun s hs => ?_
    rw [← hs.conn]
    refine ⟨_, rfl, rfl, ?_, rfl⟩
    -- the mark that `ShutDown` was called is the session's own
    show (((s.conn.shutDown.2.map SessionEvent.call).reverse
        ++ .shutDownCalled :: s.events).filterMap SessionEvent.mark?)
      = (((s.conn.shutDown.2.map SessionEvent.call).reverse
        ++ s.events).filterMap SessionEvent.mark?)
    rw [List.filterMap_append, List.filterMap_append, List.filterMap_cons_none rfl]
  · exact sees_fail Iff.rfl _

theorem sees_tcpHandleWrite {out : WriteOutcome} {ok : Bool} (hidle : w.closings c = 0)
    (hout : out.fits (w.conns c).outPutBuffer.readableBytes) :
    Sees c [.handleWrite out] w (w.tcpHandleWrite c out ok) := by
  unfold World.tcpHandleWrite
  split
  · refine sees_connOp fun s hs => ?_
    rw [← hs.conn] at hout ⊢
    exact ⟨_, by rw [Session.step, if_pos ⟨hs.closing.trans hidle, hout⟩], rfl, rfl, rfl⟩
  · exact sees_fail Iff.rfl _

theorem sees_setConn {x : TcpConnection}
    (h : ∀ s, w.Hosts c s → ∃ s', s.step op = some s' ∧ s'.conn = x ∧ s'.marks = s.marks
      ∧ s'.closing = s.closing) : Sees c [op] w (w.setConn c x) := by
  refine .of_step Iff.rfl id fun _ s hs => ?_
  obtain ⟨s', hstep, hconn, hmarks, hclosing⟩ := h s hs
  exact ⟨s', hstep, hconn.trans (by simp [World.setConn]), hmarks.trans hs.marks,
    hclosing.trans hs.closing⟩

theorem sees_retrieve (len : Nat) :
    Sees c [.retrieve len] w (w.setConn c ((w.conns c).retrieve len)) :=
  sees_setConn fun _ hs => ⟨_, rfl, by rw [← hs.conn], rfl, rfl⟩

theorem sees_retrieveAll : Sees c [.retrieveAll] w (w.setConn c (w.conns c).retrieveAll) :=
  sees_setConn fun _ hs => ⟨_, rfl, by rw [← hs.conn], rfl, rfl⟩

/-- Both machines write the same mark. -/
theorem World.Hosts.emit (hs : w.Hosts c s) {e : Event} {e' : SessionEvent} {m : Mark}
    (he : e.mark? c = some m) (he' : e'.mark? = some m) :
    (w.emit e).Hosts c { s with events := e' :: s.events } where
  conn := hs.conn
  marks := by
    show (e' :: s.events).filterMap SessionEvent.mark? = (e :: w.log).filterMap (Event.mark? c)
    rw [List.filterMap_cons_some he, List.filterMap_cons_some he']
    exact congrArg _ hs.marks
  closing := hs.closing

/-- `Close` up to its callback. -/
theorem World.Hosts.close (hs : w.Hosts c s) (hf : (w.closeStart c).fault = none) :
    (((w.closeStart c).push (.closing c)).emit (.closeCallback c)).Hosts c s.close := by
  have hentered : (w.emit (.closeEntered c)).Hosts c
      { s with events := .closeEntered :: s.events } :=
    hs.emit (m := .closeEntered) (by simp [Event.mark?]) rfl
  have hstart := hentered.connOp (w.conns c).closeEnter true hf
  rw [← hs.conn] at hstart
  have hemit : Leaves c ((w.closeStart c).push (.closing c))
      (((w.closeStart c).push (.closing c)).emit (.closeCallback c)) := .emit rfl
  refine hemit.hosts ⟨?_, ?_, ?_⟩
  · exact hstart.conn.trans (by rw [hs.conn]; rfl)
  · exact hstart.marks.trans (by rw [hs.conn]; rfl)
  · show s.closing + 1 = (.closing c :: (w.closeStart c).stack).count (.closing c)
    rw [List.count_cons_self]
    have hclosing := hstart.closing
    rw [hs.conn] at hclosing
    exact congrArg (· + 1) hclosing

/-- `Close` of a connection whose close callback is set. -/
theorem sees_close (hset : (w.conns c).closeCallback.isSome = true) :
    Sees c [.close] w (w.close c) := by
  have hconns : ((w.closeStart c).conns c).closeCallback = (w.conns c).closeCallback := by
    rw [World.closeStart, World.conns_connOp, Function.update_self]
    rfl
  obtain ⟨callback, hcallback⟩ := Option.isSome_iff_exists.mp hset
  unfold World.close
  split
  · simp only [hconns, hcallback]
    have hown : Sees c [.close] w
        (((w.closeStart c).push (.closing c)).emit (.closeCallback c)) := by
      refine .of_step ?_ (fun hf => fault_connOp (w := w.emit (.closeEntered c)) hf)
        fun hf s hs => ⟨s.close, rfl, hs.close hf⟩
      show c < (w.closeStart c).connCount ↔ _
      rw [World.closeStart, connCount_connOp]
      rfl
    unfold World.runCloseCallback
    cases callback with
    | removeConn k => exact hown.ends (.removeConn k c)
    | handleClose k => exact hown.ends (.handleClose k c)
  · exact sees_fail Iff.rfl _

theorem sees_tcpHandleRead {r : ReadOutcome} (hidle : w.closings c = 0)
    (hr : r.fits (w.conns c).inputBuffer.writableBytes)
    (hset : (w.conns c).closeCallback.isSome = true) :
    Sees c [.handleRead r] w (w.tcpHandleRead c r) := by
  have hready : ∀ s : Session, w.Hosts c s →
      s.closing = 0 ∧ r.fits s.conn.inputBuffer.writableBytes := fun s hs =>
    ⟨hs.closing.trans hidle, hs.conn ▸ hr⟩
  unfold World.tcpHandleRead
  split
  · cases r with
    | failed errno =>
        exact .of_step Iff.rfl id fun _ s hs =>
          ⟨s, by rw [Session.step, if_pos (hready s hs)], hs⟩
    | eof =>
        obtain ⟨hknown, hfault, hclose⟩ := sees_close (w := w) hset
        refine .of_step hknown hfault fun hf s hs => ?_
        obtain ⟨s', hrun, hs'⟩ := hclose hf s hs
        obtain ⟨s'', hstep, hnil⟩ := exec_cons_eq_some.mp hrun
        cases hnil
        exact ⟨s', by rw [Session.step, if_pos (hready s hs)]; exact hstep, hs'⟩
    | data bytes =>
        simp only
        split
        · refine Sees.ends ?_ (.push (by simp))
          refine .of_step Iff.rfl id fun _ s hs => ?_
          refine ⟨_, by rw [Session.step, if_pos (hready s hs)], ?_⟩
          have hset : (w.setConn c ((w.conns c).receive bytes)).Hosts c
              { s with
                conn := s.conn.receive bytes
                received := s.received ++ bytes } :=
            ⟨by simp [World.setConn, hs.conn], hs.marks, hs.closing⟩
          exact hset.emit (m := .message) (by simp [Event.mark?]) rfl
        · have hknown : c < (w.setConn c ((w.conns c).receive bytes)).connCount
              ↔ c < w.connCount := Iff.rfl
          exact sees_fail hknown _
  · exact sees_fail Iff.rfl _

/-- `Close` after its callback; the frame that waited is gone. -/
theorem sees_finishClose {rest : List Frame} (hst : w.stack = .closing c :: rest) :
    Sees c [.closeReturn] w ({ w with stack := rest }.finishClose c) := by
  have hrel : Leaves c { w with stack := rest } ({ w with stack := rest }.release c) := .release c
  unfold World.finishClose
  simp only
  split
  · refine .of_step hrel.known hrel.fault fun _ s hs => ?_
    have hclosing : s.closing = World.closings { w with stack := rest } c + 1 := by
      rw [hs.closing, World.closings, hst, List.count_cons_self]
      rfl
    refine ⟨_, by rw [Session.step, if_pos (by omega)], ?_, ?_, ?_⟩
    · rw [World.setConn, hrel.conn]
      simp only [Function.update_self, hs.conn]
    · exact hs.marks.trans hrel.marks.symm
    · show s.closing - 1 = ({ w with stack := rest }.release c).closings c
      rw [hrel.closings, hclosing, Nat.add_sub_cancel]
  · have hknown : c < ({ w with stack := rest }.release c).connCount ↔ c < w.connCount := hrel.known
    exact sees_fail hknown _

end Sees

/-! ## §5. A connection is made. -/

/-- From `w` to `w'` connection `c` was made and started, unless the process has
ended. -/
structure Births (c : Nat) (w w' : World) : Prop where
  new : c = w.connCount
  known : c < w'.connCount
  fault : w'.fault = none → w.fault = none
  hosts : w'.fault = none → w.marks c = [] → w.closings c = 0 →
    ∃ x s, x.asMade c = x ∧ (Session.of x).step .start = some s ∧ w'.Hosts c s

/-- Nothing happened to the connection, or it was made. -/
def Meets (c : Nat) (w w' : World) : Prop := Leaves c w w' ∨ Births c w w'

section Births

variable {c : Nat} {w w' w'' : World}

theorem Births.ends (h : Births c w w') (hl : Leaves c w' w'') : Births c w w'' where
  new := h.new
  known := hl.known.mpr h.known
  fault := fun hf => h.fault (hl.fault hf)
  hosts := by
    intro hf hmarks hclosings
    obtain ⟨x, s, hx, hrun, hs⟩ := h.hosts (hl.fault hf) hmarks hclosings
    exact ⟨x, s, hx, hrun, hl.hosts hs⟩

theorem Births.before (h : Births c w' w'') (hl : Leaves c w w')
    (hcount : w'.connCount = w.connCount) : Births c w w'' where
  new := h.new.trans hcount
  known := h.known
  fault := fun hf => hl.fault (h.fault hf)
  hosts := fun hf hmarks hclosings =>
    h.hosts hf (hl.marks.trans hmarks) (hl.closings.trans hclosings)

theorem Meets.before (h : Meets c w' w'') (hl : Leaves c w w')
    (hcount : w'.connCount = w.connCount) : Meets c w w'' :=
  h.imp hl.trans fun hb => hb.before hl hcount

/-- `make_shared` and the setters, the owner's slot, and `Start`: what
`ConnEstablish` and `OnNewConnect` have in common.  `v` is the world in which
the slot is written, `o` what it held. -/
theorem meets_start {v : World} {x : TcpConnection} (o : Option Nat)
    (hconns : v.conns = Function.update w.conns w.connCount x) (hlog : v.log = w.log)
    (hst : v.stack = w.stack) (hcount : v.connCount = w.connCount + 1)
    (hfault : v.fault = w.fault) (hx : x.asMade w.connCount = x) :
    Meets c w ((v.letGo o).start w.connCount) := by
  by_cases hc : c = w.connCount
  · refine Or.inr ?_
    subst hc
    have hlet : Leaves w.connCount v (v.letGo o) := .letGo o
    generalize hv : v.letGo o = u at hlet
    have hop : ∀ e f, Leaves w.connCount (u.connOp w.connCount (u.conns w.connCount).start true)
        ((((u.connOp w.connCount (u.conns w.connCount).start true).emit
          (.connectionCallback e))).push (.user f)) := fun e f =>
      (Leaves.emit rfl).trans (.push (by simp))
    -- with the connection callback or without it
    have hend : Leaves w.connCount (u.connOp w.connCount (u.conns w.connCount).start true)
        (u.start w.connCount) := by
      unfold World.start
      simp only
      split
      · exact hop _ _
      · exact .refl _
    refine Births.ends ⟨rfl, ?_, ?_, ?_⟩ hend
    · rw [connCount_connOp, hlet.known, hcount]
      exact Nat.lt_succ_self _
    · exact fun hf => hfault ▸ hlet.fault (fault_connOp hf)
    · intro hf hmarks hclosings
      have hborn : u.Hosts w.connCount (Session.of x) := by
        refine hlet.hosts ⟨?_, ?_, ?_⟩
        · rw [hconns, Function.update_self]
          rfl
        · rw [World.marks, hlog]
          exact hmarks.symm
        · rw [World.closings, hst]
          exact hclosings.symm
      refine ⟨x, _, hx, rfl, ?_⟩
      rw [← hborn.conn]
      exact hborn.connOp _ _ (hborn.conn ▸ hf)
  · refine Or.inl (((Leaves.mk ?_ ?_ ?_ ?_ ?_ : Leaves c w v).trans (.letGo o)).trans
      (.start (Ne.symm hc)))
    · rw [hconns, Function.update_of_ne hc]
    · rw [World.marks, World.marks, hlog]
    · rw [World.closings, World.closings, hst]
    · rw [hcount]
      omega
    · exact fun hf => hfault ▸ hf

theorem meets_connEstablish (k fd : Nat) : Meets c w (w.connEstablish k fd) :=
  meets_start _ rfl rfl rfl rfl rfl rfl

theorem meets_onNewConnect (s fd : Nat) (addr : InetAdress) :
    Meets c w (w.onNewConnect s fd addr) :=
  meets_start _ rfl rfl rfl rfl rfl rfl

theorem meets_acceptorHandleRead (s : Nat) (accept : AcceptOutcome) :
    Meets c w (w.acceptorHandleRead s accept) := by
  unfold World.acceptorHandleRead
  split
  next fd addr =>
    have hopen : Leaves c w { w with fds := Function.update w.fds fd true } :=
      .of_eq rfl rfl rfl rfl rfl
    exact (meets_onNewConnect s fd _).before hopen rfl
  next => exact Or.inl (.refl w)

theorem meets_clientHandleWrite (k err : Nat) : Meets c w (w.clientHandleWrite k err) := by
  unfold World.clientHandleWrite
  split
  · split
    · exact Or.inl (.fail _)
    next n g _ =>
      have hdrop : Leaves c w (w.dropConnHandler k n g) := .dropConnHandler k n g
      simp only
      split
      · exact Or.inl (hdrop.trans (.runDisconnectCallback k))
      · refine (meets_connEstablish k g.fd).before hdrop ?_
        unfold World.dropConnHandler
        exact (World.quiet_update w _ _).connCount
  · exact Or.inl (.refl w)

theorem meets_connect (k : Nat) (ip : Text) (port : BitVec 16) (sock : Option Nat)
    (outcome : ConnectOutcome) : Meets c w (w.connect k ip port sock outcome) := by
  unfold World.connect
  split
  · exact Or.inl (.refl w)
  · cases sock with
    | none => exact Or.inl (.setClient _ _)
    | some fd =>
        have hdial : Leaves c w (w.dial k ip port fd) := .dial k ip port fd
        simp only
        split
        · exact (meets_connEstablish k fd).before hdial rfl
        · split
          · exact Or.inl (hdial.trans (.connecting k fd))
          · exact Or.inl ((hdial.trans (.setClient _ _)).trans (.closeFd fd))

end Births

/-! ## §6. One step. -/

section Steps

variable {c : Nat} {w w' : World} {l : Label}

/-- What a step comes to for connection `c`. -/
def Witnesses (c : Nat) (w : World) (l : Label) (w' : World) : Prop :=
  Sees c (w.opsOn c l) w w' ∨ Births c w w'

theorem Leaves.witnesses (h : Leaves c w w') (hops : w.opsOn c l = []) : Witnesses c w l w' :=
  Or.inl (hops ▸ h.sees)

theorem Meets.witnesses (h : Meets c w w') (hops : w.opsOn c l = []) : Witnesses c w l w' :=
  h.imp (fun hl => hops ▸ hl.sees) id

/-- A dispatch finds no call of the connection's `Close` waiting. -/
theorem closings_of_dispatch {ptr : HandlerPtr} {mask : EventMask} {stage : Stage}
    {rest : List Frame} (hl : Layered w.stack)
    (hst : w.stack = .handleEvent ptr mask stage :: rest) :
    rest.count (.closing c) = 0 := by
  obtain ⟨batch, rfl⟩ := Layered.below_handleEvent (hst ▸ hl)
  simp

/-- Every connection is made with a close callback. -/
theorem closeCallback_isSome (hw : Coherent w) (hc : c < w.connCount) :
    (w.conns c).closeCallback.isSome = true := by
  have hslot := (hw.conn c hc).2.2.2
  cases hcb : (w.conns c).closeCallback with
  | none => exact absurd hslot (by simp [TcpConnection.slot, hcb])
  | some callback => rfl

/-- The read test of a dispatch. -/
theorem witnesses_readTest (hw : Coherent w) (hl : Layered w.stack) {env : Env}
    {ptr : HandlerPtr} {mask : EventMask} {rest : List Frame}
    (hst : w.stack = .handleEvent ptr mask .read :: rest) (hadm : w.admits env = true) :
    Witnesses c w (.resume env) ({ w with stack := .handleEvent ptr mask .write :: rest }.testEvent
      env ptr mask World.readBits Handler.readCallback) := by
  have hw₁ := hw.advance hst .write
  have hset : Leaves c w { w with stack := .handleEvent ptr mask .write :: rest } := by
    apply Leaves.setStack
    rw [World.closings, hst]
    simp
  rcases hw₁.read_cases env ptr mask rfl with
    ⟨hno, heq⟩ | ⟨hbits, hptr, heq⟩ | ⟨d, rfl, hbits, hlive, heq⟩ | ⟨s, rfl, _, _, heq⟩
  · rw [heq]
    refine hset.witnesses ?_
    rcases hno with hno | ⟨k, n, rfl⟩
    · cases ptr <;> simp [World.opsOn, hst, hno]
    · simp [World.opsOn, hst]
  · rw [heq]
    exact Or.inl (hset.before (sees_fail Iff.rfl _))
  · rw [heq]
    by_cases hd : d = c
    · subst hd
      have hops : w.opsOn d (.resume env) = [.handleRead env.read] := by
        simp [World.opsOn, hst, hbits]
      have hr : env.read.fits (w.conns d).inputBuffer.writableBytes := by
        simpa [World.admits, hst] using hadm
      have hset' := closeCallback_isSome hw (hw₁.known_of_live hlive)
      refine Or.inl (hops ▸ hset.before (sees_tcpHandleRead ?_ hr hset'))
      show List.count _ (_ :: rest) = 0
      rw [List.count_cons_of_ne (by simp), closings_of_dispatch hl hst]
    · exact (hset.trans (.tcpHandleRead hd _)).witnesses (by simp [World.opsOn, hst, hd])
  · rw [heq]
    exact ((meets_acceptorHandleRead s _).before hset rfl).witnesses (by simp [World.opsOn, hst])

/-- The write test. -/
theorem witnesses_writeTest (hw : Coherent w) (hl : Layered w.stack) {env : Env}
    {ptr : HandlerPtr} {mask : EventMask} {rest : List Frame}
    (hst : w.stack = .handleEvent ptr mask .write :: rest) (hadm : w.admits env = true) :
    Witnesses c w (.resume env) ({ w with stack := .handleEvent ptr mask .error :: rest }.testEvent
      env ptr mask EPOLLOUT Handler.writeCallback) := by
  have hset : Leaves c w { w with stack := .handleEvent ptr mask .error :: rest } := by
    apply Leaves.setStack
    rw [World.closings, hst]
    simp
  rcases (hw.advance hst .error).write_cases env ptr mask rfl with
    ⟨hno, heq⟩ | ⟨hbits, hptr, heq⟩ | ⟨d, rfl, hbits, hlive, heq⟩ | ⟨k, n, g, rfl, _, _, heq⟩
  · rw [heq]
    refine hset.witnesses ?_
    rcases hno with hno | ⟨s, rfl⟩
    · cases ptr <;> simp [World.opsOn, hst, hno]
    · simp [World.opsOn, hst]
  · rw [heq]
    exact Or.inl (hset.before (sees_fail Iff.rfl _))
  · rw [heq]
    by_cases hd : d = c
    · subst hd
      have hops : w.opsOn d (.resume env) = [.handleWrite env.write] := by
        simp [World.opsOn, hst, hbits]
      have hout : env.write.fits (w.conns d).outPutBuffer.readableBytes := by
        simpa [World.admits, hst] using hadm
      refine Or.inl (hops ▸ hset.before (sees_tcpHandleWrite ?_ hout))
      show List.count _ (_ :: rest) = 0
      rw [List.count_cons_of_ne (by simp), closings_of_dispatch hl hst]
    · exact (hset.trans (.tcpHandleWrite hd _ _)).witnesses (by simp [World.opsOn, hst, hd])
  · rw [heq]
    exact ((meets_clientHandleWrite k _).before hset rfl).witnesses (by simp [World.opsOn, hst])

theorem witnesses_disconnect (k : Nat) (ok : Bool) :
    Witnesses c w (.user (.disconnect k ok)) (w.disconnect k ok) := by
  have hset : Leaves c w (w.setClient k { w.clients k with state := .disConnected }) :=
    .setClient _ _
  have hsame : ((w.setClient k { w.clients k with state := .disConnected }).clients k).conn
      = (w.clients k).conn := by
    simp [World.setClient]
  unfold World.disconnect
  generalize w.setClient k { w.clients k with state := .disConnected } = v at hset hsame
  simp only [hsame]
  cases hconn : (w.clients k).conn with
  | none => exact (hset.trans (.fail _)).witnesses (by simp [World.opsOn, hconn])
  | some d =>
      by_cases hd : d = c
      · subst hd
        exact Or.inl (by simpa [World.opsOn, hconn] using hset.before sees_shutDown)
      · exact (hset.trans (.shutDown hd ok)).witnesses (by simp [World.opsOn, hconn, hd])

/-- **One step** of the process is the operations it makes on the connection, or
makes it. -/
theorem sees_next (hw : Coherent w) (hl : Layered w.stack) (hnext : w.next l = some w') :
    Witnesses c w l w' := by
  obtain ⟨_, hturn⟩ := World.next_turn hnext
  have hkept : ∀ kept, Leaves c w { w with kept := kept } := fun _ => .of_eq rfl rfl rfl rfl rfl
  cases hturn with
  | poll hst => exact (Leaves.push (by simp)).witnesses rfl
  | loopEnd hst => exact (Leaves.pop hst (by simp)).witnesses (by simp [World.opsOn, hst])
  | loopStale hst hptr => exact (Leaves.fail _).witnesses (by simp [World.opsOn, hst])
  | loopNext hst hptr =>
      refine Leaves.witnesses (Leaves.setStack ?_) (by simp [World.opsOn, hst])
      rw [World.closings, hst]
      simp
  | readTest hst hadm => exact witnesses_readTest hw hl hst hadm
  | writeTest hst hadm => exact witnesses_writeTest hw hl hst hadm
  | @errorTest env ptr mask rest hst =>
      have hset : Leaves c w { w with stack := rest } := .pop hst (by simp)
      have hops : w.opsOn c (.resume env) = [] := by
        cases ptr <;> simp [World.opsOn, hst]
      rcases (hw.pop hst).error_cases env ptr mask rfl with
        ⟨_, heq⟩ | ⟨_, _, heq⟩ | ⟨k, n, g, _, _, _, heq⟩
      · rw [heq]
        exact hset.witnesses hops
      · rw [heq]
        exact (hset.trans (.fail _)).witnesses hops
      · rw [heq]
        exact (hset.trans (.clientHandleError k)).witnesses hops
  | @finishClose env d rest hst =>
      by_cases hd : d = c
      · subst hd
        exact Or.inl (by simpa [World.opsOn, hst] using sees_finishClose hst)
      · have hset : Leaves c w { w with stack := rest } := .pop hst (by simp [hd])
        exact (hset.trans (.finishClose hd)).witnesses (by simp [World.opsOn, hst, hd])
  | connect hsock => exact (meets_connect _ _ _ _ _).witnesses rfl
  | disconnect => exact witnesses_disconnect _ _
  | @clientSend k mem data len out hout =>
      unfold World.clientSend
      cases hconn : (w.clients k).conn with
      | none => exact (Leaves.refl w).witnesses (by simp [World.opsOn, hconn])
      | some d =>
          by_cases hd : d = c
          · subst hd
            exact Or.inl (by simpa [World.opsOn, hconn] using sees_send hout)
          · exact (Leaves.send hd mem data len out).witnesses (by simp [World.opsOn, hconn, hd])
  | setConnectionCallback => exact (Leaves.setClient _ _).witnesses rfl
  | setMessageCallback => exact (Leaves.setClient _ _).witnesses rfl
  | setDisconnectCallback => exact (Leaves.setClient _ _).witnesses rfl
  | serverStart hacc hfd => exact (Leaves.serverStart _ _).witnesses rfl
  | serverSetConnCallback => exact (Leaves.setServer _ _).witnesses rfl
  | serverSetMessageCallback => exact (Leaves.setServer _ _).witnesses rfl
  | @send d mem data len out hacc hout =>
      by_cases hd : d = c
      · subst hd
        exact Or.inl (by simpa [World.opsOn] using sees_send hout)
      · exact (Leaves.send hd mem data len out).witnesses (by simp [World.opsOn, hd])
  | @shutDown d ok hacc =>
      by_cases hd : d = c
      · subst hd
        exact Or.inl (by simpa [World.opsOn] using sees_shutDown)
      · exact (Leaves.shutDown hd ok).witnesses (by simp [World.opsOn, hd])
  | @close d hacc =>
      by_cases hd : d = c
      · subst hd
        have hset := closeCallback_isSome hw (hw.known_of_live (Coherent.live_of_accessible hacc))
        exact Or.inl (by simpa [World.opsOn] using sees_close hset)
      · exact (Leaves.close hd).witnesses (by simp [World.opsOn, hd])
  | @retrieve d len hacc =>
      by_cases hd : d = c
      · subst hd
        exact Or.inl (by simpa [World.opsOn] using sees_retrieve len)
      · exact (Leaves.setConn hd _).witnesses (by simp [World.opsOn, hd])
  | @retrieveAll d hacc =>
      by_cases hd : d = c
      · subst hd
        exact Or.inl (by simpa [World.opsOn] using sees_retrieveAll)
      · exact (Leaves.setConn hd _).witnesses (by simp [World.opsOn, hd])
  | keep hacc => exact (hkept _).witnesses rfl
  | drop hdrop => exact ((hkept _).trans (.release _)).witnesses rfl
  | retConnection hst =>
      exact ((Leaves.pop hst (by simp)).trans (.release _)).witnesses rfl
  | retMessage hst => exact ((Leaves.pop hst (by simp)).trans (.release _)).witnesses rfl
  | retDisconnect hst => exact (Leaves.pop hst (by simp)).witnesses rfl

/-- A connection that is not made yet is not called. -/
theorem opsOn_unborn (hw : Coherent w) (hc : w.connCount ≤ c) (hnext : w.next l = some w') :
    w.opsOn c l = [] := by
  have hlive : ∀ d, w.live d = true → d ≠ c := fun d hd heq =>
    absurd (hw.known_of_live hd) (heq ▸ Nat.not_lt.mpr hc)
  have hframe : ∀ f ∈ w.stack, f.mentions c = true → False := fun f hf hm =>
    absurd (hw.stack f hf c hm) (Nat.not_lt.mpr hc)
  have hclient : ∀ k, (w.clients k).conn ≠ some c := fun k hk =>
    hlive c (hw.live_of_slot (σ := .client k) hk) rfl
  obtain ⟨_, hturn⟩ := World.next_turn hnext
  cases hturn with
  | loopEnd hst => simp [World.opsOn, hst]
  | loopStale hst hptr => simp [World.opsOn, hst]
  | loopNext hst hptr => simp [World.opsOn, hst]
  | @readTest env ptr mask rest hst hadm =>
      have hmem : (.handleEvent ptr mask .read : Frame) ∈ w.stack := by simp [hst]
      cases ptr with
      | conn d =>
          have hd : d ≠ c := fun heq => hframe _ hmem (by simp [Frame.mentions, heq])
          simp [World.opsOn, hst, hd]
      | _ => simp [World.opsOn, hst]
  | @writeTest env ptr mask rest hst hadm =>
      have hmem : (.handleEvent ptr mask .write : Frame) ∈ w.stack := by simp [hst]
      cases ptr with
      | conn d =>
          have hd : d ≠ c := fun heq => hframe _ hmem (by simp [Frame.mentions, heq])
          simp [World.opsOn, hst, hd]
      | _ => simp [World.opsOn, hst]
  | @errorTest env ptr mask rest hst => cases ptr <;> simp [World.opsOn, hst]
  | @finishClose env d rest hst =>
      have hmem : (.closing d : Frame) ∈ w.stack := by simp [hst]
      have hd : d ≠ c := fun heq => hframe _ hmem (by simp [Frame.mentions, Frame.holds, heq])
      simp [World.opsOn, hst, hd]
  | disconnect => exact if_neg (hclient _)
  | clientSend hout => exact if_neg (hclient _)
  | send hacc hout => exact if_neg (hlive _ (Coherent.live_of_accessible hacc))
  | shutDown hacc => exact if_neg (hlive _ (Coherent.live_of_accessible hacc))
  | close hacc => exact if_neg (hlive _ (Coherent.live_of_accessible hacc))
  | retrieve hacc => exact if_neg (hlive _ (Coherent.live_of_accessible hacc))
  | retrieveAll hacc => exact if_neg (hlive _ (Coherent.live_of_accessible hacc))
  | _ => rfl

end Steps

/-! ## §7. Whole runs. -/

section Runs

variable {c : Nat} {w w' : World} {labels : List Label}

/-- A step that is followed by another, or by an end without a fault, has none. -/
theorem fault_of_exec {v : World} (hrun : exec World.next v labels = some w')
    (hfault : w'.fault = none) : v.fault = none := by
  cases labels with
  | nil =>
      cases hrun
      exact hfault
  | cons l labels =>
      obtain ⟨_, hnext, _⟩ := exec_cons_eq_some.mp hrun
      exact (World.next_turn hnext).1

theorem opsAlong_cons {l : Label} (hnext : w.next l = some w') :
    w.opsAlong c (l :: labels)
      = (if w.connCount ≤ c ∧ c < w'.connCount then [.start] else w.opsOn c l)
        ++ w'.opsAlong c labels := by
  simp only [World.opsAlong, hnext]

/-- A connection that exists goes on as the session goes on. -/
theorem hosts_exec : ∀ {labels : List Label} {v : World}, Coherent v → Layered v.stack →
    c < v.connCount → exec World.next v labels = some w → w.fault = none → ∀ s, v.Hosts c s →
      ∃ s', exec Session.step s (v.opsAlong c labels) = some s' ∧ w.Hosts c s' := by
  intro labels
  induction labels with
  | nil =>
      intro v _ _ _ hrun _ s hs
      cases hrun
      exact ⟨s, rfl, hs⟩
  | cons l labels ih =>
      intro v hv hl hc hrun hfault s hs
      obtain ⟨u, hnext, hrest⟩ := exec_cons_eq_some.mp hrun
      rcases sees_next (c := c) hv hl hnext with hsees | hbirth
      · obtain ⟨s₁, h1, hs₁⟩ := hsees.follows (fault_of_exec hrest hfault) s hs
        obtain ⟨s', h2, hs'⟩ := ih (hv.next hnext) (hl.next hnext) (hsees.known.mpr hc) hrest
          hfault s₁ hs₁
        refine ⟨s', ?_, hs'⟩
        rw [opsAlong_cons hnext, if_neg fun h => Nat.not_lt.mpr h.1 hc]
        exact exec_append_eq_some.mpr ⟨s₁, h1, h2⟩
      · exact absurd hbirth.new (Nat.ne_of_lt hc)

/-- A step makes at most one operation on a connection. -/
theorem opsOn_cases (w : World) (c : Nat) (l : Label) :
    w.opsOn c l = [] ∨ ∃ op, w.opsOn c l = [op] := by
  have hite : ∀ (p : Prop) [Decidable p] (op : ConnOp),
      (if p then [op] else []) = [] ∨ ∃ op', (if p then [op] else []) = [op'] := by
    intro p _ op
    split
    · exact Or.inr ⟨op, rfl⟩
    · exact Or.inl rfl
  unfold World.opsOn
  split
  · split <;> first | exact hite _ _ | exact Or.inl rfl
  all_goals first | exact hite _ _ | exact Or.inl rfl

/-- Each operation of the run is made on an object that meets the condition. -/
def MeetsOps (C : TcpConnection → ConnOp → Prop) (c : Nat) (w : World) (l : Label) : Prop :=
  ∀ op ∈ w.opsOn c l, C (w.conns c) op

/-- What the steps of the process meet, the steps of the session meet. -/
theorem hosts_along {C : TcpConnection → ConnOp → Prop} : ∀ {labels : List Label} {v : World},
    Coherent v → Layered v.stack → c < v.connCount → exec World.next v labels = some w →
    w.fault = none → ∀ s, v.Hosts c s → Along World.next (MeetsOps C c) v labels →
      Along Session.step (fun s op => C s.conn op) s (v.opsAlong c labels) := by
  intro labels
  induction labels with
  | nil => exact fun _ _ _ _ _ _ _ _ => trivial
  | cons l labels ih =>
      intro v hv hl hc hrun hfault s hs halong
      obtain ⟨u, hnext, hrest⟩ := exec_cons_eq_some.mp hrun
      rw [opsAlong_cons hnext, if_neg fun h => Nat.not_lt.mpr h.1 hc]
      rcases sees_next (c := c) hv hl hnext with hsees | hbirth
      · obtain ⟨s₁, h1, hs₁⟩ := hsees.follows (fault_of_exec hrest hfault) s hs
        have hrec := ih (hv.next hnext) (hl.next hnext) (hsees.known.mpr hc) hrest hfault s₁ hs₁
          (halong.2 u hnext)
        have hmeets := halong.1
        unfold MeetsOps at hmeets
        rcases opsOn_cases v c l with hops | ⟨op, hops⟩
        · rw [hops] at h1 ⊢
          cases h1
          exact hrec
        · rw [hops] at h1 hmeets ⊢
          obtain ⟨s₂, hstep, hnil⟩ := exec_cons_eq_some.mp h1
          cases hnil
          exact Along.cons hstep (hs.conn ▸ hmeets op List.mem_cons_self) hrec
      · exact absurd hbirth.new (Nat.ne_of_lt hc)

/-- One that does not exist yet is started first. -/
theorem hosts_exec_unborn : ∀ {labels : List Label} {v : World}, Coherent v → Layered v.stack →
    v.connCount ≤ c → v.marks c = [] → v.closings c = 0 →
    exec World.next v labels = some w → w.fault = none → c < w.connCount →
      ∃ x s₁ s ops, x.asMade c = x ∧ v.opsAlong c labels = .start :: ops
        ∧ (Session.of x).step .start = some s₁ ∧ exec Session.step s₁ ops = some s
        ∧ w.Hosts c s
        ∧ ∀ C, Along World.next (MeetsOps C c) v labels →
            Along Session.step (fun s op => C s.conn op) s₁ ops := by
  intro labels
  induction labels with
  | nil =>
      intro v _ _ hc _ _ hrun _ hw
      cases hrun
      exact absurd hw (Nat.not_lt.mpr hc)
  | cons l labels ih =>
      intro v hv hl hc hmarks hclosings hrun hfault hw
      obtain ⟨u, hnext, hrest⟩ := exec_cons_eq_some.mp hrun
      have hufault := fault_of_exec hrest hfault
      rcases sees_next (c := c) hv hl hnext with hsees | hbirth
      · rw [opsOn_unborn hv hc hnext] at hsees
        -- it is still not there, and has no history
        have hu : ¬ c < u.connCount := fun h => Nat.not_lt.mpr hc (hsees.known.mp h)
        obtain ⟨s, hnil, hs⟩ := hsees.follows hufault (Session.of (v.conns c))
          ⟨rfl, hmarks.symm, hclosings.symm⟩
        cases hnil
        obtain ⟨x, s₁, s', ops, hx, hops, hstart, hexec, hs', halong⟩ := ih (hv.next hnext)
          (hl.next hnext) (Nat.not_lt.mp hu) hs.marks.symm hs.closing.symm hrest hfault hw
        refine ⟨x, s₁, s', ops, hx, ?_, hstart, hexec, hs', fun C hC => halong C (hC.2 u hnext)⟩
        rw [opsAlong_cons hnext, if_neg fun h => hu h.2, opsOn_unborn hv hc hnext]
        exact hops
      · obtain ⟨x, s₁, hx, hstart, hs₁⟩ := hbirth.hosts hufault hmarks hclosings
        obtain ⟨s', h2, hs'⟩ := hosts_exec (hv.next hnext) (hl.next hnext) hbirth.known hrest
          hfault s₁ hs₁
        refine ⟨x, s₁, s', u.opsAlong c labels, hx, ?_, hstart, h2, hs', fun C hC => ?_⟩
        · rw [opsAlong_cons hnext, if_pos ⟨hc, hbirth.known⟩]
          rfl
        · exact hosts_along (hv.next hnext) (hl.next hnext) hbirth.known hrest hfault s₁ hs₁
            (hC.2 u hnext)

/-- From the start of the process. -/
theorem hosts_exec_init (hrun : exec World.next World.init labels = some w)
    (hfault : w.fault = none) (hc : c < w.connCount) :
    ∃ x s₁ s ops, x.asMade c = x ∧ World.init.opsAlong c labels = .start :: ops
      ∧ (Session.of x).step .start = some s₁ ∧ exec Session.step s₁ ops = some s ∧ w.Hosts c s
      ∧ ∀ C, Along World.next (MeetsOps C c) World.init labels →
          Along Session.step (fun s op => C s.conn op) s₁ ops :=
  hosts_exec_unborn coherent_init Layered.nil (Nat.zero_le c) rfl rfl hrun hfault hc

/-- No operation of a session changes what the object was made with. -/
theorem parts_step (x : TcpConnection) (s : Session) (op : ConnOp) (s' : Session)
    (h : s.conn.parts = x.parts) (hstep : s.step op = some s') : s'.conn.parts = x.parts := by
  rw [← h]
  cases op with
  | start =>
      cases hstep
      rfl
  | send mem data len out =>
      obtain ⟨_, rfl⟩ := Session.step_send hstep
      exact TcpConnection.parts_send _ _ _ _ _
  | handleWrite out =>
      obtain ⟨_, rfl⟩ := Session.step_handleWrite hstep
      exact TcpConnection.parts_handleWrite _ _
  | handleRead r =>
      obtain ⟨_, ⟨_, _, rfl⟩ | ⟨_, rfl⟩ | ⟨bytes, _, rfl⟩⟩ := Session.step_handleRead hstep
      · rfl
      · rfl
      · exact TcpConnection.parts_receive _ _
  | retrieve len =>
      cases hstep
      exact TcpConnection.parts_retrieve _ _
  | retrieveAll =>
      cases hstep
      rfl
  | shutDown =>
      cases hstep
      exact TcpConnection.parts_shutDown _
  | close =>
      cases hstep
      rfl
  | closeReturn =>
      obtain ⟨_, rfl⟩ := Session.step_closeReturn hstep
      rfl

/-- The parts are all that is left of the constructor. -/
theorem asMade_congr {x y : TcpConnection} (h : x.parts = y.parts) : x.asMade c = y.asMade c := by
  simp only [TcpConnection.parts, ConnParts.mk.injEq] at h
  simp only [TcpConnection.asMade, h]

/-- **Every connection of a process is a session.**  In every run that has not
ended, take a connection and the operations made on it, in their order, whoever
made them and whatever happened to other connections in between.  They begin with
`Start` and are a run of the session of a connection just constructed, with every
guard of `step` met; it ends with the same object, with the same writes, FINs,
`Close` entries and message callbacks on record, and with as many calls of
`Close` waiting. -/
theorem World.hosted (labels : List Label) (w : World) (c : Nat)
    (hrun : exec World.next World.init labels = some w) (hfault : w.fault = none)
    (hc : c < w.connCount) :
    (World.init.opsAlong c labels).head?.any (fun op => op matches .start) = true
      ∧ ∃ s, exec Session.step (Session.of ((w.conns c).asMade c)) (World.init.opsAlong c labels)
          = some s
        ∧ w.Hosts c s := by
  obtain ⟨x, s₁, s, ops, hx, hops, hstart, hrest, hs, _⟩ := hosts_exec_init hrun hfault hc
  have hexec : exec Session.step (Session.of x) (.start :: ops) = some s :=
    exec_cons_eq_some.mpr ⟨s₁, hstart, hrest⟩
  have hparts : s.conn.parts = x.parts :=
    exec_invariant (I := fun s => s.conn.parts = x.parts) (parts_step x) rfl hexec
  rw [hops]
  refine ⟨rfl, s, ?_, hs⟩
  rw [← hs.conn, asMade_congr hparts, hx]
  exact hexec

end Runs

/-- A server accepts a connection, reads three bytes from it, sends three of
which one is written, and takes two out of the buffer. -/
def servedRun : List Label :=
  [.user (.serverSetMessageCallback 0 true), .user (.serverStart 0 3), .poll [(3, EPOLLIN)],
   .resume .idle, .resume { Env.idle with accept := .conn 5 InetAdress.new.addr }, .resume .idle,
   .resume .idle, .resume .idle, .poll [(5, EPOLLIN)], .resume .idle,
   .resume { Env.idle with read := .data [7, 8, 9] },
   .user (.send 0 (fun p => UInt8.ofNat p.toNat) 1 3 (.accepted 1)), .user (.retrieve 0 2), .ret]

/-- The theorem on that run. -/
theorem World.hosted_on_run :
    ∃ w, exec World.next World.init servedRun = some w ∧ 0 < w.connCount
      ∧ ∃ s, exec Session.step (Session.of ((w.conns 0).asMade 0))
          (World.init.opsAlong 0 servedRun) = some s
        ∧ w.Hosts 0 s := by
  have h : (exec World.next World.init servedRun).map
      (fun w => (w.fault, decide (0 < w.connCount))) = some (none, true) := by
    decide +kernel
  obtain ⟨w, hrun, hw⟩ := Option.map_eq_some_iff.mp h
  obtain ⟨hfault, hc⟩ := Prod.mk.inj hw
  have hknown := of_decide_eq_true hc
  exact ⟨w, hrun, hknown, (World.hosted servedRun w 0 hrun hfault hknown).2⟩

/-! ## §8. Write interest in the kernel. -/

/-- The mask of a connection that is read, and written if bytes are queued. -/
def openMask (queue : List Byte) : EventMask :=
  EPOLLIN ||| EPOLLPRI ||| if queue = [] then 0#32 else EPOLLOUT

/-- The handler is read; whether it is written is `TracksOutput`. -/
def Handler.IsRead {CB : Type} (h : Handler CB) : Prop :=
  h.events = EPOLLIN ||| EPOLLPRI ∨ h.events = EPOLLIN ||| EPOLLPRI ||| EPOLLOUT

theorem Handler.IsRead.enableWrite {CB : Type} {h : Handler CB} (hr : h.IsRead) :
    h.enableWrite.IsRead := by
  right
  show h.events ||| EPOLLOUT = _
  rcases hr with hr | hr <;> rw [hr]
  decide

theorem Handler.IsRead.disableWrite {CB : Type} {h : Handler CB} (hr : h.IsRead) :
    h.disableWrite.IsRead := by
  left
  show h.events &&& ~~~EPOLLOUT = _
  rcases hr with hr | hr <;> rw [hr] <;> decide

theorem Handler.IsRead.enableRead {CB : Type} {h : Handler CB} (hr : h.IsRead) :
    h.enableRead.IsRead := by
  show h.events ||| (EPOLLIN ||| EPOLLPRI) = _ ∨ h.events ||| (EPOLLIN ||| EPOLLPRI) = _
  rcases hr with hr | hr <;> rw [hr]
  · exact Or.inl (by decide)
  · exact Or.inr (by decide)

namespace Session

variable {s s' : Session}

/-- `send` changes the mask by `EnableWrite` only. -/
theorem isRead_send {c : TcpConnection} (h : c.handler.IsRead) (mem : Memory) (data len : SizeT)
    (w : WriteOutcome) : (c.send mem data len w).1.handler.IsRead := by
  by_cases hst : c.state = .disConnected
  · rw [TcpConnection.send_disConnected hst]
    exact h
  cases hd : c.writesDirectly with
  | true =>
      rw [TcpConnection.send_direct hst hd]
      split
      · exact h
      · exact h.enableWrite
  | false =>
      rw [TcpConnection.send_queued hst hd]
      split
      · exact h
      · cases hw : c.handler.isWriting with
        | true => simpa [hw] using h
        | false => simpa [hw] using h.enableWrite

/-- `HandleWrite` by `DisableWrite` only. -/
theorem isRead_handleWrite {c : TcpConnection} (h : c.handler.IsRead) (w : WriteOutcome) :
    (c.handleWrite w).1.handler.IsRead := by
  cases hw : c.handler.isWriting with
  | false =>
      rw [TcpConnection.handleWrite_idle hw]
      exact h
  | true =>
      cases w with
      | failed errno =>
          rw [TcpConnection.handleWrite_failed hw]
          exact h
      | accepted n =>
          rw [TcpConnection.handleWrite_accepted hw]
          split
          · exact h.disableWrite
          · exact h

/-- A connection that is started and not closed. -/
structure Open (s : Session) : Prop where
  read : s.closeEntered = false → s.conn.handler.IsRead
  tracks : s.closeEntered = false → TracksOutput s.conn
  /-- The entry is on record. -/
  entered : s.closeEntered = true → .closeEntered ∈ s.marks

theorem mem_marks {e : SessionEvent} {m : Mark} (hm : e.mark? = some m) (he : e ∈ s.events) :
    m ∈ s.marks :=
  List.mem_filterMap.mpr ⟨e, he, hm⟩

/-- Member functions only add to the record. -/
theorem marks_after (r : TcpConnection × List SockCall) : ∀ m ∈ s.marks, m ∈ (s.after r).marks := by
  intro m hm
  show m ∈ ((r.2.map SessionEvent.call).reverse ++ s.events).filterMap SessionEvent.mark?
  rw [List.filterMap_append]
  exact List.mem_append_right _ hm

theorem open_step (s : Session) (op : ConnOp) (s' : Session) (h : s.Open)
    (hstep : s.step op = some s') : s'.Open := by
  have htracks := tracksOutput_step s op s' h.tracks hstep
  have hclose : ∀ hs : s.close.closeEntered = false → TracksOutput s.close.conn, s.close.Open :=
    fun hs => ⟨fun hopen => absurd hopen (by simp [close]), hs,
      fun _ => mem_marks (e := .closeEntered) rfl (by simp [close, after])⟩
  cases op with
  | start =>
      cases hstep
      exact ⟨fun hopen => (h.read hopen).enableRead, htracks,
        fun he => marks_after _ _ (h.entered he)⟩
  | send mem data len w =>
      obtain ⟨_, rfl⟩ := step_send hstep
      exact ⟨fun hopen => isRead_send (h.read hopen) _ _ _ _, htracks,
        fun he => marks_after _ _ (h.entered he)⟩
  | handleWrite w =>
      obtain ⟨_, rfl⟩ := step_handleWrite hstep
      exact ⟨fun hopen => isRead_handleWrite (h.read hopen) _, htracks,
        fun he => marks_after _ _ (h.entered he)⟩
  | handleRead r =>
      obtain ⟨_, ⟨_, _, rfl⟩ | ⟨_, rfl⟩ | ⟨bytes, _, rfl⟩⟩ := step_handleRead hstep
      · exact h
      · exact hclose htracks
      · exact ⟨h.read, htracks, fun he => List.mem_cons_of_mem Mark.message (h.entered he)⟩
  | retrieve len =>
      cases hstep
      exact ⟨h.read, htracks, h.entered⟩
  | retrieveAll =>
      cases hstep
      exact ⟨h.read, htracks, h.entered⟩
  | shutDown =>
      cases hstep
      refine ⟨fun hopen => ?_, htracks, fun he => marks_after _ _ ?_⟩
      · show s.conn.shutDown.1.handler.IsRead
        rw [TcpConnection.handler_shutDown]
        exact h.read hopen
      · show _ ∈ (SessionEvent.shutDownCalled :: s.events).filterMap SessionEvent.mark?
        rw [List.filterMap_cons_none rfl]
        exact h.entered he
  | close =>
      cases hstep
      exact hclose htracks
  | closeReturn =>
      obtain ⟨_, rfl⟩ := step_closeReturn hstep
      exact ⟨h.read, htracks, h.entered⟩

/-- The mask of an open connection. -/
theorem Open.events (h : s.Open) (hopen : s.closeEntered = false) :
    s.conn.handler.events = openMask s.queued := by
  have htracks : s.conn.handler.isWriting = true ↔ s.queued ≠ [] := h.tracks hopen
  rcases h.read hopen with hev | hev
  · have hidle : s.conn.handler.isWriting = false := by
      rw [Handler.isWriting, hev]
      decide
    have hq : s.queued = [] := by
      by_contra hq
      exact absurd (htracks.mpr hq) (by simp [hidle])
    rw [hev, openMask, if_pos hq]
    decide
  · have hwriting : s.conn.handler.isWriting = true := by
      rw [Handler.isWriting, hev]
      decide
    rw [hev, openMask, if_neg (htracks.mp hwriting)]

end Session

section Armed

variable {c : Nat} {w : World} {labels : List Label}

/-- A connection just made is open once it is started. -/
theorem open_started {x : TcpConnection} {s : Session} (hevents : x.handler.events = 0#32)
    (hqueue : x.outPutBuffer.contents = []) (hstart : (Session.of x).step .start = some s) :
    s.Open := by
  cases hstart
  refine ⟨fun _ => Or.inl ?_, fun _ => ?_, fun he => absurd he ?_⟩
  · show x.handler.events ||| (EPOLLIN ||| EPOLLPRI) = _
    rw [hevents]
    decide
  · show x.handler.enableRead.isWriting = true ↔ x.outPutBuffer.contents ≠ []
    rw [Handler.isWriting_enableRead, Handler.isWriting_eq, hevents, hqueue]
    simp
  · show ¬ false = true
    exact Bool.false_ne_true

/-- The session of a connection stays open until `Close` is entered. -/
theorem hosts_open (hrun : exec World.next World.init labels = some w) (hfault : w.fault = none)
    (hc : c < w.connCount) : ∃ s : Session, s.Open ∧ w.Hosts c s := by
  obtain ⟨x, s₁, s, ops, hx, _, hstart, hrest, hs, _⟩ := hosts_exec_init hrun hfault hc
  have hnew : x.handler.events = 0#32 ∧ x.outPutBuffer.contents = [] := by
    rw [← hx]
    exact ⟨rfl, ValidBuffer.contents_new⟩
  have h₁ : s₁.Open := open_started hnew.1 hnew.2 hstart
  exact ⟨s, exec_invariant (I := Session.Open) Session.open_step h₁ hrest, hs⟩

/-- Where `Close` has not been entered in the process, it has not in the session. -/
theorem not_closeEntered {s : Session} (hs : w.Hosts c s) (ho : s.Open) (hopen : ¬ w.closed c) :
    s.closeEntered = false := by
  rw [Bool.eq_false_iff]
  intro he
  have hmem : Mark.closeEntered ∈ w.marks c := hs.marks ▸ ho.entered he
  obtain ⟨e, hlog, he⟩ := List.mem_filterMap.mp hmem
  cases e with
  | closeEntered d =>
      obtain rfl : d = c := by
        by_contra hd
        exact absurd he (by simp [Event.mark?, hd])
      exact hopen hlog
  | _ => exact absurd he (by simp [Event.mark?])

/-- **Queued output is armed in the kernel.**  In every run that destroys nothing
registered and has not ended: the kernel's interest set has the descriptor of
every connection that is live and not closed, with a pointer to that
connection's handler, for reading always and for writing exactly when bytes are
queued — whatever the other connections, clients and servers did. -/
theorem queued_output_is_armed (labels : List Label) (w : World) (c : Nat)
    (hrun : exec World.next World.init labels = some w) (hfault : w.fault = none)
    (hclean : Along World.next Deregisters World.init labels)
    (hlive : w.live c = true) (hopen : ¬ w.closed c) :
    w.poller.interest (w.conns c).handler.fd
      = some (openMask (w.conns c).outPutBuffer.contents, .conn c) := by
  obtain ⟨hw, hagrees⟩ : Coherent w ∧ Agrees w :=
    exec_invariant_along (I := fun w => Coherent w ∧ Agrees w)
      (fun _ _ _ h hd hnext => ⟨h.1.next hnext, h.2.next h.1 hd hnext⟩)
      ⟨coherent_init, agrees_init⟩ hclean hrun
  obtain ⟨s, ho, hs⟩ := hosts_open hrun hfault (hw.known_of_live hlive)
  have hevents := ho.events (not_closeEntered hs ho hopen)
  rw [Session.queued, hs.conn] at hevents
  refine (hagrees.mirror.interest _ _ _).mpr
    ⟨_, World.handler?_conn.mpr ⟨hlive, rfl⟩, rfl, hevents, ?_⟩
  unfold openMask
  split <;> decide

/-- The theorem on the run above: two of the bytes sent are still queued. -/
theorem queued_output_is_armed_on_run :
    ∃ w, exec World.next World.init servedRun = some w
      ∧ w.poller.interest (w.conns 0).handler.fd
        = some (openMask (w.conns 0).outPutBuffer.contents, .conn 0) := by
  have h : (exec World.next World.init servedRun).map
      (fun w => (w.fault, w.live 0, decide (w.closed 0))) = some (none, true, false) := by
    decide +kernel
  obtain ⟨w, hrun, hw⟩ := Option.map_eq_some_iff.mp h
  simp only [Prod.mk.injEq] at hw
  obtain ⟨hfault, hlive, hopen⟩ := hw
  exact ⟨w, hrun, queued_output_is_armed servedRun w 0 hrun hfault (by decide +kernel) hlive
    (of_decide_eq_false hopen)⟩

end Armed

/-! ## §9. Every byte of every connection. -/

/-- The bytes an operation passes to `send`. -/
def ConnOp.given : ConnOp → List Byte
  | .send mem data len _ => mem.read data len
  | _ => []

/-- The bytes an operation reads from the socket. -/
def ConnOp.readBytes : ConnOp → List Byte
  | .handleRead (.data bytes) => bytes
  | _ => []

/-- The bytes a mark stands for. -/
def Mark.size : Mark → Nat
  | .wrote n => n
  | _ => 0

/-- How many bytes the kernel has taken from the connection. -/
def World.taken (w : World) (c : Nat) : Nat := ((w.marks c).map Mark.size).sum

/-- `send` is called before `Close` has returned, and its direct write does not
return -1. -/
def SendsCleanly (x : TcpConnection) : ConnOp → Prop
  | .send _ _ _ out => x.state ≠ .disConnected ∧ (x.writesDirectly = true → 0 ≤ out.result)
  | _ => True

instance (x : TcpConnection) (op : ConnOp) : Decidable (SendsCleanly x op) :=
  match op with
  | .send _ _ _ out => inferInstanceAs
      (Decidable (x.state ≠ .disConnected ∧ (x.writesDirectly = true → 0 ≤ out.result)))
  | .start | .handleWrite _ | .handleRead _ | .retrieve _ | .retrieveAll | .shutDown | .close
  | .closeReturn => isTrue trivial

instance (C : TcpConnection → ConnOp → Prop) [∀ x op, Decidable (C x op)] (c : Nat) (w : World)
    (l : Label) : Decidable (MeetsOps C c w l) :=
  inferInstanceAs (Decidable (∀ op ∈ w.opsOn c l, C (w.conns c) op))

namespace Session

variable {s s' : Session}

/-- The history in step with the operations. -/
structure Booked (s : Session) (ops : List ConnOp) : Prop where
  sent : s.sent = ops.flatMap ConnOp.given
  received : s.received = ops.flatMap ConnOp.readBytes
  accepted : s.accepted.length = (s.marks.map Mark.size).sum
  input : s.InputFaithful

theorem size_of_calls : ∀ calls : List SockCall,
    (calls.flatMap SockCall.acceptedBytes).length
      = ((calls.filterMap SockCall.mark?).map Mark.size).sum := by
  intro calls
  induction calls with
  | nil => rfl
  | cons call calls ih =>
      cases call with
      | write direct bytes out => simp [SockCall.acceptedBytes, SockCall.mark?, Mark.size, ih]
      | append bytes => exact ih
      | update => exact ih
      | shutdown pending => simp [SockCall.acceptedBytes, SockCall.mark?, Mark.size, ih]

/-- A member function that reads nothing keeps the books. -/
theorem accepted_after (h : s.accepted.length = (s.marks.map Mark.size).sum)
    (r : TcpConnection × List SockCall) :
    (s.after r).accepted.length = ((s.after r).marks.map Mark.size).sum := by
  show (s.accepted ++ r.2.flatMap SockCall.acceptedBytes).length
    = ((((r.2.map SessionEvent.call).reverse ++ s.events).filterMap
        SessionEvent.mark?).map Mark.size).sum
  rw [List.length_append, h, size_of_calls, List.filterMap_append, List.filterMap_reverse,
    List.filterMap_map, List.map_append, List.sum_append, List.map_reverse, List.sum_reverse,
    Nat.add_comm]
  rfl

theorem booked_step {ops : List ConnOp} {op : ConnOp} (h : s.Booked ops)
    (hstep : s.step op = some s') : s'.Booked (ops ++ [op]) := by
  have hinput := inputFaithful_step s op s' h.input hstep
  have hgiven : ∀ {l : List Byte}, op.given = l → (ops ++ [op]).flatMap ConnOp.given
      = s.sent ++ l := fun hl => by simp [h.sent, hl]
  have hread : ∀ {l : List Byte}, op.readBytes = l → (ops ++ [op]).flatMap ConnOp.readBytes
      = s.received ++ l := fun hl => by simp [h.received, hl]
  have hsame : op.given = [] → op.readBytes = [] → s'.sent = s.sent → s'.received = s.received →
      s'.accepted.length = (s'.marks.map Mark.size).sum → s'.Booked (ops ++ [op]) :=
    fun h1 h2 hs hr ha => ⟨by rw [hgiven h1, hs, List.append_nil],
      by rw [hread h2, hr, List.append_nil], ha, hinput⟩
  have hclose : s.close.accepted.length = (s.close.marks.map Mark.size).sum :=
    accepted_after (s := { s with events := .closeEntered :: s.events })
      (h.accepted.trans (by simp [marks, SessionEvent.mark?, Mark.size])) _
  cases op with
  | start =>
      cases hstep
      exact hsame rfl rfl rfl rfl (accepted_after h.accepted _)
  | send mem data len w =>
      obtain ⟨_, rfl⟩ := step_send hstep
      exact ⟨(hgiven rfl).symm, (List.append_nil _).symm.trans (hread rfl).symm,
        accepted_after h.accepted _, hinput⟩
  | handleWrite w =>
      obtain ⟨_, rfl⟩ := step_handleWrite hstep
      exact hsame rfl rfl rfl rfl (accepted_after h.accepted _)
  | handleRead r =>
      obtain ⟨_, ⟨errno, rfl, rfl⟩ | ⟨rfl, rfl⟩ | ⟨bytes, rfl, rfl⟩⟩ := step_handleRead hstep
      · exact hsame rfl rfl rfl rfl h.accepted
      · exact hsame rfl rfl rfl rfl hclose
      · refine ⟨(List.append_nil _).symm.trans (hgiven rfl).symm, (hread rfl).symm, ?_, hinput⟩
        exact h.accepted.trans (by simp [marks, SessionEvent.mark?, Mark.size])
  | retrieve len =>
      cases hstep
      exact hsame rfl rfl rfl rfl h.accepted
  | retrieveAll =>
      cases hstep
      exact hsame rfl rfl rfl rfl h.accepted
  | shutDown =>
      cases hstep
      exact hsame rfl rfl rfl rfl (accepted_after
        (s := { s with events := .shutDownCalled :: s.events }) h.accepted _)
  | close =>
      cases hstep
      exact hsame rfl rfl rfl rfl hclose
  | closeReturn =>
      obtain ⟨_, rfl⟩ := step_closeReturn hstep
      exact hsame rfl rfl rfl rfl h.accepted

/-- Over a run. -/
theorem booked_exec : ∀ {ops : List ConnOp} {before : List ConnOp} {s : Session},
    s.Booked before → exec step s ops = some s' → s'.Booked (before ++ ops) := by
  intro ops
  induction ops with
  | nil =>
      intro before s h hrun
      cases hrun
      rwa [List.append_nil]
  | cons op ops ih =>
      intro before s h hrun
      obtain ⟨s₁, h1, h2⟩ := exec_cons_eq_some.mp hrun
      have hbooked := ih (booked_step h h1) h2
      rwa [List.append_assoc] at hbooked

/-- The output law under `SendsCleanly`. -/
theorem outputFaithful_clean (s : Session) (op : ConnOp) (s' : Session) (h : s.OutputFaithful)
    (hclean : SendsCleanly s.conn op) (hstep : s.step op = some s') : s'.OutputFaithful := by
  cases op with
  | send mem data len w =>
      obtain ⟨hfits, rfl⟩ := step_send hstep
      obtain ⟨hst, hok⟩ := hclean
      exact h.conserve _ (send_conserves hst hfits hok)
  | _ =>
      refine outputFaithful_step s _ s' h ?_ ?_ hstep
      · exact trivial
      · exact trivial

end Session

/-- The session of a connection from its start, with its books. -/
theorem hosts_booked {labels : List Label} {w : World} {c : Nat}
    (hrun : exec World.next World.init labels = some w) (hfault : w.fault = none)
    (hc : c < w.connCount) :
    ∃ s ops, World.init.opsAlong c labels = .start :: ops
      ∧ exec Session.step (Session.started c (w.conns c)) ops = some s ∧ w.Hosts c s
      ∧ s.Booked (.start :: ops)
      ∧ (Along World.next (MeetsOps SendsCleanly c) World.init labels → s.OutputFaithful) := by
  obtain ⟨x, s₁, s, ops, hx, hops, hstart, hrest, hs, halong⟩ := hosts_exec_init hrun hfault hc
  have hexec : exec Session.step (Session.of x) (.start :: ops) = some s :=
    exec_cons_eq_some.mpr ⟨s₁, hstart, hrest⟩
  have hparts : s.conn.parts = x.parts :=
    exec_invariant (I := fun s => s.conn.parts = x.parts) (parts_step x) rfl hexec
  have hmade : (w.conns c).asMade c = x := by
    rw [← hs.conn, asMade_congr hparts, hx]
  have hfirst : s₁ = Session.started c (w.conns c) := by
    rw [Session.started, hmade]
    exact (Option.some.inj hstart).symm
  have hempty : x.inputBuffer.contents = [] ∧ x.outPutBuffer.contents = [] := by
    rw [← hx]
    exact ⟨ValidBuffer.contents_new, ValidBuffer.contents_new⟩
  -- a connection just made has no history
  have hof : (Session.of x).Booked [] := ⟨rfl, rfl, rfl, hempty.1⟩
  refine ⟨s, ops, hops, hfirst ▸ hrest, hs, Session.booked_exec hof hexec, fun hclean => ?_⟩
  have hbegin : s₁.OutputFaithful :=
    Session.outputFaithful_clean (Session.of x) .start s₁ hempty.2 trivial hstart
  exact exec_invariant_along (I := Session.OutputFaithful) Session.outputFaithful_clean hbegin
    (halong _ hclean) hrest

/-- **Every byte of every connection is accounted for**, in every run that has not
ended, in the session `s` of the connection (`World.hosted`).  What was read from
it is what the callbacks and the application have taken out of the input buffer
with `Retrieve` and `RetrieveAll`, which is `s.consumed`, followed by what is
there.  If every `send` on it was clean, what was sent on it is what the kernel
has taken, as many bytes as the process's `write` calls returned, followed by the
output queue. -/
theorem bytes_accounted (labels : List Label) (w : World) (c : Nat)
    (hrun : exec World.next World.init labels = some w) (hfault : w.fault = none)
    (hc : c < w.connCount) :
    ∃ s, exec Session.step (Session.of ((w.conns c).asMade c)) (World.init.opsAlong c labels)
        = some s
      ∧ w.Hosts c s
      ∧ s.consumed ++ (w.conns c).inputBuffer.contents
        = (World.init.opsAlong c labels).flatMap ConnOp.readBytes
      ∧ (Along World.next (MeetsOps SendsCleanly c) World.init labels →
          s.accepted ++ (w.conns c).outPutBuffer.contents
            = (World.init.opsAlong c labels).flatMap ConnOp.given
          ∧ s.accepted.length = w.taken c) := by
  obtain ⟨s, ops, hops, hexec, hs, hbooked, hclean⟩ := hosts_booked hrun hfault hc
  rw [hops]
  refine ⟨s, exec_cons_eq_some.mpr ⟨_, rfl, hexec⟩, hs, ?_, fun hsends => ⟨?_, ?_⟩⟩
  · rw [← hbooked.received, ← hs.conn]
    exact hbooked.input
  · rw [← hbooked.sent, ← hs.conn]
    exact hclean hsends
  · rw [World.taken, ← hs.marks]
    exact hbooked.accepted

/-- The theorem on the run above: two of the three bytes read were retrieved. -/
theorem bytes_accounted_on_run :
    ∃ w, exec World.next World.init servedRun = some w
      ∧ ∃ s, exec Session.step (Session.of ((w.conns 0).asMade 0))
          (World.init.opsAlong 0 servedRun) = some s
        ∧ s.consumed ++ (w.conns 0).inputBuffer.contents
          = (World.init.opsAlong 0 servedRun).flatMap ConnOp.readBytes
        ∧ s.accepted ++ (w.conns 0).outPutBuffer.contents
          = (World.init.opsAlong 0 servedRun).flatMap ConnOp.given
        ∧ s.accepted.length = w.taken 0 := by
  have h : (exec World.next World.init servedRun).map
      (fun w => (w.fault, decide (0 < w.connCount))) = some (none, true) := by
    decide +kernel
  obtain ⟨w, hrun, hw⟩ := Option.map_eq_some_iff.mp h
  obtain ⟨hfault, hc⟩ := Prod.mk.inj hw
  obtain ⟨s, hexec, _, hin, hout⟩ :=
    bytes_accounted servedRun w 0 hrun hfault (of_decide_eq_true hc)
  exact ⟨w, hrun, s, hexec, hin, hout (by decide +kernel)⟩

end SparkNet
