/-
  SparkNet.Ownership — what every reachable world has in common.

  Most library functions leave ownership alone: they change masks, buffers, the
  poller and descriptors, and log what the kernel answered.  `Quiet` collects
  what such a change keeps.  The few functions that do move pointers are
  treated one by one, and `Coherent` is the invariant they all keep: slots hold
  open connections bound to them, every connection ever made is still in its
  slot or was closed or displaced, and handlers call back the object that owns
  them.

  Main results:
    * `coherent_reachable` — every reachable world is coherent,
    * `Coherent.live_iff` — a connection is live exactly when some slot, kept
      copy or frame holds it.
-/
import SparkNet.Loop

namespace SparkNet

open Runs

/-! ## §1. What a connection keeps for life. -/

/-- The members no member function assigns. -/
structure ConnParts where
  name : Text
  addr : InetAdress
  fd : Nat
  readCallback : Option HandlerCallback
  writeCallback : Option HandlerCallback
  errorCallback : Option HandlerCallback
  msgCallback : Bool
  connCallback : Bool
  closeCallback : Option CloseCallback

namespace TcpConnection

def parts (x : TcpConnection) : ConnParts where
  name := x.name
  addr := x.addr
  fd := x.handler.fd
  readCallback := x.handler.readCallback
  writeCallback := x.handler.writeCallback
  errorCallback := x.handler.errorCallback
  msgCallback := x.msgCallback
  connCallback := x.connCallback
  closeCallback := x.closeCallback

@[simp] theorem parts_send (x : TcpConnection) (mem : Memory) (data len : SizeT)
    (out : WriteOutcome) : (x.send mem data len out).1.parts = x.parts := by
  unfold send
  simp only
  split_ifs <;> rfl

@[simp] theorem parts_shutDown (x : TcpConnection) : x.shutDown.1.parts = x.parts := by
  rw [shutDown_eq]
  split <;> rfl

@[simp] theorem parts_handleWrite (x : TcpConnection) (out : WriteOutcome) :
    (x.handleWrite out).1.parts = x.parts := by
  unfold handleWrite
  simp only
  split_ifs <;> rfl

@[simp] theorem parts_receive (x : TcpConnection) (bytes : List Byte) :
    (x.receive bytes).parts = x.parts := rfl

@[simp] theorem parts_closeEnter (x : TcpConnection) : x.closeEnter.1.parts = x.parts := rfl

@[simp] theorem parts_closeReturn (x : TcpConnection) : x.closeReturn.parts = x.parts := rfl

@[simp] theorem parts_start (x : TcpConnection) : x.start.1.parts = x.parts := rfl

@[simp] theorem parts_retrieve (x : TcpConnection) (len : Nat) :
    (x.retrieve len).parts = x.parts := rfl

@[simp] theorem parts_retrieveAll (x : TcpConnection) : x.retrieveAll.parts = x.parts := rfl

/-- Equal parts name the same slot. -/
theorem slot_congr {x y : TcpConnection} (h : x.parts = y.parts) : x.slot = y.slot := by
  have hname : x.name = y.name := congrArg ConnParts.name h
  have hclose : x.closeCallback = y.closeCallback := congrArg ConnParts.closeCallback h
  unfold slot
  rw [hname, hclose]

end TcpConnection

/-! ## §2. Quiet changes. -/

/-- Events that only report what the kernel or the poller saw. -/
def Event.isReport : Event → Bool
  | .wrote _ _ => true
  | .fin _ => true
  | .handlerDestroyed _ _ => true
  | .fdClosed _ _ => true
  | _ => false

namespace World

/-- `Close` of the connection has been entered. -/
def closed (w : World) (c : Nat) : Prop := .closeEntered c ∈ w.log

/-- Its slot let go of the connection without its `Close`. -/
def displaced (w : World) (c : Nat) : Prop := .displaced c ∈ w.log

instance (w : World) (c : Nat) : Decidable (w.closed c) := by
  unfold closed; infer_instance

instance (w : World) (c : Nat) : Decidable (w.displaced c) := by
  unfold displaced; infer_instance

/-- The log without the reports. -/
def story (w : World) : List Event := w.log.filter fun e => !e.isReport

/-- From `w` to `w'` no pointer moved and no callback was bound: only masks,
buffers, states of connections, the poller and the descriptors may differ. -/
structure Quiet (w w' : World) : Prop where
  parts : ∀ c, (w'.conns c).parts = (w.conns c).parts
  connCount : w'.connCount = w.connCount
  clients : w'.clients = w.clients
  handlerCount : w'.handlerCount = w.handlerCount
  servers : w'.servers = w.servers
  kept : w'.kept = w.kept
  stack : w'.stack = w.stack
  story : w'.story = w.story

namespace Quiet

variable {w w' w'' : World}

theorem refl (w : World) : Quiet w w :=
  ⟨fun _ => rfl, rfl, rfl, rfl, rfl, rfl, rfl, rfl⟩

theorem trans (h : Quiet w w') (h' : Quiet w' w'') : Quiet w w'' where
  parts := fun c => (h'.parts c).trans (h.parts c)
  connCount := h'.connCount.trans h.connCount
  clients := h'.clients.trans h.clients
  handlerCount := h'.handlerCount.trans h.handlerCount
  servers := h'.servers.trans h.servers
  kept := h'.kept.trans h.kept
  stack := h'.stack.trans h.stack
  story := h'.story.trans h.story

theorem mem_log (h : Quiet w w') {e : Event} (he : e.isReport = false) :
    e ∈ w'.log ↔ e ∈ w.log := by
  have hmem : ∀ v : World, e ∈ v.story ↔ e ∈ v.log := by
    intro v
    simp [World.story, he]
  rw [← hmem, h.story, hmem]

theorem closed (h : Quiet w w') (c : Nat) : w'.closed c ↔ w.closed c := h.mem_log rfl

theorem slot (h : Quiet w w') : w'.slot = w.slot := by
  funext σ
  cases σ <;> simp only [World.slot, h.clients, h.servers]

theorem connSlot (h : Quiet w w') (c : Nat) : (w'.conns c).slot = (w.conns c).slot :=
  TcpConnection.slot_congr (h.parts c)

theorem ownerHolds (h : Quiet w w') (c : Nat) : w'.ownerHolds c = w.ownerHolds c := by
  simp only [World.ownerHolds, h.connSlot, h.slot]

theorem live (h : Quiet w w') (c : Nat) : w'.live c = w.live c := by
  simp only [World.live, h.ownerHolds, h.kept, h.stack]

/-- The poller, the descriptors and the fault belong to no one. -/
theorem of_machine {p : Epoller HandlerPtr} {fds : Nat → Bool} {fault : Option Fault} :
    Quiet w { w with poller := p, fds := fds, fault := fault } :=
  ⟨fun _ => rfl, rfl, rfl, rfl, rfl, rfl, rfl, rfl⟩

/-- What follows a quiet change in a function starts from the same pointers. -/
theorem push (h : Quiet w w') (f : Frame) : Quiet (w.push f) (w'.push f) :=
  { h with stack := congrArg (f :: ·) h.stack }

theorem emit (h : Quiet w w') (e : Event) : Quiet (w.emit e) (w'.emit e) :=
  { h with
    story := by
      simp only [World.story, World.emit, List.filter_cons]
      rw [show w'.log.filter _ = w.log.filter _ from h.story] }

theorem setClient (h : Quiet w w') (k : Nat) (x : TCPClient) :
    Quiet (w.setClient k x) (w'.setClient k x) :=
  { h with
    clients := by
      show Function.update w'.clients k x = Function.update w.clients k x
      rw [h.clients] }

theorem setServer (h : Quiet w w') (s : Nat) (x : TcpServer) :
    Quiet (w.setServer s x) (w'.setServer s x) :=
  { h with
    servers := by
      show Function.update w'.servers s x = Function.update w.servers s x
      rw [h.servers] }

theorem runDisconnectCallback (h : Quiet w w') (k : Nat) :
    Quiet (w.runDisconnectCallback k) (w'.runDisconnectCallback k) := by
  unfold World.runDisconnectCallback
  rw [h.clients]
  split
  · exact (h.emit _).push _
  · exact h

end Quiet

variable (w : World)

theorem quiet_fail (f : Fault) : Quiet w (w.fail f) := Quiet.of_machine

theorem quiet_report {e : Event} (he : e.isReport = true) : Quiet w (w.emit e) :=
  { Quiet.refl w with story := by simp [story, emit, he] }

theorem quiet_setConn {c : Nat} {x : TcpConnection} (h : x.parts = (w.conns c).parts) :
    Quiet w (w.setConn c x) :=
  { Quiet.refl w with
    parts := by
      intro d
      by_cases hd : d = c
      · subst hd
        simpa [setConn] using h
      · simp [setConn, hd] }

theorem quiet_update (ptr : HandlerPtr) (h : Handler HandlerCallback) :
    Quiet w (w.update ptr h) := by
  unfold update
  split
  · exact Quiet.of_machine
  · exact quiet_fail w _

theorem quiet_closeFd (fd : Nat) : Quiet w (w.closeFd fd) :=
  (quiet_report w (e := .fdClosed fd (w.poller.handlers fd).isSome) rfl).trans Quiet.of_machine

theorem quiet_destroyConn (c : Nat) : Quiet w (w.destroyConn c) := by
  unfold destroyConn
  have hreport := quiet_report w
    (e := .handlerDestroyed (.conn c) (w.poller.handlers (w.conns c).handler.fd).isSome) rfl
  simp only
  split
  · exact hreport.trans (quiet_closeFd _ _)
  · exact hreport.trans (quiet_fail _ _)

theorem quiet_release (c : Nat) : Quiet w (w.release c) := by
  unfold release
  split
  · exact Quiet.refl w
  · exact quiet_destroyConn w c

/-- A slot lets go: the displacement is on record, and nothing else moves. -/
theorem quiet_letGo (o : Option Nat) :
    Quiet { w with log := (o.map Event.displaced).toList ++ w.log } (w.letGo o) := by
  cases o with
  | none => exact Quiet.refl w
  | some o => exact quiet_release (w.emit (.displaced o)) o

theorem quiet_runCall (c : Nat) (ok : Bool) (call : SockCall) : Quiet w (runCall c ok w call) := by
  unfold runCall
  split
  · exact quiet_report w rfl
  · exact Quiet.refl w
  · exact quiet_update w _ _
  · split
    · exact quiet_report w rfl
    · exact quiet_fail w _

theorem quiet_runCalls (c : Nat) (ok : Bool) (calls : List SockCall) :
    ∀ w : World, Quiet w (calls.foldl (runCall c ok) w) := by
  induction calls with
  | nil => exact Quiet.refl
  | cons call calls ih => exact fun w => (quiet_runCall w c ok call).trans (ih _)

theorem conns_update (ptr : HandlerPtr) (h : Handler HandlerCallback) :
    (w.update ptr h).conns = w.conns := by
  unfold update
  split <;> rfl

theorem log_update (ptr : HandlerPtr) (h : Handler HandlerCallback) :
    (w.update ptr h).log = w.log := by
  unfold update
  split <;> rfl

theorem conns_connOp (c : Nat) (r : TcpConnection × List SockCall) (ok : Bool) :
    (w.connOp c r ok).conns = Function.update w.conns c r.1 := by
  have hcall : ∀ (v : World) call, (runCall c ok v call).conns = v.conns := by
    intro v call
    cases call with
    | write direct bytes out => rfl
    | append bytes => rfl
    | update => exact v.conns_update _ _
    | shutdown pending => cases ok <;> rfl
  have hcalls : ∀ (calls : List SockCall) (v : World),
      (calls.foldl (runCall c ok) v).conns = v.conns := by
    intro calls
    induction calls with
    | nil => exact fun _ => rfl
    | cons call calls ih => exact fun v => (ih _).trans (hcall v call)
  exact hcalls r.2 _

/-- Member functions only add to the log. -/
theorem log_connOp (c : Nat) (r : TcpConnection × List SockCall) (ok : Bool) :
    w.log <:+ (w.connOp c r ok).log := by
  have hcall : ∀ (v : World) call, v.log <:+ (runCall c ok v call).log := by
    intro v call
    cases call with
    | write direct bytes out => exact List.suffix_cons _ _
    | append bytes => exact List.suffix_refl _
    | update =>
        show v.log <:+ (v.update _ _).log
        simp only [log_update, List.suffix_refl]
    | shutdown pending =>
        cases ok with
        | true => exact List.suffix_cons _ _
        | false => exact List.suffix_refl _
  have hcalls : ∀ (calls : List SockCall) (v : World),
      v.log <:+ (calls.foldl (runCall c ok) v).log := by
    intro calls
    induction calls with
    | nil => exact fun v => List.suffix_refl _
    | cons call calls ih => exact fun v => (hcall v call).trans (ih _)
  exact hcalls r.2 (w.setConn c r.1)

theorem log_start (c : Nat) : w.log <:+ (w.start c).log := by
  have hop := w.log_connOp c (w.conns c).start true
  unfold start
  simp only
  split
  · exact hop.trans (List.suffix_cons _ _)
  · exact hop

theorem quiet_connOp {c : Nat} {r : TcpConnection × List SockCall} (ok : Bool)
    (h : r.1.parts = (w.conns c).parts) : Quiet w (w.connOp c r ok) :=
  (quiet_setConn w h).trans (quiet_runCalls c ok r.2 _)

theorem quiet_send (c : Nat) (mem : Memory) (data len : SizeT) (out : WriteOutcome) :
    Quiet w (w.send c mem data len out) := by
  unfold send
  split
  · exact quiet_connOp w true (TcpConnection.parts_send _ mem data len out)
  · exact quiet_fail w _

theorem quiet_shutDown (c : Nat) (ok : Bool) : Quiet w (w.shutDown c ok) := by
  unfold shutDown
  split
  · exact quiet_connOp w ok (TcpConnection.parts_shutDown _)
  · exact quiet_fail w _

theorem quiet_tcpHandleWrite (c : Nat) (out : WriteOutcome) (ok : Bool) :
    Quiet w (w.tcpHandleWrite c out ok) := by
  unfold tcpHandleWrite
  split
  · exact quiet_connOp w ok (TcpConnection.parts_handleWrite _ out)
  · exact quiet_fail w _

theorem quiet_clientSend (k : Nat) (mem : Memory) (data len : SizeT) (out : WriteOutcome) :
    Quiet w (w.clientSend k mem data len out) := by
  unfold clientSend
  split
  · exact Quiet.refl w
  · exact quiet_send w _ mem data len out

/-- Once the temporary is gone, `Close` moves nothing any more. -/
theorem quiet_finishClose (c : Nat) : Quiet (w.release c) (w.finishClose c) := by
  unfold finishClose
  simp only
  split
  · exact quiet_setConn _ (TcpConnection.parts_closeReturn _)
  · exact quiet_fail _ _

theorem finishClose_machine (c : Nat) : (w.finishClose c).poller = (w.release c).poller
    ∧ (w.finishClose c).fds = (w.release c).fds ∧ (w.finishClose c).log = (w.release c).log := by
  unfold finishClose
  simp only
  split <;> exact ⟨rfl, rfl, rfl⟩

/-- What `Close` does to pointers up to its close callback. -/
def enterClose (c : Nat) : World :=
  ((w.emit (.closeEntered c)).push (.closing c)).emit (.closeCallback c)

/-- What `RemoveConn` does to pointers. -/
def eraseConn (s c : Nat) : World :=
  let server := w.servers s
  let name := (w.conns c).name
  let lost := if server.conns name = some c then none else server.conns name
  { w.setServer s { server with conns := Function.update server.conns name none } with
    log := (lost.map Event.displaced).toList ++ w.log }

/-- What `HandleClose` does to pointers. -/
def resetConn (k : Nat) : World :=
  (w.setClient k { w.clients k with conn := none }).runDisconnectCallback k

/-- The world in which the close callback of `c` is called. -/
abbrev atCloseCallback (c : Nat) : World :=
  ((w.closeStart c).push (.closing c)).emit (.closeCallback c)

theorem quiet_closeStart (c : Nat) : Quiet (w.emit (.closeEntered c)) (w.closeStart c) :=
  quiet_connOp _ true (TcpConnection.parts_closeEnter _)

theorem Quiet.removeConn {w w' : World} (h : Quiet w w') (s c : Nat) :
    Quiet (w.eraseConn s c) (w'.removeConn s c) := by
  have hname : (w'.conns c).name = (w.conns c).name := congrArg ConnParts.name (h.parts c)
  unfold World.eraseConn World.removeConn
  simp only [h.servers, hname]
  have hset := h.setServer s { w.servers s with
    conns := Function.update (w.servers s).conns (w.conns c).name none }
  split
  · exact hset.trans (quiet_release _ c)
  · cases (w.servers s).conns (w.conns c).name with
    | none => exact hset
    | some o => exact (hset.emit (.displaced o)).trans (quiet_release _ o)

theorem Quiet.handleClose {w w' : World} (h : Quiet w w') {k c : Nat}
    (hconn : (w.clients k).conn = some c) : Quiet (w.resetConn k) (w'.handleClose k c) := by
  unfold World.resetConn World.handleClose
  simp only [h.clients, hconn, if_true]
  exact ((h.setClient k _).trans (quiet_release _ c)).runDisconnectCallback k

theorem Quiet.handleClose_foreign {w w' : World} (h : Quiet w w') {k c : Nat}
    (hconn : (w.clients k).conn ≠ some c) : Quiet w (w'.handleClose k c) := by
  unfold World.handleClose
  simp only [h.clients, hconn, if_false]
  exact h.trans (quiet_fail _ _)

/-- What `Close` does to pointers, by the close callback it finds. -/
theorem close_cases {w : World} {c : Nat} (hlive : w.live c = true)
    (hslot : (w.conns c).slot.isSome = true) :
    (∃ s, (w.conns c).closeCallback = some (.removeConn s)
      ∧ Quiet ((w.enterClose c).eraseConn s c) (w.close c))
    ∨ (∃ k, (w.conns c).closeCallback = some (.handleClose k) ∧ (w.clients k).conn = some c
      ∧ Quiet ((w.enterClose c).resetConn k) (w.close c))
    ∨ ∃ k, (w.conns c).closeCallback = some (.handleClose k) ∧ (w.clients k).conn ≠ some c
      ∧ Quiet (w.enterClose c) (w.close c) := by
  have hq : Quiet (w.enterClose c) (w.atCloseCallback c) :=
    ((quiet_closeStart w c).push _).emit _
  have hcb : ((w.closeStart c).conns c).closeCallback = (w.conns c).closeCallback :=
    congrArg ConnParts.closeCallback ((quiet_closeStart w c).parts c)
  unfold close
  simp only [hlive, if_true, hcb]
  cases hcc : (w.conns c).closeCallback with
  -- a connection of the library has a close callback
  | none => exact absurd hslot (by simp [TcpConnection.slot, hcc])
  | some callback =>
      cases callback with
      | removeConn s => exact Or.inl ⟨s, rfl, hq.removeConn s c⟩
      | handleClose k =>
          by_cases hconn : (w.clients k).conn = some c
          · exact Or.inr (Or.inl ⟨k, rfl, hconn, hq.handleClose hconn⟩)
          · exact Or.inr (Or.inr ⟨k, rfl, hconn, hq.handleClose_foreign hconn⟩)

end World

/-! ## §3. The invariant. -/

/-- Is a connection's identity used by the frame? -/
def Frame.mentions (c : Nat) : Frame → Bool
  | .handleEvent (.conn d) _ _ => d == c
  | f => f.holds c

/-- Likewise for what is logged besides reports. -/
def Event.mentions (c : Nat) : Event → Bool
  | .closeEntered d => d == c
  | .closeCallback d => d == c
  | .connectionCallback d => d == c
  | .messageCallback d => d == c
  | .displaced d => d == c
  | _ => false

/-- The events that say that a slot was given up. -/
def Event.isMove : Event → Bool
  | .closeEntered _ => true
  | .displaced _ => true
  | _ => false

theorem Event.mentions_of_isReport {e : Event} (h : e.isReport = true) (c : Nat) :
    e.mentions c = false := by
  cases e <;> first | rfl | exact absurd h (by simp [isReport])

theorem Event.isMove_of_isReport {e : Event} (h : e.isReport = true) : e.isMove = false := by
  cases e <;> first | rfl | exact absurd h (by simp [isReport])

theorem Event.isReport_of_isMove {e : Event} (h : e.isMove = true) : e.isReport = false := by
  cases e <;> first | rfl | exact absurd h (by simp [isMove])

theorem Frame.mentions_of_holds {f : Frame} {c : Nat} (h : f.holds c = true) :
    f.mentions c = true := by
  unfold mentions
  split
  · exact absurd h (by simp [holds])
  · exact h

/-- A connection's handler calls it back, and its close callback is set. -/
def WiredConn (c : Nat) (x : TcpConnection) : Prop :=
  x.handler.readCallback = some (.tcpHandleRead c)
  ∧ x.handler.writeCallback = some (.tcpHandleWrite c)
  ∧ x.handler.errorCallback = none
  ∧ x.slot.isSome = true

theorem WiredConn.congr {c : Nat} {x y : TcpConnection} (h : WiredConn c x)
    (hxy : y.parts = x.parts) : WiredConn c y := by
  obtain ⟨hr, hw, he, hs⟩ := h
  refine ⟨?_, ?_, ?_, ?_⟩
  · exact (congrArg ConnParts.readCallback hxy).trans hr
  · exact (congrArg ConnParts.writeCallback hxy).trans hw
  · exact (congrArg ConnParts.errorCallback hxy).trans he
  · rw [TcpConnection.slot_congr hxy]
    exact hs

/-- A connecting handler calls its client back, and waits for something. -/
def WiredConnecting (k : Nat) (h : Handler HandlerCallback) : Prop :=
  h.readCallback = none
  ∧ h.writeCallback = some (.clientHandleWrite k)
  ∧ h.errorCallback = some (.clientHandleError k)
  ∧ h.events ≠ 0#32

/-- An acceptor's handler likewise. -/
def WiredAcceptor (s : Nat) (h : Handler HandlerCallback) : Prop :=
  h.readCallback = some (.acceptorHandleRead s)
  ∧ h.writeCallback = none ∧ h.errorCallback = none ∧ h.events ≠ 0#32

/-- What every reachable world has in common. -/
structure Coherent (w : World) : Prop where
  /-- A slot holds an open connection whose close callback is bound to it. -/
  slot : ∀ σ c, w.slot σ = some c →
    c < w.connCount ∧ (w.conns c).slot = some σ ∧ ¬ w.closed c ∧ ¬ w.displaced c
  /-- No connection is lost without a trace. -/
  accounted : ∀ c, c < w.connCount → w.ownerHolds c = true ∨ w.closed c ∨ w.displaced c
  kept : ∀ c, 0 < w.kept c → c < w.connCount
  stack : ∀ f ∈ w.stack, ∀ c, f.mentions c = true → c < w.connCount
  log : ∀ e ∈ w.log, ∀ c, e.mentions c = true → c < w.connCount
  conn : ∀ c, c < w.connCount → WiredConn c (w.conns c)
  connHandler : ∀ k n h, (w.clients k).connHandler = some (n, h) →
    n < w.handlerCount ∧ WiredConnecting k h
  acceptor : ∀ s h, (w.servers s).accepter = some h → WiredAcceptor s h

theorem coherent_init : Coherent World.init where
  slot := by
    intro σ c h
    cases σ <;> exact absurd h (by simp [World.slot, World.init, TCPClient.new, TcpServer.new])
  accounted := fun c hc => absurd hc (by simp [World.init])
  kept := fun c hc => absurd hc (by simp [World.init])
  stack := fun f hf => absurd hf (by simp [World.init])
  log := fun e he => absurd he (by simp [World.init])
  conn := fun c hc => absurd hc (by simp [World.init])
  connHandler := fun k n h hk => absurd hk (by simp [World.init, TCPClient.new])
  acceptor := fun s h hs => absurd hs (by simp [World.init, TcpServer.new])

theorem World.handler?_conn {w : World} {c : Nat} {g : Handler HandlerCallback} :
    w.handler? (.conn c) = some g ↔ w.live c = true ∧ (w.conns c).handler = g := by
  simp [handler?]

theorem World.handler?_connecting {w : World} {k n : Nat} {g : Handler HandlerCallback} :
    w.handler? (.connecting k n) = some g ↔ (w.clients k).connHandler = some (n, g) := by
  cases hk : (w.clients k).connHandler with
  | none => simp [handler?, hk]
  | some q =>
      obtain ⟨m, h⟩ := q
      simp [handler?, hk]

/-- A test of `HandleEvent` that calls back. -/
theorem World.testEvent_eq {w : World} {env : Env} {ptr : HandlerPtr} {mask bits : EventMask}
    {field : Handler HandlerCallback → Option HandlerCallback} {g : Handler HandlerCallback}
    {callback : HandlerCallback} (hbits : mask.has bits = true) (hptr : w.handler? ptr = some g)
    (hcb : field g = some callback) :
    w.testEvent env ptr mask bits field = w.runCallback env callback := by
  unfold testEvent
  simp only [hbits, if_true, hptr, hcb]

/-- A test of `HandleEvent`: no bit, a dead handler, or the callback if it is set. -/
theorem World.testEvent_cases (w : World) (env : Env) (ptr : HandlerPtr) (mask bits : EventMask)
    (field : Handler HandlerCallback → Option HandlerCallback) :
    ((mask.has bits = false ∨ ∃ g, w.handler? ptr = some g ∧ field g = none)
      ∧ w.testEvent env ptr mask bits field = w)
    ∨ (mask.has bits = true ∧ w.handler? ptr = none
      ∧ w.testEvent env ptr mask bits field = w.fail .useAfterFree)
    ∨ ∃ g callback, mask.has bits = true ∧ w.handler? ptr = some g ∧ field g = some callback
      ∧ w.testEvent env ptr mask bits field = w.runCallback env callback := by
  cases hbits : mask.has bits with
  | false => exact Or.inl ⟨Or.inl rfl, by simp [testEvent, hbits]⟩
  | true =>
      cases hptr : w.handler? ptr with
      | none => exact Or.inr (Or.inl ⟨rfl, rfl, by simp [testEvent, hbits, hptr]⟩)
      | some g =>
          cases hfield : field g with
          | none =>
              exact Or.inl ⟨Or.inr ⟨g, rfl, hfield⟩, by simp [testEvent, hbits, hptr, hfield]⟩
          | some callback =>
              exact Or.inr (Or.inr ⟨g, callback, rfl, rfl, hfield, testEvent_eq hbits hptr hfield⟩)

theorem World.slot_setClient (w : World) (k : Nat) (x : TCPClient) :
    (w.setClient k x).slot = Function.update w.slot (.client k) x.conn := by
  funext σ
  cases σ with
  | client k' =>
      by_cases hk : k' = k
      · subst hk
        simp [slot, setClient]
      · simp [slot, setClient, hk]
  | server s name => simp [slot, setClient]

theorem World.slot_setServer (w : World) (s : Nat) {x : TcpServer} {name : Text}
    {o : Option Nat} (hx : x.conns = Function.update (w.servers s).conns name o) :
    (w.setServer s x).slot = Function.update w.slot (.server s name) o := by
  funext σ
  cases σ with
  | client k => simp [slot, setServer]
  | server s' name' =>
      by_cases hs : s' = s
      · subst hs
        by_cases hname : name' = name
        · subst hname
          simp [slot, setServer, hx]
        · simp [slot, setServer, hx, hname]
      · simp [slot, setServer, hs]

/-- A change to a client that leaves `_conn` alone moves no slot. -/
theorem World.slot_setClient_same {w : World} {k : Nat} {x : TCPClient}
    (hx : x.conn = (w.clients k).conn) : (w.setClient k x).slot = w.slot := by
  rw [slot_setClient, hx]
  exact Function.update_eq_self (Slot.client k) w.slot

/-- A change to a server that leaves `_conns` alone moves no slot. -/
theorem World.slot_setServer_same {w : World} {s : Nat} {x : TcpServer}
    (hx : x.conns = (w.servers s).conns) : (w.setServer s x).slot = w.slot := by
  funext σ
  cases σ with
  | client k => rfl
  | server s' name =>
      by_cases hs : s' = s
      · subst hs
        simp [slot, setServer, hx]
      · simp [slot, setServer, hs]

/-- From `w` to `w'` slot `σ` has come to hold `o`; no other pointer moved. -/
structure Reslots (w w' : World) (σ : Slot) (o : Option Nat) : Prop where
  slot : w'.slot = Function.update w.slot σ o
  poller : w'.poller = w.poller
  fds : w'.fds = w.fds
  kept : w'.kept = w.kept
  stack : w'.stack = w.stack
  connHandler : ∀ k, (w'.clients k).connHandler = (w.clients k).connHandler
  accepter : ∀ s, (w'.servers s).accepter = (w.servers s).accepter

namespace Reslots

variable {w w' : World} {σ : Slot} {o : Option Nat}

theorem setLog (hr : Reslots w w' σ o) (log : List Event) :
    Reslots w { w' with log := log } σ o :=
  ⟨hr.slot, hr.poller, hr.fds, hr.kept, hr.stack, hr.connHandler, hr.accepter⟩

theorem emit (hr : Reslots w w' σ o) (e : Event) : Reslots w (w'.emit e) σ o := hr.setLog _

end Reslots

namespace World

variable (w : World)

theorem reslots_setClient (k : Nat) {x : TCPClient}
    (hx : x.connHandler = (w.clients k).connHandler) :
    Reslots w (w.setClient k x) (.client k) x.conn := by
  refine ⟨w.slot_setClient k x, rfl, rfl, rfl, rfl, fun k' => ?_, fun _ => rfl⟩
  by_cases hk : k' = k
  · subst hk
    simpa [setClient] using hx
  · simp [setClient, hk]

theorem reslots_setServer (s : Nat) {x : TcpServer} {name : Text} {o : Option Nat}
    (hconns : x.conns = Function.update (w.servers s).conns name o)
    (hacc : x.accepter = (w.servers s).accepter) :
    Reslots w (w.setServer s x) (.server s name) o := by
  refine ⟨w.slot_setServer s hconns, rfl, rfl, rfl, rfl, fun _ => rfl, fun s' => ?_⟩
  by_cases hs : s' = s
  · subst hs
    simpa [setServer] using hacc
  · simp [setServer, hs]

theorem reslots_storeClientConn (k fd : Nat) :
    Reslots w (w.storeClientConn k fd) (.client k) (some w.connCount) := by
  obtain ⟨hslot, _, _, _, _, hconnecting, _⟩ :=
    (w.newConn _ fd _ (.handleClose k) _ _).reslots_setClient k (x := { w.clients k with
      state := .connected
      connId := (w.clients k).connId + 1
      conn := some w.connCount }) rfl
  exact ⟨hslot, rfl, rfl, rfl, rfl, hconnecting, fun _ => rfl⟩

theorem reslots_storeServerConn (s fd : Nat) (addr : InetAdress) :
    Reslots w (w.storeServerConn s fd addr) (.server s (w.nextName s addr)) (some w.connCount) := by
  obtain ⟨hslot, _, _, _, _, _, hacc⟩ :=
    (w.newConn _ fd addr (.removeConn s) _ _).reslots_setServer s (x := { w.servers s with
      connId := (w.servers s).connId + 1
      conns := Function.update (w.servers s).conns (w.nextName s addr) (some w.connCount) }) rfl rfl
  exact ⟨hslot, rfl, rfl, rfl, rfl, fun _ => rfl, hacc⟩

end World

/-- Who is live is decided by slots, kept copies and frames. -/
theorem World.live_congr {w w' : World} (hconns : ∀ c, (w'.conns c).slot = (w.conns c).slot)
    (hslot : w'.slot = w.slot) (hkept : w'.kept = w.kept) (hstack : w'.stack = w.stack)
    (c : Nat) : w'.live c = w.live c := by
  simp only [live, ownerHolds, hconns, hslot, hkept, hstack]

/-- Frames that hold no connection do not decide who is live. -/
theorem World.live_setStack {w : World} {st : List Frame} {c : Nat}
    (hst : st.any (Frame.holds c) = w.stack.any (Frame.holds c)) :
    World.live { w with stack := st } c = w.live c := by
  show (w.ownerHolds c || decide (0 < w.kept c) || st.any (Frame.holds c)) = _
  rw [hst, live]

/-- Nor which handlers are. -/
theorem World.handler?_setStack {w : World} {st : List Frame}
    (hst : ∀ c, st.any (Frame.holds c) = w.stack.any (Frame.holds c)) :
    World.handler? { w with stack := st } = w.handler? := by
  funext ptr
  cases ptr with
  | conn c =>
      show (if World.live { w with stack := st } c then _ else _) = _
      rw [live_setStack (hst c)]
      rfl
  | connecting k n => rfl
  | acceptor s => rfl

/-- The frame of a dispatch holds nothing, whichever test comes next. -/
theorem World.holds_advance {w : World} {ptr : HandlerPtr} {mask : EventMask} {old : Stage}
    {rest : List Frame} (hst : w.stack = .handleEvent ptr mask old :: rest) (stage : Stage)
    (c : Nat) : (Frame.handleEvent ptr mask stage :: rest).any (Frame.holds c)
      = w.stack.any (Frame.holds c) := by
  rw [hst]
  rfl

theorem World.slot_eraseConn (w : World) (s c : Nat) : (w.eraseConn s c).slot =
    Function.update w.slot (.server s (w.conns c).name) none :=
  show (w.setServer s _).slot = _ from w.slot_setServer s rfl

theorem World.mem_log_eraseConn {w : World} {s c : Nat} {e : Event} :
    e ∈ (w.eraseConn s c).log ↔ e ∈ w.log ∨ ∃ d, e = .displaced d ∧ d ≠ c
      ∧ w.slot (.server s (w.conns c).name) = some d := by
  simp only [eraseConn, slot, List.mem_append, Option.mem_toList, Option.map_eq_some_iff]
  rw [or_comm]
  refine or_congr Iff.rfl ?_
  split
  · rename_i hheld
    simp only [hheld, reduceCtorEq, false_and, exists_false, Option.some.injEq, false_iff]
    rintro ⟨d, _, hne, rfl⟩
    exact hne rfl
  · rename_i hheld
    constructor
    · rintro ⟨d, hd, rfl⟩
      exact ⟨d, rfl, fun hdc => hheld (hdc ▸ hd), hd⟩
    · rintro ⟨d, rfl, _, hd⟩
      exact ⟨d, hd, rfl⟩

theorem World.mem_log_enterClose {w : World} {c : Nat} {e : Event} :
    e ∈ (w.enterClose c).log ↔ e ∈ w.log ∨ e = .closeEntered c ∨ e = .closeCallback c := by
  simp only [enterClose, emit, push, List.mem_cons]
  tauto

theorem World.closed_enterClose {w : World} {c d : Nat} :
    (w.enterClose c).closed d ↔ d = c ∨ w.closed d := by
  simp [closed, mem_log_enterClose, or_comm]

theorem World.displaced_enterClose {w : World} {c d : Nat} :
    (w.enterClose c).displaced d ↔ w.displaced d := by
  simp [displaced, mem_log_enterClose]

namespace Coherent

variable {w w' : World} {c : Nat}

/-! ## §4. Who is live. -/

theorem ownerHolds_iff (h : Coherent w) : w.ownerHolds c = true ↔ ∃ σ, w.slot σ = some c := by
  simp only [World.ownerHolds, Option.any_eq_true, beq_iff_eq]
  constructor
  · exact fun ⟨σ, _, hσ⟩ => ⟨σ, hσ⟩
  · exact fun ⟨σ, hσ⟩ => ⟨σ, (h.slot σ c hσ).2.1, hσ⟩

/-- **Live means owned**: some slot, some kept copy or some frame holds it. -/
theorem live_iff (h : Coherent w) : w.live c = true ↔
    (∃ σ, w.slot σ = some c) ∨ 0 < w.kept c ∨ ∃ f ∈ w.stack, f.holds c = true := by
  simp only [World.live, Bool.or_eq_true, decide_eq_true_eq, List.any_eq_true,
    h.ownerHolds_iff, or_assoc]

theorem known_of_live (h : Coherent w) (hc : w.live c = true) : c < w.connCount := by
  rcases h.live_iff.mp hc with ⟨σ, hσ⟩ | hk | ⟨f, hf, hh⟩
  · exact (h.slot σ c hσ).1
  · exact h.kept c hk
  · exact h.stack f hf c (Frame.mentions_of_holds hh)

theorem live_of_slot (h : Coherent w) {σ : Slot} (hσ : w.slot σ = some c) : w.live c = true :=
  h.live_iff.mpr (Or.inl ⟨σ, hσ⟩)

/-- What the application can reach is live. -/
theorem live_of_accessible (hc : w.accessible c = true) : w.live c = true := by
  simp only [World.accessible, Bool.or_eq_true, decide_eq_true_eq, List.any_eq_true] at hc
  simp only [World.live, Bool.or_eq_true, decide_eq_true_eq, List.any_eq_true]
  rcases hc with hk | ⟨f, hf, hg⟩
  · exact Or.inl (Or.inr hk)
  · refine Or.inr ⟨f, hf, ?_⟩
    unfold Frame.gives at hg
    split at hg <;> first | exact hg | exact absurd hg (by simp)

/-- A fresh identity has no history. -/
theorem fresh (h : Coherent w) (hc : w.connCount ≤ c) :
    ¬ w.closed c ∧ ¬ w.displaced c ∧ w.kept c = 0 ∧ (∀ f ∈ w.stack, f.holds c = false)
      ∧ ∀ σ, w.slot σ ≠ some c := by
  refine ⟨fun hm => ?_, fun hm => ?_, ?_, fun f hf => ?_, fun σ hσ => ?_⟩
  · have := h.log _ hm c (by simp [Event.mentions])
    omega
  · have := h.log _ hm c (by simp [Event.mentions])
    omega
  · by_contra hk
    have := h.kept c (by omega)
    omega
  · rw [Bool.eq_false_iff]
    intro hh
    have := h.stack f hf c (Frame.mentions_of_holds hh)
    omega
  · have := (h.slot σ c hσ).1
    omega

/-! ## §5. Changes that keep it. -/

/-- A change that leaves slots and bindings alone, and mentions only known
connections. -/
theorem transfer (h : Coherent w) (hslot : w'.slot = w.slot)
    (hparts : ∀ c, (w'.conns c).parts = (w.conns c).parts)
    (hcount : w'.connCount = w.connCount)
    (hkept : ∀ c, 0 < w'.kept c → c < w.connCount)
    (hstack : ∀ f ∈ w'.stack, ∀ c, f.mentions c = true → c < w.connCount)
    (hold : ∀ e ∈ w.log, e.isMove = true → e ∈ w'.log)
    (hnew : ∀ e ∈ w'.log, e ∈ w.log ∨
      e.isMove = false ∧ ∀ c, e.mentions c = true → c < w.connCount)
    (hserial : w.handlerCount ≤ w'.handlerCount)
    (hconnecting : ∀ k n g, (w'.clients k).connHandler = some (n, g) →
      (w.clients k).connHandler = some (n, g) ∨ n < w'.handlerCount ∧ WiredConnecting k g)
    (haccepter : ∀ s g, (w'.servers s).accepter = some g →
      (w.servers s).accepter = some g ∨ WiredAcceptor s g) : Coherent w' := by
  -- only reports may come and go; moves decide `closed` and `displaced`
  have hmove : ∀ e : Event, e.isMove = true → (e ∈ w'.log ↔ e ∈ w.log) := by
    intro e he
    refine ⟨fun hm => (hnew e hm).resolve_right fun hn => ?_, fun hm => hold e hm he⟩
    exact absurd hn.1 (by simp [he])
  have hclosed : ∀ c, w'.closed c ↔ w.closed c := fun c => hmove _ rfl
  have hdisplaced : ∀ c, w'.displaced c ↔ w.displaced c := fun c => hmove _ rfl
  have hconn : ∀ c, (w'.conns c).slot = (w.conns c).slot := fun c =>
    TcpConnection.slot_congr (hparts c)
  constructor
  case slot =>
    intro σ c hσ
    rw [hslot] at hσ
    rw [hcount, hconn, hclosed, hdisplaced]
    exact h.slot σ c hσ
  case accounted =>
    intro c hc
    rw [hcount] at hc
    rw [hclosed, hdisplaced, World.ownerHolds, hconn, hslot]
    exact h.accounted c hc
  case kept =>
    rw [hcount]
    exact hkept
  case stack =>
    rw [hcount]
    exact hstack
  case log =>
    intro e he c hc
    rw [hcount]
    rcases hnew e he with hm | ⟨_, hm⟩
    · exact h.log e hm c hc
    · exact hm c hc
  case conn =>
    intro c hc
    rw [hcount] at hc
    exact (h.conn c hc).congr (hparts c)
  case connHandler =>
    intro k n g hk
    rcases hconnecting k n g hk with hold | hnew
    · obtain ⟨hn, hwired⟩ := h.connHandler k n g hold
      exact ⟨by omega, hwired⟩
    · exact hnew
  case acceptor =>
    intro s g hs
    rcases haccepter s g hs with hold | hnew
    · exact h.acceptor s g hold
    · exact hnew

theorem quiet (h : Coherent w) (hq : World.Quiet w w') : Coherent w' := by
  refine h.transfer hq.slot hq.parts hq.connCount ?_ ?_ ?_ ?_
    (Nat.le_of_eq hq.handlerCount.symm) ?_ ?_
  · rw [hq.kept]
    exact h.kept
  · rw [hq.stack]
    exact h.stack
  · intro e he hmove
    exact (hq.mem_log (Event.isReport_of_isMove hmove)).mpr he
  · intro e he
    cases hr : e.isReport with
    | false => exact Or.inl ((hq.mem_log hr).mp he)
    | true =>
        refine Or.inr ⟨Event.isMove_of_isReport hr, fun c hc => ?_⟩
        rw [Event.mentions_of_isReport hr] at hc
        exact absurd hc (by simp)
  · rw [hq.clients]
    exact fun _ _ _ => Or.inl
  · rw [hq.servers]
    exact fun _ _ => Or.inl

theorem setStack (h : Coherent w) {st : List Frame}
    (hst : ∀ f ∈ st, f ∈ w.stack ∨ ∀ c, f.mentions c = true → c < w.connCount) :
    Coherent { w with stack := st } :=
  h.transfer rfl (fun _ => rfl) rfl h.kept
    (fun f hf c hc => (hst f hf).elim (fun hm => h.stack f hm c hc) fun hm => hm c hc)
    (fun _ he _ => he) (fun _ he => Or.inl he) (Nat.le_refl _) (fun _ _ _ => Or.inl)
    (fun _ _ => Or.inl)

theorem push (h : Coherent w) {f : Frame} (hf : ∀ c, f.mentions c = true → c < w.connCount) :
    Coherent (w.push f) := by
  apply h.setStack
  intro g hg
  rcases List.mem_cons.mp hg with rfl | hm
  · exact Or.inr hf
  · exact Or.inl hm

theorem pop (h : Coherent w) {f : Frame} {rest : List Frame} (hst : w.stack = f :: rest) :
    Coherent { w with stack := rest } := by
  apply h.setStack
  intro g hg
  exact Or.inl (by rw [hst]; exact List.mem_cons_of_mem f hg)

/-- The next test of `HandleEvent`. -/
theorem advance (h : Coherent w) {ptr : HandlerPtr} {mask : EventMask} {old : Stage}
    {rest : List Frame} (hst : w.stack = .handleEvent ptr mask old :: rest) (stage : Stage) :
    Coherent { w with stack := .handleEvent ptr mask stage :: rest } := by
  apply h.setStack
  intro f hf
  rcases List.mem_cons.mp hf with rfl | hm
  · refine Or.inr fun d hd => h.stack (.handleEvent ptr mask old) ?_ d ?_
    · exact hst ▸ List.mem_cons_self
    · cases ptr <;> exact hd
  · exact Or.inl (by rw [hst]; exact List.mem_cons_of_mem _ hm)

theorem emit (h : Coherent w) {e : Event} (hmove : e.isMove = false)
    (he : ∀ c, e.mentions c = true → c < w.connCount) : Coherent (w.emit e) := by
  refine h.transfer rfl (fun _ => rfl) rfl h.kept h.stack (fun _ hm _ => List.mem_cons_of_mem e hm)
    ?_ (Nat.le_refl _) (fun _ _ _ => Or.inl) (fun _ _ => Or.inl)
  intro e' he'
  rcases List.mem_cons.mp he' with rfl | hm
  · exact Or.inr ⟨hmove, he⟩
  · exact Or.inl hm

theorem setKept (h : Coherent w) {kept : Nat → Nat}
    (hk : ∀ c, 0 < kept c → c < w.connCount) : Coherent { w with kept := kept } :=
  h.transfer rfl (fun _ => rfl) rfl hk h.stack (fun _ he _ => he) (fun _ he => Or.inl he)
    (Nat.le_refl _) (fun _ _ _ => Or.inl) (fun _ _ => Or.inl)

/-- A change to a client that leaves `_conn` alone. -/
theorem setClient (h : Coherent w) {k : Nat} {x : TCPClient} (hconn : x.conn = (w.clients k).conn)
    (hhandler : ∀ n g, x.connHandler = some (n, g) →
      (w.clients k).connHandler = some (n, g) ∨ n < w.handlerCount ∧ WiredConnecting k g) :
    Coherent (w.setClient k x) := by
  refine h.transfer ?_ (fun _ => rfl) rfl h.kept h.stack (fun _ he _ => he)
    (fun _ he => Or.inl he) (Nat.le_refl _) ?_ (fun _ _ => Or.inl)
  · exact World.slot_setClient_same hconn
  · intro k' n g hg
    by_cases hk : k' = k
    · subst hk
      rw [show (w.setClient k' x).clients k' = x from Function.update_self ..] at hg
      exact hhandler n g hg
    · rw [show (w.setClient k x).clients k' = w.clients k' from Function.update_of_ne hk ..] at hg
      exact Or.inl hg

/-- A change to a server that leaves `_conns` alone. -/
theorem setServer (h : Coherent w) {s : Nat} {x : TcpServer}
    (hconns : x.conns = (w.servers s).conns)
    (hacc : ∀ g, x.accepter = some g →
      (w.servers s).accepter = some g ∨ WiredAcceptor s g) :
    Coherent (w.setServer s x) := by
  refine h.transfer ?_ (fun _ => rfl) rfl h.kept h.stack (fun _ he _ => he)
    (fun _ he => Or.inl he) (Nat.le_refl _) (fun _ _ _ => Or.inl) ?_
  · exact World.slot_setServer_same hconns
  · intro s' g hg
    by_cases hs : s' = s
    · subst hs
      rw [show (w.setServer s' x).servers s' = x from Function.update_self ..] at hg
      exact hacc g hg
    · rw [show (w.setServer s x).servers s' = w.servers s' from Function.update_of_ne hs ..] at hg
      exact Or.inl hg

/-- Connection `c` is closed: its slot, if it is still there, is vacated, and
what else a slot loses is displaced. -/
theorem vacate (h : Coherent w)
    (hconns : w'.conns = w.conns) (hcount : w'.connCount = w.connCount)
    (hsub : ∀ τ d, w'.slot τ = some d → w.slot τ = some d ∧ d ≠ c)
    (hgone : ∀ τ d, w.slot τ = some d → w'.slot τ = some d ∨ d = c ∨ w'.displaced d)
    (hclosed : ∀ d, w'.closed d ↔ d = c ∨ w.closed d)
    (hdisplaced : ∀ d, w.displaced d → w'.displaced d)
    (hdisplaced' : ∀ d, w'.displaced d → w.displaced d ∨ ∀ τ, w'.slot τ ≠ some d)
    (hkept : w'.kept = w.kept)
    (hstack : ∀ f ∈ w'.stack, f ∈ w.stack ∨ ∀ d, f.mentions d = true → d < w.connCount)
    (hlog : ∀ e ∈ w'.log, e ∈ w.log ∨ ∀ d, e.mentions d = true → d < w.connCount)
    (hserial : w'.handlerCount = w.handlerCount)
    (hconnecting : ∀ k, (w'.clients k).connHandler = (w.clients k).connHandler)
    (haccepter : ∀ s, (w'.servers s).accepter = (w.servers s).accepter) : Coherent w' := by
  have hslot' : ∀ τ d, w'.slot τ = some d → d < w'.connCount ∧ (w'.conns d).slot = some τ
      ∧ ¬ w'.closed d ∧ ¬ w'.displaced d := by
    intro τ d hd
    obtain ⟨hold, hne⟩ := hsub τ d hd
    obtain ⟨hlt, hbound, hopen, hplaced⟩ := h.slot τ d hold
    refine ⟨hcount ▸ hlt, by rw [hconns]; exact hbound, ?_, fun hm => ?_⟩
    · rw [hclosed]
      exact fun hm => hm.elim hne hopen
    · exact (hdisplaced' d hm).elim hplaced fun hno => hno τ hd
  constructor
  case slot =>
    exact hslot'
  case accounted =>
    intro d hd
    rw [hcount] at hd
    rcases h.accounted d hd with hown | hcl | hdi
    · obtain ⟨τ, hτ⟩ := h.ownerHolds_iff.mp hown
      rcases hgone τ d hτ with hstill | hdc | hdi
      · refine Or.inl ?_
        simp only [World.ownerHolds, Option.any_eq_true, beq_iff_eq]
        exact ⟨τ, (hslot' τ d hstill).2.1, hstill⟩
      · exact Or.inr (Or.inl ((hclosed d).mpr (Or.inl hdc)))
      · exact Or.inr (Or.inr hdi)
    · exact Or.inr (Or.inl ((hclosed d).mpr (Or.inr hcl)))
    · exact Or.inr (Or.inr (hdisplaced d hdi))
  case kept =>
    rw [hkept, hcount]
    exact h.kept
  case stack =>
    intro f hf d hd
    rw [hcount]
    exact (hstack f hf).elim (fun hm => h.stack f hm d hd) fun hm => hm d hd
  case log =>
    intro e he d hd
    rw [hcount]
    exact (hlog e he).elim (fun hm => h.log e hm d hd) fun hm => hm d hd
  case conn =>
    rw [hconns, hcount]
    exact h.conn
  case connHandler =>
    intro k n g hg
    rw [hconnecting] at hg
    rw [hserial]
    exact h.connHandler k n g hg
  case acceptor =>
    intro s g hg
    rw [haccepter] at hg
    exact h.acceptor s g hg

/-- A new connection takes a slot, and what was there is displaced. -/
theorem occupy (h : Coherent w) {σ : Slot} {x : TcpConnection}
    (hr : Reslots w w' σ (some w.connCount))
    (hx : x.slot = some σ) (hwired : WiredConn w.connCount x)
    (hconns : w'.conns = Function.update w.conns w.connCount x)
    (hcount : w'.connCount = w.connCount + 1)
    (hlog : w'.log = ((w.slot σ).map Event.displaced).toList ++ w.log)
    (hserial : w'.handlerCount = w.handlerCount) : Coherent w' := by
  have hold : ∀ d, d < w.connCount → w'.conns d = w.conns d := by
    intro d hd
    rw [hconns, Function.update_of_ne (by omega)]
  have hnew : w'.conns w.connCount = x := by rw [hconns, Function.update_self]
  have hclosed : ∀ d, w'.closed d ↔ w.closed d := by
    intro d
    simp only [World.closed, hlog]
    cases w.slot σ <;> simp
  have hdisplaced : ∀ d, w'.displaced d ↔ w.slot σ = some d ∨ w.displaced d := by
    intro d
    simp only [World.displaced, hlog]
    cases w.slot σ <;> simp [eq_comm]
  -- the new identity is not in use anywhere
  obtain ⟨hfreshClosed, hfreshDisplaced, _, _, hnoslot⟩ := h.fresh (Nat.le_refl w.connCount)
  have hslot' : ∀ τ d, w'.slot τ = some d → d < w'.connCount ∧ (w'.conns d).slot = some τ
      ∧ ¬ w'.closed d ∧ ¬ w'.displaced d := by
    intro τ d hd
    rw [hcount, hclosed, hdisplaced]
    rw [hr.slot] at hd
    by_cases hτ : τ = σ
    · subst hτ
      rw [Function.update_self, Option.some.injEq] at hd
      subst hd
      rw [hnew]
      exact ⟨by omega, hx, hfreshClosed, fun hm => hm.elim (hnoslot τ) hfreshDisplaced⟩
    · rw [Function.update_of_ne hτ] at hd
      obtain ⟨hlt, hbound, hopen, hplaced⟩ := h.slot τ d hd
      refine ⟨by omega, by rw [hold d hlt]; exact hbound, hopen, fun hm => ?_⟩
      -- `d` is bound to `τ`, so it cannot be what `σ` loses
      rcases hm with hm | hm
      · have := (h.slot σ d hm).2.1
        rw [hbound, Option.some.injEq] at this
        exact hτ this
      · exact hplaced hm
  have hkeeps : ∀ τ d, w'.slot τ = some d → w'.ownerHolds d = true := by
    intro τ d hd
    simp only [World.ownerHolds, Option.any_eq_true, beq_iff_eq]
    exact ⟨τ, (hslot' τ d hd).2.1, hd⟩
  constructor
  case slot =>
    exact hslot'
  case accounted =>
    intro d hd
    rw [hclosed, hdisplaced]
    by_cases hdn : d = w.connCount
    · subst hdn
      refine Or.inl (hkeeps σ _ ?_)
      rw [hr.slot, Function.update_self]
    · rcases h.accounted d (by omega) with hown | hcl | hdi
      · obtain ⟨τ, hτ⟩ := h.ownerHolds_iff.mp hown
        -- what was in `σ` is displaced now, any other slot is as before
        by_cases hτσ : τ = σ
        · exact Or.inr (Or.inr (Or.inl (hτσ ▸ hτ)))
        · refine Or.inl (hkeeps τ d ?_)
          rw [hr.slot, Function.update_of_ne hτσ]
          exact hτ
      · exact Or.inr (Or.inl hcl)
      · exact Or.inr (Or.inr (Or.inr hdi))
  case kept =>
    intro d hd
    rw [hr.kept] at hd
    have := h.kept d hd
    omega
  case stack =>
    intro f hf d hd
    rw [hr.stack] at hf
    have := h.stack f hf d hd
    omega
  case log =>
    intro e he d hd
    rw [hcount]
    rw [hlog] at he
    rcases List.mem_append.mp he with hm | hm
    · rw [Option.mem_toList, Option.map_eq_some_iff] at hm
      obtain ⟨o, ho, rfl⟩ := hm
      have hlt := (h.slot σ o ho).1
      simp only [Event.mentions, beq_iff_eq] at hd
      omega
    · have := h.log e hm d hd
      omega
  case conn =>
    intro d hd
    by_cases hdn : d = w.connCount
    · subst hdn
      rw [hnew]
      exact hwired
    · rw [hold d (by omega)]
      exact h.conn d (by omega)
  case connHandler =>
    intro k n g hg
    rw [hr.connHandler] at hg
    rw [hserial]
    exact h.connHandler k n g hg
  case acceptor =>
    intro s g hg
    rw [hr.accepter] at hg
    exact h.acceptor s g hg

/-! ## §6. The library's functions. -/

theorem runDisconnectCallback (h : Coherent w) (k : Nat) :
    Coherent (w.runDisconnectCallback k) := by
  unfold World.runDisconnectCallback
  split
  · exact (h.emit rfl (fun d hd => absurd hd (by simp [Event.mentions]))).push
      (fun d hd => absurd hd (by simp [Frame.mentions, Frame.holds]))
  · exact h

theorem start (h : Coherent w) (hc : c < w.connCount) : Coherent (w.start c) := by
  have hq : World.Quiet w (w.connOp c (w.conns c).start true) :=
    World.quiet_connOp w true (TcpConnection.parts_start _)
  have hop := h.quiet hq
  rw [← hq.connCount] at hc
  unfold World.start
  simp only
  split
  · refine (hop.emit rfl (fun d hd => ?_)).push (fun d hd => ?_)
    · simp only [Event.mentions, beq_iff_eq] at hd
      exact hd ▸ hc
    · simp only [Frame.mentions, Frame.holds, beq_iff_eq] at hd
      exact hd ▸ hc
  · exact hop

theorem connEstablish (h : Coherent w) (k fd : Nat) : Coherent (w.connEstablish k fd) := by
  have hstored : Coherent { w.storeClientConn k fd with
      log := ((w.clients k).conn.map Event.displaced).toList ++ w.log } := by
    exact h.occupy ((w.reslots_storeClientConn k fd).setLog _) rfl ⟨rfl, rfl, rfl, rfl⟩ rfl rfl
      rfl rfl
  have hq := World.quiet_letGo (w.storeClientConn k fd) (w.clients k).conn
  unfold World.connEstablish
  refine (hstored.quiet hq).start ?_
  rw [hq.connCount]
  exact Nat.lt_succ_self _

theorem onNewConnect (h : Coherent w) (s fd : Nat) (addr : InetAdress) :
    Coherent (w.onNewConnect s fd addr) := by
  have hstored : Coherent { w.storeServerConn s fd addr with
      log := (((w.servers s).conns (w.nextName s addr)).map Event.displaced).toList
        ++ w.log } := by
    exact h.occupy ((w.reslots_storeServerConn s fd addr).setLog _) rfl ⟨rfl, rfl, rfl, rfl⟩ rfl
      rfl rfl rfl
  have hq := World.quiet_letGo (w.storeServerConn s fd addr)
    ((w.servers s).conns (w.nextName s addr))
  unfold World.onNewConnect
  refine (hstored.quiet hq).start ?_
  rw [hq.connCount]
  exact Nat.lt_succ_self _

/-- The three ways `Close` goes on differ in what happens to the slot. -/
theorem closeInto (h : Coherent w) {σ : Slot} (hc : c < w.connCount)
    (hσ : (w.conns c).slot = some σ)
    (hconns : w'.conns = w.conns) (hcount : w'.connCount = w.connCount)
    (hslot : w'.slot = Function.update w.slot σ none ∨ w'.slot = w.slot ∧ w.slot σ ≠ some c)
    (hlost : ∀ d, w'.displaced d ↔
      w.displaced d ∨ w.slot σ = some d ∧ w'.slot σ = none ∧ d ≠ c)
    (hclosed : ∀ d, w'.closed d ↔ d = c ∨ w.closed d)
    (hkept : w'.kept = w.kept) (hstack : w'.stack = .closing c :: w.stack)
    (hlog : ∀ e ∈ w'.log, e ∈ w.log ∨ ∀ d, e.mentions d = true → d < w.connCount)
    (hserial : w'.handlerCount = w.handlerCount)
    (hconnecting : ∀ k, (w'.clients k).connHandler = (w.clients k).connHandler)
    (haccepter : ∀ s, (w'.servers s).accepter = (w.servers s).accepter) : Coherent w' := by
  -- a slot that holds `c` is `σ`
  have hown : ∀ τ, w.slot τ = some c → τ = σ := by
    intro τ hτ
    exact Option.some.inj ((h.slot τ c hτ).2.1.symm.trans hσ)
  have hsub : ∀ τ d, w'.slot τ = some d →
      w.slot τ = some d ∧ d ≠ c ∧ (τ = σ → w'.slot = w.slot) := by
    intro τ d hd
    -- either the slot is emptied, or it does not hold `c` and stays
    rcases hslot with hup | ⟨hsame, hne⟩
    · rw [hup] at hd
      by_cases hτ : τ = σ
      · exact absurd hd (by simp [hτ])
      · rw [Function.update_of_ne hτ] at hd
        exact ⟨hd, fun hdc => hτ (hown τ (hdc ▸ hd)), fun he => absurd he hτ⟩
    · rw [hsame] at hd
      refine ⟨hd, fun hdc => ?_, fun _ => hsame⟩
      subst hdc
      exact hne (hown τ hd ▸ hd)
  refine h.vacate hconns hcount (fun τ d hd => ⟨(hsub τ d hd).1, (hsub τ d hd).2.1⟩) ?_ hclosed
    (fun d hd => (hlost d).mpr (Or.inl hd)) ?_ hkept ?_ hlog hserial hconnecting haccepter
  · intro τ d hd
    rcases hslot with hup | ⟨hsame, _⟩
    · by_cases hτ : τ = σ
      · subst hτ
        by_cases hdc : d = c
        · exact Or.inr (Or.inl hdc)
        · exact Or.inr (Or.inr ((hlost d).mpr (Or.inr ⟨hd, by simp [hup], hdc⟩)))
      · refine Or.inl ?_
        rw [hup, Function.update_of_ne hτ]
        exact hd
    · exact Or.inl (by rw [hsame]; exact hd)
  · intro d hd
    rcases (hlost d).mp hd with hold | ⟨hdσ, hnone, _⟩
    · exact Or.inl hold
    · refine Or.inr fun τ hτ => ?_
      -- a displaced `d` was in `σ`, the only slot it is bound to
      obtain ⟨hwτ, _, hσsame⟩ := hsub τ d hτ
      have hτσ : τ = σ :=
        Option.some.inj ((h.slot τ d hwτ).2.1.symm.trans (h.slot σ d hdσ).2.1)
      rw [hτσ, hnone] at hτ
      exact absurd hτ (by simp)
  · intro f hf
    rw [hstack] at hf
    rcases List.mem_cons.mp hf with rfl | hm
    · refine Or.inr fun d hd => ?_
      simp only [Frame.mentions, Frame.holds, beq_iff_eq] at hd
      exact hd ▸ hc
    · exact Or.inl hm

/-- Entering `Close` mentions the connection that is closed. -/
theorem mentions_enterClose (hc : c < w.connCount) : ∀ e ∈ (w.enterClose c).log,
    e ∈ w.log ∨ ∀ d, e.mentions d = true → d < w.connCount := by
  have hown : ∀ e : Event, (∀ d, e.mentions d = (c == d)) →
      ∀ d, e.mentions d = true → d < w.connCount := by
    intro e he d hd
    rw [he, beq_iff_eq] at hd
    exact hd ▸ hc
  intro e he
  rcases World.mem_log_enterClose.mp he with hm | rfl | rfl
  · exact Or.inl hm
  · exact Or.inr (hown _ fun _ => rfl)
  · exact Or.inr (hown _ fun _ => rfl)

/-- `RemoveConn` in the middle of `Close`. -/
theorem eraseConn (h : Coherent w) (hc : c < w.connCount) {s : Nat}
    (hcb : (w.conns c).closeCallback = some (.removeConn s)) :
    Coherent ((w.enterClose c).eraseConn s c) := by
  have hσ : (w.conns c).slot = some (.server s (w.conns c).name) := by
    simp [TcpConnection.slot, hcb]
  have hvac : ((w.enterClose c).eraseConn s c).slot
      = Function.update w.slot (.server s (w.conns c).name) none :=
    World.slot_eraseConn (w.enterClose c) s c
  refine h.closeInto hc hσ rfl rfl (Or.inl hvac) ?_ ?_ rfl rfl ?_ rfl (fun _ => rfl) ?_
  · intro d
    rw [World.displaced, World.mem_log_eraseConn]
    refine or_congr World.displaced_enterClose ?_
    constructor
    · rintro ⟨d', heq, hne, hd'⟩
      obtain rfl := Event.displaced.inj heq
      exact ⟨hd', by rw [hvac]; exact Function.update_self .., hne⟩
    · rintro ⟨hd, _, hne⟩
      exact ⟨d, rfl, hne, hd⟩
  · intro d
    rw [World.closed, World.mem_log_eraseConn, ← World.closed_enterClose]
    simp [World.closed]
  · intro e he
    rcases World.mem_log_eraseConn.mp he with hm | ⟨d, rfl, _, hd⟩
    · exact mentions_enterClose hc e hm
    · refine Or.inr fun d' hd' => ?_
      simp only [Event.mentions, beq_iff_eq] at hd'
      exact hd' ▸ (h.slot (.server s (w.conns c).name) d hd).1
  · intro s'
    by_cases hs : s' = s
    · subst hs
      simp [World.eraseConn, World.setServer, World.enterClose, World.emit, World.push]
    · simp [World.eraseConn, World.setServer, World.enterClose, World.emit, World.push, hs]

/-- `HandleClose` in the middle of `Close`. -/
theorem resetConn (h : Coherent w) (hc : c < w.connCount) {k : Nat}
    (hcb : (w.conns c).closeCallback = some (.handleClose k))
    (hconn : (w.clients k).conn = some c) : Coherent ((w.enterClose c).resetConn k) := by
  have hσ : (w.conns c).slot = some (.client k) := by
    simp [TcpConnection.slot, hcb]
  have hvac := World.slot_setClient (w.enterClose c) k { w.clients k with conn := none }
  have hreset : Coherent ((w.enterClose c).setClient k { w.clients k with conn := none }) := by
    refine h.closeInto hc hσ rfl rfl (Or.inl hvac) ?_ (fun _ => World.closed_enterClose) rfl rfl
      (mentions_enterClose hc) rfl ?_ (fun _ => rfl)
    · intro d
      refine World.displaced_enterClose.trans ⟨Or.inl, fun hm => hm.elim id ?_⟩
      rintro ⟨hd, _, hne⟩
      exact absurd (Option.some.inj (hd.symm.trans hconn)) hne
    · intro k'
      by_cases hk : k' = k
      · subst hk
        simp [World.setClient]
      · simp [World.setClient, World.enterClose, World.emit, World.push, hk]
  exact hreset.runDisconnectCallback k

/-- A `HandleClose` that stops at its assertion. -/
theorem enterClose (h : Coherent w) (hc : c < w.connCount) {k : Nat}
    (hcb : (w.conns c).closeCallback = some (.handleClose k))
    (hconn : (w.clients k).conn ≠ some c) : Coherent (w.enterClose c) := by
  have hσ : (w.conns c).slot = some (.client k) := by
    simp [TcpConnection.slot, hcb]
  refine h.closeInto hc hσ rfl rfl (Or.inr ⟨rfl, hconn⟩) ?_ (fun _ => World.closed_enterClose)
    rfl rfl (mentions_enterClose hc) rfl (fun _ => rfl) (fun _ => rfl)
  intro d
  refine World.displaced_enterClose.trans ⟨Or.inl, fun hm => hm.elim id ?_⟩
  rintro ⟨hd, hnone, _⟩
  exact absurd (hd.symm.trans hnone) (by simp)

theorem close (h : Coherent w) (c : Nat) : Coherent (w.close c) := by
  by_cases hlive : w.live c = true
  · have hc := h.known_of_live hlive
    obtain ⟨_, _, _, hslot⟩ := h.conn c hc
    rcases World.close_cases hlive hslot with
      ⟨s, hcb, hq⟩ | ⟨k, hcb, hconn, hq⟩ | ⟨k, hcb, hconn, hq⟩
    · exact (h.eraseConn hc hcb).quiet hq
    · exact (h.resetConn hc hcb hconn).quiet hq
    · exact (h.enterClose hc hcb hconn).quiet hq
  · have hfail : w.close c = w.fail .useAfterFree := by
      unfold World.close
      rw [if_neg hlive]
    rw [hfail]
    exact h.quiet (World.quiet_fail w _)

theorem tcpHandleRead (h : Coherent w) (c : Nat) (r : ReadOutcome) :
    Coherent (w.tcpHandleRead c r) := by
  unfold World.tcpHandleRead
  split
  next hlive =>
    have hc := h.known_of_live hlive
    cases r with
    | failed errno => exact h
    | eof => exact h.close c
    | data bytes =>
        have hq := World.quiet_setConn w (TcpConnection.parts_receive (w.conns c) bytes)
        have hset := h.quiet hq
        simp only
        split
        · refine (hset.emit rfl (fun d hd => ?_)).push (fun d hd => ?_)
          · simp only [Event.mentions, beq_iff_eq] at hd
            exact hd ▸ hc
          · simp only [Frame.mentions, Frame.holds, beq_iff_eq] at hd
            exact hd ▸ hc
        · exact hset.quiet (World.quiet_fail _ _)
  next => exact h.quiet (World.quiet_fail w _)

/-- Descriptors and serial numbers are not ownership. -/
theorem setSerial (h : Coherent w) {n : Nat} (hn : w.handlerCount ≤ n) :
    Coherent { w with handlerCount := n } :=
  h.transfer rfl (fun _ => rfl) rfl h.kept h.stack (fun _ he _ => he) (fun _ he => Or.inl he)
    hn (fun _ _ _ => Or.inl) (fun _ _ => Or.inl)

theorem connecting (h : Coherent w) (k fd : Nat) : Coherent (w.connecting k fd) := by
  unfold World.connecting
  simp only
  refine Coherent.quiet ?_ (World.quiet_update _ _ _)
  have hset : ∀ v : World, Coherent v → v.clients = w.clients →
      v.handlerCount = w.handlerCount →
      Coherent (World.setClient { v with handlerCount := w.handlerCount + 1 } k
        { w.clients k with
          state := .connecting
          connHandler := some (w.handlerCount, (World.connectingHandler k fd).enableWrite) }) := by
    intro v hv hclients hcount
    refine (hv.setSerial (hcount ▸ Nat.le_succ _)).setClient ?_ ?_
    · show (w.clients k).conn = (v.clients k).conn
      rw [hclients]
    · intro n g hg
      obtain ⟨rfl, rfl⟩ := Prod.mk.inj (Option.some.inj hg)
      refine Or.inr ⟨Nat.lt_succ_self _, rfl, rfl, rfl, ?_⟩
      exact Handler.events_ne_zero_of_isWriting (Handler.isWriting_enableWrite _)
  -- a handler that is still there is destroyed first
  split
  · exact hset _ (h.quiet (World.quiet_report w rfl)) rfl rfl
  · exact hset w h rfl rfl

theorem dropConnHandler (h : Coherent w) (k n : Nat) (g : Handler HandlerCallback) :
    Coherent (w.dropConnHandler k n g) := by
  unfold World.dropConnHandler
  refine Coherent.quiet ?_ (World.quiet_report _ rfl)
  refine (h.quiet (World.quiet_update w _ _)).setClient rfl ?_
  exact fun _ _ hg => absurd hg (by simp)

theorem clientHandleError (h : Coherent w) (k : Nat) : Coherent (w.clientHandleError k) := by
  unfold World.clientHandleError
  split
  · split
    · exact h.quiet (World.quiet_fail w _)
    · next n g _ =>
      exact ((h.dropConnHandler k n g).quiet (World.quiet_closeFd _ _)).runDisconnectCallback k
  · exact h

theorem clientHandleWrite (h : Coherent w) (k err : Nat) :
    Coherent (w.clientHandleWrite k err) := by
  unfold World.clientHandleWrite
  split
  · split
    · exact h.quiet (World.quiet_fail w _)
    · next n g _ =>
      simp only
      split
      · exact (h.dropConnHandler k n g).runDisconnectCallback k
      · exact (h.dropConnHandler k n g).connEstablish k g.fd
  · exact h

theorem dial (h : Coherent w) (k : Nat) (ip : Text) (port : BitVec 16) (fd : Nat) :
    Coherent (w.dial k ip port fd) := by
  have haddr : Coherent (w.storeAddr k ip port) := h.setClient rfl fun _ _ => Or.inl
  have hopen : Coherent { w.storeAddr k ip port with fds := Function.update w.fds fd true } :=
    haddr.quiet World.Quiet.of_machine
  exact hopen.emit (e := .dialled k _) rfl fun _ hd => absurd hd (by simp [Event.mentions])

theorem connect (h : Coherent w) (k : Nat) (ip : Text) (port : BitVec 16) (sock : Option Nat)
    (outcome : ConnectOutcome) : Coherent (w.connect k ip port sock outcome) := by
  unfold World.connect
  split
  · exact h
  · split
    · exact h.setClient rfl fun _ _ => Or.inl
    · next fd =>
      have hdial := h.dial k ip port fd
      simp only
      split
      · exact hdial.connEstablish k fd
      · split
        · exact hdial.connecting k fd
        · refine Coherent.quiet ?_ (World.quiet_closeFd _ fd)
          exact hdial.setClient rfl fun _ _ => Or.inl

theorem disconnect (h : Coherent w) (k : Nat) (ok : Bool) : Coherent (w.disconnect k ok) := by
  unfold World.disconnect
  have hset := h.setClient (k := k) (x := { w.clients k with state := .disConnected }) rfl
    (fun _ _ => Or.inl)
  simp only
  split
  · exact hset.quiet (World.quiet_fail _ _)
  · exact hset.quiet (World.quiet_shutDown _ _ _)

theorem clientSend (h : Coherent w) (k : Nat) (mem : Memory) (data len : SizeT)
    (out : WriteOutcome) : Coherent (w.clientSend k mem data len out) :=
  h.quiet (World.quiet_clientSend w k mem data len out)

theorem serverStart (h : Coherent w) (s fd : Nat) : Coherent (w.serverStart s fd) := by
  unfold World.serverStart
  refine Coherent.quiet ?_ (World.quiet_update _ _ _)
  refine (h.quiet World.Quiet.of_machine).setServer rfl ?_
  intro g hg
  obtain rfl := Option.some.inj hg
  refine Or.inr ⟨rfl, rfl, rfl, ?_⟩
  simp [Handler.enableRead, Handler.new, EPOLLIN, EPOLLPRI]

theorem runCallback (h : Coherent w) (env : Env) (callback : HandlerCallback) :
    Coherent (w.runCallback env callback) := by
  cases callback with
  | tcpHandleRead c => exact h.tcpHandleRead c env.read
  | tcpHandleWrite c => exact h.quiet (World.quiet_tcpHandleWrite w c env.write env.shutdownOk)
  | clientHandleWrite k => exact h.clientHandleWrite k env.soError
  | clientHandleError k => exact h.clientHandleError k
  | acceptorHandleRead s =>
      show Coherent (w.acceptorHandleRead s env.accept)
      unfold World.acceptorHandleRead
      split
      · exact (h.quiet World.Quiet.of_machine).onNewConnect s _ _
      · exact h

theorem testEvent (h : Coherent w) (env : Env) (ptr : HandlerPtr) (mask bits : EventMask)
    (field : Handler HandlerCallback → Option HandlerCallback) :
    Coherent (w.testEvent env ptr mask bits field) := by
  unfold World.testEvent
  split
  · split
    · exact h.quiet (World.quiet_fail w _)
    · split
      · exact h
      · exact h.runCallback env _
  · exact h

/-- What the read test of `HandleEvent` comes to. -/
theorem read_cases (h : Coherent w) (env : Env) (ptr : HandlerPtr) (mask : EventMask)
    (hw' : w' = w.testEvent env ptr mask World.readBits Handler.readCallback) :
    ((mask.has World.readBits = false ∨ ∃ k n, ptr = .connecting k n) ∧ w' = w)
    ∨ (mask.has World.readBits = true ∧ w.handler? ptr = none ∧ w' = w.fail .useAfterFree)
    ∨ (∃ c, ptr = .conn c ∧ mask.has World.readBits = true ∧ w.live c = true
      ∧ w' = w.tcpHandleRead c env.read)
    ∨ ∃ s, ptr = .acceptor s ∧ mask.has World.readBits = true
      ∧ (w.servers s).accepter.isSome = true ∧ w' = w.acceptorHandleRead s env.accept := by
  rcases w.testEvent_cases env ptr mask World.readBits Handler.readCallback with
    ⟨hno, heq⟩ | ⟨hbits, hptr, heq⟩ | ⟨g, callback, hbits, hptr, hcb, heq⟩
  · refine Or.inl ⟨hno.imp_right ?_, hw'.trans heq⟩
    rintro ⟨g, hptr, hnone⟩
    -- the other handlers have a read callback
    cases ptr with
    | conn c =>
        obtain ⟨hlive, rfl⟩ := World.handler?_conn.mp hptr
        exact absurd ((h.conn c (h.known_of_live hlive)).1.symm.trans hnone) (by simp)
    | connecting k n => exact ⟨k, n, rfl⟩
    | acceptor s => exact absurd ((h.acceptor s g hptr).1.symm.trans hnone) (by simp)
  · exact Or.inr (Or.inl ⟨hbits, hptr, hw'.trans heq⟩)
  refine Or.inr (Or.inr ?_)
  cases ptr with
  | conn c =>
      obtain ⟨hlive, rfl⟩ := World.handler?_conn.mp hptr
      rw [(h.conn c (h.known_of_live hlive)).1] at hcb
      cases hcb
      exact Or.inl ⟨c, rfl, hbits, hlive, hw'.trans heq⟩
  | connecting k n =>
      -- a connecting handler has no read callback
      obtain ⟨_, hnone, _⟩ := h.connHandler k n g (World.handler?_connecting.mp hptr)
      exact absurd (hnone.symm.trans hcb) (by simp)
  | acceptor s =>
      rw [(h.acceptor s g hptr).1] at hcb
      cases hcb
      have hacc : (w.servers s).accepter = some g := hptr
      exact Or.inr ⟨s, rfl, hbits, by rw [hacc]; rfl, hw'.trans heq⟩

/-- What the write test comes to. -/
theorem write_cases (h : Coherent w) (env : Env) (ptr : HandlerPtr) (mask : EventMask)
    (hw' : w' = w.testEvent env ptr mask EPOLLOUT Handler.writeCallback) :
    ((mask.has EPOLLOUT = false ∨ ∃ s, ptr = .acceptor s) ∧ w' = w)
    ∨ (mask.has EPOLLOUT = true ∧ w.handler? ptr = none ∧ w' = w.fail .useAfterFree)
    ∨ (∃ c, ptr = .conn c ∧ mask.has EPOLLOUT = true ∧ w.live c = true
      ∧ w' = w.tcpHandleWrite c env.write env.shutdownOk)
    ∨ ∃ k n g, ptr = .connecting k n ∧ mask.has EPOLLOUT = true
      ∧ (w.clients k).connHandler = some (n, g) ∧ w' = w.clientHandleWrite k env.soError := by
  rcases w.testEvent_cases env ptr mask EPOLLOUT Handler.writeCallback with
    ⟨hno, heq⟩ | ⟨hbits, hptr, heq⟩ | ⟨g, callback, hbits, hptr, hcb, heq⟩
  · refine Or.inl ⟨hno.imp_right ?_, hw'.trans heq⟩
    rintro ⟨g, hptr, hnone⟩
    cases ptr with
    | conn c =>
        obtain ⟨hlive, rfl⟩ := World.handler?_conn.mp hptr
        exact absurd ((h.conn c (h.known_of_live hlive)).2.1.symm.trans hnone) (by simp)
    | connecting k n =>
        obtain ⟨_, _, hcallback, _⟩ := h.connHandler k n g (World.handler?_connecting.mp hptr)
        exact absurd (hcallback.symm.trans hnone) (by simp)
    | acceptor s => exact ⟨s, rfl⟩
  · exact Or.inr (Or.inl ⟨hbits, hptr, hw'.trans heq⟩)
  refine Or.inr (Or.inr ?_)
  cases ptr with
  | conn c =>
      obtain ⟨hlive, rfl⟩ := World.handler?_conn.mp hptr
      rw [(h.conn c (h.known_of_live hlive)).2.1] at hcb
      cases hcb
      exact Or.inl ⟨c, rfl, hbits, hlive, hw'.trans heq⟩
  | connecting k n =>
      have hk := World.handler?_connecting.mp hptr
      obtain ⟨_, _, hcallback, _⟩ := h.connHandler k n g hk
      rw [hcallback] at hcb
      cases hcb
      exact Or.inr ⟨k, n, g, rfl, hbits, hk, hw'.trans heq⟩
  | acceptor s =>
      -- an acceptor's has no write callback
      exact absurd ((h.acceptor s g hptr).2.1.symm.trans hcb) (by simp)

/-- What the error test comes to. -/
theorem error_cases (h : Coherent w) (env : Env) (ptr : HandlerPtr) (mask : EventMask)
    (hw' : w' = w.testEvent env ptr mask EPOLLERR Handler.errorCallback) :
    ((mask.has EPOLLERR = false ∨ ∀ k n, ptr ≠ .connecting k n) ∧ w' = w)
    ∨ (mask.has EPOLLERR = true ∧ w.handler? ptr = none ∧ w' = w.fail .useAfterFree)
    ∨ ∃ k n g, ptr = .connecting k n ∧ mask.has EPOLLERR = true
      ∧ (w.clients k).connHandler = some (n, g) ∧ w' = w.clientHandleError k := by
  rcases w.testEvent_cases env ptr mask EPOLLERR Handler.errorCallback with
    ⟨hno, heq⟩ | ⟨hbits, hptr, heq⟩ | ⟨g, callback, hbits, hptr, hcb, heq⟩
  · refine Or.inl ⟨hno.imp_right ?_, hw'.trans heq⟩
    rintro ⟨g, hptr, hnone⟩ k n rfl
    obtain ⟨_, _, _, hcallback, _⟩ := h.connHandler k n g (World.handler?_connecting.mp hptr)
    exact absurd (hcallback.symm.trans hnone) (by simp)
  · exact Or.inr (Or.inl ⟨hbits, hptr, hw'.trans heq⟩)
  refine Or.inr (Or.inr ?_)
  cases ptr with
  | conn c =>
      -- only a connecting handler has an error callback
      obtain ⟨hlive, rfl⟩ := World.handler?_conn.mp hptr
      exact absurd ((h.conn c (h.known_of_live hlive)).2.2.1.symm.trans hcb) (by simp)
  | connecting k n =>
      have hk := World.handler?_connecting.mp hptr
      obtain ⟨_, _, _, hcallback, _⟩ := h.connHandler k n g hk
      rw [hcallback] at hcb
      cases hcb
      exact ⟨k, n, g, rfl, hbits, hk, hw'.trans heq⟩
  | acceptor s =>
      exact absurd ((h.acceptor s g hptr).2.2.1.symm.trans hcb) (by simp)

/-- The pointer a frame held is dropped with it. -/
theorem popRelease (h : Coherent w) {f : Frame} {rest : List Frame} (hst : w.stack = f :: rest)
    (c : Nat) : Coherent ({ w with stack := rest }.release c) :=
  (h.pop hst).quiet (World.quiet_release _ c)

/-! ## §7. Every reachable world. -/

/-- **One step** keeps the invariant. -/
theorem next (h : Coherent w) {l : Label} (hnext : w.next l = some w') : Coherent w' := by
  obtain ⟨_, hturn⟩ := World.next_turn hnext
  cases hturn with
  | poll hst => exact h.push fun d hd => absurd hd (by simp [Frame.mentions, Frame.holds])
  | loopEnd hst => exact h.pop hst
  | loopStale hst hptr => exact h.quiet (World.quiet_fail w _)
  | @loopNext env ptr mask batch rest g hst hptr =>
      have hloop : ∀ d, Frame.mentions d (.loop batch) = false := fun _ => rfl
      apply h.setStack
      intro f hf
      rcases List.mem_cons.mp hf with rfl | hf
      · refine Or.inr fun d hd => ?_
        cases ptr with
        | conn c =>
            simp only [Frame.mentions, beq_iff_eq] at hd
            subst hd
            -- a connection that is dispatched is live, so it is known
            exact h.known_of_live (World.handler?_conn.mp hptr).1
        | connecting k n => exact absurd hd (by simp [Frame.mentions, Frame.holds])
        | acceptor s => exact absurd hd (by simp [Frame.mentions, Frame.holds])
      rcases List.mem_cons.mp hf with rfl | hf
      · exact Or.inr fun d hd => absurd hd (by simp [hloop])
      · exact Or.inl (by rw [hst]; exact List.mem_cons_of_mem _ hf)
  | @readTest env ptr mask rest hst hadm =>
      exact (h.advance hst .write).testEvent env _ _ _ _
  | @writeTest env ptr mask rest hst hadm =>
      exact (h.advance hst .error).testEvent env _ _ _ _
  | errorTest hst => exact (h.pop hst).testEvent _ _ _ _ _
  | @finishClose env c rest hst =>
      exact (h.popRelease hst c).quiet (World.quiet_finishClose _ c)
  | connect hsock => exact h.connect _ _ _ _ _
  | disconnect => exact h.disconnect _ _
  | clientSend hout => exact h.clientSend _ _ _ _ _
  | setConnectionCallback => exact h.setClient rfl fun _ _ => Or.inl
  | setMessageCallback => exact h.setClient rfl fun _ _ => Or.inl
  | setDisconnectCallback => exact h.setClient rfl fun _ _ => Or.inl
  | serverStart hacc hfd => exact h.serverStart _ _
  | serverSetConnCallback => exact h.setServer rfl fun _ => Or.inl
  | serverSetMessageCallback => exact h.setServer rfl fun _ => Or.inl
  | send hacc hout => exact h.quiet (World.quiet_send _ _ _ _ _ _)
  | shutDown hacc => exact h.quiet (World.quiet_shutDown _ _ _)
  | close hacc => exact h.close _
  | retrieve hacc => exact h.quiet (World.quiet_setConn _ (TcpConnection.parts_retrieve _ _))
  | retrieveAll hacc => exact h.quiet (World.quiet_setConn _ (TcpConnection.parts_retrieveAll _))
  | @keep c hacc =>
      apply h.setKept
      intro d hd
      by_cases hdc : d = c
      · exact hdc ▸ h.known_of_live (live_of_accessible hacc)
      · rw [Function.update_of_ne hdc] at hd
        exact h.kept d hd
  | @drop c hkept =>
      -- the copy goes first; `release` may then destroy the connection
      refine Coherent.quiet ?_ (World.quiet_release _ c)
      apply h.setKept
      intro d hd
      by_cases hdc : d = c
      · exact hdc ▸ h.kept c hkept
      · rw [Function.update_of_ne hdc] at hd
        exact h.kept d hd
  | @retConnection c rest hst => exact h.popRelease hst c
  | @retMessage c rest hst => exact h.popRelease hst c
  | retDisconnect hst => exact h.pop hst

/-- Over a whole run. -/
theorem exec {labels : List Label} (h : Coherent w) (hrun : exec World.next w labels = some w') :
    Coherent w' :=
  exec_invariant (fun _ _ _ h hnext => h.next hnext) h hrun

end Coherent

/-- **Every reachable world is coherent.** -/
theorem coherent_reachable {labels : List Label} {w : World}
    (hrun : exec World.next World.init labels = some w) : Coherent w :=
  coherent_init.exec hrun

end SparkNet
