/-
  SparkNet.Calls — what a library function leaves on the stack, and how it can
  end the process.

  A library function pushes no frames but those that wait for application code.
  So the stack has one shape in every run: calls that wait, and at the bottom at
  most one dispatch of at most one batch.

  Main results:
    * `Performs` — one lemma a function: the frames it pushes are calls, and the
      faults it can raise;
    * `Layered.next` — every step keeps the shape of the stack;
    * `fault_next` — a null pointer is dereferenced by `Disconnect` alone, an
      `assert` fails in a client's `Close` alone, and the log of `ShutdownWrite`
      is reached only by a step whose `shutdown` fails.
-/
import SparkNet.ClientState

namespace SparkNet

open Runs

/-! ## §1. Frames that wait. -/

/-- A library function that waits for application code, or that code. -/
def Frame.isCall : Frame → Bool
  | .closing _ => true
  | .user _ => true
  | _ => false

/-- From `w` to `w'` only calls were pushed, and only a fault in `F` was raised. -/
structure Performs (F : Fault → Prop) (w w' : World) : Prop where
  stack : ∃ calls, w'.stack = calls ++ w.stack ∧ ∀ f ∈ calls, f.isCall = true
  fault : ∀ f, w'.fault = some f → w.fault = some f ∨ F f

namespace Performs

variable {F : Fault → Prop} {w w' w'' : World}

theorem trans (h : Performs F w w') (h' : Performs F w' w'') : Performs F w w'' where
  stack := by
    obtain ⟨calls, hst, hcalls⟩ := h.stack
    obtain ⟨calls', hst', hcalls'⟩ := h'.stack
    refine ⟨calls' ++ calls, by rw [hst', hst, List.append_assoc], fun f hf => ?_⟩
    rcases List.mem_append.mp hf with hf | hf
    · exact hcalls' f hf
    · exact hcalls f hf
  fault f hf := by
    rcases h'.fault f hf with hf | hf
    · exact h.fault f hf
    · exact Or.inr hf

/-- The same, read from the end of a function. -/
theorem after (h' : Performs F w' w'') (h : Performs F w w') : Performs F w w'' := h.trans h'

theorem of_eq (hst : w'.stack = w.stack) (hfault : w'.fault = w.fault) : Performs F w w' :=
  ⟨⟨[], hst, by simp⟩, fun _ hf => Or.inl (hfault ▸ hf)⟩

theorem refl (w : World) : Performs F w w := of_eq rfl rfl

theorem push {f : Frame} (hf : f.isCall = true) : Performs F w (w.push f) :=
  ⟨⟨[f], rfl, by simpa using hf⟩, fun _ => Or.inl⟩

theorem emit (e : Event) : Performs F w (w.emit e) := of_eq rfl rfl

theorem fail {f : Fault} (hf : F f) : Performs F w (w.fail f) := by
  refine ⟨⟨[], rfl, by simp⟩, fun f' hf' => ?_⟩
  have hor : w.fault.or (some f) = some f' := hf'
  cases h : w.fault with
  | none =>
      rw [h, Option.none_or] at hor
      exact Or.inr (Option.some.inj hor ▸ hf)
  | some g =>
      rw [h, Option.some_or] at hor
      exact Or.inl hor

/-- Where no fault is named, none is raised. -/
theorem no_fault (h : Performs F w w') (hw : w.fault = none) {f : Fault} (hf : ¬ F f) :
    w'.fault ≠ some f := by
  intro hfault
  rcases h.fault f hfault with hold | hF
  · exact absurd (hw.symm.trans hold) (by simp)
  · exact hf hF

end Performs

/-! ## §2. The steps that call `shutdown`. -/

/-- Is the call `shutdown(fd, SHUT_WR)`? -/
def SockCall.isShutdown : SockCall → Bool
  | .shutdown _ => true
  | _ => false

namespace TcpConnection

/-- `ShutDown` half-closes at once: connected, and no output waits. -/
def halfCloses (x : TcpConnection) : Prop :=
  x.state = .connected ∧ x.handler.isWriting = false

/-- The answer of `write` drains the output of a connection that has been shut
down in the meantime. -/
def drainsShut (x : TcpConnection) : WriteOutcome → Prop
  | .accepted n => x.handler.isWriting = true ∧ x.state = .disConnecting
      ∧ x.outPutBuffer.contents.drop n = []
  | .failed _ => False

instance (x : TcpConnection) : Decidable x.halfCloses :=
  inferInstanceAs (Decidable (_ ∧ _))

instance (x : TcpConnection) (out : WriteOutcome) : Decidable (x.drainsShut out) :=
  match out with
  | .accepted _ => inferInstanceAs (Decidable (_ ∧ _))
  | .failed _ => inferInstanceAs (Decidable False)

theorem shutDown_calls_iff (x : TcpConnection) :
    x.shutDown.2.any SockCall.isShutdown = true ↔ x.halfCloses := by
  rw [shutDown_eq]
  unfold halfCloses
  by_cases hst : x.state = .connected
  · cases hw : x.handler.isWriting <;> simp [hst, SockCall.isShutdown]
  · simp [hst]

theorem handleWrite_calls_iff (x : TcpConnection) (out : WriteOutcome) :
    (x.handleWrite out).2.any SockCall.isShutdown = true ↔ x.drainsShut out := by
  cases hw : x.handler.isWriting with
  | false =>
      rw [handleWrite_idle hw]
      cases out <;> simp [drainsShut, hw]
  | true =>
      cases out with
      | failed errno =>
          rw [handleWrite_failed hw]
          simp [drainsShut, SockCall.isShutdown]
      | accepted n =>
          rw [handleWrite_accepted hw]
          unfold drainsShut
          by_cases hd : x.outPutBuffer.contents.drop n = []
          · by_cases hst : x.state = .disConnecting
            · simp [hd, hst, hw, SockCall.isShutdown]
            · simp [hd, hst, SockCall.isShutdown]
          · simp [hd, SockCall.isShutdown]

/-- What `HandleWrite` does then. -/
theorem handleWrite_drains {x : TcpConnection} {out : WriteOutcome} (h : x.drainsShut out) :
    ∃ y : TcpConnection, y.handler = x.handler.disableWrite ∧ x.handleWrite out
      = (y, [.write false x.outPutBuffer.contents out, .update, .shutdown 0]) := by
  cases out with
  | failed errno => exact absurd h id
  | accepted n =>
      obtain ⟨hw, hst, hd⟩ := h
      refine ⟨_, ?_, by rw [handleWrite_accepted hw, if_pos hd, if_pos hst]; rfl⟩
      rfl

end TcpConnection

/-- The connection on whose socket the step calls `shutdown`, and the answer.
`HandleWrite` comes to the call if the `epoll_ctl` before it did not abort. -/
def World.shutsDown (w : World) : Label → Option (Nat × Bool)
  | .user (.shutDown c ok) => if (w.conns c).halfCloses then some (c, ok) else none
  | .user (.disconnect k ok) =>
      (w.clients k).conn.bind fun c => if (w.conns c).halfCloses then some (c, ok) else none
  | .resume env =>
      match w.stack with
      | .handleEvent (.conn c) mask .write :: _ =>
          if mask.has EPOLLOUT = true ∧ w.live c = true ∧ (w.conns c).drainsShut env.write
            ∧ w.poller.Accepts (w.conns c).handler.disableWrite then some (c, env.shutdownOk)
          else none
      | _ => none
  | _ => none

/-! ## §3. The library's functions. -/

section Functions

variable {F : Fault → Prop} {w : World} {c : Nat}

theorem performs_update (habort : F .abort) (ptr : HandlerPtr) (h : Handler HandlerCallback) :
    Performs F w (w.update ptr h) := by
  unfold World.update
  split
  next p hp => exact .of_eq rfl rfl
  next f hf => exact .fail (Epoller.update_fault hf ▸ habort)

theorem performs_release (habort : F .abort) (c : Nat) : Performs F w (w.release c) := by
  unfold World.release World.destroyConn
  simp only
  split
  · exact .refl w
  · split
    · exact .of_eq rfl rfl
    · exact .after (.fail habort) (.emit _)

theorem performs_letGo (habort : F .abort) (o : Option Nat) : Performs F w (w.letGo o) := by
  cases o with
  | none => exact .refl w
  | some o => exact .after (performs_release habort o) (.emit _)

/-- A member function of a connection aborts in `ShutdownWrite` only if it calls
`shutdown` and that fails. -/
theorem performs_connOp (habort : F .abort) (c : Nat) (r : TcpConnection × List SockCall)
    (ok : Bool)
    (hshut : ok = false → r.2.any SockCall.isShutdown = true → F .shutdownAbort) :
    Performs F w (w.connOp c r ok) := by
  have hcalls : ∀ (calls : List SockCall) (v : World),
      (ok = false → calls.any SockCall.isShutdown = true → F .shutdownAbort) →
      Performs F v (calls.foldl (World.runCall c ok) v) := by
    intro calls
    induction calls with
    | nil => exact fun v _ => .refl v
    | cons call calls ih =>
        intro v hsh
        have hcall : Performs F v (World.runCall c ok v call) := by
          cases call with
          | write direct bytes out => exact .emit _
          | append bytes => exact .refl v
          | update => exact performs_update habort _ _
          | shutdown pending =>
              unfold World.runCall
              simp only
              split
              · exact .emit _
              next hok => exact .fail (hsh (Bool.eq_false_iff.mpr hok) rfl)
        refine hcall.trans (ih _ fun hok hany => hsh hok ?_)
        rw [List.any_cons, hany, Bool.or_true]
  exact .after (hcalls r.2 _ hshut) (.of_eq rfl rfl)

theorem performs_start (habort : F .abort) (c : Nat) : Performs F w (w.start c) := by
  have hop : Performs F w (w.connOp c (w.conns c).start true) :=
    performs_connOp habort _ _ _ fun hok _ => absurd hok (by decide)
  unfold World.start
  simp only
  split
  · exact hop.trans (.after (.push rfl) (.emit _))
  · exact hop

theorem performs_runDisconnectCallback (k : Nat) : Performs F w (w.runDisconnectCallback k) := by
  unfold World.runDisconnectCallback
  split
  · exact .after (.push rfl) (.emit _)
  · exact .refl w

theorem performs_connEstablish (habort : F .abort) (k fd : Nat) :
    Performs F w (w.connEstablish k fd) := by
  have hstore : Performs F w (w.storeClientConn k fd) := .of_eq rfl rfl
  unfold World.connEstablish
  exact (hstore.trans (performs_letGo habort _)).trans (performs_start habort _)

theorem performs_onNewConnect (habort : F .abort) (s fd : Nat) (addr : InetAdress) :
    Performs F w (w.onNewConnect s fd addr) := by
  have hstore : Performs F w (w.storeServerConn s fd addr) := .of_eq rfl rfl
  unfold World.onNewConnect
  exact (hstore.trans (performs_letGo habort _)).trans (performs_start habort _)

theorem performs_acceptorHandleRead (habort : F .abort) (s : Nat) (accept : AcceptOutcome) :
    Performs F w (w.acceptorHandleRead s accept) := by
  unfold World.acceptorHandleRead
  split
  · exact .after (performs_onNewConnect habort s _ _) (.of_eq rfl rfl)
  · exact .refl w

theorem performs_connecting (habort : F .abort) (k fd : Nat) :
    Performs F w (w.connecting k fd) := by
  unfold World.connecting
  refine .after (performs_update habort _ _) ?_
  cases (w.clients k).connHandler <;> exact .of_eq rfl rfl

theorem performs_dropConnHandler (habort : F .abort) (k n : Nat) (g : Handler HandlerCallback) :
    Performs F w (w.dropConnHandler k n g) := by
  unfold World.dropConnHandler
  exact Performs.trans (performs_update habort _ _) (.of_eq rfl rfl)

/-- `HandleError` dereferences `_connHandler` in state CONNECTING. -/
theorem performs_clientHandleError (habort : F .abort) {k : Nat}
    (hnull : (w.clients k).state = .connecting → (w.clients k).connHandler = none → F .nullDeref) :
    Performs F w (w.clientHandleError k) := by
  unfold World.clientHandleError
  split
  next hst =>
    split
    next hk => exact .fail (hnull hst hk)
    next n g _ =>
      have hclose : Performs F (w.dropConnHandler k n g)
          ((w.dropConnHandler k n g).closeFd g.fd) := .of_eq rfl rfl
      exact ((performs_dropConnHandler habort k n g).trans hclose).trans
        (performs_runDisconnectCallback k)
  next => exact .refl w

/-- So does `HandleWrite`. -/
theorem performs_clientHandleWrite (habort : F .abort) {k : Nat} (err : Nat)
    (hnull : (w.clients k).state = .connecting → (w.clients k).connHandler = none → F .nullDeref) :
    Performs F w (w.clientHandleWrite k err) := by
  unfold World.clientHandleWrite
  split
  next hst =>
    split
    next hk => exact .fail (hnull hst hk)
    next n g _ =>
      simp only
      split
      · exact (performs_dropConnHandler habort k n g).trans (performs_runDisconnectCallback k)
      · exact (performs_dropConnHandler habort k n g).trans (performs_connEstablish habort k g.fd)
  next => exact .refl w

theorem performs_removeConn (habort : F .abort) (s c : Nat) :
    Performs F w (w.removeConn s c) := by
  unfold World.removeConn
  simp only
  split
  · exact .after (performs_release habort c) (.of_eq rfl rfl)
  · exact .after (performs_letGo habort _) (.of_eq rfl rfl)

/-- `HandleClose` asserts that the connection is the client's current one. -/
theorem performs_handleClose (habort : F .abort) {k : Nat}
    (hassert : (w.clients k).conn ≠ some c → F .assertFailed) :
    Performs F w (w.handleClose k c) := by
  unfold World.handleClose
  simp only
  split
  · exact .after (performs_runDisconnectCallback k)
      (.after (performs_release habort c) (.of_eq rfl rfl))
  next hc => exact .fail (hassert hc)

theorem performs_closeStart (habort : F .abort) (c : Nat) : Performs F w (w.closeStart c) :=
  .after (performs_connOp habort _ _ _ fun hok _ => absurd hok (by decide)) (.emit _)

theorem performs_close (habort : F .abort) (huaf : F .useAfterFree)
    (hassert : ∀ k, w.live c = true → (w.conns c).closeCallback = some (.handleClose k) →
      (w.clients k).conn ≠ some c → F .assertFailed) : Performs F w (w.close c) := by
  have hstart : Performs F w (w.closeStart c) := performs_closeStart habort c
  unfold World.close
  split
  next hlive =>
    have hq := World.quiet_closeStart w c
    have hcb : ((w.closeStart c).conns c).closeCallback = (w.conns c).closeCallback :=
      congrArg ConnParts.closeCallback (hq.parts c)
    simp only
    split
    next => exact hstart.trans (.of_eq rfl rfl)
    next callback hcallback =>
      have hpush : Performs F (w.closeStart c)
          (((w.closeStart c).push (.closing c)).emit (.closeCallback c)) :=
        .after (.emit _) (.push rfl)
      refine (hstart.trans hpush).trans ?_
      cases callback with
      | removeConn s => exact performs_removeConn habort s c
      | handleClose k =>
          refine performs_handleClose habort fun hne => ?_
          refine hassert k hlive (hcb.symm.trans hcallback) fun hconn => hne ?_
          show ((w.closeStart c).clients k).conn = some c
          rw [hq.clients]
          exact hconn
  next => exact .fail huaf

theorem performs_tcpHandleRead (habort : F .abort) (huaf : F .useAfterFree)
    (hcall : F .badFunctionCall) (r : ReadOutcome)
    (hassert : r = .eof → ∀ k, w.live c = true →
      (w.conns c).closeCallback = some (.handleClose k) → (w.clients k).conn ≠ some c →
      F .assertFailed) : Performs F w (w.tcpHandleRead c r) := by
  unfold World.tcpHandleRead
  split
  · cases r with
    | failed errno => exact .refl w
    | eof => exact performs_close habort huaf (hassert rfl)
    | data bytes =>
        simp only
        split
        · exact .after (.push rfl) (.of_eq rfl rfl)
        · exact .after (.fail hcall) (.of_eq rfl rfl)
  · exact .fail huaf

/-- A process that has ended raises nothing more. -/
theorem performs_fail_again {f f' : Fault} (h : w.fault = some f) :
    Performs F w (w.fail f') := by
  refine .of_eq rfl ?_
  show w.fault.or (some f') = w.fault
  rw [h, Option.some_or]

/-- When `epoll_ctl` refuses the mask that `DisableWrite` leaves, the process is
gone before `shutdown`. -/
theorem performs_drain_refused (habort : F .abort) {out : WriteOutcome} (ok : Bool)
    (hd : (w.conns c).drainsShut out)
    (hacc : ¬ w.poller.Accepts (w.conns c).handler.disableWrite) :
    Performs F w (w.connOp c ((w.conns c).handleWrite out) ok) := by
  obtain ⟨y, hy, hcalls⟩ := TcpConnection.handleWrite_drains hd
  rw [hcalls]
  -- the world after the write
  generalize hv : (w.setConn c y).emit (.wrote c
    ((w.conns c).outPutBuffer.contents.take out.result.toNat).length) = v
  have hupdate : ∃ u, v.update (.conn c) (v.conns c).handler = u ∧ ∃ f, u.fault = some f := by
    refine ⟨_, rfl, ?_⟩
    unfold World.update
    split
    next p hp =>
      refine absurd ((Epoller.update_ok_iff w.poller (.conn c) _).mp ⟨p, ?_⟩) hacc
      rw [← hy, ← hp, ← hv]
      show _ = w.poller.update _ (Function.update w.conns c y c).handler
      rw [Function.update_self]
    next f hf =>
      show ∃ g, v.fault.or (some f) = some g
      cases v.fault with
      | none => exact ⟨f, rfl⟩
      | some g => exact ⟨g, rfl⟩
  obtain ⟨u, hu, f, hf⟩ := hupdate
  have hrest : w.connOp c (y, [.write false (w.conns c).outPutBuffer.contents out, .update,
      .shutdown 0]) ok = World.runCall c ok u (.shutdown 0) := by
    rw [← hu, ← hv]
    rfl
  have hwrote : Performs F w v := hv ▸ .of_eq rfl rfl
  have hupdated : Performs F v u := hu ▸ performs_update habort _ _
  rw [hrest]
  refine (hwrote.trans hupdated).trans ?_
  unfold World.runCall
  simp only
  split
  · exact .emit _
  · exact performs_fail_again hf

/-- `HandleWrite` comes to `shutdown` when it drains a connection shut down before
and `epoll_ctl` has taken the new mask. -/
theorem performs_tcpHandleWrite (habort : F .abort) (huaf : F .useAfterFree)
    (out : WriteOutcome) (ok : Bool)
    (hshut : ok = false → w.live c = true → (w.conns c).drainsShut out →
      w.poller.Accepts (w.conns c).handler.disableWrite → F .shutdownAbort) :
    Performs F w (w.tcpHandleWrite c out ok) := by
  unfold World.tcpHandleWrite
  split
  next hlive =>
    by_cases hd : (w.conns c).drainsShut out
    · by_cases hacc : w.poller.Accepts (w.conns c).handler.disableWrite
      · exact performs_connOp habort _ _ _ fun hok _ => hshut hok hlive hd hacc
      · exact performs_drain_refused habort ok hd hacc
    · exact performs_connOp habort _ _ _ fun _ hcalls =>
        absurd ((TcpConnection.handleWrite_calls_iff _ _).mp hcalls) hd
  · exact .fail huaf

theorem performs_send (habort : F .abort) (huaf : F .useAfterFree) (mem : Memory)
    (data len : SizeT) (out : WriteOutcome) : Performs F w (w.send c mem data len out) := by
  unfold World.send
  split
  · exact performs_connOp habort _ _ _ fun hok _ => absurd hok (by decide)
  · exact .fail huaf

theorem performs_shutDown (habort : F .abort) (huaf : F .useAfterFree) (ok : Bool)
    (hshut : ok = false → (w.conns c).halfCloses → F .shutdownAbort) :
    Performs F w (w.shutDown c ok) := by
  unfold World.shutDown
  split
  · exact performs_connOp habort _ _ _ fun hok hcalls =>
      hshut hok ((TcpConnection.shutDown_calls_iff _).mp hcalls)
  · exact .fail huaf

theorem performs_finishClose (habort : F .abort) (huaf : F .useAfterFree) (c : Nat) :
    Performs F w (w.finishClose c) := by
  unfold World.finishClose
  simp only
  split
  · exact Performs.trans (performs_release habort c) (.of_eq rfl rfl)
  · exact .after (.fail huaf) (performs_release habort c)

theorem performs_connect (habort : F .abort) (k : Nat) (ip : Text) (port : BitVec 16)
    (sock : Option Nat) (outcome : ConnectOutcome) :
    Performs F w (w.connect k ip port sock outcome) := by
  unfold World.connect
  split
  · exact .refl w
  · cases sock with
    | none => exact .of_eq rfl rfl
    | some fd =>
        have hdial : Performs F w (w.dial k ip port fd) := .of_eq rfl rfl
        simp only
        split
        · exact hdial.trans (performs_connEstablish habort k fd)
        · split
          · exact hdial.trans (performs_connecting habort k fd)
          · exact hdial.trans (.of_eq rfl rfl)

/-- `Disconnect` dereferences `_conn`. -/
theorem performs_disconnect (habort : F .abort) (huaf : F .useAfterFree) {k : Nat} (ok : Bool)
    (hshut : ∀ c, ok = false → (w.clients k).conn = some c → (w.conns c).halfCloses →
      F .shutdownAbort)
    (hnull : (w.clients k).conn = none → F .nullDeref) : Performs F w (w.disconnect k ok) := by
  unfold World.disconnect
  simp only
  split
  next hc =>
    have hconn : (w.clients k).conn = none := by
      simpa [World.setClient] using hc
    exact .after (.fail (hnull hconn)) (.of_eq rfl rfl)
  next d hd =>
    have hconn : (w.clients k).conn = some d := by
      simpa [World.setClient] using hd
    exact .after (performs_shutDown habort huaf ok fun hok hcloses => hshut d hok hconn hcloses)
      (.of_eq rfl rfl)

theorem performs_clientSend (habort : F .abort) (huaf : F .useAfterFree) (k : Nat) (mem : Memory)
    (data len : SizeT) (out : WriteOutcome) : Performs F w (w.clientSend k mem data len out) := by
  unfold World.clientSend
  split
  · exact .refl w
  · exact performs_send habort huaf _ _ _ _

theorem performs_serverStart (habort : F .abort) (s fd : Nat) :
    Performs F w (w.serverStart s fd) := by
  unfold World.serverStart
  exact .after (performs_update habort _ _) (.of_eq rfl rfl)

end Functions

/-! ## §4. The shape of the stack. -/

/-- Calls that wait, over nothing, over a batch, or over a dispatch of a batch. -/
def Layered (stack : List Frame) : Prop :=
  ∃ calls base, stack = calls ++ base ∧ (∀ f ∈ calls, f.isCall = true)
    ∧ (base = [] ∨ (∃ batch, base = [.loop batch])
      ∨ ∃ ptr mask stage batch, base = [.handleEvent ptr mask stage, .loop batch])

namespace Layered

variable {stack rest : List Frame} {w w' : World}

theorem nil : Layered [] := ⟨[], [], rfl, by simp, Or.inl rfl⟩

theorem loop (batch : List (HandlerPtr × EventMask)) : Layered [.loop batch] :=
  ⟨[], _, rfl, by simp, Or.inr (Or.inl ⟨batch, rfl⟩)⟩

theorem handleEvent (ptr : HandlerPtr) (mask : EventMask) (stage : Stage)
    (batch : List (HandlerPtr × EventMask)) :
    Layered [.handleEvent ptr mask stage, .loop batch] :=
  ⟨[], _, rfl, by simp, Or.inr (Or.inr ⟨ptr, mask, stage, batch, rfl⟩)⟩

/-- A batch is at the bottom. -/
theorem below_loop {batch : List (HandlerPtr × EventMask)} (h : Layered (.loop batch :: rest)) :
    rest = [] := by
  obtain ⟨calls, base, hst, hcalls, hbase⟩ := h
  cases calls with
  | nil =>
      rcases hbase with rfl | ⟨b, rfl⟩ | ⟨_, _, _, _, rfl⟩
      · exact absurd hst (by simp)
      · exact (List.cons.inj hst).2
      · exact absurd (List.cons.inj hst).1 (by simp)
  | cons f calls =>
      obtain ⟨rfl, _⟩ := List.cons.inj hst
      exact absurd (hcalls _ List.mem_cons_self) (by simp [Frame.isCall])

/-- Under a dispatch is its batch. -/
theorem below_handleEvent {ptr : HandlerPtr} {mask : EventMask} {stage : Stage}
    (h : Layered (.handleEvent ptr mask stage :: rest)) : ∃ batch, rest = [.loop batch] := by
  obtain ⟨calls, base, hst, hcalls, hbase⟩ := h
  cases calls with
  | nil =>
      rcases hbase with rfl | ⟨b, rfl⟩ | ⟨_, _, _, batch, rfl⟩
      · exact absurd hst (by simp)
      · exact absurd (List.cons.inj hst).1 (by simp)
      · exact ⟨batch, (List.cons.inj hst).2⟩
  | cons f calls =>
      obtain ⟨rfl, _⟩ := List.cons.inj hst
      exact absurd (hcalls _ List.mem_cons_self) (by simp [Frame.isCall])

/-- A call returns. -/
theorem pop {f : Frame} (h : Layered (f :: rest)) (hf : f.isCall = true) : Layered rest := by
  obtain ⟨calls, base, hst, hcalls, hbase⟩ := h
  cases calls with
  | nil =>
      rcases hbase with rfl | ⟨b, rfl⟩ | ⟨_, _, _, _, rfl⟩
      · exact absurd hst (by simp)
      · exact absurd ((List.cons.inj hst).1 ▸ hf) (by simp [Frame.isCall])
      · exact absurd ((List.cons.inj hst).1 ▸ hf) (by simp [Frame.isCall])
  | cons g calls =>
      obtain ⟨rfl, rfl⟩ := List.cons.inj hst
      exact ⟨calls, base, rfl, fun g hg => hcalls g (List.mem_cons_of_mem _ hg), hbase⟩

/-- Functions run over it. -/
theorem performs {F : Fault → Prop} (h : Layered w.stack) (hp : Performs F w w') :
    Layered w'.stack := by
  obtain ⟨calls, base, hst, hcalls, hbase⟩ := h
  obtain ⟨new, hst', hnew⟩ := hp.stack
  refine ⟨new ++ calls, base, by rw [hst', hst, List.append_assoc], fun f hf => ?_, hbase⟩
  rcases List.mem_append.mp hf with hf | hf
  · exact hnew f hf
  · exact hcalls f hf

end Layered

theorem performs_runCallback {w : World} (env : Env) (callback : HandlerCallback) :
    Performs (fun _ => True) w (w.runCallback env callback) := by
  cases callback with
  | tcpHandleRead c =>
      exact performs_tcpHandleRead trivial trivial trivial _ fun _ _ _ _ _ => trivial
  | tcpHandleWrite c => exact performs_tcpHandleWrite trivial trivial _ _ fun _ _ _ _ => trivial
  | clientHandleWrite k => exact performs_clientHandleWrite trivial _ fun _ _ => trivial
  | clientHandleError k => exact performs_clientHandleError trivial fun _ _ => trivial
  | acceptorHandleRead s => exact performs_acceptorHandleRead trivial s _

theorem performs_testEvent {w : World} (env : Env) (ptr : HandlerPtr) (mask bits : EventMask)
    (field : Handler HandlerCallback → Option HandlerCallback) :
    Performs (fun _ => True) w (w.testEvent env ptr mask bits field) := by
  rcases w.testEvent_cases env ptr mask bits field with
    ⟨_, heq⟩ | ⟨_, _, heq⟩ | ⟨_, callback, _, _, _, heq⟩
  · rw [heq]
    exact .refl w
  · rw [heq]
    exact .fail trivial
  · rw [heq]
    exact performs_runCallback env callback

/-- The stack when the library frame on top has moved on, or has returned. -/
def World.advanced (w : World) : Label → List Frame
  | .resume _ =>
      match w.stack with
      | .loop [] :: rest => rest
      | .loop ((ptr, mask) :: batch) :: rest =>
          .handleEvent ptr mask .read :: .loop batch :: rest
      | .handleEvent ptr mask .read :: rest => .handleEvent ptr mask .write :: rest
      | .handleEvent ptr mask .write :: rest => .handleEvent ptr mask .error :: rest
      | .handleEvent _ _ .error :: rest => rest
      | .closing _ :: rest => rest
      | stack => stack
  | .ret =>
      match w.stack with
      | .user _ :: rest => rest
      | stack => stack
  | _ => w.stack

/-- **What a step does to the stack**: the poller delivers a batch, a dispatch is
refused, or the frame on top moves on and calls are pushed. -/
theorem World.performs_next {w w' : World} {l : Label} (hnext : w.next l = some w') :
    (∃ ready batch, l = .poll ready ∧ w.stack = [] ∧ w' = w.push (.loop batch))
    ∨ (∃ ptr mask batch rest, w.stack = .loop ((ptr, mask) :: batch) :: rest
      ∧ w.handler? ptr = none ∧ w' = w.fail .staleDispatch)
    ∨ Performs (fun _ => True) { w with stack := w.advanced l } w' := by
  obtain ⟨_, hturn⟩ := World.next_turn hnext
  have hsame : ∀ {v : World}, w.advanced l = w.stack → Performs (fun _ => True) w v →
      Performs (fun _ => True) { w with stack := w.advanced l } v := by
    intro v hst hp
    rw [hst]
    exact hp
  cases hturn with
  | @poll ready batch hst => exact Or.inl ⟨ready, batch, rfl, hst, rfl⟩
  | loopStale hst hptr => exact Or.inr (Or.inl ⟨_, _, _, _, hst, hptr, rfl⟩)
  | loopEnd hst => exact Or.inr (Or.inr (.of_eq (by simp [advanced, hst]) rfl))
  | loopNext hst hptr => exact Or.inr (Or.inr (.of_eq (by simp [advanced, hst]) rfl))
  | @readTest env ptr mask rest hst hadm =>
      simp only [advanced, hst]
      exact Or.inr (Or.inr (performs_testEvent env ptr mask _ _))
  | @writeTest env ptr mask rest hst hadm =>
      simp only [advanced, hst]
      exact Or.inr (Or.inr (performs_testEvent env ptr mask _ _))
  | @errorTest env ptr mask rest hst =>
      simp only [advanced, hst]
      exact Or.inr (Or.inr (performs_testEvent env ptr mask _ _))
  | @finishClose env c rest hst =>
      simp only [advanced, hst]
      exact Or.inr (Or.inr (performs_finishClose trivial trivial c))
  | @retConnection c rest hst =>
      simp only [advanced, hst]
      exact Or.inr (Or.inr (performs_release trivial c))
  | @retMessage c rest hst =>
      simp only [advanced, hst]
      exact Or.inr (Or.inr (performs_release trivial c))
  | retDisconnect hst => exact Or.inr (Or.inr (.of_eq (by simp [advanced, hst]) rfl))
  | connect hsock => exact Or.inr (Or.inr (hsame rfl (performs_connect trivial _ _ _ _ _)))
  | disconnect =>
      exact Or.inr (Or.inr (hsame rfl (performs_disconnect trivial trivial _
        (fun _ _ _ _ => trivial) fun _ => trivial)))
  | clientSend hout =>
      exact Or.inr (Or.inr (hsame rfl (performs_clientSend trivial trivial _ _ _ _ _)))
  | setConnectionCallback => exact Or.inr (Or.inr (.of_eq rfl rfl))
  | setMessageCallback => exact Or.inr (Or.inr (.of_eq rfl rfl))
  | setDisconnectCallback => exact Or.inr (Or.inr (.of_eq rfl rfl))
  | serverStart hacc hfd => exact Or.inr (Or.inr (hsame rfl (performs_serverStart trivial _ _)))
  | serverSetConnCallback => exact Or.inr (Or.inr (.of_eq rfl rfl))
  | serverSetMessageCallback => exact Or.inr (Or.inr (.of_eq rfl rfl))
  | send hacc hout =>
      exact Or.inr (Or.inr (hsame rfl (performs_send trivial trivial _ _ _ _)))
  | shutDown hacc =>
      exact Or.inr (Or.inr (hsame rfl (performs_shutDown trivial trivial _ fun _ _ => trivial)))
  | close hacc =>
      exact Or.inr (Or.inr (hsame rfl (performs_close trivial trivial fun _ _ _ _ => trivial)))
  | retrieve hacc => exact Or.inr (Or.inr (.of_eq rfl rfl))
  | retrieveAll hacc => exact Or.inr (Or.inr (.of_eq rfl rfl))
  | keep hacc => exact Or.inr (Or.inr (.of_eq rfl rfl))
  | @drop c hkept =>
      have hdropped : Performs (fun _ => True) w
          { w with kept := Function.update w.kept c (w.kept c - 1) } := .of_eq rfl rfl
      exact Or.inr (Or.inr (hsame rfl (hdropped.trans (performs_release trivial c))))

/-- A frame that moves on or returns keeps the shape. -/
theorem Layered.advanced {w : World} (h : Layered w.stack) (l : Label) :
    Layered (w.advanced l) := by
  cases l with
  | poll ready => exact h
  | user call => exact h
  | ret =>
      unfold World.advanced
      simp only
      split
      next hst =>
        rw [hst] at h
        exact h.pop rfl
      next => exact h
  | resume env =>
      unfold World.advanced
      simp only
      split
      next hst =>
        rw [hst] at h
        rw [h.below_loop]
        exact .nil
      next hst =>
        rw [hst] at h
        rw [h.below_loop]
        exact .handleEvent _ _ _ _
      next hst =>
        rw [hst] at h
        obtain ⟨batch, rfl⟩ := h.below_handleEvent
        exact .handleEvent _ _ _ _
      next hst =>
        rw [hst] at h
        obtain ⟨batch, rfl⟩ := h.below_handleEvent
        exact .handleEvent _ _ _ _
      next hst =>
        rw [hst] at h
        obtain ⟨batch, rfl⟩ := h.below_handleEvent
        exact .loop batch
      next hst =>
        rw [hst] at h
        exact h.pop rfl
      next => exact h

/-- **Every step keeps the shape of the stack.** -/
theorem Layered.next {w w' : World} {l : Label} (h : Layered w.stack) (hnext : w.next l = some w') :
    Layered w'.stack := by
  rcases World.performs_next hnext with
    ⟨_, batch, _, hst, rfl⟩ | ⟨_, _, _, _, _, _, rfl⟩ | hp
  · show Layered (.loop batch :: w.stack)
    rw [hst]
    exact .loop batch
  · exact h
  · exact Layered.performs (w := { w with stack := w.advanced l }) (h.advanced l) hp

/-! ## §5. How a step ends the process. -/

/-- **What a step can raise**: any fault but three, which need a reason.  `F` is
what is known of the fault. -/
theorem fault_next {F : Fault → Prop} {w w' : World} {l : Label} (hw : Coherent w)
    (hplain : ∀ f, f ≠ .nullDeref → f ≠ .assertFailed → f ≠ .shutdownAbort → F f)
    (hshut : ∀ c, w.shutsDown l = some (c, false) → F .shutdownAbort)
    (hnull : ∀ k ok, l = .user (.disconnect k ok) → (w.clients k).conn = none → F .nullDeref)
    (hassert : ∀ c k, w.entersClose l = some c → w.live c = true →
      (w.conns c).closeCallback = some (.handleClose k) → (w.clients k).conn ≠ some c →
      F .assertFailed)
    (hnext : w.next l = some w') : ∀ f, w'.fault = some f → F f := by
  obtain ⟨hnone, hturn⟩ := World.next_turn hnext
  have habort : F .abort := hplain _ (by simp) (by simp) (by simp)
  have huaf : F .useAfterFree := hplain _ (by simp) (by simp) (by simp)
  have hsame : ∀ {v : World}, v.fault = w.fault → ∀ f, v.fault = some f → F f := by
    intro v hv f hf
    exact absurd (hnone.symm.trans (hv.symm.trans hf)) (by simp)
  have hends : ∀ {v v' : World}, v.fault = w.fault → Performs F v v' →
      ∀ f, v'.fault = some f → F f := by
    intro v v' hv hp f hf
    rcases hp.fault f hf with hold | hF
    · exact hsame hv f hold
    · exact hF
  cases hturn with
  | poll hst => exact hsame rfl
  | loopEnd hst => exact hsame rfl
  | loopStale hst hptr => exact hends rfl (.fail (hplain _ (by simp) (by simp) (by simp)))
  | loopNext hst hptr => exact hsame rfl
  | @readTest env ptr mask rest hst hadm =>
      have hany := World.holds_advance hst .write
      refine hends (v := { w with stack := .handleEvent ptr mask .write :: rest }) rfl ?_
      rcases (hw.advance hst .write).read_cases env ptr mask rfl with
        ⟨_, heq⟩ | ⟨_, _, heq⟩ | ⟨c, hc, hbits, _, heq⟩ | ⟨s, _, _, _, heq⟩
      · rw [heq]
        exact .refl _
      · rw [heq]
        exact .fail huaf
      · rw [heq]
        subst hc
        refine performs_tcpHandleRead habort huaf (hplain _ (by simp) (by simp) (by simp)) _
          fun heof k hlive hcb hne => ?_
        refine hassert c k ?_ ((World.live_setStack (hany c)).symm.trans hlive) hcb hne
        simp [World.entersClose, hst, hbits, heof]
      · rw [heq]
        exact performs_acceptorHandleRead habort s _
  | @writeTest env ptr mask rest hst hadm =>
      refine hends (v := { w with stack := .handleEvent ptr mask .error :: rest }) rfl ?_
      rcases (hw.advance hst .error).write_cases env ptr mask rfl with
        ⟨_, heq⟩ | ⟨_, _, heq⟩ | ⟨c, rfl, hbits, _, heq⟩ | ⟨k, n, g, _, _, hg, heq⟩
      · rw [heq]
        exact .refl _
      · rw [heq]
        exact .fail huaf
      · rw [heq]
        refine performs_tcpHandleWrite habort huaf _ _ fun hok hlive hd hacc => hshut c ?_
        have hlive₁ := (World.live_setStack (World.holds_advance hst .error c)).symm.trans hlive
        simp only [World.shutsDown, hst, hok]
        exact if_pos ⟨hbits, hlive₁, hd, hacc⟩
      · rw [heq]
        -- the handler is alive, so it is the client's
        exact performs_clientHandleWrite habort _ fun _ hk => absurd (hg.symm.trans hk) (by simp)
  | @errorTest env ptr mask rest hst =>
      refine hends (v := { w with stack := rest }) rfl ?_
      rcases (hw.pop hst).error_cases env ptr mask rfl with
        ⟨_, heq⟩ | ⟨_, _, heq⟩ | ⟨k, n, g, _, _, hg, heq⟩
      · rw [heq]
        exact .refl _
      · rw [heq]
        exact .fail huaf
      · rw [heq]
        exact performs_clientHandleError habort fun _ hk => absurd (hg.symm.trans hk) (by simp)
  | @finishClose env c rest hst =>
      exact hends (v := { w with stack := rest }) rfl (performs_finishClose habort huaf c)
  | connect hsock => exact hends rfl (performs_connect habort _ _ _ _ _)
  | disconnect =>
      refine hends rfl (performs_disconnect habort huaf _ (fun c hok hconn hcloses => ?_)
        (hnull _ _ rfl))
      refine hshut c ?_
      simp only [World.shutsDown, hconn, Option.bind_some, hok]
      exact if_pos hcloses
  | clientSend hout => exact hends rfl (performs_clientSend habort huaf _ _ _ _ _)
  | setConnectionCallback => exact hsame rfl
  | setMessageCallback => exact hsame rfl
  | setDisconnectCallback => exact hsame rfl
  | serverStart hacc hfd => exact hends rfl (performs_serverStart habort _ _)
  | serverSetConnCallback => exact hsame rfl
  | serverSetMessageCallback => exact hsame rfl
  | send hacc hout => exact hends rfl (performs_send habort huaf _ _ _ _)
  | @shutDown c ok hacc =>
      refine hends rfl (performs_shutDown habort huaf _ fun hok hcloses => hshut c ?_)
      simp only [World.shutsDown, hok]
      exact if_pos hcloses
  | close hacc => exact hends rfl (performs_close habort huaf fun k => hassert _ k rfl)
  | retrieve hacc => exact hsame rfl
  | retrieveAll hacc => exact hsame rfl
  | keep hacc => exact hsame rfl
  | @drop c hkept =>
      exact hends (v := { w with kept := Function.update w.kept c (w.kept c - 1) }) rfl
        (performs_release habort c)
  | @retConnection c rest hst =>
      exact hends (v := { w with stack := rest }) rfl (performs_release habort c)
  | @retMessage c rest hst =>
      exact hends (v := { w with stack := rest }) rfl (performs_release habort c)
  | retDisconnect hst => exact hsame rfl

end SparkNet
