/-
  SparkNet.PeerReset — peers that reset, and the aborting log of `ShutdownWrite`.

  `Socket::ShutdownWrite` treats a failing `shutdown(fd, SHUT_WR)` as critical
  and aborts.  A peer can make the call fail: once its reset has been received
  the kernel answers ENOTCONN, before the loop has seen any event of it.

  The machine here is the process next to its peers: resets arrive at any
  moment, and a step that calls `shutdown` on a reset connection is answered
  with a failure.  The log level is assumed to let critical messages through;
  with a level above critical `~LogOpearator` does not abort.

  Main results:
    * `World.next_refused` / `World.shutdownAbort_next` — the process is ended by
      the log in the steps `shutsDown` names, when the call fails, and in no other;
    * `no_peer_aborts_iff` — the exact condition, over all runs.
-/
import SparkNet.Calls

namespace SparkNet

open Runs

/-! ## §1. Which steps reach the log. -/

namespace World

/-- A `ShutDown` that half-closes ends the process if `shutdown` fails. -/
theorem fault_shutDown {w : World} {c : Nat} (hfault : w.fault = none) (hlive : w.live c = true)
    (h : (w.conns c).halfCloses) : (w.shutDown c false).fault = some .shutdownAbort := by
  unfold shutDown
  rw [if_pos hlive, TcpConnection.shutDown_eq, if_pos h.1, h.2]
  simp [connOp, runCall, fail, setConn, hfault]

/-- So does a `HandleWrite` that drains a connection shut down before, if
`epoll_ctl` has taken the mask that `DisableWrite` left. -/
theorem fault_tcpHandleWrite {w : World} {c : Nat} {out : WriteOutcome} (hfault : w.fault = none)
    (hlive : w.live c = true) (h : (w.conns c).drainsShut out)
    (hacc : w.poller.Accepts (w.conns c).handler.disableWrite) :
    (w.tcpHandleWrite c out false).fault = some .shutdownAbort := by
  obtain ⟨y, hy, hcalls⟩ := TcpConnection.handleWrite_drains h
  obtain ⟨p, hp⟩ := (Epoller.update_ok_iff w.poller (.conn c) _).mpr hacc
  unfold tcpHandleWrite
  rw [if_pos hlive, hcalls]
  rw [← hy] at hp
  simp [connOp, runCall, update, emit, fail, setConn, hp, hfault]

theorem disconnect_eq {w : World} {k d : Nat} {ok : Bool} (hconn : (w.clients k).conn = some d) :
    w.disconnect k ok
      = (w.setClient k { w.clients k with state := .disConnected }).shutDown d ok := by
  have hstored : ((w.setClient k { w.clients k with state := .disConnected }).clients k).conn
      = some d := by
    simpa [setClient] using hconn
  unfold disconnect
  simp only [hstored]

/-- **A step whose `shutdown` fails** ends the process in `ShutdownWrite`. -/
theorem next_refused {w w' : World} {l : Label} {c : Nat} (hw : Coherent w)
    (h : w.shutsDown l = some (c, false)) (hnext : w.next l = some w') :
    w'.fault = some .shutdownAbort := by
  obtain ⟨hfault, hturn⟩ := next_turn hnext
  cases hturn with
  | @shutDown d ok hacc =>
      simp only [shutsDown, Option.ite_none_right_eq_some, Option.some.injEq,
        Prod.mk.injEq] at h
      obtain ⟨hcloses, rfl, rfl⟩ := h
      exact fault_shutDown hfault (Coherent.live_of_accessible hacc) hcloses
  | @disconnect k ok =>
      simp only [shutsDown, Option.bind_eq_some_iff, Option.ite_none_right_eq_some,
        Option.some.injEq, Prod.mk.injEq] at h
      obtain ⟨d, hconn, hcloses, rfl, rfl⟩ := h
      have hsame : (w.setClient k { w.clients k with state := .disConnected }).live d
          = w.live d := by
        apply live_congr
        · exact fun _ => rfl
        · exact slot_setClient_same rfl
        · rfl
        · rfl
      have hlive := hsame.trans (hw.live_of_slot (σ := .client k) hconn)
      rw [disconnect_eq hconn]
      exact fault_shutDown hfault hlive hcloses
  | @writeTest env ptr mask rest hst hadm =>
      cases ptr with
      | connecting k n => exact absurd h (by simp [shutsDown, hst])
      | acceptor s => exact absurd h (by simp [shutsDown, hst])
      | conn d =>
          simp only [shutsDown, hst, Option.ite_none_right_eq_some, Option.some.injEq,
            Prod.mk.injEq] at h
          obtain ⟨⟨hbits, hlive, hdrains, hacc⟩, rfl, hok⟩ := h
          have hlive₁ := (live_setStack (holds_advance hst .error d)).trans hlive
          rw [testEvent_eq hbits (handler?_conn.mpr ⟨hlive₁, rfl⟩)
            (hw.conn d (hw.known_of_live hlive)).2.1]
          show (tcpHandleWrite _ d env.write env.shutdownOk).fault = _
          rw [hok]
          exact fault_tcpHandleWrite hfault hlive₁ hdrains hacc
  | _ => exact absurd h (by simp [shutsDown, *])

/-- **The log of `ShutdownWrite` ends the process** in the steps that come to a
failing `shutdown`, and in no other. -/
theorem shutdownAbort_next {w w' : World} {l : Label} (hw : Coherent w)
    (hnext : w.next l = some w') :
    w'.fault = some .shutdownAbort ↔ ∃ c, w.shutsDown l = some (c, false) := by
  constructor
  · intro hfault
    refine fault_next (F := fun f => f = .shutdownAbort → ∃ c, w.shutsDown l = some (c, false))
      hw (fun _ _ _ hne heq => absurd heq hne) (fun c hc _ => ⟨c, hc⟩) (fun _ _ _ _ heq => ?_)
      (fun _ _ _ _ _ _ heq => ?_) hnext _ hfault rfl
    · exact absurd heq (by decide)
    · exact absurd heq (by decide)
  · rintro ⟨c, hc⟩
    exact next_refused hw hc hnext

end World

/-! ## §2. The process and its peers. -/

/-- The process, with a log level that lets critical messages through, and what
its peers have done. -/
structure Net where
  world : World
  /-- A reset from the peer of the connection has been received. -/
  reset : Nat → Bool

/-- The process takes a step, or the reset of a peer arrives. -/
inductive NetLabel where
  | process (label : Label)
  | reset (conn : Nat)

namespace Net

def init : Net := ⟨World.init, fun _ => false⟩

/-- `shutdown` on a connection that has been reset fails with ENOTCONN. -/
def allows (n : Net) (l : Label) : Bool :=
  match n.world.shutsDown l with
  | some (c, ok) => !(n.reset c && ok)
  | none => true

def next (n : Net) : NetLabel → Option Net
  | .reset c =>
      if c < n.world.connCount then some { n with reset := Function.update n.reset c true }
      else none
  | .process l =>
      if n.allows l then (n.world.next l).map fun w => { n with world := w }
      else none

/-- `shutdown` succeeds wherever the step comes to it: when `ShutDown` or
`Disconnect` finds the connection connected with no output waiting, or when
`HandleWrite` drains the output of one that was shut down before. -/
def Answered (n : Net) : NetLabel → Prop
  | .process (.user (.shutDown c ok)) => (n.world.conns c).halfCloses → ok = true
  | .process (.user (.disconnect k ok)) =>
      (n.world.clients k).conn.any (fun c => decide (n.world.conns c).halfCloses) = true →
        ok = true
  | .process (.resume env) =>
      match n.world.stack with
      | .handleEvent (.conn c) mask .write :: _ =>
          mask.has EPOLLOUT = true → n.world.live c = true →
            (n.world.conns c).drainsShut env.write →
            n.world.poller.Accepts (n.world.conns c).handler.disableWrite → env.shutdownOk = true
      | _ => True
  | _ => True

instance (n : Net) (l : NetLabel) : Decidable (n.Answered l) := by
  unfold Answered; split <;> [infer_instance; infer_instance; split <;> infer_instance;
    infer_instance]

/-- The condition is that no `shutdown` of the step fails. -/
theorem answered_iff {n : Net} {l : Label} :
    n.Answered (.process l) ↔ ¬ ∃ c, n.world.shutsDown l = some (c, false) := by
  cases l with
  | poll ready => simp [Answered, World.shutsDown]
  | ret => simp [Answered, World.shutsDown]
  | user call =>
      cases call with
      | shutDown c ok =>
          simp only [Answered, World.shutsDown]
          cases ok <;> simp
      | disconnect k ok =>
          cases hconn : (n.world.clients k).conn with
          | none => simp [Answered, World.shutsDown, hconn]
          | some c =>
              simp only [Answered, World.shutsDown, hconn, Option.any_some, decide_eq_true_eq,
                Option.bind_some]
              cases ok <;> simp
      | _ => simp [Answered, World.shutsDown]
  | resume env =>
      by_cases htop : ∃ c mask rest, n.world.stack = .handleEvent (.conn c) mask .write :: rest
      · obtain ⟨c, mask, rest, hst⟩ := htop
        simp only [Answered, World.shutsDown, hst]
        by_cases hcalls : mask.has EPOLLOUT = true ∧ n.world.live c = true
            ∧ (n.world.conns c).drainsShut env.write
            ∧ n.world.poller.Accepts (n.world.conns c).handler.disableWrite
        · cases env.shutdownOk <;> simp [hcalls]
        · rw [if_neg hcalls]
          simpa using fun hbits hlive hdrains hacc =>
            absurd ⟨hbits, hlive, hdrains, hacc⟩ hcalls
      · -- no `HandleWrite` of a connection
        have hanswered : n.Answered (.process (.resume env)) := by
          simp only [Answered]
          split
          next c mask rest hst => exact absurd ⟨c, mask, rest, hst⟩ htop
          next => trivial
        have hnone : n.world.shutsDown (.resume env) = none := by
          simp only [World.shutsDown]
          split
          next c mask rest hst => exact absurd ⟨c, mask, rest, hst⟩ htop
          next => rfl
        simp [hanswered, hnone]

/-- The process has not come to the log of `Socket::ShutdownWrite`. -/
def Alive (n : Net) : Prop := n.world.fault ≠ some .shutdownAbort

/-- One step: whether the process ends there. -/
theorem alive_next {n n' : Net} {l : NetLabel} (hw : Coherent n.world) (halive : n.Alive)
    (hnext : n.next l = some n') :
    Coherent n'.world ∧ (n'.Alive ↔ n.Answered l) := by
  cases l with
  | reset c =>
      simp only [next, Option.ite_none_right_eq_some, Option.some.injEq] at hnext
      obtain ⟨_, rfl⟩ := hnext
      exact ⟨hw, iff_of_true halive trivial⟩
  | process l =>
      simp only [next, Option.ite_none_right_eq_some, Option.map_eq_some_iff] at hnext
      obtain ⟨_, w, hstep, rfl⟩ := hnext
      refine ⟨hw.next hstep, ?_⟩
      rw [answered_iff]
      exact not_congr (World.shutdownAbort_next hw hstep)

/-- **No peer can abort the server** exactly when no `shutdown` fails: in a run of
the process among peers that may reset at any moment, the process never ends in
the aborting log of `Socket::ShutdownWrite` iff in every step that comes to
`shutdown` the kernel grants it.  The log level is assumed to let critical
messages through. -/
theorem no_peer_aborts_iff (labels : List NetLabel) (t : Net)
    (hrun : exec Net.next Net.init labels = some t) :
    Always Net.next (fun n => n.world.fault ≠ some .shutdownAbort) Net.init labels
      ↔ Along Net.next Net.Answered Net.init labels := by
  refine always_iff_along (I := fun n => Coherent n.world ∧ n.Alive) (D := fun _ _ => True)
    (fun _ h => h.2) ?_ ?_ ⟨coherent_init, by simp [Alive, init, World.init]⟩
    (Along.of_forall (fun _ _ => trivial) _) hrun
  · intro n l n' h _ hC hnext
    have hone := alive_next h.1 h.2 hnext
    exact ⟨hone.1, hone.2.mpr hC⟩
  · intro n l n' h _ hC hnext hafter
    have hone := alive_next h.1 h.2 hnext
    exact hC (hone.2.mp hafter)

/-- A server accepts a connection, of which the application keeps a pointer. -/
def accepted : List NetLabel :=
  [.process (.user (.serverSetConnCallback 0 true)), .process (.user (.serverStart 0 3)),
   .process (.poll [(3, EPOLLIN)]), .process (.resume .idle),
   .process (.resume { Env.idle with accept := .conn 4 InetAdress.new.addr }),
   .process (.user (.keep 0)), .process .ret, .process (.resume .idle),
   .process (.resume .idle), .process (.resume .idle)]

/-- The theorem on a connection that is shut down before its peer resets it. -/
theorem no_peer_aborts_on_run :
    (exec Net.next Net.init (accepted ++
        [.process (.user (.shutDown 0 true)), .reset 0])).isSome = true
      ∧ Always Net.next (fun n => n.world.fault ≠ some .shutdownAbort) Net.init (accepted ++
        [.process (.user (.shutDown 0 true)), .reset 0]) := by
  have h : (exec Net.next Net.init (accepted ++
      [.process (.user (.shutDown 0 true)), .reset 0])).isSome = true := by
    decide +kernel
  obtain ⟨t, hrun⟩ := Option.isSome_iff_exists.mp h
  exact ⟨h, (no_peer_aborts_iff _ t hrun).mpr (by decide +kernel)⟩

/-- **A reset before `ShutDown`.**  The application shuts down a connection whose
peer has reset it; the loop has not seen that yet, and the process aborts. -/
theorem reset_then_shutDown_aborts :
    ∃ t, exec Net.next Net.init (accepted ++
        [.reset 0, .process (.user (.shutDown 0 false))]) = some t
      ∧ t.world.fault = some .shutdownAbort := by
  have h : (exec Net.next Net.init (accepted ++
      [.reset 0, .process (.user (.shutDown 0 false))])).map
        (fun t => t.world.fault) = some (some .shutdownAbort) := by
    decide +kernel
  obtain ⟨t, hrun, ht⟩ := Option.map_eq_some_iff.mp h
  exact ⟨t, hrun, ht⟩

end Net

end SparkNet
