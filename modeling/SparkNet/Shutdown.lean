/-
  SparkNet.Shutdown — write interest and the order of a graceful shutdown.

  While `Close` has not been entered, EPOLLOUT is in the handler's mask exactly
  when bytes are queued (`write_interest_tracks_output`); the deferred FIN of
  `ShutDown` relies on it.  The promise of `ShutDown` itself (`GracefulOrder`)
  is kept in a run exactly when `send` is not used after it and `ShutDown` is
  not called inside the close callback over a queue that `Close` has just
  stopped draining (`graceful_order_iff`).
-/
import SparkNet.Session

namespace SparkNet

open Runs

namespace SessionEvent

/-- A FIN. -/
def isFin : SessionEvent → Bool
  | .call (.shutdown _) => true
  | _ => false

/-- A `write` on the socket, from `send` or from `HandleWrite`. -/
def isWrite : SessionEvent → Bool
  | .call (.write _ _ _) => true
  | _ => false

/-- Data of a `send` that reaches `write()` or the output queue. -/
def isSendData : SessionEvent → Bool
  | .call (.write true _ _) => true
  | .call (.append _) => true
  | _ => false

end SessionEvent

namespace Session

/-! ## §1. Write interest. -/

/-- EPOLLOUT is in the mask if and only if bytes are queued. -/
def TracksOutput (c : TcpConnection) : Prop :=
  c.handler.isWriting = true ↔ c.outPutBuffer.contents ≠ []

theorem contents_ne_nil_iff (b : ValidBuffer) : b.contents ≠ [] ↔ 0 < b.readableBytes := by
  rw [ValidBuffer.readableBytes_eq, List.length_pos_iff]

theorem TracksOutput.send {c : TcpConnection} (h : TracksOutput c) (mem : Memory)
    (data len : SizeT) (w : WriteOutcome) : TracksOutput (c.send mem data len w).1 := by
  by_cases hst : c.state = .disConnected
  · rw [TcpConnection.send_disConnected hst]
    exact h
  cases hd : c.writesDirectly with
  | true =>
      rw [TcpConnection.send_direct hst hd]
      split
      next => exact h
      next hl => simp [TracksOutput, hl]
  | false =>
      rw [TcpConnection.send_queued hst hd]
      split
      next => exact h
      next hl => cases hw : c.handler.isWriting <;> simp [TracksOutput, hl, hw]

theorem TracksOutput.handleWrite {c : TcpConnection} (h : TracksOutput c) (w : WriteOutcome) :
    TracksOutput (c.handleWrite w).1 := by
  cases hw : c.handler.isWriting with
  | false =>
      rw [TcpConnection.handleWrite_idle hw]
      exact h
  | true =>
      cases w with
      | failed errno =>
          rw [TcpConnection.handleWrite_failed hw]
          exact h
      | accepted n =>
          rw [TcpConnection.handleWrite_accepted hw]
          split
          -- the queue is drained and `DisableWrite` runs
          next hl => simp [TracksOutput, hl]
          next hl => simp [TracksOutput, hl, hw]

/-- What each step does to write interest, until `Close` is entered. -/
theorem tracksOutput_step (s : Session) (op : ConnOp) (s' : Session)
    (h : s.closeEntered = false → TracksOutput s.conn) (hstep : s.step op = some s') :
    s'.closeEntered = false → TracksOutput s'.conn := by
  cases op with
  | start =>
      cases hstep
      intro hopen
      have htracks := h hopen
      simpa [TracksOutput, after, TcpConnection.start] using htracks
  | send mem data len w =>
      obtain ⟨_, rfl⟩ := step_send hstep
      exact fun hopen => (h hopen).send mem data len w
  | handleWrite w =>
      obtain ⟨_, rfl⟩ := step_handleWrite hstep
      exact fun hopen => (h hopen).handleWrite w
  | handleRead r =>
      obtain ⟨_, ⟨_, _, rfl⟩ | ⟨_, rfl⟩ | ⟨bytes, _, rfl⟩⟩ := step_handleRead hstep
      · exact h
      · exact fun hopen => absurd hopen (by simp [close])
      · exact h
  | retrieve len => cases hstep; exact h
  | retrieveAll => cases hstep; exact h
  | shutDown =>
      cases hstep
      intro hopen
      have htracks := h hopen
      simpa [TracksOutput, after] using htracks
  | close => cases hstep; exact fun hopen => absurd hopen (by simp [close])
  | closeReturn =>
      obtain ⟨_, rfl⟩ := step_closeReturn hstep
      exact h

theorem tracksOutput_new (self : Nat) (name : Text) (fd : Nat) (addr : InetAdress) :
    TracksOutput (new self name fd addr).conn := by
  show _ ↔ _
  simp [new, of, TcpConnection.new, Handler.isWriting_eq, Handler.new]

/-- **Write interest tracks pending output.**  In every run of a connection in
whose last state `Close` has not been entered, whatever `write` returned on the
way: the mask contains EPOLLOUT if and only if bytes are queued, and `send`
would write directly if and only if none are. -/
theorem write_interest_tracks_output (self : Nat) (name : Text) (fd : Nat) (addr : InetAdress)
    (ops : List ConnOp) (s : Session)
    (hrun : exec step (new self name fd addr) ops = some s) (hopen : s.closeEntered = false) :
    (s.conn.handler.events.has EPOLLOUT = true ↔ 0 < s.conn.outPutBuffer.readableBytes)
    ∧ (s.conn.writesDirectly = true ↔ s.queued = []) := by
  have h : TracksOutput s.conn :=
    exec_invariant (I := fun s => s.closeEntered = false → TracksOutput s.conn)
      tracksOutput_step (fun _ => tracksOutput_new self name fd addr) hrun hopen
  refine ⟨h.trans (contents_ne_nil_iff _), ?_⟩
  simp only [TcpConnection.writesDirectly, Bool.and_eq_true, Bool.not_eq_true', beq_iff_eq,
    ValidBuffer.readableBytes_eq, List.length_eq_zero_iff]
  constructor
  · exact fun hd => hd.2
  · intro hq
    exact ⟨Bool.eq_false_iff.mpr (mt h.mp (not_not_intro hq)), hq⟩

/-- The theorem on a run with a failed direct write. -/
theorem write_interest_tracks_output_on_run :
    ∃ s, exec step (new 0 [] 5 InetAdress.new)
        [.start, .send (fun _ => 0) 1 2 (.failed .EAGAIN), .shutDown] = some s
      ∧ s.closeEntered = false
      ∧ (s.conn.handler.events.has EPOLLOUT = true ↔ 0 < s.conn.outPutBuffer.readableBytes) := by
  have h : (exec step (new 0 [] 5 InetAdress.new)
      [.start, .send (fun _ => 0) 1 2 (.failed .EAGAIN), .shutDown]).map Session.closeEntered
        = some false := by
    decide +kernel
  obtain ⟨s, hrun, hs⟩ := Option.map_eq_some_iff.mp h
  exact ⟨s, hrun, hs, (write_interest_tracks_output 0 [] 5 InetAdress.new _ s hrun hs).1⟩

/-! ## §2. The promise of `ShutDown`. -/

/-- What a history must look like for the shutdown to have been graceful; the
history lists the newest event first. -/
structure GracefulOrder (events : List SessionEvent) : Prop where
  /-- SHUT_WR is issued at most once. -/
  once : events.countP SessionEvent.isFin ≤ 1
  /-- When it is issued nothing is queued any more. -/
  drained : ∀ pending, .call (.shutdown pending) ∈ events → pending = 0
  /-- After `ShutDown` no data of a `send` reaches `write()` or the queue. -/
  noLateData : events.Pairwise fun newer older =>
    older = .shutDownCalled → newer.isSendData = false
  /-- After SHUT_WR nothing is written. -/
  noWriteAfterFin : events.Pairwise fun newer older =>
    older.isFin = true → newer.isWrite = false

/-- When one more event keeps the order. -/
theorem GracefulOrder.cons {e : SessionEvent} {es : List SessionEvent} (h : GracefulOrder es)
    (hfin : e.isFin = true → e = .call (.shutdown 0) ∧ ∀ x ∈ es, x.isFin = false)
    (hdata : e.isSendData = true → .shutDownCalled ∉ es)
    (hwrite : e.isWrite = true → ∀ x ∈ es, x.isFin = false) : GracefulOrder (e :: es) where
  once := by
    rw [List.countP_cons]
    cases he : e.isFin with
    | false => simpa using h.once
    | true =>
        have hnone : es.countP SessionEvent.isFin = 0 := by
          rw [List.countP_eq_zero]
          intro x hx
          simp [(hfin he).2 x hx]
        simp [hnone]
  drained := by
    intro pending hp
    rcases List.mem_cons.mp hp with heq | hmem
    · subst heq
      have h0 := (hfin rfl).1
      simpa using h0
    · exact h.drained pending hmem
  noLateData := by
    refine List.pairwise_cons.mpr ⟨?_, h.noLateData⟩
    intro older hmem hcalled
    subst hcalled
    cases hs : e.isSendData with
    | false => rfl
    | true => exact absurd hmem (hdata hs)
  noWriteAfterFin := by
    refine List.pairwise_cons.mpr ⟨?_, h.noWriteAfterFin⟩
    intro older hmem hold
    cases hw : e.isWrite with
    | false => rfl
    | true => exact absurd hold (by simp [hwrite hw older hmem])

/-- An event that is none of those the order speaks of. -/
theorem GracefulOrder.cons_neutral {e : SessionEvent} {es : List SessionEvent}
    (h : GracefulOrder es) (h1 : e.isFin = false) (h2 : e.isSendData = false)
    (h3 : e.isWrite = false) : GracefulOrder (e :: es) :=
  h.cons (by simp [h1]) (by simp [h2]) (by simp [h3])

/-- The condition on the steps: no data is sent in DIS_CONNECTING (an empty
`send` that makes no direct write is harmless), and `ShutDown` is not called in
the close callback of a CONNECTED connection whose queue `Close` stopped
draining. -/
def ShutdownRespected (s : Session) : ConnOp → Prop
  | .send _ _ len _ =>
      s.conn.state = .disConnecting → len = 0#64 ∧ s.conn.writesDirectly = false
  | .shutDown =>
      s.closeEntered = true → s.conn.state = .connected →
        s.conn.handler.isWriting = true ∨ s.queued = []
  | _ => True

/-- The invariant behind the order. -/
structure ShutdownInv (s : Session) : Prop where
  order : GracefulOrder s.events
  tracks : s.closeEntered = false → TracksOutput s.conn
  started : s.conn.state ≠ .connecting
  /-- A CONNECTED connection has not been shut down. -/
  fresh : s.conn.state = .connected →
    .shutDownCalled ∉ s.events ∧ ∀ e ∈ s.events, e.isFin = false
  called : s.conn.state = .disConnecting → .shutDownCalled ∈ s.events
  /-- After the FIN there is no write interest. -/
  finished : ∀ e ∈ s.events, e.isFin = true → s.conn.handler.isWriting = false

/-- A connection after its constructor and `Start`. -/
def startedNew (self : Nat) (name : Text) (fd : Nat) (addr : InetAdress) : Session :=
  (new self name fd addr).after (new self name fd addr).conn.start

theorem shutdownInv_startedNew (self : Nat) (name : Text) (fd : Nat) (addr : InetAdress) :
    ShutdownInv (startedNew self name fd addr) where
  order := ⟨Nat.zero_le _, by simp [startedNew, new, of, after, TcpConnection.start],
    List.pairwise_singleton _ _, List.pairwise_singleton _ _⟩
  tracks := tracksOutput_step (new self name fd addr) .start _
    (fun _ => tracksOutput_new self name fd addr) rfl
  started := by simp [startedNew, after, TcpConnection.start]
  fresh := by simp [startedNew, new, of, after, TcpConnection.start, SessionEvent.isFin]
  called := by simp [startedNew, after, TcpConnection.start]
  finished := by simp [startedNew, new, of, after, TcpConnection.start, SessionEvent.isFin]

/-! ## §3. One step. -/

section Steps

variable {s : Session}

/-- A step that leaves connection, history and flags of interest alone. -/
theorem ShutdownInv.of_same {s s' : Session} (h : ShutdownInv s)
    (hconn : s'.conn.state = s.conn.state)
    (hhand : s'.conn.handler = s.conn.handler) (hout : s'.conn.outPutBuffer = s.conn.outPutBuffer)
    (hentered : s'.closeEntered = s.closeEntered)
    (hev : s'.events = s.events) : ShutdownInv s' where
  order := hev ▸ h.order
  tracks := by
    intro hopen
    rw [hentered] at hopen
    show _ ↔ _
    rw [hhand, hout]
    exact h.tracks hopen
  started := hconn ▸ h.started
  fresh := by
    rw [hconn, hev]
    exact h.fresh
  called := by
    rw [hconn, hev]
    exact h.called
  finished := by
    rw [hhand, hev]
    exact h.finished

/-- Before a `ShutDown`, events other than one, and other than a FIN, keep the
order whatever they are. -/
theorem GracefulOrder.append_fresh {es : List SessionEvent} (h : GracefulOrder es)
    (hcalled : .shutDownCalled ∉ es) (hfin : ∀ e ∈ es, e.isFin = false) :
    ∀ new : List SessionEvent, (∀ e ∈ new, e ≠ .shutDownCalled ∧ e.isFin = false) →
      GracefulOrder (new ++ es) ∧ .shutDownCalled ∉ new ++ es
        ∧ ∀ e ∈ new ++ es, e.isFin = false
  | [], _ => ⟨h, hcalled, hfin⟩
  | e :: new, hnew => by
      obtain ⟨h1, h2, h3⟩ := append_fresh h hcalled hfin new
        (fun x hx => hnew x (List.mem_cons_of_mem _ hx))
      obtain ⟨hne, hnfin⟩ := hnew e List.mem_cons_self
      refine ⟨h1.cons (by simp [hnfin]) (fun _ => h2) (fun _ => h3), ?_, ?_⟩
      · rw [List.cons_append, List.mem_cons, not_or]
        exact ⟨hne.symm, h2⟩
      · intro x hx
        rcases List.mem_cons.mp hx with rfl | hx
        · exact hnfin
        · exact h3 x hx

/-- A CONNECTED connection stays fresh under calls none of which is a FIN. -/
theorem ShutdownInv.of_connected (h : ShutdownInv s) (hst : s.conn.state = .connected)
    {r : TcpConnection × List SockCall} (hr : r.1.state = .connected)
    (hcalls : ∀ call ∈ r.2, ∀ pending, call ≠ .shutdown pending)
    (htracks : s.closeEntered = false → TracksOutput r.1) (sent : List Byte) :
    ShutdownInv { s.after r with sent := sent } := by
  obtain ⟨hcalled, hfin⟩ := h.fresh hst
  have hnew : ∀ e ∈ (r.2.map SessionEvent.call).reverse,
      e ≠ .shutDownCalled ∧ e.isFin = false := by
    intro e he
    rw [List.mem_reverse, List.mem_map] at he
    obtain ⟨call, hcall, rfl⟩ := he
    refine ⟨by simp, ?_⟩
    cases call with
    | shutdown pending => exact absurd rfl (hcalls _ hcall pending)
    | _ => rfl
  obtain ⟨h1, h2, h3⟩ := h.order.append_fresh hcalled hfin _ hnew
  exact {
    order := h1
    tracks := htracks
    started := by
      show r.1.state ≠ .connecting
      rw [hr]
      decide
    fresh := fun _ => ⟨h2, h3⟩
    called := by
      intro hd
      exact absurd (hr.symm.trans hd) (by decide)
    finished := fun e he hf => absurd hf (by simp [h3 e he]) }

/-- `send` under the condition. -/
theorem ShutdownInv.send (h : ShutdownInv s) {mem : Memory} {data len : SizeT} {w : WriteOutcome}
    (hC : s.conn.state = .disConnecting → len = 0#64 ∧ s.conn.writesDirectly = false)
    (sent : List Byte) :
    ShutdownInv { s.after (s.conn.send mem data len w) with sent := sent } := by
  have htracks : s.closeEntered = false → TracksOutput (s.conn.send mem data len w).1 :=
    fun hopen => (h.tracks hopen).send mem data len w
  cases hst : s.conn.state with
  | connecting => exact absurd hst h.started
  | disConnected =>
      rw [TcpConnection.send_disConnected hst]
      exact h.of_same rfl rfl rfl rfl rfl
  -- `send` does not test for this state
  | disConnecting =>
      obtain ⟨rfl, hd⟩ := hC hst
      have hread : mem.read data 0#64 = [] := rfl
      rw [TcpConnection.send_queued (by rw [hst]; decide) hd, if_pos hread]
      exact h.of_same rfl rfl rfl rfl rfl
  | connected =>
      have hne : s.conn.state ≠ .disConnected := by
        rw [hst]
        decide
      refine h.of_connected hst ?_ ?_ htracks sent
      · rw [TcpConnection.state_send]
        exact hst
      · exact TcpConnection.send_no_fin s.conn mem data len w

/-- `HandleWrite`: a write while no FIN was sent, and a FIN only after the last
queued byte is gone. -/
theorem ShutdownInv.handleWrite (h : ShutdownInv s) (w : WriteOutcome) :
    ShutdownInv (s.after (s.conn.handleWrite w)) := by
  have htracks : s.closeEntered = false → TracksOutput (s.conn.handleWrite w).1 :=
    fun hopen => (h.tracks hopen).handleWrite w
  cases hw : s.conn.handler.isWriting with
  | false =>
      rw [TcpConnection.handleWrite_idle hw]
      exact h.of_same rfl rfl rfl rfl rfl
  | true =>
      -- write interest means that the FIN is still to come
      have hnofin : ∀ e ∈ s.events, e.isFin = false := by
        intro e he
        cases hf : e.isFin with
        | false => rfl
        | true => exact absurd (h.finished e he hf) (by simp [hw])
      have hwrote : GracefulOrder (.call (.write false s.queued w) :: s.events) :=
        h.order.cons (by simp [SessionEvent.isFin]) (by simp [SessionEvent.isSendData])
          (fun _ => hnofin)
      cases w with
      | failed errno =>
          rw [TcpConnection.handleWrite_failed hw] at htracks ⊢
          exact {
            order := hwrote
            tracks := htracks
            started := h.started
            fresh := fun hst => by simpa [after, SessionEvent.isFin] using h.fresh hst
            called := fun hst => by simpa [after] using h.called hst
            finished := by simpa [after, SessionEvent.isFin] using h.finished }
      | accepted n =>
          rw [TcpConnection.handleWrite_accepted hw] at htracks ⊢
          split
          next hdrained =>
            rw [if_pos hdrained] at htracks
            have hupdate : GracefulOrder (.call .update ::
                .call (.write false s.queued (.accepted n)) :: s.events) :=
              hwrote.cons_neutral rfl rfl rfl
            -- the deferred FIN goes out now
            by_cases hst : s.conn.state = .disConnecting
            · rw [if_pos hst] at htracks ⊢
              exact {
                order := hupdate.cons
                  (fun _ => ⟨rfl, by simpa [SessionEvent.isFin] using hnofin⟩)
                  (by simp [SessionEvent.isSendData]) (by simp [SessionEvent.isWrite])
                tracks := htracks
                started := h.started
                fresh := fun hc => absurd (hst.symm.trans hc) (by decide)
                called := fun _ => by simpa [after] using h.called hst
                finished := fun _ _ _ => Handler.isWriting_disableWrite _ }
            · rw [if_neg hst] at htracks ⊢
              exact {
                order := hupdate
                tracks := htracks
                started := h.started
                fresh := fun hc => by simpa [after, SessionEvent.isFin] using h.fresh hc
                called := fun hd => absurd hd hst
                finished := fun _ _ _ => Handler.isWriting_disableWrite _ }
          next hmore =>
            rw [if_neg hmore] at htracks
            exact {
              order := hwrote
              tracks := htracks
              started := h.started
              fresh := fun hc => by simpa [after, SessionEvent.isFin] using h.fresh hc
              called := fun hd => by simpa [after] using h.called hd
              finished := by simpa [after, SessionEvent.isFin] using h.finished }

/-- `ShutDown` under the condition: the FIN finds the queue empty. -/
theorem ShutdownInv.shutDown (h : ShutdownInv s)
    (hC : s.closeEntered = true → s.conn.state = .connected →
      s.conn.handler.isWriting = true ∨ s.queued = []) :
    ShutdownInv ({ s with events := .shutDownCalled :: s.events }.after s.conn.shutDown) := by
  have hmark : GracefulOrder (.shutDownCalled :: s.events) := h.order.cons_neutral rfl rfl rfl
  rw [TcpConnection.shutDown_eq]
  by_cases hst : s.conn.state = .connected
  · rw [if_pos hst]
    obtain ⟨_, hfin⟩ := h.fresh hst
    cases hw : s.conn.handler.isWriting with
    -- the FIN is left to `HandleWrite`
    | true =>
        exact {
          order := hmark
          tracks := h.tracks
          started := by simp [after]
          fresh := by simp [after]
          called := by simp [after]
          finished := fun e he hf => by
            rcases List.mem_cons.mp he with rfl | he
            · exact absurd hf (by simp [SessionEvent.isFin])
            · exact absurd hf (by simp [hfin e he]) }
    | false =>
        -- no write interest: before `Close` that means an empty queue
        have hempty : s.conn.outPutBuffer.readableBytes = 0 := by
          rw [ValidBuffer.readableBytes_eq, List.length_eq_zero_iff]
          cases hc : s.closeEntered with
          | false =>
              by_contra hne
              exact absurd ((h.tracks hc).mpr hne) (by simp [hw])
          | true =>
              rcases hC hc hst with hw' | hq
              · exact absurd hw' (by simp [hw])
              · exact hq
        exact {
          order := hmark.cons
            (fun _ => ⟨by rw [hempty], by simpa [SessionEvent.isFin] using hfin⟩)
            (by simp [SessionEvent.isSendData]) (by simp [SessionEvent.isWrite])
          tracks := h.tracks
          started := by simp [after]
          fresh := by simp [after]
          called := by simp [after]
          finished := fun _ _ _ => hw }
  · rw [if_neg hst]
    exact {
      order := hmark
      tracks := h.tracks
      started := h.started
      fresh := fun hc => absurd hc hst
      called := fun _ => List.mem_cons_self
      finished := by simpa [after, SessionEvent.isFin] using h.finished }

theorem ShutdownInv.close (h : ShutdownInv s) : ShutdownInv s.close where
  order :=
    (h.order.cons_neutral rfl rfl rfl : GracefulOrder (.closeEntered :: s.events)).cons_neutral
      rfl rfl rfl
  tracks := fun hopen => absurd hopen (by simp [Session.close])
  started := h.started
  fresh := fun hc => by
    simpa [Session.close, after, TcpConnection.closeEnter, SessionEvent.isFin] using h.fresh hc
  called := fun hd => by
    simpa [Session.close, after, TcpConnection.closeEnter] using h.called hd
  finished := fun _ _ _ => Handler.isWriting_disableAll _

end Steps

/-- **One step** under the condition keeps the invariant. -/
theorem shutdownInv_step (s : Session) (op : ConnOp) (s' : Session) (h : ShutdownInv s)
    (hop : op ≠ .start) (hC : ShutdownRespected s op) (hstep : s.step op = some s') :
    ShutdownInv s' := by
  cases op with
  | start => exact absurd rfl hop
  | send mem data len w =>
      obtain ⟨_, rfl⟩ := step_send hstep
      exact h.send hC _
  | handleWrite w =>
      obtain ⟨_, rfl⟩ := step_handleWrite hstep
      exact h.handleWrite w
  | handleRead r =>
      obtain ⟨_, ⟨_, _, rfl⟩ | ⟨_, rfl⟩ | ⟨bytes, _, rfl⟩⟩ := step_handleRead hstep
      · exact h
      · exact h.close
      · exact {
          order := h.order.cons_neutral rfl rfl rfl
          tracks := h.tracks
          started := h.started
          fresh := fun hc => by simpa [SessionEvent.isFin] using h.fresh hc
          called := fun hd => by simpa using h.called hd
          finished := by simpa [SessionEvent.isFin] using h.finished }
  | retrieve len => cases hstep; exact h.of_same rfl rfl rfl rfl rfl
  | retrieveAll => cases hstep; exact h.of_same rfl rfl rfl rfl rfl
  | shutDown => cases hstep; exact h.shutDown hC
  | close => cases hstep; exact h.close
  | closeReturn =>
      obtain ⟨_, rfl⟩ := step_closeReturn hstep
      exact {
        order := h.order
        tracks := h.tracks
        started := by simp [TcpConnection.closeReturn]
        fresh := by simp [TcpConnection.closeReturn]
        called := by simp [TcpConnection.closeReturn]
        finished := h.finished }

/-- **One step** against the condition breaks the order at once. -/
theorem not_gracefulOrder_step (s : Session) (op : ConnOp) (s' : Session) (h : ShutdownInv s)
    (hbad : ¬ ShutdownRespected s op) (hstep : s.step op = some s') :
    ¬ GracefulOrder s'.events := by
  cases op with
  | send mem data len w =>
      obtain ⟨_, rfl⟩ := step_send hstep
      simp only [ShutdownRespected, Classical.not_imp] at hbad
      obtain ⟨hst, hbad⟩ := hbad
      have hne : s.conn.state ≠ .disConnected := by
        rw [hst]
        decide
      -- `ShutDown` is in the history, so any data of this `send` comes too late
      have hlate : ∀ call ∈ (s.conn.send mem data len w).2,
          SessionEvent.isSendData (.call call) = true →
          ¬ GracefulOrder (((s.conn.send mem data len w).2.map SessionEvent.call).reverse
            ++ s.events) := by
        intro call hcall hdata horder
        have hmem : SessionEvent.call call ∈
            ((s.conn.send mem data len w).2.map SessionEvent.call).reverse :=
          List.mem_reverse.mpr (List.mem_map_of_mem hcall)
        have hpair := (List.pairwise_append.mp horder.noLateData).2.2 _ hmem _ (h.called hst) rfl
        exact absurd hdata (by simp [hpair])
      cases hd : s.conn.writesDirectly with
      | true =>
          refine hlate (.write true (mem.read data len) w) ?_ rfl
          rw [TcpConnection.send_direct hne hd]
          split <;> simp
      | false =>
          have hlen : mem.read data len ≠ [] := by
            rw [← List.length_pos_iff, Memory.length_read]
            have : len ≠ 0#64 := fun h0 => hbad ⟨h0, hd⟩
            bv_omega
          refine hlate (.append (mem.read data len)) ?_ rfl
          rw [TcpConnection.send_queued hne hd, if_neg hlen]
          simp
  | shutDown =>
      cases hstep
      simp only [ShutdownRespected, Classical.not_imp, not_or] at hbad
      obtain ⟨_, hst, hw, hq⟩ := hbad
      intro horder
      -- after `DisableAll` the mask says nothing about the queue
      have hpending := horder.drained s.conn.outPutBuffer.readableBytes (by
        simp [after, TcpConnection.shutDown_eq, hst, Bool.eq_false_iff.mpr hw])
      rw [ValidBuffer.readableBytes_eq, List.length_eq_zero_iff] at hpending
      exact hq hpending
  | _ => exact absurd trivial hbad

/-! ## §4. Whole runs. -/

/-- **Graceful shutdown, exactly.**  In every run of a started connection, with
any partial writes and any calls made inside the close callback: SHUT_WR is
issued at most once, only over an empty queue, with no data of a later `send`
and no later write at all — if and only if no data is sent in DIS_CONNECTING
and `ShutDown` is not called inside the close callback of a CONNECTED
connection with bytes still queued. -/
theorem graceful_order_iff (self : Nat) (name : Text) (fd : Nat) (addr : InetAdress)
    (ops : List ConnOp) (s : Session) (hstart : ∀ op ∈ ops, op ≠ .start)
    (hrun : exec step (startedNew self name fd addr) ops = some s) :
    Always step (fun s => GracefulOrder s.events) (startedNew self name fd addr) ops ↔
      Along step ShutdownRespected (startedNew self name fd addr) ops :=
  always_iff_along (I := ShutdownInv) (D := fun _ op => op ≠ .start) (fun _ h => h.order)
    (fun s op s' h hop hC hstep => shutdownInv_step s op s' h hop hC hstep)
    (fun s op s' h _ hbad hstep => not_gracefulOrder_step s op s' h hbad hstep)
    (shutdownInv_startedNew self name fd addr) (Along.of_forall hstart _) hrun

/-- The theorem on a shutdown that waits for the queue to drain. -/
theorem graceful_order_on_run :
    Always step (fun s => GracefulOrder s.events) (startedNew 0 [] 5 InetAdress.new)
      [.send (fun _ => 0) 1 2 (.accepted 0), .shutDown, .handleWrite (.accepted 2)] := by
  have h : (exec step (startedNew 0 [] 5 InetAdress.new)
      [.send (fun _ => 0) 1 2 (.accepted 0), .shutDown, .handleWrite (.accepted 2)]).isSome
        = true := by
    decide +kernel
  obtain ⟨s, hrun⟩ := Option.isSome_iff_exists.mp h
  refine (graceful_order_iff 0 [] 5 InetAdress.new _ s (by simp) hrun).mpr ?_
  refine Along.cons rfl (fun hst => absurd hst (by decide)) ?_
  exact Along.cons rfl (fun hc => absurd hc (by decide)) ⟨trivial, fun _ _ => trivial⟩

/-- **A `send` after `ShutDown` writes to the half-closed socket.**  The FIN has
been sent, the kernel answers the write with EPIPE as it must, and two bytes
are queued behind it. -/
theorem send_after_fin_is_written :
    ∃ s, exec step (startedNew 0 [] 5 InetAdress.new)
        [.shutDown, .send (fun _ => 0) 1 1 (.failed .EPIPE)] = some s
      ∧ s.events = [.call .update, .call (.append [0, 0]),
          .call (.write true [0] (.failed .EPIPE)), .call (.shutdown 0), .shutDownCalled,
          .call .update]
      ∧ ¬ GracefulOrder s.events := by
  have h : (exec step (startedNew 0 [] 5 InetAdress.new)
      [.shutDown, .send (fun _ => 0) 1 1 (.failed .EPIPE)]).map Session.events
        = some [.call .update, .call (.append [0, 0]),
          .call (.write true [0] (.failed .EPIPE)), .call (.shutdown 0), .shutDownCalled,
          .call .update] := by
    decide +kernel
  obtain ⟨s, hrun, hs⟩ := Option.map_eq_some_iff.mp h
  refine ⟨s, hrun, hs, fun horder => ?_⟩
  rw [hs] at horder
  exact absurd horder.noWriteAfterFin (by decide)

end Session

end SparkNet
