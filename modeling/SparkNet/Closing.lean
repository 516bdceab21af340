/-
  SparkNet.Closing — `Close` is final and reported once.

  `Close` has no guard on the state and writes DIS_CONNECTED only after its
  close callback, so a kept pointer or a later event of the batch can still act
  on a connection that is half closed.  `ClosedForGood` says what the end of a
  connection should look like from outside; `LeavesClosed` names the three
  things that may not be done to a closed connection.

  Main results:
    * `closed_for_good_iff` — the end of a connection is final throughout a run
      exactly when every step of the run leaves it alone once it is closed,
    * `send_revives_closed_connection` — a `send` from the disconnect callback
      writes to the socket and registers the handler again.
-/
import SparkNet.Lifetime
import SparkNet.ClientState

namespace SparkNet

open Runs

/-! ## §1. The property and the condition. -/

/-- The events that mark the end of connection `c`. -/
def Event.isClosing (c : Nat) : Event → Bool
  | .closeEntered d => d == c
  | .closeCallback d => d == c
  | _ => false

/-- What may not happen to connection `c` after its end. -/
def Event.isTraffic (c : Nat) : Event → Bool
  | .messageCallback d => d == c
  | .wrote d n => d == c && n != 0
  | _ => false

/-- The connection callback, if it is set, precedes every message callback. -/
def Ordered (c : Nat) (w : World) : Prop :=
  (w.conns c).connCallback = true → ∀ earlier, .messageCallback c :: earlier <:+ w.log →
    .connectionCallback c ∈ earlier

/-- **Closing is final and reported once.** -/
structure ClosedForGood (c : Nat) (w : World) : Prop where
  reported : w.log.count (.closeCallback c) = if w.closed c then 1 else 0
  unregistered : w.closed c → (w.conns c).handler.events = 0#32
    ∧ ∀ fd, w.poller.handlers fd ≠ some (.conn c)
      ∧ ∀ ev, w.poller.interest fd ≠ some (ev, .conn c)
  /-- No message callback and no byte written is newer than the end. -/
  silent : ∀ e earlier, e :: earlier <:+ w.log → e.isTraffic c = true →
    .closeEntered c ∉ earlier
  ordered : Ordered c w

/-- `send(data, len)` neither writes nor queues anything; `out` is the kernel's
answer if it is asked. -/
def TcpConnection.sendsNothing (x : TcpConnection) (len : SizeT) (out : WriteOutcome) : Prop :=
  x.state = .disConnected ∨
    match x.writesDirectly, out with
    | true, .failed _ => len + 1#64 = 0#64
    | _, _ => len = 0#64

instance (x : TcpConnection) (len : SizeT) (out : WriteOutcome) :
    Decidable (x.sendsNothing len out) := by
  unfold TcpConnection.sendsNothing
  exact @instDecidableOr _ _ inferInstance <|
    match x.writesDirectly, out with
    | true, .failed _ => inferInstanceAs (Decidable (len + 1#64 = 0#64))
    | true, .accepted _ => inferInstanceAs (Decidable (len = 0#64))
    | false, .failed _ => inferInstanceAs (Decidable (len = 0#64))
    | false, .accepted _ => inferInstanceAs (Decidable (len = 0#64))

/-- What `HandleRead` gets makes no call on connection `c`. -/
def World.readsNothing (w : World) (c : Nat) : ReadOutcome → Prop
  | .failed _ => True
  | .eof => False
  | .data _ => (w.conns c).msgCallback = false

instance (w : World) (c : Nat) (r : ReadOutcome) : Decidable (w.readsNothing c r) :=
  match r with
  | .failed _ => isTrue trivial
  | .eof => isFalse id
  | .data _ => inferInstanceAs (Decidable ((w.conns c).msgCallback = false))

/-- Once connection `c` is closed the step enters no second `Close` on it, reads
nothing from it and sends nothing on it. -/
def LeavesClosed (c : Nat) (w : World) : Label → Prop
  | .user (.close d) => d = c → ¬ w.closed c
  | .user (.send d _ _ len out) => d = c → w.closed c → (w.conns c).sendsNothing len out
  | .resume env =>
      match w.stack with
      | .handleEvent (.conn d) mask .read :: _ =>
          d = c → w.closed c → w.live c = true → mask.has World.readBits = true →
            w.readsNothing c env.read
      | _ => True
  | _ => True

instance (c : Nat) (w : World) (l : Label) : Decidable (LeavesClosed c w l) := by
  unfold LeavesClosed
  exact match l with
  | .user (.close d) => inferInstanceAs (Decidable (d = c → ¬ w.closed c))
  | .user (.send d _ _ len out) =>
      inferInstanceAs (Decidable (d = c → w.closed c → (w.conns c).sendsNothing len out))
  | .resume env =>
      match w.stack with
      | .handleEvent (.conn d) mask .read :: _ =>
          inferInstanceAs (Decidable (d = c → w.closed c → w.live c = true →
            mask.has World.readBits = true → w.readsNothing c env.read))
      | .handleEvent (.conn _) _ .write :: _ | .handleEvent (.conn _) _ .error :: _
      | .handleEvent (.connecting ..) _ _ :: _ | .handleEvent (.acceptor _) _ _ :: _
      | .loop _ :: _ | .closing _ :: _ | .user _ :: _ | [] => isTrue trivial
  | .poll _ | .ret | .user (.connect ..) | .user (.disconnect ..) | .user (.clientSend ..)
  | .user (.setConnectionCallback ..) | .user (.setMessageCallback ..)
  | .user (.setDisconnectCallback ..) | .user (.serverStart ..)
  | .user (.serverSetConnCallback ..) | .user (.serverSetMessageCallback ..)
  | .user (.shutDown ..) | .user (.retrieve ..) | .user (.retrieveAll _)
  | .user (.keep _) | .user (.drop _) => isTrue trivial

/-! ## §2. The poller's entries. -/

/-- Every entry that names a connection lies on the connection's descriptor, and
the kernel knows no descriptor the table does not. -/
structure Anchored (w : World) : Prop where
  handlers : ∀ fd c, w.poller.handlers fd = some (.conn c) →
    c < w.connCount ∧ (w.conns c).handler.fd = fd
  interest : ∀ fd ev c, w.poller.interest fd = some (ev, .conn c) →
    c < w.connCount ∧ (w.conns c).handler.fd = fd
  table : ∀ fd, w.poller.handlers fd = none → w.poller.interest fd = none

/-- The call neither writes bytes nor runs `Update`. -/
def SockCall.isIdle : SockCall → Bool
  | .write _ bytes out => (bytes.take out.result.toNat).length == 0
  | .update => false
  | _ => true

/-! ## §3. What leaves a connection alone. -/

/-- From `w` to `w'` no `Close` of connection `c` begins, and if it has begun
before then nothing is read, written or registered. -/
structure Spares (c : Nat) (w w' : World) : Prop where
  log : ∃ new, w'.log = new ++ w.log
    ∧ ∀ e ∈ new, e.isClosing c = false ∧ (e.isTraffic c = true → ¬ w.closed c)
  events : w.closed c → (w'.conns c).handler.events = (w.conns c).handler.events
  handlers : w.closed c → ∀ fd, w'.poller.handlers fd = some (.conn c) →
    w.poller.handlers fd = some (.conn c)
  interest : w.closed c → ∀ fd ev, w'.poller.interest fd = some (ev, .conn c) →
    w.poller.interest fd = some (ev, .conn c)
  ordered : Ordered c w → Ordered c w'
  anchored : Anchored w → Anchored w'
  connCount : w'.connCount = w.connCount
  parts : ∀ d, (w'.conns d).parts = (w.conns d).parts

section Spares

variable {c : Nat} {w w' w'' : World}

theorem Spares.closed (h : Spares c w w') : w'.closed c ↔ w.closed c := by
  obtain ⟨new, hlog, hnew⟩ := h.log
  rw [World.closed, World.closed, hlog, List.mem_append]
  refine or_iff_right fun hm => ?_
  exact absurd (hnew _ hm).1 (by simp [Event.isClosing])

theorem Spares.trans (h : Spares c w w') (h' : Spares c w' w'') : Spares c w w'' where
  log := by
    obtain ⟨new, hlog, hnew⟩ := h.log
    obtain ⟨new', hlog', hnew'⟩ := h'.log
    refine ⟨new' ++ new, by rw [hlog', hlog, List.append_assoc], ?_⟩
    intro e he
    rcases List.mem_append.mp he with hm | hm
    · rw [← h.closed]
      exact hnew' e hm
    · exact hnew e hm
  events := fun hc => (h'.events (h.closed.mpr hc)).trans (h.events hc)
  handlers := fun hc fd hfd => h.handlers hc fd (h'.handlers (h.closed.mpr hc) fd hfd)
  interest := fun hc fd ev hfd => h.interest hc fd ev (h'.interest (h.closed.mpr hc) fd ev hfd)
  ordered := fun ho => h'.ordered (h.ordered ho)
  anchored := fun ha => h'.anchored (h.anchored ha)
  connCount := h'.connCount.trans h.connCount
  parts := fun d => (h'.parts d).trans (h.parts d)

/-- The same, read from the end of a function. -/
theorem Spares.after (h' : Spares c w' w'') (h : Spares c w w') : Spares c w w'' := h.trans h'

/-- The lists that end in a longer log are those of the old one and the new events. -/
theorem suffix_log {e e' : Event} {earlier log : List Event} (h : e :: earlier <:+ e' :: log) :
    e = e' ∧ earlier = log ∨ e :: earlier <:+ log := by
  rcases List.suffix_cons_iff.mp h with heq | hsuf
  · exact Or.inl (List.cons.inj heq)
  · exact Or.inr hsuf

theorem Ordered.emit (h : Ordered c w) {e : Event}
    (hmsg : e = .messageCallback c → (w.conns c).connCallback = true →
      .connectionCallback c ∈ w.log) : Ordered c (w.emit e) := by
  intro hcb earlier hsuf
  rcases suffix_log hsuf with ⟨he, rfl⟩ | hold
  · exact hmsg he.symm hcb
  · exact h hcb earlier hold

/-- Nothing about connections changes. -/
theorem Spares.of_eq (hlog : w'.log = w.log) (hconns : w'.conns = w.conns)
    (hpoller : w'.poller = w.poller) (hcount : w'.connCount = w.connCount) : Spares c w w' where
  log := ⟨[], hlog, by simp⟩
  events := fun _ => by rw [hconns]
  handlers := fun _ fd hfd => hpoller ▸ hfd
  interest := fun _ fd ev hfd => hpoller ▸ hfd
  ordered := by
    rw [Ordered, Ordered, hlog, hconns]
    exact id
  anchored := by
    rintro ⟨hh, hi, ht⟩
    refine ⟨?_, ?_, ?_⟩ <;> rw [hpoller] <;> first | rw [hconns, hcount]; assumption | assumption
  connCount := hcount
  parts := fun d => by rw [hconns]

theorem Spares.refl (w : World) : Spares c w w := .of_eq rfl rfl rfl rfl

theorem spares_emit {e : Event} (hclose : e.isClosing c = false)
    (htraffic : e.isTraffic c = true → ¬ w.closed c)
    (hmsg : e = .messageCallback c → (w.conns c).connCallback = true →
      .connectionCallback c ∈ w.log) : Spares c w (w.emit e) where
  log := by
    refine ⟨[e], rfl, fun e' he' => ?_⟩
    rw [List.mem_singleton.mp he']
    exact ⟨hclose, htraffic⟩
  events := fun _ => rfl
  handlers := fun _ _ hfd => hfd
  interest := fun _ _ _ hfd => hfd
  ordered := fun ho => ho.emit hmsg
  anchored := fun ha => ⟨ha.handlers, ha.interest, ha.table⟩
  connCount := rfl
  parts := fun _ => rfl

/-- Events about something else. -/
theorem spares_emit_plain {e : Event} (hclose : e.isClosing c = false)
    (htraffic : e.isTraffic c = false) : Spares c w (w.emit e) := by
  refine spares_emit hclose (fun ht => absurd (htraffic.symm.trans ht) (by simp)) fun he => ?_
  subst he
  exact absurd htraffic (by simp [Event.isTraffic])

theorem spares_push (f : Frame) : Spares c w (w.push f) := .of_eq rfl rfl rfl rfl

theorem spares_fail (f : Fault) : Spares c w (w.fail f) := .of_eq rfl rfl rfl rfl

theorem spares_setConn {d : Nat} {x : TcpConnection} (hx : x.parts = (w.conns d).parts)
    (hev : w.closed c → d = c → x.handler.events = (w.conns d).handler.events) :
    Spares c w (w.setConn d x) := by
  have hparts := (World.quiet_setConn w hx).parts
  have hfd : ∀ e, ((w.setConn d x).conns e).handler.fd = (w.conns e).handler.fd := fun e =>
    congrArg ConnParts.fd (hparts e)
  refine ⟨⟨[], rfl, by simp⟩, fun hc => ?_, fun _ _ => id, fun _ _ _ => id, fun ho hcb => ?_,
    fun ha => ⟨fun fd e he => ?_, fun fd ev e he => ?_, ha.table⟩, rfl, hparts⟩
  · by_cases hd : c = d
    · subst hd
      simpa [World.setConn] using hev hc rfl
    · simp [World.setConn, hd]
  · exact ho ((congrArg ConnParts.connCallback (hparts c)).symm.trans hcb)
  · obtain ⟨hlt, hfd'⟩ := ha.handlers fd e he
    exact ⟨hlt, (hfd e).trans hfd'⟩
  · obtain ⟨hlt, hfd'⟩ := ha.interest fd ev e he
    exact ⟨hlt, (hfd e).trans hfd'⟩

/-- `Update` on another handler, or on that of a connection that is not closed. -/
theorem spares_update {ptr : HandlerPtr} {h : Handler HandlerCallback}
    (hptr : ∀ d, ptr = .conn d → d < w.connCount ∧ (w.conns d).handler.fd = h.fd
      ∧ (d = c → ¬ w.closed c)) (ha : Anchored w) : Spares c w (w.update ptr h) := by
  unfold World.update
  cases hp : w.poller.update ptr h with
  | error f => exact spares_fail f
  | ok p =>
      obtain ⟨hhan, hint, htable⟩ := Epoller.update_entries hp ha.table
      refine ⟨⟨[], rfl, by simp⟩, fun _ => rfl, fun hc fd hfd => ?_, fun hc fd ev hfd => ?_, id,
        fun _ => ⟨fun fd d hd => ?_, fun fd ev d hd => ?_, htable⟩, rfl, fun _ => rfl⟩
      · rcases hhan fd _ hfd with hold | ⟨_, hnew⟩
        · exact hold
        · exact absurd hc ((hptr c hnew.symm).2.2 rfl)
      · rcases hint fd ev _ hfd with hold | ⟨_, hnew⟩
        · exact hold
        · exact absurd hc ((hptr c hnew.symm).2.2 rfl)
      · rcases hhan fd _ hd with hold | ⟨rfl, hnew⟩
        · exact ha.handlers fd d hold
        · exact ⟨(hptr d hnew.symm).1, (hptr d hnew.symm).2.1⟩
      · rcases hint fd ev _ hd with hold | ⟨rfl, hnew⟩
        · exact ha.interest fd ev d hold
        · exact ⟨(hptr d hnew.symm).1, (hptr d hnew.symm).2.1⟩

theorem spares_closeFd (fd : Nat) : Spares c w (w.closeFd fd) := by
  have hemit : Spares c w (w.emit (.fdClosed fd (w.poller.handlers fd).isSome)) :=
    spares_emit_plain rfl rfl
  have hint : ∀ fd' r, (w.closeFd fd).poller.interest fd' = some r →
      w.poller.interest fd' = some r := by
    intro fd' r hr
    by_cases hfd : fd' = fd
    · subst hfd
      exact absurd hr (by simp [World.closeFd])
    · simpa [World.closeFd, hfd] using hr
  refine ⟨hemit.log, fun _ => rfl, fun _ _ => id, fun _ fd' ev => hint fd' _, hemit.ordered,
    fun ha => ⟨ha.handlers, fun fd' ev d hd => ha.interest fd' ev d (hint fd' _ hd), ?_⟩, rfl,
    fun _ => rfl⟩
  intro fd' hnone
  cases hr : (w.closeFd fd).poller.interest fd' with
  | none => rfl
  | some r => exact absurd ((hint fd' r hr).symm.trans (ha.table fd' hnone)) (by simp)

/-! ## §4. The library's functions. -/

theorem spares_release (d : Nat) : Spares c w (w.release d) := by
  unfold World.release World.destroyConn
  simp only
  split
  · exact .refl w
  · have hemit : Spares c w (w.emit (.handlerDestroyed (.conn d)
        (w.poller.handlers (w.conns d).handler.fd).isSome)) := spares_emit_plain rfl rfl
    split
    · exact hemit.trans (spares_closeFd _)
    · exact hemit.trans (spares_fail _)

theorem spares_letGo (o : Option Nat) : Spares c w (w.letGo o) := by
  cases o with
  | none => exact .refl w
  | some o =>
      have hemit : Spares c w (w.emit (.displaced o)) := spares_emit_plain rfl rfl
      exact hemit.trans (spares_release o)

theorem spares_runCalls {d : Nat} (ok : Bool) {calls : List SockCall} (ha : Anchored w)
    (hd : d < w.connCount)
    (hidle : d = c → w.closed c → ∀ call ∈ calls, call.isIdle = true) :
    Spares c w (calls.foldl (World.runCall d ok) w) := by
  induction calls generalizing w with
  | nil => exact .refl w
  | cons call calls ih =>
      have hcall : Spares c w (World.runCall d ok w call) := by
        have hfirst : d = c → w.closed c → call.isIdle = true := fun hdc hc =>
          hidle hdc hc call List.mem_cons_self
        cases call with
        | write direct bytes out =>
            refine spares_emit rfl (fun ht hc => ?_) (by simp)
            simp only [Event.isTraffic, Bool.and_eq_true, beq_iff_eq, bne_iff_ne] at ht
            exact ht.2 (by simpa only [SockCall.isIdle, beq_iff_eq] using hfirst ht.1 hc)
        | append bytes => exact .refl w
        | update =>
            refine spares_update (fun e he => ?_) ha
            obtain rfl := HandlerPtr.conn.inj he
            exact ⟨hd, rfl, fun hdc hc => absurd (hfirst hdc hc) (by simp [SockCall.isIdle])⟩
        | shutdown pending =>
            cases ok with
            | true => exact spares_emit_plain rfl rfl
            | false => exact spares_fail _
      refine hcall.trans (ih (hcall.anchored ha) (hcall.connCount ▸ hd) fun hdc hc => ?_)
      exact fun call' hm => hidle hdc (hcall.closed.mp hc) call' (List.mem_cons_of_mem call hm)

/-- A member function of connection `d`.  On the closed one it may not touch the
mask, write, or run `Update`. -/
theorem spares_connOp {d : Nat} {r : TcpConnection × List SockCall} (ok : Bool) (ha : Anchored w)
    (hd : d < w.connCount) (hparts : r.1.parts = (w.conns d).parts)
    (hidle : d = c → w.closed c → r.1.handler.events = (w.conns d).handler.events
      ∧ ∀ call ∈ r.2, call.isIdle = true) : Spares c w (w.connOp d r ok) := by
  have hset : Spares c w (w.setConn d r.1) :=
    spares_setConn hparts fun hc hdc => (hidle hdc hc).1
  exact hset.trans (spares_runCalls ok (hset.anchored ha) hd fun hdc hc =>
    (hidle hdc (hset.closed.mp hc)).2)

theorem spares_start {d : Nat} (ha : Anchored w) (hd : d < w.connCount)
    (hopen : d = c → ¬ w.closed c) : Spares c w (w.start d) := by
  have hop : Spares c w (w.connOp d (w.conns d).start true) :=
    spares_connOp true ha hd (TcpConnection.parts_start _) fun hdc hc => absurd hc (hopen hdc)
  unfold World.start
  simp only
  split
  · have hemit : Spares c (w.connOp d (w.conns d).start true)
        ((w.connOp d (w.conns d).start true).emit (.connectionCallback d)) :=
      spares_emit_plain rfl rfl
    exact (hop.trans hemit).trans (spares_push _)
  · exact hop

theorem spares_runDisconnectCallback (k : Nat) : Spares c w (w.runDisconnectCallback k) := by
  unfold World.runDisconnectCallback
  split
  · have hemit : Spares c w (w.emit (.disconnectCallback k (w.clients k).state)) :=
      spares_emit_plain rfl rfl
    exact hemit.trans (spares_push _)
  · exact .refl w

theorem spares_shutDown {d : Nat} (ha : Anchored w) (hw : Coherent w) (ok : Bool) :
    Spares c w (w.shutDown d ok) := by
  unfold World.shutDown
  split
  next hlive =>
    refine spares_connOp ok ha (hw.known_of_live hlive) (TcpConnection.parts_shutDown _)
      fun _ _ => ⟨by rw [TcpConnection.handler_shutDown], fun call hm => ?_⟩
    rw [TcpConnection.shutDown_eq] at hm
    split at hm
    · cases hwr : (w.conns d).handler.isWriting <;> simp [hwr] at hm
      rw [hm]
      rfl
    · exact absurd hm (by simp)
  next => exact spares_fail _

/-- Without write interest `HandleWrite` does nothing. -/
theorem spares_tcpHandleWrite {d : Nat} (ha : Anchored w) (hw : Coherent w)
    (hmask : w.closed c → (w.conns c).handler.events = 0#32) (out : WriteOutcome) (ok : Bool) :
    Spares c w (w.tcpHandleWrite d out ok) := by
  unfold World.tcpHandleWrite
  split
  next hlive =>
    refine spares_connOp ok ha (hw.known_of_live hlive) (TcpConnection.parts_handleWrite _ out)
      fun hdc hc => ?_
    subst hdc
    have hidle : (w.conns d).handler.isWriting = false := by
      simp [Handler.isWriting_eq, hmask hc]
    rw [TcpConnection.handleWrite_idle hidle]
    exact ⟨rfl, by simp⟩
  next => exact spares_fail _

/-- A `send` that sends nothing, when the connection is the closed one. -/
theorem spares_send {d : Nat} (ha : Anchored w) (hw : Coherent w) (mem : Memory)
    (data len : SizeT) (out : WriteOutcome)
    (hnothing : d = c → w.closed c →
      ((w.conns d).send mem data len out).1.handler.events = (w.conns d).handler.events
        ∧ ∀ call ∈ ((w.conns d).send mem data len out).2, call.isIdle = true) :
    Spares c w (w.send d mem data len out) := by
  unfold World.send
  split
  next hlive =>
    exact spares_connOp true ha (hw.known_of_live hlive)
      (TcpConnection.parts_send _ mem data len out) hnothing
  next => exact spares_fail _

theorem spares_removeConn (s d : Nat) : Spares c w (w.removeConn s d) := by
  unfold World.removeConn
  simp only
  split
  · exact .after (spares_release d) (.of_eq rfl rfl rfl rfl)
  · exact .after (spares_letGo _) (.of_eq rfl rfl rfl rfl)

theorem spares_handleClose (k d : Nat) : Spares c w (w.handleClose k d) := by
  unfold World.handleClose
  simp only
  split
  · exact .after (spares_runDisconnectCallback k)
      (.after (spares_release d) (.of_eq rfl rfl rfl rfl))
  · exact spares_fail _

/-- The `Close` of another connection. -/
theorem spares_close {d : Nat} (ha : Anchored w) (hw : Coherent w) (hd : d ≠ c) :
    Spares c w (w.close d) := by
  unfold World.close
  split
  next hlive =>
    have hemit : Spares c w (w.emit (.closeEntered d)) :=
      spares_emit_plain (by simpa [Event.isClosing] using hd) rfl
    have hstart : Spares c w (w.closeStart d) :=
      hemit.trans (spares_connOp true (hemit.anchored ha) (hw.known_of_live hlive)
        (TcpConnection.parts_closeEnter _) fun hdc => absurd hdc hd)
    simp only
    split
    · refine hstart.trans (spares_setConn (TcpConnection.parts_closeReturn _) fun _ _ => ?_)
      rfl
    next callback _ =>
      have hcall : Spares c (w.closeStart d)
          (w.atCloseCallback d) :=
        (spares_push _).trans (spares_emit_plain (by simpa [Event.isClosing] using hd) rfl)
      refine (hstart.trans hcall).trans ?_
      cases callback with
      | removeConn s => exact spares_removeConn s d
      | handleClose k => exact spares_handleClose k d
  next => exact spares_fail _

theorem spares_connecting (ha : Anchored w) (k fd : Nat) : Spares c w (w.connecting k fd) := by
  have hupdate : ∀ v : World, Spares c w v → ∀ client, Spares c w
      ((World.setClient { v with handlerCount := w.handlerCount + 1 } k client).update
        (.connecting k w.handlerCount) (World.connectingHandler k fd).enableWrite) := by
    intro v hv client
    obtain ⟨hh, hi, ht⟩ := hv.anchored ha
    exact .after (spares_update (fun d hd => absurd hd (by simp)) ⟨hh, hi, ht⟩)
      (hv.trans (.of_eq rfl rfl rfl rfl))
  unfold World.connecting
  simp only
  split
  · exact hupdate _ (spares_emit_plain rfl rfl) _
  · exact hupdate w (.refl w) _

theorem spares_dropConnHandler (ha : Anchored w) (k n : Nat) (g : Handler HandlerCallback) :
    Spares c w (w.dropConnHandler k n g) := by
  have hupdate : Spares c w (w.update (.connecting k n) g.disableAll) :=
    spares_update (fun d hd => absurd hd (by simp)) ha
  unfold World.dropConnHandler
  simp only
  exact .after (spares_emit_plain rfl rfl) (hupdate.trans (.of_eq rfl rfl rfl rfl))

theorem spares_clientHandleError (ha : Anchored w) (k : Nat) :
    Spares c w (w.clientHandleError k) := by
  unfold World.clientHandleError
  split
  · split
    · exact spares_fail _
    · next n g _ =>
      exact ((spares_dropConnHandler ha k n g).trans (spares_closeFd _)).trans
        (spares_runDisconnectCallback k)
  · exact .refl w

theorem spares_dial (k : Nat) (ip : Text) (port : BitVec 16) (fd : Nat) :
    Spares c w (w.dial k ip port fd) := by
  have hemit : Spares c w
      (w.emit (.dialled k ((w.clients k).addr.fromIpPort ip port).2.addr)) :=
    spares_emit_plain rfl rfl
  exact hemit.trans (.of_eq rfl rfl rfl rfl)

theorem spares_disconnect (ha : Anchored w) (hw : Coherent w) (k : Nat) (ok : Bool) :
    Spares c w (w.disconnect k ok) := by
  have hset : Spares c w (w.setClient k { w.clients k with state := .disConnected }) :=
    .of_eq rfl rfl rfl rfl
  have hcoherent : Coherent (w.setClient k { w.clients k with state := .disConnected }) :=
    hw.setClient rfl fun _ _ => Or.inl
  unfold World.disconnect
  simp only
  split
  · exact hset.trans (spares_fail _)
  · exact hset.trans (spares_shutDown (hset.anchored ha) hcoherent ok)

theorem spares_serverStart (ha : Anchored w) (s fd : Nat) : Spares c w (w.serverStart s fd) := by
  unfold World.serverStart
  exact .after
    (spares_update (fun d hd => absurd hd (by simp)) ⟨ha.handlers, ha.interest, ha.table⟩)
    (.of_eq rfl rfl rfl rfl)

/-! ## §5. What `send` does on a closed connection. -/

section Send

variable {x : TcpConnection} {len : SizeT} {out : WriteOutcome}

theorem TcpConnection.send_of_sendsNothing (hout : out.fits len.toNat)
    (h : x.sendsNothing len out) (mem : Memory) (data : SizeT) :
    (x.send mem data len out).1.handler.events = x.handler.events
      ∧ ∀ call ∈ (x.send mem data len out).2, call.isIdle = true := by
  have hempty : len = 0#64 → mem.read data len = [] := by
    rintro rfl
    exact List.length_eq_zero_iff.mp (Memory.length_read mem data 0#64)
  by_cases hst : x.state = .disConnected
  · rw [send_disConnected hst]
    exact ⟨rfl, by simp⟩
  rcases h with hdis | h
  · exact absurd hdis hst
  cases hd : x.writesDirectly with
  | true =>
      rw [send_direct hst hd]
      cases out with
      -- nothing of nothing is left over
      | accepted n =>
          simp only [hd] at h
          rw [leftover_accepted mem data len hout, hempty h, List.drop_nil, if_pos rfl]
          exact ⟨rfl, by simp [SockCall.isIdle]⟩
      | failed errno =>
          simp only [hd] at h
          -- `len + 1` wraps to 0, so what `send` takes for unsent is empty
          have hnone : leftover mem data len (.failed errno) = [] := by
            rw [leftover_failed, h]
            exact List.length_eq_zero_iff.mp (Memory.length_read mem _ 0#64)
          rw [if_pos hnone]
          exact ⟨rfl, by simp [SockCall.isIdle, WriteOutcome.result]⟩
  | false =>
      have hlen : len = 0#64 := by simpa only [hd] using h
      rw [send_queued hst hd, if_pos (hempty hlen)]
      exact ⟨rfl, by simp⟩

theorem TcpConnection.send_of_not_sendsNothing (hmask : x.handler.events = 0#32)
    (hout : out.fits len.toNat) (h : ¬ x.sendsNothing len out) (mem : Memory) (data : SizeT) :
    (x.send mem data len out).1.handler.events ≠ 0#32
      ∨ x.send mem data len out = (x, [.write true (mem.read data len) out])
        ∧ ((mem.read data len).take out.result.toNat).length ≠ 0 := by
  have hwriting : x.handler.enableWrite.events ≠ 0#32 :=
    Handler.events_ne_zero_of_isWriting (Handler.isWriting_enableWrite _)
  obtain ⟨hst, h⟩ := not_or.mp h
  cases hd : x.writesDirectly with
  | true =>
      rw [send_direct hst hd]
      split
      next hnone =>
        -- all was written at once, and that is at least one byte
        refine Or.inr ⟨rfl, ?_⟩
        cases out with
        | accepted n =>
            simp only [hd] at h
            rw [leftover_accepted mem data len hout, List.drop_eq_nil_iff,
              Memory.length_read] at hnone
            simp only [WriteOutcome.result, Int.toNat_natCast, List.length_take, Memory.length_read]
            have hpos : len.toNat ≠ 0 := fun h0 => h (BitVec.eq_of_toNat_eq (by simpa using h0))
            omega
        | failed errno =>
            simp only [hd] at h
            refine absurd ?_ h
            rw [leftover_failed] at hnone
            have hlen := congrArg List.length hnone
            rw [Memory.length_read, List.length_nil] at hlen
            exact BitVec.eq_of_toNat_eq (by simpa using hlen)
      -- something is queued, so `EnableWrite` runs
      next => exact Or.inl hwriting
  | false =>
      have hlen : len ≠ 0#64 := by simpa only [hd] using h
      have hread : mem.read data len ≠ [] := by
        intro hnil
        have h0 := congrArg List.length hnil
        rw [Memory.length_read, List.length_nil] at h0
        exact hlen (BitVec.eq_of_toNat_eq (by simpa using h0))
      have hidle : x.handler.isWriting = false := by
        simp [Handler.isWriting_eq, hmask]
      rw [send_queued hst hd, if_neg hread, hidle]
      exact Or.inl hwriting

end Send

/-! ## §6. The invariant. -/

/-- Every connection has had its connection callback, if that is set. -/
def Heralded (w : World) : Prop :=
  ∀ d, d < w.connCount → (w.conns d).connCallback = true → .connectionCallback d ∈ w.log

theorem Heralded.spares (h : Heralded w) (hs : Spares c w w') : Heralded w' := by
  intro d hd hcb
  obtain ⟨new, hlog, _⟩ := hs.log
  rw [hlog]
  refine List.mem_append_right new (h d (hs.connCount ▸ hd) ?_)
  exact (congrArg ConnParts.connCallback (hs.parts d)).symm.trans hcb

theorem ClosedForGood.spares (h : ClosedForGood c w) (hs : Spares c w w') :
    ClosedForGood c w' := by
  obtain ⟨new, hlog, hnew⟩ := hs.log
  have hclosed := hs.closed
  refine ⟨?_, fun hc => ⟨?_, fun fd => ⟨fun hfd => ?_, fun ev hfd => ?_⟩⟩, ?_, hs.ordered h.ordered⟩
  · have hnone : new.count (.closeCallback c) = 0 := by
      rw [List.count_eq_zero]
      exact fun hm => absurd (hnew _ hm).1 (by simp [Event.isClosing])
    rw [hlog, List.count_append, hnone, Nat.zero_add, h.reported]
    exact if_congr hclosed.symm rfl rfl
  · exact (hs.events (hclosed.mp hc)).trans (h.unregistered (hclosed.mp hc)).1
  · exact ((h.unregistered (hclosed.mp hc)).2 fd).1 (hs.handlers (hclosed.mp hc) fd hfd)
  · exact ((h.unregistered (hclosed.mp hc)).2 fd).2 ev (hs.interest (hclosed.mp hc) fd ev hfd)
  · -- induction on the new events: a traffic event among them finds no `Close` below it
    have hsilent : ∀ e earlier, e :: earlier <:+ new ++ w.log → e.isTraffic c = true →
        .closeEntered c ∉ earlier := by
      clear hlog
      induction new with
      | nil => exact h.silent
      | cons e' new ih =>
          intro e earlier hsuf ht
          rcases suffix_log hsuf with ⟨rfl, rfl⟩ | hold
          · intro hm
            rcases List.mem_append.mp hm with hm | hm
            · exact absurd (hnew _ (List.mem_cons_of_mem _ hm)).1 (by simp [Event.isClosing])
            · exact (hnew e List.mem_cons_self).2 ht hm
          · exact ih (fun e'' hm => hnew e'' (List.mem_cons_of_mem _ hm)) e earlier hold ht
    rw [hlog]
    exact hsilent

/-- What carries the argument. -/
structure Sealed (c : Nat) (w : World) : Prop where
  coherent : Coherent w
  anchored : Anchored w
  heralded : Heralded w
  good : ClosedForGood c w

theorem Sealed.spares (h : Sealed c w) (hw' : Coherent w') (hs : Spares c w w') : Sealed c w' :=
  ⟨hw', hs.anchored h.anchored, h.heralded.spares hs, h.good.spares hs⟩

theorem Sealed.fail (h : Sealed c w) (f : Fault) : Sealed c (w.fail f) :=
  h.spares (h.coherent.quiet (World.quiet_fail w f)) (spares_fail f)

theorem sealed_init (c : Nat) : Sealed c World.init where
  coherent := coherent_init
  anchored := ⟨by simp [World.init, Epoller.new], by simp [World.init, Epoller.new],
    by simp [World.init, Epoller.new]⟩
  heralded := fun d hd => absurd hd (by simp [World.init])
  good := by
    have hopen : ¬ World.init.closed c := by simp [World.closed, World.init]
    refine ⟨by rw [if_neg hopen]; rfl, fun hc => absurd hc hopen, ?_, ?_⟩
    · intro e earlier hsuf
      exact absurd hsuf.length_le (by simp [World.init])
    · intro _ earlier hsuf
      exact absurd hsuf.length_le (by simp [World.init])

theorem start_heralds (d : Nat) (hcb : ((w.start d).conns d).connCallback = true) :
    .connectionCallback d ∈ (w.start d).log := by
  unfold World.start at hcb ⊢
  simp only at hcb ⊢
  split
  next => exact List.mem_cons_self
  next hno =>
    rw [if_neg hno] at hcb
    exact absurd hcb hno

/-- **A new connection takes a slot** and starts. -/
theorem Sealed.occupy (h : Sealed c w) {v : World} {x : TcpConnection} (o : Option Nat)
    (hconns : v.conns = Function.update w.conns w.connCount x)
    (hcount : v.connCount = w.connCount + 1) (hpoller : v.poller = w.poller)
    (hlog : v.log = w.log) (hw' : Coherent ((v.letGo o).start w.connCount)) :
    Sealed c ((v.letGo o).start w.connCount) := by
  have hold : ∀ d, d < w.connCount → v.conns d = w.conns d := fun d hd => by
    rw [hconns, Function.update_of_ne (by omega)]
  have hknown : ∀ e ∈ w.log, ∀ d, e.mentions d = true → d < w.connCount := h.coherent.log
  have hclosed : v.closed c ↔ w.closed c := by rw [World.closed, World.closed, hlog]
  have hlt : w.closed c → c < w.connCount := fun hc =>
    hknown _ hc c (by simp [Event.mentions])
  have hanchored : Anchored v := by
    refine ⟨fun fd d hd => ?_, fun fd ev d hd => ?_, hpoller ▸ h.anchored.table⟩
    · obtain ⟨hdlt, hfd⟩ := h.anchored.handlers fd d (hpoller ▸ hd)
      exact ⟨by omega, by rw [hold d hdlt]; exact hfd⟩
    · obtain ⟨hdlt, hfd⟩ := h.anchored.interest fd ev d (hpoller ▸ hd)
      exact ⟨by omega, by rw [hold d hdlt]; exact hfd⟩
  -- connection `c` is older than the new one if anything is known of it
  have hgood : ClosedForGood c v := by
    refine ⟨?_, fun hc => ?_, hlog ▸ h.good.silent, fun hcb earlier hsuf => ?_⟩
    · rw [hlog, h.good.reported]
      exact if_congr hclosed.symm rfl rfl
    · rw [hold c (hlt (hclosed.mp hc)), hpoller]
      exact h.good.unregistered (hclosed.mp hc)
    · rw [hlog] at hsuf
      have hc : c < w.connCount := by
        refine hknown (.messageCallback c) ?_ c (by simp [Event.mentions])
        exact hsuf.subset List.mem_cons_self
      rw [hold c hc] at hcb
      exact h.good.ordered hcb earlier hsuf
  -- the rest is done to a connection that is not closed
  have hlet : Spares c v (v.letGo o) := spares_letGo o
  have hstart : Spares c (v.letGo o) ((v.letGo o).start w.connCount) := by
    refine spares_start (hlet.anchored hanchored) ?_ fun hc hcl => ?_
    · rw [hlet.connCount, hcount]
      exact Nat.lt_succ_self _
    · have := hlt (hclosed.mp (hlet.closed.mp hcl))
      omega
  have hs := hlet.trans hstart
  refine ⟨hw', hs.anchored hanchored, fun d hd hcb => ?_, hgood.spares hs⟩
  by_cases hdn : d = w.connCount
  · subst hdn
    exact start_heralds _ hcb
  · rw [hs.connCount, hcount] at hd
    obtain ⟨new, hnew, _⟩ := hs.log
    rw [hnew, hlog]
    refine List.mem_append_right new (h.heralded d (by omega) ?_)
    rw [← hold d (by omega)]
    exact (congrArg ConnParts.connCallback (hs.parts d)).symm.trans hcb

/-! ## §7. One `Close`. -/

/-- `DisableAll` leaves nothing of a connection in the poller. -/
theorem closeStart_eq (ha : Anchored w) : ∃ p, w.closeStart c =
      { (w.emit (.closeEntered c)).setConn c (w.conns c).closeEnter.1 with poller := p }
    ∧ p.handlers = Function.update w.poller.handlers (w.conns c).handler.fd none
    ∧ p.interest = Function.update w.poller.interest (w.conns c).handler.fd none := by
  have hev : (w.conns c).handler.disableAll.events = 0#32 := rfl
  obtain ⟨p, hp, hhan, hint⟩ : ∃ q, w.poller.update (.conn c) _ = .ok q ∧ _ ∧ _ :=
    Epoller.update_noEvent hev (ha.table _)
  refine ⟨p, ?_, hhan, hint⟩
  have hself : (((w.emit (.closeEntered c)).setConn c (w.conns c).closeEnter.1).conns c)
      = (w.conns c).closeEnter.1 := Function.update_self ..
  show World.update _ (.conn c) (World.conns _ c).handler = _
  have hok : ((w.emit (.closeEntered c)).setConn c (w.conns c).closeEnter.1).poller.update
      (.conn c) (w.conns c).closeEnter.1.handler = .ok p := hp
  rw [hself]
  unfold World.update
  rw [hok]

/-- What `Close` does up to its close callback: `c` is out of the poller. -/
theorem closeStart_spec (h : Sealed c w) : Anchored (w.closeStart c)
    ∧ ((w.closeStart c).conns c).handler.events = 0#32
    ∧ (∀ fd, (w.closeStart c).poller.handlers fd ≠ some (.conn c)
      ∧ ∀ ev, (w.closeStart c).poller.interest fd ≠ some (ev, .conn c))
    ∧ (w.closeStart c).log = .closeEntered c :: w.log
    ∧ ∀ d, ((w.closeStart c).conns d).parts = (w.conns d).parts := by
  obtain ⟨p, heq, hhan, hint⟩ := closeStart_eq (c := c) h.anchored
  have hparts := (World.quiet_closeStart w c).parts
  have hfd : ∀ d, ((w.closeStart c).conns d).handler.fd = (w.conns d).handler.fd := fun d =>
    congrArg ConnParts.fd (hparts d)
  -- what is left in table and interest set was there and lies on another descriptor
  have hhan' : ∀ fd q, (w.closeStart c).poller.handlers fd = some q →
      w.poller.handlers fd = some q ∧ fd ≠ (w.conns c).handler.fd := by
    intro fd q hq
    rw [heq] at hq
    have hne : fd ≠ (w.conns c).handler.fd := by
      rintro rfl
      exact absurd hq (by simp [hhan])
    exact ⟨by simpa [hhan, hne] using hq, hne⟩
  have hint' : ∀ fd r, (w.closeStart c).poller.interest fd = some r →
      w.poller.interest fd = some r ∧ fd ≠ (w.conns c).handler.fd := by
    intro fd r hr
    rw [heq] at hr
    have hne : fd ≠ (w.conns c).handler.fd := by
      rintro rfl
      exact absurd hr (by simp [hint])
    exact ⟨by simpa [hint, hne] using hr, hne⟩
  have hcount : (w.closeStart c).connCount = w.connCount := (World.quiet_closeStart w c).connCount
  refine ⟨⟨fun fd d hd => ?_, fun fd ev d hd => ?_, fun fd hnone => ?_⟩, ?_,
    fun fd => ⟨fun hq => ?_, fun ev hr => ?_⟩, by rw [heq]; rfl, hparts⟩
  · rw [hcount, hfd]
    exact h.anchored.handlers fd d (hhan' fd _ hd).1
  · rw [hcount, hfd]
    exact h.anchored.interest fd ev d (hint' fd _ hd).1
  · rw [heq] at hnone ⊢
    show p.interest fd = none
    by_cases hf : fd = (w.conns c).handler.fd
    · rw [hint, hf, Function.update_self]
    · rw [hint, Function.update_of_ne hf]
      refine h.anchored.table fd ?_
      simpa [hhan, hf] using hnone
  · rw [heq]
    show ((Function.update w.conns c (w.conns c).closeEnter.1) c).handler.events = 0#32
    rw [Function.update_self]
    rfl
  · obtain ⟨hold, hne⟩ := hhan' fd _ hq
    exact hne (h.anchored.handlers fd c hold).2.symm
  · obtain ⟨hold, hne⟩ := hint' fd _ hr
    exact hne (h.anchored.interest fd ev c hold).2.symm

/-- After its `DisableAll` and the entry of the close callback, the rest of
`Close` spares the connection. -/
theorem close_spares_rest (hlive : w.live c = true) (hslot : (w.conns c).slot.isSome = true) :
    Spares c (w.atCloseCallback c) (w.close c) := by
  have hcb : ((w.closeStart c).conns c).closeCallback = (w.conns c).closeCallback :=
    congrArg ConnParts.closeCallback ((World.quiet_closeStart w c).parts c)
  unfold World.close
  simp only [hlive, if_true, hcb]
  cases hcc : (w.conns c).closeCallback with
  | none => exact absurd hslot (by simp [TcpConnection.slot, hcc])
  | some callback =>
      cases callback with
      | removeConn s => exact spares_removeConn s c
      | handleClose k => exact spares_handleClose k c

/-- **The first `Close`** ends the connection for good. -/
theorem Sealed.close (h : Sealed c w) (hopen : ¬ w.closed c) (hlive : w.live c = true) :
    Sealed c (w.close c) := by
  obtain ⟨hanchored, hevents, hgone, hlog, hparts⟩ := closeStart_spec h
  have hslot := (h.coherent.conn c (h.coherent.known_of_live hlive)).2.2.2
  have hcallback : (w.atCloseCallback c).log
      = .closeCallback c :: .closeEntered c :: w.log := congrArg (Event.closeCallback c :: ·) hlog
  have hrest := close_spares_rest hlive hslot
  -- here both events of the closing are in the log, and nothing else is new
  have hgood : ClosedForGood c (w.atCloseCallback c) := by
    refine ⟨?_, fun _ => ⟨hevents, hgone⟩, fun e earlier hsuf ht => ?_, ?_⟩
    · have hclosed : World.closed
          (w.atCloseCallback c) c := by
        rw [World.closed, hcallback]
        simp
      rw [if_pos hclosed, hcallback, List.count_cons_self, List.count_cons_of_ne (by simp),
        h.good.reported, if_neg hopen]
    · rw [hcallback] at hsuf
      rcases suffix_log hsuf with ⟨rfl, _⟩ | hsuf
      · exact absurd ht (by simp [Event.isTraffic])
      rcases suffix_log hsuf with ⟨rfl, _⟩ | hsuf
      · exact absurd ht (by simp [Event.isTraffic])
      · exact h.good.silent e earlier hsuf ht
    · have hordered : Ordered c (w.closeStart c) := by
        intro hcb earlier hsuf
        rw [hlog] at hsuf
        rcases suffix_log hsuf with ⟨he, _⟩ | hold
        · exact absurd he (by simp)
        · exact h.good.ordered ((congrArg ConnParts.connCallback (hparts c)).symm.trans hcb)
            earlier hold
      exact Ordered.emit (w := (w.closeStart c).push (.closing c)) hordered
        fun he => absurd he (by simp)
  have hheralded : Heralded (w.atCloseCallback c) := by
    intro d hd hcb
    rw [hcallback]
    refine List.mem_cons_of_mem _ (List.mem_cons_of_mem _ (h.heralded d ?_ ?_))
    · exact (World.quiet_closeStart w c).connCount ▸ hd
    · exact (congrArg ConnParts.connCallback (hparts d)).symm.trans hcb
  exact ⟨h.coherent.close c, hrest.anchored ⟨hanchored.handlers, hanchored.interest,
    hanchored.table⟩, hheralded.spares hrest, hgood.spares hrest⟩

/-- **A second `Close`** runs the close callback again. -/
theorem Sealed.close_again (h : Sealed c w) (hclosed : w.closed c) (hlive : w.live c = true) :
    ¬ ClosedForGood c (w.close c) := by
  obtain ⟨_, _, _, hlog, _⟩ := closeStart_spec h
  have hslot := (h.coherent.conn c (h.coherent.known_of_live hlive)).2.2.2
  obtain ⟨new, hnew, _⟩ := (close_spares_rest hlive hslot).log
  have hcallback : (w.atCloseCallback c).log
      = .closeCallback c :: .closeEntered c :: w.log := congrArg (Event.closeCallback c :: ·) hlog
  intro hgood
  have hcount := hgood.reported
  rw [hnew, hcallback, List.count_append, List.count_cons_self, List.count_cons_of_ne (by simp),
    h.good.reported, if_pos hclosed] at hcount
  split at hcount <;> omega

/-! ## §8. One step. -/

/-- `HandleRead` when bytes arrived. -/
theorem spares_receive {d : Nat} (h : Sealed c w) (hlive : w.live d = true) (bytes : List Byte)
    (hmsg : d = c → w.closed c → (w.conns c).msgCallback = false) :
    Spares c w (w.tcpHandleRead d (.data bytes)) := by
  have hparts := TcpConnection.parts_receive (w.conns d) bytes
  have hset : Spares c w (w.setConn d ((w.conns d).receive bytes)) :=
    spares_setConn hparts fun _ _ => rfl
  have hflag : ∀ e, ((w.setConn d ((w.conns d).receive bytes)).conns e).msgCallback
      = (w.conns e).msgCallback := fun e => congrArg ConnParts.msgCallback (hset.parts e)
  unfold World.tcpHandleRead
  simp only [hlive, if_true]
  split
  next hcb =>
    refine hset.trans (.after (spares_push _) (spares_emit rfl (fun ht hc => ?_) fun he hcc => ?_))
    · simp only [Event.isTraffic, beq_iff_eq] at ht
      subst ht
      rw [hflag, hmsg rfl (hset.closed.mp hc)] at hcb
      exact absurd hcb (by simp)
    · obtain rfl := Event.messageCallback.inj he
      refine h.heralded d (h.coherent.known_of_live hlive) ?_
      exact (congrArg ConnParts.connCallback (hset.parts d)).symm.trans hcc
  next => exact hset.trans (spares_fail _)

theorem Sealed.tcpHandleRead (h : Sealed c w) {d : Nat} {r : ReadOutcome}
    (hnothing : d = c → w.closed c → w.live c = true → w.readsNothing c r) :
    Sealed c (w.tcpHandleRead d r) := by
  have hw' := h.coherent.tcpHandleRead d r
  by_cases hlive : w.live d = true
  · cases r with
    | failed errno =>
        have heq : w.tcpHandleRead d (.failed errno) = w := if_pos hlive
        rw [heq]
        exact h
    | eof =>
        have heq : w.tcpHandleRead d .eof = w.close d := if_pos hlive
        rw [heq]
        by_cases hd : d = c
        · subst hd
          exact h.close (fun hc => hnothing rfl hc hlive) hlive
        · exact h.spares (h.coherent.close d) (spares_close h.anchored h.coherent hd)
    | data bytes =>
        exact h.spares hw' (spares_receive h hlive bytes fun hd hc =>
          hnothing hd hc (hd ▸ hlive))
  · have heq : w.tcpHandleRead d r = w.fail .useAfterFree := if_neg hlive
    rw [heq]
    exact h.fail _

theorem Sealed.connEstablish (h : Sealed c w) (k fd : Nat) : Sealed c (w.connEstablish k fd) :=
  h.occupy (w.clients k).conn rfl rfl rfl rfl (h.coherent.connEstablish k fd)

theorem Sealed.onNewConnect (h : Sealed c w) (s fd : Nat) (addr : InetAdress) :
    Sealed c (w.onNewConnect s fd addr) :=
  h.occupy ((w.servers s).conns (w.nextName s addr)) rfl rfl rfl rfl
    (h.coherent.onNewConnect s fd addr)

theorem Sealed.acceptorHandleRead (h : Sealed c w) (s : Nat) (accept : AcceptOutcome) :
    Sealed c (w.acceptorHandleRead s accept) := by
  unfold World.acceptorHandleRead
  split
  next fd addr =>
    have hopen : Sealed c { w with fds := Function.update w.fds fd true } :=
      h.spares (h.coherent.quiet World.Quiet.of_machine) (.of_eq rfl rfl rfl rfl)
    exact hopen.onNewConnect s fd _
  next => exact h

theorem Sealed.clientHandleWrite (h : Sealed c w) (k err : Nat) :
    Sealed c (w.clientHandleWrite k err) := by
  unfold World.clientHandleWrite
  split
  · split
    · exact h.fail _
    · next n g _ =>
      have hdrop := h.spares (h.coherent.dropConnHandler k n g)
        (spares_dropConnHandler h.anchored k n g)
      simp only
      split
      · exact hdrop.spares (hdrop.coherent.runDisconnectCallback k) (spares_runDisconnectCallback k)
      · exact hdrop.connEstablish k g.fd
  · exact h

theorem Sealed.connect (h : Sealed c w) (k : Nat) (ip : Text) (port : BitVec 16)
    (sock : Option Nat) (outcome : ConnectOutcome) :
    Sealed c (w.connect k ip port sock outcome) := by
  have hw' := h.coherent.connect k ip port sock outcome
  unfold World.connect at hw' ⊢
  split
  · exact h
  · split
    · exact h.spares (h.coherent.setClient rfl fun _ _ => Or.inl) (.of_eq rfl rfl rfl rfl)
    · next fd =>
      have hdial := h.spares (h.coherent.dial k ip port fd) (spares_dial k ip port fd)
      simp only
      split
      · exact hdial.connEstablish k fd
      · split
        · exact hdial.spares (hdial.coherent.connecting k fd)
            (spares_connecting hdial.anchored k fd)
        · have hset : Coherent ((w.dial k ip port fd).setClient k
              { (w.dial k ip port fd).clients k with state := .disConnected }) :=
            hdial.coherent.setClient rfl fun _ _ => Or.inl
          exact hdial.spares (hset.quiet (World.quiet_closeFd _ fd))
            (.after (spares_closeFd fd) (.of_eq rfl rfl rfl rfl))

/-- A `clientSend` meets an open connection. -/
theorem spares_clientSend (h : Sealed c w) (k : Nat) (mem : Memory) (data len : SizeT)
    (out : WriteOutcome) : Spares c w (w.clientSend k mem data len out) := by
  unfold World.clientSend
  split
  · exact .refl w
  · next d hd =>
    refine spares_send h.anchored h.coherent mem data len out fun hdc hc => ?_
    exact absurd (hdc ▸ hc) (h.coherent.slot (.client k) d hd).2.2.1

theorem Sealed.readTest (h : Sealed c w) {env : Env} {ptr : HandlerPtr} {mask : EventMask}
    {rest : List Frame} (hst : w.stack = .handleEvent ptr mask .read :: rest)
    (hleave : LeavesClosed c w (.resume env)) :
    Sealed c ({ w with stack := .handleEvent ptr mask .write :: rest }.testEvent env ptr mask
      World.readBits Handler.readCallback) := by
  have h₁ : Sealed c { w with stack := .handleEvent ptr mask .write :: rest } :=
    h.spares (h.coherent.advance hst .write) (.of_eq rfl rfl rfl rfl)
  rcases h₁.coherent.read_cases env ptr mask rfl with
    ⟨_, heq⟩ | ⟨_, _, heq⟩ | ⟨d, hd, hbits, _, heq⟩ | ⟨s, _, _, _, heq⟩
  · rw [heq]
    exact h₁
  · rw [heq]
    exact h₁.fail _
  · rw [heq]
    subst hd
    refine h₁.tcpHandleRead fun hdc hc hlive => ?_
    have hlive' : w.live c = true :=
      (World.live_setStack (World.holds_advance hst .write c)).symm.trans hlive
    simp only [LeavesClosed, hst] at hleave
    have hnothing := hleave hdc hc hlive' hbits
    cases henv : env.read <;> rw [henv] at hnothing <;> exact hnothing
  · rw [heq]
    exact h₁.acceptorHandleRead s _

/-- A closed connection has no write interest, so `HandleWrite` leaves it alone. -/
theorem Sealed.writeTest (h : Sealed c w) {env : Env} {ptr : HandlerPtr} {mask : EventMask}
    {rest : List Frame} (hst : w.stack = .handleEvent ptr mask .write :: rest) :
    Sealed c ({ w with stack := .handleEvent ptr mask .error :: rest }.testEvent env ptr mask
      EPOLLOUT Handler.writeCallback) := by
  have h₁ : Sealed c { w with stack := .handleEvent ptr mask .error :: rest } :=
    h.spares (h.coherent.advance hst .error) (.of_eq rfl rfl rfl rfl)
  rcases h₁.coherent.write_cases env ptr mask rfl with
    ⟨_, heq⟩ | ⟨_, _, heq⟩ | ⟨d, _, _, _, heq⟩ | ⟨k, n, g, _, _, _, heq⟩
  · rw [heq]
    exact h₁
  · rw [heq]
    exact h₁.fail _
  · rw [heq]
    exact h₁.spares (h₁.coherent.quiet (World.quiet_tcpHandleWrite _ _ _ _))
      (spares_tcpHandleWrite h₁.anchored h₁.coherent (fun hc => (h₁.good.unregistered hc).1) _ _)
  · rw [heq]
    exact h₁.clientHandleWrite k _

/-- **One step** that leaves a closed connection alone keeps it closed for good. -/
theorem Sealed.next (h : Sealed c w) {l : Label} (hleave : LeavesClosed c w l)
    (hnext : w.next l = some w') : Sealed c w' := by
  have hw := h.coherent
  have hw' := hw.next hnext
  obtain ⟨_, hturn⟩ := World.next_turn hnext
  cases hturn with
  | poll hst => exact h.spares hw' (spares_push _)
  | loopEnd hst => exact h.spares hw' (.of_eq rfl rfl rfl rfl)
  | loopStale hst hptr => exact h.spares hw' (spares_fail _)
  | loopNext hst hptr => exact h.spares hw' (.of_eq rfl rfl rfl rfl)
  | readTest hst hadm => exact h.readTest hst hleave
  | writeTest hst hadm => exact h.writeTest hst
  | @errorTest env ptr mask rest hst =>
      have h₁ : Sealed c { w with stack := rest } :=
        h.spares (hw.pop hst) (.of_eq rfl rfl rfl rfl)
      rcases h₁.coherent.error_cases env ptr mask rfl with
        ⟨_, heq⟩ | ⟨_, _, heq⟩ | ⟨k, n, g, _, _, _, heq⟩
      · rw [heq]
        exact h₁
      · rw [heq] at hw' ⊢
        exact h₁.spares hw' (spares_fail _)
      · rw [heq] at hw' ⊢
        exact h₁.spares hw' (spares_clientHandleError h₁.anchored k)
  | @finishClose env d rest hst =>
      refine h.spares hw' ?_
      have hrel : Spares c { w with stack := rest } ({ w with stack := rest }.release d) :=
        spares_release d
      have hpop : Spares c w { w with stack := rest } := .of_eq rfl rfl rfl rfl
      unfold World.finishClose
      simp only
      split
      · exact (hpop.trans hrel).trans (spares_setConn (TcpConnection.parts_closeReturn _)
          fun _ _ => rfl)
      · exact (hpop.trans hrel).trans (spares_fail _)
  | connect hsock => exact h.connect _ _ _ _ _
  | disconnect => exact h.spares hw' (spares_disconnect h.anchored hw _ _)
  | clientSend hout => exact h.spares hw' (spares_clientSend h _ _ _ _ _)
  | setConnectionCallback => exact h.spares hw' (.of_eq rfl rfl rfl rfl)
  | setMessageCallback => exact h.spares hw' (.of_eq rfl rfl rfl rfl)
  | setDisconnectCallback => exact h.spares hw' (.of_eq rfl rfl rfl rfl)
  | serverStart hacc hfd => exact h.spares hw' (spares_serverStart h.anchored _ _)
  | serverSetConnCallback => exact h.spares hw' (.of_eq rfl rfl rfl rfl)
  | serverSetMessageCallback => exact h.spares hw' (.of_eq rfl rfl rfl rfl)
  | @send d mem data len out hacc hout =>
      refine h.spares hw' (spares_send h.anchored hw mem data len out fun hd hc => ?_)
      -- a closed connection is still registered nowhere: the `send` does nothing
      subst hd
      exact TcpConnection.send_of_sendsNothing hout (hleave rfl hc) mem data
  | shutDown hacc => exact h.spares hw' (spares_shutDown h.anchored hw _)
  | @close d hacc =>
      by_cases hd : d = c
      · subst hd
        exact h.close (hleave rfl) (Coherent.live_of_accessible hacc)
      · exact h.spares hw' (spares_close h.anchored hw hd)
  | retrieve hacc =>
      exact h.spares hw' (spares_setConn (TcpConnection.parts_retrieve _ _) fun _ _ => rfl)
  | retrieveAll hacc =>
      exact h.spares hw' (spares_setConn (TcpConnection.parts_retrieveAll _) fun _ _ => rfl)
  | keep hacc => exact h.spares hw' (.of_eq rfl rfl rfl rfl)
  | drop hkept => exact h.spares hw' (.after (spares_release _) (.of_eq rfl rfl rfl rfl))
  | retConnection hst => exact h.spares hw' (.after (spares_release _) (.of_eq rfl rfl rfl rfl))
  | retMessage hst => exact h.spares hw' (.after (spares_release _) (.of_eq rfl rfl rfl rfl))
  | retDisconnect hst => exact h.spares hw' (.of_eq rfl rfl rfl rfl)

/-- A traffic event on top of the log of a closed connection. -/
theorem not_good_of_traffic {e : Event} (hlog : w'.log = e :: w.log) (ht : e.isTraffic c = true)
    (hclosed : w.closed c) : ¬ ClosedForGood c w' := fun hgood =>
  hgood.silent e w.log (hlog ▸ List.suffix_refl _) ht hclosed

/-- **A message** on a closed connection. -/
theorem receive_again (hclosed : w.closed c) (hlive : w.live c = true)
    (hcb : (w.conns c).msgCallback = true) (bytes : List Byte) :
    ¬ ClosedForGood c (w.tcpHandleRead c (.data bytes)) := by
  refine not_good_of_traffic (e := .messageCallback c) ?_ (by simp [Event.isTraffic]) hclosed
  have hflag : ((w.setConn c ((w.conns c).receive bytes)).conns c).msgCallback = true := by
    simpa [World.setConn, TcpConnection.receive] using hcb
  unfold World.tcpHandleRead
  simp only [hlive, hflag, if_true]
  rfl

/-- **A `send`** on a closed connection writes, or registers the handler again. -/
theorem Sealed.send_again (h : Sealed c w) (hclosed : w.closed c) (hlive : w.live c = true)
    {mem : Memory} {data len : SizeT} {out : WriteOutcome} (hout : out.fits len.toNat)
    (hsends : ¬ (w.conns c).sendsNothing len out) :
    ¬ ClosedForGood c (w.send c mem data len out) := by
  have heq : w.send c mem data len out
      = w.connOp c ((w.conns c).send mem data len out) true := if_pos hlive
  rw [heq]
  rcases TcpConnection.send_of_not_sendsNothing (h.good.unregistered hclosed).1 hout hsends mem
    data with hevents | ⟨hcalls, hbytes⟩
  · -- the mask is not empty any more
    intro hgood
    have hq := World.quiet_connOp w true (TcpConnection.parts_send (w.conns c) mem data len out)
    have hmask := (hgood.unregistered ((hq.closed c).mpr hclosed)).1
    rw [World.conns_connOp, Function.update_self] at hmask
    exact hevents hmask
  · rw [hcalls]
    refine not_good_of_traffic (e := .wrote c _) rfl ?_ hclosed
    simpa only [Event.isTraffic, beq_self_eq_true, Bool.true_and, bne_iff_ne] using hbytes

/-- A `HandleRead` of a closed connection closes it again or passes a message on. -/
theorem Sealed.lost_readTest (h : Sealed c w) {env : Env} {ptr : HandlerPtr} {mask : EventMask}
    {rest : List Frame} (hst : w.stack = .handleEvent ptr mask .read :: rest)
    (hleave : ¬ LeavesClosed c w (.resume env)) :
    ¬ ClosedForGood c ({ w with stack := .handleEvent ptr mask .write :: rest }.testEvent env ptr
      mask World.readBits Handler.readCallback) := by
  cases ptr with
  | connecting k n => exact absurd (by simp only [LeavesClosed, hst]) hleave
  | acceptor s => exact absurd (by simp only [LeavesClosed, hst]) hleave
  | conn d =>
      simp only [LeavesClosed, hst, Classical.not_imp] at hleave
      obtain ⟨rfl, hclosed, hlive, hbits, hreads⟩ := hleave
      have h₁ : Sealed d { w with stack := .handleEvent (.conn d) mask .write :: rest } :=
        h.spares (h.coherent.advance hst .write) (.of_eq rfl rfl rfl rfl)
      have hlive₁ : World.live { w with stack := .handleEvent (.conn d) mask .write :: rest } d
          = true := (World.live_setStack (World.holds_advance hst .write d)).trans hlive
      have hclosed₁ : World.closed
          { w with stack := .handleEvent (.conn d) mask .write :: rest } d := hclosed
      rcases h₁.coherent.read_cases env (.conn d) mask rfl with
        ⟨hno, _⟩ | ⟨_, hptr, _⟩ | ⟨e, he, _, _, heq⟩ | ⟨s, hs, _⟩
      · rcases hno with hno | hno
        · exact absurd (hno.symm.trans hbits) (by simp)
        · exact absurd hno (by simp)
      · rw [World.handler?, if_pos hlive₁] at hptr
        exact absurd hptr (by simp)
      · obtain rfl := HandlerPtr.conn.inj he
        rw [heq]
        cases hread : env.read with
        | failed errno =>
            rw [hread] at hreads
            exact absurd trivial hreads
        -- `HandleRead` calls `Close` again
        | eof =>
            have hclose : World.tcpHandleRead { w with
                stack := .handleEvent (.conn d) mask .write :: rest } d .eof
                = World.close { w with
                  stack := .handleEvent (.conn d) mask .write :: rest } d := if_pos hlive₁
            rw [hclose]
            exact h₁.close_again hclosed₁ hlive₁
        | data bytes =>
            rw [hread] at hreads
            have hcb : (w.conns d).msgCallback = true := by
              simpa [World.readsNothing] using hreads
            exact receive_again hclosed₁ hlive₁ hcb bytes
      · exact absurd hs (by simp)

/-- **One step** that does not leave a closed connection alone shows. -/
theorem Sealed.lost (h : Sealed c w) {l : Label} (hleave : ¬ LeavesClosed c w l)
    (hnext : w.next l = some w') : ¬ ClosedForGood c w' := by
  obtain ⟨_, hturn⟩ := World.next_turn hnext
  cases hturn with
  | loopEnd hst => exact absurd (by simp only [LeavesClosed, hst]) hleave
  | loopStale hst hptr => exact absurd (by simp only [LeavesClosed, hst]) hleave
  | loopNext hst hptr => exact absurd (by simp only [LeavesClosed, hst]) hleave
  | writeTest hst hadm => exact absurd (by simp only [LeavesClosed, hst]) hleave
  | errorTest hst => exact absurd (by simp only [LeavesClosed, hst]) hleave
  | finishClose hst => exact absurd (by simp only [LeavesClosed, hst]) hleave
  | @send d mem data len out hacc hout =>
      simp only [LeavesClosed, Classical.not_imp] at hleave
      obtain ⟨rfl, hclosed, hsends⟩ := hleave
      exact h.send_again hclosed (Coherent.live_of_accessible hacc) hout hsends
  | @close d hacc =>
      simp only [LeavesClosed, Classical.not_imp, not_not] at hleave
      obtain ⟨rfl, hclosed⟩ := hleave
      exact h.close_again hclosed (Coherent.live_of_accessible hacc)
  | readTest hst hadm => exact h.lost_readTest hst hleave
  | _ => exact absurd trivial hleave

end Spares

/-! ## §9. Whole runs. -/

/-- **When closing is final.**  Throughout a run the following hold of a
connection, if and only if no step of the run enters a second `Close` on it,
reads the peer's FIN or a message from it, or sends anything on it, after its
`Close` has been entered and (for `send`) before `Close` has stored
DIS_CONNECTED: once `Close` has been entered the handler is out of the poller,
no message callback is called, no byte is written and the close callback has
been called exactly once; and the connection callback precedes every message
callback. -/
theorem closed_for_good_iff (c : Nat) (labels : List Label) (t : World)
    (hrun : exec World.next World.init labels = some t) :
    Always World.next (ClosedForGood c) World.init labels ↔
      Along World.next (LeavesClosed c) World.init labels :=
  always_iff_along (I := Sealed c) (D := fun _ _ => True) (fun _ h => h.good)
    (fun _ _ _ h _ hleave hnext => h.next hleave hnext)
    (fun _ _ _ h _ hleave hnext => h.lost hleave hnext)
    (sealed_init c) (Along.of_forall (fun _ _ => trivial) _) hrun

/-- The theorem on a client's connection that its peer closes, with a `send` on
a kept pointer after `Close` has returned. -/
theorem closed_for_good_on_run :
    (exec World.next World.init
        [.user (.setConnectionCallback 0 true), .user (.connect 0 [] 80 (some 5) .ok),
         .user (.keep 0), .ret, .poll [(5, EPOLLIN)], .resume .idle,
         .resume { Env.idle with read := .eof }, .resume .idle, .resume .idle, .resume .idle,
         .user (.send 0 (fun _ => 0) 0 3 (.accepted 3))]).isSome = true
      ∧ Always World.next (ClosedForGood 0) World.init
        [.user (.setConnectionCallback 0 true), .user (.connect 0 [] 80 (some 5) .ok),
         .user (.keep 0), .ret, .poll [(5, EPOLLIN)], .resume .idle,
         .resume { Env.idle with read := .eof }, .resume .idle, .resume .idle, .resume .idle,
         .user (.send 0 (fun _ => 0) 0 3 (.accepted 3))] := by
  have h : (exec World.next World.init
      [.user (.setConnectionCallback 0 true), .user (.connect 0 [] 80 (some 5) .ok),
       .user (.keep 0), .ret, .poll [(5, EPOLLIN)], .resume .idle,
       .resume { Env.idle with read := .eof }, .resume .idle, .resume .idle, .resume .idle,
       .user (.send 0 (fun _ => 0) 0 3 (.accepted 3))]).isSome = true := by
    decide +kernel
  obtain ⟨t, hrun⟩ := Option.isSome_iff_exists.mp h
  exact ⟨h, (closed_for_good_iff 0 _ t hrun).mpr (by decide +kernel)⟩

/-- **A `send` from the disconnect callback**, on a pointer the application
kept: `_state` is still CONNECTED, so the guard of `send` lets it through, and
the rest of a partial write enables writing again. -/
theorem send_revives_closed_connection :
    ∃ t, exec World.next World.init
        [.user (.setConnectionCallback 0 true), .user (.setDisconnectCallback 0 true),
         .user (.connect 0 [] 80 (some 5) .ok), .user (.keep 0), .ret, .poll [(5, EPOLLIN)],
         .resume .idle, .resume { Env.idle with read := .eof },
         .user (.send 0 (fun _ => 0) 0 3 (.accepted 1))] = some t
      ∧ ¬ ClosedForGood 0 t := by
  have h : (exec World.next World.init
      [.user (.setConnectionCallback 0 true), .user (.setDisconnectCallback 0 true),
       .user (.connect 0 [] 80 (some 5) .ok), .user (.keep 0), .ret, .poll [(5, EPOLLIN)],
       .resume .idle, .resume { Env.idle with read := .eof },
       .user (.send 0 (fun _ => 0) 0 3 (.accepted 1))]).map
        (fun t => (decide (t.closed 0), (t.conns 0).handler.events)) = some (true, EPOLLOUT) := by
    decide +kernel
  obtain ⟨t, hrun, ht⟩ := Option.map_eq_some_iff.mp h
  refine ⟨t, hrun, fun hgood => ?_⟩
  obtain ⟨hclosed, hevents⟩ := Prod.mk.inj ht
  have hmask := (hgood.unregistered (of_decide_eq_true hclosed)).1
  exact absurd (hmask.symm.trans hevents) (by decide)

end SparkNet
