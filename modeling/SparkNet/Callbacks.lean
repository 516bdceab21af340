/-
  SparkNet.Callbacks — which of the user's callbacks a connection gets to call.

  A connection copies the callbacks of its owner when it is made and never again.
  `Connect` makes it at once when `connect()` succeeds at once, and `HandleWrite`
  makes it later when the attempt is deferred; setters called in between reach
  the second and not the first.

  Main results:
    * `KeepsCallbacks.next` — after it is made, no step changes a connection's
      callbacks or calls its connection callback;
    * `immediate_and_deferred_disagree` — the two ways in the order of the Echo
      sample.
-/
import SparkNet.Deregistration

namespace SparkNet

open Runs

/-! ## §1. What a connection keeps. -/

/-- The callbacks of a client, as flags. -/
def TCPClient.callbacks (x : TCPClient) : Bool × Bool × Bool :=
  (x.newConnCallback, x.msgCallback, x.disConnectCallback)

/-- The clients a label sets a callback of. -/
def Label.sets : Label → Nat → Bool
  | .user (.setConnectionCallback k _), k' => k' == k
  | .user (.setMessageCallback k _), k' => k' == k
  | .user (.setDisconnectCallback k _), k' => k' == k
  | _, _ => false

namespace World

/-- How often the user's connection callback was called for a connection. -/
def heard (w : World) (c : Nat) : Nat := w.log.count (.connectionCallback c)

/-- The step reads `bytes` on connection `c`. -/
def reads (w : World) (c : Nat) (bytes : List Byte) : Label → Prop
  | .resume env =>
      match w.stack with
      | .handleEvent (.conn d) mask .read :: _ =>
          d = c ∧ mask.has readBits = true ∧ w.live c = true ∧ env.read = .data bytes
      | _ => False
  | _ => False

theorem heard_emit {w : World} {c : Nat} {e : Event} (he : e ≠ .connectionCallback c) :
    (w.emit e).heard c = w.heard c := List.count_cons_of_ne he

theorem heard_eq_story (w : World) (c : Nat) :
    w.heard c = w.story.count (.connectionCallback c) := by
  unfold heard story
  exact (List.count_filter rfl).symm

end World

/-- From `w` to `w'` the connection keeps the callbacks it was made with and its
connection callback is not called; clients outside `K` keep theirs. -/
structure KeepsCallbacks (K : Nat → Bool) (c : Nat) (w w' : World) : Prop where
  parts : (w'.conns c).parts = (w.conns c).parts
  heard : w'.heard c = w.heard c
  callbacks : ∀ k, K k = false → (w'.clients k).callbacks = (w.clients k).callbacks
  count : w.connCount ≤ w'.connCount

namespace KeepsCallbacks

variable {K : Nat → Bool} {c : Nat} {w w' w'' : World}

theorem trans (h : KeepsCallbacks K c w w') (h' : KeepsCallbacks K c w' w'') :
    KeepsCallbacks K c w w'' where
  parts := h'.parts.trans h.parts
  heard := h'.heard.trans h.heard
  callbacks k hk := (h'.callbacks k hk).trans (h.callbacks k hk)
  count := Nat.le_trans h.count h'.count

theorem refl (w : World) : KeepsCallbacks K c w w := ⟨rfl, rfl, fun _ _ => rfl, Nat.le_refl _⟩

theorem quiet (hq : World.Quiet w w') : KeepsCallbacks K c w w' where
  parts := hq.parts c
  heard := by rw [World.heard_eq_story, hq.story, ← World.heard_eq_story]
  callbacks k _ := by rw [hq.clients]
  count := Nat.le_of_eq hq.connCount.symm

/-- A quiet end of a step. -/
theorem ends (hq : World.Quiet w' w'') (h : KeepsCallbacks K c w w') : KeepsCallbacks K c w w'' :=
  h.trans (.quiet hq)

theorem emit {e : Event} (he : e ≠ .connectionCallback c) : KeepsCallbacks K c w (w.emit e) :=
  ⟨rfl, World.heard_emit he, fun _ _ => rfl, Nat.le_refl _⟩

theorem push (f : Frame) : KeepsCallbacks K c w (w.push f) :=
  ⟨rfl, rfl, fun _ _ => rfl, Nat.le_refl _⟩

theorem setStack (w : World) (st : List Frame) : KeepsCallbacks K c w { w with stack := st } :=
  ⟨rfl, rfl, fun _ _ => rfl, Nat.le_refl _⟩

/-- A client changes, its callbacks only where they may. -/
theorem setClient {k : Nat} {x : TCPClient}
    (hx : K k = false → x.callbacks = (w.clients k).callbacks) :
    KeepsCallbacks K c w (w.setClient k x) := by
  refine ⟨rfl, rfl, fun k' hk' => ?_, Nat.le_refl _⟩
  by_cases hk : k' = k
  · subst hk
    simpa [World.setClient] using hx hk'
  · simp [World.setClient, hk]

theorem letGo (o : Option Nat) : KeepsCallbacks K c w (w.letGo o) := by
  cases o with
  | none => exact refl w
  | some o => exact .ends (World.quiet_release _ o) (emit (by simp))

theorem runDisconnectCallback (k : Nat) : KeepsCallbacks K c w (w.runDisconnectCallback k) := by
  unfold World.runDisconnectCallback
  split
  · exact (emit (by simp)).trans (push _)
  · exact refl w

/-- Another connection starts. -/
theorem start {d : Nat} (hd : d ≠ c) : KeepsCallbacks K c w (w.start d) := by
  have hop : KeepsCallbacks K c w (w.connOp d (w.conns d).start true) :=
    .quiet (World.quiet_connOp w true (TcpConnection.parts_start _))
  unfold World.start
  simp only
  split
  · exact (hop.trans (emit (by simp [hd]))).trans (push _)
  · exact hop

theorem newConn (hc : c ≠ w.connCount) (name : Text) (fd : Nat) (addr : InetAdress)
    (owner : CloseCallback) (a b : Bool) :
    KeepsCallbacks K c w (w.newConn name fd addr owner a b) := by
  refine ⟨?_, rfl, fun _ _ => rfl, Nat.le_succ _⟩
  simp [World.newConn, Function.update_of_ne hc]

theorem connEstablish (hc : c ≠ w.connCount) (k fd : Nat) :
    KeepsCallbacks K c w (w.connEstablish k fd) := by
  have hstore : KeepsCallbacks K c w (w.storeClientConn k fd) :=
    (newConn hc _ fd _ _ _ _).trans (setClient fun _ => rfl)
  unfold World.connEstablish
  exact (hstore.trans (letGo _)).trans (start (Ne.symm hc))

theorem onNewConnect (hc : c ≠ w.connCount) (s fd : Nat) (addr : InetAdress) :
    KeepsCallbacks K c w (w.onNewConnect s fd addr) := by
  have hstore : KeepsCallbacks K c w (w.storeServerConn s fd addr) :=
    (newConn hc _ fd addr _ _ _).trans ⟨rfl, rfl, fun _ _ => rfl, Nat.le_refl _⟩
  unfold World.onNewConnect
  exact (hstore.trans (letGo _)).trans (start (Ne.symm hc))

theorem acceptorHandleRead (hc : c ≠ w.connCount) (s : Nat) (accept : AcceptOutcome) :
    KeepsCallbacks K c w (w.acceptorHandleRead s accept) := by
  unfold World.acceptorHandleRead
  split
  next fd addr =>
    have hopen : KeepsCallbacks K c w { w with fds := Function.update w.fds fd true } :=
      .quiet World.Quiet.of_machine
    exact hopen.trans
      (onNewConnect (w := { w with fds := Function.update w.fds fd true }) hc s fd _)
  next => exact refl w

theorem connecting (k fd : Nat) : KeepsCallbacks K c w (w.connecting k fd) := by
  refine ⟨?_, ?_, fun k' _ => ?_, ?_⟩
  · unfold World.connecting
    simp only
    rw [(World.quiet_update _ _ _).parts]
    split <;> rfl
  · rw [World.heard_eq_story, World.story_connecting, ← World.heard_eq_story]
  · rw [World.clients_connecting]
    by_cases hk : k' = k
    · subst hk
      rw [Function.update_self]
      rfl
    · rw [Function.update_of_ne hk]
  · unfold World.connecting
    simp only
    rw [(World.quiet_update _ _ _).connCount]
    split <;> exact Nat.le_refl w.connCount

theorem dropConnHandler (k n : Nat) (g : Handler HandlerCallback) :
    KeepsCallbacks K c w (w.dropConnHandler k n g) := by
  refine ⟨(World.quiet_update w _ _).parts c, ?_, fun k' _ => ?_,
    Nat.le_of_eq (World.quiet_update w _ _).connCount.symm⟩
  · rw [World.heard_eq_story, World.story_dropConnHandler, ← World.heard_eq_story]
  · rw [World.clients_dropConnHandler]
    by_cases hk : k' = k
    · subst hk
      rw [Function.update_self]
      rfl
    · rw [Function.update_of_ne hk]

theorem clientHandleError (k : Nat) : KeepsCallbacks K c w (w.clientHandleError k) := by
  unfold World.clientHandleError
  split
  · split
    · exact quiet (World.quiet_fail w _)
    next n g _ =>
      exact (ends (World.quiet_closeFd _ _) (dropConnHandler k n g)).trans
        (runDisconnectCallback k)
  · exact refl w

theorem clientHandleWrite (hc : c ≠ w.connCount) (k err : Nat) :
    KeepsCallbacks K c w (w.clientHandleWrite k err) := by
  unfold World.clientHandleWrite
  split
  · split
    · exact quiet (World.quiet_fail w _)
    next n g _ =>
      have hdrop := dropConnHandler (K := K) (c := c) (w := w) k n g
      have hcount : (w.dropConnHandler k n g).connCount = w.connCount := by
        unfold World.dropConnHandler
        exact (World.quiet_update w _ _).connCount
      simp only
      split
      · exact hdrop.trans (runDisconnectCallback k)
      · exact hdrop.trans (connEstablish (by rw [hcount]; exact hc) k g.fd)
  · exact refl w

theorem connect (hc : c ≠ w.connCount) (k : Nat) (ip : Text) (port : BitVec 16)
    (sock : Option Nat) (outcome : ConnectOutcome) :
    KeepsCallbacks K c w (w.connect k ip port sock outcome) := by
  unfold World.connect
  split
  · exact refl w
  · cases sock with
    | none => exact setClient fun _ => rfl
    | some fd =>
        have haddr : KeepsCallbacks K c w (w.storeAddr k ip port) := setClient fun _ => rfl
        have hdial : KeepsCallbacks K c w (w.dial k ip port fd) :=
          ⟨haddr.parts, World.heard_emit (w := w) (by simp), haddr.callbacks, Nat.le_refl _⟩
        simp only
        split
        · exact hdial.trans (connEstablish (w := w.dial k ip port fd) hc k fd)
        · split
          · exact hdial.trans (connecting k fd)
          · exact hdial.trans (ends (World.quiet_closeFd _ fd) (setClient fun _ => rfl))

theorem disconnect (k : Nat) (ok : Bool) : KeepsCallbacks K c w (w.disconnect k ok) := by
  unfold World.disconnect
  simp only
  split
  · exact ends (World.quiet_fail _ _) (setClient fun _ => rfl)
  · exact ends (World.quiet_shutDown _ _ _) (setClient fun _ => rfl)

/-- `Close`, of this connection or another, calls the close callback only. -/
theorem close (hw : Coherent w) (d : Nat) : KeepsCallbacks K c w (w.close d) := by
  have henter : KeepsCallbacks K c w (w.enterClose d) :=
    ((emit (by simp)).trans (push _)).trans (emit (by simp))
  by_cases hlive : w.live d = true
  · obtain ⟨_, _, _, hslot⟩ := hw.conn d (hw.known_of_live hlive)
    rcases World.close_cases hlive hslot with ⟨s, _, hq⟩ | ⟨k, _, _, hq⟩ | ⟨_, _, _, hq⟩
    · refine .ends hq (henter.trans ⟨rfl, ?_, fun _ _ => rfl, Nat.le_refl _⟩)
      have hlost : ∀ lost : Option Nat,
          ((lost.map Event.displaced).toList ++ (w.enterClose d).log).count (.connectionCallback c)
            = (w.enterClose d).heard c := by
        intro lost
        cases lost with
        | none => rfl
        | some o => exact List.count_cons_of_ne (by simp)
      exact hlost _
    · have hset : KeepsCallbacks K c (w.enterClose d)
          ((w.enterClose d).setClient k { w.clients k with conn := none }) := setClient fun _ => rfl
      exact .ends hq ((henter.trans hset).trans (runDisconnectCallback k))
    · exact .ends hq henter
  · have hfail : w.close d = w.fail .useAfterFree := by
      unfold World.close
      rw [if_neg hlive]
    rw [hfail]
    exact quiet (World.quiet_fail w _)

theorem tcpHandleRead (hw : Coherent w) (d : Nat) (r : ReadOutcome) :
    KeepsCallbacks K c w (w.tcpHandleRead d r) := by
  unfold World.tcpHandleRead
  split
  · cases r with
    | failed errno => exact refl w
    | eof => exact close hw d
    | data bytes =>
        have hq := World.quiet_setConn w (TcpConnection.parts_receive (w.conns d) bytes)
        simp only
        split
        · exact ((quiet hq).trans (emit (by simp))).trans (push _)
        · exact (quiet hq).trans (quiet (World.quiet_fail _ _))
  · exact quiet (World.quiet_fail w _)

end KeepsCallbacks

/-! ## §2. One step. -/

/-- **One step** leaves a connection the callbacks it was made with and calls its
connection callback only if it makes it; a client's callbacks change by setters. -/
theorem KeepsCallbacks.next {c : Nat} {w w' : World} {l : Label} (hw : Coherent w)
    (hc : c ≠ w.connCount) (hnext : w.next l = some w') : KeepsCallbacks l.sets c w w' := by
  obtain ⟨_, hturn⟩ := World.next_turn hnext
  cases hturn with
  | poll hst => exact push _
  | loopEnd hst => exact setStack w _
  | loopStale hst hptr => exact .quiet (World.quiet_fail w _)
  | loopNext hst hptr => exact setStack w _
  | @readTest env ptr mask rest hst hadm =>
      refine (setStack w (.handleEvent ptr mask .write :: rest)).trans ?_
      have hw₁ := hw.advance hst .write
      rcases hw₁.read_cases env ptr mask rfl with
        ⟨_, heq⟩ | ⟨_, _, heq⟩ | ⟨d, _, _, _, heq⟩ | ⟨s, _, _, _, heq⟩
      · rw [heq]
        exact .refl _
      · rw [heq]
        exact .quiet (World.quiet_fail _ _)
      · rw [heq]
        exact .tcpHandleRead hw₁ d _
      · rw [heq]
        exact .acceptorHandleRead (w := { w with stack := .handleEvent ptr mask .write :: rest })
          hc s _
  | @writeTest env ptr mask rest hst hadm =>
      refine (setStack w (.handleEvent ptr mask .error :: rest)).trans ?_
      rcases (hw.advance hst .error).write_cases env ptr mask rfl with
        ⟨_, heq⟩ | ⟨_, _, heq⟩ | ⟨d, _, _, _, heq⟩ | ⟨k, _, _, _, _, _, heq⟩
      · rw [heq]
        exact .refl _
      · rw [heq]
        exact .quiet (World.quiet_fail _ _)
      · rw [heq]
        exact .quiet (World.quiet_tcpHandleWrite _ _ _ _)
      · rw [heq]
        exact .clientHandleWrite (w := { w with stack := .handleEvent ptr mask .error :: rest })
          hc k _
  | @errorTest env ptr mask rest hst =>
      refine (setStack w rest).trans ?_
      rcases (hw.pop hst).error_cases env ptr mask rfl with
        ⟨_, heq⟩ | ⟨_, _, heq⟩ | ⟨k, _, _, _, _, _, heq⟩
      · rw [heq]
        exact .refl _
      · rw [heq]
        exact .quiet (World.quiet_fail _ _)
      · rw [heq]
        exact .clientHandleError k
  | @finishClose env d rest hst =>
      refine (setStack w rest).trans ?_
      exact .quiet ((World.quiet_release _ d).trans (World.quiet_finishClose _ d))
  | connect hsock => exact .connect hc _ _ _ _ _
  | disconnect => exact .disconnect _ _
  | clientSend hout => exact .quiet (World.quiet_clientSend w _ _ _ _ _)
  | setConnectionCallback => exact setClient fun hk => absurd hk (by simp [Label.sets])
  | setMessageCallback => exact setClient fun hk => absurd hk (by simp [Label.sets])
  | setDisconnectCallback => exact setClient fun hk => absurd hk (by simp [Label.sets])
  | serverStart hacc hfd =>
      unfold World.serverStart
      exact .ends (World.quiet_update _ _ _) ⟨rfl, rfl, fun _ _ => rfl, Nat.le_refl _⟩
  | serverSetConnCallback => exact ⟨rfl, rfl, fun _ _ => rfl, Nat.le_refl _⟩
  | serverSetMessageCallback => exact ⟨rfl, rfl, fun _ _ => rfl, Nat.le_refl _⟩
  | send hacc hout => exact .quiet (World.quiet_send _ _ _ _ _ _)
  | shutDown hacc => exact .quiet (World.quiet_shutDown _ _ _)
  | close hacc => exact .close hw _
  | retrieve hacc => exact .quiet (World.quiet_setConn _ (TcpConnection.parts_retrieve _ _))
  | retrieveAll hacc => exact .quiet (World.quiet_setConn _ (TcpConnection.parts_retrieveAll _))
  | keep hacc => exact ⟨rfl, rfl, fun _ _ => rfl, Nat.le_refl _⟩
  | drop hkept => exact .ends (World.quiet_release _ _) ⟨rfl, rfl, fun _ _ => rfl, Nat.le_refl _⟩
  | @retConnection d rest hst => exact .ends (World.quiet_release _ _) (setStack w rest)
  | @retMessage d rest hst => exact .ends (World.quiet_release _ _) (setStack w rest)
  | retDisconnect hst => exact setStack w _

/-! ## §3. A connection of a client. -/

/-- The connection was made with a connection callback set or not (`a`), which was
called if so, and a message callback set or not (`b`). -/
structure Answers (a b : Bool) (c : Nat) (w : World) : Prop where
  known : c < w.connCount
  msgCallback : (w.conns c).msgCallback = b
  heard : w.heard c = if a then 1 else 0

namespace Answers

variable {a b : Bool} {c : Nat} {w w' : World}

theorem keeps {K : Nat → Bool} (h : Answers a b c w) (hk : KeepsCallbacks K c w w') :
    Answers a b c w' where
  known := Nat.lt_of_lt_of_le h.known hk.count
  msgCallback := (congrArg ConnParts.msgCallback hk.parts).trans h.msgCallback
  heard := hk.heard.trans h.heard

/-- Over a whole run. -/
theorem exec {labels : List Label} (h : Answers a b c w) (hw : Coherent w)
    (hrun : exec World.next w labels = some w') : Answers a b c w' := by
  refine (exec_invariant (I := fun v => Coherent v ∧ Answers a b c v) ?_ ⟨hw, h⟩ hrun).2
  intro v l v' ⟨hv, hans⟩ hnext
  exact ⟨hv.next hnext, hans.keeps (KeepsCallbacks.next hv (Nat.ne_of_lt hans.known) hnext)⟩

/-- `ConnEstablish` copies the client's callbacks and calls the first. -/
theorem connEstablish (hw : Coherent w) (k fd : Nat) :
    Answers (w.clients k).newConnCallback (w.clients k).msgCallback w.connCount
      (w.connEstablish k fd) := by
  have hfresh : w.heard w.connCount = 0 := by
    refine List.count_eq_zero.mpr fun hmem => ?_
    exact absurd (hw.log _ hmem w.connCount (by simp [Event.mentions])) (Nat.lt_irrefl _)
  -- the object as `make_shared` and the setters leave it
  have hstore : Answers false (w.clients k).msgCallback w.connCount (w.storeClientConn k fd) :=
    ⟨Nat.lt_succ_self _, by simp [World.storeClientConn, World.newConn, World.setClient], hfresh⟩
  have hflag : ((w.storeClientConn k fd).conns w.connCount).connCallback
      = (w.clients k).newConnCallback := by
    simp [World.storeClientConn, World.newConn, World.setClient]
  have hlet := KeepsCallbacks.letGo (K := fun _ => false) (c := w.connCount)
    (w := w.storeClientConn k fd) (w.clients k).conn
  unfold World.connEstablish World.start
  generalize hv : (w.storeClientConn k fd).letGo (w.clients k).conn = v at hlet
  have hop : KeepsCallbacks (fun _ => false) w.connCount v
      (v.connOp w.connCount (v.conns w.connCount).start true) :=
    .quiet (World.quiet_connOp v true (TcpConnection.parts_start _))
  have hset : ((v.connOp w.connCount (v.conns w.connCount).start true).conns
      w.connCount).connCallback = (w.clients k).newConnCallback :=
    (congrArg ConnParts.connCallback ((hlet.trans hop).parts)).trans hflag
  have hquiet := hstore.keeps (hlet.trans hop)
  simp only [hset]
  cases hcb : (w.clients k).newConnCallback with
  | false => exact hquiet
  | true =>
      refine ⟨hquiet.known, hquiet.msgCallback, ?_⟩
      have hzero := hquiet.heard
      show List.count _ (_ :: _) = 1
      rw [List.count_cons_self]
      exact congrArg (· + 1) hzero

/-- The step that runs `ConnEstablish`, from `Connect` or from `HandleWrite`. -/
theorem of_establishes {l : Label} {k : Nat} (hw : Coherent w) (hest : w.establishes l = some k)
    (hnext : w.next l = some w') :
    Answers (w.clients k).newConnCallback (w.clients k).msgCallback w.connCount w' := by
  obtain ⟨_, hturn⟩ := World.next_turn hnext
  cases hturn with
  | @connect k' ip port sock outcome hsock =>
      cases sock with
      | none => exact absurd hest (by simp [World.establishes])
      | some fd =>
          cases outcome with
          | failed errno => exact absurd hest (by simp [World.establishes])
          | ok =>
              simp only [World.establishes, Option.ite_none_right_eq_some,
                Option.some.injEq] at hest
              obtain ⟨hstate, rfl⟩ := hest
              unfold World.connect
              simp only [hstate, ne_eq, not_true_eq_false, if_false]
              have h := connEstablish (hw.dial k' ip port fd) k' fd
              rw [World.clients_dial] at h
              exact h
  | @writeTest env ptr mask rest hst hadm =>
      cases ptr with
      | conn d => exact absurd hest (by simp [World.establishes, hst])
      | acceptor s => exact absurd hest (by simp [World.establishes, hst])
      | connecting k' n =>
          simp only [World.establishes, hst, Option.ite_none_right_eq_some,
            Option.some.injEq] at hest
          obtain ⟨⟨hbits, herr, hstate, hn⟩, rfl⟩ := hest
          obtain ⟨⟨m, g⟩, hg, rfl⟩ := Option.map_eq_some_iff.mp hn
          obtain ⟨_, _, hcallback, _⟩ := hw.connHandler k' m g hg
          have hptr : World.handler?
              { w with stack := .handleEvent (.connecting k' m) mask .error :: rest }
              (.connecting k' m) = some g := World.handler?_connecting.mpr hg
          rw [World.testEvent_eq hbits hptr hcallback]
          show Answers _ _ _ (World.clientHandleWrite _ k' env.soError)
          have hdrop := (hw.advance hst .error).dropConnHandler k' m g
          have h := connEstablish hdrop k' g.fd
          rw [World.clients_dropConnHandler, Function.update_self] at h
          unfold World.clientHandleWrite
          simp only [hstate, if_true, hg, herr, ne_eq, not_true_eq_false, if_false]
          have hcount : World.connCount (World.dropConnHandler
              { w with stack := .handleEvent (.connecting k' m) mask .error :: rest } k' m g)
              = w.connCount := by
            unfold World.dropConnHandler
            exact (World.quiet_update _ _ _).connCount
          rw [hcount] at h
          exact h
  | _ => exact absurd hest (by simp [World.establishes, *])

end Answers

/-- Data read on a connection goes to its message callback, called without a test. -/
theorem World.reads_next {w w' : World} {l : Label} {c : Nat} {bytes : List Byte}
    (hw : Coherent w) (hreads : w.reads c bytes l) (hnext : w.next l = some w') :
    if (w.conns c).msgCallback then
      w'.log.head? = some (.messageCallback c) ∧ w'.fault = none
    else w'.fault = some .badFunctionCall := by
  obtain ⟨hfault, hturn⟩ := World.next_turn hnext
  cases hturn with
  | @readTest env ptr mask rest hst hadm =>
      cases ptr with
      | connecting k n => exact absurd hreads (by simp [World.reads, hst])
      | acceptor s => exact absurd hreads (by simp [World.reads, hst])
      | conn d =>
          simp only [World.reads, hst] at hreads
          obtain ⟨rfl, hbits, hlive, hdata⟩ := hreads
          have hlive₁ := (World.live_setStack (World.holds_advance hst .write d)).trans hlive
          rw [World.testEvent_eq hbits (World.handler?_conn.mpr ⟨hlive₁, rfl⟩)
            (hw.conn d (hw.known_of_live hlive)).1]
          show if _ then (World.tcpHandleRead _ d env.read).log.head? = _ ∧ _ else _
          have hmsg : (World.conns (World.setConn
              { w with stack := .handleEvent (.conn d) mask .write :: rest } d
              ((w.conns d).receive bytes)) d).msgCallback = (w.conns d).msgCallback :=
            congrArg ConnParts.msgCallback ((World.quiet_setConn
              { w with stack := .handleEvent (.conn d) mask .write :: rest }
              (TcpConnection.parts_receive (w.conns d) bytes)).parts d)
          unfold World.runCallback World.tcpHandleRead
          simp only [hlive₁, if_true, hdata, hmsg]
          cases hset : (w.conns d).msgCallback with
          | true => exact ⟨rfl, hfault⟩
          | false =>
              show w.fault.or _ = _
              rw [hfault]
              rfl
  | _ => exact absurd hreads (by simp [World.reads, *])

/-! ## §4. The order of the Echo sample. -/

/-- `Connect`, then the three setters, before the loop is entered. -/
def echoOrder (k : Nat) (ip : Text) (port : BitVec 16) (fd : Nat) (outcome : ConnectOutcome) :
    List Label :=
  [.user (.connect k ip port (some fd) outcome), .user (.setConnectionCallback k true),
   .user (.setMessageCallback k true), .user (.setDisconnectCallback k true)]

/-- The user's connection callback was called once for the connection, and data
read on it from here goes to the user's message callback. -/
structure Served (c : Nat) (t : World) : Prop where
  connection : t.heard c = 1
  message : ∀ l bytes t', t.reads c bytes l → t.next l = some t' →
    t'.log.head? = some (.messageCallback c) ∧ t'.fault = none

/-- The setters set the callbacks of the client. -/
theorem World.callbacks_echoOrder {w t : World} {k : Nat} {ip : Text} {port : BitVec 16} {fd : Nat}
    {outcome : ConnectOutcome}
    (hrun : exec World.next w (echoOrder k ip port fd outcome) = some t) :
    (t.clients k).callbacks = (true, true, true) := by
  obtain ⟨w₁, _, hrun⟩ := exec_cons_eq_some.mp hrun
  obtain ⟨w₂, hconn, hrun⟩ := exec_cons_eq_some.mp hrun
  obtain ⟨w₃, hmsg, hrun⟩ := exec_cons_eq_some.mp hrun
  obtain ⟨w₄, hdis, hrun⟩ := exec_cons_eq_some.mp hrun
  cases (World.next_turn hconn).2
  cases (World.next_turn hmsg).2
  cases (World.next_turn hdis).2
  cases hrun
  simp [TCPClient.callbacks, World.setFlags, World.setClient]

/-- Clients nobody sets keep their callbacks over a whole run. -/
theorem World.callbacks_exec {w t : World} {k : Nat} {labels : List Label} (hw : Coherent w)
    (hsets : ∀ l ∈ labels, l.sets k = false) (hrun : exec World.next w labels = some t) :
    (t.clients k).callbacks = (w.clients k).callbacks := by
  refine (exec_invariant_along (I := fun v => Coherent v
    ∧ (v.clients k).callbacks = (w.clients k).callbacks) ?_ ⟨hw, rfl⟩
    (Along.of_forall hsets w) hrun).2
  intro v l v' ⟨hv, heq⟩ hl hnext
  -- any connection that is not made in the step will do
  have hkeeps := KeepsCallbacks.next hv (c := v.connCount + 1) (Nat.succ_ne_self _) hnext
  exact ⟨hv.next hnext, (hkeeps.callbacks k hl).trans heq⟩

/-- **Immediate and deferred connects disagree.**  In the order of the Echo
sample, when `connect()` succeeds at once the connection never reaches the user:
its connection callback is not called, and data for it calls an empty function.
When the attempt is deferred and succeeds, the user is served. -/
theorem immediate_and_deferred_disagree (k : Nat) (ip : Text) (port : BitVec 16) (fd : Nat)
    (before : List Label) (w : World) (hbefore : exec World.next World.init before = some w)
    (hnew : w.clients k = TCPClient.new) :
    (∀ later t, exec World.next w (echoOrder k ip port fd .ok ++ later) = some t →
      ¬ Served w.connCount t ∧
      ∀ l bytes t', t.reads w.connCount bytes l → t.next l = some t' →
        t'.fault = some .badFunctionCall) ∧
    (∀ mid u l later t,
      exec World.next w (echoOrder k ip port fd (.failed .EINPROGRESS) ++ mid) = some u →
      (∀ m ∈ mid, m.sets k = false) → u.establishes l = some k →
      exec World.next u (l :: later) = some t → Served u.connCount t) := by
  have hw : Coherent w := coherent_reachable hbefore
  constructor
  · intro later t hrun
    obtain ⟨w₁, hconnect, hrest⟩ := exec_cons_eq_some.mp hrun
    have hest : w.establishes (.user (.connect k ip port (some fd) .ok)) = some k := by
      simp [World.establishes, hnew, TCPClient.new]
    have hmade := Answers.of_establishes hw hest hconnect
    rw [hnew] at hmade
    have hw₁ := hw.next hconnect
    have hans : Answers false false w.connCount t := hmade.exec hw₁ hrest
    have ht : Coherent t := hw₁.exec hrest
    refine ⟨fun hserved => ?_, fun l bytes t' hreads hnext => ?_⟩
    · have hzero : t.heard w.connCount = 0 := hans.heard
      exact absurd (hserved.connection.symm.trans hzero) (by decide)
    · have hread := World.reads_next ht hreads hnext
      rw [hans.msgCallback] at hread
      exact hread
  · intro mid u l later t hrun hsets hest hlater
    obtain ⟨v, hecho, hmid⟩ := exec_append_eq_some.mp hrun
    obtain ⟨u', hstep, hrest⟩ := exec_cons_eq_some.mp hlater
    have hv : Coherent v := hw.exec hecho
    have hu : Coherent u := hv.exec hmid
    have hset : (u.clients k).callbacks = (true, true, true) :=
      (World.callbacks_exec hv hsets hmid).trans (World.callbacks_echoOrder hecho)
    simp only [TCPClient.callbacks, Prod.mk.injEq] at hset
    have hmade := Answers.of_establishes hu hest hstep
    rw [hset.1, hset.2.1] at hmade
    have hans : Answers true true u.connCount t := hmade.exec (hu.next hstep) hrest
    have ht : Coherent t := (hu.next hstep).exec hrest
    refine ⟨hans.heard, fun l' bytes t' hreads hnext => ?_⟩
    have hread := World.reads_next ht hreads hnext
    rw [hans.msgCallback] at hread
    exact hread

/-- One run of each kind, from the process of the sample. -/
theorem immediate_and_deferred_on_run :
    (∃ t, exec World.next World.init
        (echoOrder 0 "127.0.0.1".toList 6666 5 .ok ++ [.poll [(5, EPOLLIN)]]) = some t
      ∧ ¬ Served 0 t)
    ∧ ∃ t, exec World.next World.init
        (echoOrder 0 "127.0.0.1".toList 6666 5 (.failed .EINPROGRESS) ++
          [.poll [(5, EPOLLOUT)], .resume .idle, .resume .idle, .resume .idle, .ret,
           .resume .idle, .resume .idle, .poll [(5, EPOLLIN)]]) = some t
      ∧ Served 0 t := by
  have himm : (exec World.next World.init
      (echoOrder 0 "127.0.0.1".toList 6666 5 .ok ++ [.poll [(5, EPOLLIN)]])).isSome = true := by
    decide +kernel
  have hmid : (exec World.next World.init
      (echoOrder 0 "127.0.0.1".toList 6666 5 (.failed .EINPROGRESS) ++
        [.poll [(5, EPOLLOUT)], .resume .idle, .resume .idle])).map (fun u =>
          (u.connCount, u.establishes (.resume .idle), (exec World.next u
            [.resume .idle, .ret, .resume .idle, .resume .idle, .poll [(5, EPOLLIN)]]).isSome))
      = some (0, some 0, true) := by
    decide +kernel
  obtain ⟨t, hrun⟩ := Option.isSome_iff_exists.mp himm
  obtain ⟨u, hu, hcount⟩ := Option.map_eq_some_iff.mp hmid
  simp only [Prod.mk.injEq] at hcount
  obtain ⟨hzero, hest, hlater⟩ := hcount
  obtain ⟨v, hv⟩ := Option.isSome_iff_exists.mp hlater
  have h := immediate_and_deferred_disagree 0 "127.0.0.1".toList 6666 5 [] World.init rfl rfl
  refine ⟨⟨t, hrun, (h.1 _ t hrun).1⟩, v, ?_, ?_⟩
  · show exec World.next World.init
      ((echoOrder 0 "127.0.0.1".toList 6666 5 (.failed .EINPROGRESS) ++
        [.poll [(5, EPOLLOUT)], .resume .idle, .resume .idle]) ++
        [.resume .idle, .ret, .resume .idle, .resume .idle, .poll [(5, EPOLLIN)]]) = some v
    exact exec_append_eq_some.mpr ⟨u, hu, hv⟩
  · have hserved := h.2 _ u _ _ v hu (by decide) hest hv
    rw [hzero] at hserved
    exact hserved

/-- **Data for a connection made at once** ends the process: the user was never
told of it and its message callback is empty. -/
theorem immediate_connect_unserved :
    ∃ t, exec World.next World.init
        (echoOrder 0 "127.0.0.1".toList 6666 5 .ok ++
          [.poll [(5, EPOLLIN)], .resume .idle, .resume { Env.idle with read := .data [104] }])
        = some t
      ∧ ¬ Served 0 t ∧ t.fault = some .badFunctionCall := by
  have h : (exec World.next World.init
      (echoOrder 0 "127.0.0.1".toList 6666 5 .ok ++
        [.poll [(5, EPOLLIN)], .resume .idle, .resume { Env.idle with read := .data [104] }])).map
        (fun t => (t.heard 0, t.fault)) = some (0, some .badFunctionCall) := by
    decide +kernel
  obtain ⟨t, hrun, ht⟩ := Option.map_eq_some_iff.mp h
  simp only [Prod.mk.injEq] at ht
  refine ⟨t, hrun, fun hserved => ?_, ht.2⟩
  exact absurd (hserved.connection.symm.trans ht.1) (by decide)

end SparkNet
