/-
  SparkNet.ClientState — a client's state and what it owns.

  `_state` says that a client has an attempt under way or a connection;
  `_connHandler` and `_conn` are the attempt and the connection.  Three places
  give up one without telling the other: both failure exits of a deferred
  connect, and `HandleClose`.

  Main results:
    * `client_state_iff` — the two agree throughout a run exactly when no step
      of the run fails an attempt or closes the connection of a client that
      still says it has one,
    * `refused_connect_stays_connecting` — a refused connect is such a step.
-/
import SparkNet.Ownership

namespace SparkNet

open Runs

/-! ## §1. What the state promises. -/

/-- The events about a client's attempts. -/
def Event.concerns (k : Nat) : Event → Bool
  | .disconnectCallback k' _ => k' == k
  | .dialled k' _ => k' == k
  | _ => false

namespace World

/-- The disconnect callback has been called and no `connect()` since. -/
def awaitsDial (w : World) (k : Nat) : Bool :=
  match w.story.find? (Event.concerns k) with
  | some (.disconnectCallback _ _) => true
  | _ => false

/-- Between the two worlds client `k` has called `connect()`. -/
def Dials (w w' : World) (k : Nat) : Prop :=
  ∃ new addr, w'.story = new ++ .dialled k addr :: w.story

/-- The client has an attempt under way, or a connection that is not closed. -/
def engaged (w : World) (k : Nat) : Prop :=
  (w.clients k).connHandler.isSome = true ∨ ∃ c, (w.clients k).conn = some c ∧ ¬ w.closed c

end World

/-- **A client's state matches its resources**, and `Connect` acts on it. -/
structure ClientConsistent (k : Nat) (w : World) : Prop where
  attempt : (w.clients k).state = .connecting → (w.clients k).connHandler.isSome = true
  connection : (w.clients k).state = .connected →
    ∃ c, (w.clients k).conn = some c ∧ ¬ w.closed c
  /-- A `Connect` that does not dial has a reason. -/
  silent : ∀ ip port fd outcome, ¬ w.Dials (w.connect k ip port (some fd) outcome) k →
    w.engaged k
  /-- A `Connect` from or after the disconnect callback dials. -/
  redial : w.awaitsDial k = true → ∀ ip port fd outcome,
    w.Dials (w.connect k ip port (some fd) outcome) k

/-- The same in terms of the state alone. -/
structure StateMatches (k : Nat) (w : World) : Prop where
  attempt : (w.clients k).state = .connecting → (w.clients k).connHandler.isSome = true
  connection : (w.clients k).state = .connected →
    ∃ c, (w.clients k).conn = some c ∧ ¬ w.closed c
  awaits : w.awaitsDial k = true → (w.clients k).state = .disConnected

/-! ## §2. When `Connect` dials. -/

namespace World

variable (w : World)

theorem clients_start (c : Nat) : (w.start c).clients = w.clients := by
  have hq := quiet_connOp w (c := c) true (TcpConnection.parts_start (w.conns c))
  unfold start
  simp only
  split
  · exact hq.clients
  · exact hq.clients

theorem story_start (c : Nat) : ∃ new, (w.start c).story = new ++ w.story
    ∧ ∀ e ∈ new, e = .connectionCallback c := by
  have hq := quiet_connOp w (c := c) true (TcpConnection.parts_start (w.conns c))
  unfold start
  simp only
  split
  · refine ⟨[.connectionCallback c], ?_, by simp⟩
    show ((w.connOp c (w.conns c).start true).emit (.connectionCallback c)).story = _
    rw [show _ = _ from (hq.emit (.connectionCallback c)).story]
    rfl
  · exact ⟨[], hq.story, by simp⟩

theorem clients_connEstablish (k fd : Nat) : (w.connEstablish k fd).clients =
    Function.update w.clients k { w.clients k with
      state := .connected
      connId := (w.clients k).connId + 1
      conn := some w.connCount } := by
  unfold connEstablish
  rw [clients_start, (quiet_letGo _ _).clients]
  rfl

/-- `ConnEstablish` logs nothing about attempts. -/
theorem story_connEstablish (k fd : Nat) : ∃ new, (w.connEstablish k fd).story = new ++ w.story
    ∧ ∀ e ∈ new, ∀ k', e.concerns k' = false ∧ ∀ c, e ≠ .closeEntered c := by
  unfold connEstablish
  obtain ⟨new, hnew, hcb⟩ := story_start
    ((w.storeClientConn k fd).letGo (w.clients k).conn) w.connCount
  refine ⟨new ++ ((w.clients k).conn.map Event.displaced).toList, ?_, ?_⟩
  · rw [hnew, (quiet_letGo _ _).story, List.append_assoc]
    congr 1
    cases (w.clients k).conn <;> rfl
  · intro e he k'
    rcases List.mem_append.mp he with hm | hm
    · rw [hcb e hm]
      exact ⟨rfl, fun _ => by simp⟩
    · rw [Option.mem_toList, Option.map_eq_some_iff] at hm
      obtain ⟨o, _, rfl⟩ := hm
      exact ⟨rfl, fun _ => by simp⟩

theorem clients_connecting (k fd : Nat) : (w.connecting k fd).clients =
    Function.update w.clients k { w.clients k with
      state := .connecting
      connHandler := some (w.handlerCount, (connectingHandler k fd).enableWrite) } := by
  unfold connecting
  simp only
  rw [(quiet_update _ _ _).clients]
  split <;> rfl

theorem story_connecting (k fd : Nat) : (w.connecting k fd).story = w.story := by
  unfold connecting
  simp only
  rw [(quiet_update _ _ _).story]
  split
  next m old _ => exact (quiet_report w (e := .handlerDestroyed (.connecting k m)
      (w.poller.handlers old.fd).isSome) rfl).story
  next => rfl

theorem clients_runDisconnectCallback (k : Nat) :
    (w.runDisconnectCallback k).clients = w.clients := by
  unfold runDisconnectCallback
  split <;> rfl

theorem story_runDisconnectCallback (k : Nat) : (w.runDisconnectCallback k).story =
    if (w.clients k).disConnectCallback then
      .disconnectCallback k (w.clients k).state :: w.story
    else w.story := by
  unfold runDisconnectCallback
  split <;> rfl

theorem clients_dropConnHandler (k n : Nat) (g : Handler HandlerCallback) :
    (w.dropConnHandler k n g).clients =
      Function.update w.clients k { w.clients k with connHandler := none } := by
  unfold dropConnHandler
  simp only [emit, setClient]
  rw [(quiet_update w _ _).clients]

theorem story_dropConnHandler (k n : Nat) (g : Handler HandlerCallback) :
    (w.dropConnHandler k n g).story = w.story := by
  unfold dropConnHandler
  rw [(quiet_report _ rfl).story]
  exact (quiet_update w _ _).story

/-- **`Connect` dials exactly in the state DIS_CONNECTED.** -/
theorem connect_dials_iff (k : Nat) (ip : Text) (port : BitVec 16) (fd : Nat)
    (outcome : ConnectOutcome) :
    w.Dials (w.connect k ip port (some fd) outcome) k ↔ (w.clients k).state = .disConnected := by
  by_cases hst : (w.clients k).state = .disConnected
  · refine iff_of_true ?_ hst
    have hdial : (w.dial k ip port fd).story =
        .dialled k ((w.clients k).addr.fromIpPort ip port).2.addr :: w.story := rfl
    unfold connect
    simp only [hst, ne_eq, not_true_eq_false, if_false]
    split
    · obtain ⟨new, hnew, _⟩ := story_connEstablish (w.dial k ip port fd) k fd
      exact ⟨new, _, hnew.trans (by rw [hdial])⟩
    · split
      · exact ⟨[], _, (story_connecting _ k fd).trans hdial⟩
      · exact ⟨[], _, (quiet_closeFd _ fd).story.trans hdial⟩
  · refine iff_of_false ?_ hst
    rintro ⟨new, addr, hnew⟩
    rw [show w.connect k ip port (some fd) outcome = w by unfold connect; rw [if_pos hst]] at hnew
    have hlen := congrArg List.length hnew
    simp only [List.length_append, List.length_cons] at hlen
    omega

end World

theorem clientConsistent_iff {k : Nat} {w : World} :
    ClientConsistent k w ↔ StateMatches k w := by
  constructor
  · intro h
    refine ⟨h.attempt, h.connection, fun hawaits => ?_⟩
    exact (w.connect_dials_iff k [] 0 0 .ok).mp (h.redial hawaits [] 0 0 .ok)
  · intro h
    refine ⟨h.attempt, h.connection, fun ip port fd outcome hsilent => ?_, ?_⟩
    · rw [w.connect_dials_iff] at hsilent
      cases hst : (w.clients k).state with
      | disConnected => exact absurd hst hsilent
      | connecting => exact Or.inl (h.attempt hst)
      | connected => exact Or.inr (h.connection hst)
    · intro hawaits ip port fd outcome
      rw [w.connect_dials_iff]
      exact h.awaits hawaits

/-! ## §3. What other steps leave alone. -/

/-- For client `k` nothing happens between the two worlds. -/
structure SameClient (k : Nat) (w w' : World) : Prop where
  state : (w'.clients k).state = (w.clients k).state
  connHandler : (w'.clients k).connHandler = (w.clients k).connHandler
  conn : (w'.clients k).conn = (w.clients k).conn
  closed : ∀ c, (w.clients k).conn = some c → w'.closed c → w.closed c
  awaits : w'.awaitsDial k = w.awaitsDial k

theorem World.closed_iff_story (w : World) (c : Nat) :
    w.closed c ↔ .closeEntered c ∈ w.story := by
  simp [closed, story, Event.isReport]

/-- Events about other things do not change what is awaited. -/
theorem World.awaitsDial_skip {k : Nat} {w w' : World} (new : List Event)
    (hstory : w'.story = new ++ w.story)
    (hnew : ∀ e ∈ new, e.concerns k = false) : w'.awaitsDial k = w.awaitsDial k := by
  have hnone : new.find? (Event.concerns k) = none := by
    rw [List.find?_eq_none]
    intro e he
    simp [hnew e he]
  simp only [World.awaitsDial, hstory, List.find?_append, hnone, Option.none_or]

section SameClient

variable {k : Nat} {w w' w'' : World}

theorem SameClient.trans (h : SameClient k w w') (h' : SameClient k w' w'') :
    SameClient k w w'' where
  state := h'.state.trans h.state
  connHandler := h'.connHandler.trans h.connHandler
  conn := h'.conn.trans h.conn
  closed := fun c hc hcl => h.closed c hc (h'.closed c (h.conn.trans hc) hcl)
  awaits := h'.awaits.trans h.awaits

/-- The client's record is the same and the story says nothing about it. -/
theorem SameClient.of_story (new : List Event) (hclient : w'.clients k = w.clients k)
    (hstory : w'.story = new ++ w.story)
    (hnew : ∀ e ∈ new, e.concerns k = false ∧
      ∀ c, (w.clients k).conn = some c → e ≠ .closeEntered c) : SameClient k w w' where
  state := by rw [hclient]
  connHandler := by rw [hclient]
  conn := by rw [hclient]
  closed := by
    intro c hc
    rw [w'.closed_iff_story, w.closed_iff_story, hstory, List.mem_append]
    exact fun hm => hm.resolve_left fun hn => (hnew _ hn).2 c hc rfl
  awaits := World.awaitsDial_skip new hstory fun e he => (hnew e he).1

theorem SameClient.quiet (hq : World.Quiet w w') : SameClient k w w' :=
  .of_story [] (by rw [hq.clients]) hq.story (by simp)

/-- A quiet end of a step. -/
theorem SameClient.ends (hq : World.Quiet w' w'') (h : SameClient k w w') : SameClient k w w'' :=
  h.trans (.quiet hq)

/-- Frames, kept copies, servers and descriptors are not the client's. -/
theorem SameClient.refl_of (hclient : w'.clients k = w.clients k) (hlog : w'.log = w.log) :
    SameClient k w w' :=
  .of_story [] hclient (by simp only [World.story, hlog, List.nil_append]) (by simp)

/-- Members the state does not speak about may change. -/
theorem SameClient.of_fields (hstate : (w'.clients k).state = (w.clients k).state)
    (hhandler : (w'.clients k).connHandler = (w.clients k).connHandler)
    (hconn : (w'.clients k).conn = (w.clients k).conn) (hlog : w'.log = w.log) :
    SameClient k w w' where
  state := hstate
  connHandler := hhandler
  conn := hconn
  closed := by
    intro c _ hcl
    rw [World.closed, ← hlog]
    exact hcl
  awaits := by simp only [World.awaitsDial, World.story, hlog]

theorem StateMatches.same (h : StateMatches k w) (hs : SameClient k w w') :
    StateMatches k w' where
  attempt := by
    rw [hs.state, hs.connHandler]
    exact h.attempt
  connection := by
    rw [hs.state, hs.conn]
    intro hst
    obtain ⟨c, hc, hopen⟩ := h.connection hst
    exact ⟨c, hc, fun hcl => hopen (hs.closed c hc hcl)⟩
  awaits := by
    rw [hs.state, hs.awaits]
    exact h.awaits

theorem sameClient_start (c : Nat) : SameClient k w (w.start c) := by
  obtain ⟨new, hnew, hcb⟩ := w.story_start c
  refine .of_story new (by rw [w.clients_start]) hnew fun e he => ?_
  rw [hcb e he]
  exact ⟨rfl, fun _ _ => by simp⟩

theorem sameClient_connEstablish {k' : Nat} (hk : k' ≠ k) (fd : Nat) :
    SameClient k w (w.connEstablish k' fd) := by
  obtain ⟨new, hnew, hstory⟩ := w.story_connEstablish k' fd
  refine .of_story new ?_ hnew fun e he => ⟨(hstory e he k).1, fun c _ => (hstory e he k).2 c⟩
  rw [w.clients_connEstablish, Function.update_of_ne (Ne.symm hk)]

theorem sameClient_runDisconnectCallback {k' : Nat} (hk : k' ≠ k) :
    SameClient k w (w.runDisconnectCallback k') := by
  have hstory := w.story_runDisconnectCallback k'
  by_cases hcb : (w.clients k').disConnectCallback = true
  · rw [if_pos hcb] at hstory
    refine .of_story [_] (by rw [w.clients_runDisconnectCallback]) hstory ?_
    intro e he
    rw [List.mem_singleton.mp he]
    exact ⟨by simpa [Event.concerns] using hk, fun _ _ => by simp⟩
  · rw [if_neg hcb] at hstory
    exact .of_story [] (by rw [w.clients_runDisconnectCallback]) hstory (by simp)

theorem sameClient_dropConnHandler {k' : Nat} (hk : k' ≠ k) (n : Nat)
    (g : Handler HandlerCallback) : SameClient k w (w.dropConnHandler k' n g) := by
  refine .of_story [] ?_ (w.story_dropConnHandler k' n g) (by simp)
  rw [w.clients_dropConnHandler, Function.update_of_ne (Ne.symm hk)]

theorem sameClient_clientHandleWrite {k' : Nat} (hk : k' ≠ k) (err : Nat) :
    SameClient k w (w.clientHandleWrite k' err) := by
  unfold World.clientHandleWrite
  split
  · split
    · exact .quiet (World.quiet_fail w _)
    · next n g _ =>
      have hdrop := sameClient_dropConnHandler (w := w) hk n g
      simp only
      split
      · exact hdrop.trans (sameClient_runDisconnectCallback hk)
      · exact hdrop.trans (sameClient_connEstablish hk g.fd)
  · exact .refl_of rfl rfl

theorem sameClient_clientHandleError {k' : Nat} (hk : k' ≠ k) :
    SameClient k w (w.clientHandleError k') := by
  unfold World.clientHandleError
  split
  · split
    · exact .quiet (World.quiet_fail w _)
    · next n g _ =>
      exact ((sameClient_dropConnHandler hk n g).trans (.quiet (World.quiet_closeFd _ _))).trans
        (sameClient_runDisconnectCallback hk)
  · exact .refl_of rfl rfl

theorem sameClient_onNewConnect (s fd : Nat) (addr : InetAdress) :
    SameClient k w (w.onNewConnect s fd addr) := by
  have hlet : SameClient k w ((w.storeServerConn s fd addr).letGo
      ((w.servers s).conns (w.nextName s addr))) := by
    have hq := World.quiet_letGo (w.storeServerConn s fd addr)
      ((w.servers s).conns (w.nextName s addr))
    refine .of_story (((w.servers s).conns (w.nextName s addr)).map Event.displaced).toList
      (by rw [hq.clients]; rfl) ?_ ?_
    · rw [hq.story]
      cases (w.servers s).conns (w.nextName s addr) <;> rfl
    · intro e he
      rw [Option.mem_toList, Option.map_eq_some_iff] at he
      obtain ⟨o, _, rfl⟩ := he
      exact ⟨rfl, fun _ _ => by simp⟩
  exact hlet.trans (sameClient_start _)

theorem sameClient_connect {k' : Nat} (hk : k' ≠ k) (ip : Text) (port : BitVec 16)
    (sock : Option Nat) (outcome : ConnectOutcome) :
    SameClient k w (w.connect k' ip port sock outcome) := by
  have hset : ∀ (v : World) (x : TCPClient), SameClient k v (v.setClient k' x) := fun v x =>
    .refl_of (Function.update_of_ne (Ne.symm hk) ..) rfl
  unfold World.connect
  split
  · exact .refl_of rfl rfl
  · split
    · exact hset w _
    · next fd =>
      have hdial : SameClient k w (w.dial k' ip port fd) := by
        refine .of_story [_] (Function.update_of_ne (Ne.symm hk) ..) rfl ?_
        intro e he
        rw [List.mem_singleton.mp he]
        exact ⟨by simpa [Event.concerns] using hk, fun _ _ => by simp⟩
      simp only
      split
      · exact hdial.trans (sameClient_connEstablish hk fd)
      · split
        · refine hdial.trans (.of_story [] ?_ (World.story_connecting _ k' fd) (by simp))
          rw [World.clients_connecting, Function.update_of_ne (Ne.symm hk)]
        · exact hdial.trans ((hset _ _).trans (.quiet (World.quiet_closeFd _ _)))

theorem sameClient_disconnect {k' : Nat} (hk : k' ≠ k) (ok : Bool) :
    SameClient k w (w.disconnect k' ok) := by
  have hset : SameClient k w (w.setClient k' { w.clients k' with state := .disConnected }) :=
    .refl_of (Function.update_of_ne (Ne.symm hk) ..) rfl
  unfold World.disconnect
  simp only
  split
  · exact hset.trans (.quiet (World.quiet_fail _ _))
  · exact hset.trans (.quiet (World.quiet_shutDown _ _ _))

end SameClient

/-! ## §4. The steps that break the promise. -/

namespace World

/-- The connection whose `Close` the step enters. -/
def entersClose (w : World) : Label → Option Nat
  | .user (.close c) => some c
  | .resume env =>
      match w.stack with
      | .handleEvent (.conn c) mask .read :: _ =>
          if mask.has readBits = true ∧ env.read = .eof then some c else none
      | _ => none
  | _ => none

/-- The handler `n` belongs to an attempt of client `k` that is under way. -/
def attempting (w : World) (k n : Nat) : Prop :=
  (w.clients k).state = .connecting ∧ (w.clients k).connHandler.map Prod.fst = some n

instance (w : World) (k n : Nat) : Decidable (w.attempting k n) := by
  unfold attempting; infer_instance

/-- The step fails an attempt of client `k`: its `HandleWrite` finds SO_ERROR
set, or its `HandleError` runs. -/
def failsAttempt (w : World) (k : Nat) : Label → Prop
  | .resume env =>
      match w.stack with
      | .handleEvent (.connecting k' n) mask .write :: _ =>
          k' = k ∧ mask.has EPOLLOUT = true ∧ env.soError ≠ 0 ∧ w.attempting k n
      | .handleEvent (.connecting k' n) mask .error :: _ =>
          k' = k ∧ mask.has EPOLLERR = true ∧ w.attempting k n
      | _ => False
  | _ => False

/-- The step closes client `k`'s connection although the client says that it is
connected, or runs its disconnect callback although it says that it is
connecting. -/
def losesConnection (w : World) (k : Nat) (l : Label) : Prop :=
  ∃ c, w.entersClose l = some c ∧ (w.clients k).conn = some c
    ∧ ((w.clients k).state = .connected
      ∨ (w.clients k).state = .connecting ∧ (w.clients k).disConnectCallback = true)

end World

/-- The step leaves client `k` as it says it is. -/
def KeepsClient (k : Nat) (w : World) (l : Label) : Prop :=
  ¬ w.failsAttempt k l ∧ ¬ w.losesConnection k l

section Steps

variable {k : Nat} {w : World}

theorem StateMatches.of_disConnected (hst : (w.clients k).state = .disConnected) :
    StateMatches k w where
  attempt := fun h => absurd (hst.symm.trans h) (by simp)
  connection := fun h => absurd (hst.symm.trans h) (by simp)
  awaits := fun _ => hst

/-- `Close` of the client's connection, seen from the client. -/
theorem close_current (hw : Coherent w) {c : Nat} (hconn : (w.clients k).conn = some c) :
    (w.close c).clients = Function.update w.clients k { w.clients k with conn := none }
    ∧ (w.close c).story = (if (w.clients k).disConnectCallback then
        [.disconnectCallback k (w.clients k).state] else [])
        ++ .closeCallback c :: .closeEntered c :: w.story := by
  have hσ : w.slot (.client k) = some c := hconn
  obtain ⟨hc, hbound, _, _⟩ := hw.slot _ c hσ
  have hcb : (w.conns c).closeCallback = some (.handleClose k) := by
    unfold TcpConnection.slot at hbound
    split at hbound
    · exact absurd hbound (by simp)
    · next k' hk' =>
      obtain rfl := Slot.client.inj (Option.some.inj hbound)
      exact hk'
    · exact absurd hbound (by simp)
  obtain ⟨_, _, _, hslot⟩ := hw.conn c hc
  -- its close callback is bound to the client, so `HandleClose` runs and its `assert` holds
  rcases World.close_cases (hw.live_of_slot hσ) hslot with
    ⟨s, hs, _⟩ | ⟨k', hk', _, hq⟩ | ⟨k', hk', hne, _⟩
  · exact absurd (hcb.symm.trans hs) (by simp)
  · obtain rfl := CloseCallback.handleClose.inj (Option.some.inj (hcb.symm.trans hk'))
    refine ⟨?_, ?_⟩
    · rw [hq.clients, World.resetConn, World.clients_runDisconnectCallback]
      rfl
    · rw [hq.story, World.resetConn, World.story_runDisconnectCallback]
      have hself : (((w.enterClose c).setClient k { (w.enterClose c).clients k with
          conn := none }).clients k) = { w.clients k with conn := none } :=
        Function.update_self ..
      rw [hself]
      split <;> rfl
  · obtain rfl := CloseCallback.handleClose.inj (Option.some.inj (hcb.symm.trans hk'))
    exact absurd hconn hne

/-- `Close` of any other connection. -/
theorem sameClient_close (hw : Coherent w) {c : Nat} (hconn : (w.clients k).conn ≠ some c) :
    SameClient k w (w.close c) := by
  have henter : SameClient k w (w.enterClose c) := by
    refine .of_story [.closeCallback c, .closeEntered c] rfl rfl ?_
    intro e he
    simp only [List.mem_cons, List.not_mem_nil, or_false] at he
    rcases he with rfl | rfl
    · exact ⟨rfl, fun _ _ => by simp⟩
    · exact ⟨rfl, fun d hd hdc => hconn (Event.closeEntered.inj hdc ▸ hd)⟩
  by_cases hlive : w.live c = true
  · obtain ⟨_, _, _, hslot⟩ := hw.conn c (hw.known_of_live hlive)
    rcases World.close_cases hlive hslot with ⟨s, _, hq⟩ | ⟨k', _, hk', hq⟩ | ⟨_, _, _, hq⟩
    · refine (henter.trans ?_).trans (.quiet hq)
      refine .of_story _ rfl (List.filter_append ..) ?_
      intro e he
      obtain ⟨he, _⟩ := List.mem_filter.mp he
      rw [Option.mem_toList, Option.map_eq_some_iff] at he
      obtain ⟨o, _, rfl⟩ := he
      exact ⟨rfl, fun _ _ => by simp⟩
    · -- `HandleClose` of another client
      have hne : k' ≠ k := fun hkk => hconn (hkk ▸ hk')
      have hset : SameClient k (w.enterClose c)
          ((w.enterClose c).setClient k' { w.clients k' with conn := none }) :=
        .refl_of (Function.update_of_ne (Ne.symm hne) ..) rfl
      exact ((henter.trans hset).trans (sameClient_runDisconnectCallback hne)).trans (.quiet hq)
    · exact henter.trans (.quiet hq)
  · have hfail : w.close c = w.fail .useAfterFree := by
      unfold World.close
      rw [if_neg hlive]
    rw [hfail]
    exact .quiet (World.quiet_fail w _)

theorem StateMatches.close (h : StateMatches k w) (hw : Coherent w) {c : Nat}
    (hcond : (w.clients k).conn = some c → ¬ ((w.clients k).state = .connected
      ∨ (w.clients k).state = .connecting ∧ (w.clients k).disConnectCallback = true)) :
    StateMatches k (w.close c) := by
  by_cases hconn : (w.clients k).conn = some c
  · obtain ⟨hclients, hstory⟩ := close_current hw hconn
    have hself : (w.close c).clients k = { w.clients k with conn := none } := by
      rw [hclients, Function.update_self]
    cases hst : (w.clients k).state with
    | disConnected => exact .of_disConnected (by rw [hself]; exact hst)
    | connected => exact absurd (Or.inl hst) (hcond hconn)
    -- the attempt goes on beside the connection that closes
    | connecting =>
        have hcb : (w.clients k).disConnectCallback = false := by
          rw [Bool.eq_false_iff]
          exact fun hcb => hcond hconn (Or.inr ⟨hst, hcb⟩)
        rw [hcb] at hstory
        refine ⟨fun _ => ?_, fun hc => ?_, fun hawaits => ?_⟩
        · rw [hself]
          exact h.attempt hst
        · rw [hself] at hc
          exact absurd (hst.symm.trans hc) (by simp)
        · rw [World.awaitsDial_skip [.closeCallback c, .closeEntered c] hstory
            (by simp [Event.concerns])] at hawaits
          exact absurd (hst.symm.trans (h.awaits hawaits)) (by simp)
  · exact h.same (sameClient_close hw hconn)

theorem not_stateMatches_close (hw : Coherent w) {c : Nat}
    (hconn : (w.clients k).conn = some c) (hbad : (w.clients k).state = .connected
      ∨ (w.clients k).state = .connecting ∧ (w.clients k).disConnectCallback = true) :
    ¬ StateMatches k (w.close c) := by
  obtain ⟨hclients, hstory⟩ := close_current hw hconn
  have hself : (w.close c).clients k = { w.clients k with conn := none } := by
    rw [hclients, Function.update_self]
  intro h
  rcases hbad with hst | ⟨hst, hcb⟩
  · -- CONNECTED with `_conn` reset
    obtain ⟨d, hd, _⟩ := h.connection (by rw [hself]; exact hst)
    rw [hself] at hd
    exact absurd hd (by simp)
  · -- the callback has run over a state in which `Connect` does not dial
    have hawaits : (w.close c).awaitsDial k = true := by
      simp [World.awaitsDial, hstory, hcb, Event.concerns]
    have := h.awaits hawaits
    rw [hself] at this
    exact absurd (hst.symm.trans this) (by simp)

/-- A new connection of the client. -/
theorem StateMatches.connEstablish (hw : Coherent w) (fd : Nat)
    (hawaits : w.awaitsDial k = false) : StateMatches k (w.connEstablish k fd) := by
  obtain ⟨new, hnew, hquiet⟩ := w.story_connEstablish k fd
  have hself : (w.connEstablish k fd).clients k = { w.clients k with
      state := .connected
      connId := (w.clients k).connId + 1
      conn := some w.connCount } := by
    rw [w.clients_connEstablish, Function.update_self]
  refine ⟨fun hc => ?_, fun _ => ⟨w.connCount, ?_, ?_⟩, fun ha => ?_⟩
  · rw [hself] at hc
    exact absurd hc (by simp)
  · rw [hself]
  · refine ((hw.connEstablish k fd).slot (.client k) w.connCount ?_).2.2.1
    show ((w.connEstablish k fd).clients k).conn = _
    rw [hself]
  · rw [World.awaitsDial_skip new hnew fun e he => (hquiet e he k).1, hawaits] at ha
    exact absurd ha (by simp)

theorem StateMatches.connect (h : StateMatches k w) (hw : Coherent w) (ip : Text)
    (port : BitVec 16) (sock : Option Nat) (outcome : ConnectOutcome) :
    StateMatches k (w.connect k ip port sock outcome) := by
  unfold World.connect
  split
  · exact h
  next hst =>
    have hself : ∀ (v : World) (x : TCPClient), (v.setClient k x).clients k = x := fun v x =>
      Function.update_self ..
    split
    · refine h.same (.of_fields ?_ ?_ ?_ rfl) <;>
        rw [World.storeAddr, hself]
    next fd =>
      -- the dial is in the log, so no disconnect callback awaits one
      have hdial : (w.dial k ip port fd).awaitsDial k = false := by
        simp [World.awaitsDial, World.story, World.dial, Event.isReport, Event.concerns]
      simp only
      split
      · exact .connEstablish (hw.dial k ip port fd) fd hdial
      · split
        · have hclients := (w.dial k ip port fd).clients_connecting k fd
          have hstory := (w.dial k ip port fd).story_connecting k fd
          refine ⟨fun _ => ?_, fun hc => ?_, fun ha => ?_⟩
          · rw [hclients, Function.update_self]
            rfl
          · rw [hclients, Function.update_self] at hc
            exact absurd hc (by simp)
          · rw [World.awaitsDial, hstory] at ha
            exact absurd (ha.symm.trans hdial) (by simp)
        · refine .of_disConnected ?_
          rw [(World.quiet_closeFd _ fd).clients, hself]

/-- `HandleWrite` and `HandleError` of the client: with `_connHandler` gone the
attempt has to become a connection. -/
theorem stateMatches_clientHandleWrite (h : StateMatches k w) (hw : Coherent w) {n : Nat}
    {g : Handler HandlerCallback} (hg : (w.clients k).connHandler = some (n, g)) (err : Nat) :
    StateMatches k (w.clientHandleWrite k err) ↔ ¬ (err ≠ 0 ∧ w.attempting k n) := by
  have hawaits : (w.clients k).state = .connecting → w.awaitsDial k = false := by
    intro hst
    rw [Bool.eq_false_iff]
    exact fun ha => absurd (hst.symm.trans (h.awaits ha)) (by simp)
  have hself : ((w.dropConnHandler k n g).clients k)
      = { w.clients k with connHandler := none } := by
    rw [w.clients_dropConnHandler, Function.update_self]
  unfold World.clientHandleWrite World.attempting
  by_cases hst : (w.clients k).state = .connecting
  · rw [if_pos hst, hg]
    simp only
    by_cases herr : err = 0
    · rw [if_neg (not_not_intro herr)]
      refine iff_of_true (.connEstablish (hw.dropConnHandler k n g) g.fd ?_)
        (fun hbad => hbad.1 herr)
      rw [World.awaitsDial, w.story_dropConnHandler]
      exact hawaits hst
    · -- CONNECTING with `_connHandler` reset
      rw [if_pos herr]
      refine iff_of_false (fun hm => ?_) (not_not_intro ⟨herr, hst, rfl⟩)
      have := hm.attempt
      rw [World.clients_runDisconnectCallback, hself] at this
      exact absurd (this hst) (by simp)
  · rw [if_neg hst]
    exact iff_of_true h fun hbad => hst hbad.2.1

theorem stateMatches_clientHandleError (h : StateMatches k w) {n : Nat}
    {g : Handler HandlerCallback} (hg : (w.clients k).connHandler = some (n, g)) :
    StateMatches k (w.clientHandleError k) ↔ ¬ w.attempting k n := by
  unfold World.clientHandleError World.attempting
  by_cases hst : (w.clients k).state = .connecting
  · rw [if_pos hst, hg]
    refine iff_of_false (fun hm => ?_) (not_not_intro ⟨hst, rfl⟩)
    have := hm.attempt
    simp only at this
    rw [World.clients_runDisconnectCallback, (World.quiet_closeFd _ _).clients,
      w.clients_dropConnHandler, Function.update_self] at this
    exact absurd (this hst) (by simp)
  · rw [if_neg hst]
    exact iff_of_true h fun hbad => hst hbad.1

/-- A step that enters no `Close` and runs no handler of the client is safe. -/
theorem keepsClient_of_neutral {l : Label} (hfails : ¬ w.failsAttempt k l)
    (hclose : w.entersClose l = none) : KeepsClient k w l :=
  ⟨hfails, fun ⟨c, hc, _⟩ => absurd (hclose.symm.trans hc) (by simp)⟩

/-- A step that enters `Close` of `c` is safe for the client in these cases. -/
theorem keepsClient_of_close {c : Nat} {l : Label} (hfails : ¬ w.failsAttempt k l)
    (hclose : w.entersClose l = some c) : KeepsClient k w l ↔
      ¬ ((w.clients k).conn = some c ∧ ((w.clients k).state = .connected
        ∨ (w.clients k).state = .connecting ∧ (w.clients k).disConnectCallback = true)) := by
  constructor
  · exact fun hk hbad => hk.2 ⟨c, hclose, hbad⟩
  · refine fun hgood => ⟨hfails, ?_⟩
    rintro ⟨d, hd, hbad⟩
    obtain rfl := Option.some.inj (hclose.symm.trans hd)
    exact hgood hbad

theorem stateMatches_close_iff (h : StateMatches k w) (hw : Coherent w) (c : Nat) :
    StateMatches k (w.close c) ↔
      ¬ ((w.clients k).conn = some c ∧ ((w.clients k).state = .connected
        ∨ (w.clients k).state = .connecting ∧ (w.clients k).disConnectCallback = true)) := by
  constructor
  · exact fun hm hbad => not_stateMatches_close hw hbad.1 hbad.2 hm
  · exact fun hgood => h.close hw fun hconn hbad => hgood ⟨hconn, hbad⟩

theorem sameClient_acceptorHandleRead (s : Nat) (accept : AcceptOutcome) :
    SameClient k w (w.acceptorHandleRead s accept) := by
  unfold World.acceptorHandleRead
  split
  next fd addr =>
    have hopen : SameClient k w { w with fds := Function.update w.fds fd true } :=
      .refl_of rfl rfl
    exact hopen.trans (sameClient_onNewConnect s _ _)
  next => exact .refl_of rfl rfl

/-- Without an end of file, `HandleRead` is no business of the client. -/
theorem sameClient_tcpHandleRead {c : Nat} {r : ReadOutcome} (hr : r ≠ .eof) :
    SameClient k w (w.tcpHandleRead c r) := by
  unfold World.tcpHandleRead
  split
  · cases r with
    | failed errno => exact .refl_of rfl rfl
    | eof => exact absurd rfl hr
    | data bytes =>
        have hset := World.quiet_setConn w (TcpConnection.parts_receive (w.conns c) bytes)
        refine SameClient.trans (.quiet hset) ?_
        simp only
        split
        · exact .of_story [.messageCallback c] rfl rfl (by simp [Event.concerns])
        · exact .quiet (World.quiet_fail _ _)
  · exact .quiet (World.quiet_fail w _)

/-- The read test of `HandleEvent`. -/
theorem stateMatches_readTest (h : StateMatches k w) (hw : Coherent w) {env : Env}
    {ptr : HandlerPtr} {mask : EventMask} {rest : List Frame}
    (hst : w.stack = .handleEvent ptr mask .read :: rest) :
    StateMatches k ({ w with stack := .handleEvent ptr mask .write :: rest }.testEvent env ptr
      mask World.readBits Handler.readCallback) ↔ KeepsClient k w (.resume env) := by
  have hw₁ := hw.advance hst .write
  have h₁ : StateMatches k { w with stack := .handleEvent ptr mask .write :: rest } :=
    h.same (.refl_of rfl rfl)
  have hfails : ¬ w.failsAttempt k (.resume env) := by
    simp [World.failsAttempt, hst]
  rcases hw₁.read_cases env ptr mask rfl with
    ⟨hno, heq⟩ | ⟨_, hptr, heq⟩ | ⟨c, hc, hbits, hlive, heq⟩ | ⟨s, hs, _, _, heq⟩ <;> rw [heq]
  · refine iff_of_true h₁ (keepsClient_of_neutral hfails ?_)
    cases ptr with
    | conn c =>
        have hmask := hno.resolve_right (by simp)
        simp [World.entersClose, hst, hmask]
    | connecting k' n => simp [World.entersClose, hst]
    | acceptor s => simp [World.entersClose, hst]
  · refine iff_of_true (h₁.same (.quiet (World.quiet_fail _ _))) ⟨hfails, ?_⟩
    -- a dead handler is not the client's connection
    rintro ⟨c, hc, hconn, _⟩
    cases ptr with
    | conn d =>
        simp only [World.entersClose, hst, Option.ite_none_right_eq_some, Option.some.injEq] at hc
        obtain ⟨_, rfl⟩ := hc
        have hlive := hw₁.live_of_slot (σ := .client k) hconn
        rw [World.handler?, if_pos hlive] at hptr
        exact absurd hptr (by simp)
    | connecting k' n => simp [World.entersClose, hst] at hc
    | acceptor s => simp [World.entersClose, hst] at hc
  · subst hc
    have hclose : w.entersClose (.resume env) = if env.read = .eof then some c else none := by
      simp [World.entersClose, hst, hbits]
    -- only the end of file enters `Close`
    by_cases heof : env.read = .eof
    · rw [if_pos heof] at hclose
      rw [keepsClient_of_close hfails hclose, heof, World.tcpHandleRead, if_pos hlive]
      exact stateMatches_close_iff h₁ hw₁ c
    · rw [if_neg heof] at hclose
      exact iff_of_true (h₁.same (sameClient_tcpHandleRead heof))
        (keepsClient_of_neutral hfails hclose)
  · subst hs
    refine iff_of_true (h₁.same (sameClient_acceptorHandleRead s _))
      (keepsClient_of_neutral hfails ?_)
    simp [World.entersClose, hst]

theorem not_attempting_of_dead {n : Nat} (hptr : w.handler? (.connecting k n) = none) :
    ¬ w.attempting k n := by
  rintro ⟨_, hn⟩
  obtain ⟨⟨m, g⟩, hg, rfl⟩ := Option.map_eq_some_iff.mp hn
  rw [World.handler?_connecting.mpr hg] at hptr
  exact absurd hptr (by simp)

/-- The write test. -/
theorem stateMatches_writeTest (h : StateMatches k w) (hw : Coherent w) {env : Env}
    {ptr : HandlerPtr} {mask : EventMask} {rest : List Frame}
    (hst : w.stack = .handleEvent ptr mask .write :: rest) :
    StateMatches k ({ w with stack := .handleEvent ptr mask .error :: rest }.testEvent env ptr
      mask EPOLLOUT Handler.writeCallback) ↔ KeepsClient k w (.resume env) := by
  have hw₁ := hw.advance hst .error
  have h₁ : StateMatches k { w with stack := .handleEvent ptr mask .error :: rest } :=
    h.same (.refl_of rfl rfl)
  have hclose : w.entersClose (.resume env) = none := by
    simp [World.entersClose, hst]
  rcases hw₁.write_cases env ptr mask rfl with
    ⟨hno, heq⟩ | ⟨_, hptr, heq⟩ | ⟨c, hc, _, _, heq⟩ | ⟨k', n, g, hk, hbits, hg, heq⟩ <;> rw [heq]
  · refine iff_of_true h₁ (keepsClient_of_neutral ?_ hclose)
    rcases hno with hmask | ⟨s, hs⟩
    · cases ptr <;> simp [World.failsAttempt, hst, hmask]
    · subst hs
      simp [World.failsAttempt, hst]
  · refine iff_of_true (h₁.same (.quiet (World.quiet_fail _ _))) (keepsClient_of_neutral ?_ hclose)
    cases ptr with
    | connecting k' n =>
        simp only [World.failsAttempt, hst]
        rintro ⟨rfl, _, _, hattempt⟩
        exact not_attempting_of_dead (w := w) hptr hattempt
    | conn c => simp [World.failsAttempt, hst]
    | acceptor s => simp [World.failsAttempt, hst]
  · subst hc
    refine iff_of_true (h₁.same (.quiet (World.quiet_tcpHandleWrite _ _ _ _)))
      (keepsClient_of_neutral ?_ hclose)
    simp [World.failsAttempt, hst]
  · subst hk
    -- the handler is this client's own or another one's
    by_cases hkk : k' = k
    · subst hkk
      rw [stateMatches_clientHandleWrite h₁ hw₁ hg]
      constructor
      · refine fun hgood => keepsClient_of_neutral (fun hf => hgood ?_) hclose
        simp only [World.failsAttempt, hst] at hf
        exact hf.2.2
      · refine fun hk hbad => hk.1 ?_
        simp only [World.failsAttempt, hst]
        exact ⟨trivial, hbits, hbad⟩
    · refine iff_of_true (h₁.same (sameClient_clientHandleWrite hkk _))
        (keepsClient_of_neutral ?_ hclose)
      simp [World.failsAttempt, hst, hkk]

/-- The error test. -/
theorem stateMatches_errorTest (h : StateMatches k w) (hw : Coherent w) {env : Env}
    {ptr : HandlerPtr} {mask : EventMask} {rest : List Frame}
    (hst : w.stack = .handleEvent ptr mask .error :: rest) :
    StateMatches k ({ w with stack := rest }.testEvent env ptr mask EPOLLERR
      Handler.errorCallback) ↔ KeepsClient k w (.resume env) := by
  have hw₁ := hw.pop hst
  have h₁ : StateMatches k { w with stack := rest } := h.same (.refl_of rfl rfl)
  have hclose : w.entersClose (.resume env) = none := by
    simp [World.entersClose, hst]
  rcases hw₁.error_cases env ptr mask rfl with
    ⟨hno, heq⟩ | ⟨_, hptr, heq⟩ | ⟨k', n, g, hk, hbits, hg, heq⟩ <;> rw [heq]
  · refine iff_of_true h₁ (keepsClient_of_neutral ?_ hclose)
    rcases hno with hmask | hne
    · cases ptr <;> simp [World.failsAttempt, hst, hmask]
    · cases ptr with
      | connecting k' n => exact absurd rfl (hne k' n)
      | conn c => simp [World.failsAttempt, hst]
      | acceptor s => simp [World.failsAttempt, hst]
  · refine iff_of_true (h₁.same (.quiet (World.quiet_fail _ _))) (keepsClient_of_neutral ?_ hclose)
    cases ptr with
    | connecting k' n =>
        simp only [World.failsAttempt, hst]
        rintro ⟨rfl, _, hattempt⟩
        exact not_attempting_of_dead (w := w) hptr hattempt
    | conn c => simp [World.failsAttempt, hst]
    | acceptor s => simp [World.failsAttempt, hst]
  · subst hk
    -- likewise
    by_cases hkk : k' = k
    · subst hkk
      rw [stateMatches_clientHandleError h₁ hg]
      constructor
      · refine fun hgood => keepsClient_of_neutral (fun hf => hgood ?_) hclose
        simp only [World.failsAttempt, hst] at hf
        exact hf.2.2
      · refine fun hk hbad => hk.1 ?_
        simp only [World.failsAttempt, hst]
        exact ⟨trivial, hbits, hbad⟩
    · refine iff_of_true (h₁.same (sameClient_clientHandleError hkk))
        (keepsClient_of_neutral ?_ hclose)
      simp [World.failsAttempt, hst, hkk]

theorem stateMatches_disconnect (h : StateMatches k w) (k' : Nat) (ok : Bool) :
    StateMatches k (w.disconnect k' ok) := by
  by_cases hkk : k' = k
  · subst hkk
    refine .of_disConnected ?_
    have hself : ((w.setClient k' { w.clients k' with state := .disConnected }).clients k')
        = { w.clients k' with state := .disConnected } := Function.update_self ..
    unfold World.disconnect
    simp only
    split
    · rw [(World.quiet_fail _ _).clients, hself]
    · rw [(World.quiet_shutDown _ _ _).clients, hself]
  · exact h.same (sameClient_disconnect hkk ok)

/-- A step in which nothing happens for the client, and which enters no `Close`. -/
theorem StateMatches.neutral {w' : World} {l : Label} (h : StateMatches k w)
    (hs : SameClient k w w') (hfails : ¬ w.failsAttempt k l) (hclose : w.entersClose l = none) :
    StateMatches k w' ↔ KeepsClient k w l :=
  iff_of_true (h.same hs) (keepsClient_of_neutral hfails hclose)

/-- **One step**: it keeps the client's state and resources together exactly when
it is none of the steps above. -/
theorem stateMatches_step {w' : World} {l : Label} (h : StateMatches k w) (hw : Coherent w)
    (hnext : w.next l = some w') : StateMatches k w' ↔ KeepsClient k w l := by
  have hflags : ∀ k' a b d, SameClient k w (w.setFlags k' a b d) := by
    intro k' a b d
    by_cases hkk : k' = k
    · subst hkk
      refine .of_fields ?_ ?_ ?_ rfl <;> simp [World.setFlags, World.setClient]
    · exact .refl_of (Function.update_of_ne (Ne.symm hkk) ..) rfl
  obtain ⟨_, hturn⟩ := World.next_turn hnext
  cases hturn with
  | poll hst => exact h.neutral (.refl_of rfl rfl) id rfl
  | loopEnd hst =>
      exact h.neutral (.refl_of rfl rfl) (by simp [World.failsAttempt, hst])
        (by simp [World.entersClose, hst])
  | loopStale hst hptr =>
      exact h.neutral (.quiet (World.quiet_fail w _)) (by simp [World.failsAttempt, hst])
        (by simp [World.entersClose, hst])
  | loopNext hst hptr =>
      exact h.neutral (.refl_of rfl rfl) (by simp [World.failsAttempt, hst])
        (by simp [World.entersClose, hst])
  | readTest hst hadm => exact stateMatches_readTest h hw hst
  | writeTest hst hadm => exact stateMatches_writeTest h hw hst
  | errorTest hst => exact stateMatches_errorTest h hw hst
  | @finishClose env c rest hst =>
      have hrel : SameClient k w ({ w with stack := rest }.release c) :=
        .ends (World.quiet_release _ c) (.refl_of rfl rfl)
      exact h.neutral (hrel.trans (.quiet (World.quiet_finishClose _ c)))
        (by simp [World.failsAttempt, hst]) (by simp [World.entersClose, hst])
  | @connect k' ip port sock outcome hsock =>
      refine iff_of_true ?_ (keepsClient_of_neutral id rfl)
      by_cases hkk : k' = k
      · subst hkk
        exact h.connect hw ip port sock outcome
      · exact h.same (sameClient_connect hkk ip port sock outcome)
  | disconnect =>
      exact iff_of_true (stateMatches_disconnect h _ _) (keepsClient_of_neutral id rfl)
  | clientSend hout =>
      exact h.neutral (.quiet (World.quiet_clientSend w _ _ _ _ _)) id rfl
  | setConnectionCallback => exact h.neutral (hflags _ _ _ _) id rfl
  | setMessageCallback => exact h.neutral (hflags _ _ _ _) id rfl
  | setDisconnectCallback => exact h.neutral (hflags _ _ _ _) id rfl
  | @serverStart s fd hacc hfd =>
      refine h.neutral ?_ id rfl
      unfold World.serverStart
      exact .ends (World.quiet_update _ _ _) (.refl_of rfl rfl)
  | serverSetConnCallback => exact h.neutral (.refl_of rfl rfl) id rfl
  | serverSetMessageCallback => exact h.neutral (.refl_of rfl rfl) id rfl
  | send hacc hout => exact h.neutral (.quiet (World.quiet_send _ _ _ _ _ _)) id rfl
  | shutDown hacc => exact h.neutral (.quiet (World.quiet_shutDown _ _ _)) id rfl
  | @close c hacc =>
      rw [keepsClient_of_close (c := c) (l := .user (.close c)) id rfl]
      exact stateMatches_close_iff h hw c
  | retrieve hacc =>
      exact h.neutral (.quiet (World.quiet_setConn _ (TcpConnection.parts_retrieve _ _))) id rfl
  | retrieveAll hacc =>
      exact h.neutral (.quiet (World.quiet_setConn _ (TcpConnection.parts_retrieveAll _))) id rfl
  | keep hacc => exact h.neutral (.refl_of rfl rfl) id rfl
  | @drop c hkept => exact h.neutral (.ends (World.quiet_release _ c) (.refl_of rfl rfl)) id rfl
  | @retConnection c rest hst =>
      exact h.neutral (.ends (World.quiet_release _ c) (.refl_of rfl rfl)) id rfl
  | @retMessage c rest hst =>
      exact h.neutral (.ends (World.quiet_release _ c) (.refl_of rfl rfl)) id rfl
  | retDisconnect hst => exact h.neutral (.refl_of rfl rfl) id rfl

end Steps

/-! ## §5. Whole runs. -/

theorem stateMatches_init (k : Nat) : StateMatches k World.init :=
  .of_disConnected rfl

/-- **When a client's state matches its resources.**  In every run, throughout
the run CONNECTING means a connecting handler, CONNECTED means a connection that
is not closed, `Connect` stays silent only over one of these and dials from and
after the disconnect callback — if and only if no step of the run fails an
attempt of the client that is under way, closes the connection of a client that
says it is connected, or reports a loss to a client that says it is connecting.
A run ends at its first fault; after a use of a dead object (`World.finishClose`)
C++ defines no further step. -/
theorem client_state_iff (k : Nat) (labels : List Label) (t : World)
    (hrun : exec World.next World.init labels = some t) :
    Always World.next (ClientConsistent k) World.init labels ↔
      Along World.next (KeepsClient k) World.init labels := by
  refine always_iff_along (I := fun w => Coherent w ∧ StateMatches k w) (D := fun _ _ => True)
    (fun w h => clientConsistent_iff.mpr h.2) ?_ ?_ ⟨coherent_init, stateMatches_init k⟩
    (Along.of_forall (fun _ _ => trivial) _) hrun
  · intro w l w' h _ hkeep hnext
    exact ⟨h.1.next hnext, (stateMatches_step h.2 h.1 hnext).mpr hkeep⟩
  · intro w l w' h _ hlose hnext hcons
    exact hlose ((stateMatches_step h.2 h.1 hnext).mp (clientConsistent_iff.mp hcons))

/-- The theorem on a client that connects at once and disconnects. -/
theorem client_state_on_run :
    (exec World.next World.init
        [.user (.setDisconnectCallback 0 true), .user (.connect 0 [] 80 (some 5) .ok),
         .user (.disconnect 0 true)]).isSome = true
      ∧ Always World.next (ClientConsistent 0) World.init
        [.user (.setDisconnectCallback 0 true), .user (.connect 0 [] 80 (some 5) .ok),
         .user (.disconnect 0 true)] := by
  have h : (exec World.next World.init
      [.user (.setDisconnectCallback 0 true), .user (.connect 0 [] 80 (some 5) .ok),
       .user (.disconnect 0 true)]).isSome = true := by
    decide +kernel
  obtain ⟨t, hrun⟩ := Option.isSome_iff_exists.mp h
  refine ⟨h, (client_state_iff 0 _ t hrun).mpr ?_⟩
  refine Along.cons rfl (keepsClient_of_neutral id rfl) ?_
  refine Along.cons rfl (keepsClient_of_neutral id rfl) ?_
  exact ⟨keepsClient_of_neutral id rfl, fun _ _ => trivial⟩

/-- **A refused connect.**  The kernel reports the refusal with EPOLLOUT and
EPOLLERR; `HandleWrite` finds SO_ERROR set, drops the handler and leaves the
state at CONNECTING. -/
theorem refused_connect_stays_connecting :
    ∃ t, exec World.next World.init
        [.user (.connect 0 [] 80 (some 5) (.failed .EINPROGRESS)),
         .poll [(5, EPOLLOUT ||| EPOLLERR)], .resume .idle, .resume .idle,
         .resume { Env.idle with soError := 111 }] = some t
      ∧ ¬ ClientConsistent 0 t := by
  have h : (exec World.next World.init
      [.user (.connect 0 [] 80 (some 5) (.failed .EINPROGRESS)),
       .poll [(5, EPOLLOUT ||| EPOLLERR)], .resume .idle, .resume .idle,
       .resume { Env.idle with soError := 111 }]).map (fun t =>
        ((t.clients 0).state, (t.clients 0).connHandler.isSome)) = some (.connecting, false) := by
    decide +kernel
  obtain ⟨t, hrun, ht⟩ := Option.map_eq_some_iff.mp h
  refine ⟨t, hrun, fun hcons => ?_⟩
  obtain ⟨hst, hnone⟩ := Prod.mk.inj ht
  exact absurd ((hcons.attempt hst).symm.trans hnone) (by simp)

end SparkNet
