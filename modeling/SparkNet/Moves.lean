/-
  SparkNet.Moves — what one step does to the slots.

  A slot is written in three places: `ConnEstablish` and `OnNewConnect` put a new
  connection into one, the close callback empties one.  Everything else leaves
  the slots, the bindings and the counters alone, and notes nothing in the log
  about them.

  Main result:
    * `World.moves_next` — every step leaves the slots alone, opens a connection
      in one slot, or closes one live connection.
-/
import SparkNet.Deregistration

namespace SparkNet

open Runs

/-! ## §1. The three kinds of change. -/

/-- The events that say what becomes of a connection's slot. -/
def Event.isMark : Event → Bool
  | .closeEntered _ => true
  | .closeCallback _ => true
  | .displaced _ => true
  | _ => false

theorem Event.isReport_of_isMark {e : Event} (h : e.isMark = true) : e.isReport = false := by
  cases e <;> first | rfl | exact absurd h (by simp [isMark])

/-- The server whose map the slot is an entry of. -/
def Slot.server? : Slot → Option Nat
  | .client _ => none
  | .server s _ => some s

/-- From `w` to `w'` no slot was written. -/
structure Unmoved (w w' : World) : Prop where
  slot : w'.slot = w.slot
  parts : ∀ c, (w'.conns c).parts = (w.conns c).parts
  connCount : w'.connCount = w.connCount
  connId : ∀ s, (w'.servers s).connId = (w.servers s).connId
  marks : ∀ e : Event, e.isMark = true → (e ∈ w'.log ↔ e ∈ w.log)

/-- From `w` to `w'` a new connection, to the peer at `addr`, was put into slot
`σ`. -/
structure Opens (w w' : World) (σ : Slot) (addr : InetAdress) : Prop where
  slot : w'.slot = Function.update w.slot σ (some w.connCount)
  bound : (w'.conns w.connCount).slot = some σ
  addr : (w'.conns w.connCount).addr = addr
  parts : ∀ c, c ≠ w.connCount → (w'.conns c).parts = (w.conns c).parts
  connCount : w'.connCount = w.connCount + 1
  connId : ∀ s, (w'.servers s).connId
    = (w.servers s).connId + if σ.server? = some s then 1 else 0
  marks : ∀ e : Event, e.isMark = true →
    (e ∈ w'.log ↔ e ∈ w.log ∨ ∃ o, w.slot σ = some o ∧ e = .displaced o)

/-- From `w` to `w'` connection `c`, whose slot is `σ`, was closed.  `RemoveConn`
empties the slot whatever it holds; `HandleClose` only if it holds `c`. -/
structure Closes (w w' : World) (c : Nat) (σ : Slot) : Prop where
  slot : w'.slot = Function.update w.slot σ none
    ∨ σ.server? = none ∧ w.slot σ ≠ some c ∧ w'.slot = w.slot
  parts : ∀ d, (w'.conns d).parts = (w.conns d).parts
  connCount : w'.connCount = w.connCount
  connId : ∀ s, (w'.servers s).connId = (w.servers s).connId
  marks : ∀ e : Event, e.isMark = true → (e ∈ w'.log ↔ e ∈ w.log
    ∨ e = .closeEntered c ∨ e = .closeCallback c
    ∨ ∃ d, σ.server?.isSome = true ∧ w.slot σ = some d ∧ d ≠ c ∧ e = .displaced d)

namespace Unmoved

variable {w w' w'' : World}

theorem trans (h : Unmoved w w') (h' : Unmoved w' w'') : Unmoved w w'' where
  slot := h'.slot.trans h.slot
  parts := fun c => (h'.parts c).trans (h.parts c)
  connCount := h'.connCount.trans h.connCount
  connId := fun s => (h'.connId s).trans (h.connId s)
  marks := fun e he => (h'.marks e he).trans (h.marks e he)

theorem of_eq (hslot : w'.slot = w.slot) (hconns : w'.conns = w.conns)
    (hcount : w'.connCount = w.connCount)
    (hid : ∀ s, (w'.servers s).connId = (w.servers s).connId) (hlog : w'.log = w.log) :
    Unmoved w w' :=
  ⟨hslot, fun c => by rw [hconns], hcount, hid, fun e _ => by rw [hlog]⟩

theorem refl (w : World) : Unmoved w w := of_eq rfl rfl rfl (fun _ => rfl) rfl

theorem quiet (hq : World.Quiet w w') : Unmoved w w' where
  slot := hq.slot
  parts := hq.parts
  connCount := hq.connCount
  connId := fun s => by rw [hq.servers]
  marks := fun e he => hq.mem_log (Event.isReport_of_isMark he)

/-- A quiet end of a function. -/
theorem ends (hq : World.Quiet w' w'') (h : Unmoved w w') : Unmoved w w'' := h.trans (.quiet hq)

theorem emit {e : Event} (he : e.isMark = false) : Unmoved w (w.emit e) where
  slot := rfl
  parts := fun _ => rfl
  connCount := rfl
  connId := fun _ => rfl
  marks := by
    intro e' he'
    refine ⟨fun hm => (List.mem_cons.mp hm).resolve_left ?_, List.mem_cons_of_mem e⟩
    rintro rfl
    exact absurd he' (by simp [he])

theorem push (f : Frame) : Unmoved w (w.push f) := of_eq rfl rfl rfl (fun _ => rfl) rfl

theorem setStack (w : World) (st : List Frame) : Unmoved w { w with stack := st } :=
  of_eq rfl rfl rfl (fun _ => rfl) rfl

/-- A change to a client that leaves `_conn` alone. -/
theorem setClient {k : Nat} {x : TCPClient} (hx : x.conn = (w.clients k).conn) :
    Unmoved w (w.setClient k x) :=
  of_eq (World.slot_setClient_same hx) rfl rfl (fun _ => rfl) rfl

/-- A change to a server that leaves `_conns` and `_connId` alone. -/
theorem setServer {s : Nat} {x : TcpServer} (hx : x.conns = (w.servers s).conns)
    (hid : x.connId = (w.servers s).connId) : Unmoved w (w.setServer s x) := by
  refine of_eq (World.slot_setServer_same hx) rfl rfl (fun s' => ?_) rfl
  by_cases hs : s' = s
  · subst hs
    simpa [World.setServer] using hid
  · simp [World.setServer, hs]

theorem runDisconnectCallback (k : Nat) : Unmoved w (w.runDisconnectCallback k) := by
  unfold World.runDisconnectCallback
  split
  · exact (emit rfl).trans (push _)
  · exact refl w

theorem start (c : Nat) : Unmoved w (w.start c) := by
  have hop : Unmoved w (w.connOp c (w.conns c).start true) :=
    quiet (World.quiet_connOp w true (TcpConnection.parts_start _))
  unfold World.start
  simp only
  split
  · exact (hop.trans (emit rfl)).trans (push _)
  · exact hop

theorem dial (k : Nat) (ip : Text) (port : BitVec 16) (fd : Nat) :
    Unmoved w (w.dial k ip port fd) := by
  have haddr : Unmoved w (w.storeAddr k ip port) := setClient rfl
  have hdialled : Unmoved (w.storeAddr k ip port)
      ((w.storeAddr k ip port).emit
        (.dialled k ((w.clients k).addr.fromIpPort ip port).2.addr)) := emit rfl
  exact (haddr.trans hdialled).ends World.Quiet.of_machine

theorem connecting (k fd : Nat) : Unmoved w (w.connecting k fd) := by
  have hnew : ∀ (v : World) (x : TCPClient) (ptr : HandlerPtr) (g : Handler HandlerCallback),
      x.conn = (v.clients k).conn →
      Unmoved v (({ v with handlerCount := w.handlerCount + 1 }.setClient k x).update ptr g) := by
    intro v x ptr g hx
    have hcount : Unmoved v { v with handlerCount := w.handlerCount + 1 } :=
      of_eq rfl rfl rfl (fun _ => rfl) rfl
    exact (hcount.trans (setClient hx)).ends (World.quiet_update _ ptr g)
  unfold World.connecting
  simp only
  cases (w.clients k).connHandler with
  | none =>
      apply hnew w
      rfl
  | some q =>
      obtain ⟨m, old⟩ := q
      have hlost : Unmoved w (w.emit (.handlerDestroyed (.connecting k m)
          (w.poller.handlers old.fd).isSome)) := emit rfl
      apply hlost.trans
      apply hnew
      rfl

theorem dropConnHandler (k n : Nat) (g : Handler HandlerCallback) :
    Unmoved w (w.dropConnHandler k n g) := by
  have hset : Unmoved (w.update (.connecting k n) g.disableAll)
      ((w.update (.connecting k n) g.disableAll).setClient k
        { (w.update (.connecting k n) g.disableAll).clients k with connHandler := none }) :=
    setClient rfl
  unfold World.dropConnHandler
  exact ((quiet (World.quiet_update _ _ _)).trans hset).ends (World.quiet_report _ rfl)

theorem clientHandleError (k : Nat) : Unmoved w (w.clientHandleError k) := by
  unfold World.clientHandleError
  split
  · split
    · exact quiet (World.quiet_fail _ _)
    · exact ((dropConnHandler _ _ _).ends (World.quiet_closeFd _ _)).trans
        (runDisconnectCallback k)
  · exact refl w

theorem disconnect (k : Nat) (ok : Bool) : Unmoved w (w.disconnect k ok) := by
  have hset : Unmoved w (w.setClient k { w.clients k with state := .disConnected }) :=
    setClient rfl
  unfold World.disconnect
  simp only
  split
  · exact hset.ends (World.quiet_fail _ _)
  · exact hset.ends (World.quiet_shutDown _ _ _)

theorem clientSend (k : Nat) (mem : Memory) (data len : SizeT) (out : WriteOutcome) :
    Unmoved w (w.clientSend k mem data len out) :=
  quiet (World.quiet_clientSend w k mem data len out)

end Unmoved

namespace Opens

variable {w w' w'' : World} {σ : Slot} {addr : InetAdress}

/-- What comes before writes no slot. -/
theorem before (hu : Unmoved w w') (h : Opens w' w'' σ addr) : Opens w w'' σ addr where
  slot := by rw [h.slot, hu.slot, hu.connCount]
  bound := hu.connCount ▸ h.bound
  addr := hu.connCount ▸ h.addr
  parts := fun c hc => (h.parts c (hu.connCount.symm ▸ hc)).trans (hu.parts c)
  connCount := h.connCount.trans (congrArg (· + 1) hu.connCount)
  connId := fun s => by rw [h.connId, hu.connId]
  marks := fun e he => by rw [h.marks e he, hu.marks e he, hu.slot]

/-- Nor does what comes after. -/
theorem after (h : Opens w w' σ addr) (hu : Unmoved w' w'') : Opens w w'' σ addr where
  slot := hu.slot.trans h.slot
  bound := (TcpConnection.slot_congr (hu.parts _)).trans h.bound
  addr := (congrArg ConnParts.addr (hu.parts _)).trans h.addr
  parts := fun c hc => (hu.parts c).trans (h.parts c hc)
  connCount := hu.connCount.trans h.connCount
  connId := fun s => (hu.connId s).trans (h.connId s)
  marks := fun e he => (hu.marks e he).trans (h.marks e he)

/-- The assignment into the slot, with what was there noted. -/
theorem of_stored {v : World} {x : TcpConnection}
    (hslot : v.slot = Function.update w.slot σ (some w.connCount))
    (hconns : v.conns = Function.update w.conns w.connCount x)
    (hcount : v.connCount = w.connCount + 1) (hlog : v.log = w.log)
    (hid : ∀ s, (v.servers s).connId
      = (w.servers s).connId + if σ.server? = some s then 1 else 0)
    (hx : x.slot = some σ) (haddr : x.addr = addr) :
    Opens w { v with log := ((w.slot σ).map Event.displaced).toList ++ v.log } σ addr where
  slot := hslot
  bound := by
    show (v.conns w.connCount).slot = some σ
    rw [hconns, Function.update_self, hx]
  addr := by
    show (v.conns w.connCount).addr = addr
    rw [hconns, Function.update_self, haddr]
  parts := fun c hc => by
    show (v.conns c).parts = (w.conns c).parts
    rw [hconns, Function.update_of_ne hc]
  connCount := hcount
  connId := hid
  marks := fun e _ => by
    simp only [hlog, List.mem_append, Option.mem_toList, Option.map_eq_some_iff]
    rw [or_comm]
    refine or_congr Iff.rfl (exists_congr fun o => and_congr Iff.rfl ?_)
    exact eq_comm

theorem connEstablish (k fd : Nat) :
    Opens w (w.connEstablish k fd) (.client k) (w.clients k).addr := by
  have hstored : Opens w { w.storeClientConn k fd with
      log := ((w.slot (.client k)).map Event.displaced).toList ++ (w.storeClientConn k fd).log }
      (.client k) (w.clients k).addr :=
    of_stored (w.reslots_storeClientConn k fd).slot rfl rfl rfl
      (fun s => by simp [Slot.server?, World.storeClientConn, World.newConn, World.setClient])
      rfl rfl
  unfold World.connEstablish
  exact (hstored.after (.quiet (World.quiet_letGo _ _))).after (.start _)

theorem onNewConnect (s fd : Nat) (addr : InetAdress) :
    Opens w (w.onNewConnect s fd addr) (.server s (w.nextName s addr)) addr := by
  have hid : ∀ s', ((w.storeServerConn s fd addr).servers s').connId
      = (w.servers s').connId
        + if (Slot.server s (w.nextName s addr)).server? = some s' then 1 else 0 := by
    intro s'
    by_cases hs : s = s'
    · subst hs
      simp [Slot.server?, World.storeServerConn, World.newConn, World.setServer]
    · simp [Slot.server?, World.storeServerConn, World.newConn, World.setServer, hs, Ne.symm hs]
  have hstored : Opens w { w.storeServerConn s fd addr with
      log := ((w.slot (.server s (w.nextName s addr))).map Event.displaced).toList
        ++ (w.storeServerConn s fd addr).log } (.server s (w.nextName s addr)) addr :=
    of_stored (w.reslots_storeServerConn s fd addr).slot rfl rfl rfl hid rfl rfl
  unfold World.onNewConnect
  exact (hstored.after (.quiet (World.quiet_letGo _ _))).after (.start _)

theorem acceptorHandleRead (s fd : Nat) (peer : SockaddrIn) :
    Opens w (w.acceptorHandleRead s (.conn fd peer))
      (.server s (w.nextName s (InetAdress.new.fromAddr peer).2))
      (InetAdress.new.fromAddr peer).2 := by
  have hopen : Unmoved w { w with fds := Function.update w.fds fd true } :=
    .of_eq rfl rfl rfl (fun _ => rfl) rfl
  exact before hopen
    (onNewConnect (w := { w with fds := Function.update w.fds fd true }) s fd _)

end Opens

namespace Closes

variable {w w' w'' : World} {c : Nat} {σ : Slot}

theorem before (hu : Unmoved w w') (h : Closes w' w'' c σ) : Closes w w'' c σ where
  slot := by
    rw [← hu.slot]
    exact h.slot
  parts := fun d => (h.parts d).trans (hu.parts d)
  connCount := h.connCount.trans hu.connCount
  connId := fun s => (h.connId s).trans (hu.connId s)
  marks := fun e he => by rw [h.marks e he, hu.marks e he, hu.slot]

theorem after (h : Closes w w' c σ) (hu : Unmoved w' w'') : Closes w w'' c σ where
  slot := by
    rw [hu.slot]
    exact h.slot
  parts := fun d => (hu.parts d).trans (h.parts d)
  connCount := hu.connCount.trans h.connCount
  connId := fun s => (hu.connId s).trans (h.connId s)
  marks := fun e he => (hu.marks e he).trans (h.marks e he)

/-- `RemoveConn` in the middle of `Close`. -/
theorem eraseConn (w : World) (s c : Nat) :
    Closes w ((w.enterClose c).eraseConn s c) c (.server s (w.conns c).name) where
  slot := Or.inl (World.slot_eraseConn (w.enterClose c) s c)
  parts := fun _ => rfl
  connCount := rfl
  connId := fun s' => by
    by_cases hs : s' = s
    · subst hs
      simp [World.eraseConn, World.setServer, World.enterClose, World.emit, World.push]
    · simp [World.eraseConn, World.setServer, World.enterClose, World.emit, World.push, hs]
  marks := fun e _ => by
    rw [World.mem_log_eraseConn, World.mem_log_enterClose, or_assoc]
    refine or_congr Iff.rfl ?_
    rw [or_assoc]
    refine or_congr Iff.rfl (or_congr Iff.rfl (exists_congr fun d => ?_))
    constructor
    · rintro ⟨he, hne, hd⟩
      exact ⟨rfl, hd, hne, he⟩
    · rintro ⟨_, hd, hne, he⟩
      exact ⟨he, hne, hd⟩

/-- `HandleClose` on the client's current connection. -/
theorem resetConn (w : World) (k c : Nat) :
    Closes w ((w.enterClose c).resetConn k) c (.client k) := by
  have hset : Closes w ((w.enterClose c).setClient k
      { (w.enterClose c).clients k with conn := none }) c (.client k) := by
    refine ⟨Or.inl ((w.enterClose c).slot_setClient k _), fun _ => rfl, rfl, fun _ => rfl,
      fun e _ => ?_⟩
    refine World.mem_log_enterClose.trans (or_congr Iff.rfl (or_congr Iff.rfl ?_))
    refine ⟨Or.inl, fun h => h.resolve_right ?_⟩
    rintro ⟨d, hserver, _⟩
    exact absurd hserver (by simp [Slot.server?])
  exact hset.after (.runDisconnectCallback k)

/-- `HandleClose` on another one. -/
theorem foreign {k : Nat} (hconn : (w.clients k).conn ≠ some c) :
    Closes w (w.enterClose c) c (.client k) where
  slot := Or.inr ⟨rfl, hconn, rfl⟩
  parts := fun _ => rfl
  connCount := rfl
  connId := fun _ => rfl
  marks := fun e _ => by
    refine World.mem_log_enterClose.trans (or_congr Iff.rfl (or_congr Iff.rfl ?_))
    refine ⟨Or.inl, fun h => h.resolve_right ?_⟩
    rintro ⟨d, hserver, _⟩
    exact absurd hserver (by simp [Slot.server?])

theorem close (hw : Coherent w) (hlive : w.live c = true) :
    ∃ σ, (w.conns c).slot = some σ ∧ Closes w (w.close c) c σ := by
  obtain ⟨_, _, _, hslot⟩ := hw.conn c (hw.known_of_live hlive)
  rcases World.close_cases hlive hslot with
    ⟨s, hcb, hq⟩ | ⟨k, hcb, hconn, hq⟩ | ⟨k, hcb, hconn, hq⟩
  · exact ⟨_, by simp [TcpConnection.slot, hcb], (eraseConn w s c).after (.quiet hq)⟩
  · exact ⟨_, by simp [TcpConnection.slot, hcb], (resetConn w k c).after (.quiet hq)⟩
  · exact ⟨_, by simp [TcpConnection.slot, hcb], (foreign hconn).after (.quiet hq)⟩

end Closes

/-! ## §2. One step. -/

namespace World

/-- The server the step runs `OnNewConnect` on, and the peer it accepts. -/
def acceptsFrom (w : World) : Label → Option (Nat × SockaddrIn)
  | .resume env =>
      match w.stack, env.accept with
      | .handleEvent (.acceptor s) mask .read :: _, .conn _ peer =>
          if mask.has readBits = true ∧ (w.servers s).accepter.isSome = true then some (s, peer)
          else none
      | _, _ => none
  | _ => none

end World

/-- What a step does to the slots. -/
inductive Moves (w : World) (l : Label) (w' : World) : Prop
  | stays (hest : w.establishes l = none) (hacc : w.acceptsFrom l = none)
      (hclose : ∀ c, w.entersClose l = some c → w.live c = false) (h : Unmoved w w')
  | establishes {k : Nat} {addr : InetAdress} (hest : w.establishes l = some k)
      (hacc : w.acceptsFrom l = none) (hclose : w.entersClose l = none)
      (h : Opens w w' (.client k) addr)
  | accepts {s : Nat} {peer : SockaddrIn} (hacc : w.acceptsFrom l = some (s, peer))
      (hclose : w.entersClose l = none)
      (h : Opens w w' (.server s (w.nextName s (InetAdress.new.fromAddr peer).2))
        (InetAdress.new.fromAddr peer).2)
  | closes {c : Nat} {σ : Slot} (hclose : w.entersClose l = some c) (hlive : w.live c = true)
      (hacc : w.acceptsFrom l = none) (hσ : (w.conns c).slot = some σ) (h : Closes w w' c σ)

namespace World

variable {w w' : World} {l : Label}

/-- `Connect` dials, fails, or stores a connection at once. -/
theorem moves_connect {k : Nat} {ip : Text} {port : BitVec 16} {sock : Option Nat}
    {outcome : ConnectOutcome} :
    Moves w (.user (.connect k ip port sock outcome)) (w.connect k ip port sock outcome) := by
  have hstays : ∀ {v : World}, w.establishes (.user (.connect k ip port sock outcome)) = none →
      Unmoved w v → Moves w (.user (.connect k ip port sock outcome)) v :=
    fun hest hu => .stays hest rfl (fun c hc => absurd hc (by simp [entersClose])) hu
  unfold World.connect
  split
  next hst => exact hstays (by cases sock <;> cases outcome <;> simp [establishes, hst]) (.refl w)
  next hst =>
    have hstate : (w.clients k).state = .disConnected := not_not.mp hst
    cases sock with
    | none => exact hstays rfl (.setClient rfl)
    | some fd =>
        have hdial : Unmoved w (w.dial k ip port fd) := .dial k ip port fd
        simp only
        cases outcome with
        | ok =>
            exact .establishes (by simp [establishes, hstate]) rfl rfl
              (Opens.before hdial (.connEstablish k fd))
        | failed errno =>
            simp only
            split
            · exact hstays rfl (hdial.trans (.connecting k fd))
            · exact hstays rfl (Unmoved.ends (quiet_closeFd _ _) (hdial.trans (.setClient rfl)))

/-- `Close` of a live connection. -/
theorem moves_close {v : World} {c : Nat} (hw : Coherent v) (hv : Unmoved w v)
    (hlive : v.live c = true) (hlive' : w.live c = true) (hclose : w.entersClose l = some c)
    (hacc : w.acceptsFrom l = none) : Moves w l (v.close c) := by
  obtain ⟨σ, hσ, hc⟩ := Closes.close hw hlive
  have hσ' : (w.conns c).slot = some σ := (TcpConnection.slot_congr (hv.parts c)).symm.trans hσ
  exact .closes hclose hlive' hacc hσ' (hc.before hv)

/-- `HandleRead` of a live connection: only a FIN makes it call `Close`. -/
theorem moves_tcpHandleRead {v : World} {c : Nat} {r : ReadOutcome} (hw : Coherent v)
    (hv : Unmoved w v) (hlive : v.live c = true) (hlive' : w.live c = true)
    (hest : w.establishes l = none) (hacc : w.acceptsFrom l = none)
    (hclose : w.entersClose l = if r = .eof then some c else none) :
    Moves w l (v.tcpHandleRead c r) := by
  have hstays : r ≠ .eof → ∀ {u : World}, Unmoved w u → Moves w l u := by
    intro hr u hu
    rw [if_neg hr] at hclose
    exact .stays hest hacc (fun d hd => absurd (hclose.symm.trans hd) (by simp)) hu
  unfold tcpHandleRead
  rw [if_pos hlive]
  cases r with
  | failed errno => exact hstays (by simp) hv
  | eof => exact moves_close hw hv hlive hlive' hclose hacc
  | data bytes =>
      have hrecv := hv.ends (quiet_setConn v (TcpConnection.parts_receive (v.conns c) bytes))
      simp only
      split
      · exact hstays (by simp) ((hrecv.trans (.emit rfl)).trans (.push _))
      · exact hstays (by simp) (hrecv.ends (quiet_fail _ _))

/-- The read test. -/
theorem moves_readTest (hw : Coherent w) {env : Env} {ptr : HandlerPtr} {mask : EventMask}
    {rest : List Frame} (hst : w.stack = .handleEvent ptr mask .read :: rest) :
    Moves w (.resume env) ({ w with stack := .handleEvent ptr mask .write :: rest }.testEvent env
      ptr mask World.readBits Handler.readCallback) := by
  have hany := holds_advance hst .write
  have hset : Unmoved w { w with stack := .handleEvent ptr mask .write :: rest } :=
    .setStack w _
  have hest : w.establishes (.resume env) = none := by simp [establishes, hst]
  rcases (hw.advance hst .write).read_cases env ptr mask rfl with
    ⟨hno, heq⟩ | ⟨hbits, hptr, heq⟩ | ⟨c, hc, hbits, hlive, heq⟩ | ⟨s, hs, hbits, hsome, heq⟩
  · rw [heq]
    refine .stays hest ?_ (fun c hc => ?_) hset
    · rcases hno with hno | ⟨k, n, rfl⟩
      · cases ptr <;> cases henv : env.accept <;> simp [acceptsFrom, hst, henv, hno]
      · simp [acceptsFrom, hst]
    · rcases hno with hno | ⟨k, n, rfl⟩
      · cases ptr <;> simp [entersClose, hst, hno] at hc
      · simp [entersClose, hst] at hc
  · rw [heq]
    refine .stays hest ?_ (fun c hc => ?_) (hset.ends (quiet_fail _ _))
    · cases ptr with
      | conn d => simp [acceptsFrom, hst]
      | connecting k n => simp [acceptsFrom, hst]
      | acceptor s =>
          have hnone : (w.servers s).accepter = none := hptr
          cases henv : env.accept <;> simp [acceptsFrom, hst, henv, hnone]
    · cases ptr with
      | connecting k n => simp [entersClose, hst] at hc
      | acceptor s => simp [entersClose, hst] at hc
      | conn d =>
          simp only [entersClose, hst, Option.ite_none_right_eq_some, Option.some.injEq] at hc
          obtain ⟨_, rfl⟩ := hc
          have hdead : ¬ World.live { w with
              stack := .handleEvent (.conn d) mask .write :: rest } d = true := by
            intro hlive
            exact absurd (hptr.symm.trans (if_pos hlive)) (by simp)
          rw [live_setStack (hany d)] at hdead
          exact Bool.eq_false_iff.mpr hdead
  · rw [heq]
    subst hc
    have hacc : w.acceptsFrom (.resume env) = none := by simp [acceptsFrom, hst]
    have hlive' : w.live c = true := (live_setStack (hany c)).symm.trans hlive
    have hclose : w.entersClose (.resume env) = if env.read = .eof then some c else none := by
      simp [entersClose, hst, hbits]
    exact moves_tcpHandleRead (hw.advance hst .write) hset hlive hlive' hest hacc hclose
  · rw [heq]
    subst hs
    have hclose : w.entersClose (.resume env) = none := by simp [entersClose, hst]
    cases haccept : env.accept with
    | failed errno =>
        exact .stays hest (by simp [acceptsFrom, hst, haccept])
          (fun d hd => absurd (hclose.symm.trans hd) (by simp)) hset
    | conn fd peer =>
        have hacc : w.acceptsFrom (.resume env) = some (s, peer) := by
          simp only [acceptsFrom, hst, haccept]
          exact if_pos ⟨hbits, hsome⟩
        exact .accepts hacc hclose (Opens.before hset (Opens.acceptorHandleRead s fd peer))

/-- The write test. -/
theorem moves_writeTest (hw : Coherent w) {env : Env} {ptr : HandlerPtr} {mask : EventMask}
    {rest : List Frame} (hst : w.stack = .handleEvent ptr mask .write :: rest) :
    Moves w (.resume env) ({ w with stack := .handleEvent ptr mask .error :: rest }.testEvent env
      ptr mask EPOLLOUT Handler.writeCallback) := by
  have hset : Unmoved w { w with stack := .handleEvent ptr mask .error :: rest } :=
    .setStack w _
  have hacc : w.acceptsFrom (.resume env) = none := by simp [acceptsFrom, hst]
  have hclose : w.entersClose (.resume env) = none := by simp [entersClose, hst]
  have hstays : ∀ {v : World}, w.establishes (.resume env) = none → Unmoved w v →
      Moves w (.resume env) v := fun hest hu =>
    .stays hest hacc (fun c hc => absurd (hclose.symm.trans hc) (by simp)) hu
  rcases (hw.advance hst .error).write_cases env ptr mask rfl with
    ⟨hno, heq⟩ | ⟨hbits, hptr, heq⟩ | ⟨c, hc, _, _, heq⟩ | ⟨k, n, g, hk, hbits, hg, heq⟩
  · rw [heq]
    refine hstays ?_ hset
    rcases hno with hno | ⟨s, rfl⟩
    · cases ptr <;> simp [establishes, hst, hno]
    · simp [establishes, hst]
  · rw [heq]
    refine hstays ?_ (hset.ends (quiet_fail _ _))
    cases ptr with
    | conn d => simp [establishes, hst]
    | acceptor s => simp [establishes, hst]
    | connecting k n =>
        have hdead : ¬ w.attempting k n := by
          rintro ⟨_, hserial⟩
          obtain ⟨⟨m, g⟩, hg, rfl⟩ := Option.map_eq_some_iff.mp hserial
          exact absurd (hptr.symm.trans (handler?_connecting.mpr hg)) (by simp)
        simp [establishes, hst, hdead]
  · rw [heq]
    subst hc
    exact hstays (by simp [establishes, hst]) (hset.ends (quiet_tcpHandleWrite _ _ _ _))
  · rw [heq]
    subst hk
    have hg' : (w.clients k).connHandler = some (n, g) := hg
    have hest : w.establishes (.resume env)
        = if env.soError = 0 ∧ (w.clients k).state = .connecting then some k else none := by
      simp [establishes, hst, hbits, attempting, hg']
    unfold clientHandleWrite
    simp only [hg']
    split
    next hstate =>
      have hdrop := hset.trans (.dropConnHandler k n g)
      split
      next herr =>
        exact hstays (by rw [hest, if_neg fun h => herr h.1])
          (hdrop.trans (.runDisconnectCallback k))
      next herr =>
        rw [if_pos ⟨not_not.mp herr, hstate⟩] at hest
        exact .establishes hest hacc hclose (Opens.before hdrop (.connEstablish k g.fd))
    next hstate => exact hstays (by rw [hest, if_neg fun h => hstate h.2]) hset

/-- **What a step does to the slots.** -/
theorem moves_next (hw : Coherent w) (hnext : w.next l = some w') : Moves w l w' := by
  obtain ⟨_, hturn⟩ := next_turn hnext
  have hstays : ∀ {v : World}, w.establishes l = none → w.acceptsFrom l = none →
      w.entersClose l = none → Unmoved w v → Moves w l v := fun hest hacc hclose hu =>
    .stays hest hacc (fun c hc => absurd (hclose.symm.trans hc) (by simp)) hu
  have hpop : ∀ {f : Frame} {rest : List Frame} {v : World}, w.stack = f :: rest →
      (∀ ptr mask stage, f ≠ .handleEvent ptr mask stage) → (l = .ret ∨ ∃ env, l = .resume env) →
      Unmoved w v → Moves w l v := by
    intro f rest v hst hf hl hu
    rcases hl with rfl | ⟨env, rfl⟩
    · exact hstays rfl rfl rfl hu
    · cases f with
      | handleEvent ptr mask stage => exact absurd rfl (hf ptr mask stage)
      | _ =>
          exact hstays (by simp [establishes, hst]) (by simp [acceptsFrom, hst])
            (by simp [entersClose, hst]) hu
  cases hturn with
  | poll hst => exact hstays rfl rfl rfl (.push _)
  | @loopEnd env rest hst => exact hpop hst (by simp) (Or.inr ⟨env, rfl⟩) (.setStack w rest)
  | @loopStale env ptr mask batch rest hst hptr =>
      exact hpop hst (by simp) (Or.inr ⟨env, rfl⟩) (.quiet (quiet_fail _ _))
  | @loopNext env ptr mask batch rest h hst hptr =>
      exact hpop hst (by simp) (Or.inr ⟨env, rfl⟩) (.setStack w _)
  | readTest hst hadm => exact moves_readTest hw hst
  | writeTest hst hadm => exact moves_writeTest hw hst
  | @errorTest env ptr mask rest hst =>
      have hset : Unmoved w { w with stack := rest } := .setStack w rest
      refine hstays (by simp [establishes, hst]) (by simp [acceptsFrom, hst])
        (by simp [entersClose, hst]) ?_
      rcases (hw.pop hst).error_cases env ptr mask rfl with
        ⟨_, heq⟩ | ⟨_, _, heq⟩ | ⟨k, n, g, _, _, _, heq⟩
      · rw [heq]
        exact hset
      · rw [heq]
        exact hset.ends (quiet_fail _ _)
      · rw [heq]
        exact hset.trans (.clientHandleError k)
  | @finishClose env c rest hst =>
      refine hpop hst (by simp) (Or.inr ⟨env, rfl⟩) ?_
      have hrel := (Unmoved.setStack w rest).ends (quiet_release _ c)
      exact hrel.ends (quiet_finishClose _ c)
  | connect hsock => exact moves_connect
  | disconnect => exact hstays rfl rfl rfl (.disconnect _ _)
  | clientSend hout => exact hstays rfl rfl rfl (.clientSend _ _ _ _ _)
  | setConnectionCallback => exact hstays rfl rfl rfl (.setClient rfl)
  | setMessageCallback => exact hstays rfl rfl rfl (.setClient rfl)
  | setDisconnectCallback => exact hstays rfl rfl rfl (.setClient rfl)
  | serverStart hacc hfd =>
      refine hstays rfl rfl rfl (Unmoved.ends (quiet_update _ _ _) ?_)
      exact Unmoved.trans (.quiet Quiet.of_machine) (.setServer rfl rfl)
  | serverSetConnCallback => exact hstays rfl rfl rfl (.setServer rfl rfl)
  | serverSetMessageCallback => exact hstays rfl rfl rfl (.setServer rfl rfl)
  | send hacc hout => exact hstays rfl rfl rfl (.quiet (quiet_send _ _ _ _ _ _))
  | shutDown hacc => exact hstays rfl rfl rfl (.quiet (quiet_shutDown _ _ _))
  | close hacc =>
      have hlive := Coherent.live_of_accessible hacc
      exact moves_close hw (.refl w) hlive hlive rfl rfl
  | retrieve hacc =>
      exact hstays rfl rfl rfl (.quiet (quiet_setConn _ (TcpConnection.parts_retrieve _ _)))
  | retrieveAll hacc =>
      exact hstays rfl rfl rfl (.quiet (quiet_setConn _ (TcpConnection.parts_retrieveAll _)))
  | keep hacc => exact hstays rfl rfl rfl (.of_eq rfl rfl rfl (fun _ => rfl) rfl)
  | drop hkept =>
      exact hstays rfl rfl rfl (Unmoved.ends (quiet_release _ _)
        (.of_eq rfl rfl rfl (fun _ => rfl) rfl))
  | @retConnection c rest hst =>
      exact hpop hst (by simp) (Or.inl rfl) ((Unmoved.setStack w rest).ends (quiet_release _ c))
  | @retMessage c rest hst =>
      exact hpop hst (by simp) (Or.inl rfl) ((Unmoved.setStack w rest).ends (quiet_release _ c))
  | retDisconnect hst => exact hpop hst (by simp) (Or.inl rfl) (.setStack w _)

/-- `Close` of a connection is entered where the step enters it. -/
theorem closed_next (hw : Coherent w) (hnext : w.next l = some w') (c : Nat) :
    w'.closed c ↔ w.closed c ∨ w.entersClose l = some c ∧ w.live c = true := by
  have hmark : Event.isMark (.closeEntered c) = true := rfl
  have hnone : ∀ {P : Prop}, w.entersClose l = none → (P ↔ P ∨ w.entersClose l = some c
      ∧ w.live c = true) := by
    intro P hclose
    simp [hclose]
  cases moves_next hw hnext with
  | stays _ _ hclose h =>
      rw [closed, h.marks _ hmark]
      refine ⟨Or.inl, fun hc => hc.resolve_right ?_⟩
      rintro ⟨hc, hlive⟩
      exact absurd ((hclose c hc).symm.trans hlive) (by simp)
  | establishes _ _ hclose h =>
      rw [closed, h.marks _ hmark, ← hnone hclose]
      simp [closed]
  | accepts _ hclose h =>
      rw [closed, h.marks _ hmark, ← hnone hclose]
      simp [closed]
  | @closes d σ hclose hlive _ _ h =>
      rw [closed, h.marks _ hmark, hclose]
      simp only [Event.closeEntered.injEq, reduceCtorEq, and_false, exists_false, or_false,
        Option.some.injEq, closed]
      refine or_congr Iff.rfl ?_
      constructor
      · rintro rfl
        exact ⟨rfl, hlive⟩
      · exact fun h => h.1.symm

end World

end SparkNet
