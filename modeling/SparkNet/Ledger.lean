/-
  SparkNet.Ledger — where every descriptor of a process has gone.

  Beside the process a descriptor table keeps the books: it gives each
  descriptor a serial when `socket` or `accept` returns it, remembers for which
  call, and notes every `close` the process makes.  A number that is used again
  is another descriptor there.

  Main results:
    * `Accounts.next` — the steps are accounted for: one changes which numbers
      are open by the descriptor it obtains and the `close` calls in its log;
    * `never_leaked_iff` — throughout a run every descriptor `Connect` obtained
      is with its client's handler, or with a connection, or closed once, exactly
      when no step of the run leaks one.
-/
import SparkNet.Holdings

namespace SparkNet

open Runs
open Descriptors (Table Holds)

/-! ## §1. The books. -/

/-- The call that obtained a descriptor. -/
inductive Origin where
  /-- `NetOpt::CreateNoBlocking` in this client's `Connect`. -/
  | connect (client : Nat)
  /-- `accept`, or the `socket` of a server's `Start`. -/
  | other
  deriving DecidableEq, Repr

/-- The descriptor a step obtains. -/
def World.obtains (w : World) : Label → Option (Nat × Origin)
  | .user (.connect k _ _ (some fd) _) =>
      if (w.clients k).state = .disConnected then some (fd, .connect k) else none
  | .user (.serverStart _ fd) => some (fd, .other)
  | .resume env =>
      match w.accepts (.resume env), env.accept with
      | some _, .conn fd _ => some (fd, .other)
      | _, _ => none
  | _ => none

/-- An event is entered in the books; who calls `close` does not matter there. -/
def Event.enter (e : Event) (t : Table Origin) : Table Origin :=
  match e with
  | .fdClosed fd _ => (t.close fd .other).2
  | _ => t

/-- A descriptor that was obtained is. -/
def enterObtained (made : Option (Nat × Origin)) (t : Table Origin) : Table Origin :=
  match made with
  | some (fd, origin) => t.obtain fd origin
  | none => t

structure Books where
  world : World
  table : Table Origin

namespace Books

def init : Books := ⟨World.init, Table.empty⟩

/-- One step of the process, with its entries: what it obtains, and then the
events that are new in its log. -/
def next (b : Books) (l : Label) : Option Books :=
  (b.world.next l).map fun w' =>
    ⟨w', (w'.log.take (w'.log.length - b.world.log.length)).foldr Event.enter
      (enterObtained (b.world.obtains l) b.table)⟩

/-- The client's connecting handler has the descriptor. -/
def Handles (b : Books) (k serial : Nat) : Prop :=
  ∃ fd, b.world.handlerFd k = some fd ∧ b.table.slot fd = some serial

/-- The `Socket` of a live connection has it. -/
def Owned (b : Books) (serial : Nat) : Prop :=
  ∃ c, b.world.live c = true ∧ b.table.slot (b.world.conns c).handler.fd = some serial

/-- Every descriptor `Connect` obtained is in one of the three conditions and no
other, and no `close` came a second time. -/
structure NeverLeaked (b : Books) : Prop where
  placed : ∀ k serial, b.table.owner serial = some (.connect k) →
    (b.Handles k serial ∧ ¬ b.Owned serial ∧ b.table.closes serial = 0)
    ∨ (¬ b.Handles k serial ∧ b.Owned serial ∧ b.table.closes serial = 0)
    ∨ (¬ b.Handles k serial ∧ ¬ b.Owned serial ∧ b.table.closes serial = 1)
  exact : b.table.Exact

end Books

/-! ## §2. What a step does to the descriptors. -/

/-- The open descriptors once the new one is there. -/
def opened (made : Option (Nat × Origin)) (fds : Nat → Bool) : Nat → Bool :=
  match made with
  | some (fd, _) => Function.update fds fd true
  | none => fds

/-- From `fds` to `fds'` by the `close` calls among the events, newest first,
each of an open descriptor. -/
inductive Shuts (fds : Nat → Bool) : List Event → (Nat → Bool) → Prop
  | nil : Shuts fds [] fds
  | close {es : List Event} {fds' : Nat → Bool} {fd : Nat} {registered : Bool}
      (h : Shuts fds es fds') (hopen : fds' fd = true) :
      Shuts fds (.fdClosed fd registered :: es) (Function.update fds' fd false)
  | other {es : List Event} {fds' : Nat → Bool} {e : Event} (h : Shuts fds es fds')
      (he : ∀ fd registered, e ≠ .fdClosed fd registered) : Shuts fds (e :: es) fds'

theorem Shuts.append {fds fds' fds'' : Nat → Bool} {es es' : List Event} (h : Shuts fds es fds')
    (h' : Shuts fds' es' fds'') : Shuts fds (es' ++ es) fds'' := by
  induction h' with
  | nil => exact h
  | close _ hopen ih => exact .close ih hopen
  | other _ he ih => exact .other ih he

/-- From `w` to `w'` the log accounts for the descriptors, and no handler has got
one but the one that was `made`. -/
structure Accounts (made : Option (Nat × Origin)) (w w' : World) : Prop where
  shuts : ∃ es, w'.log = es ++ w.log ∧ Shuts (opened made w.fds) es w'.fds
  handler : ∀ k fd, w'.handlerFd k = some fd →
    w.handlerFd k = some fd ∨ made = some (fd, .connect k)
  acceptor : ∀ s fd, w'.fd? (.acceptor s) = some fd →
    w.fd? (.acceptor s) = some fd ∨ made = some (fd, .other)

namespace Accounts

variable {made : Option (Nat × Origin)} {w w' w'' : World}

theorem trans (h : Accounts made w w') (h' : Accounts none w' w'') : Accounts made w w'' where
  shuts := by
    obtain ⟨es, hlog, hs⟩ := h.shuts
    obtain ⟨es', hlog', hs'⟩ := h'.shuts
    exact ⟨es' ++ es, by rw [hlog', hlog, List.append_assoc], hs.append hs'⟩
  handler k fd hfd := by
    rcases h'.handler k fd hfd with hfd | hno
    · exact h.handler k fd hfd
    · exact absurd hno (by simp)
  acceptor s fd hfd := by
    rcases h'.acceptor s fd hfd with hfd | hno
    · exact h.acceptor s fd hfd
    · exact absurd hno (by simp)

/-- The same, read from the end of a function. -/
theorem after (h' : Accounts none w' w'') (h : Accounts made w w') : Accounts made w w'' :=
  h.trans h'

/-- Changes that open, close and hand over nothing. -/
theorem of_eq (hlog : w'.log = w.log) (hfds : w'.fds = w.fds) (hclients : w'.clients = w.clients)
    (hservers : w'.servers = w.servers) : Accounts none w w' where
  shuts := ⟨[], hlog, hfds ▸ Shuts.nil⟩
  handler k fd hfd := by
    unfold World.handlerFd at hfd
    rw [hclients] at hfd
    exact Or.inl hfd
  acceptor s fd hfd := by
    unfold World.fd? World.handler? at hfd
    rw [hservers] at hfd
    exact Or.inl hfd

theorem refl (w : World) : Accounts none w w := of_eq rfl rfl rfl rfl

theorem emit {e : Event} (he : ∀ fd registered, e ≠ .fdClosed fd registered) :
    Accounts none w (w.emit e) :=
  ⟨⟨[e], rfl, .other .nil he⟩, fun _ _ => Or.inl, fun _ _ => Or.inl⟩

theorem push (f : Frame) : Accounts none w (w.push f) := of_eq rfl rfl rfl rfl

theorem fail (f : Fault) : Accounts none w (w.fail f) := of_eq rfl rfl rfl rfl

theorem setConn (c : Nat) (x : TcpConnection) : Accounts none w (w.setConn c x) :=
  of_eq rfl rfl rfl rfl

/-- The client's connecting handler stays, or is dropped. -/
theorem setClient {k : Nat} {x : TCPClient}
    (hx : x.connHandler = (w.clients k).connHandler ∨ x.connHandler = none) :
    Accounts none w (w.setClient k x) := by
  refine ⟨⟨[], rfl, .nil⟩, fun k' fd hfd => Or.inl ?_, fun _ _ => Or.inl⟩
  unfold World.handlerFd World.setClient at hfd
  by_cases hk : k' = k
  · subst hk
    simp only [Function.update_self] at hfd
    rcases hx with hx | hx
    · rw [hx] at hfd
      exact hfd
    · rw [hx] at hfd
      exact absurd hfd (by simp)
  · simp only [Function.update_of_ne hk] at hfd
    exact hfd

theorem setServer {s : Nat} {x : TcpServer} (hx : x.accepter = (w.servers s).accepter) :
    Accounts none w (w.setServer s x) := by
  refine ⟨⟨[], rfl, .nil⟩, fun _ _ => Or.inl, fun s' fd hfd => Or.inl ?_⟩
  unfold World.fd? World.handler? World.setServer at hfd
  by_cases hs : s' = s
  · subst hs
    simp only [Function.update_self, hx] at hfd
    exact hfd
  · simp only [Function.update_of_ne hs] at hfd
    exact hfd

theorem update (ptr : HandlerPtr) (h : Handler HandlerCallback) :
    Accounts none w (w.update ptr h) := by
  unfold World.update
  split <;> exact of_eq rfl rfl rfl rfl

theorem closeFd {fd : Nat} (hopen : w.fds fd = true) : Accounts none w (w.closeFd fd) :=
  ⟨⟨[_], rfl, .close .nil hopen⟩, fun _ _ => Or.inl, fun _ _ => Or.inl⟩

/-- `~Socket` closes an open descriptor, or the process ends. -/
theorem release (c : Nat) : Accounts none w (w.release c) := by
  unfold World.release World.destroyConn
  simp only
  split
  · exact refl w
  · split
    next hopen => exact .after (closeFd hopen) (emit (by simp))
    next => exact .after (fail _) (emit (by simp))

theorem letGo (o : Option Nat) : Accounts none w (w.letGo o) := by
  cases o with
  | none => exact refl w
  | some o => exact .after (release o) (emit (by simp))

theorem connOp (c : Nat) (r : TcpConnection × List SockCall) (ok : Bool) :
    Accounts none w (w.connOp c r ok) := by
  have hcall : ∀ (v : World) call, Accounts none v (World.runCall c ok v call) := by
    intro v call
    cases call with
    | write direct bytes out => exact emit (by simp)
    | append bytes => exact refl v
    | update => exact update _ _
    | shutdown pending =>
        unfold World.runCall
        simp only
        split
        · exact emit (by simp)
        · exact fail _
  have hcalls : ∀ (calls : List SockCall) (v : World),
      Accounts none v (calls.foldl (World.runCall c ok) v) := by
    intro calls
    induction calls with
    | nil => exact refl
    | cons call calls ih => exact fun v => (hcall v call).trans (ih _)
  exact .after (hcalls r.2 _) (setConn c r.1)

/-! ## §3. The library's functions. -/

theorem send (c : Nat) (mem : Memory) (data len : SizeT) (out : WriteOutcome) :
    Accounts none w (w.send c mem data len out) := by
  unfold World.send
  split
  · exact connOp _ _ _
  · exact fail _

theorem shutDown (c : Nat) (ok : Bool) : Accounts none w (w.shutDown c ok) := by
  unfold World.shutDown
  split
  · exact connOp _ _ _
  · exact fail _

theorem tcpHandleWrite (c : Nat) (out : WriteOutcome) (ok : Bool) :
    Accounts none w (w.tcpHandleWrite c out ok) := by
  unfold World.tcpHandleWrite
  split
  · exact connOp _ _ _
  · exact fail _

theorem start (c : Nat) : Accounts none w (w.start c) := by
  have hop : Accounts none w (w.connOp c (w.conns c).start true) := connOp _ _ _
  unfold World.start
  simp only
  split
  · exact hop.trans (.after (push _) (emit (by simp)))
  · exact hop

theorem runDisconnectCallback (k : Nat) : Accounts none w (w.runDisconnectCallback k) := by
  unfold World.runDisconnectCallback
  split
  · exact .after (push _) (emit (by simp))
  · exact refl w

theorem connEstablish (k fd : Nat) : Accounts none w (w.connEstablish k fd) := by
  have hnew : ∀ name owner a b, Accounts none w (w.newConn name fd (w.clients k).addr owner a b) :=
    fun _ _ _ _ => of_eq rfl rfl rfl rfl
  have hstore : Accounts none w (w.storeClientConn k fd) :=
    (hnew _ _ _ _).trans (setClient (Or.inl rfl))
  unfold World.connEstablish
  exact (hstore.trans (letGo _)).trans (start _)

theorem onNewConnect (s fd : Nat) (addr : InetAdress) :
    Accounts none w (w.onNewConnect s fd addr) := by
  have hnew : ∀ name owner a b, Accounts none w (w.newConn name fd addr owner a b) :=
    fun _ _ _ _ => of_eq rfl rfl rfl rfl
  have hstore : Accounts none w (w.storeServerConn s fd addr) :=
    (hnew _ _ _ _).trans (setServer rfl)
  unfold World.onNewConnect
  exact (hstore.trans (letGo _)).trans (start _)

theorem removeConn (s c : Nat) : Accounts none w (w.removeConn s c) := by
  unfold World.removeConn
  simp only
  split
  · exact .after (release c) (setServer rfl)
  · exact .after (letGo _) (setServer rfl)

theorem handleClose (k c : Nat) : Accounts none w (w.handleClose k c) := by
  unfold World.handleClose
  simp only
  split
  · exact .after (runDisconnectCallback k) (.after (release c) (setClient (Or.inl rfl)))
  · exact fail _

theorem close (c : Nat) : Accounts none w (w.close c) := by
  have hstart : Accounts none w (w.closeStart c) := .after (connOp _ _ _) (emit (by simp))
  unfold World.close
  split
  · simp only
    split
    · exact hstart.trans (setConn _ _)
    next callback _ =>
      have hpush : Accounts none (w.closeStart c)
          (((w.closeStart c).push (.closing c)).emit (.closeCallback c)) :=
        .after (emit (by simp)) (push _)
      refine (hstart.trans hpush).trans ?_
      cases callback with
      | removeConn s => exact removeConn s c
      | handleClose k => exact handleClose k c
  · exact fail _

theorem tcpHandleRead (c : Nat) (r : ReadOutcome) : Accounts none w (w.tcpHandleRead c r) := by
  unfold World.tcpHandleRead
  split
  · cases r with
    | failed errno => exact refl w
    | eof => exact close c
    | data bytes =>
        simp only
        split
        · exact .after (push _) (.after (emit (by simp)) (setConn _ _))
        · exact .after (fail _) (setConn _ _)
  · exact fail _

theorem finishClose (c : Nat) : Accounts none w (w.finishClose c) := by
  unfold World.finishClose
  simp only
  split
  · exact .after (setConn _ _) (release c)
  · exact .after (fail _) (release c)

theorem dropConnHandler (k n : Nat) (g : Handler HandlerCallback) :
    Accounts none w (w.dropConnHandler k n g) := by
  unfold World.dropConnHandler
  exact .after (emit (by simp)) (.after (setClient (Or.inr rfl)) (update _ _))

theorem clientHandleError {spare : Nat → Prop} (h : Held spare w) (k : Nat) :
    Accounts none w (w.clientHandleError k) := by
  unfold World.clientHandleError
  split
  · split
    next => exact fail _
    next n g hk =>
      -- the handler still had its descriptor
      have hopen : (w.dropConnHandler k n g).fds g.fd = true :=
        (h.dropConnHandler hk).1.covered g.fd |>.mpr (Or.inr (Or.inl rfl))
      exact .after (runDisconnectCallback k) (.after (closeFd hopen) (dropConnHandler k n g))
  · exact refl w

theorem clientHandleWrite (k err : Nat) : Accounts none w (w.clientHandleWrite k err) := by
  unfold World.clientHandleWrite
  split
  · split
    next => exact fail _
    next n g _ =>
      simp only
      split
      · exact .after (runDisconnectCallback k) (dropConnHandler k n g)
      · exact .after (connEstablish k g.fd) (dropConnHandler k n g)
  · exact refl w

theorem disconnect (k : Nat) (ok : Bool) : Accounts none w (w.disconnect k ok) := by
  unfold World.disconnect
  simp only
  split
  · exact .after (fail _) (setClient (Or.inl rfl))
  · exact .after (shutDown _ _) (setClient (Or.inl rfl))

theorem clientSend (k : Nat) (mem : Memory) (data len : SizeT) (out : WriteOutcome) :
    Accounts none w (w.clientSend k mem data len out) := by
  unfold World.clientSend
  split
  · exact refl w
  · exact send _ _ _ _ _

/-! ## §4. The functions that obtain a descriptor. -/

theorem dial (k : Nat) (ip : Text) (port : BitVec 16) (fd : Nat) :
    Accounts (some (fd, .connect k)) w (w.dial k ip port fd) := by
  have haddr : Accounts none w (w.storeAddr k ip port) := setClient (Or.inl rfl)
  refine ⟨⟨[_], rfl, .other .nil (by simp)⟩, fun k' fd' hfd => ?_, fun s fd' hfd => ?_⟩
  · exact Or.inl ((haddr.handler k' fd' hfd).resolve_right (by simp))
  · exact Or.inl ((haddr.acceptor s fd' hfd).resolve_right (by simp))

/-- `Connecting` gives the new descriptor to the client's handler. -/
theorem connecting {k fd : Nat} (h : Accounts (some (fd, .connect k)) w w') :
    Accounts (some (fd, .connect k)) w (w'.connecting k fd) := by
  -- the handler that was there is destroyed as it stands
  have hquiet : ∃ v, Accounts none w' v ∧ v.clients = w'.clients
      ∧ w'.connecting k fd = (v.setClient k { w'.clients k with
          state := .connecting
          connHandler := some (w'.handlerCount, (World.connectingHandler k fd).enableWrite)
        }).update (.connecting k w'.handlerCount) (World.connectingHandler k fd).enableWrite := by
    unfold World.connecting
    cases hk : (w'.clients k).connHandler with
    | none =>
        refine ⟨{ w' with handlerCount := w'.handlerCount + 1 }, of_eq rfl rfl rfl rfl, rfl, ?_⟩
        simp only [hk]
    | some entry =>
        obtain ⟨m, old⟩ := entry
        have hreport : Accounts none w' (w'.emit (.handlerDestroyed (.connecting k m)
          (w'.poller.handlers old.fd).isSome)) := emit (by simp)
        have hcount : Accounts none (w'.emit (.handlerDestroyed (.connecting k m)
            (w'.poller.handlers old.fd).isSome))
            { (w'.emit (.handlerDestroyed (.connecting k m)
              (w'.poller.handlers old.fd).isSome)) with handlerCount := w'.handlerCount + 1 } :=
          of_eq rfl rfl rfl rfl
        refine ⟨_, hreport.trans hcount, rfl, ?_⟩
        simp only [hk]
  obtain ⟨v, hv, hclients, heq⟩ := hquiet
  rw [heq]
  refine .after (update _ _) ?_
  have hall := h.trans hv
  refine ⟨hall.shuts, fun k' fd' hfd => ?_, hall.acceptor⟩
  unfold World.handlerFd World.setClient at hfd
  by_cases hk : k' = k
  · subst hk
    simp only [Function.update_self, Option.map_some, Option.some.injEq] at hfd
    exact Or.inr (by rw [← hfd]; rfl)
  · simp only [Function.update_of_ne hk] at hfd
    exact hall.handler k' fd' hfd

theorem serverStart (s fd : Nat) : Accounts (some (fd, .other)) w (w.serverStart s fd) := by
  unfold World.serverStart
  refine .after (update _ _) ⟨⟨[], rfl, .nil⟩, fun _ _ => Or.inl, fun s' fd' hfd => ?_⟩
  unfold World.fd? World.handler? World.setServer at hfd
  by_cases hs : s' = s
  · subst hs
    simp only [Function.update_self, Option.map_some, Option.some.injEq] at hfd
    exact Or.inr (by rw [← hfd]; rfl)
  · simp only [Function.update_of_ne hs] at hfd
    exact Or.inl hfd

theorem connect (k : Nat) (ip : Text) (port : BitVec 16) (sock : Option Nat)
    (outcome : ConnectOutcome) :
    Accounts (w.obtains (.user (.connect k ip port sock outcome))) w
      (w.connect k ip port sock outcome) := by
  unfold World.connect
  split
  next hst =>
    have hno : w.obtains (.user (.connect k ip port sock outcome)) = none := by
      cases sock with
      | none => rfl
      | some fd => exact if_neg hst
    rw [hno]
    exact refl w
  next hst =>
    cases sock with
    | none => exact setClient (Or.inl rfl)
    | some fd =>
        have hmade : w.obtains (.user (.connect k ip port (some fd) outcome))
            = some (fd, .connect k) := if_pos (not_not.mp hst)
        have hdial := dial (w := w) k ip port fd
        rw [hmade]
        simp only
        cases outcome with
        | ok => exact hdial.trans (connEstablish k fd)
        | failed errno =>
            simp only
            split
            · exact hdial.connecting
            · refine hdial.trans (.after (closeFd ?_) (setClient (Or.inl rfl)))
              show Function.update w.fds fd true fd = true
              exact Function.update_self ..

/-! ## §5. One step. -/

/-- The read test: a successful `accept` obtains a descriptor. -/
theorem readTest (hw : Coherent w) {env : Env} {ptr : HandlerPtr} {mask : EventMask}
    {rest : List Frame} (hst : w.stack = .handleEvent ptr mask .read :: rest) :
    Accounts (w.obtains (.resume env)) w
      ({ w with stack := .handleEvent ptr mask .write :: rest }.testEvent env ptr mask
        World.readBits Handler.readCallback) := by
  have hmove : Accounts none w { w with stack := .handleEvent ptr mask .write :: rest } :=
    of_eq rfl rfl rfl rfl
  have hquiet : ∀ {v : World}, Accounts none w v →
      (∀ s, ptr = .acceptor s → mask.has World.readBits = true →
        (w.servers s).accepter = none) → Accounts (w.obtains (.resume env)) w v := by
    intro v hv hno
    have haccepts : w.accepts (.resume env) = none := by
      cases ptr with
      | conn c => simp [World.accepts, hst]
      | connecting k n => simp [World.accepts, hst]
      | acceptor s =>
          cases haccept : env.accept with
          | failed errno => simp [World.accepts, hst, haccept]
          | conn fd addr =>
              simp only [World.accepts, hst, haccept]
              refine if_neg ?_
              rintro ⟨hbits, hacc⟩
              rw [hno s rfl hbits] at hacc
              exact absurd hacc (by simp)
    have hobtains : w.obtains (.resume env) = none := by
      simp only [World.obtains, haccepts]
    rw [hobtains]
    exact hv
  have hw₁ := hw.advance hst .write
  rcases hw₁.read_cases env ptr mask rfl with
    ⟨hno, heq⟩ | ⟨_, hptr, heq⟩ | ⟨c, hc, _, _, heq⟩ | ⟨s, hs, hbits, hacc, heq⟩
  · rw [heq]
    refine hquiet hmove fun s hs hbits => ?_
    rcases hno with hno | ⟨k, n, hk⟩
    · exact absurd (hno.symm.trans hbits) (by simp)
    · exact absurd (hs.symm.trans hk) (by simp)
  · rw [heq]
    refine hquiet (hmove.trans (fail _)) fun s hs _ => ?_
    subst hs
    exact hptr
  · rw [heq]
    refine hquiet (hmove.trans (tcpHandleRead c _)) fun s hs => ?_
    exact absurd (hs.symm.trans hc) (by simp)
  · rw [heq]
    subst hs
    cases haccept : env.accept with
    | failed errno =>
        have hobtains : w.obtains (.resume env) = none := by
          simp [World.obtains, World.accepts, hst, haccept]
        rw [hobtains]
        exact hmove
    | conn fd addr =>
        have hacc' : (w.servers s).accepter.isSome = true := hacc
        have hobtains : w.obtains (.resume env) = some (fd, .other) := by
          simp [World.obtains, World.accepts, hst, haccept, hbits, hacc']
        have hopen : Accounts (some (fd, .other)) w { w with
            stack := .handleEvent (.acceptor s) mask .write :: rest
            fds := Function.update w.fds fd true } :=
          ⟨⟨[], rfl, .nil⟩, fun _ _ => Or.inl, fun _ _ => Or.inl⟩
        rw [hobtains]
        exact hopen.trans (onNewConnect s fd _)

/-- **Every step is accounted for**: the descriptor it obtains and the `close`
calls in its log are all that happens to the open descriptors. -/
theorem next {spare : Nat → Prop} (h : Held spare w) (hw : Coherent w) {l : Label}
    (hnext : w.next l = some w') : Accounts (w.obtains l) w w' := by
  obtain ⟨_, hturn⟩ := World.next_turn hnext
  have hquiet : ∀ {v : World}, Accounts none w v → w.obtains l = none →
      Accounts (w.obtains l) w v := by
    intro v hv hno
    rw [hno]
    exact hv
  have hresume : ∀ {env : Env}, w.accepts (.resume env) = none →
      w.obtains (.resume env) = none := by
    intro env hno
    simp only [World.obtains, hno]
  cases hturn with
  | poll hst => exact push _
  | loopEnd hst => exact hquiet (of_eq rfl rfl rfl rfl) (hresume (by simp [World.accepts, hst]))
  | loopStale hst hptr => exact hquiet (fail _) (hresume (by simp [World.accepts, hst]))
  | loopNext hst hptr =>
      exact hquiet (of_eq rfl rfl rfl rfl) (hresume (by simp [World.accepts, hst]))
  | readTest hst hadm => exact readTest hw hst
  | @writeTest env ptr mask rest hst hadm =>
      have hmove : Accounts none w { w with stack := .handleEvent ptr mask .error :: rest } :=
        of_eq rfl rfl rfl rfl
      refine hquiet (hmove.trans ?_) (hresume (by simp [World.accepts, hst]))
      rcases (hw.advance hst .error).write_cases env ptr mask rfl with
        ⟨_, heq⟩ | ⟨_, _, heq⟩ | ⟨c, _, _, _, heq⟩ | ⟨k, _, _, _, _, _, heq⟩
      · rw [heq]
        exact refl _
      · rw [heq]
        exact fail _
      · rw [heq]
        exact tcpHandleWrite c _ _
      · rw [heq]
        exact clientHandleWrite k _
  | @errorTest env ptr mask rest hst =>
      have hmove : Accounts none w { w with stack := rest } := of_eq rfl rfl rfl rfl
      have h₁ : Held spare { w with stack := rest } := h.setStack fun c => by rw [hst]; rfl
      refine hquiet (hmove.trans ?_) (hresume (by simp [World.accepts, hst]))
      rcases (hw.pop hst).error_cases env ptr mask rfl with
        ⟨_, heq⟩ | ⟨_, _, heq⟩ | ⟨k, _, _, _, _, _, heq⟩
      · rw [heq]
        exact refl _
      · rw [heq]
        exact fail _
      · rw [heq]
        exact clientHandleError h₁ k
  | finishClose hst =>
      exact hquiet (.after (finishClose _) (of_eq rfl rfl rfl rfl))
        (hresume (by simp [World.accepts, hst]))
  | connect hsock => exact connect _ _ _ _ _
  | disconnect => exact disconnect _ _
  | clientSend hout => exact clientSend _ _ _ _ _
  | setConnectionCallback => exact setClient (Or.inl rfl)
  | setMessageCallback => exact setClient (Or.inl rfl)
  | setDisconnectCallback => exact setClient (Or.inl rfl)
  | serverStart hacc hfd => exact serverStart _ _
  | serverSetConnCallback => exact setServer rfl
  | serverSetMessageCallback => exact setServer rfl
  | send hacc hout => exact send _ _ _ _ _
  | shutDown hacc => exact shutDown _ _
  | close hacc => exact close _
  | retrieve hacc => exact setConn _ _
  | retrieveAll hacc => exact setConn _ _
  | keep hacc => exact of_eq rfl rfl rfl rfl
  | drop hkept => exact .after (release _) (of_eq rfl rfl rfl rfl)
  | retConnection hst => exact .after (release _) (of_eq rfl rfl rfl rfl)
  | retMessage hst => exact .after (release _) (of_eq rfl rfl rfl rfl)
  | retDisconnect hst => exact of_eq rfl rfl rfl rfl

end Accounts

/-- What a step obtains was not open. -/
theorem obtains_fresh {w w' : World} {l : Label} (hnext : w.next l = some w') {fd : Nat}
    {origin : Origin} (hmade : w.obtains l = some (fd, origin)) : w.fds fd = false := by
  obtain ⟨_, hturn⟩ := World.next_turn hnext
  cases hturn with
  | @connect k ip port sock outcome hsock =>
      cases sock with
      | none => exact absurd hmade (by simp [World.obtains])
      | some fd' =>
          simp only [World.obtains, Option.ite_none_right_eq_some, Option.some.injEq,
            Prod.mk.injEq] at hmade
          exact hmade.2.1 ▸ hsock fd' rfl
  | serverStart hacc hfd =>
      simp only [World.obtains, Option.some.injEq, Prod.mk.injEq] at hmade
      exact hmade.1 ▸ hfd
  | @readTest env ptr mask rest hst hadm =>
      cases ptr with
      | conn c => exact absurd hmade (by simp [World.obtains, World.accepts, hst])
      | connecting k n => exact absurd hmade (by simp [World.obtains, World.accepts, hst])
      | acceptor s =>
          cases haccept : env.accept with
          | failed errno =>
              exact absurd hmade (by simp [World.obtains, World.accepts, hst, haccept])
          | conn fd' addr =>
              have hfd : fd' = fd := by
                simp only [World.obtains, haccept] at hmade
                cases haccepts : w.accepts (.resume env) with
                | none =>
                    rw [haccepts] at hmade
                    exact absurd hmade (by simp)
                | some entry =>
                    rw [haccepts] at hmade
                    exact (Prod.mk.inj (Option.some.inj hmade)).1
              simpa [World.admits, hst, haccept, hfd] using hadm
  | _ => exact absurd hmade (by simp [World.obtains, World.accepts, *])

/-! ## §6. The books are kept. -/

/-- Entering events: the table still follows the process, and numbers are only
given up. -/
structure Entered (fds' : Nat → Bool) (t t' : Table Origin) : Prop where
  sound : t'.Sound
  exact : t'.Exact
  opens : ∀ n, fds' n = (t'.slot n).isSome
  slot : ∀ n serial, t'.slot n = some serial → t.slot n = some serial
  owner : t'.owner = t.owner

/-- A number that is still open has the owner it had. -/
theorem Entered.ownerAt {fds' : Nat → Bool} {t t' : Table Origin} (h : Entered fds' t t') {n : Nat}
    {origin : Origin} (hn : fds' n = true) (ho : t.ownerAt n = some origin) :
    t'.ownerAt n = some origin := by
  rw [h.opens n] at hn
  obtain ⟨serial, hserial⟩ := Option.isSome_iff_exists.mp hn
  rw [Table.ownerAt_of_slot hserial, h.owner, ← Table.ownerAt_of_slot (h.slot n serial hserial)]
  exact ho

theorem Shuts.entered {fds fds' : Nat → Bool} {es : List Event} (h : Shuts fds es fds')
    {t : Table Origin} (ht : t.Sound) (hexact : t.Exact)
    (hopens : ∀ n, fds n = (t.slot n).isSome) : Entered fds' t (es.foldr Event.enter t) := by
  induction h with
  | nil => exact ⟨ht, hexact, hopens, fun _ _ => id, rfl⟩
  | @close es fds' fd registered _ hopen ih =>
      obtain ⟨serial, hserial⟩ := Option.isSome_iff_exists.mp ((ih.opens fd).symm.trans hopen)
      refine ⟨ih.sound.close fd .other, ih.exact.close hserial .other, fun n => ?_,
        fun n s hn => ?_, ?_⟩
      · show _ = ((Table.close (es.foldr Event.enter t) fd .other).2.slot n).isSome
        by_cases hn : n = fd
        · rw [hn, Function.update_self, Table.slot_close_same, Option.isSome_none]
        · rw [Function.update_of_ne hn, Table.slot_close_other hn, ih.opens n]
      · have hn' : (Table.close (es.foldr Event.enter t) fd .other).2.slot n = some s := hn
        by_cases hfd : n = fd
        · rw [hfd, Table.slot_close_same] at hn'
          exact absurd hn' (by simp)
        · rw [Table.slot_close_other hfd] at hn'
          exact ih.slot n s hn'
      · exact Table.owner_close.trans ih.owner
  | @other es fds' e _ he ih =>
      have hskip : (e :: es).foldr Event.enter t = es.foldr Event.enter t := by
        cases e with
        | fdClosed fd registered => exact absurd rfl (he fd registered)
        | _ => rfl
      rw [hskip]
      exact ih

/-- What the books of a run always say. -/
structure InOrder (b : Books) : Prop where
  coherent : Coherent b.world
  sound : b.table.Sound
  exact : b.table.Exact
  /-- The open numbers are the numbers in use. -/
  opens : ∀ n, b.world.fds n = (b.table.slot n).isSome
  /-- A client's connecting handler has a descriptor from a `Connect` of its own. -/
  attempt : ∀ k fd, b.world.handlerFd k = some fd → b.table.ownerAt fd = some (.connect k)
  listening : ∀ s fd, b.world.fd? (.acceptor s) = some fd → b.table.ownerAt fd = some .other

theorem inOrder_init : InOrder Books.init where
  coherent := coherent_init
  sound := Table.Sound.empty
  exact := fun _ h => absurd h List.not_mem_nil
  opens := fun _ => rfl
  attempt := fun _ _ h => absurd h
    (by simp [Books.init, World.handlerFd, World.init, TCPClient.new])
  listening := fun _ _ h => absurd h (by simp [Books.init, World.fd?, World.handler?, World.init,
    TcpServer.new])

namespace InOrder

variable {spare : Nat → Prop} {b b' : Books} {l : Label}

/-- The table once the new descriptor is in it. -/
theorem obtained (h : InOrder b) {made : Option (Nat × Origin)}
    (hfresh : ∀ fd origin, made = some (fd, origin) → b.world.fds fd = false) :
    (enterObtained made b.table).Sound ∧ (enterObtained made b.table).Exact
      ∧ (∀ n, opened made b.world.fds n = ((enterObtained made b.table).slot n).isSome)
      ∧ (∀ n origin, b.table.ownerAt n = some origin →
        (enterObtained made b.table).ownerAt n = some origin)
      ∧ ∀ n origin, made = some (n, origin) →
        (enterObtained made b.table).ownerAt n = some origin := by
  cases made with
  | none => exact ⟨h.sound, h.exact, h.opens, fun _ _ => id, fun _ _ he => absurd he (by simp)⟩
  | some entry =>
      obtain ⟨fd, origin⟩ := entry
      have hfree : b.table.slot fd = none := by
        rw [← Option.isNone_iff_eq_none, ← Option.not_isSome, ← h.opens fd,
          hfresh fd origin rfl]
        rfl
      refine ⟨h.sound.obtain hfree origin, h.exact, fun n => ?_, fun n o hn => ?_,
        fun n o he => ?_⟩
      · show Function.update b.world.fds fd true n
          = ((b.table.obtain fd origin).slot n).isSome
        by_cases hn : n = fd
        · rw [hn, Function.update_self, Table.slot_obtain_same, Option.isSome_some]
        · rw [Function.update_of_ne hn, Table.slot_obtain_other hn, h.opens n]
      · show (b.table.obtain fd origin).ownerAt n = some o
        rw [h.sound.ownerAt_obtain_other (Table.ne_of_ownerAt hn hfree)]
        exact hn
      · cases he
        exact Table.ownerAt_obtain_same

/-- The entries of one step. -/
theorem entered (h : InOrder b) (hheld : Held spare b.world) {w' : World}
    (hw' : b.world.next l = some w') :
    Entered w'.fds (enterObtained (b.world.obtains l) b.table)
      ((w'.log.take (w'.log.length - b.world.log.length)).foldr Event.enter
        (enterObtained (b.world.obtains l) b.table)) := by
  obtain ⟨es, hlog, hshuts⟩ := (Accounts.next hheld h.coherent hw').shuts
  obtain ⟨hsound, hexact, hopens, _⟩ := h.obtained fun fd origin he => obtains_fresh hw' he
  have hnew : w'.log.take (w'.log.length - b.world.log.length) = es := by
    rw [hlog, List.length_append, Nat.add_sub_cancel]
    exact List.take_left' rfl
  rw [hnew]
  exact hshuts.entered hsound hexact hopens

/-- **One step** keeps the books in order. -/
theorem next (h : InOrder b) (hheld : Held spare b.world) (hnext : b.next l = some b') :
    InOrder b' := by
  obtain ⟨w', hw', rfl⟩ := Option.map_eq_some_iff.mp hnext
  have hacc := Accounts.next hheld h.coherent hw'
  have hheld' := hheld.next h.coherent hw'
  have hentered := h.entered hheld hw'
  obtain ⟨_, _, _, hold, hmade⟩ := h.obtained fun fd origin he => obtains_fresh hw' he
  refine ⟨h.coherent.next hw', hentered.sound, hentered.exact, hentered.opens,
    fun k fd hfd => ?_, fun s fd hfd => ?_⟩
  -- a descriptor a handler has is open after the step, so it was not closed in it
  · obtain ⟨⟨n, g⟩, hg, hgfd⟩ := Option.map_eq_some_iff.mp hfd
    have hopen : w'.fds fd = true :=
      hheld'.open_of (a := .connecting k n) (World.fd?_connecting.mpr ⟨g, hg, hgfd⟩)
    refine hentered.ownerAt hopen ?_
    rcases hacc.handler k fd hfd with hfd | he
    · exact hold fd _ (h.attempt k fd hfd)
    · exact hmade fd _ he
  · refine hentered.ownerAt (hheld'.open_of hfd) ?_
    rcases hacc.acceptor s fd hfd with hfd | he
    · exact hold fd _ (h.listening s fd hfd)
    · exact hmade fd _ he

/-- **When nothing is spare**, every descriptor `Connect` obtained has its place. -/
theorem neverLeaked (h : InOrder b) (hheld : Held (fun _ => False) b.world) :
    b.NeverLeaked := by
  refine ⟨fun k serial howner => ?_, h.exact⟩
  by_cases hslot : ∃ n, b.table.slot n = some serial
  · obtain ⟨n, hn⟩ := hslot
    have hopen : b.world.fds n = true := by
      rw [h.opens n, hn, Option.isSome_some]
    have hcloses := h.sound.unclosed n serial hn
    have hown : b.table.ownerAt n = some (.connect k) := (Table.ownerAt_of_slot hn).trans howner
    obtain ⟨a, ha⟩ := ((hheld.covered n).mp hopen).resolve_right id
    cases a with
    | conn c =>
        obtain ⟨hlive, hfd⟩ := World.fd?_conn.mp ha
        refine Or.inr (Or.inl ⟨?_, ⟨c, hlive, hfd ▸ hn⟩, hcloses⟩)
        rintro ⟨fd, hk, hserial⟩
        obtain ⟨⟨m, g⟩, hg, hgfd⟩ := Option.map_eq_some_iff.mp hk
        have hat : b.world.fd? (.connecting k m) = some n :=
          World.fd?_connecting.mpr ⟨g, hg, hgfd.trans (h.sound.inj fd n serial hserial hn)⟩
        exact absurd (hheld.uniq _ _ n ha hat) (by simp)
    | connecting k' m =>
        obtain ⟨g, hg, hgfd⟩ := World.fd?_connecting.mp ha
        have hk' : b.world.handlerFd k' = some n := by
          rw [World.handlerFd, hg]
          exact congrArg some hgfd
        obtain rfl : k' = k :=
          Origin.connect.inj (Option.some.inj ((h.attempt k' n hk').symm.trans hown))
        refine Or.inl ⟨⟨n, hk', hn⟩, ?_, hcloses⟩
        rintro ⟨c, hlive, hserial⟩
        have hat : b.world.fd? (.conn c) = some n :=
          World.fd?_conn.mpr ⟨hlive, h.sound.inj _ n serial hserial hn⟩
        exact absurd (hheld.uniq _ _ n ha hat) (by simp)
    | acceptor s => exact absurd ((h.listening s n ha).symm.trans hown) (by simp)
  · have hserial : serial < b.table.issued := (h.sound.owned serial).mpr (by rw [howner]; rfl)
    have hgone : ∀ n, b.table.slot n ≠ some serial := fun n hn => hslot ⟨n, hn⟩
    refine Or.inr (Or.inr ⟨?_, ?_, h.sound.closed serial hserial hgone⟩)
    · rintro ⟨fd, _, hfd⟩
      exact hgone fd hfd
    · rintro ⟨c, _, hc⟩
      exact hgone _ hc

/-- **A step that leaks** leaves a descriptor of a `Connect` without a place. -/
theorem lost (h : InOrder b) (hheld : Held (fun _ => False) b.world)
    (hleaks : b.world.leaks l ≠ none) (hnext : b.next l = some b') : ¬ b'.NeverLeaked := by
  obtain ⟨w', hw', rfl⟩ := Option.map_eq_some_iff.mp hnext
  obtain ⟨n, hn⟩ := Option.ne_none_iff_exists'.mp hleaks
  have hheld' := hheld.next h.coherent hw'
  have hentered := h.entered hheld hw'
  obtain ⟨_, _, _, hold, _⟩ := h.obtained fun fd origin he => obtains_fresh hw' he
  -- the descriptor was the handler's, and is open under nobody now
  obtain ⟨k, hk⟩ := World.handlerFd_of_leaks hn
  have hopen : w'.fds n = true := (hheld'.covered n).mpr (Or.inr (Or.inl hn))
  have hnone : ∀ a, w'.fd? a ≠ some n := fun a ha => hheld'.alone a n ha (Or.inl hn)
  obtain ⟨serial, hserial, howner⟩ :=
    Table.ownerAt_eq_some.mp (hentered.ownerAt hopen (hold n _ (h.attempt k n hk)))
  intro hnever
  rcases hnever.placed k serial howner with ⟨⟨fd, hfd, hs⟩, _⟩ | ⟨_, ⟨c, hlive, hs⟩, _⟩ | ⟨_, _, hc⟩
  · obtain rfl := hentered.sound.inj _ _ _ hs hserial
    obtain ⟨⟨m, g⟩, hg, hgfd⟩ := Option.map_eq_some_iff.mp hfd
    exact hnone (.connecting k m) (World.fd?_connecting.mpr ⟨g, hg, hgfd⟩)
  · obtain rfl := hentered.sound.inj _ _ _ hs hserial
    exact hnone (.conn c) (World.fd?_conn.mpr ⟨hlive, rfl⟩)
  · exact absurd (hc.symm.trans (hentered.sound.unclosed n serial hserial)) (by decide)

end InOrder

/-! ## §7. Whole runs. -/

/-- Keeping books does not change what the process can do. -/
theorem books_world (labels : List Label) (b : Books) :
    (exec Books.next b labels).map Books.world = exec World.next b.world labels := by
  induction labels generalizing b with
  | nil => rfl
  | cons l labels ih =>
      simp only [exec, Books.next, Option.bind_map, Option.map_bind]
      exact congrArg (Option.bind _) (funext fun w' => ih _)

/-- **When no descriptor of a client is leaked.**  Throughout a run every
descriptor obtained by a `Connect` is held by that client's connecting handler,
or owned by the socket of a live connection, or closed once, and never two of
these — if and only if in the run no `HandleWrite` finds SO_ERROR set on an
attempt under way, and `Connecting` replaces no handler.  A run ends at its first
fault, such as a use of a dead connection in `World.finishClose`. -/
theorem never_leaked_iff (labels : List Label) (t : Books)
    (hrun : exec Books.next Books.init labels = some t) :
    Always Books.next Books.NeverLeaked Books.init labels ↔
      Along Books.next (fun b l => b.world.leaks l = none) Books.init labels := by
  refine always_iff_along (I := fun b => InOrder b ∧ Held (fun _ => False) b.world)
    (D := fun _ _ => True) (fun b h => h.1.neverLeaked h.2) ?_
    (fun b l b' h _ hleaks hnext => h.1.lost h.2 hleaks hnext) ⟨inOrder_init, held_init⟩
    (Along.of_forall (fun _ _ => trivial) _) hrun
  intro b l b' h _ hleaks hnext
  refine ⟨h.1.next h.2 hnext, ?_⟩
  obtain ⟨w', hw', rfl⟩ := Option.map_eq_some_iff.mp hnext
  refine (h.2.next h.1.coherent hw').congr fun m => ?_
  simp [hleaks]

/-- The theorem on a client that connects, disconnects, and after the peer's FIN
starts an attempt on the same number. -/
theorem never_leaked_on_run :
    (exec Books.next Books.init
        [.user (.setConnectionCallback 0 true), .user (.connect 0 [] 80 (some 5) .ok),
         .user (.keep 0), .ret, .user (.disconnect 0 true), .poll [(5, EPOLLIN)],
         .resume .idle, .resume { Env.idle with read := .eof }, .resume .idle, .resume .idle,
         .resume .idle, .resume .idle, .user (.drop 0),
         .user (.connect 0 [] 80 (some 5) (.failed .EINPROGRESS))]).isSome = true
      ∧ Always Books.next Books.NeverLeaked Books.init
        [.user (.setConnectionCallback 0 true), .user (.connect 0 [] 80 (some 5) .ok),
         .user (.keep 0), .ret, .user (.disconnect 0 true), .poll [(5, EPOLLIN)],
         .resume .idle, .resume { Env.idle with read := .eof }, .resume .idle, .resume .idle,
         .resume .idle, .resume .idle, .user (.drop 0),
         .user (.connect 0 [] 80 (some 5) (.failed .EINPROGRESS))] := by
  have h : (exec Books.next Books.init
      [.user (.setConnectionCallback 0 true), .user (.connect 0 [] 80 (some 5) .ok),
       .user (.keep 0), .ret, .user (.disconnect 0 true), .poll [(5, EPOLLIN)],
       .resume .idle, .resume { Env.idle with read := .eof }, .resume .idle, .resume .idle,
       .resume .idle, .resume .idle, .user (.drop 0),
       .user (.connect 0 [] 80 (some 5) (.failed .EINPROGRESS))]).isSome = true := by
    decide +kernel
  obtain ⟨t, hrun⟩ := Option.isSome_iff_exists.mp h
  exact ⟨h, (never_leaked_iff _ t hrun).mpr (by decide +kernel)⟩

/-- **A refused connect.**  `HandleWrite` finds SO_ERROR set and drops the
handler; the descriptor stays open and nobody has it. -/
theorem refused_connect_leaks :
    ∃ t, exec Books.next Books.init
        [.user (.connect 0 [] 80 (some 5) (.failed .EINPROGRESS)), .poll [(5, EPOLLOUT)],
         .resume .idle, .resume .idle, .resume { Env.idle with soError := 111 }] = some t
      ∧ ¬ t.NeverLeaked := by
  have h : (exec Books.next Books.init
      [.user (.connect 0 [] 80 (some 5) (.failed .EINPROGRESS)), .poll [(5, EPOLLOUT)],
       .resume .idle, .resume .idle, .resume { Env.idle with soError := 111 }]).map (fun t =>
        (t.table.owner 0, (t.world.clients 0).connHandler.isSome, t.world.connCount,
          t.table.closes 0)) = some (some (.connect 0), false, 0, 0) := by
    decide +kernel
  obtain ⟨t, hrun, ht⟩ := Option.map_eq_some_iff.mp h
  simp only [Prod.mk.injEq] at ht
  obtain ⟨howner, hhandler, hcount, hcloses⟩ := ht
  have hcoherent : Coherent t.world := by
    refine exec_invariant (I := fun b => Coherent b.world) (fun b l b' hb hnext => ?_)
      coherent_init hrun
    obtain ⟨w', hw', rfl⟩ := Option.map_eq_some_iff.mp hnext
    exact hb.next hw'
  refine ⟨t, hrun, fun hnever => ?_⟩
  rcases hnever.placed 0 0 howner with ⟨⟨fd, hfd, _⟩, _⟩ | ⟨_, ⟨c, hlive, _⟩, _⟩ | ⟨_, _, hone⟩
  · obtain ⟨entry, hentry, _⟩ := Option.map_eq_some_iff.mp hfd
    rw [hentry] at hhandler
    exact absurd hhandler (by simp)
  · exact absurd (hcoherent.known_of_live hlive) (by simp [hcount])
  · exact absurd (hone.symm.trans hcloses) (by decide)

end SparkNet
