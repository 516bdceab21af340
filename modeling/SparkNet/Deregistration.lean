/-
  SparkNet.Deregistration — nothing registered is destroyed.

  `Handler`'s destructor does not deregister, so whoever destroys a handler must
  have called `DisableAll` on it.  In a world this is the agreement of
  `SparkNet.Registration` with the live handlers of the world as objects
  (`Agrees`).  The module shows which steps keep it: a step may drop the
  last pointer to a connection only after `Close`, and `Connecting` may replace
  no handler.

  Main results:
    * `nothing_registered_destroyed_iff` — nothing registered is destroyed in a
      run exactly when every step deregisters what it destroys,
    * `reconnect_destroys_registered` — `Disconnect` and `Connect` before the
      peer's FIN are a run in which something is.
-/
import SparkNet.Registration
import SparkNet.Lifetime
import SparkNet.ClientState

namespace SparkNet

open Runs

/-! ## §1. The property and the condition. -/

/-- **Nothing registered is destroyed**, and the table has no stale entry. -/
structure NothingStale (w : World) : Prop where
  destroyed : ∀ ptr registered, .handlerDestroyed ptr registered ∈ w.log → registered = false
  closed : ∀ fd registered, .fdClosed fd registered ∈ w.log → registered = false
  /-- Every entry of `_handlers` is a live handler on an open descriptor. -/
  entries : ∀ fd ptr, w.poller.handlers fd = some ptr →
    ∃ h, w.handler? ptr = some h ∧ h.fd = fd ∧ w.fds fd = true
  /-- No `epoll_ctl` was refused. -/
  legal : ∀ call ∈ w.poller.ctls, call.legal = true

namespace World

/-- The client the step runs `ConnEstablish` on. -/
def establishes (w : World) : Label → Option Nat
  | .user (.connect k _ _ (some _) .ok) =>
      if (w.clients k).state = .disConnected then some k else none
  | .resume env =>
      match w.stack with
      | .handleEvent (.connecting k n) mask .write :: _ =>
          if mask.has EPOLLOUT = true ∧ env.soError = 0 ∧ w.attempting k n then some k else none
      | _ => none
  | _ => none

/-- The client the step runs `Connecting` on. -/
def startsAttempt (w : World) : Label → Option Nat
  | .user (.connect k _ _ (some _) (.failed errno)) =>
      if (w.clients k).state = .disConnected
        ∧ (errno = .EINPROGRESS ∨ errno = .EINTR ∨ errno = .EISCONN) then some k
      else none
  | _ => none

/-- The server the step runs `OnNewConnect` on, and the name it gives. -/
def accepts (w : World) : Label → Option (Nat × Text)
  | .resume env =>
      match w.stack, env.accept with
      | .handleEvent (.acceptor s) mask .read :: _, .conn _ addr =>
          if mask.has readBits = true ∧ (w.servers s).accepter.isSome = true then
            some (s, w.nextName s (InetAdress.new.fromAddr addr).2)
          else none
      | _, _ => none
  | _ => none

/-- The connection a slot lets go of in the step without closing it: a client
stores a new connection over it, a server accepts one of the same name, or
`RemoveConn` erases it in the place of another one of the same name. -/
def displaces (w : World) (l : Label) : Option Nat :=
  match w.establishes l, w.accepts l, w.entersClose l with
  | some k, _, _ => (w.clients k).conn
  | none, some (s, name), _ => (w.servers s).conns name
  | none, none, some c =>
      match (w.conns c).closeCallback with
      | some (.removeConn s) =>
          if w.live c then ((w.servers s).conns (w.conns c).name).filter (· ≠ c) else none
      | _ => none
  | none, none, none => none

/-- The connection a copy of whose pointer the step drops, and the world without
that copy. -/
def dropsCopy (w : World) : Label → Option (Nat × World)
  | .user (.drop c) => some (c, { w with kept := Function.update w.kept c (w.kept c - 1) })
  | .resume _ =>
      match w.stack with
      | .closing c :: rest => some (c, { w with stack := rest })
      | _ => none
  | .ret =>
      match w.stack with
      | .user (.connection c) :: rest => some (c, { w with stack := rest })
      | .user (.message c) :: rest => some (c, { w with stack := rest })
      | _ => none
  | _ => none

end World

/-- The step destroys no handler that still has events. -/
structure Deregisters (w : World) (l : Label) : Prop where
  /-- `Connecting` replaces no handler. -/
  attempt : ∀ k, w.startsAttempt l = some k → (w.clients k).connHandler.isSome = false
  /-- What is displaced has another owner or an empty mask. -/
  displaced : ∀ c, w.displaces l = some c → ¬ w.heldElsewhere c →
    (w.conns c).handler.events = 0#32
  /-- What loses its last owner has an empty mask. -/
  dropped : ∀ q, w.dropsCopy l = some q → q.2.live q.1 = false →
    (w.conns q.1).handler.events = 0#32

instance Option.decidableForallEq {α : Type} {o : Option α} {P : α → Prop} [DecidablePred P] :
    Decidable (∀ a, o = some a → P a) :=
  match o with
  | none => isTrue fun _ ha => absurd ha (by simp)
  | some a => decidable_of_iff (P a) ⟨fun h _ ha => Option.some.inj ha ▸ h, fun h => h a rfl⟩

instance (w : World) (l : Label) : Decidable (Deregisters w l) :=
  decidable_of_iff
    ((∀ k, w.startsAttempt l = some k → (w.clients k).connHandler.isSome = false)
      ∧ (∀ c, w.displaces l = some c → ¬ w.heldElsewhere c → (w.conns c).handler.events = 0#32)
      ∧ ∀ q, w.dropsCopy l = some q → q.2.live q.1 = false →
        (w.conns q.1).handler.events = 0#32)
    ⟨fun h => ⟨h.1, h.2.1, h.2.2⟩, fun h => ⟨h.1, h.2, h.3⟩⟩

/-! ## §2. The live handlers of a world. -/

namespace World

variable {w w' : World}

/-- What `RemoveConn` erases for a namesake's sake is displaced. -/
theorem displaces_close_iff {l : Label} {c o : Nat} (hest : w.establishes l = none)
    (hacc : w.accepts l = none) (hclose : w.entersClose l = some c) :
    w.displaces l = some o ↔ w.live c = true ∧ ∃ s,
      (w.conns c).closeCallback = some (.removeConn s)
        ∧ (w.servers s).conns (w.conns c).name = some o ∧ o ≠ c := by
  simp only [displaces, hest, hacc, hclose]
  cases hcb : (w.conns c).closeCallback with
  | none => simp
  | some callback =>
      cases callback with
      | handleClose k => simp
      | removeConn s =>
          simp only [Option.ite_none_right_eq_some, Option.filter_eq_some_iff, decide_eq_true_eq,
            Option.some.injEq, CloseCallback.removeConn.injEq, exists_eq_left']

theorem clients_dial (w : World) (k : Nat) (ip : Text) (port : BitVec 16) (fd : Nat) :
    (w.dial k ip port fd).clients k =
      { w.clients k with addr := ((w.clients k).addr.fromIpPort ip port).2 } :=
  Function.update_self ..

/-- What decides which handlers are alive, and what they are. -/
theorem handler?_eq (hconns : ∀ c, (w'.conns c).handler = (w.conns c).handler)
    (hlive : ∀ c, w'.live c = w.live c)
    (hconnecting : ∀ k, (w'.clients k).connHandler = (w.clients k).connHandler)
    (hacc : ∀ s, (w'.servers s).accepter = (w.servers s).accepter) :
    w'.handler? = w.handler? := by
  funext ptr
  cases ptr with
  | conn c => simp only [handler?, hlive, hconns]
  | connecting k n => simp only [handler?, hconnecting]
  | acceptor s => exact hacc s

/-- One connection stored, its owners unchanged. -/
theorem handler?_setConn {c : Nat} {x : TcpConnection} (hx : x.parts = (w.conns c).parts)
    (hlive : w.live c = true) :
    (w.setConn c x).handler? = Function.update w.handler? (.conn c) (some x.handler) := by
  have hq := quiet_setConn w hx
  funext ptr
  by_cases hptr : ptr = .conn c
  · subst hptr
    rw [Function.update_self, handler?, hq.live, if_pos hlive]
    simp [setConn]
  · rw [Function.update_of_ne hptr]
    cases ptr with
    | conn d =>
        have hd : d ≠ c := fun hd => hptr (congrArg HandlerPtr.conn hd)
        simp only [handler?, hq.live]
        simp [setConn, hd]
    | connecting k n => rfl
    | acceptor s => rfl

/-- A client's connecting handler comes or goes. -/
theorem handler?_setClient {k n : Nat} {x : TCPClient} {o : Option (Handler HandlerCallback)}
    (hconn : x.conn = (w.clients k).conn)
    (hx : ∀ m, (w.setClient k x).handler? (.connecting k m)
      = Function.update w.handler? (.connecting k n) o (.connecting k m)) :
    (w.setClient k x).handler? = Function.update w.handler? (.connecting k n) o := by
  have hlive : ∀ c, (w.setClient k x).live c = w.live c :=
    live_congr (fun _ => rfl) (slot_setClient_same hconn) rfl rfl
  funext ptr
  cases ptr with
  | conn c =>
      rw [Function.update_of_ne (by simp)]
      simp only [handler?, hlive]
      rfl
  | connecting k' m =>
      by_cases hk : k' = k
      · subst hk
        exact hx m
      · rw [Function.update_of_ne (by simp [hk])]
        simp [handler?, setClient, hk]
  | acceptor s =>
      rw [Function.update_of_ne (by simp)]
      rfl

/-- A change to a client that leaves `_conn` and `_connHandler` alone. -/
theorem handler?_setClient_same {k : Nat} {x : TCPClient} (hconn : x.conn = (w.clients k).conn)
    (hhandler : x.connHandler = (w.clients k).connHandler) :
    (w.setClient k x).handler? = w.handler? := by
  have hlive : ∀ c, (w.setClient k x).live c = w.live c :=
    live_congr (fun _ => rfl) (slot_setClient_same hconn) rfl rfl
  refine handler?_eq (fun _ => rfl) hlive (fun k' => ?_) fun _ => rfl
  by_cases hk : k' = k
  · subst hk
    simpa [setClient] using hhandler
  · simp [setClient, hk]

/-- A server's acceptor comes. -/
theorem handler?_setServer {s : Nat} {x : TcpServer} (hconns : x.conns = (w.servers s).conns) :
    (w.setServer s x).handler? = Function.update w.handler? (.acceptor s) x.accepter := by
  have hlive : ∀ c, (w.setServer s x).live c = w.live c :=
    live_congr (fun _ => rfl) (slot_setServer_same hconns) rfl rfl
  funext ptr
  cases ptr with
  | conn c =>
      rw [Function.update_of_ne (by simp)]
      simp only [handler?, hlive]
      rfl
  | connecting k n =>
      rw [Function.update_of_ne (by simp)]
      rfl
  | acceptor s' =>
      by_cases hs : s' = s
      · subst hs
        simp [handler?, setServer]
      · rw [Function.update_of_ne (by simp [hs])]
        simp [handler?, setServer, hs]

end World

/-! ## §3. Agreement with the live handlers. -/

/-- Destroyed or closed while deregistered. -/
def Event.isClean : Event → Bool
  | .handlerDestroyed _ registered => !registered
  | .fdClosed _ registered => !registered
  | _ => true

/-- The poller agrees with the handlers `objs`, which lie on open descriptors,
and everything destroyed was deregistered. -/
structure AgreesOn (w : World) (objs : HandlerPtr → Option (Handler HandlerCallback)) : Prop where
  mirror : Mirror w.poller objs
  fds : ∀ ptr h, objs ptr = some h → w.fds h.fd = true
  log : ∀ e ∈ w.log, e.isClean = true

/-- It agrees with the live handlers of the world. -/
abbrev Agrees (w : World) : Prop := AgreesOn w w.handler?

theorem Agrees.nothingStale {w : World} (h : Agrees w) : NothingStale w where
  destroyed := by
    intro ptr registered hm
    simpa [Event.isClean] using h.log _ hm
  closed := by
    intro fd registered hm
    simpa [Event.isClean] using h.log _ hm
  entries := by
    intro fd ptr hfd
    obtain ⟨g, hg, hgfd, _⟩ := (h.mirror.handlers fd ptr).mp hfd
    exact ⟨g, hg, hgfd, hgfd ▸ h.fds ptr g hg⟩
  legal := h.mirror.legal

theorem agrees_init : Agrees World.init := by
  have hnone : World.init.handler? = fun _ => none := by
    funext ptr
    cases ptr <;> rfl
  refine ⟨?_, fun ptr g hg => ?_, fun e he => ?_⟩
  · rw [hnone]
    exact mirror_new
  · rw [hnone] at hg
    exact absurd hg (by simp)
  · exact absurd he (by simp [World.init])

/-! ## §4. Changes that keep the agreement. -/

namespace AgreesOn

variable {w w' : World} {objs : HandlerPtr → Option (Handler HandlerCallback)}
  {ptr : HandlerPtr} {g g' : Handler HandlerCallback} {fd c : Nat}

/-- A change that touches neither the poller nor the descriptors. -/
theorem same (h : AgreesOn w objs) (hpoller : w'.poller = w.poller) (hfds : w'.fds = w.fds)
    (hlog : ∀ e ∈ w'.log, e ∈ w.log ∨ e.isClean = true) : AgreesOn w' objs where
  mirror := by
    rw [hpoller]
    exact h.mirror
  fds := by
    rw [hfds]
    exact h.fds
  log := fun e he => (hlog e he).elim (h.log e) id

theorem emit (h : AgreesOn w objs) {e : Event} (he : e.isClean = true) :
    AgreesOn (w.emit e) objs := by
  refine h.same rfl rfl fun e' he' => ?_
  rcases List.mem_cons.mp he' with rfl | hm
  · exact Or.inr he
  · exact Or.inl hm

theorem openFd (h : AgreesOn w objs) (fd : Nat) :
    AgreesOn { w with fds := Function.update w.fds fd true } objs where
  mirror := h.mirror
  fds := by
    intro a g hg
    show Function.update w.fds fd true g.fd = true
    by_cases hfd : g.fd = fd
    · rw [hfd, Function.update_self]
    · rw [Function.update_of_ne hfd]
      exact h.fds a g hg
  log := h.log

/-- No handler lies on a descriptor that is not open. -/
theorem free (h : AgreesOn w objs) (hfd : w.fds fd = false) :
    ∀ a g, objs a = some g → g.fd ≠ fd := by
  rintro a g hg rfl
  exact absurd ((h.fds a g hg).symm.trans hfd) (by simp)

/-- A handler appears on an open descriptor no handler has. -/
theorem create (h : AgreesOn w objs) (hfresh : objs ptr = none)
    (hfree : ∀ a g', objs a = some g' → g'.fd ≠ g.fd) (hopen : w.fds g.fd = true)
    (hev : g.events = 0#32) : AgreesOn w (Function.update objs ptr (some g)) where
  mirror := h.mirror.create hfresh hfree hev
  fds := by
    intro a g' hg
    by_cases ha : a = ptr
    · subst ha
      rw [Function.update_self, Option.some.injEq] at hg
      exact hg ▸ hopen
    · rw [Function.update_of_ne ha] at hg
      exact h.fds a g' hg
  log := h.log

/-- A handler without events goes away. -/
theorem drop (h : AgreesOn w objs) (hobj : objs ptr = some g) (hev : g.events = 0#32) :
    AgreesOn w (Function.update objs ptr none) where
  mirror := h.mirror.drop hobj hev
  fds := by
    intro a g' hg
    by_cases ha : a = ptr
    · subst ha
      exact absurd hg (by simp)
    · rw [Function.update_of_ne ha] at hg
      exact h.fds a g' hg
  log := h.log

/-- With a handler gone, nobody has its descriptor. -/
theorem alone (h : AgreesOn w objs) (hobj : objs ptr = some g) :
    ∀ a g', Function.update objs ptr none a = some g' → g'.fd ≠ g.fd := by
  intro a g' hg hfd
  by_cases ha : a = ptr
  · subst ha
    exact absurd hg (by simp)
  · rw [Function.update_of_ne ha] at hg
    exact ha (h.mirror.one_per_fd _ _ _ _ hg hobj hfd)

/-- A live handler's mask changes and `Update` runs; nothing but the poller does. -/
theorem update (h : AgreesOn w objs) (hobj : objs ptr = some g) (hfd : g'.fd = g.fd) :
    AgreesOn (w.update ptr g') (Function.update objs ptr (some g'))
      ∧ ∃ p, w.update ptr g' = { w with poller := p } := by
  obtain ⟨p, hp, hm⟩ := h.mirror.update hobj hfd
  have hupdate : w.update ptr g' = { w with poller := p } := by
    unfold World.update
    rw [hp]
  refine ⟨?_, p, hupdate⟩
  rw [hupdate]
  refine ⟨hm, fun a g'' hg => ?_, h.log⟩
  by_cases ha : a = ptr
  · subst ha
    rw [Function.update_self, Option.some.injEq] at hg
    rw [← hg, hfd]
    exact h.fds _ _ hobj
  · rw [Function.update_of_ne ha] at hg
    exact h.fds a g'' hg

/-- The library closes a descriptor no handler has. -/
theorem closeFd (h : AgreesOn w objs) (hfree : ∀ a g, objs a = some g → g.fd ≠ fd) :
    AgreesOn (w.closeFd fd) objs := by
  have hhan : w.poller.handlers fd = none := by
    rw [Option.eq_none_iff_forall_ne_some]
    intro a ha
    obtain ⟨g, hg, hgfd, _⟩ := (h.mirror.handlers fd a).mp ha
    exact hfree a g hg hgfd
  have hint : w.poller.interest fd = none := by
    rw [Option.eq_none_iff_forall_ne_some]
    rintro ⟨ev, a⟩ ha
    obtain ⟨g, hg, hgfd, _⟩ := (h.mirror.interest fd ev a).mp ha
    exact hfree a g hg hgfd
  have hsame : Function.update w.poller.interest fd none = w.poller.interest := by
    rw [← hint, Function.update_eq_self]
  refine ⟨?_, fun a g hg => ?_, fun e he => ?_⟩
  · show Mirror { w.poller with interest := Function.update w.poller.interest fd none } objs
    rw [hsame]
    exact h.mirror
  · show Function.update w.fds fd false g.fd = true
    rw [Function.update_of_ne (hfree a g hg)]
    exact h.fds a g hg
  · rcases List.mem_cons.mp he with rfl | hm
    · simp [Event.isClean, hhan]
    · exact h.log e hm

/-- **The last owner of a connection may be gone.**  If so, an empty mask makes
its destruction harmless. -/
theorem release (h : AgreesOn w objs) (hobj : objs (.conn c) = some (w.conns c).handler)
    (hsame : ∀ a, a ≠ .conn c → w.handler? a = objs a)
    (hmask : w.live c = false → (w.conns c).handler.events = 0#32) : Agrees (w.release c) := by
  cases hlive : w.live c with
  | true =>
      have hobjs : w.handler? = objs := by
        funext a
        by_cases ha : a = .conn c
        · rw [ha, hobj, World.handler?, if_pos hlive]
        · exact hsame a ha
      have hrel : w.release c = w := if_pos hlive
      rw [Agrees, hrel, hobjs]
      exact h
  | false =>
      have hev := hmask hlive
      have hobjs : w.handler? = Function.update objs (.conn c) none := by
        funext a
        by_cases ha : a = .conn c
        · rw [ha, Function.update_self, World.handler?, hlive]
          rfl
        · rw [Function.update_of_ne ha]
          exact hsame a ha
      have hrel : w.release c = (w.emit (.handlerDestroyed (.conn c)
          (w.poller.handlers (w.conns c).handler.fd).isSome)).closeFd (w.conns c).handler.fd := by
        unfold World.release World.destroyConn
        rw [if_neg (by simp [hlive])]
        exact if_pos (h.fds _ _ hobj)
      -- with an empty mask the table has no entry at the descriptor
      have hclean : Event.isClean (.handlerDestroyed (.conn c)
          (w.poller.handlers (w.conns c).handler.fd).isSome) = true := by
        simp [Event.isClean, ((h.mirror.at_fd hobj).2 hev).1]
      have hclosed := ((h.drop hobj hev).emit hclean).closeFd (h.alone hobj)
      rw [Agrees, hrel]
      show AgreesOn _ w.handler?
      rw [hobjs]
      exact hclosed

/-- A slot lets go of what it held. -/
theorem letGo (h : AgreesOn w objs) {o : Option Nat}
    (hobj : ∀ c, o = some c → objs (.conn c) = some (w.conns c).handler)
    (hsame : ∀ a, (∀ c, o = some c → a ≠ .conn c) → w.handler? a = objs a)
    (hmask : ∀ c, o = some c → w.live c = false → (w.conns c).handler.events = 0#32) :
    Agrees (w.letGo o) := by
  cases o with
  | none =>
      have hobjs : w.handler? = objs := funext fun a => hsame a fun _ hc => absurd hc (by simp)
      show AgreesOn w w.handler?
      rw [hobjs]
      exact h
  | some c =>
      refine (h.emit (e := .displaced c) rfl).release (hobj c rfl) (fun a ha => ?_) (hmask c rfl)
      refine hsame a fun d hd => ?_
      obtain rfl := Option.some.inj hd
      exact ha

end AgreesOn

namespace Agrees

variable {w w' : World} {c : Nat}

/-- A change that touches no handler, no descriptor and not the poller. -/
theorem same (h : Agrees w) (hobj : w'.handler? = w.handler?)
    (hpoller : w'.poller = w.poller) (hfds : w'.fds = w.fds)
    (hlog : ∀ e ∈ w'.log, e ∈ w.log ∨ e.isClean = true) : Agrees w' := by
  rw [Agrees, hobj]
  exact AgreesOn.same h hpoller hfds hlog

theorem emit (h : Agrees w) {e : Event} (he : e.isClean = true) : Agrees (w.emit e) :=
  AgreesOn.emit h he

theorem openFd (h : Agrees w) (fd : Nat) :
    Agrees { w with fds := Function.update w.fds fd true } := AgreesOn.openFd h fd

theorem closeFd (h : Agrees w) {fd : Nat} (hfree : ∀ a g, w.handler? a = some g → g.fd ≠ fd) :
    Agrees (w.closeFd fd) := AgreesOn.closeFd h hfree

theorem fail (h : Agrees w) (f : Fault) : Agrees (w.fail f) :=
  h.same rfl rfl rfl fun _ => Or.inl

/-- A frame that holds no dead connection. -/
theorem push (h : Agrees w) {f : Frame} (hf : ∀ c, f.holds c = true → w.live c = true) :
    Agrees (w.push f) := by
  refine h.same (World.handler?_eq (fun _ => rfl) (fun c => ?_) (fun _ => rfl) (fun _ => rfl))
    rfl rfl fun _ => Or.inl
  show (w.ownerHolds c || decide (0 < w.kept c) || (f.holds c || w.stack.any (Frame.holds c))) = _
  cases hc : f.holds c with
  | false => rfl
  | true =>
      rw [hf c hc]
      simp

/-- A change to a connection that leaves its handler alone. -/
theorem setConn (h : Agrees w) {x : TcpConnection} (hx : x.parts = (w.conns c).parts)
    (hhandler : x.handler = (w.conns c).handler) : Agrees (w.setConn c x) := by
  refine h.same (World.handler?_eq (fun d => ?_) (World.quiet_setConn w hx).live (fun _ => rfl)
    fun _ => rfl) rfl rfl fun _ => Or.inl
  by_cases hd : d = c
  · subst hd
    simpa [World.setConn] using hhandler
  · simp [World.setConn, hd]

/-- A change to a client that leaves `_conn` and `_connHandler` alone. -/
theorem setClient (h : Agrees w) {k : Nat} {x : TCPClient} (hconn : x.conn = (w.clients k).conn)
    (hhandler : x.connHandler = (w.clients k).connHandler) : Agrees (w.setClient k x) :=
  h.same (World.handler?_setClient_same hconn hhandler) rfl rfl fun _ => Or.inl

/-- The object of a live connection changes, and `Update` runs on its handler. -/
theorem store (h : Agrees w) {x : TcpConnection} (hx : x.parts = (w.conns c).parts)
    (hlive : w.live c = true) : Agrees ((w.setConn c x).update (.conn c) x.handler) := by
  have hobj : w.handler? (.conn c) = some (w.conns c).handler := by
    rw [World.handler?, if_pos hlive]
  have hset : AgreesOn (w.setConn c x) w.handler? := AgreesOn.same h rfl rfl fun _ => Or.inl
  have hfd : x.handler.fd = (w.conns c).handler.fd := congrArg ConnParts.fd hx
  obtain ⟨hupdate, p, hp⟩ := hset.update hobj hfd
  rw [hp] at hupdate ⊢
  rw [Agrees]
  rw [show World.handler? { w.setConn c x with poller := p }
      = Function.update w.handler? (.conn c) (some x.handler) from World.handler?_setConn hx hlive]
  exact hupdate

/-- Calls without `Update` only write the log, and may end the process. -/
theorem runCalls (h : Agrees w) (ok : Bool) {calls : List SockCall}
    (hcalls : ∀ call ∈ calls, call ≠ .update) :
    Agrees (calls.foldl (World.runCall c ok) w)
      ∧ (calls.foldl (World.runCall c ok) w).conns = w.conns
      ∧ World.Quiet w (calls.foldl (World.runCall c ok) w) := by
  induction calls generalizing w with
  | nil => exact ⟨h, rfl, World.Quiet.refl w⟩
  | cons call calls ih =>
      have hcall : Agrees (World.runCall c ok w call) ∧
          (World.runCall c ok w call).conns = w.conns := by
        cases call with
        | write direct bytes out => exact ⟨h.emit rfl, rfl⟩
        | append bytes => exact ⟨h, rfl⟩
        | update => exact absurd rfl (hcalls _ List.mem_cons_self)
        | shutdown pending =>
            cases ok with
            | true => exact ⟨h.emit rfl, rfl⟩
            | false => exact ⟨h.fail _, rfl⟩
      obtain ⟨hreg, hconns, hq⟩ :=
        ih hcall.1 fun call' hm => hcalls call' (List.mem_cons_of_mem call hm)
      exact ⟨hreg, hconns.trans hcall.2, (World.quiet_runCall w c ok call).trans hq⟩

end Agrees

/-- A member function announces what it does to the mask: either the handler is
as before and `Update` is not called, or `Update` is called once, at the end of
the changes. -/
def Announced (x : TcpConnection) (r : TcpConnection × List SockCall) : Prop :=
  (r.1.handler = x.handler ∧ ∀ call ∈ r.2, call ≠ .update)
  ∨ ∃ pre post, r.2 = pre ++ .update :: post
    ∧ (∀ call ∈ pre, call ≠ .update) ∧ ∀ call ∈ post, call ≠ .update

section Announced

variable (x : TcpConnection)

theorem announced_send (mem : Memory) (data len : SizeT) (out : WriteOutcome) :
    Announced x (x.send mem data len out) := by
  by_cases hst : x.state = .disConnected
  · rw [TcpConnection.send_disConnected hst]
    exact Or.inl ⟨rfl, by simp⟩
  cases hd : x.writesDirectly with
  | true =>
      rw [TcpConnection.send_direct hst hd]
      split
      · exact Or.inl ⟨rfl, by simp⟩
      · exact Or.inr ⟨[_, _], [], rfl, by simp, by simp⟩
  | false =>
      rw [TcpConnection.send_queued hst hd]
      split
      · exact Or.inl ⟨rfl, by simp⟩
      · cases hw : x.handler.isWriting with
        | true => exact Or.inl ⟨rfl, by simp⟩
        | false => exact Or.inr ⟨[_], [], rfl, by simp, by simp⟩

theorem announced_handleWrite (out : WriteOutcome) : Announced x (x.handleWrite out) := by
  cases hw : x.handler.isWriting with
  | false =>
      rw [TcpConnection.handleWrite_idle hw]
      exact Or.inl ⟨rfl, by simp⟩
  | true =>
      cases out with
      | failed errno =>
          rw [TcpConnection.handleWrite_failed hw]
          exact Or.inl ⟨rfl, by simp⟩
      | accepted n =>
          rw [TcpConnection.handleWrite_accepted hw]
          split
          · refine Or.inr ⟨[_], _, rfl, by simp, ?_⟩
            split <;> simp
          · exact Or.inl ⟨rfl, by simp⟩

theorem announced_shutDown : Announced x x.shutDown := by
  refine Or.inl ⟨TcpConnection.handler_shutDown x, ?_⟩
  rw [TcpConnection.shutDown_eq]
  split
  · cases x.handler.isWriting <;> simp
  · simp

theorem announced_closeEnter : Announced x x.closeEnter :=
  Or.inr ⟨[], [], rfl, by simp, by simp⟩

theorem announced_start : Announced x x.start :=
  Or.inr ⟨[], [], rfl, by simp, by simp⟩

end Announced

/-! ## §5. One slot changes. -/

namespace Reslots

variable {w w' : World} {σ : Slot} {o : Option Nat} {d : Nat}

theorem heldElsewhere (hr : Reslots w w' σ o) : w'.heldElsewhere d ↔ w.heldElsewhere d := by
  rw [World.heldElsewhere, World.heldElsewhere, hr.kept, hr.stack]

/-- A connection that is not in the slot, before or after, lives as it did. -/
theorem live (hr : Reslots w w' σ o) (hconn : (w'.conns d).slot = (w.conns d).slot)
    (hold : w.slot σ ≠ some d) (hnew : o ≠ some d) : w'.live d = w.live d := by
  have hown : w'.ownerHolds d = w.ownerHolds d := by
    unfold World.ownerHolds
    rw [hconn, hr.slot]
    cases (w.conns d).slot with
    | none => rfl
    | some τ =>
        by_cases hτ : τ = σ
        · subst hτ
          simp [hold, hnew]
        · simp [hτ]
  simp only [World.live, hown, hr.kept, hr.stack]

/-- What the slot gave up, and nobody else holds, is dead. -/
theorem dead (hr : Reslots w w' σ o) (hbound : (w'.conns d).slot = some σ) (hnew : o ≠ some d)
    (hno : ¬ w.heldElsewhere d) : w'.live d = false := by
  have hown : w'.ownerHolds d = false := by
    simp [World.ownerHolds, hbound, hr.slot, hnew]
  rw [Bool.eq_false_iff]
  intro hlive
  simp only [World.live, hown, Bool.false_or, Bool.or_eq_true, decide_eq_true_eq,
    List.any_eq_true] at hlive
  exact hno (hr.heldElsewhere.mp hlive)

theorem live_new (hr : Reslots w w' σ (some d)) (hbound : (w'.conns d).slot = some σ) :
    w'.live d = true := by
  simp [World.live, World.ownerHolds, hbound, hr.slot]

/-- A connection stored in a slot is live, whatever the slot lets go of. -/
theorem live_stored {x : TcpConnection} (hr : Reslots w w' σ (some w.connCount))
    (hconns : w'.conns = Function.update w.conns w.connCount x) (hx : x.slot = some σ) :
    (w'.letGo (w.slot σ)).live w.connCount = true := by
  refine ((World.quiet_letGo w' (w.slot σ)).live w.connCount).trans ?_
  exact hr.live_new (by rw [hconns, Function.update_self]; exact hx)

/-- The live handlers when a new connection has been stored: its own is one of them,
and only what the slot held may have died. -/
theorem handler?_stored {x : TcpConnection} (hr : Reslots w w' σ (some w.connCount))
    (hconns : w'.conns = Function.update w.conns w.connCount x) (hx : x.slot = some σ)
    (a : HandlerPtr) (ha : ∀ c, w.slot σ = some c → a ≠ .conn c) :
    w'.handler? a = Function.update w.handler? (.conn w.connCount) (some x.handler) a := by
  have hnew : w'.conns w.connCount = x := by rw [hconns, Function.update_self]
  cases a with
  | conn c =>
      by_cases hc : c = w.connCount
      · subst hc
        rw [Function.update_self]
        exact World.handler?_conn.mpr ⟨hr.live_new (by rw [hnew]; exact hx), by rw [hnew]⟩
      · have hold : w'.conns c = w.conns c := by rw [hconns, Function.update_of_ne hc]
        have hlive : w'.live c = w.live c :=
          hr.live (by rw [hold]) (fun hσ => ha c hσ rfl) fun heq => hc (Option.some.inj heq).symm
        rw [Function.update_of_ne (fun heq => hc (HandlerPtr.conn.inj heq))]
        simp only [World.handler?, hlive, hold]
  | connecting k n =>
      rw [Function.update_of_ne (by simp)]
      simp only [World.handler?, hr.connHandler]
  | acceptor s =>
      rw [Function.update_of_ne (by simp)]
      exact hr.accepter s

/-- Likewise when a slot has been vacated. -/
theorem handler?_vacated {c : Nat} (hr : Reslots w w' σ none) (hσ : w.slot σ = some c)
    (hconns : w'.conns = w.conns) (a : HandlerPtr) (ha : a ≠ .conn c) :
    w'.handler? a = w.handler? a := by
  cases a with
  | conn d =>
      have hd : d ≠ c := fun hd => ha (congrArg HandlerPtr.conn hd)
      have hsame : w'.live d = w.live d :=
        hr.live (by rw [hconns]) (fun heq => hd (Option.some.inj (hσ.symm.trans heq)).symm)
          (by simp)
      simp only [World.handler?, hsame, hconns]
  | connecting k n => simp only [World.handler?, hr.connHandler]
  | acceptor s => exact hr.accepter s

end Reslots

namespace Coherent

variable {w w' : World}

/-- The number of the next connection is unused. -/
theorem handler?_fresh (hw : Coherent w) : w.handler? (.conn w.connCount) = none := by
  rw [Option.eq_none_iff_forall_ne_some]
  intro g hg
  exact absurd (hw.known_of_live (World.handler?_conn.mp hg).1) (Nat.lt_irrefl _)

/-- A connection in a slot when a new one is stored there. -/
theorem handler?_displaced {σ : Slot} {x : TcpConnection} (hw : Coherent w)
    (hconns : w'.conns = Function.update w.conns w.connCount x) (c : Nat)
    (hc : w.slot σ = some c) :
    Function.update w.handler? (.conn w.connCount) (some x.handler) (.conn c)
      = some (w'.conns c).handler := by
  have hlt : c ≠ w.connCount := Nat.ne_of_lt (hw.slot σ c hc).1
  rw [Function.update_of_ne (fun heq => hlt (HandlerPtr.conn.inj heq)), hconns,
    Function.update_of_ne hlt]
  exact World.handler?_conn.mpr ⟨hw.live_of_slot hc, rfl⟩

end Coherent

namespace Agrees

variable {w w' : World} {c : Nat}

/-- Calls without `Update` do not look at the object. -/
theorem setConn_runCalls (x : TcpConnection) (ok : Bool) {calls : List SockCall}
    (hcalls : ∀ call ∈ calls, call ≠ .update) :
    calls.foldl (World.runCall c ok) (w.setConn c x)
      = (calls.foldl (World.runCall c ok) w).setConn c x := by
  induction calls generalizing w with
  | nil => rfl
  | cons call calls ih =>
      have hcall : World.runCall c ok (w.setConn c x) call
          = (World.runCall c ok w call).setConn c x := by
        cases call with
        | write direct bytes out => rfl
        | append bytes => rfl
        | update => exact absurd rfl (hcalls _ List.mem_cons_self)
        | shutdown pending => cases ok <;> rfl
      rw [List.foldl_cons, hcall, List.foldl_cons]
      exact ih fun call' hm => hcalls call' (List.mem_cons_of_mem call hm)

/-- **A member function of a live connection** keeps the agreement. -/
theorem connOp (h : Agrees w) (ok : Bool) {r : TcpConnection × List SockCall}
    (hparts : r.1.parts = (w.conns c).parts) (hlive : w.live c = true)
    (hann : Announced (w.conns c) r) : Agrees (w.connOp c r ok) := by
  unfold World.connOp
  rcases hann with ⟨hsame, hcalls⟩ | ⟨pre, post, hcalls, hpre, hpost⟩
  · have hset : Agrees (w.setConn c r.1) := h.setConn hparts hsame
    exact (hset.runCalls ok hcalls).1
  · -- the calls before `Update` may as well run before the object is stored
    obtain ⟨hpreReg, hpreConns, hq⟩ := h.runCalls (c := c) ok hpre
    have hswap := setConn_runCalls (w := w) (c := c) r.1 ok hpre
    have hstore := hpreReg.store (c := c) (x := r.1) (by rw [hpreConns]; exact hparts)
      (by rw [hq.live]; exact hlive)
    have hupdate : World.runCall c ok (World.setConn (pre.foldl (World.runCall c ok) w) c r.1)
        .update = (World.setConn (pre.foldl (World.runCall c ok) w) c r.1).update (.conn c)
          r.1.handler := by
      show World.update _ (.conn c) ((World.setConn _ c r.1).conns c).handler = _
      rw [show (World.setConn (pre.foldl (World.runCall c ok) w) c r.1).conns c = r.1 from
        Function.update_self ..]
    rw [hcalls, List.foldl_append, hswap, List.foldl_cons, hupdate]
    exact (hstore.runCalls ok hpost).1

/-! ## §6. The library's functions. -/

theorem send (h : Agrees w) (c : Nat) (mem : Memory) (data len : SizeT) (out : WriteOutcome) :
    Agrees (w.send c mem data len out) := by
  unfold World.send
  split
  next hlive =>
    exact h.connOp true (TcpConnection.parts_send _ mem data len out) hlive
      (announced_send _ mem data len out)
  next => exact h.fail _

theorem shutDown (h : Agrees w) (c : Nat) (ok : Bool) : Agrees (w.shutDown c ok) := by
  unfold World.shutDown
  split
  next hlive => exact h.connOp ok (TcpConnection.parts_shutDown _) hlive (announced_shutDown _)
  next => exact h.fail _

theorem tcpHandleWrite (h : Agrees w) (c : Nat) (out : WriteOutcome) (ok : Bool) :
    Agrees (w.tcpHandleWrite c out ok) := by
  unfold World.tcpHandleWrite
  split
  next hlive =>
    exact h.connOp ok (TcpConnection.parts_handleWrite _ out) hlive (announced_handleWrite _ out)
  next => exact h.fail _

theorem start (h : Agrees w) (hlive : w.live c = true) : Agrees (w.start c) := by
  have hq : World.Quiet w (w.connOp c (w.conns c).start true) :=
    World.quiet_connOp w true (TcpConnection.parts_start _)
  have hop := h.connOp true (TcpConnection.parts_start _) hlive (announced_start _)
  unfold World.start
  simp only
  split
  · refine (hop.emit (e := .connectionCallback c) rfl).push fun d hd => ?_
    simp only [Frame.holds, beq_iff_eq] at hd
    exact hd ▸ (hq.live c).trans hlive
  · exact hop

theorem runDisconnectCallback (h : Agrees w) (k : Nat) : Agrees (w.runDisconnectCallback k) := by
  unfold World.runDisconnectCallback
  split
  · exact (h.emit (e := .disconnectCallback k (w.clients k).state) rfl).push fun d hd =>
      absurd hd (by simp [Frame.holds])
  · exact h

/-- **A new connection takes a slot**: `make_shared`, the assignment to the slot,
and the end of what was there. -/
theorem occupy (h : Agrees w) (hw : Coherent w) {σ : Slot} {x : TcpConnection}
    (hr : Reslots w w' σ (some w.connCount)) (hx : x.slot = some σ)
    (hev : x.handler.events = 0#32) (hopen : w.fds x.handler.fd = true)
    (hfree : ∀ a g, w.handler? a = some g → g.fd ≠ x.handler.fd)
    (hconns : w'.conns = Function.update w.conns w.connCount x) (hlog : w'.log = w.log)
    (hmask : ∀ c, w.slot σ = some c → ¬ w.heldElsewhere c →
      (w.conns c).handler.events = 0#32) :
    Agrees ((w'.letGo (w.slot σ)).start w.connCount) := by
  have hstored : AgreesOn w' (Function.update w.handler? (.conn w.connCount) (some x.handler)) :=
    (AgreesOn.create h hw.handler?_fresh hfree hopen hev).same hr.poller hr.fds
      fun e he => Or.inl (hlog ▸ he)
  -- only the connection the slot gives up may die here
  have hlet : Agrees (w'.letGo (w.slot σ)) := by
    refine hstored.letGo (hw.handler?_displaced hconns) (hr.handler?_stored hconns hx)
      fun c hc hgone => ?_
    have hne : c ≠ w.connCount := Nat.ne_of_lt (hw.slot σ c hc).1
    rw [hconns, Function.update_of_ne hne]
    refine hmask c hc fun hheld => ?_
    have halive := World.live_of_heldElsewhere (hr.heldElsewhere.mpr hheld)
    exact absurd (halive.symm.trans hgone) (by simp)
  exact hlet.start (hr.live_stored hconns hx)

theorem connEstablish (h : Agrees w) (hw : Coherent w) (k : Nat) {fd : Nat}
    (hopen : w.fds fd = true) (hfree : ∀ a g, w.handler? a = some g → g.fd ≠ fd)
    (hmask : ∀ c, (w.clients k).conn = some c → ¬ w.heldElsewhere c →
      (w.conns c).handler.events = 0#32) : Agrees (w.connEstablish k fd) :=
  h.occupy hw (w.reslots_storeClientConn k fd) rfl rfl hopen hfree rfl rfl hmask

theorem onNewConnect (h : Agrees w) (hw : Coherent w) (s : Nat) {fd : Nat} (addr : InetAdress)
    (hopen : w.fds fd = true) (hfree : ∀ a g, w.handler? a = some g → g.fd ≠ fd)
    (hmask : ∀ c, (w.servers s).conns (w.nextName s addr) = some c → ¬ w.heldElsewhere c →
      (w.conns c).handler.events = 0#32) : Agrees (w.onNewConnect s fd addr) :=
  h.occupy hw (w.reslots_storeServerConn s fd addr) rfl rfl hopen hfree rfl rfl hmask

/-- **A slot is vacated**, and what it held loses an owner. -/
theorem vacate (h : Agrees w) {σ : Slot} {o : Nat} (hr : Reslots w w' σ none)
    (hσ : w.slot σ = some o) (hlive : w.live o = true) (hconns : w'.conns = w.conns)
    (hlog : ∀ e ∈ w'.log, e ∈ w.log ∨ e.isClean = true)
    (hmask : ¬ w.heldElsewhere o → (w.conns o).handler.events = 0#32) :
    Agrees (w'.release o) := by
  -- the live handlers of before, until `release` settles the matter
  have hvacated : AgreesOn w' w.handler? := AgreesOn.same h hr.poller hr.fds hlog
  refine hvacated.release ?_ (hr.handler?_vacated hσ hconns) (fun hgone => ?_)
  · rw [World.handler?, if_pos hlive, hconns]
  · rw [hconns]
    refine hmask fun hheld => ?_
    have halive := World.live_of_heldElsewhere (hr.heldElsewhere.mpr hheld)
    exact absurd (halive.symm.trans hgone) (by simp)

/-- `RemoveConn` for a connection a frame holds. -/
theorem removeConn (h : Agrees w) (s : Nat) {c : Nat} (hheld : w.heldElsewhere c)
    (hlive : ∀ o, w.slot (.server s (w.conns c).name) = some o → w.live o = true)
    (hmask : ∀ o, w.slot (.server s (w.conns c).name) = some o → ¬ w.heldElsewhere o →
      (w.conns o).handler.events = 0#32) : Agrees (w.removeConn s c) := by
  have hr := w.reslots_setServer s (x := { w.servers s with
    conns := Function.update (w.servers s).conns (w.conns c).name none }) rfl rfl
  unfold World.removeConn
  simp only
  split
  next hc =>
    -- its own entry: the temporary of the callback still holds `c`
    exact h.vacate hr hc (World.live_of_heldElsewhere hheld) rfl (fun _ => Or.inl)
      fun hno => absurd hheld hno
  next =>
    cases ho : (w.servers s).conns (w.conns c).name with
    | none =>
        have hno : w.slot (.server s (w.conns c).name) = none := ho
        exact h.same (World.handler?_eq (fun _ => rfl)
          (fun d => hr.live rfl (by simp [hno]) (by simp)) (fun _ => rfl) hr.accepter) rfl rfl
          fun _ => Or.inl
    | some o =>
        -- a namesake's entry
        refine h.vacate (hr.emit (.displaced o)) ho (hlive o ho) rfl (fun e he => ?_) (hmask o ho)
        rcases List.mem_cons.mp he with rfl | hm
        · exact Or.inr rfl
        · exact Or.inl hm

/-- `HandleClose` likewise. -/
theorem handleClose (h : Agrees w) (k : Nat) {c : Nat} (hheld : w.heldElsewhere c) :
    Agrees (w.handleClose k c) := by
  unfold World.handleClose
  simp only
  split
  next hc =>
    have hr := w.reslots_setClient k (x := { w.clients k with conn := none }) rfl
    have hvacated := h.vacate hr hc (World.live_of_heldElsewhere hheld) rfl (fun _ => Or.inl)
      fun hno => absurd hheld hno
    exact hvacated.runDisconnectCallback k
  next => exact h.fail _

theorem closeStart (h : Agrees w) (hlive : w.live c = true) : Agrees (w.closeStart c) :=
  (h.emit (e := .closeEntered c) rfl).connOp true (TcpConnection.parts_closeEnter _) hlive
    (announced_closeEnter _)

/-- What the close callback of `c` finds. -/
theorem atCloseCallback (h : Agrees w) (hlive : w.live c = true) :
    Agrees (w.atCloseCallback c) ∧ (w.atCloseCallback c).heldElsewhere c
      ∧ (w.atCloseCallback c).slot = w.slot
      ∧ (∀ d, d ≠ c → (w.atCloseCallback c).conns d = w.conns d
        ∧ ((w.atCloseCallback c).heldElsewhere d ↔ w.heldElsewhere d))
      ∧ ∀ d, w.live d = true → (w.atCloseCallback c).live d = true := by
  have hq := World.quiet_closeStart w c
  have hconns : (w.closeStart c).conns = Function.update w.conns c (w.conns c).closeEnter.1 :=
    World.conns_connOp _ c _ true
  have hlives : ∀ d, w.live d = true → (w.closeStart c).live d = true := fun d hd =>
    (hq.live d).trans hd
  have hheld : ∀ d, (w.atCloseCallback c).heldElsewhere d ↔ d = c ∨ w.heldElsewhere d := by
    intro d
    show 0 < (w.closeStart c).kept d ∨ (∃ f ∈ .closing c :: (w.closeStart c).stack, _) ↔ _
    rw [hq.kept, hq.stack]
    simp only [List.exists_mem_cons_iff, Frame.holds, beq_iff_eq, World.heldElsewhere, World.emit]
    tauto
  refine ⟨?_, (hheld c).mpr (Or.inl rfl), hq.slot, fun d hd => ⟨?_, ?_⟩, fun d hd => ?_⟩
  · refine ((h.closeStart hlive).push fun d hd => ?_).emit rfl
    simp only [Frame.holds, beq_iff_eq] at hd
    exact hlives d (hd ▸ hlive)
  · show (w.closeStart c).conns d = _
    rw [hconns, Function.update_of_ne hd]
  · rw [hheld]
    exact or_iff_right hd
  · have hlo := hlives d hd
    simp only [World.live, Bool.or_eq_true] at hlo
    simp only [World.atCloseCallback, World.live, World.push, World.emit, List.any_cons,
      Bool.or_eq_true]
    tauto

/-- **`Close`** empties the mask before anything else. -/
theorem close (h : Agrees w) (hw : Coherent w) (c : Nat)
    (hmask : ∀ s o, (w.conns c).closeCallback = some (.removeConn s) →
      w.slot (.server s (w.conns c).name) = some o → o ≠ c → ¬ w.heldElsewhere o →
      (w.conns o).handler.events = 0#32) : Agrees (w.close c) := by
  unfold World.close
  split
  next hlive =>
    have hparts := (World.quiet_closeStart w c).parts c
    have hname : ((w.closeStart c).conns c).name = (w.conns c).name :=
      congrArg ConnParts.name hparts
    have hclose : ((w.closeStart c).conns c).closeCallback = (w.conns c).closeCallback :=
      congrArg ConnParts.closeCallback hparts
    simp only
    cases hcb : ((w.closeStart c).conns c).closeCallback with
    | none => exact (h.closeStart hlive).setConn (TcpConnection.parts_closeReturn _) rfl
    | some callback =>
        obtain ⟨hagrees, hheld, hslot, hothers, hlives⟩ := h.atCloseCallback hlive
        cases callback with
        -- a client's slot holds `c` or the `assert` fails
        | handleClose k => exact hagrees.handleClose k hheld
        | removeConn s =>
            have hfound : ∀ o, (w.atCloseCallback c).slot
                (.server s ((w.atCloseCallback c).conns c).name) = some o →
                w.slot (.server s (w.conns c).name) = some o := by
              intro o ho
              rw [hslot] at ho
              exact hname ▸ ho
            refine hagrees.removeConn s hheld (fun o ho => ?_) (fun o ho hno => ?_)
            · exact hlives o (hw.live_of_slot (hfound o ho))
            · have hoc : o ≠ c := fun hoc => hno (hoc ▸ hheld)
              rw [(hothers o hoc).1]
              exact hmask s o (hclose.symm.trans hcb) (hfound o ho) hoc
                fun hheld' => hno ((hothers o hoc).2.mpr hheld')
  next => exact h.fail _

/-- A new handler is stored and registered. -/
theorem install (h : Agrees w) {ptr : HandlerPtr} {g : Handler HandlerCallback}
    (hobjs : w'.handler? = Function.update w.handler? ptr (some g))
    (hfresh : w.handler? ptr = none) (hopen : w.fds g.fd = true)
    (hfree : ∀ a g', w.handler? a = some g' → g'.fd ≠ g.fd)
    (hpoller : w'.poller = w.poller) (hfds : w'.fds = w.fds)
    (hlog : ∀ e ∈ w'.log, e ∈ w.log ∨ e.isClean = true) : Agrees (w'.update ptr g) := by
  -- the handler is made without events, and its mask changes before `Update`
  have hcreate : AgreesOn w (Function.update w.handler? ptr (some (g.setEvents 0#32))) :=
    AgreesOn.create h hfresh hfree hopen rfl
  have hmade : AgreesOn w' (Function.update w.handler? ptr (some (g.setEvents 0#32))) :=
    hcreate.same hpoller hfds hlog
  obtain ⟨hupdate, p, hp⟩ := hmade.update
    (Function.update_self ptr _ w.handler?) (show g.fd = (g.setEvents 0#32).fd from rfl)
  rw [Function.update_idem] at hupdate
  rw [Agrees]
  rw [show (w'.update ptr g).handler? = w'.handler? by rw [hp]; rfl, hobjs]
  exact hupdate

/-- `Connecting` when no handler is there yet. -/
theorem connecting (h : Agrees w) {k fd : Nat} (hnone : (w.clients k).connHandler = none)
    (hopen : w.fds fd = true) (hfree : ∀ a g, w.handler? a = some g → g.fd ≠ fd) :
    Agrees (w.connecting k fd) := by
  unfold World.connecting
  simp only [hnone]
  refine h.install (World.handler?_setClient (w := w) rfl fun m => ?_) ?_ hopen hfree rfl rfl
    fun _ => Or.inl
  · by_cases hm : m = w.handlerCount
    · subst hm
      simp [World.handler?, World.setClient]
    · rw [Function.update_of_ne (by simp [hm])]
      simp [World.handler?, World.setClient, hnone, Ne.symm hm]
  · simp [World.handler?, hnone]

theorem serverStart (h : Agrees w) {s fd : Nat} (hacc : (w.servers s).accepter = none)
    (hfd : w.fds fd = false) : Agrees (w.serverStart s fd) := by
  unfold World.serverStart
  exact (h.openFd fd).install (World.handler?_setServer rfl) hacc (Function.update_self ..)
    (AgreesOn.free h hfd) rfl rfl fun _ => Or.inl

theorem setServerFlags (h : Agrees w) (s : Nat) (newConn msg : Bool) :
    Agrees (w.setServerFlags s newConn msg) := by
  refine h.same ?_ rfl rfl fun _ => Or.inl
  refine (World.handler?_setServer (w := w) (s := s)
    (x := { w.servers s with newConnCallback := newConn, msgCallback := msg }) rfl).trans ?_
  exact Function.update_eq_self (HandlerPtr.acceptor s) w.handler?

/-- **`DisableAll` and `reset`** on a connecting handler, which leave its
descriptor open and without a handler. -/
theorem dropConnHandler (h : Agrees w) {k n : Nat} {g : Handler HandlerCallback}
    (hk : (w.clients k).connHandler = some (n, g)) :
    Agrees (w.dropConnHandler k n g) ∧ (w.dropConnHandler k n g).fds g.fd = true
      ∧ ∀ a g', (w.dropConnHandler k n g).handler? a = some g' → g'.fd ≠ g.fd := by
  have hobj : w.handler? (.connecting k n) = some g := World.handler?_connecting.mpr hk
  obtain ⟨hupdate, p, hp⟩ := AgreesOn.update h hobj (Handler.fd_disableAll g)
  obtain ⟨hhan, _⟩ :=
    (hupdate.mirror.at_fd (Function.update_self ..)).2 (Handler.events_disableAll g)
  have hdrop := hupdate.drop (Function.update_self ..) (Handler.events_disableAll g)
  rw [Function.update_idem] at hdrop
  have hobjs : (w.dropConnHandler k n g).handler?
      = Function.update w.handler? (.connecting k n) none := by
    unfold World.dropConnHandler
    rw [hp]
    refine World.handler?_setClient (w := w) rfl fun m => ?_
    by_cases hm : m = n
    · subst hm
      simp [World.handler?, World.setClient]
    · rw [Function.update_of_ne (by simp [hm])]
      simp [World.handler?, World.setClient, hk, Ne.symm hm]
  have hagrees : AgreesOn (w.dropConnHandler k n g)
      (Function.update w.handler? (.connecting k n) none) := by
    refine hdrop.same rfl rfl fun e he => ?_
    rcases List.mem_cons.mp he with rfl | hm
    · refine Or.inr ?_
      show (!Option.isSome _) = true
      simpa [World.setClient] using hhan
    · exact Or.inl hm
  refine ⟨by rw [Agrees, hobjs]; exact hagrees, ?_, ?_⟩
  · unfold World.dropConnHandler
    rw [hp]
    exact h.fds _ _ hobj
  · rw [hobjs]
    exact AgreesOn.alone h hobj

/-- It moves no connection. -/
theorem dropConnHandler_frame (w : World) (k n : Nat) (g : Handler HandlerCallback) :
    ((w.dropConnHandler k n g).clients k).conn = (w.clients k).conn
      ∧ (w.dropConnHandler k n g).conns = w.conns
      ∧ ∀ c, (w.dropConnHandler k n g).heldElsewhere c ↔ w.heldElsewhere c := by
  have hq := w.quiet_update (.connecting k n) g.disableAll
  refine ⟨?_, w.conns_update (.connecting k n) g.disableAll, fun c => ?_⟩
  · rw [World.clients_dropConnHandler, Function.update_self]
  · show 0 < (w.update _ _).kept c ∨ (∃ f ∈ (w.update _ _).stack, f.holds c = true) ↔ _
    rw [hq.kept, hq.stack]
    rfl

theorem clientHandleError (h : Agrees w) (k : Nat) : Agrees (w.clientHandleError k) := by
  unfold World.clientHandleError
  split
  · split
    next => exact h.fail _
    next n g hk =>
      obtain ⟨hdrop, _, hfree⟩ := h.dropConnHandler hk
      exact (hdrop.closeFd hfree).runDisconnectCallback k
  · exact h

theorem clientHandleWrite (h : Agrees w) (hw : Coherent w) (k err : Nat)
    (hmask : err = 0 → (w.clients k).state = .connecting → ∀ c, (w.clients k).conn = some c →
      ¬ w.heldElsewhere c → (w.conns c).handler.events = 0#32) :
    Agrees (w.clientHandleWrite k err) := by
  unfold World.clientHandleWrite
  split
  next hst =>
    split
    next => exact h.fail _
    next n g hk =>
      obtain ⟨hdrop, hopen, hfree⟩ := h.dropConnHandler hk
      simp only
      split
      next => exact hdrop.runDisconnectCallback k
      next herr =>
        -- dropping the handler has not changed what the new connection displaces
        obtain ⟨hconn, hconns, hheld⟩ := dropConnHandler_frame w k n g
        refine hdrop.connEstablish (hw.dropConnHandler k n g) k hopen hfree fun c hc hno => ?_
        rw [hconn] at hc
        rw [hheld] at hno
        rw [hconns]
        exact hmask (not_not.mp herr) hst c hc hno
  next => exact h

/-- A fresh descriptor is opened and dialled. -/
theorem dial (h : Agrees w) (k : Nat) (ip : Text) (port : BitVec 16) (fd : Nat) :
    Agrees (w.dial k ip port fd) := by
  have haddr : Agrees (w.storeAddr k ip port) := h.setClient rfl rfl
  exact (haddr.openFd fd).emit (e := .dialled k ((w.clients k).addr.fromIpPort ip port).2.addr) rfl

theorem connect (h : Agrees w) (hw : Coherent w) {k : Nat} {ip : Text} {port : BitVec 16}
    {sock : Option Nat} {outcome : ConnectOutcome}
    (hsock : ∀ fd, sock = some fd → w.fds fd = false)
    (hd : Deregisters w (.user (.connect k ip port sock outcome))) :
    Agrees (w.connect k ip port sock outcome) := by
  unfold World.connect
  split
  next => exact h
  next hst =>
    have hstate : (w.clients k).state = .disConnected := not_not.mp hst
    cases sock with
    | none => exact h.setClient rfl rfl
    | some fd =>
        have hdial := h.dial k ip port fd
        have hopen : (w.dial k ip port fd).fds fd = true := Function.update_self ..
        have hfree : ∀ a g, (w.dial k ip port fd).handler? a = some g → g.fd ≠ fd := by
          intro a g hg
          refine AgreesOn.free h (hsock fd rfl) a g ?_
          rw [← World.handler?_setClient_same (w := w) (k := k)
            (x := { w.clients k with addr := ((w.clients k).addr.fromIpPort ip port).2 }) rfl rfl]
          exact hg
        simp only
        cases outcome with
        | ok =>
            refine hdial.connEstablish (hw.dial k ip port fd) k hopen hfree fun c hc hno => ?_
            rw [w.clients_dial] at hc
            refine hd.displaced c ?_ hno
            simpa [World.displaces, World.establishes, hstate] using hc
        | failed errno =>
            simp only
            split
            next herr =>
              -- the condition: no handler of an earlier attempt is left
              refine hdial.connecting ?_ hopen hfree
              rw [w.clients_dial]
              have hnone := hd.attempt k (by simp [World.startsAttempt, hstate, herr])
              simpa using hnone
            next =>
              -- the descriptor never had a handler, so closing it is harmless
              have hobjs : ((w.dial k ip port fd).setClient k
                  { (w.dial k ip port fd).clients k with state := .disConnected }).handler?
                  = (w.dial k ip port fd).handler? := World.handler?_setClient_same rfl rfl
              have hset := hdial.same hobjs rfl rfl fun _ => Or.inl
              refine hset.closeFd fun a g hg => hfree a g ?_
              rw [hobjs] at hg
              exact hg

theorem disconnect (h : Agrees w) (k : Nat) (ok : Bool) : Agrees (w.disconnect k ok) := by
  have hset : Agrees (w.setClient k { w.clients k with state := .disConnected }) :=
    h.setClient rfl rfl
  unfold World.disconnect
  simp only
  split
  · exact hset.fail _
  · exact hset.shutDown _ ok

theorem clientSend (h : Agrees w) (k : Nat) (mem : Memory) (data len : SizeT)
    (out : WriteOutcome) : Agrees (w.clientSend k mem data len out) := by
  unfold World.clientSend
  split
  · exact h
  · exact h.send _ mem data len out

theorem tcpHandleRead (h : Agrees w) (hw : Coherent w) (c : Nat) (r : ReadOutcome)
    (hmask : r = .eof → ∀ s o, (w.conns c).closeCallback = some (.removeConn s) →
      w.slot (.server s (w.conns c).name) = some o → o ≠ c → ¬ w.heldElsewhere o →
      (w.conns o).handler.events = 0#32) : Agrees (w.tcpHandleRead c r) := by
  unfold World.tcpHandleRead
  split
  next hlive =>
    cases r with
    | failed errno => exact h
    | eof => exact h.close hw c (hmask rfl)
    | data bytes =>
        have hset := h.setConn (TcpConnection.parts_receive (w.conns c) bytes) rfl
        have hlives : (w.setConn c ((w.conns c).receive bytes)).live c = true :=
          ((World.quiet_setConn w (TcpConnection.parts_receive _ bytes)).live c).trans hlive
        simp only
        split
        · refine (hset.emit (e := .messageCallback c) rfl).push fun d hd => ?_
          simp only [Frame.holds, beq_iff_eq] at hd
          exact hd ▸ hlives
        · exact hset.fail _
  next => exact h.fail _

theorem acceptorHandleRead (h : Agrees w) (hw : Coherent w) (s : Nat) (accept : AcceptOutcome)
    (hfd : ∀ fd addr, accept = .conn fd addr → w.fds fd = false)
    (hmask : ∀ fd addr, accept = .conn fd addr → ∀ c,
      (w.servers s).conns (w.nextName s (InetAdress.new.fromAddr addr).2) = some c →
      ¬ w.heldElsewhere c → (w.conns c).handler.events = 0#32) :
    Agrees (w.acceptorHandleRead s accept) := by
  unfold World.acceptorHandleRead
  split
  next fd addr =>
    -- `accept` returns a descriptor that was not open
    exact (h.openFd fd).onNewConnect (hw.quiet World.Quiet.of_machine) s _ (Function.update_self ..)
      (AgreesOn.free h (hfd fd addr rfl)) (hmask fd addr rfl)
  next => exact h

/-! ## §7. One step. -/

/-- Frames that hold nothing come and go. -/
theorem setStack (h : Agrees w) {st : List Frame}
    (hst : ∀ c, st.any (Frame.holds c) = w.stack.any (Frame.holds c)) :
    Agrees { w with stack := st } :=
  h.same (World.handler?_setStack hst) rfl rfl fun _ => Or.inl

/-- A copy of a connection's pointer is dropped; `v` is the world without it. -/
theorem dropCopy (h : Agrees w) {v : World} (hlive : w.live c = true)
    (hconns : v.conns = w.conns) (hothers : ∀ d, d ≠ c → v.live d = w.live d)
    (hclients : v.clients = w.clients) (hservers : v.servers = w.servers)
    (hpoller : v.poller = w.poller) (hfds : v.fds = w.fds) (hlog : v.log = w.log)
    (hmask : v.live c = false → (w.conns c).handler.events = 0#32) : Agrees (v.release c) := by
  have hdropped : AgreesOn v w.handler? :=
    AgreesOn.same h hpoller hfds fun e he => Or.inl (hlog ▸ he)
  refine hdropped.release ?_ (fun a ha => ?_) ?_
  · rw [World.handler?, if_pos hlive, hconns]
  · cases a with
    | conn d =>
        have hd : d ≠ c := fun hd => ha (congrArg HandlerPtr.conn hd)
        simp only [World.handler?, hothers d hd, hconns]
    | connecting k n => simp only [World.handler?, hclients]
    | acceptor s => simp only [World.handler?, hservers]
  · rw [hconns]
    exact hmask

/-- The same when the copy was a frame's. -/
theorem popHolder (h : Agrees w) {f : Frame} {rest : List Frame} (hst : w.stack = f :: rest)
    (hholds : ∀ d, f.holds d = (c == d))
    (hmask : World.live { w with stack := rest } c = false →
      (w.conns c).handler.events = 0#32) : Agrees ({ w with stack := rest }.release c) := by
  refine h.dropCopy ?_ rfl (fun d hd => ?_) rfl rfl rfl rfl rfl hmask
  · exact World.live_of_heldElsewhere
      (Or.inr ⟨f, by rw [hst]; exact List.mem_cons_self, by simp [hholds]⟩)
  · have hf : f.holds d = false := by simp [hholds, Ne.symm hd]
    show (w.ownerHolds d || decide (0 < w.kept d) || rest.any (Frame.holds d)) = _
    rw [World.live, hst, List.any_cons, hf, Bool.false_or]

/-- The read test: `Close` and `accept` may displace a connection. -/
theorem readTest (h : Agrees w) (hw : Coherent w) {env : Env} {ptr : HandlerPtr}
    {mask : EventMask} {rest : List Frame} (hst : w.stack = .handleEvent ptr mask .read :: rest)
    (hadm : w.admits env = true) (hd : Deregisters w (.resume env)) :
    Agrees ({ w with stack := .handleEvent ptr mask .write :: rest }.testEvent env ptr mask
      World.readBits Handler.readCallback) := by
  have hany := World.holds_advance hst .write
  have h₁ := h.setStack hany
  have hw₁ := hw.advance hst .write
  rcases hw₁.read_cases env ptr mask rfl with
    ⟨_, heq⟩ | ⟨_, _, heq⟩ | ⟨c, hc, hbits, hlive, heq⟩ | ⟨s, hs, hbits, hacc, heq⟩
  · rw [heq]
    exact h₁
  · rw [heq]
    exact h₁.fail _
  · rw [heq]
    subst hc
    have hlive' : w.live c = true := (World.live_setStack (hany c)).symm.trans hlive
    refine h₁.tcpHandleRead hw₁ c _ fun heof s o hcb hslot hne hno => ?_
    -- `RemoveConn` finds a namesake
    refine hd.displaced o ?_ ?_
    · refine (World.displaces_close_iff (c := c) (by simp [World.establishes, hst])
        (by simp [World.accepts, hst]) (by simp [World.entersClose, hst, hbits, heof])).mpr ?_
      exact ⟨hlive', s, hcb, hslot, hne⟩
    · rw [← World.heldElsewhere_setStack (hany o)]
      exact hno
  · rw [heq]
    subst hs
    refine h₁.acceptorHandleRead hw₁ s _ (fun fd addr hconn => ?_) fun fd addr hconn c hc hno => ?_
    · simpa [World.admits, hst, hconn] using hadm
    · refine hd.displaced c ?_ ?_
      · -- `_conns[connName]` was taken
        have hacc' : (w.servers s).accepter.isSome = true := hacc
        have haccepts : w.accepts (.resume env)
            = some (s, w.nextName s (InetAdress.new.fromAddr addr).2) := by
          simp only [World.accepts, hst, hconn]
          exact if_pos ⟨hbits, hacc'⟩
        simp only [World.displaces, World.establishes, hst, haccepts]
        exact hc
      · rw [← World.heldElsewhere_setStack (hany c)]
        exact hno

/-- The write test: a finished attempt may displace a connection. -/
theorem writeTest (h : Agrees w) (hw : Coherent w) {env : Env} {ptr : HandlerPtr}
    {mask : EventMask} {rest : List Frame} (hst : w.stack = .handleEvent ptr mask .write :: rest)
    (hd : Deregisters w (.resume env)) :
    Agrees ({ w with stack := .handleEvent ptr mask .error :: rest }.testEvent env ptr mask
      EPOLLOUT Handler.writeCallback) := by
  have hany := World.holds_advance hst .error
  have h₁ := h.setStack hany
  have hw₁ := hw.advance hst .error
  rcases hw₁.write_cases env ptr mask rfl with
    ⟨_, heq⟩ | ⟨_, _, heq⟩ | ⟨c, _, _, _, heq⟩ | ⟨k, n, g, hk, hbits, hg, heq⟩
  · rw [heq]
    exact h₁
  · rw [heq]
    exact h₁.fail _
  · rw [heq]
    exact h₁.tcpHandleWrite c _ _
  · rw [heq]
    subst hk
    refine h₁.clientHandleWrite hw₁ k _ fun herr hstate c hc hno => ?_
    -- `ConnEstablish` assigns over an earlier `_conn`
    refine hd.displaced c ?_ ?_
    · have hattempt : w.attempting k n := by
        refine ⟨hstate, ?_⟩
        rw [show (w.clients k).connHandler = some (n, g) from hg]
        rfl
      have hest : w.establishes (.resume env) = some k := by
        simp only [World.establishes, hst]
        exact if_pos ⟨hbits, herr, hattempt⟩
      simp only [World.displaces, hest]
      exact hc
    · rw [← World.heldElsewhere_setStack (hany c)]
      exact hno

/-- **One step** that deregisters what it destroys keeps the agreement. -/
theorem next (h : Agrees w) (hw : Coherent w) {l : Label} (hd : Deregisters w l)
    (hnext : w.next l = some w') : Agrees w' := by
  obtain ⟨_, hturn⟩ := World.next_turn hnext
  cases hturn with
  | poll hst => exact h.push fun d hd => absurd hd (by simp [Frame.holds])
  | loopEnd hst => exact h.setStack fun c => by rw [hst]; rfl
  | loopStale hst hptr => exact h.fail _
  | loopNext hst hptr => exact h.setStack fun c => by rw [hst]; rfl
  | readTest hst hadm => exact h.readTest hw hst hadm hd
  | writeTest hst hadm => exact h.writeTest hw hst hd
  | @errorTest env ptr mask rest hst =>
      have h₁ : Agrees { w with stack := rest } := h.setStack fun c => by rw [hst]; rfl
      rcases (hw.pop hst).error_cases env ptr mask rfl with
        ⟨_, heq⟩ | ⟨_, _, heq⟩ | ⟨k, n, g, _, _, _, heq⟩
      · rw [heq]
        exact h₁
      · rw [heq]
        exact h₁.fail _
      · rw [heq]
        exact h₁.clientHandleError k
  | @finishClose env c rest hst =>
      have hrel : Agrees ({ w with stack := rest }.release c) := by
        -- the temporary of `_closeCallback(shared_from_this())` dies
        refine h.popHolder hst (fun _ => rfl) (hd.dropped (c, _) ?_)
        simp only [World.dropsCopy, hst]
      unfold World.finishClose
      simp only
      split
      · exact hrel.setConn (TcpConnection.parts_closeReturn _) rfl
      · exact hrel.fail _
  | connect hsock => exact h.connect hw hsock hd
  | disconnect => exact h.disconnect _ _
  | clientSend hout => exact h.clientSend _ _ _ _ _
  | setConnectionCallback => exact h.setClient rfl rfl
  | setMessageCallback => exact h.setClient rfl rfl
  | setDisconnectCallback => exact h.setClient rfl rfl
  | serverStart hacc hfd => exact h.serverStart hacc hfd
  | serverSetConnCallback => exact h.setServerFlags _ _ _
  | serverSetMessageCallback => exact h.setServerFlags _ _ _
  | send hacc hout => exact h.send _ _ _ _ _
  | shutDown hacc => exact h.shutDown _ _
  | @close c hacc =>
      refine h.close hw c fun s o hcb hslot hne hno => ?_
      refine hd.displaced o ((World.displaces_close_iff rfl rfl rfl).mpr ?_) hno
      exact ⟨Coherent.live_of_accessible hacc, s, hcb, hslot, hne⟩
  | retrieve hacc => exact h.setConn (TcpConnection.parts_retrieve _ _) rfl
  | retrieveAll hacc => exact h.setConn (TcpConnection.parts_retrieveAll _) rfl
  | @keep c hacc =>
      refine h.same (World.handler?_eq (fun _ => rfl) (fun d => ?_) (fun _ => rfl) fun _ => rfl)
        rfl rfl fun _ => Or.inl
      by_cases hdc : d = c
      · subst hdc
        rw [Coherent.live_of_accessible hacc]
        simp [World.live]
      · simp only [World.live, Function.update_of_ne hdc]
        rfl
  | @drop c hkept =>
      refine h.dropCopy (World.live_of_heldElsewhere (Or.inl hkept)) rfl (fun d hdc => ?_) rfl rfl
        rfl rfl rfl (hd.dropped (c, _) rfl)
      simp only [World.live, Function.update_of_ne hdc]
      rfl
  | retConnection hst =>
      refine h.popHolder hst (fun _ => rfl) (hd.dropped (_, _) ?_)
      simp only [World.dropsCopy, hst]
  | retMessage hst =>
      refine h.popHolder hst (fun _ => rfl) (hd.dropped (_, _) ?_)
      simp only [World.dropsCopy, hst]
  | retDisconnect hst => exact h.setStack fun c => by rw [hst]; rfl

/-! ## §8. A step that does not deregister. -/

theorem not_nothingStale (ptr : HandlerPtr) (hm : .handlerDestroyed ptr true ∈ w.log) :
    ¬ NothingStale w := fun h => absurd (h.destroyed _ _ hm) (by simp)

/-- A live connection with events is registered. -/
theorem registered (h : Agrees w) (hlive : w.live c = true)
    (hev : (w.conns c).handler.events ≠ 0#32) :
    (w.poller.handlers (w.conns c).handler.fd).isSome = true := by
  have hobj : w.handler? (.conn c) = some (w.conns c).handler := by
    rw [World.handler?, if_pos hlive]
  rw [((h.mirror.at_fd hobj).1 hev).1]
  rfl

/-- The end of a registered connection is on record. -/
theorem mem_release (hdead : w.live c = false)
    (hreg : (w.poller.handlers (w.conns c).handler.fd).isSome = true) :
    .handlerDestroyed (.conn c) true ∈ (w.release c).log := by
  unfold World.release World.destroyConn
  simp only [hdead, hreg, Bool.false_eq_true, if_false]
  split
  · exact List.mem_cons_of_mem _ List.mem_cons_self
  · exact List.mem_cons_self

/-- A slot lets go of a registered connection nobody else holds. -/
theorem mem_letGo (h : Agrees w) {σ : Slot} {o : Option Nat} (hr : Reslots w w' σ o)
    (hlive : w.live c = true) (hbound : (w.conns c).slot = some σ) (ho : o ≠ some c)
    (hconns : w'.conns c = w.conns c) (hno : ¬ w.heldElsewhere c)
    (hev : (w.conns c).handler.events ≠ 0#32) :
    .handlerDestroyed (.conn c) true ∈ (w'.letGo (some c)).log := by
  refine mem_release (w := w'.emit (.displaced c)) ?_ ?_
  · refine (hr.emit (.displaced c)).dead ?_ ho hno
    show (w'.conns c).slot = some σ
    rw [hconns]
    exact hbound
  · show (w'.poller.handlers (w'.conns c).handler.fd).isSome = true
    rw [hr.poller, hconns]
    exact h.registered hlive hev

theorem mem_connEstablish (h : Agrees w) (hw : Coherent w) {k : Nat} (fd : Nat)
    (hc : (w.clients k).conn = some c) (hno : ¬ w.heldElsewhere c)
    (hev : (w.conns c).handler.events ≠ 0#32) :
    .handlerDestroyed (.conn c) true ∈ (w.connEstablish k fd).log := by
  obtain ⟨hlt, hbound, _⟩ := hw.slot (.client k) c hc
  have hne : c ≠ w.connCount := by omega
  unfold World.connEstablish
  rw [hc]
  refine (World.log_start _ _).subset (h.mem_letGo (w.reslots_storeClientConn k fd)
    (hw.live_of_slot (σ := .client k) hc) hbound ?_ ?_ hno hev)
  · exact fun heq => hne (Option.some.inj heq).symm
  · exact Function.update_of_ne hne ..

theorem mem_onNewConnect (h : Agrees w) (hw : Coherent w) {s : Nat} (fd : Nat) (addr : InetAdress)
    (hc : (w.servers s).conns (w.nextName s addr) = some c) (hno : ¬ w.heldElsewhere c)
    (hev : (w.conns c).handler.events ≠ 0#32) :
    .handlerDestroyed (.conn c) true ∈ (w.onNewConnect s fd addr).log := by
  obtain ⟨hlt, hbound, _⟩ := hw.slot (.server s (w.nextName s addr)) c hc
  have hne : c ≠ w.connCount := by omega
  unfold World.onNewConnect
  rw [hc]
  refine (World.log_start _ _).subset
    (h.mem_letGo (w.reslots_storeServerConn s fd addr)
      (hw.live_of_slot (σ := .server s (w.nextName s addr)) hc) hbound ?_ ?_ hno hev)
  · exact fun heq => hne (Option.some.inj heq).symm
  · exact Function.update_of_ne hne ..

/-- `RemoveConn` erases a registered namesake. -/
theorem mem_close (h : Agrees w) (hw : Coherent w) {s o : Nat} (hlive : w.live c = true)
    (hcb : (w.conns c).closeCallback = some (.removeConn s))
    (ho : (w.servers s).conns (w.conns c).name = some o) (hne : o ≠ c)
    (hno : ¬ w.heldElsewhere o) (hev : (w.conns o).handler.events ≠ 0#32) :
    .handlerDestroyed (.conn o) true ∈ (w.close c).log := by
  obtain ⟨hagrees, _, _, hothers, hlives⟩ := h.atCloseCallback hlive
  obtain ⟨_, hbound, _⟩ := hw.slot (.server s (w.conns c).name) o ho
  have hq := World.quiet_closeStart w c
  have hname : ((w.closeStart c).conns c).name = (w.conns c).name :=
    congrArg ConnParts.name (hq.parts c)
  have hservers : (w.closeStart c).servers = w.servers := hq.servers
  have hclose : w.close c = ((w.atCloseCallback c).setServer s { w.servers s with
      conns := Function.update (w.servers s).conns (w.conns c).name none }).letGo (some o) := by
    have hcb' : ((w.closeStart c).conns c).closeCallback = some (.removeConn s) :=
      (congrArg ConnParts.closeCallback (hq.parts c)).trans hcb
    unfold World.close
    simp only [hlive, if_true, hcb']
    show (w.atCloseCallback c).removeConn s c = _
    unfold World.removeConn
    simp only [World.atCloseCallback, World.emit, World.push, hservers, hname, ho,
      Option.some.injEq, hne, if_false]
  have hr := (w.atCloseCallback c).reslots_setServer s (x := { w.servers s with
    conns := Function.update (w.servers s).conns (w.conns c).name none })
    (by show _ = Function.update ((w.closeStart c).servers s).conns _ _; rw [hservers])
    (by show _ = ((w.closeStart c).servers s).accepter; rw [hservers])
  rw [hclose]
  refine hagrees.mem_letGo hr (hlives o (hw.live_of_slot (σ := .server s (w.conns c).name) ho)) ?_
    (by simp) rfl (fun hheld => hno ((hothers o hne).2.mp hheld)) ?_
  · rw [(hothers o hne).1]
    exact hbound
  · rw [(hothers o hne).1]
    exact hev

theorem mem_connecting (h : Agrees w) (hw : Coherent w) {k m : Nat} {g : Handler HandlerCallback}
    (hg : (w.clients k).connHandler = some (m, g)) (fd : Nat) :
    .handlerDestroyed (.connecting k m) true ∈ (w.connecting k fd).log := by
  -- a connecting handler waits for EPOLLOUT as long as it is there
  obtain ⟨_, _, _, _, hev⟩ := hw.connHandler k m g hg
  have hobj : w.handler? (.connecting k m) = some g := World.handler?_connecting.mpr hg
  have hreg : (w.poller.handlers g.fd).isSome = true := by
    rw [((h.mirror.at_fd hobj).1 hev).1]
    rfl
  unfold World.connecting
  simp only [hg, hreg, World.log_update]
  exact List.mem_cons_self

/-- `Connecting` replaces a handler that waits for something. -/
theorem lost_attempt (h : Agrees w) (hw : Coherent w) {l : Label} (hturn : Turn w l w') {k : Nat}
    (hk : w.startsAttempt l = some k) (hsome : (w.clients k).connHandler.isSome = true) :
    ¬ NothingStale w' := by
  cases hturn with
  | @connect k' ip port sock outcome hsock =>
      unfold World.startsAttempt at hk
      split at hk
      next heq =>
        obtain ⟨rfl, rfl, rfl, rfl, rfl⟩ := UserCall.connect.inj (Label.user.inj heq)
        rw [Option.ite_none_right_eq_some] at hk
        obtain ⟨⟨hstate, herr⟩, hkk⟩ := hk
        obtain rfl := Option.some.inj hkk
        obtain ⟨⟨m, g⟩, hg⟩ := Option.isSome_iff_exists.mp hsome
        refine not_nothingStale (.connecting k' m) ?_
        unfold World.connect
        simp only [hstate, ne_eq, not_true_eq_false, if_false, herr, if_true]
        exact (h.dial k' ip port _).mem_connecting (hw.dial k' ip port _) (m := m) (g := g)
          ((congrArg TCPClient.connHandler (w.clients_dial ..)).trans hg) _
      next => exact absurd hk (by simp)
  | _ => exact absurd hk (by simp [World.startsAttempt])

/-- A connection with events loses its last owner with a copy of its pointer. -/
theorem lost_dropped (h : Agrees w) {l : Label} (hturn : Turn w l w') {v : World}
    (hc : w.dropsCopy l = some (c, v)) (hdead : v.live c = false)
    (hev : (w.conns c).handler.events ≠ 0#32) : ¬ NothingStale w' := by
  have hrelease : w.live c = true → v.poller = w.poller → v.conns = w.conns →
      .handlerDestroyed (.conn c) true ∈ (v.release c).log := by
    intro hlive hpoller hconns
    refine mem_release hdead ?_
    rw [hpoller, hconns]
    exact h.registered hlive hev
  -- a frame's own copy kept the connection alive until now
  have hframe : ∀ {f : Frame} {rest : List Frame}, w.stack = f :: rest → f.holds c = true →
      w.live c = true := by
    intro f rest hst hf
    exact World.live_of_heldElsewhere (Or.inr ⟨f, by rw [hst]; exact List.mem_cons_self, hf⟩)
  cases hturn with
  | @finishClose env d rest hst =>
      simp only [World.dropsCopy, hst, Option.some.injEq, Prod.mk.injEq] at hc
      obtain ⟨rfl, rfl⟩ := hc
      refine not_nothingStale (.conn d) ?_
      rw [(World.finishClose_machine _ d).2.2]
      exact hrelease (hframe hst (by simp [Frame.holds])) rfl rfl
  | drop hkept =>
      simp only [World.dropsCopy, Option.some.injEq, Prod.mk.injEq] at hc
      obtain ⟨rfl, rfl⟩ := hc
      exact not_nothingStale _ (hrelease (World.live_of_heldElsewhere (Or.inl hkept)) rfl rfl)
  | retConnection hst =>
      simp only [World.dropsCopy, hst, Option.some.injEq, Prod.mk.injEq] at hc
      obtain ⟨rfl, rfl⟩ := hc
      exact not_nothingStale _ (hrelease (hframe hst (by simp [Frame.holds])) rfl rfl)
  | retMessage hst =>
      simp only [World.dropsCopy, hst, Option.some.injEq, Prod.mk.injEq] at hc
      obtain ⟨rfl, rfl⟩ := hc
      exact not_nothingStale _ (hrelease (hframe hst (by simp [Frame.holds])) rfl rfl)
  | _ => exact absurd hc (by simp [World.dropsCopy, *])

theorem mem_clientHandleWrite (h : Agrees w) (hw : Coherent w) {k n : Nat}
    {g : Handler HandlerCallback} (hstate : (w.clients k).state = .connecting)
    (hg : (w.clients k).connHandler = some (n, g)) (hc : (w.clients k).conn = some c)
    (hno : ¬ w.heldElsewhere c) (hev : (w.conns c).handler.events ≠ 0#32) :
    .handlerDestroyed (.conn c) true ∈ (w.clientHandleWrite k 0).log := by
  obtain ⟨hdrop, _, _⟩ := h.dropConnHandler hg
  obtain ⟨hconn, hconns, hheld⟩ := dropConnHandler_frame w k n g
  unfold World.clientHandleWrite
  simp only [hstate, if_true, hg, ne_eq, not_true_eq_false, if_false]
  refine hdrop.mem_connEstablish (hw.dropConnHandler k n g) g.fd (hconn.trans hc) ?_ ?_
  · rw [hheld]
    exact hno
  · rw [hconns]
    exact hev

/-- `Connect` stores a new connection over a registered one. -/
theorem mem_connect (h : Agrees w) (hw : Coherent w) {k : Nat} {ip : Text} {port : BitVec 16}
    {sock : Option Nat} {outcome : ConnectOutcome}
    (hc : w.displaces (.user (.connect k ip port sock outcome)) = some c)
    (hno : ¬ w.heldElsewhere c) (hev : (w.conns c).handler.events ≠ 0#32) :
    .handlerDestroyed (.conn c) true ∈ (w.connect k ip port sock outcome).log := by
  cases outcome with
  | failed errno => exact absurd hc (by simp [World.displaces, World.establishes,
      World.accepts, World.entersClose])
  | ok =>
      cases sock with
      | none => exact absurd hc (by simp [World.displaces, World.establishes, World.accepts,
          World.entersClose])
      | some fd =>
          by_cases hstate : (w.clients k).state = .disConnected
          · simp only [World.displaces, World.establishes, hstate, if_true] at hc
            unfold World.connect
            simp only [hstate, ne_eq, not_true_eq_false, if_false]
            refine (h.dial k ip port fd).mem_connEstablish (hw.dial k ip port fd) fd ?_ hno hev
            exact (congrArg TCPClient.conn (w.clients_dial ..)).trans hc
          · exact absurd hc (by simp [World.displaces, World.establishes, World.accepts,
              World.entersClose, hstate])

/-- The read test displaces a registered connection. -/
theorem mem_readTest (h : Agrees w) (hw : Coherent w) {env : Env} {ptr : HandlerPtr}
    {mask : EventMask} {rest : List Frame} (hst : w.stack = .handleEvent ptr mask .read :: rest)
    (hc : w.displaces (.resume env) = some c) (hno : ¬ w.heldElsewhere c)
    (hev : (w.conns c).handler.events ≠ 0#32) :
    .handlerDestroyed (.conn c) true ∈ ({ w with
      stack := .handleEvent ptr mask .write :: rest }.testEvent env ptr mask World.readBits
        Handler.readCallback).log := by
  have hany := World.holds_advance hst .write
  have h₁ := h.setStack hany
  have hw₁ := hw.advance hst .write
  have hno₁ : ¬ World.heldElsewhere { w with stack := .handleEvent ptr mask .write :: rest } c :=
    fun hheld => hno ((World.heldElsewhere_setStack (hany c)).mp hheld)
  cases ptr with
  | connecting k n => exact absurd hc (by simp [World.displaces, World.establishes,
      World.accepts, World.entersClose, hst])
  | conn d =>
      have hest : w.establishes (.resume env) = none := by simp [World.establishes, hst]
      have hacc : w.accepts (.resume env) = none := by simp [World.accepts, hst]
      -- a connection displaces another only in `Close`
      by_cases hclose : mask.has World.readBits = true ∧ env.read = .eof
      · have henters : w.entersClose (.resume env) = some d := by
          simp [World.entersClose, hst, hclose]
        obtain ⟨hlive, s, hcb, ho, hne⟩ :=
          (World.displaces_close_iff hest hacc henters).mp hc
        have hlive₁ : World.live
            { w with stack := .handleEvent (.conn d) mask .write :: rest } d = true :=
          (World.live_setStack (hany d)).trans hlive
        rw [World.testEvent_eq hclose.1 (World.handler?_conn.mpr ⟨hlive₁, rfl⟩)
          (hw.conn d (hw.known_of_live hlive)).1]
        show .handlerDestroyed (.conn c) true ∈ (World.tcpHandleRead _ d env.read).log
        rw [hclose.2, show World.tcpHandleRead _ d .eof = World.close _ d from if_pos hlive₁]
        exact h₁.mem_close hw₁ hlive₁ hcb ho hne hno₁ hev
      · have henters : w.entersClose (.resume env) = none := by
          simp only [World.entersClose, hst]
          exact if_neg hclose
        exact absurd hc (by simp [World.displaces, hest, hacc, henters])
  | acceptor s =>
      cases haccept : env.accept with
      | failed errno => exact absurd hc (by simp [World.displaces, World.establishes,
          World.accepts, World.entersClose, hst, haccept])
      | conn fd addr =>
          by_cases htest : mask.has World.readBits = true
              ∧ (w.servers s).accepter.isSome = true
          · have haccepts : w.accepts (.resume env)
                = some (s, w.nextName s (InetAdress.new.fromAddr addr).2) := by
              simp only [World.accepts, hst, haccept]
              exact if_pos htest
            simp only [World.displaces, World.establishes, hst, haccepts] at hc
            obtain ⟨g, hg⟩ := Option.isSome_iff_exists.mp htest.2
            have hptr : World.handler?
                { w with stack := .handleEvent (.acceptor s) mask .write :: rest }
                (.acceptor s) = some g := hg
            rw [World.testEvent_eq htest.1 hptr (hw.acceptor s g hg).1]
            show .handlerDestroyed (.conn c) true ∈
              (World.acceptorHandleRead _ s env.accept).log
            rw [haccept]
            exact (h₁.openFd fd).mem_onNewConnect (hw₁.quiet World.Quiet.of_machine) fd _ hc
              hno₁ hev
          · have haccepts : w.accepts (.resume env) = none := by
              simp only [World.accepts, hst, haccept]
              exact if_neg htest
            exact absurd hc (by simp [World.displaces, World.establishes, World.entersClose,
              hst, haccepts])

/-- The write test does. -/
theorem mem_writeTest (h : Agrees w) (hw : Coherent w) {env : Env} {ptr : HandlerPtr}
    {mask : EventMask} {rest : List Frame} (hst : w.stack = .handleEvent ptr mask .write :: rest)
    (hc : w.displaces (.resume env) = some c) (hno : ¬ w.heldElsewhere c)
    (hev : (w.conns c).handler.events ≠ 0#32) :
    .handlerDestroyed (.conn c) true ∈ ({ w with
      stack := .handleEvent ptr mask .error :: rest }.testEvent env ptr mask EPOLLOUT
        Handler.writeCallback).log := by
  have hany := World.holds_advance hst .error
  have h₁ := h.setStack hany
  have hw₁ := hw.advance hst .error
  have hno₁ : ¬ World.heldElsewhere { w with stack := .handleEvent ptr mask .error :: rest } c :=
    fun hheld => hno ((World.heldElsewhere_setStack (hany c)).mp hheld)
  cases ptr with
  | conn d => exact absurd hc (by simp [World.displaces, World.establishes, World.accepts,
      World.entersClose, hst])
  | acceptor s => exact absurd hc (by simp [World.displaces, World.establishes, World.accepts,
      World.entersClose, hst])
  | connecting k n =>
      by_cases htest : mask.has EPOLLOUT = true ∧ env.soError = 0 ∧ w.attempting k n
      · have hest : w.establishes (.resume env) = some k := by
          simp only [World.establishes, hst]
          exact if_pos htest
        simp only [World.displaces, hest] at hc
        obtain ⟨hbits, herr, hstate, hn⟩ := htest
        obtain ⟨⟨m, g⟩, hg, rfl⟩ := Option.map_eq_some_iff.mp hn
        obtain ⟨_, _, hcallback, _⟩ := hw.connHandler k m g hg
        have hptr : World.handler?
            { w with stack := .handleEvent (.connecting k m) mask .error :: rest }
            (.connecting k m) = some g := World.handler?_connecting.mpr hg
        rw [World.testEvent_eq hbits hptr hcallback]
        show .handlerDestroyed (.conn c) true ∈ (World.clientHandleWrite _ k env.soError).log
        rw [herr]
        exact h₁.mem_clientHandleWrite hw₁ hstate hg hc hno₁ hev
      · have hest : w.establishes (.resume env) = none := by
          simp only [World.establishes, hst]
          exact if_neg htest
        exact absurd hc (by simp [World.displaces, hest, World.accepts, World.entersClose, hst])

/-- A slot lets go of a connection with events, and nobody else holds it. -/
theorem lost_displaced (h : Agrees w) (hw : Coherent w) {l : Label} (hturn : Turn w l w')
    (hc : w.displaces l = some c) (hno : ¬ w.heldElsewhere c)
    (hev : (w.conns c).handler.events ≠ 0#32) : ¬ NothingStale w' := by
  refine not_nothingStale (.conn c) ?_
  cases hturn with
  | connect hsock => exact h.mem_connect hw hc hno hev
  | readTest hst hadm => exact h.mem_readTest hw hst hc hno hev
  | writeTest hst hadm => exact h.mem_writeTest hw hst hc hno hev
  | @close d hacc =>
      have hlive := Coherent.live_of_accessible hacc
      obtain ⟨_, s, hcb, ho, hne⟩ := (World.displaces_close_iff rfl rfl rfl).mp hc
      exact h.mem_close hw hlive hcb ho hne hno hev
  | _ => exact absurd hc (by simp [World.displaces, World.establishes, World.accepts,
      World.entersClose, *])

/-- **One step** that does not deregister what it destroys shows. -/
theorem lost (h : Agrees w) (hw : Coherent w) {l : Label} (hd : ¬ Deregisters w l)
    (hnext : w.next l = some w') : ¬ NothingStale w' := by
  obtain ⟨_, hturn⟩ := World.next_turn hnext
  by_contra hgood
  -- each field of the condition that fails puts a destroyed handler on record
  refine hd ⟨fun k hk => ?_, fun c hc hno => ?_, fun q hq hdead => ?_⟩
  · rw [Bool.eq_false_iff]
    exact fun hsome => h.lost_attempt hw hturn hk hsome hgood
  · by_contra hev
    exact h.lost_displaced hw hturn hc hno hev hgood
  · by_contra hev
    exact h.lost_dropped hturn hq hdead hev hgood

end Agrees

/-! ## §9. Whole runs. -/

/-- **When nothing registered is destroyed.**  Throughout a run the following
hold: whenever a handler is destroyed or a descriptor closed, `_handlers` has no
entry for it, no entry is stale, and no `epoll_ctl` is refused.  They do if and
only if in the run `Connecting` replaces no handler, and every connection that
loses its last owner, by being displaced from its slot or with a dropped copy,
has an empty mask. -/
theorem nothing_registered_destroyed_iff (labels : List Label) (t : World)
    (hrun : exec World.next World.init labels = some t) :
    Always World.next NothingStale World.init labels ↔
      Along World.next Deregisters World.init labels :=
  always_iff_along (I := fun w => Coherent w ∧ Agrees w) (D := fun _ _ => True)
    (fun _ h => h.2.nothingStale)
    (fun _ _ _ h _ hd hnext => ⟨h.1.next hnext, h.2.next h.1 hd hnext⟩)
    (fun _ _ _ h _ hd hnext => h.2.lost h.1 hd hnext)
    ⟨coherent_init, agrees_init⟩ (Along.of_forall (fun _ _ => trivial) _) hrun

/-- The theorem on a client that disconnects, waits for the FIN and connects
again on the same descriptor. -/
theorem nothing_registered_destroyed_on_run :
    (exec World.next World.init
        [.user (.setConnectionCallback 0 true), .user (.connect 0 [] 80 (some 5) .ok),
         .user (.keep 0), .ret, .user (.disconnect 0 true), .poll [(5, EPOLLIN)],
         .resume .idle, .resume { Env.idle with read := .eof }, .resume .idle, .resume .idle,
         .resume .idle, .resume .idle, .user (.drop 0),
         .user (.connect 0 [] 80 (some 5) .ok)]).isSome = true
      ∧ Always World.next NothingStale World.init
        [.user (.setConnectionCallback 0 true), .user (.connect 0 [] 80 (some 5) .ok),
         .user (.keep 0), .ret, .user (.disconnect 0 true), .poll [(5, EPOLLIN)],
         .resume .idle, .resume { Env.idle with read := .eof }, .resume .idle, .resume .idle,
         .resume .idle, .resume .idle, .user (.drop 0),
         .user (.connect 0 [] 80 (some 5) .ok)] := by
  have h : (exec World.next World.init
      [.user (.setConnectionCallback 0 true), .user (.connect 0 [] 80 (some 5) .ok),
       .user (.keep 0), .ret, .user (.disconnect 0 true), .poll [(5, EPOLLIN)],
       .resume .idle, .resume { Env.idle with read := .eof }, .resume .idle, .resume .idle,
       .resume .idle, .resume .idle, .user (.drop 0),
       .user (.connect 0 [] 80 (some 5) .ok)]).isSome = true := by
    decide +kernel
  obtain ⟨t, hrun⟩ := Option.isSome_iff_exists.mp h
  exact ⟨h, (nothing_registered_destroyed_iff _ t hrun).mpr (by decide +kernel)⟩

/-- **`Disconnect` and `Connect` before the peer's FIN.**  `ConnEstablish`
replaces `_conn`, and the old connection is destroyed while its descriptor is
still registered. -/
theorem reconnect_destroys_registered :
    ∃ t, exec World.next World.init
        [.user (.connect 0 [] 80 (some 5) .ok), .user (.disconnect 0 true),
         .user (.connect 0 [] 80 (some 6) .ok)] = some t
      ∧ ¬ NothingStale t := by
  have h : (exec World.next World.init
      [.user (.connect 0 [] 80 (some 5) .ok), .user (.disconnect 0 true),
       .user (.connect 0 [] 80 (some 6) .ok)]).map
        (fun t => decide (.handlerDestroyed (.conn 0) true ∈ t.log)) = some true := by
    decide +kernel
  obtain ⟨t, hrun, ht⟩ := Option.map_eq_some_iff.mp h
  refine ⟨t, hrun, fun hstale => ?_⟩
  exact absurd (hstale.destroyed _ _ (of_decide_eq_true ht)) (by simp)

end SparkNet
