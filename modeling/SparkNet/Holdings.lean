/-
  SparkNet.Holdings — every live handler has an open descriptor of its own.

  In every reachable world the live handlers lie on open descriptors, no two on
  the same one.  An open descriptor under no live handler is spare: it can only
  be closed by someone who remembers its number, and in the library nobody does.
  Two kinds of step make one (`leaks`): `HandleWrite` on an attempt that has
  failed, which throws the handler away and does not close, and `Connecting`
  over a handler that is still there.

  Main results:
    * `Held.next` — a step makes no other descriptor spare.
-/
import SparkNet.Deregistration
import SparkNet.DescriptorTable

namespace SparkNet

open Runs
open Descriptors (Holds)

/-! ## §1. Who has which descriptor. -/

namespace World

/-- The descriptor of the handler at an address, if that is alive. -/
def fd? (w : World) (ptr : HandlerPtr) : Option Nat := (w.handler? ptr).map Handler.fd

/-- The descriptor of a client's connecting handler. -/
def handlerFd (w : World) (k : Nat) : Option Nat :=
  (w.clients k).connHandler.map fun entry => entry.2.fd

/-- The client whose `HandleWrite` finds SO_ERROR set for an attempt under way. -/
def refused (w : World) : Label → Option Nat
  | .resume env =>
      match w.stack with
      | .handleEvent (.connecting k n) mask .write :: _ =>
          if mask.has EPOLLOUT = true ∧ env.soError ≠ 0 ∧ w.attempting k n then some k else none
      | _ => none
  | _ => none

/-- The descriptor the step leaves open under no handler. -/
def leaks (w : World) (l : Label) : Option Nat :=
  match w.startsAttempt l, w.refused l with
  | some k, _ => w.handlerFd k
  | none, some k => w.handlerFd k
  | none, none => none

end World

/-- Live handlers have open descriptors of their own; nobody has the `spare` ones. -/
abbrev Held (spare : Nat → Prop) (w : World) : Prop := Holds spare w.fds w.fd?

theorem held_init : Held (fun _ => False) World.init := by
  have hnone : ∀ ptr, World.init.fd? ptr = none := by
    intro ptr
    cases ptr <;> rfl
  refine ⟨fun n => ⟨fun hn => absurd hn (by simp [World.init]), ?_⟩, fun a b n ha => ?_,
    fun a n ha => ?_⟩
  · rintro (⟨a, ha⟩ | hf)
    · exact absurd ((hnone a).symm.trans ha) (by simp)
    · exact hf.elim
  · exact absurd ha (by simp [hnone])
  · exact absurd ha (by simp [hnone])

namespace World

variable {w w' : World} {c : Nat}

theorem fd?_conn {n : Nat} :
    w.fd? (.conn c) = some n ↔ w.live c = true ∧ (w.conns c).handler.fd = n := by
  simp [fd?, handler?]

theorem fd?_connecting {k n fd : Nat} : w.fd? (.connecting k n) = some fd ↔
    ∃ g, (w.clients k).connHandler = some (n, g) ∧ g.fd = fd := by
  rw [fd?, Option.map_eq_some_iff]
  exact exists_congr fun g => and_congr_left fun _ => handler?_connecting

theorem fd?_eq (hconns : ∀ c, (w'.conns c).handler.fd = (w.conns c).handler.fd)
    (hlive : ∀ c, w'.live c = w.live c)
    (hconnecting : ∀ k, (w'.clients k).connHandler = (w.clients k).connHandler)
    (hacc : ∀ s, (w'.servers s).accepter = (w.servers s).accepter) : w'.fd? = w.fd? := by
  funext ptr
  cases ptr with
  | conn c =>
      simp only [fd?, handler?, hlive]
      split
      · exact congrArg some (hconns c)
      · rfl
  | connecting k n => simp only [fd?, handler?, hconnecting]
  | acceptor s => exact congrArg (Option.map Handler.fd) (hacc s)

/-- One handler comes, goes or changes. -/
theorem fd?_update {ptr : HandlerPtr} {o : Option (Handler HandlerCallback)}
    (hobj : w'.handler? = Function.update w.handler? ptr o) :
    w'.fd? = Function.update w.fd? ptr (o.map Handler.fd) := by
  show Option.map Handler.fd ∘ w'.handler?
    = Function.update (Option.map Handler.fd ∘ w.handler?) _ _
  rw [hobj, Function.comp_update]

/-- A connecting handler goes. -/
theorem fd?_dropHandler {k n : Nat} {g : Handler HandlerCallback}
    (hk : (w.clients k).connHandler = some (n, g)) :
    (w.setClient k { w.clients k with connHandler := none }).fd?
      = Function.update w.fd? (.connecting k n) none := by
  refine fd?_update (o := none) (handler?_setClient (w := w) rfl fun m => ?_)
  by_cases hm : m = n
  · subst hm
    simp [handler?, setClient]
  · rw [Function.update_of_ne (by simp [hm])]
    simp [handler?, setClient, hk, Ne.symm hm]

/-- A connecting handler comes. -/
theorem fd?_addHandler {k n : Nat} {g : Handler HandlerCallback}
    (hk : (w.clients k).connHandler = none) (x : TCPClient) (hconn : x.conn = (w.clients k).conn)
    (hx : x.connHandler = some (n, g)) :
    (w.setClient k x).fd? = Function.update w.fd? (.connecting k n) (some g.fd) := by
  refine fd?_update (o := some g) (handler?_setClient (w := w) hconn fun m => ?_)
  by_cases hm : m = n
  · subst hm
    simp [handler?, setClient, hx]
  · rw [Function.update_of_ne (by simp [hm])]
    simp [handler?, setClient, hk, hx, Ne.symm hm]

/-- What a step leaks was a connecting handler's. -/
theorem handlerFd_of_leaks {l : Label} {n : Nat} (h : w.leaks l = some n) :
    ∃ k, w.handlerFd k = some n := by
  unfold leaks at h
  cases hstarts : w.startsAttempt l with
  | some k =>
      rw [hstarts] at h
      exact ⟨k, h⟩
  | none =>
      rw [hstarts] at h
      cases hrefused : w.refused l with
      | some k =>
          rw [hrefused] at h
          exact ⟨k, h⟩
      | none =>
          rw [hrefused] at h
          exact absurd h (by simp)

/-- A frame more loses nobody. -/
theorem live_push (f : Frame) (h : w.live c = true) : (w.push f).live c = true := by
  unfold live at h ⊢
  rcases Bool.or_eq_true_iff.mp h with h | h
  · exact Bool.or_eq_true_iff.mpr (Or.inl h)
  · refine Bool.or_eq_true_iff.mpr (Or.inr ?_)
    show (f.holds c || w.stack.any (Frame.holds c)) = true
    rw [h, Bool.or_true]

/-- A frame that holds no dead connection. -/
theorem fd?_push {f : Frame} (hf : ∀ c, f.holds c = true → w.live c = true) :
    (w.push f).fd? = w.fd? := by
  refine fd?_eq (fun _ => rfl) (fun c => ?_) (fun _ => rfl) (fun _ => rfl)
  show (w.ownerHolds c || decide (0 < w.kept c) || (f.holds c || w.stack.any (Frame.holds c))) = _
  cases hc : f.holds c with
  | false => rfl
  | true =>
      rw [hf c hc]
      simp

/-- A connection's pointer is dropped somewhere; the others have what they had. -/
theorem fd?_dropCopy (hconns : w'.conns = w.conns)
    (hothers : ∀ d, d ≠ c → w'.live d = w.live d) (hclients : w'.clients = w.clients)
    (hservers : w'.servers = w.servers) (a : HandlerPtr) (ha : a ≠ .conn c) :
    w'.fd? a = w.fd? a := by
  cases a with
  | conn d =>
      have hd : d ≠ c := fun hd => ha (congrArg HandlerPtr.conn hd)
      simp only [fd?, handler?, hothers d hd, hconns]
  | connecting k n => simp only [fd?, handler?, hclients]
  | acceptor s => simp only [fd?, handler?, hservers]

theorem Quiet.fd? (hq : Quiet w w') : w'.fd? = w.fd? :=
  fd?_eq (fun c => congrArg ConnParts.fd (hq.parts c)) hq.live (fun k => by rw [hq.clients])
    fun s => by rw [hq.servers]

variable (w)

theorem fds_update (ptr : HandlerPtr) (h : Handler HandlerCallback) :
    (w.update ptr h).fds = w.fds := by
  unfold update
  split <;> rfl

theorem fds_connOp (c : Nat) (r : TcpConnection × List SockCall) (ok : Bool) :
    (w.connOp c r ok).fds = w.fds := by
  have hcall : ∀ (v : World) call, (runCall c ok v call).fds = v.fds := by
    intro v call
    cases call with
    | write direct bytes out => rfl
    | append bytes => rfl
    | update => exact v.fds_update _ _
    | shutdown pending => cases ok <;> rfl
  have hcalls : ∀ (calls : List SockCall) (v : World),
      (calls.foldl (runCall c ok) v).fds = v.fds := by
    intro calls
    induction calls with
    | nil => exact fun _ => rfl
    | cons call calls ih => exact fun v => (ih _).trans (hcall v call)
  exact hcalls r.2 _

theorem fds_send (c : Nat) (mem : Memory) (data len : SizeT) (out : WriteOutcome) :
    (w.send c mem data len out).fds = w.fds := by
  unfold send
  split
  · exact w.fds_connOp _ _ _
  · rfl

theorem fds_shutDown (c : Nat) (ok : Bool) : (w.shutDown c ok).fds = w.fds := by
  unfold shutDown
  split
  · exact w.fds_connOp _ _ _
  · rfl

theorem fds_tcpHandleWrite (c : Nat) (out : WriteOutcome) (ok : Bool) :
    (w.tcpHandleWrite c out ok).fds = w.fds := by
  unfold tcpHandleWrite
  split
  · exact w.fds_connOp _ _ _
  · rfl

end World

/-- The number of the next connection is nobody's yet. -/
theorem Coherent.fd?_fresh {w : World} (hw : Coherent w) : w.fd? (.conn w.connCount) = none := by
  rw [World.fd?, hw.handler?_fresh, Option.map_none]

/-- A new handler has its descriptor. -/
theorem World.fd?_place (w : World) (ptr a : HandlerPtr) (g : Handler HandlerCallback) :
    Function.update w.fd? ptr (some g.fd) a
      = (Function.update w.handler? ptr (some g) a).map Handler.fd := by
  by_cases ha : a = ptr
  · subst ha
    simp
  · simp [ha, fd?]

/-- A connection in a slot when a new one is stored there. -/
theorem Coherent.fd?_displaced {w w' : World} {σ : Slot} {x : TcpConnection} (hw : Coherent w)
    (hconns : w'.conns = Function.update w.conns w.connCount x) (c : Nat)
    (hc : w.slot σ = some c) :
    Function.update w.fd? (.conn w.connCount) (some x.handler.fd) (.conn c)
      = some (w'.conns c).handler.fd := by
  rw [World.fd?_place, hw.handler?_displaced hconns c hc, Option.map_some]

namespace Reslots

variable {w w' : World} {σ : Slot} {x : TcpConnection}

/-- Who has what when a new connection has been stored: it has its descriptor, and
only what the slot held may have lost its own. -/
theorem fd?_stored (hr : Reslots w w' σ (some w.connCount))
    (hconns : w'.conns = Function.update w.conns w.connCount x) (hx : x.slot = some σ)
    (a : HandlerPtr) (ha : ∀ c, w.slot σ = some c → a ≠ .conn c) :
    w'.fd? a = Function.update w.fd? (.conn w.connCount) (some x.handler.fd) a := by
  rw [World.fd?_place, World.fd?, hr.handler?_stored hconns hx a ha]

/-- Likewise when a slot has been vacated. -/
theorem fd?_vacated {o : Nat} (hr : Reslots w w' σ none) (hσ : w.slot σ = some o)
    (hconns : w'.conns = w.conns) (a : HandlerPtr) (ha : a ≠ .conn o) : w'.fd? a = w.fd? a :=
  congrArg (Option.map Handler.fd) (hr.handler?_vacated hσ hconns a ha)

end Reslots

/-! ## §2. Changes that keep it. -/

namespace Held

variable {spare : Nat → Prop} {w w' : World} {c : Nat} {objs : HandlerPtr → Option Nat}

theorem same (h : Held spare w) (hfd : w'.fd? = w.fd?) (hfds : w'.fds = w.fds) :
    Held spare w' := by
  show Holds spare w'.fds w'.fd?
  rw [hfd, hfds]
  exact h

theorem quiet (h : Held spare w) (hq : World.Quiet w w') (hfds : w'.fds = w.fds) :
    Held spare w' := h.same hq.fd? hfds

theorem emit (h : Held spare w) (e : Event) : Held spare (w.emit e) := h.same rfl rfl

theorem fail (h : Held spare w) (f : Fault) : Held spare (w.fail f) := h.same rfl rfl

/-- **The last owner of a connection may be gone**; if so its descriptor is
closed. -/
theorem release (h : Holds spare w.fds objs)
    (hobj : objs (.conn c) = some (w.conns c).handler.fd)
    (hsame : ∀ a, a ≠ .conn c → w.fd? a = objs a) : Held spare (w.release c) := by
  cases hlive : w.live c with
  | true =>
      have hobjs : w.fd? = objs := by
        funext a
        by_cases ha : a = .conn c
        · rw [ha, hobj]
          exact World.fd?_conn.mpr ⟨hlive, rfl⟩
        · exact hsame a ha
      have hrel : w.release c = w := if_pos hlive
      rw [hrel]
      show Holds spare w.fds w.fd?
      rw [hobjs]
      exact h
  | false =>
      have hobjs : w.fd? = Function.update objs (.conn c) none := by
        funext a
        by_cases ha : a = .conn c
        · rw [ha, Function.update_self, World.fd?, World.handler?, hlive]
          rfl
        · rw [Function.update_of_ne ha]
          exact hsame a ha
      have hrel : w.release c = (w.emit (.handlerDestroyed (.conn c)
          (w.poller.handlers (w.conns c).handler.fd).isSome)).closeFd (w.conns c).handler.fd := by
        unfold World.release World.destroyConn
        rw [if_neg (by simp [hlive])]
        exact if_pos (h.open_of hobj)
      rw [hrel]
      show Holds spare (Function.update w.fds _ false) w.fd?
      rw [hobjs]
      exact (h.give hobj).close (h.alone _ _ hobj)

/-- A slot lets go of what it held. -/
theorem letGo (h : Holds spare w.fds objs) {o : Option Nat}
    (hobj : ∀ c, o = some c → objs (.conn c) = some (w.conns c).handler.fd)
    (hsame : ∀ a, (∀ c, o = some c → a ≠ .conn c) → w.fd? a = objs a) :
    Held spare (w.letGo o) := by
  cases o with
  | none =>
      have hobjs : w.fd? = objs := funext fun a => hsame a fun _ hc => absurd hc (by simp)
      show Holds spare w.fds w.fd?
      rw [hobjs]
      exact h
  | some c =>
      refine release (w := w.emit (.displaced c)) h (hobj c rfl) fun a ha => ?_
      refine hsame a fun d hd => ?_
      obtain rfl := Option.some.inj hd
      exact ha

/-- A frame that holds no dead connection. -/
theorem push (h : Held spare w) {f : Frame} (hf : ∀ c, f.holds c = true → w.live c = true) :
    Held spare (w.push f) := h.same (World.fd?_push hf) rfl

/-- Frames that hold nothing come and go. -/
theorem setStack (h : Held spare w) {st : List Frame}
    (hst : ∀ c, st.any (Frame.holds c) = w.stack.any (Frame.holds c)) :
    Held spare { w with stack := st } :=
  h.same (congrArg (fun objs ptr => (objs ptr).map Handler.fd) (World.handler?_setStack hst)) rfl

/-- A change to a client that leaves `_conn` and `_connHandler` alone. -/
theorem setClient (h : Held spare w) {k : Nat} {x : TCPClient}
    (hconn : x.conn = (w.clients k).conn) (hhandler : x.connHandler = (w.clients k).connHandler) :
    Held spare (w.setClient k x) :=
  h.same (congrArg (fun objs ptr => (objs ptr).map Handler.fd)
    (World.handler?_setClient_same hconn hhandler)) rfl

theorem runDisconnectCallback (h : Held spare w) (k : Nat) :
    Held spare (w.runDisconnectCallback k) := by
  unfold World.runDisconnectCallback
  split
  · exact (h.emit _).push fun d hd => absurd hd (by simp [Frame.holds])
  · exact h

theorem start (h : Held spare w) (hlive : w.live c = true) : Held spare (w.start c) := by
  have hq : World.Quiet w (w.connOp c (w.conns c).start true) :=
    World.quiet_connOp w true (TcpConnection.parts_start _)
  have hop := h.quiet hq (w.fds_connOp _ _ _)
  unfold World.start
  simp only
  split
  · refine (hop.emit _).push fun d hd => ?_
    simp only [Frame.holds, beq_iff_eq] at hd
    exact hd ▸ (hq.live c).trans hlive
  · exact hop

/-- **A new connection takes a slot** and a spare descriptor. -/
theorem store {σ : Slot} {x : TcpConnection} {fd : Nat}
    (h : Held (fun m => m = fd ∨ spare m) w) (hw : Coherent w) (hspare : ¬ spare fd)
    (hr : Reslots w w' σ (some w.connCount))
    (hconns : w'.conns = Function.update w.conns w.connCount x) (hx : x.slot = some σ)
    (hfd : x.handler.fd = fd) : Held spare (w'.letGo (w.slot σ)) := by
  subst hfd
  have hstored : Holds spare w'.fds
      (Function.update w.fd? (.conn w.connCount) (some x.handler.fd)) := by
    rw [hr.fds]
    exact h.take hspare hw.fd?_fresh
  exact letGo hstored (hw.fd?_displaced hconns) (hr.fd?_stored hconns hx)

theorem occupy {σ : Slot} {x : TcpConnection} {fd : Nat}
    (h : Held (fun m => m = fd ∨ spare m) w) (hw : Coherent w) (hspare : ¬ spare fd)
    (hr : Reslots w w' σ (some w.connCount))
    (hconns : w'.conns = Function.update w.conns w.connCount x) (hx : x.slot = some σ)
    (hfd : x.handler.fd = fd) : Held spare ((w'.letGo (w.slot σ)).start w.connCount) :=
  (h.store hw hspare hr hconns hx hfd).start (hr.live_stored hconns hx)

/-- **A slot is vacated**, and what it held loses an owner. -/
theorem vacate (h : Held spare w) {σ : Slot} {o : Nat} (hr : Reslots w w' σ none)
    (hσ : w.slot σ = some o) (hlive : w.live o = true) (hconns : w'.conns = w.conns) :
    Held spare (w'.release o) := by
  have hvacated : Holds spare w'.fds w.fd? := by
    rw [hr.fds]
    exact h
  refine release hvacated ?_ (hr.fd?_vacated hσ hconns)
  rw [hconns]
  exact World.fd?_conn.mpr ⟨hlive, rfl⟩

/-! ## §3. The library's functions. -/

theorem connEstablish {k fd : Nat} (h : Held (fun m => m = fd ∨ spare m) w) (hw : Coherent w)
    (hspare : ¬ spare fd) : Held spare (w.connEstablish k fd) := by
  show Held spare (((w.storeClientConn k fd).letGo (w.slot (.client k))).start w.connCount)
  exact h.occupy hw hspare (w.reslots_storeClientConn k fd) rfl rfl rfl

theorem onNewConnect {fd : Nat} (h : Held (fun m => m = fd ∨ spare m) w) (hw : Coherent w)
    (hspare : ¬ spare fd) (s : Nat) (addr : InetAdress) :
    Held spare (w.onNewConnect s fd addr) := by
  show Held spare (((w.storeServerConn s fd addr).letGo
    (w.slot (.server s (w.nextName s addr)))).start w.connCount)
  exact h.occupy hw hspare (w.reslots_storeServerConn s fd addr) rfl rfl rfl

/-- `RemoveConn` for a connection a frame holds. -/
theorem removeConn (h : Held spare w) (s : Nat) (hheld : w.heldElsewhere c)
    (hlive : ∀ o, w.slot (.server s (w.conns c).name) = some o → w.live o = true) :
    Held spare (w.removeConn s c) := by
  have hr := w.reslots_setServer s (x := { w.servers s with
    conns := Function.update (w.servers s).conns (w.conns c).name none }) rfl rfl
  unfold World.removeConn
  simp only
  split
  next hc => exact h.vacate hr hc (World.live_of_heldElsewhere hheld) rfl
  next =>
    cases ho : (w.servers s).conns (w.conns c).name with
    | none =>
        have hno : w.slot (.server s (w.conns c).name) = none := ho
        exact h.same (World.fd?_eq (fun _ => rfl)
          (fun d => hr.live rfl (by simp [hno]) (by simp)) (fun _ => rfl) hr.accepter) rfl
    -- a namesake's entry
    | some o => exact h.vacate (hr.emit (.displaced o)) ho (hlive o ho) rfl

/-- `HandleClose` likewise. -/
theorem handleClose (h : Held spare w) (k : Nat) (hheld : w.heldElsewhere c) :
    Held spare (w.handleClose k c) := by
  unfold World.handleClose
  simp only
  split
  next hc =>
    have hr := w.reslots_setClient k (x := { w.clients k with conn := none }) rfl
    exact (h.vacate hr hc (World.live_of_heldElsewhere hheld) rfl).runDisconnectCallback k
  next => exact h.fail _

theorem closeStart (h : Held spare w) (c : Nat) : Held spare (w.closeStart c) :=
  (h.emit (.closeEntered c)).quiet (World.quiet_closeStart w c) (World.fds_connOp _ _ _ _)

theorem close (h : Held spare w) (hw : Coherent w) (c : Nat) : Held spare (w.close c) := by
  unfold World.close
  split
  next hlive =>
    have hq := World.quiet_closeStart w c
    have hlives : ∀ d, (w.closeStart c).live d = w.live d := hq.live
    have hparts := hq.parts c
    have hname : ((w.closeStart c).conns c).name = (w.conns c).name :=
      congrArg ConnParts.name hparts
    simp only
    split
    next =>
      exact (h.closeStart c).quiet
        (World.quiet_setConn _ (TcpConnection.parts_closeReturn _)) rfl
    next callback hcb =>
      -- the temporary of the callback's argument holds `c`
      have hat : Held spare (w.atCloseCallback c) := by
        refine ((h.closeStart c).push fun d hd => ?_).emit _
        simp only [Frame.holds, beq_iff_eq] at hd
        exact hd ▸ (hlives c).trans hlive
      have hheld : (w.atCloseCallback c).heldElsewhere c :=
        Or.inr ⟨.closing c, List.mem_cons_self, by simp [Frame.holds]⟩
      cases callback with
      | handleClose k => exact hat.handleClose k hheld
      | removeConn s =>
          refine hat.removeConn s hheld fun o ho => ?_
          have hslot : w.slot (.server s (w.conns c).name) = some o := by
            have ho' : (w.closeStart c).slot (.server s ((w.closeStart c).conns c).name)
                = some o := ho
            rw [hq.slot, hname] at ho'
            exact ho'
          exact World.live_push _ ((hlives o).trans (hw.live_of_slot hslot))
  next => exact h.fail _

/-- `DisableAll` and `reset` on a connecting handler, which leave its descriptor
spare. -/
theorem dropHandler (h : Held spare w) {k n : Nat} {g : Handler HandlerCallback}
    (hk : (w.clients k).connHandler = some (n, g)) :
    Held (fun m => m = g.fd ∨ spare m)
      (w.setClient k { w.clients k with connHandler := none }) := by
  show Holds _ w.fds _
  rw [World.fd?_dropHandler hk]
  exact Holds.give h (World.fd?_connecting.mpr ⟨g, hk, rfl⟩)

/-- A connecting handler is made on a spare descriptor. -/
theorem addHandler {k n : Nat} {g : Handler HandlerCallback}
    (h : Held (fun m => m = g.fd ∨ spare m) w) (hspare : ¬ spare g.fd)
    (hk : (w.clients k).connHandler = none) (x : TCPClient) (hconn : x.conn = (w.clients k).conn)
    (hx : x.connHandler = some (n, g)) : Held spare (w.setClient k x) := by
  have hnone : w.fd? (.connecting k n) = none := by
    simp [World.fd?, World.handler?, hk]
  show Holds _ w.fds _
  rw [World.fd?_addHandler hk x hconn hx]
  exact Holds.take h hspare hnone

/-- `Connecting`: a handler that is still there leaves its descriptor spare. -/
theorem connecting {k fd : Nat} (h : Held (fun m => m = fd ∨ spare m) w) (hspare : ¬ spare fd) :
    Held (fun m => w.handlerFd k = some m ∨ spare m) (w.connecting k fd) := by
  -- the poller, the log and the serial number do not matter
  have hfd : (w.connecting k fd).fd? = (w.setClient k { w.clients k with
      state := .connecting
      connHandler := some (w.handlerCount, (World.connectingHandler k fd).enableWrite) }).fd? := by
    unfold World.connecting
    simp only
    rw [(World.quiet_update _ _ _).fd?]
    split <;> rfl
  have hfds : (w.connecting k fd).fds = w.fds := by
    unfold World.connecting
    simp only
    rw [World.fds_update]
    split <;> rfl
  refine same (w := w.setClient k { w.clients k with
      state := .connecting
      connHandler := some (w.handlerCount, (World.connectingHandler k fd).enableWrite) })
    ?_ hfd hfds
  cases hk : (w.clients k).connHandler with
  | none =>
      have hnone : w.handlerFd k = none := by
        rw [World.handlerFd, hk]
        rfl
      simp only [hnone, reduceCtorEq, false_or]
      exact h.addHandler (g := (World.connectingHandler k fd).enableWrite) hspare hk _ rfl rfl
  | some entry =>
      obtain ⟨n, old⟩ := entry
      have hsome : w.handlerFd k = some old.fd := by
        rw [World.handlerFd, hk]
        rfl
      simp only [hsome, Option.some.injEq]
      -- the old handler has another descriptor than the new one
      have hne : ¬ (old.fd = fd ∨ spare fd) := by
        rintro (he | hs)
        · exact h.alone (.connecting k n) old.fd (World.fd?_connecting.mpr ⟨old, hk, rfl⟩)
            (Or.inl he)
        · exact hspare hs
      have hdropped := h.dropHandler hk
      have hdropped' : Held (fun m => m = (World.connectingHandler k fd).enableWrite.fd
          ∨ old.fd = m ∨ spare m) (w.setClient k { w.clients k with connHandler := none }) := by
        refine ⟨fun m => (hdropped.covered m).trans ?_, hdropped.uniq, fun a m ha hs => ?_⟩
        · show _ ∨ m = old.fd ∨ m = fd ∨ spare m ↔ _ ∨ m = fd ∨ old.fd = m ∨ spare m
          rw [eq_comm (a := m) (b := old.fd)]
          tauto
        · refine hdropped.alone a m ha ?_
          rcases hs with hs | hs | hs
          · exact Or.inr (Or.inl hs)
          · exact Or.inl hs.symm
          · exact Or.inr (Or.inr hs)
      have hclient : (w.setClient k { w.clients k with connHandler := none }).clients k
          = { w.clients k with connHandler := none } := Function.update_self ..
      have hadded := hdropped'.addHandler (g := (World.connectingHandler k fd).enableWrite)
        (n := w.handlerCount) hne (by rw [hclient])
        { w.clients k with
          state := .connecting
          connHandler := some (w.handlerCount, (World.connectingHandler k fd).enableWrite) }
        (by rw [hclient]) rfl
      unfold World.setClient at hadded ⊢
      simp only [Function.update_idem] at hadded
      exact hadded

theorem serverStart (h : Held spare w) {s fd : Nat} (hacc : (w.servers s).accepter = none)
    (hfd : w.fds fd = false) : Held spare (w.serverStart s fd) := by
  have hopen : Held (fun m => m = fd ∨ spare m)
      { w with fds := Function.update w.fds fd true } := Holds.obtain h hfd
  unfold World.serverStart
  refine Held.quiet ?_ (World.quiet_update _ _ _) (World.fds_update _ _ _)
  have hobj := World.fd?_update (World.handler?_setServer
    (w := { w with fds := Function.update w.fds fd true }) (s := s)
    (x := { w.servers s with accepter := some (Handler.enableRead { (Handler.new fd) with
      readCallback := some (HandlerCallback.acceptorHandleRead s) }) }) rfl)
  show Holds spare (Function.update w.fds fd true) _
  rw [hobj]
  refine Holds.take hopen (h.closed_of hfd).2 ?_
  show (w.servers s).accepter.map Handler.fd = none
  rw [hacc]
  rfl

theorem setServerFlags (h : Held spare w) (s : Nat) (newConn msg : Bool) :
    Held spare (w.setServerFlags s newConn msg) := by
  have hobj : (w.setServerFlags s newConn msg).handler? = w.handler? := by
    refine (World.handler?_setServer (w := w) (s := s)
      (x := { w.servers s with newConnCallback := newConn, msgCallback := msg }) rfl).trans ?_
    exact Function.update_eq_self (HandlerPtr.acceptor s) w.handler?
  exact h.same (congrArg (fun objs ptr => (objs ptr).map Handler.fd) hobj) rfl

theorem dropConnHandler (h : Held spare w) {k n : Nat} {g : Handler HandlerCallback}
    (hk : (w.clients k).connHandler = some (n, g)) :
    Held (fun m => m = g.fd ∨ spare m) (w.dropConnHandler k n g) ∧ ¬ spare g.fd := by
  have hq := w.quiet_update (.connecting k n) g.disableAll
  have hup : Held spare (w.update (.connecting k n) g.disableAll) :=
    h.quiet hq (World.fds_update _ _ _)
  have hk' : ((w.update (.connecting k n) g.disableAll).clients k).connHandler = some (n, g) := by
    rw [hq.clients]
    exact hk
  exact ⟨(hup.dropHandler hk').emit _,
    h.alone (.connecting k n) g.fd (World.fd?_connecting.mpr ⟨g, hk, rfl⟩)⟩

theorem clientHandleError (h : Held spare w) (k : Nat) : Held spare (w.clientHandleError k) := by
  unfold World.clientHandleError
  split
  · split
    next => exact h.fail _
    next n g hk =>
      obtain ⟨hdrop, hspare⟩ := h.dropConnHandler hk
      have hclosed : Held spare ((w.dropConnHandler k n g).closeFd g.fd) := Holds.close hdrop hspare
      exact hclosed.runDisconnectCallback k
  · exact h

theorem clientHandleWrite (h : Held spare w) (hw : Coherent w) (k err : Nat) :
    Held (fun m => ((w.clients k).state = .connecting ∧ err ≠ 0 ∧ w.handlerFd k = some m)
      ∨ spare m) (w.clientHandleWrite k err) := by
  unfold World.clientHandleWrite
  split
  next hst =>
    split
    next hk =>
      simp only [World.handlerFd, hk, Option.map_none, reduceCtorEq, and_false, false_or]
      exact h.fail _
    next n g hk =>
      have hfd : w.handlerFd k = some g.fd := by
        rw [World.handlerFd, hk]
        rfl
      obtain ⟨hdrop, hspare⟩ := h.dropConnHandler hk
      simp only [hst, hfd, Option.some.injEq, true_and]
      split
      next herr =>
        simp only [herr, not_false_eq_true, ne_eq, true_and]
        simp only [eq_comm (a := g.fd)]
        exact hdrop.runDisconnectCallback k
      next herr =>
        simp only [herr, false_and, false_or]
        exact hdrop.connEstablish (hw.dropConnHandler k n g) hspare
  next hst =>
    simp only [hst, false_and, false_or]
    exact h

theorem dial (h : Held spare w) (k : Nat) (ip : Text) (port : BitVec 16) {fd : Nat}
    (hfd : w.fds fd = false) : Held (fun m => m = fd ∨ spare m) (w.dial k ip port fd) := by
  have haddr : Held spare (w.storeAddr k ip port) := h.setClient rfl rfl
  have hopen : Held (fun m => m = fd ∨ spare m)
      { w.storeAddr k ip port with fds := Function.update w.fds fd true } := Holds.obtain haddr hfd
  exact hopen.emit _

/-- The condition on spare descriptors, said another way. -/
theorem congr (h : Held spare w) {spare' : Nat → Prop} (hs : ∀ m, spare m ↔ spare' m) :
    Held spare' w := by
  have he : spare = spare' := funext fun m => propext (hs m)
  exact he ▸ h

theorem connect (h : Held spare w) (hw : Coherent w) {k : Nat} {ip : Text} {port : BitVec 16}
    {sock : Option Nat} {outcome : ConnectOutcome}
    (hsock : ∀ fd, sock = some fd → w.fds fd = false) :
    Held (fun m => w.leaks (.user (.connect k ip port sock outcome)) = some m ∨ spare m)
      (w.connect k ip port sock outcome) := by
  -- all ways but `Connecting` leave nothing behind
  have hquiet : ∀ {v : World}, Held spare v →
      w.startsAttempt (.user (.connect k ip port sock outcome)) = none →
      Held (fun m => w.leaks (.user (.connect k ip port sock outcome)) = some m ∨ spare m) v := by
    intro v hv hno
    refine hv.congr fun m => ?_
    simp [World.leaks, World.refused, hno]
  unfold World.connect
  split
  next hst => exact hquiet h (by cases sock <;> cases outcome <;> simp [World.startsAttempt, hst])
  next hst =>
    have hstate : (w.clients k).state = .disConnected := not_not.mp hst
    cases sock with
    | none => exact hquiet (h.setClient rfl rfl) rfl
    | some fd =>
        have hspare : ¬ spare fd := (h.closed_of (hsock fd rfl)).2
        have hdial := h.dial k ip port (hsock fd rfl)
        simp only
        cases outcome with
        | ok => exact hquiet (hdial.connEstablish (hw.dial k ip port fd) hspare) rfl
        | failed errno =>
            simp only
            split
            next herr =>
              have hleaks : w.leaks (.user (.connect k ip port (some fd) (.failed errno)))
                  = w.handlerFd k := by
                simp [World.leaks, World.startsAttempt, hstate, herr]
              have hfd : (w.dial k ip port fd).handlerFd k = w.handlerFd k := by
                unfold World.handlerFd
                rw [w.clients_dial]
              rw [hleaks, ← hfd]
              exact hdial.connecting hspare
            next herr =>
              have hno : w.startsAttempt (.user (.connect k ip port (some fd) (.failed errno)))
                  = none := by
                simp [World.startsAttempt, herr]
              have hset : Held (fun m => m = fd ∨ spare m) ((w.dial k ip port fd).setClient k
                  { (w.dial k ip port fd).clients k with state := .disConnected }) :=
                hdial.setClient rfl rfl
              have hclosed : Held spare (((w.dial k ip port fd).setClient k
                  { (w.dial k ip port fd).clients k with state := .disConnected }).closeFd fd) :=
                Holds.close hset hspare
              exact hquiet hclosed hno

theorem disconnect (h : Held spare w) (k : Nat) (ok : Bool) : Held spare (w.disconnect k ok) := by
  have hset : Held spare (w.setClient k { w.clients k with state := .disConnected }) :=
    h.setClient rfl rfl
  unfold World.disconnect
  simp only
  split
  · exact hset.fail _
  · exact hset.quiet (World.quiet_shutDown _ _ ok) (World.fds_shutDown _ _ ok)

theorem clientSend (h : Held spare w) (k : Nat) (mem : Memory) (data len : SizeT)
    (out : WriteOutcome) : Held spare (w.clientSend k mem data len out) := by
  unfold World.clientSend
  split
  · exact h
  · exact h.quiet (World.quiet_send _ _ mem data len out) (World.fds_send _ _ mem data len out)

theorem tcpHandleRead (h : Held spare w) (hw : Coherent w) (c : Nat) (r : ReadOutcome) :
    Held spare (w.tcpHandleRead c r) := by
  unfold World.tcpHandleRead
  split
  next hlive =>
    cases r with
    | failed errno => exact h
    | eof => exact h.close hw c
    | data bytes =>
        have hq := World.quiet_setConn w (TcpConnection.parts_receive (w.conns c) bytes)
        have hset := h.quiet hq rfl
        simp only
        split
        · refine (hset.emit (.messageCallback c)).push fun d hd => ?_
          simp only [Frame.holds, beq_iff_eq] at hd
          exact hd ▸ (hq.live c).trans hlive
        · exact hset.fail _
  next => exact h.fail _

theorem acceptorHandleRead (h : Held spare w) (hw : Coherent w) (s : Nat) (accept : AcceptOutcome)
    (hfd : ∀ fd addr, accept = .conn fd addr → w.fds fd = false) :
    Held spare (w.acceptorHandleRead s accept) := by
  unfold World.acceptorHandleRead
  split
  next fd addr =>
    have hspare : ¬ spare fd := (h.closed_of (hfd fd addr rfl)).2
    have hopen : Held (fun m => m = fd ∨ spare m)
        { w with fds := Function.update w.fds fd true } := Holds.obtain h (hfd fd addr rfl)
    exact hopen.onNewConnect (hw.quiet World.Quiet.of_machine) hspare s _
  next => exact h

/-! ## §4. One step. -/

/-- A copy of a connection's pointer is dropped; `v` is the world without it. -/
theorem dropCopy (h : Held spare w) {v : World} (hlive : w.live c = true)
    (hconns : v.conns = w.conns) (hothers : ∀ d, d ≠ c → v.live d = w.live d)
    (hclients : v.clients = w.clients) (hservers : v.servers = w.servers)
    (hfds : v.fds = w.fds) : Held spare (v.release c) := by
  have hdropped : Holds spare v.fds w.fd? := by
    rw [hfds]
    exact h
  refine release hdropped ?_ (World.fd?_dropCopy hconns hothers hclients hservers)
  rw [hconns]
  exact World.fd?_conn.mpr ⟨hlive, rfl⟩

/-- The same when the copy was a frame's. -/
theorem popHolder (h : Held spare w) {f : Frame} {rest : List Frame} (hst : w.stack = f :: rest)
    (hholds : ∀ d, f.holds d = (c == d)) : Held spare ({ w with stack := rest }.release c) := by
  refine h.dropCopy ?_ rfl (fun d hd => ?_) rfl rfl rfl
  · exact World.live_of_heldElsewhere
      (Or.inr ⟨f, by rw [hst]; exact List.mem_cons_self, by simp [hholds]⟩)
  · have hf : f.holds d = false := by simp [hholds, Ne.symm hd]
    show (w.ownerHolds d || decide (0 < w.kept d) || rest.any (Frame.holds d)) = _
    rw [World.live, hst, List.any_cons, hf, Bool.false_or]

/-- The read test: connections come and go with their descriptors. -/
theorem readTest (h : Held spare w) (hw : Coherent w) {env : Env} {ptr : HandlerPtr}
    {mask : EventMask} {rest : List Frame} (hst : w.stack = .handleEvent ptr mask .read :: rest)
    (hadm : w.admits env = true) :
    Held spare ({ w with stack := .handleEvent ptr mask .write :: rest }.testEvent env ptr mask
      World.readBits Handler.readCallback) := by
  have h₁ := h.setStack (World.holds_advance hst .write)
  have hw₁ := hw.advance hst .write
  rcases hw₁.read_cases env ptr mask rfl with
    ⟨_, heq⟩ | ⟨_, _, heq⟩ | ⟨c, _, _, _, heq⟩ | ⟨s, hs, _, _, heq⟩
  · rw [heq]
    exact h₁
  · rw [heq]
    exact h₁.fail _
  · rw [heq]
    exact h₁.tcpHandleRead hw₁ c _
  · rw [heq]
    subst hs
    refine h₁.acceptorHandleRead hw₁ s _ fun fd addr hconn => ?_
    simpa [World.admits, hst, hconn] using hadm

/-- The write test: an attempt that has failed leaves its descriptor open. -/
theorem writeTest (h : Held spare w) (hw : Coherent w) {env : Env} {ptr : HandlerPtr}
    {mask : EventMask} {rest : List Frame}
    (hst : w.stack = .handleEvent ptr mask .write :: rest) :
    Held (fun m => w.leaks (.resume env) = some m ∨ spare m)
      ({ w with stack := .handleEvent ptr mask .error :: rest }.testEvent env ptr mask
        EPOLLOUT Handler.writeCallback) := by
  have h₁ := h.setStack (World.holds_advance hst .error)
  have hw₁ := hw.advance hst .error
  have hleaks : w.leaks (.resume env) = (w.refused (.resume env)).bind w.handlerFd := by
    unfold World.leaks
    cases w.refused (.resume env) <;> rfl
  have hquiet : ∀ {v : World}, Held spare v → w.refused (.resume env) = none →
      Held (fun m => w.leaks (.resume env) = some m ∨ spare m) v := by
    intro v hv hno
    refine hv.congr fun m => ?_
    simp [hleaks, hno]
  rcases hw₁.write_cases env ptr mask rfl with
    ⟨hno, heq⟩ | ⟨_, hptr, heq⟩ | ⟨c, hc, _, _, heq⟩ | ⟨k, n, g, hk, hbits, hg, heq⟩
  · rw [heq]
    refine hquiet h₁ ?_
    rcases hno with hno | ⟨s, rfl⟩
    · cases ptr <;> simp [World.refused, hst, hno]
    · simp [World.refused, hst]
  · rw [heq]
    refine hquiet (h₁.fail _) ?_
    -- the attempt is over, or another has taken its place
    cases ptr with
    | conn c => simp [World.refused, hst]
    | acceptor s => simp [World.refused, hst]
    | connecting k n =>
        simp only [World.refused, hst]
        refine if_neg ?_
        rintro ⟨_, _, _, hn⟩
        obtain ⟨entry, hentry, rfl⟩ := Option.map_eq_some_iff.mp hn
        exact absurd (hptr.symm.trans (World.handler?_connecting.mpr hentry)) (by simp)
  · rw [heq]
    subst hc
    exact hquiet (h₁.quiet (World.quiet_tcpHandleWrite _ _ _ _)
      (World.fds_tcpHandleWrite _ _ _ _)) (by simp [World.refused, hst])
  · rw [heq]
    subst hk
    refine (h₁.clientHandleWrite hw₁ k env.soError).congr fun m => or_congr_left ?_
    have hg' : (w.clients k).connHandler = some (n, g) := hg
    have hfd : w.handlerFd k = some g.fd := by
      rw [World.handlerFd, hg']
      rfl
    have hattempt : w.attempting k n ↔ (w.clients k).state = .connecting := by
      simp [World.attempting, hg']
    have hrefused : w.refused (.resume env)
        = if env.soError ≠ 0 ∧ (w.clients k).state = .connecting then some k else none := by
      simp only [World.refused, hst, hbits, true_and, hattempt]
    rw [hleaks, hrefused]
    show ((w.clients k).state = .connecting ∧ env.soError ≠ 0 ∧ w.handlerFd k = some m) ↔ _
    split
    next herr => simp [herr.1, herr.2]
    next herr =>
      simp only [Option.bind_none, reduceCtorEq, iff_false, not_and]
      exact fun hs he => absurd ⟨he, hs⟩ herr

/-- **One step** makes no descriptor spare but the one it leaks. -/
theorem next (h : Held spare w) (hw : Coherent w) {l : Label} (hnext : w.next l = some w') :
    Held (fun m => w.leaks l = some m ∨ spare m) w' := by
  obtain ⟨_, hturn⟩ := World.next_turn hnext
  have hquiet : ∀ {v : World}, Held spare v → w.leaks l = none →
      Held (fun m => w.leaks l = some m ∨ spare m) v := by
    intro v hv hno
    refine hv.congr fun m => ?_
    simp [hno]
  cases hturn with
  | poll hst => exact hquiet (h.push fun d hd => absurd hd (by simp [Frame.holds])) rfl
  | loopEnd hst =>
      exact hquiet (h.setStack fun c => by rw [hst]; rfl)
        (by simp [World.leaks, World.startsAttempt, World.refused, hst])
  | loopStale hst hptr =>
      exact hquiet (h.fail _) (by simp [World.leaks, World.startsAttempt, World.refused, hst])
  | loopNext hst hptr =>
      exact hquiet (h.setStack fun c => by rw [hst]; rfl)
        (by simp [World.leaks, World.startsAttempt, World.refused, hst])
  | readTest hst hadm =>
      exact hquiet (h.readTest hw hst hadm)
        (by simp [World.leaks, World.startsAttempt, World.refused, hst])
  | writeTest hst hadm => exact h.writeTest hw hst
  | @errorTest env ptr mask rest hst =>
      have h₁ : Held spare { w with stack := rest } := h.setStack fun c => by rw [hst]; rfl
      refine hquiet ?_ (by simp [World.leaks, World.startsAttempt, World.refused, hst])
      rcases (hw.pop hst).error_cases env ptr mask rfl with
        ⟨_, heq⟩ | ⟨_, _, heq⟩ | ⟨k, n, g, _, _, _, heq⟩
      · rw [heq]
        exact h₁
      · rw [heq]
        exact h₁.fail _
      · rw [heq]
        exact h₁.clientHandleError k
  | @finishClose env c rest hst =>
      refine hquiet ?_ (by simp [World.leaks, World.startsAttempt, World.refused, hst])
      have hrel : Held spare ({ w with stack := rest }.release c) := h.popHolder hst fun _ => rfl
      exact hrel.quiet (World.quiet_finishClose _ c) (World.finishClose_machine _ c).2.1
  | connect hsock => exact h.connect hw hsock
  | disconnect => exact hquiet (h.disconnect _ _) rfl
  | clientSend hout => exact hquiet (h.clientSend _ _ _ _ _) rfl
  | setConnectionCallback => exact hquiet (h.setClient rfl rfl) rfl
  | setMessageCallback => exact hquiet (h.setClient rfl rfl) rfl
  | setDisconnectCallback => exact hquiet (h.setClient rfl rfl) rfl
  | serverStart hacc hfd => exact hquiet (h.serverStart hacc hfd) rfl
  | serverSetConnCallback => exact hquiet (h.setServerFlags _ _ _) rfl
  | serverSetMessageCallback => exact hquiet (h.setServerFlags _ _ _) rfl
  | send hacc hout =>
      exact hquiet (h.quiet (World.quiet_send _ _ _ _ _ _) (World.fds_send _ _ _ _ _ _)) rfl
  | shutDown hacc =>
      exact hquiet (h.quiet (World.quiet_shutDown _ _ _) (World.fds_shutDown _ _ _)) rfl
  | close hacc => exact hquiet (h.close hw _) rfl
  | retrieve hacc =>
      exact hquiet (h.quiet (World.quiet_setConn _ (TcpConnection.parts_retrieve _ _)) rfl) rfl
  | retrieveAll hacc =>
      exact hquiet (h.quiet (World.quiet_setConn _ (TcpConnection.parts_retrieveAll _)) rfl) rfl
  | @keep c hacc =>
      refine hquiet (h.same (World.fd?_eq (fun _ => rfl) (fun d => ?_) (fun _ => rfl)
        fun _ => rfl) rfl) rfl
      by_cases hdc : d = c
      · subst hdc
        rw [Coherent.live_of_accessible hacc]
        simp [World.live]
      · simp only [World.live, Function.update_of_ne hdc]
        rfl
  | @drop c hkept =>
      refine hquiet (h.dropCopy (World.live_of_heldElsewhere (Or.inl hkept)) rfl (fun d hdc => ?_)
        rfl rfl rfl) rfl
      simp only [World.live, Function.update_of_ne hdc]
      rfl
  | retConnection hst => exact hquiet (h.popHolder hst fun _ => rfl) rfl
  | retMessage hst => exact hquiet (h.popHolder hst fun _ => rfl) rfl
  | retDisconnect hst => exact hquiet (h.setStack fun c => by rw [hst]; rfl) rfl

end Held

end SparkNet
