/-
  SparkNet.Seats — the kernel's pointers lead to live, registered handlers.

  `epoll_wait` hands back the pointer an entry was made with.  A handler is
  *seated* when it is alive and `_handlers` has it under its descriptor; the
  invariant is that every pointer the kernel has leads to a seated handler.  It
  survives even a handler destroyed while registered, for `~Socket` closes the
  descriptor and the kernel forgets the entry; only `Connecting` over a handler
  that is still there breaks it.

  The same induction shows what a step does to handlers that are seated already,
  for any set `S` of them that the step neither disables nor destroys.

  Main results:
    * `Seats.next` — a step keeps the kernel's pointers good and `S` seated.
-/
import SparkNet.Holdings

namespace SparkNet

open Runs

/-! ## §1. A poller and the descriptors of handlers. -/

/-- Every entry of the kernel's is a registered handler's, and the handlers in `S`
are registered; `objs` gives the live handlers their descriptors. -/
structure Seats {H : Type} (S : H → Prop) (p : Epoller H) (objs : H → Option Nat) : Prop where
  wired : ∀ fd ev ptr, p.interest fd = some (ev, ptr) →
    p.handlers fd = some ptr ∧ objs ptr = some fd
  seated : ∀ ptr, S ptr → ∃ fd, objs ptr = some fd ∧ p.handlers fd = some ptr

namespace Seats

variable {H CB : Type} {S : H → Prop} {p p' : Epoller H} {objs objs' : H → Option Nat}
  {ptr : H} {h : Handler CB} {n : Nat}

/-- The kernel knows no descriptor the table does not. -/
theorem table (hs : Seats S p objs) (fd : Nat) (hnone : p.handlers fd = none) :
    p.interest fd = none := by
  cases hint : p.interest fd with
  | none => rfl
  | some entry =>
      obtain ⟨ev, q⟩ := entry
      exact absurd (hnone.symm.trans (hs.wired fd ev q hint).1) (by simp)

/-- `Update` on a live handler whose descriptor is its own; a handler in `S` keeps
events. -/
theorem update (hs : Seats S p objs) (hobj : objs ptr = some h.fd)
    (huniq : ∀ a b m, objs a = some m → objs b = some m → a = b)
    (hev : S ptr → h.events ≠ 0#32) (hok : p.update ptr h = .ok p') : Seats S p' objs := by
  have hown : ∀ a, objs a = some h.fd → a = ptr := fun a ha => huniq a ptr h.fd ha hobj
  cases hhan : p.handlers h.fd with
  | none =>
      have hint := hs.table h.fd hhan
      rw [Epoller.update_absent ptr hhan hint] at hok
      obtain rfl := Except.ok.inj hok
      split
      · exact hs
      · refine ⟨fun fd ev a ha => ?_, fun a ha => ?_⟩
        · by_cases hfd : fd = h.fd
          · subst hfd
            simp only [Function.update_self, Option.some.injEq, Prod.mk.injEq] at ha ⊢
            exact ⟨ha.2, ha.2 ▸ hobj⟩
          · simp only [Function.update_of_ne hfd] at ha ⊢
            exact hs.wired fd ev a ha
        · obtain ⟨m, hm, hreg⟩ := hs.seated a ha
          have hne : m ≠ h.fd := by
            rintro rfl
            exact absurd (hhan.symm.trans hreg) (by simp)
          exact ⟨m, hm, by simpa [Function.update_of_ne hne] using hreg⟩
  | some q =>
      by_cases hempty : h.events = 0#32
      · obtain ⟨p₁, hp₁, htab, hint⟩ := @Epoller.update_noEvent _ _ p ptr h hempty
          (hs.table h.fd)
        obtain rfl := Except.ok.inj (hp₁.symm.trans hok)
        refine ⟨fun fd ev a ha => ?_, fun a ha => ?_⟩
        · by_cases hfd : fd = h.fd
          · subst hfd
            rw [hint, Function.update_self] at ha
            exact absurd ha (by simp)
          · rw [hint, Function.update_of_ne hfd] at ha
            rw [htab, Function.update_of_ne hfd]
            exact hs.wired fd ev a ha
        · obtain ⟨m, hm, hreg⟩ := hs.seated a ha
          have hne : m ≠ h.fd := by
            rintro rfl
            exact hev (hown a hm ▸ ha) hempty
          exact ⟨m, hm, by rw [htab, Function.update_of_ne hne]; exact hreg⟩
      · cases hint : p.interest h.fd with
        | none =>
            -- a refused MOD aborts
            simp [Epoller.update, hhan, Handler.isNoEvent, hempty, Epoller.updateOp, epollCtl,
              hint] at hok
        | some entry =>
            obtain ⟨ev₀, a₀⟩ := entry
            have hold := hs.wired h.fd ev₀ a₀ hint
            rw [Epoller.update_present ptr hhan hint, if_neg hempty] at hok
            obtain rfl := Except.ok.inj hok
            refine ⟨fun fd ev a ha => ?_, fun a ha => hs.seated a ha⟩
            by_cases hfd : fd = h.fd
            · subst hfd
              simp only [Function.update_self, Option.some.injEq, Prod.mk.injEq] at ha
              obtain ⟨_, rfl⟩ := ha
              exact ⟨hown a₀ hold.2 ▸ hold.1, hobj⟩
            · simp only [Function.update_of_ne hfd] at ha
              exact hs.wired fd ev a ha

/-- The kernel forgets a descriptor, and the handlers on it may be gone. -/
theorem forget (hs : Seats S p objs) (n : Nat)
    (hkeep : ∀ a m, objs a = some m → m ≠ n → objs' a = some m)
    (hS : ∀ a, S a → objs' a = objs a) :
    Seats S { p with interest := Function.update p.interest n none } objs' := by
  refine ⟨fun fd ev a ha => ?_, fun a ha => ?_⟩
  · by_cases hfd : fd = n
    · subst hfd
      simp only [Function.update_self] at ha
      exact absurd ha (by simp)
    · simp only [Function.update_of_ne hfd] at ha
      obtain ⟨hreg, hobj⟩ := hs.wired fd ev a ha
      exact ⟨hreg, hkeep a fd hobj hfd⟩
  · rw [hS a ha]
    exact hs.seated a ha

/-- Handlers appear. -/
theorem grow (hs : Seats S p objs) (hle : ∀ a m, objs a = some m → objs' a = some m) :
    Seats S p objs' := by
  refine ⟨fun fd ev a ha => ?_, fun a ha => ?_⟩
  · obtain ⟨hreg, hobj⟩ := hs.wired fd ev a ha
    exact ⟨hreg, hle a fd hobj⟩
  · obtain ⟨m, hm, hreg⟩ := hs.seated a ha
    exact ⟨m, hle a m hm, hreg⟩

/-- A handler the kernel does not know is gone. -/
theorem remove [DecidableEq H] (hs : Seats S p objs) (hobj : objs ptr = some n)
    (hint : p.interest n = none) (hS : ¬ S ptr) : Seats S p (Function.update objs ptr none) := by
  refine ⟨fun fd ev a ha => ?_, fun a ha => ?_⟩
  · obtain ⟨hreg, hobj'⟩ := hs.wired fd ev a ha
    have hne : a ≠ ptr := by
      rintro rfl
      obtain rfl := Option.some.inj (hobj.symm.trans hobj')
      exact absurd (hint.symm.trans ha) (by simp)
    exact ⟨hreg, by rw [Function.update_of_ne hne]; exact hobj'⟩
  · have hne : a ≠ ptr := fun heq => hS (heq ▸ ha)
    obtain ⟨m, hm, hreg⟩ := hs.seated a ha
    exact ⟨m, by rw [Function.update_of_ne hne]; exact hm, hreg⟩

end Seats

/-! ## §2. A world and its live handlers. -/

/-- The kernel's pointers lead to live, registered handlers, and `S` are such. -/
abbrev Sits (S : HandlerPtr → Prop) (w : World) : Prop := Seats S w.poller w.fd?

theorem sits_init (S : HandlerPtr → Prop) (hS : ∀ ptr, ¬ S ptr) : Sits S World.init :=
  ⟨fun fd ev ptr h => absurd h (by simp [World.init, Epoller.new]),
    fun ptr h => absurd h (hS ptr)⟩

/-- Only the handlers asked about matter. -/
theorem Sits.congr {S S' : HandlerPtr → Prop} {w : World} (h : Sits S w)
    (hS : ∀ ptr, S' ptr → S ptr) : Sits S' w :=
  ⟨h.wired, fun ptr hptr => h.seated ptr (hS ptr hptr)⟩

theorem Handler.events_enableRead {CB : Type} (h : Handler CB) : h.enableRead.events ≠ 0#32 := by
  intro h0
  have hbit := congrArg (fun mask : BitVec 32 => mask.getLsbD 0) h0
  simp [enableRead, setEvents, EPOLLIN, EPOLLPRI] at hbit

/-- `send` runs `Update` only to switch write interest on. -/
theorem TcpConnection.events_of_send (x : TcpConnection) (mem : Memory) (data len : SizeT)
    (out : WriteOutcome) (hup : SockCall.update ∈ (x.send mem data len out).2) :
    (x.send mem data len out).1.handler.events ≠ 0#32 := by
  have hwriting : x.handler.enableWrite.events ≠ 0#32 :=
    Handler.events_ne_zero_of_isWriting (Handler.isWriting_enableWrite _)
  unfold send at hup ⊢
  simp only at hup ⊢
  split_ifs at hup ⊢ <;> first | exact hwriting | exact absurd hup (by simp)

namespace Sits

variable {S : HandlerPtr → Prop} {spare : Nat → Prop} {w w' : World} {c : Nat}
  {objs : HandlerPtr → Option Nat}

theorem same (h : Sits S w) (hfd : w'.fd? = w.fd?) (hpoller : w'.poller = w.poller) :
    Sits S w' := by
  show Seats S w'.poller w'.fd?
  rw [hfd, hpoller]
  exact h

theorem quiet (h : Sits S w) (hq : World.Quiet w w') (hpoller : w'.poller = w.poller) :
    Sits S w' := h.same hq.fd? hpoller

theorem emit (h : Sits S w) (e : Event) : Sits S (w.emit e) := h.same rfl rfl

theorem fail (h : Sits S w) (f : Fault) : Sits S (w.fail f) := h.same rfl rfl

/-- `Update` on a handler with a descriptor of its own. -/
theorem update (h : Seats S w.poller objs) {ptr : HandlerPtr} {g : Handler HandlerCallback}
    (hobj : objs ptr = some g.fd)
    (huniq : ∀ a b m, objs a = some m → objs b = some m → a = b)
    (hev : S ptr → g.events ≠ 0#32) : Seats S (w.update ptr g).poller objs := by
  unfold World.update
  split
  next hok => exact h.update hobj huniq hev hok
  next => exact h

/-- **A member function of a live connection**, which leaves a handler in `S` with
events if it runs `Update` on it. -/
theorem connOp (h : Sits S w) (hh : Held spare w) {r : TcpConnection × List SockCall} (ok : Bool)
    (hlive : w.live c = true) (hparts : r.1.parts = (w.conns c).parts)
    (hev : S (.conn c) → SockCall.update ∈ r.2 → r.1.handler.events ≠ 0#32) :
    Sits S (w.connOp c r ok) := by
  have hq := World.quiet_connOp w ok hparts
  show Seats S _ (w.connOp c r ok).fd?
  rw [hq.fd?]
  have hobj : w.fd? (.conn c) = some r.1.handler.fd :=
    World.fd?_conn.mpr ⟨hlive, (congrArg ConnParts.fd hparts).symm⟩
  have hcalls : ∀ (calls : List SockCall) (v : World), (∀ call ∈ calls, call ∈ r.2) →
      (v.conns c) = r.1 → Seats S v.poller w.fd? →
      Seats S (calls.foldl (World.runCall c ok) v).poller w.fd? := by
    intro calls
    induction calls with
    | nil => exact fun v _ _ hv => hv
    | cons call calls ih =>
        intro v hmem hconn hv
        refine ih _ (fun a ha => hmem a (List.mem_cons_of_mem _ ha)) ?_ ?_
        · cases call with
          | write direct bytes out => exact hconn
          | append bytes => exact hconn
          | update => exact (congrFun (v.conns_update _ _) c).trans hconn
          | shutdown pending => cases ok <;> exact hconn
        · cases call with
          | write direct bytes out => exact hv
          | append bytes => exact hv
          | shutdown pending => cases ok <;> exact hv
          | update =>
              refine update hv ?_ hh.uniq fun hS => ?_
              · rw [hconn]
                exact hobj
              · rw [hconn]
                exact hev hS (hmem _ List.mem_cons_self)
  exact hcalls r.2 (w.setConn c r.1) (fun _ hm => hm) (Function.update_self ..) h

theorem send (h : Sits S w) (hh : Held spare w) (c : Nat) (mem : Memory) (data len : SizeT)
    (out : WriteOutcome) : Sits S (w.send c mem data len out) := by
  unfold World.send
  split
  next hlive =>
    exact h.connOp hh true hlive (TcpConnection.parts_send _ mem data len out) fun _ hup =>
      TcpConnection.events_of_send _ mem data len out hup
  next => exact h.fail _

theorem shutDown (h : Sits S w) (hh : Held spare w) (c : Nat) (ok : Bool) :
    Sits S (w.shutDown c ok) := by
  unfold World.shutDown
  split
  next hlive =>
    refine h.connOp hh ok hlive (TcpConnection.parts_shutDown _) fun _ hup => ?_
    rw [TcpConnection.shutDown_eq] at hup
    split_ifs at hup <;> simp at hup
  next => exact h.fail _

/-- `HandleWrite` of a connection that is not asked about may switch its last
interest off. -/
theorem tcpHandleWrite (h : Sits S w) (hh : Held spare w) (c : Nat) (out : WriteOutcome)
    (ok : Bool) (hS : ¬ S (.conn c)) : Sits S (w.tcpHandleWrite c out ok) := by
  unfold World.tcpHandleWrite
  split
  next hlive =>
    exact h.connOp hh ok hlive (TcpConnection.parts_handleWrite _ out) fun hc => absurd hc hS
  next => exact h.fail _

/-- The kernel forgets a descriptor under no live handler. -/
theorem closeFd (h : Seats S w.poller objs) (fd : Nat) : Seats S (w.closeFd fd).poller objs :=
  h.forget fd (fun _ _ hobj _ => hobj) fun _ _ => rfl

/-- **The last owner of a connection may be gone**: the kernel forgets it with its
descriptor. -/
theorem release (h : Seats S w.poller objs) (hopen : w.fds (w.conns c).handler.fd = true)
    (hobj : objs (.conn c) = some (w.conns c).handler.fd)
    (hsame : ∀ a, a ≠ .conn c → w.fd? a = objs a) (hS : S (.conn c) → w.live c = true) :
    Sits S (w.release c) := by
  cases hlive : w.live c with
  | true =>
      have hobjs : w.fd? = objs := by
        funext a
        by_cases ha : a = .conn c
        · rw [ha, hobj]
          exact World.fd?_conn.mpr ⟨hlive, rfl⟩
        · exact hsame a ha
      have hrel : w.release c = w := if_pos hlive
      rw [hrel]
      show Seats S w.poller w.fd?
      rw [hobjs]
      exact h
  | false =>
      have hrel : w.release c = (w.emit (.handlerDestroyed (.conn c)
          (w.poller.handlers (w.conns c).handler.fd).isSome)).closeFd (w.conns c).handler.fd := by
        unfold World.release World.destroyConn
        rw [if_neg (by simp [hlive])]
        exact if_pos hopen
      rw [hrel]
      refine h.forget _ (fun a m ha hm => ?_) fun a ha => ?_
      · have hne : a ≠ .conn c := by
          rintro rfl
          exact hm (Option.some.inj (ha.symm.trans hobj))
        exact (hsame a hne).trans ha
      · have hne : a ≠ .conn c := by
          rintro rfl
          exact absurd ((hS ha).symm.trans hlive) (by simp)
        exact hsame a hne

/-- A slot lets go of what it held. -/
theorem letGo (h : Seats S w.poller objs) {o : Option Nat}
    (hopen : ∀ c, o = some c → w.fds (w.conns c).handler.fd = true)
    (hobj : ∀ c, o = some c → objs (.conn c) = some (w.conns c).handler.fd)
    (hsame : ∀ a, (∀ c, o = some c → a ≠ .conn c) → w.fd? a = objs a)
    (hS : ∀ c, o = some c → S (.conn c) → w.live c = true) : Sits S (w.letGo o) := by
  cases o with
  | none =>
      have hobjs : w.fd? = objs := funext fun a => hsame a fun _ hc => absurd hc (by simp)
      show Seats S w.poller w.fd?
      rw [hobjs]
      exact h
  | some c =>
      refine release (w := w.emit (.displaced c)) h (hopen c rfl) (hobj c rfl) (fun a ha => ?_)
        (hS c rfl)
      refine hsame a fun d hd => ?_
      obtain rfl := Option.some.inj hd
      exact ha

/-- A frame that holds no dead connection. -/
theorem push (h : Sits S w) {f : Frame} (hf : ∀ c, f.holds c = true → w.live c = true) :
    Sits S (w.push f) := h.same (World.fd?_push hf) rfl

/-- Frames that hold nothing come and go. -/
theorem setStack (h : Sits S w) {st : List Frame}
    (hst : ∀ c, st.any (Frame.holds c) = w.stack.any (Frame.holds c)) :
    Sits S { w with stack := st } :=
  h.same (congrArg (fun objs ptr => (objs ptr).map Handler.fd) (World.handler?_setStack hst)) rfl

/-- A change to a client that leaves `_conn` and `_connHandler` alone. -/
theorem setClient (h : Sits S w) {k : Nat} {x : TCPClient}
    (hconn : x.conn = (w.clients k).conn) (hhandler : x.connHandler = (w.clients k).connHandler) :
    Sits S (w.setClient k x) :=
  h.same (congrArg (fun objs ptr => (objs ptr).map Handler.fd)
    (World.handler?_setClient_same hconn hhandler)) rfl

theorem runDisconnectCallback (h : Sits S w) (k : Nat) : Sits S (w.runDisconnectCallback k) := by
  unfold World.runDisconnectCallback
  split
  · exact (h.emit _).push fun d hd => absurd hd (by simp [Frame.holds])
  · exact h

theorem start (h : Sits S w) (hh : Held spare w) (hlive : w.live c = true) :
    Sits S (w.start c) := by
  have hq : World.Quiet w (w.connOp c (w.conns c).start true) :=
    World.quiet_connOp w true (TcpConnection.parts_start _)
  have hop := h.connOp hh true hlive (TcpConnection.parts_start _) fun _ _ =>
    Handler.events_enableRead _
  unfold World.start
  simp only
  split
  · refine (hop.emit _).push fun d hd => ?_
    simp only [Frame.holds, beq_iff_eq] at hd
    exact hd ▸ (hq.live c).trans hlive
  · exact hop

/-- **A new connection takes a slot** and a spare descriptor; what the slot lets go
of has another owner or is not asked about. -/
theorem occupy {σ : Slot} {x : TcpConnection} {fd : Nat} (h : Sits S w)
    (hh : Held (fun m => m = fd ∨ spare m) w) (hw : Coherent w) (hspare : ¬ spare fd)
    (hr : Reslots w w' σ (some w.connCount))
    (hconns : w'.conns = Function.update w.conns w.connCount x) (hx : x.slot = some σ)
    (hfd : x.handler.fd = fd)
    (hS : ∀ c, w.slot σ = some c → S (.conn c) → w.heldElsewhere c) :
    Sits S ((w'.letGo (w.slot σ)).start w.connCount) := by
  have hstored : Seats S w'.poller
      (Function.update w.fd? (.conn w.connCount) (some x.handler.fd)) := by
    rw [hr.poller]
    refine h.grow fun a m ha => ?_
    have hne : a ≠ .conn w.connCount := by
      rintro rfl
      exact absurd (hw.fd?_fresh.symm.trans ha) (by simp)
    rw [Function.update_of_ne hne]
    exact ha
  have hlet : Sits S (w'.letGo (w.slot σ)) := by
    refine letGo hstored (fun c hc => ?_) (hw.fd?_displaced hconns) (hr.fd?_stored hconns hx)
      fun c hc hin => ?_
    · have hne : c ≠ w.connCount := Nat.ne_of_lt (hw.slot σ c hc).1
      rw [hr.fds, hconns, Function.update_of_ne hne]
      exact hh.open_of (a := .conn c) (World.fd?_conn.mpr ⟨hw.live_of_slot hc, rfl⟩)
    · exact World.live_of_heldElsewhere (hr.heldElsewhere.mpr (hS c hc hin))
  exact hlet.start (hh.store hw hspare hr hconns hx hfd) (hr.live_stored hconns hx)

/-- **A slot is vacated**, and what it held loses an owner. -/
theorem vacate (h : Sits S w) (hh : Held spare w) {σ : Slot} {o : Nat} (hr : Reslots w w' σ none)
    (hσ : w.slot σ = some o) (hlive : w.live o = true) (hconns : w'.conns = w.conns)
    (hS : S (.conn o) → w.heldElsewhere o) : Sits S (w'.release o) := by
  have hvacated : Seats S w'.poller w.fd? := by
    rw [hr.poller]
    exact h
  have hobj : w.fd? (.conn o) = some (w'.conns o).handler.fd := by
    rw [hconns]
    exact World.fd?_conn.mpr ⟨hlive, rfl⟩
  refine release hvacated ?_ hobj (hr.fd?_vacated hσ hconns) fun hin => ?_
  · rw [hr.fds]
    exact hh.open_of hobj
  · exact World.live_of_heldElsewhere (hr.heldElsewhere.mpr (hS hin))

/-! ## §3. The library's functions. -/

theorem connEstablish {k fd : Nat} (h : Sits S w) (hh : Held (fun m => m = fd ∨ spare m) w)
    (hw : Coherent w) (hspare : ¬ spare fd)
    (hS : ∀ c, (w.clients k).conn = some c → S (.conn c) → w.heldElsewhere c) :
    Sits S (w.connEstablish k fd) := by
  show Sits S (((w.storeClientConn k fd).letGo (w.slot (.client k))).start w.connCount)
  exact h.occupy hh hw hspare (w.reslots_storeClientConn k fd) rfl rfl rfl hS

theorem onNewConnect {fd : Nat} (h : Sits S w) (hh : Held (fun m => m = fd ∨ spare m) w)
    (hw : Coherent w) (hspare : ¬ spare fd) (s : Nat) (addr : InetAdress)
    (hS : ∀ c, (w.servers s).conns (w.nextName s addr) = some c → S (.conn c) →
      w.heldElsewhere c) : Sits S (w.onNewConnect s fd addr) := by
  show Sits S (((w.storeServerConn s fd addr).letGo
    (w.slot (.server s (w.nextName s addr)))).start w.connCount)
  exact h.occupy hh hw hspare (w.reslots_storeServerConn s fd addr) rfl rfl rfl hS

/-- `RemoveConn` for a connection a frame holds. -/
theorem removeConn (h : Sits S w) (hh : Held spare w) (s : Nat) (hheld : w.heldElsewhere c)
    (hlive : ∀ o, w.slot (.server s (w.conns c).name) = some o → w.live o = true)
    (hS : ∀ o, w.slot (.server s (w.conns c).name) = some o → o ≠ c → S (.conn o) →
      w.heldElsewhere o) : Sits S (w.removeConn s c) := by
  have hr := w.reslots_setServer s (x := { w.servers s with
    conns := Function.update (w.servers s).conns (w.conns c).name none }) rfl rfl
  unfold World.removeConn
  simp only
  split
  next hc => exact h.vacate hh hr hc (World.live_of_heldElsewhere hheld) rfl fun _ => hheld
  next hne =>
    cases ho : (w.servers s).conns (w.conns c).name with
    | none =>
        have hno : w.slot (.server s (w.conns c).name) = none := ho
        exact h.same (World.fd?_eq (fun _ => rfl)
          (fun d => hr.live rfl (by simp [hno]) (by simp)) (fun _ => rfl) hr.accepter) rfl
    -- a namesake's entry
    | some o =>
        exact h.vacate hh (hr.emit (.displaced o)) ho (hlive o ho) rfl
          (hS o ho fun hoc => hne (hoc ▸ ho))

/-- `HandleClose` likewise. -/
theorem handleClose (h : Sits S w) (hh : Held spare w) (k : Nat) (hheld : w.heldElsewhere c) :
    Sits S (w.handleClose k c) := by
  unfold World.handleClose
  simp only
  split
  next hc =>
    have hr := w.reslots_setClient k (x := { w.clients k with conn := none }) rfl
    exact (h.vacate hh hr hc (World.live_of_heldElsewhere hheld) rfl
      fun _ => hheld).runDisconnectCallback k
  next => exact h.fail _

theorem closeStart (h : Sits S w) (hh : Held spare w) (hlive : w.live c = true)
    (hS : ¬ S (.conn c)) : Sits S (w.closeStart c) :=
  (h.emit (.closeEntered c)).connOp (hh.emit _) true hlive
    (TcpConnection.parts_closeEnter _) fun hin => absurd hin hS

/-- **`Close`** of a connection that is not asked about; a namesake that is has
another owner. -/
theorem close (h : Sits S w) (hh : Held spare w) (hw : Coherent w) (c : Nat)
    (hS : ¬ S (.conn c))
    (hname : ∀ s o, (w.conns c).closeCallback = some (.removeConn s) →
      (w.servers s).conns (w.conns c).name = some o → o ≠ c → S (.conn o) →
      w.heldElsewhere o) : Sits S (w.close c) := by
  unfold World.close
  split
  next hlive =>
    have hq := World.quiet_closeStart w c
    have hlives : ∀ d, (w.closeStart c).live d = w.live d := hq.live
    have hparts := hq.parts c
    have hnamed : ((w.closeStart c).conns c).name = (w.conns c).name :=
      congrArg ConnParts.name hparts
    have hbound : ((w.closeStart c).conns c).closeCallback = (w.conns c).closeCallback :=
      congrArg ConnParts.closeCallback hparts
    have hstart := h.closeStart hh hlive hS
    have hholds : ∀ d, (Frame.closing c).holds d = true → (w.closeStart c).live d = true := by
      intro d hd
      simp only [Frame.holds, beq_iff_eq] at hd
      exact hd ▸ (hlives c).trans hlive
    simp only
    split
    next =>
      exact hstart.quiet (World.quiet_setConn _ (TcpConnection.parts_closeReturn _)) rfl
    next callback hcb =>
      -- the temporary of the callback's argument holds `c`
      have hat : Sits S (w.atCloseCallback c) := (hstart.push hholds).emit _
      have hhat : Held spare (w.atCloseCallback c) := ((hh.closeStart c).push hholds).emit _
      have hheld : (w.atCloseCallback c).heldElsewhere c :=
        Or.inr ⟨.closing c, List.mem_cons_self, by simp [Frame.holds]⟩
      cases callback with
      | handleClose k => exact hat.handleClose hhat k hheld
      | removeConn s =>
          have hslot : ∀ o, (w.atCloseCallback c).slot
              (.server s ((w.atCloseCallback c).conns c).name) = some o →
              (w.servers s).conns (w.conns c).name = some o := by
            intro o ho
            have ho' : (w.closeStart c).slot (.server s ((w.closeStart c).conns c).name)
                = some o := ho
            rw [hq.slot, hnamed] at ho'
            exact ho'
          refine hat.removeConn hhat s hheld (fun o ho => ?_) fun o ho hne hin => ?_
          · exact World.live_push _ ((hlives o).trans
              (hw.live_of_slot (σ := .server s (w.conns c).name) (hslot o ho)))
          · -- what held the namesake before still does
            rcases hname s o (hbound.symm.trans hcb) (hslot o ho) hne hin with hkept | ⟨f, hf, hfo⟩
            · refine Or.inl ?_
              show 0 < (w.closeStart c).kept o
              rw [hq.kept]
              exact hkept
            · refine Or.inr ⟨f, List.mem_cons_of_mem _ ?_, hfo⟩
              show f ∈ (w.closeStart c).stack
              rw [hq.stack]
              exact hf
  next => exact h.fail _

/-- `DisableAll` and `reset` on a connecting handler. -/
theorem dropConnHandler (h : Sits S w) (hh : Held spare w) {k n : Nat}
    {g : Handler HandlerCallback} (hk : (w.clients k).connHandler = some (n, g))
    (hS : ¬ S (.connecting k n)) : Sits S (w.dropConnHandler k n g) := by
  have hobj : w.fd? (.connecting k n) = some g.fd := World.fd?_connecting.mpr ⟨g, hk, rfl⟩
  have hq := w.quiet_update (.connecting k n) g.disableAll
  have hup : Seats S (w.update (.connecting k n) g.disableAll).poller w.fd? :=
    update h hobj hh.uniq fun hin => absurd hin hS
  have hint : (w.update (.connecting k n) g.disableAll).poller.interest g.fd = none := by
    obtain ⟨p, hp, _, hint⟩ := @Epoller.update_noEvent _ _ w.poller (.connecting k n)
      g.disableAll rfl (h.table _)
    unfold World.update
    rw [hp]
    show p.interest g.fd = none
    rw [hint]
    exact Function.update_self ..
  have hk' : ((w.update (.connecting k n) g.disableAll).clients k).connHandler = some (n, g) := by
    rw [hq.clients]
    exact hk
  refine emit ?_ _
  show Seats S (w.update (.connecting k n) g.disableAll).poller (World.fd? (World.setClient _ k _))
  rw [World.fd?_dropHandler hk', hq.fd?]
  exact hup.remove hobj hint hS

theorem clientHandleError (h : Sits S w) (hh : Held spare w) (k : Nat)
    (hS : (w.clients k).state = .connecting → ∀ n g, (w.clients k).connHandler = some (n, g) →
      ¬ S (.connecting k n)) : Sits S (w.clientHandleError k) := by
  unfold World.clientHandleError
  split
  next hst =>
    split
    next => exact h.fail _
    next n g hk =>
      have hclosed : Sits S ((w.dropConnHandler k n g).closeFd g.fd) :=
        closeFd (h.dropConnHandler hh hk (hS hst n g hk)) g.fd
      exact hclosed.runDisconnectCallback k
  next => exact h

theorem clientHandleWrite (h : Sits S w) (hh : Held spare w) (hw : Coherent w) (k err : Nat)
    (hS : (w.clients k).state = .connecting → ∀ n g, (w.clients k).connHandler = some (n, g) →
      ¬ S (.connecting k n))
    (hconn : (w.clients k).state = .connecting → err = 0 → ∀ c, (w.clients k).conn = some c →
      S (.conn c) → w.heldElsewhere c) : Sits S (w.clientHandleWrite k err) := by
  unfold World.clientHandleWrite
  split
  next hst =>
    split
    next => exact h.fail _
    next n g hk =>
      have hdrop := h.dropConnHandler hh hk (hS hst n g hk)
      obtain ⟨hheld, hspare⟩ := hh.dropConnHandler hk
      simp only
      split
      next => exact hdrop.runDisconnectCallback k
      next herr =>
        refine hdrop.connEstablish hheld (hw.dropConnHandler k n g) hspare fun c hc hin => ?_
        have hc' : (w.clients k).conn = some c := by
          rw [World.clients_dropConnHandler, Function.update_self] at hc
          exact hc
        have hq := w.quiet_update (.connecting k n) g.disableAll
        rcases hconn hst (not_not.mp herr) c hc' hin with hkept | ⟨f, hf, hfc⟩
        · refine Or.inl ?_
          show 0 < (w.update (.connecting k n) g.disableAll).kept c
          rw [hq.kept]
          exact hkept
        · refine Or.inr ⟨f, ?_, hfc⟩
          show f ∈ (w.update (.connecting k n) g.disableAll).stack
          rw [hq.stack]
          exact hf
  next => exact h

theorem dial (h : Sits S w) (k : Nat) (ip : Text) (port : BitVec 16) (fd : Nat) :
    Sits S (w.dial k ip port fd) := by
  have haddr : Sits S (w.storeAddr k ip port) := h.setClient rfl rfl
  exact haddr.same rfl rfl

/-- `Connecting` where no handler is left of an earlier attempt. -/
theorem connecting {k fd : Nat} (h : Sits S w) (hh : Held (fun m => m = fd ∨ spare m) w)
    (hspare : ¬ spare fd) (hk : (w.clients k).connHandler = none) :
    Sits S (w.connecting k fd) := by
  have hadd := World.fd?_addHandler (n := w.handlerCount)
    (g := (World.connectingHandler k fd).enableWrite) hk
    { w.clients k with
      state := .connecting
      connHandler := some (w.handlerCount, (World.connectingHandler k fd).enableWrite) } rfl rfl
  have hheld := Held.addHandler (g := (World.connectingHandler k fd).enableWrite)
    (n := w.handlerCount) hh hspare hk
    { w.clients k with
      state := .connecting
      connHandler := some (w.handlerCount, (World.connectingHandler k fd).enableWrite) } rfl rfl
  have hnone : w.fd? (.connecting k w.handlerCount) = none := by
    simp [World.fd?, World.handler?, hk]
  have hgrown : Seats S w.poller (Function.update w.fd? (.connecting k w.handlerCount)
      (some (World.connectingHandler k fd).enableWrite.fd)) := by
    refine h.grow fun a m ha => ?_
    have hne : a ≠ .connecting k w.handlerCount := by
      rintro rfl
      exact absurd (hnone.symm.trans ha) (by simp)
    rw [Function.update_of_ne hne]
    exact ha
  unfold World.connecting
  simp only [hk]
  show Seats S _ _
  rw [(World.quiet_update _ _ _).fd?]
  show Seats S _ (World.fd? (w.setClient k { w.clients k with
    state := .connecting
    connHandler := some (w.handlerCount, (World.connectingHandler k fd).enableWrite) }))
  rw [hadd]
  apply update
  · exact hgrown
  · exact Function.update_self ..
  · rw [← hadd]
    exact hheld.uniq
  · exact fun _ => Handler.events_ne_zero_of_isWriting (Handler.isWriting_enableWrite _)

theorem connect (h : Sits S w) (hh : Held spare w) (hw : Coherent w) {k : Nat} {ip : Text}
    {port : BitVec 16} {sock : Option Nat} {outcome : ConnectOutcome}
    (hsock : ∀ fd, sock = some fd → w.fds fd = false)
    (hattempt : ∀ m, w.startsAttempt (.user (.connect k ip port sock outcome)) = some m →
      (w.clients m).connHandler = none)
    (hS : ∀ c, w.displaces (.user (.connect k ip port sock outcome)) = some c → S (.conn c) →
      w.heldElsewhere c) : Sits S (w.connect k ip port sock outcome) := by
  unfold World.connect
  split
  next => exact h
  next hst =>
    have hstate : (w.clients k).state = .disConnected := not_not.mp hst
    cases sock with
    | none => exact h.setClient rfl rfl
    | some fd =>
        have hspare : ¬ spare fd := (hh.closed_of (hsock fd rfl)).2
        have hdial := h.dial k ip port fd
        have hheld := hh.dial k ip port (hsock fd rfl)
        simp only
        cases outcome with
        | ok =>
            refine hdial.connEstablish hheld (hw.dial k ip port fd) hspare fun c hc hin => ?_
            have hc' : (w.clients k).conn = some c :=
              (congrArg TCPClient.conn (w.clients_dial ..)).symm.trans hc
            exact hS c (by simp [World.displaces, World.establishes, hstate, hc']) hin
        | failed errno =>
            simp only
            split
            next herr =>
              refine hdial.connecting hheld hspare ?_
              rw [w.clients_dial]
              exact hattempt k (by simp [World.startsAttempt, hstate, herr])
            next =>
              have hset : Sits S ((w.dial k ip port fd).setClient k
                  { (w.dial k ip port fd).clients k with state := .disConnected }) :=
                hdial.setClient rfl rfl
              exact closeFd hset fd

theorem disconnect (h : Sits S w) (hh : Held spare w) (k : Nat) (ok : Bool) :
    Sits S (w.disconnect k ok) := by
  have hset : Sits S (w.setClient k { w.clients k with state := .disConnected }) :=
    h.setClient rfl rfl
  have hheld : Held spare (w.setClient k { w.clients k with state := .disConnected }) :=
    hh.setClient rfl rfl
  unfold World.disconnect
  simp only
  split
  · exact hset.fail _
  · exact hset.shutDown hheld _ ok

theorem clientSend (h : Sits S w) (hh : Held spare w) (k : Nat) (mem : Memory)
    (data len : SizeT) (out : WriteOutcome) : Sits S (w.clientSend k mem data len out) := by
  unfold World.clientSend
  split
  · exact h
  · exact h.send hh _ mem data len out

theorem serverStart (h : Sits S w) (hh : Held spare w) {s fd : Nat}
    (hacc : (w.servers s).accepter = none) (hfd : w.fds fd = false) :
    Sits S (w.serverStart s fd) := by
  have hnone : w.fd? (.acceptor s) = none := by
    show (w.servers s).accepter.map Handler.fd = none
    rw [hacc]
    rfl
  have hobj := World.fd?_update (World.handler?_setServer
    (w := { w with fds := Function.update w.fds fd true }) (s := s)
    (x := { w.servers s with accepter := some (Handler.enableRead { (Handler.new fd) with
      readCallback := some (HandlerCallback.acceptorHandleRead s) }) }) rfl)
  have hgrown : Seats S w.poller (Function.update w.fd? (.acceptor s) (some fd)) := by
    refine h.grow fun a m ha => ?_
    have hne : a ≠ .acceptor s := by
      rintro rfl
      exact absurd (hnone.symm.trans ha) (by simp)
    rw [Function.update_of_ne hne]
    exact ha
  have huniq := (hh.serverStart hacc hfd).uniq
  have hfds := (World.quiet_update (World.setServer
    { w with fds := Function.update w.fds fd true } s
    { w.servers s with accepter := some (Handler.enableRead { (Handler.new fd) with
      readCallback := some (HandlerCallback.acceptorHandleRead s) }) }) (.acceptor s)
    (Handler.enableRead { (Handler.new fd) with
      readCallback := some (HandlerCallback.acceptorHandleRead s) })).fd?.trans hobj
  unfold World.serverStart at huniq ⊢
  show Seats S _ _
  rw [hfds] at huniq ⊢
  apply update
  · exact hgrown
  · exact Function.update_self ..
  · exact huniq
  · exact fun _ => Handler.events_enableRead _

theorem setServerFlags (h : Sits S w) (s : Nat) (newConn msg : Bool) :
    Sits S (w.setServerFlags s newConn msg) := by
  have hobj : (w.setServerFlags s newConn msg).handler? = w.handler? := by
    refine (World.handler?_setServer (w := w) (s := s)
      (x := { w.servers s with newConnCallback := newConn, msgCallback := msg }) rfl).trans ?_
    exact Function.update_eq_self (HandlerPtr.acceptor s) w.handler?
  exact h.same (congrArg (fun objs ptr => (objs ptr).map Handler.fd) hobj) rfl

theorem tcpHandleRead (h : Sits S w) (hh : Held spare w) (hw : Coherent w) (c : Nat)
    (r : ReadOutcome) (hS : r = .eof → ¬ S (.conn c))
    (hname : r = .eof → ∀ s o, (w.conns c).closeCallback = some (.removeConn s) →
      (w.servers s).conns (w.conns c).name = some o → o ≠ c → S (.conn o) →
      w.heldElsewhere o) : Sits S (w.tcpHandleRead c r) := by
  unfold World.tcpHandleRead
  split
  next hlive =>
    cases r with
    | failed errno => exact h
    | eof => exact h.close hh hw c (hS rfl) (hname rfl)
    | data bytes =>
        have hq := World.quiet_setConn w (TcpConnection.parts_receive (w.conns c) bytes)
        have hset := h.quiet hq rfl
        simp only
        split
        · refine (hset.emit (.messageCallback c)).push fun d hd => ?_
          simp only [Frame.holds, beq_iff_eq] at hd
          exact hd ▸ (hq.live c).trans hlive
        · exact hset.fail _
  next => exact h.fail _

theorem acceptorHandleRead (h : Sits S w) (hh : Held spare w) (hw : Coherent w) (s : Nat)
    (accept : AcceptOutcome) (hfd : ∀ fd addr, accept = .conn fd addr → w.fds fd = false)
    (hS : ∀ fd addr c, accept = .conn fd addr →
      (w.servers s).conns (w.nextName s (InetAdress.new.fromAddr addr).2) = some c →
      S (.conn c) → w.heldElsewhere c) : Sits S (w.acceptorHandleRead s accept) := by
  unfold World.acceptorHandleRead
  split
  next fd addr =>
    have hspare : ¬ spare fd := (hh.closed_of (hfd fd addr rfl)).2
    have hheld : Held (fun m => m = fd ∨ spare m)
        { w with fds := Function.update w.fds fd true } :=
      Descriptors.Holds.obtain hh (hfd fd addr rfl)
    have hopen : Sits S { w with fds := Function.update w.fds fd true } := h.same rfl rfl
    exact hopen.onNewConnect hheld (hw.quiet World.Quiet.of_machine) hspare s _
      fun c => hS fd addr c rfl
  next => exact h

/-- A copy of a connection's pointer is dropped; `v` is the world without it. -/
theorem dropCopy (h : Sits S w) (hh : Held spare w) {v : World} (hlive : w.live c = true)
    (hconns : v.conns = w.conns) (hothers : ∀ d, d ≠ c → v.live d = w.live d)
    (hclients : v.clients = w.clients) (hservers : v.servers = w.servers)
    (hfds : v.fds = w.fds) (hpoller : v.poller = w.poller)
    (hS : S (.conn c) → v.live c = true) : Sits S (v.release c) := by
  have hobj : w.fd? (.conn c) = some (v.conns c).handler.fd := by
    rw [hconns]
    exact World.fd?_conn.mpr ⟨hlive, rfl⟩
  have hdropped : Seats S v.poller w.fd? := by
    rw [hpoller]
    exact h
  refine release hdropped ?_ hobj (World.fd?_dropCopy hconns hothers hclients hservers) hS
  rw [hfds]
  exact hh.open_of hobj

/-- The same when the copy was a frame's. -/
theorem popHolder (h : Sits S w) (hh : Held spare w) {f : Frame} {rest : List Frame}
    (hst : w.stack = f :: rest) (hholds : ∀ d, f.holds d = (c == d))
    (hS : S (.conn c) → World.live { w with stack := rest } c = true) :
    Sits S ({ w with stack := rest }.release c) := by
  refine h.dropCopy hh ?_ rfl (fun d hd => ?_) rfl rfl rfl rfl hS
  · exact World.live_of_heldElsewhere
      (Or.inr ⟨f, by rw [hst]; exact List.mem_cons_self, by simp [hholds]⟩)
  · have hf : f.holds d = false := by simp [hholds, Ne.symm hd]
    show (w.ownerHolds d || decide (0 < w.kept d) || rest.any (Frame.holds d)) = _
    rw [World.live, hst, List.any_cons, hf, Bool.false_or]

end Sits

/-! ## §4. One step. -/

namespace World

/-- The attempt whose `HandleWrite` or `HandleError` the step runs. -/
def endsAttempt (w : World) : Label → Option (Nat × Nat)
  | .resume _ =>
      match w.stack with
      | .handleEvent (.connecting k n) mask .write :: _ =>
          if mask.has EPOLLOUT = true ∧ w.attempting k n then some (k, n) else none
      | .handleEvent (.connecting k n) mask .error :: _ =>
          if mask.has EPOLLERR = true ∧ w.attempting k n then some (k, n) else none
      | _ => none
  | _ => none

/-- The connection whose write test the step makes. -/
def testsWrite (w : World) : Label → Option Nat
  | .resume _ =>
      match w.stack with
      | .handleEvent (.conn c) _ .write :: _ => some c
      | _ => none
  | _ => none

/-- The step disables the handler or destroys it: by `Close`, as the last owner of
its connection, or with the attempt it belongs to. -/
def unseats (w : World) (l : Label) : HandlerPtr → Prop
  | .conn c =>
      w.entersClose l = some c
      ∨ (w.displaces l = some c ∧ ¬ w.heldElsewhere c)
      ∨ (w.dropsCopy l).any (fun q => q.1 == c && !q.2.live c) = true
  | .connecting k n => w.endsAttempt l = some (k, n)
  | .acceptor _ => False

instance (w : World) (l : Label) (ptr : HandlerPtr) : Decidable (w.unseats l ptr) :=
  match ptr with
  | .conn _ => inferInstanceAs (Decidable (_ ∨ _))
  | .connecting _ _ => inferInstanceAs (Decidable (_ = _))
  | .acceptor _ => inferInstanceAs (Decidable False)

/-- A namesake that `Close` erases is displaced. -/
theorem displaces_of_close {w : World} {l : Label} {c o s : Nat} (hest : w.establishes l = none)
    (hacc : w.accepts l = none) (hclose : w.entersClose l = some c) (hlive : w.live c = true)
    (hcb : (w.conns c).closeCallback = some (.removeConn s))
    (ho : (w.servers s).conns (w.conns c).name = some o) (hne : o ≠ c) :
    w.displaces l = some o :=
  (displaces_close_iff hest hacc hclose).mpr ⟨hlive, s, hcb, ho, hne⟩

end World

namespace Sits

variable {S : HandlerPtr → Prop} {spare : Nat → Prop} {w w' : World} {c : Nat} {l : Label}

/-- What the step displaces and is asked about has another owner. -/
theorem held_of_displaced (hS : ∀ ptr, S ptr → ¬ w.unseats l ptr) {o : Nat}
    (ho : w.displaces l = some o) (hin : S (.conn o)) : w.heldElsewhere o := by
  by_contra hno
  exact hS _ hin (Or.inr (Or.inl ⟨ho, hno⟩))

/-- The read test. -/
theorem readTest (h : Sits S w) (hh : Held spare w) (hw : Coherent w) {env : Env}
    {ptr : HandlerPtr} {mask : EventMask} {rest : List Frame}
    (hst : w.stack = .handleEvent ptr mask .read :: rest) (hadm : w.admits env = true)
    (hS : ∀ ptr, S ptr → ¬ w.unseats (.resume env) ptr) :
    Sits S ({ w with stack := .handleEvent ptr mask .write :: rest }.testEvent env ptr mask
      World.readBits Handler.readCallback) := by
  have hany := World.holds_advance hst .write
  have h₁ := h.setStack hany
  have hh₁ := hh.setStack hany
  have hw₁ := hw.advance hst .write
  have hest : ∀ d, ptr = .conn d → w.establishes (.resume env) = none := by
    rintro d rfl
    simp [World.establishes, hst]
  have hacc : ∀ d, ptr = .conn d → w.accepts (.resume env) = none := by
    rintro d rfl
    simp [World.accepts, hst]
  rcases hw₁.read_cases env ptr mask rfl with
    ⟨_, heq⟩ | ⟨_, _, heq⟩ | ⟨c, hc, hbits, hlive, heq⟩ | ⟨s, hs, hbits, hsome, heq⟩
  · rw [heq]
    exact h₁
  · rw [heq]
    exact h₁.fail _
  · rw [heq]
    subst hc
    have hclose : env.read = .eof → w.entersClose (.resume env) = some c := by
      intro hr
      simp only [World.entersClose, hst]
      exact if_pos ⟨hbits, hr⟩
    have hlive₀ : w.live c = true := (World.live_setStack (hany c)).symm.trans hlive
    refine h₁.tcpHandleRead hh₁ hw₁ c _ (fun hr hin => ?_) fun hr s o hcb ho hne hin => ?_
    · exact hS _ hin (Or.inl (hclose hr))
    · have hdisp := World.displaces_of_close (hest c rfl) (hacc c rfl) (hclose hr) hlive₀ hcb ho hne
      exact (World.heldElsewhere_setStack (hany o)).mpr (held_of_displaced hS hdisp hin)
  · rw [heq]
    subst hs
    refine h₁.acceptorHandleRead hh₁ hw₁ s _ (fun fd addr hconn => ?_)
      fun fd addr o hconn ho hin => ?_
    · simpa [World.admits, hst, hconn] using hadm
    · have haccepts : w.accepts (.resume env)
          = some (s, w.nextName s (InetAdress.new.fromAddr addr).2) := by
        simp only [World.accepts, hst, hconn]
        exact if_pos ⟨hbits, hsome⟩
      have hdisp : w.displaces (.resume env) = some o := by
        simp only [World.displaces, World.establishes, hst, haccepts]
        exact ho
      exact (World.heldElsewhere_setStack (hany o)).mpr (held_of_displaced hS hdisp hin)

/-- The write test. -/
theorem writeTest (h : Sits S w) (hh : Held spare w) (hw : Coherent w) {env : Env}
    {ptr : HandlerPtr} {mask : EventMask} {rest : List Frame}
    (hst : w.stack = .handleEvent ptr mask .write :: rest)
    (hS : ∀ ptr, S ptr → ¬ w.unseats (.resume env) ptr)
    (hwrites : ∀ c, w.testsWrite (.resume env) = some c → ¬ S (.conn c)) :
    Sits S ({ w with stack := .handleEvent ptr mask .error :: rest }.testEvent env ptr mask
      EPOLLOUT Handler.writeCallback) := by
  have hany := World.holds_advance hst .error
  have h₁ := h.setStack hany
  have hh₁ := hh.setStack hany
  have hw₁ := hw.advance hst .error
  rcases hw₁.write_cases env ptr mask rfl with
    ⟨_, heq⟩ | ⟨_, _, heq⟩ | ⟨c, hc, _, _, heq⟩ | ⟨k, n, g, hk, hbits, hg, heq⟩
  · rw [heq]
    exact h₁
  · rw [heq]
    exact h₁.fail _
  · rw [heq]
    subst hc
    exact h₁.tcpHandleWrite hh₁ c _ _ (hwrites c (by simp [World.testsWrite, hst]))
  · rw [heq]
    subst hk
    have hg' : (w.clients k).connHandler = some (n, g) := hg
    have hattempt : (w.clients k).state = .connecting → w.attempting k n := fun hstate =>
      ⟨hstate, by rw [hg']; rfl⟩
    refine h₁.clientHandleWrite hh₁ hw₁ k _ (fun hstate m g' hm hin => ?_)
      fun hstate herr o ho hin => ?_
    · obtain ⟨rfl, rfl⟩ := Prod.mk.inj (Option.some.inj (hg.symm.trans hm))
      refine hS _ hin ?_
      show w.endsAttempt (.resume env) = some (k, n)
      simp only [World.endsAttempt, hst]
      exact if_pos ⟨hbits, hattempt hstate⟩
    · have hest : w.establishes (.resume env) = some k := by
        simp only [World.establishes, hst]
        exact if_pos ⟨hbits, herr, hattempt hstate⟩
      have hdisp : w.displaces (.resume env) = some o := by
        simp only [World.displaces, hest]
        exact ho
      exact (World.heldElsewhere_setStack (hany o)).mpr (held_of_displaced hS hdisp hin)

/-- **One step** keeps the kernel's pointers good, unless `Connecting` replaces a
handler, and keeps the handlers seated that it neither disables nor destroys. -/
theorem next (h : Sits S w) (hh : Held spare w) (hw : Coherent w) (hnext : w.next l = some w')
    (hattempt : ∀ k, w.startsAttempt l = some k → (w.clients k).connHandler = none)
    (hS : ∀ ptr, S ptr → ¬ w.unseats l ptr)
    (hwrites : ∀ c, w.testsWrite l = some c → ¬ S (.conn c)) : Sits S w' := by
  obtain ⟨_, hturn⟩ := World.next_turn hnext
  have hdropped : ∀ {q : Nat × World}, w.dropsCopy l = some q → S (.conn q.1) →
      q.2.live q.1 = true := by
    intro q hq hin
    by_contra hdead
    refine hS _ hin (Or.inr (Or.inr ?_))
    simpa [hq] using hdead
  cases hturn with
  | poll hst => exact h.push fun d hd => absurd hd (by simp [Frame.holds])
  | loopEnd hst => exact h.setStack fun c => by rw [hst]; rfl
  | loopStale hst hptr => exact h.fail _
  | loopNext hst hptr => exact h.setStack fun c => by rw [hst]; rfl
  | readTest hst hadm => exact h.readTest hh hw hst hadm hS
  | writeTest hst hadm => exact h.writeTest hh hw hst hS hwrites
  | @errorTest env ptr mask rest hst =>
      have hany : ∀ c, rest.any (Frame.holds c) = w.stack.any (Frame.holds c) := fun c => by
        rw [hst]
        rfl
      have h₁ := h.setStack hany
      rcases (hw.pop hst).error_cases env ptr mask rfl with
        ⟨_, heq⟩ | ⟨_, _, heq⟩ | ⟨k, n, g, hk, hbits, hg, heq⟩
      · rw [heq]
        exact h₁
      · rw [heq]
        exact h₁.fail _
      · rw [heq]
        subst hk
        refine h₁.clientHandleError (hh.setStack hany) k fun hstate m g' hm hin => ?_
        obtain ⟨rfl, rfl⟩ := Prod.mk.inj (Option.some.inj (hg.symm.trans hm))
        refine hS _ hin ?_
        show w.endsAttempt (.resume env) = some (k, n)
        have hg' : (w.clients k).connHandler = some (n, g) := hg
        simp only [World.endsAttempt, hst]
        exact if_pos ⟨hbits, hstate, by rw [hg']; rfl⟩
  | @finishClose env c rest hst =>
      have hrel : Sits S ({ w with stack := rest }.release c) :=
        h.popHolder hh hst (fun _ => rfl)
          (hdropped (q := (c, { w with stack := rest })) (by simp [World.dropsCopy, hst]))
      exact hrel.quiet (World.quiet_finishClose _ c) (World.finishClose_machine _ c).1
  | connect hsock =>
      exact h.connect hh hw hsock hattempt fun c hc hin => held_of_displaced hS hc hin
  | disconnect => exact h.disconnect hh _ _
  | clientSend hout => exact h.clientSend hh _ _ _ _ _
  | setConnectionCallback => exact h.setClient rfl rfl
  | setMessageCallback => exact h.setClient rfl rfl
  | setDisconnectCallback => exact h.setClient rfl rfl
  | serverStart hacc hfd => exact h.serverStart hh hacc hfd
  | serverSetConnCallback => exact h.setServerFlags _ _ _
  | serverSetMessageCallback => exact h.setServerFlags _ _ _
  | send hacc hout => exact h.send hh _ _ _ _ _
  | shutDown hacc => exact h.shutDown hh _ _
  | @close c hacc =>
      refine h.close hh hw c (fun hin => hS _ hin (Or.inl rfl)) fun s o hcb ho hne hin => ?_
      exact held_of_displaced hS (World.displaces_of_close rfl rfl rfl
        (Coherent.live_of_accessible hacc) hcb ho hne) hin
  | retrieve hacc => exact h.quiet (World.quiet_setConn _ (TcpConnection.parts_retrieve _ _)) rfl
  | retrieveAll hacc =>
      exact h.quiet (World.quiet_setConn _ (TcpConnection.parts_retrieveAll _)) rfl
  | @keep c hacc =>
      refine h.same (World.fd?_eq (fun _ => rfl) (fun d => ?_) (fun _ => rfl) fun _ => rfl) rfl
      by_cases hdc : d = c
      · subst hdc
        rw [Coherent.live_of_accessible hacc]
        simp [World.live]
      · simp only [World.live, Function.update_of_ne hdc]
        rfl
  | @drop c hkept =>
      refine h.dropCopy hh (World.live_of_heldElsewhere (Or.inl hkept)) rfl (fun d hdc => ?_)
        rfl rfl rfl rfl (hdropped rfl)
      simp only [World.live, Function.update_of_ne hdc]
      rfl
  | @retConnection c rest hst =>
      exact h.popHolder hh hst (fun _ => rfl)
        (hdropped (q := (c, { w with stack := rest })) (by simp [World.dropsCopy, hst]))
  | @retMessage c rest hst =>
      exact h.popHolder hh hst (fun _ => rfl)
        (hdropped (q := (c, { w with stack := rest })) (by simp [World.dropsCopy, hst]))
  | retDisconnect hst => exact h.setStack fun c => by rw [hst]; rfl

end Sits

end SparkNet
