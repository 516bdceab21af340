/-
  SparkNet.Lifetime — nothing is touched after its last owner lets go.

  `HandleEvent` runs up to three callbacks on one handler, and a callback may
  let the handler die.  The frames that are safe whatever happens above them are
  `settled`; the only other frame is the innermost one, and its handler is
  alive.  What remains are the four places of the source that touch an object
  after a callback: the last statement of `Close`, the write and the error test
  of `HandleEvent`, and `Epoller::Loop`, which takes up the next entry of a batch
  that was filled before any callback of it ran.

  Main results:
    * `no_use_after_free` — a run in which those four places find their object
      alive never touches a dead one,
    * `peer_close_touches_dead_connection` — a peer that closes a server's
      connection is enough to leave the last statement of `Close` without one.
-/
import SparkNet.Ownership

namespace SparkNet

open Runs

/-! ## §1. The condition. -/

namespace World

/-- Somebody besides the library's own slot holds the connection: the
application keeps a copy, or a frame of the stack has one. -/
def heldElsewhere (w : World) (c : Nat) : Prop :=
  0 < w.kept c ∨ ∃ f ∈ w.stack, f.holds c = true

/-- Whoever holds the connection keeps it alive, slot or no slot. -/
theorem live_of_heldElsewhere {w : World} {c : Nat} (h : w.heldElsewhere c) :
    w.live c = true := by
  simp only [live, Bool.or_eq_true, decide_eq_true_eq, List.any_eq_true, or_assoc]
  exact Or.inr h

theorem heldElsewhere_setStack {w : World} {st : List Frame} {c : Nat}
    (hst : st.any (Frame.holds c) = w.stack.any (Frame.holds c)) :
    heldElsewhere { w with stack := st } c ↔ w.heldElsewhere c := by
  have hany : ∀ v : World, v.heldElsewhere c ↔
      0 < v.kept c ∨ v.stack.any (Frame.holds c) = true := by
    intro v
    simp only [heldElsewhere, List.any_eq_true]
  rw [hany, hany, ← hst]

/-- The connection has left its slot. -/
def unslotted (w : World) (c : Nat) : Prop := w.closed c ∨ w.displaced c

end World

/-- The step does not touch an object that a callback has left without owner. -/
def TouchesLive (w : World) : Label → Prop
  | .resume _ =>
      match w.stack with
      -- `HandleEvent` on the handler of the next event of the batch
      | .loop ((ptr, _) :: _) :: _ => (w.handler? ptr).isSome = true
      -- `_state = DIS_CONNECTED` after the close callback
      | .closing c :: rest => { w with stack := rest }.heldElsewhere c
      | .handleEvent (.conn c) mask .write :: _ =>
          mask.has EPOLLOUT = true → w.unslotted c → w.heldElsewhere c
      | .handleEvent (.conn c) mask .error :: _ =>
          mask.has EPOLLERR = true → w.unslotted c → w.heldElsewhere c
      -- `HandleWrite` resets the handler whose error test is still to come
      | .handleEvent (.connecting k _) mask .write :: _ =>
          ¬ (mask.has EPOLLOUT = true ∧ mask.has EPOLLERR = true
            ∧ (w.clients k).state = .connecting)
      | _ => True
  | _ => True

instance (w : World) (c : Nat) : Decidable (w.heldElsewhere c) := by
  unfold World.heldElsewhere; infer_instance

instance (w : World) (c : Nat) : Decidable (w.unslotted c) := by
  unfold World.unslotted; infer_instance

instance (w : World) (l : Label) : Decidable (TouchesLive w l) := by
  unfold TouchesLive; split <;> [split <;> infer_instance; infer_instance]

/-! ## §2. Frames that no callback can hurt. -/

/-- Whatever the frames above it do, the frame touches no dead object, or the
condition speaks of it. -/
def Frame.settled : Frame → Bool
  | .handleEvent _ _ .read => false
  | .handleEvent (.connecting _ _) _ .write => false
  | .handleEvent (.connecting _ _) mask .error => !mask.has EPOLLERR
  | _ => true

/-- A frame of `HandleEvent`. -/
def Frame.dispatches : Frame → Bool
  | .handleEvent _ _ _ => true
  | _ => false

theorem Frame.settled_of_dispatches {f : Frame} (h : f.dispatches = false) : f.settled = true := by
  cases f <;> first | rfl | exact absurd h (by simp [dispatches])

/-- A field of a dead `Handler` or `TcpConnection` was touched, by a callback or
by the `HandleEvent` that `Epoller::Loop` called on it. -/
def World.touchedDead (w : World) : Prop :=
  w.fault = some .useAfterFree ∨ w.fault = some .staleDispatch

/-- What a library function may do to the stack, to the acceptors and to the
process: push other frames, keep the acceptors, touch nothing dead. -/
structure Tame (w w' : World) : Prop where
  stack : ∃ new, w'.stack = new ++ w.stack ∧ ∀ f ∈ new, f.dispatches = false
  accepter : ∀ s, (w.servers s).accepter.isSome = true → (w'.servers s).accepter.isSome = true
  fault : ¬ w.touchedDead → ¬ w'.touchedDead

section Tame

variable {w w' w'' : World}

theorem Tame.trans (h : Tame w w') (h' : Tame w' w'') : Tame w w'' where
  stack := by
    obtain ⟨new, hst, hnew⟩ := h.stack
    obtain ⟨new', hst', hnew'⟩ := h'.stack
    refine ⟨new' ++ new, by rw [hst', hst, List.append_assoc], ?_⟩
    intro f hf
    rcases List.mem_append.mp hf with hf | hf
    · exact hnew' f hf
    · exact hnew f hf
  accepter := fun s hs => h'.accepter s (h.accepter s hs)
  fault := fun hf => h'.fault (h.fault hf)

/-- The same, read from the end of a function. -/
theorem Tame.after (h' : Tame w' w'') (h : Tame w w') : Tame w w'' := h.trans h'

/-- Changes to anything but the stack, the servers and the fault. -/
theorem Tame.of_eq (hst : w'.stack = w.stack) (hservers : w'.servers = w.servers)
    (hfault : w'.fault = w.fault) : Tame w w' :=
  ⟨⟨[], hst, by simp⟩, by simp [hservers], by simp [World.touchedDead, hfault]⟩

theorem Tame.refl (w : World) : Tame w w := .of_eq rfl rfl rfl

theorem tame_fail {f : Fault} (hf : f ≠ .useAfterFree ∧ f ≠ .staleDispatch) :
    Tame w (w.fail f) := by
  refine ⟨⟨[], rfl, by simp⟩, fun _ hs => hs, fun hfault => ?_⟩
  show ¬ (w.fault.or (some f) = _ ∨ w.fault.or (some f) = _)
  cases h : w.fault with
  | none => simpa using hf
  | some g =>
      rw [World.touchedDead, h] at hfault
      exact hfault

theorem tame_push {f : Frame} (hf : f.dispatches = false) : Tame w (w.push f) :=
  ⟨⟨[f], rfl, by simpa using hf⟩, fun _ hs => hs, id⟩

theorem tame_setServer {s : Nat} {x : TcpServer}
    (hx : (w.servers s).accepter.isSome = true → x.accepter.isSome = true) :
    Tame w (w.setServer s x) := by
  refine ⟨⟨[], rfl, by simp⟩, fun s' hs => ?_, id⟩
  by_cases hss : s' = s
  · subst hss
    simpa [World.setServer] using hx hs
  · simpa [World.setServer, hss] using hs

theorem tame_update (ptr : HandlerPtr) (h : Handler HandlerCallback) : Tame w (w.update ptr h) := by
  unfold World.update
  split
  next p hp => exact .of_eq rfl rfl rfl
  next f hf => exact tame_fail (by simp [Epoller.update_fault hf])

theorem tame_release (c : Nat) : Tame w (w.release c) := by
  unfold World.release World.destroyConn
  simp only
  split
  · exact .refl w
  · split
    · exact .of_eq rfl rfl rfl
    · exact .after (tame_fail (by simp)) (.of_eq rfl rfl rfl)

theorem tame_letGo (o : Option Nat) : Tame w (w.letGo o) := by
  cases o with
  | none => exact .refl w
  | some o => exact .after (tame_release o) (.of_eq rfl rfl rfl)

theorem tame_connOp (c : Nat) (r : TcpConnection × List SockCall) (ok : Bool) :
    Tame w (w.connOp c r ok) := by
  have hcall : ∀ (v : World) call, Tame v (World.runCall c ok v call) := by
    intro v call
    cases call with
    | write direct bytes out => exact .of_eq rfl rfl rfl
    | append bytes => exact .refl v
    | update => exact tame_update _ _
    | shutdown pending =>
        unfold World.runCall
        simp only
        split
        · exact .of_eq rfl rfl rfl
        · exact tame_fail (by simp)
  have hcalls : ∀ (calls : List SockCall) (v : World),
      Tame v (calls.foldl (World.runCall c ok) v) := by
    intro calls
    induction calls with
    | nil => exact Tame.refl
    | cons call calls ih => exact fun v => (hcall v call).trans (ih _)
  exact .after (hcalls r.2 _) (.of_eq rfl rfl rfl)

/-! ## §3. The library's functions on live objects. -/

theorem tame_send {c : Nat} (hlive : w.live c = true) (mem : Memory) (data len : SizeT)
    (out : WriteOutcome) : Tame w (w.send c mem data len out) := by
  unfold World.send
  rw [if_pos hlive]
  exact tame_connOp _ _ _

theorem tame_shutDown {c : Nat} (hlive : w.live c = true) (ok : Bool) :
    Tame w (w.shutDown c ok) := by
  unfold World.shutDown
  rw [if_pos hlive]
  exact tame_connOp _ _ _

theorem tame_start (c : Nat) : Tame w (w.start c) := by
  have hop : Tame w (w.connOp c (w.conns c).start true) := tame_connOp _ _ _
  unfold World.start
  simp only
  split
  · exact hop.trans (.after (tame_push rfl) (.of_eq rfl rfl rfl))
  · exact hop

theorem tame_runDisconnectCallback (k : Nat) : Tame w (w.runDisconnectCallback k) := by
  unfold World.runDisconnectCallback
  split
  · exact .after (tame_push rfl) (.of_eq rfl rfl rfl)
  · exact .refl w

theorem tame_connEstablish (k fd : Nat) : Tame w (w.connEstablish k fd) := by
  unfold World.connEstablish
  have hstore : Tame w (w.storeClientConn k fd) := .of_eq rfl rfl rfl
  exact (hstore.trans (tame_letGo _)).trans (tame_start _)

theorem tame_onNewConnect (s fd : Nat) (addr : InetAdress) :
    Tame w (w.onNewConnect s fd addr) := by
  unfold World.onNewConnect World.storeServerConn
  have hnew : ∀ name owner a b, Tame w (w.newConn name fd addr owner a b) :=
    fun _ _ _ _ => .of_eq rfl rfl rfl
  refine ((Tame.trans (hnew _ _ _ _) (tame_setServer ?_)).trans (tame_letGo _)).trans (tame_start _)
  exact id

theorem tame_connecting (k fd : Nat) : Tame w (w.connecting k fd) := by
  unfold World.connecting
  refine .after (tame_update _ _) ?_
  cases (w.clients k).connHandler <;> exact .of_eq rfl rfl rfl

theorem tame_dropConnHandler (k n : Nat) (g : Handler HandlerCallback) :
    Tame w (w.dropConnHandler k n g) := by
  unfold World.dropConnHandler
  exact Tame.trans (tame_update _ _) (.of_eq rfl rfl rfl)

theorem tame_clientHandleError (k : Nat) : Tame w (w.clientHandleError k) := by
  unfold World.clientHandleError
  split
  · split
    · exact tame_fail (by simp)
    · next n g _ =>
      have hclose : Tame (w.dropConnHandler k n g) ((w.dropConnHandler k n g).closeFd g.fd) :=
        .of_eq rfl rfl rfl
      exact ((tame_dropConnHandler k n g).trans hclose).trans (tame_runDisconnectCallback k)
  · exact .refl w

theorem tame_clientHandleWrite (k err : Nat) : Tame w (w.clientHandleWrite k err) := by
  unfold World.clientHandleWrite
  split
  · split
    · exact tame_fail (by simp)
    · next n g _ =>
      simp only
      split
      · exact (tame_dropConnHandler k n g).trans (tame_runDisconnectCallback k)
      · exact (tame_dropConnHandler k n g).trans (tame_connEstablish k g.fd)
  · exact .refl w

theorem tame_removeConn (s c : Nat) : Tame w (w.removeConn s c) := by
  unfold World.removeConn
  simp only
  split
  · exact .after (tame_release c) (tame_setServer id)
  · exact .after (tame_letGo _) (tame_setServer id)

theorem tame_handleClose (k c : Nat) : Tame w (w.handleClose k c) := by
  unfold World.handleClose
  simp only
  split
  · exact .after (tame_runDisconnectCallback k) (.after (tame_release c) (.of_eq rfl rfl rfl))
  · exact tame_fail (by simp)

theorem tame_close {c : Nat} (hlive : w.live c = true) : Tame w (w.close c) := by
  have hstart : Tame w (w.closeStart c) :=
    .after (tame_connOp _ _ _) (.of_eq rfl rfl rfl)
  unfold World.close
  rw [if_pos hlive]
  simp only
  split
  · exact hstart.trans (.of_eq rfl rfl rfl)
  · next callback _ =>
    have hpush : Tame (w.closeStart c)
        (((w.closeStart c).push (.closing c)).emit (.closeCallback c)) :=
      Tame.trans (tame_push (f := .closing c) rfl) (.of_eq rfl rfl rfl)
    refine (hstart.trans hpush).trans ?_
    cases callback with
    | removeConn s => exact tame_removeConn s c
    | handleClose k => exact tame_handleClose k c

theorem tame_tcpHandleRead {c : Nat} (hlive : w.live c = true) (r : ReadOutcome) :
    Tame w (w.tcpHandleRead c r) := by
  unfold World.tcpHandleRead
  rw [if_pos hlive]
  cases r with
  | failed errno => exact .refl w
  | eof => exact tame_close hlive
  | data bytes =>
      simp only
      split
      · exact .after (tame_push rfl) (.of_eq rfl rfl rfl)
      · exact .after (tame_fail (by simp)) (.of_eq rfl rfl rfl)

theorem tame_tcpHandleWrite {c : Nat} (hlive : w.live c = true) (out : WriteOutcome) (ok : Bool) :
    Tame w (w.tcpHandleWrite c out ok) := by
  unfold World.tcpHandleWrite
  rw [if_pos hlive]
  exact tame_connOp _ _ _

theorem tame_acceptorHandleRead (s : Nat) (accept : AcceptOutcome) :
    Tame w (w.acceptorHandleRead s accept) := by
  unfold World.acceptorHandleRead
  split
  next fd addr =>
    exact .after (tame_onNewConnect s _ _) (.of_eq rfl rfl rfl)
  next => exact .refl w

theorem tame_connect (k : Nat) (ip : Text) (port : BitVec 16) (sock : Option Nat)
    (outcome : ConnectOutcome) : Tame w (w.connect k ip port sock outcome) := by
  unfold World.connect
  split
  · exact .refl w
  · split
    · exact .of_eq rfl rfl rfl
    · next fd =>
      have hdial : Tame w (w.dial k ip port fd) := .of_eq rfl rfl rfl
      simp only
      split
      · exact hdial.trans (tame_connEstablish k fd)
      · split
        · exact hdial.trans (tame_connecting k fd)
        · exact .of_eq rfl rfl rfl

end Tame

/-! ## §4. The invariant. -/

/-- Only the innermost frame can touch a handler the condition does not speak
of, and that handler is alive. -/
structure Safe (w : World) : Prop where
  tail : ∀ f rest, w.stack = f :: rest → ∀ g ∈ rest, g.settled = true
  head : ∀ f rest, w.stack = f :: rest → f.settled = true ∨
    ∃ ptr mask stage, f = .handleEvent ptr mask stage ∧ w.handler? ptr ≠ none
  acceptors : ∀ s mask stage, .handleEvent (.acceptor s) mask stage ∈ w.stack →
    (w.servers s).accepter.isSome = true
  fault : ¬ w.touchedDead

/-- The worlds in which no frame is in danger. -/
structure Calm (w : World) : Prop where
  frames : ∀ f ∈ w.stack, f.settled = true
  acceptors : ∀ s mask stage, .handleEvent (.acceptor s) mask stage ∈ w.stack →
    (w.servers s).accepter.isSome = true
  fault : ¬ w.touchedDead

section Safe

variable {w w' : World}

theorem Calm.safe (h : Calm w) : Safe w where
  tail := fun f rest hst g hg => h.frames g (by rw [hst]; exact List.mem_cons_of_mem f hg)
  head := fun f rest hst => Or.inl (h.frames f (by rw [hst]; exact List.mem_cons_self))
  acceptors := h.acceptors
  fault := h.fault

/-- Library functions run over frames that are in no danger. -/
theorem Calm.tame (h : Calm w) (ht : Tame w w') : Calm w' := by
  obtain ⟨new, hst, hnew⟩ := ht.stack
  refine ⟨fun f hf => ?_, fun s mask stage hf => ?_, ht.fault h.fault⟩
  · rw [hst] at hf
    rcases List.mem_append.mp hf with hf | hf
    · exact Frame.settled_of_dispatches (hnew f hf)
    · exact h.frames f hf
  · rw [hst] at hf
    rcases List.mem_append.mp hf with hf | hf
    · exact absurd (hnew _ hf) (by simp [Frame.dispatches])
    · exact ht.accepter s (h.acceptors s mask stage hf)

theorem Calm.runs (h : Calm w) (ht : Tame w w') : Safe w' := (h.tame ht).safe

/-- With the innermost frame gone, the others are in no danger. -/
theorem Safe.pop (h : Safe w) {f : Frame} {rest : List Frame} (hst : w.stack = f :: rest) :
    Calm { w with stack := rest } where
  frames := h.tail f rest hst
  acceptors := fun s mask stage hf =>
    h.acceptors s mask stage (by rw [hst]; exact List.mem_cons_of_mem f hf)
  fault := h.fault

/-- With a settled frame on top, neither is that one. -/
theorem Safe.calm (h : Safe w) (hturn : w.userTurn = true) : Calm w := by
  refine ⟨fun f hf => ?_, h.acceptors, h.fault⟩
  unfold World.userTurn at hturn
  split at hturn
  next hst => exact absurd hf (by simp [hst])
  next callback rest hst =>
    rw [hst] at hf
    rcases List.mem_cons.mp hf with rfl | hm
    · rfl
    · exact h.tail _ _ hst f hm
  next batch rest hst =>
    rw [hst] at hf
    rcases List.mem_cons.mp hf with rfl | hm
    · rfl
    · exact h.tail _ _ hst f hm
  next => exact absurd hturn (by simp)

/-- A frame that is not settled belongs to a handler that is alive. -/
theorem Safe.alive_of_unsettled (h : Safe w) {ptr : HandlerPtr} {mask : EventMask} {stage : Stage}
    {rest : List Frame} (hst : w.stack = .handleEvent ptr mask stage :: rest)
    (hf : (Frame.handleEvent ptr mask stage).settled = false) : w.handler? ptr ≠ none := by
  rcases h.head _ _ hst with hs | ⟨ptr', _, _, heq, halive⟩
  · exact absurd (hf.symm.trans hs) (by simp)
  · obtain ⟨rfl, _, _⟩ := Frame.handleEvent.inj heq
    exact halive

/-- The acceptors of the frames below stay where they are. -/
theorem Safe.acceptors_advance (h : Safe w) {ptr : HandlerPtr} {mask : EventMask} {old : Stage}
    {rest : List Frame} (hst : w.stack = .handleEvent ptr mask old :: rest) (stage : Stage)
    {s : Nat} {mask' : EventMask} {stage' : Stage}
    (hm : .handleEvent (.acceptor s) mask' stage' ∈ Frame.handleEvent ptr mask stage :: rest) :
    (w.servers s).accepter.isSome = true := by
  rcases List.mem_cons.mp hm with heq | hm
  · obtain ⟨rfl, rfl, rfl⟩ := Frame.handleEvent.inj heq
    exact h.acceptors s _ old (by rw [hst]; exact List.mem_cons_self)
  · exact h.acceptors s mask' stage' (by rw [hst]; exact List.mem_cons_of_mem _ hm)

/-- A dispatch goes on to its next test. -/
theorem Safe.advance (h : Safe w) {ptr : HandlerPtr} {mask : EventMask} {old : Stage}
    {rest : List Frame} (hst : w.stack = .handleEvent ptr mask old :: rest) (stage : Stage)
    (hf : (Frame.handleEvent ptr mask stage).settled = true) :
    Calm { w with stack := .handleEvent ptr mask stage :: rest } where
  frames := by
    intro f hm
    rcases List.mem_cons.mp hm with rfl | hm
    · exact hf
    · exact h.tail _ _ hst f hm
  acceptors := fun _ _ _ => h.acceptors_advance hst stage
  fault := h.fault

/-- The same for a handler that is known to be alive. -/
theorem Safe.advance_alive (h : Safe w) {ptr : HandlerPtr} {mask : EventMask} {old : Stage}
    {rest : List Frame} (hst : w.stack = .handleEvent ptr mask old :: rest) (stage : Stage)
    (halive : w.handler? ptr ≠ none) :
    Safe { w with stack := .handleEvent ptr mask stage :: rest } where
  tail := by
    intro f rest' heq g hg
    obtain ⟨_, rfl⟩ := List.cons.inj heq
    exact h.tail _ _ hst g hg
  head := by
    intro f rest' heq
    obtain ⟨rfl, rfl⟩ := List.cons.inj heq
    refine Or.inr ⟨ptr, mask, stage, rfl, ?_⟩
    rw [World.handler?_setStack (World.holds_advance hst stage)]
    exact halive
  acceptors := fun _ _ _ => h.acceptors_advance hst stage
  fault := h.fault

/-- At a write or error test of a connection the condition keeps it alive. -/
theorem live_of_dispatched (hw : Coherent w) {c : Nat} {mask : EventMask} {stage : Stage}
    {rest : List Frame} (hst : w.stack = .handleEvent (.conn c) mask stage :: rest)
    (hheld : w.unslotted c → w.heldElsewhere c) : w.live c = true := by
  have hc : c < w.connCount :=
    hw.stack (.handleEvent (.conn c) mask stage) (by rw [hst]; exact List.mem_cons_self) c
      (by simp [Frame.mentions])
  rw [hw.live_iff]
  rcases hw.accounted c hc with hown | hgone
  · exact Or.inl (hw.ownerHolds_iff.mp hown)
  · exact Or.inr (hheld hgone)

/-! ## §5. One step. -/

theorem Safe.readTest (h : Safe w) (hw : Coherent w) {env : Env} {ptr : HandlerPtr}
    {mask : EventMask} {rest : List Frame} (hst : w.stack = .handleEvent ptr mask .read :: rest) :
    Safe ({ w with stack := .handleEvent ptr mask .write :: rest }.testEvent env ptr mask
      World.readBits Handler.readCallback) := by
  have hw₁ := hw.advance hst .write
  -- the frame was not settled, so its handler is alive
  have halive : w.handler? ptr ≠ none := h.alive_of_unsettled hst rfl
  have hsafe := h.advance_alive hst .write halive
  have hptr₁ : World.handler? { w with stack := .handleEvent ptr mask .write :: rest } ptr
      = w.handler? ptr :=
    congrFun (World.handler?_setStack (World.holds_advance hst .write)) ptr
  rcases hw₁.read_cases env ptr mask rfl with
    ⟨_, heq⟩ | ⟨_, hptr, _⟩ | ⟨c, hc, _, hlive, heq⟩ | ⟨s, hs, _, _, heq⟩
  · rw [heq]
    exact hsafe
  · -- this is the branch that would touch a dead handler
    exact absurd (hptr₁.symm.trans hptr) halive
  · rw [heq]
    subst hc
    exact ((h.advance hst .write rfl).tame (tame_tcpHandleRead hlive _)).safe
  · rw [heq]
    subst hs
    exact ((h.advance hst .write rfl).tame (tame_acceptorHandleRead s _)).safe

theorem Safe.writeTest (h : Safe w) (hw : Coherent w) {env : Env} {ptr : HandlerPtr}
    {mask : EventMask} {rest : List Frame} (hst : w.stack = .handleEvent ptr mask .write :: rest)
    (htouch : TouchesLive w (.resume env)) :
    Safe ({ w with stack := .handleEvent ptr mask .error :: rest }.testEvent env ptr mask
      EPOLLOUT Handler.writeCallback) := by
  have hw₁ := hw.advance hst .error
  have hptr₁ : World.handler? { w with stack := .handleEvent ptr mask .error :: rest } ptr
      = w.handler? ptr :=
    congrFun (World.handler?_setStack (World.holds_advance hst .error)) ptr
  cases ptr with
  | conn c =>
      have hcalm := h.advance hst .error
        (show Frame.settled (.handleEvent (.conn c) mask .error) = true from rfl)
      rcases hw₁.write_cases env (.conn c) mask rfl with
        ⟨_, heq⟩ | ⟨hbits, hptr, _⟩ | ⟨d, hd, _, hlive, heq⟩ | ⟨_, _, _, hk, _⟩
      · rw [heq]
        exact hcalm.safe
      · -- the condition: a connection that is gone is held when its bit is set
        have hlive : w.live c = true := by
          refine live_of_dispatched hw hst fun hgone => ?_
          simp only [TouchesLive, hst] at htouch
          exact htouch hbits hgone
        rw [hptr₁, World.handler?, if_pos hlive] at hptr
        exact absurd hptr (by simp)
      · obtain rfl := HandlerPtr.conn.inj hd
        rw [heq]
        exact (hcalm.tame (tame_tcpHandleWrite hlive _ _)).safe
      · exact absurd hk (by simp)
  | connecting k n =>
      have halive : w.handler? (.connecting k n) ≠ none := h.alive_of_unsettled hst rfl
      have hsafe := h.advance_alive hst .error halive
      rcases hw₁.write_cases env (.connecting k n) mask rfl with
        ⟨_, heq⟩ | ⟨_, hptr, _⟩ | ⟨d, hd, _⟩ | ⟨k', n', g, hk, hbits, _, heq⟩
      · rw [heq]
        exact hsafe
      · exact absurd (hptr₁.symm.trans hptr) halive
      · exact absurd hd (by simp)
      · obtain ⟨rfl, rfl⟩ := HandlerPtr.connecting.inj hk
        rw [heq]
        -- `HandleWrite` tests the state before it drops the handler
        by_cases hstate : (w.clients k).state = .connecting
        · -- the handler is reset, but no error test will look at it
          have hnoerr : mask.has EPOLLERR = false := by
            simp only [TouchesLive, hst] at htouch
            rw [Bool.eq_false_iff]
            exact fun herr => htouch ⟨hbits, herr, hstate⟩
          have hsettled : (Frame.handleEvent (.connecting k n) mask .error).settled = true := by
            simp [Frame.settled, hnoerr]
          exact ((h.advance hst .error hsettled).tame (tame_clientHandleWrite k _)).safe
        · have hnothing : World.clientHandleWrite
              { w with stack := .handleEvent (.connecting k n) mask .error :: rest } k env.soError
              = { w with stack := .handleEvent (.connecting k n) mask .error :: rest } := by
            unfold World.clientHandleWrite
            exact if_neg hstate
          rw [hnothing]
          exact hsafe
  | acceptor s =>
      have hcalm := h.advance hst .error
        (show Frame.settled (.handleEvent (.acceptor s) mask .error) = true from rfl)
      rcases hw₁.write_cases env (.acceptor s) mask rfl with
        ⟨_, heq⟩ | ⟨_, hptr, _⟩ | ⟨_, hd, _⟩ | ⟨_, _, _, hk, _⟩
      · rw [heq]
        exact hcalm.safe
      · -- an acceptor outlives every dispatch
        have hacc := h.acceptors s mask .write (by rw [hst]; exact List.mem_cons_self)
        rw [hptr₁] at hptr
        exact absurd (hptr ▸ hacc : (none : Option (Handler HandlerCallback)).isSome = true)
          (by simp)
      · exact absurd hd (by simp)
      · exact absurd hk (by simp)

theorem Safe.errorTest (h : Safe w) (hw : Coherent w) {env : Env} {ptr : HandlerPtr}
    {mask : EventMask} {rest : List Frame} (hst : w.stack = .handleEvent ptr mask .error :: rest)
    (htouch : TouchesLive w (.resume env)) :
    Safe ({ w with stack := rest }.testEvent env ptr mask EPOLLERR Handler.errorCallback) := by
  have hw₁ := hw.pop hst
  have hcalm := h.pop hst
  have hptr₁ : World.handler? { w with stack := rest } ptr = w.handler? ptr :=
    congrFun (World.handler?_setStack fun c => by rw [hst]; rfl) ptr
  rcases hw₁.error_cases env ptr mask rfl with
    ⟨_, heq⟩ | ⟨hbits, hptr, _⟩ | ⟨k, n, g, _, _, _, heq⟩
  · rw [heq]
    exact hcalm.safe
  · rw [hptr₁] at hptr
    refine absurd hptr ?_
    cases ptr with
    | conn c =>
        -- as for the write test
        have hlive : w.live c = true := by
          refine live_of_dispatched hw hst fun hgone => ?_
          simp only [TouchesLive, hst] at htouch
          exact htouch hbits hgone
        rw [World.handler?, if_pos hlive]
        simp
    | connecting k n =>
        -- with the bit set the frame was not settled
        exact h.alive_of_unsettled hst (by simp [Frame.settled, hbits])
    | acceptor s =>
        have hacc := h.acceptors s mask .error (by rw [hst]; exact List.mem_cons_self)
        intro hnone
        rw [show (w.servers s).accepter = none from hnone] at hacc
        exact absurd hacc (by simp)
  · rw [heq]
    exact (hcalm.tame (tame_clientHandleError k)).safe

theorem Safe.finishClose (h : Safe w) {c : Nat} {rest : List Frame}
    (hst : w.stack = .closing c :: rest)
    (hheld : World.heldElsewhere { w with stack := rest } c) :
    Safe ({ w with stack := rest }.finishClose c) := by
  have hlive := World.live_of_heldElsewhere hheld
  have hrel : World.release { w with stack := rest } c = { w with stack := rest } :=
    if_pos hlive
  unfold World.finishClose
  simp only [hrel, hlive, if_true]
  exact (h.pop hst).runs (.of_eq rfl rfl rfl)

/-- **One step** that meets the condition touches nothing dead. -/
theorem Safe.next (h : Safe w) (hw : Coherent w) {l : Label} (htouch : TouchesLive w l)
    (hnext : w.next l = some w') : Safe w' := by
  -- the application never runs in the middle of a dispatch's own code
  have hcalm : ∀ call, l = .user call → Calm w := by
    rintro call rfl
    exact h.calm (World.userTurn_of_next hnext)
  obtain ⟨_, hturn⟩ := World.next_turn hnext
  cases hturn with
  | poll hst =>
      have hempty : Calm w := by
        refine ⟨fun f hf => ?_, h.acceptors, h.fault⟩
        rw [hst] at hf
        exact absurd hf (by simp)
      exact (hempty.tame (tame_push rfl)).safe
  | loopEnd hst => exact (h.pop hst).safe
  | loopStale hst hptr =>
      -- the condition: the handler of the next event is alive
      simp [TouchesLive, hst, hptr] at htouch
  | @loopNext env ptr mask batch rest g hst hptr =>
      have hpop := h.pop hst
      -- the new frame is on top, so it may still need its handler
      refine ⟨fun f rest' heq f' hf' => ?_, fun f rest' heq => ?_, fun s mask' stage hf => ?_,
        h.fault⟩
      · obtain ⟨_, rfl⟩ := List.cons.inj heq
        rcases List.mem_cons.mp hf' with rfl | hm
        · rfl
        · exact hpop.frames f' hm
      · obtain ⟨rfl, rfl⟩ := List.cons.inj heq
        refine Or.inr ⟨ptr, mask, .read, rfl, ?_⟩
        rw [World.handler?_setStack fun c => by rw [hst]; rfl, hptr]
        simp
      · rcases List.mem_cons.mp hf with heq | hm
        · obtain ⟨rfl, _, _⟩ := Frame.handleEvent.inj heq
          show (w.servers s).accepter.isSome = true
          rw [show (w.servers s).accepter = some g from hptr]
          rfl
        rcases List.mem_cons.mp hm with heq | hm
        · exact absurd heq (by simp)
        · exact hpop.acceptors s mask' stage hm
  | readTest hst hadm => exact h.readTest hw hst
  | writeTest hst hadm => exact h.writeTest hw hst htouch
  | errorTest hst => exact h.errorTest hw hst htouch
  | finishClose hst =>
      simp only [TouchesLive, hst] at htouch
      exact h.finishClose hst htouch
  | connect hsock => exact (hcalm _ rfl).runs (tame_connect _ _ _ _ _)
  | @disconnect k ok =>
      refine (hcalm _ rfl).runs ?_
      unfold World.disconnect
      simp only
      split
      · exact .after (tame_fail (by simp)) (.of_eq rfl rfl rfl)
      · next c hc =>
        -- `_conn` is a slot, and what a slot holds is live
        have hset : Coherent (w.setClient k { w.clients k with state := .disConnected }) :=
          hw.setClient rfl fun _ _ => Or.inl
        have hlive := hset.live_of_slot (σ := .client k) hc
        exact .after (tame_shutDown hlive ok) (.of_eq rfl rfl rfl)
  | @clientSend k mem data len out hout =>
      refine (hcalm _ rfl).runs ?_
      unfold World.clientSend
      split
      · exact .refl w
      · next c hc => exact tame_send (hw.live_of_slot (σ := .client k) hc) _ _ _ _
  | setConnectionCallback => exact (hcalm _ rfl).runs (.of_eq rfl rfl rfl)
  | setMessageCallback => exact (hcalm _ rfl).runs (.of_eq rfl rfl rfl)
  | setDisconnectCallback => exact (hcalm _ rfl).runs (.of_eq rfl rfl rfl)
  | @serverStart s fd hacc hfd =>
      refine (hcalm _ rfl).runs ?_
      unfold World.serverStart
      exact .after (tame_update _ _) (.after (tame_setServer (fun _ => rfl)) (.of_eq rfl rfl rfl))
  | serverSetConnCallback => exact (hcalm _ rfl).runs (tame_setServer id)
  | serverSetMessageCallback => exact (hcalm _ rfl).runs (tame_setServer id)
  | send hacc hout =>
      exact (hcalm _ rfl).runs (tame_send (Coherent.live_of_accessible hacc) _ _ _ _)
  | shutDown hacc =>
      exact (hcalm _ rfl).runs (tame_shutDown (Coherent.live_of_accessible hacc) _)
  | close hacc => exact (hcalm _ rfl).runs (tame_close (Coherent.live_of_accessible hacc))
  | retrieve hacc => exact (hcalm _ rfl).runs (.of_eq rfl rfl rfl)
  | retrieveAll hacc => exact (hcalm _ rfl).runs (.of_eq rfl rfl rfl)
  | keep hacc => exact (hcalm _ rfl).runs (.of_eq rfl rfl rfl)
  | drop hkept => exact (hcalm _ rfl).runs (.after (tame_release _) (.of_eq rfl rfl rfl))
  | retConnection hst => exact (h.pop hst).runs (tame_release _)
  | retMessage hst => exact (h.pop hst).runs (tame_release _)
  | retDisconnect hst => exact (h.pop hst).safe

end Safe

/-! ## §6. Whole runs. -/

theorem safe_init : Safe World.init :=
  Calm.safe ⟨fun f hf => absurd hf (by simp [World.init]),
    fun s mask stage hf => absurd hf (by simp [World.init]),
    by simp [World.touchedDead, World.init]⟩

/-- **When no object is touched after its last owner let go.**  In every run in
which the connection still has an owner whenever `Close` returns from its close
callback, a closed or displaced connection has one whenever the write or the
error test of its dispatch finds its bit set, no connecting handler is
dispatched with both EPOLLOUT and EPOLLERR while its client is CONNECTING, and
the handler of the next event of a batch is alive whenever `Epoller::Loop` comes
to it: no field of a dead `Handler` or `TcpConnection` is ever read or written,
neither inside a dispatch nor by a dispatch of the handler. -/
theorem no_use_after_free (labels : List Label)
    (htouch : Along World.next TouchesLive World.init labels) :
    Always World.next (fun w => w.fault ≠ some .useAfterFree ∧ w.fault ≠ some .staleDispatch)
      World.init labels :=
  always_of_along (I := fun w => Coherent w ∧ Safe w) (fun _ h => not_or.mp h.2.fault)
    (fun _ _ _ h hC hnext => ⟨h.1.next hnext, h.2.next h.1 hC hnext⟩)
    ⟨coherent_init, safe_init⟩ htouch

/-- The theorem on a connection that is closed by its peer while the application
keeps a copy of its pointer. -/
theorem no_use_after_free_on_run :
    (exec World.next World.init
        [.user (.setConnectionCallback 0 true), .user (.connect 0 [] 80 (some 5) .ok),
         .user (.keep 0), .ret, .poll [(5, EPOLLIN)], .resume .idle,
         .resume { Env.idle with read := .eof }, .resume .idle]).isSome = true
      ∧ Always World.next
        (fun w => w.fault ≠ some .useAfterFree ∧ w.fault ≠ some .staleDispatch) World.init
        [.user (.setConnectionCallback 0 true), .user (.connect 0 [] 80 (some 5) .ok),
         .user (.keep 0), .ret, .poll [(5, EPOLLIN)], .resume .idle,
         .resume { Env.idle with read := .eof }, .resume .idle] :=
  ⟨by decide +kernel, no_use_after_free _ (by decide +kernel)⟩

/-- **A peer closes a server's connection.**  `RemoveConn` drops the last owner,
the temporary of the close callback's argument dies, and `Close` writes `_state`. -/
theorem peer_close_touches_dead_connection :
    (exec World.next World.init
        [.user (.serverStart 0 3), .poll [(3, EPOLLIN)], .resume .idle,
         .resume { Env.idle with accept := .conn 5 ⟨2, 0, INADDR_ANY⟩ },
         .resume .idle, .resume .idle, .resume .idle,
         .poll [(5, EPOLLIN)], .resume .idle, .resume { Env.idle with read := .eof },
         .resume .idle]).map World.fault
      = some (some .useAfterFree) := by
  decide +kernel

end SparkNet
