/-
  SparkNet.Dialling — which addresses a client dials.

  `Connect` writes its arguments into `_addr` and dials `_addr._addr`.  It does not
  look at what `FromIpPort` returns, as `Acceptor::Start` does: when the text is
  refused the port is new and the address is that of an earlier call.

  Main results:
    * `dials_next`, `dials_connect` — only `Connect` calls `connect()`, once, and
      only in the state DIS_CONNECTED;
    * `dials_requested_iff` — in a run every address dialled is the one asked for
      exactly when no malformed text reaches `connect()`.
-/
import SparkNet.AddressForms
import SparkNet.ClientState

namespace SparkNet

open Runs

/-! ## §1. What is asked and what is dialled. -/

def Event.dial? : Event → Option (Nat × SockaddrIn)
  | .dialled k addr => some (k, addr)
  | _ => none

/-- The IPv4 address a text denotes; the empty text stands for any address. -/
def denotes (ip : Text) : Option InAddr := if ip = [] then some INADDR_ANY else inetPton ip

namespace World

/-- The calls of `connect()`, newest first. -/
def dials (w : World) : List (Nat × SockaddrIn) := w.log.filterMap Event.dial?

/-- What `TCPClient::Connect` returns. -/
def connectReturn (w : World) (k : Nat) (sock : Option Nat) (outcome : ConnectOutcome) : Bool :=
  if (w.clients k).state ≠ .disConnected then true
  else
    match sock with
    | none => false
    | some _ =>
        match outcome with
        | .ok => true
        | .failed errno => decide (errno = .EINPROGRESS ∨ errno = .EINTR ∨ errno = .EISCONN)

/-- A step dials nothing but what a `Connect` asks for, and a malformed text is
refused. -/
def Requested (w : World) (l : Label) (w' : World) : Prop :=
  match l with
  | .user (.connect k ip port sock outcome) =>
      (w'.dials = w.dials
        ∨ ∃ i, denotes ip = some i ∧ w'.dials = (k, ⟨AF_INET, htons port, i⟩) :: w.dials)
      ∧ ((w.clients k).state = .disConnected → denotes ip = none →
          w.connectReturn k sock outcome = false ∧ w'.dials = w.dials)
  | _ => w'.dials = w.dials

def DialsRequested (w : World) (l : Label) : Prop :=
  ∀ w', w.next l = some w' → w.Requested l w'

/-- No malformed text meets a client that may dial and a socket to dial with. -/
def WellAddressed (w : World) : Label → Prop
  | .user (.connect k ip _ sock _) =>
      ¬ ((w.clients k).state = .disConnected ∧ denotes ip = none ∧ sock.isSome = true)
  | _ => True

/-! ## §2. Who calls `connect()`. -/

variable {w w' : World}

theorem dials_eq_story (w : World) : w.dials = w.story.filterMap Event.dial? := by
  unfold dials story
  rw [List.filterMap_filter]
  congr 1
  funext e
  cases e <;> rfl

theorem Quiet.dials (hq : Quiet w w') : w'.dials = w.dials := by
  rw [dials_eq_story, dials_eq_story, hq.story]

theorem dials_emit {e : Event} (he : e.dial? = none) : (w.emit e).dials = w.dials := by
  show (e :: w.log).filterMap Event.dial? = _
  rw [List.filterMap_cons_none he]
  rfl

theorem dials_letGo (o : Option Nat) : (w.letGo o).dials = w.dials := by
  rw [(quiet_letGo w o).dials]
  cases o with
  | none => rfl
  | some o => exact dials_emit rfl

theorem dials_start (c : Nat) : (w.start c).dials = w.dials := by
  have hop := (quiet_connOp w true (TcpConnection.parts_start (w.conns c))).dials
  unfold start
  simp only
  split
  · exact (dials_emit rfl).trans hop
  · exact hop

theorem dials_runDisconnectCallback (k : Nat) :
    (w.runDisconnectCallback k).dials = w.dials := by
  unfold runDisconnectCallback
  split
  · exact dials_emit rfl
  · rfl

theorem dials_connEstablish (k fd : Nat) : (w.connEstablish k fd).dials = w.dials := by
  unfold connEstablish
  rw [dials_start, dials_letGo]
  rfl

theorem dials_onNewConnect (s fd : Nat) (addr : InetAdress) :
    (w.onNewConnect s fd addr).dials = w.dials := by
  unfold onNewConnect
  rw [dials_start, dials_letGo]
  rfl

theorem dials_connecting (k fd : Nat) : (w.connecting k fd).dials = w.dials := by
  rw [dials_eq_story, dials_eq_story, story_connecting]

theorem dials_dropConnHandler (k n : Nat) (g : Handler HandlerCallback) :
    (w.dropConnHandler k n g).dials = w.dials := by
  rw [dials_eq_story, dials_eq_story, story_dropConnHandler]

theorem dials_clientHandleError (k : Nat) : (w.clientHandleError k).dials = w.dials := by
  unfold clientHandleError
  split
  · split
    · exact (quiet_fail w _).dials
    · rw [dials_runDisconnectCallback, (quiet_closeFd _ _).dials, dials_dropConnHandler]
  · rfl

theorem dials_clientHandleWrite (k err : Nat) : (w.clientHandleWrite k err).dials = w.dials := by
  unfold clientHandleWrite
  split
  · split
    · exact (quiet_fail w _).dials
    · simp only
      split
      · rw [dials_runDisconnectCallback, dials_dropConnHandler]
      · rw [dials_connEstablish, dials_dropConnHandler]
  · rfl

theorem dials_removeConn (s c : Nat) : (w.removeConn s c).dials = w.dials := by
  unfold removeConn
  simp only
  split
  · exact (quiet_release _ c).dials
  · exact dials_letGo _

theorem dials_handleClose (k c : Nat) : (w.handleClose k c).dials = w.dials := by
  unfold handleClose
  simp only
  split
  · rw [dials_runDisconnectCallback, (quiet_release _ c).dials]
    rfl
  · exact (quiet_fail w _).dials

theorem dials_close (c : Nat) : (w.close c).dials = w.dials := by
  have hstart : (w.closeStart c).dials = w.dials :=
    (quiet_closeStart w c).dials.trans (dials_emit rfl)
  unfold close
  split
  · simp only
    split
    · exact hstart
    · have hcall : (((w.closeStart c).push (.closing c)).emit (.closeCallback c)).dials
          = (w.closeStart c).dials := dials_emit rfl
      unfold runCloseCallback
      simp only
      split
      · rw [dials_removeConn, hcall, hstart]
      · rw [dials_handleClose, hcall, hstart]
  · exact (quiet_fail w _).dials

theorem dials_tcpHandleRead (c : Nat) (r : ReadOutcome) :
    (w.tcpHandleRead c r).dials = w.dials := by
  unfold tcpHandleRead
  split
  · cases r with
    | failed errno => rfl
    | eof => exact dials_close c
    | data bytes =>
        simp only
        split
        · exact dials_emit rfl
        · exact (quiet_fail _ _).dials
  · exact (quiet_fail w _).dials

theorem dials_finishClose (c : Nat) : (w.finishClose c).dials = w.dials :=
  (quiet_finishClose w c).dials.trans (quiet_release w c).dials

theorem dials_runCallback (env : Env) (callback : HandlerCallback) :
    (w.runCallback env callback).dials = w.dials := by
  cases callback with
  | tcpHandleRead c => exact dials_tcpHandleRead c _
  | tcpHandleWrite c => exact (quiet_tcpHandleWrite w c _ _).dials
  | clientHandleWrite k => exact dials_clientHandleWrite k _
  | clientHandleError k => exact dials_clientHandleError k
  | acceptorHandleRead s =>
      show (w.acceptorHandleRead s env.accept).dials = _
      unfold acceptorHandleRead
      split
      · exact dials_onNewConnect s _ _
      · rfl

theorem dials_testEvent (env : Env) (ptr : HandlerPtr) (mask bits : EventMask)
    (field : Handler HandlerCallback → Option HandlerCallback) :
    (w.testEvent env ptr mask bits field).dials = w.dials := by
  unfold testEvent
  split
  · split
    · exact (quiet_fail w _).dials
    · split
      · rfl
      · exact dials_runCallback env _
  · rfl

theorem dials_disconnect (k : Nat) (ok : Bool) : (w.disconnect k ok).dials = w.dials := by
  unfold disconnect
  simp only
  split
  · exact (quiet_fail _ _).dials
  · exact (quiet_shutDown _ _ _).dials

/-- **`Connect`** dials in the state DIS_CONNECTED, when it has a socket. -/
theorem dials_connect (k : Nat) (ip : Text) (port : BitVec 16) (sock : Option Nat)
    (outcome : ConnectOutcome) : (w.connect k ip port sock outcome).dials =
      if (w.clients k).state = .disConnected ∧ sock.isSome = true then
        (k, ((w.clients k).addr.fromIpPort ip port).2.addr) :: w.dials
      else w.dials := by
  unfold connect
  by_cases hst : (w.clients k).state = .disConnected
  · cases sock with
    | none => simp [hst, storeAddr, dials, setClient]
    | some fd =>
        have hdial : (w.dial k ip port fd).dials
            = (k, ((w.clients k).addr.fromIpPort ip port).2.addr) :: w.dials := rfl
        simp only [hst, ne_eq, not_true_eq_false, if_false, Option.isSome_some, and_self, if_true]
        -- connected, under way, or failed: the call has been made
        split
        · rw [dials_connEstablish, hdial]
        · split
          · rw [dials_connecting, hdial]
          · exact (quiet_closeFd _ fd).dials.trans hdial
  · simp [hst]

/-- **Only `Connect` calls `connect()`.** -/
theorem dials_next {l : Label} (hnext : w.next l = some w')
    (hl : ∀ k ip port sock outcome, l ≠ .user (.connect k ip port sock outcome)) :
    w'.dials = w.dials := by
  obtain ⟨_, hturn⟩ := World.next_turn hnext
  cases hturn with
  | poll hst => rfl
  | loopEnd hst => rfl
  | loopStale hst hptr => exact (quiet_fail w _).dials
  | loopNext hst hptr => rfl
  | readTest hst hadm => exact dials_testEvent _ _ _ _ _
  | writeTest hst hadm => exact dials_testEvent _ _ _ _ _
  | errorTest hst => exact dials_testEvent _ _ _ _ _
  | finishClose hst => exact dials_finishClose _
  | @connect k ip port sock outcome hsock => exact absurd rfl (hl k ip port sock outcome)
  | disconnect => exact dials_disconnect _ _
  | clientSend hout => exact (quiet_clientSend w _ _ _ _ _).dials
  | setConnectionCallback => rfl
  | setMessageCallback => rfl
  | setDisconnectCallback => rfl
  | serverStart hacc hfd => exact (quiet_update _ _ _).dials
  | serverSetConnCallback => rfl
  | serverSetMessageCallback => rfl
  | send hacc hout => exact (quiet_send w _ _ _ _ _).dials
  | shutDown hacc => exact (quiet_shutDown w _ _).dials
  | close hacc => exact dials_close _
  | retrieve hacc => rfl
  | retrieveAll hacc => rfl
  | keep hacc => rfl
  | drop hkept => exact (quiet_release _ _).dials
  | retConnection hst => exact (quiet_release _ _).dials
  | retMessage hst => exact (quiet_release _ _).dials
  | retDisconnect hst => rfl

end World

/-! ## §3. One step. -/

/-- A text that denotes an address is dialled as that address. -/
theorem InetAdress.fromIpPort_addr {self : InetAdress} {ip : Text} {i : InAddr}
    (h : denotes ip = some i) (port : BitVec 16) :
    (self.fromIpPort ip port).2.addr = ⟨AF_INET, htons port, i⟩ := by
  unfold denotes at h
  split at h
  next hnil =>
    rw [hnil, fromIpPort_nil, Option.some.inj h]
  next => rw [fromIpPort_of_inetPton h]

namespace World

variable {w w' : World}

theorem requested_connect_iff (w : World) (k : Nat) (ip : Text) (port : BitVec 16)
    (sock : Option Nat) (outcome : ConnectOutcome) :
    w.Requested (.user (.connect k ip port sock outcome)) (w.connect k ip port sock outcome)
      ↔ w.WellAddressed (.user (.connect k ip port sock outcome)) := by
  unfold Requested WellAddressed
  simp only
  rw [dials_connect]
  by_cases hdial : (w.clients k).state = .disConnected ∧ sock.isSome = true
  · rw [if_pos hdial]
    cases hip : denotes ip with
    | none =>
        -- the address of an earlier call is dialled
        constructor
        · intro h
          have hnothing := (h.2 hdial.1 rfl).2
          exact absurd hnothing (List.cons_ne_self _ _)
        · intro h
          exact absurd ⟨hdial.1, rfl, hdial.2⟩ h
    | some i =>
        rw [InetAdress.fromIpPort_addr hip]
        constructor
        · rintro _ ⟨_, hnone, _⟩
          cases hnone
        · intro _
          refine ⟨Or.inr ⟨i, rfl, rfl⟩, fun _ hnone => ?_⟩
          cases hnone
  · rw [if_neg hdial]
    constructor
    · rintro _ ⟨hst, _, hsock⟩
      exact hdial ⟨hst, hsock⟩
    · intro _
      refine ⟨Or.inl rfl, fun hst _ => ⟨?_, rfl⟩⟩
      have hsock : sock = none := by
        cases sock with
        | none => rfl
        | some fd => exact absurd ⟨hst, rfl⟩ hdial
      simp [connectReturn, hst, hsock]

/-- **One step** dials only what is asked for exactly when it is well addressed. -/
theorem dialsRequested_iff {l : Label} (hnext : w.next l = some w') :
    w.DialsRequested l ↔ w.WellAddressed l := by
  have hstep : w.DialsRequested l ↔ w.Requested l w' := by
    constructor
    · intro h
      exact h w' hnext
    · intro h w'' hnext'
      obtain rfl : w' = w'' := Option.some.inj (hnext.symm.trans hnext')
      exact h
  rw [hstep]
  by_cases hl : ∃ k ip port sock outcome, l = .user (.connect k ip port sock outcome)
  · obtain ⟨k, ip, port, sock, outcome, rfl⟩ := hl
    obtain ⟨_, hturn⟩ := World.next_turn hnext
    cases hturn
    exact requested_connect_iff w k ip port sock outcome
  · have hother : ∀ k ip port sock outcome, l ≠ .user (.connect k ip port sock outcome) := by
      rintro k ip port sock outcome rfl
      exact hl ⟨k, ip, port, sock, outcome, rfl⟩
    have hsame := dials_next hnext hother
    unfold Requested WellAddressed
    constructor
    · intro _
      split
      next => exact absurd rfl (hother _ _ _ _ _)
      next => trivial
    · intro _
      split
      next => exact absurd rfl (hother _ _ _ _ _)
      next => exact hsame

instance (w : World) : ∀ l, Decidable (w.WellAddressed l)
  | .user (.connect k ip _ sock _) => inferInstanceAs (Decidable
      (¬ ((w.clients k).state = .disConnected ∧ denotes ip = none ∧ sock.isSome = true)))
  | .user (.disconnect ..) | .user (.clientSend ..) | .user (.setConnectionCallback ..)
  | .user (.setMessageCallback ..) | .user (.setDisconnectCallback ..) | .user (.serverStart ..)
  | .user (.serverSetConnCallback ..) | .user (.serverSetMessageCallback ..)
  | .user (.send ..) | .user (.shutDown ..) | .user (.close _) | .user (.retrieve ..)
  | .user (.retrieveAll _) | .user (.keep _) | .user (.drop _)
  | .poll _ | .resume _ | .ret => isTrue trivial

end World

/-! ## §4. Whole runs. -/

/-- **When only the requested endpoints are dialled.**  In every run, of any clients
from any state, each address passed to `connect()` is the one the arguments of that
call denote, and a malformed text is refused and dials nothing, iff no malformed
text is passed in the state DIS_CONNECTED when a socket can be had. -/
theorem dials_requested_iff (w t : World) (labels : List Label)
    (hrun : exec World.next w labels = some t) :
    Along World.next World.DialsRequested w labels
      ↔ Along World.next World.WellAddressed w labels :=
  along_congr (fun _ _ _ hnext => World.dialsRequested_iff hnext) hrun

/-- A client is refused at 127.0.0.1:80 and connects to the same host again. -/
def dialAgain (ip : Text) : List Label :=
  [.user (.connect 0 "127.0.0.1".toList 80 (some 5) (.failed (.other 111))),
   .user (.connect 0 ip 81 (some 5) (.failed .EINPROGRESS))]

/-- The theorem on a run with two calls. -/
theorem dials_requested_on_run :
    ∃ t, exec World.next World.init (dialAgain "127.0.0.1".toList) = some t
      ∧ Along World.next World.DialsRequested World.init (dialAgain "127.0.0.1".toList) := by
  have hruns : (exec World.next World.init (dialAgain "127.0.0.1".toList)).isSome = true := by
    decide +kernel
  obtain ⟨t, hrun⟩ := Option.isSome_iff_exists.mp hruns
  have hwell : Along World.next World.WellAddressed World.init
      (dialAgain "127.0.0.1".toList) := by
    decide +kernel
  exact ⟨t, hrun, (dials_requested_iff World.init t _ hrun).mpr hwell⟩

/-- **A malformed text dials the earlier host**: "localhost" after 127.0.0.1. -/
theorem malformed_ip_dials_earlier_host :
    ∃ t, exec World.next World.init (dialAgain "localhost".toList) = some t
      ∧ t.dials.head? = some (0, ⟨AF_INET, htons 81, ⟨127, 0, 0, 1⟩⟩)
      ∧ ¬ Along World.next World.DialsRequested World.init (dialAgain "localhost".toList) := by
  have hdials : (exec World.next World.init (dialAgain "localhost".toList)).map
      (fun t => t.dials.head?) = some (some (0, ⟨AF_INET, htons 81, ⟨127, 0, 0, 1⟩⟩)) := by
    decide +kernel
  obtain ⟨t, hrun, hhead⟩ := Option.map_eq_some_iff.mp hdials
  have hill : ¬ Along World.next World.WellAddressed World.init
      (dialAgain "localhost".toList) := by
    decide +kernel
  refine ⟨t, hrun, hhead, fun h => hill ?_⟩
  exact (along_congr (fun _ _ _ hnext => World.dialsRequested_iff hnext) hrun).mp h

end SparkNet
