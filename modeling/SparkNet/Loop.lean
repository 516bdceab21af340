/-
  SparkNet.Loop — client, acceptor, event dispatch and the steps of a process.

  The functions of `include/TcpClient.h`, `include/TcpServer.h` and the dispatch
  of `Handler::HandleEvent` and `Epoller::Loop`, over `World`.  `World.next` is
  the step function: the poller delivers a batch, the innermost library frame
  goes on (with the kernel's answers in the label), the application makes a
  call, or an application callback returns.
-/
import SparkNet.Runs
import SparkNet.World

namespace SparkNet

open Runs

/-! ## §1. `TCPClient`. -/

/-- What `connect()` returns. -/
inductive ConnectOutcome where
  | ok
  | failed (errno : Errno)
  deriving DecidableEq, Repr

namespace World

/-- What `ConnEstablish` does up to the assignment of `_conn`. -/
def storeClientConn (w : World) (k fd : Nat) : World :=
  let client := w.clients k
  let name := client.addr.ipPortStr ++ ['-'] ++ decimal client.connId.toNat
  (w.newConn name fd client.addr (.handleClose k) client.newConnCallback
    client.msgCallback).setClient k
      { client with
        state := .connected
        connId := client.connId + 1
        conn := some w.connCount }

/-- `TCPClient::ConnEstablish`. -/
def connEstablish (w : World) (k fd : Nat) : World :=
  ((w.storeClientConn k fd).letGo (w.clients k).conn).start w.connCount

/-- The handler `Connecting` makes, with its two callbacks set. -/
def connectingHandler (k fd : Nat) : Handler HandlerCallback :=
  { (Handler.new fd) with
    writeCallback := some (.clientHandleWrite k)
    errorCallback := some (.clientHandleError k) }

/-- `TCPClient::Connecting`. -/
def connecting (w : World) (k fd : Nat) : World :=
  let client := w.clients k
  let n := w.handlerCount
  let h := (connectingHandler k fd).enableWrite
  -- `reset(new Handler)` destroys the handler of an earlier attempt as it stands
  let w := match client.connHandler with
    | some (m, old) =>
        w.emit (.handlerDestroyed (.connecting k m) (w.poller.handlers old.fd).isSome)
    | none => w
  let w := { w with handlerCount := n + 1 }
  (w.setClient k { client with state := .connecting, connHandler := some (n, h) }).update
    (.connecting k n) h

/-- `_addr.FromIpPort(ip, port)`, its result ignored. -/
def storeAddr (w : World) (k : Nat) (ip : Text) (port : BitVec 16) : World :=
  w.setClient k { w.clients k with addr := ((w.clients k).addr.fromIpPort ip port).2 }

/-- `Connect` up to the call of `connect()` on the new socket. -/
def dial (w : World) (k : Nat) (ip : Text) (port : BitVec 16) (fd : Nat) : World :=
  { w.storeAddr k ip port with
    fds := Function.update w.fds fd true
    log := .dialled k ((w.clients k).addr.fromIpPort ip port).2.addr :: w.log }

/-- `TCPClient::Connect`; `sock` is what `socket()` returns. -/
def connect (w : World) (k : Nat) (ip : Text) (port : BitVec 16) (sock : Option Nat)
    (outcome : ConnectOutcome) : World :=
  -- returns true without dialling
  if (w.clients k).state ≠ .disConnected then w
  else
    match sock with
    -- `CreateNoBlocking` failed
    | none => w.storeAddr k ip port
    | some fd =>
        let w := w.dial k ip port fd
        match outcome with
        | .ok => w.connEstablish k fd
        | .failed errno =>
            if errno = .EINPROGRESS ∨ errno = .EINTR ∨ errno = .EISCONN then w.connecting k fd
            else (w.setClient k { w.clients k with state := .disConnected }).closeFd fd

/-- `DisableAll()` and `reset()` on `_connHandler`, which both event functions
start with. -/
def dropConnHandler (w : World) (k n : Nat) (h : Handler HandlerCallback) : World :=
  let w := w.update (.connecting k n) h.disableAll
  let w := w.setClient k { w.clients k with connHandler := none }
  w.emit (.handlerDestroyed (.connecting k n) (w.poller.handlers h.fd).isSome)

/-- `TCPClient::HandleError`. -/
def clientHandleError (w : World) (k : Nat) : World :=
  if (w.clients k).state = .connecting then
    match (w.clients k).connHandler with
    | none => w.fail .nullDeref
    -- `_state` stays CONNECTING
    | some (n, h) => ((w.dropConnHandler k n h).closeFd h.fd).runDisconnectCallback k
  else w

/-- `TCPClient::HandleWrite`; `err` is the socket's SO_ERROR. -/
def clientHandleWrite (w : World) (k : Nat) (err : Nat) : World :=
  if (w.clients k).state = .connecting then
    match (w.clients k).connHandler with
    | none => w.fail .nullDeref
    | some (n, h) =>
        let w := w.dropConnHandler k n h
        -- here too, and the descriptor is not closed
        if err ≠ 0 then w.runDisconnectCallback k
        else w.connEstablish k h.fd
  else w

/-- `TCPClient::Disconnect`. -/
def disconnect (w : World) (k : Nat) (shutdownOk : Bool) : World :=
  let w := w.setClient k { w.clients k with state := .disConnected }
  match (w.clients k).conn with
  | none => w.fail .nullDeref
  | some c => w.shutDown c shutdownOk

/-- `TCPClient::Send`. -/
def clientSend (w : World) (k : Nat) (mem : Memory) (data len : SizeT) (out : WriteOutcome) :
    World :=
  match (w.clients k).conn with
  | none => w
  | some c => w.send c mem data len out

/-! ## §2. `TcpServer`. -/

/-- `TcpServer::Start` when `socket`, `bind` and `listen` succeed. -/
def serverStart (w : World) (s fd : Nat) : World :=
  let h : Handler HandlerCallback :=
    { (Handler.new fd) with readCallback := some (.acceptorHandleRead s) }
  let w := { w with fds := Function.update w.fds fd true }
  let w := w.setServer s { w.servers s with accepter := some h.enableRead }
  w.update (.acceptor s) h.enableRead

/-- The name of the next connection the server makes. -/
def nextName (w : World) (s : Nat) (addr : InetAdress) : Text :=
  addr.ipPortStr ++ ['-'] ++ decimal (w.servers s).connId.toNat

/-- What `OnNewConnect` does up to the assignment into `_conns`. -/
def storeServerConn (w : World) (s fd : Nat) (addr : InetAdress) : World :=
  let server := w.servers s
  let name := w.nextName s addr
  (w.newConn name fd addr (.removeConn s) server.newConnCallback server.msgCallback).setServer s
    { server with
      connId := server.connId + 1
      conns := Function.update server.conns name (some w.connCount) }

/-- `TcpServer::OnNewConnect`. -/
def onNewConnect (w : World) (s fd : Nat) (addr : InetAdress) : World :=
  ((w.storeServerConn s fd addr).letGo ((w.servers s).conns (w.nextName s addr))).start
    w.connCount

end World

/-- What `accept` returns.  A failing call, EMFILE included, changes no
connection and no handler. -/
inductive AcceptOutcome where
  | conn (fd : Nat) (addr : SockaddrIn)
  | failed (errno : Errno)
  deriving DecidableEq, Repr

namespace World

/-- `Acceptor::HandleRead` with `OnNewConnect` as its callback. -/
def acceptorHandleRead (w : World) (s : Nat) (accept : AcceptOutcome) : World :=
  match accept with
  | .conn fd addr =>
      let w := { w with fds := Function.update w.fds fd true }
      w.onNewConnect s fd (InetAdress.new.fromAddr addr).2
  | .failed _ => w

end World

/-! ## §3. `Handler::HandleEvent` and `Epoller::Loop`. -/

/-- The kernel's answers to the calls one library step may make. -/
structure Env where
  read : ReadOutcome
  write : WriteOutcome
  shutdownOk : Bool
  accept : AcceptOutcome
  soError : Nat

/-- The answers of a kernel that is asked nothing. -/
def Env.idle : Env := ⟨.failed .EAGAIN, .failed .EAGAIN, true, .failed .EAGAIN, 0⟩

namespace World

/-- `TcpConnection::HandleRead`. -/
def tcpHandleRead (w : World) (c : Nat) (r : ReadOutcome) : World :=
  if w.live c then
    match r with
    | .failed _ => w
    | .eof => w.close c
    | .data bytes =>
        let w := w.setConn c ((w.conns c).receive bytes)
        if (w.conns c).msgCallback then
          (w.emit (.messageCallback c)).push (.user (.message c))
        -- an empty `std::function` is called without a test
        else w.fail .badFunctionCall
  else w.fail .useAfterFree

/-- `TcpConnection::HandleWrite`. -/
def tcpHandleWrite (w : World) (c : Nat) (out : WriteOutcome) (shutdownOk : Bool) : World :=
  if w.live c then w.connOp c ((w.conns c).handleWrite out) shutdownOk
  else w.fail .useAfterFree

/-- A handler callback is called. -/
def runCallback (w : World) (env : Env) : HandlerCallback → World
  | .tcpHandleRead c => w.tcpHandleRead c env.read
  | .tcpHandleWrite c => w.tcpHandleWrite c env.write env.shutdownOk
  | .clientHandleWrite k => w.clientHandleWrite k env.soError
  | .clientHandleError k => w.clientHandleError k
  | .acceptorHandleRead s => w.acceptorHandleRead s env.accept

/-- One test of `HandleEvent`: when the mask has one of the bits, read the
callback from the handler and call it if it is set. -/
def testEvent (w : World) (env : Env) (ptr : HandlerPtr) (mask bits : EventMask)
    (field : Handler HandlerCallback → Option HandlerCallback) : World :=
  if mask.has bits then
    match w.handler? ptr with
    -- an earlier callback of this dispatch destroyed the handler
    | none => w.fail .useAfterFree
    | some h =>
        match field h with
        | none => w
        | some callback => w.runCallback env callback
  else w

/-- The bits the three tests look for. -/
def readBits : EventMask := EPOLLIN ||| EPOLLHUP ||| EPOLLPRI

/-- The rest of `Close`: the temporary of the close callback's argument dies with
the full expression, then `_state` is written. -/
def finishClose (w : World) (c : Nat) : World :=
  let w := w.release c
  if w.live c then w.setConn c (w.conns c).closeReturn
  else w.fail .useAfterFree

/-- The innermost library frame goes on. -/
def resume (w : World) (env : Env) : Option World :=
  match w.stack with
  | .loop [] :: rest => some { w with stack := rest }
  | .loop ((ptr, mask) :: batch) :: rest =>
      match w.handler? ptr with
      -- an earlier event of the batch destroyed the handler
      | none => some (w.fail .staleDispatch)
      | some _ => some { w with stack := .handleEvent ptr mask .read :: .loop batch :: rest }
  -- the frame is moved on first: the callback may push frames of its own
  | .handleEvent ptr mask .read :: rest =>
      some ({ w with stack := .handleEvent ptr mask .write :: rest }.testEvent env ptr mask
        readBits Handler.readCallback)
  | .handleEvent ptr mask .write :: rest =>
      some ({ w with stack := .handleEvent ptr mask .error :: rest }.testEvent env ptr mask
        EPOLLOUT Handler.writeCallback)
  | .handleEvent ptr mask .error :: rest =>
      some ({ w with stack := rest }.testEvent env ptr mask EPOLLERR Handler.errorCallback)
  | .closing c :: rest => some ({ w with stack := rest }.finishClose c)
  | _ => none

/-- The answers a kernel can give to the frame that goes on: counts within what
was offered, new descriptors that are not open. -/
def admits (w : World) (env : Env) : Bool :=
  match w.stack with
  | .handleEvent (.conn c) _ .read :: _ =>
      decide (env.read.fits (w.conns c).inputBuffer.writableBytes)
  | .handleEvent (.conn c) _ .write :: _ =>
      decide (env.write.fits (w.conns c).outPutBuffer.readableBytes)
  | .handleEvent (.acceptor _) _ .read :: _ =>
      match env.accept with
      | .conn fd _ => !w.fds fd
      | .failed _ => true
  | _ => true

end World

/-! ## §4. The application. -/

/-- A public call, with the kernel's answers it needs. -/
inductive UserCall where
  | connect (client : Nat) (ip : Text) (port : BitVec 16) (sock : Option Nat)
      (outcome : ConnectOutcome)
  | disconnect (client : Nat) (shutdownOk : Bool)
  | clientSend (client : Nat) (mem : Memory) (data len : SizeT) (out : WriteOutcome)
  | setConnectionCallback (client : Nat) (on : Bool)
  | setMessageCallback (client : Nat) (on : Bool)
  | setDisconnectCallback (client : Nat) (on : Bool)
  | serverStart (server fd : Nat)
  | serverSetConnCallback (server : Nat) (on : Bool)
  | serverSetMessageCallback (server : Nat) (on : Bool)
  | send (conn : Nat) (mem : Memory) (data len : SizeT) (out : WriteOutcome)
  | shutDown (conn : Nat) (shutdownOk : Bool)
  | close (conn : Nat)
  | retrieve (conn len : Nat)
  | retrieveAll (conn : Nat)
  /-- Keep a copy of a connection's pointer. -/
  | keep (conn : Nat)
  /-- Drop a kept copy. -/
  | drop (conn : Nat)

namespace World

/-- The application runs: outside the loop, inside one of its callbacks, or in
the callback of a handler of its own between two events of a batch. -/
def userTurn (w : World) : Bool :=
  match w.stack with
  | [] => true
  | .user _ :: _ => true
  | .loop _ :: _ => true
  | _ => false

/-- One public call. -/
def userCall (w : World) : UserCall → Option World
  | .connect k ip port sock outcome =>
      if sock.all (fun fd => !w.fds fd) then some (w.connect k ip port sock outcome) else none
  | .disconnect k shutdownOk => some (w.disconnect k shutdownOk)
  | .clientSend k mem data len out =>
      if out.fits len.toNat then some (w.clientSend k mem data len out) else none
  | .setConnectionCallback k on =>
      some (w.setClient k { w.clients k with newConnCallback := on })
  | .setMessageCallback k on => some (w.setClient k { w.clients k with msgCallback := on })
  | .setDisconnectCallback k on =>
      some (w.setClient k { w.clients k with disConnectCallback := on })
  | .serverStart s fd =>
      if (w.servers s).accepter.isNone && !w.fds fd then some (w.serverStart s fd) else none
  | .serverSetConnCallback s on =>
      some (w.setServer s { w.servers s with newConnCallback := on })
  | .serverSetMessageCallback s on =>
      some (w.setServer s { w.servers s with msgCallback := on })
  | .send c mem data len out =>
      if w.accessible c && decide (out.fits len.toNat) then some (w.send c mem data len out)
      else none
  | .shutDown c shutdownOk => if w.accessible c then some (w.shutDown c shutdownOk) else none
  | .close c => if w.accessible c then some (w.close c) else none
  | .retrieve c len =>
      if w.accessible c then some (w.setConn c ((w.conns c).retrieve len)) else none
  | .retrieveAll c =>
      if w.accessible c then some (w.setConn c (w.conns c).retrieveAll) else none
  | .keep c =>
      if w.accessible c then
        some { w with kept := Function.update w.kept c (w.kept c + 1) }
      else none
  | .drop c =>
      if 0 < w.kept c then
        some ({ w with kept := Function.update w.kept c (w.kept c - 1) }.release c)
      else none

/-- An application callback returns; its argument's temporary dies. -/
def ret (w : World) : Option World :=
  match w.stack with
  | .user (.connection c) :: rest => some ({ w with stack := rest }.release c)
  | .user (.message c) :: rest => some ({ w with stack := rest }.release c)
  | .user (.disconnect _) :: rest => some { w with stack := rest }
  | _ => none

/-- `epoll_wait` returns ready descriptors, each with a trigger mask; the kernel
hands back the `data.ptr` it was given. -/
def poll (w : World) (ready : List (Nat × EventMask)) : Option World :=
  if w.stack.isEmpty && decide (ready.map Prod.fst).Nodup then
    (ready.mapM fun event =>
      (w.poller.interest event.1).map fun entry => (entry.2, event.2)).map
        fun batch => w.push (.loop batch)
  else none

end World

inductive Label where
  | poll (ready : List (Nat × EventMask))
  | resume (env : Env)
  | user (call : UserCall)
  | ret

/-- One step of the process; none after a fault. -/
def World.next (w : World) (l : Label) : Option World :=
  if w.fault.isSome then none
  else
    match l with
    | .poll ready => w.poll ready
    | .resume env => if w.admits env then w.resume env else none
    | .user call => if w.userTurn then w.userCall call else none
    | .ret => w.ret

/-! ## §5. What one step does. -/

namespace World

/-- What a client's setters leave alone. -/
def setFlags (w : World) (k : Nat) (newConn msg disConnect : Bool) : World :=
  w.setClient k { w.clients k with
    newConnCallback := newConn
    msgCallback := msg
    disConnectCallback := disConnect }

/-- Likewise a server's. -/
def setServerFlags (w : World) (s : Nat) (newConn msg : Bool) : World :=
  w.setServer s { w.servers s with newConnCallback := newConn, msgCallback := msg }

end World

/-- The steps, one constructor for each thing that can happen. -/
inductive Turn (w : World) : Label → World → Prop
  | poll {ready : List (Nat × EventMask)} {batch : List (HandlerPtr × EventMask)}
      (hst : w.stack = []) : Turn w (.poll ready) (w.push (.loop batch))
  | loopEnd {env : Env} {rest : List Frame} (hst : w.stack = .loop [] :: rest) :
      Turn w (.resume env) { w with stack := rest }
  | loopStale {env : Env} {ptr : HandlerPtr} {mask : EventMask}
      {batch : List (HandlerPtr × EventMask)} {rest : List Frame}
      (hst : w.stack = .loop ((ptr, mask) :: batch) :: rest) (hptr : w.handler? ptr = none) :
      Turn w (.resume env) (w.fail .staleDispatch)
  | loopNext {env : Env} {ptr : HandlerPtr} {mask : EventMask}
      {batch : List (HandlerPtr × EventMask)} {rest : List Frame}
      {h : Handler HandlerCallback}
      (hst : w.stack = .loop ((ptr, mask) :: batch) :: rest) (hptr : w.handler? ptr = some h) :
      Turn w (.resume env)
        { w with stack := .handleEvent ptr mask .read :: .loop batch :: rest }
  | readTest {env : Env} {ptr : HandlerPtr} {mask : EventMask} {rest : List Frame}
      (hst : w.stack = .handleEvent ptr mask .read :: rest) (hadm : w.admits env = true) :
      Turn w (.resume env) ({ w with stack := .handleEvent ptr mask .write :: rest }.testEvent
        env ptr mask World.readBits Handler.readCallback)
  | writeTest {env : Env} {ptr : HandlerPtr} {mask : EventMask} {rest : List Frame}
      (hst : w.stack = .handleEvent ptr mask .write :: rest) (hadm : w.admits env = true) :
      Turn w (.resume env) ({ w with stack := .handleEvent ptr mask .error :: rest }.testEvent
        env ptr mask EPOLLOUT Handler.writeCallback)
  | errorTest {env : Env} {ptr : HandlerPtr} {mask : EventMask} {rest : List Frame}
      (hst : w.stack = .handleEvent ptr mask .error :: rest) :
      Turn w (.resume env) ({ w with stack := rest }.testEvent env ptr mask EPOLLERR
        Handler.errorCallback)
  | finishClose {env : Env} {c : Nat} {rest : List Frame} (hst : w.stack = .closing c :: rest) :
      Turn w (.resume env) ({ w with stack := rest }.finishClose c)
  | connect {k : Nat} {ip : Text} {port : BitVec 16} {sock : Option Nat}
      {outcome : ConnectOutcome} (hsock : ∀ fd, sock = some fd → w.fds fd = false) :
      Turn w (.user (.connect k ip port sock outcome)) (w.connect k ip port sock outcome)
  | disconnect {k : Nat} {ok : Bool} : Turn w (.user (.disconnect k ok)) (w.disconnect k ok)
  | clientSend {k : Nat} {mem : Memory} {data len : SizeT} {out : WriteOutcome}
      (hout : out.fits len.toNat) :
      Turn w (.user (.clientSend k mem data len out)) (w.clientSend k mem data len out)
  | setConnectionCallback {k : Nat} {on : Bool} :
      Turn w (.user (.setConnectionCallback k on))
        (w.setFlags k on (w.clients k).msgCallback (w.clients k).disConnectCallback)
  | setMessageCallback {k : Nat} {on : Bool} :
      Turn w (.user (.setMessageCallback k on))
        (w.setFlags k (w.clients k).newConnCallback on (w.clients k).disConnectCallback)
  | setDisconnectCallback {k : Nat} {on : Bool} :
      Turn w (.user (.setDisconnectCallback k on))
        (w.setFlags k (w.clients k).newConnCallback (w.clients k).msgCallback on)
  | serverStart {s fd : Nat} (hacc : (w.servers s).accepter = none) (hfd : w.fds fd = false) :
      Turn w (.user (.serverStart s fd)) (w.serverStart s fd)
  | serverSetConnCallback {s : Nat} {on : Bool} :
      Turn w (.user (.serverSetConnCallback s on))
        (w.setServerFlags s on (w.servers s).msgCallback)
  | serverSetMessageCallback {s : Nat} {on : Bool} :
      Turn w (.user (.serverSetMessageCallback s on))
        (w.setServerFlags s (w.servers s).newConnCallback on)
  | send {c : Nat} {mem : Memory} {data len : SizeT} {out : WriteOutcome}
      (hacc : w.accessible c = true) (hout : out.fits len.toNat) :
      Turn w (.user (.send c mem data len out)) (w.send c mem data len out)
  | shutDown {c : Nat} {ok : Bool} (hacc : w.accessible c = true) :
      Turn w (.user (.shutDown c ok)) (w.shutDown c ok)
  | close {c : Nat} (hacc : w.accessible c = true) : Turn w (.user (.close c)) (w.close c)
  | retrieve {c len : Nat} (hacc : w.accessible c = true) :
      Turn w (.user (.retrieve c len)) (w.setConn c ((w.conns c).retrieve len))
  | retrieveAll {c : Nat} (hacc : w.accessible c = true) :
      Turn w (.user (.retrieveAll c)) (w.setConn c (w.conns c).retrieveAll)
  | keep {c : Nat} (hacc : w.accessible c = true) :
      Turn w (.user (.keep c)) { w with kept := Function.update w.kept c (w.kept c + 1) }
  | drop {c : Nat} (hkept : 0 < w.kept c) :
      Turn w (.user (.drop c))
        ({ w with kept := Function.update w.kept c (w.kept c - 1) }.release c)
  | retConnection {c : Nat} {rest : List Frame}
      (hst : w.stack = .user (.connection c) :: rest) :
      Turn w .ret ({ w with stack := rest }.release c)
  | retMessage {c : Nat} {rest : List Frame} (hst : w.stack = .user (.message c) :: rest) :
      Turn w .ret ({ w with stack := rest }.release c)
  | retDisconnect {k : Nat} {rest : List Frame}
      (hst : w.stack = .user (.disconnect k) :: rest) : Turn w .ret { w with stack := rest }

/-- **The inversion rule**: every step is one of the turns, taken by a process
that has not ended. -/
theorem World.next_turn {w w' : World} {l : Label} (h : w.next l = some w') :
    w.fault = none ∧ Turn w l w' := by
  unfold World.next at h
  rw [Option.ite_none_left_eq_some] at h
  obtain ⟨hfault, h⟩ := h
  refine ⟨by simpa using hfault, ?_⟩
  cases l with
  | poll ready =>
      simp only [poll, Option.ite_none_right_eq_some, Bool.and_eq_true, List.isEmpty_iff,
        Option.map_eq_some_iff] at h
      obtain ⟨⟨hst, _⟩, batch, _, rfl⟩ := h
      exact Turn.poll hst
  | resume env =>
      rw [Option.ite_none_right_eq_some] at h
      obtain ⟨hadm, h⟩ := h
      unfold resume at h
      split at h
      next rest hst =>
        cases h
        exact Turn.loopEnd hst
      next ptr mask batch rest hst =>
        split at h
        next hptr =>
          cases h
          exact Turn.loopStale hst hptr
        next g hptr =>
          cases h
          exact Turn.loopNext hst hptr
      next ptr mask rest hst =>
        cases h
        exact Turn.readTest hst hadm
      next ptr mask rest hst =>
        cases h
        exact Turn.writeTest hst hadm
      next ptr mask rest hst =>
        cases h
        exact Turn.errorTest hst
      next c rest hst =>
        cases h
        exact Turn.finishClose hst
      next => exact absurd h (by simp)
  | user call =>
      rw [Option.ite_none_right_eq_some] at h
      obtain ⟨_, h⟩ := h
      cases call <;> simp only [userCall, Option.ite_none_right_eq_some, Option.some.injEq,
        Bool.and_eq_true, decide_eq_true_eq, Option.isNone_iff_eq_none, Bool.not_eq_true'] at h
      case connect =>
        obtain ⟨hsock, rfl⟩ := h
        refine Turn.connect fun fd hfd => ?_
        simpa [hfd] using hsock
      case disconnect => exact h ▸ Turn.disconnect
      case clientSend => exact h.2 ▸ Turn.clientSend h.1
      case setConnectionCallback => exact h ▸ Turn.setConnectionCallback
      case setMessageCallback => exact h ▸ Turn.setMessageCallback
      case setDisconnectCallback => exact h ▸ Turn.setDisconnectCallback
      case serverStart => exact h.2 ▸ Turn.serverStart h.1.1 h.1.2
      case serverSetConnCallback => exact h ▸ Turn.serverSetConnCallback
      case serverSetMessageCallback => exact h ▸ Turn.serverSetMessageCallback
      case send => exact h.2 ▸ Turn.send h.1.1 h.1.2
      case shutDown => exact h.2 ▸ Turn.shutDown h.1
      case close => exact h.2 ▸ Turn.close h.1
      case retrieve => exact h.2 ▸ Turn.retrieve h.1
      case retrieveAll => exact h.2 ▸ Turn.retrieveAll h.1
      case keep => exact h.2 ▸ Turn.keep h.1
      case drop => exact h.2 ▸ Turn.drop h.1
  | ret =>
      change w.ret = some w' at h
      unfold ret at h
      split at h
      next c rest hst =>
        cases h
        exact Turn.retConnection hst
      next c rest hst =>
        cases h
        exact Turn.retMessage hst
      next k rest hst =>
        cases h
        exact Turn.retDisconnect hst
      next => exact absurd h (by simp)

/-- The application calls only when it is its turn. -/
theorem World.userTurn_of_next {w w' : World} {call : UserCall}
    (h : w.next (.user call) = some w') : w.userTurn = true := by
  unfold World.next at h
  rw [Option.ite_none_left_eq_some] at h
  obtain ⟨_, h⟩ := h
  exact (Option.ite_none_right_eq_some.mp h).1

end SparkNet
