/-
  SparkNet.World — everything the library shares in one process.

  One `Epoller`, the descriptor table, all connections, clients and servers, the
  application's own copies of connection pointers, and the call stack.  The
  stack is explicit because the application's callbacks run in the middle of
  library functions: a frame stands for the rest of a library function that is
  waiting for a callback to return, or for a callback in progress.

  A `TcpConnection` is live while a `shared_ptr` owns it: its owner's slot, a
  copy kept by the application, or the temporary `shared_from_this()` of a
  frame.  Objects are not removed from the world when they die; every access
  asks `live` first and is a `useAfterFree` otherwise.
-/
import SparkNet.TcpConnection

namespace SparkNet

/-! ## §1. The objects. -/

/-- `TCPClient::ConnectState`. -/
inductive ConnectState where
  | disConnected | connecting | connected
  deriving DecidableEq, Repr

/-- `include/TcpClient.h`.  `_connHandler` owns a handler, which carries the
serial number that stands for its address; `_conn` is a connection's identity. -/
structure TCPClient where
  addr : InetAdress
  connHandler : Option (Nat × Handler HandlerCallback)
  conn : Option Nat
  state : ConnectState
  connId : BitVec 32
  newConnCallback : Bool
  disConnectCallback : Bool
  msgCallback : Bool

def TCPClient.new : TCPClient :=
  ⟨InetAdress.new, none, none, .disConnected, 1#32, false, false, false⟩

/-- `include/TcpServer.h`; of the acceptor the handler of its listening socket. -/
structure TcpServer where
  accepter : Option (Handler HandlerCallback)
  conns : Text → Option Nat
  connId : BitVec 32
  newConnCallback : Bool
  msgCallback : Bool

def TcpServer.new : TcpServer := ⟨none, fun _ => none, 1#32, false, false⟩

/-- The address of a `Handler`: the one inside a connection, a client's
connecting handler, or the one inside a server's acceptor. -/
inductive HandlerPtr where
  | conn (conn : Nat)
  | connecting (client serial : Nat)
  | acceptor (server : Nat)
  deriving DecidableEq, Repr

/-- An application callback, with the connection pointer it is given. -/
inductive UserCallback where
  | connection (conn : Nat)
  | message (conn : Nat)
  | disconnect (client : Nat)
  deriving DecidableEq, Repr

/-- The test of `HandleEvent` that comes next. -/
inductive Stage where
  | read | write | error
  deriving DecidableEq, Repr

inductive Frame where
  /-- `Epoller::Loop` with the events of the batch still to dispatch. -/
  | loop (batch : List (HandlerPtr × EventMask))
  /-- `Handler::HandleEvent` before the test `stage`. -/
  | handleEvent (ptr : HandlerPtr) (mask : EventMask) (stage : Stage)
  /-- `TcpConnection::Close` inside `_closeCallback(shared_from_this())`. -/
  | closing (conn : Nat)
  /-- Application code called by the library. -/
  | user (callback : UserCallback)
  deriving DecidableEq, Repr

/-- What an observer of the process sees. -/
inductive Event where
  | closeEntered (conn : Nat)
  | closeCallback (conn : Nat)
  | connectionCallback (conn : Nat)
  | messageCallback (conn : Nat)
  /-- The disconnect callback is called, with `_state` as it is then. -/
  | disconnectCallback (client : Nat) (state : ConnectState)
  /-- `write` on the connection's socket accepted `n` bytes. -/
  | wrote (conn n : Nat)
  | fin (conn : Nat)
  /-- The owner's slot lets go of a connection that is not the one closing. -/
  | displaced (conn : Nat)
  /-- A handler is destroyed; was its descriptor still in `_handlers`? -/
  | handlerDestroyed (ptr : HandlerPtr) (registered : Bool)
  /-- The library closes a descriptor; was it still in `_handlers`? -/
  | fdClosed (fd : Nat) (registered : Bool)
  /-- `connect()` is called with this address. -/
  | dialled (client : Nat) (addr : SockaddrIn)
  deriving DecidableEq, Repr

structure World where
  poller : Epoller HandlerPtr
  /-- The open descriptors. -/
  fds : Nat → Bool
  conns : Nat → TcpConnection
  /-- Connections are numbered in the order they are made. -/
  connCount : Nat
  clients : Nat → TCPClient
  /-- Connecting handlers likewise. -/
  handlerCount : Nat
  servers : Nat → TcpServer
  /-- The copies of each connection's `shared_ptr` the application keeps. -/
  kept : Nat → Nat
  /-- Innermost frame first. -/
  stack : List Frame
  /-- Newest first. -/
  log : List Event
  /-- Set when the process has ended. -/
  fault : Option Fault

/-- A process that has only constructed its clients and servers. -/
def World.init : World where
  poller := Epoller.new
  fds := fun _ => false
  conns := fun _ => TcpConnection.new 0 [] 0 InetAdress.new
  connCount := 0
  clients := fun _ => TCPClient.new
  handlerCount := 0
  servers := fun _ => TcpServer.new
  kept := fun _ => 0
  stack := []
  log := []
  fault := none

/-! ## §2. Who owns what. -/

/-- Does the frame hold a `shared_ptr` to the connection? -/
def Frame.holds (c : Nat) : Frame → Bool
  -- the temporary `shared_from_this()` each of the three calls makes
  | .closing d => d == c
  | .user (.connection d) => d == c
  | .user (.message d) => d == c
  -- the dispatch itself holds nothing: a `Handler` is reached by a plain pointer
  | _ => false

/-- Is the frame an application callback that was given the connection? -/
def Frame.gives (c : Nat) : Frame → Bool
  | .user (.connection d) => d == c
  | .user (.message d) => d == c
  | _ => false

/-- The place where the library keeps its own `shared_ptr` to a connection: the
`_conn` of a client or an entry of a server's `_conns`. -/
inductive Slot where
  | client (client : Nat)
  | server (server : Nat) (name : Text)
  deriving DecidableEq

/-- The slot of the object whose member function the close callback is bound to. -/
def TcpConnection.slot (x : TcpConnection) : Option Slot :=
  match x.closeCallback with
  | some (.removeConn s) => some (.server s x.name)
  | some (.handleClose k) => some (.client k)
  | none => none

namespace World

/-- What a slot holds. -/
def slot (w : World) : Slot → Option Nat
  | .client k => (w.clients k).conn
  | .server s name => (w.servers s).conns name

/-- Does the library keep the connection?  No slot but its own ever holds it
(`Coherent.slot`). -/
def ownerHolds (w : World) (c : Nat) : Bool :=
  (w.conns c).slot.any fun σ => w.slot σ == some c

/-- Some `shared_ptr` owns the connection. -/
def live (w : World) (c : Nat) : Bool :=
  w.ownerHolds c || decide (0 < w.kept c) || w.stack.any (Frame.holds c)

/-- The application has a pointer to the connection: a copy it kept, or the
argument of a callback it is in. -/
def accessible (w : World) (c : Nat) : Bool :=
  decide (0 < w.kept c) || w.stack.any (Frame.gives c)

/-- The handler at an address, if the object there is alive. -/
def handler? (w : World) : HandlerPtr → Option (Handler HandlerCallback)
  | .conn c => if w.live c then some (w.conns c).handler else none
  | .connecting k n =>
      match (w.clients k).connHandler with
      -- a later attempt has put another handler in its place
      | some (m, h) => if m = n then some h else none
      | none => none
  | .acceptor s => (w.servers s).accepter

/-! ## §3. Elementary changes. -/

/-- The process ends; the first fault stays. -/
def fail (w : World) (f : Fault) : World :=
  { w with fault := w.fault.or (some f) }

def emit (w : World) (e : Event) : World := { w with log := e :: w.log }

def push (w : World) (f : Frame) : World := { w with stack := f :: w.stack }

def setConn (w : World) (c : Nat) (x : TcpConnection) : World :=
  { w with conns := Function.update w.conns c x }

def setClient (w : World) (k : Nat) (x : TCPClient) : World :=
  { w with clients := Function.update w.clients k x }

def setServer (w : World) (s : Nat) (x : TcpServer) : World :=
  { w with servers := Function.update w.servers s x }

/-- `Handler::Update` on the handler at `ptr`. -/
def update (w : World) (ptr : HandlerPtr) (h : Handler HandlerCallback) : World :=
  match w.poller.update ptr h with
  | .ok p => { w with poller := p }
  | .error f => w.fail f

/-- `close(fd)` of an open descriptor: the kernel forgets its interest in it. -/
def closeFd (w : World) (fd : Nat) : World :=
  { w with
    fds := Function.update w.fds fd false
    poller := { w.poller with interest := Function.update w.poller.interest fd none }
    log := .fdClosed fd (w.poller.handlers fd).isSome :: w.log }

/-- `~TcpConnection`: the handler goes first, then `~Socket` closes the
descriptor and aborts if it cannot, the log level permitting. -/
def destroyConn (w : World) (c : Nat) : World :=
  let fd := (w.conns c).handler.fd
  let w := w.emit (.handlerDestroyed (.conn c) (w.poller.handlers fd).isSome)
  -- `~Handler` does not deregister (its `DisableAll` is commented out)
  if w.fds fd then w.closeFd fd else w.fail .abort

/-- A `shared_ptr` to the connection has just been dropped. -/
def release (w : World) (c : Nat) : World :=
  if w.live c then w else w.destroyConn c

/-! ## §4. Connections in the world. -/

/-- One call of a member function of connection `c`. -/
def runCall (c : Nat) (shutdownOk : Bool) (w : World) : SockCall → World
  | .write _ bytes out => w.emit (.wrote c (bytes.take out.result.toNat).length)
  | .append _ => w
  | .update => w.update (.conn c) (w.conns c).handler
  | .shutdown _ => if shutdownOk then w.emit (.fin c) else w.fail .shutdownAbort

/-- A member function of connection `c` has run: store the object, make its
calls.  `shutdownOk` is what `shutdown(fd, SHUT_WR)` answers if it is called;
`Socket::ShutdownWrite` aborts when it fails, the log level permitting. -/
def connOp (w : World) (c : Nat) (r : TcpConnection × List SockCall) (shutdownOk : Bool) :
    World :=
  r.2.foldl (runCall c shutdownOk) (w.setConn c r.1)

/-- `TcpConnection::send` on a pointer to `c`. -/
def send (w : World) (c : Nat) (mem : Memory) (data len : SizeT) (out : WriteOutcome) : World :=
  if w.live c then w.connOp c ((w.conns c).send mem data len out) true
  else w.fail .useAfterFree

/-- `TcpConnection::ShutDown` on a pointer to `c`. -/
def shutDown (w : World) (c : Nat) (shutdownOk : Bool) : World :=
  if w.live c then w.connOp c (w.conns c).shutDown shutdownOk
  else w.fail .useAfterFree

/-- `TcpConnection::Start`. -/
def start (w : World) (c : Nat) : World :=
  let w := w.connOp c (w.conns c).start true
  if (w.conns c).connCallback then
    (w.emit (.connectionCallback c)).push (.user (.connection c))
  else w

/-! ## §5. `TcpServer` and `TCPClient` as owners. -/

/-- A slot is overwritten, or erased for another connection's sake; `held` is
what it held. -/
def letGo (w : World) : Option Nat → World
  | some o => (w.emit (.displaced o)).release o
  | none => w

/-- `TcpServer::RemoveConn`. -/
def removeConn (w : World) (s c : Nat) : World :=
  let server := w.servers s
  let name := (w.conns c).name
  let w := w.setServer s { server with conns := Function.update server.conns name none }
  -- `erase` goes by name, so it may drop a namesake
  if server.conns name = some c then w.release c else w.letGo (server.conns name)

/-- `_disConnectCallback`, tested and called. -/
def runDisconnectCallback (w : World) (k : Nat) : World :=
  if (w.clients k).disConnectCallback then
    (w.emit (.disconnectCallback k (w.clients k).state)).push (.user (.disconnect k))
  else w

/-- `TCPClient::HandleClose`. -/
def handleClose (w : World) (k c : Nat) : World :=
  let client := w.clients k
  if client.conn = some c then
    -- `_state` is left as it is
    ((w.setClient k { client with conn := none }).release c).runDisconnectCallback k
  -- `assert(conn == _conn)`
  else w.fail .assertFailed

/-- `_handler->DisableAll()`, which `Close` starts with. -/
def closeStart (w : World) (c : Nat) : World :=
  (w.emit (.closeEntered c)).connOp c (w.conns c).closeEnter true

/-- `_closeCallback(shared_from_this())`; the frame it leaves does the rest of
`Close`. -/
def runCloseCallback (w : World) (c : Nat) (callback : CloseCallback) : World :=
  let w := (w.push (.closing c)).emit (.closeCallback c)
  match callback with
  | .removeConn s => w.removeConn s c
  | .handleClose k => w.handleClose k c

/-- `TcpConnection::Close` up to the return of its close callback. -/
def close (w : World) (c : Nat) : World :=
  if w.live c then
    -- no test of `_state`: a second `Close` goes the same way
    let w := w.closeStart c
    match (w.conns c).closeCallback with
    | none => w.setConn c (w.conns c).closeReturn
    | some callback => w.runCloseCallback c callback
  else w.fail .useAfterFree

/-- `std::make_shared<TcpConnection>` and the three callback setters. -/
def newConn (w : World) (name : Text) (fd : Nat) (addr : InetAdress) (owner : CloseCallback)
    (connCallback msgCallback : Bool) : World :=
  { w with
    conns := Function.update w.conns w.connCount
      { TcpConnection.new w.connCount name fd addr with
        connCallback := connCallback
        msgCallback := msgCallback
        closeCallback := some owner }
    connCount := w.connCount + 1 }

end World

end SparkNet
