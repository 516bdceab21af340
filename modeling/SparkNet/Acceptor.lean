/-
  SparkNet.Acceptor — acceptors, accepted connections and their descriptors.

  `include/Acceptor.h` with the descriptor table made explicit: a number that is
  opened is the lowest free one below the limit, and opening fails only when
  there is none.  A descriptor belongs to the acceptor or the connection whose
  job it is to close it; `foreign` stands for the rest of the process, which may
  open and close descriptors of its own between any two steps and while an
  acceptor is being destroyed.

  What an accepted connection does in between is a `Session`.  `epoll_ctl`
  neither opens nor closes a descriptor, so the poller is left out but for one
  fact: a descriptor that has been closed reports no events.

  Main results:
    * `Reception.closed_once_iff` — every descriptor is closed once, by its
      owner, exactly in the runs that destroy no `Acceptor`;
    * `Reception.accept_balanced_iff` — accepting keeps the books exactly in the
      runs in which every accepted connection finds a callback.
-/
import SparkNet.DescriptorTable
import SparkNet.Ownership
import SparkNet.Session

namespace SparkNet

open Runs
open Descriptors (Table)

/-! ## §1. The objects. -/

/-- Whose job it is to close a descriptor. -/
inductive Owner where
  | acceptor (acceptor : Nat)
  | conn (conn : Nat)
  | foreign
  deriving DecidableEq, Repr

/-- `include/Acceptor.h`; `socket` is the `_fd` of `_socket`, and an `_idlefd`
of -1 is `none`. -/
structure Acceptor where
  socket : Nat
  handler : Handler HandlerCallback
  addr : InetAdress
  newConnCallback : Bool
  idlefd : Option Nat

/-- The SYS_CRITICAL_LOGs these classes can reach.  Each ends in `abort()`, for the
configured log level is assumed to let critical messages through. -/
inductive CriticalLog where
  | createSocket | createAcceptor | reuseAddr | closeSocket
  deriving DecidableEq, Repr

/-- `Start` has succeeded: it sets the read callback last. -/
def Acceptor.started (x : Acceptor) : Bool := x.handler.readCallback.isSome

/-- A process with any number of acceptors and accepted connections. -/
structure Reception where
  /-- The descriptors the process may have. -/
  limit : Nat
  table : Table Owner
  acceptors : Nat → Option Acceptor
  /-- Acceptors are numbered in the order they are made, connections likewise. -/
  acceptorCount : Nat
  conns : Nat → Option Session
  connCount : Nat
  /-- The descriptors `accept` has returned, newest first. -/
  accepted : List Nat
  /-- The descriptor given to each call of a new-connection callback. -/
  handed : List Nat
  aborted : Option CriticalLog

/-- Something the rest of the process does. -/
inductive ForeignCall where
  | create
  | close (n : Nat)
  deriving DecidableEq, Repr

namespace Reception

def init (limit : Nat) : Reception where
  limit := limit
  table := Table.empty
  acceptors := fun _ => none
  acceptorCount := 0
  conns := fun _ => none
  connCount := 0
  accepted := []
  handed := []
  aborted := none

/-! ## §2. `Acceptor`. -/

def setAcceptor (w : Reception) (a : Nat) (x : Option Acceptor) : Reception :=
  { w with acceptors := Function.update w.acceptors a x }

/-- `::close(fd)` where `fd` may be -1, which is no descriptor's number. -/
def closeInt (t : Table Owner) (fd : Option Nat) (o : Owner) : Table Owner :=
  match fd with
  | some n => (t.close n o).2
  | none => t

/-- The constructor; `reuseOk` is what `ReuseAddr` gets from `setsockopt`.  A call
that fails is critical and aborts, the log level permitting. -/
def construct (w : Reception) (reuseOk : Bool) : Reception :=
  let self := Owner.acceptor w.acceptorCount
  match w.table.create w.limit self with
  | (none, t) => { w with table := t, aborted := some .createSocket }
  | (some socket, t) =>
      match t.create w.limit self with
      | (none, t) => { w with table := t, aborted := some .createAcceptor }
      | (some idlefd, t) =>
          if reuseOk then
            { w.setAcceptor w.acceptorCount
                (some ⟨socket, Handler.new socket, InetAdress.new, false, some idlefd⟩) with
              table := t
              acceptorCount := w.acceptorCount + 1 }
          else { w with table := t, aborted := some .reuseAddr }

/-- `Start` on acceptor `a`, which is `x`. -/
def startAcceptor (w : Reception) (a : Nat) (x : Acceptor) (ip : Text) (port : BitVec 16)
    (bindOk listenOk : Bool) : Reception :=
  let (ok, addr) := x.addr.fromIpPort ip port
  let x := { x with addr := addr }
  if ok && bindOk && listenOk then
    w.setAcceptor a (some { x with
      handler := ({ x.handler with
        readCallback := some (HandlerCallback.acceptorHandleRead a) }).enableRead })
  else w.setAcceptor a (some x)

/-- The new-connection callback: it makes a `TcpConnection`, whose `_socket` has
the descriptor from then on. -/
def newConnection (w : Reception) (fd : Nat) (addr : InetAdress) (name : Text) : Reception :=
  { w with
    table := w.table.transfer fd (.conn w.connCount)
    handed := (w.table.slot fd).toList ++ w.handed
    conns := Function.update w.conns w.connCount (some (Session.new w.connCount name fd addr))
    connCount := w.connCount + 1 }

/-- The EMFILE branch of `HandleRead`; `again` says whether the second `accept`
finds a connection. -/
def makeRoom (w : Reception) (a : Nat) (x : Acceptor) (again : Bool) : Reception :=
  let self := Owner.acceptor a
  let t := closeInt w.table x.idlefd self
  let r := if again then t.create w.limit self else (none, t)
  -- what it accepted, it hangs up on
  let t' := closeInt r.2 r.1 self
  let s := t'.create w.limit self
  { w.setAcceptor a (some { x with idlefd := s.1 }) with
    table := s.2
    accepted := (r.1.map fun _ => t.issued).toList ++ w.accepted }

/-- `HandleRead`. -/
def handleRead (w : Reception) (a : Nat) (x : Acceptor) (accept : AcceptOutcome) (again : Bool)
    (name : Text) : Reception :=
  match accept with
  | .conn connfd addr =>
      let peerAddr := (InetAdress.new.fromAddr addr).2
      let w := { w with
        table := w.table.obtain connfd (.acceptor a)
        accepted := w.table.issued :: w.accepted }
      if x.newConnCallback then w.newConnection connfd peerAddr name
      -- the listening descriptor, and not `connfd`
      else { w with table := (w.table.close x.socket (.acceptor a)).2 }
  | .failed errno => if errno = .EMFILE then w.makeRoom a x again else w

/-- One call of the rest of the process; none when the descriptor it would close
is not its own. -/
def foreignCall (limit : Nat) (t : Table Owner) : ForeignCall → Option (Table Owner)
  | .create => some (t.create limit .foreign).2
  | .close n => if t.ownerAt n = some .foreign then some (t.close n .foreign).2 else none

/-- The end of `_socket`: `~Socket` closes the descriptor and aborts if it
cannot, the log level permitting. -/
def endSocket (w : Reception) (fd : Nat) (o : Owner) : Reception :=
  let r := w.table.close fd o
  { w with table := r.2, aborted := if r.1 then w.aborted else some .closeSocket }

/-- `~Acceptor`: the body closes both descriptors, then the members end, of
which `_socket` closes its own again.  `between` happens in between: the target
of `_newConnCallback` is destroyed there. -/
def destroy (w : Reception) (a : Nat) (x : Acceptor) (between : List ForeignCall) :
    Option Reception :=
  let self := Owner.acceptor a
  let t := closeInt w.table x.idlefd self
  let t := (t.close x.socket self).2
  (between.foldlM (foreignCall w.limit) t).map fun t =>
    { w.setAcceptor a none with table := t }.endSocket x.socket self

/-! ## §3. The machine. -/

inductive Step where
  | construct (reuseOk : Bool)
  | start (acceptor : Nat) (ip : Text) (port : BitVec 16) (bindOk listenOk : Bool)
  | setNewConnCallback (acceptor : Nat) (on : Bool)
  | handleRead (acceptor : Nat) (accept : AcceptOutcome) (again : Bool) (name : Text)
  | destroy (acceptor : Nat) (between : List ForeignCall)
  /-- A connection runs one of its member functions. -/
  | use (conn : Nat) (op : ConnOp)
  /-- The last `shared_ptr` to a connection goes. -/
  | drop (conn : Nat)
  | foreign (call : ForeignCall)

/-- The poller has an event for the acceptor's listening socket. -/
def reports (w : Reception) (a : Nat) (x : Acceptor) : Prop :=
  x.started = true ∧ w.table.ownerAt x.socket = some (.acceptor a)

instance (w : Reception) (a : Nat) (x : Acceptor) : Decidable (w.reports a x) := by
  unfold reports; infer_instance

/-- What `accept` can answer: a new descriptor has the lowest free number. -/
def admits (w : Reception) : AcceptOutcome → Prop
  | .conn fd _ => w.table.lowest w.limit = some fd
  | .failed _ => True

instance (w : Reception) (accept : AcceptOutcome) : Decidable (w.admits accept) :=
  match accept with
  | .conn fd _ => inferInstanceAs (Decidable (w.table.lowest w.limit = some fd))
  | .failed _ => isTrue trivial

def next (w : Reception) (l : Step) : Option Reception :=
  if w.aborted.isSome then none
  else
    match l with
    | .construct reuseOk => some (w.construct reuseOk)
    | .start a ip port bindOk listenOk =>
        (w.acceptors a).map fun x => w.startAcceptor a x ip port bindOk listenOk
    | .setNewConnCallback a on =>
        (w.acceptors a).map fun x => w.setAcceptor a (some { x with newConnCallback := on })
    | .handleRead a accept again name =>
        (w.acceptors a).bind fun x =>
          if w.reports a x ∧ w.admits accept then some (w.handleRead a x accept again name)
          else none
    | .destroy a between => (w.acceptors a).bind fun x => w.destroy a x between
    | .use c op =>
        (w.conns c).bind fun s => (s.step op).map fun s' =>
          { w with conns := Function.update w.conns c (some s') }
    | .drop c =>
        (w.conns c).map fun s =>
          { w with conns := Function.update w.conns c none }.endSocket s.conn.handler.fd (.conn c)
    | .foreign call => (foreignCall w.limit w.table call).map fun t => { w with table := t }

/-- The steps, one constructor for each thing that can happen. -/
inductive Turn (w : Reception) : Step → Reception → Prop
  | construct {reuseOk : Bool} : Turn w (.construct reuseOk) (w.construct reuseOk)
  | start {a : Nat} {x : Acceptor} {ip : Text} {port : BitVec 16} {bindOk listenOk : Bool}
      (hx : w.acceptors a = some x) :
      Turn w (.start a ip port bindOk listenOk) (w.startAcceptor a x ip port bindOk listenOk)
  | setNewConnCallback {a : Nat} {x : Acceptor} {on : Bool} (hx : w.acceptors a = some x) :
      Turn w (.setNewConnCallback a on) (w.setAcceptor a (some { x with newConnCallback := on }))
  | handleRead {a : Nat} {x : Acceptor} {accept : AcceptOutcome} {again : Bool} {name : Text}
      (hx : w.acceptors a = some x) (hreports : w.reports a x) (hadm : w.admits accept) :
      Turn w (.handleRead a accept again name) (w.handleRead a x accept again name)
  | destroy {a : Nat} {x : Acceptor} {between : List ForeignCall} {w' : Reception}
      (hx : w.acceptors a = some x) (hw' : w.destroy a x between = some w') :
      Turn w (.destroy a between) w'
  | use {c : Nat} {s s' : Session} {op : ConnOp} (hs : w.conns c = some s)
      (hstep : s.step op = some s') :
      Turn w (.use c op) { w with conns := Function.update w.conns c (some s') }
  | drop {c : Nat} {s : Session} (hs : w.conns c = some s) :
      Turn w (.drop c)
        ({ w with conns := Function.update w.conns c none }.endSocket s.conn.handler.fd (.conn c))
  | foreign {call : ForeignCall} {t : Table Owner}
      (ht : foreignCall w.limit w.table call = some t) :
      Turn w (.foreign call) { w with table := t }

/-- **The inversion rule**: every step is one of the turns. -/
theorem next_turn {w w' : Reception} {l : Step} (h : w.next l = some w') :
    w.aborted = none ∧ Turn w l w' := by
  unfold next at h
  rw [Option.ite_none_left_eq_some] at h
  obtain ⟨hrun, h⟩ := h
  refine ⟨by simpa using hrun, ?_⟩
  cases l <;> simp only [Option.map_eq_some_iff, Option.bind_eq_some_iff,
    Option.ite_none_right_eq_some, Option.some.injEq] at h
  case construct => exact h ▸ Turn.construct
  case start =>
    obtain ⟨x, hx, rfl⟩ := h
    exact Turn.start hx
  case setNewConnCallback =>
    obtain ⟨x, hx, rfl⟩ := h
    exact Turn.setNewConnCallback hx
  case handleRead =>
    obtain ⟨x, hx, ⟨hreports, hadm⟩, rfl⟩ := h
    exact Turn.handleRead hx hreports hadm
  case destroy =>
    obtain ⟨x, hx, hw'⟩ := h
    exact Turn.destroy hx hw'
  case use =>
    obtain ⟨s, hs, s', hstep, rfl⟩ := h
    exact Turn.use hs hstep
  case drop =>
    obtain ⟨s, hs, rfl⟩ := h
    exact Turn.drop hs
  case foreign =>
    obtain ⟨t, ht, rfl⟩ := h
    exact Turn.foreign ht

/-! ## §4. Who has which descriptor. -/

/-- Every live object has the descriptors it will close. -/
structure Housed (w : Reception) : Prop where
  sound : w.table.Sound
  within : w.table.Within w.limit
  conn : ∀ c s, w.conns c = some s →
    c < w.connCount ∧ w.table.ownerAt s.conn.handler.fd = some (.conn c)
  /-- A connection never has a second descriptor. -/
  sole : ∀ k c, w.table.owner k = some (.conn c) →
    c < w.connCount ∧ (∀ s, w.conns c = some s → w.table.slot s.conn.handler.fd = some k)
      ∧ (w.conns c = none → w.table.closes k = 1)
  idle : ∀ a x, w.acceptors a = some x → a < w.acceptorCount ∧
    ∃ n, x.idlefd = some n ∧ w.table.ownerAt n = some (.acceptor a) ∧ n ≠ x.socket

theorem housed_init (limit : Nat) : (init limit).Housed where
  sound := Table.Sound.empty
  within := fun _ _ h => absurd h (by simp [init, Table.empty])
  conn := fun _ _ h => absurd h (by simp [init])
  sole := fun k c h => absurd h (by simp [init, Table.empty])
  idle := fun _ _ h => absurd h (by simp [init])

section

variable {w w' : Reception} {a : Nat} {x : Acceptor}

/-- The connections' share of `Housed` depends on their own descriptors only. -/
theorem Housed.conns_of_moves {touched : Owner → Prop} (h : w.Housed)
    (hm : Table.Moves w.limit touched w.table w'.table) (hconn : ∀ c, ¬ touched (.conn c))
    (hconns : w'.conns = w.conns) (hcount : w'.connCount = w.connCount) :
    (∀ c s, w'.conns c = some s →
        c < w'.connCount ∧ w'.table.ownerAt s.conn.handler.fd = some (.conn c))
      ∧ ∀ k c, w'.table.owner k = some (.conn c) → c < w'.connCount
        ∧ (∀ s, w'.conns c = some s → w'.table.slot s.conn.handler.fd = some k)
        ∧ (w'.conns c = none → w'.table.closes k = 1) := by
  rw [hconns, hcount]
  constructor
  · intro c s hs
    exact ⟨(h.conn c s hs).1, hm.ownerAt (hconn c) (h.conn c s hs).2⟩
  · intro k c hk
    have hk' := (hm.owner k _ (hconn c)).mp hk
    obtain ⟨hc, hlive, hdead⟩ := h.sole k c hk'
    exact ⟨hc, fun s hs => hm.slot _ k _ (hconn c) hk' (hlive s hs),
      fun hn => hm.closed k (hdead hn)⟩

/-- Where no connection's descriptor is touched, only the acceptors remain to be
looked at. -/
theorem Housed.of_moves {touched : Owner → Prop} (h : w.Housed)
    (hm : Table.Moves w.limit touched w.table w'.table) (hconn : ∀ c, ¬ touched (.conn c))
    (hlimit : w'.limit = w.limit)
    (hconns : w'.conns = w.conns) (hcount : w'.connCount = w.connCount)
    (hidle : ∀ a x, w'.acceptors a = some x → a < w'.acceptorCount ∧
      ∃ n, x.idlefd = some n ∧ w'.table.ownerAt n = some (.acceptor a) ∧ n ≠ x.socket) :
    w'.Housed where
  sound := hm.sound
  within := by
    rw [hlimit]
    exact hm.within h.within
  conn := (h.conns_of_moves hm hconn hconns hcount).1
  sole := (h.conns_of_moves hm hconn hconns hcount).2
  idle := hidle

/-- What an acceptor that is not touched keeps. -/
theorem Housed.idle_of_moves {touched : Owner → Prop} (h : w.Housed)
    (hm : Table.Moves w.limit touched w.table w'.table) (ha : ¬ touched (.acceptor a))
    (hx : w.acceptors a = some x) :
    ∃ n, x.idlefd = some n ∧ w'.table.ownerAt n = some (.acceptor a) ∧ n ≠ x.socket := by
  obtain ⟨_, n, hn, howner, hne⟩ := h.idle a x hx
  exact ⟨n, hn, hm.ownerAt ha howner, hne⟩

/-! ### The constructor. -/

/-- `Acceptor::Acceptor`: either the process ends, or the new acceptor has two
descriptors of its own. -/
theorem construct_cases (w : Reception) (reuseOk : Bool) :
    (∃ t log, w.construct reuseOk = { w with table := t, aborted := some log }
        ∧ log ≠ .closeSocket ∧ (t = w.table
          ∨ t = (w.table.create w.limit (.acceptor w.acceptorCount)).2
          ∨ t = ((w.table.create w.limit (.acceptor w.acceptorCount)).2.create w.limit
            (.acceptor w.acceptorCount)).2))
      ∨ ∃ socket idlefd, w.table.lowest w.limit = some socket
        ∧ (w.table.obtain socket (.acceptor w.acceptorCount)).lowest w.limit = some idlefd
        ∧ w.construct reuseOk = { w.setAcceptor w.acceptorCount
              (some ⟨socket, Handler.new socket, InetAdress.new, false, some idlefd⟩) with
            table := (w.table.obtain socket (.acceptor w.acceptorCount)).obtain idlefd
              (.acceptor w.acceptorCount)
            acceptorCount := w.acceptorCount + 1 } := by
  cases h : w.table.lowest w.limit with
  | none =>
      refine Or.inl ⟨w.table, .createSocket, ?_, by decide, Or.inl rfl⟩
      simp only [construct, Table.create_of_full h]
  | some socket =>
      have hfst := Table.create_of_lowest (o := Owner.acceptor w.acceptorCount) h
      cases h' : (w.table.obtain socket (.acceptor w.acceptorCount)).lowest w.limit with
      | none =>
          refine Or.inl ⟨_, .createAcceptor, ?_, by decide, Or.inr (Or.inl rfl)⟩
          simp only [construct, hfst, Table.create_of_full h']
      | some idlefd =>
          have hsnd := Table.create_of_lowest (o := Owner.acceptor w.acceptorCount) h'
          cases reuseOk with
          | false =>
              refine Or.inl ⟨_, .reuseAddr, ?_, by decide, Or.inr (Or.inr rfl)⟩
              simp only [construct, hfst, hsnd, Bool.false_eq_true, if_false]
          | true =>
              refine Or.inr ⟨socket, idlefd, rfl, h', ?_⟩
              simp only [construct, hfst, hsnd, if_true]

/-- It opens descriptors for itself only. -/
theorem construct_moves (h : w.table.Sound) (reuseOk : Bool) :
    Table.Moves w.limit (· = Owner.acceptor w.acceptorCount) w.table
      (w.construct reuseOk).table := by
  have hfst : Table.Moves w.limit (· = Owner.acceptor w.acceptorCount) w.table
      (w.table.create w.limit (.acceptor w.acceptorCount)).2 := .create h rfl
  have hsnd := hfst.trans (.create hfst.sound (o := .acceptor w.acceptorCount) rfl)
  rcases construct_cases w reuseOk with ⟨t, log, heq, _, ht⟩ | ⟨socket, idlefd, hl, hl', heq⟩
  · rw [heq]
    show Table.Moves _ _ w.table t
    rcases ht with rfl | rfl | rfl
    · exact .refl h
    · exact hfst
    · exact hsnd
  · rw [heq]
    rw [Table.create_of_lowest hl, Table.create_of_lowest hl'] at hsnd
    exact hsnd

theorem Housed.construct (h : w.Housed) (reuseOk : Bool) : (w.construct reuseOk).Housed := by
  have hself : ∀ c, ¬ (Owner.conn c = .acceptor w.acceptorCount) := fun c => by simp
  have hm := construct_moves h.sound reuseOk
  rcases construct_cases w reuseOk with ⟨t, log, heq, _, ht⟩ | ⟨socket, idlefd, hl, hl', heq⟩
  · rw [heq] at hm ⊢
    refine h.of_moves hm hself rfl rfl rfl fun a x hx => ⟨(h.idle a x hx).1, ?_⟩
    refine h.idle_of_moves hm (fun he => ?_) hx
    cases he
    exact Nat.lt_irrefl _ (h.idle _ x hx).1
  · rw [heq] at hm ⊢
    refine h.of_moves hm hself rfl rfl rfl fun a x hx => ?_
    by_cases ha : a = w.acceptorCount
    · subst ha
      -- the new acceptor: its second number was free when the first was not
      have hx' : (⟨socket, Handler.new socket, InetAdress.new, false, some idlefd⟩ : Acceptor)
          = x := Option.some.inj ((Function.update_self _ _ w.acceptors).symm.trans hx)
      subst hx'
      refine ⟨Nat.lt_succ_self _, idlefd, rfl, Table.ownerAt_obtain_same, ?_⟩
      intro he
      have hfree := (Table.lowest_spec hl').1
      rw [he, Table.slot_obtain_same] at hfree
      exact absurd hfree (by simp)
    · have hx' : w.acceptors a = some x :=
        (Function.update_of_ne ha _ w.acceptors).symm.trans hx
      refine ⟨Nat.lt_succ_of_lt (h.idle a x hx').1, h.idle_of_moves hm (fun he => ?_) hx'⟩
      cases he
      exact ha rfl

/-! ### `HandleRead`. -/

/-- What the EMFILE branch leaves: the books right, both descriptors open, and
what the second `accept` returned closed again. -/
structure MadeRoom (w w' : Reception) (a : Nat) (x : Acceptor) : Prop where
  moves : Table.Moves w.limit (· = .acceptor a) w.table w'.table
  clean : w.table.Clean → w'.table.Clean
  listening : w'.table.ownerAt x.socket = some (.acceptor a)
  idle : ∃ n, w'.table.ownerAt n = some (.acceptor a) ∧ n ≠ x.socket
    ∧ w'.acceptors = Function.update w.acceptors a (some { x with idlefd := some n })
  accepted : ∀ k, k ∈ w'.accepted → k ∈ w.accepted
    ∨ (w.table.issued ≤ k ∧ k < w'.table.issued ∧ w'.table.closes k = 1)
  rest : w'.limit = w.limit ∧ w'.acceptorCount = w.acceptorCount ∧ w'.conns = w.conns
    ∧ w'.connCount = w.connCount ∧ w'.handed = w.handed ∧ w'.aborted = w.aborted

/-- `open("/dev/null")` at the end of the branch: a number is free, so it gets one. -/
theorem madeRoom_open {t : Table Owner} {k : Nat} {acc : List Nat}
    (hm : Table.Moves w.limit (· = Owner.acceptor a) w.table t) (hclean : w.table.Clean → t.Clean)
    (hsock : t.ownerAt x.socket = some (.acceptor a))
    (hfree : t.slot k = none) (hlim : k < w.limit)
    (hacc : ∀ j, j ∈ acc → j ∈ w.accepted
      ∨ (w.table.issued ≤ j ∧ j < t.issued ∧ t.closes j = 1)) :
    MadeRoom w { w.setAcceptor a (some { x with idlefd := (t.create w.limit (.acceptor a)).1 }) with
      table := (t.create w.limit (.acceptor a)).2
      accepted := acc } a x := by
  obtain ⟨n, hn⟩ := Table.lowest_of_free hfree hlim
  obtain ⟨hnfree, hnlim⟩ := Table.lowest_spec hn
  have hne : x.socket ≠ n := Table.ne_of_ownerAt hsock hnfree
  rw [Table.create_of_lowest hn]
  exact {
    moves := hm.trans (.obtain hm.sound hnfree hnlim rfl)
    clean := hclean
    listening := (hm.sound.ownerAt_obtain_other hne).trans hsock
    idle := ⟨n, Table.ownerAt_obtain_same, hne.symm, rfl⟩
    accepted := by
      intro j hj
      rcases hacc j hj with hj | ⟨h1, h2, h3⟩
      · exact Or.inl hj
      · exact Or.inr ⟨h1, Nat.lt_succ_of_lt h2, h3⟩
    rest := ⟨rfl, rfl, rfl, rfl, rfl, rfl⟩ }

theorem Housed.makeRoom (h : w.Housed) (hx : w.acceptors a = some x) (again : Bool)
    (hsock : w.table.ownerAt x.socket = some (.acceptor a)) :
    MadeRoom w (w.makeRoom a x again) a x := by
  obtain ⟨_, n, hidle, hn, hne⟩ := h.idle a x hx
  obtain ⟨k, hk, _⟩ := Table.ownerAt_eq_some.mp hn
  -- `::close(_idlefd)`
  have hclosed : Table.Moves w.limit (· = Owner.acceptor a) w.table
      (w.table.close n (.acceptor a)).2 :=
    .close h.sound (fun p hp => (Option.some.inj (hn.symm.trans hp)).symm) _
  have hclean : w.table.Clean → (w.table.close n (.acceptor a)).2.Clean := fun hc =>
    Table.clean_close.mpr ⟨hn, hc⟩
  have hsock1 : (w.table.close n (.acceptor a)).2.ownerAt x.socket = some (.acceptor a) :=
    (Table.ownerAt_close_other hne.symm).trans hsock
  have hlim : n < w.limit := h.within n k hk
  cases again with
  | false =>
      -- the second `accept` fails, and -1 is closed
      have heq : w.makeRoom a x false =
          { w.setAcceptor a (some { x with
              idlefd := ((w.table.close n (.acceptor a)).2.create w.limit (.acceptor a)).1 }) with
            table := ((w.table.close n (.acceptor a)).2.create w.limit (.acceptor a)).2
            accepted := w.accepted } := by
        simp only [Reception.makeRoom, hidle, closeInt, Bool.false_eq_true, if_false,
          Option.map_none, Option.toList_none, List.nil_append]
      rw [heq]
      exact madeRoom_open hclosed hclean hsock1 Table.slot_close_same hlim fun j hj => Or.inl hj
  | true =>
      obtain ⟨m, hm⟩ := Table.lowest_of_free (t := (w.table.close n (.acceptor a)).2)
        Table.slot_close_same hlim
      obtain ⟨hmfree, hmlim⟩ := Table.lowest_spec hm
      -- the connection is accepted as `m` and closed
      have hgot := hclosed.trans (.obtain hclosed.sound hmfree hmlim (o := .acceptor a) rfl)
      have howner := Table.ownerAt_obtain_same (t := (w.table.close n (.acceptor a)).2) (n := m)
        (o := Owner.acceptor a)
      have hmoves := hgot.trans (.close hgot.sound
        (fun p hp => (Option.some.inj (howner.symm.trans hp)).symm) (.acceptor a))
      have hsm : x.socket ≠ m := Table.ne_of_ownerAt hsock1 hmfree
      have heq : w.makeRoom a x true =
          { w.setAcceptor a (some { x with
              idlefd := ((((w.table.close n (.acceptor a)).2.obtain m (.acceptor a)).close m
                (.acceptor a)).2.create w.limit (.acceptor a)).1 }) with
            table := ((((w.table.close n (.acceptor a)).2.obtain m (.acceptor a)).close m
              (.acceptor a)).2.create w.limit (.acceptor a)).2
            accepted := (w.table.close n (.acceptor a)).2.issued :: w.accepted } := by
        simp only [Reception.makeRoom, hidle, closeInt, if_true, Table.create_of_lowest hm,
          Option.map_some, Option.toList_some, List.cons_append, List.nil_append]
      rw [heq]
      refine madeRoom_open hmoves (fun hc => ?_) ?_ Table.slot_close_same ?_ fun j hj => ?_
      · exact Table.clean_close.mpr ⟨howner, hclean hc⟩
      · rw [Table.ownerAt_close_other hsm, hclosed.sound.ownerAt_obtain_other hsm, hsock1]
      · exact hmlim
      · rcases List.mem_cons.mp hj with rfl | hj
        · refine Or.inr ⟨Nat.le_of_eq Table.issued_close.symm, ?_, ?_⟩
          · simp only [Table.issued_close, Table.issued_obtain]
            exact Nat.lt_succ_self _
          · rw [Table.closes_close Table.slot_obtain_same, if_pos rfl,
              hgot.sound.unclosed m _ Table.slot_obtain_same]
        · exact Or.inl hj

/-- The number `accept` returns was free, so it is none of those in use. -/
theorem ne_of_admits {fd m : Nat} {addr : SockaddrIn} {o : Owner}
    (hadm : w.admits (.conn fd addr)) (hm : w.table.ownerAt m = some o) : m ≠ fd :=
  Table.ne_of_ownerAt hm (Table.lowest_spec hadm).1

theorem Housed.obtain_moves (h : w.Housed) {fd : Nat} {addr : SockaddrIn}
    (hadm : w.admits (.conn fd addr)) :
    Table.Moves w.limit (· = Owner.acceptor a) w.table (w.table.obtain fd (.acceptor a)) :=
  .obtain h.sound (Table.lowest_spec hadm).1 (Table.lowest_spec hadm).2 rfl

/-- Handing a new descriptor over concerns no other number. -/
theorem Housed.handedOver_at (h : w.Housed) {fd m : Nat} {addr : SockaddrIn} {o : Owner}
    (hadm : w.admits (.conn fd addr)) (hm : w.table.ownerAt m = some o) :
    ((w.table.obtain fd (.acceptor a)).transfer fd (.conn w.connCount)).ownerAt m = some o := by
  have hne := ne_of_admits hadm hm
  rw [(h.obtain_moves (a := a) hadm).sound.ownerAt_transfer_other hne,
    h.sound.ownerAt_obtain_other hne, hm]

/-- The descriptor goes to the new connection and nowhere else. -/
theorem Housed.handedOver (h : w.Housed) {fd : Nat} {addr : SockaddrIn}
    (hadm : w.admits (.conn fd addr)) (peer : InetAdress) (name : Text) :
    Housed (newConnection { w with
      table := w.table.obtain fd (.acceptor a)
      accepted := w.table.issued :: w.accepted } fd peer name) := by
  have hm := h.obtain_moves (a := a) hadm
  have hslot : (w.table.obtain fd (.acceptor a)).slot fd = some w.table.issued :=
    Table.slot_obtain_same
  have hnew : ∀ c, ¬ (Owner.conn c = .acceptor a) := fun c => by simp
  have howner : ∀ k, k ≠ w.table.issued →
      ((w.table.obtain fd (.acceptor a)).transfer fd (.conn w.connCount)).owner k
        = w.table.owner k := by
    intro k hk
    rw [Table.owner_transfer_other hslot hk, Table.owner_obtain_other hk]
  refine ⟨hm.sound.transfer fd _, ?_, ?_, ?_, ?_⟩
  · intro m j hmj
    have hmj : ((w.table.obtain fd (.acceptor a)).transfer fd (.conn w.connCount)).slot m
        = some j := hmj
    rw [Table.slot_transfer] at hmj
    exact hm.within h.within m j hmj
  · intro c s hs
    by_cases hc : c = w.connCount
    · subst hc
      obtain rfl : Session.new w.connCount name fd peer = s :=
        Option.some.inj ((Function.update_self _ _ w.conns).symm.trans hs)
      exact ⟨Nat.lt_succ_self _, Table.ownerAt_transfer_same hslot⟩
    · obtain ⟨hlt, hat⟩ := h.conn c s ((Function.update_of_ne hc _ w.conns).symm.trans hs)
      exact ⟨Nat.lt_succ_of_lt hlt, h.handedOver_at hadm hat⟩
  · intro k c hk
    show c < w.connCount + 1 ∧ (∀ s, Function.update w.conns w.connCount _ c = some s →
      ((w.table.obtain fd (.acceptor a)).transfer fd _).slot s.conn.handler.fd = some k)
      ∧ (Function.update w.conns w.connCount _ c = none →
        ((w.table.obtain fd (.acceptor a)).transfer fd _).closes k = 1)
    by_cases hk' : k = w.table.issued
    · subst hk'
      obtain rfl : w.connCount = c := by
        have hself := Table.owner_transfer_same (o := Owner.conn w.connCount) hslot
        cases hself.symm.trans hk
        rfl
      rw [Function.update_self, Table.slot_transfer]
      refine ⟨Nat.lt_succ_self _, fun s hs => ?_, fun hn => absurd hn (by simp)⟩
      cases hs
      exact hslot
    · obtain ⟨hc, hlive, hdead⟩ := h.sole k c ((howner k hk').symm.trans hk)
      rw [Function.update_of_ne (Nat.ne_of_lt hc), Table.slot_transfer, Table.closes_transfer]
      exact ⟨Nat.lt_succ_of_lt hc,
        fun s hs => hm.slot _ k _ (hnew c) ((howner k hk').symm.trans hk) (hlive s hs), hdead⟩
  · intro b y hy
    obtain ⟨hb, n, hn, hat, hne⟩ := h.idle b y hy
    exact ⟨hb, n, hn, h.handedOver_at hadm hat, hne⟩

/-- Without a callback the listening descriptor is closed. -/
theorem Housed.hungUp (h : w.Housed) {fd : Nat} {addr : SockaddrIn}
    (hadm : w.admits (.conn fd addr)) (hsock : w.table.ownerAt x.socket = some (.acceptor a))
    (hx : w.acceptors a = some x) (acc : List Nat) :
    Housed { w with
      table := ((w.table.obtain fd (.acceptor a)).close x.socket (.acceptor a)).2
      accepted := acc } := by
  have hm := h.obtain_moves (a := a) hadm
  have hsock1 : (w.table.obtain fd (.acceptor a)).ownerAt x.socket = some (.acceptor a) := by
    rw [h.sound.ownerAt_obtain_other (ne_of_admits hadm hsock), hsock]
  have hmoves := hm.trans (.close hm.sound
    (fun p hp => (Option.some.inj (hsock1.symm.trans hp)).symm) (.acceptor a))
  refine h.of_moves hmoves (fun c => by simp) rfl rfl rfl fun b y hy => ⟨(h.idle b y hy).1, ?_⟩
  by_cases hb : b = a
  · subst hb
    obtain rfl : x = y := Option.some.inj (hx.symm.trans hy)
    obtain ⟨_, n, hn, hat, hne⟩ := h.idle b x hx
    refine ⟨n, hn, ?_, hne⟩
    show ((w.table.obtain fd (.acceptor b)).close x.socket _).2.ownerAt n = _
    rw [Table.ownerAt_close_other hne, h.sound.ownerAt_obtain_other (ne_of_admits hadm hat), hat]
  · exact h.idle_of_moves hmoves (fun he => hb (Owner.acceptor.inj he)) hy

theorem Housed.madeRoom (h : w.Housed) (hm : MadeRoom w w' a x)
    (hx : w.acceptors a = some x) : w'.Housed := by
  obtain ⟨hlimit, hcount, hconns, hconnCount, _, _⟩ := hm.rest
  obtain ⟨n, hn, hne, hacc⟩ := hm.idle
  refine h.of_moves hm.moves (fun c => by simp) hlimit hconns hconnCount fun b y hy => ?_
  rw [hcount]
  rw [hacc] at hy
  by_cases hb : b = a
  · subst hb
    obtain rfl : { x with idlefd := some n } = y :=
      Option.some.inj ((Function.update_self _ _ w.acceptors).symm.trans hy)
    exact ⟨(h.idle b x hx).1, n, rfl, hn, hne⟩
  · have hy' : w.acceptors b = some y := (Function.update_of_ne hb _ w.acceptors).symm.trans hy
    exact ⟨(h.idle b y hy').1,
      h.idle_of_moves hm.moves (fun he => hb (Owner.acceptor.inj he)) hy'⟩

theorem Housed.handleRead (h : w.Housed) (hx : w.acceptors a = some x)
    (hreports : w.reports a x) {accept : AcceptOutcome} (hadm : w.admits accept) (again : Bool)
    (name : Text) : (w.handleRead a x accept again name).Housed := by
  cases accept with
  | failed errno =>
      unfold Reception.handleRead
      split
      next haccept => exact absurd haccept (by simp)
      next =>
        split
        next => exact h.madeRoom (h.makeRoom hx again hreports.2) hx
        next => exact h
  | conn fd addr =>
      cases hcb : x.newConnCallback with
      | true =>
          simp only [Reception.handleRead, hcb, if_true]
          exact h.handedOver hadm _ name
      | false =>
          simp only [Reception.handleRead, hcb, Bool.false_eq_true, if_false]
          exact h.hungUp hadm hreports.2 hx _

/-! ### Connections, destruction and the rest of the process. -/

/-- No member function changes the descriptor. -/
theorem fd_of_step {s s' : Session} {op : ConnOp} (h : s.step op = some s') :
    s'.conn.handler.fd = s.conn.handler.fd := by
  have hparts : s'.conn.parts = s.conn.parts := by
    cases op with
    | start => cases h; exact TcpConnection.parts_start _
    | send mem data len out =>
        obtain ⟨_, rfl⟩ := Session.step_send h
        exact TcpConnection.parts_send _ mem data len out
    | handleWrite out =>
        obtain ⟨_, rfl⟩ := Session.step_handleWrite h
        exact TcpConnection.parts_handleWrite _ out
    | handleRead r =>
        obtain ⟨_, ⟨_, _, rfl⟩ | ⟨_, rfl⟩ | ⟨bytes, _, rfl⟩⟩ := Session.step_handleRead h
        · rfl
        · exact TcpConnection.parts_closeEnter _
        · exact TcpConnection.parts_receive _ bytes
    | retrieve len => cases h; exact TcpConnection.parts_retrieve _ len
    | retrieveAll => cases h; exact TcpConnection.parts_retrieveAll _
    | shutDown => cases h; exact TcpConnection.parts_shutDown _
    | close => cases h; exact TcpConnection.parts_closeEnter _
    | closeReturn =>
        obtain ⟨_, rfl⟩ := Session.step_closeReturn h
        exact TcpConnection.parts_closeReturn _
  exact congrArg ConnParts.fd hparts

theorem Housed.use (h : w.Housed) {c : Nat} {s s' : Session} {op : ConnOp}
    (hs : w.conns c = some s) (hstep : s.step op = some s') :
    Housed { w with conns := Function.update w.conns c (some s') } := by
  have hfd := fd_of_step hstep
  refine ⟨h.sound, h.within, ?_, ?_, h.idle⟩
  · intro d t ht
    by_cases hd : d = c
    · subst hd
      obtain rfl : s' = t := Option.some.inj ((Function.update_self _ _ w.conns).symm.trans ht)
      rw [hfd]
      exact h.conn d s hs
    · exact h.conn d t ((Function.update_of_ne hd _ w.conns).symm.trans ht)
  · intro k d hk
    obtain ⟨hlt, hlive, hdead⟩ := h.sole k d hk
    refine ⟨hlt, fun t ht => ?_, fun hn => ?_⟩
    · by_cases hd : d = c
      · subst hd
        obtain rfl : s' = t := Option.some.inj ((Function.update_self _ _ w.conns).symm.trans ht)
        rw [hfd]
        exact hlive s hs
      · exact hlive t ((Function.update_of_ne hd _ w.conns).symm.trans ht)
    · by_cases hd : d = c
      · subst hd
        exact absurd ((Function.update_self _ _ w.conns).symm.trans hn) (by simp)
      · exact hdead ((Function.update_of_ne hd _ w.conns).symm.trans hn)

/-- `~TcpConnection`: its descriptor is open and its own, so `~Socket` closes it. -/
theorem Housed.drop_moves (h : w.Housed) {c : Nat} {s : Session} (hs : w.conns c = some s) :
    Table.Moves w.limit (· = Owner.conn c) w.table (w.table.close s.conn.handler.fd (.conn c)).2 :=
  .close h.sound (fun _ hp => (Option.some.inj ((h.conn c s hs).2.symm.trans hp)).symm) _

theorem Housed.drop (h : w.Housed) {c : Nat} {s : Session} (hs : w.conns c = some s) :
    Housed ({ w with conns := Function.update w.conns c none }.endSocket s.conn.handler.fd
      (.conn c)) := by
  obtain ⟨_, hat⟩ := h.conn c s hs
  obtain ⟨j, hslot, hj⟩ := Table.ownerAt_eq_some.mp hat
  have hm := h.drop_moves hs
  refine ⟨hm.sound, hm.within h.within, ?_, ?_, ?_⟩
  · intro d t ht
    have hd : d ≠ c := by
      rintro rfl
      exact absurd ((Function.update_self _ _ w.conns).symm.trans ht) (by simp)
    obtain ⟨hlt, hdt⟩ := h.conn d t ((Function.update_of_ne hd _ w.conns).symm.trans ht)
    exact ⟨hlt, hm.ownerAt (fun he => hd (Owner.conn.inj he)) hdt⟩
  · intro k d hk
    have hk : (w.table.close s.conn.handler.fd (.conn c)).2.owner k = some (.conn d) := hk
    rw [Table.owner_close] at hk
    obtain ⟨hlt, hlive, hdead⟩ := h.sole k d hk
    refine ⟨hlt, fun t ht => ?_, fun hn => ?_⟩
    · have hd : d ≠ c := by
        rintro rfl
        exact absurd ((Function.update_self _ _ w.conns).symm.trans ht) (by simp)
      exact hm.slot _ k _ (fun he => hd (Owner.conn.inj he)) hk
        (hlive t ((Function.update_of_ne hd _ w.conns).symm.trans ht))
    · by_cases hd : d = c
      · -- its only descriptor is the one just closed
        subst hd
        obtain rfl : j = k := Option.some.inj (hslot.symm.trans (hlive s hs))
        show (w.table.close s.conn.handler.fd (.conn d)).2.closes j = 1
        rw [Table.closes_close hslot, if_pos rfl, h.sound.unclosed _ j hslot]
      · exact hm.closed k (hdead ((Function.update_of_ne hd _ w.conns).symm.trans hn))
  · intro a x hx
    exact ⟨(h.idle a x hx).1, h.idle_of_moves hm (fun he => by cases he) hx⟩

theorem foreignCall_moves {limit : Nat} {t t' : Table Owner} {call : ForeignCall} (h : t.Sound)
    (hcall : foreignCall limit t call = some t') : Table.Moves limit (· = .foreign) t t' := by
  cases call with
  | create =>
      cases hcall
      exact .create h rfl
  | close n =>
      obtain ⟨hn, ht'⟩ := Option.ite_none_right_eq_some.mp hcall
      cases ht'
      exact .close h (fun p hp => (Option.some.inj (hn.symm.trans hp)).symm) _

theorem foreignCalls_moves {limit : Nat} {calls : List ForeignCall} :
    ∀ {t t' : Table Owner}, t.Sound → calls.foldlM (foreignCall limit) t = some t' →
      Table.Moves limit (· = .foreign) t t' := by
  induction calls with
  | nil =>
      intro t t' h hcalls
      cases hcalls
      exact .refl h
  | cons call calls ih =>
      intro t t' h hcalls
      obtain ⟨t₁, hfst, hrest⟩ := Option.bind_eq_some_iff.mp hcalls
      have hm := foreignCall_moves h hfst
      exact hm.trans (ih hm.sound hrest)

/-- Foreign calls put nothing but foreign descriptors under a number. -/
theorem foreignCalls_at {limit n : Nat} {calls : List ForeignCall} :
    ∀ {t t' : Table Owner}, t.Sound → (∀ o, t.ownerAt n = some o → o = .foreign) →
      calls.foldlM (foreignCall limit) t = some t' → ∀ o, t'.ownerAt n = some o → o = .foreign := by
  induction calls with
  | nil =>
      intro t t' _ hn hcalls
      cases hcalls
      exact hn
  | cons call calls ih =>
      intro t t' h hn hcalls
      obtain ⟨t₁, hfst, hrest⟩ := Option.bind_eq_some_iff.mp hcalls
      refine ih (foreignCall_moves h hfst).sound ?_ hrest
      intro o ho
      cases call with
      | create =>
          cases hfst
          cases hl : t.lowest limit with
          | none =>
              rw [Table.create_of_full hl] at ho
              exact hn o ho
          | some m =>
              rw [Table.create_of_lowest hl] at ho
              by_cases hm : n = m
              · subst hm
                rw [Table.ownerAt_obtain_same] at ho
                exact (Option.some.inj ho).symm
              · rw [h.ownerAt_obtain_other hm] at ho
                exact hn o ho
      | close m =>
          obtain ⟨_, ht₁⟩ := Option.ite_none_right_eq_some.mp hfst
          cases ht₁
          by_cases hm : n = m
          · subst hm
            rw [Table.ownerAt_close_same] at ho
            exact absurd ho (by simp)
          · rw [Table.ownerAt_close_other hm] at ho
            exact hn o ho

theorem closeInt_sound {t : Table Owner} (h : t.Sound) (fd : Option Nat) (o : Owner) :
    (closeInt t fd o).Sound := by
  cases fd with
  | none => exact h
  | some n => exact h.close n o

/-- What `~Acceptor` comes to: when `_socket` ends, its number is free or
foreign. -/
theorem destroy_cases {between : List ForeignCall} (h : w.table.Sound)
    (hw' : w.destroy a x between = some w') :
    ∃ t, between.foldlM (foreignCall w.limit)
        ((closeInt w.table x.idlefd (.acceptor a)).close x.socket (.acceptor a)).2 = some t
      ∧ (∀ o, t.ownerAt x.socket = some o → o = .foreign)
      ∧ w' = { w.setAcceptor a none with table := t }.endSocket x.socket (.acceptor a) := by
  obtain ⟨t, ht, rfl⟩ := Option.map_eq_some_iff.mp hw'
  refine ⟨t, ht, ?_, rfl⟩
  refine foreignCalls_at ((closeInt_sound h _ _).close _ _) (fun o ho => ?_) ht
  rw [Table.ownerAt_close_same] at ho
  exact absurd ho (by simp)

/-- The second close of the listening number is never rightful. -/
theorem destroy_unclean {between : List ForeignCall} (h : w.table.Sound)
    (hw' : w.destroy a x between = some w') : ¬ w'.table.Clean := by
  obtain ⟨t, _, hat, rfl⟩ := destroy_cases h hw'
  intro hclean
  have hclean : (t.close x.socket (.acceptor a)).2.Clean := hclean
  exact absurd (hat _ (Table.clean_close.mp hclean).1) (by simp)

theorem Housed.destroy (h : w.Housed) (hx : w.acceptors a = some x)
    (hsock : w.table.ownerAt x.socket = some (.acceptor a)) {between : List ForeignCall}
    (hw' : w.destroy a x between = some w') :
    Table.Moves w.limit (fun o => o = .acceptor a ∨ o = .foreign) w.table w'.table ∧ w'.Housed := by
  obtain ⟨_, n, hidle, hn, hne⟩ := h.idle a x hx
  obtain ⟨t, ht, hat, rfl⟩ := destroy_cases h.sound hw'
  have hm : Table.Moves w.limit (fun o => o = .acceptor a ∨ o = .foreign) w.table
      (t.close x.socket (.acceptor a)).2 := by
    rw [hidle] at ht
    have h1 : Table.Moves w.limit (fun o => o = .acceptor a ∨ o = .foreign) w.table
        (w.table.close n (.acceptor a)).2 :=
      .close h.sound (fun p hp => Or.inl (Option.some.inj (hn.symm.trans hp)).symm) _
    have hsock1 : (w.table.close n (.acceptor a)).2.ownerAt x.socket = some (.acceptor a) :=
      (Table.ownerAt_close_other hne.symm).trans hsock
    have h2 := h1.trans (.close h1.sound
      (fun p hp => Or.inl (Option.some.inj (hsock1.symm.trans hp)).symm) (.acceptor a))
    have h3 : Table.Moves w.limit (fun o => o = .acceptor a ∨ o = .foreign) _ t :=
      (foreignCalls_moves h2.sound ht).mono fun o ho => Or.inr ho
    exact (h2.trans h3).trans (.close h3.sound (fun p hp => Or.inr (hat p hp)) _)
  refine ⟨hm, h.of_moves hm (fun c => by simp) rfl rfl rfl fun b y hy => ?_⟩
  have hb : b ≠ a := by
    rintro rfl
    exact absurd ((Function.update_self _ _ w.acceptors).symm.trans hy) (by simp)
  have hy' : w.acceptors b = some y := (Function.update_of_ne hb _ w.acceptors).symm.trans hy
  refine ⟨(h.idle b y hy').1, h.idle_of_moves hm (fun he => ?_) hy'⟩
  rcases he with he | he
  · exact hb (Owner.acceptor.inj he)
  · exact absurd he (by simp)

/-- `Start` and the setter change no descriptor of the acceptor. -/
theorem Housed.setAcceptor (h : w.Housed) (hx : w.acceptors a = some x) {y : Acceptor}
    (hsocket : y.socket = x.socket) (hidle : y.idlefd = x.idlefd) :
    (w.setAcceptor a (some y)).Housed := by
  refine ⟨h.sound, h.within, h.conn, h.sole, fun b z hz => ?_⟩
  by_cases hb : b = a
  · subst hb
    obtain rfl : y = z := Option.some.inj ((Function.update_self _ _ w.acceptors).symm.trans hz)
    rw [hsocket, hidle]
    exact h.idle b x hx
  · exact h.idle b z ((Function.update_of_ne hb _ w.acceptors).symm.trans hz)

theorem startAcceptor_cases (w : Reception) (a : Nat) (x : Acceptor) (ip : Text)
    (port : BitVec 16) (bindOk listenOk : Bool) :
    ∃ y, w.startAcceptor a x ip port bindOk listenOk = w.setAcceptor a (some y)
      ∧ y.socket = x.socket ∧ y.idlefd = x.idlefd ∧ y.newConnCallback = x.newConnCallback := by
  unfold startAcceptor
  split
  split
  · exact ⟨_, rfl, rfl, rfl, rfl⟩
  · exact ⟨_, rfl, rfl, rfl, rfl⟩

theorem Housed.next {l : Step} (h : w.Housed) (hstep : w.next l = some w')
    (hdestroy : ∀ a between x, l = .destroy a between → w.acceptors a = some x →
      w.table.ownerAt x.socket = some (.acceptor a)) : w'.Housed := by
  obtain ⟨_, hturn⟩ := next_turn hstep
  cases hturn with
  | construct => exact h.construct _
  | start hx =>
      obtain ⟨y, heq, hsocket, hidle, _⟩ := startAcceptor_cases w _ _ _ _ _ _
      rw [heq]
      exact h.setAcceptor hx hsocket hidle
  | setNewConnCallback hx => exact h.setAcceptor hx rfl rfl
  | handleRead hx hreports hadm => exact h.handleRead hx hreports hadm _ _
  | destroy hx hw' => exact (h.destroy hx (hdestroy _ _ _ rfl hx) hw').2
  | use hs hop => exact h.use hs hop
  | drop hs => exact h.drop hs
  | @foreign call t ht =>
      have hm : Table.Moves w.limit (· = .foreign) w.table { w with table := t }.table :=
        foreignCall_moves h.sound ht
      exact h.of_moves hm (fun c => by simp) rfl rfl rfl fun b y hy =>
        ⟨(h.idle b y hy).1, h.idle_of_moves hm (by simp) hy⟩

/-! ## §5. Every descriptor is closed once. -/

/-- What closing owes the process. -/
structure ClosedOnce (w : Reception) : Prop where
  /-- No number went to `close` but an open one of the closer's own. -/
  rightful : w.table.Clean
  /-- What an acceptor that is gone owned is closed, once. -/
  acceptors : ∀ a k, a < w.acceptorCount → w.acceptors a = none →
    w.table.owner k = some (.acceptor a) → w.table.closes k = 1
  /-- Likewise a connection. -/
  conns : ∀ c k, c < w.connCount → w.conns c = none →
    w.table.owner k = some (.conn c) → w.table.closes k = 1
  noAbort : w.aborted ≠ some .closeSocket

/-- The step does not destroy an acceptor. -/
def Step.sparesAcceptors : Step → Prop
  | .destroy _ _ => False
  | _ => True

instance (l : Step) : Decidable l.sparesAcceptors :=
  match l with
  | .construct _ => isTrue trivial
  | .start _ _ _ _ _ => isTrue trivial
  | .setNewConnCallback _ _ => isTrue trivial
  | .handleRead _ _ _ _ => isTrue trivial
  | .destroy _ _ => isFalse id
  | .use _ _ => isTrue trivial
  | .drop _ => isTrue trivial
  | .foreign _ => isTrue trivial

/-- What runs without destruction keep. -/
structure Standing (w : Reception) : Prop where
  housed : w.Housed
  alive : ∀ a, a < w.acceptorCount → w.acceptors a ≠ none
  once : w.ClosedOnce

/-- Every close of such a step is rightful. -/
theorem Housed.rightful_next {l : Step} (h : w.Housed) (hstep : w.next l = some w')
    (hl : l.sparesAcceptors) (hclean : w.table.Clean) :
    w'.table.Clean ∧ w'.aborted ≠ some .closeSocket := by
  obtain ⟨hrun, hturn⟩ := next_turn hstep
  have hrun' : w.aborted ≠ some .closeSocket := by
    rw [hrun]
    simp
  cases hturn with
  | construct =>
      rename_i reuseOk
      rcases construct_cases w reuseOk with ⟨t, log, heq, hlog, ht⟩ | ⟨socket, idlefd, _, _, heq⟩
      · rw [heq]
        refine ⟨?_, fun he => hlog (Option.some.inj he)⟩
        show t.Clean
        rcases ht with rfl | rfl | rfl
        · exact hclean
        · exact Table.clean_create.mpr hclean
        · exact Table.clean_create.mpr (Table.clean_create.mpr hclean)
      · rw [heq]
        exact ⟨hclean, hrun'⟩
  | start hx =>
      obtain ⟨y, heq, _⟩ := startAcceptor_cases w _ _ _ _ _ _
      rw [heq]
      exact ⟨hclean, hrun'⟩
  | setNewConnCallback hx => exact ⟨hclean, hrun'⟩
  | @handleRead a x accept again name hx hreports hadm =>
      cases accept with
      | failed errno =>
          by_cases herr : errno = .EMFILE
          · subst herr
            have hm := h.makeRoom hx again hreports.2
            exact ⟨hm.clean hclean, hm.rest.2.2.2.2.2 ▸ hrun'⟩
          · simp only [Reception.handleRead, if_neg herr]
            exact ⟨hclean, hrun'⟩
      | conn fd addr =>
          cases hcb : x.newConnCallback with
          | true =>
              simp only [Reception.handleRead, hcb, if_true]
              exact ⟨Table.clean_transfer.mpr hclean, hrun'⟩
          | false =>
              simp only [Reception.handleRead, hcb, Bool.false_eq_true, if_false]
              refine ⟨Table.clean_close.mpr ⟨?_, hclean⟩, hrun'⟩
              rw [h.sound.ownerAt_obtain_other (ne_of_admits hadm hreports.2), hreports.2]
  | destroy hx hw' => exact absurd hl id
  | use hs hop => exact ⟨hclean, hrun'⟩
  | @drop c s hs =>
      obtain ⟨_, hat⟩ := h.conn c s hs
      obtain ⟨k, hk, _⟩ := Table.ownerAt_eq_some.mp hat
      refine ⟨Table.clean_close.mpr ⟨hat, hclean⟩, ?_⟩
      -- the number is open, so `~Socket` does not abort
      show (if (w.table.close s.conn.handler.fd (.conn c)).1 then w.aborted
        else some .closeSocket) ≠ some .closeSocket
      rw [Table.close_fst, hk, Option.isSome_some, if_pos rfl]
      exact hrun'
  | @foreign call t ht =>
      refine ⟨?_, hrun'⟩
      show t.Clean
      cases call with
      | create =>
          cases ht
          exact Table.clean_create.mpr hclean
      | close n =>
          obtain ⟨hn, ht'⟩ := Option.ite_none_right_eq_some.mp ht
          cases ht'
          exact Table.clean_close.mpr ⟨hn, hclean⟩

/-- Acceptors only come. -/
theorem alive_next {l : Step} (hstep : w.next l = some w') (hl : l.sparesAcceptors)
    (h : ∀ a, a < w.acceptorCount → w.acceptors a ≠ none) :
    ∀ a, a < w'.acceptorCount → w'.acceptors a ≠ none := by
  have hset : ∀ b y, ∀ a, a < w.acceptorCount → (w.setAcceptor b (some y)).acceptors a ≠ none := by
    intro b y a ha
    show Function.update w.acceptors b (some y) a ≠ none
    by_cases hab : a = b
    · subst hab
      rw [Function.update_self]
      simp
    · rw [Function.update_of_ne hab]
      exact h a ha
  obtain ⟨_, hturn⟩ := next_turn hstep
  cases hturn with
  | construct =>
      rename_i reuseOk
      rcases construct_cases w reuseOk with ⟨t, log, heq, _⟩ | ⟨socket, idlefd, _, _, heq⟩
      · rw [heq]
        exact h
      · rw [heq]
        intro a ha
        by_cases hlast : a = w.acceptorCount
        · subst hlast
          show Function.update w.acceptors _ _ _ ≠ none
          rw [Function.update_self]
          simp
        · exact hset _ _ a (by
            have : a < w.acceptorCount + 1 := ha
            omega)
  | start hx =>
      obtain ⟨y, heq, _⟩ := startAcceptor_cases w _ _ _ _ _ _
      rw [heq]
      exact hset _ y
  | setNewConnCallback hx => exact hset _ _
  | @handleRead a x accept again name hx hreports hadm =>
      cases accept with
      | failed errno =>
          by_cases herr : errno = .EMFILE
          · subst herr
            exact hset _ _
          · simp only [handleRead, if_neg herr]
            exact h
      | conn fd addr =>
          cases hcb : x.newConnCallback with
          | true =>
              simp only [handleRead, hcb, if_true]
              exact h
          | false =>
              simp only [handleRead, hcb, Bool.false_eq_true, if_false]
              exact h
  | destroy hx hw' => exact absurd hl id
  | use hs hop => exact h
  | drop hs => exact h
  | foreign ht => exact h

/-- One step keeps all of it unless it destroys an acceptor. -/
theorem Standing.next {l : Step} (h : w.Standing) (hstep : w.next l = some w')
    (hl : l.sparesAcceptors) : w'.Standing := by
  have hhoused : w'.Housed := h.housed.next hstep fun a between x hdestroy _ => by
    subst hdestroy
    exact absurd hl id
  have halive := alive_next hstep hl h.alive
  obtain ⟨hclean, hrun⟩ := h.housed.rightful_next hstep hl h.once.rightful
  exact {
    housed := hhoused
    alive := halive
    once := {
      rightful := hclean
      acceptors := fun a k ha hnone => absurd hnone (halive a ha)
      conns := fun c k _ hnone hk => (hhoused.sole k c hk).2.2 hnone
      noAbort := hrun } }

theorem standing_init (limit : Nat) : (init limit).Standing where
  housed := housed_init limit
  alive := fun a ha => absurd ha (Nat.not_lt_zero a)
  once := {
    rightful := fun _ h => absurd h List.not_mem_nil
    acceptors := fun a _ ha => absurd ha (Nat.not_lt_zero a)
    conns := fun c _ hc => absurd hc (Nat.not_lt_zero c)
    noAbort := by simp [init] }

/-- **Every descriptor is closed once, by its owner**, throughout a run of
acceptors and accepted connections exactly when no `Acceptor` is destroyed. -/
theorem closed_once_iff (limit : Nat) (steps : List Step) (w : Reception)
    (hrun : exec Reception.next (init limit) steps = some w) :
    Always Reception.next ClosedOnce (init limit) steps ↔ ∀ l ∈ steps, l.sparesAcceptors := by
  have hiff := always_iff_along (D := fun _ _ => True)
    (C := fun (_ : Reception) (l : Step) => l.sparesAcceptors)
    (fun _ h => Standing.once h)
    (fun _ _ _ h _ hl hstep => h.next hstep hl)
    (fun _ l _ h _ hl hstep honce => by
      obtain ⟨_, hturn⟩ := next_turn hstep
      cases hturn with
      | destroy hx hw' => exact destroy_unclean h.housed.sound hw' honce.rightful
      | _ => exact hl trivial)
    (standing_init limit) (Along.of_forall (D := fun _ => True) (fun _ _ => trivial) _) hrun
  exact hiff.trans (along_iff_forall hrun)

/-- The theorem on a run that accepts a connection, uses it and drops it. -/
theorem closed_once_on_run :
    ∃ w, exec Reception.next (init 16) [.construct true, .start 0 [] 80 true true,
        .setNewConnCallback 0 true,
        .handleRead 0 (.conn 2 ⟨AF_INET, 0, INADDR_ANY⟩) false [], .use 0 .start, .drop 0]
          = some w
      ∧ w.ClosedOnce := by
  have h : (exec Reception.next (init 16) [.construct true, .start 0 [] 80 true true,
      .setNewConnCallback 0 true,
      .handleRead 0 (.conn 2 ⟨AF_INET, 0, INADDR_ANY⟩) false [], .use 0 .start,
      .drop 0]).isSome = true := by
    decide +kernel
  obtain ⟨w, hrun⟩ := Option.isSome_iff_exists.mp h
  have halways := (closed_once_iff 16 _ w hrun).mpr (by decide)
  exact ⟨w, hrun, halways.last hrun⟩

/-- Destroying an acceptor closes the listening number twice: `~Socket` aborts,
or it closes what somebody else has opened under the number in between. -/
theorem destroyed_acceptor_closes_twice :
    (∃ w, exec Reception.next (init 16) [.construct true, .start 0 [] 80 true true,
        .destroy 0 []] = some w ∧ w.aborted = some .closeSocket ∧ ¬ w.ClosedOnce)
      ∧ ∃ w, exec Reception.next (init 16) [.construct true, .start 0 [] 80 true true,
          .destroy 0 [.create]] = some w
        ∧ w.table.owner 2 = some .foreign ∧ w.table.closes 2 = 1 ∧ ¬ w.ClosedOnce := by
  constructor
  · have h : (exec Reception.next (init 16) [.construct true, .start 0 [] 80 true true,
        .destroy 0 []]).map aborted = some (some .closeSocket) := by
      decide +kernel
    obtain ⟨w, hrun, hw⟩ := Option.map_eq_some_iff.mp h
    exact ⟨w, hrun, hw, fun honce => honce.noAbort hw⟩
  · have h : (exec Reception.next (init 16) [.construct true, .start 0 [] 80 true true,
        .destroy 0 [.create]]).map (fun w => (w.table.owner 2, w.table.closes 2,
          decide w.table.Clean)) = some (some .foreign, 1, false) := by
      decide +kernel
    obtain ⟨w, hrun, hw⟩ := Option.map_eq_some_iff.mp h
    simp only [Prod.mk.injEq, decide_eq_false_iff_not] at hw
    exact ⟨w, hrun, hw.1, hw.2.1, fun honce => hw.2.2 honce.rightful⟩

/-! ## §6. Accepting keeps the books. -/

/-- What accepting owes the process. -/
structure Balanced (w : Reception) : Prop where
  /-- The listening descriptor of a started acceptor is open. -/
  listening : ∀ a x, w.acceptors a = some x → x.started = true →
    w.table.ownerAt x.socket = some (.acceptor a)
  idle : ∀ a x, w.acceptors a = some x → x.started = true →
    ∃ n, x.idlefd = some n ∧ w.table.ownerAt n = some (.acceptor a)
  /-- What was accepted went to a callback once, or it was closed once. -/
  accepted : ∀ k ∈ w.accepted,
    w.handed.count k = 1 ∨ w.handed.count k = 0 ∧ w.table.closes k = 1

/-- A connection that is accepted finds a new-connection callback. -/
def findsCallback (w : Reception) : Step → Prop
  | .handleRead a (.conn _ _) _ _ => ∀ x ∈ w.acceptors a, x.newConnCallback = true
  | _ => True

instance (w : Reception) (l : Step) : Decidable (w.findsCallback l) :=
  match l with
  | .construct _ => isTrue trivial
  | .start _ _ _ _ _ => isTrue trivial
  | .setNewConnCallback _ _ => isTrue trivial
  | .handleRead a (.conn _ _) _ _ =>
      inferInstanceAs (Decidable (∀ x ∈ w.acceptors a, x.newConnCallback = true))
  | .handleRead _ (.failed _) _ _ => isTrue trivial
  | .destroy _ _ => isTrue trivial
  | .use _ _ => isTrue trivial
  | .drop _ => isTrue trivial
  | .foreign _ => isTrue trivial

/-- What such runs keep. -/
structure Reckoned (w : Reception) : Prop where
  housed : w.Housed
  listening : ∀ a x, w.acceptors a = some x → w.table.ownerAt x.socket = some (.acceptor a)
  accepted : ∀ k ∈ w.accepted,
    w.handed.count k = 1 ∨ w.handed.count k = 0 ∧ w.table.closes k = 1
  issued : ∀ k, k ∈ w.accepted ∨ k ∈ w.handed → k < w.table.issued

theorem Reckoned.balanced (h : w.Reckoned) : w.Balanced where
  listening := fun a x hx _ => h.listening a x hx
  idle := by
    intro a x hx _
    obtain ⟨_, n, hn, hat, _⟩ := h.housed.idle a x hx
    exact ⟨n, hn, hat⟩
  accepted := h.accepted

/-- A step that neither accepts nor hands over. -/
theorem Reckoned.of_moves {touched : Owner → Prop} (h : w.Reckoned) (hw' : w'.Housed)
    (hm : Table.Moves w.limit touched w.table w'.table) (hacc : w'.accepted = w.accepted)
    (hhanded : w'.handed = w.handed)
    (hlist : ∀ a x, w'.acceptors a = some x → w'.table.ownerAt x.socket = some (.acceptor a)) :
    w'.Reckoned where
  housed := hw'
  listening := hlist
  accepted := by
    intro k hk
    rw [hacc] at hk
    rw [hhanded]
    exact (h.accepted k hk).imp_right fun hc => ⟨hc.1, hm.closed k hc.2⟩
  issued := by
    intro k hk
    rw [hacc, hhanded] at hk
    exact Nat.lt_of_lt_of_le (h.issued k hk) hm.issued

theorem Reckoned.madeRoom (h : w.Reckoned) (hw' : w'.Housed) (hm : MadeRoom w w' a x)
    (hx : w.acceptors a = some x) : w'.Reckoned := by
  obtain ⟨_, _, _, _, hhanded, _⟩ := hm.rest
  obtain ⟨n, _, _, hacc⟩ := hm.idle
  refine ⟨hw', fun b y hy => ?_, fun k hk => ?_, fun k hk => ?_⟩
  · rw [hacc] at hy
    by_cases hb : b = a
    · subst hb
      obtain rfl : { x with idlefd := some n } = y :=
        Option.some.inj ((Function.update_self _ _ w.acceptors).symm.trans hy)
      exact hm.listening
    · exact hm.moves.ownerAt (fun he => hb (Owner.acceptor.inj he))
        (h.listening b y ((Function.update_of_ne hb _ w.acceptors).symm.trans hy))
  · rw [hhanded]
    rcases hm.accepted k hk with hk | ⟨hge, _, hclosed⟩
    · exact (h.accepted k hk).imp_right fun hc => ⟨hc.1, hm.moves.closed k hc.2⟩
    · -- the second `accept`'s descriptor is new, and nobody was given it
      refine Or.inr ⟨List.count_eq_zero.mpr fun hin => ?_, hclosed⟩
      exact absurd (h.issued k (Or.inr hin)) (Nat.not_lt.mpr hge)
  · rw [hhanded] at hk
    rcases hk with hk | hk
    · rcases hm.accepted k hk with hk | ⟨_, hlt, _⟩
      · exact Nat.lt_of_lt_of_le (h.issued k (Or.inl hk)) hm.moves.issued
      · exact hlt
    · exact Nat.lt_of_lt_of_le (h.issued k (Or.inr hk)) hm.moves.issued

theorem Reckoned.handedOver (h : w.Reckoned) {fd : Nat} {addr : SockaddrIn} {peer : InetAdress}
    {name : Text}
    (hw' : Housed (newConnection { w with
      table := w.table.obtain fd (.acceptor a)
      accepted := w.table.issued :: w.accepted } fd peer name))
    (hadm : w.admits (.conn fd addr)) :
    Reckoned (newConnection { w with
      table := w.table.obtain fd (.acceptor a)
      accepted := w.table.issued :: w.accepted } fd peer name) := by
  have hslot : (w.table.obtain fd (.acceptor a)).slot fd = some w.table.issued :=
    Table.slot_obtain_same
  refine ⟨hw', fun b y hy => h.housed.handedOver_at hadm (h.listening b y hy),
    fun k hk => ?_, fun k hk => ?_⟩
  · show List.count k (((w.table.obtain fd (.acceptor a)).slot fd).toList ++ w.handed) = 1
      ∨ List.count k (((w.table.obtain fd (.acceptor a)).slot fd).toList ++ w.handed) = 0
        ∧ ((w.table.obtain fd (.acceptor a)).transfer fd (.conn w.connCount)).closes k = 1
    rw [hslot, Table.closes_transfer, Option.toList_some, List.singleton_append]
    rcases List.mem_cons.mp hk with rfl | hk
    · -- the new descriptor has not been handed to anybody before
      left
      rw [List.count_cons_self, List.count_eq_zero.mpr fun hin =>
        Nat.lt_irrefl _ (h.issued _ (Or.inr hin))]
    · have hne : w.table.issued ≠ k := fun he =>
        absurd (h.issued k (Or.inl hk)) (Nat.not_lt.mpr (Nat.le_of_eq he))
      rw [List.count_cons_of_ne hne]
      exact h.accepted k hk
  · have hk : k ∈ w.table.issued :: w.accepted
        ∨ k ∈ ((w.table.obtain fd (.acceptor a)).slot fd).toList ++ w.handed := hk
    show k < ((w.table.obtain fd (.acceptor a)).transfer fd (.conn w.connCount)).issued
    rw [Table.issued_transfer, Table.issued_obtain]
    rw [hslot, Option.toList_some, List.singleton_append, List.mem_cons, List.mem_cons] at hk
    have := h.issued k
    rcases hk with (rfl | hk) | (rfl | hk)
    · omega
    · have := this (Or.inl hk)
      omega
    · omega
    · have := this (Or.inr hk)
      omega

theorem Reckoned.next {l : Step} (h : w.Reckoned) (hstep : w.next l = some w')
    (hl : w.findsCallback l) : w'.Reckoned := by
  have hw' : w'.Housed := h.housed.next hstep fun a between x _ hx => h.listening a x hx
  have hset : ∀ b x y, w.acceptors b = some x → y.socket = x.socket →
      ∀ a z, (w.setAcceptor b (some y)).acceptors a = some z →
        w.table.ownerAt z.socket = some (.acceptor a) := by
    intro b x y hx hsocket a z hz
    by_cases hab : a = b
    · subst hab
      obtain rfl : y = z := Option.some.inj ((Function.update_self _ _ w.acceptors).symm.trans hz)
      rw [hsocket]
      exact h.listening a x hx
    · exact h.listening a z ((Function.update_of_ne hab _ w.acceptors).symm.trans hz)
  have hstill : Table.Moves w.limit (fun _ => False) w.table w.table := .refl h.housed.sound
  obtain ⟨_, hturn⟩ := next_turn hstep
  cases hturn with
  | construct =>
      rename_i reuseOk
      have hm := construct_moves h.housed.sound reuseOk
      have hold : ∀ a x, w.acceptors a = some x →
          (w.construct reuseOk).table.ownerAt x.socket = some (.acceptor a) := by
        intro a x hx
        refine hm.ownerAt (fun he => ?_) (h.listening a x hx)
        cases he
        exact Nat.lt_irrefl _ (h.housed.idle _ x hx).1
      rcases construct_cases w reuseOk with ⟨t, log, heq, _⟩ | ⟨socket, idlefd, hl, hl', heq⟩
      · rw [heq] at hw' hm hold ⊢
        exact h.of_moves hw' hm rfl rfl hold
      · rw [heq] at hw' hm hold ⊢
        refine h.of_moves hw' hm rfl rfl fun a x hx => ?_
        by_cases ha : a = w.acceptorCount
        · subst ha
          have hx' : (⟨socket, Handler.new socket, InetAdress.new, false, some idlefd⟩ : Acceptor)
              = x := Option.some.inj ((Function.update_self _ _ w.acceptors).symm.trans hx)
          subst hx'
          have hfst := h.housed.sound.obtain (Table.lowest_spec hl).1
            (.acceptor w.acceptorCount)
          have hat := Table.ownerAt_obtain_same (t := w.table) (n := socket)
            (o := Owner.acceptor w.acceptorCount)
          have hne := Table.ne_of_ownerAt hat (Table.lowest_spec hl').1
          exact (hfst.ownerAt_obtain_other hne).trans hat
        · exact hold a x ((Function.update_of_ne ha _ w.acceptors).symm.trans hx)
  | start hx =>
      obtain ⟨y, heq, hsocket, _⟩ := startAcceptor_cases w _ _ _ _ _ _
      rw [heq] at hw' ⊢
      exact h.of_moves hw' hstill rfl rfl
        (hset _ _ y hx hsocket)
  | setNewConnCallback hx =>
      exact h.of_moves hw' hstill rfl rfl
        (hset _ _ _ hx rfl)
  | @handleRead a x accept again name hx hreports hadm =>
      cases accept with
      | failed errno =>
          by_cases herr : errno = .EMFILE
          · subst herr
            exact h.madeRoom hw' (h.housed.makeRoom hx again hreports.2) hx
          · simp only [Reception.handleRead, if_neg herr]
            exact h
      | conn fd addr =>
          have hcb : x.newConnCallback = true := hl x hx
          simp only [Reception.handleRead, hcb, if_true] at hw' ⊢
          exact h.handedOver hw' hadm
  | @destroy a x between w' hx hd =>
      obtain ⟨t, _, _, rfl⟩ := destroy_cases h.housed.sound hd
      have hm := (h.housed.destroy hx (h.listening a x hx) hd).1
      refine h.of_moves hw' hm rfl rfl fun b y hy => ?_
      have hb : b ≠ a := by
        rintro rfl
        exact absurd ((Function.update_self _ _ w.acceptors).symm.trans hy) (by simp)
      refine hm.ownerAt (fun he => ?_)
        (h.listening b y ((Function.update_of_ne hb _ w.acceptors).symm.trans hy))
      rcases he with he | he
      · exact hb (Owner.acceptor.inj he)
      · exact absurd he (by simp)
  | use hs hop =>
      exact h.of_moves hw' hstill rfl rfl h.listening
  | drop hs =>
      have hm := h.housed.drop_moves hs
      exact h.of_moves hw' hm rfl rfl fun a x hx => hm.ownerAt (by simp) (h.listening a x hx)
  | foreign ht =>
      have hm := foreignCall_moves h.housed.sound ht
      exact h.of_moves hw' hm rfl rfl fun a x hx => hm.ownerAt (by simp) (h.listening a x hx)

/-- Without a callback the listening descriptor is gone after the step. -/
theorem hungUp_unbalanced {fd : Nat} {addr : SockaddrIn} {again : Bool} {name : Text}
    (hx : w.acceptors a = some x) (hstarted : x.started = true) (hcb : x.newConnCallback = false) :
    ¬ (w.handleRead a x (.conn fd addr) again name).Balanced := by
  simp only [Reception.handleRead, hcb, Bool.false_eq_true, if_false]
  intro h
  have hat : ((w.table.obtain fd (.acceptor a)).close x.socket (.acceptor a)).2.ownerAt x.socket
      = some (.acceptor a) := h.listening a x hx hstarted
  rw [Table.ownerAt_close_same] at hat
  exact absurd hat (by simp)

theorem reckoned_init (limit : Nat) : (init limit).Reckoned where
  housed := housed_init limit
  listening := fun _ _ h => absurd h (by simp [init])
  accepted := fun _ h => absurd h List.not_mem_nil
  issued := fun _ h => absurd h (by simp [init])

/-- **Accepting keeps the books** throughout a run exactly when every connection
that is accepted finds a callback: the listening descriptor and the reserve stay
open, and what was accepted was handed over once or closed once. -/
theorem accept_balanced_iff (limit : Nat) (steps : List Step) (w : Reception)
    (hrun : exec Reception.next (init limit) steps = some w) :
    Always Reception.next Balanced (init limit) steps
      ↔ Along Reception.next findsCallback (init limit) steps := by
  refine always_iff_along (D := fun _ _ => True) (fun _ h => Reckoned.balanced h)
    (fun _ _ _ h _ hl hstep => h.next hstep hl) ?_ (reckoned_init limit)
    (Along.of_forall (D := fun _ => True) (fun _ _ => trivial) _) hrun
  intro w l w' _ _ hl hstep
  obtain ⟨_, hturn⟩ := next_turn hstep
  cases hturn with
  | @handleRead a x accept again name hx hreports hadm =>
      cases accept with
      | failed errno => exact absurd trivial hl
      | conn fd addr =>
          refine hungUp_unbalanced hx hreports.1 ?_
          by_contra hcb
          refine hl fun y hy => ?_
          obtain rfl : x = y := Option.some.inj (hx.symm.trans hy)
          exact (Bool.not_eq_false _).mp hcb
  | _ => exact absurd trivial hl

/-- The theorem on a table of four: two connections fill it, and the next one is
accepted through the reserve and hung up on. -/
theorem accept_balanced_on_run :
    ∃ w, exec Reception.next (init 4) [.construct true, .start 0 [] 80 true true,
        .setNewConnCallback 0 true,
        .handleRead 0 (.conn 2 ⟨AF_INET, 0, INADDR_ANY⟩) false [],
        .handleRead 0 (.conn 3 ⟨AF_INET, 0, INADDR_ANY⟩) false [],
        .handleRead 0 (.failed .EMFILE) true []] = some w
      ∧ w.accepted = [4, 3, 2] ∧ w.handed = [3, 2] ∧ w.Balanced := by
  have h : (exec Reception.next (init 4) [.construct true, .start 0 [] 80 true true,
      .setNewConnCallback 0 true,
      .handleRead 0 (.conn 2 ⟨AF_INET, 0, INADDR_ANY⟩) false [],
      .handleRead 0 (.conn 3 ⟨AF_INET, 0, INADDR_ANY⟩) false [],
      .handleRead 0 (.failed .EMFILE) true []]).map (fun w => (w.accepted, w.handed))
        = some ([4, 3, 2], [3, 2]) := by
    decide +kernel
  obtain ⟨w, hrun, hw⟩ := Option.map_eq_some_iff.mp h
  have halways := (accept_balanced_iff 4 _ w hrun).mpr (by decide +kernel)
  exact ⟨w, hrun, congrArg Prod.fst hw, congrArg Prod.snd hw, halways.last hrun⟩

/-- Nobody has set a callback: the accepted descriptor stays open for nobody,
and the listening descriptor is closed in its place. -/
theorem accept_without_callback_closes_listener :
    ∃ w, exec Reception.next (init 16) [.construct true, .start 0 [] 80 true true,
        .handleRead 0 (.conn 2 ⟨AF_INET, 0, INADDR_ANY⟩) false []] = some w
      ∧ w.table.slot 0 = none ∧ w.table.slot 2 = some 2 ∧ ¬ w.Balanced := by
  have h : (exec Reception.next (init 16) [.construct true, .start 0 [] 80 true true,
      .handleRead 0 (.conn 2 ⟨AF_INET, 0, INADDR_ANY⟩) false []]).map (fun w =>
        (w.table.slot 0, w.table.slot 2, w.accepted, w.handed, w.table.closes 2))
        = some (none, some 2, [2], [], 0) := by
    decide +kernel
  obtain ⟨w, hrun, hw⟩ := Option.map_eq_some_iff.mp h
  simp only [Prod.mk.injEq] at hw
  obtain ⟨h0, h2, hacc, hhanded, hcloses⟩ := hw
  refine ⟨w, hrun, h0, h2, fun hbal => ?_⟩
  rcases hbal.accepted 2 (by rw [hacc]; exact List.mem_singleton_self 2) with h1 | ⟨_, h1⟩
  · rw [hhanded] at h1
    exact absurd h1 (by decide)
  · exact absurd (hcloses.symm.trans h1) (by decide)

end

end Reception

end SparkNet
