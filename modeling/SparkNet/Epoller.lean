/-
  SparkNet.Epoller — handlers, the poller's table and the kernel's interest set.

  `Handler` and `Epoller` follow `include/HandlerImp.cpp` and
  `include/EpollerImp.cpp`.  A handler's address is a value of a type `H` left
  open here, its callbacks are values of a type `CB`.  The poller carries, next
  to `_handlers`, the kernel's interest set of `_epollfd` and the history of
  the `epoll_ctl` calls with their outcome; `epoll_ctl` succeeds exactly on
  legal requests (ADD of an absent descriptor, MOD or DEL of a present one).
-/
import Mathlib.Data.Option.Basic
import Mathlib.Logic.Function.Basic

namespace SparkNet

/-! ## §1. Faults that end the process. -/

/-- The ways in which the library's code can end a run. -/
inductive Fault where
  /-- `abort()` behind `CRITICAL_LOG` or `SYS_CRITICAL_LOG`, with a configured log
  level that lets critical messages through: `~LogOpearator` aborts only then. -/
  | abort
  /-- The same in `Socket::ShutdownWrite`, whose `shutdown(fd, SHUT_WR)` failed. -/
  | shutdownAbort
  /-- A field of a destroyed `Handler` or `TcpConnection` is touched. -/
  | useAfterFree
  /-- `Epoller::Loop` calls `HandleEvent` on a destroyed handler. -/
  | staleDispatch
  /-- A null `_conn`, `_connHandler` or `_accepter` is dereferenced. -/
  | nullDeref
  /-- An `assert` fails. -/
  | assertFailed
  /-- An empty `std::function` is called without a test. -/
  | badFunctionCall
  deriving DecidableEq, Repr

/-! ## §2. Event masks. -/

abbrev EventMask := BitVec 32

def EPOLLIN : EventMask := 0x001#32
def EPOLLPRI : EventMask := 0x002#32
def EPOLLOUT : EventMask := 0x004#32
def EPOLLERR : EventMask := 0x008#32
def EPOLLHUP : EventMask := 0x010#32

/-- `mask & bits`, as a condition. -/
def EventMask.has (mask bits : EventMask) : Bool := mask &&& bits != 0#32

/-! ## §3. `Handler`. -/

structure Handler (CB : Type) where
  fd : Nat
  events : EventMask
  readCallback : Option CB
  writeCallback : Option CB
  errorCallback : Option CB

namespace Handler

variable {CB : Type}

/-- The constructor `Handler(poller, fd)`. -/
def new (fd : Nat) : Handler CB := ⟨fd, 0#32, none, none, none⟩

def isNoEvent (h : Handler CB) : Bool := h.events == 0#32

def isWriting (h : Handler CB) : Bool := EventMask.has h.events EPOLLOUT

/-- The assignment to `_events` each of the four calls below starts with;
`Update()` follows it. -/
def setEvents (h : Handler CB) (events : EventMask) : Handler CB := { h with events := events }

def enableRead (h : Handler CB) : Handler CB := h.setEvents (h.events ||| (EPOLLIN ||| EPOLLPRI))

def enableWrite (h : Handler CB) : Handler CB := h.setEvents (h.events ||| EPOLLOUT)

def disableWrite (h : Handler CB) : Handler CB := h.setEvents (h.events &&& ~~~EPOLLOUT)

def disableAll (h : Handler CB) : Handler CB := h.setEvents 0#32

@[simp] theorem events_setEvents (h : Handler CB) (e : EventMask) :
    (h.setEvents e).events = e := rfl
@[simp] theorem fd_enableRead (h : Handler CB) : h.enableRead.fd = h.fd := rfl
@[simp] theorem fd_enableWrite (h : Handler CB) : h.enableWrite.fd = h.fd := rfl
@[simp] theorem fd_disableWrite (h : Handler CB) : h.disableWrite.fd = h.fd := rfl
@[simp] theorem fd_disableAll (h : Handler CB) : h.disableAll.fd = h.fd := rfl
@[simp] theorem events_disableAll (h : Handler CB) : h.disableAll.events = 0#32 := rfl

/-- Write interest is bit 2 of the mask. -/
theorem isWriting_eq (h : Handler CB) : h.isWriting = h.events.getLsbD 2 := by
  have hand : h.events &&& EPOLLOUT = if h.events.getLsbD 2 then EPOLLOUT else 0#32 := by
    rw [show EPOLLOUT = BitVec.twoPow 32 2 from rfl]
    exact BitVec.and_twoPow _ _
  rw [isWriting, EventMask.has, hand]
  cases h.events.getLsbD 2 <;> rfl

@[simp] theorem isWriting_enableWrite (h : Handler CB) : h.enableWrite.isWriting = true := by
  rw [isWriting_eq]
  simp [enableWrite, setEvents, EPOLLOUT]

@[simp] theorem isWriting_disableWrite (h : Handler CB) : h.disableWrite.isWriting = false := by
  rw [isWriting_eq]
  simp [disableWrite, setEvents, EPOLLOUT]

@[simp] theorem isWriting_enableRead (h : Handler CB) :
    h.enableRead.isWriting = h.isWriting := by
  rw [isWriting_eq, isWriting_eq]
  simp [enableRead, setEvents, EPOLLIN, EPOLLPRI]

@[simp] theorem isWriting_disableAll (h : Handler CB) : h.disableAll.isWriting = false := by
  simp [isWriting_eq]

/-- Write interest means a mask that is not empty. -/
theorem events_ne_zero_of_isWriting {h : Handler CB} (hw : h.isWriting = true) :
    h.events ≠ 0#32 := by
  intro h0
  simp [isWriting_eq, h0] at hw

end Handler

/-! ## §4. `Epoller`. -/

inductive CtlOp where
  | add | mod | del
  deriving DecidableEq, Repr

/-- The kernel's interest set: descriptor to event mask and `data.ptr`. -/
abbrev Interest (H : Type) := Nat → Option (EventMask × H)

section Poller

variable {H CB : Type}

/-- `epoll_ctl`; `none` is the failing return. -/
def epollCtl (interest : Interest H) (op : CtlOp) (fd : Nat) (events : EventMask) (ptr : H) :
    Option (Interest H) :=
  match op, interest fd with
  | .add, none => some (Function.update interest fd (some (events, ptr)))
  | .mod, some _ => some (Function.update interest fd (some (events, ptr)))
  | .del, some _ => some (Function.update interest fd none)
  | _, _ => none

/-- One `epoll_ctl` call and whether the kernel accepted it. -/
structure CtlCall where
  op : CtlOp
  fd : Nat
  legal : Bool
  deriving DecidableEq, Repr

structure Epoller (H : Type) where
  /-- `_handlers`. -/
  handlers : Nat → Option H
  /-- The kernel's side of `_epollfd`. -/
  interest : Interest H
  /-- Every `epoll_ctl` issued, newest first. -/
  ctls : List CtlCall

namespace Epoller

def new : Epoller H := ⟨fun _ => none, fun _ => none, []⟩

/-- `Epoller::Update(int operation, Handler*)`.  A failing DEL is only logged,
a failing ADD or MOD aborts. -/
def updateOp (p : Epoller H) (op : CtlOp) (ptr : H) (h : Handler CB) :
    Except Fault (Epoller H) :=
  match epollCtl p.interest op h.fd h.events ptr with
  | some interest => .ok { p with interest := interest, ctls := ⟨op, h.fd, true⟩ :: p.ctls }
  | none =>
      if op = .del then .ok { p with ctls := ⟨op, h.fd, false⟩ :: p.ctls }
      else .error .abort

/-- `Epoller::Update(Handler*)`. -/
def update (p : Epoller H) (ptr : H) (h : Handler CB) : Except Fault (Epoller H) :=
  match p.handlers h.fd with
  | some _ =>
      if h.isNoEvent then do
        let p ← p.updateOp .del ptr h
        return { p with handlers := Function.update p.handlers h.fd none }
      else
        p.updateOp .mod ptr h
  | none =>
      if !h.isNoEvent then
        { p with handlers := Function.update p.handlers h.fd (some ptr) }.updateOp .add ptr h
      else .ok p

/-! ## §5. What `Update` does when table and interest set agree. -/

/-- A descriptor neither side knows: registered if the mask is not empty. -/
theorem update_absent {p : Epoller H} (ptr : H) {h : Handler CB}
    (htab : p.handlers h.fd = none) (hint : p.interest h.fd = none) :
    p.update ptr h = .ok (if h.events = 0#32 then p else
      { handlers := Function.update p.handlers h.fd (some ptr)
        interest := Function.update p.interest h.fd (some (h.events, ptr))
        ctls := ⟨.add, h.fd, true⟩ :: p.ctls }) := by
  by_cases hev : h.events = 0#32
  · simp [update, htab, Handler.isNoEvent, hev]
  · simp [update, htab, Handler.isNoEvent, hev, updateOp, epollCtl, hint]

/-- A descriptor both sides know: modified, or removed if the mask is empty. -/
theorem update_present {p : Epoller H} (ptr : H) {h : Handler CB} {q : H} {r : EventMask × H}
    (htab : p.handlers h.fd = some q) (hint : p.interest h.fd = some r) :
    p.update ptr h = .ok (if h.events = 0#32 then
      { handlers := Function.update p.handlers h.fd none
        interest := Function.update p.interest h.fd none
        ctls := ⟨.del, h.fd, true⟩ :: p.ctls }
    else
      { p with
        interest := Function.update p.interest h.fd (some (h.events, ptr))
        ctls := ⟨.mod, h.fd, true⟩ :: p.ctls }) := by
  by_cases hev : h.events = 0#32
  · simp only [update, htab, Handler.isNoEvent, hev, updateOp, epollCtl, hint]
    rfl
  · simp [update, htab, Handler.isNoEvent, hev, updateOp, epollCtl, hint]

/-! ## §6. What `Update` does in any case. -/

section Update

variable {p p' : Epoller H} {ptr : H} {h : Handler CB}

/-- What `Update` may leave in table and interest set. -/
theorem update_cases (hok : p.update ptr h = .ok p') :
    (p'.handlers = Function.update p.handlers h.fd none
        ∧ (p'.interest = Function.update p.interest h.fd none
          ∨ p'.interest = p.interest ∧ p.interest h.fd = none))
    ∨ (p'.handlers h.fd ≠ none
        ∧ (p'.handlers = p.handlers ∨ p'.handlers = Function.update p.handlers h.fd (some ptr))
        ∧ p'.interest = Function.update p.interest h.fd (some (h.events, ptr)))
    ∨ p' = p := by
  unfold update at hok
  cases hhan : p.handlers h.fd with
  | some q =>
      simp only [hhan] at hok
      split at hok
      · refine Or.inl ?_
        cases hint : p.interest h.fd with
        | none =>
            -- a refused DEL is only logged
            simp only [updateOp, epollCtl, hint, if_true] at hok
            obtain rfl := Except.ok.inj hok
            exact ⟨rfl, Or.inr ⟨rfl, rfl⟩⟩
        | some r =>
            simp only [updateOp, epollCtl, hint] at hok
            obtain rfl := Except.ok.inj hok
            exact ⟨rfl, Or.inl rfl⟩
      · refine Or.inr (Or.inl ?_)
        cases hint : p.interest h.fd with
        -- a refused MOD or ADD aborts
        | none => simp [updateOp, epollCtl, hint] at hok
        | some r =>
            simp only [updateOp, epollCtl, hint] at hok
            obtain rfl := Except.ok.inj hok
            exact ⟨by simp [hhan], Or.inl rfl, rfl⟩
  | none =>
      simp only [hhan] at hok
      split at hok
      · refine Or.inr (Or.inl ?_)
        cases hint : p.interest h.fd with
        | none =>
            simp only [updateOp, epollCtl, hint] at hok
            obtain rfl := Except.ok.inj hok
            exact ⟨by simp, Or.inr rfl, rfl⟩
        | some r => simp [updateOp, epollCtl, hint] at hok
      · exact Or.inr (Or.inr (Except.ok.inj hok).symm)

/-- `Update` makes entries for its own handler only, and the kernel's set stays
within the table. -/
theorem update_entries (hok : p.update ptr h = .ok p')
    (htable : ∀ fd, p.handlers fd = none → p.interest fd = none) :
    (∀ fd q, p'.handlers fd = some q → p.handlers fd = some q ∨ fd = h.fd ∧ q = ptr)
    ∧ (∀ fd ev q, p'.interest fd = some (ev, q) →
      p.interest fd = some (ev, q) ∨ fd = h.fd ∧ q = ptr)
    ∧ ∀ fd, p'.handlers fd = none → p'.interest fd = none := by
  rcases update_cases hok with ⟨hhan, hint⟩ | ⟨hsome, hhan, hint⟩ | rfl
  · have hint' : ∀ fd, p'.interest fd = none ∨ p'.interest fd = p.interest fd ∧ fd ≠ h.fd := by
      intro fd
      by_cases hfd : fd = h.fd
      · subst hfd
        rcases hint with hint | ⟨hint, hnone⟩
        · exact Or.inl (by rw [hint, Function.update_self])
        · exact Or.inl (by rw [hint, hnone])
      · rcases hint with hint | ⟨hint, _⟩
        · exact Or.inr ⟨by rw [hint, Function.update_of_ne hfd], hfd⟩
        · exact Or.inr ⟨by rw [hint], hfd⟩
    refine ⟨fun fd q hq => ?_, fun fd ev q hq => ?_, fun fd hnone => ?_⟩
    · by_cases hfd : fd = h.fd
      · subst hfd
        exact absurd hq (by simp [hhan])
      · rw [hhan, Function.update_of_ne hfd] at hq
        exact Or.inl hq
    · rcases hint' fd with hn | ⟨hsame, _⟩
      · exact absurd (hn.symm.trans hq) (by simp)
      · exact Or.inl (hsame ▸ hq)
    · rcases hint' fd with hn | ⟨hsame, hfd⟩
      · exact hn
      · rw [hhan, Function.update_of_ne hfd] at hnone
        exact hsame.trans (htable fd hnone)
  · have hhan' : ∀ fd, fd ≠ h.fd → p'.handlers fd = p.handlers fd := by
      intro fd hfd
      rcases hhan with hhan | hhan
      · rw [hhan]
      · rw [hhan, Function.update_of_ne hfd]
    refine ⟨fun fd q hq => ?_, fun fd ev q hq => ?_, fun fd hnone => ?_⟩
    · rcases hhan with hhan | hhan
      · exact Or.inl (hhan ▸ hq)
      · by_cases hfd : fd = h.fd
        · subst hfd
          rw [hhan, Function.update_self, Option.some.injEq] at hq
          exact Or.inr ⟨rfl, hq.symm⟩
        · exact Or.inl ((hhan' fd hfd).symm.trans hq)
    · by_cases hfd : fd = h.fd
      · subst hfd
        rw [hint, Function.update_self, Option.some.injEq, Prod.mk.injEq] at hq
        exact Or.inr ⟨rfl, hq.2.symm⟩
      · rw [hint, Function.update_of_ne hfd] at hq
        exact Or.inl hq
    · have hfd : fd ≠ h.fd := fun hfd => hsome (hfd ▸ hnone)
      rw [hint, Function.update_of_ne hfd]
      exact htable fd ((hhan' fd hfd).symm.trans hnone)
  · exact ⟨fun _ _ => Or.inl, fun _ _ _ => Or.inl, htable⟩

/-- `Update` does not abort: no mask is left, so that a refusal is only logged,
or table and kernel agree whether the descriptor is registered. -/
def Accepts (p : Epoller H) (h : Handler CB) : Prop :=
  h.events = 0#32 ∨ (p.handlers h.fd).isSome = (p.interest h.fd).isSome

instance (p : Epoller H) (h : Handler CB) : Decidable (p.Accepts h) :=
  inferInstanceAs (Decidable (_ ∨ _))

theorem update_ok_iff (p : Epoller H) (ptr : H) (h : Handler CB) :
    (∃ p', p.update ptr h = .ok p') ↔ p.Accepts h := by
  unfold update Accepts
  cases hhan : p.handlers h.fd with
  | none =>
      cases hint : p.interest h.fd with
      | none => by_cases hev : h.events = 0#32 <;>
          simp [Handler.isNoEvent, hev, updateOp, epollCtl, hint]
      | some r => by_cases hev : h.events = 0#32 <;>
          simp [Handler.isNoEvent, hev, updateOp, epollCtl, hint]
  | some q =>
      cases hint : p.interest h.fd with
      | none => by_cases hev : h.events = 0#32 <;>
          simp [Handler.isNoEvent, hev, updateOp, epollCtl, hint, bind, Except.bind, pure,
            Except.pure]
      | some r => by_cases hev : h.events = 0#32 <;>
          simp [Handler.isNoEvent, hev, updateOp, epollCtl, hint, bind, Except.bind, pure,
            Except.pure]

/-- `Update` of a handler without events leaves its descriptor empty. -/
theorem update_noEvent (hev : h.events = 0#32)
    (htable : p.handlers h.fd = none → p.interest h.fd = none) :
    ∃ q, p.update ptr h = .ok q ∧ q.handlers = Function.update p.handlers h.fd none
      ∧ q.interest = Function.update p.interest h.fd none := by
  unfold update
  cases hhan : p.handlers h.fd with
  | none =>
      have hint := htable hhan
      refine ⟨p, by simp [Handler.isNoEvent, hev], ?_, ?_⟩
      · rw [← hhan, Function.update_eq_self]
      · rw [← hint, Function.update_eq_self]
  | some r =>
      cases hint : p.interest h.fd with
      | none =>
          refine ⟨_, by simp only [Handler.isNoEvent, hev, updateOp, epollCtl, hint]; rfl, rfl, ?_⟩
          rw [← hint, Function.update_eq_self]
      | some q =>
          exact ⟨_, by simp only [Handler.isNoEvent, hev, updateOp, epollCtl, hint]; rfl, rfl, rfl⟩

end Update

end Epoller

end Poller

/-- A failing `epoll_ctl` is a critical error. -/
theorem Epoller.update_fault {H CB : Type} {p : Epoller H} {ptr : H} {h : Handler CB} {f : Fault}
    (hf : p.update ptr h = .error f) : f = .abort := by
  have hop : ∀ (q : Epoller H) op, q.updateOp op ptr h = .error f → f = .abort := by
    intro q op hq
    unfold Epoller.updateOp at hq
    split at hq
    · exact absurd hq (by simp)
    · split at hq
      · exact absurd hq (by simp)
      · exact (Except.error.inj hq).symm
  unfold Epoller.update at hf
  split at hf
  · split at hf
    · cases hdel : p.updateOp .del ptr h with
      | ok q =>
          rw [hdel] at hf
          exact absurd hf (by simp [bind, Except.bind, pure, Except.pure])
      | error g =>
          rw [hdel] at hf
          obtain rfl := Except.error.inj hf
          exact hop p .del hdel
    · exact hop p .mod hf
  · split at hf
    · exact hop _ .add hf
    · exact absurd hf (by simp)

end SparkNet
