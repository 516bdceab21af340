/-
  SparkNet.MpmcQueue — the queue between the logging threads and the writer.

  `mpmc_blocking_queue` (`include/spdlog/details/mpmc_blocking_q.h`) is a
  `circular_q` behind a mutex and two condition variables.  The model has any
  number of threads on each side.  What a thread does while it has the mutex is
  one event; between its events the others may do anything.  A thread that waits
  on a condition variable has given the mutex back; `notify_one` wakes any one of
  those that wait, and with none waiting it is lost.  A wait may also end for no
  reason, and the one in `dequeue_for` when its time is over.

  Main results:
    * `fifo` — what comes out is what went in, in order and once, but for what
      `enqueue_nowait` overruns;
    * `heldCount_moves` / `held_moves` — what has come out is in the hands of the
      consumers, but for what they are done with.
-/
import SparkNet.CircularQ
import SparkNet.Tally

namespace SparkNet

open Runs Tally

variable {α : Type*}

/-! ## §1. The threads. -/

/-- `async_overflow_policy`: `enqueue` waits for room, `enqueue_nowait` does not. -/
inductive OverflowPolicy where
  | block | overrunOldest
  deriving DecidableEq, Repr

/-- Where a producer stands. -/
inductive Producer (α : Type*) where
  | idle
  /-- In `enqueue` or `enqueue_nowait`, before it has the mutex. -/
  | entering (policy : OverflowPolicy) (item : α)
  /-- In `pop_cv_.wait`. -/
  | waiting (item : α)
  /-- The mutex is released, `push_cv_.notify_one()` is next. -/
  | notifying
  deriving DecidableEq, Repr

/-- Where a consumer stands. -/
inductive Consumer (α : Type*) where
  /-- In `dequeue_for`, before it has the mutex. -/
  | entering
  /-- In `push_cv_.wait_for`. -/
  | waiting
  /-- The time is over: the queue is looked at once more. -/
  | expired
  /-- The mutex is released, `pop_cv_.notify_one()` is next. -/
  | notifying (item : α)
  /-- `dequeue_for` has returned: an item, or `false`. -/
  | returned (item : Option α)
  | stopped
  deriving DecidableEq, Repr

/-- The item of a call that has not put it in yet. -/
def Producer.pending : Producer α → List α
  | .entering _ item => [item]
  | .waiting item => [item]
  | _ => []

def Producer.isWaiting : Producer α → Bool
  | .waiting _ => true
  | _ => false

def Consumer.isWaiting : Consumer α → Bool
  | .waiting => true
  | _ => false

def Consumer.ended : Consumer α → Nat
  | .stopped => 1
  | _ => 0

/-- The item a consumer has got, until its caller is done with it. -/
def Consumer.held : Consumer α → List α
  | .notifying item => [item]
  | .returned (some item) => [item]
  | _ => []

structure MpmcQueue (α : Type*) where
  q : CircularQ α
  producers : List (Producer α)
  consumers : List (Consumer α)
  /-- What each producer has put in, in the order of the mutex. -/
  pushed : List (Nat × α)
  /-- What has been taken out, in the order of the mutex. -/
  popped : List α

inductive QueueEvent (α : Type*) where
  /-- Producer `t` calls. -/
  | enqueue (t : Nat) (policy : OverflowPolicy) (item : α)
  /-- Producer `t` gets the mutex. -/
  | produce (t : Nat)
  | notifyPush (t : Nat) (woken : Option Nat)
  /-- The wait of producer `t` ends by itself. -/
  | spuriousProducer (t : Nat)
  /-- Consumer `c` gets the mutex. -/
  | consume (c : Nat)
  | notifyPop (c : Nat) (woken : Option Nat)
  | spuriousConsumer (c : Nat)
  | timeout (c : Nat)
  /-- Consumer `c` is done with what it got, and calls again or ends. -/
  | resume (c : Nat) (again : Bool)
  deriving Repr

def QueueEvent.isResume : QueueEvent α → Bool
  | .resume _ _ => true
  | _ => false

namespace MpmcQueue

def new [Inhabited α] (maxItems producers consumers : Nat) : MpmcQueue α :=
  ⟨CircularQ.new maxItems, List.replicate producers .idle, List.replicate consumers .entering,
    [], []⟩

def setProducer (s : MpmcQueue α) (t : Nat) (p : Producer α) : MpmcQueue α :=
  { s with producers := s.producers.set t p }

def setConsumer (s : MpmcQueue α) (c : Nat) (p : Consumer α) : MpmcQueue α :=
  { s with consumers := s.consumers.set c p }

/-- `q_.push_back(std::move(item))`. -/
def push (s : MpmcQueue α) (t : Nat) (item : α) : MpmcQueue α :=
  { s with q := s.q.pushBack item, pushed := s.pushed ++ [(t, item)] }

/-- `popped_item = std::move(q_.front()); q_.pop_front();` -/
def pop [Inhabited α] (s : MpmcQueue α) : MpmcQueue α :=
  { s with q := s.q.popFront, popped := s.popped ++ [s.q.front] }

/-- `push_cv_.notify_one()`. -/
def wakeConsumer (s : MpmcQueue α) : Option Nat → Option (MpmcQueue α)
  | none => if s.consumers.any Consumer.isWaiting then none else some s
  | some c => match s.consumers[c]? with
      | some .waiting => some (s.setConsumer c .entering)
      | _ => none

/-- `pop_cv_.notify_one()`. -/
def wakeProducer (s : MpmcQueue α) : Option Nat → Option (MpmcQueue α)
  | none => if s.producers.any Producer.isWaiting then none else some s
  | some t => match s.producers[t]? with
      | some (.waiting item) => some (s.setProducer t (.entering .block item))
      | _ => none

def step [Inhabited α] (s : MpmcQueue α) : QueueEvent α → Option (MpmcQueue α)
  | .enqueue t policy item => match s.producers[t]? with
      | some .idle => some (s.setProducer t (.entering policy item))
      | _ => none
  | .produce t => match s.producers[t]? with
      | some (.entering policy item) =>
          if policy = .block ∧ s.q.full = true then some (s.setProducer t (.waiting item))
          else some ((s.push t item).setProducer t .notifying)
      | _ => none
  | .notifyPush t woken => match s.producers[t]? with
      | some .notifying => (s.setProducer t .idle).wakeConsumer woken
      | _ => none
  | .spuriousProducer t => match s.producers[t]? with
      | some (.waiting item) => some (s.setProducer t (.entering .block item))
      | _ => none
  | .consume c => match s.consumers[c]? with
      | some .entering =>
          if s.q.empty then some (s.setConsumer c .waiting)
          else some (s.pop.setConsumer c (.notifying s.q.front))
      | some .expired =>
          if s.q.empty then some (s.setConsumer c (.returned none))
          else some (s.pop.setConsumer c (.notifying s.q.front))
      | _ => none
  | .notifyPop c woken => match s.consumers[c]? with
      | some (.notifying item) => (s.setConsumer c (.returned (some item))).wakeProducer woken
      | _ => none
  | .spuriousConsumer c => match s.consumers[c]? with
      | some .waiting => some (s.setConsumer c .entering)
      | _ => none
  | .timeout c => match s.consumers[c]? with
      | some .waiting => some (s.setConsumer c .expired)
      | _ => none
  | .resume c again => match s.consumers[c]? with
      | some (.returned _) => some (s.setConsumer c (if again then .entering else .stopped))
      | _ => none

/-! ### What each producer gives. -/

variable {s s' : MpmcQueue α}

/-- The item producer `t` calls with. -/
def given (t : Nat) : QueueEvent α → List α
  | .enqueue u _ item => if u = t then [item] else []
  | _ => []

def pendingOf (s : MpmcQueue α) (t : Nat) : List α := (s.producers[t]?).elim [] Producer.pending

def pushedBy (s : MpmcQueue α) (t : Nat) : List α :=
  (s.pushed.filter fun entry => entry.1 == t).map Prod.snd

theorem pendingOf_setProducer {u : Nat} {p : Producer α} (h : s.producers[u]? = some p)
    (p' : Producer α) (t : Nat) :
    (s.setProducer u p').pendingOf t = if u = t then p'.pending else s.pendingOf t := by
  have hu : u < s.producers.length := (List.getElem?_eq_some_iff.mp h).1
  unfold pendingOf setProducer
  by_cases heq : u = t
  · subst heq
    simp [hu]
  · simp [heq]

theorem pendingOf_of_getElem? {u : Nat} {p : Producer α} (h : s.producers[u]? = some p) :
    s.pendingOf u = p.pending := by
  simp [pendingOf, h]

theorem pushedBy_push (s : MpmcQueue α) (u t : Nat) (item : α) :
    (s.push u item).pushedBy t = s.pushedBy t ++ if u = t then [item] else [] := by
  unfold pushedBy push
  by_cases heq : u = t
  · simp [heq]
  · simp [heq]

/-- Producer `u` goes on, with the same item. -/
theorem pendingOf_same {u : Nat} {p p' : Producer α} (h : s.producers[u]? = some p)
    (hsame : p'.pending = p.pending) (t : Nat) :
    (s.setProducer u p').pendingOf t = s.pendingOf t := by
  rw [pendingOf_setProducer h]
  split
  · rename_i heq
    subst heq
    rw [hsame, pendingOf_of_getElem? h]
  · rfl

/-! ### What an event does. -/

variable [Inhabited α]

/-- What an event does: every branch of the machine, with what it found. -/
inductive Moves (s : MpmcQueue α) : QueueEvent α → MpmcQueue α → Prop where
  | enqueue {t : Nat} {policy : OverflowPolicy} {item : α} (h : s.producers[t]? = some .idle) :
      Moves s (.enqueue t policy item) (s.setProducer t (.entering policy item))
  | push {t : Nat} {policy : OverflowPolicy} {item : α}
      (h : s.producers[t]? = some (.entering policy item))
      (hroom : policy = .block → s.q.full = false) :
      Moves s (.produce t) ((s.push t item).setProducer t .notifying)
  | sleep {t : Nat} {item : α} (h : s.producers[t]? = some (.entering .block item))
      (hfull : s.q.full = true) :
      Moves s (.produce t) (s.setProducer t (.waiting item))
  | notifyConsumer {t c : Nat} (h : s.producers[t]? = some .notifying)
      (hc : s.consumers[c]? = some .waiting) :
      Moves s (.notifyPush t (some c)) ((s.setProducer t .idle).setConsumer c .entering)
  | notifyNoConsumer {t : Nat} (h : s.producers[t]? = some .notifying)
      (hnone : s.consumers.any Consumer.isWaiting = false) :
      Moves s (.notifyPush t none) (s.setProducer t .idle)
  | spuriousProducer {t : Nat} {item : α} (h : s.producers[t]? = some (.waiting item)) :
      Moves s (.spuriousProducer t) (s.setProducer t (.entering .block item))
  | take {c : Nat} {p : Consumer α} (h : s.consumers[c]? = some p)
      (hp : p = .entering ∨ p = .expired) (hne : s.q.empty = false) :
      Moves s (.consume c) (s.pop.setConsumer c (.notifying s.q.front))
  | wait {c : Nat} (h : s.consumers[c]? = some .entering) (hempty : s.q.empty = true) :
      Moves s (.consume c) (s.setConsumer c .waiting)
  | giveUp {c : Nat} (h : s.consumers[c]? = some .expired) (hempty : s.q.empty = true) :
      Moves s (.consume c) (s.setConsumer c (.returned none))
  | notifyProducer {t c : Nat} {item waiting : α} (h : s.consumers[c]? = some (.notifying item))
      (ht : s.producers[t]? = some (.waiting waiting)) :
      Moves s (.notifyPop c (some t))
        ((s.setConsumer c (.returned (some item))).setProducer t (.entering .block waiting))
  | notifyNoProducer {c : Nat} {item : α} (h : s.consumers[c]? = some (.notifying item))
      (hnone : s.producers.any Producer.isWaiting = false) :
      Moves s (.notifyPop c none) (s.setConsumer c (.returned (some item)))
  | spuriousConsumer {c : Nat} (h : s.consumers[c]? = some .waiting) :
      Moves s (.spuriousConsumer c) (s.setConsumer c .entering)
  | timeout {c : Nat} (h : s.consumers[c]? = some .waiting) :
      Moves s (.timeout c) (s.setConsumer c .expired)
  | resume {c : Nat} {got : Option α} {again : Bool} (h : s.consumers[c]? = some (.returned got)) :
      Moves s (.resume c again) (s.setConsumer c (if again then .entering else .stopped))

theorem step_moves {e : QueueEvent α} (h : s.step e = some s') : s.Moves e s' := by
  cases e with
  | enqueue t policy item =>
      simp only [step] at h
      split at h
      · rename_i hp
        cases h
        exact .enqueue hp
      · cases h
  | produce t =>
      simp only [step] at h
      split at h
      · rename_i policy item hp
        split at h
        · rename_i hfull
          cases h
          obtain ⟨rfl, hfull⟩ := hfull
          exact .sleep hp hfull
        · rename_i hroom
          cases h
          apply Moves.push hp
          intro hblock
          exact Bool.eq_false_of_not_eq_true fun hfull => hroom ⟨hblock, hfull⟩
      · cases h
  | notifyPush t woken =>
      simp only [step] at h
      split at h
      · rename_i hp
        cases woken with
        | none =>
            obtain ⟨hnone, h⟩ := Option.ite_none_left_eq_some.mp h
            cases h
            exact .notifyNoConsumer hp (Bool.eq_false_of_not_eq_true hnone)
        | some c =>
            simp only [wakeConsumer] at h
            split at h
            · rename_i hc
              cases h
              exact .notifyConsumer hp hc
            · cases h
      · cases h
  | spuriousProducer t =>
      simp only [step] at h
      split at h
      · rename_i hp
        cases h
        exact .spuriousProducer hp
      · cases h
  | consume c =>
      simp only [step] at h
      split at h
      · rename_i hp
        split at h
        · rename_i hempty
          cases h
          exact .wait hp hempty
        · rename_i hne
          cases h
          exact .take hp (Or.inl rfl) (Bool.eq_false_of_not_eq_true hne)
      · rename_i hp
        split at h
        · rename_i hempty
          cases h
          exact .giveUp hp hempty
        · rename_i hne
          cases h
          exact .take hp (Or.inr rfl) (Bool.eq_false_of_not_eq_true hne)
      · cases h
  | notifyPop c woken =>
      simp only [step] at h
      split at h
      · rename_i hp
        cases woken with
        | none =>
            obtain ⟨hnone, h⟩ := Option.ite_none_left_eq_some.mp h
            cases h
            exact .notifyNoProducer hp (Bool.eq_false_of_not_eq_true hnone)
        | some t =>
            simp only [wakeProducer] at h
            split at h
            · rename_i ht
              cases h
              exact .notifyProducer hp ht
            · cases h
      · cases h
  | spuriousConsumer c =>
      simp only [step] at h
      split at h
      · rename_i hp
        cases h
        exact .spuriousConsumer hp
      · cases h
  | timeout c =>
      simp only [step] at h
      split at h
      · rename_i hp
        cases h
        exact .timeout hp
      · cases h
  | resume c again =>
      simp only [step] at h
      split at h
      · rename_i hp
        cases h
        exact .resume hp
      · cases h

/-! ## §2. First in, first out. -/

/-- The queue that is behind the mutex, and what has been taken. -/
def toFifo (s : MpmcQueue α) : Fifo α := CircularQ.toFifo (s.q, s.popped)

/-- The ring is sound, and holds what was pushed and not popped. -/
structure Ordered (s : MpmcQueue α) : Prop where
  valid : s.q.Valid
  kept : Fifo.Kept (s.pushed.map Prod.snd) s.toFifo

theorem ordered_new (n producers consumers : Nat) :
    Ordered (new n producers consumers : MpmcQueue α) :=
  ⟨CircularQ.valid_new n, List.Sublist.refl _, rfl⟩

theorem ordered_push (h : Ordered s) (t : Nat) (item : α) : Ordered (s.push t item) := by
  have hstep : CircularQ.step (s.q, s.popped) (.pushBack item)
      = some (s.q.pushBack item, s.popped) := rfl
  refine ⟨h.valid.pushBack item, ?_⟩
  have hkept := Fifo.kept_step h.kept (CircularQ.toFifo_step h.valid hstep)
  show Fifo.Kept ((s.pushed ++ [(t, item)]).map Prod.snd) _
  rw [List.map_append]
  exact hkept

theorem ordered_pop (h : Ordered s) (hne : s.q.empty = false) : Ordered s.pop := by
  have hstep : CircularQ.step (s.q, s.popped) .popFront
      = some (s.q.popFront, s.popped ++ [s.q.front]) := by
    simp [CircularQ.step, hne]
  refine ⟨h.valid.popFront, ?_⟩
  have hkept := Fifo.kept_step h.kept (CircularQ.toFifo_step h.valid hstep)
  rw [show (QueueOp.popFront : QueueOp α).pushed = [] from rfl, List.append_nil] at hkept
  exact hkept

theorem ordered_setProducer (h : Ordered s) (t : Nat) (p : Producer α) :
    Ordered (s.setProducer t p) :=
  ⟨h.valid, h.kept⟩

theorem ordered_setConsumer (h : Ordered s) (c : Nat) (p : Consumer α) :
    Ordered (s.setConsumer c p) :=
  ⟨h.valid, h.kept⟩

theorem ordered_moves {e : QueueEvent α} (h : Ordered s) (hm : s.Moves e s') : Ordered s' := by
  cases hm with
  | push => exact ordered_setProducer (ordered_push h _ _) _ _
  | take _ _ hne => exact ordered_setConsumer (ordered_pop h hne) _ _
  | enqueue | sleep | notifyNoConsumer | spuriousProducer => exact ordered_setProducer h _ _
  | notifyConsumer => exact ordered_setConsumer (ordered_setProducer h _ _) _ _
  | notifyProducer => exact ordered_setProducer (ordered_setConsumer h _ _) _ _
  | wait | giveUp | notifyNoProducer | spuriousConsumer | timeout | resume =>
      exact ordered_setConsumer h _ _

theorem ordered_exec {events : List (QueueEvent α)} (h : Ordered s)
    (hrun : exec step s events = some s') : Ordered s' :=
  exec_invariant (I := Ordered) (fun _ _ _ h hstep => ordered_moves h (step_moves hstep)) h hrun

theorem capacity_moves {e : QueueEvent α} (hm : s.Moves e s') : s'.q.capacity = s.q.capacity := by
  cases hm with
  | push => exact CircularQ.capacity_pushBack _ _
  | enqueue | sleep | notifyConsumer | notifyNoConsumer | spuriousProducer | take | wait | giveUp
  | notifyProducer | notifyNoProducer | spuriousConsumer | timeout | resume => rfl

theorem capacity_exec {events : List (QueueEvent α)} (hrun : exec step s events = some s') :
    s'.q.capacity = s.q.capacity :=
  exec_invariant (I := fun s' => s'.q.capacity = s.q.capacity)
    (fun _ _ _ h hstep => (capacity_moves (step_moves hstep)).trans h) rfl hrun

/-- What a producer called with has been pushed, or is still in its hands. -/
theorem accounted_moves {e : QueueEvent α} (hm : s.Moves e s') (t : Nat) :
    s'.pushedBy t ++ s'.pendingOf t = s.pushedBy t ++ s.pendingOf t ++ given t e := by
  cases hm with
  | @enqueue u policy item h =>
      show s.pushedBy t ++ (s.setProducer u _).pendingOf t = _ ++ if u = t then [item] else []
      rw [pendingOf_setProducer h]
      by_cases heq : u = t
      · subst heq
        rw [if_pos rfl, if_pos rfl, pendingOf_of_getElem? h]
        simp [Producer.pending]
      · rw [if_neg heq, if_neg heq, List.append_nil]
  | @push u policy item h _ =>
      show (s.push u item).pushedBy t ++ ((s.push u item).setProducer u .notifying).pendingOf t
        = _ ++ []
      have h' : (s.push u item).producers[u]? = some (.entering policy item) := h
      rw [pendingOf_setProducer h', pushedBy_push, List.append_nil]
      by_cases heq : u = t
      · subst heq
        rw [if_pos rfl, if_pos rfl, pendingOf_of_getElem? h]
        simp [Producer.pending]
      · rw [if_neg heq, if_neg heq, List.append_nil]
        rfl
  | sleep h | notifyNoConsumer h | spuriousProducer h | notifyConsumer h =>
      show s.pushedBy t ++ (s.setProducer _ _).pendingOf t = s.pushedBy t ++ s.pendingOf t ++ []
      rw [List.append_nil]
      exact congrArg _ (pendingOf_same h (by rfl) t)
  | notifyProducer _ h =>
      show s.pushedBy t ++ (s.setProducer _ _).pendingOf t = s.pushedBy t ++ s.pendingOf t ++ []
      rw [List.append_nil]
      exact congrArg _ (pendingOf_same h (by rfl) t)
  | take | wait | giveUp | notifyNoProducer | spuriousConsumer | timeout | resume =>
      exact (List.append_nil _).symm

@[simp] theorem pendingOf_new (n producers consumers t : Nat) :
    (new n producers consumers : MpmcQueue α).pendingOf t = [] := by
  unfold pendingOf new
  rw [List.getElem?_replicate]
  split <;> rfl

theorem accounted_exec {events : List (QueueEvent α)} (t : Nat) :
    ∀ {s s' : MpmcQueue α}, exec step s events = some s' →
      s'.pushedBy t ++ s'.pendingOf t
        = s.pushedBy t ++ s.pendingOf t ++ events.flatMap (given t) := by
  induction events with
  | nil =>
      intro s s' hrun
      cases hrun
      simp
  | cons e events ih =>
      intro s s' hrun
      obtain ⟨s₁, h1, h2⟩ := exec_cons_eq_some.mp hrun
      rw [ih h2, accounted_moves (step_moves h1), List.flatMap_cons, List.append_assoc]

/-! ### Nothing is overrun by those that wait. -/

/-- No call of `enqueue_nowait`. -/
def blocks : QueueEvent α → Bool
  | .enqueue _ policy _ => policy == .block
  | _ => true

/-- Nothing has been overrun, and nothing is about to be. -/
structure Patient (s : MpmcQueue α) : Prop where
  ordered : Ordered s
  none : s.q.overrunCounter = 0
  waits : ∀ (t : Nat) (item : α), s.producers[t]? ≠ some (.entering .overrunOldest item)

theorem patient_setProducer {p : Producer α} (h : Patient s)
    (hp : ∀ item, p ≠ .entering .overrunOldest item) (t : Nat) : Patient (s.setProducer t p) := by
  refine ⟨ordered_setProducer h.ordered t p, h.none, ?_⟩
  intro u item heq
  rw [setProducer, List.getElem?_set] at heq
  split at heq
  · split at heq
    · exact hp item (Option.some.inj heq)
    · cases heq
  · exact h.waits u item heq

theorem patient_setConsumer (h : Patient s) (c : Nat) (p : Consumer α) :
    Patient (s.setConsumer c p) :=
  ⟨ordered_setConsumer h.ordered c p, h.none, h.waits⟩

theorem patient_moves {e : QueueEvent α} (h : Patient s) (hblocks : blocks e = true)
    (hm : s.Moves e s') : Patient s' := by
  cases hm with
  | enqueue =>
      apply patient_setProducer h
      rintro _ heq
      injection heq with hpolicy
      subst hpolicy
      simp [blocks] at hblocks
  | @push t policy item hp hroom =>
      apply patient_setProducer _ (by simp)
      refine ⟨ordered_push h.ordered t item, ?_, h.waits⟩
      have hblock : policy = .block := by
        cases policy with
        | block => rfl
        | overrunOldest => exact absurd hp (h.waits t item)
      have hlt := h.ordered.valid.full_eq_false_iff.mp (hroom hblock)
      show (s.q.pushBack item).overrunCounter = 0
      rw [h.ordered.valid.overrunCounter_pushBack, h.none]
      omega
  | take _ _ hne => exact patient_setConsumer ⟨ordered_pop h.ordered hne, h.none, h.waits⟩ _ _
  | sleep | notifyNoConsumer | spuriousProducer => exact patient_setProducer h (by simp) _
  | notifyConsumer => exact patient_setConsumer (patient_setProducer h (by simp) _) _ _
  | notifyProducer => exact patient_setProducer (patient_setConsumer h _ _) (by simp) _
  | wait | giveUp | notifyNoProducer | spuriousConsumer | timeout | resume =>
      exact patient_setConsumer h _ _

theorem patient_new (n producers consumers : Nat) :
    Patient (new n producers consumers : MpmcQueue α) := by
  refine ⟨ordered_new n producers consumers, rfl, ?_⟩
  intro t item heq
  have hmem := List.mem_of_getElem? heq
  have := List.eq_of_mem_replicate hmem
  cases this

theorem patient_exec {events : List (QueueEvent α)} (hblocks : ∀ e ∈ events, blocks e = true)
    (h : Patient s) (hrun : exec step s events = some s') : Patient s' :=
  exec_invariant_along (I := Patient) (C := fun _ e => blocks e = true)
    (fun _ _ _ h hb hstep => patient_moves h hb (step_moves hstep)) h
    (Along.of_forall hblocks s) hrun

/-- Then what has come out and what is inside is what went in. -/
theorem Patient.all (h : Patient s) : s.popped ++ s.q.contents = s.pushed.map Prod.snd := by
  have hnone : s.toFifo.dropped = 0 := h.none
  have hcount := h.ordered.kept.count
  rw [hnone, Nat.add_zero, ← List.length_append] at hcount
  exact h.ordered.kept.sublist.eq_of_length hcount.symm

/-- **First in, first out, and once.**  Whatever the threads do and however they
are interleaved: what the consumers have got, followed by what is in the queue,
is what the producers put in, but for the items `enqueue_nowait` overran and
counted; the queue never holds more than its capacity; each producer's items go
in in the order it called; and nothing is missing when all calls wait for room. -/
theorem fifo (n producers consumers : Nat) (events : List (QueueEvent α)) (s : MpmcQueue α)
    (hrun : exec step (new n producers consumers) events = some s) :
    (s.popped ++ s.q.contents).Sublist (s.pushed.map Prod.snd)
      ∧ s.pushed.length = s.popped.length + s.q.size + s.q.overrunCounter
      ∧ s.q.size ≤ n
      ∧ (∀ t, events.flatMap (given t) = s.pushedBy t ++ s.pendingOf t)
      ∧ ((∀ e ∈ events, blocks e = true) → s.popped ++ s.q.contents = s.pushed.map Prod.snd) := by
  have hordered := ordered_exec (ordered_new n producers consumers) hrun
  have hcap : s.q.capacity = n := capacity_exec hrun
  have hcount := hordered.kept.count
  rw [List.length_map] at hcount
  refine ⟨hordered.kept.sublist, ?_, hcap ▸ hordered.valid.size_le, ?_, ?_⟩
  · rw [← CircularQ.length_contents]
    exact hcount
  · intro t
    rw [accounted_exec t hrun]
    rw [pendingOf_new]
    rfl
  · intro hblocks
    exact (patient_exec hblocks (patient_new n producers consumers) hrun).all

end MpmcQueue

/-- Two producers and one consumer at a queue with one place: the second producer
has to wait for room, and the first item makes it. -/
def contended : List (QueueEvent Nat) :=
  [.consume 0, .enqueue 0 .block 10, .produce 0, .enqueue 1 .block 20, .produce 1,
    .notifyPush 0 (some 0), .consume 0, .notifyPop 0 (some 1), .produce 1, .notifyPush 1 none,
    .resume 0 true, .consume 0, .notifyPop 0 none, .resume 0 true, .consume 0]

namespace MpmcQueue

theorem contended_runs : (exec step (new 1 2 1) contended).isSome = true := by decide

/-- The theorem on that run. -/
theorem fifo_on_contended :
    ∃ s, exec step (new 1 2 1) contended = some s ∧ s.popped ++ s.q.contents = [10, 20] := by
  obtain ⟨s, hrun⟩ := Option.isSome_iff_exists.mp contended_runs
  have hpushed : (exec step (new 1 2 1) contended).map (·.pushed) = some [(0, 10), (1, 20)] := by
    decide
  rw [hrun] at hpushed
  have hpushed : s.pushed = [(0, 10), (1, 20)] := Option.some.inj hpushed
  have h := (fifo 1 2 1 contended s hrun).2.2.2.2 (by decide)
  exact ⟨s, hrun, h.trans (congrArg (List.map Prod.snd) hpushed)⟩

/-! ## §3. What the threads hold. -/

variable [Inhabited α] {s s' : MpmcQueue α} {e : QueueEvent α}

theorem lengths_moves (hm : s.Moves e s') :
    s'.producers.length = s.producers.length ∧ s'.consumers.length = s.consumers.length := by
  cases hm <;> simp [setProducer, setConsumer, push, pop]

/-- An event puts in nothing, or what a producer had in its hands. -/
theorem pushed_moves (hm : s.Moves e s') :
    s'.pushed = s.pushed ∨ ∃ t policy item, s.producers[t]? = some (.entering policy item)
      ∧ s'.pushed = s.pushed ++ [(t, item)] := by
  cases hm with
  | push h _ => exact Or.inr ⟨_, _, _, h, rfl⟩
  | enqueue | sleep | notifyConsumer | notifyNoConsumer | spuriousProducer | take | wait | giveUp
  | notifyProducer | notifyNoProducer | spuriousConsumer | timeout | resume => exact Or.inl rfl

/-- How many of the items a producer has in its hands are of a kind. -/
def pendingCount (f : α → Bool) (p : Producer α) : Nat := p.pending.countP f

/-- And of those a call brings. -/
def givenCount (f : α → Bool) : QueueEvent α → Nat
  | .enqueue _ _ item => if f item then 1 else 0
  | _ => 0

/-- What has gone in and what is in the producers' hands: the calls bring it. -/
theorem pendingCount_moves (f : α → Bool) (hm : s.Moves e s') :
    (s'.pushed.map Prod.snd).countP f + tally (pendingCount f) s'.producers
      = (s.pushed.map Prod.snd).countP f + tally (pendingCount f) s.producers
        + givenCount f e := by
  cases hm with
  | @enqueue t policy item h =>
      have := tally_set (w := pendingCount f) h (.entering policy item)
      simp only [givenCount, pendingCount, Producer.pending, List.countP_nil, List.countP_singleton,
        setProducer] at this ⊢
      omega
  | @push t policy item h _ =>
      have := tally_set (w := pendingCount f) h .notifying
      simp only [givenCount, pendingCount, Producer.pending, List.countP_nil, List.countP_singleton,
        setProducer, push, List.map_append, List.countP_append, List.map_cons, List.map_nil]
        at this ⊢
      omega
  | @sleep t item h _ =>
      have := tally_set (w := pendingCount f) h (.waiting item)
      simp only [givenCount, pendingCount, Producer.pending, setProducer] at this ⊢
      omega
  | @notifyConsumer t c h _ =>
      have := tally_set (w := pendingCount f) h .idle
      simp only [givenCount, pendingCount, Producer.pending, setProducer, setConsumer] at this ⊢
      omega
  | @notifyNoConsumer t h _ =>
      have := tally_set (w := pendingCount f) h .idle
      simp only [givenCount, pendingCount, Producer.pending, setProducer] at this ⊢
      omega
  | @spuriousProducer t item h =>
      have := tally_set (w := pendingCount f) h (.entering .block item)
      simp only [givenCount, pendingCount, Producer.pending, setProducer] at this ⊢
      omega
  | @notifyProducer t c item waiting _ h =>
      have := tally_set (w := pendingCount f) h (.entering .block waiting)
      simp only [givenCount, pendingCount, Producer.pending, setProducer, setConsumer] at this ⊢
      omega
  | take | wait | giveUp | notifyNoProducer | spuriousConsumer | timeout | resume => rfl

/-- What all items in the producers' hands have in common, they keep. -/
theorem pending_moves (P : α → Prop) (h : ∀ p ∈ s.producers, ∀ m ∈ p.pending, P m)
    (hgiven : ∀ t policy item, e = .enqueue t policy item → P item) (hm : s.Moves e s') :
    ∀ p ∈ s'.producers, ∀ m ∈ p.pending, P m := by
  have hset : ∀ {t : Nat} {p : Producer α}, (∀ m ∈ p.pending, P m) →
      ∀ q ∈ s.producers.set t p, ∀ m ∈ q.pending, P m := by
    intro t p hp q hq
    obtain hmem | rfl := List.mem_or_eq_of_mem_set hq
    · exact h q hmem
    · exact hp
  have hnone : ∀ m ∈ ([] : List α), P m := fun m hmem => absurd hmem List.not_mem_nil
  cases hm with
  | @enqueue t policy item _ =>
      apply hset
      intro m hmem
      obtain rfl := List.mem_singleton.mp hmem
      exact hgiven t policy m rfl
  | @sleep t item hp _ =>
      apply hset
      exact h (.entering .block item) (List.mem_of_getElem? hp)
  | @spuriousProducer t item hp =>
      apply hset
      exact h (.waiting item) (List.mem_of_getElem? hp)
  | @notifyProducer t c item waiting _ hp =>
      apply hset
      exact h (.waiting waiting) (List.mem_of_getElem? hp)
  | push | notifyConsumer | notifyNoConsumer => exact hset hnone
  | take | wait | giveUp | notifyNoProducer | spuriousConsumer | timeout | resume => exact h

/-- How many of the items a consumer has got are of a kind. -/
def heldCount (f : α → Bool) (p : Consumer α) : Nat := p.held.countP f

/-- What has come out is in the consumers' hands, but for what they are done with. -/
theorem heldCount_moves (f : α → Bool) (hm : s.Moves e s') (he : e.isResume = false) :
    s'.popped.countP f + tally (heldCount f) s.consumers
      = s.popped.countP f + tally (heldCount f) s'.consumers := by
  cases hm with
  | @take c p h hkind _ =>
      have := tally_set (w := heldCount f) h (.notifying s.q.front)
      have hnil : heldCount f p = 0 := by
        obtain rfl | rfl := hkind <;> rfl
      simp only [heldCount, Consumer.held, setConsumer, pop, List.countP_append] at this hnil ⊢
      omega
  | @wait c h _ =>
      have := tally_set (w := heldCount f) h .waiting
      simp only [heldCount, Consumer.held, setConsumer] at this ⊢
      omega
  | @giveUp c h _ =>
      have := tally_set (w := heldCount f) h (.returned none)
      simp only [heldCount, Consumer.held, setConsumer] at this ⊢
      omega
  | @spuriousConsumer c h =>
      have := tally_set (w := heldCount f) h .entering
      simp only [heldCount, Consumer.held, setConsumer] at this ⊢
      omega
  | @timeout c h =>
      have := tally_set (w := heldCount f) h .expired
      simp only [heldCount, Consumer.held, setConsumer] at this ⊢
      omega
  | @notifyNoProducer c item h _ =>
      have := tally_set (w := heldCount f) h (.returned (some item))
      simp only [heldCount, Consumer.held, setConsumer] at this ⊢
      omega
  | @notifyProducer t c item waiting h _ =>
      have := tally_set (w := heldCount f) h (.returned (some item))
      simp only [heldCount, Consumer.held, setConsumer, setProducer] at this ⊢
      omega
  | @notifyConsumer t c _ h =>
      have := tally_set (w := heldCount f) h .entering
      simp only [heldCount, Consumer.held, setConsumer, setProducer] at this ⊢
      omega
  | resume => cases he
  | enqueue | push | sleep | notifyNoConsumer | spuriousProducer => rfl

/-- A consumer ends in no other way than by its caller. -/
theorem ended_moves (hm : s.Moves e s') (he : e.isResume = false) :
    tally Consumer.ended s'.consumers = tally Consumer.ended s.consumers := by
  cases hm with
  | wait h | giveUp h | spuriousConsumer h | timeout h | notifyNoProducer h
  | notifyProducer h | notifyConsumer _ h => exact tally_set_same h (by rfl)
  | @take c p h hkind _ =>
      apply tally_set_same h
      obtain rfl | rfl := hkind <;> rfl
  | resume => cases he
  | enqueue | push | sleep | notifyNoConsumer | spuriousProducer => rfl

/-- Those that have all ended do nothing more. -/
theorem stopped_moves (h : ∀ p ∈ s.consumers, p = .stopped) (hm : s.Moves e s') :
    s'.consumers = s.consumers := by
  have hstopped : ∀ {c : Nat} {p : Consumer α}, s.consumers[c]? = some p → p = .stopped :=
    fun hp => h _ (List.mem_of_getElem? hp)
  cases hm with
  | wait hp | giveUp hp | spuriousConsumer hp | timeout hp | notifyNoProducer hp
  | notifyProducer hp | notifyConsumer _ hp | resume hp => cases hstopped hp
  | take hp hkind =>
      cases hstopped hp
      obtain hkind | hkind := hkind <;> cases hkind
  | enqueue | push | sleep | notifyNoConsumer | spuriousProducer => rfl

/-- The only consumer has moved. -/
theorem set_eq_singleton {β : Type*} {l : List β} {c : Nat} {p p' q : β}
    (hp : l[c]? = some p) (heq : l.set c p' = [q]) : l = [p] ∧ q = p' := by
  have hlen : l.length = 1 := by
    rw [← List.length_set (a := p') (i := c), heq, List.length_singleton]
  obtain ⟨a, rfl⟩ := List.length_eq_one_iff.mp hlen
  cases c with
  | zero =>
      obtain rfl : a = p := by simpa using hp
      obtain rfl : p' = q := by simpa using heq
      exact ⟨rfl, rfl⟩
  | succ c => simp at hp

/-- And a single consumer has got them in order. -/
theorem held_moves (hm : s.Moves e s') (he : e.isResume = false) {done : List α}
    (h : ∀ p, s.consumers = [p] → s.popped = done ++ p.held) :
    ∀ p, s'.consumers = [p] → s'.popped = done ++ p.held := by
  intro q hq
  cases hm with
  | @take c p hp hkind _ =>
      obtain ⟨hone, rfl⟩ := set_eq_singleton hp hq
      have hpopped := h p hone
      have hnil : p.held = [] := by
        obtain rfl | rfl := hkind <;> rfl
      rw [hnil, List.append_nil] at hpopped
      show s.popped ++ [s.q.front] = done ++ [s.q.front]
      rw [hpopped]
  | wait hp | giveUp hp | spuriousConsumer hp | timeout hp | notifyNoProducer hp
  | notifyProducer hp =>
      obtain ⟨hone, rfl⟩ := set_eq_singleton hp hq
      have hall := h _ hone
      exact hall
  | notifyConsumer _ hp =>
      obtain ⟨hone, rfl⟩ := set_eq_singleton hp hq
      have hall := h _ hone
      exact hall
  | resume => cases he
  | enqueue | push | sleep | notifyNoConsumer | spuriousProducer => exact h q hq

end MpmcQueue

end SparkNet
