/-
  SparkNet.ThreadPool — the threads that write the log.

  `thread_pool` and `async_logger` of the bundled `spdlog`
  (`include/spdlog/details/thread_pool-inl.h`, `async_logger-inl.h`).  A thread
  that logs puts an `async_msg` into the queue and waits for room, as
  `async_factory` has it; the workers take the messages out and run the sinks.
  `~thread_pool` puts in one `terminate` for each worker and joins them.  It runs
  when the last reference to the pool goes, so in no call of the logger: these
  hold one.  What the sinks do is a parameter.

  Main result:
    * `all_logged` — when no thread can go on, or the destructor has returned,
      every message posted has been handled, with one worker in the order of the
      queue; and the destructor returns.
-/
import SparkNet.InetAdress
import SparkNet.Wakeups

namespace SparkNet

open Runs Tally

/-! ## §1. The messages and the sinks. -/

/-- `level::off`. -/
def levelOff : Nat := 6

/-- `details::log_msg`, as far as a line is made of it. -/
structure LogMsg where
  level : Nat
  time : Nat
  payload : Text
  deriving DecidableEq, Repr

inductive AsyncMsgType where
  | log | flush | terminate
  deriving DecidableEq, Repr

structure AsyncMsg where
  msgType : AsyncMsgType
  msg : LogMsg
  deriving DecidableEq, Repr

/-- A `log_msg` by default. -/
def LogMsg.default : LogMsg := ⟨levelOff, 0, []⟩

instance : Inhabited AsyncMsg := ⟨⟨.log, .default⟩⟩

/-- `async_msg(async_msg_type)`. -/
def AsyncMsg.ofType (type : AsyncMsgType) : AsyncMsg := ⟨type, .default⟩

def AsyncMsg.isTerminate (m : AsyncMsg) : Bool := m.msgType == .terminate

/-- What an `async_logger` calls from a worker: its sink, whose exceptions are
caught, and the levels from which the sink logs and the logger flushes. -/
structure Backend (σ : Type*) where
  log : σ → LogMsg → σ
  flush : σ → σ
  sinkLevel : Nat
  flushLevel : Nat

namespace Backend

variable {σ : Type*}

def shouldFlush (b : Backend σ) (msg : LogMsg) : Bool :=
  b.flushLevel ≤ msg.level && msg.level != levelOff

/-- `backend_sink_it_`. -/
def sinkIt (b : Backend σ) (sinks : σ) (msg : LogMsg) : σ :=
  let sinks := if b.sinkLevel ≤ msg.level then b.log sinks msg else sinks
  if b.shouldFlush msg then b.flush sinks else sinks

/-- The `switch` of `process_next_msg_`. -/
def process (b : Backend σ) (sinks : σ) (m : AsyncMsg) : σ :=
  match m.msgType with
  | .log => b.sinkIt sinks m.msg
  | .flush => b.flush sinks
  | .terminate => sinks

end Backend

/-! ## §2. The pool. -/

structure ThreadPool (σ : Type*) where
  queue : MpmcQueue AsyncMsg
  sinks : σ
  /-- The thread that runs `~thread_pool`, and how many `terminate`s it has posted. -/
  closing : Option (Nat × Nat)
  joined : Bool
  /-- The messages posted to the pool, by which thread. -/
  posted : List (Nat × AsyncMsg)
  /-- The messages the workers are done with. -/
  handled : List AsyncMsg

inductive PoolEvent where
  /-- Thread `t` logs. -/
  | log (t : Nat) (msg : LogMsg)
  | flush (t : Nat)
  /-- A thread gets on in the queue. -/
  | queue (e : QueueEvent AsyncMsg)
  /-- Worker `c` has got a message, or none in time. -/
  | process (c : Nat)
  /-- The last reference goes in thread `t`. -/
  | destroy (t : Nat)
  /-- `~thread_pool` posts the next `terminate`. -/
  | terminate
  | join
  deriving Repr

namespace ThreadPool

variable {σ : Type*}

def new (capacity threads workers : Nat) (sinks : σ) : ThreadPool σ :=
  ⟨MpmcQueue.new capacity threads workers, sinks, none, false, [], []⟩

/-- `post_async_msg_` in thread `t`. -/
def post (s : ThreadPool σ) (t : Nat) (m : AsyncMsg) : Option (ThreadPool σ) :=
  (s.queue.step (.enqueue t .block m)).map fun queue =>
    { s with queue := queue, posted := s.posted ++ [(t, m)] }

/-- The events of a call in the queue and its return are not the queue's own. -/
def isInner : QueueEvent AsyncMsg → Bool
  | .enqueue _ _ _ => false
  | .resume _ _ => false
  | _ => true

def step (b : Backend σ) (s : ThreadPool σ) : PoolEvent → Option (ThreadPool σ)
  | .log t msg =>
      -- the exception for a pool that is gone is caught in `logger::log`
      if s.closing.isSome then some s else s.post t ⟨.log, msg⟩
  | .flush t => if s.closing.isSome then none else s.post t (.ofType .flush)
  | .queue e =>
      if isInner e then (s.queue.step e).map fun queue => { s with queue := queue } else none
  | .process c => match s.queue.consumers[c]? with
      | some (.returned none) =>
          (s.queue.step (.resume c true)).map fun queue => { s with queue := queue }
      | some (.returned (some m)) =>
          (s.queue.step (.resume c (!m.isTerminate))).map fun queue =>
            { s with
              queue := queue, sinks := b.process s.sinks m, handled := s.handled ++ [m] }
      | _ => none
  | .destroy t =>
      if s.closing = none ∧ t < s.queue.producers.length
          ∧ ∀ p ∈ s.queue.producers, p = .idle then
        some { s with closing := some (t, 0) }
      else none
  | .terminate => match s.closing with
      | some (t, k) =>
          if k < s.queue.consumers.length then
            (s.post t (.ofType .terminate)).map fun s => { s with closing := some (t, k + 1) }
          else none
      | none => none
  | .join => match s.closing with
      | some (t, k) =>
          if k = s.queue.consumers.length ∧ s.queue.producers[t]? = some .idle
              ∧ (∀ p ∈ s.queue.consumers, p = .stopped) ∧ s.joined = false then
            some { s with joined := true }
          else none
      | none => none

/-! ## §3. The invariant. -/

/-- The messages posted by thread `t`. -/
def postedBy (s : ThreadPool σ) (t : Nat) : List AsyncMsg :=
  (s.posted.filter fun entry => entry.1 == t).map Prod.snd

/-- How many `terminate`s have been posted. -/
def terminates : Option (Nat × Nat) → Nat
  | some (_, k) => k
  | none => 0

/-- The messages that have gone into the queue, in its order. -/
def accepted (s : ThreadPool σ) : List AsyncMsg := s.queue.pushed.map Prod.snd

structure Sound (b : Backend σ) (init : σ) (workers : Nat) (s : ThreadPool σ) : Prop where
  patient : s.queue.Patient
  heard : s.queue.Heard
  crew : s.queue.consumers.length = workers
  sinks : s.sinks = s.handled.foldl b.process init
  /-- What the workers have taken out, they are done with or have in their hands. -/
  taken : ∀ f, s.queue.popped.countP f
    = s.handled.countP f + tally (MpmcQueue.heldCount f) s.queue.consumers
  inOrder : ∀ p, s.queue.consumers = [p] → s.queue.popped = s.handled ++ p.held
  /-- A worker ends with the `terminate` it has got, -/
  ended : tally Consumer.ended s.queue.consumers = s.handled.countP AsyncMsg.isTerminate
  /-- of which there are as many as were posted, -/
  count : s.accepted.countP AsyncMsg.isTerminate
      + tally (MpmcQueue.pendingCount AsyncMsg.isTerminate) s.queue.producers
    = terminates s.closing
  bound : terminates s.closing ≤ workers
  /-- and they are the last messages. -/
  last : s.accepted.Pairwise fun m m' => m.isTerminate = true → m'.isTerminate = true
  closed : s.closing.isSome = true →
    ∀ p ∈ s.queue.producers, ∀ m ∈ p.pending, m.isTerminate = true
  runner : ∀ t k, s.closing = some (t, k) → t < s.queue.producers.length
  calls : ∀ t, s.postedBy t = s.queue.pushedBy t ++ s.queue.pendingOf t
  joined : s.joined = true → ∀ p ∈ s.queue.consumers, p = .stopped

variable {b : Backend σ} {init : σ} {workers : Nat} {s s' : ThreadPool σ}

theorem sound_new (b : Backend σ) (init : σ) (capacity threads workers : Nat) :
    Sound b init workers (new capacity threads workers init) := by
  have hproducers : ∀ p ∈ (List.replicate threads .idle : List (Producer AsyncMsg)), p = .idle :=
    fun p hp => List.eq_of_mem_replicate hp
  have hconsumers : ∀ p ∈ (List.replicate workers .entering : List (Consumer AsyncMsg)),
      p = .entering := fun p hp => List.eq_of_mem_replicate hp
  constructor
  case patient => exact MpmcQueue.patient_new capacity threads workers
  case heard => exact MpmcQueue.heard_new capacity threads workers
  case crew => exact List.length_replicate
  case sinks => rfl
  case taken =>
    intro f
    have hzero : tally (MpmcQueue.heldCount f) (List.replicate workers .entering) = 0 := by
      apply tally_eq_zero
      intro p hp
      obtain rfl := hconsumers p hp
      rfl
    show 0 = 0 + tally (MpmcQueue.heldCount f) (List.replicate workers .entering)
    omega
  case inOrder =>
    intro p hp
    have hmem : p ∈ (List.replicate workers .entering : List (Consumer AsyncMsg)) := by
      rw [show List.replicate workers .entering = [p] from hp]
      exact List.mem_singleton_self p
    obtain rfl := hconsumers p hmem
    rfl
  case ended =>
    apply tally_eq_zero
    intro p hp
    obtain rfl := hconsumers p hp
    rfl
  case count =>
    have hzero : tally (MpmcQueue.pendingCount AsyncMsg.isTerminate) (List.replicate threads .idle)
        = 0 := by
      apply tally_eq_zero
      intro p hp
      obtain rfl := hproducers p hp
      rfl
    show 0 + tally (MpmcQueue.pendingCount AsyncMsg.isTerminate) (List.replicate threads .idle) = 0
    omega
  case bound => exact Nat.zero_le _
  case last => exact List.Pairwise.nil
  case closed => exact fun h => absurd h Bool.false_ne_true
  case runner => exact fun t k h => nomatch h
  case calls =>
    intro t
    have hidle : (MpmcQueue.new capacity threads workers : MpmcQueue AsyncMsg).pendingOf t = [] :=
      MpmcQueue.pendingOf_new capacity threads workers t
    show [] = [] ++ (MpmcQueue.new capacity threads workers : MpmcQueue AsyncMsg).pendingOf t
    rw [hidle]
    rfl
  case joined => exact fun h => absurd h Bool.false_ne_true

/-- A thread gets on in the queue, or makes a call. -/
theorem sound_queue (h : Sound b init workers s) {queue : MpmcQueue AsyncMsg}
    {e : QueueEvent AsyncMsg} (hm : s.queue.Moves e queue) (hresume : e.isResume = false)
    (hblocks : MpmcQueue.blocks e = true) (closing : Option (Nat × Nat))
    (posted : List (Nat × AsyncMsg)) (hsame : closing.isSome = s.closing.isSome)
    (hgiven : ∀ t policy m, e = .enqueue t policy m → closing.isSome = m.isTerminate)
    (hcount : terminates closing
      = terminates s.closing + MpmcQueue.givenCount AsyncMsg.isTerminate e)
    (hbound : terminates closing ≤ workers)
    (hrunner : ∀ t k, closing = some (t, k) → t < s.queue.producers.length)
    (hposted : ∀ t, (posted.filter fun entry => entry.1 == t).map Prod.snd
      = s.postedBy t ++ MpmcQueue.given t e) :
    Sound b init workers { s with queue := queue, closing := closing, posted := posted } := by
  obtain ⟨hproducers, hconsumers⟩ := MpmcQueue.lengths_moves hm
  constructor
  case patient => exact MpmcQueue.patient_moves h.patient hblocks hm
  case heard => exact (MpmcQueue.heard_moves h.heard hm).1
  case crew => exact hconsumers.trans h.crew
  case sinks => exact h.sinks
  case taken =>
    intro f
    have hheld := MpmcQueue.heldCount_moves f hm hresume
    have htaken := h.taken f
    show queue.popped.countP f
      = s.handled.countP f + tally (MpmcQueue.heldCount f) queue.consumers
    omega
  case inOrder => exact MpmcQueue.held_moves hm hresume h.inOrder
  case ended => exact (MpmcQueue.ended_moves hm hresume).trans h.ended
  case count =>
    have hpending := MpmcQueue.pendingCount_moves AsyncMsg.isTerminate hm
    have hbefore : (s.queue.pushed.map Prod.snd).countP AsyncMsg.isTerminate
        + tally (MpmcQueue.pendingCount AsyncMsg.isTerminate) s.queue.producers
        = terminates s.closing := h.count
    show (queue.pushed.map Prod.snd).countP AsyncMsg.isTerminate
        + tally (MpmcQueue.pendingCount AsyncMsg.isTerminate) queue.producers
      = terminates closing
    omega
  case bound => exact hbound
  case last =>
    show (queue.pushed.map Prod.snd).Pairwise _
    obtain heq | ⟨t, policy, m, hp, heq⟩ := MpmcQueue.pushed_moves hm
    · rw [heq]
      exact h.last
    · rw [heq, List.map_append, List.pairwise_append]
      refine ⟨h.last, List.pairwise_singleton _ _, ?_⟩
      intro a ha m' hm' hterm
      obtain rfl := List.mem_singleton.mp hm'
      -- once a `terminate` is in the queue, nothing else is posted
      have hclosing : s.closing.isSome = true := by
        have hpos : 0 < s.accepted.countP AsyncMsg.isTerminate :=
          List.countP_pos_iff.mpr ⟨a, ha, hterm⟩
        have := h.count
        cases hc : s.closing with
        | none =>
            rw [hc, show terminates none = 0 from rfl] at this
            omega
        | some c => rfl
      exact h.closed hclosing _ (List.mem_of_getElem? hp) _ (List.mem_singleton_self _)
  case closed =>
    intro hclosing
    apply MpmcQueue.pending_moves _ (h.closed (hsame ▸ hclosing)) _ hm
    intro t policy m he
    rw [← hgiven t policy m he]
    exact hclosing
  case runner =>
    intro t k hc
    rw [hproducers]
    exact hrunner t k hc
  case calls =>
    intro t
    rw [MpmcQueue.accounted_moves hm t, ← h.calls t]
    exact hposted t
  case joined =>
    intro hjoined
    rw [MpmcQueue.stopped_moves (h.joined hjoined) hm]
    exact h.joined hjoined

/-- A worker is done with what it got: a message, or none. -/
theorem sound_resume (h : Sound b init workers s) {c : Nat} {got : Option AsyncMsg}
    (hc : s.queue.consumers[c]? = some (.returned got)) (again : Bool)
    (hagain : again = !(got.toList.any AsyncMsg.isTerminate)) :
    Sound b init workers
      { s with
        queue := s.queue.setConsumer c (if again then .entering else .stopped)
        sinks := got.toList.foldl b.process s.sinks, handled := s.handled ++ got.toList } := by
  have hm : s.queue.Moves (.resume c again)
      (s.queue.setConsumer c (if again then .entering else .stopped)) := .resume hc
  have hheld : ∀ f, MpmcQueue.heldCount f (.returned got) = got.toList.countP f := by
    intro f
    cases got <;> rfl
  have hfree : ∀ f, MpmcQueue.heldCount f
      (if again then .entering else .stopped : Consumer AsyncMsg) = 0 := by
    intro f
    cases again <;> rfl
  constructor
  case patient => exact MpmcQueue.patient_moves h.patient rfl hm
  case heard => exact (MpmcQueue.heard_moves h.heard hm).1
  case crew => exact (MpmcQueue.lengths_moves hm).2.trans h.crew
  case sinks =>
    show got.toList.foldl b.process s.sinks = (s.handled ++ got.toList).foldl b.process init
    rw [List.foldl_append, h.sinks]
  case taken =>
    intro f
    have hset := tally_set (w := MpmcQueue.heldCount f) hc (if again then .entering else .stopped)
    have htaken := h.taken f
    rw [hheld, hfree] at hset
    show s.queue.popped.countP f = (s.handled ++ got.toList).countP f
      + tally (MpmcQueue.heldCount f)
        (s.queue.consumers.set c (if again then .entering else .stopped))
    rw [List.countP_append]
    omega
  case inOrder =>
    intro p hp
    obtain ⟨hone, rfl⟩ := MpmcQueue.set_eq_singleton hc hp
    have hpopped := h.inOrder _ hone
    show s.queue.popped = s.handled ++ got.toList ++ _
    cases got <;> cases again <;> simpa [Consumer.held] using hpopped
  case ended =>
    have hset := tally_set (w := Consumer.ended) hc (if again then .entering else .stopped)
    have hended := h.ended
    show tally Consumer.ended (s.queue.consumers.set c (if again then .entering else .stopped))
      = (s.handled ++ got.toList).countP AsyncMsg.isTerminate
    rw [List.countP_append]
    cases got with
    | none =>
        subst hagain
        simp [Consumer.ended] at hset ⊢
        omega
    | some m =>
        cases hterm : m.isTerminate <;> simp [hterm] at hagain <;> subst hagain <;>
          simp [Consumer.ended, hterm] at hset ⊢ <;> omega
  case count => exact h.count
  case bound => exact h.bound
  case last => exact h.last
  case closed => exact h.closed
  case runner => exact h.runner
  case calls => exact h.calls
  case joined =>
    intro hjoined
    cases h.joined hjoined _ (List.mem_of_getElem? hc)

/-- A call that finds the pool. -/
theorem sound_post {t : Nat} {m : AsyncMsg} {queue : MpmcQueue AsyncMsg}
    (h : Sound b init workers s) (closing : Option (Nat × Nat))
    (hsame : closing.isSome = s.closing.isSome) (hm : closing.isSome = m.isTerminate)
    (hcount : terminates closing = terminates s.closing + if m.isTerminate then 1 else 0)
    (hbound : terminates closing ≤ workers)
    (hrunner : ∀ t k, closing = some (t, k) → t < s.queue.producers.length)
    (hstep : s.queue.step (.enqueue t .block m) = some queue) :
    Sound b init workers
        { s with queue := queue, closing := closing, posted := s.posted ++ [(t, m)] }
      ∧ queue.rank ≤ s.queue.rank + 7 := by
  have hmoves := MpmcQueue.step_moves hstep
  constructor
  · apply sound_queue h hmoves rfl rfl closing _ hsame _ hcount hbound hrunner
    · intro u
      show ((s.posted ++ [(t, m)]).filter _).map Prod.snd
        = s.postedBy u ++ if t = u then [m] else []
      rw [List.filter_append, List.map_append]
      by_cases heq : t = u
      · simp [heq, postedBy]
      · simp [heq, postedBy]
    · intro u policy m' he
      injection he with _ _ heq
      subst heq
      exact hm
  · have := (MpmcQueue.heard_moves h.heard hmoves).2
    simp only [MpmcQueue.work, MpmcQueue.cost] at this
    omega

/-! ## §4. What one event does. -/

/-- A thread of the pool, its destructor included, gets on with its work. -/
def work : PoolEvent → Nat
  | .queue e => MpmcQueue.work e
  | .process _ => 1
  | .terminate => 1
  | .join => 1
  | _ => 0

/-- The work an event brings in. -/
def cost : PoolEvent → Nat
  | .log _ _ => 7
  | .flush _ => 7
  | .queue e => MpmcQueue.cost e
  | _ => 0

/-- How much is left to do, the end of the pool included. -/
def rank (s : ThreadPool σ) : Nat :=
  s.queue.rank + 8 * (s.queue.consumers.length - terminates s.closing)
    + if s.joined then 0 else 1

theorem inner_facts {e : QueueEvent AsyncMsg} (h : isInner e = true) :
    e.isResume = false ∧ MpmcQueue.blocks e = true
      ∧ MpmcQueue.givenCount AsyncMsg.isTerminate e = 0 ∧ (∀ t, MpmcQueue.given t e = [])
      ∧ ∀ t policy m, e ≠ .enqueue t policy m := by
  cases e <;> simp_all [isInner, QueueEvent.isResume, MpmcQueue.blocks, MpmcQueue.givenCount,
    MpmcQueue.given]

/-- A thread that logs, or flushes. -/
theorem sound_call {t : Nat} {m : AsyncMsg} (h : Sound b init workers s)
    (hopen : s.closing = none) (hm : m.isTerminate = false) (hpost : s.post t m = some s') :
    Sound b init workers s' ∧ s'.rank ≤ s.rank + 7 := by
  obtain ⟨queue, hstep, rfl⟩ := Option.map_eq_some_iff.mp hpost
  obtain ⟨h', hrank⟩ := sound_post h s.closing rfl
    (by rw [hopen, hm]; rfl) (by rw [hm]; rfl) h.bound h.runner hstep
  refine ⟨h', ?_⟩
  have hlen := (MpmcQueue.lengths_moves (MpmcQueue.step_moves hstep)).2
  unfold rank
  dsimp only
  rw [hlen]
  omega

/-- A thread that gets on in the queue. -/
theorem sound_inner {e : QueueEvent AsyncMsg} {queue : MpmcQueue AsyncMsg}
    (h : Sound b init workers s) (hinner : isInner e = true) (hstep : s.queue.step e = some queue) :
    Sound b init workers { s with queue := queue }
      ∧ MpmcQueue.work e + rank { s with queue := queue } ≤ s.rank + MpmcQueue.cost e := by
  obtain ⟨hresume, hblocks, hzero, hgiven, hcall⟩ := inner_facts hinner
  have hmoves := MpmcQueue.step_moves hstep
  have hrank := (MpmcQueue.heard_moves h.heard hmoves).2
  have hlen := (MpmcQueue.lengths_moves hmoves).2
  constructor
  · apply sound_queue h hmoves hresume hblocks s.closing s.posted rfl _ (by omega) h.bound h.runner
    · intro t
      rw [hgiven, List.append_nil]
      rfl
    · exact fun t policy m he => absurd he (hcall t policy m)
  · unfold rank
    dsimp only
    rw [hlen]
    omega

/-- A worker with what it got. -/
theorem sound_process {c : Nat} (h : Sound b init workers s)
    (hstep : step b s (.process c) = some s') :
    Sound b init workers s' ∧ 1 + s'.rank ≤ s.rank := by
  have hrank : ∀ (got : Option AsyncMsg) (again : Bool) (sinks : σ) (handled : List AsyncMsg),
      s.queue.consumers[c]? = some (.returned got) →
      1 + rank { s with
        queue := s.queue.setConsumer c (if again then .entering else .stopped)
        sinks := sinks, handled := handled } ≤ s.rank := by
    intro got again sinks handled hc
    have hmoves : s.queue.Moves (.resume c again) _ := .resume hc
    have hrank := (MpmcQueue.heard_moves h.heard hmoves).2
    have hlen := (MpmcQueue.lengths_moves hmoves).2
    simp only [MpmcQueue.work, MpmcQueue.cost] at hrank
    unfold rank
    dsimp only
    rw [hlen]
    omega
  simp only [step] at hstep
  split at hstep
  · rename_i hc
    obtain ⟨queue, hqueue, rfl⟩ := Option.map_eq_some_iff.mp hstep
    simp only [MpmcQueue.step, hc] at hqueue
    cases hqueue
    refine ⟨?_, hrank none true s.sinks s.handled hc⟩
    have h' := sound_resume h hc true rfl
    simpa using h'
  · rename_i m hc
    obtain ⟨queue, hqueue, rfl⟩ := Option.map_eq_some_iff.mp hstep
    simp only [MpmcQueue.step, hc] at hqueue
    cases hqueue
    refine ⟨?_, hrank (some m) (!m.isTerminate) _ _ hc⟩
    have h' := sound_resume h hc (!m.isTerminate) (by simp)
    simpa using h'
  · cases hstep

/-- The destructor begins: no thread is in a call. -/
theorem sound_destroy {t : Nat} (h : Sound b init workers s)
    (hstep : step b s (.destroy t) = some s') :
    Sound b init workers s' ∧ s'.rank ≤ s.rank := by
  simp only [step] at hstep
  rw [Option.ite_none_right_eq_some] at hstep
  obtain ⟨⟨hopen, ht, hidle⟩, hstep⟩ := hstep
  cases hstep
  constructor
  · refine { h with count := ?_, bound := Nat.zero_le _, closed := ?_, runner := ?_ }
    · have hcount := h.count
      rw [hopen] at hcount
      exact hcount
    · intro _ p hp m hm
      rw [hidle p hp] at hm
      exact absurd hm List.not_mem_nil
    · intro u k hc
      injection hc with hc
      injection hc with hc
      exact hc ▸ ht
  · unfold rank
    rw [hopen]
    exact le_rfl

/-- The destructor posts a `terminate`. -/
theorem sound_terminate (h : Sound b init workers s) (hstep : step b s .terminate = some s') :
    Sound b init workers s' ∧ 1 + s'.rank ≤ s.rank := by
  simp only [step] at hstep
  split at hstep
  · rename_i t k hclosing
    rw [Option.ite_none_right_eq_some] at hstep
    obtain ⟨hk, hstep⟩ := hstep
    obtain ⟨s₁, hpost, rfl⟩ := Option.map_eq_some_iff.mp hstep
    obtain ⟨queue, hqueue, rfl⟩ := Option.map_eq_some_iff.mp hpost
    have hcrew := h.crew
    have hlen := (MpmcQueue.lengths_moves (MpmcQueue.step_moves hqueue)).2
    obtain ⟨h', hrank⟩ := sound_post h (some (t, k + 1)) (by rw [hclosing]; rfl) rfl
      (by rw [hclosing]; rfl) (by show k + 1 ≤ workers; omega)
      (by
        intro u j hc
        injection hc with hc
        injection hc with hc
        exact hc ▸ h.runner t k hclosing) hqueue
    refine ⟨h', ?_⟩
    unfold rank
    rw [hclosing]
    simp only [terminates]
    omega
  · cases hstep

/-- And has joined the workers. -/
theorem sound_join (h : Sound b init workers s) (hstep : step b s .join = some s') :
    Sound b init workers s' ∧ 1 + s'.rank ≤ s.rank := by
  simp only [step] at hstep
  split at hstep
  · rename_i t k hclosing
    rw [Option.ite_none_right_eq_some] at hstep
    obtain ⟨⟨_, _, hstopped, hjoined⟩, hstep⟩ := hstep
    cases hstep
    refine ⟨{ h with joined := fun _ => hstopped }, ?_⟩
    unfold rank
    simp only [hjoined]
    simp
    omega
  · cases hstep

theorem sound_step {e : PoolEvent} (h : Sound b init workers s) (hstep : step b s e = some s') :
    Sound b init workers s' ∧ work e + s'.rank ≤ s.rank + cost e := by
  cases e with
  | log t msg =>
      simp only [step] at hstep
      split at hstep
      · cases hstep
        exact ⟨h, by simp [work, cost]⟩
      · rename_i hopen
        obtain ⟨h', hrank⟩ := sound_call h (by simpa using hopen) rfl hstep
        exact ⟨h', by simpa [work, cost] using hrank⟩
  | flush t =>
      simp only [step] at hstep
      split at hstep
      · cases hstep
      · rename_i hopen
        obtain ⟨h', hrank⟩ := sound_call h (by simpa using hopen) rfl hstep
        exact ⟨h', by simpa [work, cost] using hrank⟩
  | queue e =>
      simp only [step] at hstep
      rw [Option.ite_none_right_eq_some] at hstep
      obtain ⟨hinner, hstep⟩ := hstep
      obtain ⟨queue, hqueue, rfl⟩ := Option.map_eq_some_iff.mp hstep
      exact sound_inner h hinner hqueue
  | process c => exact sound_process h hstep
  | destroy t =>
      obtain ⟨h', hrank⟩ := sound_destroy h hstep
      exact ⟨h', by simpa [work, cost] using hrank⟩
  | terminate => exact sound_terminate h hstep
  | join => exact sound_join h hstep

theorem capacity_step {e : PoolEvent} (hstep : step b s e = some s') :
    s'.queue.q.capacity = s.queue.q.capacity := by
  have hmoves : ∀ {e : QueueEvent AsyncMsg} {queue : MpmcQueue AsyncMsg},
      s.queue.step e = some queue → queue.q.capacity = s.queue.q.capacity :=
    fun h => MpmcQueue.capacity_moves (MpmcQueue.step_moves h)
  have hpost : ∀ {t : Nat} {m : AsyncMsg} {s' : ThreadPool σ}, s.post t m = some s' →
      s'.queue.q.capacity = s.queue.q.capacity := by
    intro t m s' h
    obtain ⟨queue, hqueue, rfl⟩ := Option.map_eq_some_iff.mp h
    exact hmoves hqueue
  cases e with
  | log t msg =>
      simp only [step] at hstep
      split at hstep
      · cases hstep
        rfl
      · exact hpost hstep
  | flush t => exact hpost (Option.ite_none_left_eq_some.mp hstep).2
  | queue e =>
      obtain ⟨queue, hqueue, rfl⟩ := Option.map_eq_some_iff.mp
        (Option.ite_none_right_eq_some.mp hstep).2
      exact hmoves hqueue
  | process c =>
      simp only [step] at hstep
      split at hstep
      · obtain ⟨queue, hqueue, rfl⟩ := Option.map_eq_some_iff.mp hstep
        exact hmoves hqueue
      · obtain ⟨queue, hqueue, rfl⟩ := Option.map_eq_some_iff.mp hstep
        exact hmoves hqueue
      · cases hstep
  | destroy t =>
      cases (Option.ite_none_right_eq_some.mp hstep).2
      rfl
  | terminate =>
      simp only [step] at hstep
      split at hstep
      · obtain ⟨s₁, hs₁, rfl⟩ := Option.map_eq_some_iff.mp
          (Option.ite_none_right_eq_some.mp hstep).2
        have hsame := hpost hs₁
        exact hsame
      · cases hstep
  | join =>
      simp only [step] at hstep
      split at hstep
      · cases (Option.ite_none_right_eq_some.mp hstep).2
        rfl
      · cases hstep

theorem capacity_exec {events : List PoolEvent} (hrun : exec (step b) s events = some s') :
    s'.queue.q.capacity = s.queue.q.capacity :=
  exec_invariant (I := fun s' : ThreadPool σ => s'.queue.q.capacity = s.queue.q.capacity)
    (fun _ _ _ h hstep => (capacity_step hstep).trans h) rfl hrun

theorem sound_exec {events : List PoolEvent} (h : Sound b init workers s)
    (hrun : exec (step b) s events = some s') :
    Sound b init workers s' ∧ (events.map work).sum + s'.rank ≤ s.rank + (events.map cost).sum := by
  have hkeep : ∀ (s : ThreadPool σ) (e : PoolEvent) (s' : ThreadPool σ),
      Sound b init workers s → step b s e = some s' → Sound b init workers s' :=
    fun _ _ _ h hstep => (sound_step h hstep).1
  constructor
  · exact exec_invariant hkeep h hrun
  · exact exec_count_le hkeep (fun _ _ _ h hstep => (sound_step h hstep).2) h hrun

/-! ## §5. The end. -/

/-- No thread can go on by itself. -/
def Stuck (b : Backend σ) (s : ThreadPool σ) : Prop := ∀ e, work e = 1 → step b s e = none

theorem Stuck.queue (h : s.Stuck b) : s.queue.Stuck := by
  intro e he
  by_cases hinner : isInner e = true
  · have hnone := h (.queue e) he
    simpa [step, hinner] using hnone
  · cases e with
    | resume c again =>
        have hnone := h (.process c) rfl
        simp only [step, MpmcQueue.step] at hnone ⊢
        cases hc : s.queue.consumers[c]? with
        | none => rfl
        | some p =>
            cases p with
            | returned got => cases got <;> simp [hc] at hnone
            | entering | waiting | expired | notifying | stopped => rfl
    | enqueue => cases he
    | produce | notifyPush | spuriousProducer | consume | notifyPop | spuriousConsumer
    | timeout => exact absurd rfl hinner

/-- The messages accepted: those handled, those in the workers' hands, those in
the queue. -/
theorem Sound.accepted_eq (h : Sound b init workers s) :
    s.queue.popped ++ s.queue.q.contents = s.accepted :=
  h.patient.all

/-- Workers with empty hands have handled all they took. -/
theorem Sound.handled_perm (h : Sound b init workers s)
    (hfree : ∀ p ∈ s.queue.consumers, p.held = []) : s.handled.Perm s.queue.popped := by
  rw [List.perm_iff_count]
  intro m
  have htaken := h.taken (· == m)
  have hzero : tally (MpmcQueue.heldCount (· == m)) s.queue.consumers = 0 := by
    apply tally_eq_zero
    intro p hp
    rw [MpmcQueue.heldCount, hfree p hp, List.countP_nil]
  show s.handled.countP (· == m) = s.queue.popped.countP (· == m)
  omega

theorem Sound.handled_eq (h : Sound b init 1 s) (hfree : ∀ p ∈ s.queue.consumers, p.held = []) :
    s.handled = s.queue.popped := by
  obtain ⟨p, hp⟩ := List.length_eq_one_iff.mp h.crew
  have hpopped := h.inOrder p hp
  rw [hfree p (hp ▸ List.mem_singleton_self p), List.append_nil] at hpopped
  exact hpopped.symm

/-- Where all workers have stopped, each has got one of the `terminate`s, and
everything before these. -/
theorem Sound.all_stopped (h : Sound b init workers s) (hworkers : 0 < workers)
    (hstopped : ∀ p ∈ s.queue.consumers, p = .stopped) :
    terminates s.closing = workers ∧ s.queue.q.contents = []
      ∧ ∀ p ∈ s.queue.producers, p.pending = [] := by
  have hended : tally Consumer.ended s.queue.consumers = workers := by
    rw [← h.crew]
    exact tally_eq_length fun p hp => by rw [hstopped p hp]; rfl
  have hpopped := (h.handled_perm fun p hp => by rw [hstopped p hp]; rfl).countP_eq
    AsyncMsg.isTerminate
  have hall := congrArg (List.countP AsyncMsg.isTerminate) h.accepted_eq
  rw [List.countP_append] at hall
  have hcount := h.count
  have hbound := h.bound
  have hhandled := h.ended
  have hcontents : s.queue.q.contents.countP AsyncMsg.isTerminate = 0 := by omega
  have hpending : tally (MpmcQueue.pendingCount AsyncMsg.isTerminate) s.queue.producers = 0 := by
    omega
  have hclosing : s.closing.isSome = true := by
    cases hc : s.closing with
    | none =>
        rw [hc, show terminates none = 0 from rfl] at hcount hbound
        omega
    | some c => rfl
  refine ⟨by omega, ?_, ?_⟩
  · -- what is behind a `terminate` is one
    have hpos : 0 < s.queue.popped.countP AsyncMsg.isTerminate := by omega
    obtain ⟨m, hm, hterm⟩ := List.countP_pos_iff.mp hpos
    have hlast := h.last
    rw [← h.accepted_eq, List.pairwise_append] at hlast
    rw [List.eq_nil_iff_forall_not_mem]
    intro m' hm'
    exact List.countP_eq_zero.mp hcontents m' hm' (hlast.2.2 m hm m' hm' hterm)
  · intro p hp
    rw [List.eq_nil_iff_forall_not_mem]
    intro m hm
    have hterm := h.closed hclosing p hp m hm
    obtain ⟨t, ht⟩ := List.mem_iff_getElem?.mp hp
    have hpos : 0 < MpmcQueue.pendingCount AsyncMsg.isTerminate p :=
      List.countP_pos_iff.mpr ⟨m, hm, hterm⟩
    have := tally_pos ht hpos
    omega

/-- Everything that was posted has been handled. -/
structure Complete (b : Backend σ) (init : σ) (workers : Nat) (s : ThreadPool σ) : Prop where
  handled : s.handled.Perm s.accepted
  inOrder : workers = 1 → s.handled = s.accepted
  posted : ∀ t, s.postedBy t = s.queue.pushedBy t
  sinks : workers = 1 → s.sinks = s.accepted.foldl b.process init

theorem Sound.complete (h : Sound b init workers s) (hnil : s.queue.q.contents = [])
    (hpending : ∀ p ∈ s.queue.producers, p.pending = [])
    (hfree : ∀ p ∈ s.queue.consumers, p.held = []) : Complete b init workers s := by
  have hall := h.accepted_eq
  rw [hnil, List.append_nil] at hall
  have hone : workers = 1 → s.handled = s.accepted := by
    intro hone
    subst hone
    rw [h.handled_eq hfree, hall]
  refine ⟨hall ▸ h.handled_perm hfree, hone, ?_, ?_⟩
  · intro t
    rw [h.calls t]
    have hnone : s.queue.pendingOf t = [] := by
      unfold MpmcQueue.pendingOf
      cases ht : s.queue.producers[t]? with
      | none => rfl
      | some p => exact hpending p (List.mem_of_getElem? ht)
    rw [hnone, List.append_nil]
  · intro hworkers
    rw [h.sinks, hone hworkers]

theorem ended_le (p : Consumer AsyncMsg) : p.ended ≤ 1 := by
  cases p <;> simp [Consumer.ended]

/-- A pool that cannot go on is done. -/
theorem Sound.stuck (h : Sound b init workers s) (hcap : 0 < s.queue.q.capacity)
    (hworkers : 0 < workers) (hstuck : s.Stuck b) :
    Complete b init workers s ∧ (s.closing.isSome = true → s.joined = true) := by
  have hqueue := hstuck.queue
  have hproducer : ∀ p ∈ s.queue.producers, p.pending = [] → p = .idle := by
    intro p hp hnone
    obtain ⟨t, ht⟩ := List.mem_iff_getElem?.mp hp
    obtain rfl | ⟨m, rfl⟩ := hqueue.producer ht
    · rfl
    · exact absurd hnone (List.cons_ne_nil _ _)
  have hfree : ∀ p ∈ s.queue.consumers, p.held = [] := by
    intro p hp
    obtain ⟨c, hc⟩ := List.mem_iff_getElem?.mp hp
    obtain rfl | rfl := hqueue.consumer hc <;> rfl
  have hpending : s.queue.q.contents = [] ∧ ∀ p ∈ s.queue.producers, p.pending = [] := by
    obtain hstopped | ⟨hidle, hnil⟩ := hqueue.settled h.heard hcap
    · exact (h.all_stopped hworkers hstopped).2
    · exact ⟨hnil, fun p hp => by rw [hidle p hp]; rfl⟩
  have hcomplete := h.complete hpending.1 hpending.2 hfree
  refine ⟨hcomplete, fun hclosing => ?_⟩
  obtain ⟨⟨t, k⟩, hc⟩ := Option.isSome_iff_exists.mp hclosing
  have hidle : ∀ p ∈ s.queue.producers, p = .idle :=
    fun p hp => hproducer p hp (hpending.2 p hp)
  have ht : s.queue.producers[t]? = some .idle := by
    have hlt := h.runner t k hc
    rw [List.getElem?_eq_getElem hlt, hidle _ (List.getElem_mem hlt)]
  -- the destructor is past its last `terminate`, or it could post the next
  have hk : k = s.queue.consumers.length := by
    by_contra hne
    have hbound := h.bound
    rw [hc, show terminates (some (t, k)) = k from rfl, ← h.crew] at hbound
    have hnone := hstuck .terminate rfl
    have hlt : k < s.queue.consumers.length := by omega
    simp [step, hc, hlt, post, MpmcQueue.step, ht] at hnone
  -- and all of these have been handled
  have hstopped : ∀ p ∈ s.queue.consumers, p = .stopped := by
    have hcount := h.count
    have hended := h.ended
    rw [← hcomplete.handled.countP_eq, hc] at hcount
    rw [show terminates (some (t, k)) = k from rfl] at hcount
    have hzero : tally (MpmcQueue.pendingCount AsyncMsg.isTerminate) s.queue.producers = 0 := by
      apply tally_eq_zero
      intro p hp
      rw [MpmcQueue.pendingCount, hpending.2 p hp, List.countP_nil]
    intro p hp
    obtain ⟨c, hc⟩ := List.mem_iff_getElem?.mp hp
    obtain rfl | rfl := hqueue.consumer hc
    · have hlt := tally_lt_length (w := Consumer.ended) ended_le hc rfl
      omega
    · rfl
  by_contra hjoined
  have hnone := hstuck .join rfl
  simp [step, hc, hk, ht, hjoined] at hnone
  obtain ⟨p, hp, hne⟩ := hnone
  exact hne (hstopped p hp)

/-- A pool whose destructor has returned is done. -/
theorem Sound.done (h : Sound b init workers s) (hworkers : 0 < workers)
    (hjoined : s.joined = true) : Complete b init workers s := by
  have hstopped := h.joined hjoined
  obtain ⟨_, hnil, hpending⟩ := h.all_stopped hworkers hstopped
  exact h.complete hnil hpending fun p hp => by rw [hstopped p hp]; rfl

/-- **Everything is logged, and the destructor returns.**  Whatever the threads
do: when none can go on by itself, every message posted has been handled, and a
destructor that has begun has returned; when it has returned, every message has
been handled too.  With one worker the sinks have then got all messages in the
order in which they went into the queue, in which each thread's are in its own
order.  And the threads do not go on for ever: there are seven events to a
message, and nine to a worker for the destructor. -/
theorem all_logged (b : Backend σ) (init : σ) (capacity threads workers : Nat)
    (hcap : 0 < capacity) (hworkers : 0 < workers) (events : List PoolEvent) (s : ThreadPool σ)
    (hrun : exec (step b) (new capacity threads workers init) events = some s) :
    (s.Stuck b → Complete b init workers s ∧ (s.closing.isSome = true → s.joined = true))
      ∧ (s.joined = true → Complete b init workers s)
      ∧ (events.map work).sum ≤ 9 * workers + 1 + (events.map cost).sum := by
  obtain ⟨h, hwork⟩ := sound_exec (sound_new b init capacity threads workers) hrun
  have hsame : s.queue.q.capacity = capacity := capacity_exec hrun
  refine ⟨fun hstuck => h.stuck (by omega) hworkers hstuck, fun hjoined => h.done hworkers hjoined,
    ?_⟩
  have hrank : (new capacity threads workers init).rank = 9 * workers + 1 := by
    have hqueue := MpmcQueue.rank_new (α := AsyncMsg) capacity threads workers
    have hlen : (MpmcQueue.new capacity threads workers : MpmcQueue AsyncMsg).consumers.length
        = workers := List.length_replicate
    show (MpmcQueue.new capacity threads workers : MpmcQueue AsyncMsg).rank
      + 8 * ((MpmcQueue.new capacity threads workers : MpmcQueue AsyncMsg).consumers.length - 0) + 1
      = _
    omega
  omega

/-- A backend that keeps the texts. -/
def texts : Backend (List Text) := ⟨fun lines msg => lines ++ [msg.payload], id, 0, levelOff⟩

/-- One thread, one worker: two lines, the second while the worker sleeps, and the end. -/
def twoLinesAndEnd : List PoolEvent :=
  [.log 0 ⟨2, 0, ['a']⟩, .queue (.produce 0), .queue (.notifyPush 0 none),
    .queue (.consume 0), .queue (.notifyPop 0 none), .process 0, .queue (.consume 0),
    .log 0 ⟨2, 1, ['b']⟩, .queue (.produce 0), .queue (.notifyPush 0 (some 0)),
    .queue (.consume 0), .queue (.notifyPop 0 none), .process 0,
    .destroy 0, .terminate, .queue (.produce 0), .queue (.notifyPush 0 none),
    .queue (.consume 0), .queue (.notifyPop 0 none), .process 0, .join]

/-- The theorem on that run. -/
theorem all_logged_on_two_lines :
    ∃ s, exec (step texts) (new 2 1 1 []) twoLinesAndEnd = some s
      ∧ s.sinks = [['a'], ['b']] := by
  obtain ⟨s, hrun⟩ := Option.isSome_iff_exists.mp
    (show (exec (step texts) (new 2 1 1 []) twoLinesAndEnd).isSome = true by decide)
  have hseen : (exec (step texts) (new 2 1 1 []) twoLinesAndEnd).map
      (fun s => (s.joined, s.accepted)) = some (true, [⟨.log, ⟨2, 0, ['a']⟩⟩,
        ⟨.log, ⟨2, 1, ['b']⟩⟩, .ofType .terminate]) := by
    decide
  rw [hrun] at hseen
  have hseen : (s.joined, s.accepted) = _ := Option.some.inj hseen
  obtain ⟨hjoined, haccepted⟩ := Prod.mk.inj hseen
  have h := ((all_logged texts [] 2 1 1 (by decide) (by decide) twoLinesAndEnd s hrun).2.1
    hjoined).sinks rfl
  rw [haccepted] at h
  exact ⟨s, hrun, h⟩

end ThreadPool

end SparkNet
