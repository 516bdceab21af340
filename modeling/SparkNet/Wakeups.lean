/-
  SparkNet.Wakeups — no thread of the queue sleeps through its chance.

  A wakeup can go to a thread that finds its slot taken by another, and a
  `notify_one` with nobody waiting is lost.  Still every free slot and every
  item is known to a thread that is awake, or to one that is about to notify:
  this is the invariant, and a rank of the states bounds how long the threads
  can be busy with one item.

  Main result:
    * `drains` — as long as a consumer is left some thread can go on, until the
      queue is empty and all calls have returned, and each call costs at most
      seven events.
-/
import SparkNet.MpmcQueue

namespace SparkNet

open Runs Tally

variable {α : Type*}

/-! ## §1. Where the threads stand. -/

namespace Producer

def asleep : Producer α → Nat
  | .waiting _ => 1
  | _ => 0

/-- Is about to look for room. -/
def awake : Producer α → Nat
  | .entering .block _ => 1
  | _ => 0

def notifies : Producer α → Nat
  | .notifying => 1
  | _ => 0

/-- What is left to do of the call, and of what it brings. -/
def rank : Producer α → Nat
  | .idle => 0
  | .entering _ _ => 7
  | .waiting _ => 6
  | .notifying => 2

theorem awake_le (policy : OverflowPolicy) (item : α) : (entering policy item).awake ≤ 1 := by
  cases policy <;> simp [awake]

end Producer

namespace Consumer

def asleep : Consumer α → Nat
  | .waiting => 1
  | _ => 0

/-- Is about to look for an item. -/
def awake : Consumer α → Nat
  | .entering => 1
  | .expired => 1
  | _ => 0

def notifies : Consumer α → Nat
  | .notifying _ => 1
  | _ => 0

def rank : Consumer α → Nat
  | .entering => 1
  | .waiting => 0
  | .expired => 3
  | .notifying _ => 4
  | .returned _ => 2
  | .stopped => 0

end Consumer

namespace MpmcQueue

section

variable {s : MpmcQueue α} {t c : Nat}

/-- What the tallies say after a producer has moved. -/
theorem tallies_producer {p : Producer α} (h : s.producers[t]? = some p) (p' : Producer α) :
    tally Producer.asleep (s.producers.set t p') + p.asleep
        = tally Producer.asleep s.producers + p'.asleep
      ∧ tally Producer.awake (s.producers.set t p') + p.awake
        = tally Producer.awake s.producers + p'.awake
      ∧ tally Producer.notifies (s.producers.set t p') + p.notifies
        = tally Producer.notifies s.producers + p'.notifies
      ∧ tally Producer.rank (s.producers.set t p') + p.rank
        = tally Producer.rank s.producers + p'.rank :=
  ⟨tally_set h p', tally_set h p', tally_set h p', tally_set h p'⟩

/-- And after a consumer has. -/
theorem tallies_consumer {p : Consumer α} (h : s.consumers[c]? = some p) (p' : Consumer α) :
    tally Consumer.asleep (s.consumers.set c p') + p.asleep
        = tally Consumer.asleep s.consumers + p'.asleep
      ∧ tally Consumer.awake (s.consumers.set c p') + p.awake
        = tally Consumer.awake s.consumers + p'.awake
      ∧ tally Consumer.notifies (s.consumers.set c p') + p.notifies
        = tally Consumer.notifies s.consumers + p'.notifies
      ∧ tally Consumer.rank (s.consumers.set c p') + p.rank
        = tally Consumer.rank s.consumers + p'.rank :=
  ⟨tally_set h p', tally_set h p', tally_set h p', tally_set h p'⟩

theorem no_consumer_asleep (h : s.consumers.any Consumer.isWaiting = false) :
    tally Consumer.asleep s.consumers = 0 := by
  apply tally_eq_zero
  intro p hp
  have := List.any_eq_false.mp h p hp
  cases p <;> simp_all [Consumer.isWaiting, Consumer.asleep]

theorem no_producer_asleep (h : s.producers.any Producer.isWaiting = false) :
    tally Producer.asleep s.producers = 0 := by
  apply tally_eq_zero
  intro p hp
  have := List.any_eq_false.mp h p hp
  cases p <;> simp_all [Producer.isWaiting, Producer.asleep]

/-- `notify_one` can always be called. -/
theorem wakeConsumer_isSome (s : MpmcQueue α) : ∃ woken, (s.wakeConsumer woken).isSome = true := by
  by_cases h : s.consumers.any Consumer.isWaiting = true
  · obtain ⟨p, hmem, hp⟩ := List.any_eq_true.mp h
    obtain ⟨c, hc⟩ := List.mem_iff_getElem?.mp hmem
    refine ⟨some c, ?_⟩
    unfold wakeConsumer
    cases p <;> simp_all [Consumer.isWaiting]
  · exact ⟨none, by simp [wakeConsumer, h]⟩

theorem wakeProducer_isSome (s : MpmcQueue α) : ∃ woken, (s.wakeProducer woken).isSome = true := by
  by_cases h : s.producers.any Producer.isWaiting = true
  · obtain ⟨p, hmem, hp⟩ := List.any_eq_true.mp h
    obtain ⟨t, ht⟩ := List.mem_iff_getElem?.mp hmem
    refine ⟨some t, ?_⟩
    unfold wakeProducer
    cases p <;> simp_all [Producer.isWaiting]
  · exact ⟨none, by simp [wakeProducer, h]⟩

end

variable [Inhabited α] {s s' : MpmcQueue α}

/-! ## §2. What one event does. -/

/-- While a producer sleeps, every free slot is known to a producer that is awake
or to a consumer about to notify; while a consumer sleeps, so is every item. -/
structure Heard (s : MpmcQueue α) : Prop where
  ordered : Ordered s
  room : 0 < tally Producer.asleep s.producers → s.q.capacity
    ≤ s.q.size + tally Producer.awake s.producers + tally Consumer.notifies s.consumers
  items : 0 < tally Consumer.asleep s.consumers → s.q.size
    ≤ tally Consumer.awake s.consumers + tally Producer.notifies s.producers

/-- How much is left to do. -/
def rank (s : MpmcQueue α) : Nat :=
  tally Producer.rank s.producers + 4 * s.q.size + tally Consumer.rank s.consumers

/-- A thread gets on with its work. -/
def work : QueueEvent α → Nat
  | .produce _ => 1
  | .notifyPush _ _ => 1
  | .consume _ => 1
  | .notifyPop _ _ => 1
  | .resume _ _ => 1
  | _ => 0

/-- The work an event brings in. -/
def cost : QueueEvent α → Nat
  | .enqueue _ _ _ => 7
  | .spuriousProducer _ => 1
  | .spuriousConsumer _ => 1
  | .timeout _ => 3
  | _ => 0

theorem heard_new (n producers consumers : Nat) :
    Heard (new n producers consumers : MpmcQueue α) := by
  refine ⟨ordered_new n producers consumers, ?_, ?_⟩
  · have hzero : tally Producer.asleep (new n producers consumers : MpmcQueue α).producers = 0 :=
      tally_replicate_zero (w := Producer.asleep) (a := .idle) rfl producers
    omega
  · intro _
    exact Nat.zero_le _

/-- What one event does to the counts. -/
theorem heard_moves {e : QueueEvent α} (h : Heard s) (hm : s.Moves e s') :
    Heard s' ∧ work e + s'.rank ≤ s.rank + cost e := by
  have hvalid := h.ordered.valid
  have hroom := h.room
  have hitems := h.items
  have hcap := capacity_moves hm
  suffices hcounts : (0 < tally Producer.asleep s'.producers → s.q.capacity
        ≤ s'.q.size + tally Producer.awake s'.producers + tally Consumer.notifies s'.consumers)
      ∧ (0 < tally Consumer.asleep s'.consumers → s'.q.size
        ≤ tally Consumer.awake s'.consumers + tally Producer.notifies s'.producers)
      ∧ work e + s'.rank ≤ s.rank + cost e by
    obtain ⟨hroom', hitems', hrank⟩ := hcounts
    exact ⟨⟨ordered_moves h.ordered hm, hcap ▸ hroom', hitems'⟩, hrank⟩
  unfold rank
  cases hm with
  | @enqueue t policy item hp =>
      have := tallies_producer hp (.entering policy item)
      simp only [Producer.asleep, Producer.awake, Producer.notifies, Producer.rank, setProducer,
        work, cost] at this ⊢
      omega
  | @push t policy item hp hfree =>
      have := tallies_producer hp .notifying
      have hsize := hvalid.size_pushBack item
      have hawake := Producer.awake_le policy item
      have hdone : (Producer.notifying : Producer α).awake = 0 := rfl
      have hle := hvalid.size_le
      simp only [Producer.asleep, Producer.notifies, Producer.rank, setProducer, push, work,
        cost] at this ⊢
      omega
  | @sleep t item hp hfull =>
      have := tallies_producer hp (.waiting item)
      have hfull := hvalid.full_iff.mp hfull
      simp only [Producer.asleep, Producer.awake, Producer.notifies, Producer.rank, setProducer,
        work, cost] at this ⊢
      omega
  | @notifyConsumer t c hp hc =>
      have := tallies_producer hp .idle
      have := tallies_consumer hc .entering
      simp only [Producer.asleep, Producer.awake, Producer.notifies, Producer.rank, setProducer,
        Consumer.asleep, Consumer.awake, Consumer.notifies, Consumer.rank, setConsumer,
        work, cost] at *
      omega
  | @notifyNoConsumer t hp hnone =>
      have := tallies_producer hp .idle
      have := no_consumer_asleep hnone
      simp only [Producer.asleep, Producer.awake, Producer.notifies, Producer.rank, setProducer,
        work, cost] at *
      omega
  | @spuriousProducer t item hp =>
      have := tallies_producer hp (.entering .block item)
      simp only [Producer.asleep, Producer.awake, Producer.notifies, Producer.rank, setProducer,
        work, cost] at *
      omega
  | @take c p hp hkind hne =>
      have := tallies_consumer hp (.notifying s.q.front)
      have hsize := hvalid.size_popFront hne
      rcases hkind with rfl | rfl
      all_goals
        simp only [Consumer.asleep, Consumer.awake, Consumer.notifies, Consumer.rank,
          setConsumer, pop, work, cost] at *
        omega
  | @wait c hp hempty =>
      have := tallies_consumer hp .waiting
      have hnil := hvalid.empty_iff.mp hempty
      have hsize := CircularQ.length_contents s.q
      rw [hnil] at hsize
      simp only [Consumer.asleep, Consumer.awake, Consumer.notifies, Consumer.rank,
        setConsumer, work, cost, List.length_nil] at *
      omega
  | @giveUp c hp hempty =>
      have := tallies_consumer hp (.returned none)
      have hnil := hvalid.empty_iff.mp hempty
      have hsize := CircularQ.length_contents s.q
      rw [hnil] at hsize
      simp only [Consumer.asleep, Consumer.awake, Consumer.notifies, Consumer.rank,
        setConsumer, work, cost, List.length_nil] at *
      omega
  | @notifyProducer t c item waiting hc hp =>
      have := tallies_producer hp (.entering .block waiting)
      have := tallies_consumer hc (.returned (some item))
      simp only [Producer.asleep, Producer.awake, Producer.notifies, Producer.rank, setProducer,
        Consumer.asleep, Consumer.awake, Consumer.notifies, Consumer.rank, setConsumer,
        work, cost] at *
      omega
  | @notifyNoProducer c item hc hnone =>
      have := tallies_consumer hc (.returned (some item))
      have := no_producer_asleep hnone
      simp only [Consumer.asleep, Consumer.awake, Consumer.notifies, Consumer.rank, setConsumer,
        work, cost] at *
      omega
  | @spuriousConsumer c hc =>
      have := tallies_consumer hc .entering
      simp only [Consumer.asleep, Consumer.awake, Consumer.notifies, Consumer.rank, setConsumer,
        work, cost] at *
      omega
  | @timeout c hc =>
      have := tallies_consumer hc .expired
      simp only [Consumer.asleep, Consumer.awake, Consumer.notifies, Consumer.rank, setConsumer,
        work, cost] at *
      omega
  | @resume c got again hc =>
      have := tallies_consumer hc (if again then .entering else .stopped)
      cases again
      all_goals
        simp only [Consumer.asleep, Consumer.awake, Consumer.notifies, Consumer.rank,
          setConsumer, work, cost] at *
        simp at *
        omega

theorem heard_exec {events : List (QueueEvent α)} (h : Heard s)
    (hrun : exec step s events = some s') :
    Heard s' ∧ (events.map work).sum + s'.rank ≤ s.rank + (events.map cost).sum := by
  have hkeep : ∀ (s : MpmcQueue α) (e : QueueEvent α) (s' : MpmcQueue α),
      Heard s → step s e = some s' → Heard s' :=
    fun _ _ _ h hstep => (heard_moves h (step_moves hstep)).1
  exact ⟨exec_invariant (I := Heard) hkeep h hrun,
    exec_count_le (I := Heard) hkeep
      (fun _ _ _ h hstep => (heard_moves h (step_moves hstep)).2) h hrun⟩

/-! ## §3. Who can go on. -/

/-- Nothing is left that a thread could do by itself. -/
def Stuck (s : MpmcQueue α) : Prop := ∀ e, work e = 1 → s.step e = none

theorem Stuck.producer (h : s.Stuck) {t : Nat} {p : Producer α} (hp : s.producers[t]? = some p) :
    p = .idle ∨ ∃ item, p = .waiting item := by
  cases p with
  | idle => exact Or.inl rfl
  | waiting item => exact Or.inr ⟨item, rfl⟩
  | entering policy item =>
      have hnone := h (.produce t) rfl
      simp only [step, hp] at hnone
      split at hnone <;> cases hnone
  | notifying =>
      obtain ⟨woken, hsome⟩ := (s.setProducer t .idle).wakeConsumer_isSome
      have hnone := h (.notifyPush t woken) rfl
      simp only [step, hp] at hnone
      rw [hnone] at hsome
      cases hsome

theorem Stuck.consumer (h : s.Stuck) {c : Nat} {p : Consumer α} (hp : s.consumers[c]? = some p) :
    p = .waiting ∨ p = .stopped := by
  cases p with
  | waiting => exact Or.inl rfl
  | stopped => exact Or.inr rfl
  | entering =>
      have hnone := h (.consume c) rfl
      simp only [step, hp] at hnone
      split at hnone <;> cases hnone
  | expired =>
      have hnone := h (.consume c) rfl
      simp only [step, hp] at hnone
      split at hnone <;> cases hnone
  | notifying item =>
      obtain ⟨woken, hsome⟩ := (s.setConsumer c (.returned (some item))).wakeProducer_isSome
      have hnone := h (.notifyPop c woken) rfl
      simp only [step, hp] at hnone
      rw [hnone] at hsome
      cases hsome
  | returned item =>
      have hnone := h (.resume c true) rfl
      simp only [step, hp] at hnone
      cases hnone

/-- Then all is done, or no consumer is left. -/
theorem Stuck.settled (h : s.Stuck) (hheard : Heard s) (hcap : 0 < s.q.capacity) :
    (∀ p ∈ s.consumers, p = .stopped) ∨ (∀ p ∈ s.producers, p = .idle) ∧ s.q.contents = [] := by
  have hproducer : ∀ p ∈ s.producers, p = .idle ∨ ∃ item, p = .waiting item := by
    intro p hmem
    obtain ⟨t, ht⟩ := List.mem_iff_getElem?.mp hmem
    exact h.producer ht
  have hconsumer : ∀ p ∈ s.consumers, p = .waiting ∨ p = .stopped := by
    intro p hmem
    obtain ⟨c, hc⟩ := List.mem_iff_getElem?.mp hmem
    exact h.consumer hc
  have hawake : tally Producer.awake s.producers = 0 ∧ tally Producer.notifies s.producers = 0 := by
    constructor <;> apply tally_eq_zero <;> intro p hmem
    all_goals obtain rfl | ⟨item, rfl⟩ := hproducer p hmem <;> rfl
  have hawake' : tally Consumer.awake s.consumers = 0
      ∧ tally Consumer.notifies s.consumers = 0 := by
    constructor <;> apply tally_eq_zero <;> intro p hmem
    all_goals obtain rfl | rfl := hconsumer p hmem <;> rfl
  by_cases hall : ∀ p ∈ s.consumers, p = .stopped
  · exact Or.inl hall
  · right
    simp only [not_forall] at hall
    obtain ⟨p, hmem, hp⟩ := hall
    obtain rfl := (hconsumer p hmem).resolve_right hp
    obtain ⟨c, hc⟩ := List.mem_iff_getElem?.mp hmem
    -- a consumer sleeps: there is nothing it has not heard of
    have hsize := hheard.items (tally_pos hc Nat.one_pos)
    have hzero : s.q.size = 0 := by omega
    refine ⟨?_, by rw [← List.length_eq_zero_iff, CircularQ.length_contents, hzero]⟩
    intro p hmem
    obtain rfl | ⟨item, rfl⟩ := hproducer p hmem
    · rfl
    · obtain ⟨t, ht⟩ := List.mem_iff_getElem?.mp hmem
      have hroom := hheard.room (tally_pos ht Nat.one_pos)
      omega

theorem rank_new (n producers consumers : Nat) :
    (new n producers consumers : MpmcQueue α).rank = consumers := by
  have hidle : tally Producer.rank (new n producers consumers : MpmcQueue α).producers = 0 :=
    tally_replicate_zero (w := Producer.rank) (a := .idle) rfl producers
  have hentering : tally Consumer.rank (new n producers consumers : MpmcQueue α).consumers
      = consumers :=
    (tally_eq_length fun p hp => by rw [List.eq_of_mem_replicate hp]; rfl).trans
      List.length_replicate
  have hsize : (new n producers consumers : MpmcQueue α).q.size = 0 := rfl
  unfold rank
  omega

/-- **No wakeup is lost.**  Whatever the threads have done, as long as a
consumer is left some thread can go on, until all calls have returned and the
queue is empty.  And it does not take for ever: there are at most seven events
to each call, and a few more for waits that ended by themselves. -/
theorem drains (n producers consumers : Nat) (hn : 0 < n) (events : List (QueueEvent α))
    (s : MpmcQueue α) (hrun : exec step (new n producers consumers) events = some s) :
    (s.Stuck → (∀ p ∈ s.consumers, p = .stopped)
        ∨ (∀ p ∈ s.producers, p = .idle) ∧ s.q.contents = [])
      ∧ (events.map work).sum ≤ consumers + (events.map cost).sum := by
  obtain ⟨hheard, hwork⟩ := heard_exec (heard_new n producers consumers) hrun
  have hcap : s.q.capacity = n := capacity_exec hrun
  refine ⟨fun h => h.settled hheard (by omega), ?_⟩
  rw [rank_new] at hwork
  omega

/-- The theorem on the run above: the consumer is asleep, and there is nothing to do. -/
theorem drains_on_contended :
    ∃ s, exec step (new 1 2 1) contended = some s
      ∧ (s.Stuck → s.q.contents = []) ∧ (contended.map work).sum ≤ 15 := by
  obtain ⟨s, hrun⟩ := Option.isSome_iff_exists.mp contended_runs
  have hconsumers : (exec step (new 1 2 1) contended).map (·.consumers) = some [.waiting] := by
    decide
  rw [hrun] at hconsumers
  have hconsumers : s.consumers = [.waiting] := Option.some.inj hconsumers
  obtain ⟨hstuck, hwork⟩ := drains 1 2 1 Nat.one_pos contended s hrun
  refine ⟨s, hrun, fun h => ?_, hwork.trans (by decide)⟩
  obtain hstopped | hidle := hstuck h
  · rw [hconsumers] at hstopped
    cases hstopped .waiting List.mem_cons_self
  · exact hidle.2

end MpmcQueue

end SparkNet
