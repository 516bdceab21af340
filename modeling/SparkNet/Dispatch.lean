/-
  SparkNet.Dispatch — no stale dispatch within a batch.

  `Epoller::Loop` collects the handlers of a whole batch before any callback
  runs, and `HandleEvent` tests one mask three times.  A callback may disable or
  destroy a handler that still has its turn to come, in the batch or in its own
  dispatch.  The condition is that no step does so to a handler that is waited
  for.

  Main results:
    * `poll_distinct` — a batch names live, registered handlers, each once;
    * `dispatch_live` — under the condition every `HandleEvent` and every callback
      of a run goes to a live, registered handler;
    * `close_in_batch_goes_stale` — the first connection of a batch closes the
      second.
-/
import Mathlib.Data.List.Nodup
import SparkNet.Seats
import SparkNet.Calls

namespace SparkNet

open Runs

/-! ## §1. Who is waited for. -/

/-- The bits each test of `HandleEvent` looks for. -/
def Stage.bits : Stage → EventMask
  | .read => World.readBits
  | .write => EPOLLOUT
  | .error => EPOLLERR

/-- The tests from this one on. -/
def Stage.remaining : Stage → List Stage
  | .read => [.read, .write, .error]
  | .write => [.write, .error]
  | .error => [.error]

/-- The tests that find a callback set in the handler at an address. -/
def HandlerPtr.answers : HandlerPtr → Stage → Bool
  | .conn _, .error => false
  | .conn _, _ => true
  | .connecting _ _, .read => false
  | .connecting _ _, _ => true
  | .acceptor _, .read => true
  | .acceptor _, _ => false

/-- The callback a test reads. -/
def Stage.callback : Stage → Handler HandlerCallback → Option HandlerCallback
  | .read => Handler.readCallback
  | .write => Handler.writeCallback
  | .error => Handler.errorCallback

/-- The handlers the frame has still to call back. -/
def Frame.awaits : Frame → List HandlerPtr
  | .loop batch => batch.map Prod.fst
  | .handleEvent ptr mask stage =>
      if stage.remaining.any (fun s => mask.has s.bits && ptr.answers s) then [ptr] else []
  | _ => []

/-- The handlers the frame dispatches. -/
def Frame.names : Frame → List HandlerPtr
  | .loop batch => batch.map Prod.fst
  | .handleEvent ptr _ _ => [ptr]
  | _ => []

/-- The handlers a stack has still to call back. -/
def awaited (stack : List Frame) : List HandlerPtr := stack.flatMap Frame.awaits

/-- The handlers a stack dispatches, in order. -/
def dispatched (stack : List Frame) : List HandlerPtr := stack.flatMap Frame.names

/-- `answers` is what the handlers were built with. -/
theorem Coherent.answers_iff {w : World} {ptr : HandlerPtr} {g : Handler HandlerCallback}
    (hw : Coherent w) (hptr : w.handler? ptr = some g) (stage : Stage) :
    (stage.callback g).isSome = ptr.answers stage := by
  cases ptr with
  | conn c =>
      obtain ⟨hlive, rfl⟩ := World.handler?_conn.mp hptr
      obtain ⟨hread, hwrite, herror, _⟩ := hw.conn c (hw.known_of_live hlive)
      cases stage <;> simp [Stage.callback, HandlerPtr.answers, hread, hwrite, herror]
  | connecting k n =>
      obtain ⟨_, hread, hwrite, herror, _⟩ :=
        hw.connHandler k n g (World.handler?_connecting.mp hptr)
      cases stage <;> simp [Stage.callback, HandlerPtr.answers, hread, hwrite, herror]
  | acceptor s =>
      obtain ⟨hread, hwrite, herror, _⟩ := hw.acceptor s g hptr
      cases stage <;> simp [Stage.callback, HandlerPtr.answers, hread, hwrite, herror]

section Stack

variable {calls base : List Frame} {ptr : HandlerPtr} {w : World}

/-- Calls are not looked at. -/
theorem flatMap_append_calls {F : Frame → List HandlerPtr}
    (hF : ∀ f : Frame, f.isCall = true → F f = []) (hcalls : ∀ f ∈ calls, f.isCall = true) :
    (calls ++ base).flatMap F = base.flatMap F := by
  induction calls with
  | nil => rfl
  | cons f calls ih =>
      rw [List.cons_append, List.flatMap_cons, hF f (hcalls f List.mem_cons_self), List.nil_append]
      exact ih fun g hg => hcalls g (List.mem_cons_of_mem f hg)

theorem awaited_append_calls (hcalls : ∀ f ∈ calls, f.isCall = true) :
    awaited (calls ++ base) = awaited base := by
  refine flatMap_append_calls (fun f hf => ?_) hcalls
  cases f <;> first | rfl | exact absurd hf (by simp [Frame.isCall])

theorem dispatched_append_calls (hcalls : ∀ f ∈ calls, f.isCall = true) :
    dispatched (calls ++ base) = dispatched base := by
  refine flatMap_append_calls (fun f hf => ?_) hcalls
  cases f <;> first | rfl | exact absurd hf (by simp [Frame.isCall])

theorem Frame.mem_awaits_handleEvent {p : HandlerPtr} {mask : EventMask} {stage : Stage} :
    ptr ∈ (Frame.handleEvent p mask stage).awaits
      ↔ ptr = p ∧ ∃ s ∈ stage.remaining, mask.has s.bits = true ∧ p.answers s = true := by
  simp only [awaits]
  split
  next h =>
    obtain ⟨s, hs, hbits⟩ := List.any_eq_true.mp h
    rw [List.mem_singleton]
    exact ⟨fun hp => ⟨hp, s, hs, by simpa using hbits⟩, And.left⟩
  next h =>
    simp only [List.not_mem_nil, false_iff]
    rintro ⟨_, s, hs, hbits⟩
    exact h (List.any_eq_true.mpr ⟨s, hs, by simpa using hbits⟩)

/-- A dispatch that goes on to its next test awaits nobody new. -/
theorem Frame.awaits_later {p : HandlerPtr} {mask : EventMask} {stage stage' : Stage}
    (hle : ∀ s ∈ stage'.remaining, s ∈ stage.remaining)
    (h : ptr ∈ (Frame.handleEvent p mask stage').awaits) :
    ptr ∈ (Frame.handleEvent p mask stage).awaits := by
  obtain ⟨hp, s, hs, hbits⟩ := mem_awaits_handleEvent.mp h
  exact mem_awaits_handleEvent.mpr ⟨hp, s, hle s hs, hbits⟩

/-- Nobody is awaited anew when the frame on top moves on. -/
theorem awaited_advanced (w : World) (l : Label) (h : ptr ∈ awaited (w.advanced l)) :
    ptr ∈ awaited w.stack := by
  have hcons : ∀ {f f' : Frame} {rest : List Frame}, (ptr ∈ f'.awaits → ptr ∈ f.awaits) →
      ptr ∈ awaited (f' :: rest) → ptr ∈ awaited (f :: rest) := by
    intro f f' rest hf hmem
    rcases List.mem_append.mp hmem with hmem | hmem
    · exact List.mem_append_left _ (hf hmem)
    · exact List.mem_append_right _ hmem
  cases l with
  | poll ready => exact h
  | user call => exact h
  | ret =>
      unfold World.advanced at h
      simp only at h
      split at h
      next hst =>
        rw [hst]
        exact List.mem_append_right _ h
      next => exact h
  | resume env =>
      unfold World.advanced at h
      simp only at h
      split at h
      next hst =>
        rw [hst]
        exact List.mem_append_right _ h
      next p mask batch rest hst =>
        rw [hst]
        -- the handler on top leaves the batch for its dispatch
        rcases List.mem_append.mp h with hmem | hmem
        · obtain ⟨rfl, _⟩ := Frame.mem_awaits_handleEvent.mp hmem
          exact List.mem_append_left _ List.mem_cons_self
        · rcases List.mem_append.mp hmem with hmem | hmem
          · exact List.mem_append_left _ (List.mem_cons_of_mem _ hmem)
          · exact List.mem_append_right _ hmem
      next hst =>
        rw [hst]
        exact hcons (Frame.awaits_later (by decide)) h
      next hst =>
        rw [hst]
        exact hcons (Frame.awaits_later (by decide)) h
      next hst =>
        rw [hst]
        exact List.mem_append_right _ h
      next hst =>
        rw [hst]
        exact List.mem_append_right _ h
      next => exact h

/-- The handlers dispatched stay in order. -/
theorem dispatched_advanced (w : World) (l : Label) :
    (dispatched (w.advanced l)).Sublist (dispatched w.stack) := by
  cases l with
  | poll ready => exact List.Sublist.refl _
  | user call => exact List.Sublist.refl _
  | ret =>
      unfold World.advanced
      simp only
      split
      next hst =>
        rw [hst]
        exact List.sublist_append_right _ _
      next => exact List.Sublist.refl _
  | resume env =>
      unfold World.advanced
      simp only
      split
      next hst =>
        rw [hst]
        exact List.sublist_append_right _ _
      next hst =>
        rw [hst]
        exact List.Sublist.refl _
      next hst =>
        rw [hst]
        exact List.Sublist.refl _
      next hst =>
        rw [hst]
        exact List.Sublist.refl _
      next hst =>
        rw [hst]
        exact List.sublist_append_right _ _
      next hst =>
        rw [hst]
        exact List.sublist_append_right _ _
      next => exact List.Sublist.refl _

end Stack

/-! ## §2. What the poller delivers. -/

namespace World

/-- The handler at the address is alive and registered under its descriptor. -/
def seated (w : World) (ptr : HandlerPtr) : Prop :=
  ∃ fd, w.fd? ptr = some fd ∧ w.poller.handlers fd = some ptr

instance (w : World) (ptr : HandlerPtr) : Decidable (w.seated ptr) :=
  decidable_of_iff ((w.fd? ptr).any fun fd => w.poller.handlers fd == some ptr) (by
    simp [seated, Option.any_eq_true])

/-- The batch `epoll_wait` makes of its events. -/
def batchOf (w : World) (ready : List (Nat × EventMask)) : Option (List (HandlerPtr × EventMask)) :=
  ready.mapM fun event => (w.poller.interest event.1).map fun entry => (entry.2, event.2)

theorem poll_next {w w' : World} {ready : List (Nat × EventMask)}
    (hnext : w.next (.poll ready) = some w') :
    w.stack = [] ∧ (ready.map Prod.fst).Nodup ∧ ∃ batch, w.batchOf ready = some batch
      ∧ w' = w.push (.loop batch) := by
  unfold next at hnext
  rw [Option.ite_none_left_eq_some] at hnext
  obtain ⟨_, hpoll⟩ := hnext
  simp only [poll, Option.ite_none_right_eq_some, Bool.and_eq_true, List.isEmpty_iff,
    decide_eq_true_eq, Option.map_eq_some_iff] at hpoll
  obtain ⟨⟨hst, hnodup⟩, batch, hbatch, rfl⟩ := hpoll
  exact ⟨hst, hnodup, batch, hbatch, rfl⟩

theorem batchOf_cons {w : World} {event : Nat × EventMask} {ready : List (Nat × EventMask)}
    {batch : List (HandlerPtr × EventMask)} (h : w.batchOf (event :: ready) = some batch) :
    ∃ ev ptr rest, w.poller.interest event.1 = some (ev, ptr) ∧ w.batchOf ready = some rest
      ∧ batch = (ptr, event.2) :: rest := by
  unfold batchOf at h
  rw [List.mapM_cons] at h
  simp only [Option.bind_eq_bind, Option.bind_eq_some_iff, Option.map_eq_some_iff,
    Option.pure_def, Option.some.injEq] at h
  obtain ⟨first, ⟨⟨ev, ptr⟩, hint, rfl⟩, rest, hrest, rfl⟩ := h
  exact ⟨ev, ptr, rest, hint, hrest, rfl⟩

/-- The events lie on the descriptors of the handlers they name. -/
theorem batchOf_fds {S : HandlerPtr → Prop} {w : World} (h : Sits S w) :
    ∀ {ready : List (Nat × EventMask)} {batch : List (HandlerPtr × EventMask)},
      w.batchOf ready = some batch →
      batch.map (fun event => w.fd? event.1) = ready.map (fun event => some event.1)
        ∧ ∀ ptr ∈ batch.map Prod.fst, w.seated ptr := by
  intro ready
  induction ready with
  | nil =>
      intro batch hbatch
      obtain rfl := Option.some.inj hbatch
      exact ⟨rfl, by simp⟩
  | cons event ready ih =>
      intro batch hbatch
      obtain ⟨ev, ptr, rest, hint, hrest, rfl⟩ := batchOf_cons hbatch
      obtain ⟨hreg, hfd⟩ := h.wired event.1 ev ptr hint
      obtain ⟨hfds, hseated⟩ := ih hrest
      refine ⟨?_, ?_⟩
      · rw [List.map_cons, List.map_cons, hfds, hfd]
      · intro q hq
        rcases List.mem_cons.mp hq with rfl | hq
        · exact ⟨event.1, hfd, hreg⟩
        · exact hseated q hq

/-- **A batch names live, registered handlers, each once.** -/
theorem poll_distinct {S : HandlerPtr → Prop} {w : World} (h : Sits S w)
    {ready : List (Nat × EventMask)} {batch : List (HandlerPtr × EventMask)}
    (hnodup : (ready.map Prod.fst).Nodup) (hbatch : w.batchOf ready = some batch) :
    (batch.map Prod.fst).Nodup ∧ ∀ ptr ∈ batch.map Prod.fst, w.seated ptr := by
  obtain ⟨hfds, hseated⟩ := batchOf_fds h hbatch
  refine ⟨?_, hseated⟩
  have hsome : (ready.map fun event => some event.1).Nodup := by
    have hmap := hnodup.map (Option.some_injective Nat)
    rwa [List.map_map] at hmap
  rw [← hfds] at hsome
  have hcomp : batch.map (fun event => w.fd? event.1) = (batch.map Prod.fst).map w.fd? := by
    rw [List.map_map]
    rfl
  rw [hcomp] at hsome
  exact List.Nodup.of_map _ hsome

end World

/-! ## §3. The property and the condition. -/

/-- **No stale dispatch**: `HandleEvent` is called on a live, registered handler,
and every callback it then calls is of one. -/
def DispatchesLive (w : World) : Label → Prop
  | .resume _ =>
      match w.stack with
      | .loop ((ptr, _) :: _) :: _ => w.seated ptr
      | .handleEvent ptr mask stage :: _ =>
          mask.has stage.bits = true → ptr.answers stage = true → w.seated ptr
      | _ => True
  | _ => True

instance (w : World) (l : Label) : Decidable (DispatchesLive w l) := by
  unfold DispatchesLive
  exact match l with
  | .poll _ | .user _ | .ret => isTrue trivial
  | .resume _ =>
      match w.stack with
      | .loop ((ptr, _) :: _) :: _ => inferInstanceAs (Decidable (w.seated ptr))
      | .handleEvent ptr mask stage :: _ =>
          inferInstanceAs (Decidable (mask.has stage.bits = true → ptr.answers stage = true →
            w.seated ptr))
      | .loop [] :: _ | .closing _ :: _ | .user _ :: _ | [] => isTrue trivial

/-- The step neither disables nor destroys a handler that is waited for, and
`Connecting` replaces none. -/
structure SparesPending (w : World) (l : Label) : Prop where
  attempt : ∀ k, w.startsAttempt l = some k → (w.clients k).connHandler.isSome = false
  pending : ∀ ptr ∈ awaited (w.advanced l), ¬ w.unseats l ptr

instance (w : World) (l : Label) : Decidable (SparesPending w l) :=
  decidable_of_iff
    ((∀ k, w.startsAttempt l = some k → (w.clients k).connHandler.isSome = false)
      ∧ ∀ ptr ∈ awaited (w.advanced l), ¬ w.unseats l ptr)
    ⟨fun h => ⟨h.1, h.2⟩, fun h => ⟨h.1, h.2⟩⟩

/-- A world whose batch is in order: everybody who is waited for is seated. -/
structure Orderly (w : World) : Prop where
  coherent : Coherent w
  held : ∃ spare, Held spare w
  layered : Layered w.stack
  distinct : (dispatched w.stack).Nodup
  sits : Sits (· ∈ awaited w.stack) w

namespace Orderly

variable {w w' : World} {l : Label}

theorem init : Orderly World.init where
  coherent := coherent_init
  held := ⟨_, held_init⟩
  layered := .nil
  distinct := List.nodup_nil
  sits := sits_init _ fun _ h => absurd h (by simp [World.init, awaited])

theorem seated_of_awaited (h : Orderly w) {ptr : HandlerPtr} (hptr : ptr ∈ awaited w.stack) :
    w.seated ptr := h.sits.seated ptr hptr

/-- A connection whose write test is made has no other turn to come. -/
theorem not_awaited_of_testsWrite (h : Orderly w) {c : Nat} (hc : w.testsWrite l = some c) :
    .conn c ∉ awaited (w.advanced l) := by
  cases l with
  | poll ready => exact absurd hc (by simp [World.testsWrite])
  | user call => exact absurd hc (by simp [World.testsWrite])
  | ret => exact absurd hc (by simp [World.testsWrite])
  | resume env =>
      unfold World.testsWrite at hc
      simp only at hc
      split at hc
      next d mask rest hst =>
        obtain rfl := Option.some.inj hc
        have hlayered := h.layered
        have hdistinct := h.distinct
        rw [hst] at hlayered hdistinct
        obtain ⟨batch, rfl⟩ := hlayered.below_handleEvent
        have hadv : w.advanced (.resume env)
            = [.handleEvent (.conn d) mask .error, .loop batch] := by
          simp [World.advanced, hst]
        rw [hadv]
        intro hmem
        rcases List.mem_append.mp hmem with hmem | hmem
        · obtain ⟨_, s, hs, _, hanswers⟩ := Frame.mem_awaits_handleEvent.mp hmem
          simp only [Stage.remaining, List.mem_singleton] at hs
          subst hs
          exact absurd hanswers (by simp [HandlerPtr.answers])
        · have hbatch : HandlerPtr.conn d ∈ dispatched [.loop batch] := by
            simpa [awaited, dispatched, Frame.awaits, Frame.names] using hmem
          have hnodup : (HandlerPtr.conn d :: dispatched [.loop batch]).Nodup := hdistinct
          exact (List.nodup_cons.mp hnodup).1 hbatch
      next => exact absurd hc (by simp)

/-- **One step** that leaves alone who is waited for. -/
theorem next (h : Orderly w) (hC : SparesPending w l) (hnext : w.next l = some w') :
    Orderly w' := by
  obtain ⟨spare, hheld⟩ := h.held
  have hattempt : ∀ k, w.startsAttempt l = some k → (w.clients k).connHandler = none := by
    intro k hk
    simpa using hC.attempt k hk
  have hsits : Sits (· ∈ awaited (w.advanced l)) w' :=
    (h.sits.congr fun ptr => awaited_advanced w l).next hheld h.coherent hnext hattempt hC.pending
      fun c => h.not_awaited_of_testsWrite
  refine ⟨h.coherent.next hnext, ⟨_, hheld.next h.coherent hnext⟩, h.layered.next hnext, ?_, ?_⟩
  · rcases World.performs_next hnext with
      ⟨ready, batch, rfl, _, _⟩ | ⟨_, _, _, _, _, _, rfl⟩ | hp
    · obtain ⟨hst, hnodup, batch, hbatch, rfl⟩ := World.poll_next hnext
      show (dispatched (.loop batch :: w.stack)).Nodup
      rw [hst]
      simpa [dispatched, Frame.names] using (World.poll_distinct h.sits hnodup hbatch).1
    · exact h.distinct
    · obtain ⟨calls, hst, hcalls⟩ := hp.stack
      rw [hst, dispatched_append_calls hcalls]
      exact h.distinct.sublist (dispatched_advanced w l)
  · rcases World.performs_next hnext with
      ⟨ready, batch, rfl, _, _⟩ | ⟨ptr, mask, batch, rest, hst, hptr, rfl⟩ | hp
    · obtain ⟨hst, hnodup, batch, hbatch, rfl⟩ := World.poll_next hnext
      refine ⟨hsits.wired, fun ptr hptr => ?_⟩
      have hmem : ptr ∈ batch.map Prod.fst := by
        have hstack : (w.push (.loop batch)).stack = [.loop batch] := by
          show _ :: w.stack = _
          rw [hst]
        rw [hstack] at hptr
        simpa [awaited, Frame.awaits] using hptr
      obtain ⟨fd, hfd, hreg⟩ := (World.poll_distinct h.sits hnodup hbatch).2 ptr hmem
      have hsame : (w.push (.loop batch)).fd? = w.fd? :=
        World.fd?_push fun d hd => absurd hd (by simp [Frame.holds])
      exact ⟨fd, by rw [hsame]; exact hfd, hreg⟩
    · -- who is dispatched is alive
      have hmem : ptr ∈ awaited w.stack := by
        rw [hst]
        exact List.mem_append_left _ List.mem_cons_self
      obtain ⟨fd, hfd, _⟩ := h.seated_of_awaited hmem
      exact absurd hfd (by simp [World.fd?, hptr])
    · obtain ⟨calls, hst, hcalls⟩ := hp.stack
      have hsame : awaited w'.stack = awaited (w.advanced l) := by
        rw [hst]
        exact awaited_append_calls hcalls
      rw [hsame]
      exact hsits

/-- In such a world every dispatch is live. -/
theorem dispatchesLive (h : Orderly w) : DispatchesLive w l := by
  cases l with
  | poll ready => trivial
  | user call => trivial
  | ret => trivial
  | resume env =>
      unfold DispatchesLive
      simp only
      split
      next ptr mask batch rest hst =>
        refine h.seated_of_awaited ?_
        rw [hst]
        exact List.mem_append_left _ List.mem_cons_self
      next ptr mask stage rest hst =>
        intro hbits hanswers
        refine h.seated_of_awaited ?_
        rw [hst]
        refine List.mem_append_left _ (Frame.mem_awaits_handleEvent.mpr ⟨rfl, stage, ?_, hbits,
          hanswers⟩)
        cases stage <;> exact List.mem_cons_self
      next => trivial

end Orderly

/-- **No stale dispatch** in a run that leaves alone who is waited for: each
`HandleEvent` of a batch is called on a handler that is live and registered at
that moment, and so is each callback. -/
theorem dispatch_live (labels : List Label)
    (hspares : Along World.next SparesPending World.init labels) :
    Along World.next DispatchesLive World.init labels :=
  along_of_along (I := Orderly) (fun _ _ h => h.dispatchesLive)
    (fun _ _ _ h hC hnext => h.next hC hnext) Orderly.init hspares

/-- A server with two connections, of which the application keeps pointers. -/
def twoAccepted : List Label :=
  [.user (.serverSetConnCallback 0 true), .user (.serverSetMessageCallback 0 true),
   .user (.serverStart 0 3), .poll [(3, EPOLLIN)], .resume .idle,
   .resume { Env.idle with accept := .conn 4 InetAdress.new.addr }, .user (.keep 0), .ret,
   .resume .idle, .resume .idle, .resume .idle, .poll [(3, EPOLLIN)], .resume .idle,
   .resume { Env.idle with accept := .conn 5 InetAdress.new.addr }, .user (.keep 1), .ret,
   .resume .idle, .resume .idle, .resume .idle]

/-- The theorem on a batch whose first connection is closed by its own end of file. -/
theorem dispatch_live_on_run :
    (exec World.next World.init (twoAccepted ++
        [.poll [(4, EPOLLIN), (5, EPOLLIN)], .resume .idle,
         .resume { Env.idle with read := .eof }, .resume .idle, .resume .idle, .resume .idle,
         .resume .idle, .resume { Env.idle with read := .data [1] }])).isSome = true
      ∧ Along World.next DispatchesLive World.init (twoAccepted ++
        [.poll [(4, EPOLLIN), (5, EPOLLIN)], .resume .idle,
         .resume { Env.idle with read := .eof }, .resume .idle, .resume .idle, .resume .idle,
         .resume .idle, .resume { Env.idle with read := .data [1] }]) :=
  ⟨by decide +kernel, dispatch_live _ (by decide +kernel)⟩

/-- **The first connection of a batch closes the second**, which is dispatched all
the same. -/
theorem close_in_batch_goes_stale :
    (exec World.next World.init (twoAccepted ++
        [.poll [(4, EPOLLIN), (5, EPOLLIN)], .resume .idle,
         .resume { Env.idle with read := .data [1] }, .user (.close 1), .resume .idle, .ret,
         .resume .idle, .resume .idle, .resume .idle])).isSome = true
      ∧ ¬ Along World.next DispatchesLive World.init (twoAccepted ++
        [.poll [(4, EPOLLIN), (5, EPOLLIN)], .resume .idle,
         .resume { Env.idle with read := .data [1] }, .user (.close 1), .resume .idle, .ret,
         .resume .idle, .resume .idle, .resume .idle]) := by
  decide +kernel

end SparkNet
