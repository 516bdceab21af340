/-
  SparkNet.NullSafety — the pointers a client dereferences.

  `HandleWrite` and `HandleError` guard `_connHandler` by `_state`, and
  `Disconnect` does not guard `_conn` at all.  When both EPOLLOUT and EPOLLERR
  are ready, `HandleEvent` calls the one after the other; `HandleWrite` of an
  attempt that has failed drops the handler and leaves `_state` at CONNECTING.

  `World.next` stops at the error test of a dropped handler, since the handler
  is freed memory then.  To see what the client does when the freed handler
  still has its callbacks, `nextFreed` calls `HandleError` all the same.

  Main results:
    * `World.nextFreed_eq_next` — the two agree while the handler is alive;
    * `Unhurt.nextFreed` — one step that does not prepare to dereference a null
      pointer;
    * `null_safe_iff` — the runs in which none is dereferenced.
-/
import SparkNet.Calls

namespace SparkNet

open Runs

/-! ## §1. Dispatch to a freed handler. -/

/-- One step of a process in which the callbacks of a connecting handler outlive
it until the end of the dispatch. -/
def World.nextFreed (w : World) (l : Label) : Option World :=
  match l, w.stack with
  | .resume _, .handleEvent (.connecting k _) mask .error :: rest =>
      if w.fault.isSome then none
      else if mask.has EPOLLERR then some (World.clientHandleError { w with stack := rest } k)
      else some { w with stack := rest }
  | _, _ => w.next l

/-- The step finds its pointers: `Disconnect` has a connection, and an EPOLLERR is
tested for no client that has lost its handler in state CONNECTING. -/
def FindsPointers (w : World) : Label → Prop
  | .user (.disconnect k _) => (w.clients k).conn.isSome = true
  | .resume _ =>
      match w.stack with
      | .handleEvent (.connecting k _) mask .error :: _ =>
          mask.has EPOLLERR = true → (w.clients k).state = .connecting →
            (w.clients k).connHandler.isSome = true
      | _ => True
  | _ => True

/-- The same, said before the pointers are lost: `HandleWrite` fails no attempt in
a dispatch that has EPOLLERR to test as well. -/
def SparesNull (w : World) : Label → Prop
  | .user (.disconnect k _) => (w.clients k).conn.isSome = true
  | .resume env =>
      match w.stack with
      | .handleEvent (.connecting k n) mask .write :: _ =>
          mask.has EPOLLOUT = true → env.soError ≠ 0 → w.attempting k n →
            mask.has EPOLLERR = false
      | _ => True
  | _ => True

instance (w : World) (l : Label) : Decidable (FindsPointers w l) := by
  unfold FindsPointers
  exact match l with
  | .user (.disconnect k _) => inferInstanceAs (Decidable ((w.clients k).conn.isSome = true))
  | .resume _ =>
      match w.stack with
      | .handleEvent (.connecting k _) mask .error :: _ =>
          inferInstanceAs (Decidable (mask.has EPOLLERR = true → (w.clients k).state = .connecting →
            (w.clients k).connHandler.isSome = true))
      | .handleEvent (.connecting ..) _ .read :: _ | .handleEvent (.connecting ..) _ .write :: _
      | .handleEvent (.conn _) _ _ :: _
      | .handleEvent (.acceptor _) _ _ :: _ | .loop _ :: _ | .closing _ :: _ | .user _ :: _
      | [] => isTrue trivial
  | .poll _ | .ret | .user (.connect ..) | .user (.clientSend ..)
  | .user (.setConnectionCallback ..) | .user (.setMessageCallback ..)
  | .user (.setDisconnectCallback ..) | .user (.serverStart ..)
  | .user (.serverSetConnCallback ..) | .user (.serverSetMessageCallback ..)
  | .user (.send ..) | .user (.shutDown ..) | .user (.close _) | .user (.retrieve ..)
  | .user (.retrieveAll _) | .user (.keep _) | .user (.drop _) => isTrue trivial

instance (w : World) (l : Label) : Decidable (SparesNull w l) := by
  unfold SparesNull
  exact match l with
  | .user (.disconnect k _) => inferInstanceAs (Decidable ((w.clients k).conn.isSome = true))
  | .resume env =>
      match w.stack with
      | .handleEvent (.connecting k n) mask .write :: _ =>
          inferInstanceAs (Decidable (mask.has EPOLLOUT = true → env.soError ≠ 0 →
            w.attempting k n → mask.has EPOLLERR = false))
      | .handleEvent (.connecting ..) _ .read :: _ | .handleEvent (.connecting ..) _ .error :: _
      | .handleEvent (.conn _) _ _ :: _
      | .handleEvent (.acceptor _) _ _ :: _ | .loop _ :: _ | .closing _ :: _ | .user _ :: _
      | [] => isTrue trivial
  | .poll _ | .ret | .user (.connect ..) | .user (.clientSend ..)
  | .user (.setConnectionCallback ..) | .user (.setMessageCallback ..)
  | .user (.setDisconnectCallback ..) | .user (.serverStart ..)
  | .user (.serverSetConnCallback ..) | .user (.serverSetMessageCallback ..)
  | .user (.send ..) | .user (.shutDown ..) | .user (.close _) | .user (.retrieve ..)
  | .user (.retrieveAll _) | .user (.keep _) | .user (.drop _) => isTrue trivial

namespace World

variable {w w' : World} {l : Label}

/-- The two step functions differ at one test. -/
theorem nextFreed_cases (h : w.nextFreed l = some w') :
    (w.next l = some w' ∧ ∀ env k n mask rest, l = .resume env →
      w.stack ≠ .handleEvent (.connecting k n) mask .error :: rest)
    ∨ w.fault = none ∧ ∃ env k n mask rest, l = .resume env
      ∧ w.stack = .handleEvent (.connecting k n) mask .error :: rest
      ∧ (mask.has EPOLLERR = false ∧ w' = { w with stack := rest }
        ∨ mask.has EPOLLERR = true ∧ w' = World.clientHandleError { w with stack := rest } k) := by
  unfold nextFreed at h
  split at h
  next env k n mask rest hst =>
    rw [Option.ite_none_left_eq_some] at h
    obtain ⟨hfault, h⟩ := h
    refine Or.inr ⟨by simpa using hfault, env, k, n, mask, rest, rfl, hst, ?_⟩
    split at h
    next hbits => exact Or.inr ⟨hbits, (Option.some.inj h).symm⟩
    next hbits => exact Or.inl ⟨Bool.eq_false_iff.mpr hbits, (Option.some.inj h).symm⟩
  next hno => exact Or.inl ⟨h, fun env k n mask rest hl hst => hno env k n mask rest hl hst⟩

/-- As long as the handler is alive there is no difference. -/
theorem nextFreed_eq_next (hw : Coherent w) (halive : ∀ k n mask rest,
    w.stack = .handleEvent (.connecting k n) mask .error :: rest →
      w.handler? (.connecting k n) ≠ none) : w.nextFreed l = w.next l := by
  unfold nextFreed
  split
  next env k n mask rest hst =>
    obtain ⟨g, hg⟩ := Option.ne_none_iff_exists'.mp (halive k n mask rest hst)
    obtain ⟨_, _, _, hcallback, _⟩ := hw.connHandler k n g (handler?_connecting.mp hg)
    have hadm : w.admits env = true := by simp [admits, hst]
    have hptr : World.handler? { w with stack := rest } (.connecting k n) = some g := hg
    unfold next
    simp only [hadm, if_true, resume, hst]
    refine if_congr Iff.rfl rfl ?_
    unfold testEvent
    rw [hptr]
    simp only [hcallback]
    split <;> rfl
  next => rfl

end World

/-! ## §2. An attempt that is under way has its handler. -/

/-- CONNECTING means a connecting handler. -/
def Attempts (k : Nat) (w : World) : Prop :=
  (w.clients k).state = .connecting → (w.clients k).connHandler.isSome = true

namespace Attempts

variable {k : Nat} {w w' : World}

theorem of_eq (h : Attempts k w) (hstate : (w'.clients k).state = (w.clients k).state)
    (hhandler : (w'.clients k).connHandler = (w.clients k).connHandler) : Attempts k w' := by
  intro hst
  rw [hhandler]
  exact h (hstate.symm.trans hst)

theorem same (h : Attempts k w) (hs : SameClient k w w') : Attempts k w' :=
  h.of_eq hs.state hs.connHandler

theorem quiet (h : Attempts k w) (hq : World.Quiet w w') : Attempts k w' :=
  h.of_eq (by rw [hq.clients]) (by rw [hq.clients])

theorem of_state (hst : (w.clients k).state ≠ .connecting) : Attempts k w := fun h => absurd h hst

theorem connect (h : Attempts k w) (k' : Nat) (ip : Text) (port : BitVec 16) (sock : Option Nat)
    (outcome : ConnectOutcome) : Attempts k (w.connect k' ip port sock outcome) := by
  by_cases hk : k' = k
  · subst hk
    unfold World.connect
    split
    · exact h
    next hst =>
      have hstate : (w.clients k').state = .disConnected := not_not.mp hst
      cases sock with
      | none =>
          refine of_state ?_
          simp [World.storeAddr, World.setClient, hstate]
      | some fd =>
          simp only
          cases outcome with
          | ok =>
              refine of_state ?_
              rw [World.clients_connEstablish, Function.update_self]
              simp
          | failed errno =>
              simp only
              split
              · intro _
                rw [World.clients_connecting, Function.update_self]
                rfl
              · refine of_state ?_
                simp [World.closeFd, World.setClient]
  · exact h.same (sameClient_connect hk ip port sock outcome)

theorem disconnect (h : Attempts k w) (k' : Nat) (ok : Bool) :
    Attempts k (w.disconnect k' ok) := by
  by_cases hk : k' = k
  · subst hk
    refine of_state ?_
    unfold World.disconnect
    simp only
    split
    · simp [World.fail, World.setClient]
    · rw [(World.quiet_shutDown _ _ ok).clients]
      simp [World.setClient]
  · exact h.same (sameClient_disconnect hk ok)

theorem close (h : Attempts k w) (hw : Coherent w) (c : Nat) : Attempts k (w.close c) := by
  by_cases hconn : (w.clients k).conn = some c
  · obtain ⟨hclients, _⟩ := close_current hw hconn
    refine h.of_eq ?_ ?_ <;> rw [hclients, Function.update_self]
  · exact h.same (sameClient_close hw hconn)

theorem tcpHandleRead (h : Attempts k w) (hw : Coherent w) (c : Nat) (r : ReadOutcome) :
    Attempts k (w.tcpHandleRead c r) := by
  by_cases hr : r = .eof
  · subst hr
    unfold World.tcpHandleRead
    split
    · exact h.close hw c
    · exact h.quiet (World.quiet_fail w _)
  · exact h.same (sameClient_tcpHandleRead hr)

theorem setFlags (h : Attempts k w) (k' : Nat) (newConn msg disConnect : Bool) :
    Attempts k (w.setFlags k' newConn msg disConnect) := by
  by_cases hk : k' = k
  · subst hk
    refine h.of_eq ?_ ?_ <;> simp [World.setFlags, World.setClient]
  · refine h.of_eq ?_ ?_ <;> simp [World.setFlags, World.setClient, Ne.symm hk]

/-- `HandleWrite` of an attempt that succeeds, or of another client's. -/
theorem clientHandleWrite (h : Attempts k w) {k' err : Nat}
    (hok : k' = k → (w.clients k).state = .connecting → err = 0) :
    Attempts k (w.clientHandleWrite k' err) := by
  by_cases hk : k' = k
  swap
  · exact h.same (sameClient_clientHandleWrite hk err)
  subst hk
  unfold World.clientHandleWrite
  split
  next hst =>
    split
    next hk => exact absurd (h hst) (by simp [hk])
    next n g _ =>
      simp only [hok rfl hst, ne_eq, not_true_eq_false, if_false]
      refine of_state ?_
      rw [World.clients_connEstablish, Function.update_self]
      simp
  next => exact h

end Attempts

/-! ## §3. Dispatches in progress. -/

/-- CONNECTING means a connecting handler for the clients of the stack's
dispatches, as long as these have tests to make. -/
def Tries (w : World) (stack : List Frame) : Prop :=
  ∀ k n mask stage, .handleEvent (.connecting k n) mask stage ∈ stack →
    (stage = .error → mask.has EPOLLERR = true) → Attempts k w

section Tries

variable {w w' : World} {l : Label}

/-- What runs over a stack leaves its dispatches. -/
theorem mem_of_performs {F : Fault → Prop} (hp : Performs F w w') {ptr : HandlerPtr}
    {mask : EventMask} {stage : Stage} (hm : .handleEvent ptr mask stage ∈ w'.stack) :
    .handleEvent ptr mask stage ∈ w.stack := by
  obtain ⟨calls, hst, hcalls⟩ := hp.stack
  rw [hst] at hm
  rcases List.mem_append.mp hm with hm | hm
  · exact absurd (hcalls _ hm) (by simp [Frame.isCall])
  · exact hm

theorem Tries.runs {F : Fault → Prop} (h : Tries w w.stack) (hp : Performs F w w')
    (hkeep : ∀ k, Attempts k w → Attempts k w') : Tries w' w'.stack :=
  fun k n mask stage hm he => hkeep k (h k n mask stage (mem_of_performs hp hm) he)

/-- The read test concerns no attempt. -/
theorem tries_readTest (h : Tries w w.stack) (hw : Coherent w) {env : Env} {ptr : HandlerPtr}
    {mask : EventMask} {rest : List Frame} (hst : w.stack = .handleEvent ptr mask .read :: rest) :
    Tries ({ w with stack := .handleEvent ptr mask .write :: rest }.testEvent env ptr mask
        World.readBits Handler.readCallback)
      ({ w with stack := .handleEvent ptr mask .write :: rest }.testEvent env ptr mask
        World.readBits Handler.readCallback).stack := by
  have hw₁ := hw.advance hst .write
  have h₁ : Tries { w with stack := .handleEvent ptr mask .write :: rest }
      (.handleEvent ptr mask .write :: rest) := by
    intro k n mask' stage hm he
    rcases List.mem_cons.mp hm with heq | hm
    · cases heq
      exact h k n mask .read (by rw [hst]; exact List.mem_cons_self) (by simp)
    · exact h k n mask' stage (by rw [hst]; exact List.mem_cons_of_mem _ hm) he
  refine Tries.runs (w := { w with stack := .handleEvent ptr mask .write :: rest }) h₁
    (performs_testEvent env ptr mask _ _) fun k hk => ?_
  rcases hw₁.read_cases env ptr mask rfl with
    ⟨_, heq⟩ | ⟨_, _, heq⟩ | ⟨c, _, _, _, heq⟩ | ⟨s, _, _, _, heq⟩
  · rw [heq]
    exact hk
  · rw [heq]
    exact hk.quiet (World.quiet_fail _ _)
  · rw [heq]
    exact hk.tcpHandleRead hw₁ c _
  · rw [heq]
    exact hk.same (sameClient_acceptorHandleRead s _)

/-- The write test of an attempt that fails leaves no error to test. -/
theorem tries_writeTest (h : Tries w w.stack) (hw : Coherent w) (hlay : Layered w.stack) {env : Env}
    {ptr : HandlerPtr} {mask : EventMask} {rest : List Frame}
    (hst : w.stack = .handleEvent ptr mask .write :: rest) (hd : SparesNull w (.resume env)) :
    Tries ({ w with stack := .handleEvent ptr mask .error :: rest }.testEvent env ptr mask
        EPOLLOUT Handler.writeCallback)
      ({ w with stack := .handleEvent ptr mask .error :: rest }.testEvent env ptr mask
        EPOLLOUT Handler.writeCallback).stack := by
  have hw₁ := hw.advance hst .error
  rw [hst] at hlay
  obtain ⟨batch, rfl⟩ := hlay.below_handleEvent
  intro k n mask' stage hm he
  have hm₁ := mem_of_performs (performs_testEvent (w := { w with
    stack := [.handleEvent ptr mask .error, .loop batch] }) env ptr mask EPOLLOUT _) hm
  -- the dispatch in progress is the only one
  have hframe : Frame.handleEvent (.connecting k n) mask' stage = .handleEvent ptr mask .error := by
    rcases List.mem_cons.mp hm₁ with heq | hm₂
    · exact heq
    · exact absurd (List.mem_singleton.mp hm₂) (by simp)
  cases hframe
  have hk : Attempts k { w with
      stack := [.handleEvent (.connecting k n) mask .error, .loop batch] } :=
    h k n mask .write (by rw [hst]; exact List.mem_cons_self) (by simp)
  rcases hw₁.write_cases env (.connecting k n) mask rfl with
    ⟨_, heq⟩ | ⟨_, _, heq⟩ | ⟨c, hc, _⟩ | ⟨k', n', g, hptr, hbits, hg, heq⟩
  · rw [heq]
    exact hk
  · rw [heq]
    exact hk.quiet (World.quiet_fail _ _)
  · exact absurd hc (by simp)
  · rw [heq]
    cases hptr
    refine hk.clientHandleWrite fun _ hstate => ?_
    -- otherwise the condition says that EPOLLERR is not in the mask
    by_contra herr
    have hattempt : w.attempting k n := by
      refine ⟨hstate, ?_⟩
      rw [show (w.clients k).connHandler = some (n, g) from hg]
      rfl
    have hno : mask.has EPOLLERR = false := by
      simp only [SparesNull, hst] at hd
      exact hd hbits herr hattempt
    exact absurd (hno.symm.trans (he rfl)) (by simp)

theorem tries_next (h : Tries w w.stack) (hw : Coherent w) (hlay : Layered w.stack)
    (hd : SparesNull w l) (hnext : w.next l = some w') : Tries w' w'.stack := by
  obtain ⟨_, hturn⟩ := World.next_turn hnext
  have hsame : ∀ {v : World}, v.clients = w.clients → v.stack = w.stack → Tries v v.stack := by
    intro v hclients hst k n mask stage hm he
    rw [hst] at hm
    refine (h k n mask stage hm he).of_eq ?_ ?_ <;> rw [hclients]
  have hpop : ∀ {f : Frame} {rest : List Frame} {v : World}, w.stack = f :: rest →
      Performs (fun _ => True) { w with stack := rest } v → World.Quiet { w with stack := rest } v →
      Tries v v.stack := by
    intro f rest v hst hp hq k n mask stage hm he
    have hmem := List.mem_cons_of_mem f (mem_of_performs hp hm)
    have hk := h k n mask stage (by rw [hst]; exact hmem) he
    refine hk.of_eq ?_ ?_ <;> rw [hq.clients]
  cases hturn with
  | @poll ready batch hst =>
      intro k n mask stage hm
      have hm' : Frame.handleEvent (.connecting k n) mask stage ∈ Frame.loop batch :: w.stack := hm
      rw [hst] at hm'
      exact absurd (List.mem_singleton.mp hm') (by simp)
  | @loopEnd env rest hst => exact hpop hst (.refl _) (World.Quiet.refl _)
  | loopStale hst hptr => exact hsame rfl rfl
  | @loopNext env ptr mask batch rest g hst hptr =>
      intro k n mask' stage hm he
      rcases List.mem_cons.mp hm with heq | hm
      · cases heq
        intro _
        rw [show (w.clients k).connHandler = some (n, g) from World.handler?_connecting.mp hptr]
        rfl
      · rcases List.mem_cons.mp hm with heq | hm
        · exact absurd heq (by simp)
        · exact h k n mask' stage (by rw [hst]; exact List.mem_cons_of_mem _ hm) he
  | readTest hst hadm => exact tries_readTest h hw hst
  | writeTest hst hadm => exact tries_writeTest h hw hlay hst hd
  | @errorTest env ptr mask rest hst =>
      rw [hst] at hlay
      obtain ⟨batch, rfl⟩ := hlay.below_handleEvent
      intro k n mask' stage hm
      have hm' := mem_of_performs (performs_testEvent (w := { w with stack := [.loop batch] }) env
        ptr mask EPOLLERR Handler.errorCallback) hm
      exact absurd (List.mem_singleton.mp hm') (by simp)
  | @finishClose env c rest hst =>
      exact hpop hst (performs_finishClose trivial trivial c)
        ((World.quiet_release _ c).trans (World.quiet_finishClose _ c))
  | connect hsock =>
      exact h.runs (performs_connect (F := fun _ => True) trivial _ _ _ _ _)
        fun k hk => hk.connect _ _ _ _ _
  | disconnect =>
      exact h.runs (performs_disconnect (F := fun _ => True) trivial trivial _
        (fun _ _ _ _ => trivial) fun _ => trivial)
        fun k hk => hk.disconnect _ _
  | clientSend hout =>
      exact h.runs (performs_clientSend (F := fun _ => True) trivial trivial _ _ _ _ _)
        fun k hk => hk.quiet (World.quiet_clientSend w _ _ _ _ _)
  | setConnectionCallback =>
      exact h.runs (F := fun _ => True) (.of_eq rfl rfl) fun k hk => hk.setFlags _ _ _ _
  | setMessageCallback =>
      exact h.runs (F := fun _ => True) (.of_eq rfl rfl) fun k hk => hk.setFlags _ _ _ _
  | setDisconnectCallback =>
      exact h.runs (F := fun _ => True) (.of_eq rfl rfl) fun k hk => hk.setFlags _ _ _ _
  | serverStart hacc hfd =>
      refine h.runs (performs_serverStart (F := fun _ => True) trivial _ _) fun k hk => ?_
      unfold World.serverStart
      refine hk.of_eq ?_ ?_ <;> rw [(World.quiet_update _ _ _).clients] <;> rfl
  | serverSetConnCallback => exact hsame rfl rfl
  | serverSetMessageCallback => exact hsame rfl rfl
  | send hacc hout =>
      exact h.runs (performs_send (F := fun _ => True) trivial trivial _ _ _ _)
        fun k hk => hk.quiet (World.quiet_send _ _ _ _ _ _)
  | shutDown hacc =>
      exact h.runs (performs_shutDown (F := fun _ => True) trivial trivial _ fun _ _ => trivial)
        fun k hk => hk.quiet (World.quiet_shutDown _ _ _)
  | close hacc =>
      exact h.runs (performs_close (F := fun _ => True) trivial trivial fun _ _ _ _ => trivial)
        fun k hk => hk.close hw _
  | retrieve hacc => exact hsame rfl rfl
  | retrieveAll hacc => exact hsame rfl rfl
  | keep hacc => exact hsame rfl rfl
  | @drop c hkept =>
      have hdropped : Performs (fun _ => True) w
          { w with kept := Function.update w.kept c (w.kept c - 1) } := .of_eq rfl rfl
      refine h.runs (hdropped.trans (performs_release trivial c)) fun k hk => ?_
      refine hk.of_eq ?_ ?_ <;> rw [(World.quiet_release _ c).clients]
  | @retConnection c rest hst =>
      exact hpop hst (performs_release trivial c) (World.quiet_release _ c)
  | @retMessage c rest hst =>
      exact hpop hst (performs_release trivial c) (World.quiet_release _ c)
  | retDisconnect hst => exact hpop hst (.refl _) (World.Quiet.refl _)

end Tries

/-! ## §4. One step. -/

structure Unhurt (w : World) : Prop where
  coherent : Coherent w
  layered : Layered w.stack
  tries : Tries w w.stack
  fault : w.fault ≠ some .nullDeref

theorem unhurt_init : Unhurt World.init where
  coherent := coherent_init
  layered := .nil
  tries := fun _ _ _ _ hm => absurd hm (by simp [World.init])
  fault := by simp [World.init]

namespace Unhurt

variable {w w' : World} {l : Label}

theorem next (h : Unhurt w) (hd : SparesNull w l) (hnext : w.next l = some w') : Unhurt w' where
  coherent := h.coherent.next hnext
  layered := h.layered.next hnext
  tries := tries_next h.tries h.coherent h.layered hd hnext
  fault := by
    intro hfault
    -- `Disconnect` has a connection, so the fault is another
    refine fault_next (F := (· ≠ .nullDeref)) h.coherent (fun f hf _ _ => hf)
      (fun _ => by simp) (fun k ok hl hk => ?_) (fun _ _ _ _ _ _ => by simp) hnext _ hfault rfl
    subst hl
    have hconn : (w.clients k).conn.isSome = true := hd
    rw [hk] at hconn
    exact absurd hconn (by simp)

/-- **One step**, whether the freed handler's callbacks run or not. -/
theorem nextFreed (h : Unhurt w) (hd : SparesNull w l) (hnext : w.nextFreed l = some w') :
    Unhurt w' := by
  rcases World.nextFreed_cases hnext with ⟨hnext, _⟩ | ⟨hnone, _, k, n, mask, rest, _, hst, hw'⟩
  · exact h.next hd hnext
  have hlay := h.layered
  rw [hst] at hlay
  obtain ⟨batch, rfl⟩ := hlay.below_handleEvent
  have hpop := h.coherent.pop hst
  -- nothing but the batch is left
  have htries : ∀ {v : World}, Performs (· ≠ .nullDeref) { w with stack := [.loop batch] } v →
      Tries v v.stack := by
    intro v hp k' n' mask' stage hm
    have hm' : Frame.handleEvent (.connecting k' n') mask' stage ∈ [Frame.loop batch] :=
      mem_of_performs hp hm
    exact absurd (List.mem_singleton.mp hm') (by simp)
  have hends : ∀ {v : World}, Coherent v →
      Performs (· ≠ .nullDeref) { w with stack := [.loop batch] } v → Unhurt v := by
    intro v hv hp
    exact ⟨hv, Layered.performs (w := { w with stack := [.loop batch] }) (.loop batch) hp,
      htries hp, hp.no_fault hnone (by simp)⟩
  rcases hw' with ⟨_, rfl⟩ | ⟨hbits, rfl⟩
  · exact hends hpop (.refl _)
  · refine hends ?_ (performs_clientHandleError (by simp) fun hstate hk => ?_)
    · exact hpop.clientHandleError k
    · -- the dispatch still had this test to make
      have hsome := h.tries k n mask .error (by rw [hst]; exact List.mem_cons_self)
        (fun _ => hbits) hstate
      rw [show (w.clients k).connHandler = none from hk] at hsome
      exact absurd hsome (by simp)

end Unhurt

/-! ## §5. Whole runs. -/

/-- No null pointer has been dereferenced. -/
def NullSafe (w : World) : Prop := w.fault ≠ some .nullDeref

/-- A step that finds its pointers is safe. -/
theorem nullSafe_nextFreed {w w' : World} {l : Label} (hw : Coherent w) (hd : FindsPointers w l)
    (hnext : w.nextFreed l = some w') : Coherent w' ∧ NullSafe w' := by
  rcases World.nextFreed_cases hnext with ⟨hnext, _⟩ | ⟨hnone, env, k, n, mask, rest, rfl, hst, hw'⟩
  · refine ⟨hw.next hnext, fun hfault => ?_⟩
    refine fault_next (F := (· ≠ .nullDeref)) hw (fun f hf _ _ => hf) (fun _ => by simp)
      (fun k ok hl hk => ?_) (fun _ _ _ _ _ _ => by simp) hnext _ hfault rfl
    subst hl
    have hconn : (w.clients k).conn.isSome = true := hd
    rw [hk] at hconn
    exact absurd hconn (by simp)
  · rcases hw' with ⟨_, rfl⟩ | ⟨hbits, rfl⟩
    · exact ⟨hw.pop hst, fun hfault => absurd (hnone.symm.trans hfault) (by simp)⟩
    · refine ⟨(hw.pop hst).clientHandleError k, ?_⟩
      have hp : Performs (· ≠ .nullDeref) { w with stack := rest }
          (World.clientHandleError { w with stack := rest } k) := by
        refine performs_clientHandleError (by simp) fun hstate hk => ?_
        simp only [FindsPointers, hst] at hd
        have hsome := hd hbits hstate
        rw [show (w.clients k).connHandler = none from hk] at hsome
        exact absurd hsome (by simp)
      exact hp.no_fault hnone (by simp)

/-- A step that does not dereferences one. -/
theorem not_nullSafe_nextFreed {w w' : World} {l : Label} (hd : ¬ FindsPointers w l)
    (hnext : w.nextFreed l = some w') : ¬ NullSafe w' := by
  have hnull : ∀ {v : World}, v.fault = none → (v.fail .nullDeref).fault = some .nullDeref := by
    intro v hv
    show v.fault.or _ = _
    rw [hv, Option.none_or]
  intro hsafe
  refine hd ?_
  rcases World.nextFreed_cases hnext with
    ⟨hnext, hother⟩ | ⟨hnone, env, k, n, mask, rest, rfl, hst, hw'⟩
  · obtain ⟨hnone, hturn⟩ := World.next_turn hnext
    cases hturn with
    | @disconnect k ok =>
        show (w.clients k).conn.isSome = true
        rw [Option.isSome_iff_ne_none]
        intro hk
        refine hsafe ?_
        unfold World.disconnect
        have hset : ((w.setClient k { w.clients k with state := .disConnected }).clients k).conn
            = none := by
          simp [World.setClient, hk]
        simp only [hset]
        exact hnull hnone
    | @errorTest env ptr mask rest hst =>
        cases ptr with
        | connecting k n => exact absurd hst (hother env k n mask rest rfl)
        | conn c => simp [FindsPointers, hst]
        | acceptor s => simp [FindsPointers, hst]
    | _ => first | trivial | simp [FindsPointers, *]
  · simp only [FindsPointers, hst]
    intro hbits hstate
    rcases hw' with ⟨hno, _⟩ | ⟨_, rfl⟩
    · exact absurd (hno.symm.trans hbits) (by simp)
    · rw [Option.isSome_iff_ne_none]
      intro hk
      refine hsafe ?_
      unfold World.clientHandleError
      rw [if_pos (show (w.clients k).state = .connecting from hstate)]
      rw [show World.clients { w with stack := rest } k = w.clients k from rfl, hk]
      exact hnull hnone

/-- **When no client dereferences a null pointer.**  Throughout a run no null
`_conn` or `_connHandler` is dereferenced if and only if in the run `Disconnect`
is called on clients that have a connection only, and no EPOLLERR is tested for a
client that is CONNECTING without a handler.  The latter cannot happen in a run
in which no `HandleWrite` finds SO_ERROR set in a dispatch with EPOLLERR. -/
theorem null_safe_iff (labels : List Label) (t : World)
    (hrun : exec World.nextFreed World.init labels = some t) :
    (Always World.nextFreed NullSafe World.init labels ↔
      Along World.nextFreed FindsPointers World.init labels)
    ∧ (Along World.nextFreed SparesNull World.init labels →
      Always World.nextFreed NullSafe World.init labels) := by
  constructor
  · exact always_iff_along (I := fun w => Coherent w ∧ NullSafe w) (D := fun _ _ => True)
      (fun _ h => h.2) (fun _ _ _ h _ hd hnext => nullSafe_nextFreed h.1 hd hnext)
      (fun _ _ _ _ _ hd hnext => not_nullSafe_nextFreed hd hnext)
      ⟨coherent_init, by simp [NullSafe, World.init]⟩ (Along.of_forall (fun _ _ => trivial) _) hrun
  · exact always_of_along (I := Unhurt) (fun _ h => h.fault)
      (fun _ _ _ h hd hnext => h.nextFreed hd hnext) unhurt_init

/-- The theorem on an attempt that fails in `HandleError`. -/
theorem null_safe_on_run :
    (exec World.nextFreed World.init
        [.user (.connect 0 [] 80 (some 5) (.failed .EINPROGRESS)), .poll [(5, EPOLLERR)],
         .resume .idle, .resume .idle, .resume .idle, .resume .idle, .resume .idle]).isSome = true
      ∧ Always World.nextFreed NullSafe World.init
        [.user (.connect 0 [] 80 (some 5) (.failed .EINPROGRESS)), .poll [(5, EPOLLERR)],
         .resume .idle, .resume .idle, .resume .idle, .resume .idle, .resume .idle] := by
  have h : (exec World.nextFreed World.init
      [.user (.connect 0 [] 80 (some 5) (.failed .EINPROGRESS)), .poll [(5, EPOLLERR)],
       .resume .idle, .resume .idle, .resume .idle, .resume .idle, .resume .idle]).isSome
        = true := by
    decide +kernel
  obtain ⟨t, hrun⟩ := Option.isSome_iff_exists.mp h
  exact ⟨h, (null_safe_iff _ t hrun).1.mpr (by decide +kernel)⟩

/-- **A refused connect.**  `HandleWrite` finds SO_ERROR set and drops the
handler, and `HandleError` takes the descriptor from the null `_connHandler`. -/
theorem refused_connect_dereferences_null :
    ∃ t, exec World.nextFreed World.init
        [.user (.connect 0 [] 80 (some 5) (.failed .EINPROGRESS)),
         .poll [(5, EPOLLOUT ||| EPOLLERR)], .resume .idle, .resume .idle,
         .resume { Env.idle with soError := 111 }, .resume .idle] = some t
      ∧ ¬ NullSafe t := by
  have h : (exec World.nextFreed World.init
      [.user (.connect 0 [] 80 (some 5) (.failed .EINPROGRESS)),
       .poll [(5, EPOLLOUT ||| EPOLLERR)], .resume .idle, .resume .idle,
       .resume { Env.idle with soError := 111 }, .resume .idle]).map World.fault
        = some (some .nullDeref) := by
    decide +kernel
  obtain ⟨t, hrun, ht⟩ := Option.map_eq_some_iff.mp h
  exact ⟨t, hrun, fun hsafe => hsafe ht⟩

end SparkNet
