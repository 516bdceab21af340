/-
  SparkNet.LateClose — the assertion of `HandleClose`.

  `Disconnect` half-closes and sets DIS_CONNECTED; the connection stays
  registered and in `_conn` until its peer closes as well.  A `Connect` in
  between stores another connection over it.  If the application keeps a copy of
  the old one, the old handler is still there when the FIN comes, and
  `HandleClose` finds another connection in `_conn`.

  Main results:
    * `handleClose_asserts_iff` — the assertion holds throughout a run exactly
      when no FIN is read from such a connection;
    * `reconnect_fails_assertion` — a run in which it does not.
-/
import SparkNet.Closing
import SparkNet.Dispatch
import SparkNet.Moves

namespace SparkNet

open Runs

/-! ## §1. The condition. -/

/-- The client whose `HandleClose` is the close callback. -/
def TcpConnection.client? (x : TcpConnection) : Option Nat :=
  match x.closeCallback with
  | some (.handleClose k) => some k
  | _ => none

theorem TcpConnection.client?_eq_some {x : TcpConnection} {k : Nat} :
    x.client? = some k ↔ x.closeCallback = some (.handleClose k) := by
  unfold client?
  split
  next k' hcb => simp [hcb]
  next hno =>
    simp only [reduceCtorEq, false_iff]
    exact hno k

/-- The connection is a client's, and another one has been stored over it. -/
def World.overtaken (w : World) (c : Nat) : Prop :=
  w.displaced c ∧ (w.conns c).client?.isSome = true

instance (w : World) (c : Nat) : Decidable (w.overtaken c) :=
  inferInstanceAs (Decidable (w.displaced c ∧ _))

/-- No FIN is read from a connection that has been overtaken and of which the
application keeps a copy. -/
def ReadsNoLateFin (w : World) (l : Label) : Prop :=
  ∀ c, w.entersClose l = some c → w.overtaken c → w.kept c = 0

instance (w : World) (l : Label) : Decidable (ReadsNoLateFin w l) :=
  inferInstanceAs (Decidable (∀ c, w.entersClose l = some c → w.overtaken c → w.kept c = 0))

/-- The application leaves it to the peer to close: it calls `Close` on no
connection, and sends nothing on one that is closed. -/
def PeersClose (w : World) : Label → Prop
  | .user (.close _) => False
  | .user (.send c _ _ _ _) => ¬ w.closed c
  | _ => True

instance (w : World) (l : Label) : Decidable (PeersClose w l) := by
  unfold PeersClose
  exact match l with
  | .user (.close _) => isFalse id
  | .user (.send c _ _ _ _) => inferInstanceAs (Decidable (¬ w.closed c))
  | .poll _ | .resume _ | .ret | .user (.connect ..) | .user (.disconnect ..)
  | .user (.clientSend ..) | .user (.setConnectionCallback ..) | .user (.setMessageCallback ..)
  | .user (.setDisconnectCallback ..) | .user (.serverStart ..)
  | .user (.serverSetConnCallback ..) | .user (.serverSetMessageCallback ..)
  | .user (.shutDown ..) | .user (.retrieve ..) | .user (.retrieveAll _)
  | .user (.keep _) | .user (.drop _) => isTrue trivial

/-! ## §2. Read tests to come. -/

/-- The handlers whose read test the frame has still to make. -/
def Frame.unread : Frame → List HandlerPtr
  | .loop batch => batch.map Prod.fst
  | .handleEvent ptr _ .read => [ptr]
  | _ => []

/-- Likewise a stack. -/
def unread (stack : List Frame) : List HandlerPtr := stack.flatMap Frame.unread

section Stack

variable {calls base : List Frame} {ptr : HandlerPtr} {w : World}

theorem unread_append_calls (hcalls : ∀ f ∈ calls, f.isCall = true) :
    unread (calls ++ base) = unread base := by
  refine flatMap_append_calls (fun f hf => ?_) hcalls
  cases f <;> first | rfl | exact absurd hf (by simp [Frame.isCall])

/-- Whoever has a read test to come is dispatched. -/
theorem dispatched_of_unread {stack : List Frame} (h : ptr ∈ unread stack) :
    ptr ∈ dispatched stack := by
  obtain ⟨f, hf, hptr⟩ := List.mem_flatMap.mp h
  refine List.mem_flatMap.mpr ⟨f, hf, ?_⟩
  cases f with
  | loop batch => exact hptr
  | handleEvent p mask stage =>
      cases stage with
      | read => exact hptr
      | write => exact absurd hptr (by simp [Frame.unread])
      | error => exact absurd hptr (by simp [Frame.unread])
  | closing d => exact hptr
  | user callback => exact hptr

/-- No read test is put back. -/
theorem unread_advanced (w : World) (l : Label) (h : ptr ∈ unread (w.advanced l)) :
    ptr ∈ unread w.stack := by
  cases l with
  | poll ready => exact h
  | user call => exact h
  | ret =>
      unfold World.advanced at h
      simp only at h
      split at h
      next hst =>
        rw [hst]
        exact List.mem_append_right _ h
      next => exact h
  | resume env =>
      unfold World.advanced at h
      simp only at h
      split at h
      next hst =>
        rw [hst]
        exact List.mem_append_right _ h
      next hst =>
        rw [hst]
        exact h
      next hst =>
        rw [hst]
        exact List.mem_append_right _ h
      next hst =>
        rw [hst]
        exact h
      next hst =>
        rw [hst]
        exact h
      next hst =>
        rw [hst]
        exact List.mem_append_right _ h
      next => exact h

end Stack

namespace World

variable {w : World} {ready : List (Nat × EventMask)} {batch : List (HandlerPtr × EventMask)}

/-- What a batch names, the kernel was given. -/
theorem mem_batchOf : ∀ {ready : List (Nat × EventMask)} {batch : List (HandlerPtr × EventMask)},
    w.batchOf ready = some batch → ∀ ptr ∈ batch.map Prod.fst,
      ∃ fd ∈ ready.map Prod.fst, ∃ ev, w.poller.interest fd = some (ev, ptr) := by
  intro ready
  induction ready with
  | nil =>
      intro batch hbatch ptr hptr
      obtain rfl := Option.some.inj hbatch
      exact absurd hptr (by simp)
  | cons event ready ih =>
      intro batch hbatch ptr hptr
      obtain ⟨ev, p, rest, hint, hrest, rfl⟩ := batchOf_cons hbatch
      rcases List.mem_cons.mp hptr with rfl | hptr
      · exact ⟨event.1, List.mem_cons_self, ev, hint⟩
      · obtain ⟨fd, hfd, hentry⟩ := ih hrest ptr hptr
        exact ⟨fd, List.mem_cons_of_mem _ hfd, hentry⟩

/-- **A batch names a connection once**: its entries lie on its descriptor. -/
theorem count_batchOf (ha : Anchored w) (c : Nat) :
    ∀ {ready : List (Nat × EventMask)} {batch : List (HandlerPtr × EventMask)},
      (ready.map Prod.fst).Nodup → w.batchOf ready = some batch →
      (batch.map Prod.fst).count (.conn c) ≤ 1 := by
  intro ready
  induction ready with
  | nil =>
      intro batch _ hbatch
      obtain rfl := Option.some.inj hbatch
      exact Nat.zero_le 1
  | cons event ready ih =>
      intro batch hnodup hbatch
      obtain ⟨ev, p, rest, hint, hrest, rfl⟩ := batchOf_cons hbatch
      rw [List.map_cons, List.nodup_cons] at hnodup
      rw [List.map_cons, List.count_cons]
      split
      next hp =>
        obtain rfl : p = .conn c := by simpa using hp
        have hnone : (rest.map Prod.fst).count (.conn c) = 0 := by
          refine List.count_eq_zero.mpr fun hmem => ?_
          -- both entries lie on the connection's descriptor
          obtain ⟨fd, hfd, ev', hentry⟩ := mem_batchOf hrest _ hmem
          have hsame : fd = event.1 :=
            (ha.interest fd ev' c hentry).2.symm.trans (ha.interest event.1 ev c hint).2
          exact hnodup.1 (hsame ▸ hfd)
        omega
      next => exact ih hnodup.2 hrest

end World

/-! ## §3. The invariant. -/

/-- Every connection's end is final, no batch names a connection twice, and of a
closed one there is no read test to come. -/
structure InTurn (w : World) : Prop where
  closing : ∀ c, Sealed c w
  layered : Layered w.stack
  once : ∀ c, (dispatched w.stack).count (.conn c) ≤ 1
  read : ∀ c, w.closed c → .conn c ∉ unread w.stack
  holds : w.fault ≠ some .assertFailed

namespace InTurn

variable {w w' : World} {l : Label} {c : Nat}

theorem init : InTurn World.init where
  closing := sealed_init
  layered := .nil
  once := fun c => Nat.zero_le 1
  read := fun c hc => absurd hc (by simp [World.closed, World.init])
  holds := by simp [World.init]

theorem coherent (h : InTurn w) : Coherent w := (h.closing 0).coherent

/-- A connection that reads its FIN has its frame on top. -/
theorem top_of_entersClose (hD : PeersClose w l) (hclose : w.entersClose l = some c) :
    ∃ env mask rest, l = .resume env ∧ w.stack = .handleEvent (.conn c) mask .read :: rest
      ∧ mask.has World.readBits = true ∧ env.read = .eof := by
  cases l with
  | poll ready => exact absurd hclose (by simp [World.entersClose])
  | ret => exact absurd hclose (by simp [World.entersClose])
  | user call =>
      cases call <;> first | exact hD.elim | exact absurd hclose (by simp [World.entersClose])
  | resume env =>
      simp only [World.entersClose] at hclose
      split at hclose
      next d mask rest hst =>
        rw [Option.ite_none_right_eq_some, Option.some.injEq] at hclose
        obtain ⟨⟨hbits, heof⟩, rfl⟩ := hclose
        exact ⟨env, mask, rest, rfl, hst, hbits, heof⟩
      next => exact absurd hclose (by simp)

/-- So the connection that closes was open, and its read test is not made twice. -/
theorem open_of_entersClose (h : InTurn w) (hD : PeersClose w l)
    (hclose : w.entersClose l = some c) : ¬ w.closed c := by
  obtain ⟨env, mask, rest, _, hst, _, _⟩ := top_of_entersClose hD hclose
  intro hclosed
  refine h.read c hclosed ?_
  rw [hst]
  exact List.mem_append_left _ List.mem_cons_self

theorem leavesClosed (h : InTurn w) (hD : PeersClose w l) (c : Nat) : LeavesClosed c w l := by
  cases l with
  | poll ready => trivial
  | ret => trivial
  | user call =>
      cases call with
      | close d => exact hD.elim
      | send d mem data len out =>
          intro hd hclosed
          exact absurd hclosed (hd ▸ hD)
      | _ => trivial
  | resume env =>
      unfold LeavesClosed
      simp only
      split
      next d mask rest hst =>
        rintro rfl hclosed
        refine absurd ?_ (h.read d hclosed)
        rw [hst]
        exact List.mem_append_left _ List.mem_cons_self
      next => trivial

/-- **Who closes is in its slot**, unless it has been overtaken and a copy of it is
kept. -/
theorem current (h : InTurn w) (hD : PeersClose w l) (hC : ReadsNoLateFin w l) {k : Nat}
    (hclose : w.entersClose l = some c) (hlive : w.live c = true)
    (hcb : (w.conns c).closeCallback = some (.handleClose k)) : (w.clients k).conn = some c := by
  have hw := h.coherent
  have hslot : (w.conns c).slot = some (.client k) := by simp [TcpConnection.slot, hcb]
  have hopen := h.open_of_entersClose hD hclose
  have hkept : w.ownerHolds c = true := by
    rcases hw.accounted c (hw.known_of_live hlive) with hown | hclosed | hdisp
    · exact hown
    · exact absurd hclosed hopen
    · exfalso
      have hzero : w.kept c = 0 :=
        hC c hclose ⟨hdisp, by rw [TcpConnection.client?_eq_some.mpr hcb]; rfl⟩
      obtain ⟨_, mask, rest, _, hst, _, _⟩ := top_of_entersClose hD hclose
      obtain ⟨batch, hrest⟩ := (hst ▸ h.layered).below_handleEvent
      rcases hw.live_iff.mp hlive with ⟨σ, hσ⟩ | hpos | ⟨f, hf, hholds⟩
      · exact (hw.slot σ c hσ).2.2.2 hdisp
      · omega
      -- a dispatch holds nothing
      · rw [hst, hrest] at hf
        rcases List.mem_cons.mp hf with rfl | hf
        · exact absurd hholds (by simp [Frame.holds])
        · rw [List.mem_singleton.mp hf] at hholds
          exact absurd hholds (by simp [Frame.holds])
  obtain ⟨σ, hσ⟩ := hw.ownerHolds_iff.mp hkept
  obtain rfl : σ = .client k :=
    Option.some.inj ((hw.slot σ c hσ).2.1.symm.trans hslot)
  exact hσ

/-- **One step** that reads no late FIN. -/
theorem next (h : InTurn w) (hD : PeersClose w l) (hC : ReadsNoLateFin w l)
    (hnext : w.next l = some w') : InTurn w' where
  closing := fun c => (h.closing c).next (h.leavesClosed hD c) hnext
  layered := h.layered.next hnext
  once := by
    intro c
    rcases World.performs_next hnext with
      ⟨ready, _, rfl, _, _⟩ | ⟨_, _, _, _, _, _, rfl⟩ | hp
    · obtain ⟨hst, hnodup, batch, hbatch, rfl⟩ := World.poll_next hnext
      show (dispatched (.loop batch :: w.stack)).count (.conn c) ≤ 1
      rw [hst]
      simpa [dispatched, Frame.names] using
        World.count_batchOf (h.closing c).anchored c hnodup hbatch
    · exact h.once c
    · obtain ⟨calls, hst, hcalls⟩ := hp.stack
      rw [hst, dispatched_append_calls hcalls]
      exact Nat.le_trans ((dispatched_advanced w l).count_le _) (h.once c)
  read := by
    intro c hclosed hmem
    rcases World.performs_next hnext with
      ⟨ready, _, rfl, _, _⟩ | ⟨_, _, _, _, _, _, rfl⟩ | hp
    · obtain ⟨hst, _, batch, hbatch, rfl⟩ := World.poll_next hnext
      have hmem' : .conn c ∈ batch.map Prod.fst := by
        have hflat : .conn c ∈ unread (.loop batch :: w.stack) := hmem
        rw [hst] at hflat
        simpa [unread, Frame.unread] using hflat
      -- a closed connection is in the poller no more
      obtain ⟨fd, _, ev, hentry⟩ := World.mem_batchOf hbatch _ hmem'
      exact (((h.closing c).good.unregistered hclosed).2 fd).2 ev hentry
    · exact h.read c hclosed hmem
    · obtain ⟨calls, hst, hcalls⟩ := hp.stack
      rw [hst, unread_append_calls hcalls] at hmem
      rcases (World.closed_next h.coherent hnext c).mp hclosed with hclosed | ⟨hclose, _⟩
      · exact h.read c hclosed (unread_advanced w l hmem)
      · obtain ⟨env, mask, rest, rfl, hst, _, _⟩ := top_of_entersClose hD hclose
        have hrest : .conn c ∈ unread rest := by
          have hadv : .conn c ∈ unread (w.advanced (.resume env)) := hmem
          simp only [World.advanced, hst] at hadv
          exact hadv
        -- it would be dispatched twice
        have hcount := h.once c
        have hpos := List.count_pos_iff.mpr (dispatched_of_unread hrest)
        rw [hst] at hcount
        have hsplit : (dispatched (.handleEvent (.conn c) mask .read :: rest)).count (.conn c)
            = 1 + (dispatched rest).count (.conn c) := by
          simp [dispatched, Frame.names, Nat.add_comm]
        omega
  holds := by
    have hfault := fault_next (F := fun f => f ≠ .assertFailed) h.coherent
      (fun f _ hf _ => hf) (fun _ => by simp) (fun _ _ _ _ => by simp)
      (fun c k hclose hlive hcb hne => absurd (h.current hD hC hclose hlive hcb) hne) hnext
    exact fun hf => hfault _ hf rfl

end InTurn

/-! ## §4. The assertion. -/

/-- `Close` of a connection that is not the one in `_conn`. -/
theorem close_asserts {w : World} {c k : Nat} (ha : Anchored w) (hlive : w.live c = true)
    (hcb : (w.conns c).closeCallback = some (.handleClose k))
    (hconn : (w.clients k).conn ≠ some c) (hfault : w.fault = none) :
    (w.close c).fault = some .assertFailed := by
  have hq := World.quiet_closeStart w c
  have hcb' : ((w.closeStart c).conns c).closeCallback = some (.handleClose k) :=
    (congrArg ConnParts.closeCallback (hq.parts c)).trans hcb
  have hconn' : (((w.closeStart c).push (.closing c)).emit (.closeCallback c)).clients k
      = w.clients k := congrFun hq.clients k
  -- deregistering succeeds, so the assertion is the first to fail
  have hfault' : (w.closeStart c).fault = none := by
    obtain ⟨p, heq, _, _⟩ := closeStart_eq (c := c) ha
    rw [heq]
    exact hfault
  unfold World.close
  simp only [hlive, if_true, hcb']
  unfold World.runCloseCallback World.handleClose
  simp only [hconn', if_neg hconn]
  show (w.closeStart c).fault.or (some .assertFailed) = some .assertFailed
  rw [hfault']
  rfl

/-- **One step** that reads a late FIN. -/
theorem InTurn.lost {w w' : World} {l : Label} (h : InTurn w) (hD : PeersClose w l)
    (hC : ¬ ReadsNoLateFin w l) (hnext : w.next l = some w') :
    w'.fault = some .assertFailed := by
  have hw := h.coherent
  simp only [ReadsNoLateFin, Classical.not_forall] at hC
  obtain ⟨c, hclose, ⟨hdisp, hclient⟩, hkept⟩ := hC
  obtain ⟨k, hk⟩ := Option.isSome_iff_exists.mp hclient
  have hcb := TcpConnection.client?_eq_some.mp hk
  have hlive : w.live c = true := World.live_of_heldElsewhere (Or.inl (Nat.pos_of_ne_zero hkept))
  have hconn : (w.clients k).conn ≠ some c := fun hc => (hw.slot (.client k) c hc).2.2.2 hdisp
  obtain ⟨env, mask, rest, rfl, hst, hbits, heof⟩ := InTurn.top_of_entersClose hD hclose
  obtain ⟨hfault, hturn⟩ := World.next_turn hnext
  cases hturn with
  | readTest hst' hadm =>
      obtain ⟨hframe, rfl⟩ := List.cons.inj (hst.symm.trans hst')
      obtain ⟨rfl, rfl, _⟩ := Frame.handleEvent.inj hframe
      have hany := World.holds_advance hst .write
      have hlive₁ : World.live { w with stack := .handleEvent (.conn c) mask .write :: rest } c
          = true := (World.live_setStack (hany c)).trans hlive
      rcases (hw.advance hst .write).read_cases env (.conn c) mask rfl with
        ⟨hno, _⟩ | ⟨_, hptr, _⟩ | ⟨d, hd, _, _, heq⟩ | ⟨s, hs, _⟩
      · rcases hno with hno | ⟨_, _, hno⟩
        · exact absurd (hno.symm.trans hbits) (by simp)
        · exact absurd hno (by simp)
      · rw [World.handler?, if_pos hlive₁] at hptr
        exact absurd hptr (by simp)
      · obtain rfl := HandlerPtr.conn.inj hd
        have hclose₁ : World.tcpHandleRead { w with
            stack := .handleEvent (.conn c) mask .write :: rest } c .eof
            = World.close { w with stack := .handleEvent (.conn c) mask .write :: rest } c :=
          if_pos hlive₁
        rw [heq, heof, hclose₁]
        exact close_asserts ⟨(h.closing c).anchored.handlers, (h.closing c).anchored.interest,
          (h.closing c).anchored.table⟩ hlive₁ hcb hconn hfault
      · exact absurd hs (by simp)
  | loopEnd hst' => exact absurd (hst.symm.trans hst') (by simp)
  | loopStale hst' _ => exact absurd (hst.symm.trans hst') (by simp)
  | loopNext hst' _ => exact absurd (hst.symm.trans hst') (by simp)
  | writeTest hst' _ => exact absurd (hst.symm.trans hst') (by simp)
  | errorTest hst' => exact absurd (hst.symm.trans hst') (by simp)
  | finishClose hst' => exact absurd (hst.symm.trans hst') (by simp)

/-- **When the assertion of `HandleClose` holds.**  In a run in which it is the
peers that close, with any `Connect`s, `Disconnect`s and kept copies, it never
fails if and only if no FIN is read from a connection that a later connect has
replaced in its client and of which the application keeps a copy.  A run ends at
its first fault, such as a use of a dead connection in `World.finishClose`. -/
theorem handleClose_asserts_iff (labels : List Label) (t : World)
    (hpeers : Along World.next PeersClose World.init labels)
    (hrun : exec World.next World.init labels = some t) :
    Always World.next (fun w => w.fault ≠ some .assertFailed) World.init labels ↔
      Along World.next ReadsNoLateFin World.init labels :=
  always_iff_along (I := InTurn) (fun _ h => h.holds)
    (fun _ _ _ h hD hC hnext => h.next hD hC hnext)
    (fun _ _ _ h hD hC hnext hholds => hholds (h.lost hD hC hnext))
    InTurn.init hpeers hrun

/-- A connection is given up with `Disconnect` and replaced, and the peer of the
one on descriptor `fd` closes; `copies` are made of the first. -/
def reconnected (copies : List Label) (fd : Nat) : List Label :=
  [.user (.setConnectionCallback 0 true), .user (.connect 0 [] 80 (some 5) .ok)] ++ copies
    ++ [.ret, .user (.disconnect 0 true), .user (.connect 0 [] 80 (some 6) .ok), .ret,
      .poll [(fd, EPOLLIN)], .resume .idle, .resume { Env.idle with read := .eof }]

/-- The theorem on a reconnect by an application that keeps nothing. -/
theorem handleClose_asserts_on_run :
    (exec World.next World.init (reconnected [] 6)).isSome = true
      ∧ Always World.next (fun w => w.fault ≠ some .assertFailed) World.init
        (reconnected [] 6) := by
  have h : (exec World.next World.init (reconnected [] 6)).isSome = true := by decide +kernel
  obtain ⟨t, hrun⟩ := Option.isSome_iff_exists.mp h
  exact ⟨h, (handleClose_asserts_iff _ t (by decide +kernel) hrun).mpr (by decide +kernel)⟩

/-- **A FIN of the old connection**, of which the application kept the pointer its
connection callback was given: the assertion fails, with the new connection in
`_conn`. -/
theorem reconnect_fails_assertion :
    Along World.next PeersClose World.init (reconnected [.user (.keep 0)] 5)
      ∧ ∃ t, exec World.next World.init (reconnected [.user (.keep 0)] 5) = some t
        ∧ t.fault = some .assertFailed ∧ (t.clients 0).conn = some 1 := by
  refine ⟨by decide +kernel, ?_⟩
  have h : (exec World.next World.init (reconnected [.user (.keep 0)] 5)).map
      (fun t => (t.fault, (t.clients 0).conn)) = some (some .assertFailed, some 1) := by
    decide +kernel
  obtain ⟨t, hrun, ht⟩ := Option.map_eq_some_iff.mp h
  obtain ⟨hfault, hconn⟩ := Prod.mk.inj ht
  exact ⟨t, hrun, hfault, hconn⟩

end SparkNet
