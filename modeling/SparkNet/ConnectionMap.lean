/-
  SparkNet.ConnectionMap — the map of a server's connections.

  `_conns` is keyed by name: the peer's address and port, a dash and `_connId`,
  a counter of 32 bits.  Two connections of one server are given the same name
  when they come from one peer and a multiple of 2^32 accepts lies between them;
  `OnNewConnect` then assigns over the entry of the first, and `RemoveConn`
  erases by name whatever is there.

  Main results:
    * `conns_exact_iff` — the map holds exactly the open connections throughout a
      run, if and only if no connection is accepted, or closed a second time,
      while a namesake is open;
    * `World.nameOf_inj` — a name tells the peer and the counter;
    * `conns_exact_of_few` — up to 2^32 accepts there are no namesakes.
-/
import Mathlib.Algebra.Group.Nat.Defs
import SparkNet.Moves

namespace SparkNet

open Runs

/-! ## §1. Names. -/

namespace World

/-- The name `OnNewConnect` gives to a connection from `peer`. -/
def nameOf (peer : SockaddrIn) (connId : BitVec 32) : Text :=
  (InetAdress.ofPeer peer).ipPortStr ++ ['-'] ++ decimal connId.toNat

theorem nextName_ofPeer (w : World) (s : Nat) (peer : SockaddrIn) :
    w.nextName s (InetAdress.ofPeer peer) = nameOf peer (w.servers s).connId := rfl

/-- **A name tells the peer and the counter.** -/
theorem nameOf_inj {p q : SockaddrIn} {i j : BitVec 32} :
    nameOf p i = nameOf q j ↔ p.endpoint = q.endpoint ∧ i = j := by
  have htext : '-' ∉ (InetAdress.ofPeer p).ipPortStr :=
    InetAdress.not_mem_ipPortStr (by decide) (by decide) (by decide) p
  have htext' : '-' ∉ (InetAdress.ofPeer q).ipPortStr :=
    InetAdress.not_mem_ipPortStr (by decide) (by decide) (by decide) q
  simp only [nameOf, List.append_assoc, List.singleton_append]
  constructor
  · intro h
    obtain ⟨hpeer, hid⟩ := append_separator_inj htext htext' h
    exact ⟨InetAdress.ipPortStr_inj.mp hpeer,
      BitVec.eq_of_toNat_eq (decimal_injective hid)⟩
  · rintro ⟨hpeer, rfl⟩
    rw [InetAdress.ipPortStr_inj.mpr hpeer]

/-- The connection was accepted by the server. -/
def acceptedBy (w : World) (s c : Nat) : Bool :=
  decide (c < w.connCount) && (w.conns c).slot.bind Slot.server? == some s

/-- How many connections the server had accepted before connection `c` was made. -/
def rank (w : World) (s c : Nat) : Nat := (List.range c).countP (w.acceptedBy s)

/-- How many it has accepted. -/
def acceptCount (w : World) (s : Nat) : Nat := w.rank s w.connCount

/-- An open connection of server `s`, from the peer at `peer`, with a multiple of
2^32 accepts between it and the one of rank `n`. -/
def namesake (w : World) (s : Nat) (peer : SockaddrIn) (n d : Nat) : Prop :=
  w.acceptedBy s d = true ∧ ¬ w.closed d ∧ (w.conns d).addr.addr.endpoint = peer.endpoint
    ∧ w.rank s d % 2 ^ 32 = n % 2 ^ 32

instance (w : World) (s : Nat) (peer : SockaddrIn) (n d : Nat) :
    Decidable (w.namesake s peer n d) :=
  inferInstanceAs (Decidable (_ ∧ _ ∧ _ ∧ _))

end World

/-- **The map is exact**: it holds, each under its own name, the connections that
were accepted and whose close callback has not been called; and none was ever
replaced, or erased in the place of another. -/
structure ExactMap (s : Nat) (w : World) : Prop where
  entries : ∀ name c, (w.servers s).conns name = some c ↔
    w.acceptedBy s c = true ∧ (w.conns c).name = name ∧ .closeCallback c ∉ w.log
  undisturbed : ∀ c, w.acceptedBy s c = true → ¬ w.displaced c

/-- The step accepts nobody on server `s`, and closes no connection of it, while
another one has the name. -/
structure NamesApart (s : Nat) (w : World) (l : Label) : Prop where
  accept : ∀ q, w.acceptsFrom l = some q → q.1 = s → ∀ d, d < w.connCount →
    ¬ w.namesake s q.2 (w.acceptCount s) d
  close : ∀ c, w.entersClose l = some c → w.live c = true → w.acceptedBy s c = true →
    ∀ d, d < w.connCount → d ≠ c → ¬ w.namesake s (w.conns c).addr.addr (w.rank s c) d

instance (s : Nat) (w : World) (l : Label) : Decidable (NamesApart s w l) :=
  decidable_of_iff
    ((∀ q, w.acceptsFrom l = some q → q.1 = s → ∀ d, d < w.connCount →
        ¬ w.namesake s q.2 (w.acceptCount s) d)
      ∧ ∀ c, w.entersClose l = some c → w.live c = true → w.acceptedBy s c = true →
        ∀ d, d < w.connCount → d ≠ c → ¬ w.namesake s (w.conns c).addr.addr (w.rank s c) d)
    ⟨fun h => ⟨h.1, h.2⟩, fun h => ⟨h.accept, h.close⟩⟩

/-! ## §2. The invariant. -/

/-- What is known of a server's connections in every world. -/
structure Numbered (s : Nat) (w : World) : Prop where
  coherent : Coherent w
  counter : (w.servers s).connId = 1#32 + BitVec.ofNat 32 (w.acceptCount s)
  name : ∀ c, w.acceptedBy s c = true →
    (w.conns c).name = World.nameOf (w.conns c).addr.addr (1#32 + BitVec.ofNat 32 (w.rank s c))
  /-- The close callback is called in the step that enters `Close`. -/
  noted : ∀ c, .closeCallback c ∈ w.log ↔ w.closed c

/-- A server's entry is under the connection's own name. -/
theorem TcpConnection.name_of_slot {x : TcpConnection} {s : Nat} {name : Text}
    (h : x.slot = some (.server s name)) : x.name = name := by
  unfold slot at h
  split at h
  · exact (Slot.server.inj (Option.some.inj h)).2
  · exact absurd h (by simp)
  · exact absurd h (by simp)

namespace World

variable {w w' : World} {s c d : Nat}

theorem acceptedBy_iff : w.acceptedBy s c = true ↔
    c < w.connCount ∧ (w.conns c).slot = some (.server s (w.conns c).name) := by
  have hslot : (w.conns c).slot.bind Slot.server? = some s
      ↔ (w.conns c).slot = some (.server s (w.conns c).name) := by
    unfold TcpConnection.slot
    split <;> simp [Slot.server?]
  simp [acceptedBy, hslot]

theorem acceptedBy_of_slot {name : Text} (hc : c < w.connCount)
    (h : (w.conns c).slot = some (.server s name)) : w.acceptedBy s c = true :=
  acceptedBy_iff.mpr ⟨hc, by rw [TcpConnection.name_of_slot h, h]⟩

/-- Only what a connection is bound to counts. -/
theorem acceptedBy_congr (hparts : (w'.conns c).parts = (w.conns c).parts)
    (hcount : c < w.connCount ↔ c < w'.connCount) : w'.acceptedBy s c = w.acceptedBy s c := by
  simp only [acceptedBy, TcpConnection.slot_congr hparts, hcount]

theorem rank_congr (h : ∀ d < c, w'.acceptedBy s d = w.acceptedBy s d) :
    w'.rank s c = w.rank s c :=
  List.countP_congr fun d hd => by rw [h d (List.mem_range.mp hd)]

theorem rank_succ (w : World) (s c : Nat) :
    w.rank s (c + 1) = w.rank s c + if w.acceptedBy s c = true then 1 else 0 := by
  simp [rank, List.range_succ, List.countP_append, List.countP_singleton]

end World

/-- Equal remainders are equal counters. -/
theorem ofNat_add_inj {m n : Nat} :
    1#32 + BitVec.ofNat 32 m = 1#32 + BitVec.ofNat 32 n ↔ m % 2 ^ 32 = n % 2 ^ 32 := by
  rw [BitVec.add_right_inj, ← BitVec.toNat_inj, BitVec.toNat_ofNat, BitVec.toNat_ofNat]

namespace Numbered

variable {w w' : World} {s c d : Nat}

/-- **Who has the same name**: the same peer, a multiple of 2^32 accepts away. -/
theorem name_eq_iff (h : Numbered s w) (hd : w.acceptedBy s d = true) {peer : SockaddrIn}
    {n : Nat} :
    (w.conns d).name = World.nameOf peer (1#32 + BitVec.ofNat 32 n)
      ↔ (w.conns d).addr.addr.endpoint = peer.endpoint ∧ w.rank s d % 2 ^ 32 = n % 2 ^ 32 := by
  rw [h.name d hd, World.nameOf_inj, ofNat_add_inj]

/-- A namesake is in the map under the name, if the map is exact. -/
theorem entry_of_namesake (h : Numbered s w) (hexact : ExactMap s w) {peer : SockaddrIn} {n : Nat}
    (hd : w.namesake s peer n d) :
    (w.servers s).conns (World.nameOf peer (1#32 + BitVec.ofNat 32 n)) = some d := by
  obtain ⟨hacc, hopen, hpeer, hrank⟩ := hd
  refine (hexact.entries _ d).mpr ⟨hacc, (h.name_eq_iff hacc).mpr ⟨hpeer, hrank⟩, ?_⟩
  rw [h.noted]
  exact hopen

/-- Whoever is in the map under a name is a namesake. -/
theorem namesake_of_entry (h : Numbered s w) {peer : SockaddrIn} {n : Nat}
    (hd : (w.servers s).conns (World.nameOf peer (1#32 + BitVec.ofNat 32 n)) = some d) :
    w.namesake s peer n d := by
  obtain ⟨hcount, hslot, hopen, _⟩ := h.coherent.slot (.server s _) d hd
  have hacc := World.acceptedBy_of_slot hcount hslot
  exact ⟨hacc, hopen, (h.name_eq_iff hacc).mp (TcpConnection.name_of_slot hslot)⟩

end Numbered

/-! ## §3. One step. -/

section Step

variable {w w' : World} {l : Label} {s c : Nat} {σ : Slot} {addr : InetAdress}

theorem numbered_init (s : Nat) : Numbered s World.init where
  coherent := coherent_init
  counter := rfl
  name := fun c hc => absurd (World.acceptedBy_iff.mp hc).1 (Nat.not_lt_zero c)
  noted := fun c => by simp [World.closed, World.init]

/-- No connection was opened. -/
theorem Numbered.same (h : Numbered s w) (hw' : Coherent w')
    (hparts : ∀ c, (w'.conns c).parts = (w.conns c).parts) (hcount : w'.connCount = w.connCount)
    (hid : (w'.servers s).connId = (w.servers s).connId)
    (hnoted : ∀ c, .closeCallback c ∈ w'.log ↔ w'.closed c) : Numbered s w' := by
  have hacc : ∀ c, w'.acceptedBy s c = w.acceptedBy s c := fun c =>
    World.acceptedBy_congr (hparts c) (by rw [hcount])
  have hrank : ∀ c, w'.rank s c = w.rank s c := fun c => World.rank_congr fun d _ => hacc d
  refine ⟨hw', ?_, fun c hc => ?_, hnoted⟩
  · show _ = 1#32 + BitVec.ofNat 32 (w'.rank s w'.connCount)
    rw [hid, hrank, hcount]
    exact h.counter
  · have haddr : (w'.conns c).addr = (w.conns c).addr := congrArg ConnParts.addr (hparts c)
    have hname : (w'.conns c).name = (w.conns c).name := congrArg ConnParts.name (hparts c)
    rw [hname, haddr, hrank]
    exact h.name c (hacc c ▸ hc)

namespace Opens

/-- Who was accepted before stays so. -/
theorem acceptedBy_old (ho : Opens w w' σ addr) (hc : c < w.connCount) :
    w'.acceptedBy s c = w.acceptedBy s c :=
  World.acceptedBy_congr (ho.parts c (Nat.ne_of_lt hc)) (by rw [ho.connCount]; omega)

theorem acceptedBy_new (ho : Opens w w' σ addr) :
    w'.acceptedBy s w.connCount = true ↔ σ = .server s (w'.conns w.connCount).name := by
  rw [World.acceptedBy_iff, ho.bound, Option.some.injEq, ho.connCount]
  exact and_iff_right (Nat.lt_succ_self _)

/-- Nobody else is accepted. -/
theorem cases_acceptedBy (ho : Opens w w' σ addr) (hc : w'.acceptedBy s c = true) :
    c < w.connCount ∧ w.acceptedBy s c = true
      ∨ c = w.connCount ∧ σ = .server s (w'.conns w.connCount).name := by
  have hlt := (World.acceptedBy_iff.mp hc).1
  rw [ho.connCount] at hlt
  rcases Nat.lt_or_eq_of_le (Nat.lt_succ_iff.mp hlt) with hold | rfl
  · exact Or.inl ⟨hold, (ho.acceptedBy_old hold).symm.trans hc⟩
  · exact Or.inr ⟨rfl, ho.acceptedBy_new.mp hc⟩

theorem rank_eq (ho : Opens w w' σ addr) (hc : c ≤ w.connCount) : w'.rank s c = w.rank s c :=
  World.rank_congr fun _ hd => ho.acceptedBy_old (Nat.lt_of_lt_of_le hd hc)

theorem acceptCount_eq (ho : Opens w w' σ addr) : w'.acceptCount s = w.acceptCount s
    + if σ.server? = some s then 1 else 0 := by
  have hnew : w'.acceptedBy s w.connCount = true ↔ σ.server? = some s := by
    rw [ho.acceptedBy_new]
    have hbound := ho.bound
    cases σ with
    | client k => simp [Slot.server?]
    | server s' name => simp [Slot.server?, TcpConnection.name_of_slot hbound]
  show w'.rank s w'.connCount = w.rank s w.connCount + _
  rw [ho.connCount, World.rank_succ, ho.rank_eq (Nat.le_refl _)]
  simp only [hnew]

/-- The counter moves on where a connection was accepted. -/
theorem numbered (ho : Opens w w' σ addr) (h : Numbered s w) (hw' : Coherent w')
    (hname : ∀ name, σ = .server s name → name = World.nameOf addr.addr (w.servers s).connId) :
    Numbered s w' := by
  refine ⟨hw', ?_, fun c hc => ?_, fun c => ?_⟩
  · rw [ho.connId, ho.acceptCount_eq, h.counter]
    split
    · rw [BitVec.ofNat_add, BitVec.add_assoc]
      rfl
    · simp
  · rcases ho.cases_acceptedBy hc with ⟨hlt, hold⟩ | ⟨rfl, hσ⟩
    · have hparts := ho.parts c (Nat.ne_of_lt hlt)
      have haddr : (w'.conns c).addr = (w.conns c).addr := congrArg ConnParts.addr hparts
      have hname' : (w'.conns c).name = (w.conns c).name := congrArg ConnParts.name hparts
      rw [haddr, hname', ho.rank_eq (Nat.le_of_lt hlt)]
      exact h.name c hold
    · rw [ho.rank_eq (Nat.le_refl _), ho.addr, hname _ hσ, h.counter]
      rfl
  · rw [World.closed, ho.marks _ rfl, ho.marks _ rfl]
    simpa [World.closed] using h.noted c

/-- A new connection whose name is free. -/
theorem exact (ho : Opens w w' σ addr) (hw : Coherent w) (h : ExactMap s w)
    (hfree : ∀ name, σ = .server s name → (w.servers s).conns name = none) : ExactMap s w' where
  entries := by
    intro name c
    have hcb : .closeCallback c ∈ w'.log ↔ .closeCallback c ∈ w.log := by
      rw [ho.marks _ rfl]
      simp
    have hfresh : .closeCallback w.connCount ∉ w.log := fun hm =>
      absurd (hw.log _ hm w.connCount (by simp [Event.mentions])) (Nat.lt_irrefl _)
    have hold : c < w.connCount → ((w'.conns c).name = (w.conns c).name) := fun hlt =>
      congrArg ConnParts.name (ho.parts c (Nat.ne_of_lt hlt))
    show w'.slot (.server s name) = some c ↔ _
    rw [ho.slot, hcb]
    by_cases hσ : σ = .server s name
    · subst hσ
      rw [Function.update_self, Option.some.injEq]
      constructor
      · rintro rfl
        have hlt : w.connCount < w'.connCount := by
          rw [ho.connCount]
          exact Nat.lt_succ_self _
        exact ⟨World.acceptedBy_of_slot hlt ho.bound, TcpConnection.name_of_slot ho.bound, hfresh⟩
      · rintro ⟨hacc, hname, hopen⟩
        rcases ho.cases_acceptedBy hacc with ⟨hlt, hacc⟩ | ⟨rfl, _⟩
        · have hentry := (h.entries name c).mpr ⟨hacc, (hold hlt).symm.trans hname, hopen⟩
          exact absurd ((hfree name rfl).symm.trans hentry) (by simp)
        · rfl
    · rw [Function.update_of_ne (Ne.symm hσ)]
      refine (h.entries name c).trans ?_
      constructor
      · rintro ⟨hacc, hname, hopen⟩
        have hlt := (World.acceptedBy_iff.mp hacc).1
        exact ⟨(ho.acceptedBy_old hlt).trans hacc, (hold hlt).trans hname, hopen⟩
      · rintro ⟨hacc, hname, hopen⟩
        rcases ho.cases_acceptedBy hacc with ⟨hlt, hacc⟩ | ⟨rfl, hσ'⟩
        · exact ⟨hacc, (hold hlt).symm.trans hname, hopen⟩
        · exact absurd (hname ▸ hσ') hσ
  undisturbed := by
    intro c hacc
    rw [World.displaced, ho.marks _ rfl]
    rintro (hdisp | ⟨o, ho', heq⟩)
    · rcases ho.cases_acceptedBy hacc with ⟨hlt, hacc⟩ | ⟨rfl, _⟩
      · exact h.undisturbed c hacc hdisp
      · exact absurd (hw.log _ hdisp w.connCount (by simp [Event.mentions])) (Nat.lt_irrefl _)
    · obtain rfl := Event.displaced.inj heq
      obtain ⟨hlt, hbound, _⟩ := hw.slot σ c ho'
      rw [ho.acceptedBy_old hlt, World.acceptedBy_iff, hbound, Option.some.injEq] at hacc
      have hnone := hfree _ hacc.2
      rw [hacc.2] at ho'
      exact absurd (hnone.symm.trans ho') (by simp)

end Opens

namespace Closes

theorem acceptedBy_eq (hc : Closes w w' c σ) (d : Nat) : w'.acceptedBy s d = w.acceptedBy s d :=
  World.acceptedBy_congr (hc.parts d) (by rw [hc.connCount])

theorem numbered (hc : Closes w w' c σ) (h : Numbered s w) (hw' : Coherent w') :
    Numbered s w' := by
  refine h.same hw' hc.parts hc.connCount (hc.connId s) fun d => ?_
  rw [World.closed, hc.marks _ rfl, hc.marks _ rfl]
  simpa [World.closed] using or_congr (h.noted d) Iff.rfl

/-- A connection under whose name no other one is kept. -/
theorem exact (hc : Closes w w' c σ) (hw : Coherent w) (h : ExactMap s w)
    (hσ : (w.conns c).slot = some σ) (hlt : c < w.connCount)
    (hfree : ∀ d, w.acceptedBy s c = true → (w.servers s).conns (w.conns c).name = some d →
      d = c) : ExactMap s w' where
  entries := by
    intro name d
    have hname : (w'.conns d).name = (w.conns d).name := congrArg ConnParts.name (hc.parts d)
    have hcb : .closeCallback d ∉ w'.log ↔ .closeCallback d ∉ w.log ∧ d ≠ c := by
      rw [hc.marks _ rfl]
      simp
    rw [hc.acceptedBy_eq, hname, hcb]
    show w'.slot (.server s name) = some d ↔ _
    by_cases hmine : σ = .server s name
    · subst hmine
      have hacc := World.acceptedBy_of_slot hlt hσ
      obtain rfl := TcpConnection.name_of_slot hσ
      have hnone : w'.slot (.server s (w.conns c).name) = none := by
        rcases hc.slot with hslot | ⟨hclient, _⟩
        · rw [hslot, Function.update_self]
        · exact absurd hclient (by simp [Slot.server?])
      rw [hnone]
      refine ⟨fun hd => absurd hd (by simp), ?_⟩
      rintro ⟨hd, hsame, hopen, hne⟩
      exact absurd (hfree d hacc ((h.entries _ d).mpr ⟨hd, hsame, hopen⟩)) hne
    · have hslot : w'.slot (.server s name) = w.slot (.server s name) := by
        rcases hc.slot with hslot | ⟨_, _, hslot⟩
        · rw [hslot, Function.update_of_ne (Ne.symm hmine)]
        · rw [hslot]
      rw [hslot]
      refine (h.entries name d).trans (and_congr_right fun hd => and_congr_right fun hsame => ?_)
      refine ⟨fun hopen => ⟨hopen, ?_⟩, And.left⟩
      rintro rfl
      refine hmine (Option.some.inj (hσ.symm.trans ?_))
      rw [← hsame]
      exact (World.acceptedBy_iff.mp hd).2
  undisturbed := by
    intro d hacc
    rw [hc.acceptedBy_eq] at hacc
    rw [World.displaced, hc.marks _ rfl]
    rintro (hdisp | heq | heq | ⟨o, _, ho, hne, heq⟩)
    · exact h.undisturbed d hacc hdisp
    · exact absurd heq (by simp)
    · exact absurd heq (by simp)
    · obtain rfl := Event.displaced.inj heq
      -- the two connections are bound to one slot
      have hbound := (hw.slot σ d ho).2.1
      have hd := (World.acceptedBy_iff.mp hacc).2
      obtain rfl : σ = .server s (w.conns d).name := Option.some.inj (hbound.symm.trans hd)
      refine hne (hfree d (World.acceptedBy_of_slot hlt hσ) ?_)
      rw [TcpConnection.name_of_slot hσ]
      exact ho

end Closes

/-- **One step** keeps the numbering. -/
theorem Numbered.next (h : Numbered s w) (hnext : w.next l = some w') : Numbered s w' := by
  have hw' := h.coherent.next hnext
  cases World.moves_next h.coherent hnext with
  | stays _ _ _ hu =>
      refine h.same hw' hu.parts hu.connCount (hu.connId s) fun c => ?_
      rw [World.closed, hu.marks _ rfl, hu.marks _ rfl]
      exact h.noted c
  | establishes _ _ _ ho => exact ho.numbered h hw' fun name hσ => absurd hσ (by simp)
  | accepts _ _ ho =>
      refine ho.numbered h hw' fun name hσ => ?_
      obtain ⟨rfl, rfl⟩ := Slot.server.inj hσ
      rfl
  | closes _ _ _ _ hc => exact hc.numbered h hw'

/-- **One step** without namesakes keeps the map exact. -/
theorem ExactMap.next (hexact : ExactMap s w) (h : Numbered s w) (hC : NamesApart s w l)
    (hnext : w.next l = some w') : ExactMap s w' := by
  have hw := h.coherent
  cases World.moves_next hw hnext with
  | stays _ _ _ hu =>
      have hacc : ∀ c, w'.acceptedBy s c = w.acceptedBy s c := fun c =>
        World.acceptedBy_congr (hu.parts c) (by rw [hu.connCount])
      refine ⟨fun name c => ?_, fun c hc => ?_⟩
      · have hname : (w'.conns c).name = (w.conns c).name := congrArg ConnParts.name (hu.parts c)
        show w'.slot (.server s name) = some c ↔ _
        rw [hu.slot, hacc, hname, hu.marks _ rfl]
        exact hexact.entries name c
      · rw [World.displaced, hu.marks _ rfl]
        exact hexact.undisturbed c (hacc c ▸ hc)
  | establishes _ _ _ ho => exact ho.exact hw hexact fun name hσ => absurd hσ (by simp)
  | @accepts s' peer hacc _ ho =>
      refine ho.exact hw hexact fun name hσ => ?_
      obtain ⟨rfl, rfl⟩ := Slot.server.inj hσ
      cases hentry : (w.servers s').conns (w.nextName s' (InetAdress.new.fromAddr peer).2) with
      | none => rfl
      | some d =>
          have hname : w.nextName s' (InetAdress.new.fromAddr peer).2
              = World.nameOf peer (1#32 + BitVec.ofNat 32 (w.acceptCount s')) := by
            rw [← h.counter]
            rfl
          rw [hname] at hentry
          have hd := h.namesake_of_entry hentry
          exact absurd hd (hC.accept _ hacc rfl d (World.acceptedBy_iff.mp hd.1).1)
  | @closes c σ hclose hlive _ hσ hc =>
      refine hc.exact hw hexact hσ (hw.known_of_live hlive) fun d hacc hentry => ?_
      by_contra hne
      rw [h.name c hacc] at hentry
      have hd := h.namesake_of_entry hentry
      exact absurd hd (hC.close c hclose hlive hacc d (World.acceptedBy_iff.mp hd.1).1 hne)

/-- **One step** with a namesake disturbs it. -/
theorem ExactMap.lost (hexact : ExactMap s w) (h : Numbered s w) (hC : ¬ NamesApart s w l)
    (hnext : w.next l = some w') : ¬ ExactMap s w' := by
  have hw := h.coherent
  have hmoves := World.moves_next hw hnext
  intro hexact'
  refine hC ⟨?_, ?_⟩
  · rintro ⟨s', peer⟩ hacc rfl d hlt hd
    have hentry := h.entry_of_namesake hexact hd
    rw [← h.counter] at hentry
    cases hmoves with
    | stays _ hno _ _ => exact absurd (hno.symm.trans hacc) (by simp)
    | closes _ _ hno _ _ => exact absurd (hno.symm.trans hacc) (by simp)
    | establishes _ hno _ _ => exact absurd (hno.symm.trans hacc) (by simp)
    | @accepts s'' peer' hacc' _ ho =>
        obtain ⟨rfl, rfl⟩ := Prod.mk.inj (Option.some.inj (hacc'.symm.trans hacc))
        refine hexact'.undisturbed d ((ho.acceptedBy_old hlt).trans hd.1) ?_
        exact (ho.marks _ rfl).mpr (Or.inr ⟨d, hentry, rfl⟩)
  · intro c hclose hlive hacc d hlt hne hd
    have hentry := h.entry_of_namesake hexact hd
    rw [← h.name c hacc] at hentry
    cases hmoves with
    | stays _ _ hdead _ => exact absurd ((hdead c hclose).symm.trans hlive) (by simp)
    | establishes _ _ hno _ => exact absurd (hno.symm.trans hclose) (by simp)
    | accepts _ hno _ => exact absurd (hno.symm.trans hclose) (by simp)
    | @closes c' σ hclose' _ _ hσ hc =>
        obtain rfl := Option.some.inj (hclose'.symm.trans hclose)
        obtain rfl := Option.some.inj (hσ.symm.trans (World.acceptedBy_iff.mp hacc).2)
        refine hexact'.undisturbed d ((hc.acceptedBy_eq d).trans hd.1) ?_
        exact (hc.marks _ rfl).mpr (Or.inr (Or.inr (Or.inr ⟨d, rfl, hentry, hne, rfl⟩)))

end Step

/-! ## §4. Whole runs. -/

theorem exactMap_init (s : Nat) : ExactMap s World.init where
  entries := fun name c => by
    refine ⟨fun h => absurd h (by simp [World.init, TcpServer.new]), ?_⟩
    rintro ⟨hacc, _⟩
    exact absurd (World.acceptedBy_iff.mp hacc).1 (Nat.not_lt_zero c)
  undisturbed := fun c hacc => absurd (World.acceptedBy_iff.mp hacc).1 (Nat.not_lt_zero c)

/-- **When the map is exact.**  Throughout a run `_conns` of server `s` holds
exactly the connections that were accepted and whose close callback has not been
called, and no accept or `RemoveConn` disturbs another one, if and only if the
server accepts no connection, and closes none (again), while an open connection
of it is from the same peer and a multiple of 2^32 accepts away.  A run ends at
its first fault, such as a use of a dead connection in `World.finishClose`. -/
theorem conns_exact_iff (s : Nat) (labels : List Label) (t : World)
    (hrun : exec World.next World.init labels = some t) :
    Always World.next (ExactMap s) World.init labels ↔
      Along World.next (NamesApart s) World.init labels :=
  always_iff_along (I := fun w => Numbered s w ∧ ExactMap s w) (D := fun _ _ => True)
    (fun _ h => h.2)
    (fun _ _ _ h _ hC hnext => ⟨h.1.next hnext, h.2.next h.1 hC hnext⟩)
    (fun _ _ _ h _ hC hnext => h.2.lost h.1 hC hnext)
    ⟨numbered_init s, exactMap_init s⟩ (Along.of_forall (fun _ _ => trivial) _) hrun

/-- Two ports of one host. -/
def caller (port : BitVec 16) : SockaddrIn := ⟨AF_INET, htons port, ⟨10, 0, 0, 1⟩⟩

/-- Server 0 accepts a connection and keeps it. -/
def oneKept : List Label :=
  [.user (.serverSetConnCallback 0 true), .user (.serverStart 0 3), .poll [(3, EPOLLIN)],
   .resume .idle, .resume { Env.idle with accept := .conn 4 (caller 4000) }, .ret, .resume .idle,
   .resume .idle, .resume .idle]

/-- A connection from `peer` arrives on descriptor 5. -/
def arrival (peer : SockaddrIn) : List Label :=
  [.poll [(3, EPOLLIN)], .resume .idle, .resume { Env.idle with accept := .conn 5 peer }]

/-- The application closes the connection in its callback; the dispatch ends. -/
def dismissal (c : Nat) : List Label :=
  [.user (.close c), .resume .idle, .ret, .resume .idle, .resume .idle, .resume .idle]

/-- `n` connections from `peer`, the first of them number `c`, each closed in its
connection callback. -/
def visits (peer : SockaddrIn) (c n : Nat) : List Label :=
  (List.range n).flatMap fun i => arrival peer ++ dismissal (c + i)

/-- The theorem on a server with one connection that stays and one that is closed. -/
theorem conns_exact_on_run :
    (exec World.next World.init (oneKept ++ visits (caller 4001) 1 1)).isSome = true
      ∧ Always World.next (ExactMap 0) World.init (oneKept ++ visits (caller 4001) 1 1) := by
  have h : (exec World.next World.init (oneKept ++ visits (caller 4001) 1 1)).isSome = true := by
    decide +kernel
  obtain ⟨t, hrun⟩ := Option.isSome_iff_exists.mp h
  exact ⟨h, (conns_exact_iff 0 _ t hrun).mpr (by decide +kernel)⟩

/-- Whoever was accepted earlier has a smaller rank. -/
theorem World.rank_lt {w : World} {s c d : Nat} (hc : w.acceptedBy s c = true) (hcd : c < d) :
    w.rank s c < w.rank s d := by
  have hsucc : w.rank s (c + 1) = w.rank s c + 1 := by
    rw [w.rank_succ, if_pos hc]
  have hmono : w.rank s (c + 1) ≤ w.rank s d :=
    (List.range_sublist.mpr hcd).countP_le
  omega

/-- The number of accepts does not go down. -/
theorem acceptCount_next {w w' : World} {l : Label} {s : Nat} (hw : Coherent w)
    (hnext : w.next l = some w') : w.acceptCount s ≤ w'.acceptCount s
      ∧ ∀ peer, w.acceptsFrom l = some (s, peer) → w'.acceptCount s = w.acceptCount s + 1 := by
  have hsame : (∀ c, (w'.conns c).parts = (w.conns c).parts) → w'.connCount = w.connCount →
      w'.acceptCount s = w.acceptCount s := by
    intro hparts hcount
    show w'.rank s w'.connCount = w.rank s w.connCount
    rw [hcount]
    exact World.rank_congr fun d _ => World.acceptedBy_congr (hparts d) (by rw [hcount])
  have hno : ∀ {P : Prop}, w.acceptsFrom l = none → ∀ peer, w.acceptsFrom l = some (s, peer) → P :=
    fun hnone peer hacc => absurd (hnone.symm.trans hacc) (by simp)
  cases World.moves_next hw hnext with
  | stays _ hacc _ hu => exact ⟨Nat.le_of_eq (hsame hu.parts hu.connCount).symm, hno hacc⟩
  | establishes _ hacc _ ho => exact ⟨ho.acceptCount_eq ▸ Nat.le_add_right _ _, hno hacc⟩
  | @accepts s' peer hacc _ ho =>
      refine ⟨ho.acceptCount_eq ▸ Nat.le_add_right _ _, fun peer' hacc' => ?_⟩
      obtain ⟨rfl, _⟩ := Prod.mk.inj (Option.some.inj (hacc.symm.trans hacc'))
      rw [ho.acceptCount_eq]
      simp [Slot.server?]
  | closes _ _ hacc _ hc => exact ⟨Nat.le_of_eq (hsame hc.parts hc.connCount).symm, hno hacc⟩

/-- As long as the counter has not come round there are no namesakes. -/
theorem namesApart_of_few {s : Nat} {labels : List Label} {t : World} :
    ∀ {w : World}, Numbered s w → exec World.next w labels = some t → t.acceptCount s ≤ 2 ^ 32 →
      Along World.next (NamesApart s) w labels ∧ w.acceptCount s ≤ t.acceptCount s := by
  induction labels with
  | nil =>
      intro w _ hrun _
      obtain rfl := Option.some.inj hrun
      exact ⟨trivial, Nat.le_refl _⟩
  | cons l labels ih =>
      intro w h hrun hfew
      obtain ⟨w', hnext, hrest⟩ := exec_cons_eq_some.mp hrun
      obtain ⟨halong, hle⟩ := ih (h.next hnext) hrest hfew
      obtain ⟨hmono, hone⟩ := acceptCount_next (s := s) h.coherent hnext
      refine ⟨Along.cons hnext ⟨?_, ?_⟩ halong, Nat.le_trans hmono hle⟩
      · intro ⟨s', peer⟩ hacc hs d hlt ⟨hd, _, _, hrank⟩
        obtain rfl : s' = s := hs
        have hcount : w'.acceptCount s' = w.acceptCount s' + 1 := hone peer hacc
        have hless : w.rank s' d < w.acceptCount s' := World.rank_lt hd hlt
        have hwrap : w.rank s' d % 2 ^ 32 = w.acceptCount s' % 2 ^ 32 := hrank
        omega
      · rintro c _ hlive hc d hlt hne ⟨hd, _, _, hrank⟩
        have hclt := (World.acceptedBy_iff.mp hc).1
        have hcless : w.rank s c < w.acceptCount s := World.rank_lt hc hclt
        have hdless : w.rank s d < w.acceptCount s := World.rank_lt hd hlt
        rcases Nat.lt_or_gt_of_ne hne with hdc | hcd
        · have := World.rank_lt hd hdc
          omega
        · have := World.rank_lt hc hcd
          omega

/-- **Up to 2^32 accepts** the map is exact, whoever the peers are. -/
theorem conns_exact_of_few (s : Nat) (labels : List Label) (t : World)
    (hrun : exec World.next World.init labels = some t) (hfew : t.acceptCount s ≤ 2 ^ 32) :
    Always World.next (ExactMap s) World.init labels := by
  have hmet : Along World.next (NamesApart s) World.init labels :=
    (namesApart_of_few (numbered_init s) hrun hfew).1
  have hstep : ∀ w l w', Numbered s w ∧ ExactMap s w → NamesApart s w l → w.next l = some w' →
      Numbered s w' ∧ ExactMap s w' :=
    fun w l w' h hC hnext => ⟨h.1.next hnext, h.2.next h.1 hC hnext⟩
  exact always_of_along (fun _ h => h.2) hstep ⟨numbered_init s, exactMap_init s⟩ hmet

/-! ## §5. A run of 2^32 connections. -/

namespace World

variable {v : World} {s c fd : Nat} {addr : InetAdress} {rest : List Frame}

theorem update_eq {ptr : HandlerPtr} {h : Handler HandlerCallback} {p : Epoller HandlerPtr}
    (hup : v.poller.update ptr h = .ok p) : v.update ptr h = { v with poller := p } := by
  unfold update
  rw [hup]

/-- `OnNewConnect` on a fresh descriptor, under a name that is free. -/
theorem onNewConnect_eq (hname : (v.servers s).conns (v.nextName s addr) = none)
    (hhan : v.poller.handlers fd = none) (hint : v.poller.interest fd = none)
    (hcb : (v.servers s).newConnCallback = true) :
    ∃ p x, v.onNewConnect s fd addr = { v with
        conns := Function.update v.conns v.connCount x
        connCount := v.connCount + 1
        servers := Function.update v.servers s { v.servers s with
          connId := (v.servers s).connId + 1
          conns := Function.update (v.servers s).conns (v.nextName s addr) (some v.connCount) }
        poller := p
        log := .connectionCallback v.connCount :: v.log
        stack := .user (.connection v.connCount) :: v.stack }
      ∧ p.handlers = Function.update v.poller.handlers fd (some (.conn v.connCount))
      ∧ (∀ n, n ≠ fd → p.interest n = v.poller.interest n)
      ∧ x.handler.fd = fd ∧ x.name = v.nextName s addr
      ∧ x.closeCallback = some (.removeConn s) := by
  let x := { TcpConnection.new v.connCount (v.nextName s addr) fd addr with
    connCallback := true
    msgCallback := (v.servers s).msgCallback
    closeCallback := some (.removeConn s) }
  have hev : x.start.1.handler.events ≠ 0#32 := by
    show (0#32 ||| (EPOLLIN ||| EPOLLPRI) : EventMask) ≠ 0#32
    decide
  let p : Epoller HandlerPtr :=
    { handlers := Function.update v.poller.handlers fd (some (.conn v.connCount))
      interest := Function.update v.poller.interest fd
        (some (x.start.1.handler.events, .conn v.connCount))
      ctls := ⟨.add, fd, true⟩ :: v.poller.ctls }
  have hup : v.poller.update (.conn v.connCount) x.start.1.handler = .ok p := by
    rw [Epoller.update_absent (.conn v.connCount) (h := x.start.1.handler) hhan hint, if_neg hev]
    rfl
  have hconn : (v.storeServerConn s fd addr).conns v.connCount = x := by
    simp [storeServerConn, newConn, setServer, hcb, x]
  have hop : (v.storeServerConn s fd addr).connOp v.connCount x.start true
      = { (v.storeServerConn s fd addr).setConn v.connCount x.start.1 with poller := p } := by
    show World.update _ _ (World.conns _ _).handler = _
    rw [show ((v.storeServerConn s fd addr).setConn v.connCount x.start.1).conns v.connCount
      = x.start.1 from Function.update_self ..]
    exact update_eq hup
  refine ⟨p, x.start.1, ?_, rfl, fun n hn => Function.update_of_ne hn _ _, rfl, rfl, rfl⟩
  unfold onNewConnect
  rw [hname]
  show (v.storeServerConn s fd addr).start v.connCount = _
  unfold start
  simp only [hconn, hop]
  simp [x, TcpConnection.start, emit, push, storeServerConn, newConn, setServer, setConn]

/-- `Close` of a server's connection that is in the map. -/
theorem close_eq (hlive : v.live c = true)
    (hcb : (v.conns c).closeCallback = some (.removeConn s))
    (hentry : (v.servers s).conns (v.conns c).name = some c)
    (htable : v.poller.handlers (v.conns c).handler.fd = none →
      v.poller.interest (v.conns c).handler.fd = none) :
    ∃ p, v.close c = { v with
        conns := Function.update v.conns c (v.conns c).closeEnter.1
        servers := Function.update v.servers s { v.servers s with
          conns := Function.update (v.servers s).conns (v.conns c).name none }
        poller := p
        log := .closeCallback c :: .closeEntered c :: v.log
        stack := .closing c :: v.stack }
      ∧ p.handlers = Function.update v.poller.handlers (v.conns c).handler.fd none
      ∧ p.interest = Function.update v.poller.interest (v.conns c).handler.fd none := by
  obtain ⟨p, hup, hhan, hint⟩ : ∃ p, v.poller.update (.conn c) (v.conns c).closeEnter.1.handler
      = .ok p ∧ _ ∧ _ := Epoller.update_noEvent rfl htable
  have hstart : v.closeStart c = { (v.emit (.closeEntered c)).setConn c
      (v.conns c).closeEnter.1 with poller := p } := by
    show World.update _ _ (World.conns _ _).handler = _
    rw [show ((v.emit (.closeEntered c)).setConn c (v.conns c).closeEnter.1).conns c
      = (v.conns c).closeEnter.1 from Function.update_self ..]
    exact update_eq hup
  have hself : (v.closeStart c).conns c = (v.conns c).closeEnter.1 := by
    rw [hstart]
    exact Function.update_self ..
  have hcb' : ((v.closeStart c).conns c).closeCallback = some (.removeConn s) := by
    rw [hself]
    exact hcb
  have hname' : ((v.closeStart c).conns c).name = (v.conns c).name := by
    rw [hself]
    rfl
  have hservers : (v.closeStart c).servers = v.servers := by rw [hstart]; rfl
  refine ⟨p, ?_, hhan, hint⟩
  unfold close
  rw [if_pos hlive]
  simp only [hcb', runCloseCallback, removeConn]
  have hentry' : ((v.closeStart c).servers s).conns ((v.closeStart c).conns c).name = some c := by
    rw [hservers, hname', hentry]
  split
  next =>
    unfold release
    -- the frame of `Close` holds the connection
    rw [if_pos (by simp [live, emit, push, setServer, Frame.holds])]
    simp only [emit, push, setServer, hname', hservers]
    rw [hstart]
    rfl
  next hno => exact absurd hentry' hno

theorem finishClose_eq (hlive : v.live c = true) :
    v.finishClose c = v.setConn c (v.conns c).closeReturn := by
  have hkept : v.release c = v := if_pos hlive
  unfold finishClose
  simp only [hkept]
  exact if_pos hlive

theorem release_dead (hdead : v.live c = false) (hfd : v.fds (v.conns c).handler.fd = true) :
    v.release c = (v.emit (.handlerDestroyed (.conn c)
      (v.poller.handlers (v.conns c).handler.fd).isSome)).closeFd (v.conns c).handler.fd := by
  unfold release destroyConn
  rw [if_neg (by simp [hdead])]
  exact if_pos hfd

/-! The steps of a dispatch. -/

theorem next_poll {ev m : EventMask} {ptr : HandlerPtr} (hfault : v.fault = none)
    (hst : v.stack = []) (hint : v.poller.interest fd = some (ev, ptr)) :
    v.next (.poll [(fd, m)]) = some (v.push (.loop [(ptr, m)])) := by
  simp [next, hfault, poll, hst, hint]

theorem next_dispatch {e : Env} {ptr : HandlerPtr} {m : EventMask}
    {batch : List (HandlerPtr × EventMask)} {g : Handler HandlerCallback} (hfault : v.fault = none)
    (hst : v.stack = .loop ((ptr, m) :: batch) :: rest) (hptr : v.handler? ptr = some g) :
    v.next (.resume e)
      = some { v with stack := .handleEvent ptr m .read :: .loop batch :: rest } := by
  simp [next, hfault, admits, resume, hst, hptr]

theorem next_loopEnd {e : Env} (hfault : v.fault = none) (hst : v.stack = .loop [] :: rest) :
    v.next (.resume e) = some { v with stack := rest } := by
  simp [next, hfault, admits, resume, hst]

theorem next_finishClose {e : Env} (hfault : v.fault = none)
    (hst : v.stack = .closing c :: rest) :
    v.next (.resume e) = some ({ v with stack := rest }.finishClose c) := by
  have hadm : v.admits e = true := by simp [admits, hst]
  unfold next
  rw [if_neg (by simp [hfault])]
  simp only [hadm, if_true, resume, hst]

theorem next_ret (hfault : v.fault = none) (hst : v.stack = .user (.connection c) :: rest) :
    v.next .ret = some ({ v with stack := rest }.release c) := by
  unfold next
  rw [if_neg (by simp [hfault])]
  simp only [ret, hst]

theorem next_write {e : Env} {a : Nat} {m : EventMask} (hfault : v.fault = none)
    (hst : v.stack = .handleEvent (.acceptor a) m .write :: rest)
    (hbits : m.has EPOLLOUT = false) :
    v.next (.resume e)
      = some { v with stack := .handleEvent (.acceptor a) m .error :: rest } := by
  simp [next, hfault, admits, resume, hst, testEvent, hbits]

theorem next_error {e : Env} {ptr : HandlerPtr} {m : EventMask} (hfault : v.fault = none)
    (hst : v.stack = .handleEvent ptr m .error :: rest) (hbits : m.has EPOLLERR = false) :
    v.next (.resume e) = some { v with stack := rest } := by
  simp [next, hfault, admits, resume, hst, testEvent, hbits]

theorem next_accept {e : Env} {m : EventMask} {peer : SockaddrIn}
    {g : Handler HandlerCallback} (hfault : v.fault = none)
    (hst : v.stack = .handleEvent (.acceptor s) m .read :: rest)
    (hbits : m.has readBits = true) (hacc : (v.servers s).accepter = some g)
    (hg : g.readCallback = some (.acceptorHandleRead s))
    (he : e.accept = .conn fd peer) (hfd : v.fds fd = false) :
    v.next (.resume e) = some ({ v with stack := .handleEvent (.acceptor s) m .write :: rest
      }.acceptorHandleRead s (.conn fd peer)) := by
  have hptr : World.handler? { v with stack := .handleEvent (.acceptor s) m .write :: rest }
      (.acceptor s) = some g := hacc
  have hadm : v.admits e = true := by simp [admits, hst, he, hfd]
  unfold next
  rw [if_neg (by simp [hfault])]
  simp only [hadm, if_true, resume, hst]
  rw [testEvent_eq hbits hptr hg]
  show some (acceptorHandleRead _ s e.accept) = _
  rw [he]

end World

/-- Server 0 listens on descriptor 3. -/
structure Serving (w : World) : Prop where
  fault : w.fault = none
  listens : ∃ ev, w.poller.interest 3 = some (ev, .acceptor 0)
  accepter : (w.servers 0).accepter.isSome = true
  callback : (w.servers 0).newConnCallback = true

/-- It waits; descriptor 5 is free. -/
structure Idle (w : World) : Prop extends Serving w where
  stack : w.stack = []
  free : w.fds 5 = false
  absent : w.poller.handlers 5 = none ∧ w.poller.interest 5 = none

/-- It is in the connection callback of `c`, a connection on descriptor 5 that
nobody has copied. -/
structure Visited (c : Nat) (w : World) : Prop extends Serving w where
  stack : w.stack = [.user (.connection c), .handleEvent (.acceptor 0) EPOLLIN .write, .loop []]
  opened : w.fds 5 = true
  fd : (w.conns c).handler.fd = 5
  bound : (w.conns c).closeCallback = some (.removeConn 0)
  kept : w.kept c = 0

/-- The callback has begun. -/
structure Greeting (c : Nat) (w : World) : Prop extends Visited c w where
  registered : ∃ ptr, w.poller.handlers 5 = some ptr
  entry : (w.servers 0).conns (w.conns c).name = some c

/-- The callback has called `Close`. -/
structure Parting (c : Nat) (w : World) : Prop extends Visited c w where
  absent : w.poller.handlers 5 = none ∧ w.poller.interest 5 = none
  gone : (w.servers 0).conns (w.conns c).name = none

/-- `Close`, with the callback's argument still holding the connection. -/
theorem Greeting.close {w : World} {c : Nat} (h : Greeting c w) :
    ∃ u, exec World.next w [.user (.close c), .resume .idle] = some u ∧ Parting c u
      ∧ u.connCount = w.connCount
      ∧ u.servers = Function.update w.servers 0 { w.servers 0 with
        conns := Function.update (w.servers 0).conns (w.conns c).name none } := by
  have hlive : w.live c = true := by simp [World.live, h.stack, Frame.holds]
  have hacc : w.accessible c = true := by simp [World.accessible, h.stack, Frame.gives]
  obtain ⟨ptr, hreg⟩ := h.registered
  obtain ⟨p, hclose, hhan, hint⟩ := World.close_eq hlive h.bound h.entry
    (by rw [h.fd, hreg]; exact fun hno => absurd hno (by simp))
  have h₁ : w.next (.user (.close c)) = some (w.close c) := by
    simp [World.next, h.fault, World.userTurn, h.stack, World.userCall, hacc]
  rw [hclose, h.stack] at h₁
  obtain ⟨v, hv⟩ : ∃ v, v = ({ w with
      conns := Function.update w.conns c (w.conns c).closeEnter.1
      servers := Function.update w.servers 0 { w.servers 0 with
        conns := Function.update (w.servers 0).conns (w.conns c).name none }
      poller := p
      log := .closeCallback c :: .closeEntered c :: w.log
      stack := .closing c :: [.user (.connection c), .handleEvent (.acceptor 0) EPOLLIN .write,
        .loop []] } : World) := ⟨_, rfl⟩
  rw [← hv] at h₁
  have hvfault : v.fault = none := by rw [hv]; exact h.fault
  have hvst : v.stack = [.closing c, .user (.connection c),
      .handleEvent (.acceptor 0) EPOLLIN .write, .loop []] := by rw [hv]
  have hvconn : v.conns c = (w.conns c).closeEnter.1 := by
    rw [hv]
    exact Function.update_self ..
  have hvservers : v.servers = Function.update w.servers 0 { w.servers 0 with
      conns := Function.update (w.servers 0).conns (w.conns c).name none } := by rw [hv]
  have h₂ := World.next_finishClose (e := .idle) hvfault hvst
  rw [World.finishClose_eq (by simp [World.live, Frame.holds])] at h₂
  obtain ⟨u, hu⟩ : ∃ u, u = World.setConn { v with
      stack := [.user (.connection c), .handleEvent (.acceptor 0) EPOLLIN .write, .loop []] } c
        (v.conns c).closeReturn := ⟨_, rfl⟩
  rw [← hu] at h₂
  have huconn : u.conns c = (w.conns c).closeEnter.1.closeReturn := by
    rw [hu, ← hvconn]
    exact Function.update_self ..
  have hupoller : u.poller = p := by rw [hu, hv]; rfl
  have huservers : u.servers = v.servers := by rw [hu]; rfl
  refine ⟨u, ?_, ⟨⟨⟨?_, ?_, ?_, ?_⟩, ?_, ?_, ?_, ?_, ?_⟩, ?_, ?_⟩, ?_, ?_⟩
  · simp only [exec, h₁, h₂, Option.bind_some]
  · rw [hu]
    exact hvfault
  · obtain ⟨ev, hlisten⟩ := h.listens
    refine ⟨ev, ?_⟩
    rw [hupoller, hint, h.fd, Function.update_of_ne (by decide)]
    exact hlisten
  · rw [huservers, hvservers, Function.update_self]
    exact h.accepter
  · rw [huservers, hvservers, Function.update_self]
    exact h.callback
  · rw [hu]
    rfl
  · rw [hu, hv]
    exact h.opened
  · rw [huconn]
    exact h.fd
  · rw [huconn]
    exact h.bound
  · rw [hu, hv]
    exact h.kept
  · rw [hupoller, hhan, hint, h.fd, Function.update_self, Function.update_self]
    exact ⟨rfl, rfl⟩
  · rw [huservers, hvservers, Function.update_self, huconn]
    exact Function.update_self ..
  · rw [hu, hv]
    rfl
  · rw [huservers, hvservers]

/-- The callback returns: nobody holds the connection any more, and the dispatch
ends. -/
theorem Parting.ret {w : World} {c : Nat} (h : Parting c w) :
    ∃ w', exec World.next w [.ret, .resume .idle, .resume .idle, .resume .idle] = some w'
      ∧ Idle w' ∧ w'.connCount = w.connCount ∧ w'.servers = w.servers := by
  have h₁ := World.next_ret h.fault h.stack
  have hdead : World.live { w with
      stack := [.handleEvent (.acceptor 0) EPOLLIN .write, .loop []] } c = false := by
    have hslot : (w.conns c).slot = some (.server 0 (w.conns c).name) := by
      simp [TcpConnection.slot, h.bound]
    simp [World.live, World.ownerHolds, hslot, World.slot, h.gone, h.kept, Frame.holds]
  rw [World.release_dead hdead (by
    show w.fds (w.conns c).handler.fd = true
    rw [h.fd]
    exact h.opened)] at h₁
  obtain ⟨t, ht⟩ : ∃ t, t = World.closeFd (World.emit { w with
      stack := [.handleEvent (.acceptor 0) EPOLLIN .write, .loop []] }
        (.handlerDestroyed (.conn c) (w.poller.handlers (w.conns c).handler.fd).isSome))
          (w.conns c).handler.fd := ⟨_, rfl⟩
  rw [← ht] at h₁
  have htfault : t.fault = none := by rw [ht]; exact h.fault
  have htst : t.stack = [.handleEvent (.acceptor 0) EPOLLIN .write, .loop []] := by rw [ht]; rfl
  have htservers : t.servers = w.servers := by rw [ht]; rfl
  have htpoller : t.poller.handlers = w.poller.handlers
      ∧ t.poller.interest = Function.update w.poller.interest 5 none := by
    rw [ht, h.fd]
    exact ⟨rfl, rfl⟩
  have h₂ := World.next_write (e := .idle) htfault htst (by decide)
  have h₃ := World.next_error (v := { t with
    stack := [.handleEvent (.acceptor 0) EPOLLIN .error, .loop []] }) (e := .idle) htfault rfl
    (by decide)
  have h₄ := World.next_loopEnd (v := { t with stack := [.loop []] }) (e := .idle) htfault rfl
  refine ⟨{ t with stack := [] }, ?_, ⟨⟨htfault, ?_, ?_, ?_⟩, rfl, ?_, ?_⟩, ?_, htservers⟩
  · simp only [exec, h₁, h₂, h₃, h₄, Option.bind_some]
  · obtain ⟨ev, hlisten⟩ := h.listens
    refine ⟨ev, ?_⟩
    show t.poller.interest 3 = _
    rw [htpoller.2, Function.update_of_ne (by decide)]
    exact hlisten
  · show (t.servers 0).accepter.isSome = true
    rw [htservers]
    exact h.accepter
  · show (t.servers 0).newConnCallback = true
    rw [htservers]
    exact h.callback
  · show t.fds 5 = false
    rw [ht, h.fd]
    simp [World.closeFd]
  · show t.poller.handlers 5 = none ∧ t.poller.interest 5 = none
    rw [htpoller.1, htpoller.2, Function.update_self]
    exact ⟨h.absent.1, rfl⟩
  · show t.connCount = w.connCount
    rw [ht]
    rfl

theorem Greeting.dismissal {w : World} {c : Nat} (h : Greeting c w) :
    ∃ w', exec World.next w (dismissal c) = some w' ∧ Idle w' ∧ w'.connCount = w.connCount
      ∧ (w'.servers 0).connId = (w.servers 0).connId
      ∧ (w'.servers 0).conns = Function.update (w.servers 0).conns (w.conns c).name none := by
  obtain ⟨u, hclose, hparting, hcount, hservers⟩ := h.close
  obtain ⟨t, hret, hidle, hcount', hservers'⟩ := hparting.ret
  refine ⟨t, exec_append_eq_some.mpr ⟨u, hclose, hret⟩, hidle, hcount'.trans hcount, ?_, ?_⟩
  · rw [hservers', hservers, Function.update_self]
  · rw [hservers', hservers, Function.update_self]

namespace Idle

variable {w : World}

/-- What `HandleRead` of the acceptor starts from. -/
theorem arrival_eq (h : Idle w) (hw : Coherent w) (peer : SockaddrIn) :
    exec World.next w (arrival peer) = some (World.acceptorHandleRead { w with
      stack := [.handleEvent (.acceptor 0) EPOLLIN .write, .loop []] } 0 (.conn 5 peer)) := by
  obtain ⟨ev, hlisten⟩ := h.listens
  obtain ⟨g, hg⟩ := Option.isSome_iff_exists.mp h.accepter
  have h₁ := World.next_poll (m := EPOLLIN) h.fault h.stack hlisten
  have h₂ : (w.push (.loop [(.acceptor 0, EPOLLIN)])).next (.resume .idle) = some { w with
      stack := [.handleEvent (.acceptor 0) EPOLLIN .read, .loop []] } := by
    have hst : (w.push (.loop [(.acceptor 0, EPOLLIN)])).stack
        = [.loop [(.acceptor 0, EPOLLIN)]] := congrArg (Frame.loop _ :: ·) h.stack
    exact World.next_dispatch (g := g) h.fault hst hg
  have h₃ := World.next_accept (v := { w with
      stack := [.handleEvent (.acceptor 0) EPOLLIN .read, .loop []] })
    (e := { Env.idle with accept := .conn 5 peer }) h.fault rfl (by decide) hg
    (hw.acceptor 0 g hg).1 rfl h.free
  simp only [arrival, exec, h₁, h₂, h₃, Option.bind_some]

/-- Under a name that is free. -/
theorem greeting (h : Idle w) (hw : Coherent w) {peer : SockaddrIn}
    (hname : (w.servers 0).conns (w.nextName 0 (InetAdress.ofPeer peer)) = none) :
    ∃ v, exec World.next w (arrival peer) = some v ∧ Greeting w.connCount v
      ∧ v.connCount = w.connCount + 1
      ∧ (v.servers 0).connId = (w.servers 0).connId + 1
      ∧ (v.servers 0).conns = Function.update (w.servers 0).conns
          (w.nextName 0 (InetAdress.ofPeer peer)) (some w.connCount)
      ∧ (v.conns w.connCount).name = w.nextName 0 (InetAdress.ofPeer peer) := by
  obtain ⟨p, x, heq, hhan, hint, hfd, hxname, hcb⟩ := World.onNewConnect_eq (v := { w with
    stack := [.handleEvent (.acceptor 0) EPOLLIN .write, .loop []]
    fds := Function.update w.fds 5 true }) hname h.absent.1 h.absent.2 h.callback
  obtain ⟨ev, hlisten⟩ := h.listens
  have hrun := h.arrival_eq hw peer
  rw [show World.acceptorHandleRead { w with
      stack := [.handleEvent (.acceptor 0) EPOLLIN .write, .loop []] } 0 (.conn 5 peer) = _
    from heq] at hrun
  refine ⟨_, hrun, ⟨⟨⟨h.fault, ⟨ev, ?_⟩, ?_, ?_⟩, rfl, ?_, ?_, ?_, ?_⟩, ?_, ?_⟩, rfl, ?_, ?_, ?_⟩
  · exact (hint 3 (by decide)).trans hlisten
  · simpa using h.accepter
  · simpa using h.callback
  · simp
  · simpa using hfd
  · simpa using hcb
  · exact (hw.fresh (Nat.le_refl _)).2.2.1
  · exact ⟨_, by simp [hhan]; rfl⟩
  · simp [hxname]
  · simp
  · simp only [Function.update_self]
    rfl
  · exact (congrArg TcpConnection.name (Function.update_self ..)).trans hxname

/-- Under the name of an open connection. -/
theorem collision (h : Idle w) (hw : Coherent w) {peer : SockaddrIn} {d : Nat}
    (hentry : (w.servers 0).conns (w.nextName 0 (InetAdress.ofPeer peer)) = some d) :
    ∃ t, exec World.next w (arrival peer) = some t ∧ t.acceptedBy 0 d = true ∧ ¬ t.closed d
      ∧ t.displaced d := by
  obtain ⟨hlt, hslot, hopen, _⟩ := hw.slot (.server 0 _) d hentry
  have hopens := Opens.before (.setStack w [.handleEvent (.acceptor 0) EPOLLIN .write, .loop []])
    (Opens.acceptorHandleRead 0 5 peer)
  refine ⟨_, h.arrival_eq hw peer, ?_, ?_, (hopens.marks _ rfl).mpr (Or.inr ⟨d, hentry, rfl⟩)⟩
  · rw [hopens.acceptedBy_old hlt]
    exact World.acceptedBy_of_slot hlt hslot
  · rw [World.closed, hopens.marks _ rfl]
    rintro (hclosed | ⟨_, _, heq⟩)
    · exact hopen hclosed
    · exact absurd heq (by simp)

end Idle

/-- **Visits leave nothing behind but the counter.** -/
theorem Idle.visits {w : World} (h : Idle w) (hw : Coherent w) {peer : SockaddrIn}
    (hfree : ∀ connId, (w.servers 0).conns (World.nameOf peer connId) = none) (n : Nat) :
    ∃ w', exec World.next w (visits peer w.connCount n) = some w' ∧ Idle w' ∧ Coherent w'
      ∧ w'.connCount = w.connCount + n
      ∧ (w'.servers 0).connId = (w.servers 0).connId + BitVec.ofNat 32 n
      ∧ (w'.servers 0).conns = (w.servers 0).conns := by
  induction n with
  | zero => exact ⟨w, rfl, h, hw, rfl, (BitVec.add_zero _).symm, rfl⟩
  | succ n ih =>
      obtain ⟨v, hrun, hidle, hv, hcount, hid, hconns⟩ := ih
      have hname : (v.servers 0).conns (v.nextName 0 (InetAdress.ofPeer peer)) = none := by
        rw [hconns, World.nextName_ofPeer]
        exact hfree _
      obtain ⟨u, hrun₁, hgreet, hcount₁, hid₁, hconns₁, hname₁⟩ := hidle.greeting hv hname
      obtain ⟨t, hrun₂, hidle₂, hcount₂, hid₂, hconns₂⟩ := hgreet.dismissal
      have hvisit : exec World.next v (arrival peer ++ dismissal (w.connCount + n)) = some t :=
        exec_append_eq_some.mpr ⟨u, hrun₁, hcount ▸ hrun₂⟩
      refine ⟨t, ?_, hidle₂, hv.exec hvisit, ?_, ?_, ?_⟩
      · rw [SparkNet.visits, List.range_succ, List.flatMap_append, List.flatMap_singleton]
        exact exec_append_eq_some.mpr ⟨v, hrun, hvisit⟩
      · rw [hcount₂, hcount₁, hcount]
        omega
      · rw [hid₂, hid₁, hid, BitVec.ofNat_add, BitVec.add_assoc]
        rfl
      · -- the name was free, and is again
        rw [hconns₂, hconns₁, hname₁, Function.update_idem, ← hname, Function.update_eq_self,
          hconns]

/-- The counter comes round, and the first peer connects again. -/
def wrapAround : List Label :=
  oneKept ++ (visits (caller 4001) 1 4294967295 ++ arrival (caller 4000))

theorem oneKept_spec : ∃ w, exec World.next World.init oneKept = some w ∧ Idle w ∧ Coherent w
    ∧ w.connCount = 1 ∧ (w.servers 0).connId = 2#32
    ∧ (w.servers 0).conns (World.nameOf (caller 4000) 1#32) = some 0 := by
  have h : (exec World.next World.init oneKept).any (fun w => decide (w.fault = none
      ∧ w.stack = [] ∧ w.poller.interest 3 = some (EPOLLIN ||| EPOLLPRI, .acceptor 0)
      ∧ (w.servers 0).accepter.isSome = true ∧ (w.servers 0).newConnCallback = true
      ∧ w.fds 5 = false ∧ w.poller.handlers 5 = none ∧ w.poller.interest 5 = none
      ∧ w.connCount = 1 ∧ (w.servers 0).connId = 2#32
      ∧ (w.servers 0).conns (World.nameOf (caller 4000) 1#32) = some 0)) = true := by
    decide +kernel
  obtain ⟨w, hrun, hw⟩ := (Option.any_eq_true ..).mp h
  obtain ⟨hfault, hst, hlisten, hacc, hcb, hfd, hhan, hint, hcount, hid, hentry⟩ :=
    of_decide_eq_true hw
  exact ⟨w, hrun, ⟨⟨hfault, ⟨_, hlisten⟩, hacc, hcb⟩, hst, hfd, hhan, hint⟩,
    coherent_init.exec hrun, hcount, hid, hentry⟩

/-- **A counter that has come round**: after 2^32 connections the name of the first,
which is still open, is given again, and its entry is assigned over. -/
theorem wrapped_counter_displaces : ∃ t, exec World.next World.init wrapAround = some t
    ∧ t.acceptedBy 0 0 = true ∧ ¬ t.closed 0 ∧ (∀ name, (t.servers 0).conns name ≠ some 0)
    ∧ ¬ ExactMap 0 t := by
  obtain ⟨w, hrun, hidle, hw, hcount, hid, hentry⟩ := oneKept_spec
  have hfree : ∀ connId, (w.servers 0).conns (World.nameOf (caller 4001) connId) = none := by
    intro connId
    cases hconn : (w.servers 0).conns (World.nameOf (caller 4001) connId) with
    | none => rfl
    | some d =>
        -- the only connection there is has another name
        obtain ⟨hlt, hslot, _⟩ := hw.slot (.server 0 _) d hconn
        obtain rfl : d = 0 := by omega
        have hfirst := (hw.slot (.server 0 _) 0 hentry).2.1
        have hsame := (Slot.server.inj (Option.some.inj (hslot.symm.trans hfirst))).2
        exact absurd (World.nameOf_inj.mp hsame).1 (by decide)
  obtain ⟨v, hvisits, hidle', hv, _, hid', hconns⟩ := hidle.visits hw hfree 4294967295
  have hentry' : (v.servers 0).conns (v.nextName 0 (InetAdress.ofPeer (caller 4000))) = some 0 := by
    rw [World.nextName_ofPeer, hconns, hid', hid]
    exact hentry
  obtain ⟨t, hlast, hacc, hopen, hdisp⟩ := hidle'.collision hv hentry'
  have hall : exec World.next World.init wrapAround = some t :=
    exec_append_eq_some.mpr ⟨w, hrun, exec_append_eq_some.mpr ⟨v, hcount ▸ hvisits, hlast⟩⟩
  refine ⟨t, hall, hacc, hopen, fun name hname => ?_, fun hexact => hexact.undisturbed 0 hacc hdisp⟩
  exact ((coherent_reachable hall).slot (.server 0 name) 0 hname).2.2.2 hdisp

end SparkNet
