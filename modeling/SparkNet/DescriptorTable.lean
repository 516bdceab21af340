/-
  SparkNet.DescriptorTable — a descriptor table that remembers who owns what.

  A number is open or not.  Every opening gets a serial of its own, so that a
  number that is used again stands for another descriptor, and every serial has
  an owner, of any type `ω`.  Each call of `close` leaves a
  note: the descriptor it hit and whose that was, or that the number was not
  open (EBADF).

  Main results:
    * `Sound.obtain`, `Sound.transfer`, `Sound.close` — the table's bookkeeping
      holds after every operation: a descriptor has been closed once when no
      number stands for it any more, and not at all before;
    * `clean_close` — a close is rightful exactly when the number is open and
      belongs to the closer;
    * `Moves` — the frame rule: operations on some owners' descriptors leave all
      others as they were.
-/
import Mathlib.Data.List.Basic

namespace Descriptors

variable {ω : Type*}

/-! ## §1. The table and its operations. -/

/-- What one call of `close` met. -/
inductive Note (ω : Type*) where
  | hit (serial : Nat) (closer : ω) (owner : Option ω)
  | miss (number : Nat) (closer : ω)

/-- The call closed a descriptor of the closer's own. -/
def Note.rightful : Note ω → Prop
  | .hit _ closer owner => owner = some closer
  | .miss _ _ => False

instance Note.decidableRightful [DecidableEq ω] (note : Note ω) : Decidable note.rightful :=
  match note with
  | .hit _ closer owner => inferInstanceAs (Decidable (owner = some closer))
  | .miss _ _ => isFalse id

/-- The call met an open number. -/
def Note.met : Note ω → Bool
  | .hit _ _ _ => true
  | .miss _ _ => false

/-- The call closed the descriptor `k`. -/
def Note.isHit (k : Nat) : Note ω → Bool
  | .hit serial _ _ => serial == k
  | .miss _ _ => false

structure Table (ω : Type*) where
  /-- The serial of the descriptor an open number stands for. -/
  slot : Nat → Option Nat
  /-- Serials are given out in order. -/
  issued : Nat
  /-- Whose a descriptor is, or was last. -/
  owner : Nat → Option ω
  /-- Newest first. -/
  notes : List (Note ω)

namespace Table

def empty : Table ω := ⟨fun _ => none, 0, fun _ => none, []⟩

/-- Whose the descriptor behind a number is. -/
def ownerAt (t : Table ω) (n : Nat) : Option ω := (t.slot n).bind t.owner

/-- The number the next call that opens something returns in a process that may
have `limit` descriptors; none when the table is full. -/
def lowest (t : Table ω) (limit : Nat) : Option Nat :=
  (List.range limit).find? fun n => (t.slot n).isNone

/-- The table keeps to the limit. -/
def Within (t : Table ω) (limit : Nat) : Prop := ∀ n k, t.slot n = some k → n < limit

/-- A new descriptor under the number `n`. -/
def obtain (t : Table ω) (n : Nat) (o : ω) : Table ω :=
  { t with
    slot := Function.update t.slot n (some t.issued)
    issued := t.issued + 1
    owner := Function.update t.owner t.issued (some o) }

/-- A call that opens something: the number it returns, none for -1. -/
def create (t : Table ω) (limit : Nat) (o : ω) : Option Nat × Table ω :=
  match t.lowest limit with
  | some n => (some n, t.obtain n o)
  | none => (none, t)

/-- The descriptor behind `n` changes hands. -/
def transfer (t : Table ω) (n : Nat) (o : ω) : Table ω :=
  match t.slot n with
  | some k => { t with owner := Function.update t.owner k (some o) }
  | none => t

/-- `close(n)`, with its success. -/
def close (t : Table ω) (n : Nat) (closer : ω) : Bool × Table ω :=
  match t.slot n with
  | some k =>
      (true, { t with
        slot := Function.update t.slot n none
        notes := .hit k closer (t.owner k) :: t.notes })
  | none => (false, { t with notes := .miss n closer :: t.notes })

/-- How often the descriptor `k` has been closed. -/
def closes (t : Table ω) (k : Nat) : Nat := t.notes.countP (Note.isHit k)

/-- Every `close` so far was rightful. -/
def Clean (t : Table ω) : Prop := ∀ note ∈ t.notes, note.rightful

instance decidableClean [DecidableEq ω] (t : Table ω) : Decidable t.Clean :=
  inferInstanceAs (Decidable (∀ note ∈ t.notes, note.rightful))

/-- Every `close` so far met an open number, so none came twice. -/
def Exact (t : Table ω) : Prop := ∀ note ∈ t.notes, note.met = true

/-! ## §2. What the operations change. -/

variable {t : Table ω} {n m k limit : Nat} {o : ω}

theorem lowest_spec (h : t.lowest limit = some n) : t.slot n = none ∧ n < limit :=
  ⟨by simpa using List.find?_some h, List.mem_range.mp (List.mem_of_find?_eq_some h)⟩

/-- A free number below the limit means there is room. -/
theorem lowest_of_free (hn : t.slot n = none) (hlim : n < limit) :
    ∃ m, t.lowest limit = some m := by
  have h : (t.lowest limit).isSome = true := by
    rw [lowest, List.find?_isSome]
    exact ⟨n, List.mem_range.mpr hlim, by simp [hn]⟩
  exact Option.isSome_iff_exists.mp h

theorem ownerAt_of_slot (h : t.slot n = some k) : t.ownerAt n = t.owner k := by
  rw [ownerAt, h, Option.bind_some]

theorem ownerAt_eq_some : t.ownerAt n = some o ↔ ∃ k, t.slot n = some k ∧ t.owner k = some o :=
  Option.bind_eq_some_iff

theorem create_of_lowest (h : t.lowest limit = some n) :
    t.create limit o = (some n, t.obtain n o) := by
  rw [create, h]

theorem create_of_full (h : t.lowest limit = none) : t.create limit o = (none, t) := by
  rw [create, h]

/-- A number that is owned is not free. -/
theorem ne_of_ownerAt (hm : t.ownerAt m = some o) (hn : t.slot n = none) : m ≠ n := by
  intro he
  rw [he, ownerAt, hn, Option.bind_none] at hm
  exact absurd hm (by simp)

@[simp] theorem issued_obtain : (t.obtain n o).issued = t.issued + 1 := rfl
@[simp] theorem closes_obtain : (t.obtain n o).closes k = t.closes k := rfl

@[simp] theorem slot_obtain_same : (t.obtain n o).slot n = some t.issued :=
  Function.update_self n _ t.slot

theorem slot_obtain_other (h : m ≠ n) : (t.obtain n o).slot m = t.slot m :=
  Function.update_of_ne h _ t.slot

@[simp] theorem owner_obtain_same : (t.obtain n o).owner t.issued = some o :=
  Function.update_self t.issued _ t.owner

theorem owner_obtain_other (h : k ≠ t.issued) : (t.obtain n o).owner k = t.owner k :=
  Function.update_of_ne h _ t.owner

theorem transfer_of_slot (h : t.slot n = some k) :
    t.transfer n o = { t with owner := Function.update t.owner k (some o) } := by
  rw [transfer, h]

theorem owner_transfer_same (h : t.slot n = some k) : (t.transfer n o).owner k = some o := by
  rw [transfer_of_slot h]
  exact Function.update_self k _ t.owner

theorem owner_transfer_other (h : t.slot n = some k) (hm : m ≠ k) :
    (t.transfer n o).owner m = t.owner m := by
  rw [transfer_of_slot h]
  exact Function.update_of_ne hm _ t.owner

@[simp] theorem slot_transfer : (t.transfer n o).slot = t.slot := by
  unfold transfer
  split <;> rfl

@[simp] theorem issued_transfer : (t.transfer n o).issued = t.issued := by
  unfold transfer
  split <;> rfl

@[simp] theorem notes_transfer : (t.transfer n o).notes = t.notes := by
  unfold transfer
  split <;> rfl

@[simp] theorem closes_transfer : (t.transfer n o).closes k = t.closes k := by
  rw [closes, notes_transfer]
  rfl

theorem close_of_slot (h : t.slot n = some k) :
    t.close n o = (true, { t with
      slot := Function.update t.slot n none
      notes := .hit k o (t.owner k) :: t.notes }) := by
  rw [close, h]

theorem close_of_none (h : t.slot n = none) :
    t.close n o = (false, { t with notes := .miss n o :: t.notes }) := by
  rw [close, h]

@[simp] theorem issued_close : (t.close n o).2.issued = t.issued := by
  unfold close
  split <;> rfl

@[simp] theorem owner_close : (t.close n o).2.owner = t.owner := by
  unfold close
  split <;> rfl

/-- `close` succeeds on open numbers only. -/
theorem close_fst : (t.close n o).1 = (t.slot n).isSome := by
  unfold close
  split
  next k hk => rw [hk, Option.isSome_some]
  next hn => rw [hn, Option.isSome_none]

@[simp] theorem slot_close_same : (t.close n o).2.slot n = none := by
  unfold close
  split
  next => exact Function.update_self n none t.slot
  next hn => exact hn

theorem slot_close_other (h : m ≠ n) : (t.close n o).2.slot m = t.slot m := by
  unfold close
  split
  next => exact Function.update_of_ne h none t.slot
  next => rfl

theorem closes_close (h : t.slot n = some k) (j : Nat) :
    (t.close n o).2.closes j = t.closes j + if k = j then 1 else 0 := by
  rw [close_of_slot h, closes, List.countP_cons]
  simp only [Note.isHit, beq_iff_eq]
  rfl

theorem closes_close_none (h : t.slot n = none) : (t.close n o).2.closes k = t.closes k := by
  rw [close_of_none h, closes, List.countP_cons_of_neg (by simp [Note.isHit])]
  rfl

/-- **A close is rightful** exactly when the number is open and belongs to the
closer. -/
theorem clean_close : (t.close n o).2.Clean ↔ t.ownerAt n = some o ∧ t.Clean := by
  cases h : t.slot n with
  | some k =>
      rw [close_of_slot h, ownerAt_of_slot h]
      exact List.forall_mem_cons
  | none =>
      rw [close_of_none h]
      refine List.forall_mem_cons.trans (and_congr_left fun _ => ?_)
      show False ↔ t.ownerAt n = some o
      rw [ownerAt, h, Option.bind_none]
      exact ⟨False.elim, fun h' => absurd h' (by simp)⟩

/-- A close of an open number keeps the record exact. -/
theorem Exact.close (h : t.Exact) (hn : t.slot n = some k) (o : ω) : (t.close n o).2.Exact := by
  rw [close_of_slot hn]
  exact List.forall_mem_cons.mpr ⟨rfl, h⟩

@[simp] theorem clean_obtain : (t.obtain n o).Clean ↔ t.Clean := Iff.rfl

@[simp] theorem clean_create : (t.create limit o).2.Clean ↔ t.Clean := by
  unfold create
  split <;> exact Iff.rfl

@[simp] theorem clean_transfer : (t.transfer n o).Clean ↔ t.Clean := by
  rw [Clean, notes_transfer]
  exact Iff.rfl

/-! ## §3. The bookkeeping. -/

/-- Open numbers stand for different descriptors, which have not been closed;
all others given out have been closed once. -/
structure Sound (t : Table ω) : Prop where
  below : ∀ n k, t.slot n = some k → k < t.issued
  inj : ∀ n m k, t.slot n = some k → t.slot m = some k → n = m
  owned : ∀ k, k < t.issued ↔ (t.owner k).isSome = true
  unclosed : ∀ n k, t.slot n = some k → t.closes k = 0
  closed : ∀ k, k < t.issued → (∀ n, t.slot n ≠ some k) → t.closes k = 1
  unissued : ∀ k, t.issued ≤ k → t.closes k = 0

theorem Sound.empty : (Table.empty : Table ω).Sound where
  below := fun _ _ h => absurd h (by simp [Table.empty])
  inj := fun _ _ _ h => absurd h (by simp [Table.empty])
  owned := fun k => by simp [Table.empty]
  unclosed := fun _ _ h => absurd h (by simp [Table.empty])
  closed := fun k h => absurd h (Nat.not_lt_zero k)
  unissued := fun _ _ => rfl

theorem Sound.obtain (h : t.Sound) (hfree : t.slot n = none) (o : ω) :
    (t.obtain n o).Sound where
  below m j hm := by
    rw [issued_obtain]
    by_cases hmn : m = n
    · subst hmn
      rw [slot_obtain_same] at hm
      cases hm
      exact Nat.lt_succ_self t.issued
    · rw [slot_obtain_other hmn] at hm
      exact Nat.lt_succ_of_lt (h.below m j hm)
  inj m m' j hm hm' := by
    -- the new serial has not been in the table before
    have hnew : ∀ i, t.slot i ≠ some t.issued := fun i hi =>
      Nat.lt_irrefl _ (h.below i _ hi)
    by_cases hmn : m = n
    · by_cases hmn' : m' = n
      · rw [hmn, hmn']
      · subst hmn
        rw [slot_obtain_same] at hm
        rw [slot_obtain_other hmn'] at hm'
        cases hm
        exact absurd hm' (hnew m')
    · rw [slot_obtain_other hmn] at hm
      by_cases hmn' : m' = n
      · subst hmn'
        rw [slot_obtain_same] at hm'
        cases hm'
        exact absurd hm (hnew m)
      · rw [slot_obtain_other hmn'] at hm'
        exact h.inj m m' j hm hm'
  owned j := by
    rw [issued_obtain]
    by_cases hj : j = t.issued
    · subst hj
      simp
    · rw [owner_obtain_other hj, ← h.owned j]
      omega
  unclosed m j hm := by
    rw [closes_obtain]
    by_cases hmn : m = n
    · subst hmn
      rw [slot_obtain_same] at hm
      cases hm
      exact h.unissued _ (Nat.le_refl _)
    · rw [slot_obtain_other hmn] at hm
      exact h.unclosed m j hm
  closed j hj hgone := by
    rw [closes_obtain]
    have hne : j ≠ t.issued := fun he => hgone n (by rw [slot_obtain_same, he])
    rw [issued_obtain] at hj
    refine h.closed j (by omega) fun m hm => ?_
    have hmn : m ≠ n := fun he => absurd (hfree.symm.trans (he ▸ hm)) (by simp)
    exact hgone m (by rw [slot_obtain_other hmn, hm])
  unissued j hj := by
    rw [issued_obtain] at hj
    exact h.unissued j (by omega)

@[simp] theorem ownerAt_obtain_same : (t.obtain n o).ownerAt n = some o := by
  rw [ownerAt_of_slot slot_obtain_same, owner_obtain_same]

theorem Sound.ownerAt_obtain_other (h : t.Sound) (hm : m ≠ n) :
    (t.obtain n o).ownerAt m = t.ownerAt m := by
  unfold ownerAt
  rw [slot_obtain_other hm]
  cases hslot : t.slot m with
  | none => rfl
  | some k =>
      have hk : k ≠ t.issued := Nat.ne_of_lt (h.below m k hslot)
      rw [Option.bind_some, Option.bind_some, owner_obtain_other hk]

@[simp] theorem ownerAt_close_same : (t.close n o).2.ownerAt n = none := by
  rw [ownerAt, slot_close_same, Option.bind_none]

theorem ownerAt_close_other (hm : m ≠ n) : (t.close n o).2.ownerAt m = t.ownerAt m := by
  rw [ownerAt, slot_close_other hm, owner_close]
  rfl

theorem ownerAt_transfer_same (hn : t.slot n = some k) : (t.transfer n o).ownerAt n = some o := by
  rw [ownerAt, slot_transfer, hn, Option.bind_some, owner_transfer_same hn]

theorem Sound.ownerAt_transfer_other (h : t.Sound) (hm : m ≠ n) :
    (t.transfer n o).ownerAt m = t.ownerAt m := by
  cases hn : t.slot n with
  | none => rw [Table.transfer, hn]
  | some k =>
      unfold ownerAt
      rw [slot_transfer]
      cases hslot : t.slot m with
      | none => rfl
      | some j =>
          have hj : j ≠ k := fun he => hm (h.inj m n j hslot (he ▸ hn))
          rw [Option.bind_some, Option.bind_some, owner_transfer_other hn hj]

theorem Sound.transfer (h : t.Sound) (n : Nat) (o : ω) : (t.transfer n o).Sound where
  below m j hm := by
    rw [slot_transfer] at hm
    rw [issued_transfer]
    exact h.below m j hm
  inj m m' j hm hm' := by
    rw [slot_transfer] at hm hm'
    exact h.inj m m' j hm hm'
  owned j := by
    rw [issued_transfer, h.owned j]
    cases hn : t.slot n with
    | none => rw [Table.transfer, hn]
    | some k =>
        by_cases hj : j = k
        · subst hj
          rw [owner_transfer_same hn, Option.isSome_some, ← h.owned j]
          exact ⟨fun _ => rfl, fun _ => h.below n j hn⟩
        · rw [owner_transfer_other hn hj]
  unclosed m j hm := by
    rw [slot_transfer] at hm
    rw [closes_transfer]
    exact h.unclosed m j hm
  closed j hj hgone := by
    rw [issued_transfer] at hj
    rw [slot_transfer] at hgone
    rw [closes_transfer]
    exact h.closed j hj hgone
  unissued j hj := by
    rw [issued_transfer] at hj
    rw [closes_transfer]
    exact h.unissued j hj

theorem Sound.close (h : t.Sound) (n : Nat) (o : ω) : (t.close n o).2.Sound := by
  cases hn : t.slot n with
  | none =>
      -- a miss changes nothing but the notes
      have hslot : (t.close n o).2.slot = t.slot := by rw [close_of_none hn]
      have hcloses : ∀ j, (t.close n o).2.closes j = t.closes j := fun j => closes_close_none hn
      refine ⟨?_, ?_, ?_, ?_, ?_, ?_⟩
      · rw [hslot, issued_close]
        exact h.below
      · rw [hslot]
        exact h.inj
      · rw [issued_close, owner_close]
        exact h.owned
      · simp only [hslot, hcloses]
        exact h.unclosed
      · simp only [hslot, hcloses, issued_close]
        exact h.closed
      · simp only [hcloses, issued_close]
        exact h.unissued
  | some k =>
      have hold : ∀ m j, (t.close n o).2.slot m = some j → m ≠ n ∧ t.slot m = some j := by
        intro m j hm
        by_cases hmn : m = n
        · rw [hmn, slot_close_same] at hm
          exact absurd hm (by simp)
        · exact ⟨hmn, by rwa [slot_close_other hmn] at hm⟩
      -- `k` stood behind `n` alone
      have hother : ∀ m j, (t.close n o).2.slot m = some j → k ≠ j := by
        intro m j hm hkj
        obtain ⟨hmn, hm⟩ := hold m j hm
        exact hmn (h.inj m n j hm (hkj ▸ hn))
      refine ⟨?_, ?_, ?_, ?_, ?_, ?_⟩
      · intro m j hm
        rw [issued_close]
        exact h.below m j (hold m j hm).2
      · intro m m' j hm hm'
        exact h.inj m m' j (hold m j hm).2 (hold m' j hm').2
      · rw [issued_close, owner_close]
        exact h.owned
      · intro m j hm
        rw [closes_close hn, if_neg (hother m j hm)]
        exact h.unclosed m j (hold m j hm).2
      · intro j hj hgone
        rw [issued_close] at hj
        rw [closes_close hn]
        by_cases hkj : k = j
        · subst hkj
          rw [if_pos rfl, h.unclosed n k hn]
        · rw [if_neg hkj]
          refine h.closed j hj fun m hm => ?_
          have hmn : m ≠ n := fun he => hkj (Option.some.inj ((he ▸ hn).symm.trans hm))
          exact hgone m (by rw [slot_close_other hmn, hm])
      · intro j hj
        rw [issued_close] at hj
        have hkj : k ≠ j := fun he => absurd (h.below n k hn) (by omega)
        rw [closes_close hn, if_neg hkj]
        exact h.unissued j hj

/-- A descriptor closed once is not closed again. -/
theorem Sound.closes_close_of_closed (h : t.Sound) (hk : t.closes k = 1) (n : Nat) (o : ω) :
    (t.close n o).2.closes k = 1 := by
  cases hn : t.slot n with
  | none => rw [closes_close_none hn, hk]
  | some j =>
      have hjk : j ≠ k := by
        intro he
        have h0 := h.unclosed n j hn
        rw [he, hk] at h0
        exact absurd h0 (by decide)
      rw [closes_close hn, if_neg hjk, hk]

/-! ## §4. Operations that concern some owners only. -/

/-- From `t` to `t'`, in a process that keeps to `limit`, nothing happened to the
descriptors of any owner that is not `touched`. -/
structure Moves (limit : Nat) (touched : ω → Prop) (t t' : Table ω) : Prop where
  sound : t'.Sound
  within : t.Within limit → t'.Within limit
  issued : t.issued ≤ t'.issued
  owner : ∀ k o, ¬ touched o → (t'.owner k = some o ↔ t.owner k = some o)
  slot : ∀ n k o, ¬ touched o → t.owner k = some o → t.slot n = some k → t'.slot n = some k
  closed : ∀ k, t.closes k = 1 → t'.closes k = 1

namespace Moves

variable {touched : ω → Prop} {t' t'' : Table ω}

/-- The frame rule: such an owner still has what it had. -/
theorem ownerAt (h : Moves limit touched t t') (ho : ¬ touched o) (hn : t.ownerAt n = some o) :
    t'.ownerAt n = some o := by
  obtain ⟨k, hslot, howner⟩ := ownerAt_eq_some.mp hn
  exact ownerAt_eq_some.mpr ⟨k, h.slot n k o ho howner hslot, (h.owner k o ho).mpr howner⟩

/-- Touching more owners promises less. -/
theorem mono {wider : ω → Prop} (h : Moves limit touched t t') (hsub : ∀ o, touched o → wider o) :
    Moves limit wider t t' where
  sound := h.sound
  within := h.within
  issued := h.issued
  owner := fun k o ho => h.owner k o (mt (hsub o) ho)
  slot := fun n k o ho => h.slot n k o (mt (hsub o) ho)
  closed := h.closed

theorem refl (h : t.Sound) : Moves limit touched t t where
  sound := h
  within := id
  issued := Nat.le_refl _
  owner := fun _ _ _ => Iff.rfl
  slot := fun _ _ _ _ _ h => h
  closed := fun _ h => h

theorem trans (h : Moves limit touched t t') (h' : Moves limit touched t' t'') :
    Moves limit touched t t'' where
  sound := h'.sound
  within := fun hw => h'.within (h.within hw)
  issued := Nat.le_trans h.issued h'.issued
  owner := fun k o ho => (h'.owner k o ho).trans (h.owner k o ho)
  slot := fun n k o ho howner hn =>
    h'.slot n k o ho ((h.owner k o ho).mpr howner) (h.slot n k o ho howner hn)
  closed := fun k hk => h'.closed k (h.closed k hk)

theorem obtain (h : t.Sound) (hfree : t.slot n = none) (hlim : n < limit) (ho : touched o) :
    Moves limit touched t (t.obtain n o) where
  sound := h.obtain hfree o
  within := by
    intro hw m k hm
    by_cases hmn : m = n
    · exact hmn ▸ hlim
    · rw [slot_obtain_other hmn] at hm
      exact hw m k hm
  issued := Nat.le_succ _
  owner := by
    intro k p hp
    by_cases hk : k = t.issued
    · subst hk
      -- nobody owned the new serial before
      have hnone : t.owner t.issued = none := by
        rw [← Option.not_isSome_iff_eq_none, ← h.owned t.issued]
        exact Nat.lt_irrefl _
      rw [owner_obtain_same, hnone]
      constructor
      · intro he
        cases he
        exact absurd ho hp
      · exact fun he => absurd he (by simp)
    · rw [owner_obtain_other hk]
  slot := by
    intro m k p _ _ hm
    have hmn : m ≠ n := fun he => absurd (hfree.symm.trans (he ▸ hm)) (by simp)
    rw [slot_obtain_other hmn, hm]
  closed := fun _ hk => hk

theorem create (h : t.Sound) (ho : touched o) : Moves limit touched t (t.create limit o).2 := by
  cases hl : t.lowest limit with
  | none =>
      rw [create_of_full hl]
      exact refl h
  | some n =>
      obtain ⟨hfree, hlim⟩ := lowest_spec hl
      rw [create_of_lowest hl]
      exact Moves.obtain h hfree hlim ho

theorem close (h : t.Sound) (hn : ∀ p, t.ownerAt n = some p → touched p) (closer : ω) :
    Moves limit touched t (t.close n closer).2 where
  sound := h.close n closer
  within := by
    intro hw m k hm
    by_cases hmn : m = n
    · rw [hmn, slot_close_same] at hm
      exact absurd hm (by simp)
    · rw [slot_close_other hmn] at hm
      exact hw m k hm
  issued := Nat.le_of_eq issued_close.symm
  owner := by
    intro k p _
    rw [owner_close]
  slot := by
    intro m k p hp howner hm
    have hmn : m ≠ n := by
      intro he
      exact hp (hn p (ownerAt_eq_some.mpr ⟨k, he ▸ hm, howner⟩))
    rw [slot_close_other hmn, hm]
  closed := fun k hk => h.closes_close_of_closed hk n closer

end Moves

end Table

/-! ## §5. Who holds the open numbers. -/

/-- Of the holders `objs` each has an open number of its own; the open numbers
nobody has are `spare`. -/
structure Holds {H : Type*} (spare : Nat → Prop) (isOpen : Nat → Bool) (objs : H → Option Nat) :
    Prop where
  covered : ∀ n, isOpen n = true ↔ (∃ a, objs a = some n) ∨ spare n
  uniq : ∀ a b n, objs a = some n → objs b = some n → a = b
  alone : ∀ a n, objs a = some n → ¬ spare n

namespace Holds

variable {H : Type*} {spare : Nat → Prop} {isOpen : Nat → Bool} {objs : H → Option Nat}
  {a : H} {n : Nat}

theorem open_of (h : Holds spare isOpen objs) (ha : objs a = some n) : isOpen n = true :=
  (h.covered n).mpr (Or.inl ⟨a, ha⟩)

/-- A number that is not open has no holder and is not spare. -/
theorem closed_of (h : Holds spare isOpen objs) (hn : isOpen n = false) :
    (∀ a, objs a ≠ some n) ∧ ¬ spare n := by
  have hno := mt (h.covered n).mpr (by simp [hn])
  exact ⟨fun a ha => hno (Or.inl ⟨a, ha⟩), fun hs => hno (Or.inr hs)⟩

/-- A number is opened, for nobody yet. -/
theorem obtain (h : Holds spare isOpen objs) (hn : isOpen n = false) :
    Holds (fun m => m = n ∨ spare m) (Function.update isOpen n true) objs where
  covered m := by
    by_cases hm : m = n
    · subst hm
      rw [Function.update_self]
      exact ⟨fun _ => Or.inr (Or.inl rfl), fun _ => rfl⟩
    · rw [Function.update_of_ne hm, h.covered m]
      simp only [hm, false_or]
  uniq := h.uniq
  alone b m hb := by
    rintro (rfl | hs)
    · exact (h.closed_of hn).1 b hb
    · exact h.alone b m hb hs

/-- A number nobody has is closed. -/
theorem close (h : Holds (fun m => m = n ∨ spare m) isOpen objs) (hn : ¬ spare n) :
    Holds spare (Function.update isOpen n false) objs where
  covered m := by
    by_cases hm : m = n
    · subst hm
      rw [Function.update_self]
      refine ⟨fun he => absurd he (by simp), ?_⟩
      rintro (⟨b, hb⟩ | hs)
      · exact absurd (Or.inl rfl) (h.alone b m hb)
      · exact absurd hs hn
    · rw [Function.update_of_ne hm, h.covered m]
      simp only [hm, false_or]
  uniq := h.uniq
  alone b m hb hs := h.alone b m hb (Or.inr hs)

variable [DecidableEq H]

/-- A spare number gets a holder that had none. -/
theorem take (h : Holds (fun m => m = n ∨ spare m) isOpen objs) (hn : ¬ spare n)
    (ha : objs a = none) : Holds spare isOpen (Function.update objs a (some n)) where
  covered m := by
    rw [h.covered m]
    constructor
    · rintro (⟨b, hb⟩ | rfl | hs)
      · have hba : b ≠ a := fun he => absurd (ha.symm.trans (he ▸ hb)) (by simp)
        exact Or.inl ⟨b, by rw [Function.update_of_ne hba, hb]⟩
      · exact Or.inl ⟨a, Function.update_self ..⟩
      · exact Or.inr hs
    · rintro (⟨b, hb⟩ | hs)
      · by_cases hba : b = a
        · subst hba
          rw [Function.update_self, Option.some.injEq] at hb
          exact Or.inr (Or.inl hb.symm)
        · rw [Function.update_of_ne hba] at hb
          exact Or.inl ⟨b, hb⟩
      · exact Or.inr (Or.inr hs)
  uniq b c m hb hc := by
    -- nobody else has `n`
    have hother : ∀ d, d ≠ a → objs d ≠ some n := fun d _ hd => h.alone d n hd (Or.inl rfl)
    by_cases hba : b = a
    · by_cases hca : c = a
      · rw [hba, hca]
      · rw [hba, Function.update_self, Option.some.injEq] at hb
        rw [Function.update_of_ne hca, ← hb] at hc
        exact absurd hc (hother c hca)
    · rw [Function.update_of_ne hba] at hb
      by_cases hca : c = a
      · rw [hca, Function.update_self, Option.some.injEq] at hc
        exact absurd (hc ▸ hb) (hother b hba)
      · rw [Function.update_of_ne hca] at hc
        exact h.uniq b c m hb hc
  alone b m hb := by
    by_cases hba : b = a
    · rw [hba, Function.update_self, Option.some.injEq] at hb
      exact hb ▸ hn
    · rw [Function.update_of_ne hba] at hb
      exact fun hs => h.alone b m hb (Or.inr hs)

/-- A holder goes and leaves its number open. -/
theorem give (h : Holds spare isOpen objs) (ha : objs a = some n) :
    Holds (fun m => m = n ∨ spare m) isOpen (Function.update objs a none) where
  covered m := by
    rw [h.covered m]
    constructor
    · rintro (⟨b, hb⟩ | hs)
      · by_cases hba : b = a
        · subst hba
          exact Or.inr (Or.inl (Option.some.inj (hb.symm.trans ha)))
        · exact Or.inl ⟨b, by rw [Function.update_of_ne hba, hb]⟩
      · exact Or.inr (Or.inr hs)
    · rintro (⟨b, hb⟩ | rfl | hs)
      · by_cases hba : b = a
        · rw [hba, Function.update_self] at hb
          exact absurd hb (by simp)
        · rw [Function.update_of_ne hba] at hb
          exact Or.inl ⟨b, hb⟩
      · exact Or.inl ⟨a, ha⟩
      · exact Or.inr hs
  uniq b c m hb hc := by
    by_cases hba : b = a
    · rw [hba, Function.update_self] at hb
      exact absurd hb (by simp)
    · by_cases hca : c = a
      · rw [hca, Function.update_self] at hc
        exact absurd hc (by simp)
      · rw [Function.update_of_ne hba] at hb
        rw [Function.update_of_ne hca] at hc
        exact h.uniq b c m hb hc
  alone b m hb := by
    by_cases hba : b = a
    · rw [hba, Function.update_self] at hb
      exact absurd hb (by simp)
    · rw [Function.update_of_ne hba] at hb
      rintro (rfl | hs)
      · exact hba (h.uniq b a m hb ha)
      · exact h.alone b m hb hs

end Holds

end Descriptors
