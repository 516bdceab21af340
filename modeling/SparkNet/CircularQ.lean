/-
  SparkNet.CircularQ — the ring the log messages wait in.

  `circular_q` of the bundled `spdlog` (`include/spdlog/details/circular_q.h`)
  keeps its items between `head_` and `tail_` in a vector with one slot to spare:
  the spare slot tells a full queue from an empty one.  A push into a full queue
  overruns the oldest item and counts it.

  Main result:
    * `circularQ_refines` — over any run, the ring is the list queue that drops
      its oldest item when it is full.
-/
import SparkNet.Ring
import SparkNet.Runs

namespace SparkNet

open Runs

variable {α : Type*}

/-! ## §1. `circular_q`. -/

structure CircularQ (α : Type*) where
  maxItems : Nat
  head : Nat
  tail : Nat
  overrunCounter : Nat
  v : List α
  deriving Repr

namespace CircularQ

/-- The constructor: one slot is the marker of a full queue. -/
def new [Inhabited α] (maxItems : Nat) : CircularQ α :=
  ⟨maxItems + 1, 0, 0, 0, List.replicate (maxItems + 1) default⟩

/-- `push_back`. -/
def pushBack (self : CircularQ α) (item : α) : CircularQ α :=
  if 0 < self.maxItems then
    let tail := (self.tail + 1) % self.maxItems
    let self := { self with v := self.v.set self.tail item, tail := tail }
    -- overrun the oldest item if there was no room
    if self.tail = self.head then
      { self with
        head := (self.head + 1) % self.maxItems, overrunCounter := self.overrunCounter + 1 }
    else self
  else self

/-- `v_[i]`. -/
def cells [Inhabited α] (self : CircularQ α) (i : Nat) : α := self.v.getD i default

def front [Inhabited α] (self : CircularQ α) : α := self.cells self.head

def size (self : CircularQ α) : Nat :=
  if self.head ≤ self.tail then self.tail - self.head
  else self.maxItems - (self.head - self.tail)

/-- `at`. -/
def at_ [Inhabited α] (self : CircularQ α) (i : Nat) : α :=
  self.cells ((self.head + i) % self.maxItems)

def popFront (self : CircularQ α) : CircularQ α :=
  { self with head := (self.head + 1) % self.maxItems }

def empty (self : CircularQ α) : Bool := self.tail == self.head

def full (self : CircularQ α) : Bool :=
  if 0 < self.maxItems then (self.tail + 1) % self.maxItems == self.head else false

/-! ## §2. How many it holds. -/

/-- How many items fit. -/
def capacity (self : CircularQ α) : Nat := self.maxItems - 1

/-- A queue that was made with slots. -/
structure Valid (q : CircularQ α) : Prop where
  slots : q.v.length = q.maxItems
  head_lt : q.head < q.maxItems
  tail_lt : q.tail < q.maxItems

variable {q : CircularQ α}

theorem size_eq_gap (q : CircularQ α) : q.size = Ring.gap q.maxItems q.head q.tail := rfl

theorem Valid.size_lt (h : q.Valid) : q.size < q.maxItems := Ring.gap_lt h.head_lt h.tail_lt

theorem Valid.size_le (h : q.Valid) : q.size ≤ q.capacity := by
  have := h.size_lt
  unfold capacity
  omega

theorem Valid.tail_eq (h : q.Valid) : (q.head + q.size) % q.maxItems = q.tail :=
  Ring.offset_gap h.head_lt h.tail_lt

/-- One slot behind the tail. -/
theorem Valid.tail_succ (h : q.Valid) :
    (q.tail + 1) % q.maxItems = (q.head + (q.size + 1)) % q.maxItems := by
  rw [← h.tail_eq, Ring.step_offset]

theorem Valid.tail_succ_ne (h : q.Valid) (hroom : q.size < q.capacity) :
    (q.tail + 1) % q.maxItems ≠ q.head := by
  have hcap : q.size + 1 < q.maxItems := by
    unfold capacity at hroom
    omega
  intro heq
  rw [h.tail_succ] at heq
  have hgap := Ring.gap_offset h.head_lt hcap
  rw [heq] at hgap
  simp [Ring.gap] at hgap

theorem Valid.tail_succ_eq (h : q.Valid) (hfull : q.size = q.capacity) :
    (q.tail + 1) % q.maxItems = q.head := by
  have hcap : q.size + 1 = q.maxItems := by
    have := h.head_lt
    unfold capacity at hfull
    omega
  rw [h.tail_succ, hcap, Nat.add_mod_right]
  exact Nat.mod_eq_of_lt h.head_lt

/-- **`full`** tells. -/
theorem Valid.full_iff (h : q.Valid) : q.full = true ↔ q.size = q.capacity := by
  have hpos : 0 < q.maxItems := Nat.zero_lt_of_lt h.head_lt
  unfold full
  rw [if_pos hpos, beq_iff_eq]
  constructor
  · intro heq
    by_contra hne
    exact h.tail_succ_ne (lt_of_le_of_ne h.size_le hne) heq
  · exact h.tail_succ_eq

theorem Valid.full_eq_false_iff (h : q.Valid) : q.full = false ↔ q.size < q.capacity := by
  have := h.size_le
  rw [← Bool.not_eq_true, h.full_iff]
  omega

/-! ## §3. The operations. -/

@[simp] theorem capacity_pushBack (q : CircularQ α) (item : α) :
    (q.pushBack item).capacity = q.capacity := by
  unfold pushBack capacity
  dsimp only
  split
  · split <;> rfl
  · rfl

/-- A push where there is room. -/
theorem Valid.pushBack_room (h : q.Valid) (hroom : q.size < q.capacity) (item : α) :
    q.pushBack item
      = { q with v := q.v.set q.tail item, tail := (q.tail + 1) % q.maxItems } := by
  unfold pushBack
  rw [if_pos (Nat.zero_lt_of_lt h.head_lt)]
  exact if_neg (h.tail_succ_ne hroom)

/-- A push into a full queue. -/
theorem Valid.pushBack_full (h : q.Valid) (hfull : q.size = q.capacity) (item : α) :
    q.pushBack item
      = { q with
          v := q.v.set q.tail item, tail := (q.tail + 1) % q.maxItems
          head := (q.head + 1) % q.maxItems, overrunCounter := q.overrunCounter + 1 } := by
  unfold pushBack
  rw [if_pos (Nat.zero_lt_of_lt h.head_lt)]
  exact if_pos (h.tail_succ_eq hfull)

theorem Valid.pushBack (h : q.Valid) (item : α) : (q.pushBack item).Valid := by
  have hpos : 0 < q.maxItems := Nat.zero_lt_of_lt h.head_lt
  rcases h.size_le.lt_or_eq with hroom | hfull
  · rw [h.pushBack_room hroom]
    exact ⟨(List.length_set).trans h.slots, h.head_lt, Nat.mod_lt _ hpos⟩
  · rw [h.pushBack_full hfull]
    exact ⟨(List.length_set).trans h.slots, Nat.mod_lt _ hpos, Nat.mod_lt _ hpos⟩

theorem Valid.popFront (h : q.Valid) : q.popFront.Valid :=
  ⟨h.slots, Nat.mod_lt _ (Nat.zero_lt_of_lt h.head_lt), h.tail_lt⟩

/-- What was overrun is counted. -/
theorem Valid.overrunCounter_pushBack (h : q.Valid) (item : α) :
    (q.pushBack item).overrunCounter
      = q.overrunCounter + (q.size + 1 - q.capacity) := by
  rcases h.size_le.lt_or_eq with hroom | hfull
  · rw [h.pushBack_room hroom, show q.size + 1 - q.capacity = 0 by omega]
    rfl
  · rw [h.pushBack_full hfull, show q.size + 1 - q.capacity = 1 by omega]

/-! ## §4. What it holds. -/

variable [Inhabited α]

/-- The items, the oldest first. -/
def contents (self : CircularQ α) : List α :=
  Ring.window self.cells self.maxItems self.head self.size

@[simp] theorem length_contents (q : CircularQ α) : q.contents.length = q.size := by
  simp [contents]

/-- **`empty`** tells. -/
theorem Valid.empty_iff (h : q.Valid) : q.empty = true ↔ q.contents = [] := by
  have h₁ := h.head_lt
  have h₂ := h.tail_lt
  rw [← List.length_eq_zero_iff, length_contents]
  unfold empty size
  rw [beq_iff_eq]
  split <;> omega

theorem contents_at {i : Nat} (hi : i < q.size) : q.contents[i]? = some (q.at_ i) :=
  Ring.getElem?_window hi

theorem cells_set (h : q.tail < q.v.length) (item : α) (i : Nat) :
    (q.v.set q.tail item).getD i default = Function.update q.cells q.tail item i := by
  unfold cells
  by_cases heq : q.tail = i
  · subst heq
    simp [h]
  · rw [Function.update_of_ne (Ne.symm heq)]
    simp [List.getD_eq_getElem?_getD, heq]

theorem valid_new (n : Nat) : (new n : CircularQ α).Valid :=
  ⟨List.length_replicate, Nat.succ_pos n, Nat.succ_pos n⟩

/-- The window over the slots just written, from the old head on. -/
theorem Valid.window_pushed (h : q.Valid) (item : α) :
    Ring.window (fun i => (q.v.set q.tail item).getD i default) q.maxItems q.head (q.size + 1)
      = q.contents ++ [item] := by
  have hcells : (fun i => (q.v.set q.tail item).getD i default)
      = Function.update q.cells ((q.head + q.size) % q.maxItems) item := by
    funext i
    rw [h.tail_eq]
    exact cells_set (h.slots ▸ h.tail_lt) item i
  rw [hcells]
  exact Ring.window_write h.size_lt item

/-- **`push_back`** appends, and drops the oldest item when there is no room. -/
theorem Valid.contents_pushBack (h : q.Valid) (item : α) :
    (q.pushBack item).contents
      = (q.contents ++ [item]).drop (q.size + 1 - q.capacity) := by
  have hsize := h.size_lt
  rcases h.size_le.lt_or_eq with hroom | hfull
  · have hlt : q.size + 1 < q.maxItems := by
      unfold capacity at hroom
      omega
    have hnew : (q.pushBack item).size = q.size + 1 := by
      rw [h.pushBack_room hroom, size_eq_gap]
      show Ring.gap q.maxItems q.head ((q.tail + 1) % q.maxItems) = _
      rw [h.tail_succ, Ring.gap_offset h.head_lt hlt]
    rw [contents, hnew, show q.size + 1 - q.capacity = 0 by omega, List.drop_zero,
      ← h.window_pushed item, h.pushBack_room hroom]
    rfl
  · have hcap : q.size + 1 = q.maxItems := by
      unfold capacity at hfull
      omega
    have hnew : (q.pushBack item).size = q.size := by
      rw [h.pushBack_full hfull, size_eq_gap]
      show Ring.gap q.maxItems ((q.head + 1) % q.maxItems) ((q.tail + 1) % q.maxItems) = _
      rw [h.tail_succ, ← Ring.offset_step q.head q.size]
      exact Ring.gap_offset (Nat.mod_lt _ (by omega)) hsize
    rw [contents, hnew, show q.size + 1 - q.capacity = 1 by omega, ← h.window_pushed item,
      Ring.window_tail h.head_lt, List.drop_one, List.tail_cons, h.pushBack_full hfull]
    rfl

/-- **`front` and `pop_front`** take the oldest item. -/
theorem Valid.contents_eq_cons (h : q.Valid) (hne : q.empty = false) :
    q.contents = q.front :: q.popFront.contents := by
  have hpos : 0 < q.size := by
    rw [← length_contents]
    apply List.length_pos_of_ne_nil
    rw [Ne, ← h.empty_iff, hne]
    exact Bool.false_ne_true
  obtain ⟨n, hn⟩ : ∃ n, q.size = n + 1 := ⟨q.size - 1, by omega⟩
  have hsize := h.size_lt
  have hpop : q.popFront.size = n := by
    rw [size_eq_gap]
    show Ring.gap q.maxItems ((q.head + 1) % q.maxItems) q.tail = n
    rw [← h.tail_eq, hn, ← Ring.offset_step q.head n]
    exact Ring.gap_offset (Nat.mod_lt _ (by omega)) (by omega)
  rw [contents, hn, Ring.window_tail h.head_lt, contents, hpop]
  rfl

theorem Valid.size_pushBack (h : q.Valid) (item : α) :
    (q.pushBack item).size = q.size + 1 - (q.size + 1 - q.capacity) := by
  rw [← length_contents, h.contents_pushBack, List.length_drop, List.length_append,
    length_contents, List.length_singleton]

theorem Valid.size_popFront (h : q.Valid) (hne : q.empty = false) :
    q.size = q.popFront.size + 1 := by
  rw [← length_contents, h.contents_eq_cons hne, List.length_cons, length_contents]

end CircularQ

/-! ## §5. The list queue. -/

/-- A queue that drops its oldest item when it is full. -/
structure Fifo (α : Type*) where
  capacity : Nat
  items : List α
  dropped : Nat
  taken : List α

inductive QueueOp (α : Type*) where
  | pushBack (item : α)
  | popFront

def QueueOp.pushed : QueueOp α → List α
  | .pushBack item => [item]
  | .popFront => []

namespace Fifo

def step (s : Fifo α) : QueueOp α → Option (Fifo α)
  | .pushBack item =>
      let excess := s.items.length + 1 - s.capacity
      some { s with items := (s.items ++ [item]).drop excess, dropped := s.dropped + excess }
  | .popFront => match s.items with
      | [] => none
      | item :: items => some { s with items := items, taken := s.taken ++ [item] }

/-- Of what was pushed, all but the dropped items are there, in order. -/
structure Kept (given : List α) (s : Fifo α) : Prop where
  sublist : (s.taken ++ s.items).Sublist given
  count : given.length = s.taken.length + s.items.length + s.dropped

theorem kept_step {given : List α} {s s' : Fifo α} {op : QueueOp α} (h : Kept given s)
    (hstep : s.step op = some s') : Kept (given ++ op.pushed) s' := by
  obtain ⟨hsub, hcount⟩ := h
  cases op with
  | pushBack item =>
      cases hstep
      constructor
      · show (s.taken ++ (s.items ++ [item]).drop _).Sublist (given ++ [item])
        have hdrop := (List.drop_sublist (s.items.length + 1 - s.capacity)
          (s.items ++ [item])).append_left s.taken
        apply hdrop.trans
        rw [← List.append_assoc]
        exact hsub.append_right [item]
      · simp only [QueueOp.pushed, List.length_append, List.length_drop, List.length_singleton]
        omega
  | popFront =>
      simp only [step] at hstep
      split at hstep
      · cases hstep
      · rename_i item items hitems
        cases hstep
        rw [hitems] at hsub hcount
        constructor
        · simpa [QueueOp.pushed] using hsub
        · simp only [QueueOp.pushed, List.append_nil, List.length_append, List.length_cons,
            List.length_nil] at hcount ⊢
          omega

theorem kept_exec {ops : List (QueueOp α)} :
    ∀ {given : List α} {s s' : Fifo α}, Kept given s → exec step s ops = some s' →
      Kept (given ++ ops.flatMap QueueOp.pushed) s' := by
  induction ops with
  | nil =>
      intro given s s' h hrun
      cases hrun
      simpa using h
  | cons op ops ih =>
      intro given s s' h hrun
      obtain ⟨s₁, h1, h2⟩ := exec_cons_eq_some.mp hrun
      rw [List.flatMap_cons, ← List.append_assoc]
      exact ih (kept_step h h1) h2

end Fifo

namespace CircularQ

variable [Inhabited α]

/-- The ring, and what was taken from its front.  It must not be asked for the
front of an empty queue. -/
def step (s : CircularQ α × List α) : QueueOp α → Option (CircularQ α × List α)
  | .pushBack item => some (s.1.pushBack item, s.2)
  | .popFront => if s.1.empty then none else some (s.1.popFront, s.2 ++ [s.1.front])

/-- The queue a ring stands for. -/
def toFifo (s : CircularQ α × List α) : Fifo α :=
  ⟨s.1.capacity, s.1.contents, s.1.overrunCounter, s.2⟩

theorem valid_step {s s' : CircularQ α × List α} {op : QueueOp α} (h : s.1.Valid)
    (hstep : step s op = some s') : s'.1.Valid := by
  cases op with
  | pushBack item =>
      cases hstep
      exact h.pushBack item
  | popFront =>
      obtain ⟨_, hstep⟩ := Option.ite_none_left_eq_some.mp hstep
      cases hstep
      exact h.popFront

theorem toFifo_step {s s' : CircularQ α × List α} {op : QueueOp α} (h : s.1.Valid)
    (hstep : step s op = some s') : (toFifo s).step op = some (toFifo s') := by
  cases op with
  | pushBack item =>
      cases hstep
      simp only [toFifo, Fifo.step, length_contents, capacity_pushBack, h.contents_pushBack,
        h.overrunCounter_pushBack]
  | popFront =>
      obtain ⟨hne, hstep⟩ := Option.ite_none_left_eq_some.mp hstep
      cases hstep
      simp only [toFifo, Fifo.step, h.contents_eq_cons (Bool.eq_false_of_not_eq_true hne)]
      rfl

theorem valid_exec {ops : List (QueueOp α)} {s s' : CircularQ α × List α} (h : s.1.Valid)
    (hrun : exec step s ops = some s') : s'.1.Valid :=
  exec_invariant (I := fun s => s.1.Valid) (fun _ _ _ => valid_step) h hrun

/-- **The ring is a queue.**  Whatever is pushed into a ring of any capacity and
popped from it, it goes step by step with the list queue of that capacity; its
`size`, `full`, `empty` and `at` tell what the list is; and what was taken and
what is left are what was pushed, in order, but for the items its counter
counts. -/
theorem circularQ_refines (n : Nat) (ops : List (QueueOp α)) (q : CircularQ α) (taken : List α)
    (hrun : exec step (new n, []) ops = some (q, taken)) :
    exec Fifo.step ⟨n, [], 0, []⟩ ops = some ⟨n, q.contents, q.overrunCounter, taken⟩
      ∧ q.size = q.contents.length ∧ q.size ≤ n
      ∧ (q.full = true ↔ q.size = n) ∧ (q.empty = true ↔ q.contents = [])
      ∧ (∀ i < q.size, q.contents[i]? = some (q.at_ i))
      ∧ (taken ++ q.contents).Sublist (ops.flatMap QueueOp.pushed)
      ∧ (ops.flatMap QueueOp.pushed).length
          = taken.length + q.contents.length + q.overrunCounter := by
  have hvalid := valid_exec (valid_new n) hrun
  have hsim : exec Fifo.step (toFifo (new n, [])) ops = some (toFifo (q, taken)) :=
    exec_refines (I := fun s => s.1.Valid) (fun _ _ _ => valid_step) (fun _ _ _ => toFifo_step)
      (valid_new n) hrun
  have hcap : q.capacity = n := by
    have h : ∀ (s : CircularQ α × List α) (op : QueueOp α) (s' : CircularQ α × List α),
        s.1.capacity = n → step s op = some s' → s'.1.capacity = n := by
      intro s op s' hn hstep
      cases op with
      | pushBack item =>
          cases hstep
          exact (capacity_pushBack _ _).trans hn
      | popFront =>
          obtain ⟨_, hstep⟩ := Option.ite_none_left_eq_some.mp hstep
          cases hstep
          exact hn
    exact exec_invariant (I := fun s => s.1.capacity = n) h rfl hrun
  have hkept : Fifo.Kept ([] ++ ops.flatMap QueueOp.pushed) (toFifo (q, taken)) :=
    Fifo.kept_exec ⟨List.Sublist.refl _, rfl⟩ hsim
  have hfifo : toFifo (q, taken) = ⟨n, q.contents, q.overrunCounter, taken⟩ := by
    simp [toFifo, hcap]
  have hsize := hvalid.size_le
  have hfull := hvalid.full_iff
  rw [hcap] at hsize hfull
  refine ⟨hfifo ▸ hsim, (length_contents q).symm, hsize, hfull, hvalid.empty_iff,
    fun i hi => contents_at hi, hkept.sublist, hkept.count⟩

/-- The theorem on a run: three items into a ring of two, and one out. -/
theorem circularQ_refines_on_overrun :
    ∃ q taken, exec step ((new 2 : CircularQ Nat), [])
        [.pushBack 1, .pushBack 2, .pushBack 3, .popFront] = some (q, taken)
      ∧ q.contents = [3] ∧ taken = [2] ∧ q.overrunCounter = 1 := by
  obtain ⟨⟨q, taken⟩, hrun⟩ := Option.isSome_iff_exists.mp
    (show (exec step ((new 2 : CircularQ Nat), [])
      [.pushBack 1, .pushBack 2, .pushBack 3, .popFront]).isSome = true by decide)
  have h := (circularQ_refines 2 _ q taken hrun).1
  have heq : (⟨2, q.contents, q.overrunCounter, taken⟩ : Fifo Nat) = ⟨2, [3], 1, [2]⟩ :=
    Option.some.inj (h.symm.trans rfl)
  injection heq with _ hitems hcount htaken
  exact ⟨q, taken, hrun, hitems, htaken, hcount⟩

end CircularQ

end SparkNet
