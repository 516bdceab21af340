/-
  SparkNet.Ring — slots in a circle.

  A queue kept in `cap` slots that wrap around: what stands `n` places behind
  slot `head` is in slot `(head + n) % cap`.  The slots are a function of their
  number, over an arbitrary type.

    * `gap`    — how many places one slot is behind another,
    * `window` — the contents of `n` slots from `head` on, in order.

  Main results:
    * `gap_offset` — in a circle that is not gone all the way round, the two slots
      at the ends say how long the window is;
    * `window_write` / `window_tail` — writing behind the window and stepping its
      head are `append` and `tail` of the list.
-/
import Mathlib.Data.List.Range
import Mathlib.Data.Nat.ModEq
import Mathlib.Logic.Function.Basic

namespace Ring

variable {α : Type*} {cap head i j m n : Nat}

/-! ## §1. Places. -/

/-- How many places slot `j` is behind slot `i`. -/
def gap (cap i j : Nat) : Nat := if i ≤ j then j - i else cap - (i - j)

/-- A step round the circle wraps at most once. -/
theorem wrap (hi : i < cap) (hn : n ≤ cap) :
    (i + n) % cap = if i + n < cap then i + n else i + n - cap := by
  split
  · rename_i h
    exact Nat.mod_eq_of_lt h
  · rename_i h
    have hle : cap ≤ i + n := by omega
    rw [Nat.mod_eq_sub_mod hle]
    exact Nat.mod_eq_of_lt (by omega)

theorem gap_lt (hi : i < cap) (hj : j < cap) : gap cap i j < cap := by
  unfold gap
  split <;> omega

/-- The place that far behind. -/
theorem offset_gap (hi : i < cap) (hj : j < cap) : (i + gap cap i j) % cap = j := by
  rw [wrap hi (gap_lt hi hj).le]
  unfold gap
  split <;> split <;> omega

/-- And how far behind it is. -/
theorem gap_offset (hi : i < cap) (hn : n < cap) : gap cap i ((i + n) % cap) = n := by
  rw [wrap hi hn.le]
  unfold gap
  split <;> split <;> omega

/-- One place more. -/
theorem step_offset (i n cap : Nat) : ((i + n) % cap + 1) % cap = (i + (n + 1)) % cap := by
  rw [Nat.mod_add_mod, Nat.add_assoc]

/-- The same place, from the next slot on. -/
theorem offset_step (i n cap : Nat) : ((i + 1) % cap + n) % cap = (i + (n + 1)) % cap := by
  rw [Nat.mod_add_mod, Nat.add_assoc, Nat.add_comm 1 n]

/-- Two places less than a circle apart are two slots. -/
theorem offset_inj (hi : i < cap) (hj : j < cap) (h : (head + i) % cap = (head + j) % cap) :
    i = j :=
  Nat.ModEq.eq_of_lt_of_lt (Nat.ModEq.add_left_cancel' head h) hi hj

/-! ## §2. Windows. -/

/-- The contents of the `n` slots from `head` on. -/
def window (cells : Nat → α) (cap head n : Nat) : List α :=
  (List.range n).map fun i => cells ((head + i) % cap)

variable {cells : Nat → α}

@[simp] theorem length_window : (window cells cap head n).length = n := by
  simp [window]

theorem getElem?_window (h : i < n) :
    (window cells cap head n)[i]? = some (cells ((head + i) % cap)) := by
  simp [window, h]

/-- One slot more at the end. -/
theorem window_succ :
    window cells cap head (n + 1) = window cells cap head n ++ [cells ((head + n) % cap)] := by
  simp [window, List.range_succ]

/-- The first slot, and the window from the next one on. -/
theorem window_tail (h : head < cap) :
    window cells cap head (n + 1) = cells head :: window cells cap ((head + 1) % cap) n := by
  unfold window
  rw [List.range_succ_eq_map, List.map_cons, List.map_map, Nat.add_zero, Nat.mod_eq_of_lt h]
  congr 1
  apply List.map_congr_left
  intro k _
  exact congrArg cells (offset_step head k cap).symm

/-- A window does not see a write behind it. -/
theorem window_update (hnm : n ≤ m) (hm : m < cap) (x : α) :
    window (Function.update cells ((head + m) % cap) x) cap head n = window cells cap head n := by
  apply List.map_congr_left
  intro k hk
  have hk : k < n := List.mem_range.mp hk
  apply Function.update_of_ne
  intro heq
  have : k = m := offset_inj (by omega) hm heq
  omega

/-- **Writing right behind the window** appends to it. -/
theorem window_write (hn : n < cap) (x : α) :
    window (Function.update cells ((head + n) % cap) x) cap head (n + 1)
      = window cells cap head n ++ [x] := by
  rw [window_succ, window_update le_rfl hn, Function.update_self]

end Ring
