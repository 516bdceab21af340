/-
  SparkNet.Tally — threads counted by where they stand.

  A machine of many threads keeps the place of each in a list; an event moves
  one of them.  What all threads weigh together, in any commutative monoid, then
  changes by the one that moved: with numbers this counts threads and ranks
  states, with multisets it collects what the threads hold.

  Main results:
    * `tally_set` — the tally after one thread has moved;
    * `exec_count_le` — steps that each cost rank are no more than the rank there
      is at the start and the rank the other steps bring in.
-/
import Mathlib.Algebra.BigOperators.Group.List.Basic
import Mathlib.Tactic.Abel
import SparkNet.Runs

namespace Tally

variable {α M : Type*} [AddCommMonoid M] {w : α → M} {l : List α} {a : α} {i : Nat}

/-! ## §1. Tallies. -/

/-- What the threads weigh together. -/
def tally (w : α → M) (l : List α) : M := (l.map w).sum

@[simp] theorem tally_cons : tally w (a :: l) = w a + tally w l := by
  simp [tally]

/-- **One thread has moved.** -/
theorem tally_set (h : l[i]? = some a) (b : α) : tally w (l.set i b) + w a = tally w l + w b := by
  induction l generalizing i with
  | nil => simp at h
  | cons c l ih =>
      cases i with
      | zero =>
          obtain rfl : c = a := by simpa using h
          rw [List.set_cons_zero, tally_cons, tally_cons]
          abel
      | succ i =>
          have h : l[i]? = some a := by simpa using h
          rw [List.set_cons_succ, tally_cons, tally_cons, add_assoc, ih h, add_assoc]

/-- To a place that weighs the same. -/
theorem tally_set_same {w : α → Nat} {b : α} (h : l[i]? = some a) (hw : w b = w a) :
    tally w (l.set i b) = tally w l := by
  have := tally_set (w := w) h b
  omega

theorem tally_replicate_zero (h : w a = 0) (n : Nat) : tally w (List.replicate n a) = 0 := by
  induction n with
  | zero => rfl
  | succ n ih => rw [List.replicate_succ, tally_cons, h, ih, add_zero]

/-- Nothing is weighed where no thread weighs anything. -/
theorem tally_eq_zero (h : ∀ a ∈ l, w a = 0) : tally w l = 0 := by
  induction l with
  | nil => rfl
  | cons a l ih =>
      rw [tally_cons, h a List.mem_cons_self, ih fun b hb => h b (List.mem_cons_of_mem a hb),
        add_zero]

/-- Threads that weigh one each are counted. -/
theorem tally_eq_length {w : α → Nat} (h : ∀ a ∈ l, w a = 1) : tally w l = l.length := by
  induction l with
  | nil => rfl
  | cons a l ih =>
      rw [tally_cons, h a List.mem_cons_self, ih fun b hb => h b (List.mem_cons_of_mem a hb),
        List.length_cons]
      omega

/-- And one that does not weigh anything shows. -/
theorem tally_lt_length {w : α → Nat} (hle : ∀ a, w a ≤ 1) (h : l[i]? = some a) (ha : w a = 0) :
    tally w l < l.length := by
  have hall : ∀ l : List α, tally w l ≤ l.length := by
    intro l
    induction l with
    | nil => exact le_rfl
    | cons c l ih =>
        have := hle c
        rw [tally_cons, List.length_cons]
        omega
  induction l generalizing i with
  | nil => simp at h
  | cons c l ih =>
      rw [tally_cons, List.length_cons]
      cases i with
      | zero =>
          obtain rfl : c = a := by simpa using h
          have := hall l
          omega
      | succ i =>
          have := ih (i := i) (by simpa using h)
          have := hle c
          omega

/-- A thread that weighs something shows in the tally. -/
theorem tally_pos {w : α → Nat} (h : l[i]? = some a) (ha : 0 < w a) : 0 < tally w l := by
  induction l generalizing i with
  | nil => simp at h
  | cons c l ih =>
      rw [tally_cons]
      cases i with
      | zero =>
          obtain rfl : c = a := by simpa using h
          omega
      | succ i =>
          have := ih (i := i) (by simpa using h)
          omega

/-! ## §2. Rank. -/

open Runs

variable {σ ε : Type*} {step : σ → ε → Option σ} {I : σ → Prop} {rank : σ → Nat}
variable {count cost : ε → Nat}

/-- **The rank rule**: a step that counts pays for itself with rank, so no run has
more of them than the rank it starts with and the rank its other steps bring in. -/
theorem exec_count_le (hinv : ∀ s e s', I s → step s e = some s' → I s')
    (hrank : ∀ s e s', I s → step s e = some s' → count e + rank s' ≤ rank s + cost e) :
    ∀ {es : List ε} {s t : σ}, I s → exec step s es = some t →
      (es.map count).sum + rank t ≤ rank s + (es.map cost).sum := by
  intro es
  induction es with
  | nil =>
      intro s t _ hrun
      cases hrun
      simp
  | cons e es ih =>
      intro s t hs hrun
      obtain ⟨s', h1, h2⟩ := exec_cons_eq_some.mp hrun
      have hstep := hrank s e s' hs h1
      have hrest := ih (hinv s e s' hs h1) h2
      rw [List.map_cons, List.sum_cons, List.map_cons, List.sum_cons]
      omega

end Tally
