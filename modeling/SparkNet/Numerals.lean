/-
  SparkNet.Numerals — decimals of a fixed width, and the order of texts.

  A numeral padded with zeros to its width sorts, as a text, where its number
  does; texts that consist of such fields sort by the fields.

  Main results:
    * `append_lt_append_iff` — texts compare by their first field, then the rest;
    * `padded_lt_iff` — numerals of one width compare as their numbers.
-/
import Mathlib.Data.List.Basic
import Mathlib.Data.Nat.Basic
import Mathlib.Tactic.IntervalCases

namespace Numerals

/-! ## §1. The order of lists. -/

section

variable {α : Type*} [LT α]

/-- Lists with first parts of one length. -/
theorem append_lt_append_iff {xs ys us vs : List α} (hlen : xs.length = ys.length) :
    xs ++ us < ys ++ vs ↔ xs < ys ∨ xs = ys ∧ us < vs := by
  induction xs generalizing ys with
  | nil =>
      obtain rfl : ys = [] := List.length_eq_zero_iff.mp hlen.symm
      simp
  | cons x xs ih =>
      cases ys with
      | nil => cases hlen
      | cons y ys =>
          rw [List.cons_append, List.cons_append, List.cons_lt_cons_iff, List.cons_lt_cons_iff,
            ih (Nat.succ.inj hlen), List.cons.injEq]
          constructor
          · rintro (h | ⟨rfl, h | ⟨rfl, h⟩⟩)
            · exact Or.inl (Or.inl h)
            · exact Or.inl (Or.inr ⟨rfl, h⟩)
            · exact Or.inr ⟨⟨rfl, rfl⟩, h⟩
          · rintro ((h | ⟨rfl, h⟩) | ⟨⟨rfl, rfl⟩, h⟩)
            · exact Or.inl h
            · exact Or.inr ⟨rfl, Or.inl h⟩
            · exact Or.inr ⟨rfl, Or.inr ⟨rfl, h⟩⟩

/-- A common first part. -/
theorem append_left_lt_iff (hirr : ∀ a : α, ¬ a < a) (xs : List α) {us vs : List α} :
    xs ++ us < xs ++ vs ↔ us < vs := by
  induction xs with
  | nil => rfl
  | cons x xs ih =>
      rw [List.cons_append, List.cons_append, List.cons_lt_cons_iff, ih]
      constructor
      · rintro (h | ⟨_, h⟩)
        · exact absurd h (hirr x)
        · exact h
      · exact fun h => Or.inr ⟨rfl, h⟩

end

/-! ## §2. Padded numerals. -/

/-- The decimal of `n`, with zeros in front up to the width `w`. -/
def padded (w n : Nat) : List Char :=
  List.replicate (w - (Nat.toDigits 10 n).length) '0' ++ Nat.toDigits 10 n

theorem padded_one {n : Nat} (h : n < 10) : padded 1 n = [n.digitChar] := by
  unfold padded
  rw [Nat.toDigits_of_lt_base h]
  rfl

/-- The last digit. -/
theorem padded_succ {w : Nat} (hw : 0 < w) (n : Nat) :
    padded (w + 1) n = padded w (n / 10) ++ [(n % 10).digitChar] := by
  unfold padded
  by_cases h : n < 10
  · obtain ⟨w, rfl⟩ := Nat.exists_eq_succ_of_ne_zero hw.ne'
    rw [Nat.div_eq_of_lt h, Nat.mod_eq_of_lt h, Nat.toDigits_of_lt_base h, Nat.toDigits_zero]
    show List.replicate (w + 1) '0' ++ _ = List.replicate w '0' ++ ['0'] ++ _
    rw [← List.replicate_succ']
  · rw [Nat.toDigits_of_base_le (by decide) (by omega), List.length_append,
      List.length_singleton, Nat.add_sub_add_right, List.append_assoc]

theorem length_padded {w n : Nat} (hw : 0 < w) (h : n < 10 ^ w) : (padded w n).length = w := by
  have hle : (Nat.toDigits 10 n).length ≤ w := (Nat.length_toDigits_le_iff (by decide) hw).mpr h
  unfold padded
  rw [List.length_append, List.length_replicate]
  omega

theorem digitChar_lt_iff {a b : Nat} (ha : a < 10) (hb : b < 10) :
    a.digitChar < b.digitChar ↔ a < b := by
  interval_cases a <;> interval_cases b <;> decide

theorem digitChar_inj {a b : Nat} (ha : a < 10) (hb : b < 10) (h : a.digitChar = b.digitChar) :
    a = b := by
  interval_cases a <;> interval_cases b <;> first | rfl | exact absurd h (by decide)

/-- Numerals of one width are different for different numbers. -/
theorem padded_injective {w a b : Nat} (hw : 0 < w) (h : padded w a = padded w b)
    (ha : a < 10 ^ w) (hb : b < 10 ^ w) : a = b := by
  induction w, hw using Nat.le_induction generalizing a b with
  | base =>
      rw [padded_one (by simpa using ha), padded_one (by simpa using hb)] at h
      exact digitChar_inj (by simpa using ha) (by simpa using hb) (List.singleton_inj.mp h)
  | succ w hw ih =>
      rw [padded_succ hw, padded_succ hw] at h
      obtain ⟨hfront, hlast⟩ := List.append_inj' h rfl
      have hdiv := ih hfront (Nat.div_lt_of_lt_mul (by rw [Nat.mul_comm, ← Nat.pow_succ]; exact ha))
        (Nat.div_lt_of_lt_mul (by rw [Nat.mul_comm, ← Nat.pow_succ]; exact hb))
      have hmod := digitChar_inj (Nat.mod_lt _ (by decide)) (Nat.mod_lt _ (by decide))
        (List.singleton_inj.mp hlast)
      omega

/-- **Padded numerals sort as their numbers.** -/
theorem padded_lt_iff {w a b : Nat} (hw : 0 < w) (ha : a < 10 ^ w) (hb : b < 10 ^ w) :
    padded w a < padded w b ↔ a < b := by
  induction w, hw using Nat.le_induction generalizing a b with
  | base =>
      rw [padded_one (by simpa using ha), padded_one (by simpa using hb), List.cons_lt_cons_iff]
      simpa using digitChar_lt_iff (by simpa using ha) (by simpa using hb)
  | succ w hw ih =>
      have ha' : a / 10 < 10 ^ w :=
        Nat.div_lt_of_lt_mul (by rw [Nat.mul_comm, ← Nat.pow_succ]; exact ha)
      have hb' : b / 10 < 10 ^ w :=
        Nat.div_lt_of_lt_mul (by rw [Nat.mul_comm, ← Nat.pow_succ]; exact hb)
      have hlast : [(a % 10).digitChar] < [(b % 10).digitChar] ↔ a % 10 < b % 10 := by
        rw [List.cons_lt_cons_iff]
        simpa using digitChar_lt_iff (Nat.mod_lt a (by decide)) (Nat.mod_lt b (by decide))
      have hfront : padded w (a / 10) = padded w (b / 10) ↔ a / 10 = b / 10 :=
        ⟨fun h => padded_injective hw h ha' hb', fun h => by rw [h]⟩
      rw [padded_succ hw, padded_succ hw,
        append_lt_append_iff ((length_padded hw ha').trans (length_padded hw hb').symm),
        ih ha' hb', hlast, hfront]
      omega

end Numerals
