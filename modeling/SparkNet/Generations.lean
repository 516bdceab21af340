/-
  SparkNet.Generations — a log kept in numbered generations.

  Generation 0 is written to.  When a record would make it too heavy, every
  generation moves up by one number, the one at the top is lost to its
  successor, and the record begins a new generation 0.  A generation may be
  missing; the one below then moves into the gap.  Records, of any type, have a
  weight.

    * `kept`  — the records there are, from the oldest generation to the newest,
    * `shift` — the move, from the top number down,
    * `add`   — a record.

  Main results:
    * `kept_adds` — what is kept is the end of what was there and what was added;
    * `light_adds` — no generation is heavier than the limit or the heaviest record;
    * `all_or_heavy` — when something is lost, half the limit times the number of
      generations is kept.
-/
import Mathlib.Algebra.BigOperators.Group.List.Basic
import Mathlib.Algebra.GroupWithZero.Nat
import Mathlib.Data.List.Infix
import Mathlib.Logic.Function.Basic

namespace Generations

/-! ## §1. Moving up. -/

section

variable {β : Type*}

/-- Generation `i` becomes `i + 1`, if there is one. -/
def moveUp (f : Nat → Option β) (i : Nat) : Nat → Option β :=
  if (f i).isNone then f else Function.update (Function.update f (i + 1) (f i)) i none

/-- The generations below `n` move up, from the top on. -/
def shift (f : Nat → Option β) : Nat → (Nat → Option β)
  | 0 => f
  | i + 1 => shift (moveUp f i) i

/-- What generation `n + 1` is after the move. -/
def top (f : Nat → Option β) (n : Nat) : Option β := (f n).or (f (n + 1))

theorem moveUp_apply (f : Nat → Option β) (i j : Nat) :
    moveUp f i j = if j = i + 1 then top f i else if j = i then none else f j := by
  unfold moveUp top
  cases hf : f i with
  | none =>
      rw [Option.isNone_none, if_pos rfl, Option.none_or]
      split
      · rename_i h
        rw [h]
      · split
        · rename_i h
          rw [h, hf]
        · rfl
  | some g =>
      rw [if_neg (by simp), Option.some_or]
      by_cases h₁ : j = i + 1
      · rw [if_pos h₁, h₁, Function.update_of_ne (by omega), Function.update_self]
      · rw [if_neg h₁]
        by_cases h₂ : j = i
        · rw [if_pos h₂, h₂, Function.update_self]
        · rw [if_neg h₂, Function.update_of_ne h₂, Function.update_of_ne h₁]

/-- **The move**, all at once. -/
theorem shift_succ (f : Nat → Option β) (n j : Nat) :
    shift f (n + 1) j
      = if n + 1 < j then f j
        else if j = n + 1 then top f n
        else if j = 0 then none
        else f (j - 1) := by
  induction n generalizing f with
  | zero =>
      rw [shift, shift, moveUp_apply]
      split_ifs <;> first | rfl | omega
  | succ n ih =>
      have htop : top (moveUp f (n + 1)) n = f n := by
        unfold top
        rw [moveUp_apply, moveUp_apply, if_neg (by omega), if_neg (by omega), if_neg (by omega),
          if_pos rfl, Option.or_none]
      rw [shift, ih, htop, moveUp_apply, moveUp_apply]
      by_cases h₁ : n + 1 + 1 < j
      · rw [if_pos (by omega), if_neg (by omega), if_neg (by omega), if_pos h₁]
      · rw [if_neg h₁]
        by_cases h₂ : j = n + 1 + 1
        · rw [if_pos (by omega), if_pos h₂, if_pos h₂]
        · rw [if_neg (by omega), if_neg h₂]
          by_cases h₃ : j = n + 1
          · rw [if_pos h₃, if_neg (by omega), h₃]
            rfl
          · rw [if_neg h₃]
            by_cases h₄ : j = 0
            · rw [if_pos h₄, if_pos h₄]
            · rw [if_neg h₄, if_neg h₄, if_neg (by omega), if_neg (by omega)]

/-- The move does not look into the generations. -/
theorem shift_map {γ : Type*} (g : β → γ) (f : Nat → Option β) (n : Nat) :
    shift (fun i => (f i).map g) n = fun i => (shift f n i).map g := by
  induction n generalizing f with
  | zero => rfl
  | succ n ih =>
      have hround : moveUp (fun i => (f i).map g) n = fun i => (moveUp f n i).map g := by
        funext j
        rw [moveUp_apply, moveUp_apply]
        unfold top
        split
        · cases hf : f n <;> simp [hf]
        · split <;> rfl
      rw [shift, hround, ih, shift]

end

/-! ## §2. What is kept. -/

variable {ρ : Type*}

/-- The generations from `n` down to 0, in the order of their records. -/
def kept (f : Nat → Option (List ρ)) : Nat → List ρ
  | 0 => (f 0).getD []
  | n + 1 => (f (n + 1)).getD [] ++ kept f n

/-- All one number higher. -/
theorem kept_up {f g : Nat → Option (List ρ)} {n : Nat} (h0 : g 0 = none)
    (h : ∀ i ≤ n, g (i + 1) = f i) : kept g (n + 1) = kept f n := by
  induction n with
  | zero =>
      rw [kept, kept, kept, h 0 le_rfl, h0]
      exact List.append_nil _
  | succ n ih => rw [kept, h (n + 1) le_rfl, ih fun i hi => h i (by omega), kept]

/-- The move keeps everything but what was at the top, and that too when there was
a gap below. -/
theorem kept_shift (f : Nat → Option (List ρ)) (n : Nat) :
    kept (shift f (n + 1)) (n + 1)
      = (if (f n).isSome then [] else (f (n + 1)).getD []) ++ kept f n := by
  have htop : shift f (n + 1) (n + 1) = top f n := by
    rw [shift_succ, if_neg (by omega), if_pos rfl]
  have hbelow : ∀ i ≤ n, shift f (n + 1) i = if i = 0 then none else f (i - 1) := by
    intro i hi
    rw [shift_succ, if_neg (by omega), if_neg (by omega)]
  rw [kept, htop]
  unfold top
  cases n with
  | zero =>
      have h0 : shift f (0 + 1) 0 = none := hbelow 0 le_rfl
      rw [kept, kept, h0]
      cases f 0 <;> simp
  | succ n =>
      have hup : kept (shift f (n + 1 + 1)) (n + 1) = kept f n := by
        apply kept_up
        · exact hbelow 0 (by omega)
        · intro i hi
          exact hbelow (i + 1) (by omega)
      rw [hup, kept]
      cases f (n + 1) <;> simp

/-! ## §3. Adding records. -/

section

variable (weight : ρ → Nat) (limit n : Nat)

/-- What a generation weighs. -/
def load (g : List ρ) : Nat := (g.map weight).sum

/-- Generation 0 gets `r`, or is moved up and begins with it. -/
def add (f : Nat → Option (List ρ)) (r : ρ) : Nat → Option (List ρ) :=
  if limit < load weight ((f 0).getD []) + weight r then
    Function.update (shift f n) 0 (some [r])
  else Function.update f 0 (some ((f 0).getD [] ++ [r]))

end

variable {weight : ρ → Nat} {limit n : Nat}

/-- A new generation 0. -/
theorem kept_update (f : Nat → Option (List ρ)) (g : List ρ) (n : Nat) :
    kept (Function.update f 0 (some g)) n = kept (Function.update f 0 none) n ++ g := by
  induction n with
  | zero => simp [kept]
  | succ n ih =>
      rw [kept, kept, ih, Function.update_of_ne (by omega), Function.update_of_ne (by omega),
        List.append_assoc]

theorem kept_eq_update (f : Nat → Option (List ρ)) (n : Nat) :
    kept f n = kept (Function.update f 0 none) n ++ (f 0).getD [] := by
  cases hf : f 0 with
  | none =>
      rw [← hf, Function.update_eq_self, hf]
      exact (List.append_nil _).symm
  | some g =>
      have h := kept_update f g n
      rw [← hf, Function.update_eq_self] at h
      exact h

/-- After the move there is no generation 0, unless it is the only one. -/
theorem shift_zero (f : Nat → Option (List ρ)) (n : Nat) : shift f (n + 1) 0 = none := by
  rw [shift_succ, if_neg (by omega), if_neg (by omega), if_pos rfl]

theorem kept_add (f : Nat → Option (List ρ)) (r : ρ) :
    kept (add weight limit n f r) n <:+ kept f n ++ [r] := by
  unfold add
  split
  · cases n with
    | zero =>
        rw [kept_update]
        exact ⟨kept f 0, by simp [kept]⟩
    | succ n =>
        have hnone := shift_zero f n
        rw [kept_update, ← hnone, Function.update_eq_self, kept_shift, kept]
        by_cases hf : (f n).isSome = true
        · rw [if_pos hf]
          exact ⟨(f (n + 1)).getD [], by simp⟩
        · rw [if_neg hf]
  · rw [kept_update, kept_eq_update f n, List.append_assoc]

/-- **What is kept** is the end of all there was. -/
theorem kept_adds (rs : List ρ) (f : Nat → Option (List ρ)) :
    kept (rs.foldl (add weight limit n) f) n <:+ kept f n ++ rs := by
  induction rs generalizing f with
  | nil => simp
  | cons r rs ih =>
      have hsuffix : kept (add weight limit n f r) n <:+ kept f n ++ [r] := kept_add f r
      obtain ⟨lost, h⟩ := hsuffix
      have hrest := ih (add weight limit n f r)
      rw [List.foldl_cons, List.append_cons, ← h, List.append_assoc]
      exact hrest.trans (List.suffix_append _ _)

/-! ### How heavy the generations are. -/

/-- No generation is heavier than `bound`. -/
def Light (weight : ρ → Nat) (bound : Nat) (f : Nat → Option (List ρ)) : Prop :=
  ∀ i g, f i = some g → load weight g ≤ bound

theorem light_shift {bound : Nat} {f : Nat → Option (List ρ)} (h : Light weight bound f) (n : Nat) :
    Light weight bound (shift f n) := by
  cases n with
  | zero => exact h
  | succ n =>
      intro i g hg
      rw [shift_succ] at hg
      split at hg
      · exact h _ _ hg
      · split at hg
        · unfold top at hg
          cases hf : f n with
          | none =>
              rw [hf, Option.none_or] at hg
              exact h _ _ hg
          | some g' =>
              rw [hf, Option.some_or] at hg
              exact h _ _ (hf.trans hg)
        · split at hg
          · cases hg
          · exact h _ _ hg

theorem light_update {bound : Nat} {f : Nat → Option (List ρ)} (h : Light weight bound f)
    {g : List ρ} (hg : load weight g ≤ bound) :
    Light weight bound (Function.update f 0 (some g)) := by
  intro i g' hg'
  by_cases hi : i = 0
  · subst hi
    rw [Function.update_self] at hg'
    exact Option.some.inj hg' ▸ hg
  · rw [Function.update_of_ne hi] at hg'
    exact h i g' hg'

theorem light_add {bound : Nat} (hlimit : limit ≤ bound) {f : Nat → Option (List ρ)} {r : ρ}
    (hr : weight r ≤ bound) (h : Light weight bound f) :
    Light weight bound (add weight limit n f r) := by
  unfold add
  split
  · exact light_update (light_shift h n) (by simpa [load] using hr)
  · rename_i hfits
    apply light_update h
    rw [load, List.map_append, List.sum_append, List.map_singleton, List.sum_singleton]
    unfold load at hfits
    omega

theorem light_adds {bound : Nat} (hlimit : limit ≤ bound) {rs : List ρ}
    (hrs : ∀ r ∈ rs, weight r ≤ bound) {f : Nat → Option (List ρ)} (h : Light weight bound f) :
    Light weight bound (rs.foldl (add weight limit n) f) := by
  induction rs generalizing f with
  | nil => exact h
  | cons r rs ih =>
      exact ih (fun r' hr' => hrs r' (List.mem_cons_of_mem r hr'))
        (light_add hlimit (hrs r List.mem_cons_self) h)

/-! ### How much is kept. -/

theorem load_append (g g' : List ρ) : load weight (g ++ g') = load weight g + load weight g' := by
  simp [load]

/-- No gaps, none above `n`, and two generations in a row are too heavy for one. -/
structure Tight (weight : ρ → Nat) (limit n : Nat) (f : Nat → Option (List ρ)) : Prop where
  some : (f 0).isSome = true
  pair : ∀ i g, f (i + 1) = Option.some g →
    ∃ g', f i = Option.some g' ∧ limit < load weight g + load weight g'
  above : ∀ i, n < i → f i = none

theorem Tight.below {f : Nat → Option (List ρ)} (h : Tight weight limit n f) {i : Nat}
    (hi : (f (i + 1)).isSome = true) : (f i).isSome = true := by
  obtain ⟨g, hg⟩ := Option.isSome_iff_exists.mp hi
  obtain ⟨g', hg', _⟩ := h.pair i g hg
  rw [hg']
  rfl

/-- The top generation after the move is the one below it. -/
theorem Tight.top_eq {f : Nat → Option (List ρ)} (h : Tight weight limit n f) (i : Nat) :
    top f i = f i := by
  unfold top
  cases hf : f i with
  | some g => rfl
  | none =>
      rw [Option.none_or]
      by_contra hne
      have hsome := h.below (Option.isSome_iff_ne_none.mpr hne)
      rw [hf] at hsome
      cases hsome

theorem Tight.shift_apply {f : Nat → Option (List ρ)} (h : Tight weight limit (n + 1) f)
    {i : Nat} (hi : i ≤ n) : shift f (n + 1) (i + 1) = f i := by
  rw [shift_succ, if_neg (by omega)]
  by_cases heq : i = n
  · rw [if_pos (by omega), h.top_eq, heq]
  · rw [if_neg (by omega), if_neg (by omega)]
    rfl

theorem tight_add {f : Nat → Option (List ρ)} (h : Tight weight limit n f) (r : ρ) :
    Tight weight limit n (add weight limit n f r) := by
  obtain ⟨g₀, hg₀⟩ := Option.isSome_iff_exists.mp h.some
  unfold add
  rw [hg₀, Option.getD_some]
  split
  · rename_i hheavy
    refine ⟨by rw [Function.update_self]; rfl, ?_, ?_⟩
    · intro i g hg
      rw [Function.update_of_ne (by omega)] at hg
      cases n with
      | zero =>
          rw [shift, h.above (i + 1) (by omega)] at hg
          cases hg
      | succ n =>
          by_cases hi : i ≤ n
          · rw [h.shift_apply hi] at hg
            cases i with
            | zero =>
                obtain rfl : g₀ = g := Option.some.inj (hg₀.symm.trans hg)
                exact ⟨[r], Function.update_self .., by simpa [load] using hheavy⟩
            | succ i =>
                obtain ⟨g', hg', hpair⟩ := h.pair i g hg
                refine ⟨g', ?_, hpair⟩
                rw [Function.update_of_ne (by omega), h.shift_apply (by omega)]
                exact hg'
          · rw [shift_succ, if_pos (by omega), h.above (i + 1) (by omega)] at hg
            cases hg
    · intro i hi
      rw [Function.update_of_ne (by omega)]
      cases n with
      | zero => exact h.above i hi
      | succ n => rw [shift_succ, if_pos hi, h.above i hi]
  · refine ⟨by rw [Function.update_self]; rfl, ?_, ?_⟩
    · intro i g hg
      rw [Function.update_of_ne (by omega)] at hg
      obtain ⟨g', hg', hpair⟩ := h.pair i g hg
      cases i with
      | zero =>
          obtain rfl : g₀ = g' := Option.some.inj (hg₀.symm.trans hg')
          refine ⟨g₀ ++ [r], Function.update_self .., ?_⟩
          rw [load_append]
          omega
      | succ i => exact ⟨g', by rw [Function.update_of_ne (by omega), hg'], hpair⟩
    · intro i hi
      rw [Function.update_of_ne (by omega), h.above i hi]

/-- A record pushes something out only when there is a generation `n`, and then
there is one afterwards. -/
theorem full_add {f : Nat → Option (List ρ)} (h : Tight weight limit n f) (r : ρ) :
    (kept (add weight limit n f r) n = kept f n ++ [r]
        ∨ (add weight limit n f r n).isSome = true)
      ∧ ((f n).isSome = true → (add weight limit n f r n).isSome = true) := by
  unfold add
  split
  · cases n with
    | zero => exact ⟨Or.inr (by rw [Function.update_self]; rfl),
        fun _ => by rw [Function.update_self]; rfl⟩
    | succ n =>
        rw [Function.update_of_ne (by omega), h.shift_apply le_rfl]
        refine ⟨?_, h.below⟩
        by_cases hn : (f n).isSome = true
        · exact Or.inr hn
        · left
          rw [kept_update, ← shift_zero f n, Function.update_eq_self, kept_shift, if_neg hn, kept]
  · constructor
    · left
      rw [kept_update, kept_eq_update f n, List.append_assoc]
    · intro hn
      by_cases h0 : n = 0
      · rw [h0, Function.update_self]
        rfl
      · rw [Function.update_of_ne h0]
        exact hn

/-- Generations that reach the top are heavy, two by two. -/
theorem Tight.heavy {f : Nat → Option (List ρ)} (h : Tight weight limit n f) :
    ∀ m, (f m).isSome = true → limit * ((m + 1) / 2) ≤ load weight (kept f m)
  | 0, _ => by simp
  | 1, hm => by
      obtain ⟨g, hg⟩ := Option.isSome_iff_exists.mp hm
      obtain ⟨g', hg', hpair⟩ := h.pair 0 g hg
      rw [kept, kept, hg, hg', Option.getD_some, Option.getD_some, load_append]
      omega
  | m + 2, hm => by
      obtain ⟨g, hg⟩ := Option.isSome_iff_exists.mp hm
      obtain ⟨g', hg', hpair⟩ := h.pair (m + 1) g hg
      have hrest := h.heavy m (h.below (h.below hm))
      have hhalf : (m + 2 + 1) / 2 = (m + 1) / 2 + 1 := by omega
      rw [kept, kept, hg, hg', Option.getD_some, Option.getD_some, load_append, load_append, hhalf,
        Nat.mul_add, Nat.mul_one]
      omega

/-- **Nothing is lost early.**  From one generation on, either everything is kept,
or as much as half of the generations may hold. -/
theorem all_or_heavy (rs : List ρ) {f : Nat → Option (List ρ)} (h : Tight weight limit n f) :
    kept (rs.foldl (add weight limit n) f) n = kept f n ++ rs
      ∨ limit * ((n + 1) / 2) ≤ load weight (kept (rs.foldl (add weight limit n) f) n) := by
  have hrun : ∀ (rs : List ρ) (f : Nat → Option (List ρ)), Tight weight limit n f →
      Tight weight limit n (rs.foldl (add weight limit n) f)
        ∧ (kept (rs.foldl (add weight limit n) f) n = kept f n ++ rs
          ∨ (rs.foldl (add weight limit n) f n).isSome = true)
        ∧ ((f n).isSome = true → (rs.foldl (add weight limit n) f n).isSome = true) := by
    intro rs
    induction rs with
    | nil => exact fun f h => ⟨h, Or.inl (List.append_nil _).symm, id⟩
    | cons r rs ih =>
        intro f h
        obtain ⟨hall, hfull⟩ := full_add h r
        obtain ⟨htight, hrest, hkeep⟩ := ih _ (tight_add h r)
        refine ⟨htight, ?_, fun hn => hkeep (hfull hn)⟩
        obtain hall | hsome := hall
        · obtain hrest | hsome := hrest
          · left
            rw [List.foldl_cons, hrest, hall, List.append_assoc]
            rfl
          · exact Or.inr hsome
        · exact Or.inr (hkeep hsome)
  obtain ⟨htight, hall | hsome, _⟩ := hrun rs f h
  · exact Or.inl hall
  · exact Or.inr (htight.heavy n hsome)

end Generations
