/-
  SparkNet.Runs — finite runs of a machine whose steps may be refused.

  A machine is a partial step function `step : σ → α → Option σ`: a label is
  either refused (`none`) or leads to exactly one next state.  Everything a
  development needs to say about whole runs is collected here, over arbitrary
  state and label types:

    * `exec`      — run a list of labels,
    * `Always`    — a state property in every state a run visits,
    * `Along`     — a condition on (state before, label) at every step of a run.

  Main results:
    * `exec_invariant` / `exec_invariant_along` — the induction every safety
      property goes through, without and with a condition on the steps;
    * `always_of_along` — the same for a property of every state visited;
    * `always_iff_along` — a property that each step keeps exactly when the
      step meets a condition holds throughout a run iff every step meets it;
    * `exec_refines` — a step-by-step simulation extends to whole runs.
-/
import Mathlib.Data.List.Basic

namespace Runs

variable {σ τ α : Type*}

/-! ## §1. Runs. -/

/-- Run a list of labels from a state; the run is refused as soon as one of
its labels is. -/
def exec (step : σ → α → Option σ) : σ → List α → Option σ
  | s, [] => some s
  | s, a :: as => (step s a).bind fun s' => exec step s' as

/-- `P` holds in every state the run visits, the first and the last included. -/
def Always (step : σ → α → Option σ) (P : σ → Prop) : σ → List α → Prop
  | s, [] => P s
  | s, a :: as => P s ∧ ∀ s', step s a = some s' → Always step P s' as

/-- Every step of the run meets `C`, read on the state before it and its label. -/
def Along (step : σ → α → Option σ) (C : σ → α → Prop) : σ → List α → Prop
  | _, [] => True
  | s, a :: as => C s a ∧ ∀ s', step s a = some s' → Along step C s' as

variable {step : σ → α → Option σ}

theorem exec_cons_eq_some {s t : σ} {a : α} {as : List α} :
    exec step s (a :: as) = some t ↔ ∃ s', step s a = some s' ∧ exec step s' as = some t := by
  simp only [exec, Option.bind_eq_some_iff]

/-- A run in two parts. -/
theorem exec_append_eq_some {s t : σ} {as bs : List α} :
    exec step s (as ++ bs) = some t ↔ ∃ u, exec step s as = some u ∧ exec step u bs = some t := by
  induction as generalizing s with
  | nil => exact ⟨fun h => ⟨s, rfl, h⟩, fun ⟨_, h, ht⟩ => Option.some.inj h ▸ ht⟩
  | cons a as ih =>
      rw [List.cons_append, exec_cons_eq_some]
      constructor
      · rintro ⟨s', hstep, hrest⟩
        obtain ⟨u, has, hbs⟩ := ih.mp hrest
        exact ⟨u, exec_cons_eq_some.mpr ⟨s', hstep, has⟩, hbs⟩
      · rintro ⟨u, has, hbs⟩
        obtain ⟨s', hstep, hrest⟩ := exec_cons_eq_some.mp has
        exact ⟨s', hstep, ih.mpr ⟨u, hrest, hbs⟩⟩

theorem Along.cons {C : σ → α → Prop} {s s' : σ} {a : α} {as : List α}
    (hstep : step s a = some s') (hC : C s a) (h : Along step C s' as) :
    Along step C s (a :: as) := by
  refine ⟨hC, fun s'' h'' => ?_⟩
  obtain rfl : s' = s'' := Option.some.inj (hstep.symm.trans h'')
  exact h

/-- A condition on the labels alone holds along a run when each label meets it. -/
theorem Along.of_forall {D : α → Prop} {as : List α} (h : ∀ a ∈ as, D a) :
    ∀ s : σ, Along step (fun _ a => D a) s as := by
  induction as with
  | nil => exact fun _ => trivial
  | cons a as ih =>
      intro s
      exact ⟨h a List.mem_cons_self,
        fun s' _ => ih (fun b hb => h b (List.mem_cons_of_mem a hb)) s'⟩

/-- In a run that is not refused, only then. -/
theorem along_iff_forall {D : α → Prop} {as : List α} :
    ∀ {s t : σ}, exec step s as = some t → (Along step (fun _ a => D a) s as ↔ ∀ a ∈ as, D a) := by
  induction as with
  | nil => exact fun _ => ⟨fun _ _ h => absurd h List.not_mem_nil, fun _ => trivial⟩
  | cons a as ih =>
      intro s t hrun
      obtain ⟨s', h1, h2⟩ := exec_cons_eq_some.mp hrun
      rw [List.forall_mem_cons, ← ih h2]
      exact ⟨fun h => ⟨h.1, h.2 s' h1⟩, fun h => Along.cons h1 h.1 h.2⟩

/-- Two conditions that agree at every step agree along a run. -/
theorem along_congr {C D : σ → α → Prop}
    (h : ∀ s a s', step s a = some s' → (C s a ↔ D s a)) {as : List α} :
    ∀ {s t : σ}, exec step s as = some t → (Along step C s as ↔ Along step D s as) := by
  induction as with
  | nil => exact fun _ => Iff.rfl
  | cons a as ih =>
      intro s t hrun
      obtain ⟨s', h1, h2⟩ := exec_cons_eq_some.mp hrun
      constructor
      · intro hC
        exact Along.cons h1 ((h s a s' h1).mp hC.1) ((ih h2).mp (hC.2 s' h1))
      · intro hD
        exact Along.cons h1 ((h s a s' h1).mpr hD.1) ((ih h2).mpr (hD.2 s' h1))

/-- A condition that can be tested at each step can be tested along a run. -/
instance Along.decidable {C : σ → α → Prop} [∀ s a, Decidable (C s a)] :
    ∀ (s : σ) (as : List α), Decidable (Along step C s as)
  | _, [] => isTrue trivial
  | s, a :: as =>
      match h : step s a with
      | none => decidable_of_iff (C s a)
          ⟨fun hC => ⟨hC, fun s' h' => absurd (h.symm.trans h') (by simp)⟩, fun hA => hA.1⟩
      | some s' =>
          have := Along.decidable (C := C) s' as
          decidable_of_iff (C s a ∧ Along step C s' as)
            ⟨fun hA => Along.cons h hA.1 hA.2, fun hA => ⟨hA.1, hA.2 s' h⟩⟩

/-! ## §2. Invariants of runs. -/

/-- **The invariant rule**: what the first state has and every step keeps, the
last state has. -/
theorem exec_invariant {I : σ → Prop}
    (hstep : ∀ s a s', I s → step s a = some s' → I s') :
    ∀ {as : List α} {s t : σ}, I s → exec step s as = some t → I t := by
  intro as
  induction as with
  | nil =>
      intro s t hs hrun
      cases hrun
      exact hs
  | cons a as ih =>
      intro s t hs hrun
      obtain ⟨s', h1, h2⟩ := exec_cons_eq_some.mp hrun
      exact ih (hstep s a s' hs h1) h2

/-- The invariant rule for runs all of whose steps meet a condition. -/
theorem exec_invariant_along {I : σ → Prop} {C : σ → α → Prop}
    (hstep : ∀ s a s', I s → C s a → step s a = some s' → I s') :
    ∀ {as : List α} {s t : σ}, I s → Along step C s as → exec step s as = some t → I t := by
  intro as
  induction as with
  | nil =>
      intro s t hs _ hrun
      cases hrun
      exact hs
  | cons a as ih =>
      intro s t hs halong hrun
      obtain ⟨s', h1, h2⟩ := exec_cons_eq_some.mp hrun
      exact ih (hstep s a s' hs halong.1 h1) (halong.2 s' h1) h2

theorem Always.head {P : σ → Prop} {s : σ} {as : List α} (h : Always step P s as) : P s := by
  cases as with
  | nil => exact h
  | cons a as => exact h.1

theorem Always.last {P : σ → Prop} {as : List α} :
    ∀ {s t : σ}, Always step P s as → exec step s as = some t → P t := by
  induction as with
  | nil =>
      intro s t h hrun
      cases hrun
      exact h
  | cons a as ih =>
      intro s t h hrun
      obtain ⟨s', h1, h2⟩ := exec_cons_eq_some.mp hrun
      exact ih (h.2 s' h1) h2

/-- What the first state has and every step that meets a condition keeps, holds
throughout a run whose steps meet it. -/
theorem always_of_along {I P : σ → Prop} {C : σ → α → Prop} (hP : ∀ s, I s → P s)
    (hstep : ∀ s a s', I s → C s a → step s a = some s' → I s') :
    ∀ {as : List α} {s : σ}, I s → Along step C s as → Always step P s as := by
  intro as
  induction as with
  | nil => exact fun hs _ => hP _ hs
  | cons a as ih =>
      intro s hs halong
      exact ⟨hP s hs, fun s' h1 => ih (hstep s a s' hs halong.1 h1) (halong.2 s' h1)⟩

/-- What every state of the invariant promises of the next step, at every step. -/
theorem along_of_along {I : σ → Prop} {C D : σ → α → Prop} (hD : ∀ s a, I s → D s a)
    (hstep : ∀ s a s', I s → C s a → step s a = some s' → I s') :
    ∀ {as : List α} {s : σ}, I s → Along step C s as → Along step D s as := by
  intro as
  induction as with
  | nil => exact fun _ _ => trivial
  | cons a as ih =>
      intro s hs halong
      exact ⟨hD s a hs, fun s' h1 => ih (hstep s a s' hs halong.1 h1) (halong.2 s' h1)⟩

/-! ## §3. Exact conditions. -/

/-- **The exact-condition rule.**  `I` is the invariant that carries the
argument and contains `P`; `D` is the domain the runs are restricted to.  If a
step of the domain from `I` keeps `I` when it meets `C` and loses `P` when it
does not, then `P` holds throughout a run exactly when every step of it meets
`C`. -/
theorem always_iff_along {I P : σ → Prop} {D C : σ → α → Prop}
    (hP : ∀ s, I s → P s)
    (hkeep : ∀ s a s', I s → D s a → C s a → step s a = some s' → I s')
    (hlose : ∀ s a s', I s → D s a → ¬ C s a → step s a = some s' → ¬ P s') :
    ∀ {as : List α} {s t : σ}, I s → Along step D s as → exec step s as = some t →
      (Always step P s as ↔ Along step C s as) := by
  intro as
  induction as with
  | nil =>
      intro s t hs _ _
      exact ⟨fun _ => trivial, fun _ => hP s hs⟩
  | cons a as ih =>
      intro s t hs hD hrun
      obtain ⟨s', h1, h2⟩ := exec_cons_eq_some.mp hrun
      -- a step that breaks the condition shows in the state after it
      have hC : Always step P s (a :: as) → C s a := by
        intro h
        by_contra hC
        exact hlose s a s' hs hD.1 hC h1 (h.2 s' h1).head
      have hrest : C s a → (Always step P s' as ↔ Along step C s' as) := fun h =>
        ih (hkeep s a s' hs hD.1 h h1) (hD.2 s' h1) h2
      constructor
      · exact fun h => Along.cons h1 (hC h) ((hrest (hC h)).mp (h.2 s' h1))
      · intro h
        refine ⟨hP s hs, fun s'' h1' => ?_⟩
        obtain rfl : s' = s'' := Option.some.inj (h1.symm.trans h1')
        exact (hrest h.1).mpr (h.2 s' h1)

/-! ## §4. Refinement. -/

/-- **The simulation rule**: when every step of the concrete machine from an
invariant state is a step of the abstract one under `abs`, every run is. -/
theorem exec_refines {I : σ → Prop} {abs : σ → τ} {astep : τ → α → Option τ}
    (hinv : ∀ s a s', I s → step s a = some s' → I s')
    (hsim : ∀ s a s', I s → step s a = some s' → astep (abs s) a = some (abs s')) :
    ∀ {as : List α} {s t : σ}, I s → exec step s as = some t →
      exec astep (abs s) as = some (abs t) := by
  intro as
  induction as with
  | nil =>
      intro s t _ hrun
      cases hrun
      rfl
  | cons a as ih =>
      intro s t hs hrun
      obtain ⟨s', h1, h2⟩ := exec_cons_eq_some.mp hrun
      exact exec_cons_eq_some.mpr
        ⟨abs s', hsim s a s' hs h1, ih (hinv s a s' hs h1) h2⟩

end Runs
