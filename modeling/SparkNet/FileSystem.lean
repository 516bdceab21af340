/-
  SparkNet.FileSystem — making a list of directories, one after the other.

  Of a file system only this is asked: a directory that was made is there, and
  making one removes none.  Which paths exist at first, when making one fails, and
  which paths name the same directory is left open.

  Main results:
    * `paired_makeAll` — a path is looked for before it is made;
    * `makeAll_complete` — when all attempts succeed every path of the list exists;
    * `makeAll_failed` — an attempt that fails is the last, and only paths before
      it in the list were made.
-/
import Mathlib.Data.List.Basic

/-- The two calls a process makes, over states `σ` and paths `π`. -/
structure FileSystem (σ π : Type*) where
  access : σ → π → Bool
  /-- What it returns, and the state after it. -/
  mkdir : σ → π → Int × σ
  access_made : ∀ s p, (mkdir s p).1 = 0 → access (mkdir s p).2 p = true
  access_mkdir : ∀ s p q, access s q = true → access (mkdir s p).2 q = true

namespace FileSystem

variable {σ π ρ : Type*}

/-! ## §1. Attempts. -/

/-- A call and its answer. -/
inductive Call (π : Type*) where
  | access (path : π) (found : Bool)
  | mkdir (path : π) (ret : Int)
  deriving DecidableEq, Repr

def Call.path : Call π → π
  | .access path _ => path
  | .mkdir path _ => path

/-- The paths looked for, in order. -/
def accessed (calls : List (Call π)) : List π :=
  calls.filterMap fun
    | .access path _ => some path
    | .mkdir _ _ => none

/-- The paths made. -/
def created (calls : List (Call π)) : List π :=
  calls.filterMap fun
    | .access _ _ => none
    | .mkdir path ret => if ret = 0 then some path else none

/-- Every `mkdir` comes right after the `access` that did not find its path. -/
def Paired (calls : List (Call π)) : Prop :=
  ∀ before p ret after, calls = before ++ .mkdir p ret :: after →
    before.getLast? = some (.access p false)

/-- What came of an attempt: its result, the calls it made, the state it left. -/
structure Attempt (ρ σ π : Type*) where
  ret : ρ
  calls : List (Call π)
  state : σ

/-- With calls made before it. -/
def Attempt.after (a : Attempt ρ σ π) (calls : List (Call π)) : Attempt ρ σ π :=
  { a with calls := calls ++ a.calls }

@[simp] theorem Attempt.ret_after (a : Attempt ρ σ π) (calls : List (Call π)) :
    (a.after calls).ret = a.ret := rfl

@[simp] theorem Attempt.calls_after (a : Attempt ρ σ π) (calls : List (Call π)) :
    (a.after calls).calls = calls ++ a.calls := rfl

@[simp] theorem Attempt.state_after (a : Attempt ρ σ π) (calls : List (Call π)) :
    (a.after calls).state = a.state := rfl

/-- Make those of the paths that are not there, up to the first failure. -/
def makeAll (fs : FileSystem σ π) : σ → List π → Attempt Int σ π
  | s, [] => ⟨0, [], s⟩
  | s, p :: ps =>
      if fs.access s p then (fs.makeAll s ps).after [.access p true]
      else
        let made := fs.mkdir s p
        if made.1 = 0 then (fs.makeAll made.2 ps).after [.access p false, .mkdir p made.1]
        else ⟨made.1, [.access p false, .mkdir p made.1], made.2⟩

/-- Every path of the list exists or can be made, in order. -/
def makeable (fs : FileSystem σ π) : σ → List π → Bool
  | _, [] => true
  | s, p :: ps =>
      if fs.access s p then fs.makeable s ps
      else decide ((fs.mkdir s p).1 = 0) && fs.makeable (fs.mkdir s p).2 ps

/-! ## §2. What an attempt does. -/

theorem Paired.nil : Paired ([] : List (Call π)) := by
  intro before p ret after h
  simp at h

theorem Paired.access {calls : List (Call π)} (hcalls : Paired calls) (p : π) (there : Bool) :
    Paired (.access p there :: calls) := by
  intro before q ret after h
  cases before with
  | nil => simp at h
  | cons first before =>
      rw [List.cons_append, List.cons.injEq] at h
      have hlast := hcalls before q ret after h.2
      rw [List.getLast?_cons, hlast]
      rfl

theorem Paired.mkdir {calls : List (Call π)} (hcalls : Paired calls) (p : π) (ret : Int) :
    Paired (.access p false :: .mkdir p ret :: calls) := by
  intro before q ret' after h
  match before, h with
  | [], h => simp at h
  | [first], h =>
      -- the `mkdir` of the path just looked for
      simp only [List.cons_append, List.nil_append, List.cons.injEq, Call.mkdir.injEq] at h
      obtain ⟨rfl, ⟨rfl, _⟩, _⟩ := h
      rfl
  | first :: second :: before, h =>
      simp only [List.cons_append, List.cons.injEq] at h
      have hlast := hcalls before q ret' after h.2.2
      rw [List.getLast?_cons, List.getLast?_cons, hlast]
      rfl

/-- **The cases of one path**: it is there, it is made, or it cannot be made. -/
theorem makeAll_cons_cases (fs : FileSystem σ π) (s : σ) (p : π) (ps : List π) :
    (fs.access s p = true
      ∧ fs.makeAll s (p :: ps) = (fs.makeAll s ps).after [.access p true])
    ∨ (fs.access s p = false ∧ (fs.mkdir s p).1 = 0 ∧ fs.makeAll s (p :: ps)
      = (fs.makeAll (fs.mkdir s p).2 ps).after [.access p false, .mkdir p 0])
    ∨ (fs.access s p = false ∧ (fs.mkdir s p).1 ≠ 0 ∧ fs.makeAll s (p :: ps)
      = ⟨(fs.mkdir s p).1, [.access p false, .mkdir p (fs.mkdir s p).1], (fs.mkdir s p).2⟩) := by
  cases hacc : fs.access s p with
  | true => exact Or.inl ⟨rfl, by simp [makeAll, hacc]⟩
  | false =>
      by_cases hret : (fs.mkdir s p).1 = 0
      · exact Or.inr (Or.inl ⟨rfl, hret, by simp [makeAll, hacc, hret]⟩)
      · exact Or.inr (Or.inr ⟨rfl, hret, by simp [makeAll, hacc, hret]⟩)

theorem makeable_iff (fs : FileSystem σ π) :
    ∀ (ps : List π) (s : σ), fs.makeable s ps = true ↔ (fs.makeAll s ps).ret = 0 := by
  intro ps
  induction ps with
  | nil => exact fun _ => ⟨fun _ => rfl, fun _ => rfl⟩
  | cons p ps ih =>
      intro s
      rcases fs.makeAll_cons_cases s p ps with ⟨hacc, heq⟩ | ⟨hacc, hret, heq⟩ | ⟨hacc, hret, heq⟩
      · rw [heq, makeable, if_pos hacc]
        exact ih s
      · rw [heq, makeable, hacc]
        simpa [hret] using ih (fs.mkdir s p).2
      · rw [heq, makeable, hacc]
        simp [hret]

theorem accessed_makeAll (fs : FileSystem σ π) :
    ∀ (ps : List π) (s : σ), accessed (fs.makeAll s ps).calls <+: ps := by
  intro ps
  induction ps with
  | nil => exact fun _ => List.prefix_rfl
  | cons p ps ih =>
      intro s
      rcases fs.makeAll_cons_cases s p ps with ⟨_, heq⟩ | ⟨_, _, heq⟩ | ⟨_, _, heq⟩
      · rw [heq]
        exact List.cons_prefix_cons.mpr ⟨rfl, ih s⟩
      · rw [heq]
        exact List.cons_prefix_cons.mpr ⟨rfl, ih _⟩
      · rw [heq]
        exact List.cons_prefix_cons.mpr ⟨rfl, List.nil_prefix⟩

/-- A path is looked for before it is made. -/
theorem paired_makeAll (fs : FileSystem σ π) :
    ∀ (ps : List π) (s : σ), Paired (fs.makeAll s ps).calls := by
  intro ps
  induction ps with
  | nil => exact fun _ => Paired.nil
  | cons p ps ih =>
      intro s
      rcases fs.makeAll_cons_cases s p ps with ⟨_, heq⟩ | ⟨_, _, heq⟩ | ⟨_, _, heq⟩
      · rw [heq]
        exact (ih s).access p true
      · rw [heq]
        exact (ih _).mkdir p 0
      · rw [heq]
        exact Paired.nil.mkdir p _

/-- Only paths of the list are looked for or made. -/
theorem path_makeAll (fs : FileSystem σ π) :
    ∀ (ps : List π) (s : σ), ∀ call ∈ (fs.makeAll s ps).calls, call.path ∈ ps := by
  intro ps
  induction ps with
  | nil => exact fun _ _ h => absurd h List.not_mem_nil
  | cons p ps ih =>
      intro s call hcall
      rcases fs.makeAll_cons_cases s p ps with ⟨_, heq⟩ | ⟨_, _, heq⟩ | ⟨_, _, heq⟩
      · rw [heq] at hcall
        rcases List.mem_cons.mp hcall with rfl | hcall
        · exact List.mem_cons_self
        · exact List.mem_cons_of_mem p (ih s call hcall)
      · rw [heq] at hcall
        rcases List.mem_cons.mp hcall with rfl | hcall
        · exact List.mem_cons_self
        · rcases List.mem_cons.mp hcall with rfl | hcall
          · exact List.mem_cons_self
          · exact List.mem_cons_of_mem p (ih _ call hcall)
      · rw [heq] at hcall
        simp only [List.mem_cons, List.not_mem_nil, or_false] at hcall
        rcases hcall with rfl | rfl
        · exact List.mem_cons_self
        · exact List.mem_cons_self

/-- What exists stays. -/
theorem access_makeAll (fs : FileSystem σ π) {q : π} :
    ∀ (ps : List π) (s : σ), fs.access s q = true →
      fs.access (fs.makeAll s ps).state q = true := by
  intro ps
  induction ps with
  | nil => exact fun _ h => h
  | cons p ps ih =>
      intro s h
      rcases fs.makeAll_cons_cases s p ps with ⟨_, heq⟩ | ⟨_, _, heq⟩ | ⟨_, _, heq⟩
      · rw [heq]
        exact ih s h
      · rw [heq]
        exact ih _ (fs.access_mkdir s p q h)
      · rw [heq]
        exact fs.access_mkdir s p q h

/-- **All succeed**: every path of the list exists. -/
theorem makeAll_complete (fs : FileSystem σ π) :
    ∀ (ps : List π) (s : σ), (fs.makeAll s ps).ret = 0 →
      ∀ q ∈ ps, fs.access (fs.makeAll s ps).state q = true := by
  intro ps
  induction ps with
  | nil => exact fun _ _ _ h => absurd h List.not_mem_nil
  | cons p ps ih =>
      intro s hret q hq
      rcases fs.makeAll_cons_cases s p ps with ⟨hacc, heq⟩ | ⟨_, hmade, heq⟩ | ⟨_, hmade, heq⟩
      · rw [heq] at hret ⊢
        rcases List.mem_cons.mp hq with rfl | hq
        · exact access_makeAll fs ps s hacc
        · exact ih s hret q hq
      · rw [heq] at hret ⊢
        rcases List.mem_cons.mp hq with rfl | hq
        · exact access_makeAll fs ps _ (fs.access_made s q hmade)
        · exact ih _ hret q hq
      · rw [heq] at hret
        exact absurd hret hmade

/-- **One fails**: it is the last, and what was made is before it in the list. -/
theorem makeAll_failed (fs : FileSystem σ π) :
    ∀ (ps : List π) (s : σ), (fs.makeAll s ps).ret ≠ 0 →
      ∃ before p after, ps = before ++ p :: after
        ∧ (fs.makeAll s ps).calls.getLast? = some (.mkdir p (fs.makeAll s ps).ret)
        ∧ ∀ q ∈ created (fs.makeAll s ps).calls, q ∈ before := by
  intro ps
  induction ps with
  | nil => exact fun _ h => absurd rfl h
  | cons p ps ih =>
      intro s hret
      rcases fs.makeAll_cons_cases s p ps with ⟨_, heq⟩ | ⟨_, _, heq⟩ | ⟨_, hmade, heq⟩
      · rw [heq] at hret ⊢
        obtain ⟨before, r, after, hps, hlast, hcreated⟩ := ih s hret
        refine ⟨p :: before, r, after, by rw [hps, List.cons_append], ?_, ?_⟩
        · rw [Attempt.calls_after, List.getLast?_append, hlast]
          rfl
        · exact fun q hq => List.mem_cons_of_mem p (hcreated q hq)
      · rw [heq] at hret ⊢
        obtain ⟨before, r, after, hps, hlast, hcreated⟩ := ih _ hret
        refine ⟨p :: before, r, after, by rw [hps, List.cons_append], ?_, ?_⟩
        · rw [Attempt.calls_after, List.getLast?_append, hlast]
          rfl
        · intro q hq
          rcases List.mem_cons.mp hq with rfl | hq
          · exact List.mem_cons_self
          · exact List.mem_cons_of_mem p (hcreated q hq)
      · -- nothing behind the first failure is tried
        rw [heq]
        refine ⟨[], p, ps, rfl, rfl, fun q hq => ?_⟩
        simp [created, hmade] at hq

end FileSystem
