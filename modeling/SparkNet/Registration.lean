/-
  SparkNet.Registration — the poller's table mirrors the kernel.

  Three copies of the interest exist: the mask in each handler, the map in the
  poller and the set in the kernel.  `Mirror` says that they agree.  The module
  shows that each of the three things that can happen to a handler — it is
  created, its mask changes and `Update` runs, it goes away with an empty mask —
  keeps `Mirror`, and that every `epoll_ctl` issued on the way is legal.
-/
import SparkNet.Runs
import SparkNet.Epoller

namespace SparkNet

open Runs

variable {H CB : Type}

/-! ## §1. The invariant. -/

/-- The live handlers (`objs`, by address), the poller's table and the kernel's
interest set tell the same story. -/
structure Mirror (p : Epoller H) (objs : H → Option (Handler CB)) : Prop where
  /-- The interest set is `{ fd ↦ (Events(), handler) | Events() ≠ 0 }`. -/
  interest : ∀ fd ev ptr, p.interest fd = some (ev, ptr) ↔
    ∃ h, objs ptr = some h ∧ h.fd = fd ∧ h.events = ev ∧ ev ≠ 0#32
  /-- `_handlers` has exactly the same descriptor-to-handler pairs. -/
  handlers : ∀ fd ptr, p.handlers fd = some ptr ↔
    ∃ h, objs ptr = some h ∧ h.fd = fd ∧ h.events ≠ 0#32
  /-- At most one live handler per descriptor. -/
  one_per_fd : ∀ ptr ptr' h h', objs ptr = some h → objs ptr' = some h' → h.fd = h'.fd →
    ptr = ptr'
  /-- Every `epoll_ctl` so far was legal. -/
  legal : ∀ call ∈ p.ctls, call.legal = true

theorem mirror_new :
    Mirror (Epoller.new : Epoller H) (fun _ => none : H → Option (Handler CB)) where
  interest := by simp [Epoller.new]
  handlers := by simp [Epoller.new]
  one_per_fd := by simp
  legal := by simp [Epoller.new]

/-! ## §2. The three things that can happen to a handler. -/

section Steps

variable [DecidableEq H] {p p' : Epoller H} {objs : H → Option (Handler CB)} {ptr : H}
  {h h' : Handler CB}

/-- Changing an object from one that is not `P` to another that is not does not
show among those that are. -/
theorem exists_update_iff {o : Option (Handler CB)} {P : Handler CB → Prop} {a : H}
    (hold : ∀ g, objs ptr = some g → ¬ P g) (hnew : ∀ g, o = some g → ¬ P g) :
    (∃ g, Function.update objs ptr o a = some g ∧ P g) ↔ ∃ g, objs a = some g ∧ P g := by
  by_cases ha : a = ptr
  · subst ha
    rw [Function.update_self]
    constructor
    · exact fun ⟨g, hg, hP⟩ => absurd hP (hnew g hg)
    · exact fun ⟨g, hg, hP⟩ => absurd hP (hold g hg)
  · rw [Function.update_of_ne ha]

/-- A handler on a descriptor no other handler has leaves one handler for each. -/
theorem Mirror.one_per_fd_update (hm : Mirror p objs)
    (hfree : ∀ a g, a ≠ ptr → objs a = some g → g.fd ≠ h.fd) (a b : H) (g g' : Handler CB)
    (ha : Function.update objs ptr (some h) a = some g)
    (hb : Function.update objs ptr (some h) b = some g') (hfd : g.fd = g'.fd) : a = b := by
  by_cases h1 : a = ptr <;> by_cases h2 : b = ptr
  · rw [h1, h2]
  · subst h1
    rw [Function.update_self, Option.some.injEq] at ha
    rw [Function.update_of_ne h2] at hb
    exact absurd (ha ▸ hfd.symm) (hfree b g' h2 hb)
  · subst h2
    rw [Function.update_self, Option.some.injEq] at hb
    rw [Function.update_of_ne h1] at ha
    exact absurd (hb ▸ hfd) (hfree a g h1 ha)
  · rw [Function.update_of_ne h1] at ha
    rw [Function.update_of_ne h2] at hb
    exact hm.one_per_fd a b g g' ha hb hfd

/-- A handler appears, without events, on a descriptor no live handler has. -/
theorem Mirror.create (hm : Mirror p objs) (hfresh : objs ptr = none)
    (hfd : ∀ ptr' h', objs ptr' = some h' → h'.fd ≠ h.fd) (hev : h.events = 0#32) :
    Mirror p (Function.update objs ptr (some h)) where
  interest := by
    intro fd ev a
    rw [hm.interest, exists_update_iff]
    · exact fun g hg => absurd (hfresh.symm.trans hg) (by simp)
    · rintro g hg ⟨_, rfl, hne⟩
      exact hne (Option.some.inj hg ▸ hev)
  handlers := by
    intro fd a
    rw [hm.handlers, exists_update_iff]
    · exact fun g hg => absurd (hfresh.symm.trans hg) (by simp)
    · rintro g hg ⟨_, hne⟩
      exact hne (Option.some.inj hg ▸ hev)
  one_per_fd := hm.one_per_fd_update fun a g _ => hfd a g
  legal := hm.legal

/-- A handler without events goes away. -/
theorem Mirror.drop (hm : Mirror p objs) (hobj : objs ptr = some h) (hev : h.events = 0#32) :
    Mirror p (Function.update objs ptr none) where
  interest := by
    intro fd ev a
    rw [hm.interest, exists_update_iff]
    · rintro g hg ⟨_, rfl, hne⟩
      obtain rfl := Option.some.inj (hobj.symm.trans hg)
      exact hne hev
    · exact fun g hg => absurd hg (by simp)
  handlers := by
    intro fd a
    rw [hm.handlers, exists_update_iff]
    · rintro g hg ⟨_, hne⟩
      obtain rfl := Option.some.inj (hobj.symm.trans hg)
      exact hne hev
    · exact fun g hg => absurd hg (by simp)
  one_per_fd := by
    intro a b g g' ha hb hfd
    have h1 : a ≠ ptr := fun h1 => by simp [h1] at ha
    have h2 : b ≠ ptr := fun h2 => by simp [h2] at hb
    rw [Function.update_of_ne h1] at ha
    rw [Function.update_of_ne h2] at hb
    exact hm.one_per_fd a b g g' ha hb hfd
  legal := hm.legal

omit [DecidableEq H] in
/-- The table and the interest set at the descriptor of a live handler. -/
theorem Mirror.at_fd (hm : Mirror p objs) (hobj : objs ptr = some h) :
    (h.events ≠ 0#32 → p.handlers h.fd = some ptr ∧ p.interest h.fd = some (h.events, ptr))
    ∧ (h.events = 0#32 → p.handlers h.fd = none ∧ p.interest h.fd = none) := by
  refine ⟨fun hev => ⟨(hm.handlers _ _).mpr ⟨h, hobj, rfl, hev⟩,
    (hm.interest _ _ _).mpr ⟨h, hobj, rfl, rfl, hev⟩⟩, fun hev => ⟨?_, ?_⟩⟩
  · cases hh : p.handlers h.fd with
    | none => rfl
    | some ptr' =>
        obtain ⟨g, hg, hfd, hne⟩ := (hm.handlers _ _).mp hh
        obtain rfl := hm.one_per_fd _ _ _ _ hg hobj hfd
        obtain rfl := Option.some.inj (hobj.symm.trans hg)
        exact absurd hev hne
  · cases hh : p.interest h.fd with
    | none => rfl
    | some q =>
        obtain ⟨ev, ptr'⟩ := q
        obtain ⟨g, hg, hfd, hgev, hne⟩ := (hm.interest _ _ _).mp hh
        obtain rfl := hm.one_per_fd _ _ _ _ hg hobj hfd
        obtain rfl := Option.some.inj (hobj.symm.trans hg)
        exact absurd (hgev.symm.trans hev) hne

omit [DecidableEq H] in
/-- What `Update` does when the table and the interest set agree about the
descriptor: it never aborts, and it leaves both saying what the mask says. -/
theorem update_ok (hm : Mirror p objs) (hobj : objs ptr = some h) (hfd : h'.fd = h.fd) :
    ∃ p', p.update ptr h' = .ok p'
      ∧ p'.handlers = Function.update p.handlers h.fd
          (if h'.events = 0#32 then none else some ptr)
      ∧ p'.interest = Function.update p.interest h.fd
          (if h'.events = 0#32 then none else some (h'.events, ptr))
      ∧ ∀ call ∈ p'.ctls, call.legal = true := by
  obtain ⟨hne, heq⟩ := hm.at_fd hobj
  rw [← hfd] at hne heq ⊢
  -- the mask before decides whether there is an entry, the mask after what becomes of it
  by_cases hold : h.events = 0#32
  · obtain ⟨h1, h2⟩ := heq hold
    refine ⟨_, Epoller.update_absent ptr h1 h2, ?_⟩
    by_cases hnew : h'.events = 0#32
    · simp only [hnew, if_true]
      refine ⟨?_, ?_, hm.legal⟩
      · rw [← h1, Function.update_eq_self]
      · rw [← h2, Function.update_eq_self]
    · simpa [hnew] using hm.legal
  · obtain ⟨h1, h2⟩ := hne hold
    refine ⟨_, Epoller.update_present ptr h1 h2, ?_⟩
    by_cases hnew : h'.events = 0#32
    · simpa [hnew] using hm.legal
    · simp only [hnew, if_false]
      refine ⟨?_, trivial, by simpa using hm.legal⟩
      rw [← h1, Function.update_eq_self]

/-- On the descriptor of a live handler there is that handler and no other. -/
theorem Mirror.exists_own_fd (hm : Mirror p objs) (hobj : objs ptr = some h) (hfd : h'.fd = h.fd)
    {P : Handler CB → Prop} {a : H} :
    (∃ g, Function.update objs ptr (some h') a = some g ∧ g.fd = h.fd ∧ P g)
      ↔ a = ptr ∧ P h' := by
  by_cases ha : a = ptr
  · subst ha
    simp [hfd]
  · rw [Function.update_of_ne ha]
    constructor
    · exact fun ⟨g, hg, hgfd, _⟩ => absurd (hm.one_per_fd _ _ _ _ hg hobj hgfd) ha
    · exact fun hptr => absurd hptr.1 ha

/-- A live handler's mask changes and `Update` runs. -/
theorem Mirror.update (hm : Mirror p objs) (hobj : objs ptr = some h) (hfd : h'.fd = h.fd) :
    ∃ p', p.update ptr h' = .ok p' ∧ Mirror p' (Function.update objs ptr (some h')) := by
  obtain ⟨p', hp', hhan, hint, hleg⟩ := update_ok hm hobj hfd
  -- on other descriptors the change of one handler does not show
  have hother : ∀ {fd : Nat} {P : Handler CB → Prop} {a : H}, fd ≠ h.fd →
      ((∃ g, Function.update objs ptr (some h') a = some g ∧ g.fd = fd ∧ P g)
        ↔ ∃ g, objs a = some g ∧ g.fd = fd ∧ P g) := by
    intro fd P a hf
    apply exists_update_iff
    · rintro g hg ⟨rfl, _⟩
      obtain rfl := Option.some.inj (hobj.symm.trans hg)
      exact hf rfl
    · rintro g hg ⟨rfl, _⟩
      obtain rfl := Option.some.inj hg
      exact hf hfd
  refine ⟨p', hp', ?interest, ?handlers, ?single, hleg⟩
  case interest =>
    intro fd ev a
    rw [hint]
    by_cases hf : fd = h.fd
    · subst hf
      rw [Function.update_self, hm.exists_own_fd hobj hfd]
      split
      next hev =>
        constructor
        · exact fun h1 => absurd h1 (by simp)
        · rintro ⟨_, rfl, hne⟩
          exact absurd hev hne
      next hev =>
        simp only [Option.some.injEq, Prod.mk.injEq]
        constructor
        · rintro ⟨rfl, rfl⟩
          exact ⟨rfl, rfl, hev⟩
        · exact fun ⟨ha, h1, _⟩ => ⟨h1, ha.symm⟩
    · rw [Function.update_of_ne hf, hm.interest, hother hf]
  case handlers =>
    intro fd a
    rw [hhan]
    by_cases hf : fd = h.fd
    · subst hf
      rw [Function.update_self, hm.exists_own_fd hobj hfd]
      split
      next hev =>
        constructor
        · exact fun h1 => absurd h1 (by simp)
        · exact fun ⟨_, hne⟩ => absurd hev hne
      next hev =>
        rw [Option.some.injEq]
        constructor
        · exact fun ha => ⟨ha.symm, hev⟩
        · exact fun ⟨ha, _⟩ => ha.symm
    · rw [Function.update_of_ne hf, hm.handlers, hother hf]
  case single =>
    refine hm.one_per_fd_update fun a g ha hg hgfd => ha ?_
    exact hm.one_per_fd _ _ _ _ hg hobj (hgfd.trans hfd)

end Steps

/-! ## §3. Runs of handler calls. -/

/-- The poller and the live handlers by address. -/
structure Registry (H CB : Type) where
  poller : Epoller H
  objs : H → Option (Handler CB)

inductive HandlerCall (H : Type) where
  | create (ptr : H) (fd : Nat)
  | destroy (ptr : H)
  | enableRead (ptr : H)
  | enableWrite (ptr : H)
  | disableWrite (ptr : H)
  | disableAll (ptr : H)

variable [DecidableEq H]

/-- A member function of the live handler at `ptr`: the mask changes, then
`Update` runs. -/
def Registry.call (r : Registry H CB) (ptr : H) (f : Handler CB → Handler CB) :
    Option (Except Fault (Registry H CB)) :=
  (r.objs ptr).map fun h => do
    let p ← r.poller.update ptr (f h)
    return ⟨p, Function.update r.objs ptr (some (f h))⟩

/-- One call.  A handler is created at a free address and goes away only
without events; the four member functions are called on live handlers. -/
def Registry.step (r : Registry H CB) : HandlerCall H → Option (Except Fault (Registry H CB))
  | .create ptr fd =>
      if (r.objs ptr).isNone then
        some (.ok { r with objs := Function.update r.objs ptr (some (Handler.new fd)) })
      else none
  | .destroy ptr =>
      if (r.objs ptr).any Handler.isNoEvent then
        some (.ok { r with objs := Function.update r.objs ptr none })
      else none
  | .enableRead ptr => r.call ptr Handler.enableRead
  | .enableWrite ptr => r.call ptr Handler.enableWrite
  | .disableWrite ptr => r.call ptr Handler.disableWrite
  | .disableAll ptr => r.call ptr Handler.disableAll

/-- The calls that return. -/
def Registry.next (r : Registry H CB) (call : HandlerCall H) : Option (Registry H CB) :=
  match r.step call with
  | some (.ok r') => some r'
  | _ => none

/-- The environment's promise: a handler is created on a descriptor only when
no live handler has that descriptor. -/
def OneHandlerPerFd (r : Registry H CB) : HandlerCall H → Prop
  | .create _ fd => ∀ ptr h, r.objs ptr = some h → h.fd ≠ fd
  | _ => True

def Registry.new : Registry H CB := ⟨Epoller.new, fun _ => none⟩

theorem call_mirror {r : Registry H CB} (hm : Mirror r.poller r.objs) {ptr : H}
    {f : Handler CB → Handler CB} (hf : ∀ h, (f h).fd = h.fd)
    {out : Except Fault (Registry H CB)} (hcall : r.call ptr f = some out) :
    ∃ r', out = .ok r' ∧ Mirror r'.poller r'.objs := by
  simp only [Registry.call, Option.map_eq_some_iff] at hcall
  obtain ⟨h, hobj, rfl⟩ := hcall
  obtain ⟨p', hp', hm'⟩ := hm.update hobj (hf h)
  refine ⟨⟨p', Function.update r.objs ptr (some (f h))⟩, ?_, hm'⟩
  rw [hp']
  rfl

/-- **One step**: from agreement, a call under the promise returns and leaves
agreement. -/
theorem step_mirror {r : Registry H CB} (hm : Mirror r.poller r.objs) {call : HandlerCall H}
    (hone : OneHandlerPerFd r call) {out : Except Fault (Registry H CB)}
    (hstep : r.step call = some out) : ∃ r', out = .ok r' ∧ Mirror r'.poller r'.objs := by
  cases call with
  | create ptr fd =>
      simp only [Registry.step, Option.ite_none_right_eq_some, Option.isNone_iff_eq_none,
        Option.some.injEq] at hstep
      obtain ⟨hfree, rfl⟩ := hstep
      exact ⟨_, rfl, hm.create hfree hone rfl⟩
  | destroy ptr =>
      simp only [Registry.step, Option.ite_none_right_eq_some, Option.any_eq_true,
        Option.some.injEq] at hstep
      obtain ⟨⟨h, hobj, hev⟩, rfl⟩ := hstep
      exact ⟨_, rfl, hm.drop hobj (by simpa [Handler.isNoEvent] using hev)⟩
  | enableRead ptr => exact call_mirror hm Handler.fd_enableRead hstep
  | enableWrite ptr => exact call_mirror hm Handler.fd_enableWrite hstep
  | disableWrite ptr => exact call_mirror hm Handler.fd_disableWrite hstep
  | disableAll ptr => exact call_mirror hm Handler.fd_disableAll hstep

theorem next_mirror (r : Registry H CB) (call : HandlerCall H) (r' : Registry H CB)
    (hm : Mirror r.poller r.objs) (hone : OneHandlerPerFd r call)
    (hnext : r.next call = some r') : Mirror r'.poller r'.objs := by
  unfold Registry.next at hnext
  split at hnext
  next r'' hstep =>
    obtain ⟨r3, h1, hm'⟩ := step_mirror hm hone hstep
    cases h1
    cases hnext
    exact hm'
  next => exact absurd hnext (by simp)

/-- **The registration table mirrors the kernel.**  In every run of handler
creations, destructions and mask calls, as long as a handler is only created on
a descriptor no live handler has: after every call the kernel's interest set is
`{ fd ↦ (Events(), handler) | Events() ≠ 0 }`, the poller's table has the same
pairs, every `epoll_ctl` issued was legal, and no further call aborts. -/
theorem registration_mirrors_kernel (calls : List (HandlerCall H)) (r : Registry H CB)
    (hrun : exec Registry.next (Registry.new : Registry H CB) calls = some r)
    (hone : Along Registry.next OneHandlerPerFd (Registry.new : Registry H CB) calls) :
    Mirror r.poller r.objs
    ∧ ∀ call out, OneHandlerPerFd r call → r.step call = some out →
        ∃ r', out = .ok r' ∧ Mirror r'.poller r'.objs := by
  have hm : Mirror r.poller r.objs :=
    exec_invariant_along (I := fun r : Registry H CB => Mirror r.poller r.objs)
      next_mirror mirror_new hone hrun
  exact ⟨hm, fun call out hc hstep => step_mirror hm hc hstep⟩

/-- The theorem on two handlers taking turns on descriptor 5. -/
theorem registration_mirrors_kernel_on_run :
    ∃ r : Registry Nat Unit, exec Registry.next Registry.new
        [.create 0 5, .enableWrite 0, .disableAll 0, .destroy 0, .create 1 5,
         .enableRead 1] = some r
      ∧ r.poller.handlers 5 = some 1 ∧ Mirror r.poller r.objs := by
  refine ⟨_, rfl, rfl, (registration_mirrors_kernel [.create 0 5, .enableWrite 0,
    .disableAll 0, .destroy 0, .create 1 5, .enableRead 1] _ rfl ?_).1⟩
  refine Along.cons rfl (by simp [OneHandlerPerFd, Registry.new]) ?_
  refine Along.cons rfl trivial (Along.cons rfl trivial (Along.cons rfl trivial ?_))
  refine Along.cons rfl ?_ (Along.cons rfl trivial trivial)
  intro ptr h hobj
  by_cases hp : ptr = 0
  · subst hp
    exact absurd hobj (by simp)
  · simp [Registry.new, hp] at hobj

end SparkNet
