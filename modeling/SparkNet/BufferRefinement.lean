/-
  SparkNet.BufferRefinement — the buffer class refines a byte queue.

  The abstract component is a family of byte queues (lists) with enqueue,
  drop-from-the-front and exchange.  The concrete one is a family of `Buffer`s
  started by the constructor and driven by the public calls of the class; a
  family, because `Swap` exchanges two buffers.

    * `bufferStep_refines` — one call on buffers is one operation on queues;
    * `buffers_refine_queues` — so is every run;
    * `bufferLaws` — the law of each call, for every well-formed buffer;
    * `reachable_bufferLaws` — the two together, and that the index layout of
      a buffer is never observable.
-/
import SparkNet.Runs
import SparkNet.Buffer

namespace SparkNet

open Runs

/-! ## §1. The two machines. -/

/-- A call on the buffers named by natural numbers.  `hasWrite` and
`hasWriteToEnd` carry the bytes the caller has stored at `WritePos()`. -/
inductive BufferCall where
  | appendData (i : Nat) (data : List Byte)
  | retrieve (i : Nat) (len : Nat)
  | retrieveAll (i : Nat)
  | extendSpace (i : Nat) (len : Nat)
  | hasWrite (i : Nat) (data : List Byte)
  | hasWriteToEnd (i : Nat) (data : List Byte)
  | swap (i j : Nat)

/-- `Buffer::Swap` on the family: the two buffers change places. -/
def swapAt {β : Type} (f : Nat → β) (i j : Nat) : Nat → β :=
  fun n => if n = i then f j else if n = j then f i else f n

/-- One call.  Bytes may be stored at `WritePos()` only as far as there is
writable space, and `HasWriteToEnd` is called when all of it was filled. -/
def bufferStep (bs : Nat → Buffer) : BufferCall → Option (Nat → Buffer)
  | .appendData i data => some (Function.update bs i ((bs i).appendData data))
  | .retrieve i len => some (Function.update bs i ((bs i).retrieve len))
  | .retrieveAll i => some (Function.update bs i (bs i).retrieveAll)
  | .extendSpace i len => some (Function.update bs i ((bs i).extendSpace len))
  | .hasWrite i data =>
      if data.length ≤ (bs i).writableBytes then
        some (Function.update bs i (((bs i).fill data).hasWrite data.length))
      else none
  | .hasWriteToEnd i data =>
      if data.length = (bs i).writableBytes then
        some (Function.update bs i ((bs i).fill data).hasWriteToEnd)
      else none
  | .swap i j => some (swapAt bs i j)

/-- All buffers as constructed. -/
def newBuffers : Nat → Buffer := fun _ => Buffer.new

/-- The same call on queues of bytes. -/
def queueStep (qs : Nat → List Byte) : BufferCall → Option (Nat → List Byte)
  | .appendData i data => some (Function.update qs i (qs i ++ data))
  | .retrieve i len => some (Function.update qs i ((qs i).drop len))
  | .retrieveAll i => some (Function.update qs i [])
  | .extendSpace _ _ => some qs
  | .hasWrite i data => some (Function.update qs i (qs i ++ data))
  | .hasWriteToEnd i data => some (Function.update qs i (qs i ++ data))
  | .swap i j => some (swapAt qs i j)

/-- The abstraction function. -/
def contentsOf (bs : Nat → Buffer) : Nat → List Byte := fun i => (bs i).contents

/-! ## §2. One call. -/

theorem contentsOf_update (bs : Nat → Buffer) (i : Nat) (b : Buffer) :
    contentsOf (Function.update bs i b) = Function.update (contentsOf bs) i b.contents := by
  funext n
  by_cases h : n = i
  · subst h; simp [contentsOf]
  · simp [contentsOf, h]

theorem contentsOf_swapAt (bs : Nat → Buffer) (i j : Nat) :
    contentsOf (swapAt bs i j) = swapAt (contentsOf bs) i j := by
  funext n
  simp only [contentsOf, swapAt]
  split
  · rfl
  · split <;> rfl

theorem wf_update {bs : Nat → Buffer} (h : ∀ n, (bs n).Wf) {i : Nat} {b : Buffer} (hb : b.Wf) :
    ∀ n, (Function.update bs i b n).Wf := by
  intro n
  by_cases hn : n = i
  · subst hn; simpa using hb
  · simpa [hn] using h n

/-- Every call keeps every buffer's indices in order. -/
theorem bufferStep_wf (bs : Nat → Buffer) (call : BufferCall) (bs' : Nat → Buffer)
    (h : ∀ n, (bs n).Wf) (hstep : bufferStep bs call = some bs') : ∀ n, (bs' n).Wf := by
  cases call with
  | appendData i data =>
      cases hstep
      exact wf_update h (Buffer.wf_appendData (h i) data)
  | retrieve i len =>
      cases hstep
      exact wf_update h (Buffer.wf_retrieve (h i) len)
  | retrieveAll i =>
      cases hstep
      exact wf_update h (Buffer.wf_retrieveAll _)
  | extendSpace i len =>
      cases hstep
      exact wf_update h (Buffer.wf_extendSpace (h i) len)
  | hasWrite i data =>
      simp only [bufferStep, Option.ite_none_right_eq_some, Option.some.injEq] at hstep
      obtain ⟨hlen, rfl⟩ := hstep
      refine wf_update h (Buffer.wf_hasWrite (Buffer.wf_fill (h i) hlen) ?_)
      rw [Buffer.writableBytes_fill (h i) hlen]
      exact hlen
  | hasWriteToEnd i data =>
      simp only [bufferStep, Option.ite_none_right_eq_some, Option.some.injEq] at hstep
      obtain ⟨hlen, rfl⟩ := hstep
      exact wf_update h (Buffer.wf_hasWriteToEnd (Buffer.wf_fill (h i) (Nat.le_of_eq hlen)))
  | swap i j =>
      cases hstep
      intro n
      simp only [swapAt]
      split
      · exact h j
      · split
        · exact h i
        · exact h n

/-- **One call on buffers is one operation on queues.** -/
theorem bufferStep_refines (bs : Nat → Buffer) (call : BufferCall) (bs' : Nat → Buffer)
    (h : ∀ n, (bs n).Wf) (hstep : bufferStep bs call = some bs') :
    queueStep (contentsOf bs) call = some (contentsOf bs') := by
  cases call with
  | appendData i data =>
      cases hstep
      rw [contentsOf_update, Buffer.contents_appendData (h i)]
      rfl
  | retrieve i len =>
      cases hstep
      rw [contentsOf_update, Buffer.contents_retrieve (h i)]
      rfl
  | retrieveAll i =>
      cases hstep
      rw [contentsOf_update, Buffer.contents_retrieveAll]
      rfl
  | extendSpace i len =>
      cases hstep
      rw [contentsOf_update, Buffer.contents_extendSpace (h i)]
      show some (contentsOf bs) = some (Function.update (contentsOf bs) i (contentsOf bs i))
      rw [Function.update_eq_self]
  | hasWrite i data =>
      simp only [bufferStep, Option.ite_none_right_eq_some, Option.some.injEq] at hstep
      obtain ⟨_, rfl⟩ := hstep
      rw [contentsOf_update, Buffer.contents_fill_hasWrite (h i)]
      rfl
  | hasWriteToEnd i data =>
      simp only [bufferStep, Option.ite_none_right_eq_some, Option.some.injEq] at hstep
      obtain ⟨hlen, rfl⟩ := hstep
      rw [contentsOf_update, Buffer.fill_hasWriteToEnd (h i) hlen,
          Buffer.contents_fill_hasWrite (h i)]
      rfl
  | swap i j =>
      cases hstep
      rw [contentsOf_swapAt]
      rfl

/-! ## §3. Whole runs. -/

theorem wf_newBuffers : ∀ n, (newBuffers n).Wf := fun _ => Buffer.wf_new

theorem reachable_wf {calls : List BufferCall} {bs : Nat → Buffer}
    (hrun : exec bufferStep newBuffers calls = some bs) : ∀ n, (bs n).Wf :=
  exec_invariant (I := fun bs => ∀ n, (bs n).Wf) bufferStep_wf wf_newBuffers hrun

/-- **Refinement from any well-formed family**: a run on the buffers is the
same run on their contents. -/
theorem buffers_refine_queues {calls : List BufferCall} {bs bs' : Nat → Buffer}
    (h : ∀ n, (bs n).Wf) (hrun : exec bufferStep bs calls = some bs') :
    exec queueStep (contentsOf bs) calls = some (contentsOf bs') :=
  exec_refines (I := fun bs => ∀ n, (bs n).Wf) bufferStep_wf bufferStep_refines h hrun

/-- Two families with equal contents stay equal in content whatever further
calls both accept: the index layout is not observable. -/
theorem layout_unobservable {calls : List BufferCall} {as bs as' bs' : Nat → Buffer}
    (ha : ∀ n, (as n).Wf) (hb : ∀ n, (bs n).Wf) (heq : contentsOf as = contentsOf bs)
    (hra : exec bufferStep as calls = some as') (hrb : exec bufferStep bs calls = some bs') :
    contentsOf as' = contentsOf bs' := by
  have h1 := buffers_refine_queues ha hra
  have h2 := buffers_refine_queues hb hrb
  rw [heq, h2] at h1
  exact (Option.some.inj h1).symm

/-- The laws of the calls on one buffer, as operations on its contents. -/
structure BufferLaws (b : Buffer) : Prop where
  indices : b.readIndex ≤ b.writeIndex ∧ b.writeIndex ≤ b.storage.length
  appendData : ∀ data, (b.appendData data).contents = b.contents ++ data
  retrieve : ∀ len,
    (b.retrieve len).contents = b.contents.drop (min len b.contents.length)
  retrieveAll : b.retrieveAll.contents = []
  extendSpace : ∀ len,
    (b.extendSpace len).contents = b.contents ∧ len ≤ (b.extendSpace len).writableBytes
  hasWrite : ∀ data : List Byte, data.length ≤ b.writableBytes →
    ((b.fill data).hasWrite data.length).contents = b.contents ++ data
  hasWriteToEnd : ∀ data : List Byte, data.length = b.writableBytes →
    ((b.fill data).hasWriteToEnd).contents = b.contents ++ data
  readableBytes : b.readableBytes = b.contents.length

theorem bufferLaws {b : Buffer} (h : b.Wf) : BufferLaws b where
  indices := ⟨h.read_le_write, h.write_le_size⟩
  appendData := Buffer.contents_appendData h
  retrieve := by
    intro len
    rw [Buffer.contents_retrieve h]
    rcases Nat.le_total len b.contents.length with hle | hle
    · rw [Nat.min_eq_left hle]
    · rw [Nat.min_eq_right hle, List.drop_eq_nil_of_le hle, List.drop_length]
  retrieveAll := Buffer.contents_retrieveAll b
  extendSpace := fun len => ⟨Buffer.contents_extendSpace h len,
    Buffer.le_writableBytes_extendSpace h len⟩
  hasWrite := fun data _ => Buffer.contents_fill_hasWrite h data
  hasWriteToEnd := by
    intro data hlen
    rw [Buffer.fill_hasWriteToEnd h hlen]
    exact Buffer.contents_fill_hasWrite h data
  readableBytes := (Buffer.length_contents h).symm

/-- **The buffer class refines a byte queue.**  After any run of calls from the
constructor: every buffer obeys the laws of a byte queue, `Swap` exchanges two
contents and touches no third, the contents are those of the abstract queues
after the same run, and any family of buffers with the same contents, however
laid out, has the same contents after any further calls both accept. -/
theorem buffer_refines_byte_queue (calls : List BufferCall) (bs : Nat → Buffer)
    (hrun : exec bufferStep newBuffers calls = some bs) :
    (∀ n, BufferLaws (bs n))
    ∧ (∀ i j, contentsOf (swapAt bs i j) i = contentsOf bs j
        ∧ contentsOf (swapAt bs i j) j = contentsOf bs i
        ∧ ∀ n, n ≠ i → n ≠ j → swapAt bs i j n = bs n)
    ∧ exec queueStep (fun _ => []) calls = some (contentsOf bs)
    ∧ ∀ calls' bs' further cs cs', exec bufferStep newBuffers calls' = some bs' →
        contentsOf bs' = contentsOf bs →
        exec bufferStep bs further = some cs → exec bufferStep bs' further = some cs' →
        contentsOf cs' = contentsOf cs := by
  have hwf : ∀ n, (bs n).Wf := reachable_wf hrun
  refine ⟨fun n => bufferLaws (hwf n), ?_, buffers_refine_queues wf_newBuffers hrun, ?_⟩
  · intro i j
    refine ⟨by simp [contentsOf, swapAt], ?_, fun n hi hj => by simp [swapAt, hi, hj]⟩
    by_cases h : j = i <;> simp [contentsOf, swapAt, h]
  · intro calls' bs' further cs cs' hrun' heq h1 h2
    exact layout_unobservable (reachable_wf hrun') hwf heq h2 h1

/-- The theorem on a run that consumes, wraps to the front and grows. -/
theorem buffer_refines_byte_queue_on_run :
    ∃ bs, exec bufferStep newBuffers
        [.appendData 0 [1, 2, 3], .retrieve 0 1, .extendSpace 0 1024, .swap 0 1] = some bs
      ∧ contentsOf bs 1 = [2, 3] ∧ ∀ n, BufferLaws (bs n) := by
  refine ⟨_, rfl, ?_, ?_⟩
  · decide +kernel
  · exact (buffer_refines_byte_queue
      [.appendData 0 [1, 2, 3], .retrieve 0 1, .extendSpace 0 1024, .swap 0 1] _ rfl).1

end SparkNet
