/-
# The law of conservation of the pipeline

`SearchExecutor::runAsyncTick` moves the count of a batch from `pendingCounts_` to `totalHashes`
when it finds the batch finished.  So what has been added and what is pending are together what
has been launched, in whatever order the streams finish.
-/
import OhMyMiner.Pipeline.Hashes
import OhMyMiner.Pipeline.Traced
import Mathlib.Data.BitVec

namespace OhMyMiner.Pipeline

open Lib Search

variable {n m : ℕ}

/-! ## What the ticks add -/

/-- An addition to `totalHashes`: the tick and its stream, what `cudaEventQuery` found there, the
batch that was on it, and by how much `totalHashes` has grown. -/
structure Addition (n : ℕ) where
  tick : ℕ
  stream : Fin n
  finished : Bool
  batch : Option ℕ
  amount : BitVec 64

/-- The addition is the count of a batch that an earlier tick has launched on the same stream, and
the tick has found that batch finished. -/
def Addition.Sound (x : Addition n) (launches : List (Launch n)) : Prop :=
  x.finished = true ∧ ∃ b launch, x.batch = some b ∧ launches[b]? = some launch ∧
    launch.stream = x.stream ∧ launch.tick < x.tick ∧ x.amount = launch.work.count

/-- An executor and a record of its additions to `totalHashes`, which has no effect. -/
structure Account (n m : ℕ) where
  executor : SearchExecutor n m
  additions : List (Addition n)

namespace Account

/-- The account before the first tick. -/
def initial (executor : SearchExecutor n m) : Account n m :=
  { executor := executor, additions := [] }

/-- What a tick adds to `totalHashes`, if it changes it. -/
def addition (a : Account n m) (tick : Tick) (totalHashes : BitVec 64) : Option (Addition n) :=
  let after := (a.executor.runAsyncTick tick totalHashes).2.2
  if after = totalHashes then none
  else some { tick := a.executor.ticks, stream := a.executor.streamIdx, finished := tick.finished,
              batch := a.executor.current.batch, amount := after - totalHashes }

/-- One call of `runAsyncTick`.  The caller may change `totalHashes` between the calls. -/
def Step (a : Account n m) (call : Tick × BitVec 64) (a' : Account n m) : Prop :=
  a' = { executor := (a.executor.runAsyncTick call.1 call.2).2.1
         additions := a.additions ++ (a.addition call.1 call.2).toList }

/-- The sum of what has been added. -/
def added (a : Account n m) : BitVec 64 := (a.additions.map Addition.amount).sum

/-- The sum of `pendingCounts_`. -/
def pending (a : Account n m) : BitVec 64 := a.executor.pendingCounts.sum

/-- The sum of the counts of the batches that have been launched. -/
def launched (a : Account n m) : BitVec 64 :=
  (a.executor.launches.map fun launch => launch.work.count).sum

end Account

/-! ## One tick -/

/-- What an entry of a list has held and what is written to it balance the sums. -/
lemma sum_set_add {α : Type*} [AddCommGroup α] {l : List α} {i : ℕ} (hi : i < l.length) (a : α) :
    (l.set i a).sum + l[i]?.getD 0 = l.sum + a := by
  rw [List.sum_set', dif_pos hi, List.getElem?_eq_getElem hi, Option.getD_some]
  abel

namespace SearchExecutor

variable {e : SearchExecutor n m} {tick : Tick} {totalHashes : BitVec 64}

/-- `pendingCounts_` is empty before the first tick and has an entry for each stream after it. -/
def Sized (e : SearchExecutor n m) : Prop := e.pendingCounts = [] ∨ e.pendingCounts.length = n

lemma Sized.sum_sizedCounts (h : e.Sized) : e.sizedCounts.sum = e.pendingCounts.sum := by
  by_cases hlength : e.pendingCounts.length = n
  · rw [sizedCounts_of_length hlength]
  · rw [h.resolve_right hlength, sizedCounts, Pipeline.sizedCounts, if_pos hlength,
      List.sum_replicate, smul_zero, List.sum_nil]

lemma sized_runAsyncTick : (e.runAsyncTick tick totalHashes).2.1.Sized := by
  right
  rw [runAsyncTick, asyncTick]
  split
  · exact List.length_set.trans e.length_sizedCounts
  · exact e.length_sizedCounts

lemma streamIdx_runAsyncTick :
    (e.runAsyncTick tick totalHashes).2.1.streamIdx.1 = (e.streamIdx.1 + 1) % n := by
  rw [runAsyncTick, asyncTick]
  split <;> rfl

/-- **What a tick takes from `pendingCounts_`** and puts there: it replaces the count of the batch
that it collects by the count of the batch that it launches. -/
lemma sum_runAsyncTick (h : e.Sized) :
    (e.runAsyncTick tick totalHashes).2.1.pendingCounts.sum + e.tickHashes tick +
        (e.launches.map fun launch => launch.work.count).sum =
      e.pendingCounts.sum +
        ((e.runAsyncTick tick totalHashes).2.1.launches.map fun launch => launch.work.count).sum
    := by
  rw [runAsyncTick, asyncTick, tickHashes, ← h.sum_sizedCounts]
  split
  · have hlt : e.streamIdx.1 < e.sizedCounts.length := by
      rw [e.length_sizedCounts]
      exact e.streamIdx.2
    have hset : (e.relaunch tick).pendingCounts.sum + e.pendingCount =
        e.sizedCounts.sum + tick.newWork.count := sum_set_add hlt tick.newWork.count
    have hlaunches : ((e.relaunch tick).launches.map fun launch => launch.work.count).sum =
        (e.launches.map fun launch => launch.work.count).sum + tick.newWork.count := by
      simp [relaunch]
    show (e.relaunch tick).pendingCounts.sum + _ + _ =
      _ + ((e.relaunch tick).launches.map fun launch => launch.work.count).sum
    rw [hset, hlaunches]
    ac_rfl
  · show e.sizedCounts.sum + 0 + _ = e.sizedCounts.sum + _
    exact congrArg (· + _) (by simp)

/-- A launch that was recorded stays recorded. -/
lemma getElem?_launches_runAsyncTick {b : ℕ} {launch : Launch n}
    (h : e.launches[b]? = some launch) :
    (e.runAsyncTick tick totalHashes).2.1.launches[b]? = some launch := by
  rw [runAsyncTick, asyncTick]
  split
  · exact e.getElem?_launches_relaunch tick h
  · exact h

/-- After a tick that adds something, what was on its stream is on no stream; and so it stays. -/
lemma Tracked.batch_runAsyncTick (h : e.Tracked) {b : ℕ} (hlt : b < e.launches.length)
    (hb : (∀ i : Fin n, (e.stream i).batch ≠ some b) ∨
      e.free tick = true ∧ e.current.batch = some b) (i : Fin n) :
    ((e.runAsyncTick tick totalHashes).2.1.stream i).batch ≠ some b := by
  rw [runAsyncTick, asyncTick]
  split
  · show ((e.relaunch tick).stream i).batch ≠ some b
    rw [batch_relaunch]
    split
    · exact fun heq => hlt.ne' (Option.some.inj heq)
    · next hne =>
      rcases hb with hb | ⟨-, hcurrent⟩
      · exact hb i
      · exact fun heq => hne (h.stream_eq heq hcurrent)
  · next hbusy =>
    rcases hb with hb | ⟨hfree, -⟩
    · exact hb i
    · exact absurd hfree hbusy

end SearchExecutor

/-! ## Whole runs -/

namespace Account

variable {a a' : Account n m} {call : Tick × BitVec 64}

/-- What holds after every tick. -/
structure Invariant (a : Account n m) : Prop where
  pending : a.executor.Pending
  tracked : a.executor.Tracked
  sized : a.executor.Sized
  conserved : a.added + a.pending = a.launched
  sound : ∀ x ∈ a.additions, x.Sound a.executor.launches
  /-- A batch that was added is on no stream any more. -/
  retired : ∀ x ∈ a.additions, ∀ b, x.batch = some b → ∀ i : Fin n,
    (a.executor.stream i).batch ≠ some b
  once : (a.additions.map Addition.batch).Nodup

lemma invariant_initial (streamIdx : Fin n) (counts : Vector (BitVec 32) n)
    (memory : Vector (Vector DeviceSolution m) n) :
    (initial (SearchExecutor.initial streamIdx counts memory)).Invariant where
  pending := SearchExecutor.pending_initial streamIdx counts memory
  tracked := SearchExecutor.tracked_initial streamIdx counts memory
  sized := Or.inl rfl
  conserved := rfl
  sound := fun _ hmem => absurd hmem List.not_mem_nil
  retired := fun _ hmem => absurd hmem List.not_mem_nil
  once := List.nodup_nil

/-- What a tick adds is what it collects. -/
lemma sum_addition (h : a.Invariant) (tick : Tick) (totalHashes : BitVec 64) :
    ((a.addition tick totalHashes).toList.map Addition.amount).sum =
      a.executor.tickHashes tick := by
  obtain ⟨-, -, hadded⟩ := h.pending.runAsyncTick tick totalHashes
  have hamount : (a.executor.runAsyncTick tick totalHashes).2.2 - totalHashes =
      a.executor.tickHashes tick := by
    rw [hadded, BitVec.add_comm, BitVec.add_sub_cancel]
  rw [addition]
  split
  · next hsame =>
    rw [← hamount, hsame, BitVec.sub_self]
    rfl
  · simpa using hamount

/-- **An addition** is made on a free stream, for the batch on it. -/
lemma addition_spec (h : a.Invariant) {tick : Tick} {totalHashes : BitVec 64} {x : Addition n}
    (hx : x ∈ (a.addition tick totalHashes).toList) :
    a.executor.free tick = true ∧ x.finished = true ∧ x.tick = a.executor.ticks ∧
      x.stream = a.executor.streamIdx ∧ ∃ b launch, x.batch = some b ∧
        a.executor.current.batch = some b ∧ a.executor.launches[b]? = some launch ∧
        x.amount = launch.work.count := by
  obtain ⟨-, -, hadded⟩ := h.pending.runAsyncTick tick totalHashes
  have hmem := Option.mem_toList.mp hx
  rw [addition] at hmem
  split at hmem
  · exact absurd hmem (by simp)
  · next hchanged =>
    obtain rfl := Option.some.inj hmem
    have hhashes : a.executor.tickHashes tick ≠ 0 := by
      intro hzero
      exact hchanged (by rw [hadded, hzero]; simp)
    have hfree : a.executor.free tick = true := by
      by_contra hbusy
      exact hhashes (if_neg hbusy)
    have htick : a.executor.tickHashes tick = a.executor.pendingCount := if_pos hfree
    cases hbatch : a.executor.current.batch with
    | none => exact absurd (htick.trans (h.pending.pendingCount_idle hbatch)) hhashes
    | some b =>
      obtain ⟨launch, hget, hcount⟩ := h.pending.pendingCount_flight hbatch
      have hfinished : tick.finished = true := by
        rw [SearchExecutor.free, hbatch] at hfree
        exact hfree
      refine ⟨hfree, hfinished, rfl, rfl, b, launch, rfl, rfl, hget, ?_⟩
      show _ - _ = _
      rw [hadded, BitVec.add_comm, BitVec.add_sub_cancel, htick, hcount]

/-- What is added is on the stream of the tick, and the addition is sound. -/
lemma addition_sound (h : a.Invariant) {tick : Tick} {totalHashes : BitVec 64} {x : Addition n}
    (hx : x ∈ (a.addition tick totalHashes).toList) :
    x.Sound a.executor.launches ∧ a.executor.free tick = true ∧ ∃ b, x.batch = some b ∧
      a.executor.current.batch = some b ∧ b < a.executor.launches.length := by
  obtain ⟨hfree, hfinished, htick, hstream, b, launch, hbatch, hcurrent, hget, hamount⟩ :=
    addition_spec h hx
  obtain ⟨launch', hget', hon, hearlier, -⟩ := h.tracked.flight _ b hcurrent
  obtain rfl := Option.some.inj (hget.symm.trans hget')
  refine ⟨⟨hfinished, b, launch, hbatch, hget, ?_, ?_, hamount⟩, hfree, b, hbatch, hcurrent,
    (List.getElem?_eq_some_iff.mp hget).1⟩
  · rw [hon, hstream]
  · rw [htick]
    exact hearlier

/-- Sound additions stay sound. -/
lemma sound_runAsyncTick {e : SearchExecutor n m} {tick : Tick}
    {totalHashes : BitVec 64} {x : Addition n} (h : x.Sound e.launches) :
    x.Sound (e.runAsyncTick tick totalHashes).2.1.launches := by
  obtain ⟨hfinished, b, launch, hbatch, hget, hrest⟩ := h
  exact ⟨hfinished, b, launch, hbatch, SearchExecutor.getElem?_launches_runAsyncTick hget, hrest⟩

/-- What is added was pending before. -/
lemma Invariant.balanced (h : a.Invariant) (hstep : Step a call a') :
    a'.added + a'.pending = a'.launched := by
  obtain ⟨tick, totalHashes⟩ := call
  have hadded : a'.added = a.added + a.executor.tickHashes tick := by
    rw [hstep, added, List.map_append, ← sum_addition h tick totalHashes]
    exact List.sum_append
  have hsum : a'.pending + a.executor.tickHashes tick + a.launched = a.pending + a'.launched := by
    rw [hstep]
    exact SearchExecutor.sum_runAsyncTick h.sized
  refine (BitVec.add_left_inj a.launched).mp ?_
  calc a'.added + a'.pending + a.launched
      = a.added + (a'.pending + a.executor.tickHashes tick + a.launched) := by
        rw [hadded]
        ac_rfl
    _ = a.added + (a.pending + a'.launched) := by rw [hsum]
    _ = a'.launched + a.launched := by
        rw [← h.conserved]
        ac_rfl

/-- **Every tick keeps the account balanced.** -/
theorem Invariant.step (h : a.Invariant) (hstep : Step a call a') : a'.Invariant := by
  obtain ⟨tick, totalHashes⟩ := call
  obtain rfl := hstep
  refine ⟨(h.pending.runAsyncTick tick totalHashes).1, h.tracked.step ⟨totalHashes, rfl⟩,
    SearchExecutor.sized_runAsyncTick, ?_, ?_, ?_, ?_⟩
  · exact h.balanced rfl
  · intro x hx
    rcases List.mem_append.mp hx with hold | hnew
    · exact sound_runAsyncTick (h.sound x hold)
    · exact sound_runAsyncTick (addition_sound h hnew).1
  · intro x hx b hb
    rcases List.mem_append.mp hx with hold | hnew
    · obtain ⟨-, b', launch, hb', hget, -⟩ := h.sound x hold
      obtain rfl := Option.some.inj (hb.symm.trans hb')
      exact h.tracked.batch_runAsyncTick (List.getElem?_eq_some_iff.mp hget).1
        (Or.inl (h.retired x hold b hb))
    · obtain ⟨-, hfree, b', hb', hcurrent, hlt⟩ := addition_sound h hnew
      obtain rfl := Option.some.inj (hb.symm.trans hb')
      exact h.tracked.batch_runAsyncTick hlt (Or.inr ⟨hfree, hcurrent⟩)
  · rw [List.map_append]
    refine List.nodup_append'.mpr ⟨h.once, ?_, ?_⟩
    · cases a.addition tick totalHashes with
      | none => exact List.nodup_nil
      | some x => exact List.nodup_singleton _
    -- the new batch was on its stream, and no batch added before is on any
    · intro batch hold hnew
      obtain ⟨x, hx, rfl⟩ := List.mem_map.mp hold
      obtain ⟨y, hy, hsame⟩ := List.mem_map.mp hnew
      obtain ⟨-, -, b, hb, hcurrent, -⟩ := addition_sound h hy
      exact h.retired x hx b (hsame.symm.trans hb) a.executor.streamIdx hcurrent

/-- **The law of conservation.**  After every tick, in whatever order the streams finish, what has
been added to `totalHashes` and what is pending are together what has been launched.  Each batch is
added at most once, by a tick that has found it finished on its stream, and the streams take turns.
-/
theorem run_conserved (streamIdx : Fin n) (counts : Vector (BitVec 32) n)
    (memory : Vector (Vector DeviceSolution m) n) (calls : List (Tick × BitVec 64))
    (a : Account n m)
    (hrun : Run Step (initial (SearchExecutor.initial streamIdx counts memory)) calls a) :
    a.added + a.pending = a.launched ∧
      (∀ x ∈ a.additions, x.Sound a.executor.launches) ∧
      (a.additions.map Addition.batch).Nodup ∧
      a.executor.streamIdx.1 = (streamIdx.1 + calls.length) % n ∧ a.executor.streamIdx.1 < n := by
  have hinv := hrun.invariant Invariant (invariant_initial streamIdx counts memory)
    fun _ _ _ h hstep => h.step hstep
  have hindex := hrun.invariant_labels
    (fun calls a => a.executor.streamIdx.1 = (streamIdx.1 + calls.length) % n)
    (Nat.mod_eq_of_lt streamIdx.2).symm <| by
      rintro calls a call a' hidx rfl
      rw [SearchExecutor.streamIdx_runAsyncTick, hidx, List.length_append, List.length_singleton,
        Nat.mod_add_mod, add_assoc]
  exact ⟨hinv.conserved, hinv.sound, hinv.once, hindex, a.executor.streamIdx.2⟩

/-- Three ticks on two streams add the first batch. -/
theorem run_conserved_oneHit :
    ∃ calls a, Run Step (initial (SearchExecutor.twoStreams 0)) calls a ∧ calls.length = 3 ∧
      a.added = 1 ∧ a.added + a.pending = a.launched := by
  let call : Tick × BitVec 64 := (SearchExecutor.oneHit "1", 0)
  have hrun : Run Step (initial (SearchExecutor.twoStreams 0)) [call, call, call] _ :=
    .snoc (l := [_, _]) (.snoc (l := [_]) (.snoc (l := []) (.refl _) rfl) rfl) rfl
  exact ⟨_, _, hrun, rfl, by decide, (run_conserved _ _ _ _ _ hrun).1⟩

end Account

end OhMyMiner.Pipeline
