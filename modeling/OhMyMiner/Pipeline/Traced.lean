/-
# The solutions of the pipeline

A tick collects the batch on its stream one rotation after it was launched, and gives its
solutions the job id of the tick that collects them.  In the first rotation nothing has been
launched, and what is collected is what the memory happens to hold.  So a solution belongs to its
job as long as the job does not change during a rotation and fresh counters are 0.
-/
import OhMyMiner.Pipeline.Executor

namespace OhMyMiner.Pipeline

open Lib Search

variable {n m : ℕ}

/-! ## Where a solution comes from -/

/-- The solution was stored by the kernel of a batch that an earlier tick has launched on the same
stream, under the job id that it carries. -/
def Returned.Traced (r : Returned n) (launches : List (Launch n)) : Prop :=
  ∃ b launch, r.writer = some b ∧ launches[b]? = some launch ∧ launch.tick < r.tick ∧
    launch.stream = r.stream ∧ ∃ hit ∈ launch.hits,
      r.solution = { nonce := hit.nonce, mixHash := hit.mixHash, result := hit.result,
                     jobId := launch.currentJobId }

/-- The entry of a batch that a solution was read from. -/
def Returned.key (r : Returned n) : Option ℕ × ℕ := (r.writer, r.slot)

namespace SearchExecutor

variable {e e' : SearchExecutor n m} {tick : Tick}

/-- Every solution that is returned can be traced to its batch, and is returned once. -/
structure Correct (e : SearchExecutor n m) : Prop where
  traced : ∀ r ∈ e.returned, r.Traced e.launches
  once : (e.returned.map Returned.key).Nodup

/-- If the stream of the tick is free, then its solution counter is 0, or the batch on it was
launched under the job id of the tick. -/
def SameJob (e : SearchExecutor n m) (tick : Tick) : Prop :=
  e.free tick = true → e.current.solutionCount = 0 ∨
    ∃ b launch, e.current.batch = some b ∧ e.launches[b]? = some launch ∧
      launch.currentJobId = tick.currentJobId

/-- What holds after every tick. -/
structure Tracked (e : SearchExecutor n m) : Prop where
  /-- What is found on a stream belongs to the batch on it. -/
  flight : ∀ (i : Fin n) b, (e.stream i).batch = some b →
    ∃ launch, e.launches[b]? = some launch ∧ launch.stream = i ∧ launch.tick < e.ticks ∧
      ∀ slot ∈ (e.stream i).found, slot.writer = some b ∧ slot.solution ∈ launch.hits
  unwritten : ∀ i : Fin n, (e.stream i).batch = none →
    ∀ slot ∈ (e.stream i).found, slot.writer = none
  /-- What has been returned is no longer on a stream. -/
  past : ∀ r ∈ e.returned, ∀ b, r.writer = some b → b < e.launches.length ∧
    ∀ i : Fin n, (e.stream i).batch ≠ some b

lemma tracked_initial (streamIdx : Fin n) (counts : Vector (BitVec 32) n)
    (memory : Vector (Vector DeviceSolution m) n) :
    (initial streamIdx counts memory).Tracked where
  flight := fun i b hbatch => absurd hbatch (by simp [stream_initial])
  unwritten := by
    intro i _ slot hslot
    have hmem := List.mem_of_mem_take hslot
    simp only [stream_initial, Vector.toList_ofFn, List.mem_ofFn] at hmem
    obtain ⟨k, rfl⟩ := hmem
    rfl
  past := fun r hmem => absurd hmem List.not_mem_nil

lemma mem_results {r : Returned n} : r ∈ e.results tick ↔
    ∃ k slot, e.current.found[k]? = some slot ∧
      r = { tick := e.ticks, stream := e.streamIdx, slot := k, writer := slot.writer,
            solution := slot.toSolution tick.currentJobId } := by
  rw [results, List.mem_mapIdx]
  constructor
  · rintro ⟨k, hk, rfl⟩
    exact ⟨k, _, List.getElem?_eq_getElem hk, rfl⟩
  · rintro ⟨k, slot, hslot, rfl⟩
    obtain ⟨hk, rfl⟩ := List.getElem?_eq_some_iff.mp hslot
    exact ⟨k, hk, rfl⟩

/-- A tick gives its own job id to what it collects. -/
lemma jobId_of_mem_results {r : Returned n} (hr : r ∈ e.results tick) :
    r.solution.jobId = tick.currentJobId := by
  obtain ⟨k, slot, -, rfl⟩ := mem_results.mp hr
  rfl

/-- What a tick collects was written by the batch on its stream, if there is one. -/
lemma Tracked.results (h : e.Tracked) {r : Returned n} (hr : r ∈ e.results tick) :
    r.writer = e.current.batch := by
  obtain ⟨k, slot, hslot, rfl⟩ := mem_results.mp hr
  have hmem : slot ∈ e.current.found := List.mem_of_getElem? hslot
  cases hbatch : e.current.batch with
  | none => exact h.unwritten e.streamIdx hbatch slot hmem
  | some b =>
    obtain ⟨launch, -, -, -, hfound⟩ := h.flight e.streamIdx b hbatch
    exact (hfound slot hmem).1

/-- A batch is on one stream only. -/
lemma Tracked.stream_eq (h : e.Tracked) {i j : Fin n} {b : ℕ} (hi : (e.stream i).batch = some b)
    (hj : (e.stream j).batch = some b) : i = j := by
  obtain ⟨launch, hget, hstream, -⟩ := h.flight i b hi
  obtain ⟨launch', hget', hstream', -⟩ := h.flight j b hj
  rw [← hstream, ← hstream', Option.some.inj (hget.symm.trans hget')]

lemma Tracked.relaunch (h : e.Tracked) (tick : Tick) : (e.relaunch tick).Tracked := by
  obtain ⟨hbatch, -, -⟩ := e.current.launch_spec e.launches.length tick.hits
  refine ⟨?_, ?_, ?_⟩
  · intro i b hb
    rw [stream_relaunch] at hb ⊢
    split at hb
    · next heq =>
      obtain rfl := Option.some.inj (hbatch.symm.trans hb)
      refine ⟨_, List.getElem?_concat_length, heq.symm, Nat.lt_succ_self _, ?_⟩
      rw [if_pos heq]
      exact fun slot hslot => Stream.found_launch hslot
    · next hne =>
      obtain ⟨launch, hget, hstream, htick, hfound⟩ := h.flight i b hb
      rw [if_neg hne]
      exact ⟨launch, e.getElem?_launches_relaunch tick hget, hstream, Nat.lt_succ_of_lt htick,
        hfound⟩
  · intro i hb
    rw [stream_relaunch] at hb ⊢
    split at hb
    · exact absurd (hbatch.symm.trans hb) (by simp)
    · next hne =>
      rw [if_neg hne]
      exact h.unwritten i hb
  · intro r hr b hwriter
    have hpast : b < e.launches.length ∧
        ∀ i : Fin n, i ≠ e.streamIdx → (e.stream i).batch ≠ some b := by
      rcases List.mem_append.mp hr with hr | hr
      · exact ⟨(h.past r hr b hwriter).1, fun i _ => (h.past r hr b hwriter).2 i⟩
      · have hcurrent : e.current.batch = some b := (h.results hr).symm.trans hwriter
        obtain ⟨launch, hget, -⟩ := h.flight e.streamIdx b hcurrent
        exact ⟨(List.getElem?_eq_some_iff.mp hget).1,
          fun i hne hb => hne (h.stream_eq hb hcurrent)⟩
    refine ⟨?_, fun i hb => ?_⟩
    · rw [length_launches_relaunch]
      exact Nat.lt_succ_of_lt hpast.1
    · rw [stream_relaunch] at hb
      split at hb
      · have hlength := Option.some.inj (hbatch.symm.trans hb)
        omega
      · next hne => exact hpast.2 i hne hb

/-- The solutions of one tick are read from different entries. -/
lemma nodup_results (e : SearchExecutor n m) (tick : Tick) :
    ((e.results tick).map Returned.key).Nodup := by
  have hslots : ((e.results tick).map Returned.key).map Prod.snd =
      List.range e.current.found.length := by
    refine List.ext_getElem (by simp [results]) fun k hk hk' => ?_
    simp [results, Returned.key]
  refine List.Nodup.of_map Prod.snd ?_
  rw [hslots]
  exact List.nodup_range

/-- **A tick on a free stream** returns solutions that can be traced, and for the first time,
exactly if it finds none or has the job id of the batch. -/
lemma Correct.relaunch_iff (hm : 0 < m) (h : e.Tracked) (hcorrect : e.Correct) :
    (e.relaunch tick).Correct ↔ e.current.solutionCount = 0 ∨
      ∃ b launch, e.current.batch = some b ∧ e.launches[b]? = some launch ∧
        launch.currentJobId = tick.currentJobId := by
  rw [← Stream.found_eq_nil_iff hm]
  constructor
  · intro hnew
    rw [or_iff_not_imp_left]
    intro hfound
    -- the first solution of the tick
    obtain ⟨slot, hslot⟩ := List.exists_mem_of_ne_nil _ hfound
    obtain ⟨k, hk⟩ := List.mem_iff_getElem?.mp hslot
    obtain ⟨r, hr⟩ : ∃ r, r ∈ e.results tick := ⟨_, mem_results.mpr ⟨k, slot, hk, rfl⟩⟩
    obtain ⟨b, launch, hwriter, hget, -, -, hit, -, hsolution⟩ :=
      hnew.traced r (List.mem_append_right _ hr)
    have hbatch : e.current.batch = some b := (h.results hr).symm.trans hwriter
    obtain ⟨launch', hget', -⟩ := h.flight e.streamIdx b hbatch
    obtain rfl :=
      Option.some.inj ((e.getElem?_launches_relaunch tick hget').symm.trans hget)
    exact ⟨b, launch', hbatch, hget',
      (congrArg Solution.jobId hsolution).symm.trans (jobId_of_mem_results hr)⟩
  · intro hjob
    constructor
    · intro r hr
      rcases List.mem_append.mp hr with hr | hr
      · obtain ⟨b, launch, hwriter, hget, hrest⟩ := hcorrect.traced r hr
        exact ⟨b, launch, hwriter, e.getElem?_launches_relaunch tick hget, hrest⟩
      · obtain ⟨k, slot, hslot, rfl⟩ := mem_results.mp hr
        have hmem : slot ∈ e.current.found := List.mem_of_getElem? hslot
        rcases hjob with hnil | ⟨b, launch, hbatch, hget, hid⟩
        · rw [hnil] at hmem
          exact absurd hmem List.not_mem_nil
        · obtain ⟨launch', hget', hstream, htick, hfound⟩ := h.flight e.streamIdx b hbatch
          obtain rfl := Option.some.inj (hget.symm.trans hget')
          obtain ⟨hwriter, hhit⟩ := hfound slot hmem
          refine ⟨b, launch, hwriter, e.getElem?_launches_relaunch tick hget, htick, hstream, _,
            hhit, ?_⟩
          rw [hid]
          rfl
    · show ((e.returned ++ e.results tick).map Returned.key).Nodup
      rw [List.map_append]
      refine List.nodup_append'.mpr ⟨hcorrect.once, nodup_results e tick, ?_⟩
      -- what was returned before is from a batch that is not on a stream any more
      intro key hpast hnow
      obtain ⟨r, hr, rfl⟩ := List.mem_map.mp hpast
      obtain ⟨r', hr', hkey⟩ := List.mem_map.mp hnow
      obtain ⟨b, -, hwriter, -⟩ := hcorrect.traced r hr
      have hbatch : e.current.batch = some b :=
        (h.results hr').symm.trans ((congrArg Prod.fst hkey).trans hwriter)
      exact (h.past r hr b hwriter).2 e.streamIdx hbatch

/-! ## Whole runs -/

lemma Tracked.advanceStream (h : e.Tracked) : e.advanceStream.Tracked :=
  ⟨h.flight, h.unwritten, h.past⟩

lemma correct_advanceStream : e.advanceStream.Correct ↔ e.Correct :=
  ⟨fun h => ⟨h.traced, h.once⟩, fun h => ⟨h.traced, h.once⟩⟩

lemma Tracked.step (h : e.Tracked) (hstep : Step e tick e') : e'.Tracked := by
  obtain ⟨totalHashes, rfl⟩ := hstep
  rw [runAsyncTick, asyncTick]
  split
  · exact (h.relaunch tick).advanceStream
  · refine Tracked.advanceStream ⟨?_, h.unwritten, h.past⟩
    intro i b hb
    obtain ⟨launch, hget, hstream, htick, hfound⟩ := h.flight i b hb
    exact ⟨launch, hget, hstream, Nat.lt_succ_of_lt htick, hfound⟩

lemma Correct.step_iff (hm : 0 < m) (h : e.Tracked) (hcorrect : e.Correct)
    (hstep : Step e tick e') : e'.Correct ↔ e.SameJob tick := by
  obtain ⟨totalHashes, rfl⟩ := hstep
  rw [runAsyncTick, asyncTick]
  split
  · next hfree =>
    rw [correct_advanceStream, hcorrect.relaunch_iff hm h]
    exact ⟨fun hjob _ => hjob, fun hjob => hjob hfree⟩
  · next hbusy =>
    rw [correct_advanceStream]
    exact ⟨fun _ hfree => absurd hfree hbusy, fun _ => ⟨hcorrect.traced, hcorrect.once⟩⟩

/-- **Which runs return the right solutions.**  In every run in which each tick has the job id of
the batch that it collects, or collects nothing, every solution that is returned was stored by a
batch of an earlier tick on the same stream, has the job id of that batch, and is returned once;
and these are the only runs of which this holds throughout. -/
theorem run_correct_iff (streamIdx : Fin n) (counts : Vector (BitVec 32) n)
    (memory : Vector (Vector DeviceSolution maxSolutions) n) (ticks : List Tick)
    (e : SearchExecutor n maxSolutions) :
    (Run (fun e tick e' => Step e tick e' ∧ e.SameJob tick) (initial streamIdx counts memory) ticks
        e → e.Correct) ∧
      (Run (fun e tick e' => Step e tick e' ∧ e.SameJob tick) (initial streamIdx counts memory)
          ticks e ↔
        Run (fun e tick e' => Step e tick e' ∧ e'.Correct) (initial streamIdx counts memory)
          ticks e) := by
  have hm : 0 < maxSolutions := by decide
  have hstart : (initial streamIdx counts memory).Tracked ∧
      (initial streamIdx counts memory).Correct :=
    ⟨tracked_initial streamIdx counts memory, fun r hmem => absurd hmem List.not_mem_nil,
      List.nodup_nil⟩
  have hstep : ∀ e tick e', (e : SearchExecutor n maxSolutions).Tracked ∧ e.Correct →
      Step e tick e' ∧ e.SameJob tick → e'.Tracked ∧ e'.Correct := by
    rintro e tick e' ⟨htracked, hcorrect⟩ ⟨hstep, hjob⟩
    exact ⟨htracked.step hstep, (hcorrect.step_iff hm htracked hstep).mpr hjob⟩
  constructor
  · intro hrun
    exact (hrun.invariant (fun e => e.Tracked ∧ e.Correct) hstart hstep).2
  · refine Run.congr (fun e => e.Tracked ∧ e.Correct) hstart hstep ?_
    rintro e tick e' ⟨htracked, hcorrect⟩
    exact and_congr_right fun hstep => (hcorrect.step_iff hm htracked hstep).symm

/-! ## Two runs -/

/-- A solution of job "1" is returned for job "2", and a counter that is not 0 returns what nobody
has stored. -/
theorem exists_not_correct :
    (∃ e, Run Step (twoStreams 0) [oneHit "1", oneHit "2", oneHit "2"] e ∧ ¬ e.Correct) ∧
      ∃ e, Run Step (twoStreams 1) [oneHit "1"] e ∧ ¬ e.Correct := by
  constructor
  · refine ⟨_, .snoc (l := [_, _]) (.snoc (l := [_]) (.snoc (l := []) (.refl _) ⟨0, rfl⟩) ⟨0, rfl⟩)
      ⟨0, rfl⟩, ?_⟩
    intro hcorrect
    obtain ⟨b, launch, hwriter, hget, -, -, hit, -, hsolution⟩ :=
      hcorrect.traced ⟨2, 0, 0, some 0, zeroSlot.toSolution "2"⟩ (List.mem_singleton.mpr rfl)
    obtain rfl := Option.some.inj hwriter
    obtain rfl := Option.some.inj hget
    have hid : "2" = "1" := congrArg Solution.jobId hsolution
    exact absurd hid (by decide)
  · refine ⟨_, .snoc (l := []) (.refl _) ⟨0, rfl⟩, ?_⟩
    intro hcorrect
    obtain ⟨b, launch, hwriter, -⟩ :=
      hcorrect.traced ⟨0, 0, 0, none, zeroSlot.toSolution "1"⟩ (List.mem_singleton.mpr rfl)
    exact absurd hwriter (by simp)

end SearchExecutor

end OhMyMiner.Pipeline
