/-
# The hash counter of the pipeline

`DeviceManager::Impl::searchAsync` (`src/cuda/device_manager.cu`).  A tick of the executor adds the
count of the batch that it collects, and `searchAsync` adds the count of the batch that it hands
over, in every call: so each batch counts twice, and one that finds its stream busy once.
-/
import OhMyMiner.Pipeline.Executor

namespace OhMyMiner.Pipeline

open Lib Search

variable {n m : ℕ}

/-! ## The code -/

/-- The members of `DeviceManager::Impl` that `searchAsync` uses. -/
structure DeviceManager (n m : ℕ) where
  pipelineInitialized : Bool
  searchExecutor : SearchExecutor n m
  totalHashes : BitVec 64

namespace DeviceManager

/-- A manager that has not searched yet. -/
def initial (pipelineInitialized : Bool) (searchExecutor : SearchExecutor n m) :
    DeviceManager n m :=
  { pipelineInitialized := pipelineInitialized, searchExecutor := searchExecutor,
    totalHashes := 0 }

/-- `searchAsync`.  Without a pipeline it falls back to `search`, which needs the pipeline as well
and returns at once. -/
def searchAsync (d : DeviceManager n m) (call : Tick) : List Solution × DeviceManager n m :=
  if !d.pipelineInitialized then ([], d)
  else
    let (solutions, searchExecutor, totalHashes) :=
      d.searchExecutor.runAsyncTick call d.totalHashes
    -- "Always increment totalHashes_ by w.count for each batch"
    (solutions, { d with
      searchExecutor := searchExecutor
      totalHashes := totalHashes + call.newWork.count })

/-- One call of `searchAsync`. -/
def Step (d : DeviceManager n m) (call : Tick) (d' : DeviceManager n m) : Prop :=
  d' = (d.searchAsync call).2

end DeviceManager

/-! ## What has been collected -/

namespace SearchExecutor

variable {e : SearchExecutor n m} {tick : Tick}

/-- The count of a batch. -/
def batchCount (e : SearchExecutor n m) (b : ℕ) : ℕ :=
  (e.launches[b]?.map fun launch => launch.work.count.toNat).getD 0

/-- The sum of the counts of the batches that have been collected. -/
def collectedHashes (e : SearchExecutor n m) : ℕ := (e.collected.map e.batchCount).sum

/-- The pending count of a stream is that of the batch on it. -/
structure Pending (e : SearchExecutor n m) : Prop where
  flight : ∀ (i : Fin n) b, (e.stream i).batch = some b →
    ∃ launch, e.launches[b]? = some launch ∧ e.sizedCounts[i.1]? = some launch.work.count
  idle : ∀ i : Fin n, (e.stream i).batch = none → e.sizedCounts[i.1]? = some 0
  past : ∀ b ∈ e.collected, b < e.launches.length

lemma length_sizedCounts (e : SearchExecutor n m) : e.sizedCounts.length = n := by
  rw [sizedCounts, Pipeline.sizedCounts]
  split
  · exact List.length_replicate
  · next h => exact not_not.mp h

lemma sizedCounts_of_length (h : e.pendingCounts.length = n) : e.sizedCounts = e.pendingCounts :=
  if_neg (not_not_intro h)

lemma pending_initial (streamIdx : Fin n) (counts : Vector (BitVec 32) n)
    (memory : Vector (Vector DeviceSolution m) n) :
    (initial streamIdx counts memory).Pending where
  flight := fun i b hbatch => absurd hbatch (by simp [stream_initial])
  idle := by
    intro i _
    have hsized : (initial streamIdx counts memory).sizedCounts = List.replicate n 0 := by
      rw [sizedCounts, Pipeline.sizedCounts]
      split
      · rfl
      · next h =>
        obtain rfl : 0 = n := not_not.mp h
        exact i.elim0
    rw [hsized, List.getElem?_replicate, if_pos i.2]
  past := fun b hmem => absurd hmem List.not_mem_nil

/-- The new batch is on the current stream. -/
lemma batch_relaunch (e : SearchExecutor n m) (tick : Tick) (i : Fin n) :
    ((e.relaunch tick).stream i).batch =
      if i = e.streamIdx then some e.launches.length else (e.stream i).batch := by
  rw [stream_relaunch, apply_ite Stream.batch,
    (e.current.launch_spec e.launches.length tick.hits).1]

lemma sizedCounts_relaunch (e : SearchExecutor n m) (tick : Tick) :
    (e.relaunch tick).sizedCounts = e.sizedCounts.set e.streamIdx tick.newWork.count := by
  refine sizedCounts_of_length ?_
  show (e.sizedCounts.set e.streamIdx tick.newWork.count).length = n
  rw [List.length_set, e.length_sizedCounts]

lemma Pending.relaunch (h : e.Pending) (tick : Tick) : (e.relaunch tick).Pending := by
  have hlt : e.streamIdx.1 < e.sizedCounts.length := by
    rw [e.length_sizedCounts]
    exact e.streamIdx.2
  refine ⟨?_, ?_, ?_⟩
  · intro i b hb
    rw [batch_relaunch] at hb
    rw [sizedCounts_relaunch]
    split at hb
    · next heq =>
      obtain rfl := Option.some.inj hb
      refine ⟨_, List.getElem?_concat_length, ?_⟩
      rw [heq, List.getElem?_set_self hlt]
    · next hne =>
      obtain ⟨launch, hget, hcount⟩ := h.flight i b hb
      refine ⟨launch, e.getElem?_launches_relaunch tick hget, ?_⟩
      rw [List.getElem?_set_ne fun hidx => hne (Fin.ext hidx.symm), hcount]
  · intro i hb
    rw [batch_relaunch] at hb
    rw [sizedCounts_relaunch]
    split at hb
    · exact absurd hb (by simp)
    · next hne => rw [List.getElem?_set_ne fun hidx => hne (Fin.ext hidx.symm), h.idle i hb]
  · intro b hmem
    rw [length_launches_relaunch]
    rcases List.mem_append.mp hmem with hold | hnew
    · exact Nat.lt_succ_of_lt (h.past b hold)
    · obtain ⟨launch, hget, -⟩ := h.flight e.streamIdx b (Option.mem_toList.mp hnew)
      exact Nat.lt_succ_of_lt (List.getElem?_eq_some_iff.mp hget).1

/-- Nothing is pending on a stream without a batch. -/
lemma Pending.pendingCount_idle (h : e.Pending) (hbatch : e.current.batch = none) :
    e.pendingCount = 0 := by
  rw [pendingCount]
  exact congrArg (·.getD 0) (h.idle e.streamIdx hbatch)

lemma Pending.pendingCount_flight (h : e.Pending) {b : ℕ} (hbatch : e.current.batch = some b) :
    ∃ launch, e.launches[b]? = some launch ∧ e.pendingCount = launch.work.count := by
  obtain ⟨launch, hget, hcount⟩ := h.flight e.streamIdx b hbatch
  rw [pendingCount]
  exact ⟨launch, hget, congrArg (·.getD 0) hcount⟩

/-- **A tick on a free stream collects what was pending on it.** -/
lemma collectedHashes_relaunch (h : e.Pending) (tick : Tick) :
    (e.relaunch tick).collectedHashes = e.collectedHashes + e.pendingCount.toNat := by
  have hold : ∀ b < e.launches.length, (e.relaunch tick).batchCount b = e.batchCount b := by
    intro b hb
    have hget : (e.relaunch tick).launches[b]? = e.launches[b]? := List.getElem?_append_left hb
    rw [batchCount, batchCount, hget]
  have hpast : e.collected.map (e.relaunch tick).batchCount = e.collected.map e.batchCount :=
    List.map_congr_left fun b hb => hold b (h.past b hb)
  have hcollected : (e.relaunch tick).collected = e.collected ++ e.current.batch.toList := rfl
  rw [collectedHashes, hcollected, List.map_append, List.sum_append, hpast, collectedHashes]
  congr 1
  cases hbatch : e.current.batch with
  | none =>
    rw [h.pendingCount_idle hbatch]
    rfl
  | some b =>
    obtain ⟨launch, hget, hpending⟩ := h.pendingCount_flight hbatch
    rw [hpending, Option.toList_some, List.map_singleton, List.sum_singleton,
      hold b (List.getElem?_eq_some_iff.mp hget).1, batchCount, hget]
    rfl

/-- The count of the batch that a tick collects. -/
def tickHashes (e : SearchExecutor n m) (tick : Tick) : BitVec 64 :=
  if e.free tick then e.pendingCount else 0

/-- **What a tick adds to `totalHashes`** is what it collects. -/
theorem Pending.runAsyncTick (h : e.Pending) (tick : Tick) (totalHashes : BitVec 64) :
    (e.runAsyncTick tick totalHashes).2.1.Pending ∧
      (e.runAsyncTick tick totalHashes).2.1.collectedHashes =
        e.collectedHashes + (e.tickHashes tick).toNat ∧
      (e.runAsyncTick tick totalHashes).2.2 = totalHashes + e.tickHashes tick := by
  rw [SearchExecutor.runAsyncTick, asyncTick, tickHashes]
  split
  · have hnext := h.relaunch tick
    refine ⟨⟨hnext.flight, hnext.idle, hnext.past⟩, collectedHashes_relaunch h tick, ?_⟩
    dsimp only
    split
    · rfl
    · next hzero =>
      have hpending : e.pendingCount = 0 := BitVec.le_zero_iff.mp (BitVec.not_lt.mp hzero)
      rw [hpending]
      exact (BitVec.add_zero _).symm
  · have hsized : ({ e with pendingCounts := e.sizedCounts, ticks := e.ticks + 1 } :
        SearchExecutor n m).advanceStream.sizedCounts = e.sizedCounts :=
      sizedCounts_of_length e.length_sizedCounts
    refine ⟨⟨?_, ?_, h.past⟩, rfl, ?_⟩
    · rw [hsized]
      exact h.flight
    · rw [hsized]
      exact h.idle
    · exact (BitVec.add_zero _).symm

lemma work_of_mem_launches {totalHashes : BitVec 64} {launch : Launch n}
    (h : launch ∈ (e.runAsyncTick tick totalHashes).2.1.launches) :
    launch ∈ e.launches ∨ launch.work = tick.newWork := by
  rw [SearchExecutor.runAsyncTick, asyncTick] at h
  split at h
  · rcases List.mem_append.mp h with hold | hnew
    · exact Or.inl hold
    · obtain rfl := List.mem_singleton.mp hnew
      exact Or.inr rfl
  · exact Or.inl h

end SearchExecutor

/-! ## What is counted -/

namespace DeviceManager

variable {d d' : DeviceManager n m} {call : Tick}

lemma searchAsync_initialized (hpipeline : d.pipelineInitialized = true) (call : Tick) :
    (d.searchAsync call).2 =
      { d with
        searchExecutor := (d.searchExecutor.runAsyncTick call d.totalHashes).2.1
        totalHashes :=
          (d.searchExecutor.runAsyncTick call d.totalHashes).2.2 + call.newWork.count } := by
  rw [searchAsync, hpipeline]
  rfl

lemma searchAsync_uninitialized (hpipeline : d.pipelineInitialized = false) (call : Tick) :
    (d.searchAsync call).2 = d := by
  rw [searchAsync, hpipeline]
  rfl

/-- The sum of the counts that have been handed to `searchAsync`. -/
def submittedHashes (calls : List Tick) : ℕ :=
  (calls.map fun call => call.newWork.count.toNat).sum

/-- **What `totalHashes_` really counts**: what has been collected and, once more, all that has been
handed over. -/
theorem run_totalHashes {streamIdx : Fin n} {counts : Vector (BitVec 32) n}
    {memory : Vector (Vector DeviceSolution m) n} {calls : List Tick}
    (hrun : Run Step (initial true (SearchExecutor.initial streamIdx counts memory)) calls d) :
    d.pipelineInitialized = true ∧ d.searchExecutor.Pending ∧
      d.totalHashes =
        BitVec.ofNat 64 (d.searchExecutor.collectedHashes + submittedHashes calls) := by
  induction hrun with
  | refl => exact ⟨rfl, SearchExecutor.pending_initial streamIdx counts memory, rfl⟩
  | @snoc t u calls call hinit hstep ih =>
    obtain ⟨hpipeline, hpending, htotal⟩ := ih
    obtain ⟨hnext, hcollected, hadded⟩ := hpending.runAsyncTick call t.totalHashes
    have hsubmitted : submittedHashes (calls ++ [call]) =
        submittedHashes calls + call.newWork.count.toNat := by
      simp [submittedHashes]
    have hword : ∀ count : BitVec 64, BitVec.ofNat 64 count.toNat = count := by
      intro count
      rw [BitVec.ofNat_toNat, BitVec.setWidth_eq]
    rw [hstep, searchAsync_initialized hpipeline]
    refine ⟨hpipeline, hnext, ?_⟩
    show _ + call.newWork.count = _
    rw [hadded, hcollected, hsubmitted, htotal, BitVec.ofNat_add, BitVec.ofNat_add,
      BitVec.ofNat_add, BitVec.ofNat_add, hword, hword]
    ac_rfl

/-! ## When the counter is right -/

/-- `totalHashes_` is the sum of the counts of the batches that have been collected. -/
def Accounted (d : DeviceManager n m) : Prop :=
  d.totalHashes.toNat = d.searchExecutor.collectedHashes

/-- The call hands over nothing. -/
def HandsNothing (d : DeviceManager n m) (call : Tick) : Prop :=
  d.pipelineInitialized = false ∨ call.newWork.count = 0

/-- Nothing has been handed over so far. -/
structure Idle (d : DeviceManager n m) : Prop where
  pending : d.searchExecutor.Pending
  totalHashes : d.totalHashes = 0
  launches : ∀ launch ∈ d.searchExecutor.launches, launch.work.count = 0

/-- Batches without nonces add up to nothing. -/
lemma Idle.collectedHashes (h : d.Idle) : d.searchExecutor.collectedHashes = 0 := by
  rw [SearchExecutor.collectedHashes, List.sum_eq_zero_iff]
  intro count hmem
  obtain ⟨b, -, rfl⟩ := List.mem_map.mp hmem
  rw [SearchExecutor.batchCount]
  cases hget : d.searchExecutor.launches[b]? with
  | none => rfl
  | some launch =>
    rw [Option.map_some, h.launches launch (List.mem_of_getElem? hget)]
    rfl

lemma Idle.tickHashes (h : d.Idle) (call : Tick) : d.searchExecutor.tickHashes call = 0 := by
  have hpending : d.searchExecutor.pendingCount = 0 := by
    cases hbatch : d.searchExecutor.current.batch with
    | none => exact h.pending.pendingCount_idle hbatch
    | some b =>
      obtain ⟨launch, hget, hcount⟩ := h.pending.pendingCount_flight hbatch
      rw [hcount, h.launches launch (List.mem_of_getElem? hget)]
  rw [SearchExecutor.tickHashes, hpending, ite_self]

/-- **The first nonces that are handed over** make the counter wrong. -/
lemma Idle.step (h : d.Idle) (hstep : Step d call d') :
    (d'.Accounted ↔ HandsNothing d call) ∧ (HandsNothing d call → d'.Idle) := by
  cases hpipeline : d.pipelineInitialized with
  | false =>
    -- without a pipeline nothing is launched or added
    have hsame : d' = d := hstep.trans (searchAsync_uninitialized hpipeline call)
    have haccounted : d.Accounted := by
      rw [Accounted, h.totalHashes, h.collectedHashes]
      rfl
    rw [hsame]
    exact ⟨⟨fun _ => Or.inl hpipeline, fun _ => haccounted⟩, fun _ => h⟩
  | true =>
    obtain ⟨hnext, hcollected, hadded⟩ := h.pending.runAsyncTick call d.totalHashes
    rw [h.tickHashes] at hcollected hadded
    have hnothing : HandsNothing d call ↔ call.newWork.count = 0 := by
      rw [HandsNothing, hpipeline]
      simp
    have htotal : d'.totalHashes = call.newWork.count := by
      rw [hstep, searchAsync_initialized hpipeline]
      show _ + call.newWork.count = _
      rw [hadded, h.totalHashes]
      simp
    have hzero : d'.searchExecutor.collectedHashes = 0 := by
      rw [hstep, searchAsync_initialized hpipeline]
      exact hcollected.trans (by rw [h.collectedHashes]; rfl)
    rw [hnothing, Accounted, htotal, hzero]
    refine ⟨⟨fun hcount => BitVec.eq_of_toNat_eq hcount, fun hcount => by rw [hcount]; rfl⟩, ?_⟩
    intro hcount
    refine ⟨?_, htotal.trans hcount, ?_⟩
    · rw [hstep, searchAsync_initialized hpipeline]
      exact hnext
    · rw [hstep, searchAsync_initialized hpipeline]
      intro launch hmem
      rcases SearchExecutor.work_of_mem_launches hmem with hold | hnew
      · exact h.launches launch hold
      · rw [hnew, hcount]

/-- **When `totalHashes_` is right.**  In every run of calls that hand over no nonces, and without a
pipeline, the counter is the sum of the counts of the batches that have been collected; and these
are the only runs of which this holds throughout. -/
theorem run_accounted_iff (pipelineInitialized : Bool) (streamIdx : Fin n)
    (counts : Vector (BitVec 32) n) (memory : Vector (Vector DeviceSolution m) n)
    (calls : List Tick) (d : DeviceManager n m) :
    (Run (fun d call d' => Step d call d' ∧ HandsNothing d call)
        (initial pipelineInitialized (SearchExecutor.initial streamIdx counts memory)) calls d →
        d.Accounted) ∧
      (Run (fun d call d' => Step d call d' ∧ HandsNothing d call)
          (initial pipelineInitialized (SearchExecutor.initial streamIdx counts memory)) calls d ↔
        Run (fun d call d' => Step d call d' ∧ d'.Accounted)
          (initial pipelineInitialized (SearchExecutor.initial streamIdx counts memory))
          calls d) := by
  have hstart :
      Idle (initial pipelineInitialized (SearchExecutor.initial streamIdx counts memory)) :=
    ⟨SearchExecutor.pending_initial streamIdx counts memory, rfl,
      fun launch hmem => absurd hmem List.not_mem_nil⟩
  have hstep : ∀ d call d', (d : DeviceManager n m).Idle → Step d call d' ∧ HandsNothing d call →
      d'.Idle := fun d call d' h hcall => (h.step hcall.1).2 hcall.2
  constructor
  · intro hrun
    have hidle := hrun.invariant Idle hstart hstep
    rw [Accounted, hidle.totalHashes, hidle.collectedHashes]
    rfl
  · exact Run.congr Idle hstart hstep fun d call d' h =>
      and_congr_right fun hcall => (h.step hcall).1.symm

/-- Three calls with one nonce each, of which the third collects the first, count four nonces. -/
theorem exists_not_accounted :
    ∃ d, Run Step (initial true (SearchExecutor.twoStreams 0))
        [SearchExecutor.oneHit "1", SearchExecutor.oneHit "1", SearchExecutor.oneHit "1"] d ∧
      d.searchExecutor.collected = [0] ∧ d.totalHashes = 4 ∧ ¬ d.Accounted := by
  refine ⟨_, .snoc (l := [_, _]) (.snoc (l := [_]) (.snoc (l := []) (.refl _) rfl) rfl) rfl, rfl,
    rfl, ?_⟩
  intro haccounted
  have hfour : (4 : ℕ) = 1 := haccounted
  exact absurd hfour (by decide)

end DeviceManager

end OhMyMiner.Pipeline
