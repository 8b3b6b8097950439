/-
# The asynchronous pipeline

`SearchExecutor::runAsyncTick` (`src/cuda/pipeline/search_executor.cpp`) over the streams of the
`PipelineManager` (`src/cuda/pipeline/pipeline_manager.cpp`).  A tick looks at one stream: if the
batch on it has finished, the tick returns its solutions and launches the next batch there.

What the streams and the kernels do is an input of the tick.  An event that was never recorded
counts as finished, and the memory of a stream is arbitrary until a batch is launched on it.  CUDA
calls succeed.
-/
import OhMyMiner.Lib.Transition
import OhMyMiner.Search.Kernel

namespace OhMyMiner.Pipeline

open Lib Search

/-! ## The memory of a stream -/

/-- An entry of a solution array on the device, with the batch whose kernel has written it. -/
structure Slot where
  solution : DeviceSolution
  writer : Option ℕ

/-- A stream, whose solution array has `m` entries. -/
structure Stream (m : ℕ) where
  /-- The batch that was launched last; without one, the event was never recorded. -/
  batch : Option ℕ
  /-- `d_solutionCounts_`. -/
  solutionCount : BitVec 32
  /-- `d_solutions_`. -/
  solutions : Vector Slot m

variable {n m : ℕ}

/-- What a kernel does with a nonce that it accepts. -/
def Stream.store (batch : ℕ) (s : Stream m) (hit : DeviceSolution) : Stream m :=
  { s with
    solutionCount := s.solutionCount + 1
    solutions := s.solutions.setIfInBounds s.solutionCount.toNat
      { solution := hit, writer := some batch } }

/-- `stageWork`, the kernel and the record of the event; `hits` are the accepted nonces in the order
in which they increase the counter. -/
def Stream.launch (batch : ℕ) (hits : List DeviceSolution) (s : Stream m) : Stream m :=
  hits.foldl (Stream.store batch) { s with batch := some batch, solutionCount := 0 }

/-- The entries that `collectResults` finds. -/
def Stream.found (s : Stream m) : List Slot := s.solutions.toList.take s.solutionCount.toNat

/-! ## A tick -/

/-- The index that `advanceStream` sets. -/
def nextStream (i : Fin n) : Fin n := ⟨(i + 1) % n, Nat.mod_lt _ i.pos⟩

/-- `pendingCounts_`, with one entry for each of `n` streams. -/
def sizedCounts (n : ℕ) (pendingCounts : List (BitVec 64)) : List (BitVec 64) :=
  if pendingCounts.length ≠ n then List.replicate n 0 else pendingCounts

/-- What `runAsyncTick` gives back and leaves behind on a stream that is free, and on one that is
not: the solutions, the new state and the new `totalHashes`. -/
def asyncTick {ε : Type*} (free : Bool) (collected : List Solution) (relaunched waiting : ε)
    (pendingCount totalHashes : BitVec 64) : List Solution × ε × BitVec 64 :=
  if free then
    (collected, relaunched, if 0 < pendingCount then totalHashes + pendingCount else totalHashes)
  else
    -- "still running previous work"
    ([], waiting, totalHashes)

/-! ## The executor -/

/-- `SearchWork`. -/
structure SearchWork where
  dDag : Option ℕ
  dagSize : BitVec 64
  headerHash : Hash32
  seedHash : Hash32
  targetBE : Hash32
  startNonce : BitVec 64
  count : BitVec 64
  jobId : String
  epoch : BitVec 32

/-- The arguments of a tick and what happens on the device: whether the batch on the stream has
finished, and the nonces that the new batch accepts. -/
structure Tick where
  newWork : SearchWork
  currentJobId : String
  finished : Bool
  hits : List DeviceSolution

/-- A batch that was launched. -/
structure Launch (n : ℕ) where
  tick : ℕ
  stream : Fin n
  currentJobId : String
  work : SearchWork
  hits : List DeviceSolution

/-- A solution that was returned. -/
structure Returned (n : ℕ) where
  tick : ℕ
  stream : Fin n
  slot : ℕ
  writer : Option ℕ
  solution : Solution

/-- The executor and its pipeline of `n` streams.  What `ticks`, `launches`, `collected` and
`returned` record has no effect. -/
structure SearchExecutor (n m : ℕ) where
  streams : Vector (Stream m) n
  streamIdx : Fin n
  pendingCounts : List (BitVec 64)
  ticks : ℕ
  launches : List (Launch n)
  /-- The batches that have been collected. -/
  collected : List ℕ
  returned : List (Returned n)

/-- The `Solution` of an entry. -/
def Slot.toSolution (slot : Slot) (jobId : String) : Solution :=
  { nonce := slot.solution.nonce, mixHash := slot.solution.mixHash,
    result := slot.solution.result, jobId := jobId }

namespace SearchExecutor

/-- An executor after `PipelineManager::initialize`, with any device memory. -/
def initial (streamIdx : Fin n) (counts : Vector (BitVec 32) n)
    (memory : Vector (Vector DeviceSolution m) n) : SearchExecutor n m :=
  { streams := Vector.ofFn fun i =>
      { batch := none, solutionCount := counts.get i,
        solutions := Vector.ofFn fun k => { solution := (memory.get i).get k, writer := none } }
    streamIdx := streamIdx, pendingCounts := [], ticks := 0, launches := [], collected := [],
    returned := [] }

def stream (e : SearchExecutor n m) (i : Fin n) : Stream m := e.streams.get i

/-- The stream of the next tick. -/
def current (e : SearchExecutor n m) : Stream m := e.stream e.streamIdx

/-- `advanceStream`. -/
def advanceStream (e : SearchExecutor n m) : SearchExecutor n m :=
  { e with streamIdx := nextStream e.streamIdx }

/-- `pendingCounts_`, with one entry for each stream. -/
def sizedCounts (e : SearchExecutor n m) : List (BitVec 64) :=
  Pipeline.sizedCounts n e.pendingCounts

/-- The pending count of the current stream. -/
def pendingCount (e : SearchExecutor n m) : BitVec 64 := e.sizedCounts[e.streamIdx]?.getD 0

/-- The current stream is free: the batch on it has finished, or there is none. -/
def free (e : SearchExecutor n m) (tick : Tick) : Bool :=
  match e.current.batch with
  | none => true
  | some _ => tick.finished

/-- What a tick collects from the current stream. -/
def results (e : SearchExecutor n m) (tick : Tick) : List (Returned n) :=
  e.current.found.mapIdx fun slot entry =>
    { tick := e.ticks, stream := e.streamIdx, slot := slot, writer := entry.writer,
      solution := entry.toSolution tick.currentJobId }

/-- A tick on a stream that is free. -/
def relaunch (e : SearchExecutor n m) (tick : Tick) : SearchExecutor n m :=
  { e with
    streams := e.streams.set e.streamIdx (e.current.launch e.launches.length tick.hits)
    pendingCounts := e.sizedCounts.set e.streamIdx tick.newWork.count
    ticks := e.ticks + 1
    launches := e.launches ++
      [{ tick := e.ticks, stream := e.streamIdx, currentJobId := tick.currentJobId,
         work := tick.newWork, hits := tick.hits }]
    collected := e.collected ++ e.current.batch.toList
    returned := e.returned ++ e.results tick }

/-- `runAsyncTick`: the solutions, the new state and the new `totalHashes`. -/
def runAsyncTick (e : SearchExecutor n m) (tick : Tick) (totalHashes : BitVec 64) :
    List Solution × SearchExecutor n m × BitVec 64 :=
  asyncTick (e.free tick) ((e.results tick).map Returned.solution) (e.relaunch tick).advanceStream
    { e with pendingCounts := e.sizedCounts, ticks := e.ticks + 1 }.advanceStream
    e.pendingCount totalHashes

/-- One tick. -/
def Step (e : SearchExecutor n m) (tick : Tick) (e' : SearchExecutor n m) : Prop :=
  ∃ totalHashes, e' = (e.runAsyncTick tick totalHashes).2.1

end SearchExecutor

/-! ## What a kernel leaves -/

namespace Stream

/-- The counter and the entries after some of the accepted nonces have been stored. -/
lemma launch_spec (batch : ℕ) (hits : List DeviceSolution) (s : Stream m) :
    (s.launch batch hits).batch = some batch ∧
      (s.launch batch hits).solutionCount = BitVec.ofNat 32 hits.length ∧
      ∀ k, k < hits.length → k < 2 ^ 32 → ∀ slot,
        (s.launch batch hits).solutions[k]? = some slot →
          slot.writer = some batch ∧ slot.solution ∈ hits := by
  induction hits using List.reverseRecOn with
  | nil => exact ⟨rfl, rfl, fun k hk => absurd hk (Nat.not_lt_zero k)⟩
  | append_singleton hits hit ih =>
    obtain ⟨hbatch, hcount, hslots⟩ := ih
    have hlaunch : s.launch batch (hits ++ [hit]) = (s.launch batch hits).store batch hit :=
      List.foldl_append
    rw [hlaunch]
    refine ⟨hbatch, ?_, ?_⟩
    · rw [store, hcount, List.length_append, BitVec.ofNat_add]
      rfl
    · intro k hk hlt slot hslot
      rw [store, hcount, BitVec.toNat_ofNat] at hslot
      rw [List.length_append, List.length_singleton] at hk
      by_cases hindex : hits.length % 2 ^ 32 = k
      · -- the entry that has just been written
        rw [hindex, Vector.getElem?_setIfInBounds_self] at hslot
        split at hslot
        · obtain rfl := Option.some.inj hslot
          exact ⟨rfl, List.mem_append_right _ (List.mem_singleton.mpr rfl)⟩
        · exact absurd hslot (by simp)
      · rw [Vector.getElem?_setIfInBounds_ne hindex] at hslot
        have hold : k < hits.length := by
          have hne : k ≠ hits.length := by
            rintro rfl
            exact hindex (Nat.mod_eq_of_lt hlt)
          omega
        obtain ⟨hwriter, hmem⟩ := hslots k hold hlt slot hslot
        exact ⟨hwriter, List.mem_append_left _ hmem⟩

/-- What is found after a launch was stored by its kernel. -/
lemma found_launch {batch : ℕ} {hits : List DeviceSolution} {s : Stream m} {slot : Slot}
    (h : slot ∈ (s.launch batch hits).found) :
    slot.writer = some batch ∧ slot.solution ∈ hits := by
  obtain ⟨-, hcount, hslots⟩ := s.launch_spec batch hits
  obtain ⟨k, hk⟩ := List.mem_iff_getElem?.mp h
  rw [found, List.getElem?_take, hcount, BitVec.toNat_ofNat] at hk
  split at hk
  · next hlt =>
    have hmod : hits.length % 2 ^ 32 ≤ hits.length := Nat.mod_le _ _
    have hword : hits.length % 2 ^ 32 < 2 ^ 32 := Nat.mod_lt _ (by norm_num)
    rw [Vector.getElem?_toList] at hk
    exact hslots k (by omega) (by omega) slot hk
  · exact absurd hk (by simp)

lemma found_eq_nil_iff (hm : 0 < m) (s : Stream m) : s.found = [] ↔ s.solutionCount = 0 := by
  rw [found, List.take_eq_nil_iff]
  constructor
  · rintro (hzero | hnil)
    · exact BitVec.eq_of_toNat_eq hzero
    · have hlength := congrArg List.length hnil
      rw [Vector.length_toList] at hlength
      exact absurd hlength hm.ne'
  · intro hzero
    rw [hzero]
    exact Or.inl rfl

end Stream

namespace SearchExecutor

/-- At first no stream has a batch, and no entry a writer. -/
lemma stream_initial (streamIdx : Fin n) (counts : Vector (BitVec 32) n)
    (memory : Vector (Vector DeviceSolution m) n) (i : Fin n) :
    (initial streamIdx counts memory).stream i =
      { batch := none, solutionCount := counts.get i,
        solutions := Vector.ofFn fun k =>
          { solution := (memory.get i).get k, writer := none } } :=
  Vector.getElem_ofFn i.2

/-- The streams after a tick on a free stream. -/
lemma stream_relaunch (e : SearchExecutor n m) (tick : Tick) (i : Fin n) :
    (e.relaunch tick).stream i =
      if i = e.streamIdx then e.current.launch e.launches.length tick.hits else e.stream i := by
  have hget : ∀ (streams : Vector (Stream m) n) (j : Fin n), streams.get j = streams[j.1] :=
    fun _ _ => rfl
  rw [stream, stream, hget, hget]
  by_cases heq : i = e.streamIdx
  · subst heq
    simp [relaunch]
  · have hne : e.streamIdx.1 ≠ i.1 := fun hidx => heq (Fin.ext hidx.symm)
    simp [relaunch, heq, Vector.getElem_set_ne _ _ hne]

/-- A launch that was recorded stays where it is. -/
lemma getElem?_launches_relaunch (e : SearchExecutor n m) (tick : Tick) {b : ℕ}
    {launch : Launch n} (h : e.launches[b]? = some launch) :
    (e.relaunch tick).launches[b]? = some launch :=
  (List.getElem?_append_left (List.getElem?_eq_some_iff.mp h).1).trans h

lemma length_launches_relaunch (e : SearchExecutor n m) (tick : Tick) :
    (e.relaunch tick).launches.length = e.launches.length + 1 := List.length_append

/-! ## Two streams -/

/-- The size of the solution arrays, for which every tick asks. -/
def maxSolutions : ℕ := 16

/-- A solution of zeros. -/
def zeroSolution : DeviceSolution :=
  { nonce := 0, mixHash := Vector.replicate 32 0, result := Vector.replicate 32 0 }

/-- An entry that no one has written. -/
def zeroSlot : Slot := { solution := zeroSolution, writer := none }

/-- Two streams, whose counters start with `count`. -/
def twoStreams (count : BitVec 32) : SearchExecutor 2 maxSolutions :=
  initial 0 (Vector.replicate 2 count)
    (Vector.replicate 2 (Vector.replicate maxSolutions zeroSolution))

/-- A tick that finds its stream free and launches a batch that accepts one nonce. -/
def oneHit (jobId : String) : Tick :=
  { newWork := { dDag := some 0, dagSize := 128, headerHash := Vector.replicate 32 0,
                 seedHash := Vector.replicate 32 0, targetBE := Vector.replicate 32 0xFF,
                 startNonce := 0, count := 1, jobId := jobId, epoch := 0 }
    currentJobId := jobId, finished := true, hits := [zeroSolution] }

end SearchExecutor

end OhMyMiner.Pipeline
