/-
# The vector that a search fills

Four functions fill a vector of their caller and return how many solutions they have found:
`searchSync` and `searchDevice` (`src/cuda/device_manager.cu`), and `runSync` and `runAsyncTick`
(`src/cuda/pipeline/search_executor.cpp`).  The caller's vector may hold solutions of an earlier
search.  Only `runAsyncTick` clears it whatever it has found, and also that function leaves it
alone when it returns early; the others clear it only if there is a solution.

The buffers on the device hold anything before a launch.
-/
import OhMyMiner.Engine.Devices
import OhMyMiner.Pipeline.Traced
import OhMyMiner.Search.Collect

namespace OhMyMiner.Engine.Output

open Lib Search Pipeline MultiGpu Reservation

/-! ## The code -/

variable {n m : ℕ}

/-- What the host reads of the buffers of a stream. -/
def buffer (s : Stream m) : Buffer 32 Empty DeviceSolution FieldWrite :=
  { counter := s.solutionCount
    slots := fun i => (s.solutions[i]?.map Slot.solution).getD SearchExecutor.zeroSolution
    phase := Empty.elim }

/-- The size of the solution array. -/
def maxSolutions : BitVec 32 := 16

/-- `searchSync`, on new buffers; `hits` are the nonces that the launch accepts, if it comes to
one. -/
def searchSync (pipelineInitialized hasStream : Bool) (currentJobId : String)
    (memory : Stream maxSolutions.toNat) (hits : List DeviceSolution) (solutions : List Solution) :
    List Solution × BitVec 32 :=
  if !pipelineInitialized then (solutions, 0)
  else if !hasStream then (solutions, 0)
  else readSolutions currentJobId maxSolutions (buffer (memory.launch 0 hits)) solutions

/-- `searchDevice`, on the buffers of the device. -/
def searchDevice (manager : DeviceManager) (deviceId : ℤ) (currentJobId : String)
    (memory : Stream maxSolutions.toNat) (hits : List DeviceSolution) (solutions : List Solution) :
    List Solution × BitVec 32 :=
  match (manager.searchDevice deviceId).1 with
  | none => (solutions, 0)
  | some _ => readSolutions currentJobId maxSolutions (buffer (memory.launch 0 hits)) solutions

/-- `runSync`. -/
def runSync (work : SearchWork) (maxSolutions : BitVec 32) (memory : Stream maxSolutions.toNat)
    (hits : List DeviceSolution) (outSolutions : List Solution) : List Solution × BitVec 32 :=
  readSolutions work.jobId maxSolutions (buffer (memory.launch 0 hits)) outSolutions

/-- `runAsyncTick`.  On a stream that is free it clears the vector before it looks at the
counter. -/
def runAsyncTick (isInitialized : Bool) (maxSolutions : BitVec 32)
    (executor : SearchExecutor n maxSolutions.toNat) (tick : Tick)
    (outSolutions : List Solution) : List Solution × BitVec 32 :=
  if !isInitialized then (outSolutions, 0)
  else if !executor.free tick then (outSolutions, 0)
  else readSolutions tick.currentJobId maxSolutions (buffer executor.current) []

/-! ## What a call should leave -/

/-- The vector holds as many solutions as the call returns, all from a batch that has accepted
`hits`. -/
structure Reports (hits : List DeviceSolution) (output : List Solution × BitVec 32) : Prop where
  length : output.1.length = output.2.toNat
  mem : ∀ sol ∈ output.1, ∃ hit ∈ hits,
    sol.nonce = hit.nonce ∧ sol.mixHash = hit.mixHash ∧ sol.result = hit.result

/-- The nonces accepted by the batch that a tick collects, if there is one. -/
def collectedHits (executor : SearchExecutor n m) : List DeviceSolution :=
  match executor.current.batch with
  | none => []
  | some b => (executor.launches[b]?.map Launch.hits).getD []

/-- The device can be searched. -/
def Available (manager : DeviceManager) (deviceId : ℤ) : Prop :=
  manager.isMultiGpuMode = true ∧ 0 ≤ deviceId ∧ deviceId < manager.deviceStates.entries.length ∧
    ∃ state, manager.deviceStates.lookup deviceId = some state ∧ state.initialized = true

/-! ## Reading the buffers -/

/-- A call that returns early. -/
lemma reports_untouched (hits : List DeviceSolution) (solutions : List Solution) :
    Reports hits (solutions, 0) ↔ solutions = [] := by
  constructor
  · intro h
    exact List.length_eq_zero_iff.mp h.length
  · rintro rfl
    exact { length := rfl, mem := fun sol hsol => absurd hsol List.not_mem_nil }

section Read

variable {maxSolutions : BitVec 32} {s : Stream maxSolutions.toNat} {jobId : String}

lemma length_found (s : Stream m) : s.found.length = min s.solutionCount.toNat m := by
  rw [Stream.found, List.length_take, Vector.length_toList]

/-- The records that are copied are the entries that count. -/
lemma map_slots_buffer {k : ℕ} (hk : k = min s.solutionCount.toNat maxSolutions.toNat) :
    ((List.range k).map (buffer s).slots).map (hostSolution jobId) =
      s.found.map fun slot => slot.toSolution jobId := by
  refine List.ext_getElem (by simp [length_found, hk]) fun i hi hi' => ?_
  rw [List.length_map, length_found] at hi'
  have hget : s.solutions[i]? = some s.solutions[i] := Vector.getElem?_eq_getElem (by omega)
  simp [buffer, Stream.found, hget, hostSolution, Slot.toSolution]

/-- Without a solution the vector stays as it is. -/
lemma readSolutions_buffer_zero (solutions : List Solution) (hcount : s.solutionCount = 0) :
    readSolutions jobId maxSolutions (buffer s) solutions = (solutions, 0) := by
  have hcounter : (buffer s).counter = 0 := hcount
  simp [readSolutions, hcounter]

lemma readSolutions_buffer (solutions : List Solution) (hcount : s.solutionCount ≠ 0) :
    (readSolutions jobId maxSolutions (buffer s) solutions).1 =
        s.found.map (fun slot => slot.toSolution jobId) ∧
      (readSolutions jobId maxSolutions (buffer s) solutions).2.toNat = s.found.length := by
  have hpos : 0 < (buffer s).counter := (BitVec.pos_iff_ne_zero _).mpr hcount
  have hlength := length_found s
  rw [readSolutions]
  dsimp only
  rw [if_pos hpos]
  by_cases hlt : maxSolutions < (buffer s).counter
  · have hlt' : maxSolutions.toNat < s.solutionCount.toNat := hlt
    rw [if_pos hlt]
    refine ⟨map_slots_buffer (k := maxSolutions.toNat) (by omega), ?_⟩
    show maxSolutions.toNat = s.found.length
    omega
  · have hle : ¬ maxSolutions.toNat < s.solutionCount.toNat := hlt
    rw [if_neg hlt]
    refine ⟨map_slots_buffer (k := s.solutionCount.toNat) (by omega), ?_⟩
    show s.solutionCount.toNat = s.found.length
    omega

/-- A vector that has been filled holds what the call returns, if the entries are of the batch. -/
lemma reports_filled_iff (hits : List DeviceSolution) (solutions : List Solution)
    (hcount : s.solutionCount ≠ 0) :
    Reports hits (readSolutions jobId maxSolutions (buffer s) solutions) ↔
      ∀ slot ∈ s.found, slot.solution ∈ hits := by
  obtain ⟨hvector, hnumber⟩ : _ ∧ (readSolutions jobId maxSolutions (buffer s) solutions).2.toNat =
      s.found.length := readSolutions_buffer solutions hcount
  constructor
  · intro h slot hslot
    have hmem : slot.toSolution jobId ∈
        (readSolutions jobId maxSolutions (buffer s) solutions).1 := by
      rw [hvector]
      exact List.mem_map_of_mem hslot
    obtain ⟨hit, hhit, hnonce, hmix, hresult⟩ := h.mem _ hmem
    have heq : slot.solution = hit := by
      obtain ⟨nonce, mixHash, result⟩ := hit
      obtain ⟨⟨nonce', mixHash', result'⟩, writer⟩ := slot
      exact congr (congrArg₂ DeviceSolution.mk hnonce hmix) hresult
    rwa [heq]
  · intro h
    constructor
    · rw [hvector, hnumber, List.length_map]
    · intro sol hsol
      rw [hvector] at hsol
      obtain ⟨slot, hslot, rfl⟩ := List.mem_map.mp hsol
      exact ⟨slot.solution, h slot hslot, rfl, rfl, rfl⟩

/-- **Reading the buffers after a launch** leaves in the vector what the call returns, unless there
is no solution and the vector was not empty. -/
lemma reports_launch_iff (memory : Stream maxSolutions.toNat) (hits : List DeviceSolution)
    (solutions : List Solution) :
    Reports hits (readSolutions jobId maxSolutions (buffer (memory.launch 0 hits)) solutions) ↔
      BitVec.ofNat 32 hits.length ≠ 0 ∨ solutions = [] := by
  obtain ⟨-, hcount, -⟩ := memory.launch_spec 0 hits
  rw [← hcount]
  by_cases hzero : (memory.launch 0 hits).solutionCount = 0
  · rw [readSolutions_buffer_zero solutions hzero, reports_untouched]
    simp [hzero]
  · rw [reports_filled_iff hits solutions hzero]
    exact iff_of_true (fun slot hslot => (Stream.found_launch hslot).2) (.inl hzero)

end Read

/-! ## The four functions -/

lemma searchSync_reports_iff (pipelineInitialized hasStream : Bool) (currentJobId : String)
    (memory : Stream maxSolutions.toNat) (hits : List DeviceSolution) (solutions : List Solution) :
    Reports hits
        (searchSync pipelineInitialized hasStream currentJobId memory hits solutions) ↔
      (pipelineInitialized = true ∧ hasStream = true ∧ BitVec.ofNat 32 hits.length ≠ 0) ∨
        solutions = [] := by
  rw [searchSync]
  cases pipelineInitialized with
  | false => simpa using reports_untouched hits solutions
  | true =>
    cases hasStream with
    | false => simpa using reports_untouched hits solutions
    | true => simpa using reports_launch_iff memory hits solutions

/-- The guards of `searchDevice`. -/
lemma isSome_searchDevice_iff (manager : DeviceManager) (deviceId : ℤ) :
    (manager.searchDevice deviceId).1.isSome = true ↔ Available manager deviceId := by
  rw [DeviceManager.searchDevice, Available]
  split_ifs with hguard
  · refine iff_of_false (by simp) ?_
    rintro ⟨hmode, hnonneg, hlt, -⟩
    rcases hguard with h | h | h
    · exact absurd (hmode.symm.trans h) (by simp)
    · omega
    · omega
  · have hguards : manager.isMultiGpuMode = true ∧ 0 ≤ deviceId ∧
        deviceId < manager.deviceStates.entries.length := by
      simpa [not_or] using hguard
    obtain ⟨hmode, hnonneg, hlt⟩ := hguards
    cases hlookup : manager.deviceStates.lookup deviceId with
    | none => simp
    | some state => cases hinit : state.initialized <;> simp [hinit, hmode, hnonneg, hlt]

lemma searchDevice_reports_iff (manager : DeviceManager) (deviceId : ℤ) (currentJobId : String)
    (memory : Stream maxSolutions.toNat) (hits : List DeviceSolution) (solutions : List Solution) :
    Reports hits (searchDevice manager deviceId currentJobId memory hits solutions) ↔
      (Available manager deviceId ∧ BitVec.ofNat 32 hits.length ≠ 0) ∨ solutions = [] := by
  rw [searchDevice, ← isSome_searchDevice_iff]
  cases (manager.searchDevice deviceId).1 with
  | none => simpa using reports_untouched hits solutions
  | some launch => simpa using reports_launch_iff memory hits solutions

/-- A tick on a stream that is free. -/
lemma reports_current_iff {maxSolutions : BitVec 32}
    {executor : SearchExecutor n maxSolutions.toNat} (h : executor.Tracked) (jobId : String) :
    Reports (collectedHits executor)
        (readSolutions jobId maxSolutions (buffer executor.current) []) ↔
      executor.current.batch.isSome = true ∨ executor.current.found = [] := by
  by_cases hcount : executor.current.solutionCount = 0
  · rw [readSolutions_buffer_zero [] hcount, reports_untouched]
    simp [Stream.found, hcount]
  rw [reports_filled_iff _ [] hcount, collectedHits]
  cases hbatch : executor.current.batch with
  | none => simp [List.eq_nil_iff_forall_not_mem]
  | some b =>
    obtain ⟨launch, hlaunch, -, -, hfound⟩ := h.flight executor.streamIdx b hbatch
    dsimp only
    rw [hlaunch]
    exact iff_of_true (fun slot hslot => (hfound slot hslot).2) (.inl rfl)

lemma found_eq_nil {maxSolutions : BitVec 32} {s : Stream maxSolutions.toNat} :
    s.found = [] ↔ s.solutionCount = 0 ∨ maxSolutions = 0 := by
  rw [← List.length_eq_zero_iff, length_found, Nat.min_eq_zero_iff, BitVec.toNat_eq,
    BitVec.toNat_eq]
  rfl

lemma runAsyncTick_reports_iff {maxSolutions : BitVec 32}
    {executor : SearchExecutor n maxSolutions.toNat} (h : executor.Tracked) (isInitialized : Bool)
    (tick : Tick) (outSolutions : List Solution) :
    Reports (collectedHits executor)
        (runAsyncTick isInitialized maxSolutions executor tick outSolutions) ↔
      if isInitialized = true ∧ executor.free tick = true then
        executor.current.batch.isSome = true ∨ executor.current.solutionCount = 0 ∨
          maxSolutions = 0
      else outSolutions = [] := by
  rw [runAsyncTick]
  cases isInitialized with
  | false => simpa using reports_untouched (collectedHits executor) outSolutions
  | true =>
    cases hfree : executor.free tick with
    | false => simpa using reports_untouched (collectedHits executor) outSolutions
    | true => simpa [found_eq_nil] using reports_current_iff h tick.currentJobId

/-- On a stream that is free, the vector is what the pipeline returns. -/
lemma runAsyncTick_eq {maxSolutions : BitVec 32} {executor : SearchExecutor n maxSolutions.toNat}
    {tick : Tick} (hfree : executor.free tick = true) (outSolutions : List Solution)
    (totalHashes : BitVec 64) :
    (runAsyncTick true maxSolutions executor tick outSolutions).1 =
      (executor.runAsyncTick tick totalHashes).1 := by
  have hresults : (executor.results tick).map Returned.solution =
      executor.current.found.map fun slot => slot.toSolution tick.currentJobId := by
    refine List.ext_getElem (by simp [SearchExecutor.results]) fun i hi hi' => ?_
    simp [SearchExecutor.results]
  rw [SearchExecutor.runAsyncTick, asyncTick, if_pos hfree, hresults, runAsyncTick, hfree]
  by_cases hcount : executor.current.solutionCount = 0
  · simp [readSolutions_buffer_zero [] hcount, Stream.found, hcount]
  · exact (readSolutions_buffer [] hcount).1

/-- **When the vector holds what the call returns.**  The functions that search at once are right
if they come to a launch that finds a solution, or are given an empty vector.  A tick is right on a
stream that is free, except in the first rotation if there is a solution in the memory; if it
returns early, it is right on an empty vector. -/
theorem reports_iff (pipelineInitialized hasStream isInitialized : Bool) (manager : DeviceManager)
    (deviceId : ℤ) (currentJobId : String) (work : SearchWork) (maxSolutions' : BitVec 32)
    (memory : Stream maxSolutions.toNat) (memory' : Stream maxSolutions'.toNat)
    (hits : List DeviceSolution) (solutions : List Solution) {streamIdx : Fin n}
    {counts : Vector (BitVec 32) n}
    {deviceMemory : Vector (Vector DeviceSolution maxSolutions'.toNat) n} {ticks : List Tick}
    {executor : SearchExecutor n maxSolutions'.toNat} (tick : Tick)
    (hrun : Run SearchExecutor.Step (SearchExecutor.initial streamIdx counts deviceMemory) ticks
      executor) :
    (Reports hits (searchSync pipelineInitialized hasStream currentJobId memory hits solutions) ↔
      (pipelineInitialized = true ∧ hasStream = true ∧ BitVec.ofNat 32 hits.length ≠ 0) ∨
        solutions = []) ∧
    (Reports hits (searchDevice manager deviceId currentJobId memory hits solutions) ↔
      (Available manager deviceId ∧ BitVec.ofNat 32 hits.length ≠ 0) ∨ solutions = []) ∧
    (Reports hits (runSync work maxSolutions' memory' hits solutions) ↔
      BitVec.ofNat 32 hits.length ≠ 0 ∨ solutions = []) ∧
    (Reports (collectedHits executor)
        (runAsyncTick isInitialized maxSolutions' executor tick solutions) ↔
      if isInitialized = true ∧ executor.free tick = true then
        executor.current.batch.isSome = true ∨ executor.current.solutionCount = 0 ∨
          maxSolutions' = 0
      else solutions = []) := by
  have htracked : executor.Tracked :=
    hrun.invariant SearchExecutor.Tracked
      (SearchExecutor.tracked_initial streamIdx counts deviceMemory) fun _ _ _ h hstep =>
        h.step hstep
  exact ⟨searchSync_reports_iff pipelineInitialized hasStream currentJobId memory hits solutions,
    searchDevice_reports_iff manager deviceId currentJobId memory hits solutions,
    reports_launch_iff memory' hits solutions,
    runAsyncTick_reports_iff htracked isInitialized tick solutions⟩

/-! ## An old solution -/

/-- A solution of an earlier search. -/
def oldSolution : Solution :=
  { nonce := 1, jobId := "old", mixHash := Vector.replicate 32 0, result := Vector.replicate 32 0 }

/-- The buffers of a launch that has not been started. -/
def emptyMemory : Stream maxSolutions.toNat :=
  { batch := none, solutionCount := 0,
    solutions := Vector.replicate maxSolutions.toNat SearchExecutor.zeroSlot }

/-- A pipeline of two streams after its initialisation. -/
def freshExecutor : SearchExecutor 2 maxSolutions.toNat := SearchExecutor.twoStreams 0

/-- The pipeline after it has launched a batch on each of its streams. -/
def busyExecutor : SearchExecutor 2 maxSolutions.toNat :=
  ((freshExecutor.runAsyncTick (SearchExecutor.oneHit "1") 0).2.1.runAsyncTick
    (SearchExecutor.oneHit "2") 0).2.1

/-- The searches that find a solution, and the tick that collects the first of two batches, are
right though there is an old solution in the vector; the search of a device that does not exist is
not. -/
theorem reports_iff_collected :
    busyExecutor.current.batch = some 0 ∧
      Reports [SearchExecutor.zeroSolution] (searchSync true true "1" emptyMemory
        [SearchExecutor.zeroSolution] [oldSolution]) ∧
      ¬ Reports [SearchExecutor.zeroSolution] (searchDevice DeviceManager.initial 0 "1" emptyMemory
        [SearchExecutor.zeroSolution] [oldSolution]) ∧
      Reports [SearchExecutor.zeroSolution] (runSync (SearchExecutor.oneHit "1").newWork
        maxSolutions emptyMemory [SearchExecutor.zeroSolution] [oldSolution]) ∧
      collectedHits busyExecutor = [SearchExecutor.zeroSolution] ∧
      Reports (collectedHits busyExecutor) (runAsyncTick true maxSolutions busyExecutor
        (SearchExecutor.oneHit "3") [oldSolution]) ∧
      (runAsyncTick true maxSolutions busyExecutor (SearchExecutor.oneHit "3") [oldSolution]).1 =
        (busyExecutor.runAsyncTick (SearchExecutor.oneHit "3") 0).1 := by
  have hrun : Run SearchExecutor.Step freshExecutor
      [SearchExecutor.oneHit "1", SearchExecutor.oneHit "2"] busyExecutor :=
    .snoc (.snoc (.refl _) ⟨0, rfl⟩) ⟨0, rfl⟩
  have hbatch : busyExecutor.current.batch = some 0 := rfl
  obtain ⟨hsync, hdevice, hrunSync, htick⟩ :=
    reports_iff true true true DeviceManager.initial 0 "1" (SearchExecutor.oneHit "1").newWork
      maxSolutions emptyMemory emptyMemory [SearchExecutor.zeroSolution] [oldSolution]
      (SearchExecutor.oneHit "3") hrun
  refine ⟨hbatch, hsync.mpr (.inl ⟨rfl, rfl, by decide⟩), fun h => ?_,
    hrunSync.mpr (.inl (by decide)), rfl, htick.mpr ?_, runAsyncTick_eq rfl _ _⟩
  · rcases hdevice.mp h with ⟨⟨hmode, -⟩, -⟩ | hnil
    · exact absurd hmode (by decide)
    · exact absurd hnil (by simp)
  · rw [if_pos ⟨rfl, rfl⟩, hbatch]
    exact .inl rfl

/-- A search without a solution, one of a device that does not exist, and a tick of a pipeline that
has not been initialised return 0 and leave an old solution in the vector. -/
theorem not_reports_old :
    ¬ Reports [] (searchSync true true "1" emptyMemory [] [oldSolution]) ∧
      ¬ Reports [] (searchDevice DeviceManager.initial 0 "1" emptyMemory [] [oldSolution]) ∧
      ¬ Reports [] (runSync (SearchExecutor.oneHit "1").newWork maxSolutions emptyMemory []
        [oldSolution]) ∧
      ¬ Reports [] (runAsyncTick false maxSolutions freshExecutor (SearchExecutor.oneHit "1")
        [oldSolution]) := by
  have hold : ¬ Reports [] ([oldSolution], 0) := by
    rw [reports_untouched]
    simp
  exact ⟨hold, hold, hold, hold⟩

end OhMyMiner.Engine.Output
