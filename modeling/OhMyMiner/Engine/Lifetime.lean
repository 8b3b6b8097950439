/-
# The DAG over the lifetime of the engine

`MiningEngine::onJobReceived` and `initializeDag` (`src/core/mining_engine.cpp`) with what they
use of the DAG generator and of the device manager (`initDeviceZeroCopy` and `cleanup` of
`src/cuda/device_manager.cu`), up to the destructor of the engine.

The pointer to the DAG on the device is held by the generator and by the device manager, the
epoch by the generator and by the engine, and a generation can fail halfway.  The jobs and the
outcomes are inputs.  An exception leaves the engine and destroys it.
-/
import OhMyMiner.Dag.Allocation
import OhMyMiner.Engine.Run

namespace OhMyMiner.Engine

open Lib Ethash Dag

/-! ## The state -/

/-- What `DeviceManager::Impl` knows of the DAG. -/
structure DeviceManager where
  dDag : Option ℕ
  dagSize : BitVec 64
  pipelineInitialized : Bool

/-- How a call of `initDeviceZeroCopy` ends: it returns true, or a CUDA call throws, before or
after the DAG is taken over. -/
inductive ZeroCopyOutcome where
  | done
  | threwBefore
  | threwAfter
  deriving DecidableEq

/-- What the outside decides about a call of `initializeDag`. -/
structure DagOutcome where
  generate : CallOutcome
  zeroCopy : ZeroCopyOutcome

/-- Everything succeeds. -/
def DagOutcome.ok : DagOutcome := { generate := CallOutcome.ok, zeroCopy := .done }

/-- A call of `initializeDag` that has to make a DAG makes one and takes it over. -/
def DagOutcome.completes (o : DagOutcome) : Bool :=
  o.generate.runsKernel && o.generate.hostMalloc && o.zeroCopy = .done

/-- A call of `initializeDag` that has to make a DAG ends in an exception. -/
def DagOutcome.throws (o : DagOutcome) : Bool :=
  o.generate.throws || (o.generate.runsKernel && o.generate.hostMalloc && o.zeroCopy ≠ .done)

lemma DagOutcome.throws_ok : DagOutcome.ok.throws = false := rfl

/-- A successful call of `initializeDag`: the epoch, the pointer and the size. -/
structure DagInit where
  epoch : BitVec 32
  dDag : ℕ
  dagSize : BitVec 64

/-- A search that is launched: the job, the DAG it is launched on, and whether that buffer has
been freed before. -/
structure DagSearch where
  job : MiningJob
  dDag : ℕ
  dagSize : BitVec 64
  freed : Bool

/-- The engine as far as DAGs are concerned, with the two components that hold them.  The lists
`dagBuffers`, `inits`, `liveAfterInit` and `searches` record what has happened; nothing that
happens depends on them. -/
structure Components where
  hasJob : Bool
  currentJob : MiningJob
  currentDagEpoch : BitVec 32
  deviceManager : DeviceManager
  dagGenerator : Generator
  /-- An exception has left the engine. -/
  unwinding : Bool
  /-- The DAG buffers that `cudaMalloc` has returned. -/
  dagBuffers : List ℕ
  inits : List DagInit
  /-- The number of DAG buffers in use after each successful `initializeDag`. -/
  liveAfterInit : List ℕ
  searches : List DagSearch

/-- What can happen to the engine. -/
inductive Event where
  /-- A job is delivered. -/
  | job (job : MiningJob) (o : DagOutcome)
  /-- The loop searches. -/
  | search

/-- The client gives a job one of the first 2000 epochs. -/
def Event.Valid : Event → Prop
  | .job delivered _ => delivered.epoch.toNat < 2000
  | .search => True

/-! ## The operations -/

/-- `initDeviceZeroCopy`: whether it throws, and the new state. -/
def DeviceManager.initDeviceZeroCopy (m : DeviceManager) (dDag : ℕ) (dagSize : BitVec 64) :
    ZeroCopyOutcome → Bool × DeviceManager
  | .threwBefore => (true, m)
  | .threwAfter => (true, { m with dagSize := dagSize, dDag := some dDag })
  | .done => (false, { dagSize := dagSize, dDag := some dDag, pipelineInitialized := true })

/-- How a call of `initializeDag` ends. -/
inductive InitResult where
  | returned (ok : Bool)
  | threw

/-- The DAG buffer that a call of `generate` allocates. -/
def allocated (g : Generator) (epoch : BitVec 32) (o : CallOutcome) : List ℕ :=
  if g.currentEpoch = epoch ∧ g.dagData.isSome then []
  else if o.mallocsDag then [g.nextPointer + 1]
  else []

namespace Components

/-- The engine after its constructor, with any job. -/
def initial (currentJob : MiningJob) (cacheDir : String) : Components :=
  { hasJob := false, currentJob := currentJob, currentDagEpoch := BitVec.allOnes 32,
    deviceManager := { dDag := none, dagSize := 0, pipelineInitialized := false },
    dagGenerator := Generator.fresh.setCacheDir cacheDir, unwinding := false, dagBuffers := [],
    inits := [], liveAfterInit := [], searches := [] }

/-- The pointers given to `cudaFree`. -/
def frees (s : Components) : List ℕ := s.dagGenerator.device.frees

/-- The DAG buffers in use. -/
def live (s : Components) : List ℕ := s.dagBuffers.filter fun p => p ∉ s.frees

/-- The end of a successful `initializeDag`. -/
def dagReady (s : Components) (epoch : BitVec 32) (dDag : ℕ) (dagSize : BitVec 64) : Components :=
  let s : Components := { s with
    dagGenerator := s.dagGenerator.freeHostMemory
    currentDagEpoch := epoch
    inits := s.inits ++ [{ epoch := epoch, dDag := dDag, dagSize := dagSize }] }
  { s with liveAfterInit := s.liveAfterInit ++ [s.live.length] }

/-- `initializeDag`; `none` if the generation never ends. -/
def initializeDag (s : Components) (epoch : BitVec 32) (o : DagOutcome) :
    Option (InitResult × Components) := do
  let (result, g) ← s.dagGenerator.generate epoch true o.generate
  let s : Components := { s with
    dagGenerator := g
    dagBuffers := s.dagBuffers ++ allocated s.dagGenerator epoch o.generate }
  match result with
  | .threw => return (.threw, s)
  | .returned none => return (.returned false, s)
  | .returned (some _) =>
    match g.dDag with
    | none => return (.returned false, s)
    | some dDag =>
      if g.dagSize = 0 then return (.returned false, s)
      else
        match s.deviceManager.initDeviceZeroCopy dDag g.dagSize o.zeroCopy with
        | (true, m) => return (.threw, { s with deviceManager := m })
        | (false, m) =>
          let s : Components := { s with deviceManager := m }
          return (.returned true, s.dagReady epoch dDag g.dagSize)

/-- `onJobReceived`. -/
def onJobReceived (s : Components) (job : MiningJob) (o : DagOutcome) : Option Components :=
  let s : Components := { s with currentJob := job, hasJob := true }
  if job.epoch ≠ s.currentDagEpoch then do
    let (result, s) ← s.initializeDag job.epoch o
    match result with
    | .threw => return { s with unwinding := true }
    | .returned false => return { s with hasJob := false }
    | .returned true => return s
  else some s

/-- A search of the current job: nothing is launched without a pipeline or without a DAG. -/
def search (s : Components) : Components :=
  if s.deviceManager.pipelineInitialized then
    match s.deviceManager.dDag with
    | none => s
    | some dDag =>
      { s with
        searches := s.searches ++ [{ job := s.currentJob, dDag := dDag,
                                     dagSize := s.deviceManager.dagSize,
                                     freed := dDag ∈ s.frees }] }
  else s

/-- One event in the life of the engine. -/
inductive Step : Components → Event → Components → Prop
  | job {s t : Components} {job : MiningJob} {o : DagOutcome} (halive : s.unwinding = false)
      (h : s.onJobReceived job o = some t) : Step s (.job job o) t
  | search {s : Components} (halive : s.unwinding = false) (hjob : s.hasJob = true) :
      Step s .search s.search

end Components

/-! ## What a delivery does -/

lemma getDatasetSize_ne_zero (epoch : BitVec 32) : getDatasetSize epoch ≠ 0 := by
  intro hzero
  have hsize := toNat_getDatasetSize epoch
  have hzero' : (0 : BitVec 64).toNat = 0 := rfl
  rw [hzero, hzero'] at hsize
  omega

namespace Components

variable {s t : Components} {job : MiningJob} {o : DagOutcome}

/-- The state in which a delivery has called `generate`. -/
def generated (s : Components) (job : MiningJob) (o : DagOutcome) (g : Generator) : Components :=
  { s with
    currentJob := job
    hasJob := true
    dagGenerator := g
    dagBuffers := s.dagBuffers ++ if o.generate.mallocsDag then [s.dagGenerator.nextPointer + 1]
      else [] }

/-- **What a delivery can do**, as long as the host memory of the last generation is free. -/
theorem onJobReceived_cases (hhost : s.dagGenerator.dagData = none)
    (h : s.onJobReceived job o = some t) :
    (job.epoch = s.currentDagEpoch ∧ t = { s with currentJob := job, hasJob := true }) ∨
      (job.epoch ≠ s.currentDagEpoch ∧ ∃ result g,
        s.dagGenerator.Regenerated job.epoch o.generate result g ∧
        ((result = .threw ∧ t = { s.generated job o g with unwinding := true }) ∨
          (result = .returned none ∧ t = { s.generated job o g with hasJob := false }) ∨
          (result = .returned (some placeholder) ∧
            ((o.zeroCopy = .threwBefore ∧ t = { s.generated job o g with unwinding := true }) ∨
              (o.zeroCopy = .threwAfter ∧
                t = { s.generated job o g with
                  unwinding := true
                  deviceManager := { s.deviceManager with
                    dagSize := getDatasetSize job.epoch
                    dDag := some (s.dagGenerator.nextPointer + 1) } }) ∨
              (o.zeroCopy = .done ∧
                t = { s.generated job o g with
                  deviceManager :=
                    { dagSize := getDatasetSize job.epoch
                      dDag := some (s.dagGenerator.nextPointer + 1)
                      pipelineInitialized := true } }.dagReady job.epoch
                        (s.dagGenerator.nextPointer + 1) (getDatasetSize job.epoch)))))) := by
  rw [onJobReceived] at h
  dsimp only at h
  by_cases hepoch : job.epoch = s.currentDagEpoch
  · rw [if_neg (not_not_intro hepoch)] at h
    exact Or.inl ⟨hepoch, (Option.some.inj h).symm⟩
  rw [if_pos hepoch] at h
  refine Or.inr ⟨hepoch, ?_⟩
  obtain ⟨⟨result, s'⟩, hinit, hresult⟩ := Option.bind_eq_some_iff.mp h
  rw [initializeDag] at hinit
  obtain ⟨⟨generated, g⟩, hgenerate, hrest⟩ := Option.bind_eq_some_iff.mp hinit
  -- without host memory, `generate` cannot return what it has
  have hheld : ¬ (s.dagGenerator.currentEpoch = job.epoch ∧ s.dagGenerator.dagData.isSome) := by
    rw [hhost]
    exact fun hheld => absurd hheld.2 (by decide)
  rw [Generator.generate, if_neg hheld] at hgenerate
  have hregenerated := Generator.regenerated_of_eq hgenerate
  refine ⟨generated, g, hregenerated, ?_⟩
  have hstate : allocated s.dagGenerator job.epoch o.generate =
      if o.generate.mallocsDag then [s.dagGenerator.nextPointer + 1] else [] := if_neg hheld
  dsimp only at hrest
  rw [hstate] at hrest
  rcases generated with (_ | host) | _
  · -- null
    obtain ⟨rfl, rfl⟩ := Prod.mk.inj (Option.some.inj hrest)
    exact Or.inr (Or.inl ⟨rfl, (Option.some.inj hresult).symm⟩)
  · -- a host pointer: the rest depends on the copy into the device manager
    obtain ⟨hplaceholder, hdDag, hsize⟩ := hregenerated.of_some
    rw [hdDag] at hrest
    dsimp only at hrest
    rw [hsize, if_neg (getDatasetSize_ne_zero job.epoch)] at hrest
    refine Or.inr (Or.inr ⟨by rw [hplaceholder], ?_⟩)
    cases hzero : o.zeroCopy with
    | threwBefore =>
      rw [hzero] at hrest
      obtain ⟨rfl, rfl⟩ := Prod.mk.inj (Option.some.inj hrest)
      exact Or.inl ⟨rfl, (Option.some.inj hresult).symm⟩
    | threwAfter =>
      rw [hzero] at hrest
      obtain ⟨rfl, rfl⟩ := Prod.mk.inj (Option.some.inj hrest)
      exact Or.inr (Or.inl ⟨rfl, (Option.some.inj hresult).symm⟩)
    | done =>
      rw [hzero] at hrest
      obtain ⟨rfl, rfl⟩ := Prod.mk.inj (Option.some.inj hrest)
      exact Or.inr (Or.inr ⟨rfl, (Option.some.inj hresult).symm⟩)
  · obtain ⟨rfl, rfl⟩ := Prod.mk.inj (Option.some.inj hrest)
    exact Or.inl ⟨rfl, (Option.some.inj hresult).symm⟩

/-! ## The DAG of the current job -/

/-- The DAG of an `initializeDag` is still in its buffer, as the kernel has left it for the
epoch. -/
def Holds (s : Components) (init : DagInit) : Prop :=
  ∃ schedule content words,
    generateDagGpu schedule content (itemCount init.epoch) = some words ∧
      s.dagGenerator.device.buffers[init.dDag]? = some ⟨init.dagSize.toNat, words⟩

/-- The device manager has the DAG of this `initializeDag`, which the engine takes for current. -/
def Current (s : Components) (init : DagInit) : Prop :=
  s.inits.getLast? = some init ∧ init.epoch = s.currentDagEpoch ∧
    s.deviceManager.dDag = some init.dDag ∧ s.deviceManager.dagSize = init.dagSize

/-- What holds between two deliveries. -/
structure Matches (s : Components) : Prop where
  host : s.dagGenerator.dagData = none
  job : s.hasJob = true → s.currentJob.epoch = s.currentDagEpoch ∧ s.currentJob.epoch.toNat < 2000
  dag : (s.currentDagEpoch = BitVec.allOnes 32 ∧ s.deviceManager.dDag = none) ∨
    ∃ init, s.Current init

/-- What holds of the records, always. -/
structure Recorded (s : Components) : Prop where
  inits : ∀ init ∈ s.inits, s.Holds init
  searches : ∀ search ∈ s.searches, ∃ init ∈ s.inits,
    init.epoch = search.job.epoch ∧ init.dDag = search.dDag ∧ init.dagSize = search.dagSize

lemma Holds.of_extension {init : DagInit} (h : s.Holds init)
    (hbuffers : s.dagGenerator.device.buffers <+: t.dagGenerator.device.buffers) :
    t.Holds init := by
  obtain ⟨schedule, content, words, hwords, hbuffer⟩ := h
  obtain ⟨hlt, hget⟩ := List.getElem?_eq_some_iff.mp hbuffer
  refine ⟨schedule, content, words, hwords, ?_⟩
  rw [List.prefix_iff_getElem?.mp hbuffers _ hlt, hget]

/-- A delivery that leaves the records alone. -/
lemma Recorded.of_extension (h : s.Recorded) (hinits : t.inits = s.inits)
    (hsearches : t.searches = s.searches)
    (hbuffers : s.dagGenerator.device.buffers <+: t.dagGenerator.device.buffers) : t.Recorded where
  inits := by
    rw [hinits]
    exact fun init hmem => (h.inits init hmem).of_extension hbuffers
  searches := by
    rw [hinits, hsearches]
    exact h.searches

lemma Matches.step (h : s.Matches) (hrecorded : s.Recorded) {event : Event}
    (hvalid : Event.Valid event) (hstep : Step s event t) :
    (t.unwinding = false → t.Matches) ∧ t.Recorded := by
  cases hstep with
  | search halive hjob =>
    rw [search]
    split
    · cases hdag : s.deviceManager.dDag with
      | none => exact ⟨fun _ => h, hrecorded⟩
      | some dDag =>
        refine ⟨fun _ => ⟨h.host, h.job, h.dag⟩, hrecorded.inits, ?_⟩
        intro search hmem
        rcases List.mem_append.mp hmem with hold | hnew
        · exact hrecorded.searches search hold
        · obtain rfl := List.mem_singleton.mp hnew
          rcases h.dag with ⟨-, hnone⟩ | ⟨init, hlast, hepoch, hdDag, hsize⟩
          · rw [hnone] at hdag
            exact absurd hdag (by simp)
          · -- the search takes the DAG of the last successful call
            refine ⟨init, List.mem_of_getLast? hlast, hepoch.trans (h.job hjob).1.symm, ?_,
              hsize.symm⟩
            exact Option.some.inj (hdDag.symm.trans hdag)
    · exact ⟨fun _ => h, hrecorded⟩
  | @job _ job o halive hdelivered =>
    have hlt : job.epoch.toNat < 2000 := hvalid
    rcases onJobReceived_cases h.host hdelivered with
      ⟨hepoch, rfl⟩ | ⟨hne, result, g, hgen, hcases⟩
    · exact ⟨fun _ => ⟨h.host, fun _ => ⟨hepoch, hlt⟩, h.dag⟩, hrecorded.inits, hrecorded.searches⟩
    have hbuffers := hgen.buffers
    rcases hcases with ⟨-, rfl⟩ | ⟨rfl, rfl⟩ | ⟨rfl, ⟨-, rfl⟩ | ⟨-, rfl⟩ | ⟨-, rfl⟩⟩
    · exact ⟨fun hfalse => absurd hfalse (by simp), hrecorded.of_extension rfl rfl hbuffers⟩
    · exact ⟨fun _ => ⟨hgen.of_none, fun hfalse => absurd hfalse (by simp), h.dag⟩,
        hrecorded.of_extension rfl rfl hbuffers⟩
    · exact ⟨fun hfalse => absurd hfalse (by simp), hrecorded.of_extension rfl rfl hbuffers⟩
    · exact ⟨fun hfalse => absurd hfalse (by simp), hrecorded.of_extension rfl rfl hbuffers⟩
    · -- the DAG is the one of the job from here on
      obtain ⟨words, hwords, hbuffer⟩ := hgen.words
      refine ⟨fun _ => ⟨rfl, fun _ => ⟨rfl, hlt⟩, Or.inr ⟨_, List.getLast?_concat, rfl, rfl, rfl⟩⟩,
        ?_, ?_⟩
      · intro init hmem
        rcases List.mem_append.mp hmem with hold | hnew
        · exact (hrecorded.inits init hold).of_extension hbuffers
        · obtain rfl := List.mem_singleton.mp hnew
          exact ⟨_, _, words, hwords, hbuffer⟩
      · intro search hmem
        obtain ⟨init, hinit, hsearch⟩ := hrecorded.searches search hmem
        exact ⟨init, List.mem_append_left _ hinit, hsearch⟩

/-- **A job is searched on the DAG of its own epoch.**  Between two deliveries, the device manager
has the pointer and the size of the last successful `initializeDag`, which was for the epoch of
the current job, and that buffer holds what the kernel has left for this epoch; and every
search was launched on the DAG of an `initializeDag` for the epoch of its job. -/
theorem run_dagMatchesJob {currentJob : MiningJob} {cacheDir : String} {events : List Event}
    (hrun : Run (fun s event t => event.Valid ∧ Step s event t) (initial currentJob cacheDir)
      events s) :
    (s.unwinding = false → s.hasJob = true →
      s.currentDagEpoch = s.currentJob.epoch ∧
        ∃ init, s.inits.getLast? = some init ∧ init.epoch = s.currentJob.epoch ∧
          s.deviceManager.dDag = some init.dDag ∧ s.deviceManager.dagSize = init.dagSize ∧
          s.Holds init) ∧
      ∀ search ∈ s.searches, ∃ init ∈ s.inits, init.epoch = search.job.epoch ∧
        init.dDag = search.dDag ∧ init.dagSize = search.dagSize ∧ s.Holds init := by
  obtain ⟨hmatches, hrecorded⟩ := hrun.invariant
    (fun s => (s.unwinding = false → s.Matches) ∧ s.Recorded)
    ⟨fun _ => ⟨rfl, fun hfalse => absurd hfalse (by simp [initial]), Or.inl ⟨rfl, rfl⟩⟩,
      fun _ hmem => absurd hmem List.not_mem_nil, fun _ hmem => absurd hmem List.not_mem_nil⟩ (by
      rintro t event u ⟨hmatches, hrecorded⟩ ⟨hvalid, hstep⟩
      have halive : t.unwinding = false := by cases hstep <;> assumption
      exact (hmatches halive).step hrecorded hvalid hstep)
  constructor
  · intro halive hjob
    obtain ⟨-, hepoch, hdag⟩ := hmatches halive
    obtain ⟨heq, hlt⟩ := hepoch hjob
    refine ⟨heq.symm, ?_⟩
    rcases hdag with ⟨hnone, -⟩ | ⟨init, hlast, hinit, hdDag, hsize⟩
    · rw [heq, hnone] at hlt
      exact absurd hlt (by decide)
    · exact ⟨init, hlast, hinit.trans heq.symm, hdDag, hsize,
        hrecorded.inits init (List.mem_of_getLast? hlast)⟩
  · intro search hmem
    obtain ⟨init, hinit, hepoch, hdDag, hsize⟩ := hrecorded.searches search hmem
    exact ⟨init, hinit, hepoch, hdDag, hsize, hrecorded.inits init hinit⟩

/-! ## A first job -/

/-- Every delivery of a job with a valid epoch comes to an end. -/
theorem exists_onJobReceived (s : Components) {job : MiningJob} (hepoch : job.epoch.toNat < 2000)
    (o : DagOutcome) : ∃ t, s.onJobReceived job o = some t := by
  have hinit : ∀ s : Components, ∃ result t, s.initializeDag job.epoch o = some (result, t) := by
    intro s
    obtain ⟨result, g, hgenerate⟩ := s.dagGenerator.exists_generate hepoch true o.generate
    unfold initializeDag
    rw [hgenerate]
    rcases result with (_ | host) | _
    · exact ⟨_, _, rfl⟩
    · dsimp only [Option.bind_eq_bind, Option.bind_some]
      cases g.dDag with
      | none => exact ⟨_, _, rfl⟩
      | some dDag =>
        dsimp only
        split
        · exact ⟨_, _, rfl⟩
        · cases o.zeroCopy <;> exact ⟨_, _, rfl⟩
    · exact ⟨_, _, rfl⟩
  unfold onJobReceived
  dsimp only
  split
  · obtain ⟨result, t, ht⟩ := hinit { s with currentJob := job, hasJob := true }
    rw [ht]
    rcases result with (_ | _) | _ <;> exact ⟨_, rfl⟩
  · exact ⟨_, rfl⟩

/-- The first job, for epoch 0. -/
def firstJob : MiningJob :=
  { jobId := "1", seedHash := Vector.replicate 32 0, headerHash := Vector.replicate 32 0,
    target := 0, blockNumber := 0, epoch := 0 }

/-- The first job is searched on its DAG. -/
theorem run_dagMatchesJob_first : ∃ s, Run (fun s event t => event.Valid ∧ Step s event t)
    (initial firstJob "") [.job firstJob DagOutcome.ok] s ∧
      (s.unwinding = false → s.hasJob = true → s.currentDagEpoch = s.currentJob.epoch) := by
  have hepoch : firstJob.epoch.toNat < 2000 := by decide
  obtain ⟨t, ht⟩ := exists_onJobReceived (initial firstJob "") hepoch DagOutcome.ok
  have hrun : Run (fun s event t => event.Valid ∧ Step s event t) (initial firstJob "")
      [.job firstJob DagOutcome.ok] t := .snoc (.refl _) ⟨hepoch, .job rfl ht⟩
  exact ⟨t, hrun, fun halive hjob => ((run_dagMatchesJob hrun).1 halive hjob).1⟩

/-! ## The loop -/

/-- The loop of the engine sees this much of the components. -/
def Agrees (e : MiningEngine) (s : Components) : Prop :=
  e.hasJob = s.hasJob ∧ e.currentJob = s.currentJob ∧ e.currentDagEpoch = s.currentDagEpoch ∧
    e.pipelineInitialized = s.deviceManager.pipelineInitialized

/-- A delivery that does not throw is one of the loop. -/
lemma agrees_onJobReceived {e : MiningEngine} (hagrees : Agrees e s)
    (hhost : s.dagGenerator.dagData = none) (h : s.onJobReceived job o = some t)
    (halive : t.unwinding = false) :
    Agrees (e.onJobReceived job t.hasJob) t := by
  obtain ⟨-, -, hepoch, hpipeline⟩ := hagrees
  rw [MiningEngine.onJobReceived]
  dsimp only
  rcases onJobReceived_cases hhost h with ⟨heq, rfl⟩ | ⟨hne, result, g, -, hcases⟩
  · rw [if_neg (not_not_intro (heq.trans hepoch.symm))]
    exact ⟨rfl, rfl, hepoch, hpipeline⟩
  · rw [if_pos (hepoch.symm ▸ hne)]
    rcases hcases with ⟨-, rfl⟩ | ⟨-, rfl⟩ | ⟨-, ⟨-, rfl⟩ | ⟨-, rfl⟩ | ⟨-, rfl⟩⟩
    · exact absurd halive (by simp)
    · exact ⟨rfl, rfl, hepoch, hpipeline⟩
    · exact absurd halive (by simp)
    · exact absurd halive (by simp)
    · exact ⟨rfl, rfl, rfl, rfl⟩

end Components

end OhMyMiner.Engine
