/-
# The mining loop

`MiningEngine::run` (`src/core/mining_engine.cpp`): each iteration takes the notifications that
have arrived, waits if there is no job or no difficulty, searches a batch of nonces of the
current job on the device and submits what is found.

What the engine does not decide is an input of the iteration: what the pool sends and answers,
whether the DAG of a new epoch can be made, and which nonces of the batch the device accepts.
The calls of the search and the shares that are sent are recorded.
-/
import OhMyMiner.Search.Kernel
import OhMyMiner.Utils.Difficulty

namespace OhMyMiner.Engine

open Search Utils

/-! ## The grid of a search -/

/-- The environment of the launcher.  A texture kernel needs a texture object, which the search
does not pass; the choice is between the other two. -/
structure KernelEnvConfig where
  useOptimized : Bool
  noncesPerThread : ℕ
  noncesPerThread_pos : 0 < noncesPerThread
  noncesPerThread_le : noncesPerThread ≤ 256

/-- The nonces of a launch with `noncesPerThread` nonces a thread, in full blocks. -/
def blockNonces (threadsPerBlock noncesPerThread searchCount : ℕ) : ℕ :=
  let totalThreads := (searchCount + noncesPerThread - 1) / noncesPerThread
  let blocks := (totalThreads + threadsPerBlock - 1) / threadsPerBlock
  blocks * threadsPerBlock * noncesPerThread

/-- The number of nonces that `launch_search_kernel` has searched.  The kernels do not compare
their index with `searchCount`, so that the last block is always full. -/
def gridNonces (cfg : KernelEnvConfig) (searchCount : ℕ) : ℕ :=
  if cfg.useOptimized then blockNonces 512 cfg.noncesPerThread searchCount
  else blockNonces 1024 1 searchCount

/-- The parameters of `DeviceManager::search`. -/
structure SearchCall where
  headerHash : Hash32
  seedHash : Hash32
  targetBE : Hash32
  startNonce : BitVec 64
  count : ℕ

/-- The nonce of an index in the grid. -/
def SearchCall.nonce (call : SearchCall) (index : ℕ) : BitVec 64 :=
  call.startNonce + BitVec.ofNat 64 index

/-- The nonces that a call searches. -/
def SearchCall.range (cfg : KernelEnvConfig) (call : SearchCall) : Set (BitVec 64) :=
  {nonce | ∃ index < gridNonces cfg call.count, nonce = call.nonce index}

/-- 10M nonces per batch. -/
def searchRange : ℕ := 10000000

/-- The size of the solution array on the device. -/
def maxSolutions : ℕ := 16

/-- An index of the grid whose nonce is accepted. -/
structure Hit where
  index : ℕ
  mixHash : Hash32
  result : Hash32

/-- The accepted indices of a launch, in the order in which they increase the solution counter.
Each index is searched once. -/
structure SearchOutcome (cfg : KernelEnvConfig) (searchCount : ℕ) where
  hits : List Hit
  distinct : (hits.map Hit.index).Nodup
  bounded : ∀ hit ∈ hits, hit.index < gridNonces cfg searchCount

/-- What a kernel stores for an index. -/
def SearchCall.deviceSolution (call : SearchCall) (hit : Hit) : DeviceSolution :=
  { nonce := call.nonce hit.index, mixHash := hit.mixHash, result := hit.result }

/-- `searchSync`: the solutions that are read back.  The device manager has no job id of its own
here. -/
def searchSync (pipelineInitialized : Bool) (call : SearchCall) (hits : List Hit) :
    List Solution :=
  if !pipelineInitialized then []
  else
    ((hits.map call.deviceSolution).take maxSolutions).map fun sol =>
      { nonce := sol.nonce, mixHash := sol.mixHash, result := sol.result, jobId := "" }

/-! ## The state -/

/-- The parameters of a `mining.submit` that depend on the solution. -/
structure Share where
  jobId : String
  nonce : BitVec 64
  headerHash : Hash32
  mixHash : Hash32

/-- The engine, with the part of the client and of the device manager that it uses. -/
structure MiningEngine where
  /-- `StratumClient::connected_`. -/
  connected : Bool
  /-- `StratumClient::currentJob_`. -/
  clientJob : MiningJob
  /-- `DeviceManager::pipelineInitialized_`. -/
  pipelineInitialized : Bool
  hasJob : Bool
  currentJob : MiningJob
  currentTarget : Hash32
  lastDifficulty : BitVec 64
  currentDagEpoch : BitVec 32
  acceptedShares : BitVec 32
  rejectedShares : BitVec 32
  /-- The search calls made, with the id of the job. -/
  searches : List (String × SearchCall)
  /-- The shares sent. -/
  shares : List Share

/-- A message that `processNotification` understands. -/
inductive Notification where
  /-- `mining.notify`; `dagReady` tells whether the DAG of its epoch can be initialised. -/
  | job (job : MiningJob) (dagReady : Bool)
  /-- `mining.set_difficulty`. -/
  | difficulty (difficulty : BitVec 64)

/-- What `processMessages` finds. -/
inductive Poll where
  | messages (notifications : List Notification)
  | closed

/-- What becomes of a `mining.submit`. -/
inductive SubmitOutcome where
  | unsent
  | closed
  | accepted
  | rejected

/-- The inputs of an iteration: the poll, if it is time for one, the outcome of the search and
what becomes of the solutions, in order. -/
structure Tick (cfg : KernelEnvConfig) where
  poll : Option Poll
  outcome : SearchOutcome cfg searchRange
  submits : ℕ → SubmitOutcome

namespace MiningEngine

/-- The engine after `initialize`, with any jobs. -/
def initial (clientJob currentJob : MiningJob) : MiningEngine :=
  { connected := true, clientJob := clientJob, pipelineInitialized := false, hasJob := false,
    currentJob := currentJob, currentTarget := Vector.replicate 32 0xFF, lastDifficulty := 0,
    currentDagEpoch := BitVec.allOnes 32, acceptedShares := 0, rejectedShares := 0,
    searches := [], shares := [] }

/-! ## Notifications -/

/-- `onJobReceived`, with `initializeDag`. -/
def onJobReceived (s : MiningEngine) (job : MiningJob) (dagReady : Bool) : MiningEngine :=
  let s := { s with currentJob := job, hasJob := true }
  if job.epoch ≠ s.currentDagEpoch then
    if dagReady then { s with currentDagEpoch := job.epoch, pipelineInitialized := true }
    else { s with hasJob := false }
  else s

/-- `onDifficultyUpdate`; `debugTarget` is the target in `OHMY_DEBUG_TARGET_HEX`. -/
def onDifficultyUpdate (debugTarget : Option Hash32) (s : MiningEngine)
    (difficulty : BitVec 64) : MiningEngine :=
  { s with
    lastDifficulty := difficulty
    currentTarget :=
      match debugTarget with
      | some target => target
      | none => targetFromDifficulty difficulty }

/-- `processNotification`, with the callback of the engine. -/
def processNotification (debugTarget : Option Hash32) (s : MiningEngine) :
    Notification → MiningEngine
  | .job job dagReady => onJobReceived { s with clientJob := job } job dagReady
  | .difficulty difficulty =>
    let target64 := if 0 < difficulty then BitVec.allOnes 64 / difficulty else BitVec.allOnes 64
    onDifficultyUpdate debugTarget
      { s with clientJob := { s.clientJob with target := target64 } } difficulty

/-- `processMessages`, every 100 ms. -/
def processMessages (debugTarget : Option Hash32) (s : MiningEngine) :
    Option Poll → MiningEngine
  | none => s
  | some (.messages notifications) => notifications.foldl (processNotification debugTarget) s
  | some .closed => { s with connected := false }

/-! ## Solutions -/

/-- The job id of a submit: that of the solution, if it has one. -/
def submitJobId (s : MiningEngine) (jobId : String) : String :=
  if jobId = "" then s.clientJob.jobId else jobId

/-- `submitSolution`: the new state and what is returned. -/
def submitSolution (s : MiningEngine) (solution : Solution) (outcome : SubmitOutcome) :
    MiningEngine × Bool :=
  if !s.connected then (s, false)
  else
    let share : Share :=
      { jobId := s.submitJobId solution.jobId, nonce := solution.nonce,
        headerHash := s.clientJob.headerHash, mixHash := solution.mixHash }
    match outcome with
    | .unsent => (s, false)
    | .closed => ({ s with shares := s.shares ++ [share], connected := false }, false)
    | .accepted => ({ s with shares := s.shares ++ [share] }, true)
    | .rejected => ({ s with shares := s.shares ++ [share] }, false)

/-- One solution of `processSolutions`. -/
def processSolution (s : MiningEngine) (solution : Solution) (jobId : String)
    (outcome : SubmitOutcome) : MiningEngine :=
  let submittingSolution := { solution with jobId := jobId }
  match s.submitSolution submittingSolution outcome with
  | (s, true) => { s with acceptedShares := s.acceptedShares + 1 }
  | (s, false) => { s with rejectedShares := s.rejectedShares + 1 }

/-- `processSolutions`. -/
def processSolutions (jobId : String) :
    List Solution → (ℕ → SubmitOutcome) → MiningEngine → MiningEngine
  | [], _, s => s
  | solution :: solutions, submits, s =>
    processSolutions jobId solutions (fun i => submits (i + 1))
      (s.processSolution solution jobId (submits 0))

/-! ## The loop -/

/-- The engine does not wait for a job or for a difficulty. -/
def ready (s : MiningEngine) : Bool := s.hasJob && s.lastDifficulty != 0

/-- The call of an iteration that searches. -/
def searchCall (s : MiningEngine) : SearchCall :=
  { headerHash := s.currentJob.headerHash, seedHash := s.currentJob.seedHash,
    targetBE := s.currentTarget,
    -- "TODO: Replace with actual nonce logic"
    startNonce := 0,
    count := searchRange }

/-- The part of an iteration after the waits. -/
def mineBatch (s : MiningEngine) (hits : List Hit) (submits : ℕ → SubmitOutcome) : MiningEngine :=
  let jobId := s.currentJob.jobId
  let solutions := searchSync s.pipelineInitialized s.searchCall hits
  processSolutions jobId solutions submits
    { s with searches := s.searches ++ [(jobId, s.searchCall)] }

/-- One iteration of `run`. -/
def iterate {cfg : KernelEnvConfig} (debugTarget : Option Hash32) (s : MiningEngine)
    (tick : Tick cfg) : MiningEngine :=
  let s := s.processMessages debugTarget tick.poll
  if s.ready then s.mineBatch tick.outcome.hits tick.submits else s

/-- The loop goes on while the client is connected. -/
def Step (cfg : KernelEnvConfig) (debugTarget : Option Hash32) (s : MiningEngine)
    (tick : Tick cfg) (t : MiningEngine) : Prop :=
  s.connected = true ∧ t = s.iterate debugTarget tick

end MiningEngine

end OhMyMiner.Engine
