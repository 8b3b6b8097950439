/-
# The miner

The loop of `MiningEngine::run` (`src/core/mining_engine.cpp`) over the parts that do the work: a
job makes the generator and the device manager change hands of a DAG, a search starts a kernel on
the bytes that are in that buffer, its threads take their steps in some order, and what the array
holds at the end is submitted.  These bytes are what the launches of the generation have left,
whether they have succeeded or not.

In `Engine.Run` the outcome of a search, and whether a DAG can be made, are inputs.  Here they are
what the parts do; every run of the miner is one of the loop.
-/
import OhMyMiner.Engine.Buffers
import OhMyMiner.Engine.Kernels
import OhMyMiner.Engine.Shares

namespace OhMyMiner.Engine

open Lib Search Dag Ethash Utils

/-! ## The state -/

/-- The engine with its components. -/
structure Miner where
  engine : MiningEngine
  components : Components

/-- A message, with what the outside decides about a generation. -/
inductive Message where
  /-- `mining.notify`. -/
  | job (job : MiningJob) (o : DagOutcome)
  /-- `mining.set_difficulty`. -/
  | difficulty (difficulty : BitVec 64)

/-- What `processMessages` finds. -/
inductive Mail where
  | messages (messages : List Message)
  | closed

/-- The inputs of an iteration. -/
structure Input where
  mail : Option Mail
  submits : ℕ → SubmitOutcome

namespace Miner

variable (env : Environment) (debugTarget : Option Hash32)

/-- The miner after `initialize`. -/
def initial (clientJob currentJob : MiningJob) (cacheDir : String) : Miner :=
  { engine := .initial clientJob currentJob
    components := .initial currentJob cacheDir }

/-! ## The operations -/

/-- A message is handed over: the engine has a job exactly if the generation of its DAG has not
failed.  An exception ends the run. -/
inductive Deliver : Miner → Message → Miner → Prop
  | job {m : Miner} {job : MiningJob} {o : DagOutcome} {c : Components}
      (h : m.components.onJobReceived job o = some c) (halive : c.unwinding = false) :
      Deliver m (.job job o)
        { engine := m.engine.processNotification debugTarget (.job job c.hasJob), components := c }
  | difficulty {m : Miner} {difficulty : BitVec 64} :
      Deliver m (.difficulty difficulty)
        { m with engine := m.engine.processNotification debugTarget (.difficulty difficulty) }

/-- `processMessages`, if it is time for it. -/
inductive Polled : Miner → Option Mail → Miner → Prop
  | skipped {m : Miner} : Polled m none m
  | messages {m m' : Miner} {messages : List Message}
      (h : Run (Deliver debugTarget) m messages m') : Polled m (some (.messages messages)) m'
  | closed {m : Miner} :
      Polled m (some .closed) { m with engine := { m.engine with connected := false } }

/-- The `dagSize` bytes from the start of a buffer on. -/
def dagBytes (words : Words) (dagSize : ℕ) : Vector Byte dagSize :=
  Vector.ofFn fun i => byteAt (words (i.1 / 8)) (i.1 % 8)

/-- A search whose kernel starts: what `search` leaves in its empty vector when the threads have
come to their end. -/
inductive Launched (m : Miner) : List Solution → Prop
  | mk {dDag : ℕ} {b : DeviceBuffer} {tex1Dfetch : ℕ → Texel} {p₀ p : DevicePool}
      {actions : List DeviceAction}
      (h : m.components.deviceManager.pipelineInitialized = true)
      (hdag : m.components.deviceManager.dDag = some dDag)
      (hbuffer : m.components.dagGenerator.device.buffers[dDag]? = some b)
      (hfresh : (m.engine.searchCall.launchParams
        (dagBytes b.words m.components.deviceManager.dagSize.toNat) tex1Dfetch).Fresh
          (envCfg env) p₀)
      (hrun : Run ((m.engine.searchCall.launchParams
        (dagBytes b.words m.components.deviceManager.dagSize.toNat) tex1Dfetch).Step
          (envCfg env)) p₀ actions p)
      (hdone : (m.engine.searchCall.launchParams
        (dagBytes b.words m.components.deviceManager.dagSize.toNat) tex1Dfetch).Done
          (envCfg env) p) :
      Launched m (SearchCall.results "" [] p).1

/-- `search`: what it leaves in its empty vector.  Without a pipeline nothing is started, and there
may be no DAG or the launch may fail, which no one checks. -/
inductive Searched (m : Miner) : List Solution → Prop
  | unavailable (h : m.components.deviceManager.pipelineInitialized = false) : Searched m []
  | unlaunched (h : m.components.deviceManager.pipelineInitialized = true) : Searched m []
  | launched {solutions : List Solution} (h : Launched env m solutions) : Searched m solutions

/-- What an iteration does with what it finds. -/
def mine (m : Miner) (solutions : List Solution) (submits : ℕ → SubmitOutcome) : Miner :=
  { engine := MiningEngine.processSolutions m.engine.currentJob.jobId solutions submits
      { m.engine with
        searches := m.engine.searches ++ [(m.engine.currentJob.jobId, m.engine.searchCall)] }
    components := m.components.search }

/-- One iteration of `run`. -/
inductive Step : Miner → Input → Miner → Prop
  | wait {m m' : Miner} {input : Input} (hconnected : m.engine.connected = true)
      (hpolled : Polled debugTarget m input.mail m') (hready : m'.engine.ready = false) :
      Step m input m'
  | mine {m m' : Miner} {input : Input} {solutions : List Solution}
      (hconnected : m.engine.connected = true) (hpolled : Polled debugTarget m input.mail m')
      (hready : m'.engine.ready = true) (hsearched : Searched env m' solutions) :
      Step m input (m'.mine solutions input.submits)

/-! ## What the pool has announced -/

end Miner

/-- The job of a message. -/
def Message.announced : Message → Option MiningJob
  | .job delivered _ => some delivered
  | .difficulty _ => none

/-- The difficulty of a message. -/
def Message.announcedDifficulty : Message → Option (BitVec 64)
  | .job _ _ => none
  | .difficulty value => some value

/-- The messages of an iteration. -/
def Input.messages (input : Input) : List Message :=
  match input.mail with
  | some (.messages messages) => messages
  | _ => []

/-- The jobs announced so far. -/
def announcedJobs (messages : List Message) : List MiningJob :=
  messages.filterMap Message.announced

/-- The last difficulty announced so far; 0 if there is none. -/
def lastDifficulty (messages : List Message) : BitVec 64 :=
  (messages.filterMap Message.announcedDifficulty).getLast?.getD 0

@[simp] lemma lastDifficulty_job (received : List Message) (job : MiningJob) (o : DagOutcome) :
    lastDifficulty (received ++ [.job job o]) = lastDifficulty received := by
  simp [lastDifficulty, Message.announcedDifficulty]

@[simp] lemma lastDifficulty_difficulty (received : List Message) (difficulty : BitVec 64) :
    lastDifficulty (received ++ [.difficulty difficulty]) = difficulty := by
  simp [lastDifficulty, Message.announcedDifficulty]

@[simp] lemma announcedJobs_job (received : List Message) (job : MiningJob) (o : DagOutcome) :
    announcedJobs (received ++ [.job job o]) = announcedJobs received ++ [job] := by
  simp [announcedJobs, Message.announced]

@[simp] lemma announcedJobs_difficulty (received : List Message) (difficulty : BitVec 64) :
    announcedJobs (received ++ [.difficulty difficulty]) = announcedJobs received := by
  simp [announcedJobs, Message.announced]

/-- The target of a difficulty. -/
def targetOf (debugTarget : Option Hash32) (difficulty : BitVec 64) : Hash32 :=
  debugTarget.getD (targetFromDifficulty difficulty)

/-- The client gives a job one of the first 2000 epochs. -/
def Message.Valid (message : Message) : Prop :=
  ∀ job ∈ message.announced, job.epoch.toNat < 2000

/-- The DAG of an epoch if all launches succeed: every 64-bit word of it is its own index. -/
def deviceDag (epoch : BitVec 32) : Vector Byte (getDatasetSize epoch).toNat :=
  Miner.dagBytes (fun w => BitVec.ofNat 64 w) (getDatasetSize epoch).toNat

/-! ## The DAG in use -/

/-- A generation: the epoch, and what has become of the call. -/
structure Generation where
  epoch : BitVec 32
  outcome : CallOutcome

/-- The DAG that the launches of a generation have left. -/
def Generation.dag (g : Generation) : Option (Vector Byte (getDatasetSize g.epoch).toNat) :=
  (generateDagGpu g.outcome.schedule g.outcome.dagContent (itemCount g.epoch)).map fun words =>
    Miner.dagBytes words (getDatasetSize g.epoch).toNat

/-- The generation whose DAG is in use after a message.  A job of another epoch changes it if the
kernel runs, there is memory for the placeholder and the device manager takes the DAG over. -/
def Message.inUse (held : Option Generation) : Message → Option Generation
  | .job delivered o =>
    if held.map Generation.epoch ≠ some delivered.epoch ∧ o.completes = true then
      some { epoch := delivered.epoch, outcome := o.generate }
    else held
  | .difficulty _ => held

/-- The generation whose DAG is in use after some messages. -/
def lastGeneration (messages : List Message) : Option Generation :=
  messages.foldl Message.inUse none

@[simp] lemma lastGeneration_concat (received : List Message) (message : Message) :
    lastGeneration (received ++ [message]) = message.inUse (lastGeneration received) := by
  rw [lastGeneration, List.foldl_concat]
  rfl

namespace Components

/-- The device manager is ready to search on the DAG of a generation: nobody has freed it, and it
is what the launches have left. -/
structure OnDevice (c : Components) (g : Generation) (dDag : ℕ) (words : Words) : Prop where
  epoch : c.currentDagEpoch = g.epoch
  pipeline : c.deviceManager.pipelineInitialized = true
  pointer : c.deviceManager.dDag = some dDag
  size : c.deviceManager.dagSize = getDatasetSize g.epoch
  buffer : c.dagGenerator.device.buffers[dDag]? =
    some ⟨(getDatasetSize g.epoch).toNat, words⟩
  words : generateDagGpu g.outcome.schedule g.outcome.dagContent (itemCount g.epoch) = some words

/-- The DAG in use is the one of this generation, if there is one. -/
def Uses (c : Components) : Option Generation → Prop
  | none => c.currentDagEpoch = BitVec.allOnes 32
  | some g => ∃ dDag words, c.OnDevice g dDag words

/-- A lifetime in which the jobs have valid epochs. -/
def Lives (s : Components) : Prop :=
  ∃ events currentJob cacheDir, Run (fun s event t => event.Valid ∧ Step s event t)
    (initial currentJob cacheDir) events s

/-- A search changes the record only. -/
lemma search_eq (s : Components) : ∃ searches, s.search = { s with searches := searches } := by
  rw [search]
  split
  · split
    · exact ⟨_, rfl⟩
    · exact ⟨_, rfl⟩
  · exact ⟨_, rfl⟩

/-- What holds of a lifetime as long as no exception has ended it. -/
lemma Lives.matches {s : Components} (h : s.Lives) :
    (s.unwinding = false → s.Matches) ∧ s.Recorded := by
  obtain ⟨events, currentJob, cacheDir, hrun⟩ := h
  refine hrun.invariant (fun s => (s.unwinding = false → s.Matches) ∧ s.Recorded)
    ⟨fun _ => ⟨rfl, fun hfalse => absurd hfalse (by simp [initial]), Or.inl ⟨rfl, rfl⟩⟩,
      fun _ hmem => absurd hmem List.not_mem_nil, fun _ hmem => absurd hmem List.not_mem_nil⟩ ?_
  rintro t event u ⟨hmatches, hrecorded⟩ ⟨hvalid, hstep⟩
  have halive : t.unwinding = false := by cases hstep <;> assumption
  exact (hmatches halive).step hrecorded hvalid hstep

/-- The device manager's DAG is not freed before the end. -/
lemma Lives.notMem_frees {s : Components} (h : s.Lives) {dDag : ℕ}
    (hdag : s.deviceManager.dDag = some dDag) : dDag ∉ s.frees := by
  obtain ⟨events, currentJob, cacheDir, hrun⟩ := h
  obtain ⟨L, hL⟩ := run_accounted (hrun.mono fun _ _ _ hstep => hstep.2)
  have hlast : dDag ∈ lastFrees L :=
    List.mem_append_right _ (Option.mem_toList.mpr (hL.dDag.symm.trans hdag))
  exact ((hL.mem_iff dDag).mp (mem_of_mem_lastFrees hlast)).2

section Uses

variable {s t : Components} {g : Generation} {generation : Option Generation} {dDag : ℕ}
  {words : Words} {job : MiningJob} {o : DagOutcome}

/-- What a delivery that makes no DAG keeps. -/
lemma OnDevice.of_extension (h : s.OnDevice g dDag words)
    (hmanager : t.deviceManager = s.deviceManager) (hepoch : t.currentDagEpoch = s.currentDagEpoch)
    (hbuffers : s.dagGenerator.device.buffers <+: t.dagGenerator.device.buffers) :
    t.OnDevice g dDag words := by
  obtain ⟨hepoch₀, hpipeline, hpointer, hsize, hbuffer, hwords⟩ := h
  rw [← hmanager] at hpipeline hpointer hsize
  refine ⟨hepoch.trans hepoch₀, hpipeline, hpointer, hsize, ?_, hwords⟩
  obtain ⟨hlt, hget⟩ := List.getElem?_eq_some_iff.mp hbuffer
  rw [List.prefix_iff_getElem?.mp hbuffers _ hlt, hget]

lemma Uses.of_extension (h : s.Uses generation) (hmanager : t.deviceManager = s.deviceManager)
    (hepoch : t.currentDagEpoch = s.currentDagEpoch)
    (hbuffers : s.dagGenerator.device.buffers <+: t.dagGenerator.device.buffers) :
    t.Uses generation := by
  cases generation with
  | none => exact hepoch.trans h
  | some g =>
    obtain ⟨dDag, words, hdevice⟩ := h
    exact ⟨dDag, words, hdevice.of_extension hmanager hepoch hbuffers⟩

/-- The epoch of the DAG in use is that of the engine. -/
lemma Uses.epoch_iff (h : s.Uses generation) (hepoch : job.epoch.toNat < 2000) :
    generation.map Generation.epoch = some job.epoch ↔ job.epoch = s.currentDagEpoch := by
  cases generation with
  | none =>
    have hnone : s.currentDagEpoch = BitVec.allOnes 32 := h
    refine iff_of_false (by simp) fun heq => ?_
    rw [heq, hnone] at hepoch
    exact absurd hepoch (by decide)
  | some g =>
    obtain ⟨dDag, words, hdevice⟩ := h
    rw [hdevice.epoch, Option.map_some, Option.some_inj]
    exact eq_comm

/-- **The DAG in use after a delivery.** -/
lemma Uses.onJobReceived (h : s.Uses generation) (hhost : s.dagGenerator.dagData = none)
    (hepoch : job.epoch.toNat < 2000) (hdelivered : s.onJobReceived job o = some t)
    (halive : t.unwinding = false) : t.Uses ((Message.job job o).inUse generation) := by
  have hinUse : (Message.job job o).inUse generation =
      if job.epoch ≠ s.currentDagEpoch ∧ o.completes = true then
        some { epoch := job.epoch, outcome := o.generate }
      else generation := by
    rw [Message.inUse]
    exact if_congr (and_congr_left' (h.epoch_iff hepoch).not) rfl rfl
  rw [hinUse]
  rcases onJobReceived_cases hhost hdelivered with ⟨heq, rfl⟩ | ⟨hne, result, g, hgen, hcases⟩
  · rw [if_neg fun hnew => hnew.1 heq]
    exact h.of_extension rfl rfl List.prefix_rfl
  rcases hcases with ⟨-, rfl⟩ | ⟨rfl, rfl⟩ | ⟨rfl, ⟨-, rfl⟩ | ⟨-, rfl⟩ | ⟨hzero, rfl⟩⟩
  · exact absurd halive (by simp)
  · -- null is returned only if the kernel does not run or there is no memory
    have hfails : o.completes = false := by
      cases hkernel : o.generate.runsKernel with
      | false => simp [DagOutcome.completes, hkernel]
      | true =>
        have hresult := (hgen.made_of_runsKernel hkernel).1
        have hmalloc : o.generate.hostMalloc = false := by simpa using hresult
        simp [DagOutcome.completes, hmalloc]
    rw [if_neg fun hnew => absurd (hfails.symm.trans hnew.2) (by decide)]
    exact h.of_extension rfl rfl hgen.buffers
  · exact absurd halive (by simp)
  · exact absurd halive (by simp)
  · -- the new DAG is in use, with whatever the launches have left in it
    have hkernel := hgen.runsKernel
    have hresult := (hgen.made_of_runsKernel hkernel).1
    have hmalloc : o.generate.hostMalloc = true := by simpa using hresult
    rw [if_pos ⟨hne, by simp [DagOutcome.completes, hkernel, hmalloc, hzero]⟩]
    obtain ⟨words, hwords, hbuffer⟩ := hgen.words
    exact ⟨_, words, rfl, rfl, rfl, rfl, hbuffer, hwords⟩

end Uses

/-- A job whose generation does not throw. -/
lemma exists_onJobReceived_alive {s : Components} {job : MiningJob} {o : DagOutcome}
    (hepoch : job.epoch.toNat < 2000) (hhost : s.dagGenerator.dagData = none)
    (halive : s.unwinding = false) (ho : o.throws = false) :
    ∃ t, s.onJobReceived job o = some t ∧ t.unwinding = false := by
  obtain ⟨t, ht⟩ := exists_onJobReceived s hepoch o
  refine ⟨t, ht, ?_⟩
  simp only [DagOutcome.throws, Bool.or_eq_false_iff] at ho
  rcases onJobReceived_cases hhost ht with ⟨-, rfl⟩ | ⟨-, result, g, hgen, hcases⟩
  · exact halive
  rcases hcases with ⟨rfl, -⟩ | ⟨-, rfl⟩ | ⟨rfl, hzero⟩
  · exact absurd rfl (hgen.ne_threw ho.1)
  · exact halive
  · have hkernel := hgen.runsKernel
    have hresult := (hgen.made_of_runsKernel hkernel).1
    have hmalloc : o.generate.hostMalloc = true := by simpa using hresult
    have hdone : o.zeroCopy = .done := by simpa [hkernel, hmalloc] using ho.2
    rcases hzero with ⟨hzero, -⟩ | ⟨hzero, -⟩ | ⟨-, rfl⟩
    · exact absurd (hdone.symm.trans hzero) (by simp)
    · exact absurd (hdone.symm.trans hzero) (by simp)
    · exact halive

/-- A job for which everything succeeds. -/
lemma exists_onJobReceived_ok {s : Components} {job : MiningJob} (hepoch : job.epoch.toNat < 2000)
    (hhost : s.dagGenerator.dagData = none) (halive : s.unwinding = false) :
    ∃ t, s.onJobReceived job DagOutcome.ok = some t ∧ t.unwinding = false ∧ t.hasJob = true := by
  obtain ⟨t, ht, halive'⟩ := exists_onJobReceived_alive hepoch hhost halive DagOutcome.throws_ok
  refine ⟨t, ht, halive', ?_⟩
  rcases onJobReceived_cases hhost ht with ⟨-, rfl⟩ | ⟨-, result, g, hgen, hcases⟩
  · rfl
  · obtain ⟨hresult, -⟩ := hgen.made_of_runsKernel rfl
    rcases hcases with ⟨hthrew, -⟩ | ⟨hnone, -⟩ | ⟨-, ⟨-, rfl⟩ | ⟨-, rfl⟩ | ⟨-, rfl⟩⟩
    · exact absurd (hthrew.symm.trans hresult) (by simp)
    · exact absurd (hnone.symm.trans hresult) (by simp [DagOutcome.ok, CallOutcome.ok])
    · rfl
    · rfl
    · rfl

end Components

namespace Miner

variable {env : Environment} {debugTarget : Option Hash32} {m m' : Miner}
  {messages received : List Message}

/-! ## Deliveries -/

/-- What holds after some messages. -/
structure Received (debugTarget : Option Hash32) (received : List Message) (m : Miner) : Prop where
  agrees : Components.Agrees m.engine m.components
  alive : m.components.unwinding = false
  lives : m.components.Lives
  uses : m.components.Uses (lastGeneration received)
  current : m.engine.hasJob = true →
    (announcedJobs received).getLast? = some m.engine.currentJob ∧
      m.engine.clientJob.jobId = m.engine.currentJob.jobId ∧
      m.engine.clientJob.headerHash = m.engine.currentJob.headerHash
  difficulty : m.engine.lastDifficulty = lastDifficulty received
  target : m.engine.lastDifficulty ≠ 0 →
    m.engine.currentTarget = targetOf debugTarget m.engine.lastDifficulty

variable (debugTarget) in
/-- A job becomes that of the client and of the engine, and leaves the difficulty and the target
as they are. -/
lemma processNotification_job (e : MiningEngine) (job : MiningJob) (dagReady : Bool) :
    (e.processNotification debugTarget (.job job dagReady)).currentJob = job ∧
      (e.processNotification debugTarget (.job job dagReady)).clientJob = job ∧
      (e.processNotification debugTarget (.job job dagReady)).lastDifficulty = e.lastDifficulty ∧
      (e.processNotification debugTarget (.job job dagReady)).currentTarget = e.currentTarget := by
  rw [MiningEngine.processNotification, MiningEngine.onJobReceived]
  dsimp only
  split_ifs <;> exact ⟨rfl, rfl, rfl, rfl⟩

lemma Received.deliver {message : Message} (h : Received debugTarget received m)
    (hvalid : message.Valid) (hdeliver : Deliver debugTarget m message m') :
    Received debugTarget (received ++ [message]) m' := by
  cases hdeliver with
  | @job job o c hjob halive =>
    obtain ⟨hmatches, -⟩ := h.lives.matches
    obtain ⟨hcurrent, hclient, hdifficulty, htarget⟩ :=
      processNotification_job debugTarget m.engine job c.hasJob
    constructor
    case agrees =>
      exact Components.agrees_onJobReceived h.agrees (hmatches h.alive).host hjob halive
    case alive => exact halive
    case lives =>
      obtain ⟨events, currentJob, cacheDir, hrun⟩ := h.lives
      have hevent : Event.Valid (.job job o) := hvalid job rfl
      exact ⟨_, currentJob, cacheDir, hrun.snoc ⟨hevent, .job h.alive hjob⟩⟩
    case uses =>
      rw [lastGeneration_concat]
      exact h.uses.onJobReceived (hmatches h.alive).host (hvalid job rfl) hjob halive
    case current =>
      intro _
      rw [announcedJobs_job, hcurrent, hclient]
      exact ⟨List.getLast?_concat, rfl, rfl⟩
    case difficulty => rw [hdifficulty, lastDifficulty_job, h.difficulty]
    case target =>
      rw [hdifficulty, htarget]
      exact h.target
  | @difficulty value =>
    constructor
    case agrees => exact h.agrees
    case alive => exact h.alive
    case lives => exact h.lives
    case uses =>
      rw [lastGeneration_concat]
      exact h.uses
    case current =>
      rw [announcedJobs_difficulty]
      exact h.current
    case difficulty =>
      rw [lastDifficulty_difficulty]
      rfl
    case target =>
      intro _
      cases debugTarget <;> rfl

/-- A miner can take every job whose generation does not throw. -/
lemma Received.exists_deliver (h : Received debugTarget received m) {job : MiningJob}
    {o : DagOutcome} (hepoch : job.epoch.toNat < 2000) (ho : o.throws = false) :
    ∃ m', Deliver debugTarget m (.job job o) m' := by
  obtain ⟨hmatches, -⟩ := h.lives.matches
  obtain ⟨c, hc, halive⟩ :=
    Components.exists_onJobReceived_alive hepoch (hmatches h.alive).host h.alive ho
  exact ⟨_, .job hc halive⟩

/-- What holds after the messages of an iteration, whether they are looked at or not. -/
lemma Received.polled {input : Input} (h : Received debugTarget received m)
    (hvalid : ∀ message ∈ input.messages, message.Valid)
    (hpolled : Polled debugTarget m input.mail m') :
    Received debugTarget (received ++ input.messages) m' := by
  obtain ⟨mail, submits⟩ := input
  cases hpolled with
  | skipped => simpa [Input.messages] using h
  | closed =>
    have hclosed : Received debugTarget received
        { m with engine := { m.engine with connected := false } } :=
      ⟨h.agrees, h.alive, h.lives, h.uses, h.current, h.difficulty, h.target⟩
    simpa [Input.messages] using hclosed
  | @messages _ messages hrun =>
    show Received debugTarget (received ++ messages) m'
    have hvalid' : ∀ message ∈ messages, message.Valid := hvalid
    clear hvalid
    induction hrun with
    | refl => simpa using h
    | snoc _ hdeliver ih =>
      have hinit := ih fun message hmem => hvalid' message (List.mem_append_left _ hmem)
      rw [← List.append_assoc]
      exact hinit.deliver (hvalid' _ (by simp)) hdeliver

/-! ## Searches -/

/-- The sizes of the DAGs are sizes that the kernels work on. -/
lemma validSize_getDatasetSize {epoch : BitVec 32} (h : epoch.toNat < 2000) :
    ValidSize (getDatasetSize epoch).toNat := by
  have hlt := toNat_dagEpoch_lt h
  rw [toNat_getDatasetSize]
  exact ⟨by omega, by omega, by omega⟩

/-- If the launches succeed, the DAG counts. -/
lemma dag_eq_deviceDag {g : Generation} (hepoch : g.epoch.toNat < 2000)
    (hsucceeds : g.outcome.schedule.Succeeds) : g.dag = some (deviceDag g.epoch) := by
  obtain ⟨words, hwords, hcounts⟩ :=
    generateDagGpu_eq hsucceeds g.outcome.dagContent (toNat_itemCount hepoch).2
  have hsize := toNat_getDatasetSize g.epoch
  have hitems := (toNat_itemCount hepoch).1
  rw [Generation.dag, hwords]
  refine congrArg some (congrArg Vector.ofFn (funext fun i => ?_))
  rw [hcounts, if_pos (by have := i.2; omega)]

/-- A miner with a job has a DAG of its epoch on the device. -/
lemma Received.onDevice (h : Received debugTarget received m) (hjob : m.engine.hasJob = true) :
    m.engine.currentJob.epoch.toNat < 2000 ∧
      ∃ g dDag words, lastGeneration received = some g ∧ g.epoch = m.engine.currentJob.epoch ∧
        m.components.OnDevice g dDag words ∧ dDag ∉ m.components.frees := by
  obtain ⟨hhasJob, hcurrent, -, -⟩ := h.agrees
  obtain ⟨hmatches, -⟩ := h.lives.matches
  obtain ⟨-, hepoch, -⟩ := hmatches h.alive
  obtain ⟨heq, hlt⟩ := hepoch (hhasJob.symm.trans hjob)
  rw [hcurrent]
  refine ⟨hlt, ?_⟩
  have huses := h.uses
  cases hlast : lastGeneration received with
  | none =>
    rw [hlast] at huses
    have hnone : m.components.currentDagEpoch = BitVec.allOnes 32 := huses
    rw [heq, hnone] at hlt
    exact absurd hlt (by decide)
  | some g =>
    rw [hlast] at huses
    obtain ⟨dDag, words, hdevice⟩ := huses
    exact ⟨g, dDag, words, rfl, hdevice.epoch.symm.trans heq.symm, hdevice,
      h.lives.notMem_frees hdevice.pointer⟩

variable (env) in
/-- The solutions of a search over the DAG of the job, for the generation that these messages have
left in use. -/
def FoundOn (received : List Message) (m : Miner) (solutions : List Solution) : Prop :=
  ∃ g dag number, lastGeneration received = some g ∧ g.epoch = m.engine.currentJob.epoch ∧
    g.dag = some dag ∧
    m.engine.searchCall.Finds dag (gridNonces (envCfg env).kernelEnvConfig searchRange) "" []
      (solutions, number)

/-- A search is one over the DAG of the job. -/
lemma Received.foundOn {solutions : List Solution} (h : Received debugTarget received m)
    (hjob : m.engine.hasJob = true) (hlaunched : Launched env m solutions) :
    FoundOn env received m solutions := by
  obtain ⟨hlt, g, dDag', words, hlast, hepoch, hdevice, -⟩ := h.onDevice hjob
  cases hlaunched with
  | @mk dDag b _ _ p _ _ hdag hbuffer hfresh hrun hdone =>
    obtain rfl : dDag = dDag' := Option.some.inj (hdag.symm.trans hdevice.pointer)
    obtain rfl := Option.some.inj (hbuffer.symm.trans hdevice.buffer)
    have hsize := hdevice.size
    generalize m.components.deviceManager.dagSize = dagSize at hsize hfresh hrun hdone
    subst hsize
    have hwords : g.dag = some (dagBytes words (getDatasetSize g.epoch).toNat) := by
      rw [Generation.dag, hdevice.words]
      rfl
    have hcount : m.engine.searchCall.count ≤ 2 ^ 31 - 512 :=
      (by decide : searchRange ≤ 2 ^ 31 - 512)
    exact ⟨g, _, (SearchCall.results "" [] p).2, hlast, hepoch, hwords, SearchCall.finds_of_run env
      "" [] (validSize_getDatasetSize (hepoch ▸ hlt)) hcount hfresh hrun hdone⟩

/-- What a search finds; it finds nothing if the launch fails. -/
lemma Received.finds {solutions : List Solution} (h : Received debugTarget received m)
    (hjob : m.engine.hasJob = true) (hsearched : Searched env m solutions) :
    solutions = [] ∨ FoundOn env received m solutions := by
  cases hsearched with
  | unavailable hnone => exact Or.inl rfl
  | unlaunched hsome => exact Or.inl rfl
  | launched hlaunched => exact Or.inr (h.foundOn hjob hlaunched)

/-- A miner with a job can search, and the search ends. -/
lemma Received.exists_launched (h : Received debugTarget received m)
    (hjob : m.engine.hasJob = true) : ∃ solutions, Launched env m solutions := by
  obtain ⟨-, g, dDag, words, -, -, hdevice, -⟩ := h.onDevice hjob
  let params := m.engine.searchCall.launchParams
    (dagBytes words m.components.deviceManager.dagSize.toNat) fun _ => ⟨0, 0⟩
  have hfresh : params.Fresh (envCfg env)
      (SearchCall.unstarted (params.grid (envCfg env))) := ⟨rfl, fun _ => rfl⟩
  obtain ⟨-, actions, p, hrun, hdone⟩ := params.ends (envCfg env) hfresh (.refl _)
  exact ⟨_, .mk hdevice.pipeline hdevice.pointer hdevice.buffer hfresh hrun hdone⟩

/-- A solution of a search over a DAG: one of the nonces of the batch, with its digest, whose hash
is at most the target. -/
def SolutionOf (cfg : EnvConfig) {dagSize : ℕ} (dag : Vector Byte dagSize) (job : MiningJob)
    (target : Hash32) (sol : Solution) : Prop :=
  sol.nonce.toNat < gridNonces cfg.kernelEnvConfig searchRange ∧
    sol.mixHash = mixDigest dag job.headerHash sol.nonce ∧
    sol.result = jobHash dag job.headerHash job.seedHash sol.nonce ∧
    beValue sol.result.toList ≤ beValue target.toList

lemma Received.searched {solutions : List Solution} (h : Received debugTarget received m)
    (hjob : m.engine.hasJob = true) (hsearched : Searched env m solutions) :
    ∀ sol ∈ solutions, ∃ g dag, lastGeneration received = some g ∧
      g.epoch = m.engine.currentJob.epoch ∧ g.dag = some dag ∧
      SolutionOf (envCfg env) dag m.engine.currentJob m.engine.currentTarget sol := by
  intro sol hmem
  rcases h.finds hjob hsearched with rfl | ⟨g, dag, number, hlast, hepoch, hdag, hfinds⟩
  · exact absurd hmem List.not_mem_nil
  · obtain ⟨index, hindex, hpasses, rfl⟩ := hfinds.of_mem hmem
    have hn := gridNonces_lt (envCfg env).kernelEnvConfig
    have hnonce : (m.engine.searchCall.nonce index).toNat = index := by
      have hzero : m.engine.searchCall.nonce index = BitVec.ofNat 64 index := BitVec.zero_add _
      rw [hzero, BitVec.toNat_ofNat, Nat.mod_eq_of_lt (by omega)]
    exact ⟨g, dag, hlast, hepoch, hdag, hnonce.trans_lt hindex, rfl, rfl, hpasses⟩

/-! ## Iterations -/

/-- A share that a miner can send after these messages: for the job that was announced last, it
has a nonce of a batch, the digest over the DAG in use, which was generated for the epoch of the job
and counts if the launches have succeeded, and a hash that is at most the target of the last
difficulty. -/
def FoundFor (cfg : EnvConfig) (debugTarget : Option Hash32) (received : List Message)
    (share : Share) : Prop :=
  ∃ job, (announcedJobs received).getLast? = some job ∧ lastDifficulty received ≠ 0 ∧
    share.jobId = job.jobId ∧ share.headerHash = job.headerHash ∧
    share.nonce.toNat < gridNonces cfg.kernelEnvConfig searchRange ∧
    ∃ g dag, lastGeneration received = some g ∧ g.epoch = job.epoch ∧ g.dag = some dag ∧
      (g.outcome.schedule.Succeeds → dag = deviceDag g.epoch) ∧
      share.mixHash = mixDigest dag job.headerHash share.nonce ∧
      beValue (jobHash dag job.headerHash job.seedHash share.nonce).toList ≤
        beValue (targetOf debugTarget (lastDifficulty received)).toList

/-- Searching and submitting change nothing but the records, the counters and the connection. -/
lemma Received.mine (h : Received debugTarget received m) (hjob : m.engine.hasJob = true)
    (solutions : List Solution) (submits : ℕ → SubmitOutcome) :
    Received debugTarget received (m.mine solutions submits) := by
  obtain ⟨hagrees, halive, hlives, huses, hcurrent, hdifficulty, htarget⟩ := h
  obtain ⟨events, currentJob, cacheDir, hrun⟩ := hlives
  obtain ⟨sent, heq, -⟩ := MiningEngine.submits_processSolutions m.engine.currentJob.jobId
    solutions submits { m.engine with
      searches := m.engine.searches ++ [(m.engine.currentJob.jobId, m.engine.searchCall)] }
  obtain ⟨searches, hsearches⟩ := m.components.search_eq
  have hsearch : Components.Step m.components .search m.components.search :=
    .search halive (hagrees.1.symm.trans hjob)
  have hvalid : Event.Valid .search := trivial
  have hlives : (m.mine solutions submits).components.Lives :=
    ⟨_, currentJob, cacheDir, hrun.snoc ⟨hvalid, hsearch⟩⟩
  rw [Miner.mine, heq, hsearches] at hlives ⊢
  have huses' : ({ m.components with searches := searches } : Components).Uses
      (lastGeneration received) := huses.of_extension rfl rfl List.prefix_rfl
  exact ⟨hagrees, halive, hlives, huses', hcurrent, hdifficulty, htarget⟩

/-- What an iteration adds to the shares. -/
lemma Received.shares_mine (h : Received debugTarget received m) (hready : m.engine.ready = true)
    {solutions : List Solution} (hsearched : Searched env m solutions)
    (submits : ℕ → SubmitOutcome) :
    ∀ share ∈ (m.mine solutions submits).engine.shares,
      share ∈ m.engine.shares ∨ FoundFor (envCfg env) debugTarget received share := by
  obtain ⟨hjob, hdifficulty⟩ := Bool.and_eq_true _ _ ▸ hready
  have hdifficulty' : m.engine.lastDifficulty ≠ 0 := by simpa using hdifficulty
  obtain ⟨hlast, hid, hheader⟩ := h.current hjob
  intro share hmem
  rcases MiningEngine.shares_processSolutions _ _ _ _ share hmem with hold | ⟨sol, hsol, rfl⟩
  · exact Or.inl hold
  · obtain ⟨g, dag, hgeneration, hepoch, hdag, hnonce, hmix, hresult, htarget⟩ :=
      h.searched hjob hsearched sol hsol
    rw [hresult, h.target hdifficulty', h.difficulty] at htarget
    have hlt : g.epoch.toNat < 2000 := hepoch ▸ (h.onDevice hjob).1
    refine Or.inr ⟨m.engine.currentJob, hlast, h.difficulty ▸ hdifficulty', ?_, hheader, hnonce,
      g, dag, hgeneration, hepoch, hdag, fun hsucceeds => ?_, hmix, htarget⟩
    swap
    · exact Option.some.inj (hdag.symm.trans (dag_eq_deviceDag hlt hsucceeds))
    show (if m.engine.currentJob.jobId = "" then m.engine.clientJob.jobId
      else m.engine.currentJob.jobId) = m.engine.currentJob.jobId
    rw [hid, ite_id]

/-- Messages do not touch the shares. -/
lemma shares_polled {mail : Option Mail} (hpolled : Polled debugTarget m mail m') :
    m'.engine.shares = m.engine.shares := by
  cases hpolled with
  | skipped => rfl
  | closed => rfl
  | messages hrun =>
    refine hrun.invariant (fun m' => m'.engine.shares = m.engine.shares) rfl ?_
    rintro t message u ht (⟨hjob, halive⟩ | _)
    · rw [← ht, MiningEngine.processNotification, MiningEngine.onJobReceived]
      dsimp only
      split_ifs <;> rfl
    · exact ht

/-- The messages of some iterations. -/
def allMessages (inputs : List Input) : List Message := inputs.flatMap Input.messages

/-! ## The loop -/

/-- Messages are messages of the loop. -/
lemma exists_notifications (hrun : Run (Deliver debugTarget) m received m') :
    ∃ notifications : List Notification,
      m'.engine = notifications.foldl (MiningEngine.processNotification debugTarget) m.engine ∧
      notifications.filterMap Notification.announced = announcedJobs received := by
  induction hrun with
  | refl => exact ⟨[], rfl, rfl⟩
  | snoc _ hdeliver ih =>
    obtain ⟨notifications, heq, hannounced⟩ := ih
    cases hdeliver with
    | @job job o c _ _ =>
      refine ⟨notifications ++ [.job job c.hasJob], by rw [List.foldl_concat, ← heq], ?_⟩
      rw [List.filterMap_append, hannounced, announcedJobs_job]
      rfl
    | @difficulty value =>
      refine ⟨notifications ++ [.difficulty value], by rw [List.foldl_concat, ← heq], ?_⟩
      rw [List.filterMap_append, hannounced, announcedJobs_difficulty]
      exact List.append_nil _

lemma exists_poll {input : Input} (hpolled : Polled debugTarget m input.mail m') :
    ∃ poll : Option Poll, m'.engine = m.engine.processMessages debugTarget poll ∧
      (poll.map Poll.announced).getD [] = announcedJobs input.messages := by
  obtain ⟨mail, submits⟩ := input
  cases hpolled with
  | skipped => exact ⟨none, rfl, rfl⟩
  | closed => exact ⟨some .closed, rfl, rfl⟩
  | messages hrun =>
    obtain ⟨notifications, heq, hannounced⟩ := exists_notifications hrun
    exact ⟨some (.messages notifications), heq, hannounced⟩

/-- The search is one that the loop allows. -/
lemma Received.exists_outcome {solutions : List Solution} (h : Received debugTarget received m)
    (hjob : m.engine.hasJob = true) (hsearched : Searched env m solutions) :
    ∃ outcome : SearchOutcome (envCfg env).kernelEnvConfig searchRange,
      solutions = searchSync m.engine.pipelineInitialized m.engine.searchCall outcome.hits := by
  obtain ⟨-, g₀, dDag, words, -, -, hdevice, -⟩ := h.onDevice hjob
  have hpipeline : m.engine.pipelineInitialized = true := h.agrees.2.2.2.trans hdevice.pipeline
  rcases h.finds hjob hsearched with
    rfl | ⟨g, dag, number, -, -, -, order, hperm, -, hvector⟩
  · -- a search that fails has the outcome of one that finds nothing
    exact ⟨{ hits := [], distinct := List.nodup_nil, bounded := by simp }, by rw [hpipeline]; rfl⟩
  · let hit : ℕ → Hit := fun index =>
      { index := index
        mixHash := mixDigest dag m.engine.searchCall.headerHash (m.engine.searchCall.nonce index)
        result := m.engine.searchCall.hash dag index }
    have hindex : (order.map hit).map Hit.index = order := by
      rw [List.map_map]
      exact List.map_id _
    refine ⟨{ hits := order.map hit, distinct := ?_, bounded := ?_ }, ?_⟩
    · rw [hindex]
      exact hperm.nodup_iff.mpr (List.nodup_range.filter _)
    · intro stored hstored
      obtain ⟨index, hmem, rfl⟩ := List.mem_map.mp hstored
      exact List.mem_range.mp (List.mem_filter.mp (hperm.mem_iff.mp hmem)).1
    · have hall : solutions =
          (order.take maxSolutions).map (m.engine.searchCall.solution dag "") := by
        refine hvector.trans ?_
        split
        · next hnil => rw [hnil, List.take_nil, List.map_nil]
        · rfl
      rw [hall, hpipeline, searchSync]
      simp only [Bool.not_true, Bool.false_eq_true, if_false, List.map_map, ← List.map_take]
      rfl

/-! ## Whole runs -/

/-- What an iteration preserves. -/
lemma Received.step {input : Input} (h : Received debugTarget received m)
    (hvalid : ∀ message ∈ input.messages, message.Valid) (hstep : Step env debugTarget m input m') :
    Received debugTarget (received ++ input.messages) m' := by
  cases hstep with
  | wait _ hpolled _ => exact h.polled hvalid hpolled
  | mine _ hpolled hready _ =>
    exact (h.polled hvalid hpolled).mine (Bool.and_eq_true _ _ ▸ hready).1 _ _

/-- An iteration is one of the loop. -/
lemma Received.exists_tick {input : Input} (h : Received debugTarget received m)
    (hvalid : ∀ message ∈ input.messages, message.Valid) (hstep : Step env debugTarget m input m') :
    ∃ tick : Tick (envCfg env).kernelEnvConfig,
      MiningEngine.Step _ debugTarget m.engine tick m'.engine ∧
      tick.announced = announcedJobs input.messages := by
  cases hstep with
  | wait hconnected hpolled hready =>
    -- nothing is searched, so any outcome will do
    obtain ⟨poll, heq, hannounced⟩ := exists_poll hpolled
    let tick : Tick (envCfg env).kernelEnvConfig :=
      { poll := poll
        outcome := { hits := [], distinct := List.nodup_nil, bounded := by simp }
        submits := input.submits }
    have hready' : (m.engine.processMessages debugTarget tick.poll).ready = false := heq ▸ hready
    exact ⟨tick, ⟨hconnected, heq.trans (MiningEngine.iterate_of_not_ready hready').symm⟩,
      hannounced⟩
  | mine hconnected hpolled hready hsearched =>
    obtain ⟨poll, heq, hannounced⟩ := exists_poll hpolled
    obtain ⟨outcome, rfl⟩ := (h.polled hvalid hpolled).exists_outcome
      (Bool.and_eq_true _ _ ▸ hready).1 hsearched
    let tick : Tick (envCfg env).kernelEnvConfig :=
      { poll := poll, outcome := outcome, submits := input.submits }
    refine ⟨tick, ⟨hconnected, ?_⟩, hannounced⟩
    rw [MiningEngine.iterate, ← heq, hready]
    rfl

/-- An iteration sends only shares that it has found. -/
lemma Received.shares_step {input : Input} (h : Received debugTarget received m)
    (hvalid : ∀ message ∈ input.messages, message.Valid) (hstep : Step env debugTarget m input m') :
    ∀ share ∈ m'.engine.shares, share ∈ m.engine.shares ∨
      FoundFor (envCfg env) debugTarget (received ++ input.messages) share := by
  intro share hmem
  cases hstep with
  | wait _ hpolled _ => exact Or.inl (shares_polled hpolled ▸ hmem)
  | mine _ hpolled hready hsearched =>
    rw [← shares_polled hpolled]
    exact (h.polled hvalid hpolled).shares_mine hready hsearched _ share hmem

section Runs

variable {clientJob currentJob : MiningJob} {cacheDir : String} {inputs : List Input}

lemma allMessages_concat (inputs : List Input) (input : Input) :
    allMessages (inputs ++ [input]) = allMessages inputs ++ input.messages := by
  simp [allMessages]

lemma received_initial :
    Received debugTarget (allMessages []) (initial clientJob currentJob cacheDir) where
  agrees := ⟨rfl, rfl, rfl, rfl⟩
  alive := rfl
  lives := ⟨[], currentJob, cacheDir, .refl _⟩
  uses := rfl
  current := fun hjob => absurd hjob Bool.false_ne_true
  difficulty := rfl
  target := fun hzero => absurd rfl hzero

/-- What holds at the end of every run. -/
lemma received_of_run (hvalid : ∀ message ∈ allMessages inputs, message.Valid)
    (hrun : Run (Step env debugTarget) (initial clientJob currentJob cacheDir) inputs m) :
    Received debugTarget (allMessages inputs) m := by
  induction hrun with
  | refl => exact received_initial
  | snoc _ hstep ih =>
    rw [allMessages_concat] at hvalid ⊢
    have hinit := ih fun message hmem => hvalid message (List.mem_append_left _ hmem)
    exact hinit.step (fun message hmem => hvalid message (List.mem_append_right _ hmem)) hstep

/-- **The miner is the loop.**  Every run of the miner is one of `MiningEngine.Step`, with the same
jobs: what the components and the threads do are outcomes that the loop allows. -/
theorem run_refines (hvalid : ∀ message ∈ allMessages inputs, message.Valid)
    (hrun : Run (Step env debugTarget) (initial clientJob currentJob cacheDir) inputs m) :
    ∃ ticks : List (Tick (envCfg env).kernelEnvConfig),
      Run (MiningEngine.Step _ debugTarget) (.initial clientJob currentJob) ticks m.engine ∧
      ticks.map Tick.announced = inputs.map fun input => announcedJobs input.messages := by
  induction hrun with
  | refl => exact ⟨[], .refl _, rfl⟩
  | @snoc t u inputs input hinit hstep ih =>
    rw [allMessages_concat] at hvalid
    have hold : ∀ message ∈ allMessages inputs, message.Valid :=
      fun message hmem => hvalid message (List.mem_append_left _ hmem)
    obtain ⟨ticks, hticks, hannounced⟩ := ih hold
    obtain ⟨tick, htick, hnew⟩ := (received_of_run hold hinit).exists_tick
      (fun message hmem => hvalid message (List.mem_append_right _ hmem)) hstep
    exact ⟨ticks ++ [tick], hticks.snoc htick, by simp [hannounced, hnew]⟩

end Runs

/-! ## A first iteration -/

/-- A difficulty, and a job whose DAG can be made. -/
def firstInput : Input :=
  { mail := some (.messages [.difficulty 1, .job Components.firstJob DagOutcome.ok])
    submits := fun _ => .accepted }

/-- The largest target. -/
def anyHash : Option Hash32 := some (Vector.replicate 32 0xFF)

/-- A solution that is accepted is a share. -/
lemma shares_processSolutions_ne_nil {e : MiningEngine} (hconnected : e.connected = true)
    (jobId : String) {solutions : List Solution} (hsolutions : solutions ≠ []) :
    (MiningEngine.processSolutions jobId solutions (fun _ => .accepted) e).shares ≠ [] := by
  obtain ⟨sol, rest, rfl⟩ := List.exists_cons_of_ne_nil hsolutions
  obtain ⟨sent, heq, -⟩ := MiningEngine.submits_processSolutions jobId rest (fun _ => .accepted)
    (e.processSolution sol jobId .accepted)
  rw [MiningEngine.processSolutions, heq]
  simp [MiningEngine.processSolution, MiningEngine.submitSolution, hconnected]

/-- Every hash meets the largest target, so that a search finds something. -/
lemma ne_nil_of_anyHash {m : Miner} {solutions : List Solution}
    (htarget : m.engine.currentTarget = Vector.replicate 32 0xFF)
    (hfound : FoundOn env received m solutions) : solutions ≠ [] := by
  obtain ⟨g, dag, number, -, -, -, order, hperm, -, hvector⟩ := hfound
  have hfirst : 0 ∈ order := by
    refine hperm.mem_iff.mpr (List.mem_filter.mpr ⟨List.mem_range.mpr ?_, decide_eq_true ?_⟩)
    · exact lt_of_lt_of_le (by decide) (le_gridNonces (envCfg env).kernelEnvConfig searchRange)
    · show beValue _ ≤ beValue m.engine.currentTarget.toList
      rw [htarget]
      exact beValue_le_largest _
  obtain ⟨index, rest, rfl⟩ := List.exists_cons_of_ne_nil (List.ne_nil_of_mem hfirst)
  intro hnil
  rw [hnil, if_neg (List.cons_ne_nil _ _)] at hvector
  exact absurd hvector (by simp [maxSolutions])

variable (env) in
/-- A miner that has received a difficulty and a first job for which everything succeeds. -/
lemma exists_firstReceived (clientJob currentJob job : MiningJob)
    (hepoch : job.epoch.toNat < 2000) :
    ∃ m₁ m, Deliver anyHash (initial clientJob currentJob "") (.difficulty 1) m₁ ∧
      Deliver anyHash m₁ (.job job DagOutcome.ok) m ∧ m.engine.connected = true ∧
        m.engine.ready = true ∧
          ∃ solutions, Searched env m solutions ∧ solutions ≠ [] := by
  obtain ⟨c, hc, halive, hjob⟩ :=
    Components.exists_onJobReceived_ok (s := Components.initial currentJob "") hepoch rfl rfl
  let m : Miner :=
    { engine := ((initial clientJob currentJob "").engine.processNotification anyHash
        (.difficulty 1)).processNotification anyHash (.job job c.hasJob)
      components := c }
  have hreceived : Received anyHash ([] ++ [.difficulty 1] ++ [.job job DagOutcome.ok]) m :=
    (received_initial.deliver (fun _ h => absurd h (by simp [Message.announced]))
      .difficulty).deliver (fun _ h => Option.some.inj h ▸ hepoch) (.job hc halive)
  obtain ⟨hhasJob, hready, hconnected, htarget⟩ : m.engine.hasJob = true ∧
      m.engine.ready = true ∧ m.engine.connected = true ∧
      m.engine.currentTarget = Vector.replicate 32 0xFF := by
    dsimp only [m]
    rw [hjob, MiningEngine.processNotification, MiningEngine.onJobReceived]
    simp only [↓reduceIte]
    split_ifs <;> exact ⟨rfl, rfl, rfl, rfl⟩
  obtain ⟨solutions, hlaunched⟩ : ∃ solutions, Launched env m solutions :=
    hreceived.exists_launched hhasJob
  exact ⟨_, m, .difficulty, .job hc halive, hconnected, hready, _, .launched hlaunched,
    ne_nil_of_anyHash htarget (hreceived.foundOn hhasJob hlaunched)⟩

lemma valid_firstInput : ∀ message ∈ firstInput.messages, message.Valid := by
  intro message hmem job hjob
  have hcases : message = .difficulty 1 ∨ message = .job Components.firstJob DagOutcome.ok := by
    simpa [firstInput, Input.messages] using hmem
  rcases hcases with rfl | rfl
  · exact absurd hjob (by simp [Message.announced])
  · obtain rfl := Option.some.inj hjob
    decide

variable (env) in
/-- The first iteration finds shares. -/
lemma exists_firstRun : ∃ m, Run (Step env anyHash)
    (initial Components.firstJob Components.firstJob "") [firstInput] m ∧
      m.engine.shares ≠ [] := by
  obtain ⟨m₁, m, hdifficulty, hjob, hconnected, hready, solutions, hsearched, hsolutions⟩ :=
    exists_firstReceived env Components.firstJob Components.firstJob Components.firstJob (by decide)
  have hdelivered : Run (Deliver anyHash) (initial Components.firstJob Components.firstJob "")
      [.difficulty 1, .job Components.firstJob DagOutcome.ok] m :=
    .snoc (.snoc (.refl _) hdifficulty) hjob
  refine ⟨_, .snoc (.refl _) (.mine rfl (.messages hdelivered) hready hsearched), ?_⟩
  refine shares_processSolutions_ne_nil ?_ _ hsolutions
  exact hconnected

/-- The first iteration is one of the loop. -/
theorem run_refines_first : ∃ m, Run (Step SearchCall.textureEnvironment anyHash)
    (initial Components.firstJob Components.firstJob "") [firstInput] m ∧
      ∃ ticks : List (Tick (envCfg SearchCall.textureEnvironment).kernelEnvConfig),
        Run (MiningEngine.Step _ anyHash) (.initial Components.firstJob Components.firstJob) ticks
          m.engine ∧ ticks.map Tick.announced = [[Components.firstJob]] := by
  obtain ⟨m, hrun, -⟩ := exists_firstRun SearchCall.textureEnvironment
  obtain ⟨ticks, hticks, hannounced⟩ :=
    run_refines (by simpa [allMessages] using valid_firstInput) hrun
  exact ⟨m, hrun, ticks, hticks, hannounced⟩

end Miner

end OhMyMiner.Engine
