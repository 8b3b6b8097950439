/-
# What a search returns

`DeviceManager::search` (`src/cuda/device_manager.cu`) calls `searchSync`, which starts a kernel
through `launch_search_kernel` (`src/cuda/kernels/kernel_launcher.cpp`), waits for it and reads
the solution array.  The environment chooses the kernel and the number of nonces of a thread.

Here the pieces are put together: the environment, the grids of the launchers, the threads with
the nonces of each, which they test one after the other, and the copy to the host.  Whatever the
environment and the order of the steps, the solutions are the first 16 of all passing nonces in
some order.
-/
import OhMyMiner.Engine.Launch
import OhMyMiner.Lib.Batched
import OhMyMiner.Lib.Strings
import OhMyMiner.Search.Collect
import OhMyMiner.Search.Texture

namespace OhMyMiner.Engine

open Lib Search

/-! ## The environment -/

/-- The variables that `envCfg` asks `std::getenv` for. -/
structure Environment where
  useOptimizedKernel : Option (List Byte)
  useTextureKernel : Option (List Byte)
  noncesPerThread : Option (List Byte)

/-- `std::atoi`: as `std::stoi`, but what is no number is 0, and a number that `long` does not
hold is the nearest that it holds, of which the low 32 bits are taken. -/
def atoi (str : List Byte) : ℤ :=
  let (negative, str) := splitSign (str.dropWhile isSpace)
  let number : ℤ := decimalNumber (str.takeWhile isDecimal)
  let value := if negative then -number else number
  (BitVec.ofInt 32 (max (-2 ^ 63) (min value (2 ^ 63 - 1)))).toInt

/-- `KernelEnvConfig`. -/
structure EnvConfig extends VariantConfig where
  noncesPerThread : BitVec 32
  noncesPerThread_pos : 1 ≤ noncesPerThread.toNat
  noncesPerThread_le : noncesPerThread.toNat ≤ 256

/-- `cfg.noncesPerThread`. -/
def envNoncesPerThread (nptr : Option (List Byte)) : BitVec 32 :=
  match nptr with
  | none => 1
  | some nptr =>
    let v := atoi nptr
    if 0 < v ∧ v ≤ 256 then BitVec.ofInt 32 v else 1

/-- Whatever the variable holds, a thread has at least one nonce and at most 256. -/
lemma envNoncesPerThread_bounds (nptr : Option (List Byte)) :
    1 ≤ (envNoncesPerThread nptr).toNat ∧ (envNoncesPerThread nptr).toNat ≤ 256 := by
  have hone : (1 : BitVec 32).toNat = 1 := rfl
  cases nptr with
  | none => exact ⟨by rw [envNoncesPerThread, hone], by rw [envNoncesPerThread, hone]; omega⟩
  | some nptr =>
    rw [envNoncesPerThread]
    split_ifs with h
    · have hnat : (BitVec.ofInt 32 (atoi nptr)).toNat = (atoi nptr).toNat := by
        rw [BitVec.toNat_ofInt, Int.emod_eq_of_lt (by omega) (by omega)]
      omega
    · omega

/-- `envCfg`. -/
def envCfg (env : Environment) : EnvConfig :=
  { useOptimized := env.useOptimizedKernel == some [0x31]
    useTexture := env.useTextureKernel == some [0x31]
    noncesPerThread := envNoncesPerThread env.noncesPerThread
    noncesPerThread_pos := (envNoncesPerThread_bounds env.noncesPerThread).1
    noncesPerThread_le := (envNoncesPerThread_bounds env.noncesPerThread).2 }

/-- What of the environment decides which nonces are searched. -/
def EnvConfig.kernelEnvConfig (cfg : EnvConfig) : KernelEnvConfig :=
  { useOptimized := cfg.useOptimized
    noncesPerThread := cfg.noncesPerThread.toNat
    noncesPerThread_pos := cfg.noncesPerThread_pos
    noncesPerThread_le := cfg.noncesPerThread_le }

/-- A search has fewer than `2^32` nonces. -/
lemma gridNonces_lt_two_pow (cfg : KernelEnvConfig) {searchCount : ℕ}
    (hcount : searchCount ≤ 2 ^ 31 - 512) :
    gridNonces cfg searchCount < 2 ^ 32 := by
  have hle := cfg.noncesPerThread_le
  have hbase := blockNonces_le 1024 1 searchCount
  have hoptimized := blockNonces_le 512 cfg.noncesPerThread searchCount
  rw [gridNonces]
  split_ifs <;> omega

/-! ## The threads -/

/-- The threads of a launch, and the nonces of each. -/
structure Grid where
  blocks : ℕ
  threadsPerBlock : ℕ
  noncesPerThread : ℕ
  nonce : ℕ → ℕ → ℕ → BitVec 64

/-- `blocks` of `launch_ethash_search_texture`. -/
def textureBlocks (searchCount : BitVec 64) (noncesPerThread : BitVec 32) : BitVec 32 :=
  (optimizedThreads searchCount noncesPerThread + 1024 - 1).sdiv 1024

/-- `startNonce + threadId * noncesPerThread`: the product is taken in 64 bits. -/
def textureNonce (startNonce : BitVec 64) (noncesPerThread : BitVec 32)
    (blockIdx threadIdx : ℕ) : BitVec 64 :=
  startNonce + (BitVec.ofNat 32 blockIdx * 1024 + BitVec.ofNat 32 threadIdx).setWidth 64 *
    noncesPerThread.setWidth 64

/-- The grid that a launcher computes. -/
def launchGrid (kernel : KernelVariant) (startNonce searchCount : BitVec 64)
    (noncesPerThread : BitVec 32) : Grid :=
  match kernel with
  | .optimized =>
    { blocks := gridDim (optimizedBlocks searchCount noncesPerThread)
      threadsPerBlock := 512
      noncesPerThread := noncesPerThread.toNat
      nonce := fun blockIdx threadIdx nonceOffset =>
        baseNonce startNonce noncesPerThread blockIdx threadIdx + BitVec.ofNat 64 nonceOffset }
  | .texture =>
    { blocks := gridDim (textureBlocks searchCount noncesPerThread)
      threadsPerBlock := 1024
      noncesPerThread := noncesPerThread.toNat
      nonce := fun blockIdx threadIdx batch =>
        textureNonce startNonce noncesPerThread blockIdx threadIdx + BitVec.ofNat 64 batch }
  | .base | .auto =>
    { blocks := gridDim (baseBlocks searchCount)
      threadsPerBlock := 1024
      noncesPerThread := 1
      nonce := fun blockIdx threadIdx _ => threadNonce startNonce blockIdx threadIdx }

namespace Grid

/-- The nonces of a thread are its tasks. -/
def assignment (g : Grid) : Batched.Assignment (ℕ × ℕ) ((ℕ × ℕ) × ℕ) :=
  { tasks := fun v => (List.range g.noncesPerThread).map fun offset => (v, offset)
    owner := Prod.fst
    nodup := fun _ => List.nodup_range.map fun _ _ h => (Prod.mk.inj h).2
    owner_eq := by
      intro v task htask
      obtain ⟨offset, -, rfl⟩ := List.mem_map.mp htask
      rfl }

/-- The threads. -/
def workers (g : Grid) : Finset (ℕ × ℕ) :=
  Finset.range g.blocks ×ˢ Finset.range g.threadsPerBlock

/-- The nonce of a task. -/
def taskNonce (g : Grid) (task : (ℕ × ℕ) × ℕ) : BitVec 64 := g.nonce task.1.1 task.1.2 task.2

/-- The tasks of all threads, thread by thread. -/
def tasks (g : Grid) : List ((ℕ × ℕ) × ℕ) :=
  (List.range g.blocks).flatMap fun blockIdx =>
    (List.range g.threadsPerBlock).flatMap fun threadIdx =>
      (List.range g.noncesPerThread).map fun offset => ((blockIdx, threadIdx), offset)

lemma mem_tasks {g : Grid} {task : (ℕ × ℕ) × ℕ} :
    task ∈ g.tasks ↔ task ∈ Batched.threads g.assignment g.workers := by
  obtain ⟨⟨blockIdx, threadIdx⟩, offset⟩ := task
  rw [Batched.mem_threads]
  simp [tasks, workers, assignment]
  tauto

/-- The threads test `n` nonces from a first one on, each of them once. -/
def Covers (g : Grid) (startNonce : BitVec 64) (n : ℕ) : Prop :=
  g.tasks.map g.taskNonce = (List.range n).map fun index => startNonce + BitVec.ofNat 64 index

lemma length_tasks (g : Grid) : g.tasks.length = g.noncesPerThread * g.workers.card := by
  rw [workers, Finset.card_product, Finset.card_range, Finset.card_range, tasks]
  simp only [List.length_flatMap, List.length_map, List.length_range, List.map_const',
    List.sum_replicate, smul_eq_mul]
  ring

/-! ## The grids -/

section Cover

variable (startNonce : BitVec 64) {searchCount : BitVec 64} (noncesPerThread : BitVec 32)

lemma covers_base (hcount : searchCount.toNat ≤ 2 ^ 31 - 512) :
    (launchGrid .base startNonce searchCount noncesPerThread).Covers startNonce
      (blockNonces 1024 1 searchCount.toNat) := by
  rw [Covers, ← baseNonces_eq startNonce hcount, baseNonces]
  simp only [tasks, launchGrid, List.map_flatMap, List.range_one, List.map_cons, List.map_nil,
    ← List.map_eq_flatMap, List.map_map]
  rfl

lemma covers_optimized (hcount : searchCount.toNat ≤ 2 ^ 31 - 512)
    (hpos : 1 ≤ noncesPerThread.toNat) (hle : noncesPerThread.toNat ≤ 256) :
    (launchGrid .optimized startNonce searchCount noncesPerThread).Covers startNonce
      (blockNonces 512 noncesPerThread.toNat searchCount.toNat) := by
  rw [Covers, ← optimizedNonces_eq startNonce hcount hpos hle, optimizedNonces]
  simp [tasks, taskNonce, launchGrid, List.map_flatMap, Function.comp_def]

end Cover

/-! ## One launch -/

section Launch

variable {g : Grid} {startNonce : BitVec 64} {n : ℕ}

/-- The index of a task. -/
def index (g : Grid) (startNonce : BitVec 64) (task : (ℕ × ℕ) × ℕ) : ℕ :=
  (g.taskNonce task - startNonce).toNat

/-- The tasks have different indices, and these are a range. -/
lemma Covers.index (h : g.Covers startNonce n) (hn : n < 2 ^ 64) :
    g.tasks.map (g.index startNonce) = List.range n := by
  have hmap : g.tasks.map (g.index startNonce) =
      (g.tasks.map g.taskNonce).map fun nonce => (nonce - startNonce).toNat := by
    rw [List.map_map]
    rfl
  rw [hmap, h, List.map_map]
  refine (List.map_congr_left fun i hi => ?_).trans (List.map_id _)
  have hi' := List.mem_range.mp hi
  have hsub : startNonce + BitVec.ofNat 64 i - startNonce = BitVec.ofNat 64 i := by
    rw [BitVec.add_comm, BitVec.add_sub_cancel]
  rw [Function.comp_apply, hsub, BitVec.toNat_ofNat, Nat.mod_eq_of_lt (by omega), id]

/-- The nonce of a task is that of its index. -/
lemma taskNonce_eq (g : Grid) (startNonce : BitVec 64) (task : (ℕ × ℕ) × ℕ) :
    g.taskNonce task = startNonce + BitVec.ofNat 64 (g.index startNonce task) := by
  rw [index, BitVec.ofNat_toNat, BitVec.setWidth_eq, BitVec.add_comm, BitVec.sub_add_cancel]

variable {test : BitVec 64 → Option DeviceSolution} {capacity : ℕ}
  {p₀ p : Batched.Pool 32 (ℕ × ℕ) ((ℕ × ℕ) × ℕ) DeviceSolution FieldWrite}
  {actions : List (Batched.Action (ℕ × ℕ) ((ℕ × ℕ) × ℕ) FieldWrite)}

/-- What a launch whose threads test `n` nonces leaves behind: the counter is the number of
nonces that pass the test, and the array has the records of the first of them, in some order. -/
theorem Covers.stored (h : g.Covers startNonce n) (hn : n < 2 ^ 32)
    (hfresh : Batched.Fresh g.assignment p₀)
    (hrun : Run (Batched.Step solutionLayout (fun task => test (g.taskNonce task)) g.workers
      capacity) p₀ actions p) (hdone : Batched.Done g.workers p) :
    ∃ order : List ℕ,
      order.Perm ((List.range n).filter fun i => (test (startNonce + BitVec.ofNat 64 i)).isSome) ∧
      p.counter.toNat = order.length ∧
      ∀ slot i, slot < capacity → order[slot]? = some i →
        test (startNonce + BitVec.ofNat 64 i) = some (p.slots slot) := by
  have hnodupTasks : g.tasks.Nodup :=
    List.Nodup.of_map (g.index startNonce) (by rw [h.index (by omega)]; exact List.nodup_range)
  have hpassing : ∀ task, task ∈ Reservation.passing (fun task => test (g.taskNonce task))
      (Batched.threads g.assignment g.workers) ↔
        task ∈ g.tasks.filter fun task => (test (g.taskNonce task)).isSome := by
    intro task
    rw [Reservation.passing, Finset.mem_filter, List.mem_filter, mem_tasks]
  -- no more nonces pass than there are, so the counter does not wrap around
  have hcard : (Reservation.passing (fun task => test (g.taskNonce task))
      (Batched.threads g.assignment g.workers)).card ≤ n := by
    have hlength : g.tasks.length = n := by
      rw [← List.length_map (g.index startNonce), h.index (by omega), List.length_range]
    rw [← hlength, ← Finset.length_toList]
    refine (List.subperm_of_subset (Finset.nodup_toList _) fun task htask => ?_).length_le
    exact (List.mem_filter.mp ((hpassing task).mp (Finset.mem_toList.mp htask))).1
  obtain ⟨hnodup, hmem, hlength, hcounter, hslots⟩ :=
    Batched.done_of_run hfresh (by omega) hrun hdone
  refine ⟨(Reservation.reserved (Batched.threadEvents actions)).map (g.index startNonce), ?_, ?_,
    fun slot i hslot hi => ?_⟩
  · have hperm : (Reservation.reserved (Batched.threadEvents actions)).Perm
        (g.tasks.filter fun task => (test (g.taskNonce task)).isSome) :=
      (List.perm_ext_iff_of_nodup hnodup (hnodupTasks.filter _)).mpr fun task =>
        (hmem task).trans (hpassing task)
    rw [← h.index (by omega), List.filter_map]
    simpa only [Function.comp_def, ← taskNonce_eq] using hperm.map (g.index startNonce)
  · rw [List.length_map, hlength, hcounter]
  · rw [List.getElem?_map, Option.map_eq_some_iff] at hi
    obtain ⟨task, htask, rfl⟩ := hi
    rw [← taskNonce_eq]
    exact hslots slot task hslot htask

end Launch

end Grid

/-! ## `launch_search_kernel` -/

/-- `KernelLaunchParams`; the pointers are those of the buffers that hold these values, and
`tex1Dfetch` fetches from `texDAG`.  Only `d_dag` can be null. -/
structure KernelLaunchParams (dagSize : ℕ) where
  dag : Option (Vector Byte dagSize)
  headerHash : Hash32
  seedHash : Hash32
  targetBE : Hash32
  startNonce : BitVec 64
  searchCount : BitVec 64
  maxSolutions : BitVec 32
  texDAG : BitVec 64
  tex1Dfetch : ℕ → Texel
  variant : KernelVariant

/-- The solution counter and the solution array, and the threads that work on them. -/
abbrev DevicePool : Type := Batched.Pool 32 (ℕ × ℕ) ((ℕ × ℕ) × ℕ) DeviceSolution FieldWrite

/-- A step of a thread of a grid. -/
abbrev DeviceAction : Type := Batched.Action (ℕ × ℕ) ((ℕ × ℕ) × ℕ) FieldWrite

namespace KernelLaunchParams

variable {dagSize : ℕ} (params : KernelLaunchParams dagSize) (cfg : EnvConfig)

/-- The kernel that is started. -/
def kernel : KernelVariant := launchedKernel cfg.toVariantConfig params.variant params.texDAG

/-- The grid that is started. -/
def grid : Grid :=
  launchGrid (params.kernel cfg) params.startNonce params.searchCount cfg.noncesPerThread

/-- What a thread stores for a nonce. -/
def test (nonce : BitVec 64) : Option DeviceSolution :=
  params.dag.bind fun dag =>
    (searchNonce (params.kernel cfg) dag params.tex1Dfetch params.headerHash params.seedHash
      params.targetBE nonce).join

/-- The threads that are started: "invalid parameters (null pointers or zero maxSolutions)" start
none. -/
def workers : Finset (ℕ × ℕ) :=
  if params.dag.isNone || params.maxSolutions = 0 then ∅ else (params.grid cfg).workers

/-- The launch begins. -/
def Fresh (p : DevicePool) : Prop := Batched.Fresh (params.grid cfg).assignment p

/-- A step of the launch. -/
def Step : DevicePool → DeviceAction → DevicePool → Prop :=
  Batched.Step solutionLayout (fun task => params.test cfg ((params.grid cfg).taskNonce task))
    (params.workers cfg) params.maxSolutions.toNat

/-- The launch has come to its end. -/
def Done (p : DevicePool) : Prop := Batched.Done (params.workers cfg) p

/-- **Every launch ends**: a nonce takes at most 43 steps. -/
lemma ends {p₀ p : DevicePool} {actions : List DeviceAction} (hfresh : params.Fresh cfg p₀)
    (hrun : Run (params.Step cfg) p₀ actions p) :
    actions.length ≤ 43 * ((params.grid cfg).noncesPerThread * (params.workers cfg).card) ∧
      ∃ more p', Run (params.Step cfg) p₀ (actions ++ more) p' ∧ params.Done cfg p' := by
  obtain ⟨hlength, hend⟩ := Batched.ends_of_run hrun
  refine ⟨hlength.trans ?_, hend⟩
  have hworker : ∀ v ∈ params.workers cfg, Batched.remaining solutionLayout
      (fun task => params.test cfg ((params.grid cfg).taskNonce task)) (p₀.progress v) ≤
        43 * (params.grid cfg).noncesPerThread := by
    intro v _
    have htask : ∀ steps ∈ ((params.grid cfg).assignment.tasks v).map (Batched.taskSteps
        solutionLayout fun task => params.test cfg ((params.grid cfg).taskNonce task)),
          steps ≤ 43 := by
      intro steps hsteps
      obtain ⟨task, -, rfl⟩ := List.mem_map.mp hsteps
      rw [Batched.taskSteps]
      -- one step to reserve an entry, 41 to fill it in and one to go on
      cases params.test cfg ((params.grid cfg).taskNonce task) with
      | none => decide
      | some solution =>
        show (fieldWrites solution).length + 2 ≤ 43
        simp [fieldWrites]
    have hsum := List.sum_le_card_nsmul _ 43 htask
    rw [hfresh.working v, Batched.remaining]
    refine hsum.trans_eq ?_
    rw [List.length_map, Grid.assignment, List.length_map, List.length_range, smul_eq_mul,
      Nat.mul_comm]
  refine (Finset.sum_le_card_nsmul _ _ _ hworker).trans_eq ?_
  rw [smul_eq_mul]
  ring

end KernelLaunchParams

/-! ## `searchSync` -/

namespace SearchCall

variable {dagSize : ℕ}

/-- `klp` of `searchSync`, if there is a DAG: it leaves the choice to the environment, and has no
texture object. -/
def launchParams (call : SearchCall) (dag : Vector Byte dagSize) (tex1Dfetch : ℕ → Texel) :
    KernelLaunchParams dagSize :=
  { dag := some dag, headerHash := call.headerHash, seedHash := call.seedHash,
    targetBE := call.targetBE, startNonce := call.startNonce,
    searchCount := BitVec.ofNat 64 call.count, maxSolutions := BitVec.ofNat 32 maxSolutions,
    texDAG := 0, tex1Dfetch := tex1Dfetch, variant := .auto }

/-- The hash of an index of the grid. -/
def hash (call : SearchCall) (dag : Vector Byte dagSize) (index : ℕ) : Hash32 :=
  jobHash dag call.headerHash call.seedHash (call.nonce index)

/-- The nonce of an index passes: its hash, as a number, is at most the target. -/
def Passes (call : SearchCall) (dag : Vector Byte dagSize) (index : ℕ) : Prop :=
  beValue (call.hash dag index).toList ≤ beValue call.targetBE.toList

instance (call : SearchCall) (dag : Vector Byte dagSize) (index : ℕ) :
    Decidable (call.Passes dag index) :=
  inferInstanceAs (Decidable (_ ≤ _))

/-- The solution of an index that passes. -/
def solution (call : SearchCall) (dag : Vector Byte dagSize) (currentJobId : String)
    (index : ℕ) : Solution :=
  { nonce := call.nonce index, mixHash := mixDigest dag call.headerHash (call.nonce index),
    result := call.hash dag index, jobId := currentJobId }

/-- What the host reads of the device. -/
def memory (p : DevicePool) : Reservation.Buffer 32 Empty DeviceSolution FieldWrite :=
  { counter := p.counter, slots := p.slots, phase := Empty.elim }

/-- `searchSync` after the launch: the vector `solutions` and the number that is returned. -/
def results (currentJobId : String) (solutions : List Solution) (p : DevicePool) :
    List Solution × BitVec 32 :=
  readSolutions currentJobId (BitVec.ofNat 32 maxSolutions) (memory p) solutions

/-- A search of `n` nonces finds the passing ones, in some order, and keeps the first 16.  If it
finds none it leaves the vector as it is. -/
def Finds (call : SearchCall) (dag : Vector Byte dagSize) (n : ℕ) (currentJobId : String)
    (solutions : List Solution) (found : List Solution × BitVec 32) : Prop :=
  ∃ order : List ℕ, order.Perm ((List.range n).filter fun index => call.Passes dag index) ∧
    found.2.toNat = min order.length maxSolutions ∧
    found.1 = if order = [] then solutions
      else (order.take maxSolutions).map (call.solution dag currentJobId)

/-- What is read back does not depend on the vector, if there is a solution. -/
lemma readSolutions_of_pos {ι : Type*} {currentJobId : String} {maxSolutions : BitVec 32}
    {s : Reservation.Buffer 32 ι DeviceSolution FieldWrite} (solutions : List Solution)
    (h : s.counter ≠ 0) :
    readSolutions currentJobId maxSolutions s solutions =
      readSolutions currentJobId maxSolutions s [] := by
  have hpos : 0 < s.counter := (BitVec.pos_iff_ne_zero _).mpr h
  rw [readSolutions, readSolutions]
  dsimp only
  rw [if_pos hpos, if_pos hpos]

section Search

variable {dag : Vector Byte dagSize} {tex1Dfetch : ℕ → Texel} {call : SearchCall}

/-- Without a texture object the launch is that of one of the two other kernels. -/
lemma kernel_launchParams (cfg : EnvConfig) :
    (call.launchParams dag tex1Dfetch).kernel cfg =
      if cfg.useOptimized then .optimized else .base := by
  obtain ⟨⟨useOptimized, useTexture⟩, _, _, _⟩ := cfg
  cases useOptimized <;> cases useTexture <;> rfl

variable (dag tex1Dfetch call) in
/-- The threads test the nonces of the grid. -/
lemma covers_launchParams (hcount : call.count ≤ 2 ^ 31 - 512) (cfg : EnvConfig) :
    ((call.launchParams dag tex1Dfetch).grid cfg).Covers call.startNonce
      (gridNonces cfg.kernelEnvConfig call.count) := by
  have hnat : (BitVec.ofNat 64 call.count).toNat = call.count := by
    rw [BitVec.toNat_ofNat]
    omega
  show (launchGrid ((call.launchParams dag tex1Dfetch).kernel cfg) call.startNonce
    (BitVec.ofNat 64 call.count) cfg.noncesPerThread).Covers call.startNonce
      (if cfg.useOptimized then blockNonces 512 cfg.noncesPerThread.toNat call.count
        else blockNonces 1024 1 call.count)
  rw [kernel_launchParams]
  cases cfg.useOptimized with
  | true =>
    have hcovers := Grid.covers_optimized call.startNonce cfg.noncesPerThread
      (hnat.trans_le hcount) cfg.noncesPerThread_pos cfg.noncesPerThread_le
    rwa [hnat] at hcovers
  | false =>
    have hcovers := Grid.covers_base call.startNonce cfg.noncesPerThread (hnat.trans_le hcount)
    rwa [hnat] at hcovers

variable (dag tex1Dfetch call) in
/-- Both kernels store the nonces that pass, with the digest and the hash. -/
lemma test_launchParams (hsize : ValidSize dagSize) (cfg : EnvConfig) (index : ℕ) :
    (call.launchParams dag tex1Dfetch).test cfg (call.nonce index) =
      if call.Passes dag index then
        some { nonce := call.nonce index
               mixHash := mixDigest dag call.headerHash (call.nonce index)
               result := call.hash dag index }
      else none := by
  have hthread := searchThread_eq dag hsize call.headerHash call.seedHash call.targetBE
    (call.nonce index)
  have hsearch : searchNonce ((call.launchParams dag tex1Dfetch).kernel cfg) dag tex1Dfetch
      call.headerHash call.seedHash call.targetBE (call.nonce index) =
        searchThread dag call.headerHash call.seedHash call.targetBE (call.nonce index) := by
    rw [kernel_launchParams]
    cases cfg.useOptimized with
    | true => exact searchNonceOptimized_eq dag _ _ _ _
    | false => rfl
  show (searchNonce ((call.launchParams dag tex1Dfetch).kernel cfg) dag tex1Dfetch
    call.headerHash call.seedHash call.targetBE (call.nonce index)).join = _
  rw [hsearch, hthread, Option.join_some]
  by_cases h : call.Passes dag index
  · rw [if_pos h]
    exact if_pos h
  · rw [if_neg h]
    exact if_neg h

/-- The threads of the grid are started. -/
lemma workers_launchParams (cfg : EnvConfig) :
    (call.launchParams dag tex1Dfetch).workers cfg =
      ((call.launchParams dag tex1Dfetch).grid cfg).workers :=
  if_neg (by decide : ¬ (false || decide (BitVec.ofNat 32 maxSolutions = 0)) = true)

/-- What is read back, if the array has the solutions of some indices. -/
lemma results_of_stored {p : DevicePool} {currentJobId : String} (solutions : List Solution)
    {order : List ℕ} (hcounter : p.counter.toNat = order.length)
    (hslots : ∀ slot i, slot < maxSolutions → order[slot]? = some i →
      hostSolution currentJobId (p.slots slot) = call.solution dag currentJobId i) :
    (results currentJobId solutions p).2.toNat = min order.length maxSolutions ∧
      (results currentJobId solutions p).1 = if order = [] then solutions
        else (order.take maxSolutions).map (call.solution dag currentJobId) := by
  have hread : readSolutions currentJobId (BitVec.ofNat 32 maxSolutions) (memory p) [] =
      ((List.range (min order.length maxSolutions)).map fun i =>
          hostSolution currentJobId (p.slots i),
        BitVec.ofNat 32 (min order.length maxSolutions)) := readSolutions_eq hcounter
  by_cases horder : order = []
  · subst horder
    have hzero : (memory p).counter = 0 := BitVec.eq_of_toNat_eq hcounter
    simp [results, readSolutions, hzero]
  · have hpos : p.counter ≠ 0 := by
      intro hzero
      have hlength := List.length_pos_iff.mpr horder
      rw [hzero] at hcounter
      exact absurd hcounter.symm hlength.ne'
    rw [results, readSolutions_of_pos solutions hpos, hread, if_neg horder]
    refine ⟨?_, List.ext_getElem (by simp [Nat.min_comm]) fun slot hslot hslot' => ?_⟩
    · have hle := Nat.min_le_right order.length maxSolutions
      have hlt : maxSolutions < 2 ^ 32 := by decide
      rw [BitVec.toNat_ofNat, Nat.mod_eq_of_lt (by omega)]
    · rw [List.length_map, List.length_take] at hslot'
      have hfilled := hslots slot order[slot] (by omega) (List.getElem?_eq_getElem (by omega))
      rw [List.getElem_map, List.getElem_map, List.getElem_range, List.getElem_take]
      exact hfilled

/-- The record that is stored for an index. -/
def record (call : SearchCall) (dag : Vector Byte dagSize) (index : ℕ) : DeviceSolution :=
  { nonce := call.nonce index, mixHash := mixDigest dag call.headerHash (call.nonce index),
    result := call.hash dag index }

/-- What the memory holds when a launch has come to its end. -/
lemma stored_of_run (cfg : EnvConfig) (hsize : ValidSize dagSize)
    (hcount : call.count ≤ 2 ^ 31 - 512) {p₀ p : DevicePool} {actions : List DeviceAction}
    (hfresh : (call.launchParams dag tex1Dfetch).Fresh cfg p₀)
    (hrun : Run ((call.launchParams dag tex1Dfetch).Step cfg) p₀ actions p)
    (hdone : (call.launchParams dag tex1Dfetch).Done cfg p) :
    ∃ order : List ℕ,
      order.Perm ((List.range (gridNonces cfg.kernelEnvConfig call.count)).filter fun index =>
        call.Passes dag index) ∧
      p.counter.toNat = order.length ∧
      ∀ slot i, slot < maxSolutions → order[slot]? = some i → p.slots slot = call.record dag i := by
  have hnonces := gridNonces_lt_two_pow cfg.kernelEnvConfig hcount
  rw [KernelLaunchParams.Step, workers_launchParams] at hrun
  rw [KernelLaunchParams.Done, workers_launchParams] at hdone
  obtain ⟨order, hperm, hcounter, hslots⟩ :=
    (covers_launchParams dag tex1Dfetch call hcount cfg).stored hnonces hfresh hrun hdone
  have htest := test_launchParams dag tex1Dfetch call hsize cfg
  refine ⟨order, ?_, hcounter, fun slot i hslot hi => ?_⟩
  · have hfilter : ∀ index, (((call.launchParams dag tex1Dfetch).test cfg
        (call.startNonce + BitVec.ofNat 64 index)).isSome) = decide (call.Passes dag index) := by
      intro index
      refine (congrArg Option.isSome (htest index)).trans ?_
      by_cases h : call.Passes dag index <;> simp [h]
    simpa only [hfilter] using hperm
  · have hrecord := (htest i).symm.trans (hslots slot i hslot hi)
    split_ifs at hrecord
    exact (Option.some.inj hrecord).symm

/-- What is found when the memory holds the records of the nonces that pass. -/
lemma finds_of_stored {n : ℕ} {p : DevicePool} {currentJobId : String} (solutions : List Solution)
    {order : List ℕ}
    (hperm : order.Perm ((List.range n).filter fun index => call.Passes dag index))
    (hcounter : p.counter.toNat = order.length)
    (hslots : ∀ slot i, slot < maxSolutions → order[slot]? = some i →
      p.slots slot = call.record dag i) :
    call.Finds dag n currentJobId solutions (results currentJobId solutions p) := by
  have hrecords : ∀ slot i, slot < maxSolutions → order[slot]? = some i →
      hostSolution currentJobId (p.slots slot) = call.solution dag currentJobId i := by
    intro slot i hslot hi
    rw [hslots slot i hslot hi]
    rfl
  obtain ⟨hnumber, hvector⟩ := results_of_stored solutions hcounter hrecords
  exact ⟨order, hperm, hnumber, hvector⟩

/-- A launch that has come to its end. -/
lemma finds_of_run (env : Environment) (currentJobId : String) (solutions : List Solution)
    (hsize : ValidSize dagSize) (hcount : call.count ≤ 2 ^ 31 - 512) {p₀ p : DevicePool}
    {actions : List DeviceAction}
    (hfresh : (call.launchParams dag tex1Dfetch).Fresh (envCfg env) p₀)
    (hrun : Run ((call.launchParams dag tex1Dfetch).Step (envCfg env)) p₀ actions p)
    (hdone : (call.launchParams dag tex1Dfetch).Done (envCfg env) p) :
    call.Finds dag (gridNonces (envCfg env).kernelEnvConfig call.count) currentJobId solutions
      (results currentJobId solutions p) := by
  obtain ⟨order, hperm, hcounter, hslots⟩ :=
    stored_of_run (envCfg env) hsize hcount hfresh hrun hdone
  exact finds_of_stored solutions hperm hcounter hslots

variable (dag tex1Dfetch call) in
/-- **What a search returns.**  Whichever kernel the environment chooses and whatever the order of
the steps, the search tests the nonces of its grid, among them all that are asked for, comes to
its end, and finds those whose hash over the DAG is at most the target. -/
theorem search_finds (env : Environment) (currentJobId : String) (solutions : List Solution)
    (hsize : ValidSize dagSize) (hcount : call.count ≤ 2 ^ 31 - 512) {p₀ : DevicePool}
    (hfresh : (call.launchParams dag tex1Dfetch).Fresh (envCfg env) p₀) :
    let n := gridNonces (envCfg env).kernelEnvConfig call.count
    let step := (call.launchParams dag tex1Dfetch).Step (envCfg env)
    let done := (call.launchParams dag tex1Dfetch).Done (envCfg env)
    call.count ≤ n ∧
      (∀ actions p, Run step p₀ actions p → actions.length ≤ 43 * n ∧
        ∃ more p', Run step p₀ (actions ++ more) p' ∧ done p') ∧
      ∀ actions p, Run step p₀ actions p → done p →
        call.Finds dag n currentJobId solutions (results currentJobId solutions p) := by
  intro n step done
  refine ⟨le_gridNonces _ _, fun actions p hrun => ?_, fun actions p hrun hdone =>
    finds_of_run env currentJobId solutions hsize hcount hfresh hrun hdone⟩
  have hends := KernelLaunchParams.ends _ _ hfresh hrun
  have hlength := congrArg List.length
    (covers_launchParams dag tex1Dfetch call hcount (envCfg env))
  rw [List.length_map, Grid.length_tasks, List.length_map, List.length_range] at hlength
  rwa [workers_launchParams, hlength] at hends

/-- A solution that is found in an empty vector. -/
lemma Finds.of_mem {n : ℕ} {currentJobId : String} {found : List Solution × BitVec 32}
    (h : call.Finds dag n currentJobId [] found) {sol : Solution} (hsol : sol ∈ found.1) :
    ∃ index < n, call.Passes dag index ∧ sol = call.solution dag currentJobId index := by
  obtain ⟨order, hperm, -, hvector⟩ := h
  rw [hvector] at hsol
  split at hsol
  · exact absurd hsol List.not_mem_nil
  · obtain ⟨index, hindex, rfl⟩ := List.mem_map.mp hsol
    have hmem := hperm.mem_iff.mp (List.mem_of_mem_take hindex)
    rw [List.mem_filter, List.mem_range, decide_eq_true_eq] at hmem
    exact ⟨index, hmem.1, hmem.2, rfl⟩

end Search

/-- The memory before a launch. -/
def unstarted (g : Grid) : DevicePool :=
  { counter := 0
    slots := fun _ => ⟨0, Vector.replicate 32 0, Vector.replicate 32 0⟩
    progress := fun v => .working (g.assignment.tasks v) }

/-- Nonces from 7 on. -/
def callSeven : SearchCall :=
  { headerHash := countingHash 1, seedHash := countingHash 33, targetBE := countingHash 128,
    startNonce := 7, count := 1500 }

/-- Nothing but a texture kernel and 600 nonces a thread is asked for. -/
def textureEnvironment : Environment :=
  { useOptimizedKernel := none, useTextureKernel := some [0x31],
    noncesPerThread := some [0x36, 0x30, 0x30] }

/-- A search over a DAG of three pages. -/
theorem search_finds_threePages : ∃ n actions p,
    n = gridNonces (envCfg textureEnvironment).kernelEnvConfig 1500 ∧ 1500 ≤ n ∧
      Run ((callSeven.launchParams threePages fun _ => ⟨0, 0⟩).Step (envCfg textureEnvironment))
        (unstarted ((callSeven.launchParams threePages fun _ => ⟨0, 0⟩).grid
          (envCfg textureEnvironment))) actions p ∧
      actions.length ≤ 43 * n ∧
      (callSeven.launchParams threePages fun _ => ⟨0, 0⟩).Done (envCfg textureEnvironment) p ∧
      callSeven.Finds threePages n "" [] (results "" [] p) := by
  have hfresh : (callSeven.launchParams threePages fun _ => ⟨0, 0⟩).Fresh
      (envCfg textureEnvironment) (unstarted
        ((callSeven.launchParams threePages fun _ => ⟨0, 0⟩).grid (envCfg textureEnvironment))) :=
    ⟨rfl, fun _ => rfl⟩
  obtain ⟨hle, hends, hfinds⟩ := search_finds threePages (fun _ => ⟨0, 0⟩) callSeven
    textureEnvironment "" [] validSize_threePages (by decide) hfresh
  obtain ⟨-, actions, p, hrun, hdone⟩ := hends [] _ (.refl _)
  exact ⟨_, actions, p, rfl, hle, hrun, (hends actions p hrun).1, hdone,
    hfinds actions p hrun hdone⟩

/-! ## The environment does not matter -/

section Agree

variable {dag : Vector Byte dagSize} {tex1Dfetch : ℕ → Texel} {call : SearchCall}

/-- The solution is one that was asked for. -/
def requested (call : SearchCall) (sol : Solution) : Bool :=
  (sol.nonce - call.startNonce).toNat < call.count

/-- If the array holds them all, the passing nonces that were asked for are found. -/
lemma Finds.perm_requested {n : ℕ} {currentJobId : String} {found : List Solution × BitVec 32}
    (h : call.Finds dag n currentJobId [] found) (hle : call.count ≤ n) (hn : n < 2 ^ 64)
    (hfits : ((List.range n).filter fun index => call.Passes dag index).length ≤ maxSolutions) :
    (found.1.filter (requested call)).Perm
      (((List.range call.count).filter fun index => call.Passes dag index).map
        (call.solution dag currentJobId)) := by
  obtain ⟨order, hperm, -, hvector⟩ := h
  have hall : found.1 = order.map (call.solution dag currentJobId) := by
    rw [hvector, List.take_of_length_le (hperm.length_eq.trans_le hfits)]
    split
    · next hnil => rw [hnil, List.map_nil]
    · rfl
  rw [hall, List.filter_map]
  refine List.Perm.map _ ((List.perm_ext_iff_of_nodup ?_ ?_).mpr fun index => ?_)
  · exact (hperm.nodup_iff.mpr (List.nodup_range.filter _)).filter _
  · exact List.nodup_range.filter _
  · -- a nonce behind those asked for does not wrap around into them
    have hnonce : index < n → (requested call (call.solution dag currentJobId index) = true ↔
        index < call.count) := by
      intro hindex
      have hsub : call.nonce index - call.startNonce = BitVec.ofNat 64 index := by
        rw [nonce, BitVec.add_comm, BitVec.add_sub_cancel]
      rw [SearchCall.requested, solution, hsub, BitVec.toNat_ofNat, Nat.mod_eq_of_lt (by omega),
        decide_eq_true_iff]
    simp only [List.mem_filter, hperm.mem_iff, List.mem_range, Function.comp_apply,
      decide_eq_true_eq]
    constructor
    · rintro ⟨⟨hindex, hpasses⟩, hrequested⟩
      exact ⟨(hnonce hindex).mp hrequested, hpasses⟩
    · rintro ⟨hindex, hpasses⟩
      exact ⟨⟨by omega, hpasses⟩, (hnonce (by omega)).mpr hindex⟩

/-- **The environment does not matter.**  Two searches with the same parameters, under any two
environments and with any order of the steps, find the same solutions among the nonces asked for,
if in both grids at most 16 nonces pass. -/
theorem searches_agree (env env' : Environment) (currentJobId : String)
    (hsize : ValidSize dagSize) (hcount : call.count ≤ 2 ^ 31 - 512)
    (hfits : ∀ cfg ∈ [envCfg env, envCfg env'],
      ((List.range (gridNonces cfg.kernelEnvConfig call.count)).filter fun index =>
        call.Passes dag index).length ≤ maxSolutions)
    {p₀ p p₀' p' : DevicePool} {actions actions' : List DeviceAction}
    (hfresh : (call.launchParams dag tex1Dfetch).Fresh (envCfg env) p₀)
    (hrun : Run ((call.launchParams dag tex1Dfetch).Step (envCfg env)) p₀ actions p)
    (hdone : (call.launchParams dag tex1Dfetch).Done (envCfg env) p)
    (hfresh' : (call.launchParams dag tex1Dfetch).Fresh (envCfg env') p₀')
    (hrun' : Run ((call.launchParams dag tex1Dfetch).Step (envCfg env')) p₀' actions' p')
    (hdone' : (call.launchParams dag tex1Dfetch).Done (envCfg env') p') :
    ((results currentJobId [] p).1.filter (requested call)).Perm
      ((results currentJobId [] p').1.filter (requested call)) := by
  have hlt := fun cfg : EnvConfig => gridNonces_lt_two_pow cfg.kernelEnvConfig hcount
  have hle := fun cfg : EnvConfig => le_gridNonces cfg.kernelEnvConfig call.count
  have hfound := (finds_of_run env currentJobId [] hsize hcount hfresh hrun hdone).perm_requested
    (hle _) ((hlt _).trans (by norm_num)) (hfits _ (by simp))
  have hfound' :=
    (finds_of_run env' currentJobId [] hsize hcount hfresh' hrun' hdone').perm_requested
      (hle _) ((hlt _).trans (by norm_num)) (hfits _ (by simp))
  exact hfound.trans hfound'.symm

end Agree

end SearchCall

end OhMyMiner.Engine
