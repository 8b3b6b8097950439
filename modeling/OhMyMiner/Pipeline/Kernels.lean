/-
# The pipeline with its kernels

`SearchExecutor::runAsyncTick` (`src/cuda/pipeline/search_executor.cpp`) returns while the kernel
that it has started is at work.  In `Pipeline.Executor` the nonces that a batch accepts are an
input of the tick that launches it.  Here the threads of all streams take their steps in any order
between the ticks, and a stream is free when the threads of its batch have finished.

A tick decides nothing about what its batch will find.  So the run of `SearchExecutor` that a
caller sees is found from the end: what the threads will have done is an input of the tick that has
started them.  And what a tick collects is what a synchronous search can find.
-/
import OhMyMiner.Engine.Kernels
import OhMyMiner.Pipeline.Executor

namespace OhMyMiner.Pipeline

open Lib Search Engine

/-! ## The code -/

/-- The arguments of a tick, with the bytes at `d_dag`, which count if it is not null; they stay as
they are while a kernel reads them. -/
structure TickCall where
  newWork : SearchWork
  currentJobId : String
  dag : Vector Byte newWork.dagSize.toNat
  tex1Dfetch : ℕ → Texel

/-- `klp`; it leaves the choice to the environment, and has no texture object. -/
def TickCall.klp (call : TickCall) : KernelLaunchParams call.newWork.dagSize.toNat :=
  { dag := call.newWork.dDag.map fun _ => call.dag, headerHash := call.newWork.headerHash,
    seedHash := call.newWork.seedHash, targetBE := call.newWork.targetBE,
    startNonce := call.newWork.startNonce, searchCount := call.newWork.count,
    maxSolutions := BitVec.ofNat 32 maxSolutions, texDAG := 0, tex1Dfetch := call.tex1Dfetch,
    variant := .auto }

/-- A stream, with the batch that was launched last and its threads. -/
structure KernelStream where
  batch : Option (ℕ × TickCall)
  pool : DevicePool

namespace KernelStream

/-- `stageWork` and the start of the kernel. -/
def launch (cfg : EnvConfig) (batch : ℕ) (call : TickCall) (s : KernelStream) : KernelStream :=
  { batch := some (batch, call)
    pool :=
      { counter := 0
        slots := s.pool.slots
        progress := fun v => .working ((call.klp.grid cfg).assignment.tasks v) } }

/-- `collectResults`, and what a tick makes of its entries. -/
def collect (s : KernelStream) (currentJobId : String) : List Solution :=
  (List.range (min s.pool.counter.toNat maxSolutions)).map fun k =>
    hostSolution currentJobId (s.pool.slots k)

/-- The event of the stream has happened, or it was never recorded. -/
def Finished (cfg : EnvConfig) (s : KernelStream) : Prop :=
  ∀ batch call, s.batch = some (batch, call) → call.klp.Done cfg s.pool

end KernelStream

/-- A batch that was collected: the job id of the tick, and the solutions that it returned. -/
structure Collection where
  batch : ℕ
  currentJobId : String
  solutions : List Solution

/-- The executor, with the threads on its `n` streams.  What `launches` and `collections` record
has no effect. -/
structure KernelExecutor (n : ℕ) where
  streams : Fin n → KernelStream
  streamIdx : Fin n
  pendingCounts : List (BitVec 64)
  launches : List TickCall
  collections : List Collection

variable {n : ℕ}

namespace KernelExecutor

/-- An executor after `PipelineManager::initialize`, with any device memory. -/
def initial (streamIdx : Fin n) (pools : Fin n → DevicePool) : KernelExecutor n :=
  { streams := fun i => { batch := none, pool := pools i }
    streamIdx := streamIdx, pendingCounts := [], launches := [], collections := [] }

/-- The stream of the next tick. -/
def current (e : KernelExecutor n) : KernelStream := e.streams e.streamIdx

/-- `advanceStream`. -/
def advanceStream (e : KernelExecutor n) : KernelExecutor n :=
  { e with streamIdx := nextStream e.streamIdx }

/-- `pendingCounts_`, with one entry for each stream. -/
def sizedCounts (e : KernelExecutor n) : List (BitVec 64) :=
  Pipeline.sizedCounts n e.pendingCounts

/-- The pending count of the current stream. -/
def pendingCount (e : KernelExecutor n) : BitVec 64 := e.sizedCounts[e.streamIdx]?.getD 0

/-- The record of what a tick collects, if there is a batch on its stream. -/
def collection (e : KernelExecutor n) (currentJobId : String) : Option Collection :=
  e.current.batch.map fun batch =>
    { batch := batch.1, currentJobId := currentJobId
      solutions := e.current.collect currentJobId }

/-- A tick on a stream that is free. -/
def relaunch (cfg : EnvConfig) (e : KernelExecutor n) (call : TickCall) : KernelExecutor n :=
  { e with
    streams := Function.update e.streams e.streamIdx
      (e.current.launch cfg e.launches.length call)
    pendingCounts := e.sizedCounts.set e.streamIdx call.newWork.count
    launches := e.launches ++ [call]
    collections := e.collections ++ (e.collection call.currentJobId).toList }

/-- `runAsyncTick`: the solutions, the new state and the new `totalHashes`; `finished` is what
`cudaEventQuery` says. -/
def runAsyncTick (cfg : EnvConfig) (e : KernelExecutor n) (call : TickCall) (finished : Bool)
    (totalHashes : BitVec 64) : List Solution × KernelExecutor n × BitVec 64 :=
  asyncTick finished (e.current.collect call.currentJobId) (e.relaunch cfg call).advanceStream
    { e with pendingCounts := e.sizedCounts }.advanceStream e.pendingCount totalHashes

/-- A step of a thread changes the pool of its stream. -/
def setPool (e : KernelExecutor n) (i : Fin n) (pool : DevicePool) : KernelExecutor n :=
  { e with
    streams := Function.update e.streams i { batch := (e.streams i).batch, pool := pool } }

end KernelExecutor

/-- What a caller of `runAsyncTick` gives and gets. -/
structure Seen where
  call : TickCall
  totalHashes : BitVec 64
  solutions : List Solution
  newTotalHashes : BitVec 64

/-- What happens to the executor: a tick, or a step of a thread on one of the streams. -/
inductive KernelEvent (n : ℕ) where
  | tick (seen : Seen)
  | thread (stream : Fin n) (action : DeviceAction)

namespace KernelExecutor

/-- One event. -/
inductive Step (cfg : EnvConfig) : KernelExecutor n → KernelEvent n → KernelExecutor n → Prop
  | tick {e e' : KernelExecutor n} {seen : Seen} {finished : Bool}
      (hfinished : finished = true ↔ e.current.Finished cfg)
      (h : e.runAsyncTick cfg seen.call finished seen.totalHashes =
        (seen.solutions, e', seen.newTotalHashes)) : Step cfg e (.tick seen) e'
  | thread {e : KernelExecutor n} {i : Fin n} {action : DeviceAction} {batch : ℕ}
      {call : TickCall} {pool : DevicePool} (hbatch : (e.streams i).batch = some (batch, call))
      (h : call.klp.Step cfg (e.streams i).pool action pool) :
      Step cfg e (.thread i action) (e.setPool i pool)

end KernelExecutor

/-! ## What a batch accepts -/

namespace TickCall

/-- The search that `searchSync` starts for the same arguments. -/
def search (call : TickCall) : SearchCall :=
  { headerHash := call.newWork.headerHash, seedHash := call.newWork.seedHash,
    targetBE := call.newWork.targetBE, startNonce := call.newWork.startNonce,
    count := call.newWork.count.toNat }

/-- The number of nonces that the batch tests: those of its grid, but none without a DAG. -/
def testedNonces (cfg : EnvConfig) (call : TickCall) : ℕ :=
  if call.newWork.dDag.isSome then Engine.gridNonces cfg.kernelEnvConfig call.search.count else 0

/-- The tested nonces that pass, in some order. -/
def Accepts (cfg : EnvConfig) (call : TickCall) (hits : List DeviceSolution) : Prop :=
  ∃ order : List ℕ,
    order.Perm ((List.range (call.testedNonces cfg)).filter fun index =>
      call.search.Passes call.dag index) ∧
    hits = order.map (call.search.record call.dag)

/-- The DAG, if there is one, has a size on which the kernels work, and the nonces are so few that
no launcher computes an empty grid. -/
structure Valid (call : TickCall) : Prop where
  size : call.newWork.dDag.isSome → ValidSize call.newWork.dagSize.toNat
  count : call.newWork.count.toNat ≤ 2 ^ 31 - 512

/-- With a DAG, a tick starts what `searchSync` starts. -/
lemma klp_eq {call : TickCall} (hdag : call.newWork.dDag.isSome) :
    call.klp = call.search.launchParams call.dag call.tex1Dfetch := by
  obtain ⟨dDag, hdDag⟩ := Option.isSome_iff_exists.mp hdag
  rw [klp, SearchCall.launchParams, search, BitVec.ofNat_toNat, BitVec.setWidth_eq, hdDag]
  rfl

/-- Without a DAG no thread is started. -/
lemma workers_klp_of_null {call : TickCall} (hdag : ¬ call.newWork.dDag.isSome)
    (cfg : EnvConfig) : call.klp.workers cfg = ∅ := by
  have hnone : call.klp.dag.isNone = true := by
    rw [klp, Option.not_isSome_iff_eq_none.mp hdag]
    rfl
  rw [KernelLaunchParams.workers, hnone]
  exact if_pos rfl

lemma exists_accepts (cfg : EnvConfig) (call : TickCall) : ∃ hits, call.Accepts cfg hits :=
  ⟨_, _, .refl _, rfl⟩

variable {cfg : EnvConfig} {call : TickCall} {p₀ p : DevicePool} {actions : List DeviceAction}

/-- What the threads of a batch leave behind when they have finished: the records of the tested
nonces that pass, in some order. -/
lemma stored_order (hvalid : call.Valid) (hfresh : call.klp.Fresh cfg p₀)
    (hrun : Run (call.klp.Step cfg) p₀ actions p) (hdone : call.klp.Done cfg p) :
    ∃ order : List ℕ,
      order.Perm ((List.range (call.testedNonces cfg)).filter fun index =>
        call.search.Passes call.dag index) ∧
      p.counter.toNat = order.length ∧
      ∀ slot i, slot < maxSolutions → order[slot]? = some i →
        p.slots slot = call.search.record call.dag i := by
  rw [testedNonces]
  by_cases hdag : call.newWork.dDag.isSome
  · -- a batch is a launch of `searchSync`
    rw [klp_eq hdag] at hfresh hrun hdone
    rw [if_pos hdag]
    exact SearchCall.stored_of_run cfg (hvalid.size hdag) hvalid.count hfresh hrun hdone
  · -- without a DAG no thread runs, and the counter stays zero
    rw [KernelLaunchParams.Step, workers_klp_of_null hdag] at hrun
    obtain rfl := Batched.eq_of_run_empty hrun
    rw [if_neg hdag]
    exact ⟨[], by simp, by rw [hfresh.counter]; rfl, fun _ _ _ h => absurd h (by simp)⟩

/-- The same, as the entries of a list. -/
lemma stored (hvalid : call.Valid) (hfresh : call.klp.Fresh cfg p₀)
    (hrun : Run (call.klp.Step cfg) p₀ actions p) (hdone : call.klp.Done cfg p) :
    ∃ hits, call.Accepts cfg hits ∧ p.counter.toNat = hits.length ∧
      ∀ k < maxSolutions, k < hits.length → hits[k]? = some (p.slots k) := by
  obtain ⟨order, hperm, hcounter, hslots⟩ := stored_order hvalid hfresh hrun hdone
  refine ⟨_, ⟨order, hperm, rfl⟩, by rw [hcounter, List.length_map], fun k hk hlt => ?_⟩
  rw [List.length_map] at hlt
  have hi : order[k]? = some order[k] := List.getElem?_eq_getElem hlt
  rw [List.getElem?_map, hi, hslots k _ hk hi]
  rfl

/-- What `collectResults` reads of a batch that has finished is what `searchSync` finds. -/
lemma finds (hvalid : call.Valid) (hfresh : call.klp.Fresh cfg p₀)
    (hrun : Run (call.klp.Step cfg) p₀ actions p) (hdone : call.klp.Done cfg p)
    (currentJobId : String) :
    call.search.Finds call.dag (call.testedNonces cfg) currentJobId []
      (SearchCall.results currentJobId [] p) := by
  obtain ⟨order, hperm, hcounter, hslots⟩ := stored_order hvalid hfresh hrun hdone
  exact SearchCall.finds_of_stored [] hperm hcounter hslots

/-- The threads of a batch can go on until they have finished. -/
lemma exists_done (cfg : EnvConfig) (call : TickCall) (p : DevicePool) :
    ∃ actions p', Run (call.klp.Step cfg) p actions p' ∧ call.klp.Done cfg p' := by
  have hrefl : Run (call.klp.Step cfg) p [] p := .refl _
  obtain ⟨-, actions, p', hrun, hdone⟩ := Batched.ends_of_run hrefl
  exact ⟨actions, p', hrun, hdone⟩

end TickCall

/-! ## What the host can see -/

namespace Stream

variable {m : ℕ}

/-- The memory of a stream is that of a pool, as far as the host can see it. -/
structure Shows (s : Stream maxSolutions) (p : DevicePool) : Prop where
  counter : s.solutionCount = p.counter
  slots : ∀ k < maxSolutions, k < p.counter.toNat →
    s.solutions[k]?.map Slot.solution = some (p.slots k)

/-- The entries that are found are the first ones of the pool. -/
lemma Shows.found {s : Stream maxSolutions} {p : DevicePool} (h : s.Shows p) :
    s.found.map Slot.solution = (List.range (min p.counter.toNat maxSolutions)).map p.slots := by
  refine List.ext_getElem? fun k => ?_
  rw [Stream.found, List.getElem?_map, List.getElem?_take, List.getElem?_map, h.counter,
    Vector.getElem?_toList]
  by_cases hk : k < p.counter.toNat
  · rw [if_pos hk]
    by_cases hm : k < maxSolutions
    · rw [h.slots k hm hk, List.getElem?_range (by omega)]
      rfl
    · have hnone : s.solutions[k]? = none := Vector.getElem?_eq_none (by omega)
      rw [hnone, List.getElem?_eq_none (by rw [List.length_range]; omega)]
      rfl
  · rw [if_neg hk, List.getElem?_eq_none (by rw [List.length_range]; omega)]
    rfl

/-- A launch stores what is accepted from the first entry on. -/
lemma getElem?_launch (batch : ℕ) (hits : List DeviceSolution) (s : Stream m)
    (hlength : hits.length < 2 ^ 32) :
    ∀ k < m, k < hits.length →
      (s.launch batch hits).solutions[k]?.map Slot.solution = hits[k]? := by
  induction hits using List.reverseRecOn with
  | nil => exact fun k _ hk => absurd hk (Nat.not_lt_zero k)
  | append_singleton hits hit ih =>
    intro k hm hk
    rw [List.length_append, List.length_singleton] at hlength hk
    obtain ⟨-, hcount, -⟩ := s.launch_spec batch hits
    have hlaunch : s.launch batch (hits ++ [hit]) = (s.launch batch hits).store batch hit :=
      List.foldl_append
    rw [hlaunch, store, hcount, BitVec.toNat_ofNat, Nat.mod_eq_of_lt (by omega)]
    by_cases hlast : hits.length = k
    · -- the entry that is stored last
      rw [hlast, Vector.getElem?_setIfInBounds_self, if_pos hm, ← hlast,
        List.getElem?_concat_length]
      rfl
    · rw [Vector.getElem?_setIfInBounds_ne hlast, ih (by omega) k hm (by omega),
        List.getElem?_append_left (by omega)]

end Stream

/-- The solutions of a tick are those that are collected from the pool that its stream shows. -/
lemma map_solution_results {a : SearchExecutor n maxSolutions} {s : KernelStream}
    (h : a.current.Shows s.pool) (tick : Tick) :
    (a.results tick).map Returned.solution = s.collect tick.currentJobId := by
  have hfound : (a.results tick).map Returned.solution =
      (a.current.found.map Slot.solution).map (hostSolution tick.currentJobId) := by
    refine List.ext_getElem? fun k => ?_
    rw [SearchExecutor.results, List.getElem?_map, List.getElem?_mapIdx, List.map_map,
      List.getElem?_map, Option.map_map]
    rfl
  rw [hfound, h.found, List.map_map]
  rfl

/-! ## Futures -/

/-- What can be in the memory of a stream at the next tick that finds it free. -/
inductive KernelStream.Completes (cfg : EnvConfig) (s : KernelStream) : DevicePool → Prop
  | idle (h : s.batch = none) : Completes cfg s s.pool
  | running {batch : ℕ} {call : TickCall} {p : DevicePool} {actions : List DeviceAction}
      (h : s.batch = some (batch, call)) (hrun : Run (call.klp.Step cfg) s.pool actions p)
      (hdone : call.klp.Done cfg p) : Completes cfg s p

/-- A stream that is free is complete. -/
lemma KernelStream.Finished.completes {cfg : EnvConfig} {s : KernelStream}
    (h : s.Finished cfg) : s.Completes cfg s.pool := by
  cases hbatch : s.batch with
  | none => exact .idle hbatch
  | some batch => exact .running hbatch (.refl _) (h batch.1 batch.2 hbatch)

namespace KernelExecutor

variable {cfg : EnvConfig} {e e' : KernelExecutor n} {c c' : Fin n → DevicePool}
  {a : SearchExecutor n maxSolutions}

/-- One of the memories that the streams can come to. -/
def Future (cfg : EnvConfig) (e : KernelExecutor n) (c : Fin n → DevicePool) : Prop :=
  ∀ i, (e.streams i).Completes cfg (c i)

lemma exists_future (cfg : EnvConfig) (e : KernelExecutor n) : ∃ c, e.Future cfg c := by
  have hstream : ∀ i, ∃ p, (e.streams i).Completes cfg p := by
    intro i
    cases hbatch : (e.streams i).batch with
    | none => exact ⟨_, .idle hbatch⟩
    | some batch =>
      obtain ⟨actions, p, hrun, hdone⟩ := batch.2.exists_done cfg (e.streams i).pool
      exact ⟨p, .running hbatch hrun hdone⟩
  choose c hc using hstream
  exact ⟨c, hc⟩

/-- The other executor has on its streams what will be on these. -/
structure Matches (e : KernelExecutor n) (c : Fin n → DevicePool)
    (a : SearchExecutor n maxSolutions) : Prop where
  streamIdx : a.streamIdx = e.streamIdx
  pendingCounts : a.pendingCounts = e.pendingCounts
  launches : a.launches.length = e.launches.length
  batch : ∀ i, (a.stream i).batch = (e.streams i).batch.map Prod.fst
  shows : ∀ i, (a.stream i).Shows (c i)

namespace Matches

lemma sizedCounts (h : e.Matches c a) : a.sizedCounts = e.sizedCounts := by
  rw [SearchExecutor.sizedCounts, KernelExecutor.sizedCounts, h.pendingCounts]

lemma pendingCount (h : e.Matches c a) : a.pendingCount = e.pendingCount := by
  rw [SearchExecutor.pendingCount, KernelExecutor.pendingCount, h.sizedCounts, h.streamIdx]

/-- Both look at a stream that is free, or both at one that is not. -/
lemma free (h : e.Matches c a) {tick : Tick}
    (hfinished : tick.finished = true ↔ e.current.Finished cfg) :
    a.free tick = tick.finished := by
  have hbatch : a.current.batch = e.current.batch.map Prod.fst := by
    rw [SearchExecutor.current, h.batch, h.streamIdx]
    rfl
  rw [SearchExecutor.free, hbatch]
  cases hnone : e.current.batch with
  | some batch => rfl
  | none =>
    refine (hfinished.mpr fun batch call hsome => ?_).symm
    exact absurd (hnone.symm.trans hsome) (by simp)

/-- Both go on to the next stream. -/
lemma advanceStream (h : e.Matches c a) : e.advanceStream.Matches c a.advanceStream := by
  refine ⟨?_, h.pendingCounts, h.launches, h.batch, h.shows⟩
  rw [SearchExecutor.advanceStream, KernelExecutor.advanceStream]
  simp only [h.streamIdx]

end Matches

/-! ## The step -/

lemma streams_relaunch_self (cfg : EnvConfig) (e : KernelExecutor n) (call : TickCall) :
    (e.relaunch cfg call).streams e.streamIdx = e.current.launch cfg e.launches.length call :=
  Function.update_self ..

lemma streams_relaunch_of_ne {i : Fin n} (cfg : EnvConfig) (e : KernelExecutor n)
    (call : TickCall) (h : i ≠ e.streamIdx) : (e.relaunch cfg call).streams i = e.streams i :=
  Function.update_of_ne h ..

/-- A tick of the other executor, whose new batch accepts what passes. -/
def Accepting (cfg : EnvConfig) (a : SearchExecutor n maxSolutions) (seen : Seen)
    (a' : SearchExecutor n maxSolutions) : Prop :=
  ∃ tick : Tick, tick.newWork = seen.call.newWork ∧ tick.currentJobId = seen.call.currentJobId ∧
    seen.call.Accepts cfg tick.hits ∧
    a.runAsyncTick tick seen.totalHashes = (seen.solutions, a', seen.newTotalHashes)

/-- A tick on a stream that is not free. -/
lemma exists_busy {seen : Seen} (h : e.Matches c a) (hbusy : ¬ e.current.Finished cfg)
    (hrun : e.runAsyncTick cfg seen.call false seen.totalHashes =
      (seen.solutions, e', seen.newTotalHashes)) :
    ∃ a', Accepting cfg a seen a' ∧ e'.Matches c a' ∧ e'.streams = e.streams := by
  obtain ⟨hsolutions, hrest⟩ := Prod.mk.inj hrun
  obtain ⟨rfl, hhashes⟩ := Prod.mk.inj hrest
  obtain ⟨hits, hhits⟩ := seen.call.exists_accepts cfg
  let tick : Tick := { newWork := seen.call.newWork, currentJobId := seen.call.currentJobId
                       finished := false, hits := hits }
  have hfree : a.free tick = false := h.free (by simpa [tick] using hbusy)
  let next : SearchExecutor n maxSolutions :=
    { a with pendingCounts := a.sizedCounts, ticks := a.ticks + 1 }
  refine ⟨next.advanceStream, ⟨tick, rfl, rfl, hhits, ?_⟩, Matches.advanceStream (a := next)
    ⟨h.streamIdx, h.sizedCounts, h.launches, h.batch, h.shows⟩, rfl⟩
  rw [SearchExecutor.runAsyncTick, hfree, ← hsolutions, ← hhashes]
  rfl

/-- The stream of a tick, after the threads of its new batch have finished. -/
lemma exists_launched {call : TickCall} (hvalid : call.Valid) (s : Stream maxSolutions)
    (batch : ℕ) {t : KernelStream} {p : DevicePool} {number : ℕ}
    (hp : (t.launch cfg number call).Completes cfg p) :
    ∃ hits, call.Accepts cfg hits ∧ (s.launch batch hits).Shows p := by
  cases hp with
  | idle h => exact absurd h (by simp [KernelStream.launch])
  | @running _ call' _ actions h hrun hdone =>
    obtain ⟨-, rfl⟩ := Prod.mk.inj (Option.some.inj h)
    have hfresh : call.klp.Fresh cfg (t.launch cfg number call).pool := ⟨rfl, fun _ => rfl⟩
    obtain ⟨hits, hhits, hcounter, hslots⟩ := TickCall.stored hvalid hfresh hrun hdone
    have hlength : hits.length < 2 ^ 32 := hcounter ▸ p.counter.isLt
    obtain ⟨-, hcount, -⟩ := s.launch_spec batch hits
    refine ⟨hits, hhits, ?_, fun k hk hlt => ?_⟩
    · rw [hcount, ← hcounter, BitVec.ofNat_toNat, BitVec.setWidth_eq]
    · rw [hcounter] at hlt
      rw [Stream.getElem?_launch batch hits s hlength k hk hlt, hslots k hk hlt]

/-- A tick on a stream that is free: the new batch accepts what its threads will have stored. -/
lemma exists_relaunched {seen : Seen} (hvalid : seen.call.Valid)
    (hfinished : e.current.Finished cfg)
    (hrun : e.runAsyncTick cfg seen.call true seen.totalHashes =
      (seen.solutions, e', seen.newTotalHashes)) (hc' : e'.Future cfg c') :
    e.Future cfg (Function.update c' e.streamIdx e.current.pool) ∧
      ∀ a, e.Matches (Function.update c' e.streamIdx e.current.pool) a →
        ∃ a', Accepting cfg a seen a' ∧ e'.Matches c' a' := by
  obtain ⟨hsolutions, hrest⟩ := Prod.mk.inj hrun
  obtain ⟨rfl, hhashes⟩ := Prod.mk.inj hrest
  have hother : ∀ i, i ≠ e.streamIdx →
      ((e.relaunch cfg seen.call).advanceStream.streams i) = e.streams i :=
    fun i hne => streams_relaunch_of_ne cfg e seen.call hne
  have hself : (e.relaunch cfg seen.call).advanceStream.streams e.streamIdx =
      e.current.launch cfg e.launches.length seen.call := streams_relaunch_self cfg e seen.call
  constructor
  · intro i
    rcases eq_or_ne i e.streamIdx with rfl | hne
    · -- nothing happens any more to what the tick collects
      rw [Function.update_self]
      exact hfinished.completes
    · rw [Function.update_of_ne hne, ← hother i hne]
      exact hc' i
  · intro a h
    have hcurrent : a.current.Shows e.current.pool := by
      have hshows := h.shows e.streamIdx
      rwa [Function.update_self, ← h.streamIdx] at hshows
    -- the future after the tick knows what the new batch will have stored
    have hnew := hc' e.streamIdx
    rw [hself] at hnew
    obtain ⟨hits, hhits, hshows⟩ := exists_launched hvalid a.current a.launches.length hnew
    let tick : Tick := { newWork := seen.call.newWork, currentJobId := seen.call.currentJobId
                         finished := true, hits := hits }
    have hfree : a.free tick = true := h.free (by simpa [tick] using hfinished)
    have hstream : ∀ i, (a.relaunch tick).stream i =
        if i = e.streamIdx then a.current.launch a.launches.length hits else a.stream i := by
      intro i
      rw [SearchExecutor.stream_relaunch, h.streamIdx]
    refine ⟨(a.relaunch tick).advanceStream, ⟨tick, rfl, rfl, hhits, ?_⟩,
      Matches.advanceStream ⟨h.streamIdx, ?_, ?_, fun i => ?_, fun i => ?_⟩⟩
    · rw [SearchExecutor.runAsyncTick, asyncTick, hfree, if_pos rfl, map_solution_results hcurrent,
        h.pendingCount, ← hsolutions, ← hhashes]
    · show a.sizedCounts.set a.streamIdx _ = e.sizedCounts.set e.streamIdx _
      rw [h.sizedCounts, h.streamIdx]
    · show (a.launches ++ [_]).length = (e.launches ++ [seen.call]).length
      rw [List.length_append, List.length_append, h.launches]
      rfl
    · rw [hstream]
      rcases eq_or_ne i e.streamIdx with rfl | hne
      · obtain ⟨hbatch, -, -⟩ := a.current.launch_spec a.launches.length hits
        rw [if_pos rfl, hbatch, h.launches]
        show _ = ((e.relaunch cfg seen.call).advanceStream.streams e.streamIdx).batch.map Prod.fst
        rw [hself]
        rfl
      · rw [if_neg hne, h.batch]
        exact congrArg (fun s => KernelStream.batch s |>.map Prod.fst) (hother i hne).symm
    · rw [hstream]
      rcases eq_or_ne i e.streamIdx with rfl | hne
      · rw [if_pos rfl]
        exact hshows
      · rw [if_neg hne]
        have hold := h.shows i
        rwa [Function.update_of_ne hne] at hold

lemma streams_setPool_self (e : KernelExecutor n) (i : Fin n) (pool : DevicePool) :
    (e.setPool i pool).streams i = { batch := (e.streams i).batch, pool := pool } :=
  Function.update_self ..

lemma streams_setPool_of_ne {i j : Fin n} (e : KernelExecutor n) (pool : DevicePool) (h : j ≠ i) :
    (e.setPool i pool).streams j = e.streams j := Function.update_of_ne h ..

/-- A step of a thread leaves fewer futures, and the caller sees nothing of it. -/
lemma future_of_setPool {i : Fin n} {action : DeviceAction} {batch : ℕ} {call : TickCall}
    {pool : DevicePool} (hbatch : (e.streams i).batch = some (batch, call))
    (hstep : call.klp.Step cfg (e.streams i).pool action pool)
    (hc : (e.setPool i pool).Future cfg c) : e.Future cfg c := by
  intro j
  have hj := hc j
  rcases eq_or_ne j i with rfl | hne
  · rw [streams_setPool_self] at hj
    cases hj with
    | idle h => exact absurd (hbatch.symm.trans h) (by simp)
    | running h hrun hdone =>
      obtain ⟨-, rfl⟩ := Prod.mk.inj (Option.some.inj (hbatch.symm.trans h))
      exact .running hbatch ((Run.snoc (.refl _) hstep).append hrun) hdone
  · rwa [streams_setPool_of_ne e pool hne] at hj

lemma Matches.setPool (h : e.Matches c a) (i : Fin n) (pool : DevicePool) :
    (e.setPool i pool).Matches c a := by
  refine ⟨h.streamIdx, h.pendingCounts, h.launches, fun j => ?_, h.shows⟩
  rcases eq_or_ne j i with rfl | hne
  · rw [streams_setPool_self, h.batch]
  · rw [streams_setPool_of_ne e pool hne, h.batch]

end KernelExecutor

/-- What a caller sees of an event. -/
def KernelEvent.seen : KernelEvent n → List Seen
  | .tick seen => [seen]
  | .thread _ _ => []

/-- The arguments of the ticks are valid. -/
def KernelEvent.Valid : KernelEvent n → Prop
  | .tick seen => seen.call.Valid
  | .thread _ _ => True

namespace KernelExecutor

variable {cfg : EnvConfig} {e e' : KernelExecutor n} {c' : Fin n → DevicePool}

/-- **For every event and every future after it** there is a future before it for which the other
executor can follow. -/
lemma exists_followed {event : KernelEvent n} (hvalid : event.Valid) (hstep : e.Step cfg event e')
    (hc' : e'.Future cfg c') :
    ∃ c, e.Future cfg c ∧ ∀ a, e.Matches c a →
      ∃ a', Run (Accepting cfg) a event.seen a' ∧ e'.Matches c' a' := by
  cases hstep with
  | thread hbatch hthread =>
    exact ⟨c', future_of_setPool hbatch hthread hc', fun a h => ⟨a, .refl _, h.setPool _ _⟩⟩
  | @tick _ seen finished hfinished hrun =>
    cases finished with
    | false =>
      have hbusy : ¬ e.current.Finished cfg := fun h => absurd (hfinished.mpr h) (by simp)
      have hstreams : e'.streams = e.streams := by
        obtain ⟨rfl, -⟩ := Prod.mk.inj (Prod.mk.inj hrun).2
        rfl
      refine ⟨c', fun i => hstreams ▸ hc' i, fun a h => ?_⟩
      obtain ⟨a', haccepting, hmatches, -⟩ := exists_busy h hbusy hrun
      exact ⟨a', .snoc (.refl _) haccepting, hmatches⟩
    | true =>
      obtain ⟨hfuture, hfollow⟩ := exists_relaunched hvalid (hfinished.mp rfl) hrun hc'
      refine ⟨_, hfuture, fun a h => ?_⟩
      obtain ⟨a', haccepting, hmatches⟩ := hfollow a h
      exact ⟨a', .snoc (.refl _) haccepting, hmatches⟩

/-! ## Whole runs -/

/-- The executor that has the same memory on its streams before the first tick. -/
def showing (streamIdx : Fin n) (pools : Fin n → DevicePool) : SearchExecutor n maxSolutions :=
  .initial streamIdx (Vector.ofFn fun i => (pools i).counter)
    (Vector.ofFn fun i => Vector.ofFn fun k => (pools i).slots k)

lemma matches_initial {streamIdx : Fin n} {pools c : Fin n → DevicePool}
    (hc : (initial streamIdx pools).Future cfg c) :
    (initial streamIdx pools).Matches c (showing streamIdx pools) := by
  have hstream : ∀ i, (showing streamIdx pools).stream i =
      { batch := none, solutionCount := (pools i).counter,
        solutions := Vector.ofFn fun k => { solution := (pools i).slots k, writer := none } } := by
    intro i
    have hget : ∀ {α : Type} {k : ℕ} (f : Fin k → α) (j : Fin k), (Vector.ofFn f).get j = f j :=
      fun f j => Vector.getElem_ofFn j.2
    rw [showing, SearchExecutor.stream_initial]
    simp only [hget]
  refine ⟨rfl, rfl, rfl, fun i => by rw [hstream]; rfl, fun i => ?_⟩
  rw [hstream]
  have hpool : c i = pools i := by
    have hi := hc i
    generalize c i = p at hi ⊢
    cases hi with
    | idle h => rfl
    | running h => exact absurd h (by simp [initial])
  rw [hpool]
  refine ⟨rfl, fun k hk _ => ?_⟩
  rw [Vector.getElem?_ofFn, dif_pos hk]
  rfl

/-- **The kernels are seen as inputs.**  Whatever the order in which the threads of all streams
take their steps between the ticks, what a caller gives to `runAsyncTick` and gets from it, tick by
tick, is what it gives to `SearchExecutor` and gets from it in a run in which each batch accepts
the nonces that it tests and that pass; and that run ends with what the threads that are still at
work will leave, whatever this is. -/
theorem run_seen {streamIdx : Fin n} {pools : Fin n → DevicePool} {events : List (KernelEvent n)}
    (hrun : Run (fun e event e' => event.Valid ∧ Step cfg e event e') (initial streamIdx pools)
      events e) :
    (∃ c, e.Future cfg c) ∧ ∀ c, e.Future cfg c →
      ∃ a, Run (Accepting cfg) (showing streamIdx pools) (events.flatMap KernelEvent.seen) a ∧
        e.Matches c a :=
  ⟨e.exists_future cfg, fun _ hc => hrun.foresee (Future cfg) Matches KernelEvent.seen
    (fun _ _ _ _ hstep hc' => exists_followed hstep.1 hstep.2 hc')
    (fun _ hc' => matches_initial hc') hc⟩

/-! ## What is collected -/

section Collected

variable {env : Environment}

/-- The tick has returned what `searchSync` can return for the arguments of the batch, with its
own job id. -/
def FoundBy (env : Environment) (call : TickCall) (x : Collection) : Prop :=
  ∃ number, call.search.Finds call.dag (call.testedNonces (envCfg env)) x.currentJobId []
    (x.solutions, number)

/-- What holds after every event. -/
structure Invariant (env : Environment) (e : KernelExecutor n) : Prop where
  /-- The threads on a stream are those of the batch, from its launch on. -/
  started : ∀ i b call, (e.streams i).batch = some (b, call) →
    e.launches[b]? = some call ∧ call.Valid ∧ ∃ p₀ actions, call.klp.Fresh (envCfg env) p₀ ∧
      Run (call.klp.Step (envCfg env)) p₀ actions (e.streams i).pool
  alone : ∀ i j b call call', (e.streams i).batch = some (b, call) →
    (e.streams j).batch = some (b, call') → i = j
  once : (e.collections.map Collection.batch).Nodup
  past : ∀ x ∈ e.collections, (∃ call, e.launches[x.batch]? = some call ∧ FoundBy env call x) ∧
    ∀ i call, (e.streams i).batch ≠ some (x.batch, call)
  kept : ∀ b < e.launches.length, (∃ x ∈ e.collections, x.batch = b) ∨
    ∃ i call, (e.streams i).batch = some (b, call)

lemma invariant_initial (streamIdx : Fin n) (pools : Fin n → DevicePool) :
    Invariant env (initial streamIdx pools) where
  started := fun _ _ _ h => absurd h (by simp [initial])
  alone := fun _ _ _ _ _ h => absurd h (by simp [initial])
  once := List.nodup_nil
  past := fun _ hmem => absurd hmem List.not_mem_nil
  kept := fun _ h => absurd h (Nat.not_lt_zero _)

lemma batch_setPool (e : KernelExecutor n) (i j : Fin n) (pool : DevicePool) :
    ((e.setPool i pool).streams j).batch = (e.streams j).batch := by
  rcases eq_or_ne j i with rfl | hne
  · rw [streams_setPool_self]
  · rw [streams_setPool_of_ne e pool hne]

lemma Invariant.setPool (h : Invariant env e) {i : Fin n} {action : DeviceAction} {batch : ℕ}
    {call : TickCall} {pool : DevicePool} (hbatch : (e.streams i).batch = some (batch, call))
    (hstep : call.klp.Step (envCfg env) (e.streams i).pool action pool) :
    Invariant env (e.setPool i pool) := by
  obtain ⟨hstarted, halone, honce, hpast, hkept⟩ := h
  refine ⟨fun j b call' hj => ?_, ?_, honce, ?_, ?_⟩
  · rw [batch_setPool] at hj
    obtain ⟨hget, hvalid, p₀, actions, hfresh, hrun⟩ := hstarted j b call' hj
    refine ⟨hget, hvalid, ?_⟩
    rcases eq_or_ne j i with rfl | hne
    · obtain ⟨-, rfl⟩ := Prod.mk.inj (Option.some.inj (hbatch.symm.trans hj))
      rw [streams_setPool_self]
      exact ⟨p₀, _, hfresh, hrun.snoc hstep⟩
    · rw [streams_setPool_of_ne e pool hne]
      exact ⟨p₀, actions, hfresh, hrun⟩
  · simpa only [batch_setPool] using halone
  · intro x hx
    refine ⟨(hpast x hx).1, fun j call' => ?_⟩
    rw [batch_setPool]
    exact (hpast x hx).2 j call'
  · intro b hb
    simp only [batch_setPool]
    exact hkept b hb

/-- A batch whose threads have finished has found what `searchSync` finds. -/
lemma Invariant.foundBy (h : Invariant env e) (hfinished : e.current.Finished (envCfg env))
    {b : ℕ} {call : TickCall} (hbatch : e.current.batch = some (b, call)) (currentJobId : String) :
    FoundBy env call
      { batch := b, currentJobId := currentJobId
        solutions := e.current.collect currentJobId } := by
  obtain ⟨-, hvalid, p₀, actions, hfresh, hrun⟩ := h.started e.streamIdx b call hbatch
  have hdone := hfinished b call hbatch
  have hcollect : e.current.collect currentJobId =
      (SearchCall.results currentJobId [] e.current.pool).1 := by
    rw [SearchCall.results, readSolutions_eq rfl]
    rfl
  refine ⟨(SearchCall.results currentJobId [] e.current.pool).2, ?_⟩
  rw [hcollect]
  exact call.finds hvalid hfresh hrun hdone currentJobId

lemma batch_relaunch (cfg : EnvConfig) (e : KernelExecutor n) (call : TickCall) (i : Fin n) :
    ((e.relaunch cfg call).streams i).batch =
      if i = e.streamIdx then some (e.launches.length, call) else (e.streams i).batch := by
  rcases eq_or_ne i e.streamIdx with rfl | hne
  · rw [if_pos rfl, streams_relaunch_self]
    rfl
  · rw [if_neg hne, streams_relaunch_of_ne cfg e call hne]

lemma mem_collection (currentJobId : String) {x : Collection} :
    x ∈ (e.collection currentJobId).toList ↔ ∃ b call, e.current.batch = some (b, call) ∧
      x = { batch := b, currentJobId := currentJobId
            solutions := e.current.collect currentJobId } := by
  rw [Option.mem_toList, collection, Option.map_eq_some_iff]
  constructor
  · rintro ⟨⟨b, call⟩, hbatch, rfl⟩
    exact ⟨b, call, hbatch, rfl⟩
  · rintro ⟨b, call, hbatch, rfl⟩
    exact ⟨⟨b, call⟩, hbatch, rfl⟩

/-- A tick on a stream that is free collects the batch that was there. -/
lemma Invariant.relaunch (h : Invariant env e) {call : TickCall} (hvalid : call.Valid)
    (hfinished : e.current.Finished (envCfg env)) :
    Invariant env (e.relaunch (envCfg env) call) := by
  have hlt : ∀ i b call', (e.streams i).batch = some (b, call') → b < e.launches.length :=
    fun i b call' hbatch => (List.getElem?_eq_some_iff.mp (h.started i b call' hbatch).1).1
  have hlaunched : ∀ (b : ℕ) call', e.launches[b]? = some call' →
      (e.launches ++ [call])[b]? = some call' := fun b call' hget =>
    (List.getElem?_append_left (List.getElem?_eq_some_iff.mp hget).1).trans hget
  constructor
  case started =>
    intro i b call' hbatch
    rw [batch_relaunch] at hbatch
    split at hbatch
    · next heq =>
      subst heq
      obtain ⟨rfl, rfl⟩ := Prod.mk.inj (Option.some.inj hbatch)
      refine ⟨List.getElem?_concat_length, hvalid, _, [], ?_, .refl _⟩
      rw [streams_relaunch_self]
      exact ⟨rfl, fun _ => rfl⟩
    · next hne =>
      obtain ⟨hget, hvalid', hrun⟩ := h.started i b call' hbatch
      refine ⟨hlaunched b call' hget, hvalid', ?_⟩
      rwa [streams_relaunch_of_ne _ e call hne]
  case alone =>
    -- the number of the new batch is greater than those on the other streams
    intro i j b call₁ call₂ hi hj
    rw [batch_relaunch] at hi hj
    split at hi
    · next heq =>
      split at hj
      · next heq' => rw [heq, heq']
      · have hb : e.launches.length = b := congrArg Prod.fst (Option.some.inj hi)
        exact absurd (hlt j b call₂ hj) (not_lt.mpr hb.le)
    · split at hj
      · have hb : e.launches.length = b := congrArg Prod.fst (Option.some.inj hj)
        exact absurd (hlt i b call₁ hi) (not_lt.mpr hb.le)
      · exact h.alone i j b call₁ call₂ hi hj
  case once =>
    show ((e.collections ++ (e.collection call.currentJobId).toList).map Collection.batch).Nodup
    rw [List.map_append]
    cases hbatch : e.current.batch with
    | none => simpa [collection, hbatch] using h.once
    | some batch =>
      refine List.nodup_append'.mpr ⟨h.once, by simp [collection, hbatch], fun b hold hnew => ?_⟩
      obtain ⟨x, hx, rfl⟩ := List.mem_map.mp hold
      obtain ⟨y, hy, heq⟩ := List.mem_map.mp hnew
      obtain ⟨b, call', hbatch', rfl⟩ := (mem_collection _).mp hy
      exact (h.past x hx).2 e.streamIdx call' (heq ▸ hbatch')
  case past =>
    intro x hx
    rcases List.mem_append.mp hx with hx | hx
    · obtain ⟨⟨call', hget, hfound⟩, hgone⟩ := h.past x hx
      refine ⟨⟨call', hlaunched _ _ hget, hfound⟩, fun i call₁ => ?_⟩
      rw [batch_relaunch]
      split
      · intro heq
        have hb : e.launches.length = x.batch := congrArg Prod.fst (Option.some.inj heq)
        exact absurd (List.getElem?_eq_some_iff.mp hget).1 (not_lt.mpr hb.le)
      · exact hgone i call₁
    · obtain ⟨b, call', hbatch, rfl⟩ := (mem_collection _).mp hx
      refine ⟨⟨call', hlaunched _ _ (h.started e.streamIdx b call' hbatch).1,
        h.foundBy hfinished hbatch _⟩, fun i call₁ => ?_⟩
      rw [batch_relaunch]
      split
      · intro heq
        have hb : e.launches.length = b := congrArg Prod.fst (Option.some.inj heq)
        exact absurd (hlt e.streamIdx b call' hbatch) (not_lt.mpr hb.le)
      · next hne => exact fun heq => hne (h.alone i e.streamIdx b call₁ call' heq hbatch)
  case kept =>
    -- only the batch that is collected now leaves its stream
    intro b hb
    have hb' : b < e.launches.length ∨ b = e.launches.length := by
      have hle : b < e.launches.length + 1 := by simpa [KernelExecutor.relaunch] using hb
      omega
    rcases hb' with hb' | rfl
    · rcases h.kept b hb' with ⟨x, hx, rfl⟩ | ⟨i, call', hbatch⟩
      · exact Or.inl ⟨x, List.mem_append_left _ hx, rfl⟩
      · rcases eq_or_ne i e.streamIdx with rfl | hne
        · have hcollected := List.mem_append_right e.collections
            ((mem_collection call.currentJobId).mpr ⟨b, call', hbatch, rfl⟩)
          exact Or.inl ⟨_, hcollected, rfl⟩
        · exact Or.inr ⟨i, call', by rw [batch_relaunch, if_neg hne, hbatch]⟩
    · exact Or.inr ⟨e.streamIdx, call, by rw [batch_relaunch, if_pos rfl]⟩

lemma Invariant.step {event : KernelEvent n} (h : Invariant env e) (hvalid : event.Valid)
    (hstep : e.Step (envCfg env) event e') : Invariant env e' := by
  cases hstep with
  | thread hbatch hthread => exact h.setPool hbatch hthread
  | @tick _ seen finished hfinished hrun =>
    cases finished with
    | false =>
      obtain ⟨rfl, -⟩ := Prod.mk.inj (Prod.mk.inj hrun).2
      exact ⟨h.started, h.alone, h.once, h.past, h.kept⟩
    | true =>
      obtain ⟨rfl, -⟩ := Prod.mk.inj (Prod.mk.inj hrun).2
      obtain ⟨hstarted, halone, honce, hpast, hkept⟩ := h.relaunch hvalid (hfinished.mp rfl)
      exact ⟨hstarted, halone, honce, hpast, hkept⟩

end Collected

/-! ## A first batch -/

/-- A tick on a stream that is free can always be made. -/
lemma exists_tick (call : TickCall) (totalHashes : BitVec 64) (h : e.current.Finished cfg) :
    ∃ seen : Seen, seen.call = call ∧ Step cfg e (.tick seen) (e.relaunch cfg call).advanceStream :=
  ⟨{ call := call, totalHashes := totalHashes
     solutions := (e.runAsyncTick cfg call true totalHashes).1
     newTotalHashes := (e.runAsyncTick cfg call true totalHashes).2.2 },
    rfl, .tick (iff_of_true rfl h) rfl⟩

/-- The threads of one stream, while nothing else happens. -/
lemma run_setPool {i : Fin n} {batch : ℕ} {call : TickCall} {p : DevicePool}
    {actions : List DeviceAction} (hbatch : (e.streams i).batch = some (batch, call))
    (hrun : Run (call.klp.Step cfg) (e.streams i).pool actions p) :
    Run (fun e event e' => event.Valid ∧ Step cfg e event e') e
      (actions.map (KernelEvent.thread i)) (e.setPool i p) := by
  generalize hpool : (e.streams i).pool = p₀ at hrun
  induction hrun with
  | refl =>
    subst hpool
    rw [setPool, Function.update_eq_self]
    exact .refl _
  | @snoc p p' actions action _ hstep ih =>
    have hself := streams_setPool_self e i p
    have hnext : Step cfg (e.setPool i p) (.thread i action) ((e.setPool i p).setPool i p') := by
      refine .thread (by rw [hself, hbatch]) ?_
      rwa [hself]
    have hupdate : (e.setPool i p).setPool i p' = e.setPool i p' := by
      rw [setPool, hself]
      exact congrArg (fun streams => { e with streams := streams }) (Function.update_idem ..)
    rw [List.map_append, List.map_singleton]
    exact ih.snoc ⟨trivial, hupdate ▸ hnext⟩

/-- 1500 nonces over a DAG of three pages. -/
def firstCall : TickCall :=
  { newWork := { dDag := some 256, dagSize := 384, headerHash := countingHash 1,
                 seedHash := countingHash 33, targetBE := countingHash 128, startNonce := 7,
                 count := 1500, jobId := "1", epoch := 0 }
    currentJobId := "1"
    dag := threePages
    tex1Dfetch := fun _ => ⟨0, 0⟩ }

lemma valid_firstCall : firstCall.Valid := ⟨fun _ => validSize_threePages, by decide⟩

/-- One stream, whose memory no one has written. -/
def oneStream : KernelExecutor 1 :=
  initial (Fin.last 0) fun _ =>
    { counter := 0, slots := fun _ => ⟨0, Vector.replicate 32 0, Vector.replicate 32 0⟩
      progress := fun _ => .working [] }

/-- A batch is launched, its threads finish, and the next tick collects it. -/
lemma exists_firstRun (cfg : EnvConfig) : ∃ events e,
    Run (fun e event e' => event.Valid ∧ Step cfg e event e') oneStream events e ∧
      e.collections ≠ [] := by
  have hfree : oneStream.current.Finished cfg :=
    fun _ _ h => absurd h (by simp [oneStream, initial, current])
  obtain ⟨seen, hcall, hlaunch⟩ := exists_tick firstCall 0 hfree
  let e₁ := (oneStream.relaunch cfg firstCall).advanceStream
  have hbatch : (e₁.streams (Fin.last 0)).batch = some (0, firstCall) := by
    show ((oneStream.relaunch cfg firstCall).streams oneStream.streamIdx).batch = _
    rw [batch_relaunch, if_pos rfl]
    rfl
  obtain ⟨actions, p, hthreads, hdone⟩ := firstCall.exists_done cfg (e₁.streams (Fin.last 0)).pool
  let e₂ := e₁.setPool (Fin.last 0) p
  have hcurrent : e₂.current = { batch := some (0, firstCall), pool := p } := by
    rw [current, Subsingleton.elim e₂.streamIdx (Fin.last 0), streams_setPool_self, hbatch]
  have hfinished : e₂.current.Finished cfg := by
    rw [hcurrent]
    rintro batch call hsome
    obtain ⟨-, rfl⟩ := Prod.mk.inj (Option.some.inj hsome)
    exact hdone
  obtain ⟨seen', hcall', hcollect⟩ := exists_tick firstCall 0 hfinished
  have hvalid : ∀ seen : Seen, seen.call = firstCall → (KernelEvent.tick (n := 1) seen).Valid := by
    intro seen hcall
    show seen.call.Valid
    rw [hcall]
    exact valid_firstCall
  have hstart : Run (fun e event e' => event.Valid ∧ Step cfg e event e') oneStream
      ([] ++ [.tick seen]) e₁ := .snoc (.refl _) ⟨hvalid seen hcall, hlaunch⟩
  have hrun := hstart.append (run_setPool hbatch hthreads)
  refine ⟨_, _, hrun.snoc ⟨hvalid seen' hcall', hcollect⟩, ?_⟩
  show e₂.collections ++ (e₂.collection firstCall.currentJobId).toList ≠ []
  rw [collection, hcurrent]
  simp

/-- What is seen of a first batch. -/
theorem run_seen_first : ∃ events e,
    Run (fun e event e' => event.Valid ∧ Step (envCfg SearchCall.textureEnvironment) e event e')
      oneStream events e ∧ e.collections ≠ [] ∧
    (∃ c, e.Future (envCfg SearchCall.textureEnvironment) c) ∧
      ∀ c, e.Future (envCfg SearchCall.textureEnvironment) c →
        ∃ a, Run (Accepting (envCfg SearchCall.textureEnvironment))
          (showing oneStream.streamIdx fun i => (oneStream.streams i).pool)
            (events.flatMap KernelEvent.seen) a ∧ e.Matches c a := by
  obtain ⟨events, e, hrun, hcollections⟩ := exists_firstRun (envCfg SearchCall.textureEnvironment)
  exact ⟨events, e, hrun, hcollections, run_seen hrun⟩

end KernelExecutor

end OhMyMiner.Pipeline
