/-
# The solutions of a launch

A thread of `ethash_search_kernel` (`src/cuda/kernels/search_kernel.cu`) that accepts its nonce
takes a slot of the solution array with `atomicAdd(solutionCount, 1)` and fills it field by field,
if the array has that slot.  `DeviceManager::Impl::searchSync` (`src/cuda/device_manager.cu`) reads
the counter after the launch, bounds it by the length of the array, and copies as many records.

The threads are those of any launch, each with its nonce; their steps interleave in any way.
-/
import OhMyMiner.Lib.Reservation
import OhMyMiner.Search.Correct

namespace OhMyMiner.Search

open Lib Reservation

/-! ## The code -/

/-- An assignment to `solutions[idx]`. -/
inductive FieldWrite where
  | nonce (value : BitVec 64)
  | mixHash (i : Fin 8) (word : BitVec 32)
  | result (i : Fin 32) (byte : Byte)

/-- The assignment. -/
def FieldWrite.apply (solution : DeviceSolution) : FieldWrite → DeviceSolution
  | .nonce value => { solution with nonce := value }
  | .mixHash i word =>
    { solution with
      mixHash := toBytes 4 hash32_words (setCell (paramWords solution.mixHash) i word) }
  | .result i byte => { solution with result := setCell solution.result i byte }

/-- The offset in `DeviceSolution` of the field that is assigned to. -/
def FieldWrite.offset : FieldWrite → ℕ
  | .nonce _ => 0
  | .mixHash i _ => 8 + 4 * i.1
  | .result i _ => 40 + i.1

/-- "Populate complete Solution structure": the assignments of a thread. -/
def fieldWrites (solution : DeviceSolution) : List FieldWrite :=
  .nonce solution.nonce ::
    ((List.finRange 8).map fun i => .mixHash i ((paramWords solution.mixHash).get i)) ++
    (List.finRange 32).map fun i => .result i (solution.result.get i)

/-- What the host makes of a record. -/
def hostSolution (currentJobId : String) (solution : DeviceSolution) : Solution :=
  { nonce := solution.nonce, jobId := currentJobId, mixHash := solution.mixHash,
    result := solution.result }

/-- `searchSync`, after the launch: the vector `solutions` and the number that is returned. -/
def readSolutions {ι : Type*} (currentJobId : String) (maxSolutions : BitVec 32)
    (s : Buffer 32 ι DeviceSolution FieldWrite) (solutions : List Solution) :
    List Solution × BitVec 32 :=
  let numSolutions := s.counter
  if 0 < numSolutions then
    let numSolutions := if maxSolutions < numSolutions then maxSolutions else numSolutions
    let tmp := (List.range numSolutions.toNat).map s.slots
    (tmp.map (hostSolution currentJobId), numSolutions)
  else (solutions, numSolutions)

/-! ## The records -/

section Layout

lemma foldl_mixHash (l : List (Fin 8)) (f : Fin 8 → BitVec 32) (solution : DeviceSolution) :
    (l.map fun i => FieldWrite.mixHash i (f i)).foldl FieldWrite.apply solution =
      { solution with
        mixHash := toBytes 4 hash32_words
          (l.foldl (fun words i => setCell words i (f i)) (paramWords solution.mixHash)) } := by
  induction l generalizing solution with
  | nil => rw [List.foldl_nil, toBytes_paramWords]; rfl
  | cons i l ih =>
    rw [List.map_cons, List.foldl_cons, ih, List.foldl_cons, FieldWrite.apply, paramWords_toBytes]

lemma foldl_result (l : List (Fin 32)) (f : Fin 32 → Byte) (solution : DeviceSolution) :
    (l.map fun i => FieldWrite.result i (f i)).foldl FieldWrite.apply solution =
      { solution with
        result := l.foldl (fun bytes i => setCell bytes i (f i)) solution.result } := by
  induction l generalizing solution with
  | nil => rfl
  | cons i l ih => rw [List.map_cons, List.foldl_cons, ih, List.foldl_cons, FieldWrite.apply]

/-- The assignments make the record, whatever was there. -/
lemma foldl_fieldWrites (old solution : DeviceSolution) :
    (fieldWrites solution).foldl FieldWrite.apply old = solution := by
  rw [fieldWrites, List.foldl_append, List.foldl_cons, foldl_mixHash, foldl_result,
    foldl_setCell_finRange, foldl_setCell_finRange, toBytes_paramWords]
  rfl

/-- No field is assigned to twice. -/
lemma nodup_offset_fieldWrites (solution : DeviceSolution) :
    ((fieldWrites solution).map FieldWrite.offset).Nodup := by
  have hoffsets : (fieldWrites solution).map FieldWrite.offset =
      0 :: (List.finRange 8).map (fun i => 8 + 4 * i.1) ++
        (List.finRange 32).map fun i => 40 + i.1 := by
    rw [fieldWrites, List.map_append, List.map_cons, List.map_map, List.map_map]
    rfl
  rw [hoffsets]
  decide

/-- How a solution is stored. -/
def solutionLayout : Layout DeviceSolution FieldWrite ℕ :=
  { write := FieldWrite.apply
    writes := fieldWrites
    cell := FieldWrite.offset
    complete := foldl_fieldWrites
    nodup := nodup_offset_fieldWrites }

end Layout

/-! ## The launch -/

section Launch

variable {dagSize : ℕ} {ι : Type*} (dag : Vector Byte dagSize)
  (headerHash seedHash targetBE : Hash32) (nonce : ι → BitVec 64)

/-- What a thread has to store: nothing if it does not accept its nonce. -/
def threadRecord (t : ι) : Option DeviceSolution :=
  (searchThread dag headerHash seedHash targetBE (nonce t)).join

/-- The threads that pass the test. -/
def passingThreads (threads : Finset ι) : Finset ι :=
  passing (threadRecord dag headerHash seedHash targetBE nonce) threads

/-- A step of a thread of the kernel. -/
def KernelStep [DecidableEq ι] (threads : Finset ι) (maxSolutions : BitVec 32) :
    Buffer 32 ι DeviceSolution FieldWrite → Event ι FieldWrite →
      Buffer 32 ι DeviceSolution FieldWrite → Prop :=
  Step solutionLayout (threadRecord dag headerHash seedHash targetBE nonce) threads
    maxSolutions.toNat

/-- The kernel has finished. -/
def KernelDone (threads : Finset ι) (s : Buffer 32 ι DeviceSolution FieldWrite) : Prop :=
  Done (threadRecord dag headerHash seedHash targetBE nonce) threads s

variable {dag headerHash seedHash targetBE nonce}

/-- A thread passes if its hash, as a number, is at most the target. -/
lemma threadRecord_eq {t : ι} {compressed : Vector (BitVec 32) 8}
    (h : compressedMix dag headerHash (nonce t) = some compressed) :
    threadRecord dag headerHash seedHash targetBE nonce t =
      if beValue (resultHash compressed seedHash).toList ≤ beValue targetBE.toList then
        some ⟨nonce t, toBytes 4 hash32_words compressed, resultHash compressed seedHash⟩
      else none := by
  rw [threadRecord, searchThread, h, ← storeSolution_eq]
  rfl

end Launch

/-! ## What the host reads -/

section Read

variable {ι : Type*} {s : Buffer 32 ι DeviceSolution FieldWrite} {currentJobId : String}
  {maxSolutions : BitVec 32} {k : ℕ}

/-- The first records, as many as there are. -/
lemma readSolutions_eq (hcounter : s.counter.toNat = k) :
    readSolutions currentJobId maxSolutions s [] =
      ((List.range (min k maxSolutions.toNat)).map fun i => hostSolution currentJobId (s.slots i),
        BitVec.ofNat 32 (min k maxSolutions.toNat)) := by
  have hnum : ∀ n : BitVec 32, n.toNat = min k maxSolutions.toNat →
      (((List.range n.toNat).map s.slots).map (hostSolution currentJobId), n) =
        ((List.range (min k maxSolutions.toNat)).map fun i => hostSolution currentJobId (s.slots i),
          BitVec.ofNat 32 (min k maxSolutions.toNat)) := by
    intro n hn
    rw [List.map_map, ← hn, BitVec.ofNat_toNat, BitVec.setWidth_eq]
    rfl
  rw [readSolutions]
  dsimp only
  split_ifs with hpos hlt
  · refine hnum maxSolutions ?_
    have hlt' : maxSolutions.toNat < s.counter.toNat := hlt
    omega
  · refine hnum s.counter ?_
    have hle : ¬ maxSolutions.toNat < s.counter.toNat := hlt
    omega
  · have hzero : ¬ 0 < s.counter.toNat := hpos
    have hk : min k maxSolutions.toNat = 0 := by omega
    have hcounter' : s.counter = 0 := BitVec.eq_of_toNat_eq (by simpa using hzero)
    rw [hk, hcounter']
    rfl

end Read

/-! ## Nothing is lost -/

section Collect

variable {dagSize : ℕ} {ι : Type*} {dag : Vector Byte dagSize}
  {headerHash seedHash targetBE : Hash32} {nonce : ι → BitVec 64} {threads : Finset ι}
  {maxSolutions : BitVec 32} {s₀ s : Buffer 32 ι DeviceSolution FieldWrite}
  {events : List (Event ι FieldWrite)}

/-- The list has the records of different passing threads, as many as fit, and of all of them if
all fit. -/
structure Collects (dag : Vector Byte dagSize) (headerHash seedHash targetBE : Hash32)
    (nonce : ι → BitVec 64) (threads : Finset ι) (maxSolutions : ℕ) (currentJobId : String)
    (solutions : List Solution) : Prop where
  length : solutions.length =
    min (passingThreads dag headerHash seedHash targetBE nonce threads).card maxSolutions
  records : ∃ found : List ι, found.Nodup ∧
    (∀ t ∈ found, t ∈ passingThreads dag headerHash seedHash targetBE nonce threads) ∧
    ((passingThreads dag headerHash seedHash targetBE nonce threads).card ≤ maxSolutions →
      ∀ t ∈ passingThreads dag headerHash seedHash targetBE nonce threads, t ∈ found) ∧
    solutions.map some = found.map fun t =>
      (threadRecord dag headerHash seedHash targetBE nonce t).map (hostSolution currentJobId)

variable [DecidableEq ι]

lemma collects_readSolutions (currentJobId : String) (hfresh : Fresh s₀)
    (hcard : (passingThreads dag headerHash seedHash targetBE nonce threads).card < 2 ^ 32)
    (hrun : Run (KernelStep dag headerHash seedHash targetBE nonce threads maxSolutions) s₀ events
      s)
    (hdone : KernelDone dag headerHash seedHash targetBE nonce threads s) :
    Collects dag headerHash seedHash targetBE nonce threads maxSolutions.toNat currentJobId
      (readSolutions currentJobId maxSolutions s []).1 := by
  obtain ⟨hnodup, hmem, hlength, hcounter, hslots⟩ := done_of_run hfresh hcard hrun hdone
  rw [readSolutions_eq hcounter]
  refine ⟨by rw [List.length_map, List.length_range]; rfl,
    (reserved events).take maxSolutions.toNat, hnodup.take,
    fun t ht => (hmem t).mp (List.mem_of_mem_take ht), fun hfits t ht => ?_, ?_⟩
  · rw [List.take_of_length_le (hlength.trans_le hfits)]
    exact (hmem t).mpr ht
  · refine List.ext_getElem ?_ fun i hi hi' => ?_
    · rw [List.length_map, List.length_map, List.length_range, List.length_map, List.length_take,
        hlength, Nat.min_comm]
    · rw [List.length_map, List.length_take] at hi'
      have hrecord := hslots i _ (by omega)
        (List.getElem?_eq_getElem (l := reserved events) (i := i) (by omega))
      rw [List.getElem_map, List.getElem_map, List.getElem_range, List.getElem_map,
        List.getElem_take]
      exact (congrArg (Option.map (hostSolution currentJobId)) hrecord).symm

/-- Every launch comes to an end, after at most 42 steps of each thread. -/
theorem launch_ends (hfresh : Fresh s₀)
    (hrun : Run (KernelStep dag headerHash seedHash targetBE nonce threads maxSolutions) s₀ events
      s) :
    events.length ≤ 42 * threads.card ∧
      ∃ more s', Run (KernelStep dag headerHash seedHash targetBE nonce threads maxSolutions) s₀
        (events ++ more) s' ∧ KernelDone dag headerHash seedHash targetBE nonce threads s' := by
  refine ⟨?_, exists_done hrun⟩
  have hthread : ∀ t ∈ threads, remaining solutionLayout
      (threadRecord dag headerHash seedHash targetBE nonce) s₀ t ≤ 42 := by
    intro t _
    rw [remaining, hfresh.ready t]
    cases threadRecord dag headerHash seedHash targetBE nonce t with
    | none => exact Nat.zero_le 42
    | some solution =>
      show (fieldWrites solution).length + 1 ≤ 42
      simp [fieldWrites]
  have hlength := length_le_of_run hrun
  calc events.length
      ≤ ∑ t ∈ threads, remaining solutionLayout
          (threadRecord dag headerHash seedHash targetBE nonce) s₀ t := by omega
    _ ≤ threads.card • 42 := Finset.sum_le_card_nsmul threads _ 42 hthread
    _ = 42 * threads.card := by rw [smul_eq_mul, Nat.mul_comm]

/-- **No solution is lost and none is found twice.**  Whatever the order of the steps, after the
launch the host has the complete records of different passing threads, as many as the array holds
and all of them if it holds them; every field of a slot is written at most once, every slot by one
thread only, and none beyond the array.  A thread passes if its hash is at most the target. -/
theorem searchSync_collects (currentJobId : String) (hfresh : Fresh s₀)
    (hcard : (passingThreads dag headerHash seedHash targetBE nonce threads).card < 2 ^ 32)
    (hrun : Run (KernelStep dag headerHash seedHash targetBE nonce threads maxSolutions) s₀ events
      s)
    (hdone : KernelDone dag headerHash seedHash targetBE nonce threads s) :
    Collects dag headerHash seedHash targetBE nonce threads maxSolutions.toNat currentJobId
        (readSolutions currentJobId maxSolutions s []).1 ∧
      (∀ slot, ((writtenAt events slot).map FieldWrite.offset).Nodup) ∧
      (∀ t slot part, .write t slot part ∈ events → slot < maxSolutions.toNat) ∧
      (∀ t t' slot part part', .write t slot part ∈ events → .write t' slot part' ∈ events →
        t = t') ∧
      ∀ t compressed, compressedMix dag headerHash (nonce t) = some compressed →
        threadRecord dag headerHash seedHash targetBE nonce t =
          if beValue (resultHash compressed seedHash).toList ≤ beValue targetBE.toList then
            some ⟨nonce t, toBytes 4 hash32_words compressed, resultHash compressed seedHash⟩
          else none := by
  obtain ⟨honce, hrange, hwriter⟩ := writes_of_run hfresh hcard hrun
  exact ⟨collects_readSolutions currentJobId hfresh hcard hrun hdone, honce, hrange, hwriter,
    fun t compressed h => threadRecord_eq h⟩

end Collect

/-- The array before a launch. -/
def unwritten : Buffer 32 ℕ DeviceSolution FieldWrite :=
  { counter := 0
    slots := fun _ => ⟨0, Vector.replicate 32 0, Vector.replicate 32 0⟩
    phase := fun _ => .ready }

lemma fresh_unwritten : Fresh unwritten := ⟨rfl, fun _ => rfl⟩

/-- With the largest target every thread passes. -/
lemma passingThreads_largest (threads : Finset ℕ) :
    passingThreads zeroDag (Vector.replicate 32 0) (Vector.replicate 32 0)
      (Vector.replicate 32 0xFF) (fun _ => 0) threads = threads := by
  refine Finset.filter_true_of_mem fun t _ => ?_
  rw [threadRecord, searchThread_largest zeroDag validSize_zeroDag]
  rfl

/-- Two threads, one slot, and a target that every hash meets. -/
theorem searchSync_collects_two : ∃ events s,
    Run (KernelStep zeroDag (Vector.replicate 32 0) (Vector.replicate 32 0)
      (Vector.replicate 32 0xFF) (fun _ => 0) {0, 1} 1) unwritten events s ∧
      (readSolutions "1" 1 s []).1.length = 1 := by
  have hstart : Run (KernelStep zeroDag (Vector.replicate 32 0) (Vector.replicate 32 0)
      (Vector.replicate 32 0xFF) (fun _ => 0) {0, 1} 1) unwritten [] unwritten := .refl unwritten
  obtain ⟨-, events, s, hrun, hdone⟩ := launch_ends fresh_unwritten hstart
  refine ⟨events, s, hrun, ?_⟩
  have hpassing := passingThreads_largest {0, 1}
  have hcollects :=
    (searchSync_collects "1" fresh_unwritten (by rw [hpassing]; decide) hrun hdone).1
  rw [hcollects.length, hpassing]
  rfl

end OhMyMiner.Search
