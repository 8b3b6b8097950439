/-
# What the DAG kernel covers

The loop of `generateDagGpu` (`src/cuda/dag_kernel.cu`) launches one grid of blocks for each batch,
and `generate_dag_item_kernel` stops the threads behind the batch.  The threads that go on, in the
order of their batches, blocks and numbers, are the items in theirs.
-/
import OhMyMiner.Dag.Kernel
import OhMyMiner.Lib.Grid

namespace OhMyMiner.Dag

open Lib

/-! ## The code, thread by thread -/

/-- A batch of the loop. -/
structure Batch where
  start : BitVec 32
  count : BitVec 32

/-- A thread, with the arguments of its launch. -/
structure Thread where
  startIndex : BitVec 32
  numItems : BitVec 32
  blockIdx : ℕ
  threadIdx : ℕ

/-- The batches of the loop; `none` if it has not ended after `fuel` batches. -/
def batches (numDagItems : BitVec 32) : ℕ → BitVec 32 → Option (List Batch)
  | 0, _ => none
  | fuel + 1, start =>
    if start < numDagItems then
      (batches numDagItems fuel (start + batchSize)).map
        ({ start := start, count := batchCount numDagItems start } :: ·)
    else some []

/-- The threads of the launch for a batch. -/
def Batch.threads (batch : Batch) : List Thread :=
  (List.range (blocks batch.count)).flatMap fun blockIdx =>
    (List.range threadsPerBlock).map fun threadIdx =>
      { startIndex := batch.start, numItems := batch.count, blockIdx := blockIdx,
        threadIdx := threadIdx }

namespace Thread

/-- `idx`, a 32-bit number. -/
def idx (thread : Thread) : BitVec 32 :=
  BitVec.ofNat 32 thread.blockIdx * BitVec.ofNat 32 threadsPerBlock +
    BitVec.ofNat 32 thread.threadIdx

/-- The indices of the words that the kernel writes. -/
def writes (thread : Thread) : List ℕ :=
  if thread.idx ≥ thread.numItems then []
  else
    let dagIndex := thread.startIndex.toNat + thread.idx.toNat
    (List.range 8).map fun i => dagIndex * 8 + i

end Thread

/-- All threads of all batches write each item: exactly one thread writes words of it, and that
thread writes all eight of them.  Each word is written once, and no word behind the items is. -/
structure Covers (launches : List Batch) (numItems : ℕ) : Prop where
  item : ∀ item < numItems, ∃ thread ∈ launches.flatMap Batch.threads,
    (∀ i < 8, item * 8 + i ∈ thread.writes) ∧
      ∀ other ∈ launches.flatMap Batch.threads, ∀ i < 8, item * 8 + i ∈ other.writes →
        other = thread
  once : ((launches.flatMap Batch.threads).flatMap Thread.writes).Nodup
  inside : ∀ thread ∈ launches.flatMap Batch.threads, ∀ w ∈ thread.writes, w < numItems * 8

/-! ## The threads of a batch -/

/-- The words of an item. -/
def itemWords (item : ℕ) : List ℕ := (List.range 8).map fun i => item * 8 + i

lemma mem_itemWords {item w : ℕ} : w ∈ itemWords item ↔ w / 8 = item := by
  rw [itemWords, List.mem_map]
  constructor
  · rintro ⟨i, hi, rfl⟩
    have hlt := List.mem_range.mp hi
    omega
  · rintro rfl
    exact ⟨w % 8, List.mem_range.mpr (Nat.mod_lt _ (by norm_num)), by omega⟩

/-- The words of a row of items. -/
lemma flatMap_itemWords (start count : ℕ) :
    (List.range count).flatMap (fun k => itemWords (start + k)) =
      (List.range (count * 8)).map (start * 8 + ·) := by
  rw [← flatMap_range_map]
  refine List.flatMap_congr fun k _ => List.map_congr_left fun i _ => ?_
  rw [Nat.add_mul, Nat.add_assoc]

/-- What thread `k` of a batch of `count` items writes. -/
def guarded (start count k : ℕ) : List ℕ := if k < count then itemWords (start + k) else []

lemma Thread.writes_eq (thread : Thread) :
    thread.writes =
      guarded thread.startIndex.toNat thread.numItems.toNat thread.idx.toNat := by
  rw [writes, guarded]
  by_cases h : thread.idx < thread.numItems
  · have hnat : thread.idx.toNat < thread.numItems.toNat := h
    rw [if_neg (BitVec.not_le.mpr h), if_pos hnat]
    rfl
  · have hnat : ¬ thread.idx.toNat < thread.numItems.toNat := h
    rw [if_pos (BitVec.not_lt.mp h), if_neg hnat]

/-- The threads behind the batch stop at the guard of the kernel. -/
lemma flatMap_guarded (start count rest : ℕ) :
    (List.range (count + rest)).flatMap (guarded start count) =
      (List.range (count * 8)).map (start * 8 + ·) := by
  have hactive : (List.range count).flatMap (guarded start count) =
      (List.range count).flatMap fun k => itemWords (start + k) :=
    List.flatMap_congr fun k hk => if_pos (List.mem_range.mp hk)
  have hidle : ((List.range rest).map (count + ·)).flatMap (guarded start count) = [] := by
    rw [List.flatMap_eq_nil_iff]
    intro k hk
    obtain ⟨j, -, rfl⟩ := List.mem_map.mp hk
    exact if_neg (by omega)
  rw [List.range_add, List.flatMap_append, hactive, hidle, List.append_nil, flatMap_itemWords]

lemma blocks_le {count : BitVec 32} (h : count ≤ batchSize) : blocks count ≤ 2 ^ 12 := by
  have hle : count.toNat ≤ 2 ^ 20 := h
  have h₂₅₆ : (256 : BitVec 32).toNat = 256 := rfl
  have hsum : (count + 256 - 1).toNat = count.toNat + 255 := by bv_omega
  rw [blocks, BitVec.toNat_udiv, hsum, h₂₅₆]
  omega

/-- In the grid of a batch the numbers of the threads do not wrap. -/
lemma toNat_idx {start count : BitVec 32} (h : count ≤ batchSize) {blockIdx threadIdx : ℕ}
    (hblock : blockIdx < blocks count) (hthread : threadIdx < threadsPerBlock) :
    (Thread.mk start count blockIdx threadIdx).idx.toNat =
      blockIdx * threadsPerBlock + threadIdx := by
  have hblocks := blocks_le h
  show (BitVec.ofNat 32 blockIdx * BitVec.ofNat 32 threadsPerBlock +
    BitVec.ofNat 32 threadIdx).toNat = _
  rw [threadsPerBlock] at hthread ⊢
  rw [BitVec.toNat_add, BitVec.toNat_mul, BitVec.toNat_ofNat, BitVec.toNat_ofNat,
    BitVec.toNat_ofNat]
  omega

/-- The threads of a batch are numbered one by one. -/
lemma map_idx_threads {batch : Batch} (h : batch.count ≤ batchSize) :
    batch.threads.map (fun thread => thread.idx.toNat) =
      List.range (blocks batch.count * threadsPerBlock) := by
  have hrange := flatMap_range_map (blocks batch.count) threadsPerBlock fun i => i
  rw [List.map_id'] at hrange
  rw [Batch.threads, List.map_flatMap, ← hrange]
  refine List.flatMap_congr fun blockIdx hblock => ?_
  rw [List.map_map]
  exact List.map_congr_left fun threadIdx hthread =>
    toNat_idx h (List.mem_range.mp hblock) (List.mem_range.mp hthread)

/-- **What the threads of a batch write**: the words of its items, each once. -/
lemma writes_threads {batch : Batch} (h : batch.count ≤ batchSize) :
    batch.threads.flatMap Thread.writes =
      (List.range (batch.count.toNat * 8)).map (batch.start.toNat * 8 + ·) := by
  have hwrites : ∀ thread ∈ batch.threads, thread.writes =
      guarded batch.start.toNat batch.count.toNat thread.idx.toNat := by
    intro thread hmem
    obtain ⟨blockIdx, -, hmem⟩ := List.mem_flatMap.mp hmem
    obtain ⟨threadIdx, -, rfl⟩ := List.mem_map.mp hmem
    exact Thread.writes_eq _
  obtain ⟨rest, hrest⟩ := Nat.exists_eq_add_of_le (le_blocks h)
  calc batch.threads.flatMap Thread.writes
      = (batch.threads.map fun thread => thread.idx.toNat).flatMap
          (guarded batch.start.toNat batch.count.toNat) := by
        rw [List.flatMap_congr hwrites, List.flatMap_map]
    _ = (List.range (batch.count.toNat * 8)).map (batch.start.toNat * 8 + ·) := by
        rw [map_idx_threads h, hrest, flatMap_guarded]

/-! ## The batches of the loop -/

/-- **The batches** end, and one after the other their threads write the words of all items. -/
lemma batches_eq {numDagItems : BitVec 32} (hnum : numDagItems.toNat ≤ 2 ^ 32 - 2 ^ 20) (fuel : ℕ)
    (start : BitVec 32) (hfuel : numDagItems.toNat ≤ start.toNat + 2 ^ 20 * fuel) :
    ∃ launches, batches numDagItems (fuel + 1) start = some launches ∧
      (launches.flatMap Batch.threads).flatMap Thread.writes =
        (List.range ((numDagItems.toNat - start.toNat) * 8)).map (start.toNat * 8 + ·) ∧
      ∀ (schedule : Schedule) (dag : Words), batchLoop schedule numDagItems (fuel + 1) start dag =
        some (launches.foldl (fun dag batch => launch schedule batch.start batch.count dag) dag)
    := by
  induction fuel generalizing start with
  | zero =>
    have hlt : ¬ start < numDagItems := fun h => by
      have : start.toNat < numDagItems.toNat := h
      omega
    have hzero : numDagItems.toNat - start.toNat = 0 := by omega
    refine ⟨[], by rw [batches, if_neg hlt], ?_, fun schedule dag => ?_⟩
    · rw [hzero]
      rfl
    · rw [batchLoop, if_neg hlt]
      rfl
  | succ fuel ih =>
    by_cases hlt : start < numDagItems
    · have hlt' : start.toNat < numDagItems.toNat := hlt
      have hcount := toNat_batchCount hlt
      -- the counter does not wrap around
      have hnext := toNat_add_batchSize hnum hlt
      obtain ⟨launches, hbatches, hwrites, hloop⟩ := ih (start + batchSize) (by omega)
      refine ⟨{ start := start, count := batchCount numDagItems start } :: launches, ?_, ?_, ?_⟩
      · rw [batches, if_pos hlt, hbatches]
        rfl
      · rw [List.flatMap_cons, List.flatMap_append, hwrites,
          writes_threads (batchCount_le numDagItems start), hnext]
        rcases Nat.le_total (start.toNat + 2 ^ 20) numDagItems.toNat with hfull | hlast
        · have hnext' : (start.toNat + 2 ^ 20) * 8 =
              start.toNat * 8 + (batchCount numDagItems start).toNat * 8 := by omega
          have hitems : (batchCount numDagItems start).toNat * 8 +
              (numDagItems.toNat - (start.toNat + 2 ^ 20)) * 8 =
                (numDagItems.toNat - start.toNat) * 8 := by omega
          rw [hnext', map_range_append, hitems]
        · -- the last batch
          have hzero : numDagItems.toNat - (start.toNat + 2 ^ 20) = 0 := by omega
          have hitems : (batchCount numDagItems start).toNat =
              numDagItems.toNat - start.toNat := by omega
          rw [hzero, hitems]
          exact List.append_nil _
      · intro schedule dag
        rw [batchLoop, if_pos hlt]
        exact hloop schedule _
    · have hzero : numDagItems.toNat - start.toNat = 0 := by
        have : ¬ start.toNat < numDagItems.toNat := hlt
        omega
      refine ⟨[], by rw [batches, if_neg hlt], ?_, fun schedule dag => ?_⟩
      · rw [hzero]
        rfl
      · rw [batchLoop, if_neg hlt]
        rfl

/-- **Coverage of the DAG.**  The loop over the batches ends after finitely many launches, whose
threads write every item, each by one thread, and nothing behind the items; and `generateDagGpu` is
those launches one after the other. -/
theorem generateDagGpu_covers (numDagItems : BitVec 32)
    (hnum : numDagItems.toNat ≤ 2 ^ 32 - 2 ^ 20) :
    ∃ launches, batches numDagItems (2 ^ 12 + 1) 0 = some launches ∧
      Covers launches numDagItems.toNat ∧
      ∀ (schedule : Schedule) (dag : Words), generateDagGpu schedule dag numDagItems =
        some (launches.foldl (fun dag batch => launch schedule batch.start batch.count dag) dag)
    := by
  obtain ⟨launches, hbatches, hwrites, hloop⟩ := batches_eq hnum (2 ^ 12) 0 (by simp; omega)
  have hzero : (0 : BitVec 32).toNat = 0 := rfl
  have hwords : (launches.flatMap Batch.threads).flatMap Thread.writes =
      List.range (numDagItems.toNat * 8) := by
    rw [hwrites, hzero, Nat.sub_zero, Nat.zero_mul]
    simp
  have hnodup : ((launches.flatMap Batch.threads).flatMap Thread.writes).Nodup := by
    rw [hwords]
    exact List.nodup_range
  refine ⟨launches, hbatches, ⟨?_, hnodup, ?_⟩, hloop⟩
  · intro item hitem
    obtain ⟨thread, hmem, hword⟩ : ∃ thread ∈ launches.flatMap Batch.threads,
        item * 8 ∈ thread.writes := by
      rw [← List.mem_flatMap, hwords, List.mem_range]
      omega
    -- a thread that writes the first word of an item writes all eight
    have hall : ∀ i < 8, item * 8 + i ∈ thread.writes := by
      rw [Thread.writes_eq, guarded] at hword ⊢
      split at hword
      · next hactive =>
        rw [if_pos hactive]
        intro i hi
        rw [mem_itemWords] at hword ⊢
        omega
      · exact absurd hword List.not_mem_nil
    refine ⟨thread, hmem, hall, fun other hother i hi hi' => ?_⟩
    -- two threads would write the same word twice
    by_contra hne
    have hsymm : Std.Symm (Function.onFun List.Disjoint Thread.writes) :=
      ⟨fun _ _ hdisjoint => hdisjoint.symm⟩
    have hapart := (List.nodup_flatMap.mp hnodup).2.forall hother hmem hne
    exact hapart hi' (hall i hi)
  · intro thread hmem w hw
    have hrange := List.mem_flatMap.mpr ⟨thread, hmem, hw⟩
    rw [hwords] at hrange
    exact List.mem_range.mp hrange

/-- The threads for one item more than a batch has. -/
theorem generateDagGpu_covers_two :
    ∃ launches, batches (batchSize + 1) (2 ^ 12 + 1) 0 = some launches ∧ launches.length = 2 ∧
      Covers launches (2 ^ 20 + 1) ∧
      ∀ (schedule : Schedule) (dag : Words), generateDagGpu schedule dag (batchSize + 1) =
        some (launches.foldl (fun dag batch => launch schedule batch.start batch.count dag) dag)
    := by
  obtain ⟨launches, hbatches, hcovers, hloop⟩ :=
    generateDagGpu_covers (batchSize + 1) (by decide)
  have htwo : batches (batchSize + 1) (2 ^ 12 + 1) 0 =
      some [⟨0, batchSize⟩, ⟨batchSize, 1⟩] := rfl
  obtain rfl := Option.some.inj (hbatches.symm.trans htwo)
  exact ⟨_, htwo, rfl, hcovers, hloop⟩

end OhMyMiner.Dag
