/-
# The DAG kernel and its batches

`generate_dag_item_kernel` and `generateDagGpu` (`src/cuda/dag_kernel.cu`).  A launch runs a grid
of threads, each of which writes the eight words of one item; the words may reach the memory in
any order.  The memory of a buffer is a function from word indices to words.

A launch can fail, and then some of its writes are missing.  `CUDA_CHECK` prints the error, and
the loop goes on.
-/
import OhMyMiner.Types

namespace OhMyMiner.Dag

open Lib

/-- The words of a buffer. -/
abbrev Words : Type := ℕ → BitVec 64

/-- `threadsPerBlock`. -/
def threadsPerBlock : ℕ := 256

/-- `batchSize`. -/
def batchSize : BitVec 32 := 1024 * 1024

/-- `(count + threadsPerBlock - 1) / threadsPerBlock`. -/
def blocks (count : BitVec 32) : ℕ := ((count + 256 - 1) / 256).toNat

/-- The writes of a launch: thread `idx` of the grid writes the words `0, …, 7` of its item. -/
def grid (count : BitVec 32) : List (ℕ × ℕ) :=
  List.range (blocks count * threadsPerBlock) ×ˢ List.range 8

/-- Write `i` of thread `idx` of `generate_dag_item_kernel`. -/
def writeWord (startIndex numItems : BitVec 32) (dag : Words) (thread : ℕ × ℕ) : Words :=
  if numItems.toNat ≤ thread.1 then dag
  else
    let dagIndex := startIndex.toNat + thread.1
    Function.update dag (dagIndex * 8 + thread.2) (BitVec.ofNat 64 (dagIndex * 8 + thread.2))

/-- What becomes of the launches: whether `cudaGetLastError` and `cudaDeviceSynchronize` return
`cudaSuccess`, and the writes that happen, in their order.  A launch that fails may have done some
of its writes, or none. -/
structure Schedule where
  succeeds : BitVec 32 → BitVec 32 → Bool
  order : BitVec 32 → BitVec 32 → List (ℕ × ℕ)
  subperm : ∀ start count, (order start count).Subperm (grid count)
  perm : ∀ start count, succeeds start count = true → (order start count).Perm (grid count)

/-- All launches succeed. -/
def Schedule.Succeeds (schedule : Schedule) : Prop :=
  ∀ start count, schedule.succeeds start count = true

/-- A launch of `generate_dag_item_kernel` and the checks behind it, which change nothing.  The
kernel does not read the cache it is given. -/
def launch (schedule : Schedule) (start count : BitVec 32) (dag : Words) : Words :=
  (schedule.order start count).foldl (writeWord start count) dag

/-- `std::min(batchSize, numDagItems - start)`. -/
def batchCount (numDagItems start : BitVec 32) : BitVec 32 :=
  if numDagItems - start < batchSize then numDagItems - start else batchSize

/-- The loop of `generateDagGpu` over the batches; `none` if it has not ended after `fuel`
batches. -/
def batchLoop (schedule : Schedule) (numDagItems : BitVec 32) :
    ℕ → BitVec 32 → Words → Option Words
  | 0, _, _ => none
  | fuel + 1, start, dag =>
    if start < numDagItems then
      let count := batchCount numDagItems start
      batchLoop schedule numDagItems fuel (start + batchSize) (launch schedule start count dag)
    else some dag

/-- `generateDagGpu`.  The variable `start` takes at most `2^12` values, so a loop that has not
ended after as many batches never ends. -/
def generateDagGpu (schedule : Schedule) (dag : Words) (numDagItems : BitVec 32) : Option Words :=
  batchLoop schedule numDagItems (2 ^ 12 + 1) 0 dag

/-! ## What a launch writes -/

lemma mem_grid {count : BitVec 32} {thread : ℕ × ℕ} :
    thread ∈ grid count ↔ thread.1 < blocks count * threadsPerBlock ∧ thread.2 < 8 := by
  obtain ⟨idx, i⟩ := thread
  rw [grid, List.mem_product, List.mem_range, List.mem_range]

/-- The grid has a thread for every item of a batch. -/
lemma le_blocks {count : BitVec 32} (h : count ≤ batchSize) :
    count.toNat ≤ blocks count * threadsPerBlock := by
  have hle : count.toNat ≤ 2 ^ 20 := h
  have h₂₅₆ : (256 : BitVec 32).toNat = 256 := rfl
  have hsum : (count + 256 - 1).toNat = count.toNat + 255 := by bv_omega
  rw [blocks, BitVec.toNat_udiv, hsum, h₂₅₆, threadsPerBlock]
  omega

/-- Every write puts the index of a word into that word, so their order does not matter. -/
lemma foldl_writeWord (start count : BitVec 32) (threads : List (ℕ × ℕ)) (dag : Words) (w : ℕ) :
    threads.foldl (writeWord start count) dag w =
      if ∃ thread ∈ threads, thread.1 < count.toNat ∧ (start.toNat + thread.1) * 8 + thread.2 = w
      then BitVec.ofNat 64 w else dag w := by
  induction threads generalizing dag with
  | nil => simp
  | cons thread threads ih =>
    rw [List.foldl_cons, ih]
    by_cases hlater : ∃ t ∈ threads, t.1 < count.toNat ∧ (start.toNat + t.1) * 8 + t.2 = w
    · -- a later write puts the same value there
      obtain ⟨t, ht, hw⟩ := hlater
      rw [if_pos ⟨t, ht, hw⟩, if_pos ⟨t, List.mem_cons_of_mem _ ht, hw⟩]
    · rw [if_neg hlater, writeWord]
      by_cases hguard : thread.1 < count.toNat ∧ (start.toNat + thread.1) * 8 + thread.2 = w
      · obtain ⟨hlt, rfl⟩ := hguard
        rw [if_neg (by omega), if_pos ⟨thread, List.mem_cons_self, hlt, rfl⟩]
        exact Function.update_self _ _ _
      · have hnone : ¬ ∃ t ∈ thread :: threads,
            t.1 < count.toNat ∧ (start.toNat + t.1) * 8 + t.2 = w := by
          rintro ⟨t, ht, hw⟩
          rcases List.mem_cons.mp ht with rfl | ht
          · exact hguard hw
          · exact hlater ⟨t, ht, hw⟩
        rw [if_neg hnone]
        split
        · rfl
        · next hlt =>
          have hne : w ≠ (start.toNat + thread.1) * 8 + thread.2 := fun h =>
            hguard ⟨by omega, h.symm⟩
          exact Function.update_of_ne hne _ _

/-- A launch leaves a word as it is, or it is one of its batch and holds its index. -/
lemma launch_cases (schedule : Schedule) (start count : BitVec 32) (dag : Words) (w : ℕ) :
    launch schedule start count dag w = dag w ∨
      (w < 8 * (start.toNat + count.toNat) ∧
        launch schedule start count dag w = BitVec.ofNat 64 w) := by
  rw [launch, foldl_writeWord]
  split
  · next hwritten =>
    obtain ⟨thread, hmem, hlt, rfl⟩ := hwritten
    have hgrid := mem_grid.mp ((schedule.subperm start count).subset hmem)
    exact Or.inr ⟨by omega, rfl⟩
  · exact Or.inl rfl

/-- A launch that succeeds writes all words of its batch. -/
lemma launch_of_succeeds {schedule : Schedule} {start count : BitVec 32}
    (hsucceeds : schedule.succeeds start count = true) (h : count ≤ batchSize) (dag : Words) {w : ℕ}
    (hle : 8 * start.toNat ≤ w) (hlt : w < 8 * (start.toNat + count.toNat)) :
    launch schedule start count dag w = BitVec.ofNat 64 w := by
  have hblocks := le_blocks h
  rw [launch, foldl_writeWord]
  refine if_pos ⟨(w / 8 - start.toNat, w % 8), ?_, ?_, ?_⟩
  · rw [(schedule.perm start count hsucceeds).mem_iff, mem_grid]
    constructor
    · show w / 8 - start.toNat < _
      omega
    · exact Nat.mod_lt _ (by decide)
  · show w / 8 - start.toNat < count.toNat
    omega
  · show (start.toNat + (w / 8 - start.toNat)) * 8 + w % 8 = w
    omega

/-! ## What the batches write -/

section Batch

variable {numDagItems start : BitVec 32}

lemma batchCount_le (numDagItems start : BitVec 32) : batchCount numDagItems start ≤ batchSize := by
  rw [batchCount]
  split
  · next h => exact BitVec.le_of_lt h
  · exact BitVec.le_refl _

/-- A batch ends at the next multiple of the batch size or with the last item. -/
lemma toNat_batchCount (h : start < numDagItems) :
    start.toNat + (batchCount numDagItems start).toNat =
      min (start.toNat + 2 ^ 20) numDagItems.toNat := by
  have hlt : start.toNat < numDagItems.toNat := h
  have hsub : (numDagItems - start).toNat = numDagItems.toNat - start.toNat := by bv_omega
  have hsize : batchSize.toNat = 2 ^ 20 := rfl
  rw [batchCount]
  split
  · next hlast =>
    have : (numDagItems - start).toNat < batchSize.toNat := hlast
    omega
  · next hlast =>
    have : ¬ (numDagItems - start).toNat < batchSize.toNat := hlast
    omega

/-- The index at which the next batch starts does not wrap. -/
lemma toNat_add_batchSize (hnum : numDagItems.toNat ≤ 2 ^ 32 - 2 ^ 20) (h : start < numDagItems) :
    (start + batchSize).toNat = start.toNat + 2 ^ 20 := by
  have hlt : start.toNat < numDagItems.toNat := h
  have hsize : batchSize.toNat = 2 ^ 20 := rfl
  rw [BitVec.toNat_add, hsize, Nat.mod_eq_of_lt (by omega)]

/-- What the rest of the loop does: it ends, it leaves a word as it is or puts its index there, and
it writes all words of the batches to come, if they succeed. -/
lemma batchLoop_eq (schedule : Schedule) (hnum : numDagItems.toNat ≤ 2 ^ 32 - 2 ^ 20) (fuel : ℕ)
    (start : BitVec 32) (dag : Words)
    (hfuel : numDagItems.toNat ≤ start.toNat + 2 ^ 20 * fuel) :
    ∃ dag', batchLoop schedule numDagItems (fuel + 1) start dag = some dag' ∧
      (∀ w, dag' w = dag w ∨ (w < 8 * numDagItems.toNat ∧ dag' w = BitVec.ofNat 64 w)) ∧
      (schedule.Succeeds → ∀ w, 8 * start.toNat ≤ w → w < 8 * numDagItems.toNat →
        dag' w = BitVec.ofNat 64 w) := by
  induction fuel generalizing start dag with
  | zero =>
    have hlt : ¬ start < numDagItems := fun h => by
      have : start.toNat < numDagItems.toNat := h
      omega
    exact ⟨dag, by rw [batchLoop, if_neg hlt], fun w => Or.inl rfl, fun _ w _ hw => by omega⟩
  | succ fuel ih =>
    by_cases hlt : start < numDagItems
    · have hlt' : start.toNat < numDagItems.toNat := hlt
      have hcount := toNat_batchCount hlt
      have hnext := toNat_add_batchSize hnum hlt
      obtain ⟨dag', hloop, hcases, hall⟩ := ih (start + batchSize)
        (launch schedule start (batchCount numDagItems start) dag) (by omega)
      refine ⟨dag', by rw [batchLoop, if_pos hlt]; exact hloop, fun w => ?_,
        fun hsucceeds w hle hw => ?_⟩
      · rcases hcases w with hsame | hcounts
        · rw [hsame]
          rcases launch_cases schedule start (batchCount numDagItems start) dag w with
            hsame | ⟨hbatch, hcounts⟩
          · exact Or.inl hsame
          · exact Or.inr ⟨by omega, hcounts⟩
        · exact Or.inr hcounts
      · by_cases hbatch : w < 8 * (start.toNat + (batchCount numDagItems start).toNat)
        · -- the later batches cannot spoil what this one writes
          rcases hcases w with hsame | ⟨-, hcounts⟩
          · rw [hsame, launch_of_succeeds (hsucceeds _ _) (batchCount_le _ _) dag hle hbatch]
          · exact hcounts
        · exact hall hsucceeds w (by omega) hw
    · have hle : ¬ start.toNat < numDagItems.toNat := hlt
      exact ⟨dag, by rw [batchLoop, if_neg hlt], fun w => Or.inl rfl, fun _ w _ hw => by omega⟩

end Batch

/-- **The DAG kernel ends**, whatever becomes of its launches: each word is left as it is, or it is
one of the items and holds its index. -/
theorem generateDagGpu_ends (schedule : Schedule) (dag : Words) {numDagItems : BitVec 32}
    (hnum : numDagItems.toNat ≤ 2 ^ 32 - 2 ^ 20) :
    ∃ dag', generateDagGpu schedule dag numDagItems = some dag' ∧
      ∀ w, dag' w = dag w ∨ (w < 8 * numDagItems.toNat ∧ dag' w = BitVec.ofNat 64 w) := by
  obtain ⟨dag', hloop, hcases, -⟩ := batchLoop_eq schedule hnum (2 ^ 12) 0 dag (by simp; omega)
  exact ⟨dag', hloop, hcases⟩

/-- **The DAG kernel counts.**  If its launches succeed, they write each word of the items with its
own index, and they leave the words behind the items alone. -/
theorem generateDagGpu_eq {schedule : Schedule} (hsucceeds : schedule.Succeeds) (dag : Words)
    {numDagItems : BitVec 32} (hnum : numDagItems.toNat ≤ 2 ^ 32 - 2 ^ 20) :
    ∃ dag', generateDagGpu schedule dag numDagItems = some dag' ∧
      ∀ w, dag' w = if w < 8 * numDagItems.toNat then BitVec.ofNat 64 w else dag w := by
  obtain ⟨dag', hloop, hcases, hall⟩ := batchLoop_eq schedule hnum (2 ^ 12) 0 dag (by simp; omega)
  refine ⟨dag', hloop, fun w => ?_⟩
  split
  · next hw => exact hall hsucceeds w (Nat.zero_le _) hw
  · next hw => exact (hcases w).resolve_right fun h => hw h.1

end OhMyMiner.Dag
