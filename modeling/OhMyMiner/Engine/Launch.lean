/-
# The launchers of the search kernels

`launch_ethash_search` and `launch_ethash_search_optimized`
(`src/cuda/kernels/search_kernel.cu`).  Each computes a grid from the number of nonces in `int`
arithmetic, and the kernels compute the nonces from the indices of their threads, in part in 32
bits.  For up to `2^31 - 512` nonces and 256 nonces a thread nothing overflows, and each launch
tests one range of nonces, every nonce of it once.
-/
import OhMyMiner.Engine.Nonces
import OhMyMiner.Lib.Grid
import OhMyMiner.Search.Correct
import OhMyMiner.Search.Optimized

namespace OhMyMiner.Engine

open Lib Search

/-! ## The code -/

/-- The blocks that a launch with `int blocks` runs: a negative number is no grid. -/
def gridDim (blocks : BitVec 32) : ℕ := blocks.toInt.toNat

/-- `blocks` of `launch_ethash_search`: the quotient is taken in 64 bits. -/
def baseBlocks (searchCount : BitVec 64) : BitVec 32 :=
  ((searchCount + 1024 - 1) / 1024).setWidth 32

/-- `totalThreads` of `launch_ethash_search_optimized`. -/
def optimizedThreads (searchCount : BitVec 64) (noncesPerThread : BitVec 32) : BitVec 32 :=
  ((searchCount + noncesPerThread.setWidth 64 - 1) / noncesPerThread.setWidth 64).setWidth 32

/-- `blocks` of `launch_ethash_search_optimized`: the sum and the quotient are taken in `int`. -/
def optimizedBlocks (searchCount : BitVec 64) (noncesPerThread : BitVec 32) : BitVec 32 :=
  (optimizedThreads searchCount noncesPerThread + 512 - 1).sdiv 512

/-- `startNonce + blockIdx.x * blockDim.x + threadIdx.x`: the product is taken in 32 bits. -/
def threadNonce (startNonce : BitVec 64) (blockIdx threadIdx : ℕ) : BitVec 64 :=
  startNonce + (BitVec.ofNat 32 blockIdx * 1024).setWidth 64 + BitVec.ofNat 64 threadIdx

/-- `startNonce + (blockIdx.x * blockDim.x + threadIdx.x) * noncesPerThread`: all but the last
sum is taken in 32 bits. -/
def baseNonce (startNonce : BitVec 64) (noncesPerThread : BitVec 32) (blockIdx threadIdx : ℕ) :
    BitVec 64 :=
  startNonce +
    ((BitVec.ofNat 32 blockIdx * 512 + BitVec.ofNat 32 threadIdx) * noncesPerThread).setWidth 64

/-- The nonces that `launch_ethash_search` tests, thread by thread. -/
def baseNonces (startNonce searchCount : BitVec 64) : List (BitVec 64) :=
  (List.range (gridDim (baseBlocks searchCount))).flatMap fun blockIdx =>
    (List.range 1024).map fun threadIdx => threadNonce startNonce blockIdx threadIdx

/-- The nonces that `launch_ethash_search_optimized` tests, thread by thread. -/
def optimizedNonces (startNonce searchCount : BitVec 64) (noncesPerThread : BitVec 32) :
    List (BitVec 64) :=
  (List.range (gridDim (optimizedBlocks searchCount noncesPerThread))).flatMap fun blockIdx =>
    (List.range 512).flatMap fun threadIdx =>
      (List.range noncesPerThread.toNat).map fun nonceOffset =>
        baseNonce startNonce noncesPerThread blockIdx threadIdx + BitVec.ofNat 64 nonceOffset

section Launch

variable {dagSize : ℕ}

/-- `launch_ethash_search`: the nonces tested, each with what its thread does. -/
def launchEthashSearch (dag : Vector Byte dagSize) (headerHash seedHash targetBE : Hash32)
    (startNonce searchCount : BitVec 64) : List (BitVec 64 × Option (Option DeviceSolution)) :=
  (baseNonces startNonce searchCount).map fun nonce =>
    (nonce, searchThread dag headerHash seedHash targetBE nonce)

/-- `launch_ethash_search_optimized`: the nonces tested, each with what its thread does. -/
def launchEthashSearchOptimized (dag : Vector Byte dagSize)
    (headerHash seedHash targetBE : Hash32) (startNonce searchCount : BitVec 64)
    (noncesPerThread : BitVec 32) : List (BitVec 64 × Option (Option DeviceSolution)) :=
  (optimizedNonces startNonce searchCount noncesPerThread).map fun nonce =>
    (nonce, searchNonceOptimized dag headerHash seedHash targetBE nonce)

end Launch

/-! ## The grids -/

section Grids

variable {startNonce searchCount : BitVec 64} {noncesPerThread : BitVec 32}

lemma gridDim_eq {blocks : BitVec 32} (h : blocks.toNat < 2 ^ 31) :
    gridDim blocks = blocks.toNat := by
  rw [gridDim, BitVec.toInt_eq_toNat_of_lt (by omega), Int.toNat_natCast]

/-- The quotient in 64 bits is exact for every count of 32 bits. -/
lemma gridDim_baseBlocks_of_lt (hcount : searchCount.toNat < 2 ^ 32) :
    gridDim (baseBlocks searchCount) = (searchCount.toNat + 1023) / 1024 := by
  have h₁ : (1 : BitVec 64).toNat = 1 := rfl
  have h₁₀₂₄ : (1024 : BitVec 64).toNat = 1024 := rfl
  have hsum : (searchCount + 1024 - 1).toNat = searchCount.toNat + 1023 := by
    rw [BitVec.toNat_sub, BitVec.toNat_add, h₁, h₁₀₂₄]
    omega
  have hblocks : (baseBlocks searchCount).toNat = (searchCount.toNat + 1023) / 1024 := by
    rw [baseBlocks, BitVec.toNat_setWidth, BitVec.toNat_udiv, hsum, h₁₀₂₄]
    omega
  rw [gridDim_eq (by omega), hblocks]

lemma gridDim_baseBlocks (hcount : searchCount.toNat ≤ 2 ^ 31 - 512) :
    gridDim (baseBlocks searchCount) * 1024 = blockNonces 1024 1 searchCount.toNat := by
  rw [gridDim_baseBlocks_of_lt (by omega), blockNonces, Nat.add_sub_cancel, Nat.div_one,
    Nat.mul_one]
  rfl

lemma toNat_optimizedThreads_of_lt (hcount : searchCount.toNat < 2 ^ 32)
    (hpos : 0 < noncesPerThread.toNat) :
    (optimizedThreads searchCount noncesPerThread).toNat =
      (searchCount.toNat + noncesPerThread.toNat - 1) / noncesPerThread.toNat := by
  have h₁ : (1 : BitVec 64).toNat = 1 := rfl
  have hlt := noncesPerThread.isLt
  have hwide : (noncesPerThread.setWidth 64).toNat = noncesPerThread.toNat := by
    rw [BitVec.toNat_setWidth]
    omega
  have hsum : (searchCount + noncesPerThread.setWidth 64 - 1).toNat =
      searchCount.toNat + noncesPerThread.toNat - 1 := by
    rw [BitVec.toNat_sub, BitVec.toNat_add, hwide, h₁]
    omega
  have hquot : (searchCount.toNat + noncesPerThread.toNat - 1) / noncesPerThread.toNat <
      2 ^ 32 := by
    rw [Nat.div_lt_iff_lt_mul hpos]
    have hmul : searchCount.toNat + 1 ≤ 2 ^ 32 := hcount
    calc searchCount.toNat + noncesPerThread.toNat - 1
        < searchCount.toNat * noncesPerThread.toNat + noncesPerThread.toNat := by
          have := Nat.le_mul_of_pos_right searchCount.toNat hpos
          omega
      _ = (searchCount.toNat + 1) * noncesPerThread.toNat := by ring
      _ ≤ 2 ^ 32 * noncesPerThread.toNat := Nat.mul_le_mul_right _ hmul
  rw [optimizedThreads, BitVec.toNat_setWidth, BitVec.toNat_udiv, hsum, hwide,
    Nat.mod_eq_of_lt hquot]

lemma toNat_optimizedThreads (hcount : searchCount.toNat ≤ 2 ^ 31 - 512)
    (hpos : 0 < noncesPerThread.toNat) :
    (optimizedThreads searchCount noncesPerThread).toNat =
        (searchCount.toNat + noncesPerThread.toNat - 1) / noncesPerThread.toNat ∧
      (optimizedThreads searchCount noncesPerThread).toNat ≤ 2 ^ 31 - 512 := by
  have hmul := Nat.mul_le_mul_right (2 ^ 31 - 512) hpos
  have hquot : (searchCount.toNat + noncesPerThread.toNat - 1) / noncesPerThread.toNat ≤
      2 ^ 31 - 512 := Nat.div_le_of_le_mul (by omega)
  rw [toNat_optimizedThreads_of_lt (by omega) hpos]
  exact ⟨rfl, hquot⟩

/-- A signed quotient by 512, as a number of blocks. -/
lemma gridDim_sdiv (x : BitVec 32) : gridDim (x.sdiv 512) = (x.toInt.tdiv 512).toNat := by
  have h₅₁₂ : (512 : BitVec 32).toInt = 512 := rfl
  rw [gridDim, BitVec.toInt_sdiv_of_ne_or_ne _ _ (Or.inr (by decide)), h₅₁₂]

/-- The sum with 511 in `int` wraps from `2^31 - 511` threads on, and no block is left. -/
lemma gridDim_optimizedBlocks_cases (searchCount : BitVec 64) (noncesPerThread : BitVec 32) :
    let threads := (optimizedThreads searchCount noncesPerThread).toNat
    (threads ≤ 2 ^ 31 - 512 →
        gridDim (optimizedBlocks searchCount noncesPerThread) = (threads + 511) / 512) ∧
      (2 ^ 31 - 512 < threads → gridDim (optimizedBlocks searchCount noncesPerThread) = 0) := by
  intro threads
  have h₁ : (1 : BitVec 32).toNat = 1 := rfl
  have h₅₁₂ : (512 : BitVec 32).toNat = 512 := rfl
  have hlt : threads < 2 ^ 32 := BitVec.isLt _
  have hsum : (optimizedThreads searchCount noncesPerThread + 512 - 1).toNat =
      (threads + 511) % 2 ^ 32 := by
    rw [BitVec.toNat_sub, BitVec.toNat_add, h₁, h₅₁₂]
    omega
  have hsigned := BitVec.toInt_eq_toNat_cond
    (optimizedThreads searchCount noncesPerThread + 512 - 1)
  rw [hsum] at hsigned
  rw [optimizedBlocks, gridDim_sdiv]
  constructor
  · intro hle
    have hexact : (optimizedThreads searchCount noncesPerThread + 512 - 1).toInt =
        ((threads + 511 : ℕ) : ℤ) := by
      rw [hsigned, if_pos (by omega)]
      omega
    rw [hexact, Int.tdiv_eq_ediv_of_nonneg (by omega)]
    omega
  · intro hgt
    have hwrapped : (optimizedThreads searchCount noncesPerThread + 512 - 1).toInt < 512 := by
      rw [hsigned]
      split <;> omega
    rw [Int.toNat_eq_zero]
    rcases le_or_gt 0 (optimizedThreads searchCount noncesPerThread + 512 - 1).toInt with h | h
    · rw [Int.tdiv_eq_ediv_of_nonneg h]
      omega
    · have hneg := Int.neg_tdiv (optimizedThreads searchCount noncesPerThread + 512 - 1).toInt 512
      have hnonneg := Int.tdiv_nonneg (Int.neg_nonneg_of_nonpos h.le) (by decide : (0 : ℤ) ≤ 512)
      rw [hneg] at hnonneg
      omega

lemma gridDim_optimizedBlocks (hcount : searchCount.toNat ≤ 2 ^ 31 - 512)
    (hpos : 0 < noncesPerThread.toNat) :
    gridDim (optimizedBlocks searchCount noncesPerThread) * 512 * noncesPerThread.toNat =
      blockNonces 512 noncesPerThread.toNat searchCount.toNat := by
  obtain ⟨hthreads, hle⟩ := toNat_optimizedThreads hcount hpos
  rw [(gridDim_optimizedBlocks_cases searchCount noncesPerThread).1 hle, hthreads, blockNonces]
  rfl

/-- The threads of a grid that fits in 32 bits test one range of nonces. -/
lemma baseNonces_of_grid (startNonce : BitVec 64)
    (hgrid : gridDim (baseBlocks searchCount) * 1024 ≤ 2 ^ 32) :
    baseNonces startNonce searchCount =
      (List.range (gridDim (baseBlocks searchCount) * 1024)).map fun index =>
        startNonce + BitVec.ofNat 64 index := by
  rw [← flatMap_range_map, baseNonces]
  refine List.flatMap_congr fun blockIdx hblock => List.map_congr_left fun threadIdx _ => ?_
  have hblock' := List.mem_range.mp hblock
  have h₁₀₂₄ : (1024 : BitVec 32).toNat = 1024 := rfl
  have hproduct : (BitVec.ofNat 32 blockIdx * 1024).setWidth 64 =
      BitVec.ofNat 64 (blockIdx * 1024) := by
    apply BitVec.eq_of_toNat_eq
    rw [BitVec.toNat_setWidth, BitVec.toNat_mul, BitVec.toNat_ofNat, BitVec.toNat_ofNat, h₁₀₂₄]
    omega
  rw [threadNonce, hproduct, BitVec.add_assoc, BitVec.ofNat_add]

/-- `launch_ethash_search` tests one range of nonces. -/
theorem baseNonces_eq (startNonce : BitVec 64) (hcount : searchCount.toNat ≤ 2 ^ 31 - 512) :
    baseNonces startNonce searchCount =
      (List.range (blockNonces 1024 1 searchCount.toNat)).map fun index =>
        startNonce + BitVec.ofNat 64 index := by
  have hlt := blockNonces_le 1024 1 searchCount.toNat
  rw [← gridDim_baseBlocks hcount] at hlt ⊢
  exact baseNonces_of_grid startNonce (by omega)

/-- The threads of a grid whose nonces fit in 32 bits test one range of nonces. -/
lemma optimizedNonces_of_grid (startNonce : BitVec 64) (hpos : 0 < noncesPerThread.toNat)
    (hgrid : gridDim (optimizedBlocks searchCount noncesPerThread) * 512 *
      noncesPerThread.toNat ≤ 2 ^ 32) :
    optimizedNonces startNonce searchCount noncesPerThread =
      (List.range (gridDim (optimizedBlocks searchCount noncesPerThread) * 512 *
        noncesPerThread.toNat)).map fun index => startNonce + BitVec.ofNat 64 index := by
  rw [Nat.mul_assoc, ← flatMap_range_map, optimizedNonces]
  refine List.flatMap_congr fun blockIdx hblock => ?_
  rw [← flatMap_range_map 512 noncesPerThread.toNat fun j =>
    startNonce + BitVec.ofNat 64 (blockIdx * (512 * noncesPerThread.toNat) + j)]
  refine List.flatMap_congr fun threadIdx hthread => List.map_congr_left fun nonceOffset _ => ?_
  have hblock' := List.mem_range.mp hblock
  have hthread' := List.mem_range.mp hthread
  -- the thread is one of the grid, so that its product is at most the number of nonces
  have hthreads : blockIdx * 512 + threadIdx + 1 ≤
      gridDim (optimizedBlocks searchCount noncesPerThread) * 512 := by omega
  have hproduct : (blockIdx * 512 + threadIdx) * noncesPerThread.toNat < 2 ^ 32 := by
    refine lt_of_lt_of_le ?_ (le_trans (Nat.mul_le_mul_right _ hthreads) hgrid)
    rw [Nat.succ_mul]
    omega
  have hindex : blockIdx * 512 + threadIdx < 2 ^ 32 :=
    lt_of_le_of_lt (Nat.le_mul_of_pos_right _ hpos) hproduct
  have h₅₁₂ : (512 : BitVec 32).toNat = 512 := rfl
  have hwide :
      ((BitVec.ofNat 32 blockIdx * 512 + BitVec.ofNat 32 threadIdx) * noncesPerThread).setWidth 64 =
        BitVec.ofNat 64 ((blockIdx * 512 + threadIdx) * noncesPerThread.toNat) := by
    apply BitVec.eq_of_toNat_eq
    have hsum : (BitVec.ofNat 32 blockIdx * 512 + BitVec.ofNat 32 threadIdx).toNat =
        blockIdx * 512 + threadIdx := by
      rw [BitVec.toNat_add, BitVec.toNat_mul, BitVec.toNat_ofNat, BitVec.toNat_ofNat, h₅₁₂]
      omega
    rw [BitVec.toNat_setWidth, BitVec.toNat_mul, hsum, BitVec.toNat_ofNat]
    omega
  have hflat : blockIdx * (512 * noncesPerThread.toNat) +
      (threadIdx * noncesPerThread.toNat + nonceOffset) =
        (blockIdx * 512 + threadIdx) * noncesPerThread.toNat + nonceOffset := by ring
  rw [baseNonce, hwide, BitVec.add_assoc, ← BitVec.ofNat_add, hflat]

/-- `launch_ethash_search_optimized` tests one range of nonces. -/
theorem optimizedNonces_eq (startNonce : BitVec 64) (hcount : searchCount.toNat ≤ 2 ^ 31 - 512)
    (hpos : 0 < noncesPerThread.toNat) (hle : noncesPerThread.toNat ≤ 256) :
    optimizedNonces startNonce searchCount noncesPerThread =
      (List.range (blockNonces 512 noncesPerThread.toNat searchCount.toNat)).map fun index =>
        startNonce + BitVec.ofNat 64 index := by
  have hlt := blockNonces_le 512 noncesPerThread.toNat searchCount.toNat
  have hbound : 512 * noncesPerThread.toNat ≤ 512 * 256 := Nat.mul_le_mul_left _ hle
  rw [← gridDim_optimizedBlocks hcount hpos] at hlt ⊢
  exact optimizedNonces_of_grid startNonce hpos (by omega)

end Grids

/-! ## Both launchers -/

/-- Fewer than `2^64` indices have different nonces. -/
lemma count_nonces (startNonce : BitVec 64) {n i : ℕ} (hn : n < 2 ^ 64) (hi : i < n) :
    ((List.range n).map fun index => startNonce + BitVec.ofNat 64 index).count
      (startNonce + BitVec.ofNat 64 i) = 1 := by
  refine count_map_range (f := fun index => startNonce + BitVec.ofNat 64 index) ?_ hi
  intro i hi j hj heq
  have hnat := congrArg BitVec.toNat ((BitVec.add_right_inj startNonce).mp heq)
  rwa [BitVec.toNat_ofNat, BitVec.toNat_ofNat, Nat.mod_eq_of_lt (by omega),
    Nat.mod_eq_of_lt (by omega)] at hnat

/-- **Both launchers test every nonce that is asked for exactly once, and they agree on it.** -/
theorem launches_agree {dagSize : ℕ} (dag : Vector Byte dagSize)
    (headerHash seedHash targetBE : Hash32) (startNonce searchCount : BitVec 64)
    (noncesPerThread : BitVec 32)
    (hcount : 1 ≤ searchCount.toNat ∧ searchCount.toNat ≤ 2 ^ 31 - 512)
    (hthread : 1 ≤ noncesPerThread.toNat ∧ noncesPerThread.toNat ≤ 256) {i : ℕ}
    (hi : i < searchCount.toNat) :
    let nonce := startNonce + BitVec.ofNat 64 i
    let base := launchEthashSearch dag headerHash seedHash targetBE startNonce searchCount
    let optimized := launchEthashSearchOptimized dag headerHash seedHash targetBE startNonce
      searchCount noncesPerThread
    (base.map Prod.fst).count nonce = 1 ∧ (optimized.map Prod.fst).count nonce = 1 ∧
      ∀ outcome, (nonce, outcome) ∈ base ↔ (nonce, outcome) ∈ optimized := by
  intro nonce base optimized
  have hbase : base.map Prod.fst = baseNonces startNonce searchCount := map_fst_outcomes _ _
  have hoptimized : optimized.map Prod.fst =
      optimizedNonces startNonce searchCount noncesPerThread := map_fst_outcomes _ _
  have hbound : 512 * noncesPerThread.toNat ≤ 512 * 256 := Nat.mul_le_mul_left _ hthread.2
  have hbaseLe := le_blockNonces (by norm_num : 0 < 1024) one_pos searchCount.toNat
  have hbaseLt := blockNonces_le 1024 1 searchCount.toNat
  have hoptimizedLe := le_blockNonces (by norm_num : 0 < 512) hthread.1 searchCount.toNat
  have hoptimizedLt := blockNonces_le 512 noncesPerThread.toNat searchCount.toNat
  have hbaseOnce : (baseNonces startNonce searchCount).count nonce = 1 := by
    rw [baseNonces_eq startNonce hcount.2]
    exact count_nonces startNonce (by omega) (by omega)
  have hoptimizedOnce :
      (optimizedNonces startNonce searchCount noncesPerThread).count nonce = 1 := by
    rw [optimizedNonces_eq startNonce hcount.2 hthread.1 hthread.2]
    exact count_nonces startNonce (by omega) (by omega)
  rw [hbase, hoptimized]
  refine ⟨hbaseOnce, hoptimizedOnce, fun outcome => ?_⟩
  have hbaseMem := List.count_pos_iff.mp (hbaseOnce ▸ Nat.one_pos)
  have hoptimizedMem := List.count_pos_iff.mp (hoptimizedOnce ▸ Nat.one_pos)
  exact (mem_outcomes hbaseMem outcome).trans <| by
    rw [← searchNonceOptimized_eq]
    exact (mem_outcomes hoptimizedMem outcome).symm

/-- The launches of 1500 nonces over a DAG of three pages, with three nonces a thread in the
optimised one; the nonces wrap. -/
theorem launches_agree_threePages : ∃ base optimized,
    base = launchEthashSearch threePages (countingHash 1) (countingHash 33) (countingHash 128)
      0xFFFFFFFFFFFFFFFE 1500 ∧
    optimized = launchEthashSearchOptimized threePages (countingHash 1) (countingHash 33)
      (countingHash 128) 0xFFFFFFFFFFFFFFFE 1500 3 ∧
    ∀ i < 1500, (base.map Prod.fst).count (0xFFFFFFFFFFFFFFFE + BitVec.ofNat 64 i) = 1 ∧
      (optimized.map Prod.fst).count (0xFFFFFFFFFFFFFFFE + BitVec.ofNat 64 i) = 1 ∧
      ∀ outcome, (0xFFFFFFFFFFFFFFFE + BitVec.ofNat 64 i, outcome) ∈ base ↔
        (0xFFFFFFFFFFFFFFFE + BitVec.ofNat 64 i, outcome) ∈ optimized :=
  ⟨_, _, rfl, rfl, fun _ hi => launches_agree threePages (countingHash 1) (countingHash 33)
    (countingHash 128) 0xFFFFFFFFFFFFFFFE 1500 3 ⟨by decide, by decide⟩ ⟨by decide, by decide⟩ hi⟩

end OhMyMiner.Engine
