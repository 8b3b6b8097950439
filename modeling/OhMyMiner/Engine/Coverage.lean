/-
# What a launch covers

The launchers (`src/cuda/kernels/search_kernel.cu`) round the grid up to whole blocks, the optimised
one also to whole batches of nonces, and the kernels do not compare a nonce with the end of the
range.  So a launch tests what it is asked to test exactly when the range fills its blocks.  The
optimised launcher also computes the number of blocks in `int`, and launches nothing at all when
that wraps.
-/
import OhMyMiner.Engine.Launch

namespace OhMyMiner.Engine

open Lib Search

/-- The nonces of the range that a search asks for are tested, each once, and no other nonce is. -/
def TestsExactly (nonces : List (BitVec 64)) (startNonce searchCount : BitVec 64) : Prop :=
  nonces.Perm ((List.range searchCount.toNat).map fun index =>
    startNonce + BitVec.ofNat 64 index)

variable {startNonce searchCount : BitVec 64} {noncesPerThread : BitVec 32}

/-! ## The number of nonces -/

lemma TestsExactly.length_eq {nonces : List (BitVec 64)}
    (h : TestsExactly nonces startNonce searchCount) : nonces.length = searchCount.toNat := by
  rw [List.Perm.length_eq h, List.length_map, List.length_range]

lemma length_baseNonces (startNonce searchCount : BitVec 64) :
    (baseNonces startNonce searchCount).length = gridDim (baseBlocks searchCount) * 1024 := by
  simp only [baseNonces, List.length_flatMap, List.length_map, List.length_range,
    List.map_const', List.sum_replicate, smul_eq_mul]

lemma length_optimizedNonces (startNonce searchCount : BitVec 64) (noncesPerThread : BitVec 32) :
    (optimizedNonces startNonce searchCount noncesPerThread).length =
      gridDim (optimizedBlocks searchCount noncesPerThread) * 512 * noncesPerThread.toNat := by
  simp only [optimizedNonces, List.length_flatMap, List.length_map, List.length_range,
    List.map_const', List.sum_replicate, smul_eq_mul, Nat.mul_assoc]

/-- Rounding up to a multiple changes nothing exactly for a multiple. -/
lemma ceilDiv_mul_eq_iff {n b : ℕ} (hb : 0 < b) : (n + b - 1) / b * b = n ↔ b ∣ n := by
  constructor
  · intro h
    exact ⟨_, by rw [Nat.mul_comm]; exact h.symm⟩
  · rintro ⟨k, rfl⟩
    have hceil : (b * k + b - 1) / b = k := by
      rw [Nat.div_eq_iff hb]
      have hcomm := Nat.mul_comm b k
      omega
    rw [hceil, Nat.mul_comm]

/-! ## The two launchers -/

/-- The plain launcher tests the range exactly if it fills its blocks. -/
lemma baseNonces_exact_iff (hcount : searchCount.toNat < 2 ^ 32) :
    TestsExactly (baseNonces startNonce searchCount) startNonce searchCount ↔
      1024 ∣ searchCount.toNat := by
  have hgrid := gridDim_baseBlocks_of_lt hcount
  rw [← ceilDiv_mul_eq_iff (by decide : 0 < 1024)]
  constructor
  · intro h
    have hlength := h.length_eq
    rw [length_baseNonces, hgrid] at hlength
    exact hlength
  · intro hfull
    have hnonces : gridDim (baseBlocks searchCount) * 1024 = searchCount.toNat := by
      rw [hgrid]
      exact hfull
    rw [TestsExactly, baseNonces_of_grid startNonce (by omega), hnonces]

/-- The optimised launcher tests the range exactly if it fills its blocks, and the number of
threads leaves room for the 511 that are added to it. -/
lemma optimizedNonces_exact_iff (hcount : 1 ≤ searchCount.toNat ∧ searchCount.toNat < 2 ^ 32)
    (hpos : 0 < noncesPerThread.toNat) :
    TestsExactly (optimizedNonces startNonce searchCount noncesPerThread) startNonce searchCount ↔
      512 * noncesPerThread.toNat ∣ searchCount.toNat ∧
        searchCount.toNat / noncesPerThread.toNat ≤ 2 ^ 31 - 512 := by
  have hthreads := toNat_optimizedThreads_of_lt hcount.2 hpos
  obtain ⟨hfits, hwraps⟩ := gridDim_optimizedBlocks_cases searchCount noncesPerThread
  rw [hthreads] at hfits hwraps
  constructor
  · intro h
    have hlength := h.length_eq
    rw [length_optimizedNonces] at hlength
    have hdvd : 512 * noncesPerThread.toNat ∣ searchCount.toNat :=
      ⟨gridDim (optimizedBlocks searchCount noncesPerThread), by rw [← hlength]; ring⟩
    refine ⟨hdvd, ?_⟩
    -- a grid that has wrapped would test nothing
    by_contra hgt
    have hceil : searchCount.toNat / noncesPerThread.toNat ≤
        (searchCount.toNat + noncesPerThread.toNat - 1) / noncesPerThread.toNat :=
      Nat.div_le_div_right (by omega)
    rw [hwraps (by omega)] at hlength
    omega
  · rintro ⟨⟨blocks, hblocks⟩, hle⟩
    have hbatches : (searchCount.toNat + noncesPerThread.toNat - 1) / noncesPerThread.toNat =
        512 * blocks := by
      have hmul : searchCount.toNat = noncesPerThread.toNat * (512 * blocks) := by
        rw [hblocks]
        ring
      rw [Nat.div_eq_iff hpos, hmul, Nat.mul_comm (512 * blocks)]
      omega
    have hquot : searchCount.toNat / noncesPerThread.toNat = 512 * blocks := by
      rw [hblocks, Nat.mul_comm 512, Nat.mul_assoc, Nat.mul_div_cancel_left _ hpos]
    have hgrid : gridDim (optimizedBlocks searchCount noncesPerThread) = blocks := by
      rw [hfits (by omega), hbatches]
      omega
    have hnonces : gridDim (optimizedBlocks searchCount noncesPerThread) * 512 *
        noncesPerThread.toNat = searchCount.toNat := by
      rw [hgrid, hblocks]
      ring
    rw [TestsExactly, optimizedNonces_of_grid startNonce hpos (by omega), hnonces]

/-- **When a launch tests exactly the range it is asked for.**  The plain launcher does if the count
is a multiple of 1024; the optimised one if it is a multiple of the nonces of a block, and its
number of threads is at most `2^31 - 512`. -/
theorem launches_exact_iff {dagSize : ℕ} (dag : Vector Byte dagSize)
    (headerHash seedHash targetBE : Hash32) (startNonce searchCount : BitVec 64)
    (noncesPerThread : BitVec 32)
    (hcount : 1 ≤ searchCount.toNat ∧ searchCount.toNat < 2 ^ 32)
    (hthread : 1 ≤ noncesPerThread.toNat ∧ noncesPerThread.toNat ≤ 256) :
    let base := launchEthashSearch dag headerHash seedHash targetBE startNonce searchCount
    let optimized := launchEthashSearchOptimized dag headerHash seedHash targetBE startNonce
      searchCount noncesPerThread
    (TestsExactly (base.map Prod.fst) startNonce searchCount ↔ 1024 ∣ searchCount.toNat) ∧
      (TestsExactly (optimized.map Prod.fst) startNonce searchCount ↔
        512 * noncesPerThread.toNat ∣ searchCount.toNat ∧
          searchCount.toNat / noncesPerThread.toNat ≤ 2 ^ 31 - 512) := by
  intro base optimized
  have hbase : base.map Prod.fst = baseNonces startNonce searchCount := map_fst_outcomes _ _
  have hoptimized : optimized.map Prod.fst =
      optimizedNonces startNonce searchCount noncesPerThread := map_fst_outcomes _ _
  rw [hbase, hoptimized]
  exact ⟨baseNonces_exact_iff hcount.2, optimizedNonces_exact_iff hcount hthread.1⟩

/-- A range that fills one block of each launcher. -/
theorem launches_exact_iff_zeroDag :
    TestsExactly ((launchEthashSearch zeroDag (Vector.replicate 32 0) (Vector.replicate 32 0)
      (Vector.replicate 32 0xFF) 7 1024).map Prod.fst) 7 1024 ↔ 1024 ∣ (1024 : BitVec 64).toNat :=
  (launches_exact_iff zeroDag (Vector.replicate 32 0) (Vector.replicate 32 0)
    (Vector.replicate 32 0xFF) 7 1024 2 ⟨by decide, by decide⟩ ⟨by decide, by decide⟩).1

/-- For the default range of a device, the plain launcher tests one nonce too many, and the
optimised one with a nonce a thread tests none. -/
theorem launches_not_exact :
    ¬ TestsExactly ((launchEthashSearch zeroDag (Vector.replicate 32 0) (Vector.replicate 32 0)
        (Vector.replicate 32 0xFF) 0 0xFFFFFFFF).map Prod.fst) 0 0xFFFFFFFF ∧
      BitVec.ofNat 64 0xFFFFFFFF ∈ baseNonces 0 0xFFFFFFFF ∧
      (launchEthashSearchOptimized zeroDag (Vector.replicate 32 0) (Vector.replicate 32 0)
        (Vector.replicate 32 0xFF) 0 0xFFFFFFFF 1) = [] := by
  have hcount : (0xFFFFFFFF : BitVec 64).toNat = 0xFFFFFFFF := rfl
  have hgrid := gridDim_baseBlocks_of_lt (by decide : (0xFFFFFFFF : BitVec 64).toNat < 2 ^ 32)
  rw [hcount] at hgrid
  refine ⟨?_, ?_, ?_⟩
  · rw [launchEthashSearch, map_fst_outcomes, baseNonces_exact_iff (by decide), hcount]
    decide
  · rw [baseNonces_of_grid 0 (by rw [hgrid]; decide)]
    refine List.mem_map.mpr ⟨0xFFFFFFFF, List.mem_range.mpr ?_, BitVec.zero_add _⟩
    rw [hgrid]
    decide
  · have hthreads := toNat_optimizedThreads_of_lt
      (by decide : (0xFFFFFFFF : BitVec 64).toNat < 2 ^ 32) (by decide : 0 < (1 : BitVec 32).toNat)
    have hnone := (gridDim_optimizedBlocks_cases 0xFFFFFFFF 1).2 (by rw [hthreads]; decide)
    rw [launchEthashSearchOptimized, optimizedNonces, hnone]
    rfl

end OhMyMiner.Engine
