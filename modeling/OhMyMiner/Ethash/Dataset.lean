/-
# Sizes, caches and items of an epoch

`Ethash::getDatasetSize`, `Ethash::getCacheSize`, `Ethash::calculateCache` and
`Ethash::calculateDatasetItem` (`src/core/ethash.cpp`).
-/
import OhMyMiner.Ethash.Cache

namespace OhMyMiner.Ethash

open Lib Keccak

/-! ## Sizes -/

/-- The epoch that the sizes are computed from: its growth rate halves at epoch 390. -/
def dagEpoch (epoch : BitVec 32) : BitVec 32 :=
  if 390 ≤ epoch then 195 + (epoch - 390) / 2 else epoch

/-- `Ethash::getDatasetSize`. -/
def getDatasetSize (epoch : BitVec 32) : BitVec 64 :=
  let baseSize : BitVec 64 := 1 <<< 30
  let growthPerEpoch : BitVec 64 := 1 <<< 23
  let size := baseSize + growthPerEpoch * (dagEpoch epoch).setWidth 64
  size / 128 * 128

/-- `Ethash::getCacheSize`. -/
def getCacheSize (epoch : BitVec 32) : BitVec 64 :=
  let baseSize : BitVec 64 := 1 <<< 24
  let growthPerEpoch : BitVec 64 := 1 <<< 17
  let size := baseSize + growthPerEpoch * (dagEpoch epoch).setWidth 64
  size / 64 * 64

/-- The number of items of the cache, `cacheSize / 64`. -/
def cacheItemCount (epoch : BitVec 32) : ℕ := (getCacheSize epoch / 64).toNat

/-- Neither the product nor the sum wraps. -/
lemma toNat_unrounded {base growth : BitVec 64} (e : BitVec 32)
    (hlt : base.toNat + growth.toNat * 2 ^ 32 < 2 ^ 64) :
    (base + growth * e.setWidth 64).toNat = base.toNat + growth.toNat * e.toNat := by
  have hmul : growth.toNat * e.toNat ≤ growth.toNat * 2 ^ 32 := Nat.mul_le_mul_left _ e.isLt.le
  have he : (e.setWidth 64).toNat = e.toNat := by
    rw [BitVec.toNat_setWidth, Nat.mod_eq_of_lt (by omega)]
  rw [BitVec.toNat_add, BitVec.toNat_mul, he, Nat.mod_eq_of_lt (by omega : _ < 2 ^ 64),
    Nat.mod_eq_of_lt (by omega : _ < 2 ^ 64)]

/-- Rounding down to a unit that divides base and growth changes nothing, and nothing wraps. -/
lemma toNat_linearSize {base growth unit : BitVec 64} (e : BitVec 32)
    (hlt : base.toNat + growth.toNat * 2 ^ 32 < 2 ^ 64) (hbase : unit.toNat ∣ base.toNat)
    (hgrowth : unit.toNat ∣ growth.toNat) :
    ((base + growth * e.setWidth 64) / unit * unit).toNat =
      base.toNat + growth.toNat * e.toNat := by
  have hmul : growth.toNat * e.toNat ≤ growth.toNat * 2 ^ 32 := Nat.mul_le_mul_left _ e.isLt.le
  have hdvd : unit.toNat ∣ base.toNat + growth.toNat * e.toNat :=
    Dvd.dvd.add hbase (hgrowth.mul_right _)
  rw [BitVec.toNat_mul, BitVec.toNat_udiv, toNat_unrounded e hlt, Nat.div_mul_cancel hdvd,
    Nat.mod_eq_of_lt (by omega)]

lemma toNat_getDatasetSize (epoch : BitVec 32) :
    (getDatasetSize epoch).toNat = 2 ^ 30 + 2 ^ 23 * (dagEpoch epoch).toNat :=
  toNat_linearSize _ (by decide) (by decide) (by decide)

lemma toNat_getCacheSize (epoch : BitVec 32) :
    (getCacheSize epoch).toNat = 2 ^ 24 + 2 ^ 17 * (dagEpoch epoch).toNat :=
  toNat_linearSize _ (by decide) (by decide) (by decide)

lemma cacheItemCount_pos (epoch : BitVec 32) : 0 < cacheItemCount epoch := by
  have h64 : (64 : BitVec 64).toNat = 64 := rfl
  rw [cacheItemCount, BitVec.toNat_udiv, toNat_getCacheSize, h64]
  omega

/-- The halved growth, computed without wrapping. -/
lemma toNat_dagEpoch (epoch : BitVec 32) :
    (dagEpoch epoch).toNat =
      if 390 ≤ epoch.toNat then 195 + (epoch.toNat - 390) / 2 else epoch.toNat := by
  have h₂ : (2 : BitVec 32).toNat = 2 := rfl
  have hlt := epoch.isLt
  rw [dagEpoch]
  by_cases hfork : 390 ≤ epoch.toNat
  · have hsub : (epoch - 390).toNat = epoch.toNat - 390 := by bv_omega
    have hdiv : ((epoch - 390) / 2).toNat = (epoch.toNat - 390) / 2 := by
      rw [BitVec.toNat_udiv, hsub, h₂]
    have hle : (390 : BitVec 32) ≤ epoch := hfork
    rw [if_pos hle, if_pos hfork, BitVec.toNat_add, hdiv]
    exact Nat.mod_eq_of_lt (by simp; omega)
  · have hgt : ¬ (390 : BitVec 32) ≤ epoch := hfork
    rw [if_neg hgt, if_neg hfork]

/-- The growth is halved often enough for the epochs a seed hash can stand for. -/
lemma toNat_dagEpoch_lt {epoch : BitVec 32} (h : epoch.toNat < 2000) :
    (dagEpoch epoch).toNat < 1000 := by
  rw [toNat_dagEpoch]
  split <;> omega

/-! ## The epoch of a block -/

/-- `Ethash::EPOCH_LENGTH`. -/
def epochLength : BitVec 64 := 30000

/-- `Ethash::getEpoch`. -/
def getEpoch (blockNumber : BitVec 64) : BitVec 32 := (blockNumber / epochLength).setWidth 32

/-- The DAG epoch of a block by ECIP-1099: 60000 blocks long from the fork on. -/
def blockDagEpoch (blockNumber : ℕ) : ℕ :=
  if blockNumber < 11700000 then blockNumber / 30000 else blockNumber / 60000

lemma toNat_getEpoch {blockNumber : BitVec 64} (h : blockNumber.toNat / 30000 < 2 ^ 32) :
    (getEpoch blockNumber).toNat = blockNumber.toNat / 30000 := by
  have hlength : epochLength.toNat = 30000 := rfl
  rw [getEpoch, BitVec.toNat_setWidth, BitVec.toNat_udiv, hlength, Nat.mod_eq_of_lt h]

/-- The code never sees the block after the fork; its halved 30000-block epoch is that of
ECIP-1099. -/
lemma toNat_dagEpoch_getEpoch {blockNumber : BitVec 64} (h : blockNumber.toNat / 30000 < 2 ^ 32) :
    (dagEpoch (getEpoch blockNumber)).toNat = blockDagEpoch blockNumber.toNat := by
  rw [toNat_dagEpoch, toNat_getEpoch h, blockDagEpoch]
  by_cases hfork : blockNumber.toNat < 11700000
  · rw [if_pos hfork, if_neg (by omega)]
  · rw [if_neg hfork, if_pos (by omega)]
    omega

/-- A size before it is rounded, `baseSize + growthPerEpoch * dagEpoch`. -/
def unroundedSize (baseSize growthPerEpoch : BitVec 64) (epoch : BitVec 32) : BitVec 64 :=
  baseSize + growthPerEpoch * (dagEpoch epoch).setWidth 64

/-- **The sizes of a block are those of its DAG epoch.**  Both tables use the same one, on either
side of the fork; the sums in 64 bits are exact before they are rounded, and rounding changes
nothing. -/
theorem sizes_of_block (blockNumber : BitVec 64) (h : blockNumber.toNat / 30000 < 2 ^ 32) :
    ((unroundedSize (1 <<< 30) (1 <<< 23) (getEpoch blockNumber)).toNat =
          2 ^ 30 + 2 ^ 23 * blockDagEpoch blockNumber.toNat ∧
        getDatasetSize (getEpoch blockNumber) =
          unroundedSize (1 <<< 30) (1 <<< 23) (getEpoch blockNumber) ∧
        (getDatasetSize (getEpoch blockNumber)).toNat =
          2 ^ 30 + 2 ^ 23 * blockDagEpoch blockNumber.toNat) ∧
      (unroundedSize (1 <<< 24) (1 <<< 17) (getEpoch blockNumber)).toNat =
          2 ^ 24 + 2 ^ 17 * blockDagEpoch blockNumber.toNat ∧
        getCacheSize (getEpoch blockNumber) =
          unroundedSize (1 <<< 24) (1 <<< 17) (getEpoch blockNumber) ∧
        (getCacheSize (getEpoch blockNumber)).toNat =
          2 ^ 24 + 2 ^ 17 * blockDagEpoch blockNumber.toNat := by
  rw [← toNat_dagEpoch_getEpoch h]
  have hdataset : (unroundedSize (1 <<< 30) (1 <<< 23) (getEpoch blockNumber)).toNat =
      2 ^ 30 + 2 ^ 23 * (dagEpoch (getEpoch blockNumber)).toNat :=
    toNat_unrounded _ (by decide)
  have hcache : (unroundedSize (1 <<< 24) (1 <<< 17) (getEpoch blockNumber)).toNat =
      2 ^ 24 + 2 ^ 17 * (dagEpoch (getEpoch blockNumber)).toNat :=
    toNat_unrounded _ (by decide)
  have hdataset' := toNat_getDatasetSize (getEpoch blockNumber)
  have hcache' := toNat_getCacheSize (getEpoch blockNumber)
  exact ⟨⟨hdataset, BitVec.eq_of_toNat_eq (hdataset'.trans hdataset.symm), hdataset'⟩,
    hcache, BitVec.eq_of_toNat_eq (hcache'.trans hcache.symm), hcache'⟩

/-- The first block of the fork, whose DAG epoch is 195. -/
theorem sizes_of_block_fork :
    (getDatasetSize (getEpoch 11700000)).toNat = 2 ^ 30 + 2 ^ 23 * blockDagEpoch 11700000 :=
  (sizes_of_block 11700000 (by decide)).1.2.2

/-! ## The cache of an epoch -/

/-- The seed hash of an epoch: `keccak256` applied `epoch` times to zeros. -/
def epochSeed (epoch : BitVec 32) : Hash32 :=
  forLoop epoch.toNat (Vector.replicate 32 0) fun _ _ seedHash => keccak256 seedHash.toList

/-- `Ethash::calculateCache`. -/
def calculateCache (epoch : BitVec 32) : Vector Hash64 (cacheItemCount epoch) :=
  cacheItems (epochSeed epoch) (cacheItemCount_pos epoch)

/-! ## The items of the dataset -/

/-- `Ethash::fnv1a`. -/
def fnv1a (a b : BitVec 32) : BitVec 32 := a * 0x01000193 ^^^ b

/-- `Ethash::fnv_mix` over the words of an item. -/
def fnvMix (mix data : Vector (BitVec 32) 16) : Vector (BitVec 32) 16 :=
  forLoop 16 mix fun i _ mix => mix.set i (fnv1a mix[i] data[i])

/-- `Ethash::DATASET_PARENTS`. -/
def datasetParents : ℕ := 256

/-- `Ethash::calculateDatasetItem`.  It has no result for an empty cache, whose size it divides
by, nor when an index is outside the cache. -/
def calculateDatasetItem {n : ℕ} (cache : Vector Hash64 n) (index : BitVec 32) :
    Option Hash64 := do
  let numCacheItems := BitVec.ofNat 32 n
  if numCacheItems = 0 then none
  let item ← cache[(index % numCacheItems).toNat]?
  let mixWords := words32 item
  let mixWords := mixWords.set 0 (mixWords[0] ^^^ index)
  let mix := keccak512 (toBytes 4 hash64_words mixWords : Hash64).toList
  let mixWords ← forLoop datasetParents (some (words32 mix)) fun i _ mixWords => do
    let mixWords ← mixWords
    let parentIndex := fnv1a (index ^^^ BitVec.ofNat 32 i) mixWords[i % 16] % numCacheItems
    let parent ← cache[parentIndex.toNat]?
    return fnvMix mixWords (words32 parent)
  return keccak512 (toBytes 4 hash64_words mixWords : Hash64).toList

end OhMyMiner.Ethash
