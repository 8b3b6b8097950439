/-
# The items of the dataset

`Ethash::calculateDatasetItem` (`src/core/ethash.cpp`) against the Ethash item.  The code selects
a parent with 32-bit remainders and mixes word by word in place; the reference takes the parents
from the cache as a function and mixes whole items.  They agree for every cache whose size fits in
32 bits, and the code stays inside of the cache.
-/
import OhMyMiner.Ethash.Dataset
import OhMyMiner.Lib.Hashimoto

namespace OhMyMiner.Ethash

open Lib Keccak

variable {n : ℕ}

/-! ## The reference -/

lemma wordIndex_lt (j : ℕ) : j % 16 < 16 := Nat.mod_lt _ (by decide)

lemma cacheIndex_lt (hpos : 0 < n) (k : BitVec 32) : k.toNat % n < n := Nat.mod_lt _ hpos

/-- The item that a 32-bit number selects. -/
def cacheAt (cache : Vector Hash64 n) (hpos : 0 < n) (k : BitVec 32) : Hash64 :=
  cache.get ⟨k.toNat % n, cacheIndex_lt hpos k⟩

/-- `mix := fnv(mix, cache[fnv(index xor j, mix[j mod 16]) mod n])`. -/
def mixParent (cache : Vector Hash64 n) (hpos : 0 < n) (index : BitVec 32) (j : ℕ)
    (mix : Vector (BitVec 32) 16) : Vector (BitVec 32) 16 :=
  let selected := Hashimoto.fnv (index ^^^ BitVec.ofNat 32 j) (mix.get ⟨j % 16, wordIndex_lt j⟩)
  Vector.zipWith Hashimoto.fnv mix (words32 (cacheAt cache hpos selected))

/-- An item of words is hashed. -/
def hashWords (mix : Vector (BitVec 32) 16) : Vector (BitVec 32) 16 :=
  words32 (keccak512 (toBytes 4 hash64_words mix : Hash64).toList)

/-- The words of the Ethash item before the parents are mixed in. -/
def itemStart (cache : Vector Hash64 n) (hpos : 0 < n) (index : BitVec 32) :
    Vector (BitVec 32) 16 :=
  let first := words32 (cacheAt cache hpos index)
  hashWords (first.set 0 (firstWord first ^^^ index))

/-- The words after the first `rounds` parents. -/
def itemAfter (cache : Vector Hash64 n) (hpos : 0 < n) (index : BitVec 32) :
    ℕ → Vector (BitVec 32) 16
  | 0 => itemStart cache hpos index
  | rounds + 1 => mixParent cache hpos index rounds (itemAfter cache hpos index rounds)

/-- The Ethash item. -/
def referenceItem (cache : Vector Hash64 n) (hpos : 0 < n) (index : BitVec 32) : Hash64 :=
  keccak512 (toBytes 4 hash64_words (itemAfter cache hpos index 256) : Hash64).toList

/-! ## The code computes it -/

/-- Mixing in place is mixing word by word. -/
lemma fnvMix_eq (mix data : Vector (BitVec 32) 16) :
    fnvMix mix data = Vector.zipWith Hashimoto.fnv mix data := by
  apply Vector.ext
  intro i hi
  rw [fnvMix, getElem_forLoop_set (fun i hi u => fnv1a u data[i]), Vector.getElem_zipWith]
  rfl

section Cache

variable (cache : Vector Hash64 n) (hpos : 0 < n)

/-- The remainder is the exact one, so that the access is in range. -/
lemma getElem?_cache (hlt : n < 2 ^ 32) (k : BitVec 32) :
    cache[(k % BitVec.ofNat 32 n).toNat]? = some (cacheAt cache hpos k) := by
  have hn : (BitVec.ofNat 32 n).toNat = n := by
    rw [BitVec.toNat_ofNat, Nat.mod_eq_of_lt hlt]
  rw [BitVec.toNat_umod, hn, Vector.getElem?_eq_getElem (cacheIndex_lt hpos k)]
  rfl

/-- The parents are mixed in one after the other. -/
lemma forLoop_mixParent (index : BitVec 32) (rounds : ℕ) :
    forLoop rounds (itemStart cache hpos index) (fun j _ mix => mixParent cache hpos index j mix) =
      itemAfter cache hpos index rounds := by
  induction rounds with
  | zero => rfl
  | succ rounds ih => rw [forLoop_succ, ih, itemAfter]

/-- The loop over the parents stays inside of the cache. -/
lemma forLoop_parents (hlt : n < 2 ^ 32) (index : BitVec 32) (rounds : ℕ) :
    (forLoop rounds (some (itemStart cache hpos index)) fun i _ mixWords => do
      let mixWords ← mixWords
      let parentIndex :=
        fnv1a (index ^^^ BitVec.ofNat 32 i) mixWords[i % 16] % BitVec.ofNat 32 n
      let parent ← cache[parentIndex.toNat]?
      return fnvMix mixWords (words32 parent)) = some (itemAfter cache hpos index rounds) := by
  rw [← forLoop_mixParent]
  refine forLoop_some fun i _ mixWords => ?_
  have hparent : mixParent cache hpos index i mixWords =
      fnvMix mixWords (words32 (cacheAt cache hpos
        (fnv1a (index ^^^ BitVec.ofNat 32 i) mixWords[i % 16]))) := by
    rw [fnvMix_eq]
    rfl
  rw [hparent]
  exact Option.bind_eq_some_iff.mpr ⟨mixWords, rfl,
    Option.bind_eq_some_iff.mpr ⟨_, getElem?_cache cache hpos hlt _, rfl⟩⟩

/-- **The code computes the Ethash item.**  An access outside of the cache would have no result. -/
theorem calculateDatasetItem_eq (hlt : n < 2 ^ 32) (index : BitVec 32) :
    calculateDatasetItem cache index = some (referenceItem cache hpos index) := by
  have hne : BitVec.ofNat 32 n ≠ 0 := by
    intro hzero
    have hnat := congrArg BitVec.toNat hzero
    rw [BitVec.toNat_ofNat, Nat.mod_eq_of_lt hlt] at hnat
    exact absurd hnat hpos.ne'
  have hparents : datasetParents = 256 := rfl
  have hloop := forLoop_parents cache hpos hlt index datasetParents
  have hitem := getElem?_cache cache hpos hlt index
  rw [calculateDatasetItem, referenceItem, ← hparents]
  dsimp only
  rw [if_neg hne]
  exact Option.bind_eq_some_iff.mpr ⟨_, hitem, Option.bind_eq_some_iff.mpr ⟨_, hloop, rfl⟩⟩

end Cache

/-- A cache of three different items. -/
def threeItems : Vector Hash64 3 :=
  Vector.ofFn fun i => Vector.ofFn fun j => BitVec.ofNat 8 (64 * i + j)

/-- The first item and the last one that are made from a cache of three items. -/
theorem calculateDatasetItem_eq_three :
    calculateDatasetItem threeItems 0 = some (referenceItem threeItems three_pos 0) ∧
      calculateDatasetItem threeItems 0xFFFFFFFF =
        some (referenceItem threeItems three_pos 0xFFFFFFFF) :=
  ⟨calculateDatasetItem_eq threeItems three_pos (by decide) 0,
    calculateDatasetItem_eq threeItems three_pos (by decide) 0xFFFFFFFF⟩

end OhMyMiner.Ethash
