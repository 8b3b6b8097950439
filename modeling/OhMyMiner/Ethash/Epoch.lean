/-
# The epoch of a seed hash

`Ethash::epochFromSeedHash` (`src/core/ethash.cpp`): the seed hash of an epoch is `keccak256`
applied that many times to zeros, and the epoch is found by trying the first 2000.
-/
import OhMyMiner.Ethash.Dataset

namespace OhMyMiner.Ethash

open Lib Keccak

/-! ## The code -/

/-- The scan over the epochs that are left; `cur` is the seed hash of the next one. -/
def scanEpochs (seedHash : Hash32) : ℕ → BitVec 32 → Hash32 → BitVec 32
  | 0, _, _ => BitVec.allOnes 32
  | left + 1, epoch, cur =>
    if cur = seedHash then epoch
    else scanEpochs seedHash left (epoch + 1) (keccak256 cur.toList)

/-- `MAX_EPOCH_SCAN`. -/
def maxEpochScan : ℕ := 2000

/-- `Ethash::epochFromSeedHash`. -/
def epochFromSeedHash (seedHash : Hash32) : BitVec 32 :=
  scanEpochs seedHash maxEpochScan 0 (Vector.replicate 32 0)

/-! ## Seed hashes -/

/-- The iterates of `keccak256` from zeros. -/
def seedIterate (k : ℕ) : Hash32 := (fun hash => keccak256 hash.toList)^[k] (Vector.replicate 32 0)

lemma seedIterate_succ (k : ℕ) : seedIterate (k + 1) = keccak256 (seedIterate k).toList :=
  Function.iterate_succ_apply' _ _ _

/-- The cache of an epoch starts from the iterate of that number. -/
lemma epochSeed_eq (epoch : BitVec 32) : epochSeed epoch = seedIterate epoch.toNat := by
  have hloop : ∀ k, forLoop k (Vector.replicate 32 0)
      (fun _ _ (seedHash : Hash32) => keccak256 seedHash.toList) = seedIterate k := by
    intro k
    induction k with
    | zero => rfl
    | succ k ih =>
      rw [seedIterate_succ, ← ih]
      rfl
  exact hloop _

/-- The scan finds the first epoch with that seed hash, if there is one left. -/
lemma scanEpochs_cases (seedHash : Hash32) (left k : ℕ) :
    (∃ e, k ≤ e ∧ e < k + left ∧ seedIterate e = seedHash ∧
        (∀ i, k ≤ i → i < e → seedIterate i ≠ seedHash) ∧
        scanEpochs seedHash left (BitVec.ofNat 32 k) (seedIterate k) = BitVec.ofNat 32 e) ∨
      ((∀ e, k ≤ e → e < k + left → seedIterate e ≠ seedHash) ∧
        scanEpochs seedHash left (BitVec.ofNat 32 k) (seedIterate k) = BitVec.allOnes 32) := by
  induction left generalizing k with
  | zero => exact Or.inr ⟨fun e hk hlt => absurd hlt (by omega), rfl⟩
  | succ left ih =>
    rw [scanEpochs]
    by_cases hseed : seedIterate k = seedHash
    · rw [if_pos hseed]
      exact Or.inl ⟨k, le_rfl, by omega, hseed, fun i hk hi => absurd hi (by omega), rfl⟩
    · rw [if_neg hseed, ← seedIterate_succ]
      have hnext : BitVec.ofNat 32 k + 1 = BitVec.ofNat 32 (k + 1) := (BitVec.ofNat_add k 1).symm
      rw [hnext]
      rcases ih (k + 1) with ⟨e, hk, hlt, he, hfirst, hscan⟩ | ⟨hnone, hscan⟩
      · refine Or.inl ⟨e, by omega, by omega, he, fun i hi hie => ?_, hscan⟩
        rcases Nat.eq_or_lt_of_le hi with rfl | hlater
        · exact hseed
        · exact hfirst i hlater hie
      · refine Or.inr ⟨fun e he hlt => ?_, hscan⟩
        rcases Nat.eq_or_lt_of_le he with rfl | hlater
        · exact hseed
        · exact hnone e hlater (by omega)

/-- **The epoch of a seed hash is the first one that has it**, among the first 2000. -/
theorem epochFromSeedHash_cases (seedHash : Hash32) :
    (∃ e < maxEpochScan, seedIterate e = seedHash ∧ (∀ i < e, seedIterate i ≠ seedHash) ∧
        epochFromSeedHash seedHash = BitVec.ofNat 32 e) ∨
      ((∀ e < maxEpochScan, seedIterate e ≠ seedHash) ∧
        epochFromSeedHash seedHash = BitVec.allOnes 32) := by
  rcases scanEpochs_cases seedHash maxEpochScan 0 with ⟨e, -, hlt, he, hfirst, hscan⟩ | hnone
  · exact Or.inl ⟨e, by omega, he, fun i hi => hfirst i (Nat.zero_le _) hi, hscan⟩
  · exact Or.inr ⟨fun e he => hnone.1 e (Nat.zero_le _) (by omega), hnone.2⟩

/-- `e` is the first of the first 2000 epochs with the seed hash. -/
def FirstEpoch (seedHash : Hash32) (e : ℕ) : Prop :=
  e < 2000 ∧ seedIterate e = seedHash ∧ ∀ i < e, seedIterate i ≠ seedHash

lemma FirstEpoch.eq {seedHash : Hash32} {e e' : ℕ} (h : FirstEpoch seedHash e)
    (h' : FirstEpoch seedHash e') : e = e' := by
  rcases lt_trichotomy e e' with hlt | heq | hgt
  · exact absurd h.2.1 (h'.2.2 e hlt)
  · exact heq
  · exact absurd h'.2.1 (h.2.2 e' hgt)

/-- An epoch below 2000 is not what stands for none. -/
lemma ofNat_ne_allOnes {e : ℕ} (h : e < 2000) : BitVec.ofNat 32 e ≠ BitVec.allOnes 32 := by
  intro hall
  have hmax := congrArg BitVec.toNat hall
  rw [BitVec.toNat_ofNat, BitVec.toNat_allOnes] at hmax
  omega

/-- **The scan and the cache agree on the seed of an epoch.**  What is found is the first of the
2000 epochs with the seed hash, and the cache of that epoch starts from this very seed hash;
nothing is found exactly when none of them has it. -/
theorem epochFromSeedHash_iff (seedHash : Hash32) :
    (∀ e : BitVec 32, e ≠ BitVec.allOnes 32 →
        (epochFromSeedHash seedHash = e ↔ FirstEpoch seedHash e.toNat)) ∧
      (∀ e : BitVec 32, e ≠ BitVec.allOnes 32 → epochFromSeedHash seedHash = e →
        epochSeed e = seedHash ∧
          calculateCache e = cacheItems seedHash (cacheItemCount_pos e)) ∧
      (epochFromSeedHash seedHash = BitVec.allOnes 32 ↔
        ∀ e < 2000, seedIterate e ≠ seedHash) := by
  have hiff : ∀ e : BitVec 32, e ≠ BitVec.allOnes 32 →
      (epochFromSeedHash seedHash = e ↔ FirstEpoch seedHash e.toNat) := by
    intro e hne
    rcases epochFromSeedHash_cases seedHash with ⟨e', hlt, heq, hfirst, hfound⟩ | ⟨hnone, hfound⟩
    · have hspec : FirstEpoch seedHash e' := ⟨hlt, heq, hfirst⟩
      rw [hfound]
      constructor
      · rintro rfl
        rw [BitVec.toNat_ofNat, Nat.mod_eq_of_lt (by have := hspec.1; omega)]
        exact hspec
      · intro h
        rw [hspec.eq h, BitVec.ofNat_toNat, BitVec.setWidth_eq]
    · rw [hfound]
      exact ⟨fun h => absurd h.symm hne, fun h => absurd h.2.1 (hnone _ h.1)⟩
  refine ⟨hiff, fun e hne hfound => ?_, ?_⟩
  · have hseed : epochSeed e = seedHash := by
      rw [epochSeed_eq]
      exact ((hiff e hne).mp hfound).2.1
    exact ⟨hseed, by rw [calculateCache, hseed]⟩
  · rcases epochFromSeedHash_cases seedHash with ⟨e', hlt, heq, hfirst, hfound⟩ | ⟨hnone, hfound⟩
    · rw [hfound]
      exact ⟨fun h => absurd h (ofNat_ne_allOnes hlt), fun h => absurd heq (h e' hlt)⟩
    · exact ⟨fun _ => hnone, fun _ => hfound⟩

end OhMyMiner.Ethash
