/-
# From difficulty to target

A pool announces a 64-bit share difficulty; a hash is a share when its big-endian value is at
most the boundary `⌊(2^256 - 1) / difficulty⌋`.  The function that computes the boundary has a
case for the difficulties 1 and 2 and fills in the largest target for the others.
-/
import OhMyMiner.Lib.Bytes

namespace OhMyMiner.Utils

open Lib

/-- `targetFromDifficulty`: the 32 bytes written to `target`. -/
def targetFromDifficulty (difficulty : BitVec 64) : Vector Byte 32 :=
  if difficulty = 1 then Vector.replicate 32 0xFF
  else if difficulty = 2 then (Vector.replicate 32 0).set 0 0x80
  else Vector.replicate 32 0xFF

/-- The 256-bit boundary of a share difficulty, as the header of the function documents it. -/
def shareBoundary (difficulty : BitVec 64) : ℕ :=
  if difficulty = 0 then 2 ^ 256 - 1 else (2 ^ 256 - 1) / difficulty.toNat

/-! ## The targets that are written -/

lemma beValue_target_two : beValue (targetFromDifficulty 2).toList = 2 ^ 255 := by
  have hbytes : (targetFromDifficulty 2).toList = 0x80 :: List.replicate 31 0 := rfl
  rw [hbytes, beValue_cons, beValue_replicate_zero, List.length_replicate]
  rfl

lemma beValue_target_of_ne_two {difficulty : BitVec 64} (h : difficulty ≠ 2) :
    beValue (targetFromDifficulty difficulty).toList = 2 ^ 256 - 1 := by
  have hbytes : (targetFromDifficulty difficulty).toList = List.replicate 32 0xFF := by
    rw [targetFromDifficulty, if_neg h, ite_self]
    rfl
  rw [hbytes, beValue_replicate_ff]
  rfl

lemma shareBoundary_of_ne_zero {difficulty : BitVec 64} (h : difficulty ≠ 0) :
    shareBoundary difficulty = (2 ^ 256 - 1) / difficulty.toNat := if_neg h

/-- A boundary that is divided by at least two is not the largest target. -/
lemma shareBoundary_lt {difficulty : BitVec 64} (h : 1 < difficulty.toNat) :
    shareBoundary difficulty < 2 ^ 256 - 1 := by
  have hne : difficulty ≠ 0 := by
    rintro rfl
    exact absurd h (by decide)
  rw [shareBoundary_of_ne_zero hne]
  exact Nat.div_lt_self (by norm_num) h

/-- **The target is the boundary of the difficulties 0 and 1 only.** -/
theorem targetFromDifficulty_eq_iff (difficulty : BitVec 64) :
    beValue (targetFromDifficulty difficulty).toList = shareBoundary difficulty ↔
      difficulty = 0 ∨ difficulty = 1 := by
  constructor
  · intro heq
    by_contra hne
    obtain ⟨h₀, h₁⟩ := not_or.mp hne
    have hlt : 1 < difficulty.toNat := by
      have : difficulty.toNat ≠ 0 := fun h => h₀ (BitVec.eq_of_toNat_eq h)
      have : difficulty.toNat ≠ 1 := fun h => h₁ (BitVec.eq_of_toNat_eq h)
      omega
    by_cases h₂ : difficulty = 2
    · -- `⌊(2^256 - 1) / 2⌋` is one less than the `2^255` written
      subst h₂
      have htwo : (2 : BitVec 64).toNat = 2 := rfl
      rw [beValue_target_two, shareBoundary_of_ne_zero h₀, htwo] at heq
      exact absurd heq (by norm_num)
    · rw [beValue_target_of_ne_two h₂] at heq
      exact (shareBoundary_lt hlt).ne' heq
  · rintro (rfl | rfl)
    · rw [beValue_target_of_ne_two (by decide)]
      rfl
    · have hone : (1 : BitVec 64).toNat = 1 := rfl
      rw [beValue_target_of_ne_two (by decide), shareBoundary_of_ne_zero (by decide), hone,
        Nat.div_one]

/-- A share difficulty of 4 gives the target that every hash meets. -/
theorem targetFromDifficulty_four :
    ¬ beValue (targetFromDifficulty 4).toList = shareBoundary 4 := by
  rw [beValue_target_of_ne_two (by decide)]
  exact (shareBoundary_lt (by decide)).ne'

end OhMyMiner.Utils
