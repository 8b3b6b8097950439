/-
# The solutions of the kernel on the CPU

The CPU code mixes 16 words where the kernel mixes 32, folds other words together at the end and
hashes the header and the nonce where the kernel hashes the seed hash of the job.  It reproduces
a record of the kernel only where all these differences cancel out.
-/
import OhMyMiner.Ethash.Verify
import OhMyMiner.Search.Correct

namespace OhMyMiner.Search

open Lib Keccak

variable {dagSize : ℕ}

/-- The CPU computes the mix hash and the result of every record that the kernel stores for a
nonce, and finds the record valid for every larger target. -/
def ReproducedByCpu (dag : Vector Byte dagSize) (headerHash seedHash targetBE : Hash32)
    (nonce : BitVec 64) : Prop :=
  ∀ solution, searchThread dag headerHash seedHash targetBE nonce = some (some solution) →
    Ethash.computeHashimoto headerHash solution.nonce dag =
        some (solution.mixHash, solution.result) ∧
      ∀ target, Ethash.resultValue solution.result < target →
        Ethash.verifySolution headerHash solution.nonce solution.mixHash solution.result target =
          true

/-- **The CPU reproduces the records exactly where both digests and both hashes agree**, apart
from the nonces that the kernel does not accept. -/
theorem reproducedByCpu_iff (dag : Vector Byte dagSize) (hdvd : 128 ∣ dagSize)
    (hmin : 128 ≤ dagSize) (hmax : dagSize ≤ 2 ^ 32) (headerHash seedHash targetBE : Hash32)
    (nonce : BitVec 64) :
    ReproducedByCpu dag headerHash seedHash targetBE nonce ↔
      beValue targetBE.toList < beValue (jobHash dag headerHash seedHash nonce).toList ∨
        (Ethash.narrowDigest dag headerHash nonce = mixDigest dag headerHash nonce ∧
          Ethash.narrowHash dag headerHash nonce = jobHash dag headerHash seedHash nonce) := by
  have hthread := searchThread_eq dag ⟨hdvd, hmin, by omega⟩ headerHash seedHash targetBE nonce
  have hcpu := Ethash.computeHashimoto_eq headerHash nonce dag (by omega) hmax
  rw [ReproducedByCpu, hthread]
  by_cases hmiss : beValue targetBE.toList < beValue (jobHash dag headerHash seedHash nonce).toList
  · rw [if_neg (not_le.mpr hmiss)]
    constructor
    · intro _
      exact Or.inl hmiss
    · rintro - solution hsome
      exact absurd hsome (by simp)
  · rw [if_pos (not_lt.mp hmiss)]
    constructor
    · intro hrecords
      obtain ⟨hrecord, -⟩ := hrecords _ rfl
      rw [hcpu] at hrecord
      obtain ⟨hdigest, hhash⟩ := Prod.mk.inj (Option.some.inj hrecord)
      exact Or.inr ⟨hdigest, hhash⟩
    · rintro (hlt | ⟨hdigest, hhash⟩) solution hsome
      · exact absurd hlt hmiss
      obtain rfl := Option.some.inj (Option.some.inj hsome)
      refine ⟨by rw [hcpu, hdigest, hhash], fun target htarget => ?_⟩
      refine Ethash.verifySolution_of_hash ?_ htarget
      rw [← hdigest, ← hhash, Ethash.narrowHash]

/-- The records of three nonces over a DAG of three pages. -/
theorem reproducedByCpu_iff_threePages :
    384 / 128 = 3 ∧ ∀ nonce ∈ ([0, 0x0123456789ABCDEF, 0xFFFFFFFFFFFFFFFF] : List (BitVec 64)),
      ReproducedByCpu threePages (countingHash 1) (countingHash 33) (countingHash 128) nonce ↔
        beValue (countingHash 128).toList <
            beValue (jobHash threePages (countingHash 1) (countingHash 33) nonce).toList ∨
          (Ethash.narrowDigest threePages (countingHash 1) nonce =
              mixDigest threePages (countingHash 1) nonce ∧
            Ethash.narrowHash threePages (countingHash 1) nonce =
              jobHash threePages (countingHash 1) (countingHash 33) nonce) :=
  ⟨rfl, fun nonce _ => reproducedByCpu_iff threePages (by decide) (by decide) (by decide)
    (countingHash 1) (countingHash 33) (countingHash 128) nonce⟩

/-! ## A record that is not reproduced -/

section OnePage

lemma item_zeroDag (p : ℕ) : Ethash.item zeroDag p = Vector.replicate 16 0 := by
  apply Vector.ext
  intro k hk
  rw [Ethash.item, Vector.getElem_ofFn, Vector.getElem_replicate]
  simp only [getD_zeroDag]
  decide

/-- Folding an item of zeros in multiplies every word by the FNV prime. -/
lemma fnvMix_zero (mixWords : Vector (BitVec 32) 16) :
    Ethash.fnvMix mixWords (Vector.replicate 16 0) = mixWords.map fun u => u * 0x01000193 := by
  apply Vector.ext
  intro j hj
  rw [Ethash.fnvMix, getElem_forLoop_set
      (fun i hi u => Ethash.fnv1a u (Vector.replicate 16 (0 : BitVec 32))[i]),
    Vector.getElem_map, Vector.getElem_replicate, Ethash.fnv1a, xor_zero]

lemma narrowMix_zeroDag (headerHash : Hash32) (nonce : BitVec 64) (n : ℕ) :
    Ethash.narrowMix zeroDag headerHash nonce n =
      (Ethash.words32 (keccak512 (Ethash.seedBytes headerHash nonce))).map
        fun u => u * 0x01000193 ^ n := by
  refine eq_map_mul_pow (Ethash.narrowMix zeroDag headerHash nonce) 0x01000193 (fun n => ?_) n
  have hsucc : Ethash.narrowMix zeroDag headerHash nonce (n + 1) =
      Ethash.fnvMix (Ethash.narrowMix zeroDag headerHash nonce n)
        (Ethash.item zeroDag (Ethash.itemIndex (Ethash.dagItems 128) nonce n
          (Ethash.narrowMix zeroDag headerHash nonce n)).toNat) := rfl
  rw [hsucc, item_zeroDag, fnvMix_zero]

lemma digests_zeroDag_ne :
    Ethash.narrowDigest zeroDag (Vector.replicate 32 0) 0 ≠
      mixDigest zeroDag (Vector.replicate 32 0) 0 := by
  have hseed : keccak512 (Ethash.seedBytes (Vector.replicate 32 0) 0) =
      evalDigest 64 (by decide) (List.replicate 40 0) := keccak512_eq_evalDigest (by decide)
  rw [Ethash.narrowDigest, narrowMix_zeroDag, hseed, mixDigest, mixWords, nonceWords,
    nonceSeed_zero, funext page_zeroDag, Nat.div_self (by decide), mixAfter_zero]
  decide +kernel

/-- The nonce 0 meets the largest target, and the CPU computes another digest for it. -/
theorem not_reproducedByCpu_zeroDag :
    ¬ ReproducedByCpu zeroDag (Vector.replicate 32 0) (Vector.replicate 32 0)
      (Vector.replicate 32 0xFF) 0 := by
  intro hrecords
  obtain ⟨hrecord, -⟩ := hrecords _ (searchThread_largest zeroDag validSize_zeroDag _ _ 0)
  rw [Ethash.computeHashimoto_eq _ _ _ (by decide) (by decide)] at hrecord
  exact digests_zeroDag_ne (Prod.mk.inj (Option.some.inj hrecord)).1

end OnePage

end OhMyMiner.Search
