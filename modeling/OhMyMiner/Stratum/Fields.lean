/-
# The texts of hashes and nonces

What goes over the wire as text is written and read by `HexUtils`, but for the nonce of a submit,
which `submitSolution` prints itself.  The decoders accept exactly the texts within their limits,
and every text that is written decodes to what was written.
-/
import OhMyMiner.Stratum.Announce
import OhMyMiner.Utils.HexNumber

namespace OhMyMiner.Stratum

open Lib Utils

/-- The nonce of a submit has all of its sixteen digits. -/
lemma nonceHex_eq (nonce : BitVec 64) : nonceHex nonce = lastDigits 16 nonce := rfl

/-- What is sent for the nonce decodes to the nonce. -/
lemma hexToUint64_nonceHex (nonce old : BitVec 64) :
    hexToUint64 (nonceHex nonce) old = (true, nonce) := by
  rw [nonceHex_eq]
  exact hexToUint64_of_hexText (hexText_lastDigits nonce) old

/-- The fields of a submit decode to the nonce and the digest of the solution, and to the header of
the current job. -/
theorem Session.decode_submitParams (s : Session) (solution : Solution) (oldNonce : BitVec 64)
    (oldHash : Hash32) :
    let params := s.submitParams solution
    hexToUint64 params.nonce oldNonce = (true, solution.nonce) ∧
      hexToHash32 params.mixHash oldHash = (true, solution.mixHash) ∧
      hexToHash32 params.headerHash oldHash = (true, s.client.currentJob.headerHash) :=
  ⟨hexToUint64_nonceHex _ _, (hexToHash_eq_true_iff _ _ _).mpr (denotes_hash32ToHex _ true),
    (hexToHash_eq_true_iff _ _ _).mpr (denotes_hash32ToHex _ true)⟩

/-- Zero is written as one digit, and no digit at all is a hash but no value. -/
example : uint64ToHex 0 true = [0x30, 0x78, 0x30] ∧ (hexToUint64 [0x30, 0x78] 0).1 = false := by
  decide

end OhMyMiner.Stratum
