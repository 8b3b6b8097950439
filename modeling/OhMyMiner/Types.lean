/-
# The common types of the miner
-/
import OhMyMiner.Lib.Bytes

namespace OhMyMiner

open Lib

/-- `hash32_t`. -/
abbrev Hash32 : Type := Vector Byte 32

/-- `hash64_t`. -/
abbrev Hash64 : Type := Vector Byte 64

lemma hash32_words : 32 = 8 * 4 := rfl
lemma hash64_words : 64 = 16 * 4 := rfl
lemma hash64_lanes : 64 = 8 * 8 := rfl

/-- A hash of 32 bytes that count up. -/
def countingHash (first : ℕ) : Hash32 := Vector.ofFn fun i => BitVec.ofNat 8 (first + i)

/-- A mining job. -/
structure MiningJob where
  jobId : String
  seedHash : Hash32
  headerHash : Hash32
  target : BitVec 64
  blockNumber : BitVec 64
  epoch : BitVec 32
  deriving DecidableEq

/-- A mining solution. -/
structure Solution where
  nonce : BitVec 64
  mixHash : Hash32
  result : Hash32
  jobId : String
  deriving DecidableEq

end OhMyMiner
