/-
# The search kernel

One thread of `ethash_search_kernel` (`src/cuda/kernels/search_kernel.cu`): it hashes the header
and its nonce to a seed, mixes 64 pairs of DAG items into the seed, compresses the mix, hashes
it together with the seed hash of the job and compares the result with the target.

The DAG is the buffer of `dagSize` bytes the kernel is launched with; a load outside the buffer,
and a remainder by zero, have no defined result and make the whole thread `none`.
-/
import OhMyMiner.Keccak.Absorb
import OhMyMiner.Types

namespace OhMyMiner.Search

open Lib Keccak

/-- `DeviceSolution`. -/
structure DeviceSolution where
  nonce : BitVec 64
  mixHash : Hash32
  result : Hash32
  deriving DecidableEq

/-- `fnv1a` of the kernels. -/
def fnv1a (a b : BitVec 32) : BitVec 32 := a * 0x01000193 ^^^ b

/-- The eight 32-bit words of a 32-byte parameter. -/
def paramWords (param : Hash32) : Vector (BitVec 32) 8 := ofBytes 32 4 hash32_words param

section Thread

variable {dagSize : ℕ}

/-- The word `((const uint32_t*)&dag[index])[w]` of a buffer of 64-bit words. -/
def dagWord (dag : Vector Byte dagSize) (index w : ℕ) : Option (BitVec 32) :=
  if h : 8 * index + 4 * w + 4 ≤ dagSize then
    some (leWord 32 4 fun b _ => dag[8 * index + 4 * w + b])
  else none

/-- `seed = keccak512(headerHash || nonceLE)`. -/
def seedHashOf (headerHash : Hash32) (nonce : BitVec 64) : Hash64 :=
  let sHeader := paramWords headerHash
  let header : Vector Byte 32 := toBytes 4 hash32_words sHeader
  let seedIn : List Byte := header.toList ++ leBytes 8 nonce
  keccak512Dev seedIn

/-- `((const uint32_t*)seed)[i]`. -/
def seedWords (seed : Hash64) : Vector (BitVec 32) 16 := ofBytes 32 4 hash64_words seed

/-- `mix[i] = mix[i + 16] = ((const uint32_t*)seed)[i]`. -/
def initMix (seed : Vector (BitVec 32) 16) : Vector (BitVec 32) 32 :=
  forLoop 16 (Vector.replicate 32 0) fun i _ mix =>
    let mix := mix.set i seed[i]
    mix.set (i + 16) seed[i]

/-- `fnv1a(i ^ s0, mix[i % MIX_WORDS]) % DAG_PAIRS`. -/
def pairIndex (dagPairs s0 : BitVec 32) (i : ℕ) (mix : Vector (BitVec 32) 32) : BitVec 32 :=
  fnv1a (BitVec.ofNat 32 i ^^^ s0) mix[i % 32] % dagPairs

/-- `(pairIndex * 2u) * 8u`, the index of the first item of a pair. -/
def itemIndex₀ (pairIndex : BitVec 32) : BitVec 32 := pairIndex * 2 * 8

/-- `(pairIndex * 2u + 1u) * 8u`, the index of the second item of a pair. -/
def itemIndex₁ (pairIndex : BitVec 32) : BitVec 32 := (pairIndex * 2 + 1) * 8

/-- One DAG access: fold the first item of the pair into `mix[0..15]`, the second into
`mix[16..31]`. -/
def mixPair (dag : Vector Byte dagSize) (pairIndex : BitVec 32) (mix : Vector (BitVec 32) 32) :
    Option (Vector (BitVec 32) 32) :=
  forLoop 16 (some mix) fun w _ mix => do
    let mix ← mix
    let item₀ ← dagWord dag (itemIndex₀ pairIndex).toNat w
    let mix := mix.set w (fnv1a mix[w] item₀)
    let item₁ ← dagWord dag (itemIndex₁ pairIndex).toNat w
    return mix.set (w + 16) (fnv1a mix[w + 16] item₁)

/-- `const uint32_t DAG_PAIRS = dagSize / 128`. -/
def dagPairs (dagSize : ℕ) : BitVec 32 := BitVec.ofNat 32 (dagSize / 128)

/-- The mix after the first `n` of the 64 accesses. -/
def mixAccesses (dag : Vector Byte dagSize) (seed : Vector (BitVec 32) 16) (n : ℕ) :
    Option (Vector (BitVec 32) 32) :=
  forLoop n (some (initMix seed)) fun i _ mix => do
    let mix ← mix
    if dagPairs dagSize = 0 then none
    else mixPair dag (pairIndex (dagPairs dagSize) (firstWord seed) i mix) mix

/-- The compression: each word is the fold of four consecutive words of the mix. -/
def compressMix (mix : Vector (BitVec 32) 32) : Vector (BitVec 32) 8 :=
  forLoop 8 (Vector.replicate 8 0) fun i _ compressed =>
    let compressed := compressed.set i (fnv1a mix[i * 4] mix[i * 4 + 1])
    let compressed := compressed.set i (fnv1a compressed[i] mix[i * 4 + 2])
    compressed.set i (fnv1a compressed[i] mix[i * 4 + 3])

/-- The compressed mix of a nonce. -/
def compressedMix (dag : Vector Byte dagSize) (headerHash : Hash32) (nonce : BitVec 64) :
    Option (Vector (BitVec 32) 8) := do
  let mix ← mixAccesses dag (seedWords (seedHashOf headerHash nonce)) 64
  return compressMix mix

/-- The last hash: the compressed mix, then the seed hash of the job. -/
def resultHash (compressed : Vector (BitVec 32) 8) (seedHash : Hash32) : Hash32 :=
  let sSeedHash := paramWords seedHash
  let first : Vector Byte 32 := toBytes 4 hash32_words compressed
  let second : Vector Byte 32 := toBytes 4 hash32_words sSeedHash
  keccak256Dev (first.toList ++ second.toList)

/-- The comparison with the target: the loop breaks as soon as `cmp` is not zero. -/
def compareTarget (resultHash targetBE : Hash32) : ℤ :=
  forLoop 32 0 fun i _ cmp =>
    if cmp ≠ 0 then cmp
    else
      let a := resultHash[i]
      let b := targetBE[i]
      if a < b then -1 else if b < a then 1 else 0

/-- The solution that a thread stores, if it accepts its nonce.  Whether the solution array still
has room is a matter of the whole launch. -/
def storeSolution (compressed : Vector (BitVec 32) 8) (seedHash targetBE : Hash32)
    (nonce : BitVec 64) : Option DeviceSolution :=
  let result := resultHash compressed seedHash
  if compareTarget result targetBE ≤ 0 then
    some { nonce := nonce, mixHash := toBytes 4 hash32_words compressed, result := result }
  else none

/-- One thread of `ethash_search_kernel`. -/
def searchThread (dag : Vector Byte dagSize) (headerHash seedHash targetBE : Hash32)
    (nonce : BitVec 64) : Option (Option DeviceSolution) := do
  let compressed ← compressedMix dag headerHash nonce
  return storeSolution compressed seedHash targetBE nonce

end Thread

end OhMyMiner.Search
