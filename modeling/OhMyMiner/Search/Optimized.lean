/-
# The optimized search kernel

`ethash_search_kernel_optimized` (`src/cuda/kernels/search_kernel.cu`) tests several nonces a
thread.  What it does with a nonce is written out a second time there: it widens the index of the
first DAG item to 64 bits before it adds the eight words to the second one, and its comparison
loop ends on another condition.  The hashes and the compression are word for word those of
`ethash_search_kernel`.
-/
import OhMyMiner.Search.Kernel

namespace OhMyMiner.Search

open Lib Keccak

variable {dagSize : ℕ}

/-! ## The code -/

/-- `uint64_t dagOffset = (pairIndex * 2u) * 8u`. -/
def dagOffset (pairIndex : BitVec 32) : BitVec 64 := (pairIndex * 2 * 8).setWidth 64

/-- `mix[w] = fnv1a(mix[w], word)`. -/
def mixWord (mix : Vector (BitVec 32) 32) (w : Fin 32) (word : BitVec 32) :
    Vector (BitVec 32) 32 :=
  mix.set w.1 (fnv1a (mix.get w) word) w.2

/-- One DAG access. -/
def mixPairOptimized (dag : Vector Byte dagSize) (pairIndex : BitVec 32)
    (mix : Vector (BitVec 32) 32) : Option (Vector (BitVec 32) 32) :=
  forLoop 16 (some mix) fun w hw mix => do
    let mix ← mix
    let item₀ ← dagWord dag (dagOffset pairIndex).toNat w
    let mix := mixWord mix (Fin.castAdd 16 ⟨w, hw⟩) item₀
    let item₁ ← dagWord dag (dagOffset pairIndex + 8).toNat w
    return mixWord mix (Fin.addNat ⟨w, hw⟩ 16) item₁

/-- The mix after the first `n` of the 64 accesses. -/
def mixAccessesOptimized (dag : Vector Byte dagSize) (seed : Vector (BitVec 32) 16) (n : ℕ) :
    Option (Vector (BitVec 32) 32) :=
  forLoop n (some (initMix seed)) fun i _ mix => do
    let mix ← mix
    if dagPairs dagSize = 0 then none
    else mixPairOptimized dag (pairIndex (dagPairs dagSize) (firstWord seed) i mix) mix

/-- The comparison with the target: the loop ends when `cmp` is not zero. -/
def compareTargetOptimized (resultHash targetBE : Hash32) : ℤ :=
  forLoop 32 0 fun i _ cmp =>
    if cmp = 0 then
      if resultHash[i] < targetBE[i] then -1
      else if targetBE[i] < resultHash[i] then 1
      else cmp
    else cmp

/-- What a thread does with one of its nonces. -/
def searchNonceOptimized (dag : Vector Byte dagSize) (headerHash seedHash targetBE : Hash32)
    (nonce : BitVec 64) : Option (Option DeviceSolution) := do
  let mix ← mixAccessesOptimized dag (seedWords (seedHashOf headerHash nonce)) 64
  let compressed := compressMix mix
  let result := resultHash compressed seedHash
  return if compareTargetOptimized result targetBE ≤ 0 then
    some { nonce := nonce, mixHash := toBytes 4 hash32_words compressed, result := result }
  else none

/-! ## The two kernels agree on every nonce -/

/-- The index of the first item is a multiple of 16, so that adding 8 does not carry out of its
32 bits. -/
lemma toNat_dagOffset (pairIndex : BitVec 32) :
    (dagOffset pairIndex).toNat = (itemIndex₀ pairIndex).toNat ∧
      (dagOffset pairIndex + 8).toNat = (itemIndex₁ pairIndex).toNat := by
  have h₁ : (1 : BitVec 32).toNat = 1 := rfl
  have h₂ : (2 : BitVec 32).toNat = 2 := rfl
  have h₈ : (8 : BitVec 32).toNat = 8 := rfl
  have hwide : (8 : BitVec 64).toNat = 8 := rfl
  rw [itemIndex₁, BitVec.toNat_add, hwide, dagOffset, itemIndex₀, BitVec.toNat_setWidth,
    BitVec.toNat_mul, BitVec.toNat_mul, BitVec.toNat_mul, BitVec.toNat_add, BitVec.toNat_mul, h₁,
    h₂, h₈]
  omega

lemma mixPairOptimized_eq (dag : Vector Byte dagSize) (pairIndex : BitVec 32)
    (mix : Vector (BitVec 32) 32) :
    mixPairOptimized dag pairIndex mix = mixPair dag pairIndex mix := by
  obtain ⟨hfirst, hsecond⟩ := toNat_dagOffset pairIndex
  rw [mixPairOptimized, mixPair]
  refine forLoop_congr fun w hw mix => ?_
  cases mix with
  | none => simp only [Option.bind_eq_bind, Option.bind_none]
  | some mix =>
    have hlow : ∀ word, mixWord mix (Fin.castAdd 16 ⟨w, hw⟩) word =
        mix.set w (fnv1a mix[w] word) := fun _ => rfl
    have hhigh : ∀ (mix : Vector (BitVec 32) 32) word, mixWord mix (Fin.addNat ⟨w, hw⟩ 16) word =
        mix.set (w + 16) (fnv1a mix[w + 16] word) := fun _ _ => rfl
    simp only [Option.bind_eq_bind, Option.bind_some, hfirst, hsecond, hlow, hhigh]

lemma mixAccessesOptimized_eq (dag : Vector Byte dagSize) (seed : Vector (BitVec 32) 16) (n : ℕ) :
    mixAccessesOptimized dag seed n = mixAccesses dag seed n := by
  rw [mixAccessesOptimized, mixAccesses]
  refine forLoop_congr fun i _ mix => ?_
  cases mix with
  | none => simp only [Option.bind_eq_bind, Option.bind_none]
  | some mix => simp only [Option.bind_eq_bind, Option.bind_some, mixPairOptimized_eq]

lemma compareTargetOptimized_eq (resultHash targetBE : Hash32) :
    compareTargetOptimized resultHash targetBE = compareTarget resultHash targetBE := by
  rw [compareTargetOptimized, compareTarget]
  refine forLoop_congr fun i hi cmp => ?_
  by_cases hcmp : cmp = 0
  · subst hcmp
    rw [if_pos rfl, if_neg (not_not_intro rfl)]
  · rw [if_neg hcmp, if_pos hcmp]

/-- **Both kernels do the same with every nonce**, over every DAG: they load the same words, and
where one of them leaves the DAG, so does the other. -/
theorem searchNonceOptimized_eq (dag : Vector Byte dagSize)
    (headerHash seedHash targetBE : Hash32) (nonce : BitVec 64) :
    searchNonceOptimized dag headerHash seedHash targetBE nonce =
      searchThread dag headerHash seedHash targetBE nonce := by
  rw [searchNonceOptimized, searchThread, compressedMix, mixAccessesOptimized_eq]
  cases mixAccesses dag (seedWords (seedHashOf headerHash nonce)) 64 with
  | none => simp only [Option.bind_eq_bind, Option.bind_none]
  | some mix =>
    simp only [Option.bind_eq_bind, Option.bind_some, compareTargetOptimized_eq, storeSolution]
    rfl

end OhMyMiner.Search
