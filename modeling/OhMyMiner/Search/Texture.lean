/-
# The texture kernel

`ethash_search_kernel_texture` (`src/cuda/kernels/search_kernel.cu`) is the third search kernel,
and `launch_search_kernel` (`src/cuda/kernels/kernel_launcher.cpp`) starts it if it is asked for
and has a texture object.  It writes out the search of a nonce once more, and in many places
otherwise than `ethash_search_kernel`: it puts the two copies of a seed word next to each other,
looks at the first 16 words of the mix only, selects one of 256 pages whatever the size of the DAG,
folds the low halves of the 64-bit words of a page into one half of the mix and the high halves
into the other, and hashes the seed behind the mix instead of the seed hash of the job.

So the two kernels do not compute the same.  Over DAGs whose pages are all the same it does not
matter which pages they select, and their mixes can be compared: one word of such a page changes
the first word of the digest in one kernel and not in the other.
-/
import OhMyMiner.Search.Correct
import OhMyMiner.Search.Optimized

namespace OhMyMiner.Search

open Lib Keccak

variable {dagSize : ℕ}

/-! ## The code -/

/-- `uint2`. -/
structure Texel where
  x : BitVec 32
  y : BitVec 32

/-- `((uint64_t)texel.y << 32) | texel.x`. -/
def dagValue (texel : Texel) : BitVec 64 := texel.y.setWidth 64 <<< 32 ||| texel.x.setWidth 64

/-- `uint64_t seed[8]`. -/
def seedLanes (seed : Hash64) : Vector (BitVec 64) 8 := ofBytes 64 8 hash64_lanes seed

/-- `mix[i * 2] = mix[i * 2 + 1] = ((uint32_t*)seed)[i]`. -/
def initMixTexture (seed : Vector (BitVec 32) 16) : Vector (BitVec 32) 32 :=
  forLoop 16 (Vector.replicate 32 0) fun i _ mix =>
    let mix := mix.set (i * 2) seed[i]
    mix.set (i * 2 + 1) seed[i]

/-- `fnv1a(seed[0] ^ round, mix[round % 16]) % numParents`: the first argument is truncated to 32
bits. -/
def parentIndex (seed : Vector (BitVec 64) 8) (round : ℕ) (mix : Vector (BitVec 32) 32) :
    BitVec 32 :=
  fnv1a ((seed[0] ^^^ BitVec.ofNat 64 round).setWidth 32) mix[round % 16] % 256

/-- One round; `tex1Dfetch` is what the texture returns for an index. -/
def mixRound (tex1Dfetch : ℕ → Texel) (parentIndex : BitVec 32) (mix : Vector (BitVec 32) 32) :
    Vector (BitVec 32) 32 :=
  let dagIdx : BitVec 64 := parentIndex.setWidth 64 * 16
  forLoop 16 mix fun j hj mix =>
    have hlow := lt_words hj
    have hhigh := add_lt_words hj
    let value := dagValue (tex1Dfetch (dagIdx + BitVec.ofNat 64 j).toNat)
    let mix := mix.set j (fnv1a mix[j] (value.setWidth 32))
    mix.set (j + 16) (fnv1a mix[j + 16] ((value >>> 32).setWidth 32))

/-- The mix after the first `n` of the 64 rounds. -/
def mixRounds (tex1Dfetch : ℕ → Texel) (seed : Hash64) (n : ℕ) : Vector (BitVec 32) 32 :=
  forLoop n (initMixTexture (seedWords seed)) fun round _ mix =>
    mixRound tex1Dfetch (parentIndex (seedLanes seed) round mix) mix

/-- The compressed mix of a nonce. -/
def compressedMixTexture (tex1Dfetch : ℕ → Texel) (headerHash : Hash32) (nonce : BitVec 64) :
    Vector (BitVec 32) 8 :=
  compressMix (mixRounds tex1Dfetch (seedHashOf headerHash nonce) 64)

/-- The last hash: the compressed mix, then the seed of the nonce. -/
def resultHashTexture (compressed : Vector (BitVec 32) 8) (seed : Hash64) : Hash32 :=
  let first : Vector Byte 32 := toBytes 4 hash32_words compressed
  keccak256Dev (first.toList ++ seed.toList)

/-- What a thread does with one of its nonces; the comparison loop is that of the optimized
kernel. -/
def searchNonceTexture (tex1Dfetch : ℕ → Texel) (headerHash targetBE : Hash32)
    (nonce : BitVec 64) : Option DeviceSolution :=
  let compressed := compressedMixTexture tex1Dfetch headerHash nonce
  let result := resultHashTexture compressed (seedHashOf headerHash nonce)
  if compareTargetOptimized result targetBE ≤ 0 then
    some { nonce := nonce, mixHash := toBytes 4 hash32_words compressed, result := result }
  else none

/-- `KernelVariant`. -/
inductive KernelVariant where
  | auto
  | base
  | optimized
  | texture
  deriving DecidableEq

/-- The fields of `KernelEnvConfig` that choose a kernel. -/
structure VariantConfig where
  useOptimized : Bool
  useTexture : Bool

/-- "Resolve variant". -/
def resolveVariant (cfg : VariantConfig) (variant : KernelVariant) : KernelVariant :=
  if variant = .auto then
    if cfg.useTexture then .texture
    else if cfg.useOptimized then .optimized
    else .base
  else variant

/-- The kernel that `launch_search_kernel` starts.  Without a texture object it falls back to one
of the other two. -/
def launchedKernel (cfg : VariantConfig) (variant : KernelVariant) (texDAG : BitVec 64) :
    KernelVariant :=
  match resolveVariant cfg variant with
  | .texture =>
    if texDAG = 0 then
      if cfg.useOptimized then .optimized else .base
    else .texture
  | .optimized => .optimized
  | .base => .base
  | .auto => .base

/-- What a kernel does with a nonce. -/
def searchNonce (kernel : KernelVariant) (dag : Vector Byte dagSize) (tex1Dfetch : ℕ → Texel)
    (headerHash seedHash targetBE : Hash32) (nonce : BitVec 64) : Option (Option DeviceSolution) :=
  match kernel with
  | .texture => some (searchNonceTexture tex1Dfetch headerHash targetBE nonce)
  | .optimized => searchNonceOptimized dag headerHash seedHash targetBE nonce
  | .base => searchThread dag headerHash seedHash targetBE nonce
  | .auto => searchThread dag headerHash seedHash targetBE nonce

/-- The texture holds the DAG: its `k`-th texel is the `k`-th 64-bit word. -/
def Fetches (tex1Dfetch : ℕ → Texel) (dag : Vector Byte dagSize) : Prop :=
  ∀ k, 8 * k + 8 ≤ dagSize →
    dagWord dag k 0 = some (tex1Dfetch k).x ∧ dagWord dag k 1 = some (tex1Dfetch k).y

/-! ## Folding the same page again and again -/

/-- A word of the mix into which the same word is folded `n` times. -/
def foldWord (word : BitVec 32) (n : ℕ) (u : BitVec 32) : BitVec 32 :=
  (fun u => fnv1a u word)^[n] u

/-- The low bits of the words decide about the low bits of what is folded. -/
lemma foldWord_setWidth (word : BitVec 32) (n : ℕ) (u : BitVec 32) :
    (foldWord word n u).setWidth 7 =
      (fun v => v * 0x13 ^^^ word.setWidth 7)^[n] (u.setWidth 7) := by
  have hstep : Function.Semiconj (fun u : BitVec 32 => u.setWidth 7) (fun u => fnv1a u word)
      (fun v => v * 0x13 ^^^ word.setWidth 7) := by
    intro u
    show (u * 0x01000193 ^^^ word).setWidth 7 = u.setWidth 7 * 0x13 ^^^ word.setWidth 7
    rw [BitVec.setWidth_xor, BitVec.setWidth_mul _ _ (by decide)]
    rfl
  exact (hstep.iterate_right n) u

/-- Folding in 1 goes once around the residues modulo 128 in 128 steps, and folding in 0 comes
back to every residue within 64. -/
lemma foldWord_ne (u : BitVec 32) : foldWord 1 64 u ≠ foldWord 0 64 u := by
  have hlow : ∀ v : BitVec 7, (fun v : BitVec 7 => v * 0x13 ^^^ 1)^[64] v ≠
      (fun v : BitVec 7 => v * 0x13 ^^^ 0)^[64] v := by
    decide +kernel
  intro heq
  have hwidth := congrArg (BitVec.setWidth 7) heq
  rw [foldWord_setWidth, foldWord_setWidth] at hwidth
  exact hlow _ hwidth

lemma fnv1a_left_cancel {a a' b : BitVec 32} (h : fnv1a a b = fnv1a a' b) : a = a' := by
  have hinv : (0x01000193 : BitVec 32) * 0x359C449B = 1#32 := by decide
  have hmul : a * 0x01000193 = a' * 0x01000193 := (BitVec.xor_left_inj b).mp h
  calc a = a * 0x01000193 * 0x359C449B := by rw [BitVec.mul_assoc, hinv, BitVec.mul_one]
    _ = a' * 0x01000193 * 0x359C449B := by rw [hmul]
    _ = a' := by rw [BitVec.mul_assoc, hinv, BitVec.mul_one]

/-! ## The rounds of the texture kernel -/

lemma setWidth_dagValue (texel : Texel) : (dagValue texel).setWidth 32 = texel.x := by
  ext i hi
  simp [dagValue]

lemma setWidth_dagValue_high (texel : Texel) :
    (dagValue texel >>> 32).setWidth 32 = texel.y := by
  ext i hi
  have h₁ : 32 + i < 64 := by omega
  have h₂ : i < 64 := by omega
  simp [dagValue, hi, h₁, h₂]

/-! ## A DAG whose pages are all the same -/

/-- The DAG. -/
def pagesDag (words : Vector (BitVec 32) 32) : Vector Byte dagSize :=
  Vector.ofFn fun b => byteAt words[b.1 % 128 / 4] (b.1 % 4)

/-- A texture that holds it, and goes on behind its end. -/
def pagesTexture (words : Vector (BitVec 32) 32) (k : ℕ) : Texel :=
  { x := words[2 * k % 32], y := words[(2 * k + 1) % 32] }

/-- The words of a page in the order in which the texture kernel reads them. -/
def unzipWords (words : Vector (BitVec 32) 32) : Vector (BitVec 32) 32 :=
  Vector.ofFn fun j => words[(2 * j.1 + j.1 / 16) % 32]

/-- A mix into which the same page is folded `n` times. -/
def foldPages (words : Vector (BitVec 32) 32) (n : ℕ) (mix : Vector (BitVec 32) 32) :
    Vector (BitVec 32) 32 :=
  forLoop n mix fun _ _ mix => Vector.zipWith Hashimoto.fnv mix words

section Pages

variable (words : Vector (BitVec 32) 32)

lemma getElem_foldPages (n : ℕ) (mix : Vector (BitVec 32) 32) {j : ℕ} (hj : j < 32) :
    (foldPages words n mix)[j] = foldWord words[j] n mix[j] := by
  induction n with
  | zero => rfl
  | succ n ih =>
    rw [foldPages, forLoop_succ, Vector.getElem_zipWith, foldWord, Function.iterate_succ_apply']
    exact congrArg (fun u => fnv1a u words[j]) ih

lemma dagWord_pagesDag {index w k : ℕ} (hk : k < 32) (hindex : (2 * index + w) % 32 = k)
    (h : 8 * index + 4 * w + 4 ≤ dagSize) :
    dagWord (pagesDag words : Vector Byte dagSize) index w = some words[k] := by
  rw [dagWord, dif_pos h, ← leWord_byteAt (by decide : 32 ≤ 8 * 4) words[k]]
  refine congrArg some (leWord_congr fun b hb => ?_)
  have hword : (8 * index + 4 * w + b) % 128 / 4 = k := by omega
  have hbyte : (8 * index + 4 * w + b) % 4 = b := by omega
  simp only [pagesDag, Vector.getElem_ofFn, hword, hbyte]

lemma fetches_pages : Fetches (pagesTexture words) (pagesDag words : Vector Byte dagSize) :=
  fun k hk => ⟨dagWord_pagesDag words _ (by omega) (by omega),
    dagWord_pagesDag words _ (by omega) (by omega)⟩

/-- An access of the base kernel, whatever its index. -/
lemma mixPair_pagesDag {p : BitVec 32} (hp : 128 * p.toNat + 128 ≤ dagSize)
    (mix : Vector (BitVec 32) 32) :
    mixPair (pagesDag words : Vector Byte dagSize) p mix =
      some (Vector.zipWith Hashimoto.fnv mix words) := by
  have hitem₀ := toNat_itemIndex₀_mod p
  have hitem₁ := toNat_itemIndex₁_mod p
  rw [← forLoop_foldPage]
  refine forLoop_some fun w hw mix => ?_
  have hword₀ : dagWord (pagesDag words : Vector Byte dagSize) (itemIndex₀ p).toNat w =
      some words[w] := dagWord_pagesDag words _ (by omega) (by omega)
  have hword₁ : dagWord (pagesDag words : Vector Byte dagSize) (itemIndex₁ p).toNat w =
      some words[w + 16] := dagWord_pagesDag words _ (by omega) (by omega)
  rw [hword₀, hword₁]
  rfl

lemma mixAccesses_pagesDag (hpairs : dagPairs dagSize ≠ 0) (seed : Vector (BitVec 32) 16)
    (n : ℕ) :
    mixAccesses (pagesDag words : Vector Byte dagSize) seed n =
      some (foldPages words n (initMix seed)) := by
  rw [mixAccesses, foldPages]
  refine forLoop_some fun i _ mix => ?_
  have hlt : (pairIndex (dagPairs dagSize) (firstWord seed) i mix).toNat <
      (dagPairs dagSize).toNat := by
    rw [pairIndex, BitVec.toNat_umod]
    exact Nat.mod_lt _ (Nat.pos_of_ne_zero fun h => hpairs (BitVec.eq_of_toNat_eq h))
  have hle : (dagPairs dagSize).toNat ≤ dagSize / 128 := by
    rw [dagPairs, BitVec.toNat_ofNat]
    exact Nat.mod_le _ _
  exact (if_neg hpairs).trans (mixPair_pagesDag words (by omega) mix)

lemma getElem_unzipWords {j k : ℕ} (hj : j < 32) (hk : k < 32) (h : (2 * j + j / 16) % 32 = k) :
    (unzipWords words)[j] = words[k] := by
  subst h
  simp [unzipWords]

lemma pagesTexture_page {j : ℕ} (hj : j < 16) (parent : ℕ) :
    pagesTexture words (16 * parent + j) =
      { x := words[2 * j], y := words[2 * j + 1] } := by
  have hx : 2 * (16 * parent + j) % 32 = 2 * j := by omega
  have hy : (2 * (16 * parent + j) + 1) % 32 = 2 * j + 1 := by omega
  simp only [pagesTexture, hx, hy]

/-- A round of the texture kernel, whatever its index. -/
lemma mixRound_pagesTexture (parent : BitVec 32) (mix : Vector (BitVec 32) 32) :
    mixRound (pagesTexture words) parent mix =
      Vector.zipWith Hashimoto.fnv mix (unzipWords words) := by
  rw [← forLoop_foldPage, mixRound]
  refine forLoop_congr fun j hj mix => ?_
  have hlow : (2 * j + j / 16) % 32 = 2 * j := by
    have hdiv : j / 16 = 0 := by omega
    omega
  have hhigh : (2 * (j + 16) + (j + 16) / 16) % 32 = 2 * j + 1 := by
    have hdiv : (j + 16) / 16 = 1 := by omega
    omega
  have hlt := parent.isLt
  have h₁₆ : (16 : BitVec 64).toNat = 16 := rfl
  have hindex : (parent.setWidth 64 * 16 + BitVec.ofNat 64 j).toNat = 16 * parent.toNat + j := by
    rw [BitVec.toNat_add, BitVec.toNat_mul, BitVec.toNat_setWidth, BitVec.toNat_ofNat, h₁₆]
    omega
  rw [hindex, pagesTexture_page words hj]
  dsimp only
  rw [setWidth_dagValue, setWidth_dagValue_high,
    getElem_unzipWords words (by omega) (by omega) hlow,
    getElem_unzipWords words (by omega) (by omega) hhigh]

lemma mixRounds_pagesTexture (seed : Hash64) (n : ℕ) :
    mixRounds (pagesTexture words) seed n =
      foldPages (unzipWords words) n (initMixTexture (seedWords seed)) := by
  rw [mixRounds, foldPages]
  exact forLoop_congr fun round _ mix => mixRound_pagesTexture words _ mix

end Pages

/-! ## The two digests differ -/

/-- A page of zeros. -/
def zeroPage : Vector (BitVec 32) 32 := Vector.replicate 32 0

/-- A page whose second word is 1. -/
def markedPage : Vector (BitVec 32) 32 := zeroPage.set 1 1

lemma getElem_compressMix (mix : Vector (BitVec 32) 32) {i : ℕ} (hi : i < 8) :
    (compressMix mix)[i] =
      fnv1a (fnv1a (fnv1a mix[4 * i] mix[4 * i + 1]) mix[4 * i + 2]) mix[4 * i + 3] := by
  rw [compressMix_eq, Hashimoto.compress, Vector.getElem_ofFn]
  rfl

/-- The base kernel folds the second word of a page into the second word of the mix. -/
lemma getElem_compressMix_base_ne (mix : Vector (BitVec 32) 32) :
    (compressMix (foldPages markedPage 64 mix))[0] ≠
      (compressMix (foldPages zeroPage 64 mix))[0] := by
  intro hfirst
  simp only [getElem_compressMix, getElem_foldPages] at hfirst
  have hsecond := fnv1a_left_cancel (fnv1a_left_cancel hfirst)
  exact foldWord_ne _ ((BitVec.xor_right_inj _).mp hsecond)

/-- The texture kernel folds it into another word. -/
lemma getElem_compressMix_texture (mix : Vector (BitVec 32) 32) :
    (compressMix (foldPages (unzipWords markedPage) 64 mix))[0] =
      (compressMix (foldPages (unzipWords zeroPage) 64 mix))[0] := by
  have hword : ∀ j (hj : j < 4), (unzipWords markedPage)[j] = (unzipWords zeroPage)[j] := by decide
  simp only [getElem_compressMix, getElem_foldPages]
  rw [hword 0 (by decide), hword 1 (by decide), hword 2 (by decide), hword 3 (by decide)]

lemma dagPairs_ne_zero_of_some {dag : Vector Byte dagSize} {headerHash : Hash32}
    {nonce : BitVec 64} {compressed : Vector (BitVec 32) 8}
    (h : compressedMix dag headerHash nonce = some compressed) : dagPairs dagSize ≠ 0 := by
  intro hzero
  have hnone : mixAccesses dag (seedWords (seedHashOf headerHash nonce)) 64 = none := by
    rw [mixAccesses, forLoop_succ]
    simp [hzero]
  rw [compressedMix, hnone] at h
  simp at h

lemma compressedMix_pagesDag (words : Vector (BitVec 32) 32) (hpairs : dagPairs dagSize ≠ 0)
    (headerHash : Hash32) (nonce : BitVec 64) :
    compressedMix (pagesDag words : Vector Byte dagSize) headerHash nonce =
      some (compressMix
        (foldPages words 64 (initMix (seedWords (seedHashOf headerHash nonce))))) := by
  rw [compressedMix, mixAccesses_pagesDag words hpairs]
  rfl

/-- For every header and every nonce there is a DAG, of any size, over which the kernels compute
different digests. -/
lemma exists_compressedMix_ne (dagSize : ℕ) (headerHash : Hash32) (nonce : BitVec 64) :
    ∃ (dag : Vector Byte dagSize) (tex1Dfetch : ℕ → Texel), Fetches tex1Dfetch dag ∧
      compressedMix dag headerHash nonce ≠
        some (compressedMixTexture tex1Dfetch headerHash nonce) := by
  by_contra hsame
  push Not at hsame
  have hzero := hsame (pagesDag zeroPage) (pagesTexture zeroPage) (fetches_pages zeroPage)
  have hmarked := hsame (pagesDag markedPage) (pagesTexture markedPage) (fetches_pages markedPage)
  have hpairs := dagPairs_ne_zero_of_some hzero
  rw [compressedMix_pagesDag _ hpairs, compressedMixTexture, mixRounds_pagesTexture,
    Option.some_inj] at hzero hmarked
  have hfirst := getElem_compressMix_texture
    (initMixTexture (seedWords (seedHashOf headerHash nonce)))
  rw [← hzero, ← hmarked] at hfirst
  exact getElem_compressMix_base_ne _ hfirst

/-! ## What is stored -/

lemma compareTarget_largest (resultHash : Hash32) :
    compareTarget resultHash (Vector.replicate 32 0xFF) ≤ 0 :=
  (compareTarget_le_iff _ _).mpr (beValue_le_largest resultHash)

/-- If the kernels store the same for the largest target, then their digests are the same. -/
lemma compressedMix_eq_of_stored {dag : Vector Byte dagSize} {tex1Dfetch : ℕ → Texel}
    {headerHash seedHash : Hash32} {nonce : BitVec 64}
    (h : some (searchNonceTexture tex1Dfetch headerHash (Vector.replicate 32 0xFF) nonce) =
      searchThread dag headerHash seedHash (Vector.replicate 32 0xFF) nonce) :
    compressedMix dag headerHash nonce =
      some (compressedMixTexture tex1Dfetch headerHash nonce) := by
  cases hcompressed : compressedMix dag headerHash nonce with
  | none =>
    rw [searchThread, hcompressed] at h
    simp at h
  | some compressed =>
    rw [searchThread, hcompressed] at h
    have hstored := Option.some.inj h
    rw [searchNonceTexture, storeSolution] at hstored
    rw [compareTargetOptimized_eq, if_pos (compareTarget_largest _),
      if_pos (compareTarget_largest _), Option.some_inj] at hstored
    have hdigest := congrArg (fun s => paramWords s.mixHash) hstored
    simp only [paramWords_toBytes] at hdigest
    rw [hdigest]

/-- **When the choice of the texture kernel changes nothing.**  For every header, seed hash and
nonce, and for DAGs of every size: over all DAGs and for all targets, the kernel that is started
does what the base kernel does if and only if there is no texture object, so that it is not the
texture kernel.  That kernel computes another digest over some DAG. -/
theorem searchNonce_texture_iff (cfg : VariantConfig) (texDAG : BitVec 64) (dagSize : ℕ)
    (headerHash seedHash : Hash32) (nonce : BitVec 64) :
    ((∀ (dag : Vector Byte dagSize) (tex1Dfetch : ℕ → Texel) (targetBE : Hash32),
        Fetches tex1Dfetch dag →
          searchNonce (launchedKernel cfg .texture texDAG) dag tex1Dfetch headerHash seedHash
              targetBE nonce =
            searchThread dag headerHash seedHash targetBE nonce) ↔ texDAG = 0) ∧
    ¬ ∀ (dag : Vector Byte dagSize) (tex1Dfetch : ℕ → Texel), Fetches tex1Dfetch dag →
      compressedMix dag headerHash nonce =
        some (compressedMixTexture tex1Dfetch headerHash nonce) := by
  obtain ⟨dag, tex1Dfetch, hfetches, hne⟩ := exists_compressedMix_ne dagSize headerHash nonce
  refine ⟨⟨fun hsame => ?_, ?_⟩, fun hsame => hne (hsame dag tex1Dfetch hfetches)⟩
  · by_contra htexture
    have hkernel : launchedKernel cfg .texture texDAG = .texture := if_neg htexture
    rw [hkernel] at hsame
    exact hne (compressedMix_eq_of_stored
      (hsame dag tex1Dfetch (Vector.replicate 32 0xFF) hfetches))
  · rintro rfl dag tex1Dfetch targetBE -
    have hkernel : launchedKernel cfg .texture 0 = if cfg.useOptimized then .optimized else .base :=
      rfl
    rw [hkernel]
    split_ifs
    · exact searchNonceOptimized_eq dag headerHash seedHash targetBE nonce
    · rfl

/-- Over a DAG of 256 pages of zeros, for the header of zeros, the nonce 0 and the largest target,
the texture kernel stores another digest than the base kernel. -/
theorem searchNonce_texture_ne :
    Fetches (pagesTexture zeroPage) (pagesDag zeroPage : Vector Byte 32768) ∧
      searchNonce (launchedKernel { useOptimized := false, useTexture := false } .texture 1)
          (pagesDag zeroPage : Vector Byte 32768) (pagesTexture zeroPage) (Vector.replicate 32 0)
          (Vector.replicate 32 0) (Vector.replicate 32 0xFF) 0 ≠
        searchThread (pagesDag zeroPage : Vector Byte 32768) (Vector.replicate 32 0)
          (Vector.replicate 32 0) (Vector.replicate 32 0xFF) 0 := by
  refine ⟨fetches_pages zeroPage, fun hsame => ?_⟩
  have hdigest := compressedMix_eq_of_stored hsame
  rw [compressedMix_pagesDag zeroPage (by decide), compressedMixTexture, mixRounds_pagesTexture,
    Option.some_inj, seedHashOf_eq, nonceSeed_zero] at hdigest
  have hfirst := congrArg (fun v : Vector (BitVec 32) 8 => v[0]) hdigest
  simp only [getElem_compressMix, getElem_foldPages] at hfirst
  revert hfirst
  decide +kernel

end OhMyMiner.Search
