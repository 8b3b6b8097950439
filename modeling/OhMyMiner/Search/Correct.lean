/-
# What the search kernel computes

The kernel computes the mix digest of Hashimoto: its index arithmetic in 32 bits is exact for
every DAG it can be given, and its interleaved halves are the pages of the dataset.  The last
hash is another one than that of Ethash, which hashes the seed of the nonce in front of the mix
digest; the kernel hashes the seed hash of the job behind it.  So the kernel decides as Ethash
does only where the two hashes happen to agree, or both miss the target.
-/
import OhMyMiner.Keccak.Eval
import OhMyMiner.Lib.Hashimoto
import OhMyMiner.Search.Kernel

namespace OhMyMiner.Search

open Lib Keccak

variable {dagSize : ℕ}

/-! ## The reference -/

/-- The seed of a nonce. -/
def nonceSeed (headerHash : Hash32) (nonce : BitVec 64) : Hash64 :=
  keccak512 (headerHash.toList ++ leBytes 8 nonce)

/-- The 128 bytes of the DAG at byte offset `128 * p`, as words. -/
def page (dag : Vector Byte dagSize) (p : ℕ) : Vector (BitVec 32) 32 :=
  Vector.ofFn fun k => leWord 32 4 fun b _ => dag.toList.getD (128 * p + 4 * k.1 + b) 0

/-- The seed of a nonce, as words. -/
def nonceWords (headerHash : Hash32) (nonce : BitVec 64) : Vector (BitVec 32) 16 :=
  ofBytes 32 4 hash64_words (nonceSeed headerHash nonce)

/-- The mix of a nonce after `n` accesses. -/
def mixWords (dag : Vector Byte dagSize) (headerHash : Hash32) (nonce : BitVec 64) (n : ℕ) :
    Vector (BitVec 32) 32 :=
  Hashimoto.mixAfter (dagSize / 128) (page dag) (nonceWords headerHash nonce) n

/-- The mix digest of a nonce, `cmix`. -/
def mixDigest (dag : Vector Byte dagSize) (headerHash : Hash32) (nonce : BitVec 64) : Hash32 :=
  toBytes 4 hash32_words (Hashimoto.compress (mixWords dag headerHash nonce 64))

/-- The final hash of Ethash, `keccak256(s || cmix)`. -/
def finalHash (dag : Vector Byte dagSize) (headerHash : Hash32) (nonce : BitVec 64) : Hash32 :=
  keccak256 ((nonceSeed headerHash nonce).toList ++ (mixDigest dag headerHash nonce).toList)

/-! ## The seed and the mix it starts -/

lemma toBytes_paramWords (param : Hash32) :
    (toBytes 4 hash32_words (paramWords param) : Vector Byte 32) = param := by
  rw [paramWords]
  exact toBytes_ofBytes (by decide) _ param

lemma paramWords_toBytes (words : Vector (BitVec 32) 8) :
    paramWords (toBytes 4 hash32_words words) = words :=
  ofBytes_toBytes (by decide) _ words

lemma seedHashOf_eq (headerHash : Hash32) (nonce : BitVec 64) :
    seedHashOf headerHash nonce = nonceSeed headerHash nonce := by
  rw [seedHashOf, toBytes_paramWords, keccak512Dev_eq, nonceSeed]

lemma fnv1a_eq (a b : BitVec 32) : fnv1a a b = Hashimoto.fnv a b := rfl

lemma initMix_eq (seed : Vector (BitVec 32) 16) : initMix seed = Hashimoto.start seed := by
  apply Vector.ext
  intro j hj
  have hj' : j % 16 < 16 := Nat.mod_lt _ (by decide)
  rw [initMix, getElem_forLoop (fun j => j % 16) fun j _ _ => seed[j % 16], if_pos hj',
    Hashimoto.start, Vector.getElem_ofFn]
  intro i hi mix j hj
  rw [Vector.getElem_set, Vector.getElem_set]
  by_cases h : j % 16 = i
  · rw [if_pos h]
    simp only [h]
    split_ifs <;> first | rfl | omega
  · rw [if_neg h, if_neg (by omega), if_neg (by omega)]

/-! ## One access -/

section Access

variable {p : BitVec 32}

lemma toNat_itemIndex₀_mod (p : BitVec 32) : (itemIndex₀ p).toNat = 16 * p.toNat % 2 ^ 32 := by
  have h₂ : (2 : BitVec 32).toNat = 2 := rfl
  have h₈ : (8 : BitVec 32).toNat = 8 := rfl
  rw [itemIndex₀, BitVec.toNat_mul, BitVec.toNat_mul, h₂, h₈]
  omega

lemma toNat_itemIndex₁_mod (p : BitVec 32) :
    (itemIndex₁ p).toNat = (16 * p.toNat + 8) % 2 ^ 32 := by
  have h₁ : (1 : BitVec 32).toNat = 1 := rfl
  have h₂ : (2 : BitVec 32).toNat = 2 := rfl
  have h₈ : (8 : BitVec 32).toNat = 8 := rfl
  rw [itemIndex₁, BitVec.toNat_mul, BitVec.toNat_add, BitVec.toNat_mul, h₁, h₂, h₈]
  omega

/-- The index arithmetic does not wrap, as a pair number is less than `2^28`. -/
lemma toNat_itemIndex₀ (hp : p.toNat < 2 ^ 28) : (itemIndex₀ p).toNat = 16 * p.toNat := by
  rw [toNat_itemIndex₀_mod]
  omega

lemma toNat_itemIndex₁ (hp : p.toNat < 2 ^ 28) : (itemIndex₁ p).toNat = 16 * p.toNat + 8 := by
  rw [toNat_itemIndex₁_mod]
  omega

/-- The loads of an access read the words of the page. -/
lemma dagWord_eq (dag : Vector Byte dagSize) {p k index w : ℕ} (hk : k < 32)
    (hindex : 8 * index + 4 * w = 128 * p + 4 * k) (hp : 128 * p + 128 ≤ dagSize) :
    dagWord dag index w = some (page dag p)[k] := by
  rw [dagWord, dif_pos (by omega), page, Vector.getElem_ofFn]
  refine congrArg some (leWord_congr fun b hb => ?_)
  have hlt : 128 * p + 4 * k + b < dagSize := by omega
  simp only [hindex]
  rw [List.getD_eq_getElem?_getD, List.getElem?_eq_getElem (by simpa using hlt)]
  simp

/-- The words of the mix that a pass rewrites. -/
lemma lt_words {w : ℕ} (hw : w < 16) : w < 32 := by omega

lemma add_lt_words {w : ℕ} (hw : w < 16) : w + 16 < 32 := by omega

/-- Sixteen passes, each over a word of either half, fold a page into the mix. -/
lemma forLoop_foldPage (words mix : Vector (BitVec 32) 32) :
    (forLoop 16 mix fun w hw mix =>
      have hlow := lt_words hw
      have hhigh := add_lt_words hw
      let mix := mix.set w (fnv1a mix[w] words[w])
      mix.set (w + 16) (fnv1a mix[w + 16] words[w + 16])) =
      Vector.zipWith Hashimoto.fnv mix words := by
  refine Vector.ext fun j hj => ?_
  rw [getElem_forLoop (fun j => j % 16) fun j hj a => Hashimoto.fnv a words[j],
    if_pos (Nat.mod_lt _ (by decide)), Vector.getElem_zipWith]
  intro w hw mix j hj
  -- pass `w` rewrites the cells `w` and `w + 16`, each from its own value
  have hother : (mix.set w (fnv1a mix[w] words[w]))[w + 16] = mix[w + 16] :=
    Vector.getElem_set_ne _ _ (by omega)
  rw [Vector.getElem_set, hother, Vector.getElem_set]
  by_cases h₁ : w + 16 = j
  · subst h₁
    rw [if_pos rfl, if_pos (by omega), fnv1a_eq]
  · by_cases h₀ : w = j
    · subst h₀
      rw [if_neg (by omega), if_pos rfl, if_pos (by omega), fnv1a_eq]
    · rw [if_neg h₁, if_neg h₀, if_neg (by omega)]

/-- An access folds the page of its pair into the mix. -/
lemma mixPair_eq (dag : Vector Byte dagSize) (hp : p.toNat < 2 ^ 28)
    (hpage : 128 * p.toNat + 128 ≤ dagSize) (mix : Vector (BitVec 32) 32) :
    mixPair dag p mix = some (Vector.zipWith Hashimoto.fnv mix (page dag p.toNat)) := by
  rw [← forLoop_foldPage]
  refine forLoop_some fun w hw mix => ?_
  have h₀ : dagWord dag (itemIndex₀ p).toNat w = some (page dag p.toNat)[w] :=
    dagWord_eq dag (by omega) (by rw [toNat_itemIndex₀ hp]; omega) hpage
  have h₁ : dagWord dag (itemIndex₁ p).toNat w = some (page dag p.toNat)[w + 16] :=
    dagWord_eq dag (by omega) (by rw [toNat_itemIndex₁ hp]; omega) hpage
  rw [h₀, h₁]
  rfl

end Access

/-! ## The 64 accesses -/

section Accesses

/-- A buffer the kernel can be launched with: whole pages, at least one, less than `2^35` bytes. -/
structure ValidSize (dagSize : ℕ) : Prop where
  dvd : 128 ∣ dagSize
  pos : 128 ≤ dagSize
  lt : dagSize < 2 ^ 35

lemma ValidSize.toNat_dagPairs (h : ValidSize dagSize) :
    (dagPairs dagSize).toNat = dagSize / 128 := by
  have hlt := h.lt
  rw [dagPairs, BitVec.toNat_ofNat]
  omega

lemma ValidSize.dagPairs_ne_zero (h : ValidSize dagSize) : dagPairs dagSize ≠ 0 := by
  intro hzero
  have hpos := h.pos
  have heq := h.toNat_dagPairs
  have hzero' : (0 : BitVec 32).toNat = 0 := rfl
  rw [hzero, hzero'] at heq
  omega

/-- The pair that an access selects is the page of Hashimoto. -/
lemma ValidSize.toNat_pairIndex (h : ValidSize dagSize) (seed : Vector (BitVec 32) 16) (i : ℕ)
    (mix : Vector (BitVec 32) 32) :
    (pairIndex (dagPairs dagSize) (firstWord seed) i mix).toNat =
      Hashimoto.pageIndex (dagSize / 128) seed i mix := by
  rw [pairIndex, BitVec.toNat_umod, h.toNat_dagPairs, Hashimoto.pageIndex, fnv1a_eq]
  rfl

/-- The whole page of an access lies in the buffer. -/
lemma ValidSize.page_le (h : ValidSize dagSize) (seed : Vector (BitVec 32) 16) (i : ℕ)
    (mix : Vector (BitVec 32) 32) :
    128 * Hashimoto.pageIndex (dagSize / 128) seed i mix + 128 ≤ dagSize := by
  have hpos := h.pos
  have hlt := Hashimoto.pageIndex_lt (dagSize / 128) (by omega) seed i mix
  omega

/-- **The accesses of the kernel are those of Hashimoto.** -/
theorem mixAccesses_eq (dag : Vector Byte dagSize) (h : ValidSize dagSize)
    (seed : Vector (BitVec 32) 16) (n : ℕ) :
    mixAccesses dag seed n = some (Hashimoto.mixAfter (dagSize / 128) (page dag) seed n) := by
  rw [mixAccesses, Hashimoto.mixAfter, initMix_eq]
  refine forLoop_some fun i _ mix => ?_
  have hpage := h.page_le seed i mix
  have hlt := h.lt
  have hindex := h.toNat_pairIndex seed i mix
  have hpair := mixPair_eq dag (p := pairIndex (dagPairs dagSize) (firstWord seed) i mix)
    (by rw [hindex]; omega) (by rw [hindex]; exact hpage) mix
  rw [hindex] at hpair
  exact (if_neg h.dagPairs_ne_zero).trans hpair

lemma compressMix_eq (mix : Vector (BitVec 32) 32) :
    compressMix mix = Hashimoto.compress mix := by
  apply Vector.ext
  intro j hj
  rw [compressMix, getElem_forLoop (fun j => j) fun j hj _ =>
      fnv1a (fnv1a (fnv1a mix[j * 4] mix[j * 4 + 1]) mix[j * 4 + 2]) mix[j * 4 + 3],
    if_pos hj, Hashimoto.compress, Vector.getElem_ofFn]
  · simp only [fnv1a_eq, Nat.mul_comm 4 j]
  · intro i hi c j hj
    simp only [Vector.getElem_set_self, Vector.set_set, Vector.getElem_set]
    by_cases hij : i = j
    · subst hij
      rw [if_pos rfl]
    · rw [if_neg hij, if_neg (Ne.symm hij)]

/-- The compressed mix of the kernel. -/
lemma compressedMix_eq (dag : Vector Byte dagSize) (h : ValidSize dagSize) (headerHash : Hash32)
    (nonce : BitVec 64) :
    compressedMix dag headerHash nonce =
      some (Hashimoto.compress (mixWords dag headerHash nonce 64)) := by
  rw [compressedMix, mixAccesses_eq dag h, seedHashOf_eq, ← compressMix_eq]
  rfl

end Accesses

/-! ## The mix digest -/

/-- **The kernel computes the mix digest of Hashimoto.**  Each of its 64 accesses forms the
indices of the page that Hashimoto selects, and all sixteen words of the page are below the end
of the DAG. -/
theorem kernel_mixDigest (dag : Vector Byte dagSize) (h : ValidSize dagSize)
    (headerHash : Hash32) (nonce : BitVec 64) :
    (compressedMix dag headerHash nonce).map (fun compressed => toBytes 4 hash32_words compressed) =
        some (mixDigest dag headerHash nonce) ∧
      ∀ i < 64, ∃ mix,
        mixAccesses dag (seedWords (seedHashOf headerHash nonce)) i = some mix ∧
        mix = mixWords dag headerHash nonce i ∧
        let seed := seedWords (seedHashOf headerHash nonce)
        let pair := pairIndex (dagPairs dagSize) (firstWord seed) i mix
        let p := Hashimoto.pageIndex (dagSize / 128) (nonceWords headerHash nonce) i mix
        (itemIndex₀ pair).toNat = 16 * p ∧ (itemIndex₁ pair).toNat = 16 * p + 8 ∧
          16 * p + 15 < dagSize / 8 := by
  refine ⟨by rw [compressedMix_eq dag h]; rfl, fun i _ => ?_⟩
  rw [seedHashOf_eq]
  refine ⟨_, mixAccesses_eq dag h _ i, rfl, ?_⟩
  intro seed pair p
  have hpair : pair.toNat = p := h.toNat_pairIndex _ i _
  have hpage : 128 * p + 128 ≤ dagSize := h.page_le _ i _
  have hlt := h.lt
  rw [toNat_itemIndex₀ (by omega), toNat_itemIndex₁ (by omega), hpair]
  exact ⟨rfl, rfl, by omega⟩

/-- A DAG of a single page of zeros. -/
def zeroDag : Vector Byte 128 := Vector.replicate 128 0

lemma validSize_zeroDag : ValidSize 128 := ⟨by decide, by decide, by decide⟩

/-- A DAG of three pages, no two of which are equal. -/
def threePages : Vector Byte 384 := Vector.ofFn fun i => BitVec.ofNat 8 (i + i / 128)

lemma validSize_threePages : ValidSize 384 := ⟨by decide, by decide, by decide⟩

/-- The mix digests of three nonces over a DAG of three pages. -/
theorem kernel_mixDigest_threePages :
    384 / 128 = 3 ∧ ∀ nonce ∈ ([0, 0x0123456789ABCDEF, 0xFFFFFFFFFFFFFFFF] : List (BitVec 64)),
      (compressedMix threePages (countingHash 1) nonce).map
          (fun compressed => toBytes 4 hash32_words compressed) =
        some (mixDigest threePages (countingHash 1) nonce) ∧
      ∀ i < 64, ∃ mix,
        mixAccesses threePages (seedWords (seedHashOf (countingHash 1) nonce)) i = some mix ∧
        mix = mixWords threePages (countingHash 1) nonce i ∧
        let seed := seedWords (seedHashOf (countingHash 1) nonce)
        let pair := pairIndex (dagPairs 384) (firstWord seed) i mix
        let p := Hashimoto.pageIndex (384 / 128) (nonceWords (countingHash 1) nonce) i mix
        (itemIndex₀ pair).toNat = 16 * p ∧ (itemIndex₁ pair).toNat = 16 * p + 8 ∧
          16 * p + 15 < 384 / 8 :=
  ⟨rfl, fun nonce _ => kernel_mixDigest threePages validSize_threePages (countingHash 1) nonce⟩

/-! ## The decision -/

/-- What the comparison loop keeps: the first `i` bytes agree, or the first byte that differs has
decided. -/
def Compared (a b : Hash32) (i : ℕ) (cmp : ℤ) : Prop :=
  (cmp = 0 ∧ a.toList.take i = b.toList.take i) ∨
    (cmp = -1 ∧ beValue a.toList < beValue b.toList) ∨
      (cmp = 1 ∧ beValue b.toList < beValue a.toList)

lemma toList_split (a : Hash32) {i : ℕ} (hi : i < 32) :
    a.toList = a.toList.take i ++ a[i] :: a.toList.drop (i + 1) := by
  have hlen : i < a.toList.length := by simpa using hi
  have hget : a.toList[i] = a[i] := by simp
  rw [← hget, ← List.drop_eq_getElem_cons hlen, List.take_append_drop]

lemma beValue_lt_of_take_eq {a b : Hash32} {i : ℕ} (hi : i < 32)
    (hpre : a.toList.take i = b.toList.take i) (hlt : a[i] < b[i]) :
    beValue a.toList < beValue b.toList := by
  rw [toList_split a hi, toList_split b hi, hpre]
  exact beValue_lt_of_lt _ (by simp) hlt

lemma take_succ_eq {a b : Hash32} {i : ℕ} (hi : i < 32)
    (hpre : a.toList.take i = b.toList.take i) (heq : a[i] = b[i]) :
    a.toList.take (i + 1) = b.toList.take (i + 1) := by
  have hget : ∀ v : Hash32, v.toList.take (i + 1) = v.toList.take i ++ [v[i]] := by
    intro v
    rw [List.take_succ_eq_append_getElem (by simpa using hi)]
    simp
  rw [hget, hget, hpre, heq]

/-- One pass of the loop. -/
lemma Compared.step {a b : Hash32} {i : ℕ} (hi : i < 32) {cmp : ℤ} (h : Compared a b i cmp) :
    Compared a b (i + 1)
      (if cmp ≠ 0 then cmp else if a[i] < b[i] then -1 else if b[i] < a[i] then 1 else 0) := by
  rcases h with ⟨rfl, hpre⟩ | ⟨rfl, hlt⟩ | ⟨rfl, hlt⟩
  · rw [if_neg (by decide)]
    by_cases hab : a[i] < b[i]
    · rw [if_pos hab]
      exact Or.inr (Or.inl ⟨rfl, beValue_lt_of_take_eq hi hpre hab⟩)
    · rw [if_neg hab]
      by_cases hba : b[i] < a[i]
      · rw [if_pos hba]
        exact Or.inr (Or.inr ⟨rfl, beValue_lt_of_take_eq hi hpre.symm hba⟩)
      · rw [if_neg hba]
        have heq : a[i] = b[i] :=
          BitVec.eq_of_toNat_eq (le_antisymm (not_lt.mp hba) (not_lt.mp hab))
        exact Or.inl ⟨rfl, take_succ_eq hi hpre heq⟩
  · exact Or.inr (Or.inl ⟨rfl, hlt⟩)
  · exact Or.inr (Or.inr ⟨rfl, hlt⟩)

lemma compared_compareTarget (a b : Hash32) : Compared a b 32 (compareTarget a b) :=
  forLoop_induction (Compared a b) (Or.inl ⟨rfl, rfl⟩) fun _ hi _ h => h.step hi

/-- The loop compares the big-endian values. -/
theorem compareTarget_le_iff (a b : Hash32) :
    compareTarget a b ≤ 0 ↔ beValue a.toList ≤ beValue b.toList := by
  rcases compared_compareTarget a b with ⟨hcmp, hpre⟩ | ⟨hcmp, hlt⟩ | ⟨hcmp, hlt⟩
  · have heq : a.toList = b.toList := by
      rwa [List.take_of_length_le (by simp), List.take_of_length_le (by simp)] at hpre
    rw [hcmp, heq]
    simp
  · rw [hcmp]
    exact ⟨fun _ => hlt.le, fun _ => by decide⟩
  · rw [hcmp]
    exact ⟨fun h => absurd h (by decide), fun h => absurd h (not_le.mpr hlt)⟩

/-- The hash of the mix digest and the seed hash of the job. -/
def jobHash (dag : Vector Byte dagSize) (headerHash seedHash : Hash32) (nonce : BitVec 64) :
    Hash32 :=
  keccak256 ((mixDigest dag headerHash nonce).toList ++ seedHash.toList)

lemma storeSolution_eq (compressed : Vector (BitVec 32) 8) (seedHash targetBE : Hash32)
    (nonce : BitVec 64) :
    storeSolution compressed seedHash targetBE nonce =
      if beValue (resultHash compressed seedHash).toList ≤ beValue targetBE.toList then
        some ⟨nonce, toBytes 4 hash32_words compressed, resultHash compressed seedHash⟩
      else none := by
  rw [storeSolution]
  by_cases h : beValue (resultHash compressed seedHash).toList ≤ beValue targetBE.toList
  · rw [if_pos h, if_pos ((compareTarget_le_iff _ _).mpr h)]
  · rw [if_neg h, if_neg fun hle => h ((compareTarget_le_iff _ _).mp hle)]

/-- What a thread does: it compares the hash with the seed hash of the job in it. -/
theorem searchThread_eq (dag : Vector Byte dagSize) (h : ValidSize dagSize)
    (headerHash seedHash targetBE : Hash32) (nonce : BitVec 64) :
    searchThread dag headerHash seedHash targetBE nonce =
      some (if beValue (jobHash dag headerHash seedHash nonce).toList ≤ beValue targetBE.toList then
        some ⟨nonce, mixDigest dag headerHash nonce, jobHash dag headerHash seedHash nonce⟩
      else none) := by
  have hhash : resultHash (Hashimoto.compress (mixWords dag headerHash nonce 64)) seedHash =
      jobHash dag headerHash seedHash nonce := by
    rw [resultHash, toBytes_paramWords, keccak256Dev_eq, jobHash, mixDigest]
  have hstore := storeSolution_eq (Hashimoto.compress (mixWords dag headerHash nonce 64))
    seedHash targetBE nonce
  rw [hhash] at hstore
  rw [searchThread, compressedMix_eq dag h]
  exact congrArg some hstore

/-- No hash is above the largest target. -/
lemma beValue_le_largest (hash : Hash32) :
    beValue hash.toList ≤ beValue (Vector.replicate 32 (0xFF : Byte)).toList := by
  have hlargest : beValue (Vector.replicate 32 (0xFF : Byte)).toList = 256 ^ 32 - 1 :=
    beValue_replicate_ff 32
  have hlt := beValue_lt hash.toList
  rw [Vector.length_toList] at hlt
  omega

/-- The largest target is met by every nonce. -/
lemma searchThread_largest (dag : Vector Byte dagSize) (h : ValidSize dagSize)
    (headerHash seedHash : Hash32) (nonce : BitVec 64) :
    searchThread dag headerHash seedHash (Vector.replicate 32 0xFF) nonce =
      some (some ⟨nonce, mixDigest dag headerHash nonce,
        jobHash dag headerHash seedHash nonce⟩) := by
  rw [searchThread_eq dag h, if_pos (beValue_le_largest _)]

/-- The thread decides as Ethash does, and records the hash of Ethash. -/
def DecidesAsEthash (dag : Vector Byte dagSize) (headerHash seedHash targetBE : Hash32)
    (nonce : BitVec 64) : Prop :=
  ((∃ solution, searchThread dag headerHash seedHash targetBE nonce = some (some solution)) ↔
      beValue (finalHash dag headerHash nonce).toList ≤ beValue targetBE.toList) ∧
    ∀ solution, searchThread dag headerHash seedHash targetBE nonce = some (some solution) →
      solution.result = finalHash dag headerHash nonce

/-- **The kernel decides as Ethash does exactly where its hash agrees with that of Ethash, or
both miss the target.** -/
theorem decidesAsEthash_iff (dag : Vector Byte dagSize) (h : ValidSize dagSize)
    (headerHash seedHash targetBE : Hash32) (nonce : BitVec 64) :
    DecidesAsEthash dag headerHash seedHash targetBE nonce ↔
      jobHash dag headerHash seedHash nonce = finalHash dag headerHash nonce ∨
        (beValue targetBE.toList < beValue (jobHash dag headerHash seedHash nonce).toList ∧
          beValue targetBE.toList < beValue (finalHash dag headerHash nonce).toList) := by
  rw [DecidesAsEthash, searchThread_eq dag h]
  generalize jobHash dag headerHash seedHash nonce = hash
  generalize finalHash dag headerHash nonce = final
  generalize mixDigest dag headerHash nonce = mix
  by_cases haccept : beValue hash.toList ≤ beValue targetBE.toList
  · rw [if_pos haccept]
    constructor
    · rintro ⟨-, hresult⟩
      exact Or.inl (hresult ⟨nonce, mix, hash⟩ rfl)
    · rintro (rfl | ⟨hmiss, -⟩)
      · -- the same hash: the only record is that of the nonce
        refine ⟨⟨fun _ => haccept, fun _ => ⟨_, rfl⟩⟩, ?_⟩
        rintro solution hsome
        obtain rfl : (⟨nonce, mix, hash⟩ : DeviceSolution) = solution := by simpa using hsome
        rfl
      · omega
  · rw [if_neg haccept]
    constructor
    · rintro ⟨hiff, -⟩
      refine Or.inr ⟨by omega, ?_⟩
      by_contra hle
      obtain ⟨_, hsome⟩ := hiff.mpr (by omega)
      exact absurd hsome (by simp)
    · intro hcond
      have hmiss : beValue targetBE.toList < beValue final.toList := by
        rcases hcond with rfl | ⟨-, hmiss⟩
        · omega
        · exact hmiss
      refine ⟨⟨?_, fun hle => absurd hle (by omega)⟩, ?_⟩
      · rintro ⟨_, hsome⟩
        exact absurd hsome (by simp)
      · intro _ hsome
        exact absurd hsome (by simp)

/-- The decisions on three nonces over a DAG of three pages. -/
theorem decidesAsEthash_iff_threePages :
    384 / 128 = 3 ∧ ∀ nonce ∈ ([0, 0x0123456789ABCDEF, 0xFFFFFFFFFFFFFFFF] : List (BitVec 64)),
      DecidesAsEthash threePages (countingHash 1) (countingHash 33) (countingHash 128) nonce ↔
        jobHash threePages (countingHash 1) (countingHash 33) nonce =
            finalHash threePages (countingHash 1) nonce ∨
          (beValue (countingHash 128).toList <
              beValue (jobHash threePages (countingHash 1) (countingHash 33) nonce).toList ∧
            beValue (countingHash 128).toList <
              beValue (finalHash threePages (countingHash 1) nonce).toList) :=
  ⟨rfl, fun nonce _ => decidesAsEthash_iff threePages validSize_threePages (countingHash 1)
    (countingHash 33) (countingHash 128) nonce⟩

/-! ## A nonce with another hash -/

section OnePage

/-- Every byte is zero, also outside of the DAG. -/
lemma getD_zeroDag (i : ℕ) : zeroDag.toList.getD i 0 = 0 := by
  have hlist : zeroDag.toList = List.replicate 128 0 := rfl
  rw [hlist, List.getD_eq_getElem?_getD, List.getElem?_replicate]
  split_ifs <;> rfl

lemma page_zeroDag (p : ℕ) : page zeroDag p = Vector.replicate 32 0 := by
  apply Vector.ext
  intro k hk
  rw [page, Vector.getElem_ofFn, Vector.getElem_replicate]
  simp only [getD_zeroDag]
  decide

/-- A mix whose words are multiplied by the same number in every step. -/
lemma eq_map_mul_pow {k : ℕ} (mix : ℕ → Vector (BitVec 32) k) (c : BitVec 32)
    (h : ∀ n, mix (n + 1) = (mix n).map fun u => u * c) (n : ℕ) :
    mix n = (mix 0).map fun u => u * c ^ n := by
  induction n with
  | zero =>
    ext1 j hj
    rw [Vector.getElem_map, BitVec.pow_zero, BitVec.mul_one]
  | succ n ih =>
    rw [h, ih]
    ext1 j hj
    rw [Vector.getElem_map, Vector.getElem_map, Vector.getElem_map, BitVec.pow_succ,
      BitVec.mul_assoc]

/-- Folding a page of zeros in multiplies every word by the FNV prime. -/
lemma mixAfter_zero (seed : Vector (BitVec 32) 16) (n : ℕ) :
    Hashimoto.mixAfter 1 (fun _ => Vector.replicate 32 0) seed n =
      (Hashimoto.start seed).map fun u => u * 0x01000193 ^ n := by
  refine eq_map_mul_pow (Hashimoto.mixAfter 1 (fun _ => Vector.replicate 32 0) seed) 0x01000193
    (fun n => ?_) n
  rw [Hashimoto.mixAfter_succ, Hashimoto.access]
  ext1 j hj
  rw [Vector.getElem_zipWith, Vector.getElem_map, Vector.getElem_replicate, Hashimoto.fnv,
    xor_zero]

lemma nonceSeed_zero :
    nonceSeed (Vector.replicate 32 0) 0 = evalDigest 64 (by decide) (List.replicate 40 0) :=
  keccak512_eq_evalDigest (by decide)

lemma hashes_zeroDag_ne :
    jobHash zeroDag (Vector.replicate 32 0) (Vector.replicate 32 0) 0 ≠
      finalHash zeroDag (Vector.replicate 32 0) 0 := by
  rw [jobHash, finalHash, keccak256_eq_evalDigest (by simp), keccak256_eq_evalDigest (by simp),
    mixDigest, mixWords, nonceWords, nonceSeed_zero, funext page_zeroDag, Nat.div_self (by decide),
    mixAfter_zero]
  decide +kernel

/-- The nonce 0 meets the largest target, and the hash recorded for it is not that of Ethash. -/
theorem not_decidesAsEthash_zeroDag :
    ¬ DecidesAsEthash zeroDag (Vector.replicate 32 0) (Vector.replicate 32 0)
      (Vector.replicate 32 0xFF) 0 := by
  rintro ⟨-, hresult⟩
  exact hashes_zeroDag_ne (hresult _ (searchThread_largest zeroDag validSize_zeroDag _ _ 0))

end OnePage

end OhMyMiner.Search
