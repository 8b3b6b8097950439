/-
# The Ethash cache

`Ethash::calculateCache` hashes the seed into a chain of items and rewrites the items in three
rounds.  Ethash takes RandMemoHash for these rounds, whose new item is the hash of the
predecessor XORed with the selected neighbour; the loop of the code XORs the old item in as
well.  The caches agree exactly as long as that makes no difference to the hash.
-/
import OhMyMiner.Keccak.Eval
import OhMyMiner.Lib.RandMemoHash
import OhMyMiner.Types

namespace OhMyMiner.Ethash

open Lib Keccak

/-! ## The code -/

/-- `Ethash::CACHE_ROUNDS`. -/
def cacheRounds : ℕ := 3

/-- An item as the 32-bit words that `uint32_t*` sees. -/
def words32 (item : Hash64) : Vector (BitVec 32) 16 := ofBytes 32 4 hash64_words item

/-- An item as the 64-bit words that `uint64_t*` sees. -/
def words64 (item : Hash64) : Vector (BitVec 64) 8 := ofBytes 64 8 hash64_lanes item

/-- `temp[j] = curr[j] ^ prev[j] ^ neighbor[j]` for the eight words of an item. -/
def xorItems (curr prev neighbor : Hash64) : Hash64 :=
  let temp : Vector (BitVec 64) 8 := forLoop 8 (Vector.replicate 8 0) fun j _ temp =>
    temp.set j ((words64 curr)[j] ^^^ (words64 prev)[j] ^^^ (words64 neighbor)[j])
  toBytes 8 hash64_lanes temp

section Items

variable {numItems : ℕ}

/-- The first item and the sequential items. -/
def fillCache (seedHash : Hash32) (hpos : 0 < numItems) : Vector Hash64 numItems :=
  let cache : Vector Hash64 numItems := Vector.replicate numItems (Vector.replicate 64 0)
  let cache := cache.set 0 (keccak512 seedHash.toList)
  forLoop (numItems - 1) cache fun k _ cache =>
    cache.set (k + 1) (keccak512 cache[k].toList)

/-- `uint32_t neighborIdx = cacheData[0] % numItems`. -/
def neighborIdx (item : Hash64) (numItems : ℕ) : BitVec 32 :=
  BitVec.ofNat 32 ((firstWord (words32 item)).toNat % numItems)

lemma toNat_neighborIdx (item : Hash64) (numItems : ℕ) :
    (neighborIdx item numItems).toNat = (firstWord (words32 item)).toNat % numItems := by
  rw [neighborIdx, BitVec.toNat_ofNat]
  exact Nat.mod_eq_of_lt (lt_of_le_of_lt (Nat.mod_le _ _) (firstWord (words32 item)).isLt)

/-- `size_t prevIdx = (i == 0) ? (numItems - 1) : (i - 1)`. -/
def prevIdx (i numItems : ℕ) : ℕ := if i = 0 then numItems - 1 else i - 1

/-- The predecessor in the cyclic order. -/
lemma prevIdx_eq {i : ℕ} (hi : i < numItems) :
    prevIdx i numItems = (i + (numItems - 1)) % numItems := by
  rw [prevIdx]
  split
  · next h =>
    subst h
    rw [Nat.zero_add, Nat.mod_eq_of_lt (by omega)]
  · next h =>
    have hwrap : i + (numItems - 1) = (i - 1) + numItems := by omega
    rw [hwrap, Nat.add_mod_right, Nat.mod_eq_of_lt (by omega)]

lemma prevIdx_lt {i : ℕ} (hi : i < numItems) : prevIdx i numItems < numItems := by
  rw [prevIdx_eq hi]
  exact Nat.mod_lt _ (by omega)

lemma neighborIdx_lt (item : Hash64) (hpos : 0 < numItems) :
    (neighborIdx item numItems).toNat < numItems := by
  rw [toNat_neighborIdx]
  exact Nat.mod_lt _ hpos

/-- One pass of the inner loop of the rounds. -/
def memoStep (cache : Vector Hash64 numItems) (i : ℕ) (hi : i < numItems) :
    Vector Hash64 numItems :=
  let prev := cache.get ⟨prevIdx i numItems, prevIdx_lt hi⟩
  let neighbor :=
    cache.get ⟨(neighborIdx cache[i] numItems).toNat, neighborIdx_lt _ (Nat.zero_lt_of_lt hi)⟩
  cache.set i (keccak512 (xorItems cache[i] prev neighbor).toList) hi

/-- The cache after `round` rounds and the first `i` passes of the next one. -/
def cacheAfter (seedHash : Hash32) (hpos : 0 < numItems) (round i : ℕ) (hi : i ≤ numItems) :
    Vector Hash64 numItems :=
  let cache := forLoop round (fillCache seedHash hpos) fun _ _ cache =>
    forLoop numItems cache fun i hi cache => memoStep cache i hi
  forLoop i cache fun j hj cache => memoStep cache j (Nat.lt_of_lt_of_le hj hi)

/-- The cache that the loops of `Ethash::calculateCache` build from a seed. -/
def cacheItems (seedHash : Hash32) (hpos : 0 < numItems) : Vector Hash64 numItems :=
  cacheAfter seedHash hpos cacheRounds 0 (Nat.zero_le _)

end Items

/-! ## The reference -/

/-- XOR of two items, byte by byte. -/
def xorBytes (a b : Hash64) : Hash64 := Vector.zipWith (· ^^^ ·) a b

/-- RandMemoHash as Ethash uses it. -/
def randMemoHash : RandMemoHash.Rule Hash64 where
  hash item := keccak512 item.toList
  mix _ prev neighbor := xorBytes prev neighbor
  key item := (firstWord (words32 item)).toNat

/-- What the code uses in its place. -/
def codeMemoHash : RandMemoHash.Rule Hash64 where
  hash item := keccak512 item.toList
  mix curr prev neighbor := xorBytes (xorBytes curr prev) neighbor
  key item := (firstWord (words32 item)).toNat

/-- The Ethash cache of `numItems` items. -/
def referenceCache (seedHash : Hash32) (numItems : ℕ) : Vector Hash64 numItems :=
  randMemoHash.cache 3 numItems (keccak512 seedHash.toList)

/-! ## The loops run the second rule -/

section Items

variable {numItems : ℕ}

lemma xorItems_eq (curr prev neighbor : Hash64) :
    xorItems curr prev neighbor = xorBytes (xorBytes curr prev) neighbor := by
  apply Vector.ext
  intro i hi
  have hword : ∀ item : Hash64, byteAt (words64 item)[i / 8] (i % 8) = item[i] := by
    intro item
    have h := toBytes_ofBytes (w := 64) (n := 8) (k := 8) (by decide) rfl item
    rw [← getElem_toBytes rfl (words64 item) hi (by omega)]
    simp only [words64, h]
  simp only [xorItems, xorBytes]
  rw [getElem_toBytes _ _ hi (by omega), getElem_forLoop_set (fun j _ _ =>
    (words64 curr)[j] ^^^ (words64 prev)[j] ^^^ (words64 neighbor)[j])]
  simp only [byteAt_xor, hword, Vector.getElem_zipWith]

/-- The sequential items are the hash chain of the seed. -/
lemma fillCache_eq (seedHash : Hash32) (hpos : 0 < numItems) :
    fillCache seedHash hpos = codeMemoHash.chain numItems (keccak512 seedHash.toList) := by
  -- after `k` passes the items up to `k` are those of the chain
  let P : ℕ → Vector Hash64 numItems → Prop := fun k cache =>
    ∀ j (hj : j < numItems), j ≤ k →
      cache[j] = codeMemoHash.hash^[j] (keccak512 seedHash.toList)
  have hinv : P (numItems - 1) (fillCache seedHash hpos) := by
    refine forLoop_induction P ?_ fun k hk cache hP => ?_
    · rintro j hj hle
      obtain rfl : j = 0 := by omega
      exact Vector.getElem_set_self _
    · rintro j hj hle
      rcases Nat.le_succ_iff.mp hle with hlt | heq
      · rw [Vector.getElem_set_ne _ _ (by omega)]
        exact hP j hj hlt
      · subst heq
        rw [Vector.getElem_set_self, Function.iterate_succ_apply', ← hP k (by omega) le_rfl]
        rfl
  apply Vector.ext
  intro j hj
  rw [hinv j hj (by omega), RandMemoHash.Rule.chain, Vector.getElem_ofFn]

lemma memoStep_eq (cache : Vector Hash64 numItems) (i : ℕ) (hi : i < numItems) :
    memoStep cache i hi = codeMemoHash.step cache i hi := by
  simp only [memoStep, RandMemoHash.Rule.step, RandMemoHash.Rule.item, codeMemoHash, xorItems_eq,
    toNat_neighborIdx, prevIdx_eq hi]
  rfl

lemma cacheAfter_eq (seedHash : Hash32) (hpos : 0 < numItems) (round i : ℕ) (hi : i ≤ numItems) :
    cacheAfter seedHash hpos round i hi =
      codeMemoHash.after (codeMemoHash.chain numItems (keccak512 seedHash.toList)) round i hi := by
  rw [← fillCache_eq seedHash hpos]
  simp only [cacheAfter, RandMemoHash.Rule.after, RandMemoHash.Rule.round, memoStep_eq]

/-- At a step that rewrites item `i`, XORing the old item in does not change the hash. -/
def OldItemIrrelevant (cache : Vector Hash64 numItems) (i : ℕ) (hi : i < numItems) : Prop :=
  let prev := cache.get ⟨prevIdx i numItems, prevIdx_lt hi⟩
  let neighbor :=
    cache.get ⟨(neighborIdx cache[i] numItems).toNat, neighborIdx_lt _ (Nat.zero_lt_of_lt hi)⟩
  keccak512 (xorBytes (xorBytes cache[i] prev) neighbor).toList =
    keccak512 (xorBytes prev neighbor).toList

lemma oldItemIrrelevant_iff (cache : Vector Hash64 numItems) (i : ℕ) (hi : i < numItems) :
    OldItemIrrelevant cache i hi ↔ codeMemoHash.item cache i hi = randMemoHash.item cache i hi := by
  simp only [OldItemIrrelevant, RandMemoHash.Rule.item, codeMemoHash, randMemoHash,
    toNat_neighborIdx, prevIdx_eq hi]
  rfl

/-- The cache of RandMemoHash after `round` rounds and `i` steps of the next one. -/
def referenceAfter (seedHash : Hash32) (numItems round i : ℕ) (hi : i ≤ numItems) :
    Vector Hash64 numItems :=
  randMemoHash.after (randMemoHash.chain numItems (keccak512 seedHash.toList)) round i hi

/-- **The cache is the Ethash cache as long as the old items do not matter.**  The code runs
through the caches of RandMemoHash exactly when at each step XORing the old item in does not
change the hash, and then it builds the Ethash cache. -/
theorem cacheItems_eq_iff (seedHash : Hash32) (hpos : 0 < numItems) :
    ((∀ round < cacheRounds, ∀ i (hi : i ≤ numItems),
        cacheAfter seedHash hpos round i hi = referenceAfter seedHash numItems round i hi) ↔
      ∀ round < cacheRounds, ∀ i (hi : i < numItems),
        OldItemIrrelevant (referenceAfter seedHash numItems round i hi.le) i hi) ∧
    ((∀ round < cacheRounds, ∀ i (hi : i < numItems),
        OldItemIrrelevant (referenceAfter seedHash numItems round i hi.le) i hi) →
      cacheItems seedHash hpos = referenceCache seedHash numItems) := by
  have hchain : codeMemoHash.chain numItems (keccak512 seedHash.toList) =
      randMemoHash.chain numItems (keccak512 seedHash.toList) := rfl
  have hiff := randMemoHash.after_eq_iff codeMemoHash
    (randMemoHash.chain numItems (keccak512 seedHash.toList)) cacheRounds
  simp only [cacheAfter_eq, hchain, oldItemIrrelevant_iff, referenceAfter]
  refine ⟨hiff, fun h => ?_⟩
  rw [cacheItems, cacheAfter_eq, hchain, referenceCache]
  exact randMemoHash.after_eq_of_forall codeMemoHash _ (hiff.mpr h)

end Items

/-- The comparison for a cache of three items. -/
theorem cacheItems_eq_iff_three :
    ((∀ round < cacheRounds, ∀ i (hi : i ≤ 3),
        cacheAfter (countingHash 1) three_pos round i hi =
          referenceAfter (countingHash 1) 3 round i hi) ↔
      ∀ round < cacheRounds, ∀ i (hi : i < 3),
        OldItemIrrelevant (referenceAfter (countingHash 1) 3 round i hi.le) i hi) ∧
    ((∀ round < cacheRounds, ∀ i (hi : i < 3),
        OldItemIrrelevant (referenceAfter (countingHash 1) 3 round i hi.le) i hi) →
      cacheItems (countingHash 1) three_pos = referenceCache (countingHash 1) 3) :=
  cacheItems_eq_iff (countingHash 1) three_pos

section OneItem

lemma xorBytes_self (a : Hash64) : xorBytes a a = Vector.replicate 64 0 := by
  apply Vector.ext
  intro i hi
  rw [xorBytes, Vector.getElem_zipWith, Vector.getElem_replicate]
  exact BitVec.xor_self

lemma zero_xorBytes (a : Hash64) : xorBytes (Vector.replicate 64 0) a = a := by
  apply Vector.ext
  intro i hi
  rw [xorBytes, Vector.getElem_zipWith, Vector.getElem_replicate]
  exact BitVec.zero_xor

/-- An item that is its own predecessor and its own neighbour. -/
lemma item_one (rule : RandMemoHash.Rule Hash64) (a : Hash64) :
    rule.item #v[a] 0 one_pos = rule.hash (rule.mix a a a) := by
  have hkey : rule.key a % 1 = 0 := Nat.mod_one _
  simp [RandMemoHash.Rule.item, hkey]

/-- Three rounds over a single item. -/
lemma cache_one (rule : RandMemoHash.Rule Hash64) (a : Hash64) :
    rule.cache 3 1 a = #v[(fun a => rule.hash (rule.mix a a a))^[3] a] := by
  have hround : ∀ a, rule.round #v[a] = #v[rule.hash (rule.mix a a a)] := by
    intro a
    rw [← item_one]
    rfl
  have hchain : rule.chain 1 a = #v[a] := rfl
  rw [RandMemoHash.Rule.cache, RandMemoHash.Rule.after, hchain, forLoop_zero]
  simp only [forLoop_succ, forLoop_zero, hround]
  rfl

lemma keccak512_item (item : Hash64) :
    keccak512 item.toList = evalDigest 64 (by decide) item.toList :=
  keccak512_eq_evalDigest (by simp)

/-- The cache of one item that the zero seed gives is not that of Ethash: the code hashes the
item itself, Ethash the zeros that the item leaves when XORed with itself. -/
theorem cacheItems_zero_ne :
    cacheItems (Vector.replicate 32 0) one_pos ≠ referenceCache (Vector.replicate 32 0) 1 := by
  have hseed : keccak512 (Vector.replicate 32 0).toList =
      evalDigest 64 (by decide) (List.replicate 32 0) := keccak512_eq_evalDigest (by decide)
  have hcode : cacheItems (Vector.replicate 32 0) one_pos =
      codeMemoHash.cache 3 1 (keccak512 (Vector.replicate 32 0).toList) := cacheAfter_eq _ _ _ _ _
  rw [hcode, referenceCache, cache_one, cache_one, hseed]
  simp only [codeMemoHash, randMemoHash, xorBytes_self, zero_xorBytes, keccak512_item]
  decide +kernel

end OneItem

end OhMyMiner.Ethash
