/-
# Hashimoto on the CPU, and the check of a solution

`Ethash::computeHashimoto` and `Ethash::verifySolution` (`src/core/ethash.cpp`).  The mix has 16
words, an access reads one item of 64 bytes, and the last hash is that of the header, the nonce
and the mix digest.
-/
import OhMyMiner.Ethash.Dataset

namespace OhMyMiner.Ethash

open Lib Keccak

variable {dagSize : ℕ}

/-! ## The code -/

/-- `headerHash || nonceLE`. -/
def seedBytes (headerHash : Hash32) (nonce : BitVec 64) : List Byte :=
  headerHash.toList ++ leBytes 8 nonce

/-- The word `((const uint32_t*)(dagBytes + offset))[w]`. -/
def dagWord (dag : Vector Byte dagSize) (offset w : ℕ) : Option (BitVec 32) :=
  if h : offset + 4 * w + 4 ≤ dagSize then
    some (leWord 32 4 fun b _ => dag[offset + 4 * w + b])
  else none

/-- `const uint32_t dagItems = static_cast<uint32_t>(dagSize / 64)`. -/
def dagItems (dagSize : ℕ) : BitVec 32 := BitVec.ofNat 32 (dagSize / 64)

/-- `fnv1a(static_cast<uint32_t>(nonce) ^ i, mixWords[i % MIX_WORDS]) % dagItems`. -/
def itemIndex (dagItems : BitVec 32) (nonce : BitVec 64) (i : ℕ)
    (mixWords : Vector (BitVec 32) 16) : BitVec 32 :=
  fnv1a (nonce.setWidth 32 ^^^ BitVec.ofNat 32 i) (mixWords.get (Fin.ofNat 16 i)) % dagItems

/-- One access: fold the item at `dagBytes + idx * 64` into the mix. -/
def mixItem (dag : Vector Byte dagSize) (idx : BitVec 32) (mixWords : Vector (BitVec 32) 16) :
    Option (Vector (BitVec 32) 16) :=
  forLoop 16 (some mixWords) fun w _ mixWords => do
    let mixWords ← mixWords
    let word ← dagWord dag (idx * 64).toNat w
    return mixWords.set w (fnv1a mixWords[w] word)

/-- `cmix[i] = fnv1a(mixWords[i], mixWords[i + 8])`. -/
def compressWords (mixWords : Vector (BitVec 32) 16) : Vector (BitVec 32) 8 :=
  forLoop 8 (Vector.replicate 8 0) fun i _ cmix =>
    cmix.set i (fnv1a mixWords[i] mixWords[i + 8])

/-- The mix after the 64 accesses. -/
def mixItems (dag : Vector Byte dagSize) (headerHash : Hash32) (nonce : BitVec 64) :
    Option (Vector (BitVec 32) 16) :=
  let mix := keccak512 (seedBytes headerHash nonce)
  forLoop 64 (some (words32 mix)) fun i _ mixWords => do
    let mixWords ← mixWords
    if dagItems dagSize = 0 then none
    else mixItem dag (itemIndex (dagItems dagSize) nonce i mixWords) mixWords

/-- `Ethash::computeHashimoto`: the values of `outMixHash` and `outResult`. -/
def computeHashimoto (headerHash : Hash32) (nonce : BitVec 64) (dag : Vector Byte dagSize) :
    Option (Hash32 × Hash32) :=
  if dagSize < 64 then some (Vector.replicate 32 0, Vector.replicate 32 0)
  else do
    let mixWords ← mixItems dag headerHash nonce
    let outMixHash : Hash32 := toBytes 4 hash32_words (compressWords mixWords)
    return (outMixHash, keccak256 (seedBytes headerHash nonce ++ outMixHash.toList))

/-- The first eight bytes of a result, as a little-endian value. -/
def resultValue (result : Hash32) : BitVec 64 :=
  forLoop 8 0 fun i _ resultValue => resultValue ||| (result[i].setWidth 64 <<< (8 * i))

/-- `Ethash::verifySolution`. -/
def verifySolution (headerHash : Hash32) (nonce : BitVec 64) (mixHash result : Hash32)
    (target : BitVec 64) : Bool :=
  if target ≤ resultValue result then false
  else keccak256 (seedBytes headerHash nonce ++ mixHash.toList) == result

/-! ## The values it computes -/

/-- Item `p` of the DAG, as words. -/
def item (dag : Vector Byte dagSize) (p : ℕ) : Vector (BitVec 32) 16 :=
  Vector.ofFn fun k => leWord 32 4 fun b _ => dag.toList.getD (64 * p + 4 * k.1 + b) 0

/-- The mix of 16 words after `n` accesses. -/
def narrowMix (dag : Vector Byte dagSize) (headerHash : Hash32) (nonce : BitVec 64) (n : ℕ) :
    Vector (BitVec 32) 16 :=
  forLoop n (words32 (keccak512 (seedBytes headerHash nonce))) fun i _ mixWords =>
    fnvMix mixWords (item dag (itemIndex (dagItems dagSize) nonce i mixWords).toNat)

/-- The digest of the mix of 16 words. -/
def narrowDigest (dag : Vector Byte dagSize) (headerHash : Hash32) (nonce : BitVec 64) : Hash32 :=
  toBytes 4 hash32_words (compressWords (narrowMix dag headerHash nonce 64))

/-- The hash of the header, the nonce and the digest. -/
def narrowHash (dag : Vector Byte dagSize) (headerHash : Hash32) (nonce : BitVec 64) : Hash32 :=
  keccak256 (seedBytes headerHash nonce ++ (narrowDigest dag headerHash nonce).toList)

section Accesses

/-- The loads of an access read the words of the item. -/
lemma dagWord_eq (dag : Vector Byte dagSize) {p offset w : ℕ} (hw : w < 16)
    (hoffset : offset = 64 * p) (hp : 64 * p + 64 ≤ dagSize) :
    dagWord dag offset w = some (item dag p)[w] := by
  subst hoffset
  rw [dagWord, dif_pos (by omega), item, Vector.getElem_ofFn]
  refine congrArg some (leWord_congr fun b hb => ?_)
  have hlt : 64 * p + 4 * w + b < dagSize := by omega
  rw [List.getD_eq_getElem?_getD, List.getElem?_eq_getElem (by simpa using hlt)]
  simp

/-- An access folds in the item that its offset points to. -/
lemma mixItem_of_offset (dag : Vector Byte dagSize) {idx : BitVec 32} {p : ℕ}
    (hoffset : (idx * 64).toNat = 64 * p) (hp : 64 * p + 64 ≤ dagSize)
    (mixWords : Vector (BitVec 32) 16) :
    mixItem dag idx mixWords = some (fnvMix mixWords (item dag p)) := by
  rw [mixItem, fnvMix]
  refine forLoop_some fun w hw mixWords => ?_
  rw [dagWord_eq dag hw hoffset hp]
  rfl

lemma mixItem_eq (dag : Vector Byte dagSize) {idx : BitVec 32}
    (hidx : (idx * 64).toNat = 64 * idx.toNat) (hitem : 64 * idx.toNat + 64 ≤ dagSize)
    (mixWords : Vector (BitVec 32) 16) :
    mixItem dag idx mixWords = some (fnvMix mixWords (item dag idx.toNat)) :=
  mixItem_of_offset dag hidx hitem mixWords

/-- The number of items fits in 32 bits. -/
lemma toNat_dagItems_of_lt (hlt : dagSize < 2 ^ 38) : (dagItems dagSize).toNat = dagSize / 64 := by
  rw [dagItems, BitVec.toNat_ofNat]
  omega

/-- Up to 4 GiB, the number of items and the offset of every item fit in 32 bits. -/
lemma toNat_dagItems (hle : dagSize ≤ 2 ^ 32) : (dagItems dagSize).toNat = dagSize / 64 :=
  toNat_dagItems_of_lt (by omega)

/-- The item that is selected is one of the DAG. -/
lemma itemIndex_lt_of_lt (hmin : 64 ≤ dagSize) (hlt : dagSize < 2 ^ 38) (nonce : BitVec 64) (i : ℕ)
    (mixWords : Vector (BitVec 32) 16) :
    (itemIndex (dagItems dagSize) nonce i mixWords).toNat < dagSize / 64 := by
  rw [itemIndex, BitVec.toNat_umod, toNat_dagItems_of_lt hlt]
  exact Nat.mod_lt _ (by omega)

lemma itemIndex_lt (hmin : 64 ≤ dagSize) (hle : dagSize ≤ 2 ^ 32) (nonce : BitVec 64) (i : ℕ)
    (mixWords : Vector (BitVec 32) 16) :
    (itemIndex (dagItems dagSize) nonce i mixWords).toNat < dagSize / 64 :=
  itemIndex_lt_of_lt hmin (by omega) nonce i mixWords

lemma toNat_mul_sixtyFour {idx : BitVec 32} (h : idx.toNat < 2 ^ 26) :
    (idx * 64).toNat = 64 * idx.toNat := by
  have h₆₄ : (64 : BitVec 32).toNat = 64 := rfl
  rw [BitVec.toNat_mul, h₆₄]
  omega

/-- Every access succeeds: no load is outside of the DAG, and no offset wraps. -/
lemma mixItems_eq (dag : Vector Byte dagSize) (hmin : 64 ≤ dagSize) (hle : dagSize ≤ 2 ^ 32)
    (headerHash : Hash32) (nonce : BitVec 64) :
    mixItems dag headerHash nonce = some (narrowMix dag headerHash nonce 64) := by
  have hne : dagItems dagSize ≠ 0 := by
    intro hzero
    have heq := toNat_dagItems hle
    have hzero' : (0 : BitVec 32).toNat = 0 := rfl
    rw [hzero, hzero'] at heq
    omega
  rw [mixItems, narrowMix]
  refine forLoop_some fun i _ mixWords => ?_
  have hlt := itemIndex_lt hmin hle nonce i mixWords
  have hmul := toNat_mul_sixtyFour (lt_of_lt_of_le hlt (by omega : dagSize / 64 ≤ 2 ^ 26))
  rw [← mixItem_eq dag hmul (by omega) mixWords]
  exact if_neg hne

/-- **The function is total up to 4 GiB.** -/
theorem computeHashimoto_eq (headerHash : Hash32) (nonce : BitVec 64) (dag : Vector Byte dagSize)
    (hmin : 64 ≤ dagSize) (hle : dagSize ≤ 2 ^ 32) :
    computeHashimoto headerHash nonce dag =
      some (narrowDigest dag headerHash nonce, narrowHash dag headerHash nonce) := by
  rw [computeHashimoto, if_neg (by omega), mixItems_eq dag hmin hle]
  rfl

end Accesses

/-- A solution whose result is the hash of its digest passes the check of every larger target. -/
lemma verifySolution_of_hash {headerHash mixHash result : Hash32} {nonce target : BitVec 64}
    (hhash : keccak256 (seedBytes headerHash nonce ++ mixHash.toList) = result)
    (htarget : resultValue result < target) :
    verifySolution headerHash nonce mixHash result target = true := by
  rw [verifySolution, if_neg (BitVec.not_le.mpr htarget), hhash, beq_self_eq_true]

end OhMyMiner.Ethash
