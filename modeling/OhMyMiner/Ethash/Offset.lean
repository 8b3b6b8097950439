/-
# Items past 4 GiB

`Ethash::computeHashimoto` (`src/core/ethash.cpp`) forms the byte offset of an item, `idx * 64`, in
32 bits, so that it reads item `idx` modulo `2 ^ 26`.  It never leaves the DAG, but it walks as
Hashimoto does only as long as the items that are selected start below 4 GiB, or happen to hold
the bytes of the items that are read in their place.
-/
import OhMyMiner.Ethash.Item
import OhMyMiner.Ethash.Verify
import OhMyMiner.Keccak.Eval

namespace OhMyMiner.Ethash

open Lib Keccak

variable {dagSize : ℕ}

/-! ## The rounds -/

/-- The mix of `computeHashimoto` after `n` rounds. -/
def mixRounds (dag : Vector Byte dagSize) (headerHash : Hash32) (nonce : BitVec 64) (n : ℕ) :
    Option (Vector (BitVec 32) 16) :=
  let mix := keccak512 (seedBytes headerHash nonce)
  forLoop n (some (words32 mix)) fun i _ mixWords => do
    let mixWords ← mixWords
    if dagItems dagSize = 0 then none
    else mixItem dag (itemIndex (dagItems dagSize) nonce i mixWords) mixWords

lemma mixItems_eq_mixRounds (dag : Vector Byte dagSize) (headerHash : Hash32)
    (nonce : BitVec 64) : mixItems dag headerHash nonce = mixRounds dag headerHash nonce 64 := rfl

/-- Each round folds in the item whose index it has computed. -/
def MixesItems (dag : Vector Byte dagSize) (headerHash : Hash32) (nonce : BitVec 64) : Prop :=
  ∀ i < 64, ∃ mixWords, mixRounds dag headerHash nonce i = some mixWords ∧
    mixRounds dag headerHash nonce (i + 1) = some (fnvMix mixWords
      (item dag (itemIndex (dagItems dagSize) nonce i mixWords).toNat))

/-- The item that Hashimoto selects in round `i`. -/
def selected (dag : Vector Byte dagSize) (headerHash : Hash32) (nonce : BitVec 64) (i : ℕ) : ℕ :=
  (itemIndex (dagItems dagSize) nonce i (narrowMix dag headerHash nonce i)).toNat

/-- The item starts below 4 GiB, or holds the bytes of the item that its wrapped offset points
to. -/
def ReadsItem (dag : Vector Byte dagSize) (p : ℕ) : Prop :=
  p < 2 ^ 26 ∨ item dag (p % 2 ^ 26) = item dag p

/-! ## The offset wraps -/

lemma toNat_mul_wraps (idx : BitVec 32) : (idx * 64).toNat = 64 * (idx.toNat % 2 ^ 26) := by
  have h₆₄ : (64 : BitVec 32).toNat = 64 := rfl
  rw [BitVec.toNat_mul, h₆₄]
  omega

/-- A fold keeps items apart. -/
lemma fnvMix_right_inj {mix data data' : Vector (BitVec 32) 16} :
    fnvMix mix data = fnvMix mix data' ↔ data = data' := by
  constructor
  · intro h
    rw [fnvMix_eq, fnvMix_eq] at h
    apply Vector.ext
    intro k hk
    have hword : (Vector.zipWith Hashimoto.fnv mix data)[k] =
        (Vector.zipWith Hashimoto.fnv mix data')[k] := by rw [h]
    rw [Vector.getElem_zipWith, Vector.getElem_zipWith] at hword
    exact (BitVec.xor_right_inj _).mp hword
  · rintro rfl
    rfl

lemma readsItem_iff (dag : Vector Byte dagSize) (p : ℕ) :
    ReadsItem dag p ↔ item dag (p % 2 ^ 26) = item dag p := by
  constructor
  · rintro (hlt | heq)
    · rw [Nat.mod_eq_of_lt hlt]
    · exact heq
  · exact Or.inr

section Rounds

variable (dag : Vector Byte dagSize) (headerHash : Hash32) (nonce : BitVec 64)

/-- The mix when every offset wraps. -/
def wrappedMix (n : ℕ) : Vector (BitVec 32) 16 :=
  forLoop n (words32 (keccak512 (seedBytes headerHash nonce))) fun i _ mixWords =>
    fnvMix mixWords (item dag ((itemIndex (dagItems dagSize) nonce i mixWords).toNat % 2 ^ 26))

lemma wrappedMix_succ (n : ℕ) :
    wrappedMix dag headerHash nonce (n + 1) =
      fnvMix (wrappedMix dag headerHash nonce n)
        (item dag ((itemIndex (dagItems dagSize) nonce n
          (wrappedMix dag headerHash nonce n)).toNat % 2 ^ 26)) := rfl

/-- **No round leaves the DAG**, whatever the offsets. -/
lemma mixRounds_eq (hmin : 64 ≤ dagSize) (hlt : dagSize < 2 ^ 38) (n : ℕ) :
    mixRounds dag headerHash nonce n = some (wrappedMix dag headerHash nonce n) := by
  have hne : dagItems dagSize ≠ 0 := by
    intro hzero
    have heq := toNat_dagItems_of_lt hlt
    have hzero' : (0 : BitVec 32).toNat = 0 := rfl
    rw [hzero, hzero'] at heq
    omega
  rw [mixRounds, wrappedMix]
  refine forLoop_some fun i _ mixWords => ?_
  have hitem := itemIndex_lt_of_lt hmin hlt nonce i mixWords
  have hle := Nat.mod_le (itemIndex (dagItems dagSize) nonce i mixWords).toNat (2 ^ 26)
  rw [← mixItem_of_offset dag (toNat_mul_wraps _) (by omega) mixWords]
  exact if_neg hne

/-- A round is right exactly if the item that is read holds the bytes of the item that is
selected. -/
lemma mixesItems_iff_wrapped (hmin : 64 ≤ dagSize) (hlt : dagSize < 2 ^ 38) :
    MixesItems dag headerHash nonce ↔ ∀ i < 64, ReadsItem dag
      (itemIndex (dagItems dagSize) nonce i (wrappedMix dag headerHash nonce i)).toNat := by
  rw [MixesItems]
  refine forall₂_congr fun i _ => ?_
  simp only [mixRounds_eq dag headerHash nonce hmin hlt, wrappedMix_succ, readsItem_iff]
  constructor
  · rintro ⟨mixWords, hmix, hnext⟩
    obtain rfl := Option.some.inj hmix
    exact fnvMix_right_inj.mp (Option.some.inj hnext)
  · intro heq
    exact ⟨_, rfl, by rw [heq]⟩

/-- As long as the items that are read hold the right bytes, the walk is that of Hashimoto. -/
lemma wrappedMix_eq {n : ℕ} (h : ∀ i < n, ReadsItem dag
      (itemIndex (dagItems dagSize) nonce i (wrappedMix dag headerHash nonce i)).toNat) :
    wrappedMix dag headerHash nonce n = narrowMix dag headerHash nonce n :=
  forLoop_eq_of_agree fun i hi =>
    congrArg (fnvMix (wrappedMix dag headerHash nonce i)) ((readsItem_iff dag _).mp (h i hi))

/-- The same, seen from the walk of Hashimoto. -/
lemma narrowMix_eq {n : ℕ} (h : ∀ i < n, ReadsItem dag (selected dag headerHash nonce i)) :
    narrowMix dag headerHash nonce n = wrappedMix dag headerHash nonce n :=
  forLoop_eq_of_agree fun i hi =>
    congrArg (fnvMix (narrowMix dag headerHash nonce i)) ((readsItem_iff dag _).mp (h i hi)).symm

/-- **Which walks are right**: those on which the items that Hashimoto selects are read. -/
lemma mixesItems_iff (hmin : 64 ≤ dagSize) (hlt : dagSize < 2 ^ 38) :
    MixesItems dag headerHash nonce ↔
      ∀ i < 64, ReadsItem dag (selected dag headerHash nonce i) := by
  rw [mixesItems_iff_wrapped dag headerHash nonce hmin hlt]
  constructor
  · intro h i hi
    rw [selected, ← wrappedMix_eq dag headerHash nonce fun j hj => h j (by omega)]
    exact h i hi
  · intro h i hi
    rw [← narrowMix_eq dag headerHash nonce fun j hj => h j (by omega)]
    exact h i hi

end Rounds

/-! ## A nonce that selects an item past 4 GiB -/

/-- The item that the zero header and the nonce 22730 select first, in every larger DAG. -/
def farItem : ℕ := 67203337

/-- A DAG of zeros but for the bytes of that item. -/
def farDag (dagSize : ℕ) : Vector Byte dagSize :=
  Vector.ofFn fun k => if k.1 / 64 = farItem then 1 else 0

lemma getD_farDag {k : ℕ} (hk : k < dagSize) :
    (farDag dagSize).toList.getD k 0 = if k / 64 = farItem then 1 else 0 := by
  rw [List.getD_eq_getElem?_getD, List.getElem?_eq_getElem (by simpa using hk)]
  simp [farDag]

/-- Equal items have the same first byte. -/
lemma getD_of_item_eq {dag : Vector Byte dagSize} {p q : ℕ} (h : item dag p = item dag q) :
    dag.toList.getD (64 * p) 0 = dag.toList.getD (64 * q) 0 := by
  have hfirst : ∀ r, byteAt (firstWord (item dag r)) 0 = dag.toList.getD (64 * r) 0 := by
    intro r
    rw [firstWord, item, Vector.getElem_ofFn, byteAt_leWord (by decide) _ (by decide)]
    rfl
  rw [← hfirst, ← hfirst, h]

lemma firstSelection :
    fnv1a ((22730 : BitVec 64).setWidth 32 ^^^ BitVec.ofNat 32 0)
      ((words32 (keccak512 (seedBytes (Vector.replicate 32 0) 22730))).get (Fin.ofNat 16 0)) =
        BitVec.ofNat 32 farItem := by
  rw [keccak512_eq_evalDigest (by simp [seedBytes, leBytes])]
  decide +kernel

/-- The item is selected and not read. -/
lemma not_mixesItems_farDag (hmin : 64 * (farItem + 1) ≤ dagSize) (hlt : dagSize < 2 ^ 38) :
    ¬ MixesItems (farDag dagSize) (Vector.replicate 32 0) 22730 := by
  have hfar : farItem = 67203337 := rfl
  rw [mixesItems_iff _ _ _ (by omega) hlt]
  intro h
  have hselected : selected (farDag dagSize) (Vector.replicate 32 0) 22730 0 = farItem := by
    have hitems := toNat_dagItems_of_lt hlt
    show (fnv1a _ _ % dagItems dagSize).toNat = farItem
    rw [BitVec.toNat_umod, hitems]
    show (fnv1a ((22730 : BitVec 64).setWidth 32 ^^^ BitVec.ofNat 32 0)
      ((words32 (keccak512 (seedBytes (Vector.replicate 32 0) 22730))).get
        (Fin.ofNat 16 0))).toNat % (dagSize / 64) = farItem
    rw [firstSelection, BitVec.toNat_ofNat, Nat.mod_eq_of_lt (by omega : farItem < 2 ^ 32),
      Nat.mod_eq_of_lt (by omega)]
  have hread := (readsItem_iff _ _).mp (h 0 (by decide))
  rw [hselected] at hread
  have hbytes := getD_of_item_eq hread
  rw [getD_farDag (by omega), getD_farDag (by omega)] at hbytes
  exact absurd hbytes (by decide)

/-! ## The epochs -/

/-- The DAGs of up to 4 GiB: the growth is halved at epoch 390, five epochs too late for it. -/
lemma getDatasetSize_le_iff {epoch : BitVec 32} :
    (getDatasetSize epoch).toNat ≤ 2 ^ 32 ↔
      epoch.toNat ≤ 384 ∨ (390 ≤ epoch.toNat ∧ epoch.toNat < 770) := by
  rw [toNat_getDatasetSize, toNat_dagEpoch]
  split <;> omega

/-- **Which items `computeHashimoto` mixes in.**  No round leaves the DAG.  A walk is right exactly
if each item that Hashimoto selects on it starts below 4 GiB, or holds the bytes of the item that
is read in its place; every walk over the DAG of an epoch is right exactly if the DAG has no more
than 4 GiB. -/
theorem computeHashimoto_items (epoch : BitVec 32) (h : epoch.toNat < 2000) :
    (∀ (dag : Vector Byte (getDatasetSize epoch).toNat) (headerHash : Hash32) (nonce : BitVec 64),
        (MixesItems dag headerHash nonce ↔
          ∀ i < 64, ReadsItem dag (selected dag headerHash nonce i)) ∧
        ∃ mixWords, mixItems dag headerHash nonce = some mixWords) ∧
      ((∀ (dag : Vector Byte (getDatasetSize epoch).toNat) (headerHash : Hash32)
          (nonce : BitVec 64), MixesItems dag headerHash nonce) ↔
        epoch.toNat ≤ 384 ∨ (390 ≤ epoch.toNat ∧ epoch.toNat < 770)) := by
  have hsize := toNat_getDatasetSize epoch
  have hdagEpoch := toNat_dagEpoch_lt h
  have hmin : 64 ≤ (getDatasetSize epoch).toNat := by omega
  have hlt : (getDatasetSize epoch).toNat < 2 ^ 38 := by omega
  refine ⟨fun dag headerHash nonce => ⟨mixesItems_iff dag headerHash nonce hmin hlt, ?_⟩, ?_⟩
  · rw [mixItems_eq_mixRounds, mixRounds_eq dag headerHash nonce hmin hlt]
    exact ⟨_, rfl⟩
  · rw [← getDatasetSize_le_iff]
    constructor
    · intro hall
      by_contra hgt
      have hfar : farItem = 67203337 := rfl
      exact not_mixesItems_farDag (by omega) hlt (hall _ _ _)
    · intro hle dag headerHash nonce
      rw [mixesItems_iff dag headerHash nonce hmin hlt]
      intro i _
      have hitem := itemIndex_lt_of_lt hmin hlt nonce i (narrowMix dag headerHash nonce i)
      exact Or.inl (lt_of_lt_of_le hitem (by omega))

/-- The walks of epoch 0. -/
theorem computeHashimoto_items_zero :
    (∀ (dag : Vector Byte (getDatasetSize 0).toNat) (headerHash : Hash32) (nonce : BitVec 64),
        MixesItems dag headerHash nonce) ↔
      (0 : BitVec 32).toNat ≤ 384 ∨ (390 ≤ (0 : BitVec 32).toNat ∧ (0 : BitVec 32).toNat < 770) :=
  (computeHashimoto_items 0 (by decide)).2

/-- In epoch 770, a nonce selects an item past 4 GiB that is not read. -/
theorem not_mixesItems_770 :
    ¬ ∀ (dag : Vector Byte (getDatasetSize 770).toNat) (headerHash : Hash32) (nonce : BitVec 64),
      MixesItems dag headerHash nonce := by
  have hsize : (getDatasetSize 770).toNat = 64 * (2 ^ 26 + 2 ^ 17) := by decide
  have hfar : farItem = 67203337 := rfl
  intro h
  exact not_mixesItems_farDag (by omega) (by omega) (h _ _ _)

end OhMyMiner.Ethash
