/-
# The Keccak sponge on bytes

A sponge turns a permutation `f` of `b` bytes into a hash of byte strings of any length.  The
message is padded to a multiple of the rate, each block of `rate` bytes is XORed into the front
of the state and the state is permuted, and the digest is read off the front of the final
state.  The padding is the one Keccak was published with: one byte `0x01`, zeros, one byte
`0x80`, the two merged into `0x81` when only one byte of room is left.

An implementation does not pad first: it absorbs the full blocks as they come and pads what is
left.  The two equations `absorbAll_of_lt` and `absorbAll_of_le` say what that amounts to, and
determine the sponge.
-/
import Mathlib.Data.List.GetD
import OhMyMiner.Lib.Bytes

namespace OhMyMiner.Lib.Sponge

variable {b : ℕ}

/-- The padded message. -/
def pad (rate : ℕ) (msg : List Byte) : List Byte :=
  if rate - msg.length % rate = 1 then msg ++ [0x81]
  else msg ++ 0x01 :: (List.replicate (rate - msg.length % rate - 2) 0 ++ [0x80])

/-- XOR a block into the front of the state. -/
def xorBlock (S : Vector Byte b) (block : List Byte) : Vector Byte b :=
  Vector.ofFn fun i => S.get i ^^^ block.getD i 0

/-- Absorb the first `n` blocks of a padded message. -/
def absorb (f : Vector Byte b → Vector Byte b) (rate : ℕ) :
    ℕ → Vector Byte b → List Byte → Vector Byte b
  | 0, S, _ => S
  | n + 1, S, p => absorb f rate n (f (xorBlock S (p.take rate))) (p.drop rate)

/-- Pad a message and absorb all of its blocks. -/
def absorbAll (f : Vector Byte b → Vector Byte b) (rate : ℕ) (S : Vector Byte b)
    (msg : List Byte) : Vector Byte b :=
  absorb f rate ((pad rate msg).length / rate) S (pad rate msg)

/-- The digest of `outLen` bytes of a message. -/
def hash (f : Vector Byte b → Vector Byte b) (rate outLen : ℕ) (msg : List Byte) : List Byte :=
  (absorbAll f rate (Vector.replicate b 0) msg).toList.take outLen

/-! ## Padding -/

section Pad

variable {rate : ℕ} {msg : List Byte}

lemma length_pad (hrate : 0 < rate) :
    (pad rate msg).length = rate * (msg.length / rate + 1) := by
  have hlt : msg.length % rate < rate := Nat.mod_lt _ hrate
  have hdiv := Nat.div_add_mod msg.length rate
  rw [Nat.mul_succ, pad]
  split
  · simp only [List.length_append, List.length_singleton]
    omega
  · simp only [List.length_append, List.length_cons, List.length_replicate, List.length_nil]
    omega

/-- A message shorter than the rate is padded to one block. -/
lemma length_pad_of_lt (hlt : msg.length < rate) : (pad rate msg).length = rate := by
  rw [length_pad (by omega), Nat.div_eq_of_lt hlt, Nat.zero_add, Nat.mul_one]

/-- Padding leaves the full blocks of the message alone. -/
lemma pad_of_le (hle : rate ≤ msg.length) :
    pad rate msg = msg.take rate ++ pad rate (msg.drop rate) := by
  have hmod : (msg.drop rate).length % rate = msg.length % rate := by
    rw [List.length_drop, ← Nat.mod_eq_sub_mod hle]
  have hsplit : ∀ t, msg ++ t = msg.take rate ++ (msg.drop rate ++ t) := by
    intro t
    rw [← List.append_assoc, List.take_append_drop]
  rw [pad, pad, hmod]
  split
  · exact hsplit _
  · exact hsplit _

/-- The bytes of the last block: the rest of the message, with `0x01` XORed in behind it and
`0x80` XORed into the end of the block. -/
lemma getD_pad (hlt : msg.length < rate) {i : ℕ} (hi : i < rate) :
    (pad rate msg).getD i 0 =
      msg.getD i 0 ^^^ (if i = msg.length then 0x01 else 0) ^^^
        (if i = rate - 1 then 0x80 else 0) := by
  have hmod : msg.length % rate = msg.length := Nat.mod_eq_of_lt hlt
  rw [pad, hmod]
  rcases lt_trichotomy i msg.length with h | h | h
  · -- inside the message
    have hlen : i ≠ msg.length := by omega
    have hlast : i ≠ rate - 1 := by omega
    rw [if_neg hlen, if_neg hlast]
    split <;> simp [List.getD_eq_getElem?_getD, List.getElem?_append_left h]
  · -- the byte behind the message
    subst h
    rw [if_pos rfl]
    have hget : msg.getD msg.length 0 = 0 := List.getD_eq_default _ _ le_rfl
    rw [hget]
    split
    · next hroom =>
      rw [if_pos (by omega)]
      simp [List.getD_eq_getElem?_getD]
    · next hroom =>
      rw [if_neg (by omega)]
      simp [List.getD_eq_getElem?_getD]
  · -- the zeros and the end of the block
    have hroom : ¬ rate - msg.length = 1 := by omega
    have hget : msg.getD i 0 = 0 := List.getD_eq_default _ _ (by omega)
    obtain ⟨j, rfl⟩ : ∃ j, i = msg.length + 1 + j := ⟨i - msg.length - 1, by omega⟩
    rw [if_neg hroom, hget, if_neg (by omega)]
    have hskip : msg.length + 1 + j - msg.length = j + 1 := by omega
    rw [List.getD_eq_getElem?_getD, List.getElem?_append_right (by omega), hskip,
      List.getElem?_cons_succ]
    by_cases hj : j = rate - msg.length - 2
    · rw [if_pos (by omega), List.getElem?_append_right (by simp [hj])]
      simp [hj]
    · rw [if_neg (by omega), List.getElem?_append_left (by simp; omega), List.getElem?_replicate]
      rw [if_pos (by omega)]
      simp

end Pad

/-! ## Absorbing a message block by block -/

section Absorb

variable {f : Vector Byte b → Vector Byte b} {rate : ℕ} {S : Vector Byte b} {msg : List Byte}

lemma getElem_xorBlock (S : Vector Byte b) (block : List Byte) {i : ℕ} (hi : i < b) :
    (xorBlock S block)[i] = S[i] ^^^ block.getD i 0 := by
  rw [xorBlock, Vector.getElem_ofFn]
  rfl

lemma xorBlock_nil (S : Vector Byte b) : xorBlock S [] = S := by
  apply Vector.ext
  intro i hi
  simp [getElem_xorBlock]

/-- A message shorter than the rate is one block. -/
theorem absorbAll_of_lt (hlt : msg.length < rate) :
    absorbAll f rate S msg = f (xorBlock S (pad rate msg)) := by
  have hrate : 0 < rate := by omega
  have hlen : (pad rate msg).length = rate := length_pad_of_lt hlt
  have hone : (pad rate msg).length / rate = 1 := by rw [hlen, Nat.div_self hrate]
  rw [absorbAll, hone, absorb, absorb, List.take_of_length_le (by omega)]

/-- A message of at least one full block is absorbed by its first block and then the rest. -/
theorem absorbAll_of_le (hrate : 0 < rate) (hle : rate ≤ msg.length) :
    absorbAll f rate S msg =
      absorbAll f rate (f (xorBlock S (msg.take rate))) (msg.drop rate) := by
  have htake : (msg.take rate).length = rate := by simp [hle]
  have hblocks : (pad rate msg).length / rate = (pad rate (msg.drop rate)).length / rate + 1 := by
    rw [pad_of_le hle, List.length_append, htake, Nat.add_div_left _ hrate]
  rw [absorbAll, hblocks, absorb, absorbAll]
  rw [pad_of_le hle, List.take_left' htake, List.drop_left' htake]

end Absorb

end OhMyMiner.Lib.Sponge
