/-
# Hexadecimal texts

`HexUtils::hexToHash32` and `HexUtils::hash32ToHex` (`src/utils/hex_utils.cpp`).  A text denotes a
hash if it has at most 64 digits, behind a `0x` or not, and the digits and the bytes of the hash
are the same number.
-/
import OhMyMiner.Types

namespace OhMyMiner.Utils

open Lib

variable {n : ℕ}

/-! ## The code -/

/-- `HexUtils::hexCharToValue`; there is no value where the source returns -1. -/
def hexCharToValue (c : Byte) : Option Byte :=
  if 0x30 ≤ c ∧ c ≤ 0x39 then some (c - 0x30)
  else if 0x61 ≤ c ∧ c ≤ 0x66 then some (c - 0x61 + 10)
  else if 0x41 ≤ c ∧ c ≤ 0x46 then some (c - 0x41 + 10)
  else none

/-- "Remove 0x prefix if present". -/
def strip0x : List Byte → List Byte
  | zero :: x :: str => if zero = 0x30 ∧ (x = 0x78 ∨ x = 0x58) then str else zero :: x :: str
  | str => str

/-- The loop over the pairs of digits, from byte `i` on. -/
def convertPairs : List Byte → ℕ → Vector Byte n → Bool × Vector Byte n
  | high :: low :: str, i, hash =>
    match hexCharToValue high, hexCharToValue low with
    | some high, some low => convertPairs str (i + 1) (hash.setIfInBounds i (high <<< 4 ||| low))
    | _, _ => (false, hash)
  | _, _, hash => (true, hash)

/-- `HexUtils::hexToHash32`, for `n` bytes; `hash` is what the output holds before. -/
def hexToHash (hexStr : List Byte) (hash : Vector Byte n) : Bool × Vector Byte n :=
  let str := strip0x hexStr
  let str := if str.length < 2 * n then List.replicate (2 * n - str.length) 0x30 ++ str else str
  if str.length ≠ 2 * n then (false, hash) else convertPairs str 0 hash

/-- `HexUtils::hexToHash32`. -/
def hexToHash32 (hexStr : List Byte) (hash : Hash32) : Bool × Hash32 := hexToHash hexStr hash

/-- A digit as `std::hex` writes it. -/
def streamDigit (value : Byte) : Byte := if value ≤ 9 then 0x30 + value else 0x61 + (value - 10)

/-- A byte as `std::hex` writes it, with `std::setw(2)` and `std::setfill('0')`. -/
def streamByte (b : Byte) : List Byte := [streamDigit (b >>> 4), streamDigit (b &&& 0xF)]

/-- `HexUtils::hash32ToHex`. -/
def hash32ToHex (hash : Hash32) (with0x : Bool) : List Byte :=
  (if with0x then [0x30, 0x78] else []) ++ hash.toList.flatMap streamByte

/-! ## What a text denotes -/

/-- The number that a sequence of digits denotes, the most significant digit first. -/
def hexNumber : List Byte → Option ℕ
  | [] => some 0
  | c :: digits => do
    let value ← hexCharToValue c
    let number ← hexNumber digits
    return value.toNat * 16 ^ digits.length + number

/-- The text denotes the hash. -/
def Denotes (text : List Byte) (hash : Vector Byte n) : Prop :=
  ∃ digits, (text = digits ∨ text = 0x30 :: 0x78 :: digits ∨ text = 0x30 :: 0x58 :: digits) ∧
    digits.length ≤ 2 * n ∧ hexNumber digits = some (beValue hash.toList)

lemma hexNumber_cons {c v : Byte} (h : hexCharToValue c = some v) (digits : List Byte) :
    hexNumber (c :: digits) =
      (hexNumber digits).map fun number => v.toNat * 16 ^ digits.length + number := by
  rw [hexNumber, h]
  cases hexNumber digits <;> rfl

lemma hexNumber_cons_none {c : Byte} (h : hexCharToValue c = none) (digits : List Byte) :
    hexNumber (c :: digits) = none := by
  rw [hexNumber, h]
  rfl

/-- Leading zeros change nothing. -/
lemma hexNumber_replicate_append (k : ℕ) (digits : List Byte) :
    hexNumber (List.replicate k 0x30 ++ digits) = hexNumber digits := by
  induction k with
  | zero => rfl
  | succ k ih =>
    have hzero : hexCharToValue 0x30 = some 0 := by decide
    rw [List.replicate_succ, List.cons_append, hexNumber_cons hzero, ih]
    simp

/-- A text with an `x` in it is not made of digits. -/
lemma hexNumber_x {x : Byte} (hx : x = 0x78 ∨ x = 0x58) (c : Byte) (digits : List Byte) :
    hexNumber (c :: x :: digits) = none := by
  have hnone : hexCharToValue x = none := by
    rcases hx with rfl | rfl <;> decide
  cases hc : hexCharToValue c with
  | none => exact hexNumber_cons_none hc _
  | some v => rw [hexNumber_cons hc, hexNumber_cons_none hnone, Option.map_none]

/-- Digits have no `0x` in front. -/
lemma strip0x_of_hexNumber {text : List Byte} {number : ℕ} (h : hexNumber text = some number) :
    strip0x text = text := by
  rw [strip0x.eq_def]
  split
  · next zero x str =>
    split
    · next h0x =>
      rw [hexNumber_x h0x.2] at h
      exact absurd h (by simp)
    · rfl
  · rfl

/-- What is in front of the rest. -/
lemma strip0x_cases (text : List Byte) :
    text = strip0x text ∨ text = 0x30 :: 0x78 :: strip0x text ∨
      text = 0x30 :: 0x58 :: strip0x text := by
  rw [strip0x.eq_def]
  split
  · next zero x str =>
    split
    · next h0x =>
      obtain ⟨rfl, rfl | rfl⟩ := h0x
      · exact Or.inr (Or.inl rfl)
      · exact Or.inr (Or.inr rfl)
    · exact Or.inl rfl
  · exact Or.inl rfl

/-- **What is removed is the `0x` of a text that has one.** -/
lemma denotes_iff (text : List Byte) (hash : Vector Byte n) :
    Denotes text hash ↔ (strip0x text).length ≤ 2 * n ∧
      hexNumber (strip0x text) = some (beValue hash.toList) := by
  constructor
  · rintro ⟨digits, rfl | rfl | rfl, hlength, hnumber⟩
    · rw [strip0x_of_hexNumber hnumber]
      exact ⟨hlength, hnumber⟩
    · exact ⟨hlength, hnumber⟩
    · exact ⟨hlength, hnumber⟩
  · rintro ⟨hlength, hnumber⟩
    exact ⟨strip0x text, strip0x_cases text, hlength, hnumber⟩

/-! ## Pairs of digits -/

/-- The bytes of pairs of digits. -/
def hexPairs : List Byte → Option (List Byte)
  | high :: low :: str => do
    let high ← hexCharToValue high
    let low ← hexCharToValue low
    let bytes ← hexPairs str
    return (high <<< 4 ||| low) :: bytes
  | _ => some []

lemma toNat_hexCharToValue_lt {c v : Byte} (h : hexCharToValue c = some v) : v.toNat < 16 := by
  rw [hexCharToValue] at h
  split_ifs at h with hdigit hlower hupper
  · obtain rfl := Option.some.inj h
    bv_omega
  · obtain rfl := Option.some.inj h
    bv_omega
  · obtain rfl := Option.some.inj h
    bv_omega

/-- A byte is its high digit times sixteen plus its low digit. -/
lemma toNat_pair {high low : Byte} (hhigh : high.toNat < 16) (hlow : low.toNat < 16) :
    (high <<< 4 ||| low).toNat = high.toNat * 16 + low.toNat := by
  have hshift : (high <<< 4).toNat = high.toNat <<< 4 := by
    rw [BitVec.toNat_shiftLeft]
    refine Nat.mod_eq_of_lt ?_
    rw [Nat.shiftLeft_eq]
    omega
  rw [BitVec.toNat_or, hshift, ← Nat.shiftLeft_add_eq_or_of_lt hlow, Nat.shiftLeft_eq]

lemma hexPairs_cons {c d high low : Byte} (hhigh : hexCharToValue c = some high)
    (hlow : hexCharToValue d = some low) (str : List Byte) :
    hexPairs (c :: d :: str) = (hexPairs str).map ((high <<< 4 ||| low) :: ·) := by
  rw [hexPairs, hhigh, hlow]
  cases hexPairs str <;> rfl

lemma hexPairs_cons_none {c d : Byte} (h : hexCharToValue c = none ∨ hexCharToValue d = none)
    (str : List Byte) : hexPairs (c :: d :: str) = none := by
  rw [hexPairs]
  rcases h with h | h
  · rw [h]
    rfl
  · rw [h]
    cases hexCharToValue c <;> rfl

/-- An even number of characters comes in pairs. -/
lemma exists_pair {k : ℕ} {str : List Byte} (h : str.length = 2 * (k + 1)) :
    ∃ c d rest, str = c :: d :: rest ∧ rest.length = 2 * k := by
  rcases str with _ | ⟨c, _ | ⟨d, rest⟩⟩
  · simp at h
  · simp at h
    omega
  · refine ⟨c, d, rest, rfl, ?_⟩
    simp only [List.length_cons] at h
    omega

lemma length_hexPairs {k : ℕ} {str bytes : List Byte} (hlength : str.length = 2 * k)
    (h : hexPairs str = some bytes) : bytes.length = k := by
  induction k generalizing str bytes with
  | zero =>
    obtain rfl := List.length_eq_zero_iff.mp hlength
    obtain rfl := Option.some.inj h
    rfl
  | succ k ih =>
    obtain ⟨c, d, rest, rfl, hrest⟩ := exists_pair hlength
    cases hc : hexCharToValue c with
    | none => exact absurd (h.symm.trans (hexPairs_cons_none (Or.inl hc) rest)) (by simp)
    | some high =>
      cases hd : hexCharToValue d with
      | none => exact absurd (h.symm.trans (hexPairs_cons_none (Or.inr hd) rest)) (by simp)
      | some low =>
        rw [hexPairs_cons hc hd] at h
        obtain ⟨bytes', hbytes, rfl⟩ := Option.map_eq_some_iff.mp h
        rw [List.length_cons, ih hrest hbytes]

/-- **Digits and bytes are the same number.** -/
lemma hexNumber_eq {k : ℕ} {str : List Byte} (hlength : str.length = 2 * k) :
    hexNumber str = (hexPairs str).map beValue := by
  induction k generalizing str with
  | zero =>
    obtain rfl := List.length_eq_zero_iff.mp hlength
    rfl
  | succ k ih =>
    obtain ⟨c, d, rest, rfl, hrest⟩ := exists_pair hlength
    cases hc : hexCharToValue c with
    | none => rw [hexNumber_cons_none hc, hexPairs_cons_none (Or.inl hc), Option.map_none]
    | some high =>
      cases hd : hexCharToValue d with
      | none =>
        rw [hexNumber_cons hc, hexNumber_cons_none hd, hexPairs_cons_none (Or.inr hd)]
        rfl
      | some low =>
        rw [hexNumber_cons hc, hexNumber_cons hd, hexPairs_cons hc hd, ih hrest]
        cases hbytes : hexPairs rest with
        | none => rfl
        | some bytes =>
          have hpair := toNat_pair (toNat_hexCharToValue_lt hc) (toNat_hexCharToValue_lt hd)
          have hpow : (256 : ℕ) ^ bytes.length = 16 ^ rest.length := by
            rw [length_hexPairs hrest hbytes, hrest, pow_mul]
            norm_num
          simp only [Option.map_some, List.length_cons, beValue_cons, hpair, hpow, pow_succ]
          congr 1
          ring

/-- What the loop does: it stops at a pair that has a bad digit in it. -/
lemma convertPairs_eq {k : ℕ} {str : List Byte} (hlength : str.length = 2 * k) {i : ℕ}
    (hn : i + k = n) (hash out : Vector Byte n) :
    convertPairs str i hash = (true, out) ↔
      ∃ bytes, hexPairs str = some bytes ∧ out.toList = hash.toList.take i ++ bytes := by
  induction k generalizing str i hash with
  | zero =>
    obtain rfl := List.length_eq_zero_iff.mp hlength
    have htake : hash.toList.take i = hash.toList := by
      rw [List.take_of_length_le]
      simp [← hn]
    simp only [convertPairs, hexPairs, Prod.mk.injEq, true_and, Option.some.injEq,
      exists_eq_left', List.append_nil, htake]
    rw [eq_comm, Vector.toList_inj]
  | succ k ih =>
    obtain ⟨c, d, rest, rfl, hrest⟩ := exists_pair hlength
    rw [convertPairs]
    cases hc : hexCharToValue c with
    | none => simp [hexPairs_cons_none (Or.inl hc)]
    | some high =>
      cases hd : hexCharToValue d with
      | none => simp [hexPairs_cons_none (Or.inr hd)]
      | some low =>
        have hi : i < n := by omega
        have htake : (hash.setIfInBounds i (high <<< 4 ||| low)).toList.take (i + 1) =
            hash.toList.take i ++ [high <<< 4 ||| low] := by
          rw [Vector.toList_setIfInBounds, List.take_add_one, List.take_set_of_le le_rfl,
            List.getElem?_set_self (by simpa using hi)]
          rfl
        dsimp only
        rw [ih hrest (by omega), hexPairs_cons hc hd, htake]
        constructor
        · rintro ⟨bytes, hbytes, hout⟩
          exact ⟨_, by rw [hbytes, Option.map_some], by rw [hout, List.append_assoc]; rfl⟩
        · rintro ⟨bytes, hbytes, hout⟩
          obtain ⟨bytes', hbytes', rfl⟩ := Option.map_eq_some_iff.mp hbytes
          exact ⟨bytes', hbytes', by rw [hout, List.append_assoc]; rfl⟩

/-- The text that `hexToHash32` converts, padded with zeros. -/
def padded (n : ℕ) (str : List Byte) : List Byte :=
  if str.length < 2 * n then List.replicate (2 * n - str.length) 0x30 ++ str else str

lemma length_padded {str : List Byte} (h : str.length ≤ 2 * n) :
    (padded n str).length = 2 * n := by
  rw [padded]
  split
  · rw [List.length_append, List.length_replicate]
    omega
  · omega

lemma hexNumber_padded (n : ℕ) (str : List Byte) : hexNumber (padded n str) = hexNumber str := by
  rw [padded]
  split
  · exact hexNumber_replicate_append _ _
  · rfl

/-- **`hexToHash32` decodes what denotes a hash, and nothing else.** -/
theorem hexToHash_eq_true_iff (hexStr : List Byte) (hash out : Vector Byte n) :
    hexToHash hexStr hash = (true, out) ↔ Denotes hexStr out := by
  rw [denotes_iff]
  have hcode : hexToHash hexStr hash =
      if (padded n (strip0x hexStr)).length ≠ 2 * n then (false, hash)
      else convertPairs (padded n (strip0x hexStr)) 0 hash := rfl
  rw [hcode]
  by_cases hlength : (strip0x hexStr).length ≤ 2 * n
  · have hpadded := length_padded hlength
    rw [if_neg (not_not_intro hpadded), convertPairs_eq hpadded (zero_add n),
      ← hexNumber_padded n, hexNumber_eq hpadded]
    constructor
    · rintro ⟨bytes, hbytes, hout⟩
      rw [hbytes, hout]
      exact ⟨hlength, rfl⟩
    · rintro ⟨-, hnumber⟩
      obtain ⟨bytes, hbytes, hvalue⟩ := Option.map_eq_some_iff.mp hnumber
      have hlen : bytes.length = out.toList.length := by
        rw [length_hexPairs hpadded hbytes, Vector.length_toList]
      exact ⟨bytes, hbytes, (eq_of_beValue_eq hlen hvalue).symm⟩
  · have hlong : (padded n (strip0x hexStr)).length ≠ 2 * n := by
      rw [padded, if_neg (by omega)]
      omega
    rw [if_pos hlong]
    simp [hlength]

/-- A text denotes at most one hash. -/
lemma Denotes.eq {text : List Byte} {hash hash' : Vector Byte n} (h : Denotes text hash)
    (h' : Denotes text hash') : hash = hash' := by
  have hdecode := (hexToHash_eq_true_iff text hash hash).mpr h
  rw [(hexToHash_eq_true_iff text hash hash').mpr h'] at hdecode
  exact (congrArg Prod.snd hdecode).symm

/-- A text that denotes nothing is refused. -/
lemma hexToHash_fst_iff (hexStr : List Byte) (hash : Vector Byte n) :
    (hexToHash hexStr hash).1 = true ↔ ∃ out : Vector Byte n, Denotes hexStr out := by
  constructor
  · intro h
    exact ⟨_, (hexToHash_eq_true_iff hexStr hash _).mp (Prod.ext h rfl)⟩
  · rintro ⟨out, hout⟩
    rw [(hexToHash_eq_true_iff hexStr hash out).mpr hout]

/-! ## Writing and reading -/

lemma hexPairs_flatMap_streamByte (bytes : List Byte) :
    hexPairs (bytes.flatMap streamByte) = some bytes := by
  have hhigh : ∀ b : Byte, hexCharToValue (streamDigit (b >>> 4)) = some (b >>> 4) := by decide
  have hlow : ∀ b : Byte, hexCharToValue (streamDigit (b &&& 0xF)) = some (b &&& 0xF) := by decide
  have hboth : ∀ b : Byte, (b >>> 4) <<< 4 ||| b &&& 0xF = b := by decide
  induction bytes with
  | nil => rfl
  | cons b bytes ih =>
    rw [List.flatMap_cons, streamByte, List.cons_append, List.cons_append, List.nil_append,
      hexPairs_cons (hhigh b) (hlow b), ih, hboth]
    rfl

/-- Bytes written out, behind a `0x` or not, denote the bytes. -/
lemma denotes_streamBytes (hash : Vector Byte n) (with0x : Bool) :
    Denotes ((if with0x then [0x30, 0x78] else []) ++ hash.toList.flatMap streamByte) hash := by
  have hlength : (hash.toList.flatMap streamByte).length = 2 * n := by
    simp [List.length_flatMap, streamByte, Nat.mul_comm]
  refine ⟨hash.toList.flatMap streamByte, ?_, hlength.le, ?_⟩
  · cases with0x
    · exact Or.inl rfl
    · exact Or.inr (Or.inl rfl)
  · rw [hexNumber_eq hlength, hexPairs_flatMap_streamByte]
    rfl

/-- **What `hash32ToHex` writes denotes the hash.** -/
theorem denotes_hash32ToHex (hash : Hash32) (with0x : Bool) :
    Denotes (hash32ToHex hash with0x) hash := denotes_streamBytes hash with0x

/-- Digits are ASCII. -/
lemma toNat_hash32ToHex_lt (hash : Hash32) (with0x : Bool) :
    ∀ b ∈ hash32ToHex hash with0x, b.toNat < 128 := by
  have hdigit : ∀ value : Byte, value < 16 → (streamDigit value).toNat < 128 := by
    intro value hvalue
    rw [streamDigit]
    split <;> bv_omega
  have hhigh : ∀ b : Byte, b >>> 4 < 16 := by decide
  have hlow : ∀ b : Byte, b &&& 0xF < 16 := by decide
  intro b hb
  rcases List.mem_append.mp hb with h0x | hdigits
  · cases with0x with
    | false => exact absurd h0x List.not_mem_nil
    | true =>
      rcases List.mem_cons.mp h0x with rfl | h
      · decide
      · obtain rfl := List.mem_singleton.mp h
        decide
  · obtain ⟨byte, -, hmem⟩ := List.mem_flatMap.mp hdigits
    rcases List.mem_cons.mp hmem with rfl | h
    · exact hdigit _ (hhigh byte)
    · obtain rfl := List.mem_singleton.mp h
      exact hdigit _ (hlow byte)

end OhMyMiner.Utils
