/-
# Hexadecimal texts as numbers

The other codecs of `HexUtils` (`src/utils/hex_utils.cpp`): `hexToHash64` and `hash64ToHex` for
hashes of 64 bytes, `hexToUint64` and `uint64ToHex` for 64-bit values.  All decoders accept the
texts that are hex digits behind at most one `0x`, within their limits of length, and return the
number that the digits denote.
-/
import Mathlib.Data.List.TakeWhile
import OhMyMiner.Utils.Hex

namespace OhMyMiner.Utils

open Lib

/-! ## The code -/

/-- `HexUtils::hexToHash64`. -/
def hexToHash64 (hexStr : List Byte) (hash : Hash64) : Bool × Hash64 := hexToHash hexStr hash

/-- `HexUtils::hash64ToHex`. -/
def hash64ToHex (hash : Hash64) (with0x : Bool) : List Byte :=
  (if with0x then [0x30, 0x78] else []) ++ hash.toList.flatMap streamByte

/-- The loop of `hexToUint64` over the digits. -/
def convertDigits : List Byte → BitVec 64 → Bool × BitVec 64
  | c :: str, value =>
    match hexCharToValue c with
    | some val => convertDigits str (value <<< 4 ||| val.setWidth 64)
    | none => (false, value)
  | [], value => (true, value)

/-- `HexUtils::hexToUint64`; `value` is what the output holds before. -/
def hexToUint64 (hexStr : List Byte) (value : BitVec 64) : Bool × BitVec 64 :=
  let str := strip0x hexStr
  if str.isEmpty || 16 < str.length then (false, value) else convertDigits str 0

/-- The last `count` hex digits of a value, as `std::hex` writes them. -/
def lastDigits (count : ℕ) (value : BitVec 64) : List Byte :=
  (List.range count).reverse.map fun i => streamDigit ((value >>> (4 * i)).setWidth 8 &&& 0xF)

/-- A value as `std::hex` writes it: no leading zeros, but one digit at least. -/
def streamValue (value : BitVec 64) : List Byte :=
  match (lastDigits 16 value).dropWhile (· == 0x30) with
  | [] => [0x30]
  | digits => digits

/-- `HexUtils::uint64ToHex`. -/
def uint64ToHex (value : BitVec 64) (with0x : Bool) : List Byte :=
  (if with0x then [0x30, 0x78] else []) ++ streamValue value

/-! ## What a text denotes -/

/-- A hex digit of either case. -/
def IsHexDigit (c : Byte) : Prop :=
  (0x30 ≤ c ∧ c ≤ 0x39) ∨ (0x61 ≤ c ∧ c ≤ 0x66) ∨ (0x41 ≤ c ∧ c ≤ 0x46)

/-- Behind at most one `0x` or `0X`, the text consists of hex digits, at least `least` and at most
`most` of them, and they denote the number. -/
def HexText (least most : ℕ) (text : List Byte) (number : ℕ) : Prop :=
  ∃ digits, (text = digits ∨ text = 0x30 :: 0x78 :: digits ∨ text = 0x30 :: 0x58 :: digits) ∧
    (∀ c ∈ digits, IsHexDigit c) ∧ least ≤ digits.length ∧ digits.length ≤ most ∧
    hexNumber digits = some number

lemma isHexDigit_iff (c : Byte) : IsHexDigit c ↔ ∃ v, hexCharToValue c = some v := by
  rw [IsHexDigit, hexCharToValue]
  constructor
  · rintro (h | h | h)
    · exact ⟨_, if_pos h⟩
    · rw [if_neg (by bv_omega), if_pos h]
      exact ⟨_, rfl⟩
    · rw [if_neg (by bv_omega), if_neg (by bv_omega), if_pos h]
      exact ⟨_, rfl⟩
  · rintro ⟨v, hv⟩
    split_ifs at hv with hdigit hlower hupper
    · exact Or.inl hdigit
    · exact Or.inr (Or.inl hlower)
    · exact Or.inr (Or.inr hupper)

/-- A sequence denotes a number if all of it are digits. -/
lemma exists_hexNumber_iff (digits : List Byte) :
    (∃ number, hexNumber digits = some number) ↔ ∀ c ∈ digits, IsHexDigit c := by
  induction digits with
  | nil => exact ⟨fun _ c hc => absurd hc List.not_mem_nil, fun _ => ⟨0, rfl⟩⟩
  | cons c digits ih =>
    rw [List.forall_mem_cons, ← ih, isHexDigit_iff]
    constructor
    · rintro ⟨number, hnumber⟩
      cases hc : hexCharToValue c with
      | none => exact absurd (hnumber.symm.trans (hexNumber_cons_none hc digits)) (by simp)
      | some v =>
        rw [hexNumber_cons hc] at hnumber
        obtain ⟨rest, hrest, -⟩ := Option.map_eq_some_iff.mp hnumber
        exact ⟨⟨v, rfl⟩, rest, hrest⟩
    · rintro ⟨⟨v, hv⟩, rest, hrest⟩
      rw [hexNumber_cons hv, hrest]
      exact ⟨_, rfl⟩

/-- **What is removed is the `0x` of a text that has one.** -/
lemma hexText_iff {least most : ℕ} (text : List Byte) (number : ℕ) :
    HexText least most text number ↔ least ≤ (strip0x text).length ∧
      (strip0x text).length ≤ most ∧ hexNumber (strip0x text) = some number := by
  constructor
  · rintro ⟨digits, rfl | rfl | rfl, -, hleast, hmost, hnumber⟩
    · rw [strip0x_of_hexNumber hnumber]
      exact ⟨hleast, hmost, hnumber⟩
    · exact ⟨hleast, hmost, hnumber⟩
    · exact ⟨hleast, hmost, hnumber⟩
  · rintro ⟨hleast, hmost, hnumber⟩
    exact ⟨strip0x text, strip0x_cases text, (exists_hexNumber_iff _).mp ⟨number, hnumber⟩, hleast,
      hmost, hnumber⟩

lemma HexText.unique {least most : ℕ} {text : List Byte} {number number' : ℕ}
    (h : HexText least most text number) (h' : HexText least most text number') :
    number = number' := by
  have hdigits := ((hexText_iff text number).mp h).2.2
  rw [((hexText_iff text number').mp h').2.2] at hdigits
  exact (Option.some.inj hdigits).symm

/-! ## Hashes -/

section Hashes

variable {n : ℕ}

/-- The hash that a text denotes is the one with its number. -/
lemma denotes_iff_hexText (text : List Byte) (hash : Vector Byte n) :
    Denotes text hash ↔ HexText 0 (2 * n) text (beValue hash.toList) := by
  rw [denotes_iff, hexText_iff]
  exact ⟨fun h => ⟨Nat.zero_le _, h⟩, fun h => h.2⟩

/-- Every text of few enough digits denotes a hash. -/
lemma exists_denotes {text : List Byte} {number : ℕ} (h : HexText 0 (2 * n) text number) :
    ∃ hash : Vector Byte n, Denotes text hash := by
  obtain ⟨-, hlength, hnumber⟩ := (hexText_iff text number).mp h
  have hpadded := length_padded hlength
  rw [← hexNumber_padded n, hexNumber_eq hpadded] at hnumber
  obtain ⟨bytes, hbytes, hvalue⟩ := Option.map_eq_some_iff.mp hnumber
  have hsize : bytes.toArray.size = n := length_hexPairs hpadded hbytes
  refine ⟨⟨bytes.toArray, hsize⟩, (denotes_iff_hexText _ _).mpr ?_⟩
  have hlist : (⟨bytes.toArray, hsize⟩ : Vector Byte n).toList = bytes := rfl
  rw [hlist, hvalue]
  exact h

/-- **A hash decoder accepts the texts with at most two digits a byte**, and returns the hash with
the number of the text. -/
theorem hexToHash_spec (text : List Byte) (hash : Vector Byte n) :
    ((hexToHash text hash).1 = true ↔ ∃ number, HexText 0 (2 * n) text number) ∧
      ∀ number, HexText 0 (2 * n) text number →
        beValue (hexToHash text hash).2.toList = number := by
  rw [hexToHash_fst_iff]
  constructor
  · constructor
    · rintro ⟨out, hout⟩
      exact ⟨_, (denotes_iff_hexText text out).mp hout⟩
    · rintro ⟨number, hnumber⟩
      exact exists_denotes hnumber
  · intro number hnumber
    obtain ⟨out, hout⟩ := exists_denotes hnumber
    rw [(hexToHash_eq_true_iff text hash out).mpr hout]
    exact ((denotes_iff_hexText text out).mp hout).unique hnumber

/-- **What `hash64ToHex` writes denotes the hash.** -/
theorem denotes_hash64ToHex (hash : Hash64) (with0x : Bool) :
    Denotes (hash64ToHex hash with0x) hash := denotes_streamBytes hash with0x

end Hashes

/-! ## 64-bit values -/

/-- A digit shifted in at the end of a value. -/
lemma toNat_shiftIn {value : BitVec 64} {val : Byte} (hvalue : value.toNat < 16 ^ 15)
    (hval : val.toNat < 16) :
    (value <<< 4 ||| val.setWidth 64).toNat = value.toNat * 16 + val.toNat := by
  have hshift : (value <<< 4).toNat = value.toNat <<< 4 := by
    rw [BitVec.toNat_shiftLeft]
    refine Nat.mod_eq_of_lt ?_
    rw [Nat.shiftLeft_eq]
    omega
  have hwide : (val.setWidth 64).toNat = val.toNat := by
    rw [BitVec.toNat_setWidth]
    omega
  rw [BitVec.toNat_or, hshift, hwide, ← Nat.shiftLeft_add_eq_or_of_lt hval, Nat.shiftLeft_eq]

/-- What the loop does with at most 16 digits, of which `j` are in the value. -/
lemma convertDigits_eq {str : List Byte} {value : BitVec 64} {j : ℕ}
    (hvalue : value.toNat < 16 ^ j) (hlength : j + str.length ≤ 16) :
    ((convertDigits str value).1 = true ↔ ∃ number, hexNumber str = some number) ∧
      ∀ number, hexNumber str = some number →
        (convertDigits str value).2.toNat = value.toNat * 16 ^ str.length + number := by
  induction str generalizing value j with
  | nil =>
    refine ⟨⟨fun _ => ⟨0, rfl⟩, fun _ => rfl⟩, fun number hnumber => ?_⟩
    obtain rfl := Option.some.inj hnumber
    simp [convertDigits]
  | cons c str ih =>
    rw [List.length_cons] at hlength
    cases hc : hexCharToValue c with
    | none =>
      have hstop : convertDigits (c :: str) value = (false, value) := by rw [convertDigits, hc]
      rw [hstop, hexNumber_cons_none hc]
      simp
    | some val =>
      have hval := toNat_hexCharToValue_lt hc
      have hpow : 16 ^ j ≤ 16 ^ 15 := Nat.pow_le_pow_right (by decide) (by omega)
      have hnext := toNat_shiftIn (lt_of_lt_of_le hvalue hpow) hval
      have hlt : (value <<< 4 ||| val.setWidth 64).toNat < 16 ^ (j + 1) := by
        rw [hnext, pow_succ]
        omega
      have hstep : convertDigits (c :: str) value =
          convertDigits str (value <<< 4 ||| val.setWidth 64) := by rw [convertDigits, hc]
      obtain ⟨hfst, hsnd⟩ := ih hlt (by omega)
      rw [hstep, hfst, hexNumber_cons hc]
      constructor
      · simp
      · intro number hnumber
        obtain ⟨rest, hrest, rfl⟩ := Option.map_eq_some_iff.mp hnumber
        rw [hsnd rest hrest, hnext, List.length_cons, pow_succ]
        ring

/-- **`hexToUint64` accepts the texts of one to 16 digits**, and returns their number. -/
theorem hexToUint64_spec (text : List Byte) (value : BitVec 64) :
    ((hexToUint64 text value).1 = true ↔ ∃ number, HexText 1 16 text number) ∧
      ∀ number, HexText 1 16 text number → (hexToUint64 text value).2.toNat = number := by
  have hzero : (0 : BitVec 64).toNat < 16 ^ 0 := by decide
  simp only [hexText_iff, hexToUint64]
  by_cases hlength : 1 ≤ (strip0x text).length ∧ (strip0x text).length ≤ 16
  · have hgo : ((strip0x text).isEmpty || 16 < (strip0x text).length) = false := by
      rw [Bool.or_eq_false_iff, List.isEmpty_eq_false_iff, decide_eq_false_iff_not]
      exact ⟨List.ne_nil_of_length_pos hlength.1, not_lt.mpr hlength.2⟩
    obtain ⟨hfst, hsnd⟩ := convertDigits_eq hzero (by omega : 0 + (strip0x text).length ≤ 16)
    rw [hgo, if_neg Bool.false_ne_true, hfst]
    refine ⟨⟨?_, ?_⟩, ?_⟩
    · rintro ⟨number, hnumber⟩
      exact ⟨number, hlength.1, hlength.2, hnumber⟩
    · rintro ⟨number, -, -, hnumber⟩
      exact ⟨number, hnumber⟩
    · rintro number ⟨-, -, hnumber⟩
      rw [hsnd number hnumber]
      simp
  · have hstop : ((strip0x text).isEmpty || 16 < (strip0x text).length) = true := by
      rw [Bool.or_eq_true, List.isEmpty_iff_length_eq_zero, decide_eq_true_eq]
      omega
    rw [hstop, if_pos rfl]
    refine ⟨⟨fun h => absurd h (by simp), ?_⟩, ?_⟩
    · rintro ⟨number, hleast, hmost, -⟩
      exact absurd ⟨hleast, hmost⟩ hlength
    · rintro number ⟨hleast, hmost, -⟩
      exact absurd ⟨hleast, hmost⟩ hlength

/-! ## Writing values -/

/-- The digits of a value denote what the digits hold of it. -/
lemma hexNumber_lastDigits (count : ℕ) (value : BitVec 64) :
    hexNumber (lastDigits count value) = some (value.toNat % 16 ^ count) := by
  have hdigit : ∀ d : Byte, hexCharToValue (streamDigit (d &&& 0xF)) = some (d &&& 0xF) := by decide
  induction count with
  | zero => simp [lastDigits, hexNumber, Nat.mod_one]
  | succ count ih =>
    have hsplit : lastDigits (count + 1) value =
        streamDigit ((value >>> (4 * count)).setWidth 8 &&& 0xF) :: lastDigits count value := by
      simp [lastDigits, List.range_succ]
    have hlength : (lastDigits count value).length = count := by simp [lastDigits]
    have hlow : ((value >>> (4 * count)).setWidth 8 &&& 0xF : Byte).toNat =
        value.toNat / 16 ^ count % 16 := by
      have hmask : (0xF : Byte).toNat = 2 ^ 4 - 1 := rfl
      have hpow : (2 : ℕ) ^ (4 * count) = 16 ^ count := by rw [pow_mul]; rfl
      rw [BitVec.toNat_and, hmask, Nat.and_two_pow_sub_one_eq_mod, BitVec.toNat_setWidth,
        BitVec.toNat_ushiftRight, Nat.shiftRight_eq_div_pow, hpow]
      omega
    rw [hsplit, hexNumber_cons (hdigit _), ih, Option.map_some, hlow, hlength, Nat.mod_pow_succ]
    congr 1
    ring

lemma hexNumber_lastDigits_all (value : BitVec 64) :
    hexNumber (lastDigits 16 value) = some value.toNat := by
  have hpow : (16 : ℕ) ^ 16 = 2 ^ 64 := by norm_num
  rw [hexNumber_lastDigits, hpow, Nat.mod_eq_of_lt value.isLt]

/-- Leaving leading zeros out changes nothing. -/
lemma hexNumber_dropWhile (digits : List Byte) :
    hexNumber (digits.dropWhile (· == 0x30)) = hexNumber digits := by
  have hzeros : digits.takeWhile (· == 0x30) =
      List.replicate (digits.takeWhile (· == 0x30)).length 0x30 :=
    List.eq_replicate_of_mem fun c hc => by simpa using List.mem_takeWhile_imp hc
  conv_rhs => rw [← List.takeWhile_append_dropWhile (p := (· == 0x30)) (l := digits), hzeros]
  rw [hexNumber_replicate_append]

/-- **What `std::hex` writes denotes the value**, with one to 16 digits. -/
lemma streamValue_spec (value : BitVec 64) :
    hexNumber (streamValue value) = some value.toNat ∧ 1 ≤ (streamValue value).length ∧
      (streamValue value).length ≤ 16 := by
  have hnumber := hexNumber_lastDigits_all value
  have hle : ((lastDigits 16 value).dropWhile (· == 0x30)).length ≤ 16 := by
    refine le_trans (List.dropWhile_sublist _).length_le ?_
    simp [lastDigits]
  rw [← hexNumber_dropWhile] at hnumber
  rw [streamValue]
  split
  · next hnil =>
    rw [hnil] at hnumber
    have hzero : hexNumber [0x30] = hexNumber [] := hexNumber_replicate_append 1 []
    rw [hzero]
    exact ⟨hnumber, by decide, by decide⟩
  · next hnil =>
    exact ⟨hnumber, List.length_pos_of_ne_nil hnil, hle⟩

/-- What `uint64ToHex` writes denotes the value. -/
lemma hexText_uint64ToHex (value : BitVec 64) (with0x : Bool) :
    HexText 1 16 (uint64ToHex value with0x) value.toNat := by
  obtain ⟨hnumber, hleast, hmost⟩ := streamValue_spec value
  refine ⟨streamValue value, ?_, (exists_hexNumber_iff _).mp ⟨_, hnumber⟩, hleast, hmost, hnumber⟩
  cases with0x
  · exact Or.inl rfl
  · exact Or.inr (Or.inl rfl)

/-- All sixteen digits denote the value. -/
lemma hexText_lastDigits (value : BitVec 64) :
    HexText 1 16 (lastDigits 16 value) value.toNat := by
  have hnumber := hexNumber_lastDigits_all value
  have hlength : (lastDigits 16 value).length = 16 := by simp [lastDigits]
  exact ⟨_, Or.inl rfl, (exists_hexNumber_iff _).mp ⟨_, hnumber⟩, by omega, by omega, hnumber⟩

/-- Decoding what denotes a value gives the value. -/
lemma hexToUint64_of_hexText {text : List Byte} {value : BitVec 64}
    (h : HexText 1 16 text value.toNat) (old : BitVec 64) :
    hexToUint64 text old = (true, value) := by
  obtain ⟨hfst, hsnd⟩ := hexToUint64_spec text old
  exact Prod.ext (hfst.mpr ⟨_, h⟩) (BitVec.eq_of_toNat_eq (hsnd _ h))

end OhMyMiner.Utils
