/-
# Searching and reading strings

A few members of `std::string`, on lists, and `std::stoi`: the last occurrence of an element, the
first occurrence of a pattern, the C string that begins a string, and the integer.
-/
import Mathlib.Data.List.TakeWhile
import Mathlib.Data.Nat.Digits.Lemmas
import OhMyMiner.Lib.Bytes

namespace OhMyMiner.Lib

/-! ## Searching -/

section Search

variable {α : Type*} [DecidableEq α] {c : α} {pattern s t : List α}

/-- `find_last_of`, for one element. -/
def findLastOf (c : α) : List α → Option ℕ
  | [] => none
  | a :: s =>
    match findLastOf c s with
    | some i => some (i + 1)
    | none => if a = c then some 0 else none

/-- `find`: the first position at which the pattern begins. -/
def findFirst (pattern : List α) : List α → Option ℕ
  | [] => if pattern = [] then some 0 else none
  | a :: s =>
    if pattern <+: a :: s then some 0 else (findFirst pattern s).map fun i => i + 1

lemma findLastOf_eq_none (h : c ∉ s) : findLastOf c s = none := by
  induction s with
  | nil => rfl
  | cons a s ih =>
    rw [List.mem_cons, not_or] at h
    rw [findLastOf, ih h.2]
    exact if_neg (Ne.symm h.1)

/-- Nothing that comes before the last occurrence matters. -/
lemma findLastOf_append (h : c ∉ t) : findLastOf c (s ++ c :: t) = some s.length := by
  induction s with
  | nil =>
    rw [List.nil_append, findLastOf, findLastOf_eq_none h]
    exact if_pos rfl
  | cons a s ih =>
    rw [List.cons_append, findLastOf, ih]
    rfl

/-- A pattern does not occur without its first element. -/
lemma findFirst_eq_none (h : c ∉ s) : findFirst (c :: pattern) s = none := by
  induction s with
  | nil => rfl
  | cons a s ih =>
    rw [List.mem_cons, not_or] at h
    have hne : ¬ c :: pattern <+: a :: s := fun hbegins =>
      h.1 (List.cons_prefix_cons.mp hbegins).1
    rw [findFirst, if_neg hne, ih h.2]
    rfl

/-- The pattern occurs first where its first element does. -/
lemma findFirst_append (h : c ∉ s) :
    findFirst (c :: pattern) (s ++ (c :: pattern) ++ t) = some s.length := by
  induction s with
  | nil =>
    rw [List.nil_append, List.cons_append, findFirst]
    exact if_pos (List.prefix_append (c :: pattern) t)
  | cons a s ih =>
    rw [List.mem_cons, not_or] at h
    have hne : ¬ c :: pattern <+: a :: (s ++ (c :: pattern) ++ t) := fun hbegins =>
      h.1 (List.cons_prefix_cons.mp hbegins).1
    rw [List.cons_append, List.cons_append, findFirst, if_neg hne, ih h.2]
    rfl

end Search

/-! ## C strings -/

/-- `c_str`, up to the byte that ends it. -/
def cString (s : List Byte) : List Byte := s.takeWhile (· ≠ 0)

lemma cString_eq_self_iff (s : List Byte) : cString s = s ↔ 0 ∉ s := by
  rw [cString, List.takeWhile_eq_self_iff]
  constructor
  · intro h hzero
    exact absurd (h 0 hzero) (by simp)
  · intro h c hc
    have hne : c ≠ 0 := fun heq => h (heq ▸ hc)
    simpa using hne

/-! ## Integers -/

/-- What `std::stoi` throws. -/
inductive StoiError where
  | invalidArgument
  | outOfRange

/-- A decimal digit. -/
def isDecimal (c : Byte) : Bool := 0x30 ≤ c && c ≤ 0x39

/-- A blank, in the "C" locale. -/
def isSpace (c : Byte) : Bool := c == 0x20 || (0x09 ≤ c && c ≤ 0x0D)

/-- The number that decimal digits denote, the most significant digit first. -/
def decimalNumber (digits : List Byte) : ℕ :=
  digits.foldl (fun number c => 10 * number + (c.toNat - 0x30)) 0

/-- The sign of a number, and what is behind it. -/
def splitSign : List Byte → Bool × List Byte
  | [] => (false, [])
  | c :: str =>
    if c = 0x2D then (true, str)
    else if c = 0x2B then (false, str)
    else (false, c :: str)

/-- `std::stoi`: blanks, a sign, and decimal digits; what follows is ignored. -/
def stoi (str : List Byte) : Except StoiError ℤ :=
  let (negative, str) := splitSign (str.dropWhile isSpace)
  let digits := str.takeWhile isDecimal
  if digits = [] then .error .invalidArgument
  else
    let value : ℤ := if negative then -decimalNumber digits else decimalNumber digits
    if -2 ^ 31 ≤ value ∧ value < 2 ^ 31 then .ok value else .error .outOfRange

/-- `std::strtoull` in base 10: the number of the digits, or the largest number where that is too
large; a minus sign takes it modulo `2 ^ 64`. -/
def strtoull (str : List Byte) : BitVec 64 :=
  let (negative, str) := splitSign (str.dropWhile isSpace)
  let number := decimalNumber (str.takeWhile isDecimal)
  if number ≥ 2 ^ 64 then BitVec.allOnes 64
  else if negative then -BitVec.ofNat 64 number else BitVec.ofNat 64 number

/-- A digit is neither a blank nor a sign. -/
lemma not_space_of_decimal {c : Byte} (h : isDecimal c = true) :
    isSpace c = false ∧ c ≠ 0x2D ∧ c ≠ 0x2B := by
  revert c
  decide

lemma stoi_digits {digits : List Byte} (hne : digits ≠ []) (h : ∀ c ∈ digits, isDecimal c = true)
    (hlt : decimalNumber digits < 2 ^ 31) : stoi digits = .ok (decimalNumber digits) := by
  obtain ⟨c, rest, rfl⟩ := List.exists_cons_of_ne_nil hne
  obtain ⟨hspace, hminus, hplus⟩ := not_space_of_decimal (h c List.mem_cons_self)
  have hsplit : splitSign ((c :: rest).dropWhile isSpace) = (false, c :: rest) := by
    rw [List.dropWhile_cons_of_neg (by simp [hspace]), splitSign, if_neg hminus, if_neg hplus]
  have htake : (c :: rest).takeWhile isDecimal = c :: rest := List.takeWhile_eq_self_iff.mpr h
  rw [stoi, hsplit]
  dsimp only
  rw [htake, if_neg hne, if_neg Bool.false_ne_true, if_pos (by omega)]

/-- What does not begin with a number is no number. -/
lemma stoi_invalid {c : Byte} (str : List Byte)
    (h : isSpace c = false ∧ c ≠ 0x2D ∧ c ≠ 0x2B ∧ isDecimal c = false) :
    stoi (c :: str) = .error .invalidArgument := by
  obtain ⟨hspace, hminus, hplus, hdecimal⟩ := h
  have hsplit : splitSign ((c :: str).dropWhile isSpace) = (false, c :: str) := by
    rw [List.dropWhile_cons_of_neg (by simp [hspace]), splitSign, if_neg hminus, if_neg hplus]
  rw [stoi, hsplit]
  dsimp only
  rw [List.takeWhile_cons_of_neg (by simp [hdecimal]), if_pos rfl]

/-! ## Decimal digits -/

/-- A digit. -/
def decimalDigit (d : ℕ) : Byte := BitVec.ofNat 8 (0x30 + d)

/-- The digits of a number, without superfluous zeros. -/
def decimalDigits (n : ℕ) : List Byte :=
  if n = 0 then [decimalDigit 0] else (Nat.digits 10 n).reverse.map decimalDigit

lemma toNat_decimalDigit {d : ℕ} (h : d < 10) : (decimalDigit d).toNat = 0x30 + d :=
  (BitVec.toNat_ofNat _ _).trans (Nat.mod_eq_of_lt (by omega))

lemma isDecimal_iff (c : Byte) : isDecimal c = true ↔ 0x30 ≤ c.toNat ∧ c.toNat ≤ 0x39 := by
  rw [isDecimal, Bool.and_eq_true, decide_eq_true_iff, decide_eq_true_iff]
  rfl

lemma isDecimal_of_mem {n : ℕ} {c : Byte} (h : c ∈ decimalDigits n) : isDecimal c = true := by
  have hdigit {d : ℕ} (hd : d < 10) : isDecimal (decimalDigit d) = true := by
    rw [isDecimal_iff, toNat_decimalDigit hd]
    omega
  unfold decimalDigits at h
  split_ifs at h
  · obtain rfl := List.mem_singleton.mp h
    exact hdigit (by omega)
  · obtain ⟨d, hd, rfl⟩ := List.mem_map.mp h
    exact hdigit (Nat.digits_lt_base (by omega) (List.mem_reverse.mp hd))

lemma decimalDigits_ne_nil (n : ℕ) : decimalDigits n ≠ [] := by
  unfold decimalDigits
  split_ifs with h
  · exact List.cons_ne_nil _ _
  · simpa [Nat.digits_eq_nil_iff_eq_zero] using h

/-- The digits of a number behind its first ones. -/
lemma decimalDigits_eq {n : ℕ} (h : 10 ≤ n) :
    decimalDigits n = decimalDigits (n / 10) ++ [decimalDigit (n % 10)] := by
  rw [decimalDigits, decimalDigits, if_neg (by omega), if_neg (by omega),
    Nat.digits_eq_cons_digits_div (by omega) (by omega), List.reverse_cons, List.map_append,
    List.map_singleton]

lemma decimalDigits_of_lt {n : ℕ} (h : n < 10) : decimalDigits n = [decimalDigit n] := by
  rcases eq_or_ne n 0 with rfl | hn
  · rfl
  · rw [decimalDigits, if_neg hn, Nat.digits_of_lt 10 n hn h]
    rfl

/-- The digits denote the number. -/
lemma decimalNumber_decimalDigits (n : ℕ) : decimalNumber (decimalDigits n) = n := by
  induction n using Nat.strongRecOn with
  | ind n ih =>
    rcases Nat.lt_or_ge n 10 with h | h
    · rw [decimalDigits_of_lt h, decimalNumber, List.foldl_cons, List.foldl_nil,
        toNat_decimalDigit h]
      omega
    · have hih : decimalNumber (decimalDigits (n / 10)) = n / 10 := ih _ (by omega)
      rw [decimalNumber] at hih ⊢
      rw [decimalDigits_eq h, List.foldl_append, hih, List.foldl_cons, List.foldl_nil,
        toNat_decimalDigit (by omega)]
      omega

lemma decimalDigits_injective {n n' : ℕ} (h : decimalDigits n = decimalDigits n') : n = n' := by
  rw [← decimalNumber_decimalDigits n, h, decimalNumber_decimalDigits]

end OhMyMiner.Lib
