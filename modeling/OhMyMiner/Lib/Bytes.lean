/-
# Bytes and words

A machine with little-endian words reads the same memory as bytes and as words: byte `i` of a
word holds its bits `8 i, …, 8 i + 7`.  This file has the two directions of that view, for
single words and for arrays of words, and the value of a string of bytes read as a big-endian
number, on which the lexicographic order of strings of one length is the numeric order.
-/
import OhMyMiner.Lib.Loop

namespace OhMyMiner.Lib

/-- A byte. -/
abbrev Byte := BitVec 8

/-! ## Single words -/

section Words

variable {w : ℕ}

/-- Byte `i` of a word in little-endian order: `(uint8_t)(u >> (8 * i))`. -/
def byteAt (u : BitVec w) (i : ℕ) : Byte := (u >>> (8 * i)).setWidth 8

/-- The little-endian word made of `n` bytes: `u |= (word)x[i] << (8 * i)` for `i < n`. -/
def leWord (w n : ℕ) (x : (i : ℕ) → i < n → Byte) : BitVec w :=
  forLoop n 0 fun i hi u => u ||| ((x i hi).setWidth w <<< (8 * i))

/-- The first `n` bytes of a word, in little-endian order. -/
def leBytes (n : ℕ) (u : BitVec w) : List Byte := (List.range n).map (byteAt u)

lemma getLsbD_byteAt (u : BitVec w) (i j : ℕ) :
    (byteAt u i).getLsbD j = (decide (j < 8) && u.getLsbD (8 * i + j)) := by
  simp [byteAt]

lemma xor_zero (u : BitVec w) : u ^^^ 0 = u := BitVec.xor_zero

@[simp] lemma byteAt_zero (i : ℕ) : byteAt (0 : BitVec w) i = 0 := by
  simp [byteAt]

@[simp] lemma byteAt_xor (u v : BitVec w) (i : ℕ) :
    byteAt (u ^^^ v) i = byteAt u i ^^^ byteAt v i := by
  apply BitVec.eq_of_getLsbD_eq
  intro j hj
  rw [BitVec.getLsbD_xor, getLsbD_byteAt, getLsbD_byteAt, getLsbD_byteAt, BitVec.getLsbD_xor]
  simp only [hj, decide_true, Bool.true_and]

lemma getLsbD_leWord {n : ℕ} (x : (i : ℕ) → i < n → Byte) {k : ℕ} (hk : k < w) :
    (leWord w n x).getLsbD k = if h : k / 8 < n then (x (k / 8) h).getLsbD (k % 8) else false := by
  induction n with
  | zero => simp [leWord]
  | succ n ih =>
    have hrec : leWord w (n + 1) x =
        leWord w n (fun i hi => x i (by omega)) ||| ((x n (by omega)).setWidth w <<< (8 * n)) := rfl
    rw [hrec, BitVec.getLsbD_or, ih, BitVec.getLsbD_shiftLeft, BitVec.getLsbD_setWidth]
    rcases lt_trichotomy (k / 8) n with h | h | h
    · rw [dif_pos h, dif_pos (by omega)]
      have hlt : k < 8 * n := by omega
      simp [hlt]
    · rw [dif_neg (by omega), dif_pos (by omega)]
      subst h
      have h₁ : ¬ k < 8 * (k / 8) := by omega
      have h₂ : k - 8 * (k / 8) = k % 8 := by omega
      have h₃ : k % 8 < w := by omega
      simp [hk, h₁, h₂, h₃]
    · rw [dif_neg (by omega), dif_neg (by omega)]
      have hge : 8 ≤ k - 8 * n := by omega
      simp [BitVec.getLsbD_of_ge _ _ hge]

/-- Storing a loaded word gives back its bytes. -/
lemma byteAt_leWord {n : ℕ} (hn : 8 * n ≤ w) (x : (i : ℕ) → i < n → Byte) {i : ℕ} (hi : i < n) :
    byteAt (leWord w n x) i = x i hi := by
  apply BitVec.eq_of_getLsbD_eq
  intro j hj
  have h₁ : (8 * i + j) / 8 = i := by omega
  have h₂ : (8 * i + j) % 8 = j := by omega
  rw [getLsbD_byteAt, getLsbD_leWord x (by omega)]
  simp [h₁, h₂, hi, hj]

/-- Loading a stored word gives it back. -/
lemma leWord_byteAt {n : ℕ} (hn : w ≤ 8 * n) (u : BitVec w) :
    leWord w n (fun i _ => byteAt u i) = u := by
  apply BitVec.eq_of_getLsbD_eq
  intro k hk
  have h₁ : k / 8 < n := by omega
  have h₂ : 8 * (k / 8) + k % 8 = k := by omega
  have h₃ : k % 8 < 8 := by omega
  rw [getLsbD_leWord _ hk, dif_pos h₁, getLsbD_byteAt, h₂]
  simp [h₃]

lemma leWord_congr {n : ℕ} {x y : (i : ℕ) → i < n → Byte} (h : ∀ i hi, x i hi = y i hi) :
    leWord w n x = leWord w n y := by
  have hxy : x = y := by
    funext i hi
    exact h i hi
  rw [hxy]

/-- A byte shifted into slot `k` of a word, seen in slot `t`. -/
lemma byteAt_setWidth_shiftLeft (b : Byte) {k t : ℕ} (hk : 8 * k + 8 ≤ w) (ht : 8 * t + 8 ≤ w) :
    byteAt (b.setWidth w <<< (8 * k)) t = if k = t then b else 0 := by
  apply BitVec.eq_of_getLsbD_eq
  intro j hj
  rw [getLsbD_byteAt, BitVec.getLsbD_shiftLeft, BitVec.getLsbD_setWidth]
  rcases lt_trichotomy k t with h | h | h
  · have hge : 8 ≤ 8 * t + j - 8 * k := by omega
    rw [if_neg (by omega)]
    simp [BitVec.getLsbD_of_ge b _ hge]
  · subst h
    have h₁ : ¬ 8 * k + j < 8 * k := by omega
    have h₂ : 8 * k + j - 8 * k = j := by omega
    have h₃ : 8 * k + j < w := by omega
    have h₄ : j < w := by omega
    simp [hj, h₁, h₂, h₃, h₄]
  · have hlt : 8 * t + j < 8 * k := by omega
    rw [if_neg (by omega)]
    simp [hlt]

end Words

/-! ## Arrays of words -/

section Arrays

variable {w n m k : ℕ}

/-- The first word of an array. -/
def firstWord (words : Vector (BitVec w) (n + 1)) : BitVec w := words[0]

/-- The bytes of an array of `n` words of `k` bytes each, as they lie in memory. -/
def toBytes (k : ℕ) (hm : m = n * k) (v : Vector (BitVec w) n) : Vector Byte m :=
  Vector.ofFn fun i =>
    have hlt : i.1 / k < n := Nat.div_lt_of_lt_mul (by rw [Nat.mul_comm, ← hm]; exact i.2)
    byteAt v[i.1 / k] (i.1 % k)

/-- The array of `n` words of `k` bytes each that lies in a memory of `m` bytes. -/
def ofBytes (w k : ℕ) (hm : m = n * k) (b : Vector Byte m) : Vector (BitVec w) n :=
  Vector.ofFn fun j => leWord w k fun i hi =>
    have hlt : j.1 * k + i < m := by
      have h₁ : (j.1 + 1) * k ≤ n * k := Nat.mul_le_mul_right k j.2
      rw [Nat.succ_mul] at h₁
      omega
    b[j.1 * k + i]

lemma getElem_toBytes (hm : m = n * k) (v : Vector (BitVec w) n) {i : ℕ} (hi : i < m)
    (hlt : i / k < n) : (toBytes k hm v)[i] = byteAt v[i / k] (i % k) := by
  simp [toBytes]

lemma getElem_toBytes_add (hm : m = n * k) (v : Vector (BitVec w) n) {j i : ℕ} (hj : j < n)
    (hi : i < k) (hlt : j * k + i < m) : (toBytes k hm v)[j * k + i] = byteAt v[j] i := by
  have hk : 0 < k := by omega
  have h₁ : (j * k + i) / k = j := by
    rw [Nat.mul_comm, Nat.mul_add_div hk, Nat.div_eq_of_lt hi, Nat.add_zero]
  have h₂ : (j * k + i) % k = i := by
    rw [Nat.mul_comm, Nat.mul_add_mod, Nat.mod_eq_of_lt hi]
  rw [getElem_toBytes hm v hlt (by omega)]
  simp only [h₁, h₂]

lemma getElem_ofBytes (hm : m = n * k) (b : Vector Byte m) {j : ℕ} (hj : j < n)
    (hlt : ∀ i < k, j * k + i < m) :
    (ofBytes w k hm b)[j] = leWord w k fun i hi => getElem b (j * k + i) (hlt i hi) := by
  simp [ofBytes]

/-- Reading bytes as words and back as bytes changes nothing. -/
theorem toBytes_ofBytes (hw : 8 * k ≤ w) (hm : m = n * k) (b : Vector Byte m) :
    toBytes k hm (ofBytes w k hm b) = b := by
  apply Vector.ext
  intro i hi
  have hk : 0 < k := by
    rcases Nat.eq_zero_or_pos k with h | h
    · subst h; omega
    · exact h
  have hmod : i % k < k := Nat.mod_lt i hk
  have hdiv : i / k * k + i % k = i := by rw [Nat.mul_comm]; exact Nat.div_add_mod i k
  have hlt : i / k < n := Nat.div_lt_of_lt_mul (by rw [Nat.mul_comm, ← hm]; exact hi)
  have hbound : ∀ t < k, i / k * k + t < m := by
    intro t ht
    have h₁ : (i / k + 1) * k ≤ n * k := Nat.mul_le_mul_right k hlt
    rw [Nat.succ_mul] at h₁
    omega
  rw [getElem_toBytes hm _ hi hlt, getElem_ofBytes hm b hlt hbound, byteAt_leWord hw _ hmod]
  simp only [hdiv]

/-- Reading words as bytes and back as words changes nothing. -/
theorem ofBytes_toBytes (hw : w ≤ 8 * k) (hm : m = n * k) (v : Vector (BitVec w) n) :
    ofBytes w k hm (toBytes k hm v) = v := by
  apply Vector.ext
  intro j hj
  have hbound : ∀ i < k, j * k + i < m := by
    intro i hi
    have h₁ : (j + 1) * k ≤ n * k := Nat.mul_le_mul_right k hj
    rw [Nat.succ_mul] at h₁
    omega
  rw [getElem_ofBytes hm _ hj hbound]
  calc leWord w k (fun i hi => getElem (toBytes k hm v) (j * k + i) (hbound i hi))
      = leWord w k (fun i _ => byteAt v[j] i) :=
        leWord_congr fun i hi => getElem_toBytes_add hm v hj hi (hbound i hi)
    _ = v[j] := leWord_byteAt hw v[j]

/-- `memcpy(dst, src, n)`. -/
def memcpy (dst : Vector Byte m) (src : ℕ → Byte) (n : ℕ) : Vector Byte m :=
  Vector.ofFn fun i => if i.1 < n then src i.1 else dst[i]

lemma getElem_memcpy (dst : Vector Byte m) (src : ℕ → Byte) (n : ℕ) {i : ℕ} (hi : i < m) :
    (memcpy dst src n)[i] = if i < n then src i else dst[i] := by
  simp [memcpy]

end Arrays

/-! ## Little-endian numbers -/

/-- The value of a string of bytes read as a little-endian number. -/
def leValue (l : List Byte) : ℕ := Nat.ofDigits 256 (l.map BitVec.toNat)

lemma leValue_cons (b : Byte) (l : List Byte) : leValue (b :: l) = 2 ^ 8 * leValue l + b.toNat := by
  rw [leValue, List.map_cons, Nat.ofDigits_cons, add_comm]
  rfl

lemma testBit_leValue (l : List Byte) (k : ℕ) :
    (leValue l).testBit k = (l.getD (k / 8) 0).getLsbD (k % 8) := by
  induction l generalizing k with
  | nil => simp [leValue]
  | cons b l ih =>
    rw [leValue_cons, Nat.testBit_two_pow_mul_add _ b.isLt]
    split
    · next h =>
      have h₁ : k / 8 = 0 := by omega
      have h₂ : k % 8 = k := by omega
      rw [h₁, h₂, List.getD_cons_zero]
      rfl
    · next h =>
      have h₁ : k / 8 = (k - 8) / 8 + 1 := by omega
      have h₂ : k % 8 = (k - 8) % 8 := by omega
      rw [h₁, h₂, List.getD_cons_succ, ih]

/-- Word `j` of a string of bytes is a slice of its value. -/
lemma leWord_getD (l : List Byte) (j : ℕ) :
    leWord 64 8 (fun i _ => l.getD (j * 8 + i) 0) = BitVec.ofNat 64 (leValue l >>> (64 * j)) := by
  apply BitVec.eq_of_getLsbD_eq
  intro k hk
  have h₁ : (64 * j + k) / 8 = j * 8 + k / 8 := by omega
  have h₂ : (64 * j + k) % 8 = k % 8 := by omega
  rw [getLsbD_leWord _ hk, dif_pos (by omega), BitVec.getLsbD_ofNat, Nat.testBit_shiftRight,
    testBit_leValue, h₁, h₂]
  simp [hk]

/-! ## Big-endian numbers -/

/-- The value of a string of bytes read as a big-endian number. -/
def beValue (l : List Byte) : ℕ := Nat.ofDigits 256 (l.reverse.map BitVec.toNat)

@[simp] lemma beValue_nil : beValue [] = 0 := rfl

lemma beValue_append (l r : List Byte) :
    beValue (l ++ r) = beValue l * 256 ^ r.length + beValue r := by
  rw [beValue, beValue, beValue, List.reverse_append, List.map_append, Nat.ofDigits_append,
    List.length_map, List.length_reverse]
  ring

lemma beValue_cons (b : Byte) (l : List Byte) :
    beValue (b :: l) = b.toNat * 256 ^ l.length + beValue l := by
  have h := beValue_append [b] l
  simpa [beValue] using h

lemma beValue_lt (l : List Byte) : beValue l < 256 ^ l.length := by
  induction l with
  | nil => simp
  | cons b l ih =>
    have hb : b.toNat < 256 := b.isLt
    calc beValue (b :: l) = b.toNat * 256 ^ l.length + beValue l := beValue_cons b l
      _ < b.toNat * 256 ^ l.length + 256 ^ l.length := by omega
      _ = (b.toNat + 1) * 256 ^ l.length := by ring
      _ ≤ 256 * 256 ^ l.length := Nat.mul_le_mul_right _ hb
      _ = 256 ^ (b :: l).length := by rw [List.length_cons]; ring

lemma beValue_replicate_zero (n : ℕ) : beValue (List.replicate n 0) = 0 := by
  induction n with
  | zero => rfl
  | succ n ih => rw [List.replicate_succ, beValue_cons, ih]; simp

lemma beValue_replicate_ff (n : ℕ) : beValue (List.replicate n 0xFF) = 256 ^ n - 1 := by
  induction n with
  | zero => rfl
  | succ n ih =>
    have hpos : 0 < 256 ^ n := by positivity
    have hff : (0xFF : Byte).toNat = 255 := rfl
    rw [List.replicate_succ, beValue_cons, ih, List.length_replicate, hff, pow_succ]
    omega

/-- The first byte in which two strings of one length differ decides their order. -/
theorem beValue_lt_of_lt (p : List Byte) {a b : Byte} {l r : List Byte}
    (hlen : l.length = r.length) (hab : a < b) :
    beValue (p ++ a :: l) < beValue (p ++ b :: r) := by
  have hle : a.toNat + 1 ≤ b.toNat := hab
  have hlt : beValue (a :: l) < beValue (b :: r) :=
    calc beValue (a :: l) = a.toNat * 256 ^ l.length + beValue l := beValue_cons a l
      _ < a.toNat * 256 ^ l.length + 256 ^ l.length := by have := beValue_lt l; omega
      _ = (a.toNat + 1) * 256 ^ r.length := by rw [hlen]; ring
      _ ≤ b.toNat * 256 ^ r.length := Nat.mul_le_mul_right _ hle
      _ ≤ beValue (b :: r) := by rw [beValue_cons]; omega
  rw [beValue_append, beValue_append, List.length_cons, List.length_cons, hlen]
  omega

/-- Strings of one length are equal when their big-endian values are. -/
theorem eq_of_beValue_eq : ∀ {l r : List Byte}, l.length = r.length → beValue l = beValue r → l = r
  | [], [], _, _ => rfl
  | a :: l, b :: r, hlen, h => by
    have hlen' : l.length = r.length := by simpa using hlen
    rcases lt_trichotomy a.toNat b.toNat with hab | hab | hab
    · exact absurd h (beValue_lt_of_lt [] hlen' hab).ne
    · have hab' : a = b := BitVec.eq_of_toNat_eq hab
      subst hab'
      rw [beValue_cons, beValue_cons, hlen'] at h
      rw [eq_of_beValue_eq hlen' (by omega)]
    · exact absurd h (beValue_lt_of_lt [] hlen'.symm hab).ne'

end OhMyMiner.Lib
