/-
# UTF-8

The bytes of the characters, and the table of the byte sequences that are characters: for each of
the nine shapes, the range that each byte has to be in.  An automaton that reads bytes has only to
know which ranges are still to come.
-/
import Mathlib.Data.List.Forall2
import OhMyMiner.Lib.Bytes

namespace OhMyMiner.Lib.Utf8

/-! ## Encoding -/

/-- The bytes of a character. -/
def encodeChar (c : Char) : List Byte := (String.utf8EncodeChar c).map UInt8.toBitVec

/-- The bytes of a text. -/
def encode (text : List Char) : List Byte := text.flatMap encodeChar

@[simp]
lemma encode_nil : encode [] = [] := rfl

@[simp]
lemma encode_cons (c : Char) (text : List Char) :
    encode (c :: text) = encodeChar c ++ encode text := rfl

/-- The bytes by the number of the character. -/
inductive Encodes : ℕ → List Byte → Prop
  | one {v : ℕ} (h : v < 0x80) : Encodes v [BitVec.ofNat 8 v]
  | two {v : ℕ} (hlo : 0x80 ≤ v) (hhi : v < 0x800) :
      Encodes v [BitVec.ofNat 8 (v / 64 + 0xC0), BitVec.ofNat 8 (v % 64 + 0x80)]
  | three {v : ℕ} (hlo : 0x800 ≤ v) (hhi : v < 0x10000) (hscalar : v < 0xD800 ∨ 0xDFFF < v) :
      Encodes v [BitVec.ofNat 8 (v / 4096 + 0xE0), BitVec.ofNat 8 (v / 64 % 64 + 0x80),
        BitVec.ofNat 8 (v % 64 + 0x80)]
  | four {v : ℕ} (hlo : 0x10000 ≤ v) (hhi : v < 0x110000) :
      Encodes v [BitVec.ofNat 8 (v / 262144 + 0xF0), BitVec.ofNat 8 (v / 4096 % 64 + 0x80),
        BitVec.ofNat 8 (v / 64 % 64 + 0x80), BitVec.ofNat 8 (v % 64 + 0x80)]

/-- A character is no surrogate, and below `0x110000`. -/
lemma toNat_valid (c : Char) : c.toNat < 0xD800 ∨ 0xDFFF < c.toNat ∧ c.toNat < 0x110000 := c.valid

lemma exists_char {v : ℕ} (h : v < 0xD800 ∨ 0xDFFF < v ∧ v < 0x110000) : ∃ c : Char, c.toNat = v :=
  ⟨Char.ofNatAux v h, rfl⟩

lemma encodes_encodeChar (c : Char) : Encodes c.toNat (encodeChar c) := by
  have hvalid := toNat_valid c
  unfold encodeChar String.utf8EncodeChar
  change Encodes c.toNat (List.map _ (if c.toNat ≤ _ then _ else if c.toNat ≤ _ then _
    else if c.toNat ≤ _ then _ else _))
  split_ifs with h1 h2 h3
  · exact .one (by omega)
  · have hlt : c.toNat / 64 < 0x20 := by omega
    have hdiv : c.val.toNat / 64 % 0x20 = c.toNat / 64 := Nat.mod_eq_of_lt hlt
    rw [hdiv]
    exact .two (by omega) (by omega)
  · have hlt : c.toNat / 4096 < 0x10 := by omega
    have hdiv : c.val.toNat / 4096 % 0x10 = c.toNat / 4096 := Nat.mod_eq_of_lt hlt
    rw [hdiv]
    exact .three (by omega) (by omega) (by omega)
  · have hlt : c.toNat / 262144 < 0x08 := by omega
    have hdiv : c.val.toNat / 262144 % 0x08 = c.toNat / 262144 := Nat.mod_eq_of_lt hlt
    rw [hdiv]
    exact .four (by omega) (by omega)

lemma Encodes.encodeChar_eq {c : Char} {bytes : List Byte} (h : Encodes c.toNat bytes) :
    encodeChar c = bytes := by
  have hc := encodes_encodeChar c
  generalize encodeChar c = bytes' at hc
  cases h <;> cases hc <;> first | rfl | omega

/-! ## The table -/

/-- A range of bytes. -/
abbrev Range : Type := ℕ × ℕ

/-- The range of the bytes behind the first. -/
def tail : Range := (0x80, 0xBF)

/-- The byte is in the range. -/
def InRange (range : Range) (b : Byte) : Prop := range.1 ≤ b.toNat ∧ b.toNat ≤ range.2

instance (range : Range) (b : Byte) : Decidable (InRange range b) :=
  inferInstanceAs (Decidable (_ ∧ _))

/-- The bytes are in the ranges, one by one. -/
def Matches : List Range → List Byte → Prop := List.Forall₂ InRange

/-- The shapes of the characters. -/
def shapes : List (List Range) :=
  [[(0x00, 0x7F)],
   [(0xC2, 0xDF), tail],
   [(0xE0, 0xE0), (0xA0, 0xBF), tail],
   [(0xE1, 0xEC), tail, tail],
   [(0xED, 0xED), (0x80, 0x9F), tail],
   [(0xEE, 0xEF), tail, tail],
   [(0xF0, 0xF0), (0x90, 0xBF), tail, tail],
   [(0xF1, 0xF3), tail, tail, tail],
   [(0xF4, 0xF4), (0x80, 0x8F), tail, tail]]

lemma inRange_ofNat {lo hi v : ℕ} (hlo : lo ≤ v) (hhi : v ≤ hi) (hbyte : hi < 256) :
    InRange (lo, hi) (BitVec.ofNat 8 v) := by
  have hv : (BitVec.ofNat 8 v).toNat = v :=
    (BitVec.toNat_ofNat v 8).trans (Nat.mod_eq_of_lt (by omega))
  unfold InRange
  rw [hv]
  exact ⟨hlo, hhi⟩

lemma inRange_tail (v : ℕ) : InRange tail (BitVec.ofNat 8 (v % 64 + 0x80)) :=
  inRange_ofNat (by omega) (by omega) (by omega)

/-- The shape of a character. -/
lemma Encodes.exists_shape {v : ℕ} {bytes : List Byte} (h : Encodes v bytes) :
    ∃ shape ∈ shapes, Matches shape bytes := by
  cases h with
  | one h =>
    have hlead : InRange (0x00, 0x7F) (BitVec.ofNat 8 v) :=
      inRange_ofNat (by omega) (by omega) (by omega)
    exact ⟨_, by simp [shapes], .cons hlead .nil⟩
  | two hlo hhi =>
    have hlead : InRange (0xC2, 0xDF) (BitVec.ofNat 8 (v / 64 + 0xC0)) :=
      inRange_ofNat (by omega) (by omega) (by omega)
    exact ⟨_, by simp [shapes], .cons hlead (.cons (inRange_tail v) .nil)⟩
  | three hlo hhi hscalar =>
    have hshape (lead second : Range) (hmem : [lead, second, tail] ∈ shapes)
        (hlead : InRange lead (BitVec.ofNat 8 (v / 4096 + 0xE0)))
        (hsecond : InRange second (BitVec.ofNat 8 (v / 64 % 64 + 0x80))) :
        ∃ shape ∈ shapes, Matches shape _ :=
      ⟨_, hmem, .cons hlead (.cons hsecond (.cons (inRange_tail v) .nil))⟩
    -- the ranges of the second byte leave out what two bytes hold, and the surrogates
    have hcases : v < 0x1000 ∨ (0x1000 ≤ v ∧ v < 0xD000) ∨ (0xD000 ≤ v ∧ v < 0xD800) ∨
        0xE000 ≤ v := by omega
    rcases hcases with h | ⟨h, h'⟩ | ⟨h, h'⟩ | h
    · exact hshape (0xE0, 0xE0) (0xA0, 0xBF) (by simp [shapes])
        (inRange_ofNat (by omega) (by omega) (by omega))
        (inRange_ofNat (by omega) (by omega) (by omega))
    · exact hshape (0xE1, 0xEC) tail (by simp [shapes])
        (inRange_ofNat (by omega) (by omega) (by omega)) (inRange_tail (v / 64))
    · exact hshape (0xED, 0xED) (0x80, 0x9F) (by simp [shapes])
        (inRange_ofNat (by omega) (by omega) (by omega))
        (inRange_ofNat (by omega) (by omega) (by omega))
    · exact hshape (0xEE, 0xEF) tail (by simp [shapes])
        (inRange_ofNat (by omega) (by omega) (by omega)) (inRange_tail (v / 64))
  | four hlo hhi =>
    have hshape (lead second : Range) (hmem : [lead, second, tail, tail] ∈ shapes)
        (hlead : InRange lead (BitVec.ofNat 8 (v / 262144 + 0xF0)))
        (hsecond : InRange second (BitVec.ofNat 8 (v / 4096 % 64 + 0x80))) :
        ∃ shape ∈ shapes, Matches shape _ :=
      ⟨_, hmem, .cons hlead (.cons hsecond
        (.cons (inRange_tail (v / 64)) (.cons (inRange_tail v) .nil)))⟩
    -- and those of four bytes what three hold, and what is too large
    have hcases : v < 0x40000 ∨ (0x40000 ≤ v ∧ v < 0x100000) ∨ 0x100000 ≤ v := by omega
    rcases hcases with h | ⟨h, h'⟩ | h
    · exact hshape (0xF0, 0xF0) (0x90, 0xBF) (by simp [shapes])
        (inRange_ofNat (by omega) (by omega) (by omega))
        (inRange_ofNat (by omega) (by omega) (by omega))
    · exact hshape (0xF1, 0xF3) tail (by simp [shapes])
        (inRange_ofNat (by omega) (by omega) (by omega)) (inRange_tail (v / 4096))
    · exact hshape (0xF4, 0xF4) (0x80, 0x8F) (by simp [shapes])
        (inRange_ofNat (by omega) (by omega) (by omega))
        (inRange_ofNat (by omega) (by omega) (by omega))

/-- The number is that of a character. -/
def IsScalar (v : ℕ) : Prop := v < 0xD800 ∨ 0xDFFF < v ∧ v < 0x110000

section

variable {a b c d : Byte}

lemma eq_ofNat {v : ℕ} (h : b.toNat = v) : b = BitVec.ofNat 8 v := by
  rw [← h, BitVec.ofNat_toNat, BitVec.setWidth_eq]

lemma encodes_one (ha : a.toNat < 0x80) : ∃ v, IsScalar v ∧ Encodes v [a] := by
  refine ⟨a.toNat, Or.inl (by omega), ?_⟩
  have h : Encodes a.toNat [BitVec.ofNat 8 a.toNat] := .one ha
  rwa [← eq_ofNat rfl] at h

lemma encodes_two (ha : InRange (0xC2, 0xDF) a) (hb : InRange tail b) :
    ∃ v, IsScalar v ∧ Encodes v [a, b] := by
  obtain ⟨halo, hahi⟩ := ha
  obtain ⟨hblo, hbhi⟩ := hb
  dsimp only [tail] at halo hahi hblo hbhi
  obtain ⟨v, hv⟩ : ∃ v, v = (a.toNat - 0xC0) * 64 + (b.toNat - 0x80) := ⟨_, rfl⟩
  have ha : a = BitVec.ofNat 8 (v / 64 + 0xC0) := eq_ofNat (by omega)
  have hb : b = BitVec.ofNat 8 (v % 64 + 0x80) := eq_ofNat (by omega)
  refine ⟨v, Or.inl (by omega), ?_⟩
  rw [ha, hb]
  exact .two (by omega) (by omega)

lemma encodes_three (ha : InRange (0xE0, 0xEF) a) (hb : InRange tail b) (hc : InRange tail c)
    (hleast : a.toNat = 0xE0 → 0xA0 ≤ b.toNat) (hscalar : a.toNat = 0xED → b.toNat ≤ 0x9F) :
    ∃ v, IsScalar v ∧ Encodes v [a, b, c] := by
  obtain ⟨halo, hahi⟩ := ha
  obtain ⟨hblo, hbhi⟩ := hb
  obtain ⟨hclo, hchi⟩ := hc
  dsimp only [tail] at halo hahi hblo hbhi hclo hchi
  obtain ⟨v, hv⟩ : ∃ v, v = (a.toNat - 0xE0) * 4096 + (b.toNat - 0x80) * 64 + (c.toNat - 0x80) :=
    ⟨_, rfl⟩
  have ha : a = BitVec.ofNat 8 (v / 4096 + 0xE0) := eq_ofNat (by omega)
  have hb : b = BitVec.ofNat 8 (v / 64 % 64 + 0x80) := eq_ofNat (by omega)
  have hc : c = BitVec.ofNat 8 (v % 64 + 0x80) := eq_ofNat (by omega)
  have hrange : v < 0xD800 ∨ 0xDFFF < v := by omega
  refine ⟨v, hrange.imp_right fun h => ⟨h, by omega⟩, ?_⟩
  rw [ha, hb, hc]
  exact .three (by omega) (by omega) hrange

lemma encodes_four (ha : InRange (0xF0, 0xF4) a) (hb : InRange tail b) (hc : InRange tail c)
    (hd : InRange tail d) (hleast : a.toNat = 0xF0 → 0x90 ≤ b.toNat)
    (hmost : a.toNat = 0xF4 → b.toNat ≤ 0x8F) : ∃ v, IsScalar v ∧ Encodes v [a, b, c, d] := by
  obtain ⟨halo, hahi⟩ := ha
  obtain ⟨hblo, hbhi⟩ := hb
  obtain ⟨hclo, hchi⟩ := hc
  obtain ⟨hdlo, hdhi⟩ := hd
  dsimp only [tail] at halo hahi hblo hbhi hclo hchi hdlo hdhi
  obtain ⟨v, hv⟩ : ∃ v, v = (a.toNat - 0xF0) * 262144 + (b.toNat - 0x80) * 4096 +
      (c.toNat - 0x80) * 64 + (d.toNat - 0x80) := ⟨_, rfl⟩
  have ha : a = BitVec.ofNat 8 (v / 262144 + 0xF0) := eq_ofNat (by omega)
  have hb : b = BitVec.ofNat 8 (v / 4096 % 64 + 0x80) := eq_ofNat (by omega)
  have hc : c = BitVec.ofNat 8 (v / 64 % 64 + 0x80) := eq_ofNat (by omega)
  have hd : d = BitVec.ofNat 8 (v % 64 + 0x80) := eq_ofNat (by omega)
  refine ⟨v, Or.inr ⟨by omega, by omega⟩, ?_⟩
  rw [ha, hb, hc, hd]
  exact .four (by omega) (by omega)

end

lemma InRange.mono {lo hi lo' hi' : ℕ} {b : Byte} (h : InRange (lo, hi) b) (hlo : lo' ≤ lo)
    (hhi : hi ≤ hi') : InRange (lo', hi') b := ⟨hlo.trans h.1, h.2.trans hhi⟩

/-- What has the shape of a character is one. -/
lemma exists_encodes {shape : List Range} {bytes : List Byte} (hmem : shape ∈ shapes)
    (h : Matches shape bytes) : ∃ v, IsScalar v ∧ Encodes v bytes := by
  have hcases {b : Byte} {n : ℕ} (h : InRange (n, n) b) : b.toNat = n := le_antisymm h.2 h.1
  simp only [shapes, List.mem_cons, List.not_mem_nil, or_false] at hmem
  rcases hmem with rfl | rfl | rfl | rfl | rfl | rfl | rfl | rfl | rfl
  · obtain _ | ⟨ha, ⟨⟩⟩ := h
    exact encodes_one (Nat.lt_succ_of_le ha.2)
  · obtain _ | ⟨ha, _ | ⟨hb, ⟨⟩⟩⟩ := h
    exact encodes_two ha hb
  · obtain _ | ⟨ha, _ | ⟨hb, _ | ⟨hc, ⟨⟩⟩⟩⟩ := h
    exact encodes_three (ha.mono (by omega) (by omega)) (hb.mono (by omega) (by omega)) hc
      (fun _ => hb.1) (fun h => absurd (hcases ha) (by omega))
  · obtain _ | ⟨ha, _ | ⟨hb, _ | ⟨hc, ⟨⟩⟩⟩⟩ := h
    exact encodes_three (ha.mono (by omega) (by omega)) hb hc
      (fun h => absurd ha.1 (by omega)) (fun h => absurd ha.2 (by omega))
  · obtain _ | ⟨ha, _ | ⟨hb, _ | ⟨hc, ⟨⟩⟩⟩⟩ := h
    exact encodes_three (ha.mono (by omega) (by omega)) (hb.mono (by omega) (by omega)) hc
      (fun h => absurd (hcases ha) (by omega)) (fun _ => hb.2)
  · obtain _ | ⟨ha, _ | ⟨hb, _ | ⟨hc, ⟨⟩⟩⟩⟩ := h
    exact encodes_three (ha.mono (by omega) (by omega)) hb hc
      (fun h => absurd ha.1 (by omega)) (fun h => absurd ha.1 (by omega))
  · obtain _ | ⟨ha, _ | ⟨hb, _ | ⟨hc, _ | ⟨hd, ⟨⟩⟩⟩⟩⟩ := h
    exact encodes_four (ha.mono (by omega) (by omega)) (hb.mono (by omega) (by omega)) hc hd
      (fun _ => hb.1) (fun h => absurd (hcases ha) (by omega))
  · obtain _ | ⟨ha, _ | ⟨hb, _ | ⟨hc, _ | ⟨hd, ⟨⟩⟩⟩⟩⟩ := h
    exact encodes_four (ha.mono (by omega) (by omega)) hb hc hd
      (fun h => absurd ha.1 (by omega)) (fun h => absurd ha.2 (by omega))
  · obtain _ | ⟨ha, _ | ⟨hb, _ | ⟨hc, _ | ⟨hd, ⟨⟩⟩⟩⟩⟩ := h
    exact encodes_four (ha.mono (by omega) (by omega)) (hb.mono (by omega) (by omega)) hc hd
      (fun h => absurd (hcases ha) (by omega)) (fun _ => hb.2)

/-- **The characters are the sequences of the table.** -/
theorem exists_encodeChar_iff (bytes : List Byte) :
    (∃ c, encodeChar c = bytes) ↔ ∃ shape ∈ shapes, Matches shape bytes := by
  constructor
  · rintro ⟨c, rfl⟩
    exact (encodes_encodeChar c).exists_shape
  · rintro ⟨shape, hmem, h⟩
    obtain ⟨v, hv, hbytes⟩ := exists_encodes hmem h
    obtain ⟨c, rfl⟩ := exists_char hv
    exact ⟨c, hbytes.encodeChar_eq⟩

/-! ## Reading -/

/-- The ranges that are still to come after a byte, if any text goes on with it. -/
def after : List Range → Byte → Option (List Range)
  | [], b => (shapes.find? fun shape => InRange (shape.headD (1, 0)) b).map List.tail
  | range :: ranges, b => if InRange range b then some ranges else none

/-- The ranges that are still to come after some bytes. -/
def read (ranges : List Range) (bytes : List Byte) : Option (List Range) :=
  bytes.foldlM after ranges

lemma read_cons (ranges : List Range) (b : Byte) (bytes : List Byte) :
    read ranges (b :: bytes) = (after ranges b).bind fun ranges' => read ranges' bytes := rfl

lemma read_append (ranges : List Range) (bytes more : List Byte) :
    read ranges (bytes ++ more) = (read ranges bytes).bind fun ranges' => read ranges' more :=
  List.foldlM_append

/-- The bytes of a text. -/
def WellFormed (bytes : List Byte) : Prop := ∃ text, encode text = bytes

/-- The beginning of the bytes of a text. -/
def Extendable (bytes : List Byte) : Prop := ∃ more, WellFormed (bytes ++ more)

/-- Bytes that complete a character that needs these ranges, and a text behind it. -/
def Completes (ranges : List Range) (bytes : List Byte) : Prop :=
  ∃ p rest, bytes = p ++ rest ∧ Matches ranges p ∧ WellFormed rest

lemma wellFormed_nil : WellFormed [] := ⟨[], rfl⟩

lemma completes_nil_iff (bytes : List Byte) : Completes [] bytes ↔ WellFormed bytes := by
  constructor
  · rintro ⟨p, rest, rfl, ⟨⟩, h⟩
    exact h
  · intro h
    exact ⟨[], bytes, rfl, .nil, h⟩

lemma completes_cons_iff (range : Range) (ranges : List Range) (b : Byte) (bytes : List Byte) :
    Completes (range :: ranges) (b :: bytes) ↔ InRange range b ∧ Completes ranges bytes := by
  constructor
  · rintro ⟨p, rest, heq, hb | hb, h⟩
    obtain ⟨rfl, rfl⟩ := List.cons.inj heq
    exact ⟨hb, _, rest, rfl, ‹_›, h⟩
  · rintro ⟨hb, p, rest, rfl, hp, h⟩
    exact ⟨b :: p, rest, rfl, .cons hb hp, h⟩

lemma not_completes_nil (range : Range) (ranges : List Range) :
    ¬ Completes (range :: ranges) [] := by
  rintro ⟨p, rest, heq, h, -⟩
  obtain ⟨rfl, -⟩ := List.append_eq_nil_iff.mp heq.symm
  cases h

/-- A text begins with a character. -/
lemma wellFormed_cons_iff (b : Byte) (bytes : List Byte) :
    WellFormed (b :: bytes) ↔
      ∃ range ranges, range :: ranges ∈ shapes ∧ InRange range b ∧ Completes ranges bytes := by
  constructor
  · rintro ⟨_ | ⟨c, text⟩, h⟩
    · cases h
    · obtain ⟨shape, hmem, hshape⟩ := (exists_encodeChar_iff (encodeChar c)).mp ⟨c, rfl⟩
      rw [encode_cons] at h
      generalize encodeChar c = p at hshape h
      cases hshape with
      | nil => exact absurd hmem (by simp [shapes])
      | cons hb hp =>
        obtain ⟨rfl, rfl⟩ := List.cons.inj h
        exact ⟨_, _, hmem, hb, _, _, rfl, hp, text, rfl⟩
  · rintro ⟨range, ranges, hmem, hb, p, rest, rfl, hp, text, rfl⟩
    obtain ⟨c, hc⟩ := (exists_encodeChar_iff (b :: p)).mpr ⟨_, hmem, .cons hb hp⟩
    exact ⟨c :: text, by rw [encode_cons, hc, List.cons_append]⟩

/-- The first byte tells the shape. -/
lemma find_shape : ∀ shape ∈ shapes, ∀ b : Byte, InRange (shape.headD (1, 0)) b →
    shapes.find? (fun shape => InRange (shape.headD (1, 0)) b) = some shape := by
  decide +kernel

lemma after_nil_eq_some_iff (b : Byte) (ranges : List Range) :
    after [] b = some ranges ↔ ∃ range, range :: ranges ∈ shapes ∧ InRange range b := by
  constructor
  · intro h
    obtain ⟨shape, hfind, rfl⟩ := Option.map_eq_some_iff.mp h
    have hmem : shape ∈ shapes := List.mem_of_find?_eq_some hfind
    have hb : InRange (shape.headD (1, 0)) b := by simpa using List.find?_some hfind
    cases shape with
    | nil => exact absurd hmem (by simp [shapes])
    | cons range ranges => exact ⟨range, hmem, hb⟩
  · rintro ⟨range, hmem, hb⟩
    rw [after, find_shape _ hmem b hb]
    rfl

/-- A character has four bytes at most. -/
lemma length_after_nil_le {b : Byte} {ranges : List Range} (h : after [] b = some ranges) :
    ranges.length ≤ 3 := by
  have hall : ∀ shape ∈ shapes, shape.length ≤ 4 := by decide
  obtain ⟨range, hmem, -⟩ := (after_nil_eq_some_iff b ranges).mp h
  exact Nat.le_of_succ_le_succ (hall _ hmem)

lemma after_cons_eq_some {b : Byte} {range : Range} {ranges ranges' : List Range}
    (h : after (range :: ranges) b = some ranges') : ranges' = ranges := by
  rw [after, Option.ite_none_right_eq_some, Option.some.injEq] at h
  exact h.2.symm

/-- Reading one byte leaves what completes the rest. -/
lemma completes_cons_after (ranges : List Range) (b : Byte) (bytes : List Byte) :
    Completes ranges (b :: bytes) ↔ ∃ ranges', after ranges b = some ranges' ∧
      Completes ranges' bytes := by
  cases ranges with
  | nil =>
    rw [completes_nil_iff, wellFormed_cons_iff]
    constructor
    · rintro ⟨range, ranges, hmem, hb, h⟩
      exact ⟨ranges, (after_nil_eq_some_iff b ranges).mpr ⟨range, hmem, hb⟩, h⟩
    · rintro ⟨ranges, hafter, h⟩
      obtain ⟨range, hmem, hb⟩ := (after_nil_eq_some_iff b ranges).mp hafter
      exact ⟨range, ranges, hmem, hb, h⟩
  | cons range ranges =>
    rw [completes_cons_iff, after]
    constructor
    · rintro ⟨hb, h⟩
      exact ⟨ranges, if_pos hb, h⟩
    · rintro ⟨ranges', hafter, h⟩
      by_cases hb : InRange range b
      · rw [if_pos hb, Option.some.injEq] at hafter
        exact ⟨hb, hafter ▸ h⟩
      · rw [if_neg hb] at hafter
        cases hafter

/-- **What completes some ranges, behind the bytes that have been read.** -/
theorem completes_append_iff (ranges : List Range) (bytes more : List Byte) :
    Completes ranges (bytes ++ more) ↔ ∃ ranges', read ranges bytes = some ranges' ∧
      Completes ranges' more := by
  induction bytes generalizing ranges with
  | nil => simp [read]
  | cons b bytes ih =>
    rw [List.cons_append, completes_cons_after, read_cons]
    cases hafter : after ranges b with
    | none => simp
    | some ranges' => simp [ih ranges']

/-- Reading ends between two characters exactly behind a text. -/
theorem read_eq_nil_iff (bytes : List Byte) : read [] bytes = some [] ↔ WellFormed bytes := by
  rw [← completes_nil_iff bytes, ← List.append_nil bytes, completes_append_iff, List.append_nil]
  constructor
  · intro h
    exact ⟨[], h, (completes_nil_iff []).mpr wellFormed_nil⟩
  · rintro ⟨ranges, h, hcompletes⟩
    cases ranges with
    | nil => exact h
    | cons range ranges => exact absurd hcompletes (not_completes_nil range ranges)

/-- Every one of the ranges has a byte. -/
def Inhabited (ranges : List Range) : Prop := ∀ range ∈ ranges, range.1 ≤ range.2 ∧ range.2 < 256

lemma inhabited_of_mem : ∀ shape ∈ shapes, Inhabited shape := by
  unfold Inhabited
  decide

lemma Inhabited.after {ranges ranges' : List Range} {b : Byte} (h : Inhabited ranges)
    (hafter : Utf8.after ranges b = some ranges') : Inhabited ranges' := by
  cases ranges with
  | nil =>
    obtain ⟨range, hmem, -⟩ := (after_nil_eq_some_iff b ranges').mp hafter
    exact (List.forall_mem_cons.mp (inhabited_of_mem _ hmem)).2
  | cons range ranges =>
    rw [after_cons_eq_some hafter]
    exact (List.forall_mem_cons.mp h).2

lemma Inhabited.read {ranges ranges' : List Range} {bytes : List Byte} (h : Inhabited ranges)
    (hread : Utf8.read ranges bytes = some ranges') : Inhabited ranges' := by
  induction bytes generalizing ranges with
  | nil => exact Option.some.inj hread ▸ h
  | cons b bytes ih =>
    rw [read_cons] at hread
    obtain ⟨ranges₁, hafter, hread⟩ := Option.bind_eq_some_iff.mp hread
    exact ih (h.after hafter) hread

lemma Inhabited.exists_completes {ranges : List Range} (h : Inhabited ranges) :
    ∃ more, Completes ranges more := by
  have hleast {range : Range} (h : range.1 ≤ range.2 ∧ range.2 < 256) :
      InRange range (BitVec.ofNat 8 range.1) := inRange_ofNat le_rfl h.1 h.2
  have hmatches : Matches ranges (ranges.map fun range => BitVec.ofNat 8 range.1) := by
    induction ranges with
    | nil => exact .nil
    | cons range ranges ih =>
      obtain ⟨hrange, hranges⟩ := List.forall_mem_cons.mp h
      exact .cons (hleast hrange) (ih hranges)
  exact ⟨_, _, [], (List.append_nil _).symm, hmatches, wellFormed_nil⟩

/-- **Reading stops at the first byte that no text goes on with.** -/
theorem read_isSome_iff (bytes : List Byte) :
    (∃ ranges, read [] bytes = some ranges) ↔ Extendable bytes := by
  constructor
  · rintro ⟨ranges, h⟩
    have hinhabited : Inhabited ranges :=
      Inhabited.read (fun _ hmem => absurd hmem List.not_mem_nil) h
    obtain ⟨more, hmore⟩ := hinhabited.exists_completes
    have hcompletes := (completes_append_iff [] bytes more).mpr ⟨ranges, h, hmore⟩
    exact ⟨more, (completes_nil_iff _).mp hcompletes⟩
  · rintro ⟨more, h⟩
    obtain ⟨ranges, hread, -⟩ :=
      (completes_append_iff [] bytes more).mp ((completes_nil_iff _).mpr h)
    exact ⟨ranges, hread⟩

lemma extendable_append_iff {bytes : List Byte} {ranges : List Range}
    (h : read [] bytes = some ranges) (b : Byte) :
    Extendable (bytes ++ [b]) ↔ ∃ ranges', after ranges b = some ranges' := by
  have hread : read [] (bytes ++ [b]) = after ranges b := by
    rw [read_append, h, Option.bind_some, read_cons]
    exact Option.bind_fun_some _
  rw [← read_isSome_iff, hread]

/-! ## Telling characters apart -/

/-- The number of a character by its bytes. -/
def number : List Byte → ℕ
  | [a] => a.toNat
  | [a, b] => a.toNat % 32 * 64 + b.toNat % 64
  | [a, b, c] => a.toNat % 16 * 4096 + b.toNat % 64 * 64 + c.toNat % 64
  | [a, b, c, d] =>
    a.toNat % 8 * 262144 + b.toNat % 64 * 4096 + c.toNat % 64 * 64 + d.toNat % 64
  | _ => 0

lemma Encodes.number_eq {v : ℕ} {bytes : List Byte} (h : Encodes v bytes) : number bytes = v := by
  cases h <;> simp only [number, BitVec.toNat_ofNat] <;> omega

/-- The bytes of a character are its number, or none of them is ASCII. -/
lemma mem_encodeChar {c : Char} {b : Byte} (h : b ∈ encodeChar c) :
    b.toNat = c.toNat ∨ 0x80 ≤ b.toNat := by
  have hc := encodes_encodeChar c
  generalize encodeChar c = bytes at h hc
  cases hc with
  | one hlt =>
    obtain rfl := List.mem_singleton.mp h
    exact Or.inl ((BitVec.toNat_ofNat _ _).trans (Nat.mod_eq_of_lt (by omega)))
  | _ =>
    right
    simp only [List.mem_cons, List.not_mem_nil, or_false] at h
    rcases h with rfl | h
    · rw [BitVec.toNat_ofNat]
      omega
    · rcases h with rfl | rfl | rfl | rfl <;> rw [BitVec.toNat_ofNat] <;> omega

lemma encodeChar_injective {c c' : Char} (h : encodeChar c = encodeChar c') : c = c' := by
  have hc : number (encodeChar c) = c.toNat := (encodes_encodeChar c).number_eq
  have hc' : number (encodeChar c') = c'.toNat := (encodes_encodeChar c').number_eq
  exact Char.toNat_inj.mp (by rw [← hc, h, hc'])

/-- The shape of a character, which its first byte tells. -/
lemma exists_shape_cons (c : Char) : ∃ shape ∈ shapes, (encodeChar c).length = shape.length ∧
    ∃ b p, encodeChar c = b :: p ∧ InRange (shape.headD (1, 0)) b := by
  obtain ⟨shape, hmem, h⟩ := (exists_encodeChar_iff (encodeChar c)).mp ⟨c, rfl⟩
  generalize encodeChar c = bytes at h ⊢
  refine ⟨shape, hmem, h.length_eq.symm, ?_⟩
  cases h with
  | nil => exact absurd hmem (by simp [shapes])
  | cons hb hp => exact ⟨_, _, rfl, hb⟩

/-- **A character can be told from what begins with it.** -/
theorem encodeChar_append_inj {c c' : Char} {r r' : List Byte}
    (h : encodeChar c ++ r = encodeChar c' ++ r') : c = c' ∧ r = r' := by
  obtain ⟨shape, hmem, hlength, b, p, hbytes, hb⟩ := exists_shape_cons c
  obtain ⟨shape', hmem', hlength', b', p', hbytes', hb'⟩ := exists_shape_cons c'
  have hbb : b = b' := by
    rw [hbytes, hbytes'] at h
    exact (List.cons.inj h).1
  subst hbb
  have hshape : shape = shape' :=
    Option.some.inj ((find_shape _ hmem b hb).symm.trans (find_shape _ hmem' b hb'))
  obtain ⟨hchar, hrest⟩ := List.append_inj h (by rw [hlength, hlength', hshape])
  exact ⟨encodeChar_injective hchar, hrest⟩

end OhMyMiner.Lib.Utf8
