/-
# Escaping a string

`dump_escaped` of the serializer of `nlohmann::json` (`include/nlohmann/json.hpp`), as the client
uses it: characters that are not ASCII stay as they are, and bytes that are no UTF-8 are an error.
It reads the bytes with the automaton of a table.  The table is that of the shapes of characters,
so the automaton stops at the first byte that no text goes on with.
-/
import OhMyMiner.Lib.JsonValue
import OhMyMiner.Stratum.Notify

namespace OhMyMiner.Stratum

open Lib JsonText Utf8 Utils

/-! ## The code -/

/-- The `type_error` 316. -/
inductive Invalid where
  /-- "invalid UTF-8 byte at index", with the index and the byte. -/
  | byte (i : ℕ) (b : Byte)
  /-- "incomplete UTF-8 string; last byte", with that byte. -/
  | incomplete (last : Byte)

def utf8Accept : Byte := 0
def utf8Reject : Byte := 1

/-- `utf8d`, sixteen entries a row: the types of the bytes, and behind them the states. -/
def utf8dRows : List (List Byte) :=
  List.replicate 8 (List.replicate 16 0) ++ -- 00..7F
    [List.replicate 16 1, List.replicate 16 9, -- 80..9F
     List.replicate 16 7, List.replicate 16 7, -- A0..BF
     [8, 8] ++ List.replicate 14 2, List.replicate 16 2, -- C0..DF
     [0xA, 0x3, 0x3, 0x3, 0x3, 0x3, 0x3, 0x3, 0x3, 0x3, 0x3, 0x3, 0x3, 0x4, 0x3, 0x3], -- E0..EF
     [0xB, 0x6, 0x6, 0x6, 0x5, 0x8, 0x8, 0x8, 0x8, 0x8, 0x8, 0x8, 0x8, 0x8, 0x8, 0x8], -- F0..FF
     [0x0, 0x1, 0x2, 0x3, 0x5, 0x8, 0x7, 0x1, 0x1, 0x1, 0x4, 0x6, 0x1, 0x1, 0x1, 0x1], -- s0
     [1, 1, 1, 1, 1, 1, 1, 1, 1, 1, 1, 1, 1, 1, 1, 1], -- s1
     [1, 0, 1, 1, 1, 1, 1, 0, 1, 0, 1, 1, 1, 1, 1, 1], -- s2
     [1, 2, 1, 1, 1, 1, 1, 2, 1, 2, 1, 1, 1, 1, 1, 1], -- s3
     [1, 1, 1, 1, 1, 1, 1, 2, 1, 1, 1, 1, 1, 1, 1, 1], -- s4
     [1, 2, 1, 1, 1, 1, 1, 1, 1, 2, 1, 1, 1, 1, 1, 1], -- s5
     [1, 1, 1, 1, 1, 1, 1, 3, 1, 3, 1, 1, 1, 1, 1, 1], -- s6
     [1, 3, 1, 1, 1, 1, 1, 3, 1, 3, 1, 1, 1, 1, 1, 1], -- s7
     [1, 3, 1, 1, 1, 1, 1, 1, 1, 1, 1, 1, 1, 1, 1, 1]] -- s8

/-- An entry of the table. -/
def utf8d (i : ℕ) : Byte := (utf8dRows.getD (i / 16) []).getD (i % 16) 0

/-- The type of a byte. -/
def byteType (byte : Byte) : ℕ := (utf8d byte.toNat).toNat

/-- The state that `decode` goes to. -/
def nextState (state byte : Byte) : Byte := utf8d (256 + state.toNat * 16 + byteType byte)

/-- What `decode` makes of the code point. -/
def nextCodepoint (state : Byte) (codep : BitVec 32) (byte : Byte) : BitVec 32 :=
  if state ≠ utf8Accept then (byte.setWidth 32 &&& 0x3F) ||| (codep <<< 6)
  else (0xFF >>> byteType byte) &&& byte.setWidth 32

/-- The escape of a code point, or the byte that completes it. -/
def escapeCodepoint (codepoint : BitVec 32) (byte : Byte) : List Byte :=
  if codepoint = 0x08 then [0x5C, 0x62]
  else if codepoint = 0x09 then [0x5C, 0x74]
  else if codepoint = 0x0A then [0x5C, 0x6E]
  else if codepoint = 0x0C then [0x5C, 0x66]
  else if codepoint = 0x0D then [0x5C, 0x72]
  else if codepoint = 0x22 then [0x5C, 0x22]
  else if codepoint = 0x5C then [0x5C, 0x5C]
  else if codepoint ≤ 0x1F then
    -- "\\u%04x"
    0x5C :: 0x75 :: (List.range 4).reverse.map fun i =>
      streamDigit ((codepoint.setWidth 16 >>> (4 * i)).setWidth 8 &&& 0xF)
  else [byte]

/-- The size of `string_buffer`. -/
def stringBufferSize : ℕ := 512

/-- `dump_escaped` between two bytes: where the automaton is, what has been written to the output,
the beginning of `string_buffer`, and how many of its bytes belong to a character that is not
complete. -/
structure Escaping where
  state : Byte
  codepoint : BitVec 32
  written : List Byte
  buffer : List Byte
  undumpedChars : ℕ

namespace Escaping

def start : Escaping :=
  { state := utf8Accept, codepoint := 0, written := [], buffer := [], undumpedChars := 0 }

/-- The buffer is written "if (string_buffer.size() - bytes < 13)". -/
def flush (e : Escaping) : Escaping :=
  if stringBufferSize - e.buffer.length < 13 then
    { e with written := e.written ++ e.buffer, buffer := [] }
  else e

/-- One byte, the `i`th of the string. -/
def dumpByte (e : Escaping) (i : ℕ) (byte : Byte) : Except Invalid Escaping :=
  let state := nextState e.state byte
  let codepoint := nextCodepoint e.state e.codepoint byte
  if state = utf8Accept then
    let buffer := e.buffer ++ escapeCodepoint codepoint byte
    .ok { e with state := state, codepoint := codepoint, buffer := buffer, undumpedChars := 0 }.flush
  else if state = utf8Reject then .error (.byte i byte)
  else
    .ok { e with
      state := state
      codepoint := codepoint
      buffer := e.buffer ++ [byte]
      undumpedChars := e.undumpedChars + 1 }

/-- The loop over the bytes from the `i`th on. -/
def dumpBytes (e : Escaping) (i : ℕ) : List Byte → Except Invalid Escaping
  | [] => .ok e
  | byte :: bytes => do
    let e ← e.dumpByte i byte
    e.dumpBytes (i + 1) bytes

end Escaping

def dumpEscaped (s : List Byte) : Except Invalid (List Byte) := do
  let e ← Escaping.start.dumpBytes 0 s
  if e.state = utf8Accept then
    .ok (if e.buffer.length > 0 then e.written ++ e.buffer else e.written)
  else .error (.incomplete (s.getLast?.getD 0))

/-! ## The automaton -/

/-- The ranges that a state still waits for. -/
def pending (state : Byte) : Option (List Range) :=
  match state.toNat with
  | 0 => some []
  | 2 => some [tail]
  | 3 => some [tail, tail]
  | 4 => some [(0xA0, 0xBF), tail]
  | 5 => some [(0x80, 0x9F), tail]
  | 6 => some [(0x90, 0xBF), tail, tail]
  | 7 => some [tail, tail, tail]
  | 8 => some [(0x80, 0x8F), tail, tail]
  | _ => none

/-- The states but for `utf8Reject`. -/
def liveStates : List Byte := [0, 2, 3, 4, 5, 6, 7, 8]

/-- The table is that of the shapes of characters. -/
lemma pending_nextState_of_mem : ∀ state ∈ liveStates, ∀ byte,
    nextState state byte ∈ utf8Reject :: liveStates ∧
      pending (nextState state byte) = after ((pending state).getD []) byte := by
  decide +kernel

lemma mem_liveStates : ∀ state : Byte, (pending state).isSome → state ∈ liveStates := by
  decide +kernel

lemma pending_eq_none_iff : ∀ state ∈ utf8Reject :: liveStates,
    pending state = none ↔ state = utf8Reject := by
  decide

lemma pending_eq_nil_iff : ∀ state ∈ utf8Reject :: liveStates,
    pending state = some [] ↔ state = utf8Accept := by
  decide

section

variable {state : Byte} {ranges : List Range}

lemma mem_of_pending (h : pending state = some ranges) : state ∈ liveStates :=
  mem_liveStates state (by rw [h]; rfl)

lemma pending_nextState (h : pending state = some ranges) (byte : Byte) :
    pending (nextState state byte) = after ranges byte := by
  have hnext := (pending_nextState_of_mem state (mem_of_pending h) byte).2
  rwa [h] at hnext

lemma nextState_eq_reject_iff (h : pending state = some ranges) (byte : Byte) :
    nextState state byte = utf8Reject ↔ after ranges byte = none := by
  have hmem := (pending_nextState_of_mem state (mem_of_pending h) byte).1
  rw [← pending_nextState h, pending_eq_none_iff _ hmem]

lemma nextState_eq_accept_iff (h : pending state = some ranges) (byte : Byte) :
    nextState state byte = utf8Accept ↔ after ranges byte = some [] := by
  have hmem := (pending_nextState_of_mem state (mem_of_pending h) byte).1
  rw [← pending_nextState h, pending_eq_nil_iff _ hmem]

lemma pending_eq_nil_iff_accept (h : pending state = some ranges) :
    state = utf8Accept ↔ ranges = [] := by
  rw [← pending_eq_nil_iff state (List.mem_cons_of_mem _ (mem_of_pending h)), h, Option.some.injEq]

end

namespace Escaping

variable {e e' : Escaping} {i : ℕ} {ranges : List Range}

lemma state_flush (e : Escaping) : e.flush.state = e.state := by
  unfold flush
  split_ifs <;> rfl

/-- A byte is read as the table of shapes reads it. -/
lemma dumpByte_ok (hpending : pending e.state = some ranges) {byte : Byte}
    (h : e.dumpByte i byte = .ok e') :
    ∃ ranges', after ranges byte = some ranges' ∧ pending e'.state = some ranges' := by
  have hstate : e'.state = nextState e.state byte ∧ nextState e.state byte ≠ utf8Reject := by
    unfold dumpByte at h
    dsimp only at h
    split_ifs at h with haccept hreject
    · obtain rfl := Except.ok.inj h
      rw [state_flush, haccept]
      exact ⟨rfl, by decide⟩
    · obtain rfl := Except.ok.inj h
      exact ⟨rfl, hreject⟩
  rw [hstate.1, pending_nextState hpending]
  have hsome := hstate.2
  rw [Ne, nextState_eq_reject_iff hpending, ← Ne, Option.ne_none_iff_exists'] at hsome
  obtain ⟨ranges', hafter⟩ := hsome
  exact ⟨ranges', hafter, hafter⟩

/-- The error is at the first byte that no text goes on with. -/
lemma dumpByte_error (hpending : pending e.state = some ranges) {byte : Byte} {x : Invalid}
    (h : e.dumpByte i byte = .error x) : x = .byte i byte ∧ after ranges byte = none := by
  unfold dumpByte at h
  dsimp only at h
  split_ifs at h with haccept hreject
  exact ⟨(Except.error.inj h).symm, (nextState_eq_reject_iff hpending byte).mp hreject⟩

lemma dumpBytes_cons (e : Escaping) (i : ℕ) (byte : Byte) (bytes : List Byte) :
    e.dumpBytes i (byte :: bytes) =
      (e.dumpByte i byte).bind fun e => e.dumpBytes (i + 1) bytes := rfl

lemma dumpBytes_ok {bytes : List Byte} (hpending : pending e.state = some ranges)
    (h : e.dumpBytes i bytes = .ok e') :
    ∃ ranges', read ranges bytes = some ranges' ∧ pending e'.state = some ranges' := by
  induction bytes generalizing e i ranges with
  | nil => exact ⟨ranges, rfl, Except.ok.inj h ▸ hpending⟩
  | cons byte bytes ih =>
    rw [dumpBytes_cons] at h
    cases hbyte : e.dumpByte i byte with
    | error x =>
      rw [hbyte] at h
      cases h
    | ok e₁ =>
      rw [hbyte] at h
      obtain ⟨ranges₁, hafter, hpending₁⟩ := dumpByte_ok hpending hbyte
      obtain ⟨ranges', hread, hpending'⟩ := ih hpending₁ h
      exact ⟨ranges', by rw [read_cons, hafter]; exact hread, hpending'⟩

lemma dumpBytes_error {bytes : List Byte} {x : Invalid} (hpending : pending e.state = some ranges)
    (h : e.dumpBytes i bytes = .error x) :
    ∃ p b rest, bytes = p ++ b :: rest ∧ x = .byte (i + p.length) b ∧
      ∃ ranges', read ranges p = some ranges' ∧ after ranges' b = none := by
  induction bytes generalizing e i ranges with
  | nil => cases h
  | cons byte bytes ih =>
    rw [dumpBytes_cons] at h
    cases hbyte : e.dumpByte i byte with
    | error x' =>
      rw [hbyte] at h
      obtain rfl := Except.error.inj h
      obtain ⟨hx, hafter⟩ := dumpByte_error hpending hbyte
      exact ⟨[], byte, bytes, rfl, hx, ranges, rfl, hafter⟩
    | ok e₁ =>
      rw [hbyte] at h
      obtain ⟨ranges₁, hafter, hpending₁⟩ := dumpByte_ok hpending hbyte
      obtain ⟨p, b, rest, rfl, rfl, ranges', hread, hnone⟩ := ih hpending₁ h
      refine ⟨byte :: p, b, rest, rfl, ?_, ranges', ?_, hnone⟩
      · rw [List.length_cons, Nat.add_assoc, Nat.add_comm 1]
      · rw [read_cons, hafter]
        exact hread

end Escaping

/-! ## Code points -/

/-- A code point with six more bits. -/
def shiftIn (codep : BitVec 32) (byte : Byte) : BitVec 32 :=
  (byte.setWidth 32 &&& 0x3F) ||| (codep <<< 6)

/-- The bits of a code point in the first byte. -/
def leadBits (byte : Byte) : BitVec 32 := (0xFF >>> byteType byte) &&& byte.setWidth 32

lemma nextCodepoint_accept (codep : BitVec 32) (byte : Byte) :
    nextCodepoint utf8Accept codep byte = leadBits byte := rfl

lemma nextCodepoint_of_ne {state : Byte} (h : state ≠ utf8Accept) (codep : BitVec 32)
    (byte : Byte) : nextCodepoint state codep byte = shiftIn codep byte := if_pos h

lemma toNat_shiftIn (codep : BitVec 32) (byte : Byte) (h : codep.toNat < 2 ^ 26) :
    (shiftIn codep byte).toNat = codep.toNat * 64 + byte.toNat % 64 := by
  have hbyte : byte.toNat % 2 ^ 32 = byte.toNat := Nat.mod_eq_of_lt (by omega)
  have hshift : codep.toNat <<< 6 % 2 ^ 32 = 2 ^ 6 * codep.toNat := by
    rw [Nat.shiftLeft_eq, Nat.mod_eq_of_lt (by omega), Nat.mul_comm]
  have hmask : byte.toNat &&& 0x3F = byte.toNat % 2 ^ 6 := Nat.and_two_pow_sub_one_eq_mod _ 6
  have hlow : byte.toNat % 2 ^ 6 < 2 ^ 6 := Nat.mod_lt _ (by omega)
  rw [shiftIn, BitVec.toNat_or, BitVec.toNat_and, BitVec.toNat_setWidth, BitVec.toNat_shiftLeft,
    hbyte, hshift, Nat.or_comm]
  change _ ||| (byte.toNat &&& 0x3F) = _
  rw [hmask, ← Nat.two_pow_add_eq_or_of_lt hlow]
  omega

lemma toNat_leadBits : ∀ a : Byte,
    (InRange (0x00, 0x7F) a → (leadBits a).toNat = a.toNat) ∧
      (InRange (0xC2, 0xDF) a → (leadBits a).toNat = a.toNat % 32) ∧
      (InRange (0xE0, 0xEF) a → (leadBits a).toNat = a.toNat % 16) ∧
      (InRange (0xF0, 0xF4) a → (leadBits a).toNat = a.toNat % 8) := by
  decide +kernel

/-- The code point of a character is its number. -/
lemma toNat_codepoint {v : ℕ} {a : Byte} {bytes : List Byte} (h : Encodes v (a :: bytes)) :
    (bytes.foldl shiftIn (leadBits a)).toNat = v := by
  have hmod {n : ℕ} (h : n < 256) : (BitVec.ofNat 8 n).toNat = n :=
    (BitVec.toNat_ofNat n 8).trans (Nat.mod_eq_of_lt h)
  cases h with
  | one h =>
    have hlead := (toNat_leadBits _).1 (inRange_ofNat (v := v) (by omega) (by omega) (by omega))
    rw [List.foldl_nil, hlead, hmod (by omega)]
  | two hlo hhi =>
    have hlead := (toNat_leadBits _).2.1
      (inRange_ofNat (v := v / 64 + 0xC0) (by omega) (by omega) (by omega))
    rw [hmod (by omega)] at hlead
    simp only [List.foldl_cons, List.foldl_nil]
    rw [toNat_shiftIn _ _ (by omega), hlead, hmod (by omega)]
    omega
  | three hlo hhi hscalar =>
    have hlead := (toNat_leadBits _).2.2.1
      (inRange_ofNat (v := v / 4096 + 0xE0) (by omega) (by omega) (by omega))
    rw [hmod (by omega)] at hlead
    simp only [List.foldl_cons, List.foldl_nil]
    have hsecond := toNat_shiftIn (leadBits (BitVec.ofNat 8 (v / 4096 + 0xE0)))
      (BitVec.ofNat 8 (v / 64 % 64 + 0x80)) (by omega)
    rw [hlead, hmod (by omega)] at hsecond
    rw [toNat_shiftIn _ _ (by omega), hsecond, hmod (by omega)]
    omega
  | four hlo hhi =>
    have hlead := (toNat_leadBits _).2.2.2
      (inRange_ofNat (v := v / 262144 + 0xF0) (by omega) (by omega) (by omega))
    rw [hmod (by omega)] at hlead
    simp only [List.foldl_cons, List.foldl_nil]
    have hsecond := toNat_shiftIn (leadBits (BitVec.ofNat 8 (v / 262144 + 0xF0)))
      (BitVec.ofNat 8 (v / 4096 % 64 + 0x80)) (by omega)
    rw [hlead, hmod (by omega)] at hsecond
    have hthird := toNat_shiftIn (shiftIn (leadBits _) _) (BitVec.ofNat 8 (v / 64 % 64 + 0x80))
      (by rw [hsecond]; omega)
    rw [hsecond, hmod (by omega)] at hthird
    rw [toNat_shiftIn _ _ (by omega), hthird, hmod (by omega)]
    omega

lemma escapeCodepoint_of_ge {codepoint : BitVec 32} (h : 0x80 ≤ codepoint.toNat) (byte : Byte) :
    escapeCodepoint codepoint byte = [byte] := by
  have hne {n : BitVec 32} (hn : n.toNat < 0x80) : codepoint ≠ n := by
    rintro rfl
    omega
  have hgt : ¬ codepoint ≤ 0x1F := by
    rw [BitVec.le_def]
    exact fun hle => absurd (h.trans hle) (by decide)
  rw [escapeCodepoint, if_neg (hne (by decide)), if_neg (hne (by decide)),
    if_neg (hne (by decide)), if_neg (hne (by decide)), if_neg (hne (by decide)),
    if_neg (hne (by decide)), if_neg (hne (by decide)), if_neg hgt]

/-- What is written for an ASCII character. -/
lemma escapeCodepoint_ascii {c : Char} (h : c.toNat < 0x80) :
    escapeCodepoint (BitVec.ofNat 32 c.toNat) (BitVec.ofNat 8 c.toNat) = charText c := by
  have hall : ∀ v < 0x80,
      escapeCodepoint (BitVec.ofNat 32 v) (BitVec.ofNat 8 v) = charText (Char.ofNat v) := by
    decide +kernel
  rw [hall _ h, Char.ofNat_toNat]

lemma charText_of_ge {c : Char} (h : 0x80 ≤ c.toNat) : charText c = encodeChar c := by
  have hshort : ∀ p ∈ shortEscapes, p.1 < 0x80 := by decide
  rcases charText_cases c with ⟨e, hmem, -⟩ | ⟨hlt, -⟩ | ⟨-, -, -, heq⟩
  · exact absurd (hshort _ hmem) (by simpa using h)
  · omega
  · exact heq

namespace Escaping

variable {e : Escaping} {ranges : List Range}

/-- What has been written, and what is to be. -/
def output (e : Escaping) : List Byte := e.written ++ e.buffer

lemma output_flush (e : Escaping) : e.flush.output = e.output := by
  unfold flush
  split_ifs
  · exact List.append_nil _
  · rfl

/-- A byte that completes a character. -/
lemma dumpByte_accept {byte : Byte} (h : nextState e.state byte = utf8Accept) (i : ℕ) :
    ∃ e' : Escaping, e.dumpByte i byte = .ok e' ∧ e'.state = utf8Accept ∧
      e'.output = e.output ++
        escapeCodepoint (nextCodepoint e.state e.codepoint byte) byte := by
  refine ⟨_, by rw [dumpByte]; exact if_pos h, ?_, ?_⟩
  · rw [state_flush]
    exact h
  · rw [output_flush]
    exact (List.append_assoc _ _ _).symm

/-- A byte that does not. -/
lemma dumpByte_copy {byte : Byte} (haccept : nextState e.state byte ≠ utf8Accept)
    (hreject : nextState e.state byte ≠ utf8Reject) (i : ℕ) :
    ∃ e' : Escaping, e.dumpByte i byte = .ok e' ∧ e'.state = nextState e.state byte ∧
      e'.codepoint = nextCodepoint e.state e.codepoint byte ∧
      e'.output = e.output ++ [byte] := by
  refine ⟨_, by rw [dumpByte]; exact (if_neg haccept).trans (if_neg hreject), rfl, rfl, ?_⟩
  exact (List.append_assoc _ _ _).symm

/-- The bytes that complete a character of several bytes are copied. -/
lemma dumpBytes_tail (hne : ranges ≠ []) (hpending : pending e.state = some ranges)
    {bytes : List Byte} (hbytes : Matches ranges bytes)
    (hbig : 0x80 ≤ (bytes.foldl shiftIn e.codepoint).toNat) (i : ℕ) (rest : List Byte) :
    ∃ e' : Escaping, e.dumpBytes i (bytes ++ rest) = e'.dumpBytes (i + bytes.length) rest ∧
      e'.state = utf8Accept ∧ e'.output = e.output ++ bytes := by
  induction hbytes generalizing e i with
  | nil => exact absurd rfl hne
  | @cons range byte ranges bytes hbyte hbytes ih =>
    have hafter : after (range :: ranges) byte = some ranges := if_pos hbyte
    have hstate : e.state ≠ utf8Accept := by
      rw [Ne, pending_eq_nil_iff_accept hpending]
      exact List.cons_ne_nil _ _
    have hcodepoint := nextCodepoint_of_ne hstate e.codepoint byte
    rw [List.cons_append, dumpBytes_cons]
    rcases eq_or_ne ranges [] with rfl | hranges
    · -- the last byte of the character
      cases hbytes
      rw [List.foldl_cons, List.foldl_nil] at hbig
      have haccept := (nextState_eq_accept_iff hpending byte).mpr hafter
      obtain ⟨e', hok, hstate', houtput⟩ := dumpByte_accept haccept i
      rw [hcodepoint, escapeCodepoint_of_ge hbig] at houtput
      exact ⟨e', by rw [hok]; rfl, hstate', houtput⟩
    · have haccept : nextState e.state byte ≠ utf8Accept := by
        rw [Ne, nextState_eq_accept_iff hpending, hafter, Option.some.injEq]
        exact hranges
      have hreject : nextState e.state byte ≠ utf8Reject := by
        rw [Ne, nextState_eq_reject_iff hpending, hafter]
        exact Option.some_ne_none _
      obtain ⟨e₁, hok, hstate₁, hcodepoint₁, houtput₁⟩ := dumpByte_copy haccept hreject i
      have hpending₁ : pending e₁.state = some ranges := by
        rw [hstate₁, pending_nextState hpending, hafter]
      obtain ⟨e', hrun, hstate', houtput⟩ := ih hranges hpending₁
        (by rwa [hcodepoint₁, hcodepoint]) (i + 1)
      refine ⟨e', ?_, hstate', ?_⟩
      · rw [hok, List.length_cons, Nat.add_comm bytes.length, ← Nat.add_assoc]
        exact hrun
      · rw [houtput, houtput₁, List.append_assoc]
        rfl

/-- **One character of the string.** -/
lemma dumpBytes_char (haccept : e.state = utf8Accept) (c : Char) (i : ℕ) (rest : List Byte) :
    ∃ e' : Escaping, e.dumpBytes i (encodeChar c ++ rest) =
        e'.dumpBytes (i + (encodeChar c).length) rest ∧
      e'.state = utf8Accept ∧ e'.output = e.output ++ charText c := by
  have hencodes := encodes_encodeChar c
  obtain ⟨shape, hmem, hshape⟩ := (exists_encodeChar_iff (encodeChar c)).mp ⟨c, rfl⟩
  have hpending : pending e.state = some [] := by rw [haccept]; rfl
  have hge (h : 0x80 ≤ c.toNat) : charText c = encodeChar c := charText_of_ge h
  generalize encodeChar c = bytes at *
  cases hshape with
  | nil => exact absurd hmem (by simp [shapes])
  | @cons range byte ranges bytes hbyte hbytes =>
    have hafter : after [] byte = some ranges :=
      (after_nil_eq_some_iff byte ranges).mpr ⟨range, hmem, hbyte⟩
    have hcodepoint := toNat_codepoint hencodes
    have hlead : nextCodepoint e.state e.codepoint byte = leadBits byte := by
      rw [haccept, nextCodepoint_accept]
    rw [List.cons_append, dumpBytes_cons]
    rcases eq_or_ne ranges [] with rfl | hranges
    · cases hbytes
      have haccept' := (nextState_eq_accept_iff hpending byte).mpr hafter
      obtain ⟨e', hok, hstate, houtput⟩ := dumpByte_accept haccept' i
      have hcodepoint' : leadBits byte = BitVec.ofNat 32 c.toNat := by
        rw [← hcodepoint, List.foldl_nil, BitVec.ofNat_toNat, BitVec.setWidth_eq]
      cases hencodes with
      | one h =>
        rw [hlead, hcodepoint', escapeCodepoint_ascii h] at houtput
        exact ⟨e', by rw [hok]; rfl, hstate, houtput⟩
    · have hbig : 0x80 ≤ c.toNat := by
        cases hencodes with
        | one h => exact absurd hbytes.length_eq (by simpa using hranges)
        | two hlo hhi => exact hlo
        | three hlo hhi hscalar => omega
        | four hlo hhi => omega
      have haccept' : nextState e.state byte ≠ utf8Accept := by
        rw [Ne, nextState_eq_accept_iff hpending, hafter, Option.some.injEq]
        exact hranges
      have hreject : nextState e.state byte ≠ utf8Reject := by
        rw [Ne, nextState_eq_reject_iff hpending, hafter]
        exact Option.some_ne_none _
      obtain ⟨e₁, hok, hstate₁, hcodepoint₁, houtput₁⟩ := dumpByte_copy haccept' hreject i
      have hpending₁ : pending e₁.state = some ranges := by
        rw [hstate₁, pending_nextState hpending, hafter]
      obtain ⟨e', hrun, hstate, houtput⟩ := dumpBytes_tail hranges hpending₁ hbytes
        (by rwa [hcodepoint₁, hlead, hcodepoint]) (i + 1) rest
      refine ⟨e', ?_, hstate, ?_⟩
      · rw [hok, List.length_cons, Nat.add_comm bytes.length, ← Nat.add_assoc]
        exact hrun
      · rw [houtput, houtput₁, List.append_assoc, hge hbig]
        rfl

/-- The characters of the string. -/
lemma dumpBytes_encode (haccept : e.state = utf8Accept) (text : List Char) (i : ℕ) :
    ∃ e' : Escaping, e.dumpBytes i (encode text) = .ok e' ∧ e'.state = utf8Accept ∧
      e'.output = e.output ++ text.flatMap charText := by
  induction text generalizing e i with
  | nil => exact ⟨e, rfl, haccept, (List.append_nil _).symm⟩
  | cons c text ih =>
    obtain ⟨e₁, hrun, hstate₁, houtput₁⟩ := dumpBytes_char haccept c i (encode text)
    obtain ⟨e', hok, hstate, houtput⟩ := ih hstate₁ (i + (encodeChar c).length)
    exact ⟨e', hrun.trans hok, hstate, by
      rw [houtput, houtput₁, List.flatMap_cons, List.append_assoc]⟩

end Escaping

/-! ## Strings -/

lemma utf8_eq_encode (s : String) : utf8 s = encode s.toList := by
  have hbytes : s.toUTF8 = s.toList.utf8Encode := String.utf8Encode_toList.symm
  rw [utf8, hbytes, List.utf8Encode, List.toList_data_toByteArray, List.map_flatMap]
  rfl

lemma wellFormed_iff (s : List Byte) : WellFormed s ↔ ∃ text : String, utf8 text = s := by
  constructor
  · rintro ⟨text, rfl⟩
    exact ⟨String.ofList text, by rw [utf8_eq_encode, String.toList_ofList]⟩
  · rintro ⟨text, rfl⟩
    exact ⟨text.toList, (utf8_eq_encode text).symm⟩

lemma pending_start : pending Escaping.start.state = some [] := rfl

lemma dumpEscaped_utf8 (text : String) :
    dumpEscaped (utf8 text) = .ok (text.toList.flatMap charText) := by
  obtain ⟨e, hok, hstate, houtput⟩ :=
    Escaping.dumpBytes_encode (e := Escaping.start) rfl text.toList 0
  have hwritten :
      (if e.buffer.length > 0 then e.written ++ e.buffer else e.written) = e.output := by
    split_ifs with h
    · rfl
    · have hnil : e.buffer = [] := List.eq_nil_of_length_eq_zero (by omega)
      rw [Escaping.output, hnil, List.append_nil]
  rw [dumpEscaped, utf8_eq_encode, hok]
  change (if e.state = utf8Accept then _ else _) = _
  rw [if_pos hstate, hwritten, houtput]
  rfl

/-- What `dump_escaped` makes of a string. -/
def Escapes (s : List Byte) : Except Invalid (List Byte) → Prop
  | .ok out => ∃ text : String, utf8 text = s ∧ out = text.toList.flatMap charText
  | .error (.byte i b) =>
    ∃ p rest, s = p ++ b :: rest ∧ p.length = i ∧ Extendable p ∧ ¬ Extendable (p ++ [b])
  | .error (.incomplete last) => s.getLast? = some last ∧ Extendable s ∧ ¬ WellFormed s

/-- **A string is escaped if it is UTF-8**, character by character, and otherwise the error is at
the first byte that no UTF-8 text goes on with. -/
theorem escapes_dumpEscaped (s : List Byte) : Escapes s (dumpEscaped s) := by
  cases h : Escaping.start.dumpBytes 0 s with
  | error x =>
    have hdump : dumpEscaped s = .error x := by
      rw [dumpEscaped, h]
      rfl
    obtain ⟨p, b, rest, hs, rfl, ranges, hread, hafter⟩ :=
      Escaping.dumpBytes_error pending_start h
    rw [hdump]
    refine ⟨p, rest, hs, (Nat.zero_add _).symm, (read_isSome_iff p).mp ⟨ranges, hread⟩, ?_⟩
    rw [extendable_append_iff hread, hafter]
    rintro ⟨_, ⟨⟩⟩
  | ok e =>
    obtain ⟨ranges, hread, hpending⟩ := Escaping.dumpBytes_ok pending_start h
    by_cases haccept : e.state = utf8Accept
    · rw [(pending_eq_nil_iff_accept hpending).mp haccept] at hread
      obtain ⟨text, rfl⟩ := (wellFormed_iff s).mp ((read_eq_nil_iff s).mp hread)
      rw [dumpEscaped_utf8]
      exact ⟨text, rfl, rfl⟩
    · have hdump : dumpEscaped s = .error (.incomplete (s.getLast?.getD 0)) := by
        rw [dumpEscaped, h]
        exact if_neg haccept
      have hnot : ¬ WellFormed s := by
        rw [← read_eq_nil_iff, hread, Option.some.injEq, ← pending_eq_nil_iff_accept hpending]
        exact haccept
      have hlast : s.getLast? = some (s.getLast?.getD 0) := by
        cases hlast : s.getLast? with
        | some last => rfl
        | none =>
          obtain rfl := List.getLast?_eq_none_iff.mp hlast
          exact absurd wellFormed_nil hnot
      rw [hdump]
      exact ⟨hlast, (read_isSome_iff s).mp ⟨ranges, hread⟩, hnot⟩

/-! ## The buffers -/

namespace Escaping

variable {e e' : Escaping} {i : ℕ} {ranges : List Range}

/-- There is room in `string_buffer` for an escape and the zero that `snprintf` writes behind it. -/
def HasRoom (e : Escaping) : Prop := e.buffer.length + 7 ≤ stringBufferSize

/-- What the loop keeps, in a state that waits for some ranges. -/
structure Fits (e : Escaping) (ranges : List Range) : Prop where
  pending_eq : pending e.state = some ranges
  undumped_le : e.undumpedChars + ranges.length ≤ 4
  undumped_eq : ranges = [] → e.undumpedChars = 0
  buffer_le : e.buffer.length ≤ 499 + e.undumpedChars

lemma fits_start : Fits start [] where
  pending_eq := pending_start
  undumped_le := Nat.zero_le _
  undumped_eq _ := rfl
  buffer_le := Nat.zero_le _

lemma Fits.undumped_le_three (h : Fits e ranges) : e.undumpedChars ≤ 3 := by
  have hle := h.undumped_le
  rcases eq_or_ne ranges [] with hnil | hne
  · rw [h.undumped_eq hnil]
    omega
  · have hpos := List.length_pos_iff.mpr hne
    omega

lemma Fits.hasRoom (h : Fits e ranges) : e.HasRoom := by
  have hbuffer := h.buffer_le
  have hundumped := h.undumped_le_three
  unfold HasRoom stringBufferSize
  omega

lemma length_flush_le (e : Escaping) : e.flush.buffer.length ≤ 499 := by
  unfold flush stringBufferSize
  split_ifs with h
  · exact Nat.zero_le _
  · omega

lemma undumpedChars_flush (e : Escaping) : e.flush.undumpedChars = e.undumpedChars := by
  unfold flush
  split_ifs <;> rfl

lemma Fits.dumpByte {byte : Byte} (h : Fits e ranges) (hok : e.dumpByte i byte = .ok e') :
    ∃ ranges', Fits e' ranges' := by
  obtain ⟨ranges', hafter, hpending'⟩ := dumpByte_ok h.pending_eq hok
  have hbuffer := h.buffer_le
  have hundumped : e.undumpedChars + 1 + ranges'.length ≤ 4 := by
    cases ranges with
    | nil =>
      have hlength := length_after_nil_le hafter
      have hzero := h.undumped_eq rfl
      omega
    | cons range ranges =>
      have hle := h.undumped_le
      rw [List.length_cons] at hle
      rw [after_cons_eq_some hafter]
      omega
  unfold Escaping.dumpByte at hok
  dsimp only at hok
  split_ifs at hok with haccept hreject <;> obtain rfl := Except.ok.inj hok
  · have hnil : ranges' = [] :=
      (pending_eq_nil_iff_accept hpending').mp ((state_flush _).trans haccept)
    refine ⟨[], hnil ▸ hpending', ?_, ?_, ?_⟩ <;> rw [undumpedChars_flush]
    · exact Nat.zero_le _
    · exact fun _ => rfl
    · exact length_flush_le _
  · refine ⟨ranges', hpending', hundumped, fun hnil => ?_, ?_⟩
    · exact absurd ((pending_eq_nil_iff_accept hpending').mpr hnil) haccept
    · rw [List.length_append, List.length_singleton]
      change _ ≤ 499 + (e.undumpedChars + 1)
      omega

/-- **No write goes past the end of `string_buffer`.** -/
lemma Fits.dumpBytes {bytes : List Byte} (h : Fits e ranges) (hok : e.dumpBytes i bytes = .ok e') :
    ∃ ranges', Fits e' ranges' := by
  induction bytes generalizing e i ranges with
  | nil => exact ⟨ranges, Except.ok.inj hok ▸ h⟩
  | cons byte bytes ih =>
    rw [dumpBytes_cons] at hok
    cases hbyte : e.dumpByte i byte with
    | error x =>
      rw [hbyte] at hok
      cases hok
    | ok e₁ =>
      rw [hbyte] at hok
      obtain ⟨ranges₁, h₁⟩ := h.dumpByte hbyte
      exact ih h₁ hok

end Escaping

/-- **`dump_escaped` writes the characters of UTF-8 and within its buffer.**  Whatever bytes the
string has, it is escaped character by character if it is UTF-8; otherwise the error names the
first byte that no UTF-8 text goes on with, or says that the text is not complete. -/
theorem dumpEscaped_spec (s : List Byte) :
    Escapes s (dumpEscaped s) ∧
      ∀ (p : List Byte) (e : Escaping), p <+: s → Escaping.start.dumpBytes 0 p = .ok e →
        e.HasRoom := by
  refine ⟨escapes_dumpEscaped s, fun p e _ hok => ?_⟩
  obtain ⟨ranges, h⟩ := Escaping.fits_start.dumpBytes hok
  exact h.hasRoom

end OhMyMiner.Stratum
