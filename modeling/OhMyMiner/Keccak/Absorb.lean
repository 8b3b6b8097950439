/-
# The three absorbers of the miner

`Keccak::keccak` and the device function `keccak_absorb_squeeze` absorb block by block through a
temporary buffer; they are one function over two permutations.  `keccak512_device`, in the DAG
kernel, absorbs byte by byte and permutes as soon as a block is full.  All of them are the Keccak
sponge: what they keep between two bytes is the state of the sponge with the bytes of the current
block already XORed in.
-/
import OhMyMiner.Keccak.Fips
import OhMyMiner.Lib.Sponge

namespace OhMyMiner.Keccak

open Lib

/-! ## The code -/

/-- The bytes of the state, `(uint8_t*)state`. -/
def stateBytes (state : State) : Vector Byte 200 := toBytes 8 rfl state

/-- The state with given bytes. -/
def ofStateBytes (bytes : Vector Byte 200) : State := ofBytes 64 8 rfl bytes

/-- The loop `while (len >= rate)`: absorb the full blocks.  What is left is shorter than a
block.  Of the buffer `temp` a block only reads the `rate` bytes that it has written. -/
def absorbLoop (f : State → State) (rate : ℕ) (hpos : 0 < rate) (hle : rate ≤ 200)
    (state : State) (data : List Byte) : State × {rest : List Byte // rest.length < rate} :=
  if h : rate ≤ data.length then
    let temp : Vector Byte 200 := forLoop rate (Vector.replicate 200 0) fun i _ temp =>
      temp.set i ((stateBytes state)[i] ^^^ data[i])
    let state := ofStateBytes (memcpy (stateBytes state) (fun i => temp.toList.getD i 0) rate)
    absorbLoop f rate hpos hle (f state) (data.drop rate)
  else (state, ⟨data, by omega⟩)
termination_by data.length
decreasing_by
  rw [List.length_drop]
  omega

/-- The temporary buffer of the last block: what is left of the message, then the padding. -/
def lastBlock (rate : ℕ) (hle : rate ≤ 200) (data : {rest : List Byte // rest.length < rate}) :
    Vector Byte 200 :=
  have hlen : data.1.length < rate := data.2
  let temp : Vector Byte 200 :=
    memcpy (Vector.replicate 200 0) (fun i => data.1.getD i 0) data.1.length
  let temp := temp.set data.1.length (temp[data.1.length] ^^^ 0x01)
  temp.set (rate - 1) (temp[rate - 1] ^^^ 0x80)

/-- XOR the last block into the state, `((uint8_t*)state)[i] ^= temp[i]`, and permute. -/
def absorbLast (f : State → State) (rate : ℕ) (hle : rate ≤ 200) (state : State)
    (data : {rest : List Byte // rest.length < rate}) : State :=
  let temp := lastBlock rate hle data
  let bytes := forLoop rate (stateBytes state) fun i _ bytes =>
    bytes.set i (bytes[i] ^^^ temp[i])
  f (ofStateBytes bytes)

/-- The text shared by `Keccak::keccak` and `keccak_absorb_squeeze`; the rate is
`200 - 2 * outLen` bytes. -/
def absorbSqueeze (f : State → State) (data : List Byte) (outLen : ℕ) (hout : outLen < 100) :
    Vector Byte outLen :=
  let absorbed := absorbLoop f (200 - 2 * outLen) (by omega) (by omega)
    (Vector.replicate 25 0) data
  let state := absorbLast f (200 - 2 * outLen) (by omega) absorbed.1 absorbed.2
  Vector.ofFn fun i => (stateBytes state)[i.1]

/-- `Keccak::keccak`. -/
def keccak (data : List Byte) (outputLen : ℕ) (hout : outputLen < 100) : Vector Byte outputLen :=
  absorbSqueeze keccakF1600 data outputLen hout

/-- `Keccak::keccak256`. -/
def keccak256 (data : List Byte) : Vector Byte 32 := keccak data 32 (by decide)

/-- `Keccak::keccak512`. -/
def keccak512 (data : List Byte) : Vector Byte 64 := keccak data 64 (by decide)

/-- `keccak_absorb_squeeze`. -/
def keccakAbsorbSqueeze (data : List Byte) (outLen : ℕ) (hout : outLen < 100) :
    Vector Byte outLen :=
  absorbSqueeze keccakF1600Dev data outLen hout

/-- `keccak256_dev`. -/
def keccak256Dev (data : List Byte) : Vector Byte 32 := keccakAbsorbSqueeze data 32 (by decide)

/-- `keccak512_dev`. -/
def keccak512Dev (data : List Byte) : Vector Byte 64 := keccakAbsorbSqueeze data 64 (by decide)

/-- `state[i / 8] ^= (uint64_t)b << (8 * (i % 8))`. -/
def xorByte (state : State) (i : ℕ) (hi : i < 200) (b : Byte) : State :=
  state.set (i / 8) (state[i / 8] ^^^ (b.setWidth 64 <<< (8 * (i % 8))))

/-- One pass of the byte loop of `keccak512_device`; `blockSize` counts up to the rate 72. -/
def absorbByte (s : State × Fin 72) (b : Byte) : State × Fin 72 :=
  let state := xorByte s.1 s.2 (by omega) b
  if h : s.2.1 + 1 = 72 then (keccakF1600Dag state, 0) else (state, ⟨s.2.1 + 1, by omega⟩)

/-- `keccak512_device`. -/
def keccak512Device (data : List Byte) : Vector Byte 64 :=
  let absorbed := data.foldl absorbByte (Vector.replicate 25 0, 0)
  let state := xorByte absorbed.1 absorbed.2 (by omega) 0x01
  let state := xorByte state (72 - 1) (by omega) 0x80
  let state := keccakF1600Dag state
  Vector.ofFn fun i => byteAt state[i.1 / 8] (i.1 % 8)

/-! ## The state as bytes -/

lemma stateBytes_ofStateBytes (bytes : Vector Byte 200) :
    stateBytes (ofStateBytes bytes) = bytes := by
  rw [stateBytes, ofStateBytes]
  exact toBytes_ofBytes (by decide) _ bytes

lemma ofStateBytes_stateBytes (state : State) : ofStateBytes (stateBytes state) = state := by
  rw [stateBytes, ofStateBytes]
  exact ofBytes_toBytes (by decide) _ state

lemma getElem_stateBytes (state : State) {i : ℕ} (hi : i < 200) :
    (stateBytes state)[i] = byteAt state[i / 8] (i % 8) := by
  simp only [stateBytes]
  exact getElem_toBytes _ state hi (by omega)

lemma stateBytes_zero : stateBytes (Vector.replicate 25 0) = Vector.replicate 200 0 := by
  apply Vector.ext
  intro i hi
  rw [getElem_stateBytes, Vector.getElem_replicate, Vector.getElem_replicate, byteAt_zero]

/-- A permutation of the state, on its bytes. -/
def onBytes (f : State → State) (bytes : Vector Byte 200) : Vector Byte 200 :=
  stateBytes (f (ofStateBytes bytes))

lemma stateBytes_apply (f : State → State) (state : State) :
    stateBytes (f state) = onBytes f (stateBytes state) := by
  rw [onBytes, ofStateBytes_stateBytes]

/-- Shifting a byte into a word and XORing it in changes one byte of the state. -/
lemma stateBytes_xorByte (state : State) {i : ℕ} (hi : i < 200) (b : Byte) :
    stateBytes (xorByte state i hi b) =
      (stateBytes state).set i ((stateBytes state)[i] ^^^ b) := by
  apply Vector.ext
  intro j hj
  rw [getElem_stateBytes, Vector.getElem_set, getElem_stateBytes _ hi, getElem_stateBytes _ hj]
  rw [xorByte, Vector.getElem_set]
  by_cases hword : i / 8 = j / 8
  · rw [if_pos hword, byteAt_xor, byteAt_setWidth_shiftLeft b (by omega) (by omega)]
    by_cases hij : i = j
    · subst hij
      rw [if_pos rfl, if_pos rfl]
    · rw [if_neg hij, if_neg (by omega)]
      simp only [hword, xor_zero]
  · rw [if_neg hword, if_neg fun h => hword (by rw [h])]

/-! ## The block absorbers -/

section Blocks

variable {f : State → State} {rate : ℕ} {state : State} {data : List Byte}

/-- The temporary buffer holds the padded rest of the message. -/
lemma getElem_lastBlock (hle : rate ≤ 200) (rest : {rest : List Byte // rest.length < rate})
    {i : ℕ} (hi : i < rate) :
    (lastBlock rate hle rest)[i] = (Sponge.pad rate rest.1).getD i 0 := by
  have hlen : rest.1.length < rate := rest.2
  have hmsg : (if i < rest.1.length then rest.1.getD i 0 else 0) = rest.1.getD i 0 := by
    split
    · rfl
    · next h => exact (List.getD_eq_default _ _ (by omega)).symm
  rw [Sponge.getD_pad hlen hi, lastBlock]
  rw [getElem_set_self (by omega) (· ^^^ 0x80), getElem_set_self (by omega) (· ^^^ 0x01),
    getElem_memcpy, Vector.getElem_replicate, hmsg]
  simp only [eq_comm (a := i)]
  by_cases h₁ : rest.1.length = i <;> by_cases h₂ : rate - 1 = i <;>
    simp only [h₁, h₂, if_true, if_false, xor_zero]

/-- The last block of the code is the last block of the sponge. -/
lemma absorbLast_eq (hle : rate ≤ 200) (rest : {rest : List Byte // rest.length < rate}) :
    absorbLast f rate hle state rest =
      f (ofStateBytes (Sponge.xorBlock (stateBytes state) (Sponge.pad rate rest.1))) := by
  have hpad : (Sponge.pad rate rest.1).length = rate := Sponge.length_pad_of_lt rest.2
  refine congrArg (fun bytes => f (ofStateBytes bytes)) ?_
  apply Vector.ext
  intro i hi
  rw [getElem_forLoop_le hle (fun i _ a => a ^^^ (lastBlock rate hle rest)[i]),
    Sponge.getElem_xorBlock]
  by_cases h : i < rate
  · rw [dif_pos h, getElem_lastBlock hle rest h]
  · have hnone : (Sponge.pad rate rest.1).getD i 0 = 0 := List.getD_eq_default _ _ (by omega)
    rw [dif_neg h, hnone, xor_zero]

/-- A full block goes through the temporary buffer into the state. -/
lemma fullBlock_eq (hle : rate ≤ 200) (hdata : rate ≤ data.length) :
    memcpy (stateBytes state) (fun i =>
      (forLoop rate (Vector.replicate 200 0) fun i _ (temp : Vector Byte 200) =>
        temp.set i ((stateBytes state)[i] ^^^ data[i])).toList.getD i 0) rate =
      Sponge.xorBlock (stateBytes state) (data.take rate) := by
  apply Vector.ext
  intro i hi
  rw [getElem_memcpy, Sponge.getElem_xorBlock]
  by_cases h : i < rate
  · rw [if_pos h]
    have htake : (data.take rate).getD i 0 = data[i] := by
      simp [List.getD_eq_getElem?_getD, h, show i < data.length by omega]
    have htemp : ∀ temp : Vector Byte 200, temp.toList.getD i 0 = temp[i] := by
      intro temp
      simp [List.getD_eq_getElem?_getD, hi]
    rw [htake, htemp, getElem_forLoop_le hle (fun i _ _ => (stateBytes state)[i] ^^^ data[i]),
      dif_pos h]
  · have hnone : (data.take rate).getD i 0 = 0 := List.getD_eq_default _ _ (by simp; omega)
    rw [if_neg h, hnone, xor_zero]

/-- **The block loop and the last block are the absorbing phase of the sponge.** -/
theorem absorbLast_absorbLoop (f : State → State) (hpos : 0 < rate) (hle : rate ≤ 200)
    (state : State) (data : List Byte) :
    stateBytes (absorbLast f rate hle (absorbLoop f rate hpos hle state data).1
        (absorbLoop f rate hpos hle state data).2) =
      Sponge.absorbAll (onBytes f) rate (stateBytes state) data := by
  induction state, data using absorbLoop.induct f rate hpos hle with
  | case1 state data h temp state' ih =>
    have hblock : stateBytes state' = Sponge.xorBlock (stateBytes state) (data.take rate) := by
      rw [← fullBlock_eq hle h]
      exact stateBytes_ofStateBytes _
    rw [Sponge.absorbAll_of_le hpos h, ← hblock, ← stateBytes_apply, absorbLoop, dif_pos h]
    exact ih
  | case2 state data h =>
    rw [absorbLoop, dif_neg h, absorbLast_eq, stateBytes_apply, stateBytes_ofStateBytes,
      Sponge.absorbAll_of_lt (by omega)]

lemma absorbSqueeze_eq (f : State → State) (data : List Byte) (outLen : ℕ) (hout : outLen < 100) :
    (absorbSqueeze f data outLen hout).toList =
      Sponge.hash (onBytes f) (200 - 2 * outLen) outLen data := by
  have hpos : 0 < 200 - 2 * outLen := by omega
  rw [Sponge.hash, ← stateBytes_zero, ← absorbLast_absorbLoop f hpos (by omega)]
  apply List.ext_getElem
  · simp; omega
  · intro i h₁ h₂
    simp [absorbSqueeze]

end Blocks

lemma keccak256Dev_eq (data : List Byte) : keccak256Dev data = keccak256 data := by
  have hdev : keccakF1600Dev = keccakF1600 := funext keccakF1600Dev_eq
  rw [keccak256Dev, keccakAbsorbSqueeze, hdev, keccak256, keccak]

lemma keccak512Dev_eq (data : List Byte) : keccak512Dev data = keccak512 data := by
  have hdev : keccakF1600Dev = keccakF1600 := funext keccakF1600Dev_eq
  rw [keccak512Dev, keccakAbsorbSqueeze, hdev, keccak512, keccak]

/-! ## The byte absorber -/

section Bytewise

/-- What the byte loop of `keccak512_device` keeps: the state `s` is a sponge state `S` with the
bytes `pending` of the current block already XORed in. -/
structure Pending (S : Vector Byte 200) (pending : List Byte) (s : State × Fin 72) : Prop where
  bytes : stateBytes s.1 = Sponge.xorBlock S pending
  length : pending.length = s.2.1

/-- XORing one more byte in, behind the bytes of the current block. -/
lemma Pending.xorByte {S : Vector Byte 200} {pending : List Byte} {s : State × Fin 72}
    (h : Pending S pending s) (b : Byte) :
    stateBytes (xorByte s.1 s.2 (by omega) b) = Sponge.xorBlock S (pending ++ [b]) := by
  rw [stateBytes_xorByte, h.bytes]
  apply Vector.ext
  intro j hj
  rw [getElem_set_self (by omega) (· ^^^ b), Sponge.getElem_xorBlock, Sponge.getElem_xorBlock,
    ← h.length]
  simp only [List.getD_eq_getElem?_getD]
  rcases lt_trichotomy j pending.length with hlt | heq | hgt
  · rw [if_neg (by omega), List.getElem?_append_left hlt]
  · subst heq
    rw [if_pos rfl, List.getElem?_eq_none le_rfl]
    simp
  · rw [if_neg (by omega), List.getElem?_eq_none (by omega), List.getElem?_eq_none (by simp; omega)]

/-- One pass of the byte loop: the byte joins the current block, and a block that is full goes
through the permutation. -/
lemma Pending.absorbByte {S : Vector Byte 200} {pending : List Byte} {s : State × Fin 72}
    (h : Pending S pending s) (b : Byte) :
    ∃ S' pending', Pending S' pending' (absorbByte s b) ∧
      ∀ rest, Sponge.absorbAll (onBytes keccakF1600Dag) 72 S (pending ++ b :: rest) =
        Sponge.absorbAll (onBytes keccakF1600Dag) 72 S' (pending' ++ rest) := by
  have hlen := h.length
  rw [Keccak.absorbByte]
  by_cases hfull : s.2.1 + 1 = 72
  · -- the block is full
    refine ⟨onBytes keccakF1600Dag (Sponge.xorBlock S (pending ++ [b])), [], ⟨?_, ?_⟩, ?_⟩
    · rw [dif_pos hfull, stateBytes_apply, h.xorByte, Sponge.xorBlock_nil]
    · rw [dif_pos hfull]
      rfl
    · intro rest
      have hblock : (pending ++ [b]).length = 72 := by
        rw [List.length_append, List.length_singleton]
        omega
      have hsplit : pending ++ b :: rest = (pending ++ [b]) ++ rest := by simp
      rw [hsplit, Sponge.absorbAll_of_le (by decide) (by simp; omega), List.take_left' hblock,
        List.drop_left' hblock]
      rfl
  · refine ⟨S, pending ++ [b], ⟨?_, ?_⟩, fun rest => by simp⟩
    · rw [dif_neg hfull, h.xorByte]
    · rw [dif_neg hfull, List.length_append, hlen]
      rfl

/-- What the byte loop keeps over a whole message. -/
lemma Pending.foldl {S : Vector Byte 200} {pending : List Byte} {s : State × Fin 72}
    (h : Pending S pending s) (data : List Byte) :
    ∃ S' pending', Pending S' pending' (data.foldl Keccak.absorbByte s) ∧
      Sponge.absorbAll (onBytes keccakF1600Dag) 72 S (pending ++ data) =
        Sponge.absorbAll (onBytes keccakF1600Dag) 72 S' pending' := by
  induction data generalizing S pending s with
  | nil => exact ⟨S, pending, h, by rw [List.append_nil]⟩
  | cons b data ih =>
    obtain ⟨S₁, pending₁, h₁, heq₁⟩ := h.absorbByte b
    obtain ⟨S₂, pending₂, h₂, heq₂⟩ := ih h₁
    exact ⟨S₂, pending₂, h₂, (heq₁ data).trans heq₂⟩

/-- The two padding bytes complete the last block. -/
lemma Pending.pad {S : Vector Byte 200} {pending : List Byte} {s : State × Fin 72}
    (h : Pending S pending s) :
    stateBytes (Keccak.xorByte (Keccak.xorByte s.1 s.2 (by omega) 0x01) (72 - 1) (by omega) 0x80) =
      Sponge.xorBlock S (Sponge.pad 72 pending) := by
  have hlt : pending.length < 72 := by rw [h.length]; exact s.2.2
  rw [stateBytes_xorByte, stateBytes_xorByte, h.bytes]
  apply Vector.ext
  intro j hj
  rw [getElem_set_self (by omega) (· ^^^ 0x80), getElem_set_self (by omega) (· ^^^ 0x01),
    Sponge.getElem_xorBlock, Sponge.getElem_xorBlock, ← h.length]
  by_cases hj' : j < 72
  · rw [Sponge.getD_pad hlt hj']
    simp only [eq_comm (a := j)]
    by_cases h₁ : pending.length = j <;> by_cases h₂ : 72 - 1 = j <;>
      simp only [h₁, h₂, if_true, if_false, xor_zero, BitVec.xor_assoc]
  · have hpad : (Sponge.pad 72 pending).length = 72 := Sponge.length_pad_of_lt hlt
    have hnone : (Sponge.pad 72 pending).getD j 0 = 0 := List.getD_eq_default _ _ (by omega)
    have hnone' : pending.getD j 0 = 0 := List.getD_eq_default _ _ (by omega)
    rw [if_neg (by omega), if_neg (by omega), hnone, hnone']

/-- **The byte absorber is the sponge.** -/
theorem keccak512Device_eq (data : List Byte) :
    (keccak512Device data).toList = Sponge.hash (onBytes keccakF1600Dag) 72 64 data := by
  have hstart : Pending (stateBytes (Vector.replicate 25 0)) [] (Vector.replicate 25 0, 0) :=
    ⟨by rw [Sponge.xorBlock_nil], rfl⟩
  obtain ⟨S, pending, h, heq⟩ := hstart.foldl data
  have hlt : pending.length < 72 := by rw [h.length]; exact Fin.is_lt _
  rw [Sponge.hash, ← stateBytes_zero, ← List.nil_append data, heq, List.nil_append,
    Sponge.absorbAll_of_lt hlt, ← h.pad, ← stateBytes_apply]
  apply List.ext_getElem
  · simp
  · intro i h₁ h₂
    simp [keccak512Device, getElem_stateBytes]

end Bytewise

/-- **All absorbers are the Keccak sponge.**  On every message, the host digests and those of the
search kernels are the sponge with rates of 136 and 72 bytes over the host permutation, and the
DAG kernel hashes to the same 64 bytes as the host. -/
theorem absorbers_refine_sponge (data : List Byte) :
    (keccak256 data).toList = Sponge.hash (onBytes keccakF1600) 136 32 data ∧
      (keccak512 data).toList = Sponge.hash (onBytes keccakF1600) 72 64 data ∧
      (keccakAbsorbSqueeze data 32 (by decide)).toList =
        Sponge.hash (onBytes keccakF1600) 136 32 data ∧
      (keccakAbsorbSqueeze data 64 (by decide)).toList =
        Sponge.hash (onBytes keccakF1600) 72 64 data ∧
      keccak512Device data = keccak512 data := by
  have hdag : keccakF1600Dag = keccakF1600 := funext keccakF1600Dag_eq
  have h₃₂ := absorbSqueeze_eq keccakF1600 data 32 (by decide)
  have h₆₄ := absorbSqueeze_eq keccakF1600 data 64 (by decide)
  refine ⟨h₃₂, h₆₄, h₃₂, h₆₄, ?_⟩
  apply Vector.toList_inj.mp
  rw [keccak512Device_eq, hdag]
  exact h₆₄.symm

end OhMyMiner.Keccak
