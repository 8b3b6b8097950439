/-
# The three Keccak-f[1600] permutations of the miner

`Keccak::keccak_f1600` (`src/core/keccak.cpp`) is the permutation of the host,
`keccak_f1600_dev` (`src/cuda/kernels/keccak_dev.cuh`) that of the search kernels, and
`keccak_f1600_dag` (`src/cuda/dag_kernel.cu`) that of the DAG kernel.  The first two have the
same text over two copies of the tables; the third rearranges the lanes in place, along a cycle
of 24 lanes, with other tables.

Every loop of the source is a `forLoop` here, and a state of 25 words is a vector, so that each
array access carries the proof that it is in range.
-/
import OhMyMiner.Lib.Bytes

namespace OhMyMiner.Keccak

open Lib

/-- The state of the permutation, `uint64_t state[25]`. -/
abbrev State : Type := Vector (BitVec 64) 25

/-- `rotl64`, `rotl64_dev`.  A shift by the whole width clears a bit vector, so the rotation by
`0` is the identity here, where the C++ expression shifts a 64-bit word by 64. -/
def rotl64 (x : BitVec 64) (n : ℕ) : BitVec 64 := (x <<< n) ||| (x >>> (64 - n))

/-! ## Theta, common to the three -/

/-- `C[x] = state[x] ^ state[x + 5] ^ state[x + 10] ^ state[x + 15] ^ state[x + 20]`. -/
def columns (state : State) : Vector (BitVec 64) 5 :=
  forLoop 5 (Vector.replicate 5 0) fun x _ C =>
    C.set x (state[x] ^^^ state[x + 5] ^^^ state[x + 10] ^^^ state[x + 15] ^^^ state[x + 20])

lemma getElem_columns (state : State) {x : ℕ} (hx : x < 5) :
    (columns state)[x] =
      state[x] ^^^ state[x + 5] ^^^ state[x + 10] ^^^ state[x + 15] ^^^ state[x + 20] :=
  getElem_forLoop_set (fun x _ _ =>
    state[x] ^^^ state[x + 5] ^^^ state[x + 10] ^^^ state[x + 15] ^^^ state[x + 20]) x hx

/-- `D[x] = C[(x + 4) % 5] ^ rotl64(C[(x + 1) % 5], 1)`. -/
def effects (C : Vector (BitVec 64) 5) : Vector (BitVec 64) 5 :=
  forLoop 5 (Vector.replicate 5 0) fun x _ D =>
    D.set x (C[(x + 4) % 5] ^^^ rotl64 C[(x + 1) % 5] 1)

lemma getElem_effects (C : Vector (BitVec 64) 5) {x : ℕ} (hx : x < 5) :
    (effects C)[x] = C[(x + 4) % 5] ^^^ rotl64 C[(x + 1) % 5] 1 :=
  getElem_forLoop_set (fun x _ _ => C[(x + 4) % 5] ^^^ rotl64 C[(x + 1) % 5] 1) x hx

/-- `state[x + 5 * y] ^= D[x]` for all `x` and `y`. -/
def theta (state : State) : State :=
  let D := effects (columns state)
  forLoop 5 state fun x _ state => forLoop 5 state fun y _ state =>
    state.set (x + 5 * y) (state[x + 5 * y] ^^^ D[x])

/-! ## The host and the search kernels -/

/-- `B[y + 5 * ((2 * x + 3 * y) % 5)] = rotl64(state[x + 5 * y], offsets[x + 5 * y])`. -/
def rhoPi (offsets : Vector ℕ 25) (state : State) : State :=
  forLoop 5 (Vector.replicate 25 0) fun x _ B => forLoop 5 B fun y _ B =>
    B.set (y + 5 * ((2 * x + 3 * y) % 5)) (rotl64 state[x + 5 * y] offsets[x + 5 * y])

/-- `state[x + 5 * y] = B[x + 5 * y] ^ ((~B[(x + 1) % 5 + 5 * y]) & B[(x + 2) % 5 + 5 * y])`. -/
def chi (B state : State) : State :=
  forLoop 5 state fun x _ state => forLoop 5 state fun y _ state =>
    state.set (x + 5 * y)
      (B[x + 5 * y] ^^^ (~~~ B[(x + 1) % 5 + 5 * y] &&& B[(x + 2) % 5 + 5 * y]))

/-- `state[0] ^= constant`. -/
def iota (constant : BitVec 64) (state : State) : State := state.set 0 (state[0] ^^^ constant)

/-- The 24 rounds over given tables. -/
def rounds (constants : Vector (BitVec 64) 24) (offsets : Vector ℕ 25) (state : State) : State :=
  forLoop 24 state fun round _ state =>
    let state := theta state
    let B := rhoPi offsets state
    let state := chi B state
    iota constants[round] state

/-- `Keccak::ROUND_CONSTANTS`. -/
def roundConstants : Vector (BitVec 64) 24 :=
  #v[0x0000000000000001, 0x0000000000008082, 0x800000000000808a,
    0x8000000080008000, 0x000000000000808b, 0x0000000080000001,
    0x8000000080008081, 0x8000000000008009, 0x000000000000008a,
    0x0000000000000088, 0x0000000080008009, 0x000000008000000a,
    0x000000008000808b, 0x800000000000008b, 0x8000000000008089,
    0x8000000000008003, 0x8000000000008002, 0x8000000000000080,
    0x000000000000800a, 0x800000008000000a, 0x8000000080008081,
    0x8000000000008080, 0x0000000080000001, 0x8000000080008008]

/-- `Keccak::ROTATION_OFFSETS`. -/
def rotationOffsets : Vector ℕ 25 :=
  #v[0, 1, 62, 28, 27,
    36, 44, 6, 55, 20,
    3, 10, 43, 25, 39,
    41, 45, 15, 21, 8,
    18, 2, 61, 56, 14]

/-- `Keccak::keccak_f1600`. -/
def keccakF1600 (state : State) : State := rounds roundConstants rotationOffsets state

/-- `c_keccak_round_constants` (`keccak_constants.cu`). -/
def cKeccakRoundConstants : Vector (BitVec 64) 24 :=
  #v[0x0000000000000001, 0x0000000000008082, 0x800000000000808a,
    0x8000000080008000, 0x000000000000808b, 0x0000000080000001,
    0x8000000080008081, 0x8000000000008009, 0x000000000000008a,
    0x0000000000000088, 0x0000000080008009, 0x000000008000000a,
    0x000000008000808b, 0x800000000000008b, 0x8000000000008089,
    0x8000000000008003, 0x8000000000008002, 0x8000000000000080,
    0x000000000000800a, 0x800000008000000a, 0x8000000080008081,
    0x8000000000008080, 0x0000000080000001, 0x8000000080008008]

/-- `c_keccak_rotation_offsets` (`keccak_constants.cu`). -/
def cKeccakRotationOffsets : Vector ℕ 25 :=
  #v[0, 1, 62, 28, 27,
    36, 44, 6, 55, 20,
    3, 10, 43, 25, 39,
    41, 45, 15, 21, 8,
    18, 2, 61, 56, 14]

/-- `keccak_f1600_dev`. -/
def keccakF1600Dev (state : State) : State :=
  rounds cKeccakRoundConstants cKeccakRotationOffsets state

/-! ## The DAG kernel -/

/-- `keccakf_rndc`. -/
def keccakfRndc : Vector (BitVec 64) 24 :=
  #v[0x0000000000000001, 0x0000000000008082, 0x800000000000808a,
    0x8000000080008000, 0x000000000000808b, 0x0000000080000001,
    0x8000000080008081, 0x8000000000008009, 0x000000000000008a,
    0x0000000000000088, 0x0000000080008009, 0x000000008000000a,
    0x000000008000808b, 0x800000000000008b, 0x8000000000008089,
    0x8000000000008003, 0x8000000000008002, 0x8000000000000080,
    0x000000000000800a, 0x800000008000000a, 0x8000000080008081,
    0x8000000000008080, 0x0000000080000001, 0x8000000080008008]

/-- `keccakf_rotc`. -/
def keccakfRotc : Vector ℕ 24 :=
  #v[1, 3, 6, 10, 15, 21, 28, 36, 45, 55, 2, 14,
    27, 41, 56, 8, 25, 43, 62, 18, 39, 61, 20, 44]

/-- `keccakf_piln`, as indices of the state. -/
def keccakfPiln : Vector (Fin 25) 24 :=
  #v[10, 7, 11, 17, 18, 3, 5, 16, 8, 21, 24, 4,
    15, 23, 19, 13, 12, 2, 20, 14, 22, 9, 6, 1]

/-- Rho and pi in place: the lane carried in `t` is rotated into the next lane of the cycle,
whose old value is carried on. -/
def rhoPiDag (state : State) : State :=
  (forLoop 24 (state[1], state) fun i _ (t, state) =>
    let j := keccakfPiln[i]
    (state[j], state.set j (rotl64 t keccakfRotc[i]))).2

/-- Chi, row by row: `C[x] = state[y * 5 + x]`, then
`state[y * 5 + x] ^= (~C[(x + 1) % 5]) & C[(x + 2) % 5]`. -/
def chiDag (state : State) : State :=
  forLoop 5 state fun y _ state =>
    let C : Vector (BitVec 64) 5 :=
      forLoop 5 (Vector.replicate 5 0) fun x _ C => C.set x state[y * 5 + x]
    forLoop 5 state fun x _ state =>
      state.set (y * 5 + x)
        (state[y * 5 + x] ^^^ (~~~ C[(x + 1) % 5] &&& C[(x + 2) % 5]))

/-- `keccak_f1600_dag`. -/
def keccakF1600Dag (state : State) : State :=
  forLoop 24 state fun round _ state =>
    let state := theta state
    let state := rhoPiDag state
    let state := chiDag state
    iota keccakfRndc[round] state

end OhMyMiner.Keccak
