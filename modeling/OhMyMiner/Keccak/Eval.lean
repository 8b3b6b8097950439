/-
# Evaluating the hashes on concrete messages

The loops of the permutation are slow to evaluate in a proof.  Here the round is unrolled over
five planes of five named lanes, and a message shorter than one block is hashed by one unrolled
permutation.  Nothing but the evaluation of the hashes on concrete messages uses this file.
-/
import OhMyMiner.Keccak.Absorb

namespace OhMyMiner.Keccak

open Lib

/-- A row of five lanes. -/
structure Plane where
  l₀ : BitVec 64
  l₁ : BitVec 64
  l₂ : BitVec 64
  l₃ : BitVec 64
  l₄ : BitVec 64

/-- A state as five planes. -/
structure Planes where
  p₀ : Plane
  p₁ : Plane
  p₂ : Plane
  p₃ : Plane
  p₄ : Plane

namespace Plane

/-- XOR of two planes. -/
def xor (a b : Plane) : Plane :=
  ⟨a.l₀ ^^^ b.l₀, a.l₁ ^^^ b.l₁, a.l₂ ^^^ b.l₂, a.l₃ ^^^ b.l₃, a.l₄ ^^^ b.l₄⟩

/-- The theta effect of the column parities. -/
def effect (c : Plane) : Plane :=
  ⟨c.l₄ ^^^ rotl64 c.l₁ 1, c.l₀ ^^^ rotl64 c.l₂ 1, c.l₁ ^^^ rotl64 c.l₃ 1,
    c.l₂ ^^^ rotl64 c.l₄ 1, c.l₃ ^^^ rotl64 c.l₀ 1⟩

/-- Chi on one plane. -/
def chi (b : Plane) : Plane :=
  ⟨b.l₀ ^^^ (~~~ b.l₁ &&& b.l₂), b.l₁ ^^^ (~~~ b.l₂ &&& b.l₃), b.l₂ ^^^ (~~~ b.l₃ &&& b.l₄),
    b.l₃ ^^^ (~~~ b.l₄ &&& b.l₀), b.l₄ ^^^ (~~~ b.l₀ &&& b.l₁)⟩

end Plane

namespace Planes

/-- The planes of a state. -/
def ofState (state : State) : Planes :=
  let plane : ℕ → Plane := fun y =>
    let lane : ℕ → BitVec 64 := fun x => state[(x + 5 * y) % 25]
    ⟨lane 0, lane 1, lane 2, lane 3, lane 4⟩
  ⟨plane 0, plane 1, plane 2, plane 3, plane 4⟩

/-- The lanes, in the order of the state. -/
def lanes (A : Planes) : State :=
  #v[A.p₀.l₀, A.p₀.l₁, A.p₀.l₂, A.p₀.l₃, A.p₀.l₄,
    A.p₁.l₀, A.p₁.l₁, A.p₁.l₂, A.p₁.l₃, A.p₁.l₄,
    A.p₂.l₀, A.p₂.l₁, A.p₂.l₂, A.p₂.l₃, A.p₂.l₄,
    A.p₃.l₀, A.p₃.l₁, A.p₃.l₂, A.p₃.l₃, A.p₃.l₄,
    A.p₄.l₀, A.p₄.l₁, A.p₄.l₂, A.p₄.l₃, A.p₄.l₄]

/-- Theta. -/
def theta (A : Planes) : Planes :=
  let D := ((((A.p₀.xor A.p₁).xor A.p₂).xor A.p₃).xor A.p₄).effect
  ⟨A.p₀.xor D, A.p₁.xor D, A.p₂.xor D, A.p₃.xor D, A.p₄.xor D⟩

/-- Rho and pi. -/
def rhoPi (A : Planes) : Planes :=
  ⟨⟨A.p₀.l₀, rotl64 A.p₁.l₁ 44, rotl64 A.p₂.l₂ 43,
      rotl64 A.p₃.l₃ 21, rotl64 A.p₄.l₄ 14⟩,
    ⟨rotl64 A.p₀.l₃ 28, rotl64 A.p₁.l₄ 20, rotl64 A.p₂.l₀ 3,
      rotl64 A.p₃.l₁ 45, rotl64 A.p₄.l₂ 61⟩,
    ⟨rotl64 A.p₀.l₁ 1, rotl64 A.p₁.l₂ 6, rotl64 A.p₂.l₃ 25,
      rotl64 A.p₃.l₄ 8, rotl64 A.p₄.l₀ 18⟩,
    ⟨rotl64 A.p₀.l₄ 27, rotl64 A.p₁.l₀ 36, rotl64 A.p₂.l₁ 10,
      rotl64 A.p₃.l₂ 15, rotl64 A.p₄.l₃ 56⟩,
    ⟨rotl64 A.p₀.l₂ 62, rotl64 A.p₁.l₃ 55, rotl64 A.p₂.l₄ 39,
      rotl64 A.p₃.l₀ 41, rotl64 A.p₄.l₁ 2⟩⟩

/-- Chi and iota. -/
def chiIota (B : Planes) (constant : BitVec 64) : Planes :=
  ⟨{B.p₀.chi with l₀ := B.p₀.chi.l₀ ^^^ constant}, B.p₁.chi, B.p₂.chi, B.p₃.chi, B.p₄.chi⟩

/-- All rounds. -/
def permute (A : Planes) : Planes :=
  forLoop 24 A fun round _ A => A.theta.rhoPi.chiIota roundConstants[round]

/-! ## The unrolled round is the round -/

lemma ofState_theta (state : State) : ofState (Keccak.theta state) = (ofState state).theta := by
  simp only [ofState, getElem_theta, getElem_effects, getElem_columns]
  rfl

lemma ofState_rhoPi (state : State) :
    ofState (Keccak.rhoPi rotationOffsets state) = (ofState state).rhoPi := by
  simp only [ofState, getElem_rhoPi]
  simp only [rhoPi]
  congr 2
  exact rotl64_zero _

lemma ofState_chiIota (B state : State) (constant : BitVec 64) :
    ofState (iota constant (chi B state)) = (ofState B).chiIota constant := by
  simp only [ofState, iota, Vector.getElem_set, getElem_chi]
  rfl

/-- The unrolled permutation is the permutation. -/
theorem ofState_keccakF1600 (state : State) :
    ofState (keccakF1600 state) = (ofState state).permute := by
  rw [keccakF1600, rounds, permute]
  refine forLoop_rel (fun _ state A => ofState state = A) rfl fun round hround state A hA => ?_
  rw [ofState_chiIota, ofState_rhoPi, ofState_theta, hA]

lemma lanes_ofState (state : State) : (ofState state).lanes = state := by
  apply Vector.ext
  intro j hj
  simp only [lanes, ofState]
  interval_cases j <;> rfl

end Planes

/-! ## Messages of one block -/

/-- The planes of a block of bytes. -/
def Planes.ofBlock (block : List Byte) : Planes :=
  let value := leValue block
  let lane : ℕ → BitVec 64 := fun j => BitVec.ofNat 64 (value >>> (64 * j))
  ⟨⟨lane 0, lane 1, lane 2, lane 3, lane 4⟩, ⟨lane 5, lane 6, lane 7, lane 8, lane 9⟩,
    ⟨lane 10, lane 11, lane 12, lane 13, lane 14⟩, ⟨lane 15, lane 16, lane 17, lane 18, lane 19⟩,
    ⟨lane 20, lane 21, lane 22, lane 23, lane 24⟩⟩

/-- The digest of a message shorter than one block of `200 - 2 * outLen` bytes. -/
def evalDigest (outLen : ℕ) (hout : outLen < 100) (data : List Byte) : Vector Byte outLen :=
  let lanes := (Planes.ofBlock (Sponge.pad (200 - 2 * outLen) data)).permute.lanes
  Vector.ofFn fun i => byteAt lanes[i.1 / 8] (i.1 % 8)

lemma ofState_ofBlock (block : List Byte) :
    Planes.ofState (ofStateBytes (Sponge.xorBlock (Vector.replicate 200 0) block)) =
      Planes.ofBlock block := by
  have hlane : ∀ j (hj : j < 25),
      (ofStateBytes (Sponge.xorBlock (Vector.replicate 200 0) block))[j] =
        BitVec.ofNat 64 (leValue block >>> (64 * j)) := by
    intro j hj
    simp only [ofStateBytes]
    rw [getElem_ofBytes _ _ hj (by omega), ← leWord_getD]
    refine leWord_congr fun i hi => ?_
    rw [Sponge.getElem_xorBlock, Vector.getElem_replicate]
    exact BitVec.zero_xor
  simp only [Planes.ofState, hlane]
  rfl

theorem keccak_eq_evalDigest (outLen : ℕ) (hout : outLen < 100) {data : List Byte}
    (hlt : data.length < 200 - 2 * outLen) :
    keccak data outLen hout = evalDigest outLen hout data := by
  apply Vector.toList_inj.mp
  rw [keccak, absorbSqueeze_eq, Sponge.hash, Sponge.absorbAll_of_lt hlt, onBytes,
    ← Planes.lanes_ofState (keccakF1600 _), Planes.ofState_keccakF1600, ofState_ofBlock]
  apply List.ext_getElem
  · simp
    omega
  · intro i h₁ h₂
    simp [evalDigest, getElem_stateBytes]

lemma keccak256_eq_evalDigest {data : List Byte} (hlt : data.length < 136) :
    keccak256 data = evalDigest 32 (by decide) data := keccak_eq_evalDigest 32 _ hlt

lemma keccak512_eq_evalDigest {data : List Byte} (hlt : data.length < 72) :
    keccak512 data = evalDigest 64 (by decide) data := keccak_eq_evalDigest 64 _ hlt

/-- The digest of the empty message starts with `c5d24601`. -/
example : (keccak256 []).toList.take 4 = [0xc5, 0xd2, 0x46, 0x01] := by
  rw [keccak256_eq_evalDigest (by decide)]
  decide +kernel

end OhMyMiner.Keccak
