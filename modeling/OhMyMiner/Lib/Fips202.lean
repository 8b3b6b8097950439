/-
# The permutation Keccak-f of FIPS 202

The standard describes the permutation bit by bit, on a state of `5 × 5` lanes of `2 ^ ℓ` bits:
bit `z` of lane `(x, y)` is `A x y z`, with the coordinates `x, y` read modulo `5` and `z` modulo
the lane width.  Nothing here is a table: the offsets of the step ρ are generated by the orbit of
`(1, 0)` under `(x, y) ↦ (y, 2 x + 3 y)`, and the round constants of the step ι by a linear
feedback shift register.
-/
import OhMyMiner.Lib.Loop

namespace OhMyMiner.Lib.Fips202

/-- A state of `5 × 5` lanes of `2 ^ ℓ` bits. -/
abbrev State (ℓ : ℕ) : Type := Fin 5 → Fin 5 → Fin (2 ^ ℓ) → Bool

variable {ℓ : ℕ}

/-- The parity of the column `(x, z)`. -/
def parity (A : State ℓ) (x : Fin 5) (z : Fin (2 ^ ℓ)) : Bool :=
  A x 0 z ^^ A x 1 z ^^ A x 2 z ^^ A x 3 z ^^ A x 4 z

/-- The step θ: every bit is changed by the parities of two nearby columns. -/
def theta (A : State ℓ) : State ℓ := fun x y z =>
  A x y z ^^ (parity A (x - 1) z ^^ parity A (x + 1) (z - 1))

/-- The lanes in the order in which the step ρ visits them. -/
def orbit : ℕ → Fin 5 × Fin 5
  | 0 => (1, 0)
  | t + 1 => ((orbit t).2, 2 * (orbit t).1 + 3 * (orbit t).2)

/-- The offset of lane `(x, y)`: `(t + 1) (t + 2) / 2` where `t` is the position of the lane on
the orbit, and `0` for the lane `(0, 0)`, which is not on it. -/
def offset (x y : Fin 5) : ℕ :=
  match (List.range 24).find? fun t => orbit t = (x, y) with
  | some t => (t + 1) * (t + 2) / 2
  | none => 0

/-- The step ρ: lane `(x, y)` is rotated by its offset. -/
def rho (A : State ℓ) : State ℓ := fun x y z => A x y (z - Fin.ofNat (2 ^ ℓ) (offset x y))

/-- The step π: the lanes are rearranged. -/
def pi (A : State ℓ) : State ℓ := fun x y z => A (x + 3 * y) x z

/-- The step χ: every bit is changed by a product of two other bits of its row. -/
def chi (A : State ℓ) : State ℓ := fun x y z =>
  A x y z ^^ (!(A (x + 1) y z) && A (x + 2) y z)

/-- The feedback shift register after `t` steps; bit `i` of the word is `R[i]`. -/
def lfsr : ℕ → BitVec 8
  | 0 => 1
  | t + 1 => (lfsr t <<< 1) ^^^ (if (lfsr t).getLsbD 7 then 0x71 else 0)

/-- The output `rc(t)` of the register. -/
def rc (t : ℕ) : Bool := (lfsr (t % 255)).getLsbD 0

/-- Bit `z` of the constant of round `ir`: `rc(j + 7 ir)` in position `2 ^ j - 1` for `j ≤ ℓ`. -/
def roundConstant (ℓ ir z : ℕ) : Bool :=
  (List.range (ℓ + 1)).any fun j => decide (z = 2 ^ j - 1) && rc (j + 7 * ir)

/-- The step ι: the lane `(0, 0)` is changed by the round constant. -/
def iota (ir : ℕ) (A : State ℓ) : State ℓ := fun x y z =>
  if x = 0 ∧ y = 0 then A x y z ^^ roundConstant ℓ ir z else A x y z

/-- One round. -/
def round (ir : ℕ) (A : State ℓ) : State ℓ := iota ir (chi (pi (rho (theta A))))

/-- The permutation Keccak-f on `25 · 2 ^ ℓ` bits: `12 + 2 ℓ` rounds. -/
def keccakF (A : State ℓ) : State ℓ := forLoop (12 + 2 * ℓ) A fun ir _ A => round ir A

/-- The combined effect of ρ and π, read at the target lane. -/
lemma pi_rho_apply (A : State ℓ) (x y : Fin 5) (z : Fin (2 ^ ℓ)) :
    pi (rho A) x y z = A (x + 3 * y) x (z - Fin.ofNat (2 ^ ℓ) (offset (x + 3 * y) x)) := rfl

end OhMyMiner.Lib.Fips202
