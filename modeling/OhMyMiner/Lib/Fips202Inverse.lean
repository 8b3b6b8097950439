/-
# Keccak-f is a permutation

Every step of a round of FIPS 202 can be undone.  The steps ρ and π only move bits, χ acts on the
rows of five bits, where it has an inverse, and ι is its own inverse.  The step θ adds to a bit the
parities of two columns, so it can be undone as soon as the parities before it can be read off the
parities after it.  These are related by a linear map which is invertible because its square is a
map of the same kind with all distances doubled: after `ℓ` doublings nothing is moved along the
lanes any more, and what is left acts on five columns.
-/
import OhMyMiner.Lib.Fips202

namespace OhMyMiner.Lib

/-- A loop whose passes lose nothing loses nothing. -/
lemma forLoop_injective {α : Type*} {n : ℕ} {body : (i : ℕ) → i < n → α → α}
    (h : ∀ i hi, Function.Injective (body i hi)) :
    Function.Injective fun init => forLoop n init body := by
  induction n with
  | zero => exact fun init init' heq => heq
  | succ n ih =>
    intro init init' heq
    simp only [forLoop_succ] at heq
    exact ih (fun i hi => h i (by omega)) (h n (by omega) heq)

namespace Fips202

/-! ## Spreading parities -/

section Spread

variable {G H : Type*} [AddCommGroup G] [AddCommGroup H]

/-- Every bit is changed by two others: one at distance `i` before it, and one at distance `i`
behind it that is moved by `k` along the lane. -/
def spread (i : G) (k : H) (P : G → H → Bool) : G → H → Bool := fun x z =>
  P x z ^^ (P (x - i) z ^^ P (x + i) (z - k))

/-- Spreading twice doubles the distances: the mixed terms cancel. -/
lemma spread_spread (i : G) (k : H) (P : G → H → Bool) :
    spread i k (spread i k P) = spread (i + i) (k + k) P := by
  ext x z
  have hback : x - i - i = x - (i + i) := by abel
  have hforth : x + i + i = x + (i + i) := by abel
  have hlane : z - k - k = z - (k + k) := by abel
  simp only [spread, sub_add_cancel, add_sub_cancel_right, hback, hforth, hlane]
  cases P x z <;> cases P x (z - k) <;> cases P (x - i) z <;> cases P (x + i) (z - k) <;> simp

/-- On five columns and with nothing moved along the lanes, spreading by `i + i` is undone by
spreading by `i`. -/
lemma spread_leftInverse (hG : ∀ x : G, 5 • x = 0) (i : G) :
    Function.LeftInverse (spread (H := H) i 0) (spread (i + i) 0) := by
  intro P
  ext x z
  have hfive : i + i + i + i + i = 0 := by
    rw [← hG i]
    abel
  have h₁ : x - i - (i + i) = x + (i + i) := by
    calc x - i - (i + i) = x + (i + i) - (i + i + i + i + i) := by abel
      _ = x + (i + i) := by rw [hfive, sub_zero]
  have h₂ : x + i + (i + i) = x - (i + i) := by
    calc x + i + (i + i) = x - (i + i) + (i + i + i + i + i) := by abel
      _ = x - (i + i) := by rw [hfive, add_zero]
  have h₃ : x - i + (i + i) = x + i := by abel
  have h₄ : x + i - (i + i) = x - i := by abel
  simp only [spread, sub_zero, h₁, h₂, h₃, h₄]
  cases P x z <;> cases P (x - i) z <;> cases P (x + i) z <;> cases P (x - (i + i)) z <;>
    cases P (x + (i + i)) z <;> rfl

/-- **Spreading loses nothing**, on five columns and lanes whose length is a power of two. -/
theorem spread_injective (hG : ∀ x : G, 5 • x = 0) (n : ℕ) (i : G) (k : H) (hk : 2 ^ n • k = 0) :
    Function.Injective (spread i k) := by
  induction n generalizing i k with
  | zero =>
    -- nothing moves along the lanes, and `i` is the double of `3 i`
    have hk : k = 0 := by simpa using hk
    have hi : i = 3 • i + 3 • i := by
      have h := hG i
      rw [show (5 : ℕ) = 3 + 2 from rfl, add_nsmul] at h
      calc i = (3 • i + 2 • i) + i := by rw [h, zero_add]
        _ = 3 • i + 3 • i := by abel
    rw [hk, hi]
    exact (spread_leftInverse hG (3 • i)).injective
  | succ n ih =>
    intro P Q heq
    have hkk : 2 ^ n • (k + k) = 0 := by
      rw [← two_nsmul, ← mul_nsmul, ← pow_succ']
      exact hk
    apply ih (i + i) (k + k) hkk
    rw [← spread_spread, ← spread_spread, heq]

end Spread

variable {ℓ : ℕ}

/-! ## The step θ -/

/-- A column has five bits, so θ changes its parity by what it adds to each of them. -/
lemma parity_theta (A : State ℓ) : parity (theta A) = spread 1 1 (parity A) := by
  ext x z
  have hfive : ∀ a₀ a₁ a₂ a₃ a₄ e : Bool,
      ((a₀ ^^ e) ^^ (a₁ ^^ e) ^^ (a₂ ^^ e) ^^ (a₃ ^^ e) ^^ (a₄ ^^ e)) =
        ((a₀ ^^ a₁ ^^ a₂ ^^ a₃ ^^ a₄) ^^ e) := by decide
  exact hfive _ _ _ _ _ _

/-- The step θ can be undone: the parities before it follow from the parities after it. -/
lemma theta_injective : Function.Injective (theta : State ℓ → State ℓ) := by
  intro A B heq
  have hfive : ∀ x : Fin 5, 5 • x = 0 := by decide
  have hlane : 2 ^ ℓ • (1 : Fin (2 ^ ℓ)) = 0 := by
    simpa using card_nsmul_eq_zero (x := (1 : Fin (2 ^ ℓ)))
  have hparity : parity A = parity B := by
    apply spread_injective hfive ℓ 1 1 hlane
    rw [← parity_theta, ← parity_theta, heq]
  ext x y z
  have hbit : theta A x y z = theta B x y z := by rw [heq]
  rw [theta, theta, hparity] at hbit
  exact Bool.xor_left_inj.mp hbit

/-! ## The steps that move bits -/

lemma rho_injective : Function.Injective (rho : State ℓ → State ℓ) := by
  intro A B heq
  ext x y z
  have hbit : rho A x y (z + Fin.ofNat (2 ^ ℓ) (offset x y)) =
      rho B x y (z + Fin.ofNat (2 ^ ℓ) (offset x y)) := by rw [heq]
  simpa only [rho, add_sub_cancel_right] using hbit

lemma pi_injective : Function.Injective (pi : State ℓ → State ℓ) := by
  intro A B heq
  ext x y z
  have hsource : ∀ x y : Fin 5, y + 3 * (2 * (x - y)) = x := by decide
  have hbit : pi A y (2 * (x - y)) z = pi B y (2 * (x - y)) z := by rw [heq]
  simpa only [pi, hsource] using hbit

/-! ## The step χ -/

/-- The bit of a row that χ has changed, from the five bits that it leaves. -/
def unchi (a₀ a₁ a₂ a₃ a₄ : Bool) : Bool :=
  a₀ ^^ (!a₁ && (a₂ ^^ (!a₃ && (a₄ ^^ (!a₀ && a₁)))))

lemma chi_injective : Function.Injective (chi : State ℓ → State ℓ) := by
  intro A B heq
  ext x y z
  have hrow : ∀ a₀ a₁ a₂ a₃ a₄ : Bool,
      unchi (a₀ ^^ (!a₁ && a₂)) (a₁ ^^ (!a₂ && a₃)) (a₂ ^^ (!a₃ && a₄)) (a₃ ^^ (!a₄ && a₀))
        (a₄ ^^ (!a₀ && a₁)) = a₀ := by decide
  have hwrap : x + 1 + 1 = x + 2 ∧ x + 1 + 2 = x + 3 ∧ x + 2 + 1 = x + 3 ∧ x + 2 + 2 = x + 4 ∧
      x + 3 + 1 = x + 4 ∧ x + 3 + 2 = x ∧ x + 4 + 1 = x ∧ x + 4 + 2 = x + 1 := by
    revert x
    decide
  obtain ⟨h₁, h₂, h₃, h₄, h₅, h₆, h₇, h₈⟩ := hwrap
  have hundo : ∀ C : State ℓ, unchi (chi C x y z) (chi C (x + 1) y z) (chi C (x + 2) y z)
      (chi C (x + 3) y z) (chi C (x + 4) y z) = C x y z := by
    intro C
    simp only [chi, h₁, h₂, h₃, h₄, h₅, h₆, h₇, h₈]
    exact hrow _ _ _ _ _
  rw [← hundo A, ← hundo B, heq]

/-! ## A round and the permutation -/

lemma iota_iota (ir : ℕ) : Function.Involutive (iota ir : State ℓ → State ℓ) := by
  intro A
  ext x y z
  by_cases h : x = 0 ∧ y = 0
  · simp [iota, h]
  · simp [iota, h]

lemma round_injective (ir : ℕ) : Function.Injective (round ir : State ℓ → State ℓ) :=
  (iota_iota ir).injective.comp <| chi_injective.comp <| pi_injective.comp <|
    rho_injective.comp theta_injective

/-- **Keccak-f is a permutation**, for every lane width. -/
theorem keccakF_injective : Function.Injective (keccakF : State ℓ → State ℓ) :=
  forLoop_injective fun ir _ => round_injective ir

end Fips202

end OhMyMiner.Lib
