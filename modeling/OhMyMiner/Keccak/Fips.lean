/-
# The permutations compute Keccak-f[1600]

The loops of the code are first described lane by lane.  The loops over a second buffer scatter
each lane to its own place; the in-place loop of the DAG kernel walks the orbit of the lane
`(1, 0)` under π, and its tables are the positions and the offsets of ρ along that orbit.  Read
bit by bit, the lanes are then the states of FIPS 202, and one round of the code is one round of
the standard.
-/
import OhMyMiner.Keccak.Permutation
import OhMyMiner.Lib.Fips202Inverse

namespace OhMyMiner.Keccak

open Lib

/-! ## The loops, lane by lane -/

lemma getElem_theta (state : State) {j : ℕ} (hj : j < 25) :
    (theta state)[j] = state[j] ^^^ (effects (columns state))[j % 5] := by
  rw [theta]
  exact getElem_forLoop₂_set (fun j => j % 5) (fun j => j / 5)
    (by omega) (by omega) (by omega) (by omega) (by omega)
    (fun x hx _ _ a => a ^^^ (effects (columns state))[x]) j hj

/-- The scatter of ρ and π, read at its target: lane `(x, y)` comes from lane `(x + 3 y, x)`. -/
lemma getElem_rhoPi (offsets : Vector ℕ 25) (state : State) {j : ℕ} (hj : j < 25) :
    (rhoPi offsets state)[j] =
      rotl64 state[(j % 5 + 3 * (j / 5)) % 5 + 5 * (j % 5)]
        offsets[(j % 5 + 3 * (j / 5)) % 5 + 5 * (j % 5)] :=
  getElem_forLoop₂_set (fun j => (j % 5 + 3 * (j / 5)) % 5) (fun j => j % 5)
    (by omega) (by omega) (by omega) (by decide) (by decide)
    (fun x _ y _ _ => rotl64 state[x + 5 * y] offsets[x + 5 * y]) j hj

lemma getElem_chi (B state : State) {j : ℕ} (hj : j < 25) :
    (chi B state)[j] =
      B[j % 5 + 5 * (j / 5)] ^^^
        (~~~ B[(j % 5 + 1) % 5 + 5 * (j / 5)] &&& B[(j % 5 + 2) % 5 + 5 * (j / 5)]) :=
  getElem_forLoop₂_set (fun j => j % 5) (fun j => j / 5)
    (by omega) (by omega) (by omega) (by omega) (by omega)
    (fun x _ y _ _ =>
      B[x + 5 * y] ^^^ (~~~ B[(x + 1) % 5 + 5 * y] &&& B[(x + 2) % 5 + 5 * y])) j hj

/-! ## The in-place variant -/

/-- The lane at position `t` of the orbit of ρ, as an index of the state. -/
def cycle (t : ℕ) : ℕ := (Fips202.orbit t).1 + 5 * (Fips202.orbit t).2

lemma cycle_lt (t : ℕ) : cycle t < 25 := by
  rw [cycle]
  omega

lemma cycle_zero : cycle 0 = 1 := rfl

/-- The tables of the DAG kernel follow the orbit: step `i` writes the lane at position `i + 1`
and rotates by the offset of the lane at position `i`. -/
lemma keccakfPiln_eq : ∀ i (hi : i < 24), keccakfPiln[i].1 = cycle (i + 1) := by
  decide

lemma cycle_injective : ∀ i < 24, ∀ j < 24, cycle (i + 1) = cycle (j + 1) → i = j := by
  decide

/-- The lane written at step `t` is the target of the lane at position `t` under ρ and π, and
all lanes but the first are written. -/
lemma cycle_source : ∀ j (_ : j < 25), j ≠ 0 → ∃ t, ∃ (ht : t < 24), cycle (t + 1) = j ∧
    cycle t = (j % 5 + 3 * (j / 5)) % 5 + 5 * (j % 5) ∧
    keccakfRotc[t] = rotationOffsets[(j % 5 + 3 * (j / 5)) % 5 + 5 * (j % 5)] := by
  decide

lemma cycle_ne_zero : ∀ t < 24, cycle (t + 1) ≠ 0 := by
  decide

@[simp] lemma rotl64_zero (x : BitVec 64) : rotl64 x 0 = x := by
  simp [rotl64, BitVec.ushiftRight_eq_zero]

/-- The loop of the DAG kernel as a walk along the orbit. -/
lemma rhoPiDag_eq_walk (state : State) :
    rhoPiDag state =
      (forLoop 24 (getElem state (cycle 0) (cycle_lt 0), state) fun i hi s =>
        (getElem s.2 (cycle (i + 1)) (cycle_lt _),
          s.2.set (cycle (i + 1)) (rotl64 s.1 keccakfRotc[i]) (cycle_lt _))).2 := by
  have hstart : getElem state (cycle 0) (cycle_lt 0) = state[1] := by simp only [cycle_zero]
  rw [hstart, rhoPiDag]
  refine congrArg Prod.snd (forLoop_congr fun i hi s => ?_)
  simp only [← keccakfPiln_eq i hi, Fin.getElem_fin]

/-- **The in-place cycle does what the scatter through a second buffer does.** -/
theorem rhoPiDag_eq (state : State) : rhoPiDag state = rhoPi rotationOffsets state := by
  obtain ⟨hcycle, hrest⟩ := getElem_forLoop_cycle cycle_lt cycle_injective
    (fun i hi t => rotl64 t keccakfRotc[i]) (rhoPiDag_eq_walk state)
  apply Vector.ext
  intro j hj
  rw [getElem_rhoPi]
  by_cases hj₀ : j = 0
  · subst hj₀
    rw [hrest 0 hj cycle_ne_zero]
    exact (rotl64_zero state[0]).symm
  · obtain ⟨t, ht, rfl, hsource, hoffset⟩ := cycle_source j hj hj₀
    rw [hcycle t ht, hoffset]
    simp only [hsource]

lemma getElem_chiDag (state : State) {j : ℕ} (hj : j < 25) :
    (chiDag state)[j] =
      state[j] ^^^
        (~~~ state[j / 5 * 5 + (j % 5 + 1) % 5] &&& state[j / 5 * 5 + (j % 5 + 2) % 5]) := by
  have hrow : ∀ (y : ℕ) (hy : y < 5) (state : State) (x : ℕ) (hx : x < 5),
      (forLoop 5 (Vector.replicate 5 0) fun x _ C => C.set x state[y * 5 + x])[x] =
        state[y * 5 + x] := fun y hy state x hx =>
    getElem_forLoop_set (fun x _ _ => state[y * 5 + x]) x hx
  rw [chiDag, getElem_forLoop_block (fun j => j / 5) fun j hj state => state[j] ^^^
    (~~~ state[j / 5 * 5 + (j % 5 + 1) % 5] &&& state[j / 5 * 5 + (j % 5 + 2) % 5])]
  · rw [if_pos (by omega)]
  · intro j hj v v' hagree
    rw [hagree j hj rfl, hagree _ (by omega) (by omega), hagree _ (by omega) (by omega)]
  · intro y hy v j hj
    simp only [hrow y hy v]
    rw [getElem_forLoop (fun j => if j / 5 = y then j % 5 else 5) fun j hj a => a ^^^
      (~~~ v[y * 5 + (j % 5 + 1) % 5] &&& v[y * 5 + (j % 5 + 2) % 5])]
    · by_cases h : j / 5 = y
      · subst h
        rw [if_pos (by rw [if_pos rfl]; omega), if_pos rfl]
      · rw [if_neg (by rw [if_neg h]; omega), if_neg h]
    · intro x hx u j hj
      rw [Vector.getElem_set]
      by_cases h : y * 5 + x = j
      · have hy' : j / 5 = y := by omega
        have hx' : j % 5 = x := by omega
        simp only [h, hy', hx', if_true]
      · have hne : ¬ (if j / 5 = y then j % 5 else 5) = x := by
          split <;> omega
        rw [if_neg h, if_neg hne]

/-! ## The rounds of the three permutations agree -/

/-- Chi row by row in place is chi out of a copy. -/
theorem chiDag_eq (state : State) : chiDag state = chi state state := by
  apply Vector.ext
  intro j hj
  have h₀ : j % 5 + 5 * (j / 5) = j := by omega
  have h₁ : j / 5 * 5 + (j % 5 + 1) % 5 = (j % 5 + 1) % 5 + 5 * (j / 5) := by omega
  have h₂ : j / 5 * 5 + (j % 5 + 2) % 5 = (j % 5 + 2) % 5 + 5 * (j / 5) := by omega
  rw [getElem_chiDag, getElem_chi]
  simp only [h₀, h₁, h₂]

/-- The values that chi overwrites do not matter. -/
lemma chi_congr (B state state' : State) : chi B state = chi B state' := by
  apply Vector.ext
  intro j hj
  rw [getElem_chi, getElem_chi]

lemma keccakfRndc_eq : keccakfRndc = roundConstants := rfl

/-- The permutation of the DAG kernel is the permutation of the host. -/
theorem keccakF1600Dag_eq (state : State) : keccakF1600Dag state = keccakF1600 state := by
  rw [keccakF1600Dag, keccakF1600, rounds]
  refine forLoop_congr fun round hround state => ?_
  simp only [rhoPiDag_eq, chiDag_eq, keccakfRndc_eq]
  rw [chi_congr _ (theta state)]

/-- The permutation of the search kernels is the permutation of the host. -/
theorem keccakF1600Dev_eq (state : State) : keccakF1600Dev state = keccakF1600 state := rfl

/-! ## Bit by bit -/

/-- The state of the standard held by 25 words: bit `z` of lane `(x, y)` is bit `z` of word
`x + 5 y`. -/
def toBits (state : State) : Fips202.State 6 := fun x y z => state[x.1 + 5 * y.1].getLsbD z

lemma getLsbD_rotl64 (x : BitVec 64) {n z : ℕ} (hn : n < 64) (hz : z < 64) :
    (rotl64 x n).getLsbD z = x.getLsbD ((z + 64 - n) % 64) := by
  rw [rotl64, BitVec.getLsbD_or, BitVec.getLsbD_shiftLeft, BitVec.getLsbD_ushiftRight]
  by_cases h : z < n
  · have h₁ : (z + 64 - n) % 64 = 64 - n + z := by omega
    simp [h, h₁]
  · have h₁ : (z + 64 - n) % 64 = z - n := by omega
    have h₂ : 64 ≤ 64 - n + z := by omega
    simp [h, h₁, hz, BitVec.getLsbD_of_ge x _ h₂]

/-- The offset that the standard subtracts from a bit position, as the code rotates by it. -/
lemma val_sub_ofNat (z : Fin (2 ^ 6)) (n : ℕ) :
    (z - Fin.ofNat (2 ^ 6) n).1 = (z.1 + 64 - n % 64) % 64 := by
  have hz : z.1 < 64 := z.2
  simp only [Fin.sub_def, Fin.ofNat]
  omega

lemma val_sub_one : ∀ x : Fin 5, (x - 1).1 = (x.1 + 4) % 5 := by decide

lemma val_add_one : ∀ x : Fin 5, (x + 1).1 = (x.1 + 1) % 5 := by decide

lemma val_add_two : ∀ x : Fin 5, (x + 2).1 = (x.1 + 2) % 5 := by decide

lemma val_add_three_mul : ∀ x y : Fin 5, (x + 3 * y).1 = (x.1 + 3 * y.1) % 5 := by decide

lemma lane_mod (x y : Fin 5) : (x.1 + 5 * y.1) % 5 = x.1 := by omega

lemma lane_div (x y : Fin 5) : (x.1 + 5 * y.1) / 5 = y.1 := by omega

lemma getLsbD_columns (state : State) (x : Fin 5) (z : Fin (2 ^ 6)) :
    (columns state)[x.1].getLsbD z = Fips202.parity (toBits state) x z := by
  rw [getElem_columns state x.2]
  simp only [BitVec.getLsbD_xor]
  rfl

lemma toBits_theta (state : State) : toBits (theta state) = Fips202.theta (toBits state) := by
  funext x y z
  have hparity : Fips202.parity (toBits state) (x + 1) (z - 1) =
      (columns state)[(x.1 + 1) % 5].getLsbD ((z.1 + 64 - 1) % 64) := by
    rw [← getLsbD_columns, ← val_sub_ofNat z 1]
    simp only [val_add_one]
    rfl
  have hparity' : Fips202.parity (toBits state) (x - 1) z =
      (columns state)[(x.1 + 4) % 5].getLsbD z := by
    rw [← getLsbD_columns]
    simp only [val_sub_one]
  rw [Fips202.theta, hparity, hparity', toBits, getElem_theta]
  simp only [lane_mod]
  rw [getElem_effects _ x.2, BitVec.getLsbD_xor, BitVec.getLsbD_xor,
    getLsbD_rotl64 _ (by omega) z.2]
  rfl

/-- The table of the code is the offsets of the standard, reduced modulo the lane width. -/
lemma rotationOffsets_eq : ∀ x y : Fin 5,
    rotationOffsets[x.1 + 5 * y.1] = Fips202.offset x y % 64 := by
  decide

lemma toBits_rhoPi (state : State) :
    toBits (rhoPi rotationOffsets state) = Fips202.pi (Fips202.rho (toBits state)) := by
  funext x y z
  have hoffset := rotationOffsets_eq (x + 3 * y) x
  have hz := val_sub_ofNat z (Fips202.offset (x + 3 * y) x)
  rw [Fips202.pi_rho_apply, toBits, getElem_rhoPi]
  simp only [lane_mod, lane_div, ← val_add_three_mul]
  rw [getLsbD_rotl64 _ (by rw [hoffset]; omega) z.2, hoffset, ← hz]
  rfl

lemma toBits_chi (B state : State) : toBits (chi B state) = Fips202.chi (toBits B) := by
  funext x y z
  have hz : z.1 < 64 := z.2
  rw [Fips202.chi, toBits, getElem_chi]
  simp only [lane_mod, lane_div, BitVec.getLsbD_xor, BitVec.getLsbD_and, BitVec.getLsbD_not,
    hz, decide_true, Bool.true_and, toBits, val_add_one, val_add_two]

/-- The table of the code is the constants that the feedback shift register generates. -/
lemma roundConstants_eq : ∀ ir (hir : ir < 24), ∀ z < 64,
    roundConstants[ir].getLsbD z = Fips202.roundConstant 6 ir z := by
  decide +kernel

lemma toBits_iota (state : State) {ir : ℕ} (hir : ir < 24) :
    toBits (iota roundConstants[ir] state) = Fips202.iota ir (toBits state) := by
  funext x y z
  rw [iota, Fips202.iota, toBits]
  by_cases h : x = 0 ∧ y = 0
  · obtain ⟨rfl, rfl⟩ := h
    rw [if_pos ⟨rfl, rfl⟩, ← roundConstants_eq ir hir z z.2]
    simp [toBits]
  · have hne : 0 ≠ x.1 + 5 * y.1 := fun h₀ => h ⟨by omega, by omega⟩
    rw [if_neg h, Vector.getElem_set_ne _ _ hne, toBits]

/-- **The permutation of the host is Keccak-f[1600].** -/
theorem toBits_keccakF1600 (state : State) :
    toBits (keccakF1600 state) = Fips202.keccakF (toBits state) := by
  rw [keccakF1600, rounds, Fips202.keccakF]
  refine forLoop_rel (fun _ state A => toBits state = A) rfl fun ir hir state A hA => ?_
  rw [toBits_iota _ hir, toBits_chi, toBits_rhoPi, toBits_theta, hA, Fips202.round]

/-- A state is determined by its bits. -/
lemma toBits_injective : Function.Injective toBits := by
  intro state state' h
  apply Vector.ext
  intro j hj
  apply BitVec.eq_of_getLsbD_eq
  intro z hz
  have hbit := congrFun (congrFun (congrFun h ⟨j % 5, by omega⟩) ⟨j / 5, by omega⟩) ⟨z, hz⟩
  have hlane : j % 5 + 5 * (j / 5) = j := by omega
  simpa only [toBits, hlane] using hbit

/-- **The three permutations compute Keccak-f[1600].**  On every state, the host and the search
kernels compute the permutation of FIPS 202, and the DAG kernel computes what the host does. -/
theorem permutations_refine_fips202 (state : State) :
    toBits (keccakF1600 state) = Fips202.keccakF (toBits state) ∧
      toBits (keccakF1600Dev state) = Fips202.keccakF (toBits state) ∧
      keccakF1600Dag state = keccakF1600 state :=
  ⟨toBits_keccakF1600 state, toBits_keccakF1600 state, keccakF1600Dag_eq state⟩

/-- **The permutation is one.**  Two different states have different images, and every state is
an image. -/
theorem keccakF1600_bijective : Function.Bijective keccakF1600 := by
  have : Finite State := Finite.of_injective toBits toBits_injective
  rw [← Finite.injective_iff_bijective]
  intro state state' heq
  apply toBits_injective
  apply Fips202.keccakF_injective
  rw [← toBits_keccakF1600, ← toBits_keccakF1600, heq]

end OhMyMiner.Keccak
