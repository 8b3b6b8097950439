/-
# The gate of the main loop

A difficulty is converted into an unsigned word by `StratumClient::Impl::processNotification`
(`src/network/stratum_client.cpp`), stored by `MiningEngine::onDifficultyUpdate`, and compared with
0 by the loop of `MiningEngine::run` (`src/core/mining_engine.cpp`), which takes 0 for "no
difficulty yet".  A decimal below one half is rounded to 0, and a negative integer becomes a large
difficulty.
-/
import OhMyMiner.Engine.Handshake
import OhMyMiner.Stratum.Targets

namespace OhMyMiner.Engine.Handshake

open Lib Stratum

/-! ## What should become of a difficulty -/

/-- The number that a JSON number stands for. -/
def value? : Json → Option ℚ
  | .integer n => some n
  | .decimal q => some q
  | _ => none

/-- The library stores an integer as an `int64_t` or as a `uint64_t`. -/
def Stored : Json → Prop
  | .integer n => -2 ^ 63 ≤ n ∧ n < 2 ^ 64
  | _ => True

/-- Client and engine have a difficulty, and the loop does not wait for one. -/
structure HasDifficulty (l : Link) : Prop where
  client : 1 ≤ l.client.currentDifficulty.toNat
  engine : 1 ≤ l.engine.lastDifficulty.toNat
  ready : l.engine.ready = l.engine.hasJob

/-- No positive difficulty is set in between. -/
structure SetsNothing (l l' : Link) : Prop where
  client : l'.client.currentDifficulty = 0 ∨
    l'.client.currentDifficulty = l.client.currentDifficulty
  engine : l'.engine.lastDifficulty = 0 ∨ l'.engine.lastDifficulty = l.engine.lastDifficulty
  accepted : ∀ difficulty, l'.accepted = l.accepted ++ [.onDifficulty difficulty] → difficulty = 0

/-- What should become of a difficulty: mining goes on with a positive one, and a negative one is
no difficulty. -/
structure Respected (env : Env) (l : Link) (message : Json) (v : ℚ) : Prop where
  positive : 0 < v → v < 2 ^ 64 - 1 → ∃ l', l.receive env message = some l' ∧ HasDifficulty l'
  negative : v < 0 → ∃ l', l.receive env message = some l' ∧ SetsNothing l l'

/-! ## Rounding -/

section Rounding

variable {q : ℚ}

lemma roundAway_eq_zero_iff : roundAway q = 0 ↔ -1 / 2 < q ∧ q < 1 / 2 := by
  rw [roundAway]
  split
  · next hnonneg =>
    rw [Int.floor_eq_zero_iff, Set.mem_Ico]
    constructor
    · rintro ⟨-, hlt⟩
      exact ⟨by linarith, by linarith⟩
    · rintro ⟨-, hlt⟩
      exact ⟨by linarith, by linarith⟩
  · next hneg =>
    rw [Int.ceil_eq_zero_iff, Set.mem_Ioc]
    constructor
    · rintro ⟨hlt, -⟩
      exact ⟨by linarith, by linarith⟩
    · rintro ⟨hlt, -⟩
      exact ⟨by linarith, by linarith⟩

lemma roundAway_neg (h : q ≤ -1 / 2) : roundAway q < 0 := by
  have hneg : ¬ 0 ≤ q := by linarith
  rw [roundAway, if_neg hneg, Int.ceil_lt_iff]
  push_cast
  linarith

lemma roundAway_pos (h : 1 / 2 ≤ q) : 0 < roundAway q := by
  have hnonneg : 0 ≤ q := by linarith
  rw [roundAway, if_pos hnonneg, Int.floor_pos]
  linarith

lemma roundAway_lt (h : 1 / 2 ≤ q) (hlt : q < 2 ^ 64 - 1) : roundAway q < 2 ^ 64 := by
  have hnonneg : 0 ≤ q := by linarith
  rw [roundAway, if_pos hnonneg, Int.floor_lt]
  push_cast
  linarith

end Rounding

/-! ## One message -/

section Messages

variable {parse : Parser} {env : Env} {l l' : Link} {message number : Json}
  {difficulty : BitVec 64} {v : ℚ}

/-- Engine and client after a difficulty. -/
def Link.setDifficulty (env : Env) (l : Link) (difficulty : BitVec 64) : Link :=
  let client := l.client.setDifficulty difficulty
  { engine := { l.engine.onDifficultyUpdate env.debugTarget difficulty with
                clientJob := client.currentJob }
    client := client
    accepted := l.accepted ++ [.onDifficulty difficulty] }

lemma receive_difficulty (h : Registered l.client) (hsets : SetsDifficulty message number)
    (hok : difficultyOf number = .ok difficulty) :
    l.receive env message = some (l.setDifficulty env difficulty) := by
  have hsome : processNotification env.job₀ l.client message =
      some (l.client.setDifficulty difficulty, some (.onDifficulty difficulty)) := by
    rw [processNotification_difficulty hsets hok, h.onDifficulty, if_pos rfl]
  rw [Link.receive, hsome, accepts_eq h hsome]
  rfl

lemma receive_undefined (hsets : SetsDifficulty message number)
    (hundefined : difficultyOf number = .error .undefined) : l.receive env message = none := by
  rw [Link.receive, processNotification_undefined hsets hundefined]

/-- The gate is open for every difficulty but 0. -/
lemma hasDifficulty_setDifficulty :
    HasDifficulty (l.setDifficulty env difficulty) ↔ difficulty ≠ 0 := by
  constructor
  · rintro ⟨hclient, -, -⟩ rfl
    exact absurd hclient (by simp [Link.setDifficulty, Client.setDifficulty, Client.withTarget])
  · intro hne
    have hpos : 1 ≤ difficulty.toNat :=
      Nat.pos_of_ne_zero fun hzero => hne (BitVec.eq_of_toNat_eq hzero)
    refine ⟨hpos, hpos, ?_⟩
    show (l.engine.hasJob && difficulty != 0) = l.engine.hasJob
    rw [bne_iff_ne.mpr hne, Bool.and_true]

lemma setsNothing_setDifficulty :
    SetsNothing l (l.setDifficulty env difficulty) ↔ difficulty = 0 := by
  constructor
  · rintro ⟨-, -, haccepted⟩
    exact haccepted difficulty rfl
  · rintro rfl
    refine ⟨Or.inl rfl, Or.inl rfl, fun difficulty heq => ?_⟩
    simpa [Link.setDifficulty] using heq.symm

lemma respected_iff_of_ok (h : Registered l.client) (hsets : SetsDifficulty message number)
    (hok : difficultyOf number = .ok difficulty) :
    Respected env l message v ↔
      (0 < v → v < 2 ^ 64 - 1 → difficulty ≠ 0) ∧ (v < 0 → difficulty = 0) := by
  have hreceive : l.receive env message = some (l.setDifficulty env difficulty) :=
    receive_difficulty h hsets hok
  constructor
  · rintro ⟨hpositive, hnegative⟩
    constructor
    · intro hpos hlt
      obtain ⟨l', hsome, hhas⟩ := hpositive hpos hlt
      obtain rfl := Option.some.inj (hreceive.symm.trans hsome)
      exact hasDifficulty_setDifficulty.mp hhas
    · intro hneg
      obtain ⟨l', hsome, hnothing⟩ := hnegative hneg
      obtain rfl := Option.some.inj (hreceive.symm.trans hsome)
      exact setsNothing_setDifficulty.mp hnothing
  · rintro ⟨hpositive, hnegative⟩
    exact ⟨fun hpos hlt => ⟨_, hreceive, hasDifficulty_setDifficulty.mpr (hpositive hpos hlt)⟩,
      fun hneg => ⟨_, hreceive, setsNothing_setDifficulty.mpr (hnegative hneg)⟩⟩

lemma respected_iff_of_undefined (hsets : SetsDifficulty message number)
    (hundefined : difficultyOf number = .error .undefined) :
    Respected env l message v ↔ (0 < v → ¬ v < 2 ^ 64 - 1) ∧ ¬ v < 0 := by
  have hreceive : l.receive env message = none := receive_undefined hsets hundefined
  constructor
  · rintro ⟨hpositive, hnegative⟩
    constructor
    · intro hpos hlt
      obtain ⟨l', hsome, -⟩ := hpositive hpos hlt
      exact absurd (hreceive.symm.trans hsome) (by simp)
    · intro hneg
      obtain ⟨l', hsome, -⟩ := hnegative hneg
      exact absurd (hreceive.symm.trans hsome) (by simp)
  · rintro ⟨hpositive, hnegative⟩
    exact ⟨fun hpos hlt => absurd hlt (hpositive hpos), fun hneg => absurd hneg hnegative⟩

/-! ## The numbers that are respected -/

lemma difficultyOf_decimal_zero {q : ℚ} (hlow : -1 / 2 < q) (hhigh : q < 1 / 2) :
    difficultyOf (.decimal q) = .ok 0 := by
  rw [difficultyOf, roundAway_eq_zero_iff.mpr ⟨hlow, hhigh⟩, if_pos (by norm_num)]
  rfl

/-- A stored integer becomes 0 only if it is 0. -/
lemma ofInt_eq_zero_iff {n : ℤ} (h : -2 ^ 63 ≤ n ∧ n < 2 ^ 64) :
    BitVec.ofInt 64 n = 0 ↔ n = 0 := by
  constructor
  · intro hzero
    have hmod := congrArg BitVec.toNat hzero
    rw [BitVec.toNat_ofInt] at hmod
    simp at hmod
    omega
  · rintro rfl
    rfl

lemma respected_integer_iff {n : ℤ} (h : Registered l.client)
    (hsets : SetsDifficulty message (.integer n)) (hstored : -2 ^ 63 ≤ n ∧ n < 2 ^ 64) :
    Respected env l message n ↔ 0 ≤ n := by
  rw [respected_iff_of_ok h hsets rfl, ne_eq, ofInt_eq_zero_iff hstored]
  constructor
  · rintro ⟨-, hnegative⟩
    by_contra hneg
    have hzero := hnegative (by exact_mod_cast not_le.mp hneg)
    omega
  · intro hnonneg
    refine ⟨fun hpos _ => ?_, fun hneg => ?_⟩
    · have hpos' : 0 < n := by exact_mod_cast hpos
      omega
    · have hneg' : n < 0 := by exact_mod_cast hneg
      omega

lemma respected_decimal_iff {q : ℚ} (h : Registered l.client)
    (hsets : SetsDifficulty message (.decimal q)) :
    Respected env l message q ↔ q = 0 ∨ 1 / 2 ≤ q ∨ (-1 / 2 < q ∧ q < 0) := by
  rcases lt_or_ge q (1 / 2) with hhigh | hlarge
  · rcases lt_or_ge (-1 / 2) q with hlow | hsmall
    -- rounded to 0
    · rw [respected_iff_of_ok h hsets (difficultyOf_decimal_zero hlow hhigh)]
      constructor
      · rintro ⟨hpositive, -⟩
        rcases lt_trichotomy q 0 with hneg | hzero | hpos
        · exact Or.inr (Or.inr ⟨hlow, hneg⟩)
        · exact Or.inl hzero
        · exact absurd rfl (hpositive hpos (by linarith))
      · intro hcases
        refine ⟨fun hpos _ => ?_, fun _ => rfl⟩
        rcases hcases with hzero | hlarge | ⟨-, hneg⟩
        · linarith
        · linarith
        · linarith
    -- too small for the conversion
    · have hround := roundAway_neg hsmall
      have hundefined : difficultyOf (.decimal q) = .error .undefined := by
        rw [difficultyOf, if_neg (by omega)]
      rw [respected_iff_of_undefined hsets hundefined]
      refine iff_of_false (fun hall => hall.2 (by linarith)) ?_
      rintro (hzero | hlarge | ⟨hlow, -⟩)
      · linarith
      · linarith
      · linarith
  · refine iff_of_true ?_ (Or.inr (Or.inl hlarge))
    have hpos := roundAway_pos hlarge
    by_cases hfits : roundAway q < 2 ^ 64
    · have hok : difficultyOf (.decimal q) = .ok (BitVec.ofInt 64 (roundAway q)) := by
        rw [difficultyOf, if_pos ⟨by omega, hfits⟩]
      rw [respected_iff_of_ok h hsets hok, ne_eq, ofInt_eq_zero_iff ⟨by omega, hfits⟩]
      exact ⟨fun _ _ => by omega, fun hneg => by linarith⟩
    · have hundefined : difficultyOf (.decimal q) = .error .undefined := by
        rw [difficultyOf, if_neg fun hboth => hfits hboth.2]
      rw [respected_iff_of_undefined hsets hundefined]
      exact ⟨fun _ hlt => hfits (roundAway_lt hlarge hlt), fun hneg => by linarith⟩

/-- **Which difficulties are respected**: 0, what is at least one half, and the decimals between
minus one half and 0. -/
theorem respected_iff (h : Registered l.client) (hsets : SetsDifficulty message number)
    (hstored : Stored number) (hvalue : value? number = some v) :
    Respected env l message v ↔
      v = 0 ∨ 1 / 2 ≤ v ∨ ∃ q, number = .decimal q ∧ -1 / 2 < q ∧ q < 0 := by
  cases number with
  | integer n =>
    obtain rfl := Option.some.inj hvalue
    rw [respected_integer_iff h hsets hstored]
    constructor
    · intro hnonneg
      rcases hnonneg.eq_or_lt with rfl | hpos
      · exact Or.inl rfl
      · have hone : (1 : ℚ) ≤ n := by exact_mod_cast hpos
        exact Or.inr (Or.inl (by linarith))
    · rintro (hzero | hlarge | ⟨q, heq, -⟩)
      · exact_mod_cast hzero.ge
      · have hnonneg : (0 : ℚ) ≤ n := by linarith
        exact_mod_cast hnonneg
      · exact absurd heq (by simp)
  | decimal q =>
    obtain rfl := Option.some.inj hvalue
    rw [respected_decimal_iff h hsets]
    simp
  | _ => exact absurd hvalue (by simp [value?])

/-! ## The messages after a handshake -/

/-- After a handshake both callbacks stay registered. -/
theorem registered_run {setup : Setup} {clientJob currentJob : MiningJob}
    {buffers : List (List Byte)}
    (h : initializeEngine parse env setup (Link.initial clientJob currentJob) = some (l, true))
    (hrun : Run (fun l buffer l' => l.processMessages parse env buffer = some l') l buffers l') :
    Registered l'.client := by
  obtain ⟨l₁, -, rfl⟩ := initializeEngine_eq_true h
  exact Link.run_invariant (fun l => Registered l.client) (fun _ _ _ ht => ht.receive)
    ⟨rfl, rfl⟩ hrun

end Messages

/-! ## Four difficulties -/

/-- A link with both callbacks. -/
def idleLink : Link :=
  { engine := MiningEngine.initial zeroJob zeroJob, client := idleClient, accepted := [] }

lemma registered_idleLink : Registered idleLink.client := ⟨rfl, rfl⟩

/-- A difficulty of one half is respected. -/
theorem respected_iff_half :
    Respected plainEnv idleLink (difficultyMessage (.decimal (1 / 2))) (1 / 2) := by
  have hsets := setsDifficulty_difficultyMessage (.decimal (1 / 2))
  exact (respected_iff registered_idleLink hsets trivial rfl).mpr (Or.inr (Or.inl le_rfl))

/-- A quarter becomes 0 and stops mining, -1 becomes the largest difficulty, and the conversion of
-3/4 is undefined. -/
theorem not_respected_quarter :
    (∃ l', idleLink.receive plainEnv (difficultyMessage (.decimal (1 / 4))) = some l' ∧
        l'.client.currentDifficulty = 0 ∧ l'.engine.lastDifficulty = 0 ∧
        l'.engine.ready = false) ∧
      (∃ l', idleLink.receive plainEnv (difficultyMessage (.integer (-1))) = some l' ∧
        l'.client.currentDifficulty = BitVec.allOnes 64 ∧
        l'.engine.lastDifficulty = BitVec.allOnes 64) ∧
      idleLink.receive plainEnv (difficultyMessage (.decimal (-3 / 4))) = none ∧
      ¬ Respected plainEnv idleLink (difficultyMessage (.decimal (1 / 4))) (1 / 4) ∧
      ¬ Respected plainEnv idleLink (difficultyMessage (.integer (-1))) (-1 : ℤ) ∧
      ¬ Respected plainEnv idleLink (difficultyMessage (.decimal (-3 / 4))) (-3 / 4) := by
  have hquarter := setsDifficulty_difficultyMessage (.decimal (1 / 4))
  have hminus := setsDifficulty_difficultyMessage (.integer (-1))
  have hbelow := setsDifficulty_difficultyMessage (.decimal (-3 / 4))
  refine ⟨⟨_, receive_difficulty registered_idleLink hquarter
      (difficultyOf_decimal_zero (by norm_num) (by norm_num)), rfl, rfl, rfl⟩,
    ⟨_, receive_difficulty registered_idleLink hminus rfl, rfl, rfl⟩, ?_, ?_, ?_, ?_⟩
  · have hround : roundAway (-3 / 4) < 0 := roundAway_neg (by norm_num)
    exact receive_undefined hbelow (by rw [difficultyOf, if_neg (by omega)])
  · rw [respected_decimal_iff registered_idleLink hquarter]
    norm_num
  · rw [respected_integer_iff registered_idleLink hminus (by omega)]
    omega
  · rw [respected_decimal_iff registered_idleLink hbelow]
    norm_num

end OhMyMiner.Engine.Handshake
