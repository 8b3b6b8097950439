/-
# The target of the current job

Two handlers of `StratumClient::Impl::processNotification` (`src/network/stratum_client.cpp`)
write `currentJob_.target`.  A `mining.set_difficulty` divides the largest target by the
difficulty; a `mining.notify` stores the difficulty itself.  So the target depends on which of the
two came last.
-/
import OhMyMiner.Stratum.Notify

namespace OhMyMiner.Stratum

open Lib

/-! ## The code -/

/-- `StratumClient::getCurrentJob`. -/
def Client.getCurrentJob (c : Client) : MiningJob := c.currentJob

/-- A sequence of messages.  There is no result where the behaviour is undefined. -/
def processNotifications (job₀ : MiningJob) (c : Client) (messages : List Json) : Option Client :=
  messages.foldlM (fun c message => (processNotification job₀ c message).map Prod.fst) c

/-! ## A `mining.set_difficulty` -/

/-- The message is a `mining.set_difficulty` with the first parameter. -/
def SetsDifficulty (message number : Json) : Prop :=
  message.find? "method" = some (.string "mining.set_difficulty") ∧
    ∃ rest, message.find? "params" = some (.array (number :: rest))

/-- The client with another target. -/
def Client.withTarget (c : Client) (target : BitVec 64) : Client :=
  { c with currentJob := { c.currentJob with target := target } }

/-- The client with another difficulty. -/
def Client.setDifficulty (c : Client) (difficulty : BitVec 64) : Client :=
  let target64 := if 0 < difficulty then BitVec.allOnes 64 / difficulty else BitVec.allOnes 64
  { c with currentDifficulty := difficulty }.withTarget target64

section SetDifficulty

variable {job₀ : MiningJob} {c : Client} {message number : Json}

lemma processNotification_setsDifficulty (h : SetsDifficulty message number) :
    processNotification job₀ c message = caught c (do
      let difficulty ← difficultyOf number
      return (c.setDifficulty difficulty,
        if c.onDifficulty then some (.onDifficulty difficulty) else none)) := by
  obtain ⟨hmethod, rest, hparams⟩ := h
  have hbody : notificationBody job₀ c message =
      miningSetDifficulty c (.array (number :: rest)) := by
    rw [notificationBody, member_of_find hmethod, member_of_find hparams]
    rfl
  rw [processNotification, hbody]
  rfl

/-- A difficulty that can be converted is stored and passed on. -/
lemma processNotification_difficulty {difficulty : BitVec 64} (h : SetsDifficulty message number)
    (hok : difficultyOf number = .ok difficulty) :
    processNotification job₀ c message =
      some (c.setDifficulty difficulty,
        if c.onDifficulty then some (.onDifficulty difficulty) else none) := by
  rw [processNotification_setsDifficulty h, hok]
  rfl

/-- The conversion of any other is undefined. -/
lemma processNotification_undefined (h : SetsDifficulty message number)
    (hundefined : difficultyOf number = .error .undefined) :
    processNotification job₀ c message = none := by
  rw [processNotification_setsDifficulty h, hundefined]
  rfl

end SetDifficulty

/-! ## What the target should be -/

/-- The largest target, divided by the difficulty. -/
def targetOf (difficulty : ℕ) : ℕ :=
  if difficulty = 0 then 2 ^ 64 - 1 else (2 ^ 64 - 1) / difficulty

/-- What a well-formed message says. -/
inductive Update where
  | notify (jobId seedText headerText : String)
  | setDifficulty (difficulty : BitVec 64)

/-- The number is the difficulty, if a decimal is rounded. -/
def Counts : Json → ℕ → Prop
  | .integer n, difficulty => n = difficulty
  | .decimal q, difficulty => 0 ≤ q ∧ roundAway q = difficulty
  | _, _ => False

/-- The message is well-formed, and says this. -/
def Means (message : Json) : Update → Prop
  | .notify jobId seedText headerText => IsNotify message ∧
      ∃ params, message.find? "params" = some params ∧ Typed params jobId seedText headerText
  | .setDifficulty difficulty =>
      ∃ number, SetsDifficulty message number ∧ Counts number difficulty.toNat

/-- The difficulty that is said last. -/
def lastDifficulty (updates : List Update) : Option (BitVec 64) :=
  (updates.filterMap fun
    | .notify _ _ _ => none
    | .setDifficulty difficulty => some difficulty).getLast?

/-! ## What the messages do -/

/-- The client after a well-formed message. -/
def Client.update (job₀ : MiningJob) (c : Client) : Update → Client
  | .notify jobId seedText headerText =>
    { c with currentJob := installed job₀ c jobId seedText headerText }
  | .setDifficulty difficulty => c.setDifficulty difficulty

section Runs

variable {job₀ : MiningJob} {c : Client} {message number : Json} {update : Update}
  {messages : List Json} {updates : List Update} {difficulty : BitVec 64}

lemma difficultyOf_counts (h : Counts number difficulty.toNat) :
    difficultyOf number = .ok difficulty := by
  have hofInt : BitVec.ofInt 64 (difficulty.toNat : ℤ) = difficulty := by
    rw [BitVec.ofInt_natCast, BitVec.ofNat_toNat, BitVec.setWidth_eq]
  cases number with
  | integer n =>
    obtain rfl : n = difficulty.toNat := h
    rw [difficultyOf, hofInt]
  | decimal q =>
    obtain ⟨-, hround⟩ := h
    have hlt := difficulty.isLt
    rw [difficultyOf, hround, hofInt, if_pos (by omega)]
  | _ => exact absurd h id

/-- One message. -/
lemma Means.processNotification (h : Means message update) :
    (processNotification job₀ c message).map Prod.fst = some (c.update job₀ update) := by
  cases update with
  | notify jobId seedText headerText =>
    obtain ⟨hmethod, params, hparams, htyped⟩ := h
    rw [processNotification_typed hmethod hparams htyped]
    rfl
  | setDifficulty difficulty =>
    obtain ⟨number, hsets, hcounts⟩ := h
    rw [processNotification_difficulty hsets (difficultyOf_counts hcounts)]
    rfl

lemma exists_updates (h : ∀ message ∈ messages, ∃ update, Means message update) :
    ∃ updates, List.Forall₂ Means messages updates := by
  induction messages with
  | nil => exact ⟨[], .nil⟩
  | cons message messages ih =>
    obtain ⟨update, hupdate⟩ := h message List.mem_cons_self
    obtain ⟨updates, hrest⟩ := ih fun m hm => h m (List.mem_cons_of_mem _ hm)
    exact ⟨update :: updates, .cons hupdate hrest⟩

/-- **Well-formed messages do what they say.** -/
theorem processNotifications_eq (h : List.Forall₂ Means messages updates) :
    processNotifications job₀ c messages = some (updates.foldl (Client.update job₀) c) := by
  induction h generalizing c with
  | nil => rfl
  | @cons message update messages updates hmeans _ ih =>
    rw [processNotifications, List.foldlM_cons, hmeans.processNotification]
    exact ih

lemma lastDifficulty_concat (updates : List Update) (update : Update) :
    lastDifficulty (updates ++ [update]) =
      match update with
      | .notify _ _ _ => lastDifficulty updates
      | .setDifficulty difficulty => some difficulty := by
  cases update with
  | notify jobId seedText headerText => simp [lastDifficulty, List.filterMap_append]
  | setDifficulty difficulty => simp [lastDifficulty, List.filterMap_append]

/-- The client has the last difficulty. -/
lemma currentDifficulty_foldl (job₀ : MiningJob) (c : Client) (updates : List Update) :
    (updates.foldl (Client.update job₀) c).currentDifficulty =
      (lastDifficulty updates).getD c.currentDifficulty := by
  induction updates using List.reverseRecOn with
  | nil => rfl
  | append_singleton updates update ih =>
    rw [List.foldl_concat, lastDifficulty_concat]
    cases update with
    | notify jobId seedText headerText => exact ih
    | setDifficulty difficulty => rfl

lemma target_setDifficulty (c : Client) (difficulty : BitVec 64) :
    (c.setDifficulty difficulty).currentJob.target.toNat = targetOf difficulty.toNat := by
  show (if 0 < difficulty then BitVec.allOnes 64 / difficulty else BitVec.allOnes 64).toNat = _
  rw [targetOf]
  by_cases hzero : difficulty = 0
  · subst hzero
    simp
  · have hpos : 0 < difficulty := (BitVec.pos_iff_ne_zero difficulty).mpr hzero
    have hne : difficulty.toNat ≠ 0 := fun h => hzero (BitVec.eq_of_toNat_eq h)
    rw [if_pos hpos, if_neg hne, BitVec.toNat_udiv, BitVec.toNat_allOnes]

/-- No difficulty is its own target. -/
lemma ne_targetOf (difficulty : BitVec 64) : difficulty.toNat ≠ targetOf difficulty.toNat := by
  intro heq
  have hlt := difficulty.isLt
  generalize difficulty.toNat = d at heq hlt
  rw [targetOf] at heq
  split at heq
  · omega
  · next hzero =>
    -- the product of two neighbours would have to lie on both sides of the largest target
    have hle : d * d ≤ 2 ^ 64 - 1 := by
      have hdiv := Nat.div_mul_le_self (2 ^ 64 - 1) d
      rwa [← heq] at hdiv
    have hgt : 2 ^ 64 - 1 < d * d + d := by
      have hmod := Nat.lt_div_mul_add (a := 2 ^ 64 - 1) (Nat.pos_of_ne_zero hzero)
      rwa [← heq] at hmod
    rcases Nat.lt_or_ge d (2 ^ 32) with hsmall | hlarge
    · have hprod : d * d + d ≤ (2 ^ 32 - 1) * (2 ^ 32 - 1) + (2 ^ 32 - 1) :=
        Nat.add_le_add (Nat.mul_le_mul (by omega) (by omega)) (by omega)
      omega
    · have hprod : 2 ^ 32 * 2 ^ 32 ≤ d * d := Nat.mul_le_mul hlarge hlarge
      omega

/-- The target is right exactly if a difficulty came last. -/
lemma target_foldl_iff (h : lastDifficulty updates = some difficulty) :
    (updates.foldl (Client.update job₀) c).currentJob.target.toNat = targetOf difficulty.toNat ↔
      ∃ difficulty', updates.getLast? = some (.setDifficulty difficulty') := by
  rcases List.eq_nil_or_concat updates with rfl | ⟨earlier, update, rfl⟩
  · exact absurd h (by simp [lastDifficulty])
  · rw [List.concat_eq_append] at h ⊢
    rw [lastDifficulty_concat] at h
    rw [List.foldl_concat, List.getLast?_concat]
    cases update with
    -- the target is the difficulty itself
    | notify jobId seedText headerText =>
      have hcurrent : (earlier.foldl (Client.update job₀) c).currentDifficulty = difficulty := by
        rw [currentDifficulty_foldl, show lastDifficulty earlier = some difficulty from h]
        rfl
      refine iff_of_false (fun htarget => ne_targetOf difficulty ?_) (by simp)
      rw [← htarget, ← hcurrent]
      rfl
    | setDifficulty last =>
      obtain rfl := Option.some.inj h
      exact iff_of_true (target_setDifficulty _ _) ⟨_, rfl⟩

/-! ## Exchanging two messages -/

/-- The next message overwrites the target. -/
lemma update_withTarget (c : Client) (target : BitVec 64) (update : Update) :
    (c.withTarget target).update job₀ update = c.update job₀ update := by
  cases update <;> rfl

/-- Exchanged, the two messages leave another target, and nothing else changes. -/
lemma update_exchange (jobId seedText headerText : String) (difficulty : BitVec 64) :
    (c.update job₀ (.setDifficulty difficulty)).update job₀ (.notify jobId seedText headerText) =
      ((c.update job₀ (.notify jobId seedText headerText)).update job₀
        (.setDifficulty difficulty)).withTarget difficulty := rfl

lemma exchange_iff (jobId seedText headerText : String) (difficulty : BitVec 64)
    (before after : List Update) :
    ((before ++ .notify jobId seedText headerText :: .setDifficulty difficulty :: after).foldl
        (Client.update job₀) c).currentJob =
      ((before ++ .setDifficulty difficulty :: .notify jobId seedText headerText :: after).foldl
        (Client.update job₀) c).currentJob ↔ after ≠ [] := by
  simp only [List.foldl_append, List.foldl_cons, update_exchange]
  generalize before.foldl (Client.update job₀) c = c
  cases after with
  -- the two targets are what is left to compare
  | nil =>
    refine iff_of_false (fun heq => ne_targetOf difficulty ?_) (by simp)
    have htarget := congrArg (fun job => job.target.toNat) heq
    exact htarget.symm.trans (target_setDifficulty _ difficulty)
  | cons update after =>
    refine iff_of_true ?_ (by simp)
    rw [List.foldl_cons, List.foldl_cons, update_withTarget]

end Runs

/-- **When the target is that of the difficulty.**  After well-formed messages that contain a
difficulty the target belongs to the last difficulty exactly if the last message is a
`mining.set_difficulty`, and exchanging it with a `mining.notify` beside it keeps the job exactly
if another message follows. -/
theorem target_iff (job₀ : MiningJob) (c : Client) :
    (∀ messages updates difficulty, List.Forall₂ Means messages updates →
      lastDifficulty updates = some difficulty →
      ((∃ c', processNotifications job₀ c messages = some c' ∧
          c'.getCurrentJob.target.toNat = targetOf difficulty.toNat) ↔
        ∃ difficulty', updates.getLast? = some (.setDifficulty difficulty'))) ∧
    ∀ before after notify set jobId seedText headerText difficulty,
      (∀ message ∈ before ++ after, ∃ update, Means message update) →
      Means notify (.notify jobId seedText headerText) → Means set (.setDifficulty difficulty) →
      ((∃ c₁ c₂, processNotifications job₀ c (before ++ notify :: set :: after) = some c₁ ∧
          processNotifications job₀ c (before ++ set :: notify :: after) = some c₂ ∧
          c₁.getCurrentJob = c₂.getCurrentJob) ↔ after ≠ []) := by
  constructor
  · intro messages updates difficulty hmeans hlast
    rw [processNotifications_eq hmeans]
    simp only [Option.some.injEq, exists_eq_left']
    exact target_foldl_iff hlast
  · intro before after notify set jobId seedText headerText difficulty hmeans hnotify hset
    obtain ⟨updates₁, hbefore⟩ := exists_updates fun m hm => hmeans m (List.mem_append_left _ hm)
    obtain ⟨updates₂, hafter⟩ := exists_updates fun m hm => hmeans m (List.mem_append_right _ hm)
    have hlength : after = [] ↔ updates₂ = [] := by
      rw [← List.length_eq_zero_iff, hafter.length_eq, List.length_eq_zero_iff]
    rw [processNotifications_eq (List.rel_append hbefore (.cons hnotify (.cons hset hafter))),
      processNotifications_eq (List.rel_append hbefore (.cons hset (.cons hnotify hafter)))]
    simp only [Option.some.injEq, exists_and_left, exists_eq_left', Client.getCurrentJob]
    rw [exchange_iff, ne_eq, ne_eq, hlength]

/-! ## Two orders of two messages -/

/-- A `mining.set_difficulty`. -/
def difficultyMessage (number : Json) : Json :=
  .object [("method", .string "mining.set_difficulty"), ("params", .array [number])]

lemma setsDifficulty_difficultyMessage (number : Json) :
    SetsDifficulty (difficultyMessage number) number := ⟨rfl, [], rfl⟩

lemma means_difficultyMessage (difficulty : BitVec 64) :
    Means (difficultyMessage (.integer difficulty.toNat)) (.setDifficulty difficulty) :=
  ⟨_, setsDifficulty_difficultyMessage _, rfl⟩

lemma means_notifyMessage (jobId seedText headerText : String) :
    Means (notifyMessage jobId seedText headerText) (.notify jobId seedText headerText) :=
  ⟨isNotify_notifyMessage _ _ _, _, rfl, typed_notifyMessage _ _ _⟩

/-- A difficulty that comes last sets the target. -/
theorem target_iff_notify_four :
    ∃ c', processNotifications zeroJob idleClient
        [notifyMessage "1" "0x0" "0x0", difficultyMessage (.integer (4 : BitVec 64).toNat)] =
        some c' ∧
      c'.getCurrentJob.target.toNat = targetOf (4 : BitVec 64).toNat :=
  ((target_iff zeroJob idleClient).1 _ _ 4
    (.cons (means_notifyMessage "1" "0x0" "0x0") (.cons (means_difficultyMessage 4) .nil)) rfl).mpr
    ⟨4, rfl⟩

/-- After a `mining.set_difficulty` of 4 and a `mining.notify`, the target is 4; exchanged, the
messages leave another job. -/
theorem not_targetOf_four :
    (∃ c', processNotifications zeroJob idleClient
        [difficultyMessage (.integer 4), notifyMessage "1" "0x0" "0x0"] = some c' ∧
        c'.getCurrentJob.target = 4 ∧ c'.getCurrentJob.target.toNat ≠ targetOf 4) ∧
      ∃ c₁ c₂, processNotifications zeroJob idleClient
          [notifyMessage "1" "0x0" "0x0", difficultyMessage (.integer 4)] = some c₁ ∧
        processNotifications zeroJob idleClient
          [difficultyMessage (.integer 4), notifyMessage "1" "0x0" "0x0"] = some c₂ ∧
        c₁.getCurrentJob ≠ c₂.getCurrentJob := by
  have hfour := means_difficultyMessage 4
  have hnotify := means_notifyMessage "1" "0x0" "0x0"
  have hlast := @processNotifications_eq zeroJob idleClient _ _ (.cons hfour (.cons hnotify .nil))
  have hfirst := @processNotifications_eq zeroJob idleClient _ _ (.cons hnotify (.cons hfour .nil))
  refine ⟨⟨_, hlast, rfl, ?_⟩, _, _, hfirst, hlast, ?_⟩
  · show (4 : BitVec 64).toNat ≠ targetOf (4 : BitVec 64).toNat
    exact ne_targetOf 4
  · exact fun heq => (exchange_iff "1" "0x0" "0x0" 4 [] []).mp heq rfl

end OhMyMiner.Stratum
