/-
# The accesses of a notification

`StratumClient::Impl::processNotification` (`src/network/stratum_client.cpp`) reads an untrusted
message through the const `operator[]` of `nlohmann::json`, which neither checks a key nor an index.
Here its code logs each access.  The indices are compared with the size of `params` before, but
nobody asks whether there are any `params`.
-/
import OhMyMiner.Lib.Logged
import OhMyMiner.Stratum.Notify

namespace OhMyMiner.Stratum

open Lib Ethash Utils

/-! ## The code, with its accesses -/

/-- An access through `operator[]`. -/
inductive Access where
  | key (value : Json) (name : String)
  | index (value : Json) (i : ℕ)

/-- The key is present, and the index is in range or the value is no array (the library throws). -/
def Access.Defined : Access → Prop
  | .key value name => value.contains name = true
  | .index value i => ∀ items, value = .array items → i < items.length

namespace Access

/-- A computation that logs its accesses. -/
abbrev Accessing : Type → Type := Logged Access Fault

/-- `operator[]` with a key. -/
def member (message : Json) (key : String) : Accessing Json :=
  .step (.key message key) (message.member key)

/-- `operator[]` with an index. -/
def item (params : Json) (i : ℕ) : Accessing Json := .step (.index params i) (params.item i)

/-- `dumpParams`. -/
def dumpParams (params : Json) : Accessing Unit :=
  forM (List.range params.size) fun i => do
    let _ ← item params i

/-- `miningNotify`. -/
def miningNotify (job₀ : MiningJob) (c : Client) (params : Json) :
    Accessing (Client × Option Callback) := do
  dumpParams params
  if 3 ≤ params.size then
    let jobId ← .silent (← item params 0).getString
    let seedHashHex ← .silent (← item params 1).getString
    let headerHashHex ← .silent (← item params 2).getString
    let headerHash := (hexToHash32 (utf8 headerHashHex) job₀.headerHash).2
    let seedHash := (hexToHash32 (utf8 seedHashHex) job₀.seedHash).2
    let derivedEpoch := epochFromSeedHash seedHash
    let derivedEpoch := if derivedEpoch = BitVec.allOnes 32 then 0 else derivedEpoch
    let job : MiningJob :=
      { jobId := jobId, seedHash := seedHash, headerHash := headerHash,
        target := c.currentDifficulty, blockNumber := (derivedEpoch * 30000).setWidth 64,
        epoch := derivedEpoch }
    let _cleanJobs ←
      if 3 < params.size then do Logged.silent (← item params 3).getBool else pure true
    return ({ c with currentJob := job }, if c.onJob then some (.onJob job) else none)
  else return (c, none)

/-- `miningSetDifficulty`. -/
def miningSetDifficulty (c : Client) (params : Json) :
    Accessing (Client × Option Callback) := do
  if 1 ≤ params.size then
    let difficulty ← .silent (difficultyOf (← item params 0))
    let target64 := if 0 < difficulty then BitVec.allOnes 64 / difficulty else BitVec.allOnes 64
    return ({ c with
              currentDifficulty := difficulty
              currentJob := { c.currentJob with target := target64 } },
            if c.onDifficulty then some (.onDifficulty difficulty) else none)
  else return (c, none)

/-- `notificationBody`. -/
def notificationBody (job₀ : MiningJob) (c : Client) (message : Json) :
    Accessing (Client × Option Callback) := do
  let method ← .silent (← member message "method").getString
  if method = "mining.notify" then miningNotify job₀ c (← member message "params")
  else if method = "mining.set_difficulty" then
    miningSetDifficulty c (← member message "params")
  else return (c, none)

/-! ## The log changes nothing -/

lemma result_dumpParams (params : Json) :
    (dumpParams params).result = Stratum.dumpParams params := by
  simp only [dumpParams, Stratum.dumpParams, Logged.result_forM, Logged.result_bind, item,
    Logged.result_step, Logged.result_pure]

lemma result_miningNotify (job₀ : MiningJob) (c : Client) (params : Json) :
    (miningNotify job₀ c params).result = Stratum.miningNotify job₀ c params := by
  simp only [miningNotify, Stratum.miningNotify, Logged.result_bind, result_dumpParams,
    Logged.result_ite, item, Logged.result_step, Logged.result_silent, Logged.result_pure]

lemma result_miningSetDifficulty (c : Client) (params : Json) :
    (miningSetDifficulty c params).result = Stratum.miningSetDifficulty c params := by
  simp only [miningSetDifficulty, Stratum.miningSetDifficulty, Logged.result_bind,
    Logged.result_ite, item, Logged.result_step, Logged.result_silent, Logged.result_pure]

/-- **The logged code is the code.** -/
theorem result_notificationBody (job₀ : MiningJob) (c : Client) (message : Json) :
    (notificationBody job₀ c message).result = Stratum.notificationBody job₀ c message := by
  simp only [notificationBody, Stratum.notificationBody, Logged.result_bind, Logged.result_ite,
    member, Logged.result_step, Logged.result_silent, Logged.result_pure, result_miningNotify,
    result_miningSetDifficulty]

/-! ## Which accesses are defined -/

variable {job₀ : MiningJob} {c : Client} {params message : Json}

/-- The size is a bound for the index of an array. -/
lemma all_item {i : ℕ} (hi : i < params.size) : (item params i).All Defined := by
  rw [item, Logged.all_step]
  rintro items rfl
  exact hi

lemma all_dumpParams (params : Json) : (dumpParams params).All Defined := by
  refine Logged.all_forM fun i hi => ?_
  rw [Logged.all_bind]
  exact ⟨all_item (List.mem_range.mp hi), fun _ _ => Logged.all_pure ()⟩

/-- A parameter that is read and converted. -/
lemma all_item_silent {α β : Type} {i : ℕ} (hi : i < params.size) {get : Json → Except Fault α}
    {rest : α → Accessing β} (hrest : ∀ a, (rest a).All Defined) :
    (item params i >>= fun value => Logged.silent (get value) >>= rest).All Defined := by
  rw [Logged.all_bind]
  refine ⟨all_item hi, fun value _ => ?_⟩
  rw [Logged.all_bind]
  exact ⟨Logged.all_silent _, fun a _ => hrest a⟩

/-- The indices of a `mining.notify` have been compared with the size. -/
lemma all_miningNotify (job₀ : MiningJob) (c : Client) (params : Json) :
    (miningNotify job₀ c params).All Defined := by
  rw [miningNotify, Logged.all_bind]
  refine ⟨all_dumpParams params, fun _ _ => ?_⟩
  split
  · next hsize =>
    refine all_item_silent (by omega) fun jobId => ?_
    refine all_item_silent (by omega) fun seedHashHex => ?_
    refine all_item_silent (by omega) fun headerHashHex => ?_
    dsimp only
    split
    · next hflag => exact all_item_silent hflag fun cleanJobs => Logged.all_pure _
    · rw [Logged.all_bind]
      exact ⟨Logged.all_pure true, fun _ _ => Logged.all_pure _⟩
  · exact Logged.all_pure _

/-- So has the index of a `mining.set_difficulty`. -/
lemma all_miningSetDifficulty (c : Client) (params : Json) :
    (miningSetDifficulty c params).All Defined := by
  rw [miningSetDifficulty]
  split
  · next hsize => exact all_item_silent hsize fun difficulty => Logged.all_pure _
  · exact Logged.all_pure _

/-- The parameters are read without a question. -/
lemma all_params_iff {β : Type} {rest : Json → Accessing β}
    (hrest : ∀ params, (rest params).All Defined) :
    (member message "params" >>= rest).All Defined ↔ message.contains "params" = true := by
  rw [Logged.all_bind, member, Logged.all_step]
  exact ⟨fun h => h.1, fun h => ⟨h, fun params _ => hrest params⟩⟩

/-- **Which notifications are read safely.**  All accesses to a message with a method are defined
exactly if it has parameters, or the method is neither of the two that the client knows. -/
theorem accesses_defined_iff {method : Json} (hmethod : message.find? "method" = some method) :
    (notificationBody job₀ c message).All Defined ↔
      message.contains "params" = true ∨
        (method ≠ .string "mining.notify" ∧ method ≠ .string "mining.set_difficulty") := by
  have hdefined : (key message "method").Defined := by
    show (message.find? "method").isSome = true
    rw [hmethod]
    rfl
  have hread : (notificationBody job₀ c message).All Defined ↔
      ∀ name, method.getString = .ok name →
        (if name = "mining.notify" then
          member message "params" >>= fun params => miningNotify job₀ c params
        else if name = "mining.set_difficulty" then
          member message "params" >>= fun params => miningSetDifficulty c params
        else return (c, none)).All Defined := by
    rw [notificationBody, Logged.all_bind, member, Logged.all_step, and_iff_right hdefined,
      Logged.result_step, member_of_find hmethod]
    simp only [Except.ok.injEq, forall_eq', Logged.all_bind (Logged.silent _),
      Logged.all_silent, true_and, Logged.result_silent]
  rw [hread]
  -- a method that is no string throws before the parameters are read
  rcases method.getString_cases with ⟨name, rfl⟩ | hthrew
  · have hname : (Json.string name).getString = .ok name := rfl
    simp only [hname, Except.ok.injEq, forall_eq', ne_eq, Json.string.injEq]
    by_cases hnotify : name = "mining.notify"
    · rw [if_pos hnotify, all_params_iff (all_miningNotify job₀ c)]
      exact ⟨Or.inl, fun h => h.resolve_right fun hne => hne.1 hnotify⟩
    · rw [if_neg hnotify]
      by_cases hset : name = "mining.set_difficulty"
      · rw [if_pos hset, all_params_iff (all_miningSetDifficulty c)]
        exact ⟨Or.inl, fun h => h.resolve_right fun hne => hne.2 hset⟩
      · rw [if_neg hset]
        exact iff_of_true (Logged.all_pure _) (Or.inr ⟨hnotify, hset⟩)
  · refine iff_of_true (fun name hok => absurd (hthrew.symm.trans hok) (by simp)) (Or.inr ?_)
    constructor
    · rintro rfl
      exact absurd hthrew (by simp [Json.getString])
    · rintro rfl
      exact absurd hthrew (by simp [Json.getString])

/-- All accesses to a message with four parameters are defined. -/
theorem accesses_defined_iff_full :
    (notificationBody zeroJob idleClient fullNotify).All Defined := by
  have hmethod : fullNotify.find? "method" = some (.string "mining.notify") := rfl
  exact (accesses_defined_iff hmethod).mpr (Or.inl rfl)

/-- Without parameters, the second access is undefined. -/
theorem not_defined_noParams :
    (notificationBody zeroJob idleClient (.object [("method", .string "mining.notify")])).log =
        [.key (.object [("method", .string "mining.notify")]) "method",
          .key (.object [("method", .string "mining.notify")]) "params"] ∧
      processNotification zeroJob idleClient (.object [("method", .string "mining.notify")]) =
        none ∧
      ¬ (notificationBody zeroJob idleClient
        (.object [("method", .string "mining.notify")])).All Defined := by
  have hlog : (notificationBody zeroJob idleClient
      (.object [("method", .string "mining.notify")])).log =
        [.key (.object [("method", .string "mining.notify")]) "method",
          .key (.object [("method", .string "mining.notify")]) "params"] := rfl
  refine ⟨hlog, rfl, fun hall => ?_⟩
  have hparams := hall (.key (.object [("method", .string "mining.notify")]) "params") (by
    rw [hlog]
    simp)
  exact absurd hparams (by simp [Defined, Json.contains, Json.find?])

end Access

end OhMyMiner.Stratum
