/-
# Notifications

`StratumClient::Impl::processNotification` (`src/network/stratum_client.cpp`): a `mining.notify`
announces a job and a `mining.set_difficulty` a difficulty, and the client passes both on to its
callbacks.  An exception of the JSON library ends a notification; it is caught, and nothing has
been changed by then.
-/
import OhMyMiner.Ethash.Epoch
import OhMyMiner.Stratum.Json
import OhMyMiner.Utils.Hex

namespace OhMyMiner.Stratum

open Lib Ethash Utils Keccak

/-! ## The code -/

/-- The members of `StratumClient::Impl` that notifications use.  A callback is registered or
not. -/
structure Client where
  currentDifficulty : BitVec 64
  currentJob : MiningJob
  onJob : Bool
  onDifficulty : Bool

/-- A call of a callback. -/
inductive Callback where
  | onJob (job : MiningJob)
  | onDifficulty (difficulty : BitVec 64)

/-- The bytes of a string. -/
def utf8 (s : String) : List Byte := s.toUTF8.data.toList.map UInt8.toBitVec

/-- The parameters go to the log, one by one. -/
def dumpParams (params : Json) : Except Fault Unit :=
  forM (List.range params.size) fun i => do
    let _ ← params.item i

/-- `mining.notify`.  The fields of `job₀`, which the source does not initialise, show in the job
where decoding fails. -/
def miningNotify (job₀ : MiningJob) (c : Client) (params : Json) :
    Except Fault (Client × Option Callback) := do
  dumpParams params
  if 3 ≤ params.size then
    let jobId ← (← params.item 0).getString
    let seedHashHex ← (← params.item 1).getString
    let headerHashHex ← (← params.item 2).getString
    -- a failure is logged, and the job keeps what has been decoded
    let headerHash := (hexToHash32 (utf8 headerHashHex) job₀.headerHash).2
    let seedHash := (hexToHash32 (utf8 seedHashHex) job₀.seedHash).2
    let derivedEpoch := epochFromSeedHash seedHash
    let derivedEpoch := if derivedEpoch = BitVec.allOnes 32 then 0 else derivedEpoch
    let job : MiningJob :=
      { jobId := jobId, seedHash := seedHash, headerHash := headerHash,
        target := c.currentDifficulty, blockNumber := (derivedEpoch * 30000).setWidth 64,
        epoch := derivedEpoch }
    let _cleanJobs ← if 3 < params.size then (← params.item 3).getBool else pure true
    return ({ c with currentJob := job }, if c.onJob then some (.onJob job) else none)
  else return (c, none)

/-- `std::round`: halfway cases go away from zero. -/
def roundAway (q : ℚ) : ℤ := if 0 ≤ q then ⌊q + 1 / 2⌋ else ⌈q - 1 / 2⌉

/-- The difficulty of a parameter.  The conversion of a floating point number is undefined where
the result does not fit. -/
def difficultyOf : Json → Except Fault (BitVec 64)
  | .integer n => .ok (BitVec.ofInt 64 n)
  | .decimal q =>
    if 0 ≤ roundAway q ∧ roundAway q < 2 ^ 64 then .ok (BitVec.ofInt 64 (roundAway q))
    else .error .undefined
  | _ => .ok 1

/-- `mining.set_difficulty`. -/
def miningSetDifficulty (c : Client) (params : Json) :
    Except Fault (Client × Option Callback) := do
  if 1 ≤ params.size then
    let difficulty ← difficultyOf (← params.item 0)
    let target64 := if 0 < difficulty then BitVec.allOnes 64 / difficulty else BitVec.allOnes 64
    return ({ c with
              currentDifficulty := difficulty
              currentJob := { c.currentJob with target := target64 } },
            if c.onDifficulty then some (.onDifficulty difficulty) else none)
  else return (c, none)

/-- The body of the `try` block. -/
def notificationBody (job₀ : MiningJob) (c : Client) (message : Json) :
    Except Fault (Client × Option Callback) := do
  let method ← (← message.member "method").getString
  if method = "mining.notify" then miningNotify job₀ c (← message.member "params")
  else if method = "mining.set_difficulty" then miningSetDifficulty c (← message.member "params")
  else return (c, none)

/-- What the `catch` makes of a result.  There is no result where the behaviour is undefined. -/
def caught (c : Client) : Except Fault (Client × Option Callback) →
    Option (Client × Option Callback)
  | .ok result => some result
  | .error .threw => some (c, none)
  | .error .undefined => none

/-- `processNotification`: the new state and the callback that is called. -/
def processNotification (job₀ : MiningJob) (c : Client) (message : Json) :
    Option (Client × Option Callback) := caught c (notificationBody job₀ c message)

/-! ## What a `mining.notify` announces -/

/-- The parameters have the types of a job: three strings, and a boolean if there is a fourth. -/
def Typed (params : Json) (jobId seedText headerText : String) : Prop :=
  ∃ rest, params = .array (.string jobId :: .string seedText :: .string headerText :: rest) ∧
    (rest = [] ∨ ∃ cleanJobs more, rest = .boolean cleanJobs :: more)

/-- A job as the pool announces it. -/
structure Announcement where
  jobId : String
  seedHash : Hash32
  headerHash : Hash32
  epoch : ℕ

/-- The message announces the job: everything decodes, and the seed hash is that of an epoch that
the client knows. -/
def Announces (message : Json) (a : Announcement) : Prop :=
  ∃ params seedText headerText, message.find? "params" = some params ∧
    Typed params a.jobId seedText headerText ∧ Denotes (utf8 seedText) a.seedHash ∧
    Denotes (utf8 headerText) a.headerHash ∧ a.epoch < maxEpochScan ∧
    seedIterate a.epoch = a.seedHash

/-- The job is the one that was announced. -/
def Announcement.Matches (a : Announcement) (job : MiningJob) : Prop :=
  job.jobId = a.jobId ∧ job.seedHash = a.seedHash ∧ job.headerHash = a.headerHash ∧
    job.epoch.toNat = a.epoch

/-- What should become of a `mining.notify`: the announced job is installed and passed on, or
nothing is announced and nothing happens. -/
def Handled (c : Client) (message : Json) (result : Option (Client × Option Callback)) : Prop :=
  ∃ c' callback, result = some (c', callback) ∧
    ((∃ a, Announces message a ∧ a.Matches c'.currentJob ∧
        callback = some (.onJob c'.currentJob)) ∨
      ((¬ ∃ a, Announces message a) ∧ c'.currentJob = c.currentJob ∧ callback = none))

/-- The parameters are there, and if they have the types of a job, then both hashes decode and
the seed hash is one of the first 2000. -/
def Decodes (message : Json) : Prop :=
  ∃ params, message.find? "params" = some params ∧
    ∀ jobId seedText headerText, Typed params jobId seedText headerText →
      ∃ seedHash headerHash : Hash32, Denotes (utf8 seedText) seedHash ∧
        Denotes (utf8 headerText) headerHash ∧
        ∃ epoch < maxEpochScan, seedIterate epoch = seedHash

/-! ## Accesses -/

lemma item_array {items : List Json} {i : ℕ} (h : i < items.length) :
    ∃ value, (Json.array items).item i = .ok value := by
  refine ⟨items.get ⟨i, h⟩, ?_⟩
  rw [Json.item, List.getElem?_eq_getElem h]
  rfl

/-- Every parameter of an array can be logged. -/
lemma dumpParams_array (items : List Json) : dumpParams (.array items) = .ok () := by
  have hlog : ∀ indices : List ℕ, (∀ i ∈ indices, i < items.length) →
      (forM indices fun i => do let _ ← (Json.array items).item i) =
        (Except.ok () : Except Fault Unit) := by
    intro indices hlt
    induction indices with
    | nil => rfl
    | cons i indices ih =>
      obtain ⟨value, hvalue⟩ := item_array (hlt i List.mem_cons_self)
      rw [List.forM_cons, hvalue]
      exact ih fun j hj => hlt j (List.mem_cons_of_mem _ hj)
  exact hlog _ fun i hi => List.mem_range.mp hi

/-- Nothing else has parameters. -/
lemma dumpParams_cases (params : Json) :
    (∃ items, params = .array items) ∨ params.size = 0 ∨ dumpParams params = .error .threw := by
  cases params with
  | null => exact Or.inr (Or.inl rfl)
  | array items => exact Or.inl ⟨items, rfl⟩
  | boolean b => exact Or.inr (Or.inr rfl)
  | integer n => exact Or.inr (Or.inr rfl)
  | decimal q => exact Or.inr (Or.inr rfl)
  | string s => exact Or.inr (Or.inr rfl)
  | object members =>
    cases members with
    | nil => exact Or.inr (Or.inl rfl)
    | cons first members =>
      refine Or.inr (Or.inr ?_)
      rw [dumpParams, Json.size, List.length_cons, List.range_succ_eq_map, List.forM_cons]
      rfl

/-! ## A `mining.notify` -/

section Notify

variable {job₀ : MiningJob} {c : Client} {params : Json} {jobId seedText headerText : String}

/-- The job that parameters of the right types install, whether they decode or not. -/
def installed (job₀ : MiningJob) (c : Client) (jobId seedText headerText : String) : MiningJob :=
  let seedHash := (hexToHash32 (utf8 seedText) job₀.seedHash).2
  let derivedEpoch := epochFromSeedHash seedHash
  let derivedEpoch := if derivedEpoch = BitVec.allOnes 32 then 0 else derivedEpoch
  { jobId := jobId, seedHash := seedHash,
    headerHash := (hexToHash32 (utf8 headerText) job₀.headerHash).2,
    target := c.currentDifficulty, blockNumber := (derivedEpoch * 30000).setWidth 64,
    epoch := derivedEpoch }

/-- Parameters of the right types install a job. -/
lemma miningNotify_typed (h : Typed params jobId seedText headerText) :
    miningNotify job₀ c params =
      .ok ({ c with currentJob := installed job₀ c jobId seedText headerText },
        if c.onJob then some (.onJob (installed job₀ c jobId seedText headerText)) else none) := by
  obtain ⟨rest, rfl, hrest⟩ := h
  rw [miningNotify, dumpParams_array]
  rcases hrest with rfl | ⟨cleanJobs, more, rfl⟩
  · rfl
  · rfl

/-- Other parameters change nothing. -/
lemma miningNotify_untyped
    (h : ∀ jobId seedText headerText, ¬ Typed params jobId seedText headerText) :
    miningNotify job₀ c params = .ok (c, none) ∨ miningNotify job₀ c params = .error .threw := by
  rcases dumpParams_cases params with ⟨items, rfl⟩ | hsize | hthrew
  · rw [miningNotify, dumpParams_array]
    rcases items with _ | ⟨first, _ | ⟨second, _ | ⟨third, rest⟩⟩⟩
    · exact Or.inl rfl
    · exact Or.inl rfl
    · exact Or.inl rfl
    -- each of the three is a string, or the first one that is not throws
    refine Or.inr ?_
    rcases first.getString_cases with ⟨jobId, rfl⟩ | hthrew
    · rcases second.getString_cases with ⟨seedText, rfl⟩ | hthrew
      · rcases third.getString_cases with ⟨headerText, rfl⟩ | hthrew
        · rcases rest with _ | ⟨fourth, more⟩
          · exact absurd ⟨[], rfl, Or.inl rfl⟩ (h jobId seedText headerText)
          · rcases fourth.getBool_cases with ⟨cleanJobs, rfl⟩ | hthrew
            · exact absurd ⟨_, rfl, Or.inr ⟨cleanJobs, more, rfl⟩⟩ (h jobId seedText headerText)
            · show (fourth.getBool >>= fun _ => _) = _
              rw [hthrew]
              rfl
        · show (third.getString >>= fun _ => _) = _
          rw [hthrew]
          rfl
      · show (second.getString >>= fun _ => _) = _
        rw [hthrew]
        rfl
    · show (first.getString >>= fun _ => _) = _
      rw [hthrew]
      rfl
  · rw [miningNotify, dumpParams, hsize]
    exact Or.inl rfl
  · rw [miningNotify, hthrew]
    exact Or.inr rfl

variable {message : Json}

/-- The message is a `mining.notify`. -/
def IsNotify (message : Json) : Prop := message.find? "method" = some (.string "mining.notify")

lemma member_of_find {key : String} {value : Json} (h : message.find? key = some value) :
    message.member key = .ok value := by
  cases message with
  | object members =>
    have hlookup : members.lookup key = some value := h
    rw [Json.member, hlookup]
  | _ => exact absurd h (by simp [Json.find?])

lemma processNotification_params (hmethod : IsNotify message)
    (hparams : message.find? "params" = some params) :
    processNotification job₀ c message = caught c (miningNotify job₀ c params) := by
  have hbody : notificationBody job₀ c message = miningNotify job₀ c params := by
    rw [notificationBody, member_of_find hmethod, member_of_find hparams]
    rfl
  rw [processNotification, hbody]

lemma processNotification_noParams (hmethod : IsNotify message)
    (hparams : message.find? "params" = none) : processNotification job₀ c message = none := by
  have hundefined : message.member "params" = .error .undefined := by
    cases message with
    | object members =>
      have hlookup : members.lookup "params" = none := hparams
      rw [Json.member, hlookup]
    | _ => exact absurd hmethod (by simp [IsNotify, Json.find?])
  have hbody : notificationBody job₀ c message = .error .undefined := by
    rw [notificationBody, member_of_find hmethod, hundefined]
    rfl
  rw [processNotification, hbody]
  rfl

/-! ## Which messages are handled -/

lemma Typed.eq {jobId' seedText' headerText' : String} (h : Typed params jobId seedText headerText)
    (h' : Typed params jobId' seedText' headerText') :
    jobId' = jobId ∧ seedText' = seedText ∧ headerText' = headerText := by
  obtain ⟨rest, rfl, -⟩ := h
  obtain ⟨rest', heq, -⟩ := h'
  simp only [Json.array.injEq, List.cons.injEq, Json.string.injEq] at heq
  exact ⟨heq.1.symm, heq.2.1.symm, heq.2.2.1.symm⟩

/-- What decodes is installed, for epoch 0 if the seed hash is not known. -/
lemma installed_spec (job₀ : MiningJob) (c : Client) (jobId : String) {seedHash headerHash : Hash32}
    (hseed : Denotes (utf8 seedText) seedHash) (hheader : Denotes (utf8 headerText) headerHash) :
    (installed job₀ c jobId seedText headerText).seedHash = seedHash ∧
      (installed job₀ c jobId seedText headerText).headerHash = headerHash ∧
      ((∃ e < maxEpochScan, seedIterate e = seedHash ∧
          (installed job₀ c jobId seedText headerText).epoch.toNat = e) ∨
        ((∀ e < maxEpochScan, seedIterate e ≠ seedHash) ∧
          (installed job₀ c jobId seedText headerText).epoch = 0)) := by
  have hseed' : (hexToHash32 (utf8 seedText) job₀.seedHash).2 = seedHash :=
    congrArg Prod.snd ((hexToHash_eq_true_iff _ _ _).mpr hseed)
  refine ⟨hseed', congrArg Prod.snd ((hexToHash_eq_true_iff _ _ _).mpr hheader), ?_⟩
  rw [installed, hseed']
  dsimp only
  rcases epochFromSeedHash_cases seedHash with ⟨e, hlt, heq, -, hfound⟩ | ⟨hnone, hfound⟩
  · have hscan : maxEpochScan = 2000 := rfl
    have htoNat : (BitVec.ofNat 32 e).toNat = e := by
      rw [BitVec.toNat_ofNat]
      exact Nat.mod_eq_of_lt (by omega)
    have hne : BitVec.ofNat 32 e ≠ BitVec.allOnes 32 := by
      intro hall
      have hmax := congrArg BitVec.toNat hall
      rw [htoNat, BitVec.toNat_allOnes] at hmax
      omega
    rw [hfound, if_neg hne]
    exact Or.inl ⟨e, hlt, heq, htoNat⟩
  · rw [hfound, if_pos rfl]
    exact Or.inr ⟨hnone, rfl⟩

/-- Parameters of the wrong types change nothing. -/
lemma processNotification_untyped (hmethod : IsNotify message)
    (hparams : message.find? "params" = some params)
    (h : ∀ jobId seedText headerText, ¬ Typed params jobId seedText headerText) :
    processNotification job₀ c message = some (c, none) := by
  rw [processNotification_params hmethod hparams]
  have hcases : miningNotify job₀ c params = .ok (c, none) ∨
    miningNotify job₀ c params = .error .threw := miningNotify_untyped h
  rcases hcases with hsame | hthrew
  · rw [hsame]
    rfl
  · rw [hthrew]
    rfl

/-- Parameters of the right types are installed and passed on. -/
lemma processNotification_typed (hmethod : IsNotify message)
    (hparams : message.find? "params" = some params)
    (h : Typed params jobId seedText headerText) :
    processNotification job₀ c message =
      some ({ c with currentJob := installed job₀ c jobId seedText headerText },
        if c.onJob then some (.onJob (installed job₀ c jobId seedText headerText)) else none) := by
  rw [processNotification_params hmethod hparams, miningNotify_typed h]
  rfl

/-- **Which `mining.notify` messages are handled.**  A message is handled exactly if it has
parameters and these decode whenever they have the types of a job. -/
theorem handled_iff_decodes (hmethod : IsNotify message) (hcallback : c.onJob = true) :
    Handled c message (processNotification job₀ c message) ↔ Decodes message := by
  cases hparams : message.find? "params" with
  | none =>
    rw [processNotification_noParams hmethod hparams]
    constructor
    · rintro ⟨c', callback, hnone, -⟩
      exact absurd hnone (by simp)
    · rintro ⟨params, hsome, -⟩
      exact absurd (hparams.symm.trans hsome) (by simp)
  | some params =>
    by_cases htyped : ∃ jobId seedText headerText, Typed params jobId seedText headerText
    · obtain ⟨jobId, seedText, headerText, htyped⟩ := htyped
      rw [processNotification_typed hmethod hparams htyped, hcallback, if_pos rfl]
      constructor
      · -- a job is passed on, so it must have been announced
        rintro ⟨c', callback, hresult, ⟨a, ⟨params', seedText', headerText', hparams', htyped',
          hseed, hheader, hlt, hiterate⟩, -⟩ | ⟨-, -, hnone⟩⟩
        · obtain rfl := Option.some.inj (hparams.symm.trans hparams')
          obtain ⟨-, rfl, rfl⟩ := htyped.eq htyped'
          refine ⟨params, hparams, fun jobId₁ seedText₁ headerText₁ htyped₁ => ?_⟩
          obtain ⟨-, rfl, rfl⟩ := htyped'.eq htyped₁
          exact ⟨a.seedHash, a.headerHash, hseed, hheader, a.epoch, hlt, hiterate⟩
        · have hcall := congrArg Prod.snd (Option.some.inj hresult)
          exact absurd (hcall.trans hnone) (by simp)
      · -- the job that is installed is the one that the parameters announce
        rintro ⟨params', hparams', hdecodes⟩
        obtain rfl := Option.some.inj (hparams.symm.trans hparams')
        obtain ⟨seedHash, headerHash, hseed, hheader, epoch, hepoch⟩ := hdecodes _ _ _ htyped
        obtain ⟨hseed', hheader', ⟨e, hlt, hiterate, htoNat⟩ | ⟨hnone, -⟩⟩ :=
          installed_spec job₀ c jobId hseed hheader
        · exact ⟨_, _, rfl, Or.inl ⟨⟨jobId, seedHash, headerHash, e⟩, ⟨params, seedText, headerText,
            hparams, htyped, hseed, hheader, hlt, hiterate⟩, ⟨rfl, hseed', hheader', htoNat⟩, rfl⟩⟩
        · exact absurd hepoch.2 (hnone epoch hepoch.1)
    · have hnone : ∀ jobId seedText headerText, ¬ Typed params jobId seedText headerText :=
        fun jobId seedText headerText h => htyped ⟨jobId, seedText, headerText, h⟩
      rw [processNotification_untyped hmethod hparams hnone]
      constructor
      · intro _
        exact ⟨params, hparams, fun jobId seedText headerText h => absurd h (hnone _ _ _)⟩
      · intro _
        refine ⟨c, none, rfl, Or.inr ⟨?_, rfl, rfl⟩⟩
        rintro ⟨a, params', seedText, headerText, hparams', htyped', -⟩
        obtain rfl := Option.some.inj (hparams.symm.trans hparams')
        exact hnone _ _ _ htyped'

/-- **What a `mining.notify` does.**  Parameters that do not have the types of a job change nothing.
If they do and both hashes decode, the job is installed and passed on as it was announced, for
epoch 0 if the seed hash is not known. -/
theorem processNotification_announced (job₀ : MiningJob) (hmethod : IsNotify message)
    (hcallback : c.onJob = true) (hparams : message.find? "params" = some params) :
    ((∀ jobId seedText headerText, ¬ Typed params jobId seedText headerText) →
        processNotification job₀ c message = some (c, none)) ∧
      ∀ jobId seedText headerText, Typed params jobId seedText headerText →
        ∀ seedHash headerHash, Denotes (utf8 seedText) seedHash →
          Denotes (utf8 headerText) headerHash →
          ∃ c', processNotification job₀ c message = some (c', some (.onJob c'.currentJob)) ∧
            c'.currentJob.jobId = jobId ∧ c'.currentJob.seedHash = seedHash ∧
            c'.currentJob.headerHash = headerHash ∧
            ((∃ e < maxEpochScan, seedIterate e = seedHash ∧ c'.currentJob.epoch.toNat = e) ∨
              ((∀ e < maxEpochScan, seedIterate e ≠ seedHash) ∧ c'.currentJob.epoch = 0)) := by
  constructor
  · exact processNotification_untyped hmethod hparams
  · intro jobId seedText headerText htyped seedHash headerHash hseed hheader
    refine ⟨{ c with currentJob := installed job₀ c jobId seedText headerText }, ?_, rfl,
      installed_spec job₀ c jobId hseed hheader⟩
    rw [processNotification_typed hmethod hparams htyped, hcallback, if_pos rfl]

end Notify

/-! ## Messages for one client -/

/-- A `mining.notify`. -/
def notifyMessage (jobId seedText headerText : String) : Json :=
  .object [("method", .string "mining.notify"),
    ("params", .array [.string jobId, .string seedText, .string headerText])]

/-- The text `{"method":"mining.notify","params":["1","0x0","0x0"]}` of one. -/
def notifyText : List Byte :=
  utf8 "\x7b\"method\":\"mining.notify\",\"params\":[\"1\",\"0x0\",\"0x0\"]\x7d"

/-- The answer `{"id":1,"result":true}`. -/
def trueText : List Byte := utf8 "\x7b\"id\":1,\"result\":true\x7d"

lemma isNotify_notifyMessage (jobId seedText headerText : String) :
    IsNotify (notifyMessage jobId seedText headerText) := rfl

lemma typed_notifyMessage (jobId seedText headerText : String) :
    Typed (.array [.string jobId, .string seedText, .string headerText]) jobId seedText
      headerText := ⟨[], rfl, Or.inl rfl⟩

/-- A job of zeros. -/
def zeroJob : MiningJob :=
  { jobId := "", seedHash := Vector.replicate 32 0, headerHash := Vector.replicate 32 0,
    target := 0, blockNumber := 0, epoch := 0 }

/-- A client that has received nothing. -/
def idleClient : Client :=
  { currentDifficulty := BitVec.allOnes 64, currentJob := zeroJob, onJob := true,
    onDifficulty := true }

/-- The seed hash of epoch 1, as the pool sends it. -/
def seedTextOne : String :=
  "0x290decd9548b62a8d60345a988386fc84ba6bc95484008f6362f93160ef3e563"

lemma denotes_seedTextOne : Denotes (utf8 seedTextOne) (seedIterate 1) := by
  have hseed : seedIterate 1 = evalDigest 32 (by decide) (List.replicate 32 0) :=
    keccak256_eq_evalDigest (by decide)
  rw [denotes_iff, hseed]
  decide +kernel

/-- A header hash, as the pool sends it. -/
def headerTextOne : String :=
  "0x0102030405060708090a0b0c0d0e0f101112131415161718191a1b1c1d1e1f20"

lemma denotes_headerTextOne : Denotes (utf8 headerTextOne) (countingHash 1) := by
  rw [denotes_iff]
  decide +kernel

/-- A `mining.notify` with four parameters, for epoch 1. -/
def fullNotify : Json :=
  .object [("id", .null), ("method", .string "mining.notify"),
    ("params", .array [.string "2f", .string seedTextOne, .string headerTextOne, .boolean true])]

/-- A `mining.notify` whose job id is a number. -/
def untypedNotify : Json :=
  .object [("method", .string "mining.notify"),
    ("params", .array [.integer 1, .string seedTextOne, .string headerTextOne])]

/-- A job of epoch 1 is installed, and one with a number for its id changes nothing. -/
theorem processNotification_announced_full :
    (∃ c', processNotification zeroJob idleClient fullNotify =
        some (c', some (.onJob c'.currentJob)) ∧
      c'.currentJob.jobId = "2f" ∧ c'.currentJob.seedHash = seedIterate 1 ∧
      c'.currentJob.headerHash = countingHash 1 ∧
      seedIterate c'.currentJob.epoch.toNat = seedIterate 1) ∧
    processNotification zeroJob idleClient untypedNotify = some (idleClient, none) := by
  have hfull : IsNotify fullNotify := rfl
  have huntyped : IsNotify untypedNotify := rfl
  have htyped : Typed (.array [.string "2f", .string seedTextOne, .string headerTextOne,
      .boolean true]) "2f" seedTextOne headerTextOne := ⟨_, rfl, .inr ⟨true, [], rfl⟩⟩
  constructor
  · obtain ⟨c', hresult, hid, hseed, hheader, hepoch⟩ :=
      (processNotification_announced (c := idleClient) zeroJob hfull rfl rfl).2 _ _ _ htyped _ _
        denotes_seedTextOne denotes_headerTextOne
    refine ⟨c', hresult, hid, hseed, hheader, ?_⟩
    rcases hepoch with ⟨e, -, hiterate, hnumber⟩ | ⟨hnone, -⟩
    · rw [hnumber, hiterate]
    · exact absurd rfl (hnone 1 (by decide))
  · refine (processNotification_announced (c := idleClient) zeroJob huntyped rfl rfl).1 ?_
    rintro jobId seedText headerText ⟨rest, hparams, -⟩
    simp at hparams

/-- A text of bytes below 128. -/
def asciiText (bytes : List Byte) : String := String.ofList (bytes.map fun b => Char.ofNat b.toNat)

lemma utf8_asciiText {bytes : List Byte} (h : ∀ b ∈ bytes, b.toNat < 128) :
    utf8 (asciiText bytes) = bytes := by
  have hchar : ∀ b : Byte, b.toNat < 128 →
      (String.utf8EncodeChar (Char.ofNat b.toNat)).map UInt8.toBitVec = [b] := by decide
  have hbytes : utf8 (asciiText bytes) =
      bytes.flatMap fun b => (String.utf8EncodeChar (Char.ofNat b.toNat)).map UInt8.toBitVec := by
    simp [utf8, asciiText, List.utf8Encode, List.map_flatMap, List.flatMap_map]
  rw [hbytes]
  have hsingle : ∀ b ∈ bytes,
      (String.utf8EncodeChar (Char.ofNat b.toNat)).map UInt8.toBitVec = [b] :=
    fun b hb => hchar b (h b hb)
  rw [List.flatMap_congr hsingle, List.flatMap_singleton']

/-- A hash for every number below `2 ^ 16`. -/
def numberedHash (k : ℕ) : Hash32 :=
  Vector.ofFn fun i => if i.1 = 0 then BitVec.ofNat 8 k else BitVec.ofNat 8 (k / 256)

lemma numberedHash_inj {i j : ℕ} (hi : i < maxEpochScan + 1) (hj : j < maxEpochScan + 1)
    (h : numberedHash i = numberedHash j) : i = j := by
  have hscan : maxEpochScan = 2000 := rfl
  have hlow : BitVec.ofNat 8 i = BitVec.ofNat 8 j := by
    simpa [numberedHash] using congrArg (fun hash : Hash32 => hash[0]) h
  have hhigh : BitVec.ofNat 8 (i / 256) = BitVec.ofNat 8 (j / 256) := by
    simpa [numberedHash] using congrArg (fun hash : Hash32 => hash[1]) h
  have hlowNat := congrArg BitVec.toNat hlow
  have hhighNat := congrArg BitVec.toNat hhigh
  simp only [BitVec.toNat_ofNat] at hlowNat hhighNat
  omega

/-- There are more hashes than epochs. -/
lemma exists_unknown_seedHash :
    ∃ seedHash : Hash32, ∀ e < maxEpochScan, seedIterate e ≠ seedHash := by
  by_contra hall
  have hepoch : ∀ seedHash : Hash32, ∃ e : Fin maxEpochScan, seedIterate e.1 = seedHash := by
    intro seedHash
    by_contra hnone
    exact hall ⟨seedHash, fun e he heq => hnone ⟨⟨e, he⟩, heq⟩⟩
  choose epoch hiterate using hepoch
  obtain ⟨i, j, hne, heq⟩ := Fintype.exists_ne_map_eq_of_card_lt
    (fun k : Fin (maxEpochScan + 1) => epoch (numberedHash k)) (by simp)
  have hnumbered : numberedHash i = numberedHash j := by
    rw [← hiterate (numberedHash i), heq, hiterate (numberedHash j)]
  exact hne (Fin.ext (numberedHash_inj i.2 j.2 hnumbered))

/-- **Messages that are not handled**: a header that is not hexadecimal is installed and passed on,
and so is a job whose seed hash is not known. -/
theorem not_handled_zz :
    ¬ Handled idleClient (notifyMessage "1" "0x0" "zz")
        (processNotification zeroJob idleClient (notifyMessage "1" "0x0" "zz")) ∧
      ∃ seedText : String, (∃ seedHash : Hash32, Denotes (utf8 seedText) seedHash ∧
          ∀ e < maxEpochScan, seedIterate e ≠ seedHash) ∧
        ¬ Handled idleClient (notifyMessage "1" seedText "0x0")
          (processNotification zeroJob idleClient (notifyMessage "1" seedText "0x0")) := by
  constructor
  · rw [handled_iff_decodes (isNotify_notifyMessage _ _ _) rfl]
    rintro ⟨params, hparams, hdecodes⟩
    obtain rfl := Option.some.inj hparams
    obtain ⟨-, headerHash, -, hheader, -⟩ := hdecodes _ _ _ (typed_notifyMessage "1" "0x0" "zz")
    have hnumber := ((denotes_iff _ _).mp hheader).2
    exact absurd (hnumber.symm.trans (by decide : _ = none)) (by simp)
  · obtain ⟨seedHash, hunknown⟩ := exists_unknown_seedHash
    have hascii := toNat_hash32ToHex_lt seedHash true
    have hseed : Denotes (utf8 (asciiText (hash32ToHex seedHash true))) seedHash := by
      rw [utf8_asciiText hascii]
      exact denotes_hash32ToHex seedHash true
    refine ⟨_, ⟨seedHash, hseed, hunknown⟩, ?_⟩
    rw [handled_iff_decodes (isNotify_notifyMessage _ _ _) rfl]
    rintro ⟨params, hparams, hdecodes⟩
    obtain rfl := Option.some.inj hparams
    obtain ⟨seedHash', -, hseed', -, e, he, hiterate⟩ := hdecodes _ _ _ (typed_notifyMessage _ _ _)
    rw [← hseed.eq hseed'] at hiterate
    exact hunknown e he hiterate

end OhMyMiner.Stratum
