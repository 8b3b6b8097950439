/-
# The nonces that are searched

Every search of the loop starts at nonce 0, so that two searches of one header repeat each other,
and the share of a job that is found again is sent again.  Over whole runs: the ranges of one
header are disjoint as long as no header is searched twice, and no longer; and if no job is
searched twice either, no share is sent twice.
-/
import OhMyMiner.Engine.Run
import OhMyMiner.Lib.Transition

namespace OhMyMiner.Engine

open Lib Search

/-! ## The grid -/

section Grid

variable {cfg : KernelEnvConfig}

lemma le_blockNonces {threadsPerBlock noncesPerThread : ℕ} (ht : 0 < threadsPerBlock)
    (hn : 0 < noncesPerThread) (searchCount : ℕ) :
    searchCount ≤ blockNonces threadsPerBlock noncesPerThread searchCount := by
  have hceil : ∀ a b : ℕ, 0 < b → a ≤ (a + b - 1) / b * b := by
    intro a b hb
    have hmod := Nat.mod_lt (a + b - 1) hb
    have hdiv := Nat.div_add_mod' (a + b - 1) b
    omega
  exact (hceil searchCount _ hn).trans (Nat.mul_le_mul_right _ (hceil _ _ ht))

lemma blockNonces_le (threadsPerBlock noncesPerThread searchCount : ℕ) :
    blockNonces threadsPerBlock noncesPerThread searchCount ≤
      searchCount + noncesPerThread + threadsPerBlock * noncesPerThread := by
  have hthreads : (searchCount + noncesPerThread - 1) / noncesPerThread * noncesPerThread ≤
      searchCount + noncesPerThread - 1 := Nat.div_mul_le_self _ _
  set totalThreads := (searchCount + noncesPerThread - 1) / noncesPerThread with htotal
  have hblocks : (totalThreads + threadsPerBlock - 1) / threadsPerBlock * threadsPerBlock ≤
      totalThreads + threadsPerBlock - 1 := Nat.div_mul_le_self _ _
  calc blockNonces threadsPerBlock noncesPerThread searchCount
      ≤ (totalThreads + threadsPerBlock) * noncesPerThread :=
        Nat.mul_le_mul_right _ (hblocks.trans (Nat.sub_le _ _))
    _ = totalThreads * noncesPerThread + threadsPerBlock * noncesPerThread := Nat.add_mul _ _ _
    _ ≤ searchCount + noncesPerThread + threadsPerBlock * noncesPerThread := by omega

/-- Every nonce of the batch is searched. -/
lemma le_gridNonces (cfg : KernelEnvConfig) (searchCount : ℕ) :
    searchCount ≤ gridNonces cfg searchCount := by
  rw [gridNonces]
  split_ifs
  · exact le_blockNonces (by norm_num) cfg.noncesPerThread_pos _
  · exact le_blockNonces (by norm_num) one_pos _

/-- The nonces of a batch do not wrap around. -/
lemma gridNonces_lt (cfg : KernelEnvConfig) : gridNonces cfg searchRange < 2 ^ 64 := by
  have hn := cfg.noncesPerThread_le
  rw [gridNonces, searchRange]
  split_ifs
  · refine (blockNonces_le _ _ _).trans_lt ?_
    omega
  · exact (blockNonces_le _ _ _).trans_lt (by norm_num)

/-- The indices of a batch have different nonces. -/
lemma SearchCall.nonce_injective (call : SearchCall) {i j : ℕ}
    (hi : i < gridNonces cfg searchRange) (hj : j < gridNonces cfg searchRange)
    (h : call.nonce i = call.nonce j) : i = j := by
  have hlt := gridNonces_lt cfg
  have hnat := congrArg BitVec.toNat ((BitVec.add_right_inj call.startNonce).mp h)
  rwa [BitVec.toNat_ofNat, BitVec.toNat_ofNat, Nat.mod_eq_of_lt (by omega),
    Nat.mod_eq_of_lt (by omega)] at hnat

/-- A batch contains the nonce at which it starts. -/
lemma SearchCall.startNonce_mem_range (cfg : KernelEnvConfig) {call : SearchCall}
    (h : call.count = searchRange) : call.startNonce ∈ call.range cfg := by
  refine ⟨0, ?_, ?_⟩
  · rw [h]
    exact lt_of_lt_of_le (by decide) (le_gridNonces cfg searchRange)
  · exact (BitVec.add_zero _).symm

/-- The nonces that are read back are nonces of different hits. -/
lemma searchSync_sublist (pipelineInitialized : Bool) (call : SearchCall) (hits : List Hit) :
    ((searchSync pipelineInitialized call hits).map Solution.nonce).Sublist
      (hits.map fun hit => call.nonce hit.index) := by
  cases pipelineInitialized with
  | false => exact List.nil_sublist _
  | true =>
    have hnonces : (searchSync true call hits).map Solution.nonce =
        (hits.map fun hit => call.nonce hit.index).take maxSolutions := by
      simp only [searchSync, Bool.not_true, Bool.false_eq_true, if_false, List.map_take,
        List.map_map]
      rfl
    rw [hnonces]
    exact List.take_sublist _ _

lemma nodup_searchSync (pipelineInitialized : Bool) (call : SearchCall)
    (outcome : SearchOutcome cfg searchRange) :
    ((searchSync pipelineInitialized call outcome.hits).map Solution.nonce).Nodup := by
  refine .sublist (searchSync_sublist _ _ _) ?_
  have hmap : (outcome.hits.map fun hit => call.nonce hit.index) =
      (outcome.hits.map Hit.index).map call.nonce := by
    rw [List.map_map]
    rfl
  rw [hmap]
  refine outcome.distinct.map_on ?_
  intro i hi j hj heq
  obtain ⟨hit, hhit, rfl⟩ := List.mem_map.mp hi
  obtain ⟨hit', hhit', rfl⟩ := List.mem_map.mp hj
  exact call.nonce_injective (outcome.bounded hit hhit) (outcome.bounded hit' hhit') heq

end Grid

/-! ## What should hold -/

/-- The share as the pool counts it. -/
def Share.key (share : Share) : String × BitVec 64 := (share.jobId, share.nonce)

namespace MiningEngine

/-- The nonce ranges of two searches of one header are disjoint. -/
def RangesDisjoint (cfg : KernelEnvConfig) (s : MiningEngine) : Prop :=
  s.searches.Pairwise fun a b =>
    a.2.headerHash = b.2.headerHash → ∀ nonce ∈ a.2.range cfg, nonce ∉ b.2.range cfg

/-- No share is sent twice. -/
def SharesDistinct (s : MiningEngine) : Prop := (s.shares.map Share.key).Nodup

variable {cfg : KernelEnvConfig} {debugTarget : Option Hash32}

/-- The iteration does not search a header that has been searched before. -/
def FreshHeader (debugTarget : Option Hash32) (s : MiningEngine) (tick : Tick cfg) : Prop :=
  (s.processMessages debugTarget tick.poll).ready = true →
    ∀ search ∈ s.searches,
      search.2.headerHash ≠ (s.processMessages debugTarget tick.poll).currentJob.headerHash

/-- The iteration does not search a job that has been searched before. -/
def FreshJob (debugTarget : Option Hash32) (s : MiningEngine) (tick : Tick cfg) : Prop :=
  (s.processMessages debugTarget tick.poll).ready = true →
    ∀ search ∈ s.searches,
      search.1 ≠ (s.processMessages debugTarget tick.poll).currentJob.jobId

/-! ## One iteration -/

/-- What every iteration keeps. -/
structure Consistent (s : MiningEngine) : Prop where
  calls : ∀ search ∈ s.searches, search.2.startNonce = 0 ∧ search.2.count = searchRange
  clientJob : s.hasJob = true → s.clientJob.jobId = s.currentJob.jobId
  shares : ∀ share ∈ s.shares, share.jobId ∈ s.searches.map Prod.fst

lemma consistent_initial (clientJob currentJob : MiningJob) :
    Consistent (initial clientJob currentJob) where
  calls := fun _ h => absurd h List.not_mem_nil
  clientJob := fun h => absurd h Bool.false_ne_true
  shares := fun _ h => absurd h List.not_mem_nil

/-- The records of two states agree. -/
def SameRecord (s t : MiningEngine) : Prop := t.searches = s.searches ∧ t.shares = s.shares

lemma processNotification_spec (debugTarget : Option Hash32) {s : MiningEngine}
    (h : s.Consistent) (notification : Notification) :
    (s.processNotification debugTarget notification).Consistent ∧
      SameRecord s (s.processNotification debugTarget notification) := by
  cases notification with
  | difficulty difficulty => exact ⟨⟨h.calls, h.clientJob, h.shares⟩, rfl, rfl⟩
  | job job dagReady =>
    rw [processNotification, onJobReceived]
    dsimp only
    split_ifs
    · exact ⟨⟨h.calls, fun _ => rfl, h.shares⟩, rfl, rfl⟩
    · exact ⟨⟨h.calls, fun _ => rfl, h.shares⟩, rfl, rfl⟩
    · exact ⟨⟨h.calls, fun _ => rfl, h.shares⟩, rfl, rfl⟩

lemma processMessages_spec (debugTarget : Option Hash32) {s : MiningEngine} (h : s.Consistent)
    (poll : Option Poll) :
    (s.processMessages debugTarget poll).Consistent ∧
      SameRecord s (s.processMessages debugTarget poll) := by
  rcases poll with _ | ⟨notifications⟩ | _
  · exact ⟨h, rfl, rfl⟩
  · show (notifications.foldl (processNotification debugTarget) s).Consistent ∧
      SameRecord s (notifications.foldl (processNotification debugTarget) s)
    induction notifications generalizing s with
    | nil => exact ⟨h, rfl, rfl⟩
    | cons notification notifications ih =>
      obtain ⟨hone, hsearches, hshares⟩ :=
        processNotification_spec debugTarget h notification
      obtain ⟨hall, hsearches', hshares'⟩ := ih hone
      exact ⟨hall, hsearches'.trans hsearches, hshares'.trans hshares⟩
  · exact ⟨⟨h.calls, h.clientJob, h.shares⟩, rfl, rfl⟩

/-- Of the state, `processSolutions` changes the counters, the connection and the record of
shares; what it adds to the record are solutions, in order, under the job id of the submit. -/
def Submits (jobId : String) (solutions : List Solution) (s t : MiningEngine) : Prop :=
  ∃ sent : List Share,
    t = { s with connected := t.connected, acceptedShares := t.acceptedShares,
                 rejectedShares := t.rejectedShares, shares := s.shares ++ sent } ∧
      (sent.map Share.key).Sublist
        (solutions.map fun solution => (s.submitJobId jobId, solution.nonce))

lemma submits_processSolution (s : MiningEngine) (solution : Solution) (jobId : String)
    (outcome : SubmitOutcome) :
    Submits jobId [solution] s (s.processSolution solution jobId outcome) := by
  cases hconnected : s.connected with
  | false =>
    refine ⟨[], ?_, List.nil_sublist _⟩
    simp [processSolution, submitSolution, hconnected]
  | true =>
    -- a share is sent unless the socket refuses it
    cases outcome with
    | unsent =>
      refine ⟨[], ?_, List.nil_sublist _⟩
      simp [processSolution, submitSolution, hconnected]
    | closed | accepted | rejected =>
      refine ⟨[{ jobId := s.submitJobId jobId, nonce := solution.nonce,
                 headerHash := s.clientJob.headerHash, mixHash := solution.mixHash }], ?_,
        List.Sublist.refl _⟩
      simp [processSolution, submitSolution, hconnected]

lemma submits_processSolutions (jobId : String) (solutions : List Solution)
    (submits : ℕ → SubmitOutcome) (s : MiningEngine) :
    Submits jobId solutions s (processSolutions jobId solutions submits s) := by
  induction solutions generalizing submits s with
  | nil => exact ⟨[], by simp [processSolutions], List.nil_sublist _⟩
  | cons solution solutions ih =>
    obtain ⟨sent, hone, hsent⟩ := submits_processSolution s solution jobId (submits 0)
    obtain ⟨sent', hrest, hsent'⟩ :=
      ih (fun i => submits (i + 1)) (s.processSolution solution jobId (submits 0))
    refine ⟨sent ++ sent', ?_, ?_⟩
    · rw [processSolutions, hrest, hone, List.append_assoc]
    · rw [hone] at hsent'
      rw [List.map_append]
      exact hsent.append hsent'

/-- An iteration that waits changes nothing on record. -/
lemma iterate_of_not_ready {s : MiningEngine} {tick : Tick cfg}
    (hready : (s.processMessages debugTarget tick.poll).ready = false) :
    s.iterate debugTarget tick = s.processMessages debugTarget tick.poll := by
  rw [iterate, hready]
  rfl

/-- An iteration that searches adds the call to the record, and shares with different nonces under
the id of the job. -/
lemma iterate_of_ready {s : MiningEngine} (h : s.Consistent) {tick : Tick cfg}
    (hready : (s.processMessages debugTarget tick.poll).ready = true) :
    (s.iterate debugTarget tick).Consistent ∧
      (s.iterate debugTarget tick).searches = s.searches ++
        [((s.processMessages debugTarget tick.poll).currentJob.jobId,
          (s.processMessages debugTarget tick.poll).searchCall)] ∧
      ∃ sent : List Share, (s.iterate debugTarget tick).shares = s.shares ++ sent ∧
        (sent.map Share.key).Nodup ∧
        ∀ share ∈ sent,
          share.jobId = (s.processMessages debugTarget tick.poll).currentJob.jobId := by
  obtain ⟨hp, hsearches, hshares⟩ := processMessages_spec debugTarget h tick.poll
  have hiterate : s.iterate debugTarget tick =
      (s.processMessages debugTarget tick.poll).mineBatch tick.outcome.hits tick.submits := by
    rw [iterate, hready]
    rfl
  rw [hiterate]
  generalize s.processMessages debugTarget tick.poll = p at *
  have hjob : p.hasJob = true := (Bool.and_eq_true _ _ ▸ hready).1
  obtain ⟨sent, heq, hsent⟩ := submits_processSolutions p.currentJob.jobId
    (searchSync p.pipelineInitialized p.searchCall tick.outcome.hits) tick.submits
    { p with searches := p.searches ++ [(p.currentJob.jobId, p.searchCall)] }
  have hid : p.submitJobId p.currentJob.jobId = p.currentJob.jobId := by
    rw [submitJobId, hp.clientJob hjob, ite_id]
  have hkeys : (sent.map Share.key).Sublist
      ((searchSync p.pipelineInitialized p.searchCall tick.outcome.hits).map fun solution =>
        (p.currentJob.jobId, solution.nonce)) := by
    rw [← hid]
    exact hsent
  have hsentId : ∀ share ∈ sent, share.jobId = p.currentJob.jobId := by
    intro share hshare
    obtain ⟨solution, -, hkey⟩ := List.mem_map.mp (hkeys.subset (List.mem_map_of_mem hshare))
    exact (congrArg Prod.fst hkey).symm
  rw [mineBatch, heq]
  refine ⟨⟨?_, hp.clientJob, ?_⟩, ?_, sent, ?_, ?_, hsentId⟩
  · intro search hmem
    rcases List.mem_append.mp hmem with hold | hnew
    · exact hp.calls search hold
    · obtain rfl := List.mem_singleton.mp hnew
      exact ⟨rfl, rfl⟩
  · intro share hmem
    rw [List.map_append, List.mem_append]
    rcases List.mem_append.mp hmem with hold | hnew
    · exact Or.inl (hp.shares share hold)
    · exact Or.inr (List.mem_singleton.mpr (hsentId share hnew))
  · show p.searches ++ _ = _
    rw [hsearches]
  · show p.shares ++ sent = _
    rw [hshares]
  · refine .sublist hkeys ?_
    have hpair : ((searchSync p.pipelineInitialized p.searchCall tick.outcome.hits).map
        fun solution => (p.currentJob.jobId, solution.nonce)) =
          ((searchSync p.pipelineInitialized p.searchCall tick.outcome.hits).map
            Solution.nonce).map (Prod.mk p.currentJob.jobId) := by
      rw [List.map_map]
      rfl
    rw [hpair]
    exact (nodup_searchSync _ _ _).map (Prod.mk_right_injective _)

lemma Consistent.iterate {s : MiningEngine} (h : s.Consistent) (debugTarget : Option Hash32)
    (tick : Tick cfg) : (s.iterate debugTarget tick).Consistent := by
  cases hready : (s.processMessages debugTarget tick.poll).ready with
  | false =>
    rw [iterate_of_not_ready hready]
    exact (processMessages_spec debugTarget h tick.poll).1
  | true => exact (iterate_of_ready h hready).1

/-! ## Whole runs -/

/-- The headers searched, in order. -/
def searchedHeaders (s : MiningEngine) : List Hash32 :=
  s.searches.map fun search => search.2.headerHash

/-- All searches start at the same nonce, so that only different headers keep them apart. -/
lemma rangesDisjoint_iff {s : MiningEngine} (h : s.Consistent) :
    s.RangesDisjoint cfg ↔ s.searchedHeaders.Nodup := by
  rw [RangesDisjoint, searchedHeaders, List.Nodup, List.pairwise_map]
  have hstart : ∀ search ∈ s.searches, (0 : BitVec 64) ∈ search.2.range cfg := by
    intro search hmem
    obtain ⟨hzero, hcount⟩ := h.calls search hmem
    rw [← hzero]
    exact SearchCall.startNonce_mem_range cfg hcount
  constructor
  · intro hdisjoint
    refine hdisjoint.imp_of_mem ?_
    intro a b ha hb hab heq
    exact hab heq 0 (hstart a ha) (hstart b hb)
  · intro hne
    exact hne.imp fun hab heq => absurd heq hab

/-- A header is new if and only if the searched headers stay different. -/
lemma nodup_searchedHeaders_iterate {s : MiningEngine} (h : s.Consistent)
    (hnodup : s.searchedHeaders.Nodup) (tick : Tick cfg) :
    (s.iterate debugTarget tick).searchedHeaders.Nodup ↔ FreshHeader debugTarget s tick := by
  cases hready : (s.processMessages debugTarget tick.poll).ready with
  | false =>
    rw [iterate_of_not_ready hready, searchedHeaders,
      (processMessages_spec debugTarget h tick.poll).2.1]
    exact ⟨fun _ hsearch => absurd (hready.symm.trans hsearch) Bool.false_ne_true,
      fun _ => hnodup⟩
  | true =>
    rw [searchedHeaders, (iterate_of_ready h hready).2.1, List.map_append, List.map_singleton,
      List.nodup_append_comm, List.singleton_append, List.nodup_cons, FreshHeader]
    constructor
    · rintro ⟨hnew, -⟩ - search hmem heq
      exact hnew (List.mem_map.mpr ⟨search, hmem, heq⟩)
    · intro hfresh
      refine ⟨?_, hnodup⟩
      intro hmem
      obtain ⟨search, hsearch, heq⟩ := List.mem_map.mp hmem
      exact hfresh hready search hsearch heq

lemma SharesDistinct.iterate {s : MiningEngine} (h : s.Consistent) (hdistinct : s.SharesDistinct)
    {tick : Tick cfg} (hfresh : FreshJob debugTarget s tick) :
    (s.iterate debugTarget tick).SharesDistinct := by
  cases hready : (s.processMessages debugTarget tick.poll).ready with
  | false =>
    rw [SharesDistinct, iterate_of_not_ready hready,
      (processMessages_spec debugTarget h tick.poll).2.2]
    exact hdistinct
  | true =>
    obtain ⟨-, -, sent, hshares, hnodup, hid⟩ := iterate_of_ready h hready
    rw [SharesDistinct, hshares, List.map_append]
    refine List.nodup_append'.mpr ⟨hdistinct, hnodup, ?_⟩
    -- a share that was sent before belongs to a job that was searched before
    intro key hold hnew
    obtain ⟨share, hshare, rfl⟩ := List.mem_map.mp hold
    obtain ⟨share', hshare', hkey⟩ := List.mem_map.mp hnew
    obtain ⟨search, hsearch, heq⟩ := List.mem_map.mp (h.shares share hshare)
    apply hfresh hready search hsearch
    rw [heq, ← hid share' hshare']
    exact (congrArg Prod.fst hkey).symm

/-- **The ranges of one header are disjoint as long as no header is searched twice.**  The runs
through states in which they are disjoint are the runs that never search a header again.  In a
run that never searches a job again either, no share is sent twice. -/
theorem run_freshHeader_iff (cfg : KernelEnvConfig) (debugTarget : Option Hash32)
    (clientJob currentJob : MiningJob) (ticks : List (Tick cfg)) (s : MiningEngine) :
    (Run (fun s tick t => Step cfg debugTarget s tick t ∧
        FreshHeader debugTarget s tick ∧ FreshJob debugTarget s tick)
        (initial clientJob currentJob) ticks s → s.RangesDisjoint cfg ∧ s.SharesDistinct) ∧
      (Run (fun s tick t => Step cfg debugTarget s tick t ∧ FreshHeader debugTarget s tick)
          (initial clientJob currentJob) ticks s ↔
        Run (fun s tick t => Step cfg debugTarget s tick t ∧ t.RangesDisjoint cfg)
          (initial clientJob currentJob) ticks s) := by
  have hstart : (initial clientJob currentJob).Consistent ∧
      (initial clientJob currentJob).searchedHeaders.Nodup :=
    ⟨consistent_initial clientJob currentJob, List.nodup_nil⟩
  constructor
  · intro hrun
    have hinv := hrun.invariant
      (fun t => (t.Consistent ∧ t.searchedHeaders.Nodup) ∧ t.SharesDistinct)
      ⟨hstart, List.nodup_nil⟩ (by
        rintro t tick u ⟨⟨hcons, hnodup⟩, hdistinct⟩ ⟨⟨-, rfl⟩, hheader, hjob⟩
        exact ⟨⟨hcons.iterate debugTarget tick,
          (nodup_searchedHeaders_iterate hcons hnodup tick).mpr hheader⟩,
          hdistinct.iterate hcons hjob⟩)
    exact ⟨(rangesDisjoint_iff hinv.1.1).mpr hinv.1.2, hinv.2⟩
  · refine Run.congr (fun t => t.Consistent ∧ t.searchedHeaders.Nodup) hstart ?_ ?_
    · rintro t tick u ⟨hcons, hnodup⟩ ⟨⟨-, rfl⟩, hheader⟩
      exact ⟨hcons.iterate debugTarget tick,
        (nodup_searchedHeaders_iterate hcons hnodup tick).mpr hheader⟩
    · rintro t tick u ⟨hcons, hnodup⟩
      refine and_congr_right ?_
      rintro ⟨-, rfl⟩
      rw [rangesDisjoint_iff (hcons.iterate debugTarget tick),
        nodup_searchedHeaders_iterate hcons hnodup tick]

/-! ## A job that is searched twice -/

/-- The job of the next two iterations. -/
def announcedJob : MiningJob :=
  { jobId := "1", seedHash := Vector.replicate 32 0, headerHash := Vector.replicate 32 0,
    target := 0, blockNumber := 0, epoch := 0 }

/-- One nonce a thread. -/
def baseConfig : KernelEnvConfig :=
  { useOptimized := false, noncesPerThread := 1, noncesPerThread_pos := one_pos,
    noncesPerThread_le := by norm_num }

/-- The device accepts the first nonce. -/
def firstNonce : SearchOutcome baseConfig searchRange where
  hits := [{ index := 0, mixHash := Vector.replicate 32 0, result := Vector.replicate 32 0 }]
  distinct := List.nodup_singleton _
  bounded := by
    intro hit hmem
    obtain rfl := List.mem_singleton.mp hmem
    exact lt_of_lt_of_le (by decide) (le_gridNonces baseConfig searchRange)

/-- The pool announces a difficulty and a job, and nothing else before the next iteration. -/
theorem run_not_disjoint :
    ∃ s, Run (Step baseConfig none) (initial announcedJob announcedJob)
        [⟨some (.messages [.difficulty 1, .job announcedJob true]), firstNonce, fun _ => .accepted⟩,
          ⟨none, firstNonce, fun _ => .rejected⟩] s ∧
      s.shares.map Share.key = [("1", 0), ("1", 0)] ∧ ¬ s.RangesDisjoint baseConfig ∧
      ¬ s.SharesDistinct := by
  let first : Tick baseConfig :=
    ⟨some (.messages [.difficulty 1, .job announcedJob true]), firstNonce, fun _ => .accepted⟩
  let second : Tick baseConfig := ⟨none, firstNonce, fun _ => .rejected⟩
  let s₁ := (initial announcedJob announcedJob).iterate none first
  let s₂ := s₁.iterate none second
  have hrun : Run (Step baseConfig none) (initial announcedJob announcedJob) [first, second] s₂ :=
    .snoc (.snoc (.refl _) ⟨rfl, rfl⟩) ⟨rfl, rfl⟩
  have hcons : s₂.Consistent :=
    ((consistent_initial announcedJob announcedJob).iterate none first).iterate none second
  have hkeys : s₂.shares.map Share.key = [("1", 0), ("1", 0)] := rfl
  refine ⟨s₂, hrun, hkeys, ?_, ?_⟩
  · rw [rangesDisjoint_iff hcons]
    exact fun hnodup => (List.nodup_cons.mp hnodup).1 (List.mem_singleton.mpr rfl)
  · rw [SharesDistinct, hkeys]
    exact fun hnodup => (List.nodup_cons.mp hnodup).1 (List.mem_singleton.mpr rfl)

end MiningEngine

end OhMyMiner.Engine
