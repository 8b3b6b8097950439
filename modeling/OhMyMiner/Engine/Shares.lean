/-
# Where a share comes from

A `mining.submit` is put together from three places: the job id of the loop, the header of the
client and the nonce and mix hash that the search has read back.  The client and the engine get
their job from the same `mining.notify`, and the loop searches and submits before it reads the
next message; so the parts of a share belong together.
-/
import OhMyMiner.Engine.Nonces

namespace OhMyMiner.Engine

open Lib Search

/-! ## The announcements -/

/-- The job of a `mining.notify`. -/
def Notification.announced : Notification → Option MiningJob
  | .job delivered _ => some delivered
  | .difficulty _ => none

/-- The jobs announced in a poll. -/
def Poll.announced : Poll → List MiningJob
  | .messages notifications => notifications.filterMap Notification.announced
  | .closed => []

/-- The jobs announced in an iteration. -/
def Tick.announced {cfg : KernelEnvConfig} (tick : Tick cfg) : List MiningJob :=
  (tick.poll.map Poll.announced).getD []

namespace MiningEngine

variable {cfg : KernelEnvConfig} {debugTarget : Option Hash32} {s : MiningEngine}
  {jobs : List MiningJob}

/-- What the client and the engine hold comes from one announcement, which `jobs` lists. -/
def Holds (s : MiningEngine) (jobs : List MiningJob) : Prop :=
  s.hasJob = true → ∃ job ∈ jobs, s.currentJob = job ∧ s.clientJob.jobId = job.jobId ∧
    s.clientJob.headerHash = job.headerHash

/-- **Every message leaves the client and the engine with the same announcement.** -/
lemma Holds.processNotification (h : s.Holds jobs) (notification : Notification) :
    (s.processNotification debugTarget notification).Holds
      (jobs ++ notification.announced.toList) := by
  cases notification with
  | difficulty difficulty =>
    intro hjob
    obtain ⟨job, hmem, hcurrent, hid, hheader⟩ := h hjob
    exact ⟨job, List.mem_append_left _ hmem, hcurrent, hid, hheader⟩
  | job job dagReady =>
    have hmem : job ∈ jobs ++ (Notification.job job dagReady).announced.toList := by
      simp [Notification.announced]
    rw [MiningEngine.processNotification, onJobReceived]
    dsimp only
    split_ifs
    · exact fun _ => ⟨job, hmem, rfl, rfl, rfl⟩
    · exact fun hjob => absurd hjob Bool.false_ne_true
    · exact fun _ => ⟨job, hmem, rfl, rfl, rfl⟩

lemma Holds.processMessages (h : s.Holds jobs) (poll : Option Poll) :
    (s.processMessages debugTarget poll).Holds (jobs ++ (poll.map Poll.announced).getD []) := by
  rcases poll with _ | ⟨notifications⟩ | _
  · show s.Holds (jobs ++ [])
    rwa [List.append_nil]
  · show (notifications.foldl (MiningEngine.processNotification debugTarget) s).Holds
      (jobs ++ notifications.filterMap Notification.announced)
    induction notifications generalizing s jobs with
    | nil => simpa using h
    | cons notification notifications ih =>
      have hrest := ih (s := s.processNotification debugTarget notification)
        (h.processNotification notification)
      rw [List.append_assoc] at hrest
      cases hannounced : notification.announced with
      | none =>
        rw [hannounced] at hrest
        rwa [List.filterMap_cons_none hannounced]
      | some job =>
        rw [hannounced] at hrest
        rwa [List.filterMap_cons_some hannounced]
  · show s.Holds (jobs ++ [])
    rwa [List.append_nil]

/-! ## The shares of an iteration -/

/-- The share that a solution of the loop makes. -/
def share (s : MiningEngine) (jobId : String) (solution : Solution) : Share :=
  { jobId := s.submitJobId jobId, nonce := solution.nonce, headerHash := s.clientJob.headerHash,
    mixHash := solution.mixHash }

lemma shares_processSolution (s : MiningEngine) (solution : Solution) (jobId : String)
    (outcome : SubmitOutcome) :
    ∀ share ∈ (s.processSolution solution jobId outcome).shares,
      share ∈ s.shares ∨ share = s.share jobId solution := by
  intro share hmem
  cases hconnected : s.connected with
  | false =>
    simp only [processSolution, submitSolution, hconnected, Bool.not_false, if_true] at hmem
    exact Or.inl hmem
  | true =>
    cases outcome with
    | unsent =>
      simp only [processSolution, submitSolution, hconnected, Bool.not_true, Bool.false_eq_true,
        if_false] at hmem
      exact Or.inl hmem
    | closed | accepted | rejected =>
      simp only [processSolution, submitSolution, hconnected, Bool.not_true, Bool.false_eq_true,
        if_false, List.mem_append, List.mem_singleton] at hmem
      exact hmem

/-- Submitting does not touch the job of the client. -/
lemma shares_processSolutions (jobId : String) (solutions : List Solution)
    (submits : ℕ → SubmitOutcome) (s : MiningEngine) :
    ∀ share ∈ (processSolutions jobId solutions submits s).shares,
      share ∈ s.shares ∨ ∃ solution ∈ solutions, share = s.share jobId solution := by
  induction solutions generalizing submits s with
  | nil => exact fun share hmem => Or.inl hmem
  | cons solution solutions ih =>
    intro share hmem
    obtain ⟨sent, hone, -⟩ := submits_processSolution s solution jobId (submits 0)
    rcases ih _ _ share hmem with hold | ⟨solution', hsolution, hshare⟩
    · rcases shares_processSolution s solution jobId (submits 0) share hold with hold | hnew
      · exact Or.inl hold
      · exact Or.inr ⟨solution, List.mem_cons_self, hnew⟩
    · refine Or.inr ⟨solution', List.mem_cons_of_mem _ hsolution, ?_⟩
      rw [hshare, hone]
      rfl

/-- What is read back are hits that the kernel has stored. -/
lemma mem_searchSync {pipelineInitialized : Bool} {call : SearchCall} {hits : List Hit}
    {solution : Solution} (h : solution ∈ searchSync pipelineInitialized call hits) :
    pipelineInitialized = true ∧ ∃ hit ∈ hits.take maxSolutions,
      solution.nonce = (call.deviceSolution hit).nonce ∧
        solution.mixHash = (call.deviceSolution hit).mixHash := by
  cases pipelineInitialized with
  | false => exact absurd h List.not_mem_nil
  | true =>
    simp only [searchSync, Bool.not_true, Bool.false_eq_true, if_false] at h
    rw [← List.map_take, List.map_map] at h
    obtain ⟨hit, hhit, rfl⟩ := List.mem_map.mp h
    exact ⟨rfl, hit, hhit, rfl, rfl⟩

/-! ## Whole runs -/

/-- An iteration that comes after the iterations `before` and that launches a search of this job:
`call` is the search. -/
structure Launches (debugTarget : Option Hash32) (start : MiningEngine) (before : List (Tick cfg))
    (tick : Tick cfg) (job : MiningJob) (call : SearchCall) : Prop where
  announced : job ∈ (before ++ [tick]).flatMap Tick.announced
  launched : ∃ s, Run (Step cfg debugTarget) start before s ∧
    (s.processMessages debugTarget tick.poll).ready = true ∧
    (s.processMessages debugTarget tick.poll).pipelineInitialized = true ∧
    (s.processMessages debugTarget tick.poll).searchCall = call
  headerHash : call.headerHash = job.headerHash
  seedHash : call.seedHash = job.seedHash

/-- The share of something that the search of this iteration has stored. -/
def ShareOf (tick : Tick cfg) (job : MiningJob) (call : SearchCall) (share : Share) : Prop :=
  ∃ hit ∈ tick.outcome.hits.take maxSolutions,
    share = { jobId := job.jobId, nonce := (call.deviceSolution hit).nonce,
              headerHash := job.headerHash, mixHash := (call.deviceSolution hit).mixHash }

/-- What an iteration adds to the shares. -/
lemma Holds.iterate {start : MiningEngine} {before : List (Tick cfg)}
    (hrun : Run (Step cfg debugTarget) start before s)
    (h : s.Holds (before.flatMap Tick.announced)) (hshares : s.Consistent) (tick : Tick cfg) :
    (s.iterate debugTarget tick).Holds ((before ++ [tick]).flatMap Tick.announced) ∧
      ∀ share ∈ (s.iterate debugTarget tick).shares, share ∈ s.shares ∨
        ∃ job call, Launches debugTarget start before tick job call ∧
          ShareOf tick job call share := by
  obtain ⟨hconsistent, -, hrecord⟩ := processMessages_spec debugTarget hshares tick.poll
  have hholds : (s.processMessages debugTarget tick.poll).Holds
      ((before ++ [tick]).flatMap Tick.announced) := by
    rw [List.flatMap_append, List.flatMap_singleton]
    exact h.processMessages tick.poll
  cases hready : (s.processMessages debugTarget tick.poll).ready with
  | false =>
    rw [iterate_of_not_ready hready, hrecord]
    exact ⟨hholds, fun share hmem => Or.inl hmem⟩
  | true =>
    have hiterate : s.iterate debugTarget tick =
        (s.processMessages debugTarget tick.poll).mineBatch tick.outcome.hits tick.submits := by
      rw [MiningEngine.iterate, hready]
      rfl
    obtain ⟨job, hmem, hcurrent, hid, hheader⟩ := hholds (Bool.and_eq_true _ _ ▸ hready).1
    rw [hiterate, mineBatch]
    constructor
    · obtain ⟨sent, heq, -⟩ := submits_processSolutions
        (s.processMessages debugTarget tick.poll).currentJob.jobId _ tick.submits _
      rw [heq]
      exact hholds
    · intro share hshare
      rcases shares_processSolutions _ _ _ _ share hshare with hold | ⟨solution, hsolution, rfl⟩
      · exact Or.inl (hrecord ▸ hold)
      obtain ⟨hpipeline, hit, hhit, hnonce, hmix⟩ := mem_searchSync hsolution
      refine Or.inr ⟨job, _, ⟨hmem, ⟨s, hrun, hready, hpipeline, rfl⟩, ?_, ?_⟩, hit, hhit, ?_⟩
      · rw [← hcurrent]
        rfl
      · rw [← hcurrent]
        rfl
      · -- an empty job id is replaced by that of the client, which is the same
        have hsubmit : (s.processMessages debugTarget tick.poll).submitJobId
            (s.processMessages debugTarget tick.poll).currentJob.jobId = job.jobId := by
          rw [submitJobId, hcurrent, hid, ite_id]
        rw [← hnonce, ← hmix, ← hheader, ← hsubmit]
        rfl

/-- **The parts of a share belong together.**  In every run of the loop, every share that is sent
has the job id and the header of one `mining.notify`, and a nonce and a mix hash that were stored
by a search launched on the header and the seed hash of that `mining.notify`. -/
theorem run_shares {clientJob currentJob : MiningJob} {ticks : List (Tick cfg)}
    (hrun : Run (Step cfg debugTarget) (initial clientJob currentJob) ticks s) :
    ∀ share ∈ s.shares, ∃ before tick after, ticks = before ++ tick :: after ∧
      ∃ job call, Launches debugTarget (initial clientJob currentJob) before tick job call ∧
        ShareOf tick job call share := by
  suffices hinv : s.Holds (ticks.flatMap Tick.announced) ∧ s.Consistent ∧
      ∀ share ∈ s.shares, ∃ before tick after, ticks = before ++ tick :: after ∧
        ∃ job call, Launches debugTarget (initial clientJob currentJob) before tick job call ∧
          ShareOf tick job call share from hinv.2.2
  induction hrun with
  | refl =>
    exact ⟨fun hjob => absurd hjob Bool.false_ne_true, consistent_initial _ _,
      fun share hmem => absurd hmem List.not_mem_nil⟩
  | @snoc t u ticks tick hinit hstep ih =>
    obtain ⟨-, rfl⟩ := hstep
    obtain ⟨hholds, hconsistent, hshares⟩ := ih
    obtain ⟨hnext, hnew⟩ := hholds.iterate hinit hconsistent tick
    refine ⟨hnext, hconsistent.iterate debugTarget tick, ?_⟩
    intro share hmem
    rcases hnew share hmem with hold | hlaunch
    · obtain ⟨before, tick', after, rfl, hlaunch⟩ := hshares share hold
      exact ⟨before, tick', after ++ [tick], by simp, hlaunch⟩
    · exact ⟨ticks, tick, [], rfl, hlaunch⟩

/-- The share of a first job. -/
theorem run_shares_first :
    ∃ s, Run (Step baseConfig none) (initial announcedJob announcedJob)
        [⟨some (.messages [.difficulty 1, .job announcedJob true]), firstNonce,
          fun _ => .accepted⟩] s ∧
      s.shares.map Share.key = [("1", 0)] ∧
      ∀ share ∈ s.shares, ∃ job : MiningJob, job.jobId = share.jobId ∧
        job.headerHash = share.headerHash := by
  have hrun : Run (Step baseConfig none) (initial announcedJob announcedJob)
      [⟨some (.messages [.difficulty 1, .job announcedJob true]), firstNonce,
        fun _ => .accepted⟩] _ := .snoc (l := []) (.refl _) ⟨rfl, rfl⟩
  refine ⟨_, hrun, rfl, fun share hmem => ?_⟩
  obtain ⟨before, tick, after, -, job, call, -, hit, -, rfl⟩ := run_shares hrun share hmem
  exact ⟨job, rfl, rfl⟩

end MiningEngine

end OhMyMiner.Engine
