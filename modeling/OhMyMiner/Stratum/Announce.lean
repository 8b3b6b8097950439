/-
# The header of a submit

`StratumClient::Impl::submitSolution` takes the job id from the solution and the header from the
current job.  Solutions of older jobs can be submitted at any time, so the two belong together
only as long as the last `mining.notify` has the header of the job of the solution.
-/
import OhMyMiner.Lib.Transition
import OhMyMiner.Stratum.Notify

namespace OhMyMiner.Stratum

open Lib Utils

/-! ## The code -/

/-- The parameters of a `mining.submit`. -/
structure SubmitParams where
  worker : String
  jobId : String
  nonce : List Byte
  headerHash : List Byte
  mixHash : List Byte

/-- The nonce as `"%016" PRIx64` prints it. -/
def nonceHex (nonce : BitVec 64) : List Byte :=
  (List.range 16).reverse.map fun i => streamDigit ((nonce >>> (4 * i)).setWidth 8 &&& 0xF)

/-- What a `mining.notify` announces: a job id with the text of a header. -/
structure Notice where
  jobId : String
  headerText : String

/-- A `mining.submit` that has been built: the job id of the solution, the parameters, and what had
been announced by then. -/
structure Submit where
  jobId : String
  params : SubmitParams
  announced : List Notice

/-- The client between notifications and submits.  The lists `announced` and `submits` record what
has happened; nothing that happens depends on them. -/
structure Session where
  client : Client
  connected : Bool
  messageId : BitVec 64
  walletAddress : String
  currentWorker : String
  announced : List Notice
  submits : List Submit

/-- What can happen next. -/
inductive SessionEvent where
  /-- A `mining.notify` arrives; `job₀` is the job that the client declares for it. -/
  | notify (job₀ : MiningJob) (message : Json)
  /-- `submitSolution` is called; the pool closes the connection instead of answering, or not. -/
  | submit (solution : Solution) (closed : Bool)

namespace Session

/-- The parameters that `submitSolution` sends. -/
def submitParams (s : Session) (solution : Solution) : SubmitParams :=
  { worker := if s.currentWorker = "" then s.walletAddress else s.currentWorker
    -- "Use jobId from solution (to avoid stale shares)"
    jobId := if solution.jobId = "" then s.client.currentJob.jobId else solution.jobId
    nonce := nonceHex solution.nonce
    -- "Get header from current job"
    headerHash := hash32ToHex s.client.currentJob.headerHash true
    mixHash := hash32ToHex solution.mixHash true }

/-- `submitSolution`. -/
def submitSolution (s : Session) (solution : Solution) (closed : Bool) : Session :=
  if !s.connected then s
  else
    { s with
      messageId := s.messageId + 1
      connected := !closed
      submits := s.submits ++ [{ jobId := solution.jobId, params := s.submitParams solution,
                                 announced := s.announced }] }

/-- A session in which nothing has been announced. -/
def initial (client : Client) (messageId : BitVec 64) (walletAddress currentWorker : String) :
    Session :=
  { client := client, connected := true, messageId := messageId, walletAddress := walletAddress,
    currentWorker := currentWorker, announced := [], submits := [] }

/-- One event of a session.  A `mining.notify` whose parameters have the types of a job announces
it; any other changes nothing (`processNotification_untyped`). -/
inductive Step : Session → SessionEvent → Session → Prop
  | announced {s : Session} {job₀ : MiningJob} {message params : Json}
      {jobId seedText headerText : String} {client : Client} {callback : Option Callback}
      (hmethod : IsNotify message) (hparams : message.find? "params" = some params)
      (htyped : Typed params jobId seedText headerText)
      (h : processNotification job₀ s.client message = some (client, callback)) :
      Step s (.notify job₀ message)
        { s with
          client := client
          announced := s.announced ++ [{ jobId := jobId, headerText := headerText }] }
  | ignored {s : Session} {job₀ : MiningJob} {message params : Json} {client : Client}
      {callback : Option Callback} (hmethod : IsNotify message)
      (hparams : message.find? "params" = some params)
      (huntyped : ∀ jobId seedText headerText, ¬ Typed params jobId seedText headerText)
      (h : processNotification job₀ s.client message = some (client, callback)) :
      Step s (.notify job₀ message) { s with client := client }
  | submit (s : Session) (solution : Solution) (closed : Bool) :
      Step s (.submit solution closed) (s.submitSolution solution closed)

end Session

/-! ## What a submit should say -/

/-- The last announcement of a job id. -/
def lastNotice (announced : List Notice) (jobId : String) : Option Notice :=
  (announced.filter fun notice => notice.jobId = jobId).getLast?

/-- The header of the submit is the one that was announced with the job id of the solution. -/
def Submit.Paired (submit : Submit) : Prop :=
  ∀ notice header, lastNotice submit.announced submit.jobId = some notice →
    Denotes (utf8 notice.headerText) (header : Hash32) → Denotes submit.params.headerHash header

/-- The last `mining.notify` has the header that was announced with the job id. -/
def UpToDate (announced : List Notice) (jobId : String) : Prop :=
  ∀ notice header, lastNotice announced jobId = some notice →
    Denotes (utf8 notice.headerText) (header : Hash32) →
    ∃ latest, announced.getLast? = some latest ∧ Denotes (utf8 latest.headerText) header

/-- A solution that is submitted is up to date. -/
def SessionEvent.UpToDate (s : Session) : SessionEvent → Prop
  | .notify _ _ => True
  | .submit solution _ => s.connected = true → Stratum.UpToDate s.announced solution.jobId

/-- A `mining.notify` has a header that decodes. -/
def SessionEvent.Decodes : SessionEvent → Prop
  | .notify _ message => ∀ params jobId seedText headerText,
      message.find? "params" = some params → Typed params jobId seedText headerText →
      ∃ header : Hash32, Denotes (utf8 headerText) header
  | .submit _ _ => True

namespace Session

variable {s t : Session} {event : SessionEvent}

/-- Every submit is paired. -/
def AllPaired (s : Session) : Prop := ∀ submit ∈ s.submits, submit.Paired

/-- The current job has the header of the last announcement, if that decodes. -/
def Synced (s : Session) : Prop :=
  ∀ latest header, s.announced.getLast? = some latest →
    Denotes (utf8 latest.headerText) (header : Hash32) → s.client.currentJob.headerHash = header

lemma synced_initial (client : Client) (messageId : BitVec 64)
    (walletAddress currentWorker : String) :
    (initial client messageId walletAddress currentWorker).Synced :=
  fun latest header hlatest => absurd hlatest (by simp [initial])

lemma submitSolution_announced (s : Session) (solution : Solution) (closed : Bool) :
    (s.submitSolution solution closed).announced = s.announced ∧
      (s.submitSolution solution closed).client = s.client := by
  rw [submitSolution]
  split <;> exact ⟨rfl, rfl⟩

/-- Announcements and the current job change together. -/
lemma Synced.step (h : s.Synced) (hstep : Step s event t) : t.Synced := by
  cases hstep with
  | @announced job₀ message params jobId seedText headerText client callback hmethod hparams
      htyped hresult =>
    intro latest header hlatest hheader
    obtain rfl := Option.some.inj (List.getLast?_concat.symm.trans hlatest)
    rw [processNotification_typed hmethod hparams htyped] at hresult
    obtain ⟨rfl, -⟩ := Prod.mk.inj (Option.some.inj hresult)
    exact congrArg Prod.snd ((hexToHash_eq_true_iff _ _ _).mpr hheader)
  | ignored hmethod hparams huntyped hresult =>
    rw [processNotification_untyped hmethod hparams huntyped] at hresult
    obtain ⟨rfl, -⟩ := Prod.mk.inj (Option.some.inj hresult)
    exact h
  | submit solution closed =>
    obtain ⟨hannounced, hclient⟩ := s.submitSolution_announced solution closed
    intro latest header hlatest hheader
    rw [hannounced] at hlatest
    rw [hclient]
    exact h latest header hlatest hheader

/-- The header that is written is that of the current job. -/
lemma denotes_submitParams {solution : Solution} {header : Hash32} :
    Denotes (s.submitParams solution).headerHash header ↔
      s.client.currentJob.headerHash = header := by
  constructor
  · exact (denotes_hash32ToHex _ true).eq
  · rintro rfl
    exact denotes_hash32ToHex _ true

lemma AllPaired.step (hsynced : s.Synced) (h : s.AllPaired) (hstep : Step s event t)
    (hcurrent : event.UpToDate s) : t.AllPaired := by
  cases hstep with
  | announced hmethod hparams htyped hresult => exact h
  | ignored hmethod hparams huntyped hresult => exact h
  | submit solution closed =>
    cases hconnected : s.connected with
    | false =>
      rw [submitSolution, hconnected]
      exact h
    | true =>
      rw [submitSolution, hconnected]
      intro submit hmem
      rcases List.mem_append.mp hmem with hold | hnew
      · exact h submit hold
      · obtain rfl := List.mem_singleton.mp hnew
        intro notice header hnotice hheader
        obtain ⟨latest, hlatest, hlatestHeader⟩ := hcurrent hconnected notice header hnotice hheader
        exact denotes_submitParams.mpr (hsynced latest header hlatest hlatestHeader)

/-- Every announcement has a header that decodes. -/
def Decoded (s : Session) : Prop :=
  ∀ notice ∈ s.announced, ∃ header : Hash32, Denotes (utf8 notice.headerText) header

lemma Decoded.step (h : s.Decoded) (hstep : Step s event t) (hdecodes : event.Decodes) :
    t.Decoded := by
  cases hstep with
  | announced hmethod hparams htyped hresult =>
    intro notice hmem
    rcases List.mem_append.mp hmem with hold | hnew
    · exact h notice hold
    · obtain rfl := List.mem_singleton.mp hnew
      exact hdecodes _ _ _ _ hparams htyped
  | ignored hmethod hparams huntyped hresult => exact h
  | submit solution closed =>
    rw [Decoded, (s.submitSolution_announced solution closed).1]
    exact h

/-- A submit that is paired was up to date. -/
lemma AllPaired.upToDate (hsynced : s.Synced) (hdecoded : s.Decoded) (hstep : Step s event t)
    (h : t.AllPaired) : event.UpToDate s := by
  cases hstep with
  | announced hmethod hparams htyped hresult => trivial
  | ignored hmethod hparams huntyped hresult => trivial
  | submit solution closed =>
    intro hconnected notice header hnotice hheader
    rw [submitSolution, hconnected] at h
    have hpaired := h _ (List.mem_append_right _ (List.mem_singleton.mpr rfl)) notice header
      hnotice hheader
    have hmem : notice ∈ s.announced := List.mem_of_mem_filter (List.mem_of_getLast? hnotice)
    cases hlatest : s.announced.getLast? with
    | none =>
      rw [List.getLast?_eq_none_iff.mp hlatest] at hmem
      exact absurd hmem List.not_mem_nil
    | some latest =>
      obtain ⟨header', hheader'⟩ := hdecoded latest (List.mem_of_getLast? hlatest)
      have heq := hsynced latest header' hlatest hheader'
      refine ⟨latest, rfl, ?_⟩
      rw [← denotes_submitParams.mp hpaired, heq]
      exact hheader'

/-! ## Whole sessions -/

section Runs

variable {client : Client} {messageId : BitVec 64} {walletAddress currentWorker : String}
  {events : List SessionEvent}

/-- **The header of a submit.**  In every session in which each solution is submitted while the last
`mining.notify` has the header of its job, every submit has the header that was announced with
the job id of its solution.  Where all headers decode, these are the only sessions of which this
holds. -/
theorem run_allPaired :
    (Run (fun s event t => Step s event t ∧ event.UpToDate s)
        (initial client messageId walletAddress currentWorker) events s → s.AllPaired) ∧
      (Run (fun s event t => Step s event t ∧ event.Decodes ∧ event.UpToDate s)
          (initial client messageId walletAddress currentWorker) events s ↔
        Run (fun s event t => Step s event t ∧ event.Decodes ∧ t.AllPaired)
          (initial client messageId walletAddress currentWorker) events s) := by
  have hsynced := synced_initial client messageId walletAddress currentWorker
  have hpaired : (initial client messageId walletAddress currentWorker).AllPaired :=
    fun submit hmem => absurd hmem List.not_mem_nil
  constructor
  · intro hrun
    have hinv := hrun.invariant (fun s => s.Synced ∧ s.AllPaired) ⟨hsynced, hpaired⟩ (by
      rintro t event u ⟨hsynced, hpaired⟩ ⟨hstep, hcurrent⟩
      exact ⟨hsynced.step hstep, hpaired.step hsynced hstep hcurrent⟩)
    exact hinv.2
  · refine Run.congr (fun s => s.Synced ∧ s.Decoded ∧ s.AllPaired)
      ⟨hsynced, fun notice hmem => absurd hmem List.not_mem_nil, hpaired⟩ ?_ ?_
    · rintro t event u ⟨hsynced, hdecoded, hpaired⟩ ⟨hstep, hdecodes, hcurrent⟩
      exact ⟨hsynced.step hstep, hdecoded.step hstep hdecodes,
        hpaired.step hsynced hstep hcurrent⟩
    · rintro t event u ⟨hsynced, hdecoded, hpaired⟩
      refine and_congr_right fun hstep => and_congr_right fun hdecodes => ?_
      exact ⟨hpaired.step hsynced hstep, AllPaired.upToDate hsynced hdecoded hstep⟩

end Runs

/-! ## A solution of an older job -/

/-- A session that starts with nothing. -/
def idleSession : Session := initial idleClient 3 "wallet" "worker"

/-- A solution of job "1". -/
def firstSolution : Solution :=
  { nonce := 0, mixHash := Vector.replicate 32 0, result := Vector.replicate 32 0, jobId := "1" }

/-- The session after the announcement of the jobs "1" and "2". -/
def announcedSession : Session :=
  let first := { idleClient with currentJob := installed zeroJob idleClient "1" "0x0" "0x1" }
  { idleSession with
    client := { first with currentJob := installed zeroJob first "2" "0x0" "0x2" }
    announced := [{ jobId := "1", headerText := "0x1" }, { jobId := "2", headerText := "0x2" }] }

lemma run_announcedSession : Run Step idleSession
    [.notify zeroJob (notifyMessage "1" "0x0" "0x1"),
      .notify zeroJob (notifyMessage "2" "0x0" "0x2")] announcedSession := by
  have hstep : ∀ (s : Session) (jobId headerText : String),
      Step s (.notify zeroJob (notifyMessage jobId "0x0" headerText))
        { s with
          client := { s.client with
            currentJob := installed zeroJob s.client jobId "0x0" headerText }
          announced := s.announced ++ [{ jobId := jobId, headerText := headerText }] } := by
    intro s jobId headerText
    have hmethod := isNotify_notifyMessage jobId "0x0" headerText
    have htyped := typed_notifyMessage jobId "0x0" headerText
    exact .announced hmethod rfl htyped (processNotification_typed hmethod rfl htyped)
  exact .snoc (l := [_]) (.snoc (l := []) (.refl _) (hstep _ "1" "0x1")) (hstep _ "2" "0x2")

/-- Job "2" comes with another header before a solution of job "1" is submitted. -/
theorem exists_not_paired :
    ∃ s, Run Step idleSession [.notify zeroJob (notifyMessage "1" "0x0" "0x1"),
        .notify zeroJob (notifyMessage "2" "0x0" "0x2"), .submit firstSolution false] s ∧
      ¬ s.AllPaired := by
  refine ⟨_, .snoc (l := [_, _]) run_announcedSession (.submit _ firstSolution false), ?_⟩
  intro hpaired
  have hdecodes : ∀ text : String,
      (hexToHash (utf8 text) (Vector.replicate 32 0 : Hash32)).1 = true →
      Denotes (utf8 text) (hexToHash32 (utf8 text) (Vector.replicate 32 0)).2 :=
    fun text htext => (hexToHash_eq_true_iff _ _ _).mp (Prod.ext htext rfl)
  have hfirst := hdecodes "0x1" (by decide)
  have hsecond : Denotes (utf8 "0x2") announcedSession.client.currentJob.headerHash :=
    hdecodes "0x2" (by decide)
  have hsubmit := hpaired _ (List.mem_singleton.mpr rfl) ⟨"1", "0x1"⟩ _ rfl hfirst
  rw [denotes_submitParams.mp hsubmit] at hsecond
  -- the same header would be 1 and 2
  have hnumber := ((denotes_iff _ _).mp hfirst).2.trans ((denotes_iff _ _).mp hsecond).2.symm
  exact absurd hnumber (by decide)

end Session

end OhMyMiner.Stratum
