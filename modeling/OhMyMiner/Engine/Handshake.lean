/-
# The handshake with the pool

`MiningEngine::initialize` (`src/core/mining_engine.cpp`) connects, subscribes and authorizes, and
only then registers the callbacks of the engine with the client.  `StratumClient::Impl::authorize`
(`src/network/stratum_client.cpp`) takes a `mining.notify` for a successful answer and hands it to
`processNotification`: the client has a job then that the engine never hears of.  Whatever else the
pool sends first, a handshake that succeeds leaves the engine and the client in agreement, and they
stay in agreement with every notification that follows.

What the pool sends is what `recv` returns: the answer to `subscribe`, that to `authorize`, and
afterwards the buffers of `processMessages`.
-/
import OhMyMiner.Engine.Run
import OhMyMiner.Lib.Transition
import OhMyMiner.Stratum.Framing
import OhMyMiner.Stratum.Notify

namespace OhMyMiner.Engine.Handshake

open Lib Stratum

/-! ## The code -/

/-- What the notifications depend on: the fields of a job that the source does not initialise, the
target in `OHMY_DEBUG_TARGET_HEX`, and whether the DAG for a job can be made. -/
structure Env where
  job₀ : MiningJob
  debugTarget : Option Hash32
  dagReady : MiningJob → Bool

/-- The engine and its client.  The list `accepted` records the jobs and difficulties that the
client has accepted; nothing that happens depends on it. -/
structure Link where
  engine : MiningEngine
  client : Client
  accepted : List Callback

/-- What the client accepts of a message: what it would pass to its callbacks. -/
def accepts (job₀ : MiningJob) (c : Client) (message : Json) : Option Callback :=
  match processNotification job₀ { c with onJob := true, onDifficulty := true } message with
  | some (_, callback) => callback
  | none => none

/-- The callbacks of the engine. -/
def dispatch (env : Env) (engine : MiningEngine) : Option Callback → MiningEngine
  | some (.onJob job) => engine.onJobReceived job (env.dagReady job)
  | some (.onDifficulty difficulty) => engine.onDifficultyUpdate env.debugTarget difficulty
  | none => engine

namespace Link

/-- Engine and client as they are constructed, with any jobs. -/
def initial (clientJob currentJob : MiningJob) : Link :=
  { engine := MiningEngine.initial clientJob currentJob
    client := { currentDifficulty := BitVec.allOnes 64, currentJob := clientJob, onJob := false,
                onDifficulty := false }
    accepted := [] }

/-- `processNotification`, with the callbacks that it calls. -/
def receive (env : Env) (l : Link) (message : Json) : Option Link :=
  match processNotification env.job₀ l.client message with
  | some (client, callback) =>
    some { engine := { dispatch env l.engine callback with clientJob := client.currentJob }
           client := client
           accepted := l.accepted ++ (accepts env.job₀ l.client message).toList }
  | none => none

/-- `processMessages`, for the buffer that `recv` returns. -/
def processMessages (parse : Parser) (env : Env) (l : Link) (buffer : List Byte) : Option Link :=
  (objectsIn buffer).foldlM (fun l jsonStr =>
    match parse jsonStr with
    | some msg => if msg.contains "method" then l.receive env msg else some l
    | none => some l) l

end Link

/-- `subscribe`: the check of the response. -/
def subscribe (parse : Parser) (sent : Bool) (response : List Byte) : Bool :=
  if !sent || response.isEmpty then false
  else
    match parse response with
    | some resp =>
      match resp.find? "result" with
      | none => false
      | some .null => false
      | some (.array items) =>
        -- the subscription id is read, and must be a string
        if 2 ≤ items.length then
          match items[1]? with
          | some (Json.string _) => true
          | _ => false
        else true
      | some _ => true
    | none => false

/-- What `authorize` makes of an answer. -/
inductive Verdict where
  | successful
  | notification
  | failed

/-- `resp.contains("result") && resp["result"].get<bool>()`. -/
def isAuthorized (resp : Json) : Except Fault Bool :=
  match resp.find? "result" with
  | some result => result.getBool
  | none => .ok false

/-- `resp.contains("method") && resp["method"].get<std::string>() == "mining.notify"`. -/
def isNotification (resp : Json) : Except Fault Bool :=
  match resp.find? "method" with
  | some method => do return (← method.getString) == "mining.notify"
  | none => .ok false

/-- The conditions of `authorize`. -/
def authorizeVerdict (resp : Json) : Except Fault Verdict := do
  if ← isAuthorized resp then return .successful
  else if ← isNotification resp then return .notification
  else return .failed

/-- `authorize`. -/
def authorize (parse : Parser) (env : Env) (sent : Bool) (response : List Byte) (l : Link) :
    Option (Link × Bool) :=
  if !sent || response.isEmpty then some (l, false)
  else
    match parse response with
    | some resp =>
      match authorizeVerdict resp with
      | .ok .successful => some (l, true)
      | .ok .notification => (l.receive env resp).map fun l => (l, true)
      | .ok .failed => some (l, false)
      | .error _ => some (l, false)
    | none => some (l, false)

/-- The inputs of `initialize`: the devices, and what becomes of the calls of the client. -/
structure Setup where
  deviceCount : ℕ
  deviceId : ℤ
  connects : Bool
  subscribeSent : Bool
  subscribeResponse : List Byte
  authorizeSent : Bool
  authorizeResponse : List Byte

/-- `MiningEngine::initialize`.  There is no result where the behaviour is undefined, as for a
negative device id. -/
def initializeEngine (parse : Parser) (env : Env) (setup : Setup) (l : Link) :
    Option (Link × Bool) :=
  if setup.deviceCount = 0 then some (l, false)
  else if setup.deviceCount ≤ setup.deviceId then some (l, false)
  else if setup.deviceId < 0 then none
  else if !setup.connects then some (l, false)
  else if !subscribe parse setup.subscribeSent setup.subscribeResponse then some (l, false)
  else
    match authorize parse env setup.authorizeSent setup.authorizeResponse l with
    | some (l, true) =>
      some ({ l with client := { l.client with onJob := true, onDifficulty := true } }, true)
    | some (l, false) => some (l, false)
    | none => none

/-! ## Agreement -/

namespace Link

/-- The last job that the client has accepted. -/
def lastJob (l : Link) : Option MiningJob :=
  (l.accepted.filterMap fun
    | .onJob job => some job
    | .onDifficulty _ => none).getLast?

/-- The last difficulty that the client has accepted. -/
def lastDifficulty (l : Link) : Option (BitVec 64) :=
  (l.accepted.filterMap fun
    | .onJob _ => none
    | .onDifficulty difficulty => some difficulty).getLast?

/-- The engine has the last job and the last difficulty of the client. -/
structure Agrees (l : Link) : Prop where
  hasJob : l.engine.hasJob = l.lastJob.isSome
  currentJob : ∀ job, l.lastJob = some job → l.engine.currentJob = job
  lastDifficulty : l.engine.lastDifficulty = l.lastDifficulty.getD 0

lemma agrees_initial (clientJob currentJob : MiningJob) : (initial clientJob currentJob).Agrees :=
  ⟨rfl, fun _ h => absurd h (by simp [lastJob, initial]), rfl⟩

end Link

/-- The answer is taken for a notification, and it is one of a job: its result is not true, and its
parameters have the types of a job. -/
def AnnouncesJob (parse : Parser) (response : List Byte) : Prop :=
  ∃ resp params jobId seedText headerText, parse response = some resp ∧
    resp.find? "result" ≠ some (.boolean true) ∧ resp.find? "params" = some params ∧
    Typed params jobId seedText headerText

section Authorize

variable {parse : Parser} {env : Env} {resp : Json} {l l' : Link}

lemma isAuthorized_eq {b : Bool} (h : isAuthorized resp = .ok b) :
    b = true ↔ resp.find? "result" = some (.boolean true) := by
  rw [isAuthorized] at h
  split at h
  · next result hresult =>
    rcases result.getBool_cases with ⟨b', rfl⟩ | hthrew
    · obtain rfl := Except.ok.inj h
      rw [hresult]
      simp
    · exact absurd (hthrew.symm.trans h) (by simp)
  · next hresult =>
    obtain rfl := Except.ok.inj h
    rw [hresult]
    simp

lemma isNotify_of_isNotification (h : isNotification resp = .ok true) : IsNotify resp := by
  rw [isNotification] at h
  split at h
  · next method hmethod =>
    obtain ⟨name, hname, heq⟩ := ok_of_bind h
    rcases method.getString_cases with ⟨s, rfl⟩ | hthrew
    · obtain rfl := Except.ok.inj hname
      have hnotify : s = "mining.notify" := by simpa using Except.ok.inj heq
      rw [IsNotify, hmethod, hnotify]
    · exact absurd (hthrew.symm.trans hname) (by simp)
  · exact absurd (Except.ok.inj h) (by simp)

/-- What `authorize` takes for a success and what for a notification. -/
lemma authorizeVerdict_cases {verdict : Verdict} (h : authorizeVerdict resp = .ok verdict) :
    (verdict = .successful ∧ resp.find? "result" = some (.boolean true)) ∨
      (verdict = .notification ∧ resp.find? "result" ≠ some (.boolean true) ∧ IsNotify resp) ∨
      verdict = .failed := by
  obtain ⟨authorized, hauthorized, h⟩ := ok_of_bind h
  have hresult := isAuthorized_eq hauthorized
  cases authorized with
  | true =>
    obtain rfl := Except.ok.inj h
    exact Or.inl ⟨rfl, hresult.mp rfl⟩
  | false =>
    have hnot : resp.find? "result" ≠ some (.boolean true) :=
      fun heq => absurd (hresult.mpr heq) (by simp)
    obtain ⟨notification, hnotification, h⟩ := ok_of_bind h
    cases notification with
    | true =>
      obtain rfl := Except.ok.inj h
      exact Or.inr (Or.inl ⟨rfl, hnot, isNotify_of_isNotification hnotification⟩)
    | false =>
      obtain rfl := Except.ok.inj h
      exact Or.inr (Or.inr rfl)

/-- A failure is no success. -/
lemma failed_ne_succeeded : some (l, false) ≠ some (l', true) := by simp

/-- How `authorize` succeeds. -/
lemma authorize_eq_true {sent : Bool} {response : List Byte}
    (h : authorize parse env sent response l = some (l', true)) :
    ∃ resp, parse response = some resp ∧
      ((resp.find? "result" = some (.boolean true) ∧ l' = l) ∨
        (resp.find? "result" ≠ some (.boolean true) ∧ IsNotify resp ∧
          l.receive env resp = some l')) := by
  rw [authorize] at h
  split at h
  · exact absurd h failed_ne_succeeded
  · split at h
    · next resp hparse =>
      refine ⟨resp, hparse, ?_⟩
      split at h
      · next hverdict =>
        rcases authorizeVerdict_cases hverdict with ⟨-, hresult⟩ | ⟨hne, -⟩ | hne
        · exact Or.inl ⟨hresult, (congrArg Prod.fst (Option.some.inj h)).symm⟩
        · exact absurd hne (by simp)
        · exact absurd hne (by simp)
      · next hverdict =>
        rcases authorizeVerdict_cases hverdict with ⟨hne, -⟩ | ⟨-, hresult, hnotify⟩ | hne
        · exact absurd hne (by simp)
        · obtain ⟨l'', hreceive, heq⟩ := Option.map_eq_some_iff.mp h
          obtain rfl := congrArg Prod.fst heq
          exact Or.inr ⟨hresult, hnotify, hreceive⟩
        · exact absurd hne (by simp)
      · exact absurd h failed_ne_succeeded
      · exact absurd h failed_ne_succeeded
    · exact absurd h failed_ne_succeeded

/-- How `initialize` succeeds. -/
lemma initializeEngine_eq_true {setup : Setup}
    (h : initializeEngine parse env setup l = some (l', true)) :
    ∃ l'', authorize parse env setup.authorizeSent setup.authorizeResponse l = some (l'', true) ∧
      l' = { l'' with client := { l''.client with onJob := true, onDifficulty := true } } := by
  rw [initializeEngine] at h
  split_ifs at h
  · exact absurd h failed_ne_succeeded
  · exact absurd h failed_ne_succeeded
  · exact absurd h failed_ne_succeeded
  · exact absurd h failed_ne_succeeded
  · split at h
    · next l'' hauthorize =>
      exact ⟨l'', hauthorize, (congrArg Prod.fst (Option.some.inj h)).symm⟩
    · exact absurd h failed_ne_succeeded
    · exact absurd h (by simp)

end Authorize

/-! ## The end of the handshake -/

section Agreement

variable {parse : Parser} {env : Env} {resp params : Json} {l l' : Link}
  {jobId seedText headerText : String}

/-- A job that is received without a callback is accepted, and the engine does not hear of it. -/
lemma receive_typed (hmethod : IsNotify resp) (hparams : resp.find? "params" = some params)
    (htyped : Typed params jobId seedText headerText) (hcallback : l.client.onJob = false)
    (hsome : l.receive env resp = some l') :
    l'.engine.hasJob = l.engine.hasJob ∧
      l'.accepted = l.accepted ++
        [.onJob (installed env.job₀ l.client jobId seedText headerText)] := by
  have haccepts : accepts env.job₀ l.client resp =
      some (.onJob (installed env.job₀ l.client jobId seedText headerText)) := by
    rw [accepts, processNotification_typed hmethod hparams htyped]
    rfl
  rw [Link.receive, processNotification_typed hmethod hparams htyped, hcallback, haccepts] at hsome
  obtain rfl := Option.some.inj hsome
  exact ⟨rfl, rfl⟩

/-- Other parameters change nothing. -/
lemma receive_untyped (hmethod : IsNotify resp) (hparams : resp.find? "params" = some params)
    (h : ∀ jobId seedText headerText, ¬ Typed params jobId seedText headerText)
    (hsome : l.receive env resp = some l') :
    l'.accepted = l.accepted ∧ l'.engine.hasJob = l.engine.hasJob ∧
      l'.engine.currentJob = l.engine.currentJob ∧
      l'.engine.lastDifficulty = l.engine.lastDifficulty := by
  have haccepts : accepts env.job₀ l.client resp = none := by
    rw [accepts, processNotification_untyped hmethod hparams h]
  rw [Link.receive, processNotification_untyped hmethod hparams h, haccepts] at hsome
  obtain rfl := Option.some.inj hsome
  exact ⟨by simp, rfl, rfl, rfl⟩

/-- Agreement is a matter of what has been accepted and of three fields of the engine. -/
lemma Link.Agrees.congr (h : l.Agrees) (haccepted : l'.accepted = l.accepted)
    (hhasJob : l'.engine.hasJob = l.engine.hasJob)
    (hcurrentJob : l'.engine.currentJob = l.engine.currentJob)
    (hlastDifficulty : l'.engine.lastDifficulty = l.engine.lastDifficulty) : l'.Agrees := by
  have hlastJob : l'.lastJob = l.lastJob := by rw [Link.lastJob, haccepted, Link.lastJob]
  have hlast : l'.lastDifficulty = l.lastDifficulty := by
    rw [Link.lastDifficulty, haccepted, Link.lastDifficulty]
  refine ⟨?_, fun job hjob => ?_, ?_⟩
  · rw [hhasJob, hlastJob]
    exact h.hasJob
  · rw [hcurrentJob]
    exact h.currentJob job (hlastJob ▸ hjob)
  · rw [hlastDifficulty, hlast]
    exact h.lastDifficulty

/-- A handshake whose last answer announces no job ends in agreement. -/
lemma agrees_of_not_announcesJob {setup : Setup} {clientJob currentJob : MiningJob}
    (h : initializeEngine parse env setup (Link.initial clientJob currentJob) = some (l, true))
    (hanswer : ¬ AnnouncesJob parse setup.authorizeResponse) : l.Agrees := by
  have hinitial := Link.agrees_initial clientJob currentJob
  obtain ⟨l₁, hauthorize, rfl⟩ := initializeEngine_eq_true h
  obtain ⟨resp, hparse, ⟨-, rfl⟩ | ⟨hresult, hnotify, hreceive⟩⟩ := authorize_eq_true hauthorize
  · exact hinitial.congr rfl rfl rfl rfl
  · cases hparams : resp.find? "params" with
    | none =>
      rw [Link.receive, processNotification_noParams hnotify hparams] at hreceive
      exact absurd hreceive (by simp)
    | some params =>
      have huntyped : ∀ jobId seedText headerText, ¬ Typed params jobId seedText headerText :=
        fun jobId seedText headerText htyped =>
          hanswer ⟨resp, params, jobId, seedText, headerText, hparse, hresult, hparams, htyped⟩
      obtain ⟨haccepted, hhasJob, hcurrentJob, hlastDifficulty⟩ :=
        receive_untyped hnotify hparams huntyped hreceive
      exact hinitial.congr haccepted hhasJob hcurrentJob hlastDifficulty

/-- A handshake whose last answer announces a job loses the job. -/
lemma not_agrees_of_announcesJob {setup : Setup} {clientJob currentJob : MiningJob}
    (h : initializeEngine parse env setup (Link.initial clientJob currentJob) = some (l, true))
    (hanswer : AnnouncesJob parse setup.authorizeResponse) :
    ¬ l.Agrees ∧ l.engine.hasJob = false ∧ l.lastJob.isSome = true := by
  obtain ⟨resp, params, jobId, seedText, headerText, hparse, hresult, hparams, htyped⟩ := hanswer
  obtain ⟨l₁, hauthorize, rfl⟩ := initializeEngine_eq_true h
  obtain ⟨resp', hparse', ⟨hresult', -⟩ | ⟨-, hnotify, hreceive⟩⟩ := authorize_eq_true hauthorize
  · obtain rfl := Option.some.inj (hparse.symm.trans hparse')
    exact absurd hresult' hresult
  · obtain rfl := Option.some.inj (hparse.symm.trans hparse')
    obtain ⟨hhasJob, haccepted⟩ := receive_typed hnotify hparams htyped rfl hreceive
    have hlast : (Link.lastJob l₁).isSome = true := by
      rw [Link.lastJob, haccepted]
      rfl
    refine ⟨fun hagrees => ?_, hhasJob, hlast⟩
    exact Bool.false_ne_true (hhasJob.symm.trans (hagrees.hasJob.trans hlast))

end Agreement

/-! ## After the handshake -/

/-- Both callbacks are registered. -/
structure Registered (c : Client) : Prop where
  onJob : c.onJob = true
  onDifficulty : c.onDifficulty = true

section Messages

variable {parse : Parser} {env : Env} {job₀ : MiningJob} {c c' : Client} {l l' : Link}
  {params message : Json} {callback : Option Callback}

lemma Registered.miningNotify (h : Registered c)
    (hok : Stratum.miningNotify job₀ c params = .ok (c', callback)) : Registered c' := by
  by_cases htyped : ∃ jobId seedText headerText, Typed params jobId seedText headerText
  · obtain ⟨jobId, seedText, headerText, htyped⟩ := htyped
    rw [miningNotify_typed htyped] at hok
    obtain ⟨rfl, -⟩ := Prod.mk.inj (Except.ok.inj hok)
    exact ⟨h.onJob, h.onDifficulty⟩
  · have hcases : Stratum.miningNotify job₀ c params = .ok (c, none) ∨
        Stratum.miningNotify job₀ c params = .error .threw :=
      miningNotify_untyped fun jobId seedText headerText h =>
        htyped ⟨jobId, seedText, headerText, h⟩
    rcases hcases with hsame | hthrew
    · rw [hsame] at hok
      obtain ⟨rfl, -⟩ := Prod.mk.inj (Except.ok.inj hok)
      exact h
    · exact absurd (hthrew.symm.trans hok) (by simp)

lemma Registered.miningSetDifficulty (h : Registered c)
    (hok : Stratum.miningSetDifficulty c params = .ok (c', callback)) : Registered c' := by
  rw [Stratum.miningSetDifficulty] at hok
  split at hok
  · obtain ⟨value, -, hok⟩ := ok_of_bind hok
    obtain ⟨difficulty, -, hok⟩ := ok_of_bind hok
    obtain ⟨rfl, -⟩ := Prod.mk.inj (Except.ok.inj hok)
    exact ⟨h.onJob, h.onDifficulty⟩
  · obtain ⟨rfl, -⟩ := Prod.mk.inj (Except.ok.inj hok)
    exact h

/-- No message unregisters a callback. -/
lemma Registered.processNotification (h : Registered c)
    (hsome : Stratum.processNotification job₀ c message = some (c', callback)) :
    Registered c' := by
  rw [Stratum.processNotification] at hsome
  cases hbody : notificationBody job₀ c message with
  | error fault =>
    rw [hbody] at hsome
    cases fault with
    | threw =>
      obtain ⟨rfl, -⟩ := Prod.mk.inj (Option.some.inj hsome)
      exact h
    | undefined => exact absurd hsome (by simp [caught])
  | ok result =>
    rw [hbody] at hsome
    obtain rfl := Option.some.inj hsome
    obtain ⟨value, -, hbody⟩ := ok_of_bind hbody
    obtain ⟨method, -, hbody⟩ := ok_of_bind hbody
    split at hbody
    · obtain ⟨params, -, hbody⟩ := ok_of_bind hbody
      exact h.miningNotify hbody
    · split at hbody
      · obtain ⟨params, -, hbody⟩ := ok_of_bind hbody
        exact h.miningSetDifficulty hbody
      · obtain ⟨rfl, -⟩ := Prod.mk.inj (Except.ok.inj hbody)
        exact h

lemma Registered.receive (h : Registered l.client) (hsome : l.receive env message = some l') :
    Registered l'.client := by
  rw [Link.receive] at hsome
  split at hsome
  · next client callback hresult =>
    obtain rfl := Option.some.inj hsome
    exact h.processNotification hresult
  · exact absurd hsome (by simp)

/-- What every message preserves, every buffer preserves. -/
lemma Link.processMessages_invariant {buffer : List Byte} (P : Link → Prop)
    (hreceive : ∀ l message l', P l → l.receive env message = some l' → P l') (h : P l)
    (hsome : l.processMessages parse env buffer = some l') : P l' := by
  rw [Link.processMessages] at hsome
  generalize objectsIn buffer = objects at hsome
  induction objects generalizing l with
  | nil =>
    obtain rfl := Option.some.inj hsome
    exact h
  | cons jsonStr objects ih =>
    rw [List.foldlM_cons] at hsome
    obtain ⟨l₁, hfirst, hrest⟩ := Option.bind_eq_some_iff.mp hsome
    refine ih ?_ hrest
    split at hfirst
    · split at hfirst
      · exact hreceive _ _ _ h hfirst
      · obtain rfl := Option.some.inj hfirst
        exact h
    · obtain rfl := Option.some.inj hfirst
      exact h

/-- What every message preserves, the buffers that come in one after the other preserve. -/
lemma Link.run_invariant {buffers : List (List Byte)} (P : Link → Prop)
    (hreceive : ∀ l message l', P l → l.receive env message = some l' → P l') (h : P l)
    (hrun : Run (fun l buffer l' => l.processMessages parse env buffer = some l') l buffers l') :
    P l' :=
  hrun.invariant P h fun _ _ _ => Link.processMessages_invariant P hreceive

/-- With the callbacks, what is accepted is what is passed on. -/
lemma accepts_eq (h : Registered c)
    (hsome : Stratum.processNotification job₀ c message = some (c', callback)) :
    accepts job₀ c message = callback := by
  have hclient : { c with onJob := true, onDifficulty := true } = c := by
    obtain ⟨honJob, honDifficulty⟩ := h
    cases c
    subst honJob honDifficulty
    rfl
  rw [accepts, hclient, hsome]

/-- The engine follows a job whose DAG can be made. -/
lemma Link.Agrees.onJob (h : l.Agrees) (job clientJob : MiningJob) (client : Client) :
    Link.Agrees ⟨{ l.engine.onJobReceived job true with clientJob := clientJob }, client,
      l.accepted ++ [.onJob job]⟩ := by
  have hengine : (l.engine.onJobReceived job true).hasJob = true ∧
      (l.engine.onJobReceived job true).currentJob = job ∧
      (l.engine.onJobReceived job true).lastDifficulty = l.engine.lastDifficulty := by
    rw [MiningEngine.onJobReceived]
    dsimp only
    split <;> exact ⟨rfl, rfl, rfl⟩
  obtain ⟨hhasJob, hcurrentJob, hdifficulty⟩ := hengine
  refine ⟨?_, fun job' hjob' => ?_, ?_⟩
  · simp [Link.lastJob, List.filterMap_append, hhasJob]
  · have heq : job = job' := by simpa [Link.lastJob, List.filterMap_append] using hjob'
    exact hcurrentJob.trans heq
  · have hlast := h.lastDifficulty
    rw [Link.lastDifficulty] at hlast
    simp [Link.lastDifficulty, List.filterMap_append, hdifficulty, hlast]

/-- The engine follows every difficulty. -/
lemma Link.Agrees.onDifficulty (h : l.Agrees) (difficulty : BitVec 64) (clientJob : MiningJob)
    (client : Client) :
    Link.Agrees ⟨{ l.engine.onDifficultyUpdate env.debugTarget difficulty with
      clientJob := clientJob }, client, l.accepted ++ [.onDifficulty difficulty]⟩ := by
  refine ⟨?_, fun job hjob => ?_, ?_⟩
  · have hhasJob := h.hasJob
    rw [Link.lastJob] at hhasJob
    simp [Link.lastJob, List.filterMap_append, MiningEngine.onDifficultyUpdate, hhasJob]
  · exact h.currentJob job (by simpa [Link.lastJob, List.filterMap_append] using hjob)
  · simp [Link.lastDifficulty, List.filterMap_append, MiningEngine.onDifficultyUpdate]

/-- What has been accepted stays accepted. -/
lemma Link.accepted_receive (hsome : l.receive env message = some l') :
    l.accepted <+: l'.accepted := by
  rw [Link.receive] at hsome
  split at hsome
  · obtain rfl := Option.some.inj hsome
    exact List.prefix_append _ _
  · exact absurd hsome (by simp)

/-- The DAG can be made for every job that has been accepted. -/
def Link.DagsReady (env : Env) (l : Link) : Prop :=
  ∀ job, Callback.onJob job ∈ l.accepted → env.dagReady job = true

/-- One message after the handshake. -/
lemma Link.Agrees.receive (h : l.Agrees) (hregistered : Registered l.client)
    (hready : l'.DagsReady env) (hsome : l.receive env message = some l') : l'.Agrees := by
  rw [Link.receive] at hsome
  cases hresult : Stratum.processNotification env.job₀ l.client message with
  | none =>
    rw [hresult] at hsome
    exact absurd hsome (by simp)
  | some result =>
    obtain ⟨c', callback⟩ := result
    rw [hresult] at hsome
    obtain rfl := Option.some.inj hsome
    cases callback with
    | none => exact h.congr (by rw [accepts_eq hregistered hresult]; simp) rfl rfl rfl
    | some call =>
      cases call with
      | onJob job =>
        have hmem : Callback.onJob job ∈
            l.accepted ++ (accepts env.job₀ l.client message).toList := by
          rw [accepts_eq hregistered hresult]
          simp
        rw [accepts_eq hregistered hresult, dispatch, hready job hmem]
        exact h.onJob job _ _
      | onDifficulty difficulty =>
        rw [accepts_eq hregistered hresult]
        exact h.onDifficulty difficulty _ _

/-- The callbacks are registered, and engine and client agree as long as the DAGs can be made. -/
structure Link.Follows (env : Env) (l : Link) : Prop where
  registered : Registered l.client
  agrees : l.DagsReady env → l.Agrees

lemma Link.Follows.receive (h : l.Follows env) (hsome : l.receive env message = some l') :
    l'.Follows env := by
  refine ⟨h.registered.receive hsome, fun hready => ?_⟩
  have hgrows : l.accepted <+: l'.accepted := Link.accepted_receive hsome
  have hagrees := h.agrees fun job hjob => hready job (hgrows.subset hjob)
  exact hagrees.receive h.registered hready hsome

/-- **When a handshake leaves engine and client in agreement**: unless the answer to `authorize`
announces a job.  From agreement on nothing is lost: engine and client agree after every number of
buffers, as long as the DAGs of the jobs can be made. -/
theorem agrees_iff {setup : Setup} {clientJob currentJob : MiningJob}
    (h : initializeEngine parse env setup (Link.initial clientJob currentJob) = some (l, true)) :
    (l.Agrees ↔ ¬ AnnouncesJob parse setup.authorizeResponse) ∧
      (l.Agrees → ∀ buffers l',
        Run (fun l buffer l' => l.processMessages parse env buffer = some l') l buffers l' →
        l'.DagsReady env → l'.Agrees) := by
  refine ⟨⟨fun hagrees hanswer => (not_agrees_of_announcesJob h hanswer).1 hagrees,
    agrees_of_not_announcesJob h⟩, fun hagrees buffers l' hrun hready => ?_⟩
  obtain ⟨l₁, -, rfl⟩ := initializeEngine_eq_true h
  have hfollows := Link.run_invariant (Link.Follows env) (fun _ _ _ ht => ht.receive)
    ⟨⟨rfl, rfl⟩, fun _ => hagrees⟩ hrun
  exact hfollows.agrees hready

end Messages

/-! ## Two handshakes -/

/-- A parser that knows a few texts. -/
def tableParser (table : List (List Byte × Json)) : Parser := fun text => table.lookup text

/-- The parser for the two texts. -/
def textParser : Parser :=
  tableParser [(trueText, .object [("id", .integer 1), ("result", .boolean true)]),
    (notifyText, notifyMessage "1" "0x0" "0x0")]

/-- A pool that answers `subscribe` with `true`, and `authorize` with a given response. -/
def answering (response : List Byte) : Setup :=
  { deviceCount := 1, deviceId := 0, connects := true, subscribeSent := true,
    subscribeResponse := trueText, authorizeSent := true, authorizeResponse := response }

/-- Nothing is special about the environment. -/
def plainEnv : Env := { job₀ := zeroJob, debugTarget := none, dagReady := fun _ => true }

/-- A pool that answers with `true` leaves engine and client in agreement. -/
theorem agrees_iff_true : ∃ l : Link,
    initializeEngine textParser plainEnv (answering trueText) (Link.initial zeroJob zeroJob) =
      some (l, true) ∧ l.Agrees := by
  obtain ⟨l, h⟩ : ∃ l : Link, initializeEngine textParser plainEnv (answering trueText)
      (Link.initial zeroJob zeroJob) = some (l, true) := ⟨_, rfl⟩
  refine ⟨l, h, (agrees_iff h).1.mpr ?_⟩
  rintro ⟨resp, _, _, _, _, hparse, hresult, -⟩
  have hanswer : textParser trueText =
      some (.object [("id", .integer 1), ("result", .boolean true)]) := rfl
  obtain rfl := Option.some.inj (hanswer.symm.trans hparse)
  exact hresult rfl

/-- A job that comes in place of the answer is lost. -/
theorem not_agrees_notify : ∃ l : Link,
    initializeEngine textParser plainEnv (answering notifyText) (Link.initial zeroJob zeroJob) =
      some (l, true) ∧ ¬ l.Agrees ∧ l.engine.hasJob = false ∧ l.lastJob.isSome = true := by
  obtain ⟨l, h⟩ : ∃ l : Link, initializeEngine textParser plainEnv (answering notifyText)
      (Link.initial zeroJob zeroJob) = some (l, true) := ⟨_, rfl⟩
  have hanswer : textParser notifyText = some (notifyMessage "1" "0x0" "0x0") := rfl
  have hresult : (notifyMessage "1" "0x0" "0x0").find? "result" = none := rfl
  refine ⟨l, h, not_agrees_of_announcesJob h ⟨_, _, _, _, _, hanswer, ?_, rfl,
    typed_notifyMessage "1" "0x0" "0x0"⟩⟩
  rw [hresult]
  exact Option.some_ne_none _ ∘ Eq.symm

end OhMyMiner.Engine.Handshake
