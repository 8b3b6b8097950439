/-
# The program

`MiningEngine::initialize` and `MiningEngine::run` (`src/core/mining_engine.cpp`) with all of their
parts: the bytes that come from the pool are cut into messages and change client, engine and DAG,
a search runs on the device, and what it finds goes out as bytes.

Engine and client each have a job and a flag that says whether they are connected, and the shares
of the engine are the requests of the client; that they stay in step is what connects the work of
the miner to what the pool reads.
-/
import OhMyMiner.Engine.Miner
import OhMyMiner.Engine.Requests
import OhMyMiner.Stratum.Targets

namespace OhMyMiner.Engine

open Lib Search Dag Ethash Utils Stratum Requests

/-! ## The code -/

/-- The engine with its components, and its client. -/
structure Program where
  miner : Miner
  requester : Requester

/-- The surroundings of the program: the JSON parser, the variables of the launcher, and the target
in `OHMY_DEBUG_TARGET_HEX`. -/
structure World where
  parse : Parser
  env : Environment
  debugTarget : Option Hash32

/-- The inputs of `initialize`. -/
structure Setup where
  deviceCount : ℕ
  deviceId : ℤ
  network : Network
  workerName : List Byte
  suggestEnv : Option (List Byte)
  job₀ : MiningJob
  subscribe : Acceptance × Received
  authorize : Acceptance × Received
  suggest : Acceptance

/-- The socket takes the messages of the handshake as a whole or not at all. -/
def Setup.Whole (setup : Setup) : Prop :=
  setup.subscribe.1.Whole ∧ setup.authorize.1.Whole ∧ setup.suggest.Whole

/-- The inputs of an iteration: what arrives, if it is time to look for it, and for each solution
what becomes of its request and what arrives then.  The fields of `job₀` are those that the source
does not initialise. -/
structure Round where
  job₀ : MiningJob
  received : Option Received
  replies : ℕ → Acceptance × Received

/-- The socket takes the requests of the iteration as a whole or not at all. -/
def Round.Whole (round : Round) : Prop := ∀ i, (round.replies i).1.Whole

/-- The callback that hands a message to the engine. -/
def Message.callback : Message → Callback
  | .job delivered _ => .onJob delivered
  | .difficulty value => .onDifficulty value

/-- What the engine sees of an answer. -/
def answered (parse : Parser) : Received → SubmitOutcome
  | .closed => .closed
  | .error => .rejected
  | .data response => if submitResult parse response then .accepted else .rejected

/-- What the engine sees of a request. -/
def outcomeOf (parse : Parser) : Acceptance → Received → SubmitOutcome
  | .failed, _ => .unsent
  | _, received => answered parse received

/-- `MiningEngine::initialize`: the client that it leaves when it returns true. -/
def Requests.Requester.initializeEngine (parse : Parser) (setup : Setup) (r : Requester) :
    Option Requester :=
  if setup.deviceCount = 0 ∨ setup.deviceCount ≤ setup.deviceId ∨ setup.deviceId < 0 then none
  else
    match r.connection.connect setup.network with
    | .error _ => none
    | .ok attempt =>
      if !attempt.result then none
      else
        let r := { r with connection := attempt.connection }
        match r.subscribe parse setup.subscribe.1 setup.subscribe.2 with
        | (r, .ok true) =>
          match r.authorize parse setup.job₀ setup.workerName setup.authorize.1 setup.authorize.2
              setup.suggestEnv setup.suggest with
          | some (r, .ok true) =>
            some { r with client := { r.client with onJob := true, onDifficulty := true } }
          | _ => none
        | _ => none

/-- `processSolutions`, as far as the client is concerned. -/
def Requests.Requester.submitAll (parse : Parser) (jobId : String) :
    List Solution → (ℕ → Acceptance × Received) → Requester → Except Invalid Requester
  | [], _, r => .ok r
  | solution :: solutions, replies, r =>
    match r.submitSolution parse { solution with jobId := jobId } (replies 0).1 (replies 0).2 with
    | (r, .ok _) => submitAll parse jobId solutions (fun i => replies (i + 1)) r
    | (_, .error e) => .error e

namespace Program

/-- The program after `initialize`. -/
def start (parse : Parser) (poolUrl walletAddress : List Byte) (clientJob currentJob : MiningJob)
    (cacheDir : String) (setup : Setup) : Option Program :=
  let client : Client :=
    { currentDifficulty := BitVec.allOnes 64, currentJob := clientJob, onJob := false,
      onDifficulty := false }
  ((Requester.new poolUrl walletAddress client).initializeEngine parse setup).map fun r =>
    { miner := .initial r.client.currentJob currentJob cacheDir, requester := r }

/-- A message: the client may call the engine. -/
inductive Deliver (world : World) (job₀ : MiningJob) : Program → Json → Program → Prop
  | silent {p : Program} {message : Json} {client : Client}
      (h : processNotification job₀ p.requester.client message = some (client, none)) :
      Deliver world job₀ p message { p with requester := { p.requester with client := client } }
  | called {p : Program} {message : Json} {client : Client} {m : Message} {miner : Miner}
      (h : processNotification job₀ p.requester.client message = some (client, some m.callback))
      (hdeliver : Miner.Deliver world.debugTarget p.miner m miner) :
      Deliver world job₀ p message
        { miner := miner, requester := { p.requester with client := client } }

/-- A change of the connection. -/
def withConnection (p : Program) (connection : Connection) : Program :=
  { miner := { p.miner with engine := { p.miner.engine with connected := connection.connected } }
    requester := { p.requester with connection := connection } }

/-- `processMessages`, if it is time for it. -/
inductive Polled (world : World) (job₀ : MiningJob) : Program → Option Received → Program → Prop
  | skipped {p : Program} : Polled world job₀ p none p
  | received {p p' : Program} {received : Received}
      (h : Run (Deliver world job₀)
        (p.withConnection (p.requester.connection.processMessages world.parse received).1)
        (p.requester.connection.processMessages world.parse received).2 p') :
      Polled world job₀ p (some received) p'

/-- One iteration of `run`.  An exception ends the run. -/
inductive Step (world : World) : Program → Round → Program → Prop
  | wait {p p' : Program} {round : Round} (hconnected : p.requester.connection.connected = true)
      (hpolled : Polled world round.job₀ p round.received p')
      (hready : p'.miner.engine.ready = false) : Step world p round p'
  | mine {p p' : Program} {round : Round} {solutions : List Solution} {r : Requester}
      (hconnected : p.requester.connection.connected = true)
      (hpolled : Polled world round.job₀ p round.received p')
      (hready : p'.miner.engine.ready = true)
      (hsearched : Miner.Searched world.env p'.miner solutions)
      (hsubmitted : p'.requester.submitAll world.parse p'.miner.engine.currentJob.jobId solutions
        round.replies = .ok r) :
      Step world p round
        { miner := p'.miner.mine solutions fun i =>
            outcomeOf world.parse (round.replies i).1 (round.replies i).2
          requester := r }

/-! ## What is heard from the pool -/

/-- What a client makes of a message, with the callbacks so far. -/
def hear (job₀ : MiningJob) (heard : Client × List Callback) (message : Json) :
    Client × List Callback :=
  match processNotification job₀ heard.1 message with
  | some (client, callback) => (client, heard.2 ++ callback.toList)
  | none => heard

end Program

/-- The messages in the bytes that arrive in an iteration. -/
def Round.messages (parse : Parser) (round : Round) : List Json :=
  match round.received with
  | some (.data bytes) => processMessages parse bytes
  | _ => []

/-- The bytes that arrive in an iteration convert no number for which C++ leaves the result open. -/
def Round.Defined (parse : Parser) (round : Round) (client : Client) : Prop :=
  ((round.messages parse).foldlM (fun client message =>
    (processNotification round.job₀ client message).map Prod.fst) client).isSome

namespace Program

/-- What `processMessages` makes of the bytes of some iterations: the client, and its callbacks. -/
def heard (parse : Parser) (client : Client) (rounds : List Round) : Client × List Callback :=
  rounds.foldl (fun heard round => (round.messages parse).foldl (hear round.job₀) heard)
    (client, [])

end Program

/-- The calls of the engine for the bytes of an iteration. -/
def Round.callbacks (parse : Parser) (round : Round) (client : Client) : List Callback :=
  ((round.messages parse).foldl (Program.hear round.job₀) (client, [])).2

/-- The generation that a message may ask for ends in an exception. -/
def Message.throws : Message → Bool
  | .job _ o => o.throws
  | .difficulty _ => false

/-! ## Sending -/

/-- The request of a share. -/
def Share.request (worker : List Byte) (share : Share) : Request :=
  .submit worker (utf8 share.jobId) share.nonce share.headerHash share.mixHash

/-- The request submits a share. -/
def Requests.Request.isSubmit : Request → Bool
  | .submit _ _ _ _ _ => true
  | _ => false

namespace Requests.Requester

variable {parse : Parser} {r r' r'' : Requester} {request : Request} {a : Acceptance}
  {received : Received}

lemma sent_neg_iff (message : List Byte) (a : Acceptance) : a.sent message < 0 ↔ a = .failed := by
  cases a with
  | failed => simp [Acceptance.sent]
  | taken =>
    simp only [Acceptance.sent, reduceCtorEq, iff_false]
    omega
  | cut count =>
    simp only [Acceptance.sent, reduceCtorEq, iff_false]
    omega

/-- An open socket reports every message that it does not refuse. -/
lemma sendMessage_result_iff {c : Connection} (hopen : 0 ≤ c.socket) (message : List Byte)
    (a : Acceptance) :
    (c.sendMessage { message := message, sent := a.sent message, sent_le := a.sent_le message }
      ).result = true ↔ a ≠ .failed := by
  rw [Connection.sendMessage, sendIf, if_neg (by simpa using hopen), ne_eq, ← sent_neg_iff message]
  split <;> simp_all

/-- A call changes the record and the next id only. -/
structure Same (r r' : Requester) : Prop where
  connection : r'.connection = r.connection
  client : r'.client = r.client
  walletAddress : r'.walletAddress = r.walletAddress
  currentWorker : r'.currentWorker = r.currentWorker

/-- What was sent of a call that was to send a request. -/
def sentRequests (request : Request) (sent : Bool) : List Request := if sent then [request] else []

/-- A message that is made adds its request, if it is sent. -/
lemma map_requests_of_concat {id : BitVec 64} {sent : Bool}
    (h : r'.messages = r.messages ++ [{ id := id, request := request, sent := sent }]) :
    r'.requests.map Prod.snd = r.requests.map Prod.snd ++ sentRequests request sent := by
  rw [requests, h, transmitted_concat, List.map_append, requests]
  cases sent <;> rfl

lemma send_spec {sent : Bool} (h : r.send request a = (r', .ok sent)) :
    Same r r' ∧ r'.requests.map Prod.snd = r.requests.map Prod.snd ++ sentRequests request sent ∧
      (0 ≤ r.connection.socket → (sent = true ↔ a ≠ .failed)) := by
  unfold send at h
  dsimp only at h
  split at h
  · cases h
  · next text _ =>
    obtain ⟨rfl, hsent⟩ := Prod.mk.inj h
    obtain rfl := Except.ok.inj hsent
    exact ⟨⟨rfl, rfl, rfl, rfl⟩, map_requests_of_concat rfl,
      fun hopen => sendMessage_result_iff hopen _ a⟩

/-- A request that is made consists of texts. -/
lemma wellFormed_of_send {sent : Bool} (h : r.send request a = (r', .ok sent)) :
    ∀ s ∈ request.strings, Utf8.WellFormed s := by
  unfold send at h
  dsimp only at h
  split at h
  · cases h
  · next text hdump => exact (Request.exists_dump_iff request r.messageId).mp ⟨text, hdump⟩

/-- A request that consists of texts is made. -/
lemma exists_send (r : Requester) (a : Acceptance)
    (h : ∀ s ∈ request.strings, Utf8.WellFormed s) :
    ∃ r' sent, r.send request a = (r', .ok sent) := by
  obtain ⟨text, hdump⟩ := (Request.exists_dump_iff request r.messageId).mpr h
  unfold send
  dsimp only
  rw [hdump]
  exact ⟨_, _, rfl⟩

lemma Same.worker (h : Same r r') : r'.worker = r.worker := by
  rw [Requester.worker, Requester.worker, h.currentWorker, h.walletAddress]

/-- What is received on an open socket. -/
lemma receive_open (hopen : 0 ≤ r.connection.socket) :
    r.receive received = match received with
      | .error => (r, [])
      | .closed =>
        ({ r with connection := { r.connection with connected := false, socket := -1 } }, [])
      | .data response => (r, response) := by
  unfold receive Connection.receiveMessage
  rw [if_neg (not_lt.mpr hopen)]
  cases received with
  | error => rfl
  | data response => rfl
  | closed =>
    dsimp only
    rw [Connection.disconnect, if_pos hopen]

end Requests.Requester

/-! ## In step -/

/-- Engine and client are in step: the flag, the job and the shares of the engine are those of the
client, whose socket is open as long as it is connected. -/
structure Sync (greeting : List Request) (e : MiningEngine) (r : Requester) : Prop where
  connected : e.connected = r.connection.connected
  opened : r.connection.connected = true → 0 ≤ r.connection.socket
  clientJob : e.clientJob = r.client.currentJob
  registered : Handshake.Registered r.client
  requests : r.requests.map Prod.snd = greeting ++ e.shares.map (Share.request r.worker)

namespace Sync

variable {greeting : List Request} {e e' : MiningEngine} {r r' : Requester} {parse : Parser}

/-- What counts is what the two have in common. -/
lemma congr (h : Sync greeting e r) (hconnected : e'.connected = e.connected)
    (hjob : e'.clientJob = e.clientJob) (hshares : e'.shares = e.shares) :
    Sync greeting e' r := by
  refine ⟨hconnected.trans h.connected, h.opened, hjob.trans h.clientJob, h.registered, ?_⟩
  rw [hshares]
  exact h.requests

lemma searches (h : Sync greeting e r) (searches : List (String × SearchCall)) :
    Sync greeting { e with searches := searches } r := h.congr rfl rfl rfl

/-- The request of a solution is that of its share. -/
lemma submission_eq (h : Sync greeting e r) (solution : Solution) :
    r.submission solution = Share.request r.worker (e.share solution.jobId solution) := by
  rw [Requester.submission, Share.request, MiningEngine.share, MiningEngine.submitJobId,
    h.clientJob]

lemma same (h : Sync greeting e r) (hsame : r.Same r')
    (hrequests : r'.requests.map Prod.snd = r.requests.map Prod.snd) : Sync greeting e r' := by
  obtain ⟨hconnected, hopened, hjob, hregistered, hshares⟩ := h
  rw [← hsame.connection] at hconnected hopened
  rw [← hsame.client] at hjob hregistered
  exact ⟨hconnected, hopened, hjob, hregistered, by rw [hrequests, hsame.worker, hshares]⟩

/-- A share that goes out. -/
lemma sent (h : Sync greeting e r) {share : Share} (hsame : r.Same r')
    (hrequests : r'.requests.map Prod.snd =
      r.requests.map Prod.snd ++ [Share.request r.worker share]) :
    Sync greeting { e with shares := e.shares ++ [share] } r' := by
  obtain ⟨hconnected, hopened, hjob, hregistered, hshares⟩ := h
  rw [← hsame.connection] at hconnected hopened
  rw [← hsame.client] at hjob hregistered
  refine ⟨hconnected, hopened, hjob, hregistered, ?_⟩
  rw [hrequests, hsame.worker, hshares, List.map_append, List.append_assoc, List.map_singleton]

/-- The peer closes. -/
lemma closed (h : Sync greeting e r) :
    Sync greeting { e with connected := false }
      { r with connection := { r.connection with connected := false, socket := -1 } } :=
  ⟨rfl, fun hfalse => absurd hfalse (by simp), h.clientJob, h.registered, h.requests⟩

lemma outcomeOf_of_ne {a : Acceptance} {received : Received} (h : a ≠ .failed) :
    outcomeOf parse a received = answered parse received := by
  cases a with
  | failed => exact absurd rfl h
  | taken => rfl
  | cut count => rfl

/-- **A submission leaves them in step**, and the engine counts what the client returns. -/
lemma submitSolution (h : Sync greeting e r) {solution : Solution} {a : Acceptance}
    {received : Received} {result : Bool}
    (hsubmit : r.submitSolution parse solution a received = (r', .ok result)) :
    Sync greeting (e.submitSolution solution (outcomeOf parse a received)).1 r' ∧
      (e.submitSolution solution (outcomeOf parse a received)).2 = result := by
  rw [Requester.submitSolution] at hsubmit
  rw [MiningEngine.submitSolution]
  cases hconnected : r.connection.connected with
  | false =>
    -- neither of them sends anything
    rw [if_pos (by simp [h.connected, hconnected])]
    rw [hconnected] at hsubmit
    obtain ⟨rfl, hresult⟩ := Prod.mk.inj hsubmit
    exact ⟨h, Except.ok.inj hresult⟩
  | true =>
    have hopen := h.opened hconnected
    rw [if_neg (by simp [hconnected])] at hsubmit
    rw [if_neg (by simp [h.connected, hconnected])]
    split at hsubmit
    · next r₁ hsend =>
      obtain ⟨hsame, hrequests, hsent⟩ := Requester.send_spec hsend
      rw [outcomeOf_of_ne ((hsent hopen).mp rfl)]
      rw [h.submission_eq] at hrequests
      have hsync := h.sent hsame hrequests
      rw [Requester.receive_open (hsame.connection ▸ hopen)] at hsubmit
      cases received with
      | error =>
        obtain ⟨rfl, hresult⟩ := Prod.mk.inj hsubmit
        exact ⟨hsync, Except.ok.inj hresult⟩
      | closed =>
        obtain ⟨rfl, hresult⟩ := Prod.mk.inj hsubmit
        exact ⟨hsync.closed, Except.ok.inj hresult⟩
      | data response =>
        obtain ⟨rfl, hresult⟩ := Prod.mk.inj hsubmit
        rw [← Except.ok.inj hresult, answered]
        cases submitResult parse response with
        | false => exact ⟨hsync, rfl⟩
        | true => exact ⟨hsync, rfl⟩
    · next outcome hother =>
      -- `sendMessage` has failed: no request, and no answer
      cases result with
      | true => exact absurd hsubmit (hother r')
      | false =>
        obtain ⟨hsame, hrequests, hsent⟩ := Requester.send_spec hsubmit
        have hfailed : a = .failed := by simpa using (hsent hopen).not
        rw [hfailed]
        exact ⟨h.same hsame (hrequests.trans (List.append_nil _)), rfl⟩

/-- The solutions of an iteration. -/
lemma processSolutions (h : Sync greeting e r) {jobId : String} {solutions : List Solution}
    {replies : ℕ → Acceptance × Received}
    (hsubmitted : r.submitAll parse jobId solutions replies = .ok r') :
    Sync greeting (MiningEngine.processSolutions jobId solutions
      (fun i => outcomeOf parse (replies i).1 (replies i).2) e) r' := by
  induction solutions generalizing e r replies with
  | nil =>
    obtain rfl := Except.ok.inj hsubmitted
    exact h
  | cons solution solutions ih =>
    rw [Requester.submitAll] at hsubmitted
    split at hsubmitted
    · next r₁ result hsubmit =>
      obtain ⟨hsync, hresult⟩ := h.submitSolution hsubmit
      refine ih (Sync.congr hsync ?_ ?_ ?_) hsubmitted
      all_goals
        rw [MiningEngine.processSolution]
        split <;> simp [*]
    · cases hsubmitted

end Sync

/-! ## The handshake -/

namespace Requests.Requester

variable {parse : Parser} {r r' r'' : Requester}

/-- What the calls of the handshake leave as it is; they submit nothing. -/
structure Greets (r r' : Requester) : Prop where
  connection : r'.connection = r.connection
  walletAddress : r'.walletAddress = r.walletAddress
  worker : r'.worker = r.worker
  requests : ∃ more, r'.requests.map Prod.snd = r.requests.map Prod.snd ++ more ∧
    ∀ request ∈ more, request.isSubmit = false

lemma Greets.refl (r : Requester) : Greets r r := ⟨rfl, rfl, rfl, [], by simp, by simp⟩

lemma Greets.trans (h : Greets r r') (h' : Greets r' r'') : Greets r r'' := by
  obtain ⟨more, hmore, hnone⟩ := h.requests
  obtain ⟨more', hmore', hnone'⟩ := h'.requests
  refine ⟨h'.connection.trans h.connection, h'.walletAddress.trans h.walletAddress,
    h'.worker.trans h.worker, more ++ more', ?_, List.forall_mem_append.mpr ⟨hnone, hnone'⟩⟩
  rw [hmore', hmore, List.append_assoc]

lemma greets_send (r : Requester) {request : Request} (a : Acceptance)
    (hrequest : request.isSubmit = false) : Greets r (r.send request a).1 := by
  have hnone (sent : Bool) : ∀ request' ∈ sentRequests request sent, request'.isSubmit = false := by
    cases sent with
    | false => exact fun _ h => absurd h List.not_mem_nil
    | true => exact List.forall_mem_singleton.mpr hrequest
  unfold send
  dsimp only
  split
  · exact ⟨rfl, rfl, rfl, _, map_requests_of_concat rfl, hnone _⟩
  · exact ⟨rfl, rfl, rfl, _, map_requests_of_concat rfl, hnone _⟩

/-- Receiving something leaves the connection open. -/
lemma eq_of_receive {received : Received} {response : List Byte}
    (h : r.receive received = (r', response)) (hresponse : response ≠ []) : r' = r := by
  unfold receive Connection.receiveMessage at h
  split_ifs at h
  · exact absurd (Prod.mk.inj h).2.symm hresponse
  · cases received with
    | data bytes => exact (Prod.mk.inj h).1.symm
    | closed => exact absurd (Prod.mk.inj h).2.symm hresponse
    | error => exact absurd (Prod.mk.inj h).2.symm hresponse

lemma greets_suggest (r : Requester) (suggestEnv : Option (List Byte)) (a : Acceptance) :
    Greets r (r.suggest suggestEnv a) := by
  unfold suggest
  split
  · exact .refl r
  · dsimp only
    split
    · exact greets_send r a rfl
    · exact .refl r

lemma greets_processNotification {job₀ : MiningJob} {message : Json}
    (h : r.processNotification job₀ message = some r') : Greets r r' := by
  obtain ⟨result, -, rfl⟩ := Option.map_eq_some_iff.mp h
  exact ⟨rfl, rfl, rfl, [], (List.append_nil _).symm, by simp⟩

/-- `subscribe`, when it returns true. -/
lemma greets_subscribe {a : Acceptance} {received : Received}
    (h : r.subscribe parse a received = (r', .ok true)) : Greets r r' := by
  have hsend := greets_send r a (rfl : Request.subscribe.isSubmit = false)
  unfold subscribe at h
  split at h
  · cases h
  · split at h
    · next r₁ heq =>
      rw [heq] at hsend
      cases hreceive : r₁.receive received with | mk r₂ response => ?_
      rw [hreceive] at h
      obtain ⟨rfl, hresult⟩ := Prod.mk.inj h
      have hresponse : response ≠ [] := by
        rintro rfl
        exact absurd (Except.ok.inj hresult) (by simp [Handshake.subscribe])
      rwa [eq_of_receive hreceive hresponse]
    · rwa [h] at hsend

lemma greets_authorized {job₀ : MiningJob} {response : List Byte}
    {suggestEnv : Option (List Byte)} {a : Acceptance}
    (h : authorized parse r job₀ response suggestEnv a = some (r', true)) :
    response ≠ [] ∧ Greets r r' := by
  unfold authorized at h
  split_ifs at h with hempty
  · simp at h
  · refine ⟨by simpa using hempty, ?_⟩
    split at h
    · simp at h
    · split at h
      · obtain ⟨rfl, -⟩ := Prod.mk.inj (Option.some.inj h)
        exact greets_suggest r suggestEnv a
      · obtain ⟨r₁, hnotification, heq⟩ := Option.map_eq_some_iff.mp h
        obtain ⟨rfl, -⟩ := Prod.mk.inj heq
        exact (greets_processNotification hnotification).trans (greets_suggest r₁ suggestEnv a)
      · simp at h
      · simp at h

/-- `authorize`, when it returns true. -/
lemma greets_authorize {job₀ : MiningJob} {workerName : List Byte} {a a' : Acceptance}
    {received : Received} {suggestEnv : Option (List Byte)}
    (h : r.authorize parse job₀ workerName a received suggestEnv a' = some (r', .ok true)) :
    Greets { r with currentWorker := workerOf r.walletAddress workerName } r' ∧
      Utf8.WellFormed (workerOf r.walletAddress workerName) := by
  unfold authorize at h
  split at h
  · simp at h
  · dsimp only at h
    have hsend := greets_send { r with currentWorker := workerOf r.walletAddress workerName } a
      (rfl : (Request.authorize (workerOf r.walletAddress workerName)).isSubmit = false)
    split at h
    · next r₁ heq =>
      have hworker := wellFormed_of_send heq _ List.mem_cons_self
      rw [heq] at hsend
      cases hreceive : r₁.receive received with | mk r₂ response => ?_
      rw [hreceive] at h
      obtain ⟨⟨r₃, result⟩, hauthorized, hpair⟩ := Option.map_eq_some_iff.mp h
      obtain ⟨rfl, hresult⟩ := Prod.mk.inj hpair
      obtain rfl := Except.ok.inj hresult
      obtain ⟨hresponse, hgreets⟩ := greets_authorized hauthorized
      rw [eq_of_receive hreceive hresponse] at hgreets
      exact ⟨hsend.trans hgreets, hworker⟩
    · next hother => exact absurd (Option.some.inj h) (hother r')

lemma connected_of_connect {network : Network} {c : Connection} {attempt : Attempt}
    (h : c.connect network = .ok attempt) (hresult : attempt.result = true) :
    attempt.connection.connected = true ∧ 0 ≤ attempt.connection.socket := by
  rw [Connection.connect] at h
  obtain ⟨⟨host, port⟩, -, hdial⟩ := ok_of_except_bind h
  obtain rfl := Except.ok.inj hdial
  rw [dial] at hresult ⊢
  dsimp only at hresult ⊢
  split at hresult
  · cases hresult
  · split_ifs at hresult ⊢ with hsocket hanswers
    exact ⟨rfl, not_lt.mp hsocket⟩

lemma worker_workerOf (r : Requester) (workerName : List Byte) :
    { r with currentWorker := workerOf r.walletAddress workerName }.worker =
      workerOf r.walletAddress workerName := by
  unfold worker workerOf
  dsimp only
  split_ifs <;> simp_all

/-- **`initialize`, when it returns true**: the client is connected, has its callbacks, and has not
submitted anything. -/
lemma initializeEngine_spec {setup : Setup} {poolUrl walletAddress : List Byte} {client : Client}
    (h : (Requester.new poolUrl walletAddress client).initializeEngine parse setup = some r') :
    r'.connection.connected = true ∧ 0 ≤ r'.connection.socket ∧ Handshake.Registered r'.client ∧
      r'.worker = workerOf walletAddress setup.workerName ∧ Utf8.WellFormed r'.worker ∧
      ∀ request ∈ r'.requests.map Prod.snd, request.isSubmit = false := by
  unfold initializeEngine at h
  split at h
  · cases h
  · split at h
    · cases h
    · next attempt hconnect =>
      split at h
      · cases h
      · next hresult =>
        dsimp only at h
        split at h
        · next r₁ hsubscribe =>
          split at h
          · next r₂ hauthorize =>
            obtain rfl := Option.some.inj h
            have hgreets := greets_subscribe hsubscribe
            obtain ⟨hgreets', htext⟩ := greets_authorize hauthorize
            obtain ⟨hconnected, hopen⟩ := connected_of_connect hconnect (by simpa using hresult)
            have hconnection : r₂.connection = attempt.connection :=
              hgreets'.connection.trans hgreets.connection
            have hworker : r₂.worker = workerOf r₁.walletAddress setup.workerName := by
              rw [hgreets'.worker, worker_workerOf]
            have hwallet : r₁.walletAddress = walletAddress := hgreets.walletAddress
            -- what subscribe and authorize have sent, in this order
            obtain ⟨more, hmore, hnone⟩ := hgreets.requests
            obtain ⟨more', hmore', hnone'⟩ := hgreets'.requests
            refine ⟨hconnection ▸ hconnected, hconnection ▸ hopen, ⟨rfl, rfl⟩,
              hworker.trans (by rw [hwallet]), hworker.symm ▸ htext, ?_⟩
            change ∀ request ∈ r₂.requests.map Prod.snd, request.isSubmit = false
            rw [hmore'.trans (congrArg (· ++ more') hmore)]
            exact List.forall_mem_append.mpr ⟨hnone, hnone'⟩
          · cases h
        · cases h

end Requests.Requester

/-- The record after `initialize`. -/
lemma recorded_initializeEngine {parse : Parser} {setup : Setup} {poolUrl walletAddress : List Byte}
    {client : Client} {r : Requester} (hwhole : setup.Whole)
    (h : (Requester.new poolUrl walletAddress client).initializeEngine parse setup = some r) :
    ∃ made, r.Recorded made := by
  obtain ⟨hsubscribe, hauthorize, hsuggest⟩ := hwhole
  have hnew := Requester.Recorded.new poolUrl walletAddress client
  unfold Requester.initializeEngine at h
  split at h
  · cases h
  · split at h
    · cases h
    · next attempt _ =>
      split at h
      · cases h
      · dsimp only at h
        have hconnected : Requester.Recorded { Requester.new poolUrl walletAddress client with
            connection := attempt.connection } 0 := hnew.congr rfl rfl rfl
        obtain ⟨made, -, hsubscribed⟩ :=
          hconnected.subscribe parse hsubscribe setup.subscribe.2
        split at h
        · next r₁ heq =>
          rw [heq] at hsubscribed
          split at h
          · next r₂ heq' =>
            obtain rfl := Option.some.inj h
            obtain ⟨made', -, hauthorized⟩ := hsubscribed.authorize hauthorize hsuggest heq'
            exact ⟨made', hauthorized.congr rfl rfl rfl⟩
          · cases h
        · cases h

/-! ## Messages -/

/-- What a message can do to a client with callbacks. -/
inductive Effect (job₀ : MiningJob) (c : Client) : Client → Option Callback → Prop
  | silent : Effect job₀ c c none
  | job (jobId seedText headerText : String) :
      Effect job₀ c { c with currentJob := installed job₀ c jobId seedText headerText }
        (some (.onJob (installed job₀ c jobId seedText headerText)))
  | difficulty (difficulty : BitVec 64) :
      Effect job₀ c
        { c with
          currentDifficulty := difficulty
          currentJob := { c.currentJob with
            target :=
              if 0 < difficulty then BitVec.allOnes 64 / difficulty else BitVec.allOnes 64 } }
        (some (.onDifficulty difficulty))

lemma effect_of_miningNotify {job₀ : MiningJob} {c c' : Client} {params : Json}
    {callback : Option Callback} (h : Handshake.Registered c)
    (hok : miningNotify job₀ c params = .ok (c', callback)) : Effect job₀ c c' callback := by
  by_cases htyped : ∃ jobId seedText headerText, Typed params jobId seedText headerText
  · obtain ⟨jobId, seedText, headerText, htyped⟩ := htyped
    rw [miningNotify_typed htyped, if_pos h.onJob] at hok
    obtain ⟨rfl, rfl⟩ := Prod.mk.inj (Except.ok.inj hok)
    exact .job jobId seedText headerText
  · rcases miningNotify_untyped fun jobId seedText headerText htext =>
        htyped ⟨jobId, seedText, headerText, htext⟩ with hsame | hthrew
    · rw [hsame] at hok
      obtain ⟨rfl, rfl⟩ := Prod.mk.inj (Except.ok.inj hok)
      exact .silent
    · exact absurd (hthrew.symm.trans hok) (by simp)

lemma effect_of_miningSetDifficulty {job₀ : MiningJob} {c c' : Client} {params : Json}
    {callback : Option Callback} (h : Handshake.Registered c)
    (hok : miningSetDifficulty c params = .ok (c', callback)) : Effect job₀ c c' callback := by
  rw [miningSetDifficulty] at hok
  split at hok
  · obtain ⟨value, -, hok⟩ := ok_of_bind hok
    obtain ⟨difficulty, -, hok⟩ := ok_of_bind hok
    rw [if_pos h.onDifficulty] at hok
    obtain ⟨rfl, rfl⟩ := Prod.mk.inj (Except.ok.inj hok)
    exact .difficulty difficulty
  · obtain ⟨rfl, rfl⟩ := Prod.mk.inj (Except.ok.inj hok)
    exact .silent

/-- **A message has one of these effects.** -/
lemma effect_of_processNotification {job₀ : MiningJob} {c c' : Client} {message : Json}
    {callback : Option Callback} (h : Handshake.Registered c)
    (hsome : processNotification job₀ c message = some (c', callback)) :
    Effect job₀ c c' callback := by
  rw [processNotification] at hsome
  cases hbody : notificationBody job₀ c message with
  | error fault =>
    rw [hbody] at hsome
    cases fault with
    | threw =>
      obtain ⟨rfl, rfl⟩ := Prod.mk.inj (Option.some.inj hsome)
      exact .silent
    | undefined => exact absurd hsome (by simp [caught])
  | ok result =>
    rw [hbody] at hsome
    obtain rfl := Option.some.inj hsome
    obtain ⟨value, -, hbody⟩ := ok_of_bind hbody
    obtain ⟨method, -, hbody⟩ := ok_of_bind hbody
    split at hbody
    · obtain ⟨params, -, hbody⟩ := ok_of_bind hbody
      exact effect_of_miningNotify h hbody
    · split at hbody
      · obtain ⟨params, -, hbody⟩ := ok_of_bind hbody
        exact effect_of_miningSetDifficulty h hbody
      · obtain ⟨rfl, rfl⟩ := Prod.mk.inj (Except.ok.inj hbody)
        exact .silent

lemma toNat_epoch_installed_lt (job₀ : MiningJob) (c : Client)
    (jobId seedText headerText : String) :
    (installed job₀ c jobId seedText headerText).epoch.toNat < 2000 := by
  rw [installed]
  dsimp only
  generalize (hexToHash32 (utf8 seedText) job₀.seedHash).2 = seedHash
  rcases epochFromSeedHash_cases seedHash with ⟨e, hlt, -, -, hfound⟩ | ⟨-, hnone⟩
  · have hscan : maxEpochScan = 2000 := rfl
    rw [hfound]
    split
    · decide
    · rw [BitVec.toNat_ofNat, Nat.mod_eq_of_lt (by omega)]
      omega
  · rw [if_pos hnone]
    decide

namespace Program

variable {world : World} {job₀ : MiningJob} {greeting : List Request} {p p' : Program}

/-- What the requests need of the client stays as it is. -/
structure Keeps (r r' : Requester) : Prop where
  worker : r'.worker = r.worker
  recorded : ∀ made, r.Recorded made → r'.Recorded made

lemma Keeps.trans {r r' r'' : Requester} (h : Keeps r r') (h' : Keeps r' r'') : Keeps r r'' :=
  ⟨h'.worker.trans h.worker, fun made hrecorded => h'.recorded made (h.recorded made hrecorded)⟩

lemma keeps_client (r : Requester) (client : Client) : Keeps r { r with client := client } :=
  ⟨rfl, fun _ h => h.congr rfl rfl rfl⟩

lemma keeps_connection (r : Requester) (connection : Connection) :
    Keeps r { r with connection := connection } :=
  ⟨rfl, fun _ h => h.congr rfl rfl rfl⟩

lemma frame_processNotification (debugTarget : Option Hash32) (e : MiningEngine)
    (notification : Notification) :
    (e.processNotification debugTarget notification).connected = e.connected ∧
      (e.processNotification debugTarget notification).shares = e.shares := by
  cases notification with
  | difficulty value => exact ⟨rfl, rfl⟩
  | job delivered dagReady =>
    rw [MiningEngine.processNotification, MiningEngine.onJobReceived]
    dsimp only
    split_ifs <;> exact ⟨rfl, rfl⟩

/-- **A message leaves engine and client in step.** -/
lemma deliver_spec {message : Json} (h : Sync greeting p.miner.engine p.requester)
    (hdeliver : Deliver world job₀ p message p') :
    Sync greeting p'.miner.engine p'.requester ∧ Keeps p.requester p'.requester ∧
      ∃ m : Option Message, Run (Miner.Deliver world.debugTarget) p.miner m.toList p'.miner ∧
        (∀ m' ∈ m, m'.Valid) ∧
        processNotification job₀ p.requester.client message =
          some (p'.requester.client, m.map Message.callback) := by
  cases hdeliver with
  | @silent client hsome =>
    cases effect_of_processNotification h.registered hsome
    exact ⟨h, keeps_client _ _, none, .refl _, by simp, hsome⟩
  | @called client m miner hsome hminer =>
    have heffect := effect_of_processNotification h.registered hsome
    refine ⟨?_, keeps_client _ _, some m, .snoc (.refl _) hminer, ?_, hsome⟩
    · -- the engine has installed the job or the target that the client has
      cases hminer with
      | @job delivered o c hjob halive =>
        obtain ⟨hconnected, hshares⟩ := frame_processNotification world.debugTarget
          p.miner.engine (.job delivered c.hasJob)
        obtain ⟨-, hclientJob, -⟩ :=
          Miner.processNotification_job world.debugTarget p.miner.engine delivered c.hasJob
        cases heffect
        exact ⟨hconnected.trans h.connected, h.opened, hclientJob, ⟨h.registered.1, h.registered.2⟩,
          hshares.symm ▸ h.requests⟩
      | @difficulty value =>
        cases heffect
        refine ⟨h.connected, h.opened, ?_, ⟨h.registered.1, h.registered.2⟩, h.requests⟩
        change ({ p.miner.engine.clientJob with target := _ } : MiningJob) = _
        rw [h.clientJob]
    · intro m' hm' job hjob
      obtain rfl := Option.some.inj hm'
      cases m with
      | difficulty value => exact absurd hjob (by simp [Message.announced])
      | job delivered o =>
        obtain rfl := Option.some.inj hjob
        cases heffect
        exact toNat_epoch_installed_lt _ _ _ _ _

/-- What the messages of some bytes do: those that call the engine are messages of the miner. -/
structure Delivered (greeting : List Request) (world : World) (job₀ : MiningJob) (p : Program)
    (received : List Json) (messages : List Message) (p' : Program) : Prop where
  sync : Sync greeting p'.miner.engine p'.requester
  keeps : Keeps p.requester p'.requester
  miner : Run (Miner.Deliver world.debugTarget) p.miner messages p'.miner
  valid : ∀ m ∈ messages, m.Valid
  heard : ∀ callbacks, received.foldl (hear job₀) (p.requester.client, callbacks) =
    (p'.requester.client, callbacks ++ messages.map Message.callback)

/-- **What the messages of some bytes do.** -/
lemma delivered_of_run {received : List Json} (h : Sync greeting p.miner.engine p.requester)
    (hrun : Run (Deliver world job₀) p received p') :
    ∃ messages, Delivered greeting world job₀ p received messages p' := by
  induction hrun with
  | refl =>
    exact ⟨[], h, ⟨rfl, fun _ hrecorded => hrecorded⟩, .refl _, fun _ hm => absurd hm
      List.not_mem_nil, fun callbacks => by simp⟩
  | snoc _ hdeliver ih =>
    obtain ⟨messages, hsync, hkeeps, hminer, hvalid, hheard⟩ := ih
    obtain ⟨hsync', hkeeps', m, hminer', hvalid', hsome⟩ := deliver_spec hsync hdeliver
    refine ⟨messages ++ m.toList, hsync', hkeeps.trans hkeeps', hminer.append hminer', ?_, ?_⟩
    · refine List.forall_mem_append.mpr ⟨hvalid, fun m' hm' => hvalid' m' ?_⟩
      exact Option.mem_toList.mp hm'
    · intro callbacks
      rw [List.foldl_concat, hheard, hear, hsome]
      cases m <;> simp

lemma withConnection_self (h : p.miner.engine.connected = p.requester.connection.connected) :
    p.withConnection p.requester.connection = p := by
  rw [withConnection, ← h]

/-- What an open connection makes of what arrives. -/
lemma processMessages_open {c : Connection} (parse : Parser) (hconnected : c.connected = true)
    (hopen : 0 ≤ c.socket) :
    c.processMessages parse .error = (c, []) ∧
      c.processMessages parse .closed = (c.disconnect, []) ∧
      ∀ bytes, c.processMessages parse (.data bytes) = (c, processMessages parse bytes) := by
  have hlisten : ¬ (!c.connected || decide (c.socket < 0)) = true := by simp [hconnected, hopen]
  unfold Connection.processMessages
  exact ⟨if_neg hlisten, if_neg hlisten, fun _ => if_neg hlisten⟩

/-- What a poll does. -/
lemma polled_spec {round : Round} (h : Sync greeting p.miner.engine p.requester)
    (hconnected : p.requester.connection.connected = true)
    (hpolled : Polled world round.job₀ p round.received p') :
    Sync greeting p'.miner.engine p'.requester ∧ Keeps p.requester p'.requester ∧
      ∃ mail, Miner.Polled world.debugTarget p.miner mail p'.miner ∧ ∀ submits,
        (∀ m ∈ (Input.mk mail submits).messages, m.Valid) ∧
        ∀ callbacks, (round.messages world.parse).foldl (hear round.job₀)
            (p.requester.client, callbacks) =
          (p'.requester.client, callbacks ++
            (Input.mk mail submits).messages.map Message.callback) := by
  have hopen := h.opened hconnected
  obtain ⟨job₀, mail, replies⟩ := round
  cases hpolled with
  | skipped =>
    exact ⟨h, ⟨rfl, fun _ hrecorded => hrecorded⟩, none, .skipped, fun submits =>
      ⟨fun _ hm => absurd hm List.not_mem_nil, fun callbacks => by
        simp [Round.messages, Input.messages]⟩⟩
  | @received _ received hrun =>
    obtain ⟨herror, hclosed, hdata⟩ := processMessages_open world.parse hconnected hopen
    cases received with
    | error =>
      rw [herror, withConnection_self h.connected] at hrun
      obtain ⟨messages, hsync, hkeeps, hminer, hvalid, hheard⟩ := delivered_of_run h hrun
      exact ⟨hsync, hkeeps, some (.messages messages), .messages hminer, fun _ => ⟨hvalid, hheard⟩⟩
    | closed =>
      rw [hclosed] at hrun
      obtain rfl := hrun.eq_of_nil
      rw [Connection.disconnect, if_pos hopen]
      exact ⟨h.closed, keeps_connection _ _, some .closed, .closed, fun _ =>
        ⟨fun _ hm => absurd hm List.not_mem_nil, fun callbacks => by
          simp [Round.messages, Input.messages, withConnection]⟩⟩
    | data bytes =>
      rw [hdata, withConnection_self h.connected] at hrun
      obtain ⟨messages, hsync, hkeeps, hminer, hvalid, hheard⟩ := delivered_of_run h hrun
      exact ⟨hsync, hkeeps, some (.messages messages), .messages hminer, fun _ => ⟨hvalid, hheard⟩⟩

/-! ## Iterations -/

lemma client_submitSolution (parse : Parser) (r : Requester) (solution : Solution) (a : Acceptance)
    (received : Received) :
    (r.submitSolution parse solution a received).1.client = r.client ∧
      (r.submitSolution parse solution a received).1.worker = r.worker := by
  have hsend : (r.send (r.submission solution) a).1.client = r.client ∧
      (r.send (r.submission solution) a).1.worker = r.worker := by
    unfold Requester.send
    dsimp only
    split <;> exact ⟨rfl, rfl⟩
  unfold Requester.submitSolution
  split
  · exact ⟨rfl, rfl⟩
  · split
    · next heq =>
      rw [heq] at hsend
      exact hsend
    · exact hsend

/-- Submitting keeps what the client knows, and the record. -/
lemma submitAll_spec {parse : Parser} {jobId : String} {solutions : List Solution}
    {replies : ℕ → Acceptance × Received} {r r' : Requester}
    (h : r.submitAll parse jobId solutions replies = .ok r') :
    r'.client = r.client ∧ r'.worker = r.worker ∧
      ((∀ i, (replies i).1.Whole) → (∃ made, r.Recorded made) → ∃ made, r'.Recorded made) := by
  induction solutions generalizing r replies with
  | nil =>
    obtain rfl := Except.ok.inj h
    exact ⟨rfl, rfl, fun _ hrecorded => hrecorded⟩
  | cons solution solutions ih =>
    obtain ⟨hclient, hworker⟩ := client_submitSolution parse r { solution with jobId := jobId }
      (replies 0).1 (replies 0).2
    have hone : ∀ made, r.Recorded made → (replies 0).1.Whole → ∃ made' ≤ made + 2,
        (r.submitSolution parse { solution with jobId := jobId }
          (replies 0).1 (replies 0).2).1.Recorded made' :=
      fun made hmade hwhole => hmade.submitSolution parse _ hwhole _
    rw [Requester.submitAll] at h
    split at h
    · next r₁ result heq =>
      rw [heq] at hclient hworker hone
      obtain ⟨hclient', hworker', hrecorded'⟩ := ih h
      refine ⟨hclient'.trans hclient, hworker'.trans hworker, fun hwhole ⟨made, hmade⟩ => ?_⟩
      obtain ⟨made', -, hmade'⟩ := hone made hmade (hwhole 0)
      exact hrecorded' (fun i => hwhole (i + 1)) ⟨made', hmade'⟩
    · cases h

/-- A client that has been able to write its worker can write every submission. -/
lemma exists_submitAll {parse : Parser} {jobId : String} {solutions : List Solution}
    {replies : ℕ → Acceptance × Received} {r : Requester} (h : Utf8.WellFormed r.worker) :
    ∃ r', r.submitAll parse jobId solutions replies = .ok r' := by
  induction solutions generalizing r replies with
  | nil => exact ⟨r, rfl⟩
  | cons solution solutions ih =>
    obtain ⟨-, hworker⟩ := client_submitSolution parse r { solution with jobId := jobId }
      (replies 0).1 (replies 0).2
    obtain ⟨r₁, result, heq⟩ : ∃ r₁ result, r.submitSolution parse
        { solution with jobId := jobId } (replies 0).1 (replies 0).2 = (r₁, .ok result) := by
      have htexts : ∀ s ∈ (r.submission { solution with jobId := jobId }).strings,
          Utf8.WellFormed s :=
        List.forall_mem_cons.mpr
          ⟨h, List.forall_mem_singleton.mpr ((wellFormed_iff _).mpr ⟨_, rfl⟩)⟩
      obtain ⟨r₁, sent, hsend⟩ := Requester.exists_send r (replies 0).1 htexts
      unfold Requester.submitSolution
      split
      · exact ⟨_, _, rfl⟩
      · split
        · exact ⟨_, _, rfl⟩
        · exact ⟨r₁, sent, hsend⟩
    rw [heq] at hworker
    rw [Requester.submitAll, heq]
    exact ih (hworker ▸ h)

/-- **What an iteration does**: it is one of the miner, engine and client stay in step, and the
messages of the miner are those in the bytes that arrived. -/
lemma step_spec {round : Round} (h : Sync greeting p.miner.engine p.requester)
    (hstep : Step world p round p') :
    Sync greeting p'.miner.engine p'.requester ∧ p'.requester.worker = p.requester.worker ∧
      (round.Whole → (∃ made, p.requester.Recorded made) → ∃ made, p'.requester.Recorded made) ∧
      ∃ input, Miner.Step world.env world.debugTarget p.miner input p'.miner ∧
        (∀ m ∈ input.messages, m.Valid) ∧
        ∀ callbacks, (round.messages world.parse).foldl (hear round.job₀)
            (p.requester.client, callbacks) =
          (p'.requester.client, callbacks ++ input.messages.map Message.callback) := by
  cases hstep with
  | wait hconnected hpolled hready =>
    obtain ⟨hsync, hkeeps, mail, hmail, hheard⟩ := polled_spec h hconnected hpolled
    obtain ⟨hvalid, hheard⟩ := hheard fun _ => .unsent
    exact ⟨hsync, hkeeps.worker, fun _ ⟨made, hmade⟩ => ⟨made, hkeeps.recorded made hmade⟩,
      _, .wait (h.connected.trans hconnected) hmail hready, hvalid, hheard⟩
  | mine hconnected hpolled hready hsearched hsubmitted =>
    obtain ⟨hsync, hkeeps, mail, hmail, hheard⟩ := polled_spec h hconnected hpolled
    obtain ⟨hvalid, hheard⟩ := hheard fun i =>
      outcomeOf world.parse (round.replies i).1 (round.replies i).2
    obtain ⟨hclient, hworker, hrecorded⟩ := submitAll_spec hsubmitted
    refine ⟨?_, hworker.trans hkeeps.worker, fun hwhole ⟨made, hmade⟩ =>
      hrecorded hwhole ⟨made, hkeeps.recorded made hmade⟩, _,
      .mine (h.connected.trans hconnected) hmail hready hsearched, hvalid, fun callbacks => ?_⟩
    · change Sync greeting (MiningEngine.processSolutions _ _ _ _) _
      exact Sync.processSolutions (hsync.searches _) hsubmitted
    · rw [hheard, hclient]

/-! ## Runs -/

variable {parse : Parser} {start : Program} {rounds : List Round} {setup : Setup}

/-- The inputs of the miner, iteration by iteration: its messages are what `processMessages` makes
of the bytes. -/
inductive Feeds (parse : Parser) (client : Client) : List Round → List Input → Prop
  | nil : Feeds parse client [] []
  | snoc {rounds : List Round} {inputs : List Input} {round : Round} {input : Input}
      (h : Feeds parse client rounds inputs)
      (heard : (heard parse client (rounds ++ [round])).2 =
        (Miner.allMessages (inputs ++ [input])).map Message.callback) :
      Feeds parse client (rounds ++ [round]) (inputs ++ [input])

/-- The share was found for what the miner had received up to some point. -/
def FoundIn (world : World) (inputs : List Input) (share : Share) : Prop :=
  ∃ before after, inputs = before ++ after ∧
    Miner.FoundFor (envCfg world.env) world.debugTarget (Miner.allMessages before) share

lemma FoundIn.snoc {inputs : List Input} {share : Share} (h : FoundIn world inputs share)
    (input : Input) : FoundIn world (inputs ++ [input]) share := by
  obtain ⟨before, after, rfl, hfound⟩ := h
  exact ⟨before, after ++ [input], List.append_assoc _ _ _, hfound⟩

/-- What holds after some iterations, which have been those of the miner with these inputs. -/
structure Invariant (world : World) (setup : Setup) (greeting : List Request) (start : Program)
    (rounds : List Round) (p : Program) (inputs : List Input) : Prop where
  sync : Sync greeting p.miner.engine p.requester
  worker : p.requester.worker = start.requester.worker
  recorded : setup.Whole → (∀ round ∈ rounds, round.Whole) → ∃ made, p.requester.Recorded made
  run : Run (Miner.Step world.env world.debugTarget) start.miner inputs p.miner
  feeds : Feeds world.parse start.requester.client rounds inputs
  heard : heard world.parse start.requester.client rounds =
    (p.requester.client, (Miner.allMessages inputs).map Message.callback)
  received : Miner.Received world.debugTarget (Miner.allMessages inputs) p.miner
  shares : ∀ share ∈ p.miner.engine.shares, FoundIn world inputs share

lemma heard_concat (parse : Parser) (client : Client) (rounds : List Round) (round : Round) :
    heard parse client (rounds ++ [round]) =
      (round.messages parse).foldl (hear round.job₀) (heard parse client rounds) := by
  rw [heard, List.foldl_concat]
  rfl

lemma Invariant.step {round : Round} {inputs : List Input}
    (h : Invariant world setup greeting start rounds p inputs) (hstep : Step world p round p') :
    ∃ input, Invariant world setup greeting start (rounds ++ [round]) p' (inputs ++ [input]) := by
  obtain ⟨hsync, hworker, hrecorded, input, hminer, hvalid, hheard⟩ := step_spec h.sync hstep
  have hreceived := h.received
  have heq : Program.heard world.parse start.requester.client (rounds ++ [round]) =
      (p'.requester.client, (Miner.allMessages (inputs ++ [input])).map Message.callback) := by
    rw [heard_concat, h.heard, hheard, Miner.allMessages_concat, List.map_append]
  refine ⟨input, hsync, hworker.trans h.worker, fun hsetup hwhole => ?_, h.run.snoc hminer,
    h.feeds.snoc (congrArg Prod.snd heq), heq, ?_, fun share hmem => ?_⟩
  · obtain ⟨hrounds, hround⟩ := List.forall_mem_append.mp hwhole
    exact hrecorded (List.forall_mem_singleton.mp hround) (h.recorded hsetup hrounds)
  · rw [Miner.allMessages_concat]
    exact hreceived.step hvalid hminer
  · rcases hreceived.shares_step hvalid hminer share hmem with hold | hfound
    · exact (h.shares share hold).snoc input
    · refine ⟨inputs ++ [input], [], (List.append_nil _).symm, ?_⟩
      rwa [Miner.allMessages_concat]

variable {poolUrl walletAddress : List Byte} {clientJob currentJob : MiningJob} {cacheDir : String}

lemma requester_of_start
    (h : Program.start parse poolUrl walletAddress clientJob currentJob cacheDir setup = some p) :
    ∃ client, (Requester.new poolUrl walletAddress client).initializeEngine parse setup =
        some p.requester ∧
      p.miner = .initial p.requester.client.currentJob currentJob cacheDir := by
  obtain ⟨r, hinitialize, rfl⟩ := Option.map_eq_some_iff.mp h
  exact ⟨_, hinitialize, rfl⟩

lemma start_eq {r : Requester}
    (h : (Requester.new poolUrl walletAddress
      { currentDifficulty := BitVec.allOnes 64, currentJob := clientJob, onJob := false,
        onDifficulty := false }).initializeEngine parse setup = some r) :
    Program.start parse poolUrl walletAddress clientJob currentJob cacheDir setup =
      some { miner := .initial r.client.currentJob currentJob cacheDir, requester := r } :=
  congrArg (Option.map _) h

/-- What holds after `initialize`. -/
lemma invariant_start
    (h : Program.start world.parse poolUrl walletAddress clientJob currentJob cacheDir setup =
      some start) :
    Invariant world setup (start.requester.requests.map Prod.snd) start [] start [] := by
  obtain ⟨client, hinitialize, hminer⟩ := requester_of_start h
  obtain ⟨hconnected, hopen, hregistered, -, -⟩ := Requester.initializeEngine_spec hinitialize
  refine ⟨⟨?_, fun _ => hopen, ?_, hregistered, ?_⟩, rfl,
    fun hwhole _ => recorded_initializeEngine hwhole hinitialize, .refl _, .nil, rfl, ?_, ?_⟩
  · rw [hminer, hconnected]
    rfl
  · rw [hminer]
    rfl
  · rw [hminer]
    exact (List.append_nil _).symm
  · rw [hminer]
    exact Miner.received_initial
  · rw [hminer]
    exact fun share hmem => absurd hmem List.not_mem_nil

lemma isSubmit_request (worker : List Byte) (share : Share) :
    (share.request worker).isSubmit = true := rfl

/-- The requests that submit something are those of the shares. -/
lemma Invariant.filter_isSubmit {inputs : List Input}
    (h : Invariant world setup greeting start rounds p inputs)
    (hgreeting : ∀ request ∈ greeting, request.isSubmit = false) :
    (p.requester.requests.map Prod.snd).filter Request.isSubmit =
      p.miner.engine.shares.map (Share.request start.requester.worker) := by
  have hnone : greeting.filter Request.isSubmit = [] :=
    List.filter_eq_nil_iff.mpr fun request hmem => by simp [hgreeting request hmem]
  have hall : (p.miner.engine.shares.map (Share.request start.requester.worker)).filter
      Request.isSubmit = p.miner.engine.shares.map (Share.request start.requester.worker) := by
    refine List.filter_eq_self.mpr fun request hmem => ?_
    obtain ⟨share, -, rfl⟩ := List.mem_map.mp hmem
    exact isSubmit_request _ share
  rw [h.sync.requests, h.worker, List.filter_append, hnone, hall, List.nil_append]

/-- What holds at the end of every run. -/
lemma invariant_of_run
    (hstart : Program.start world.parse poolUrl walletAddress clientJob currentJob cacheDir setup =
      some start)
    (hrun : Run (Step world) start rounds p) :
    ∃ inputs, Invariant world setup (start.requester.requests.map Prod.snd) start rounds p
      inputs :=
  hrun.invariant_labels
    (fun rounds p => ∃ inputs, Invariant world setup _ start rounds p inputs)
    ⟨[], invariant_start hstart⟩ fun _ _ _ _ ⟨inputs, h⟩ hstep => by
      obtain ⟨input, h'⟩ := h.step hstep
      exact ⟨inputs ++ [input], h'⟩

lemma hear_snd (job₀ : MiningJob) (heard : Client × List Callback) (message : Json) :
    (hear job₀ heard message).2 = heard.2 ++
      ((processNotification job₀ heard.1 message).bind Prod.snd).toList := by
  rw [hear]
  cases processNotification job₀ heard.1 message with
  | none => exact (List.append_nil _).symm
  | some result => rfl

/-- A message with defined behaviour can be handed over, whatever becomes of its generation, if that
does not throw. -/
lemma exists_deliver {message : Json} {messages : List Message} {client : Client}
    {m : Option Message} (h : Sync greeting p.miner.engine p.requester)
    (hreceived : Miner.Received world.debugTarget messages p.miner)
    (hsome : processNotification job₀ p.requester.client message =
      some (client, m.map Message.callback)) (hthrows : ∀ m' ∈ m, m'.throws = false) :
    ∃ p', Deliver world job₀ p message p' ∧ p'.requester.client = client ∧
      Run (Miner.Deliver world.debugTarget) p.miner m.toList p'.miner := by
  cases m with
  | none => exact ⟨_, .silent hsome, rfl, .refl _⟩
  | some m =>
    cases m with
    | difficulty value => exact ⟨_, .called hsome .difficulty, rfl, .snoc (.refl _) .difficulty⟩
    | job delivered o =>
      have hepoch : delivered.epoch.toNat < 2000 := by
        cases effect_of_processNotification h.registered hsome
        exact toNat_epoch_installed_lt _ _ _ _ _
      obtain ⟨miner, hminer⟩ := hreceived.exists_deliver hepoch (hthrows _ rfl)
      exact ⟨_, .called hsome hminer, rfl, .snoc (.refl _) hminer⟩

/-- So can the messages of some bytes, one after the other. -/
lemma exists_run {received : List Json} {messages delivered : List Message}
    (h : Sync greeting p.miner.engine p.requester)
    (hreceived : Miner.Received world.debugTarget messages p.miner)
    (hdefined : (received.foldlM (fun client message =>
      (processNotification job₀ client message).map Prod.fst) p.requester.client).isSome)
    (hdelivered : delivered.map Message.callback =
      (received.foldl (hear job₀) (p.requester.client, [])).2)
    (hthrows : ∀ m ∈ delivered, m.throws = false) :
    ∃ p', Run (Deliver world job₀) p received p' ∧
      some p'.requester.client = received.foldlM (fun client message =>
        (processNotification job₀ client message).map Prod.fst) p.requester.client ∧
      Run (Miner.Deliver world.debugTarget) p.miner delivered p'.miner := by
  induction received using List.reverseRecOn generalizing delivered with
  | nil =>
    obtain rfl := List.map_eq_nil_iff.mp hdelivered
    exact ⟨p, .refl _, rfl, .refl _⟩
  | append_singleton received message ih =>
    rw [List.foldlM_append] at hdefined ⊢
    rw [List.foldl_concat, hear_snd] at hdelivered
    obtain ⟨first, last, rfl, hfirst, hlast⟩ := List.map_eq_append_iff.mp hdelivered
    obtain ⟨hthrows₁, hthrows₂⟩ := List.forall_mem_append.mp hthrows
    have hinit : (received.foldlM (fun client message =>
        (processNotification job₀ client message).map Prod.fst) p.requester.client).isSome :=
      Option.isSome_of_isSome_bind hdefined
    -- what the earlier messages leave is a state to which the last one can be handed over
    obtain ⟨p₁, hrun, hclient, hminer⟩ := ih hinit hfirst hthrows₁
    obtain ⟨messages₁, hsync, -, hminer₁, hvalid, hheard⟩ := delivered_of_run h hrun
    let input : Input := { mail := some (.messages messages₁), submits := fun _ => .unsent }
    have hvalid₁ : ∀ m ∈ input.messages, m.Valid := hvalid
    have hpolled : Miner.Polled world.debugTarget p.miner input.mail p₁.miner := .messages hminer₁
    have hreceived₁ := hreceived.polled hvalid₁ hpolled
    rw [← hclient] at hdefined ⊢
    rw [hheard []] at hlast
    obtain ⟨⟨client, callback⟩, hsome⟩ :
        ∃ result, processNotification job₀ p₁.requester.client message = some result := by
      refine Option.isSome_iff_exists.mp ?_
      simpa using hdefined
    rw [hsome] at hlast
    obtain ⟨m, rfl, rfl⟩ : ∃ m : Option Message, m.toList = last ∧
        m.map Message.callback = callback := by
      cases callback with
      | none => exact ⟨none, (List.map_eq_nil_iff.mp hlast).symm, rfl⟩
      | some callback =>
        obtain ⟨m, rest, rfl, rfl, hrest⟩ := List.map_eq_cons_iff.mp hlast
        obtain rfl := List.map_eq_nil_iff.mp hrest
        exact ⟨some m, rfl, rfl⟩
    obtain ⟨p', hdeliver, rfl, hminer'⟩ := exists_deliver hsync hreceived₁ hsome
      fun m' hm' => hthrows₂ m' (Option.mem_toList.mpr hm')
    refine ⟨p', hrun.snoc hdeliver, ?_, hminer.append hminer'⟩
    simp [hsome]

/-- What arrives can be looked at. -/
lemma exists_polled {round : Round} {messages delivered : List Message}
    (h : Sync greeting p.miner.engine p.requester)
    (hreceived : Miner.Received world.debugTarget messages p.miner)
    (hconnected : p.requester.connection.connected = true)
    (hdefined : round.Defined world.parse p.requester.client)
    (hdelivered : delivered.map Message.callback =
      round.callbacks world.parse p.requester.client)
    (hthrows : ∀ m ∈ delivered, m.throws = false) :
    ∃ p' mail, Polled world round.job₀ p round.received p' ∧
      Miner.Polled world.debugTarget p.miner mail p'.miner ∧
      ∀ submits, (Input.mk mail submits).messages = delivered := by
  have hopen := h.opened hconnected
  obtain ⟨job₀, mail, replies⟩ := round
  have hnone {mail : Option Mail} (hmail : ∀ submits, (Input.mk mail submits).messages = [])
      (hsilent : delivered.map Message.callback = []) :
      ∀ submits, (Input.mk mail submits).messages = delivered := by
    obtain rfl := List.map_eq_nil_iff.mp hsilent
    exact hmail
  cases mail with
  | none => exact ⟨p, none, .skipped, .skipped, hnone (fun _ => rfl) hdelivered⟩
  | some received =>
    obtain ⟨herror, hclosed, hdata⟩ := processMessages_open world.parse hconnected hopen
    cases received with
    | error =>
      refine ⟨p.withConnection p.requester.connection, none, .received ?_, ?_,
        hnone (fun _ => rfl) hdelivered⟩
      · rw [herror]
        exact .refl _
      · rw [withConnection_self h.connected]
        exact .skipped
    | closed =>
      refine ⟨p.withConnection p.requester.connection.disconnect, some .closed, .received ?_, ?_,
        hnone (fun _ => rfl) hdelivered⟩
      · rw [hclosed]
        exact .refl _
      · rw [Connection.disconnect, if_pos hopen]
        exact .closed
    | data bytes =>
      obtain ⟨p', hrun, -, hminer⟩ := exists_run h hreceived hdefined hdelivered hthrows
      refine ⟨p', some (.messages delivered), .received ?_, .messages hminer, fun _ => rfl⟩
      rw [hdata, withConnection_self h.connected]
      exact hrun

/-- The device is ready for a search: the device manager has the DAG that the last generation,
which was for the epoch of the job, has left, and nobody has freed it. -/
def ReadyFor (p : Program) (messages : List Message) : Prop :=
  ∃ g dDag words, lastGeneration messages = some g ∧
    g.epoch = p.miner.engine.currentJob.epoch ∧ p.miner.components.OnDevice g dDag words ∧
    dDag ∉ p.miner.components.frees

/-- **No iteration gets stuck.**  In every run, as long as the client is connected: if the bytes
that arrive have defined behaviour, the engine can take their messages, whatever becomes of their
generations, unless one of them throws.  However the messages have been taken, the iteration ends:
it waits, or the device is ready for a search, which comes to an end, and none of its submissions
ends in an exception. -/
theorem run_goes_on (round : Round)
    (hstart : Program.start world.parse poolUrl walletAddress clientJob currentJob cacheDir setup =
      some start)
    (hrun : Run (Step world) start rounds p)
    (hconnected : p.requester.connection.connected = true) :
    (round.Defined world.parse p.requester.client → ∀ messages : List Message,
      messages.map Message.callback = round.callbacks world.parse p.requester.client →
      (∀ m ∈ messages, m.throws = false) →
        ∃ p' mail, Polled world round.job₀ p round.received p' ∧
          Miner.Polled world.debugTarget p.miner mail p'.miner ∧
          ∀ submits, (Input.mk mail submits).messages = messages) ∧
      ∀ p', Polled world round.job₀ p round.received p' →
        (p'.miner.engine.ready = false → Step world p round p') ∧
        (p'.miner.engine.ready = true →
          (∃ inputs input, Run (Miner.Step world.env world.debugTarget) start.miner inputs p.miner ∧
            Miner.Polled world.debugTarget p.miner input.mail p'.miner ∧
            Feeds world.parse start.requester.client (rounds ++ [round]) (inputs ++ [input]) ∧
            p'.ReadyFor (Miner.allMessages (inputs ++ [input]))) ∧
          (∃ solutions, Miner.Launched world.env p'.miner solutions) ∧
          ∀ solutions, Miner.Searched world.env p'.miner solutions →
            ∃ r, Step world p round
              { miner := p'.miner.mine solutions fun i =>
                  outcomeOf world.parse (round.replies i).1 (round.replies i).2
                requester := r }) := by
  obtain ⟨client, hinitialize, -⟩ := requester_of_start hstart
  obtain ⟨-, -, -, -, htext, -⟩ := Requester.initializeEngine_spec hinitialize
  obtain ⟨inputs, hsync, hworker, -, hminer, hfeeds, heq, hreceived, -⟩ :=
    invariant_of_run hstart hrun
  refine ⟨fun hdefined delivered => exists_polled hsync hreceived hconnected hdefined,
    fun p' hpolled => ⟨.wait hconnected hpolled, fun hready => ?_⟩⟩
  obtain ⟨-, hkeeps, mail, hmail, hheard⟩ := polled_spec hsync hconnected hpolled
  let input : Input := { mail := mail, submits := fun _ => .unsent }
  obtain ⟨hvalid, hheard⟩ := hheard input.submits
  -- the invariant of the miner, after the messages of this iteration
  have hreceived' := hreceived.polled hvalid hmail
  rw [← Miner.allMessages_concat] at hreceived'
  have hjob := (Bool.and_eq_true _ _ ▸ hready).1
  obtain ⟨-, g, dDag, words, hdevice⟩ := hreceived'.onDevice hjob
  refine ⟨⟨inputs, input, hminer, hmail, hfeeds.snoc ?_, g, dDag, words, hdevice⟩,
    hreceived'.exists_launched hjob, fun solutions hsearched => ?_⟩
  · rw [heard_concat, heq, hheard, Miner.allMessages_concat, List.map_append]
  · obtain ⟨r, hsubmitted⟩ : ∃ r, p'.requester.submitAll world.parse
        p'.miner.engine.currentJob.jobId solutions round.replies = .ok r :=
      exists_submitAll ((hkeeps.worker.trans hworker) ▸ htext)
    exact ⟨r, .mine hconnected hpolled hready hsearched hsubmitted⟩

/-! ## A first share -/

/-- The message `{"method":"mining.set_difficulty","params":[1]}`. -/
def difficultyText : List Byte :=
  utf8 "\x7b\"method\":\"mining.set_difficulty\",\"params\":[1]\x7d"

/-- A world in which the texts of a short conversation can be parsed. -/
def firstWorld : World :=
  { parse := Handshake.tableParser
      [(trueText, .object [("id", .integer 1), ("result", .boolean true)]),
        (difficultyText, difficultyMessage (.integer 1)),
        (notifyText, notifyMessage "1" "0x0" "0x0")]
    env := SearchCall.textureEnvironment
    debugTarget := Miner.anyHash }

/-- A pool that accepts the client. -/
def firstSetup : Setup :=
  { deviceCount := 1, deviceId := 0, network := plainNetwork, workerName := [],
    suggestEnv := none, job₀ := zeroJob, subscribe := (.taken, .data trueText),
    authorize := (.taken, .data trueText), suggest := .taken }

/-- A difficulty and a job arrive, and every share is accepted. -/
def firstRound : Round :=
  { job₀ := zeroJob, received := some (.data (difficultyText ++ notifyText)),
    replies := fun _ => (.taken, .data trueText) }

lemma send_taken {r : Requester} {request : Request} (hopen : 0 ≤ r.connection.socket)
    (h : ∀ s ∈ request.strings, Utf8.WellFormed s) :
    ∃ r', r.send request .taken = (r', .ok true) ∧ r.Same r' := by
  obtain ⟨r', sent, hsend⟩ := Requester.exists_send r .taken h
  obtain ⟨hsame, -, hsent⟩ := Requester.send_spec hsend
  have htrue : sent = true := (hsent hopen).mpr (by simp)
  exact ⟨r', htrue ▸ hsend, hsame⟩

lemma exists_subscribe (parse : Parser) (r : Requester) (response : List Byte)
    (hconnected : r.connection.connected = true) (hopen : 0 ≤ r.connection.socket)
    (h : Handshake.subscribe parse true response = true) :
    ∃ r', r.subscribe parse .taken (.data response) = (r', .ok true) ∧ r.Same r' := by
  have hnone : ∀ s ∈ Request.subscribe.strings, Utf8.WellFormed s :=
    fun _ hs => absurd hs List.not_mem_nil
  obtain ⟨r', hsend, hsame⟩ := send_taken hopen hnone
  refine ⟨r', ?_, hsame⟩
  unfold Requester.subscribe
  rw [if_neg (by simp [hconnected]), hsend]
  dsimp only
  rw [Requester.receive_open (hsame.connection ▸ hopen), h]

lemma exists_authorize (parse : Parser) (r : Requester) (job₀ : MiningJob)
    (response : List Byte) (a : Acceptance) (hconnected : r.connection.connected = true)
    (hopen : 0 ≤ r.connection.socket) (hwallet : Utf8.WellFormed r.walletAddress)
    (h : ∀ r', Requester.authorized parse r' job₀ response none a = some (r', true)) :
    ∃ r', r.authorize parse job₀ [] .taken (.data response) none a = some (r', .ok true) ∧
      r'.client = r.client := by
  have hopen' : 0 ≤ { r with
      currentWorker := Requester.workerOf r.walletAddress [] }.connection.socket := hopen
  have htexts : ∀ s ∈ (Request.authorize (Requester.workerOf r.walletAddress [])).strings,
      Utf8.WellFormed s := List.forall_mem_singleton.mpr hwallet
  obtain ⟨r', hsend, hsame⟩ := send_taken hopen' htexts
  refine ⟨r', ?_, hsame.client⟩
  unfold Requester.authorize
  rw [if_neg (by simp [hconnected])]
  dsimp only
  rw [hsend]
  dsimp only
  rw [Requester.receive_open (hsame.connection ▸ hopen), h]
  rfl

lemma initializeEngine_eq {parse : Parser} {setup : Setup} {r r₁ r₂ : Requester}
    {attempt : Attempt}
    (hdevice : ¬ (setup.deviceCount = 0 ∨ setup.deviceCount ≤ setup.deviceId ∨ setup.deviceId < 0))
    (hconnect : r.connection.connect setup.network = .ok attempt) (hresult : attempt.result = true)
    (hsubscribe : { r with connection := attempt.connection }.subscribe parse setup.subscribe.1
      setup.subscribe.2 = (r₁, .ok true))
    (hauthorize : r₁.authorize parse setup.job₀ setup.workerName setup.authorize.1
      setup.authorize.2 setup.suggestEnv setup.suggest = some (r₂, .ok true)) :
    r.initializeEngine parse setup =
      some { r₂ with client := { r₂.client with onJob := true, onDifficulty := true } } := by
  unfold Requester.initializeEngine
  rw [if_neg hdevice, hconnect]
  dsimp only
  rw [if_neg (by simp [hresult]), hsubscribe]
  dsimp only
  rw [hauthorize]

lemma subscribe_trueText : Handshake.subscribe firstWorld.parse true trueText = true := by
  rfl

lemma authorized_trueText (r : Requester) : Requester.authorized firstWorld.parse r zeroJob
    trueText none .taken = some (r, true) := by
  have hanswer : firstWorld.parse trueText =
      some (.object [("id", .integer 1), ("result", .boolean true)]) := rfl
  unfold Requester.authorized
  rw [if_neg (by decide), hanswer]
  rfl

/-- The attempt that connects. -/
def firstAttempt : Attempt :=
  { resolved := utf8 "pool", dialled := some (0x7F000001, 3333), result := true,
    connection := { poolUrl := utf8 "pool", connected := true, socket := 3 } }

lemma connect_firstSetup (client : Client) :
    (Requester.new (utf8 "pool") (utf8 "wallet") client).connection.connect firstSetup.network =
      .ok firstAttempt := by
  rfl

/-- The client after `initialize`. -/
lemma exists_firstStart : ∃ start, Program.start firstWorld.parse (utf8 "pool") (utf8 "wallet")
    zeroJob zeroJob "" firstSetup = some start ∧ start.requester.client = idleClient := by
  let client : Client :=
    { currentDifficulty := BitVec.allOnes 64, currentJob := zeroJob, onJob := false,
      onDifficulty := false }
  have hwallet : Utf8.WellFormed (utf8 "wallet") := (wellFormed_iff _).mpr ⟨"wallet", rfl⟩
  obtain ⟨r₁, hsubscribe, hsame⟩ := exists_subscribe firstWorld.parse
    { Requester.new (utf8 "pool") (utf8 "wallet") client with
      connection := firstAttempt.connection }
    trueText rfl (by decide) subscribe_trueText
  have hconnection : r₁.connection = firstAttempt.connection := hsame.connection
  have hwallet' : r₁.walletAddress = utf8 "wallet" := hsame.walletAddress
  obtain ⟨r₂, hauthorize, hclient⟩ := exists_authorize firstWorld.parse r₁ zeroJob
    trueText .taken (by rw [hconnection]; rfl) (by rw [hconnection]; decide)
    (by rwa [hwallet']) authorized_trueText
  have hinitialize : (Requester.new (utf8 "pool") (utf8 "wallet") client).initializeEngine
      firstWorld.parse firstSetup =
        some { r₂ with client := { r₂.client with onJob := true, onDifficulty := true } } :=
    initializeEngine_eq (by decide) (connect_firstSetup client) rfl hsubscribe hauthorize
  have hregistered : { r₂.client with onJob := true, onDifficulty := true } = idleClient := by
    rw [hclient, hsame.client]
    rfl
  exact ⟨_, start_eq hinitialize, hregistered⟩

lemma messages_firstRound : firstRound.messages firstWorld.parse =
    [difficultyMessage (.integer 1), notifyMessage "1" "0x0" "0x0"] := by
  have hobjects : objectsIn (difficultyText ++ notifyText) =
      [difficultyText, notifyText] := by decide +kernel
  show processMessages firstWorld.parse (difficultyText ++ notifyText) = _
  rw [processMessages, hobjects]
  rfl

/-- The client after the first difficulty. -/
def easyClient : Client :=
  { idleClient with
    currentDifficulty := 1, currentJob := { zeroJob with target := BitVec.allOnes 64 } }

/-- The first job. -/
def firstJob : MiningJob := installed zeroJob easyClient "1" "0x0" "0x0"

lemma hear_difficulty : processNotification zeroJob idleClient (difficultyMessage (.integer 1)) =
    some (easyClient, some (.onDifficulty 1)) := by
  rfl

lemma hear_job : processNotification zeroJob easyClient (notifyMessage "1" "0x0" "0x0") =
    some ({ easyClient with currentJob := firstJob }, some (.onJob firstJob)) := by
  rw [processNotification_typed (isNotify_notifyMessage "1" "0x0" "0x0") rfl
    (typed_notifyMessage "1" "0x0" "0x0"), if_pos (show easyClient.onJob = true from rfl)]
  rfl

lemma accepted_firstRound : (fun i => outcomeOf firstWorld.parse (firstRound.replies i).1
    (firstRound.replies i).2) = fun _ => .accepted := by
  have hresult : submitResult firstWorld.parse trueText = true := rfl
  funext i
  show answered firstWorld.parse (.data trueText) = .accepted
  rw [answered, if_pos hresult]

/-- The messages of the first iteration make the engine ready. -/
lemma exists_firstPolled {start : Program} (hclient : start.requester.client = idleClient)
    (hstart : Program.start firstWorld.parse (utf8 "pool") (utf8 "wallet") zeroJob zeroJob ""
      firstSetup = some start) :
    ∃ p, Polled firstWorld zeroJob start firstRound.received p ∧
      p.requester.worker = start.requester.worker ∧ p.miner.engine.connected = true ∧
      p.miner.engine.ready = true ∧
      ∃ solutions, Miner.Searched firstWorld.env p.miner solutions ∧ solutions ≠ [] := by
  obtain ⟨client, hinitialize, hminer⟩ := requester_of_start hstart
  obtain ⟨hconnected, hopen, -⟩ := Requester.initializeEngine_spec hinitialize
  rw [hclient] at hminer
  obtain ⟨m₁, m, hdifficulty, hjob, halive, hready, hsearched⟩ :=
    Miner.exists_firstReceived firstWorld.env zeroJob zeroJob firstJob
      (toNat_epoch_installed_lt _ _ _ _ _)
  have hreceived : start.requester.connection.processMessages firstWorld.parse
      (.data (difficultyText ++ notifyText)) = (start.requester.connection,
        [difficultyMessage (.integer 1), notifyMessage "1" "0x0" "0x0"]) := by
    obtain ⟨-, -, hdata⟩ := processMessages_open firstWorld.parse hconnected hopen
    rw [hdata, ← messages_firstRound]
    rfl
  let delivered (client : Client) (m : Miner) : Program :=
    { miner := m, requester := { start.requester with client := client } }
  have hfirst : Deliver firstWorld zeroJob start (difficultyMessage (.integer 1))
      (delivered easyClient m₁) :=
    .called (m := .difficulty 1) (hclient ▸ hear_difficulty) (hminer ▸ hdifficulty)
  have hsecond : Deliver firstWorld zeroJob (delivered easyClient m₁)
      (notifyMessage "1" "0x0" "0x0") (delivered { easyClient with currentJob := firstJob } m) :=
    .called (m := .job firstJob DagOutcome.ok) hear_job hjob
  have hsame : start.withConnection start.requester.connection = start := by
    refine withConnection_self ?_
    rw [hminer, hconnected]
    rfl
  refine ⟨delivered { easyClient with currentJob := firstJob } m, .received ?_, rfl, halive, hready,
    hsearched⟩
  rw [hreceived, hsame]
  exact .snoc (.snoc (.refl _) hfirst) hsecond

/-- The first iteration sends a share. -/
lemma exists_firstRun {start : Program} (hclient : start.requester.client = idleClient)
    (hstart : Program.start firstWorld.parse (utf8 "pool") (utf8 "wallet") zeroJob zeroJob ""
      firstSetup = some start) :
    ∃ p, Run (Step firstWorld) start [firstRound] p ∧ p.miner.engine.shares ≠ [] := by
  obtain ⟨client, hinitialize, -⟩ := requester_of_start hstart
  obtain ⟨hconnected, -, -, -, htext, -⟩ := Requester.initializeEngine_spec hinitialize
  obtain ⟨p, hpolled, hworker, halive, hready, solutions, hsearched, hsolutions⟩ :=
    exists_firstPolled hclient hstart
  obtain ⟨r, hsubmitted⟩ : ∃ r, p.requester.submitAll firstWorld.parse
      p.miner.engine.currentJob.jobId solutions firstRound.replies = .ok r :=
    exists_submitAll (hworker ▸ htext)
  refine ⟨_, .snoc (.refl _) (.mine hconnected hpolled hready hsearched hsubmitted), ?_⟩
  rw [accepted_firstRound]
  refine Miner.shares_processSolutions_ne_nil ?_ _ hsolutions
  exact halive

/-- The messages of the first iteration, with a generation for which everything succeeds. -/
def firstMessages : List Message := [.difficulty 1, .job firstJob DagOutcome.ok]

/-- The first iteration can take its messages, and its search ends. -/
theorem run_goes_on_first : ∃ start,
    Program.start firstWorld.parse (utf8 "pool") (utf8 "wallet") zeroJob zeroJob "" firstSetup =
      some start ∧
    (∃ p' mail, Polled firstWorld zeroJob start firstRound.received p' ∧
      Miner.Polled firstWorld.debugTarget start.miner mail p'.miner ∧
      ∀ submits, (Input.mk mail submits).messages = firstMessages) ∧
    ∃ p', Polled firstWorld zeroJob start firstRound.received p' ∧
      (∃ inputs input,
        Run (Miner.Step firstWorld.env firstWorld.debugTarget) start.miner inputs start.miner ∧
        Miner.Polled firstWorld.debugTarget start.miner input.mail p'.miner ∧
        Feeds firstWorld.parse start.requester.client [firstRound] (inputs ++ [input]) ∧
        p'.ReadyFor (Miner.allMessages (inputs ++ [input]))) ∧
      (∃ solutions, Miner.Launched firstWorld.env p'.miner solutions) ∧
      ∀ solutions, Miner.Searched firstWorld.env p'.miner solutions →
        ∃ r, Step firstWorld start firstRound
          { miner := p'.miner.mine solutions fun i =>
              outcomeOf firstWorld.parse (firstRound.replies i).1 (firstRound.replies i).2
            requester := r } := by
  obtain ⟨start, hstart, hclient⟩ := exists_firstStart
  obtain ⟨client, hinitialize, -⟩ := requester_of_start hstart
  obtain ⟨hconnected, -⟩ := Requester.initializeEngine_spec hinitialize
  have hdefined : firstRound.Defined firstWorld.parse start.requester.client := by
    rw [Round.Defined, messages_firstRound, hclient]
    show Option.isSome (List.foldlM (fun client message =>
      (processNotification zeroJob client message).map Prod.fst) idleClient
        [difficultyMessage (.integer 1), notifyMessage "1" "0x0" "0x0"])
    rw [List.foldlM_cons, hear_difficulty, Option.map_some, Option.bind_eq_bind, Option.bind_some,
      List.foldlM_cons, hear_job]
    rfl
  have hcallbacks : firstMessages.map Message.callback =
      firstRound.callbacks firstWorld.parse start.requester.client := by
    rw [Round.callbacks, messages_firstRound, hclient]
    show _ = (hear zeroJob (hear zeroJob (idleClient, []) (difficultyMessage (.integer 1)))
      (notifyMessage "1" "0x0" "0x0")).2
    rw [hear, hear, hear_difficulty]
    dsimp only
    rw [hear_job]
    rfl
  have hthrows : ∀ m ∈ firstMessages, m.throws = false :=
    List.forall_mem_cons.mpr ⟨rfl, List.forall_mem_singleton.mpr DagOutcome.throws_ok⟩
  obtain ⟨p, hpolled, -, -, hready, -⟩ := exists_firstPolled hclient hstart
  obtain ⟨htakes, hends⟩ := run_goes_on firstRound hstart (.refl start) hconnected
  exact ⟨start, hstart, htakes hdefined firstMessages hcallbacks hthrows, p, hpolled,
    (hends p hpolled).2 hready⟩

end Program

end OhMyMiner.Engine
