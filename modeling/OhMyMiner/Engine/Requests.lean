/-
# The requests on the wire

The calls of `StratumClient::Impl` (`src/network/stratum_client.cpp`) that send something:
`subscribe`, `authorize`, which may suggest a difficulty afterwards, and `submitSolution`.  Each of
them builds a JSON object with the next message id and sends its text and a line feed.

The pool sees bytes.  As long as the socket takes every message as a whole or not at all, these are
the lines of the requests in the order in which they were made, and the requests, with their ids
and parameters, can be read back from them.
-/
import OhMyMiner.Engine.Handshake
import OhMyMiner.Stratum.Connection
import OhMyMiner.Stratum.Dump
import OhMyMiner.Stratum.Fields
import OhMyMiner.Stratum.Objects
import OhMyMiner.Stratum.Submit

namespace OhMyMiner.Engine.Requests

open Lib JsonText Stratum Utils

/-! ## Building a request -/

/-- `emplace` of a `std::map` of strings: the keys ascend, and a key that is there stays. -/
def emplace (members : List (List Byte × Document)) (key : List Byte) (value : Document) :
    List (List Byte × Document) :=
  match members with
  | [] => [(key, value)]
  | m :: members =>
    if key < m.1 then (key, value) :: m :: members
    else if key = m.1 then m :: members
    else m :: emplace members key value

/-- The key and the value of "an array with two elements whose first element is a string". -/
def asPair : Document → Option (List Byte × Document)
  | .array [.string key, value] => some (key, value)
  | _ => none

/-- The constructor from an initializer list: an object if all elements are pairs, otherwise an
array. -/
def initializerList (init : List Document) : Document :=
  if init.all fun element => (asPair element).isSome then
    .object ((init.filterMap asPair).foldl (fun members m => emplace members m.1 m.2) [])
  else .array init

/-- A request: its method and its parameters. -/
inductive Request where
  | subscribe
  | authorize (worker : List Byte)
  | suggestDifficulty (difficulty : BitVec 64)
  | submit (worker jobId : List Byte) (nonce : BitVec 64) (headerHash mixHash : Hash32)

namespace Request

def method : Request → List Byte
  | subscribe => utf8 "mining.subscribe"
  | authorize _ => utf8 "mining.authorize"
  | suggestDifficulty _ => utf8 "mining.suggest_difficulty"
  | submit _ _ _ _ _ => utf8 "mining.submit"

def params : Request → Document
  | subscribe => initializerList [.string (utf8 "ohmy-miner-etc/1.0"), .null]
  | authorize worker => initializerList [.string worker, .string []]
  | suggestDifficulty difficulty => initializerList [.integer difficulty.toNat]
  | submit worker jobId nonce headerHash mixHash =>
    -- "Ethash Stratum expects 5 params: [worker, jobId, nonce, headerHash, mixHash]"
    initializerList [.string worker, .string jobId, .string (nonceHex nonce),
      .string (hash32ToHex headerHash true), .string (hash32ToHex mixHash true)]

/-- The message of a request. -/
def message (request : Request) (id : BitVec 64) : Document :=
  initializerList
    [initializerList [.string (utf8 "id"), .integer id.toNat],
     initializerList [.string (utf8 "method"), .string request.method],
     initializerList [.string (utf8 "params"), request.params]]

end Request

/-! ## Sending it -/

/-- What `::send` makes of a message: it fails, takes it, or takes a part of it. -/
inductive Acceptance where
  | failed
  | taken
  | cut (count : ℕ)

/-- What `::send` returns. -/
def Acceptance.sent (message : List Byte) : Acceptance → ℤ
  | failed => -1
  | taken => message.length
  | cut count => min count message.length

lemma Acceptance.sent_le (message : List Byte) (a : Acceptance) :
    a.sent message ≤ message.length := by
  cases a with
  | failed =>
    change (-1 : ℤ) ≤ _
    omega
  | taken => exact le_rfl
  | cut count => exact min_le_right _ _

/-- A message that was made: its id, its request, and whether `sendMessage` has sent it. -/
structure Made where
  id : BitVec 64
  request : Request
  sent : Bool

/-- What of a message goes out. -/
def Made.transmitted (made : Made) : Option (BitVec 64 × Request) :=
  if made.sent then some (made.id, made.request) else none

/-- The client, as far as its requests go.  The fields `wire` and `messages` record the bytes that
the sockets have taken and the messages that were made; nothing that happens depends on them. -/
structure Requester where
  connection : Connection
  client : Client
  messageId : BitVec 64
  walletAddress : List Byte
  currentWorker : List Byte
  wire : List Byte
  messages : List Made

namespace Requester

/-- The requests that were sent, with their ids. -/
def requests (r : Requester) : List (BitVec 64 × Request) := r.messages.filterMap Made.transmitted

/-- The constructor of `StratumClient::Impl`, with a client that has not been told a job. -/
def new (poolUrl walletAddress : List Byte) (client : Client) : Requester :=
  { connection := .new poolUrl, client := client, messageId := 1, walletAddress := walletAddress,
    currentWorker := [], wire := [], messages := [] }

/-- A request is built and sent.  The exception is the one of `dump`; the id is used up also
then. -/
def send (r : Requester) (request : Request) (a : Acceptance) : Requester × Except Invalid Bool :=
  let id := r.messageId
  let r := { r with messageId := r.messageId + 1 }
  match dump (request.message id) with
  | .error e =>
    ({ r with messages := r.messages ++ [{ id := id, request := request, sent := false }] },
      .error e)
  | .ok text =>
    let msg := text ++ [newline]
    let sent := r.connection.sendMessage
      { message := msg, sent := a.sent msg, sent_le := a.sent_le msg }
    ({ r with
        wire := r.wire ++ sent.wire
        messages := r.messages ++ [{ id := id, request := request, sent := sent.result }] },
      .ok sent.result)

/-- `receiveMessage`. -/
def receive (r : Requester) (received : Received) : Requester × List Byte :=
  let (connection, response) := r.connection.receiveMessage received
  ({ r with connection := connection }, response)

/-- `subscribe`. -/
def subscribe (parse : Parser) (r : Requester) (a : Acceptance) (received : Received) :
    Requester × Except Invalid Bool :=
  if !r.connection.connected then (r, .ok false)
  else
    match r.send .subscribe a with
    | (r, .ok true) =>
      let (r, response) := r.receive received
      (r, .ok (Handshake.subscribe parse true response))
    | outcome => outcome

/-- "Suggest difficulty if requested": the value of `OHMY_SUGGEST_DIFF`. -/
def suggest (r : Requester) (suggestEnv : Option (List Byte)) (a : Acceptance) : Requester :=
  match suggestEnv with
  | none => r
  | some text =>
    let sug := strtoull text
    if sug > 0 then (r.send (.suggestDifficulty sug) a).1 else r

/-- `processNotification`.  There is no result where the behaviour is undefined. -/
def processNotification (r : Requester) (job₀ : MiningJob) (message : Json) : Option Requester :=
  (Stratum.processNotification job₀ r.client message).map fun result =>
    { r with client := result.1 }

/-- `authorize`, from the response on. -/
def authorized (parse : Parser) (r : Requester) (job₀ : MiningJob) (response : List Byte)
    (suggestEnv : Option (List Byte)) (a : Acceptance) : Option (Requester × Bool) :=
  if response.isEmpty then some (r, false)
  else
    match parse response with
    | none => some (r, false)
    | some resp =>
      match Handshake.authorizeVerdict resp with
      | .ok .successful => some (r.suggest suggestEnv a, true)
      | .ok .notification =>
        (r.processNotification job₀ resp).map fun r => (r.suggest suggestEnv a, true)
      | .ok .failed => some (r, false)
      | .error _ => some (r, false)

/-- The wallet address, with the name of a worker if it has one. -/
def workerOf (walletAddress workerName : List Byte) : List Byte :=
  if workerName ≠ [] then walletAddress ++ [0x2E] ++ workerName else walletAddress

/-- `authorize`.  There is no result where the behaviour is undefined. -/
def authorize (parse : Parser) (r : Requester) (job₀ : MiningJob) (workerName : List Byte)
    (a : Acceptance) (received : Received) (suggestEnv : Option (List Byte)) (a' : Acceptance) :
    Option (Requester × Except Invalid Bool) :=
  if !r.connection.connected then some (r, .ok false)
  else
    let worker := workerOf r.walletAddress workerName
    -- "remember for submissions"
    let r := { r with currentWorker := worker }
    match r.send (.authorize worker) a with
    | (r, .ok true) =>
      let (r, response) := r.receive received
      (authorized parse r job₀ response suggestEnv a').map fun (r, result) => (r, .ok result)
    | outcome => some outcome

/-- The worker that solutions are submitted for. -/
def worker (r : Requester) : List Byte :=
  if r.currentWorker = [] then r.walletAddress else r.currentWorker

/-- The request of a solution. -/
def submission (r : Requester) (solution : Solution) : Request :=
  .submit r.worker
    (utf8 (if solution.jobId = "" then r.client.currentJob.jobId else solution.jobId))
    solution.nonce r.client.currentJob.headerHash solution.mixHash

/-- `submitSolution`. -/
def submitSolution (parse : Parser) (r : Requester) (solution : Solution) (a : Acceptance)
    (received : Received) : Requester × Except Invalid Bool :=
  if !r.connection.connected then (r, .ok false)
  else
    match r.send (r.submission solution) a with
    | (r, .ok true) =>
      let (r, response) := r.receive received
      (r, .ok (submitResult parse response))
    | outcome => outcome

/-- `processMessages`. -/
def processMessages (parse : Parser) (r : Requester) (job₀ : MiningJob) (received : Received) :
    Option Requester :=
  let (connection, notifications) := r.connection.processMessages parse received
  notifications.foldlM (fun r message => r.processNotification job₀ message)
    { r with connection := connection }

end Requester

/-- A call, with what the system and the pool do in it. -/
inductive Call where
  | connect (network : Network)
  | disconnect
  | subscribe (a : Acceptance) (received : Received)
  | authorize (job₀ : MiningJob) (workerName : List Byte) (a : Acceptance) (received : Received)
      (suggestEnv : Option (List Byte)) (a' : Acceptance)
  | submitSolution (solution : Solution) (a : Acceptance) (received : Received)
  | processMessages (job₀ : MiningJob) (received : Received)

/-- The state that a call leaves. -/
def Requester.perform (parse : Parser) (r : Requester) : Call → Option Requester
  | .connect network => some { r with connection := r.connection.perform parse (.connect network) }
  | .disconnect => some { r with connection := r.connection.disconnect }
  | .subscribe a received => some (r.subscribe parse a received).1
  | .authorize job₀ workerName a received suggestEnv a' =>
    (r.authorize parse job₀ workerName a received suggestEnv a').map Prod.fst
  | .submitSolution solution a received => some (r.submitSolution parse solution a received).1
  | .processMessages job₀ received => r.processMessages parse job₀ received

/-- Calls in any order. -/
def Step (parse : Parser) (r : Requester) (call : Call) (r' : Requester) : Prop :=
  r.perform parse call = some r'

/-! ## Messages -/

/-- A key that is larger than all others goes to the end. -/
lemma emplace_last {members : List (List Byte × Document)} {key : List Byte} (value : Document)
    (h : ∀ m ∈ members, ¬ key < m.1 ∧ key ≠ m.1) :
    emplace members key value = members ++ [(key, value)] := by
  induction members with
  | nil => rfl
  | cons m members ih =>
    obtain ⟨⟨hlt, hne⟩, hmembers⟩ := List.forall_mem_cons.mp h
    rw [emplace, if_neg hlt, if_neg hne, ih hmembers, List.cons_append]

namespace Request

/-- The parameters in the order in which they are sent. -/
def items : Request → List Document
  | subscribe => [.string (utf8 "ohmy-miner-etc/1.0"), .null]
  | authorize worker => [.string worker, .string []]
  | suggestDifficulty difficulty => [.integer difficulty.toNat]
  | submit worker jobId nonce headerHash mixHash =>
    [.string worker, .string jobId, .string (nonceHex nonce),
      .string (hash32ToHex headerHash true), .string (hash32ToHex mixHash true)]

lemma params_eq (request : Request) : request.params = .array request.items := by
  cases request <;> rfl

/-- The keys are in the order of the map. -/
lemma message_eq (request : Request) (id : BitVec 64) :
    request.message id = .object [(utf8 "id", .integer id.toNat),
      (utf8 "method", .string request.method), (utf8 "params", .array request.items)] := by
  have hmethod : ¬ utf8 "method" < utf8 "id" ∧ utf8 "method" ≠ utf8 "id" := by decide
  have hid : ¬ utf8 "params" < utf8 "id" ∧ utf8 "params" ≠ utf8 "id" := by decide
  have hparams : ¬ utf8 "params" < utf8 "method" ∧ utf8 "params" ≠ utf8 "method" := by decide
  have hfirst : emplace [(utf8 "id", .integer id.toNat)] (utf8 "method") (.string request.method) =
      [(utf8 "id", .integer id.toNat), (utf8 "method", .string request.method)] :=
    emplace_last _ (List.forall_mem_singleton.mpr hmethod)
  rw [message, params_eq]
  change Value.object (emplace (emplace [(utf8 "id", .integer id.toNat)] (utf8 "method")
    (.string request.method)) (utf8 "params") (.array request.items)) = _
  rw [hfirst, emplace_last _
    (List.forall_mem_cons.mpr ⟨hid, List.forall_mem_singleton.mpr hparams⟩)]
  rfl

lemma hash32ToHex_injective {hash hash' : Hash32}
    (h : hash32ToHex hash true = hash32ToHex hash' true) : hash = hash' := by
  have hdenotes := denotes_hash32ToHex hash true
  rw [h] at hdenotes
  exact hdenotes.eq (denotes_hash32ToHex hash' true)

lemma nonceHex_injective {nonce nonce' : BitVec 64} (h : nonceHex nonce = nonceHex nonce') :
    nonce = nonce' := by
  have hdecodes := hexToUint64_nonceHex nonce 0
  rw [h, hexToUint64_nonceHex] at hdecodes
  exact (Prod.mk.inj hdecodes).2.symm

lemma items_injective {request request' : Request} (h : request.items = request'.items) :
    request = request' := by
  cases request with
  | subscribe =>
    cases request' with
    | subscribe => rfl
    | _ => simp [items] at h
  | authorize worker =>
    cases request' with
    | authorize worker' => simpa [items] using h
    | _ => simp [items] at h
  | suggestDifficulty difficulty =>
    cases request' with
    | suggestDifficulty difficulty' =>
      simp only [items, List.cons.injEq, Value.integer.injEq, Nat.cast_inj, and_true] at h
      rw [BitVec.eq_of_toNat_eq h]
    | _ => simp [items] at h
  | submit worker jobId nonce headerHash mixHash =>
    cases request' with
    | submit worker' jobId' nonce' headerHash' mixHash' =>
      simp only [items, List.cons.injEq, Value.string.injEq, and_true] at h
      obtain ⟨rfl, rfl, hnonce, hheader, hmix⟩ := h
      rw [nonceHex_injective hnonce, hash32ToHex_injective hheader, hash32ToHex_injective hmix]
    | _ => simp [items] at h

/-- A message tells the id and the request. -/
lemma message_injective {request request' : Request} {id id' : BitVec 64}
    (h : request.message id = request'.message id') : id = id' ∧ request = request' := by
  rw [message_eq, message_eq] at h
  simp only [Value.object.injEq, List.cons.injEq, Prod.mk.injEq, Value.integer.injEq, Nat.cast_inj,
    Value.array.injEq, true_and, and_true] at h
  exact ⟨BitVec.eq_of_toNat_eq h.1, items_injective h.2.2⟩

end Request

/-! ### Messages that can be written -/

lemma wellFormed_of_ascii {s : List Byte} (h : ∀ b ∈ s, b.toNat < 128) : Utf8.WellFormed s :=
  (wellFormed_iff s).mpr ⟨asciiText s, utf8_asciiText h⟩

lemma ascii_nonceHex (nonce : BitVec 64) : ∀ b ∈ nonceHex nonce, b.toNat < 128 := by
  have hdigit : ∀ value : Byte, (streamDigit (value &&& 0xF)).toNat < 128 := by decide +kernel
  intro b hb
  obtain ⟨i, -, rfl⟩ := List.mem_map.mp hb
  exact hdigit _

namespace Request

/-- The strings of a request that do not come from the client itself. -/
def strings : Request → List (List Byte)
  | authorize worker => [worker]
  | submit worker jobId _ _ _ => [worker, jobId]
  | _ => []

/-- **A request can be written if the worker and the job id are UTF-8.** -/
lemma exists_dump_iff (request : Request) (id : BitVec 64) :
    (∃ text, dump (request.message id) = .ok text) ↔ ∀ s ∈ request.strings, Utf8.WellFormed s := by
  have hname (s : String) : Utf8.WellFormed (utf8 s) := (wellFormed_iff _).mpr ⟨s, rfl⟩
  have hmethod : Utf8.WellFormed request.method := by cases request <;> exact hname _
  have hnonce (nonce : BitVec 64) := wellFormed_of_ascii (ascii_nonceHex nonce)
  have hhash (hash : Hash32) := wellFormed_of_ascii (toNat_hash32ToHex_lt hash true)
  have hnull : ∃ t, dump .null = .ok t := ⟨_, rfl⟩
  have hinteger (n : ℤ) : ∃ t, dump (.integer n) = .ok t := ⟨_, rfl⟩
  rw [message_eq, exists_dump_object_iff]
  simp only [List.forall_mem_cons, hname, hinteger, exists_dump_string_iff, exists_dump_array_iff,
    hmethod, true_and]
  cases request <;> simp [items, strings, hname, hnull, hinteger, exists_dump_string_iff, hnonce,
    hhash, Utf8.wellFormed_nil]

end Request

/-! ## Lines -/

/-- The texts of requests. -/
def TextsOf : List (BitVec 64 × Request) → List (List Byte) → Prop :=
  List.Forall₂ fun q text => dump (q.2.message q.1) = .ok text

/-- The bytes are the lines of the requests: each of them the text of a JSON object, in which a
reader of braces and quotes, such as the client itself, finds the same objects. -/
structure Transmits (wire : List Byte) (requests : List (BitVec 64 × Request)) : Prop where
  lines : ∃ texts, TextsOf requests texts ∧ wire.splitOn newline = texts ++ [[]] ∧
    objectsIn wire = texts ∧ ∀ text ∈ texts, Derives .object text

/-- The line of a text. -/
def line (text : List Byte) : List Byte := text ++ [newline]

lemma flatMap_line (texts : List (List Byte)) :
    texts.flatMap line = [newline].intercalate (texts ++ [[]]) := by
  induction texts with
  | nil => rfl
  | cons text texts ih =>
    rw [List.flatMap_cons, ih, List.cons_append, List.intercalate_cons_of_ne_nil (by simp), line]

lemma splitOn_lines {texts : List (List Byte)} (h : ∀ text ∈ texts, Printable text) :
    (texts.flatMap line).splitOn newline = texts ++ [[]] := by
  rw [flatMap_line]
  refine List.splitOn_intercalate newline ?_ (by simp)
  intro text hmem hnewline
  rcases List.mem_append.mp hmem with hmem | hmem
  · exact absurd (h text hmem newline hnewline) (by decide)
  · obtain rfl := List.mem_singleton.mp hmem
    exact absurd hnewline List.not_mem_nil

lemma feed_line {text : List Byte} (h : Derives .object text) :
    framing.feed .outside (line text) = (.outside, [text]) := by
  rw [line, framing.feed_append, feed_object h]
  rfl

lemma objectsIn_lines {texts : List (List Byte)} (h : ∀ text ∈ texts, Derives .object text) :
    objectsIn (texts.flatMap line) = texts := by
  rw [objectsIn_eq]
  induction texts with
  | nil => rfl
  | cons text texts ih =>
    obtain ⟨htext, htexts⟩ := List.forall_mem_cons.mp h
    have hends : framing.EndsAtStart (line text) := congrArg Prod.fst (feed_line htext)
    have houtputs : framing.outputs (line text) = [text] := congrArg Prod.snd (feed_line htext)
    rw [List.flatMap_cons, framing.outputs_append hends, houtputs, ih htexts]
    rfl

lemma TextsOf.derives {requests : List (BitVec 64 × Request)} {texts : List (List Byte)}
    (h : TextsOf requests texts) : ∀ text ∈ texts, Derives .object text ∧ Printable text := by
  induction h with
  | nil => exact fun _ hmem => absurd hmem List.not_mem_nil
  | @cons q text requests texts hdump _ ih =>
    have hobject : Derives .object text := by
      rw [Request.message_eq] at hdump
      exact derives_dump_object hdump
    exact List.forall_mem_cons.mpr ⟨⟨hobject, printable_dump hdump⟩, ih⟩

lemma TextsOf.unique {requests requests' : List (BitVec 64 × Request)} {texts : List (List Byte)}
    (h : TextsOf requests texts) (h' : TextsOf requests' texts) : requests = requests' := by
  induction h generalizing requests' with
  | nil =>
    cases h'
    rfl
  | cons hdump _ ih =>
    obtain _ | ⟨hdump', htexts'⟩ := h'
    obtain ⟨hid, hrequest⟩ := Request.message_injective (dump_injective hdump hdump')
    rw [ih htexts', Prod.ext hid hrequest]

lemma transmits_lines {requests : List (BitVec 64 × Request)} {texts : List (List Byte)}
    (h : TextsOf requests texts) : Transmits (texts.flatMap line) requests where
  lines := ⟨texts, h, splitOn_lines fun text hmem => (h.derives text hmem).2,
    objectsIn_lines fun text hmem => (h.derives text hmem).1,
    fun text hmem => (h.derives text hmem).1⟩

/-- The requests can be read back from the bytes. -/
lemma Transmits.unique {wire : List Byte} {requests requests' : List (BitVec 64 × Request)}
    (h : Transmits wire requests) (h' : Transmits wire requests') : requests = requests' := by
  obtain ⟨texts, htexts, hsplit, -⟩ := h.lines
  obtain ⟨texts', htexts', hsplit', -⟩ := h'.lines
  have heq : texts = texts' := List.append_cancel_right (hsplit.symm.trans hsplit')
  subst heq
  exact TextsOf.unique htexts htexts'

/-! ## Runs -/

/-- The socket takes the messages of the call as a whole or not at all. -/
def Acceptance.Whole : Acceptance → Prop
  | cut _ => False
  | _ => True

def Call.Whole : Call → Prop
  | .subscribe a _ => a.Whole
  | .authorize _ _ a _ _ a' => a.Whole ∧ a'.Whole
  | .submitSolution _ a _ => a.Whole
  | _ => True

namespace Requester

/-- What has been recorded after some messages have been made: they are numbered from 1 on, and
those that were sent are on the wire. -/
structure Recorded (r : Requester) (made : ℕ) : Prop where
  messageId_eq : r.messageId = BitVec.ofNat 64 (1 + made)
  ids : r.messages.map Made.id = (List.range' 1 made).map (BitVec.ofNat 64)
  wire_eq : ∃ texts, TextsOf r.requests texts ∧ r.wire = texts.flatMap line

variable {r : Requester} {made : ℕ}

lemma Recorded.new (poolUrl walletAddress : List Byte) (client : Client) :
    Recorded (.new poolUrl walletAddress client) 0 where
  messageId_eq := rfl
  ids := rfl
  wire_eq := ⟨[], .nil, rfl⟩

/-- Only what is recorded matters, and the next id. -/
lemma Recorded.congr {r' : Requester} (h : Recorded r made) (hid : r'.messageId = r.messageId)
    (hwire : r'.wire = r.wire) (hmessages : r'.messages = r.messages) : Recorded r' made where
  messageId_eq := hid.trans h.messageId_eq
  ids := hmessages ▸ h.ids
  wire_eq := by
    rw [hwire, Requester.requests, hmessages]
    exact h.wire_eq

lemma ofNat_succ (made : ℕ) :
    BitVec.ofNat 64 (1 + made) + 1 = BitVec.ofNat 64 (1 + (made + 1)) :=
  (BitVec.ofNat_add (1 + made) 1).symm

lemma transmitted_concat (messages : List Made) (message : Made) :
    (messages ++ [message]).filterMap Made.transmitted =
      messages.filterMap Made.transmitted ++ message.transmitted.toList := by
  cases h : message.transmitted <;> simp [h]

/-- A message takes the next id, sent or not. -/
lemma Recorded.make (h : Recorded r made) (request : Request) {sent : Bool} {wire : List Byte}
    (hwire : ∃ texts, TextsOf (r.requests ++
        (Made.transmitted { id := r.messageId, request := request, sent := sent }).toList) texts ∧
      wire = texts.flatMap line) :
    Recorded { r with
      messageId := r.messageId + 1
      wire := wire
      messages := r.messages ++ [{ id := r.messageId, request := request, sent := sent }] }
        (made + 1) where
  messageId_eq := by
    change r.messageId + 1 = _
    rw [h.messageId_eq, ofNat_succ]
  ids := by
    change (r.messages ++ [_]).map Made.id = _
    rw [List.map_append, h.ids, List.range'_concat, List.map_append, Nat.one_mul,
      List.map_singleton, List.map_singleton, h.messageId_eq]
  wire_eq := by
    obtain ⟨texts, htexts, hwire⟩ := hwire
    refine ⟨texts, ?_, hwire⟩
    change TextsOf ((r.messages ++ [_]).filterMap Made.transmitted) texts
    rwa [transmitted_concat]

/-- A message that is not sent uses up its id. -/
lemma Recorded.skip (h : Recorded r made) (request : Request) :
    Recorded { r with
      messageId := r.messageId + 1
      messages := r.messages ++ [{ id := r.messageId, request := request, sent := false }] }
        (made + 1) := by
  refine h.make request ?_
  have htransmitted : Made.transmitted
      { id := r.messageId, request := request, sent := false } = none := rfl
  rw [htransmitted, Option.toList_none, List.append_nil]
  exact h.wire_eq

/-- A message that is sent. -/
lemma Recorded.sent (h : Recorded r made) {request : Request} {text : List Byte}
    (hdump : dump (request.message r.messageId) = .ok text) :
    Recorded { r with
      messageId := r.messageId + 1
      wire := r.wire ++ line text
      messages := r.messages ++ [{ id := r.messageId, request := request, sent := true }] }
        (made + 1) := by
  obtain ⟨texts, htexts, hwire⟩ := h.wire_eq
  refine h.make request ⟨texts ++ [text], List.rel_append htexts (.cons hdump .nil), ?_⟩
  rw [hwire, List.flatMap_append, List.flatMap_singleton]

/-- A message goes out as a whole, or not at all. -/
lemma sendMessage_whole (c : Connection) (msg : List Byte) {a : Acceptance} (ha : a.Whole) :
    c.sendMessage { message := msg, sent := a.sent msg, sent_le := a.sent_le msg } =
        { wire := [], result := false } ∨
      c.sendMessage { message := msg, sent := a.sent msg, sent_le := a.sent_le msg } =
        { wire := msg, result := true } := by
  unfold Connection.sendMessage sendIf
  dsimp only
  split_ifs with hguard hsent
  · exact Or.inl rfl
  · exact Or.inl rfl
  · right
    cases a with
    | failed => exact absurd (show (-1 : ℤ) < 0 by decide) hsent
    | taken => rw [Acceptance.sent, Int.toNat_natCast, List.take_length]
    | cut count => exact absurd ha id

/-- **Sending keeps the record.** -/
lemma Recorded.send (h : Recorded r made) (request : Request) {a : Acceptance} (ha : a.Whole) :
    Recorded (r.send request a).1 (made + 1) := by
  unfold Requester.send
  dsimp only
  cases hdump : dump (request.message r.messageId) with
  | error e => exact h.skip request
  | ok text =>
    dsimp only
    rcases sendMessage_whole r.connection (text ++ [newline]) ha with hsend | hsend
    · rw [hsend]
      exact (h.skip request).congr rfl (List.append_nil _) rfl
    · rw [hsend]
      exact (h.sent hdump).congr rfl rfl rfl

lemma Recorded.receive (h : Recorded r made) (received : Received) :
    Recorded (r.receive received).1 made := h.congr rfl rfl rfl

/-- A call whose one request goes out. -/
lemma Recorded.subscribe (h : Recorded r made) (parse : Parser) {a : Acceptance} (ha : a.Whole)
    (received : Received) :
    ∃ made' ≤ made + 2, Recorded (r.subscribe parse a received).1 made' := by
  unfold Requester.subscribe
  split_ifs
  · exact ⟨made, by omega, h⟩
  · have hsend := h.send .subscribe ha
    refine ⟨made + 1, by omega, ?_⟩
    generalize r.send .subscribe a = outcome at hsend ⊢
    obtain ⟨r', e | sent⟩ := outcome
    · exact hsend
    · cases sent with
      | false => exact hsend
      | true => exact hsend.receive received

lemma Recorded.submitSolution (h : Recorded r made) (parse : Parser) (solution : Solution)
    {a : Acceptance} (ha : a.Whole) (received : Received) :
    ∃ made' ≤ made + 2, Recorded (r.submitSolution parse solution a received).1 made' := by
  unfold Requester.submitSolution
  split_ifs
  · exact ⟨made, by omega, h⟩
  · have hsend := h.send (r.submission solution) ha
    refine ⟨made + 1, by omega, ?_⟩
    generalize r.send (r.submission solution) a = outcome at hsend ⊢
    obtain ⟨r', e | sent⟩ := outcome
    · exact hsend
    · cases sent with
      | false => exact hsend
      | true => exact hsend.receive received

lemma Recorded.suggest (h : Recorded r made) (suggestEnv : Option (List Byte)) {a : Acceptance}
    (ha : a.Whole) : ∃ made' ≤ made + 1, Recorded (r.suggest suggestEnv a) made' := by
  unfold Requester.suggest
  cases suggestEnv with
  | none => exact ⟨made, by omega, h⟩
  | some text =>
    dsimp only
    split_ifs
    · exact ⟨made + 1, le_rfl, h.send _ ha⟩
    · exact ⟨made, by omega, h⟩

lemma Recorded.processNotification (h : Recorded r made) {job₀ : MiningJob} {message : Json}
    {r' : Requester} (hsome : r.processNotification job₀ message = some r') :
    Recorded r' made := by
  obtain ⟨result, -, rfl⟩ := Option.map_eq_some_iff.mp hsome
  exact h.congr rfl rfl rfl

lemma Recorded.authorized (h : Recorded r made) {parse : Parser} {job₀ : MiningJob}
    {response : List Byte} {suggestEnv : Option (List Byte)} {a : Acceptance} (ha : a.Whole)
    {r' : Requester} {result : Bool}
    (hsome : authorized parse r job₀ response suggestEnv a = some (r', result)) :
    ∃ made' ≤ made + 1, Recorded r' made' := by
  unfold Requester.authorized at hsome
  have hsame {outcome : Requester × Bool} (heq : some (r, false) = some outcome) :
      ∃ made' ≤ made + 1, Recorded outcome.1 made' :=
    ⟨made, by omega, Option.some.inj heq ▸ h⟩
  split_ifs at hsome
  · exact hsame hsome
  · split at hsome
    · exact hsame hsome
    · split at hsome
      · obtain ⟨rfl, -⟩ := Prod.mk.inj (Option.some.inj hsome)
        exact h.suggest suggestEnv ha
      · obtain ⟨r₁, hnotification, heq⟩ := Option.map_eq_some_iff.mp hsome
        obtain ⟨rfl, -⟩ := Prod.mk.inj heq
        exact (h.processNotification hnotification).suggest suggestEnv ha
      · exact hsame hsome
      · exact hsame hsome

lemma Recorded.authorize (h : Recorded r made) {parse : Parser} {job₀ : MiningJob}
    {workerName : List Byte} {a a' : Acceptance} (ha : a.Whole) (ha' : a'.Whole)
    {received : Received} {suggestEnv : Option (List Byte)}
    {outcome : Requester × Except Invalid Bool}
    (hsome : r.authorize parse job₀ workerName a received suggestEnv a' = some outcome) :
    ∃ made' ≤ made + 2, Recorded outcome.1 made' := by
  rw [Requester.authorize] at hsome
  by_cases hclosed : !r.connection.connected
  · rw [if_pos hclosed] at hsome
    exact ⟨made, by omega, Option.some.inj hsome ▸ h⟩
  · rw [if_neg hclosed] at hsome
    dsimp only at hsome
    generalize workerOf r.walletAddress workerName = worker at hsome
    have hworker : Recorded { r with currentWorker := worker } made := h.congr rfl rfl rfl
    have hsend := hworker.send (.authorize worker) ha
    generalize Requester.send _ (.authorize worker) a = sending at hsend hsome
    obtain ⟨r₁, e | sent⟩ := sending
    · exact ⟨made + 1, by omega, Option.some.inj hsome ▸ hsend⟩
    · cases sent with
      | false => exact ⟨made + 1, by omega, Option.some.inj hsome ▸ hsend⟩
      | true =>
        obtain ⟨⟨r₂, result⟩, hauthorized, rfl⟩ := Option.map_eq_some_iff.mp hsome
        obtain ⟨made', hle, h'⟩ := (hsend.receive received).authorized ha' hauthorized
        exact ⟨made', by omega, h'⟩

lemma Recorded.processMessages (h : Recorded r made) {parse : Parser} {job₀ : MiningJob}
    {received : Received} {r' : Requester}
    (hsome : r.processMessages parse job₀ received = some r') : Recorded r' made := by
  unfold Requester.processMessages at hsome
  dsimp only at hsome
  generalize (r.connection.processMessages parse received).2 = notifications at hsome
  have hconnection : Recorded { r with
      connection := (r.connection.processMessages parse received).1 } made := h.congr rfl rfl rfl
  generalize ({ r with connection := _ } : Requester) = r₁ at hsome hconnection
  induction notifications generalizing r₁ with
  | nil => exact Option.some.inj hsome ▸ hconnection
  | cons message notifications ih =>
    rw [List.foldlM_cons] at hsome
    obtain ⟨r₂, hnotification, hsome⟩ := Option.bind_eq_some_iff.mp hsome
    exact ih r₂ hsome (hconnection.processNotification hnotification)

/-- **A call keeps the record**, and makes two messages at most. -/
lemma Recorded.step (h : Recorded r made) {parse : Parser} {call : Call} {r' : Requester}
    (hstep : Step parse r call r') (hwhole : call.Whole) :
    ∃ made' ≤ made + 2, Recorded r' made' := by
  have hsame {r'' : Requester} (h' : Recorded r'' made) : ∃ made' ≤ made + 2, Recorded r'' made' :=
    ⟨made, by omega, h'⟩
  cases call with
  | connect network => exact Option.some.inj hstep ▸ hsame (h.congr rfl rfl rfl)
  | disconnect => exact Option.some.inj hstep ▸ hsame (h.congr rfl rfl rfl)
  | subscribe a received => exact Option.some.inj hstep ▸ h.subscribe parse hwhole received
  | authorize job₀ workerName a received suggestEnv a' =>
    obtain ⟨outcome, hsome, rfl⟩ := Option.map_eq_some_iff.mp hstep
    exact h.authorize hwhole.1 hwhole.2 hsome
  | submitSolution solution a received =>
    exact Option.some.inj hstep ▸ h.submitSolution parse solution hwhole received
  | processMessages job₀ received => exact hsame (h.processMessages hstep)

/-- So many messages have been made. -/
lemma Recorded.length_eq (h : Recorded r made) : r.messages.length = made := by
  simpa using congrArg List.length h.ids

/-- What has been recorded is on the wire. -/
lemma Recorded.transmits (h : Recorded r made) : Transmits r.wire r.requests := by
  obtain ⟨texts, htexts, hwire⟩ := h.wire_eq
  exact hwire ▸ transmits_lines htexts

end Requester

/-- **The pool can read the requests back.**  In any order of calls, whatever the pool and the
system do, as long as no message is cut: the bytes that go out are the lines of the requests that
were sent, and no other requests have these lines.  All messages that were made, sent or not, are
numbered from 1 on. -/
theorem run_requests {parse : Parser} {poolUrl walletAddress : List Byte} {client : Client}
    {calls : List Call} {r : Requester}
    (hrun : Run (Step parse) (.new poolUrl walletAddress client) calls r)
    (hwhole : ∀ call ∈ calls, call.Whole) :
    Transmits r.wire r.requests ∧
      (∀ requests, Transmits r.wire requests → requests = r.requests) ∧
      r.messages.map Made.id = (List.range' 1 r.messages.length).map (BitVec.ofNat 64) ∧
      r.messages.length ≤ 2 * calls.length := by
  have hrecorded : ∃ made ≤ 2 * calls.length, r.Recorded made := by
    refine hrun.invariant_labels (fun calls r => (∀ call ∈ calls, call.Whole) →
      ∃ made ≤ 2 * calls.length, r.Recorded made) ?_ ?_ hwhole
    · exact fun _ => ⟨0, le_rfl, .new poolUrl walletAddress client⟩
    · intro calls r call r' ih hstep hwhole
      obtain ⟨hcalls, hcall⟩ := List.forall_mem_append.mp hwhole
      obtain ⟨made, hle, h⟩ := ih hcalls
      obtain ⟨made', hle', h'⟩ := h.step hstep (List.forall_mem_singleton.mp hcall)
      refine ⟨made', ?_, h'⟩
      rw [List.length_append, List.length_singleton]
      omega
  obtain ⟨made, hle, h⟩ := hrecorded
  rw [h.length_eq]
  exact ⟨h.transmits, fun requests h' => h'.unique h.transmits, h.ids, hle⟩

/-- A client whose first message is not taken, and whose second one is. -/
def twoCalls : List Call :=
  [.connect plainNetwork, .subscribe .failed .error, .subscribe .taken .error]

/-- This client, connected, with a given next id and some messages that were made. -/
def openRequester (id : BitVec 64) (messages : List Made) : Requester :=
  { Requester.new (utf8 "pool") (utf8 "wallet") idleClient with
    connection := { poolUrl := utf8 "pool", connected := true, socket := 3 }, messageId := id
    messages := messages }

/-- The message that was not taken. -/
def refused : Made := { id := 1, request := .subscribe, sent := false }

/-- Both messages have an id, and only the second one is on the wire. -/
theorem run_requests_second : ∃ r : Requester,
    r.messages = [refused, { id := 2, request := .subscribe, sent := true }] ∧
      r.requests = [(2, .subscribe)] ∧ Transmits r.wire r.requests ∧
      (∀ requests, Transmits r.wire requests → requests = r.requests) ∧
      r.messages.map Made.id = (List.range' 1 r.messages.length).map (BitVec.ofNat 64) ∧
      r.messages.length ≤ 2 * twoCalls.length := by
  have hdump (id : BitVec 64) : ∃ text, dump (Request.subscribe.message id) = .ok text :=
    (Request.exists_dump_iff .subscribe id).mpr fun s hs => absurd hs List.not_mem_nil
  obtain ⟨first, hfirst⟩ := hdump 1
  obtain ⟨second, hsecond⟩ := hdump 2
  have hrefused : ((openRequester 1 []).subscribe (fun _ => none) .failed .error).1 =
      openRequester 2 [refused] := by
    have hsend : (openRequester 1 []).send .subscribe .failed =
        (openRequester 2 [refused], .ok false) := by
      rw [Requester.send]
      dsimp only
      rw [show dump (Request.subscribe.message (openRequester 1 []).messageId) = .ok first from
        hfirst]
      rfl
    rw [Requester.subscribe, hsend]
    rfl
  have htaken : ((openRequester 2 [refused]).subscribe (fun _ => none) .taken .error).1.messages =
      [refused, { id := 2, request := .subscribe, sent := true }] := by
    have hsend : ∃ r, (openRequester 2 [refused]).send .subscribe .taken = (r, .ok true) ∧
        r.messages = [refused, { id := 2, request := .subscribe, sent := true }] := by
      rw [Requester.send]
      dsimp only
      rw [show dump (Request.subscribe.message (openRequester 2 [refused]).messageId) = .ok second
        from hsecond]
      exact ⟨_, rfl, rfl⟩
    obtain ⟨r, hsend, hmessages⟩ := hsend
    rw [Requester.subscribe, if_neg (by decide), hsend]
    exact hmessages
  have hrun : Run (Step fun _ => none) (.new (utf8 "pool") (utf8 "wallet") idleClient) twoCalls
      ((openRequester 2 [refused]).subscribe (fun _ => none) .taken .error).1 :=
    .snoc (.snoc (.snoc (.refl _) rfl) (congrArg some hrefused)) rfl
  refine ⟨_, htaken, ?_, run_requests hrun (by simp [twoCalls, Call.Whole, Acceptance.Whole])⟩
  rw [Requester.requests, htaken]
  rfl

end OhMyMiner.Engine.Requests
