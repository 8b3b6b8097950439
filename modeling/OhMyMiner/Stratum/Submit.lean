/-
# Submitting shares

The client sends a `mining.submit` and takes what the next `recv` returns for the answer
(`StratumClient::Impl::submitSolution`, `receiveMessage`); the engine counts the share by that
(`MiningEngine::processSolutions`).  The pool answers every request with one response that
carries the id of the request, but it also sends notifications, on the same stream.

The system is the client, the pool and the messages on their way to the client, each of them one
JSON object on a line of its own.  A `recv` returns some of the messages that have arrived.  The
client waits in `recv` during a submit, and polls with `processMessages` otherwise.  The
connection stays up.
-/
import Mathlib.Data.List.DropRight
import OhMyMiner.Lib.Transition
import OhMyMiner.Stratum.Framing
import OhMyMiner.Stratum.Notify

namespace OhMyMiner.Stratum

open Lib

/-! ## Messages -/

/-- `'\n'`. -/
def newline : Byte := 0x0A

/-- A message of the pool: the text of a JSON object and its value. -/
structure PoolMessage (parse : Parser) where
  text : List Byte
  value : Json
  parses : parse text = some value
  framed : framing.feed .outside text = (.outside, [text])

/-- `recv` has room for 4095 bytes. -/
def recvSize : ℕ := 4095

namespace PoolMessage

variable {parse : Parser}

/-- The line that is sent. -/
def line (m : PoolMessage parse) : List Byte := m.text ++ [newline]

/-- The message is a notification. -/
def isNotification (m : PoolMessage parse) : Bool := m.value.contains "method"

/-- The message answers the request with a given id. -/
def Answers (m : PoolMessage parse) (id : BitVec 64) : Prop :=
  m.isNotification = false ∧ m.value.find? "id" = some (.integer id.toNat)

/-- The bytes of a `recv` that returns these messages. -/
def bytes (messages : List (PoolMessage parse)) : List Byte := messages.flatMap line

end PoolMessage

/-! ## The code -/

/-- The result field of a response is true. -/
def resultTrue (resp : Json) : Bool :=
  match resp.find? "result" with
  | some (.boolean b) => b
  | _ => false

/-- What `submitSolution` returns when `receiveMessage` returns `response`. -/
def submitResult (parse : Parser) (response : List Byte) : Bool :=
  if response = [] then false
  else
    match parse response with
    | some resp => resultTrue resp
    | none => false

/-! ## The system -/

/-- A `mining.submit`: its id, and its number, which no other one has. -/
structure SubmitRequest where
  number : ℕ
  id : BitVec 64
  deriving DecidableEq

/-- The client, the pool and the stream between them.  The number of requests and the lists
`answers`, `sent`, `submitted` and `returned` record what has happened; nothing that happens depends
on them. -/
structure System (parse : Parser) where
  /-- The messages that the client has not received. -/
  wire : List (PoolMessage parse)
  /-- The requests that the pool has not answered. -/
  pending : List SubmitRequest
  /-- The next message id. -/
  messageId : BitVec 64
  /-- The number of requests sent. -/
  requests : ℕ
  /-- The request whose answer `submitSolution` waits for. -/
  waiting : Option SubmitRequest
  /-- What has been handed to `processNotification`. -/
  delivered : List Json
  acceptedShares : BitVec 32
  rejectedShares : BitVec 32
  /-- The responses sent, by request. -/
  answers : List (SubmitRequest × PoolMessage parse)
  /-- The notifications sent. -/
  sent : List Json
  /-- The requests sent. -/
  submitted : List SubmitRequest
  /-- What the calls of `submitSolution` have returned, by request. -/
  returned : List (SubmitRequest × Bool)

/-- What can happen next. -/
inductive Event (parse : Parser) where
  /-- The pool sends a notification. -/
  | notify (m : PoolMessage parse)
  /-- The pool answers a request. -/
  | respond (request : SubmitRequest) (m : PoolMessage parse)
  /-- `processMessages` receives the first messages on the wire. -/
  | poll (count : ℕ)
  /-- `submitSolution` sends its request. -/
  | submit
  /-- `submitSolution` receives the first messages on the wire, and the engine counts the share. -/
  | answer (count : ℕ)

namespace System

variable {parse : Parser}

/-- The state after the handshake; `id` is the next message id. -/
def initial (parse : Parser) (id : BitVec 64) : System parse :=
  { wire := [], pending := [], messageId := id, requests := 0, waiting := none, delivered := [],
    acceptedShares := 0, rejectedShares := 0, answers := [], sent := [],
    submitted := [], returned := [] }

/-- A `recv` can return the first `count` messages on the wire. -/
def CanReceive (s : System parse) (count : ℕ) : Prop :=
  0 < count ∧ count ≤ s.wire.length ∧ (PoolMessage.bytes (s.wire.take count)).length ≤ recvSize

instance (s : System parse) (count : ℕ) : Decidable (s.CanReceive count) :=
  inferInstanceAs (Decidable (_ ∧ _ ∧ _))

/-- The system after a notification has been sent. -/
def notify (s : System parse) (m : PoolMessage parse) : System parse :=
  { s with wire := s.wire ++ [m], sent := s.sent ++ [m.value] }

/-- The system after a request has been answered. -/
def respond (s : System parse) (request : SubmitRequest) (m : PoolMessage parse) : System parse :=
  { s with
    wire := s.wire ++ [m]
    pending := s.pending.erase request
    answers := s.answers ++ [(request, m)] }

/-- The system after a poll. -/
def poll (s : System parse) (count : ℕ) : System parse :=
  { s with
    wire := s.wire.drop count
    delivered :=
      s.delivered ++ processMessages parse (PoolMessage.bytes (s.wire.take count)) }

/-- The request of the next submit. -/
def nextRequest (s : System parse) : SubmitRequest := { number := s.requests, id := s.messageId }

/-- The system after a request has been sent. -/
def submit (s : System parse) : System parse :=
  { s with
    pending := s.pending ++ [s.nextRequest]
    waiting := some s.nextRequest
    messageId := s.messageId + 1
    requests := s.requests + 1
    submitted := s.submitted ++ [s.nextRequest] }

/-- The system after `submitSolution` has returned to the engine. -/
def answer (s : System parse) (request : SubmitRequest) (count : ℕ) : System parse :=
  let ok := submitResult parse (PoolMessage.bytes (s.wire.take count))
  { s with
    wire := s.wire.drop count
    waiting := none
    acceptedShares := if ok then s.acceptedShares + 1 else s.acceptedShares
    rejectedShares := if ok then s.rejectedShares else s.rejectedShares + 1
    returned := s.returned ++ [(request, ok)] }

end System

/-- One step of the system. -/
inductive Step {parse : Parser} : System parse → Event parse → System parse → Prop
  | notify {s : System parse} {m : PoolMessage parse} (hm : m.isNotification = true) :
      Step s (.notify m) (s.notify m)
  | respond {s : System parse} {request : SubmitRequest} {m : PoolMessage parse}
      (hpending : request ∈ s.pending) (hm : m.Answers request.id) :
      Step s (.respond request m) (s.respond request m)
  | poll {s : System parse} {count : ℕ} (hidle : s.waiting = none) (hcount : s.CanReceive count) :
      Step s (.poll count) (s.poll count)
  | submit {s : System parse} (hidle : s.waiting = none) : Step s .submit s.submit
  | answer {s : System parse} {request : SubmitRequest} {count : ℕ}
      (hwaiting : s.waiting = some request) (hcount : s.CanReceive count) :
      Step s (.answer count) (s.answer request count)

/-! ## What the client should achieve -/

/-- The result of the response to a request, if there is one. -/
def System.resultOf {parse : Parser} (s : System parse) (request : SubmitRequest) : Option Bool :=
  (s.answers.lookup request).map fun m => resultTrue m.value

/-- The notifications among the messages on the wire. -/
def System.inFlight {parse : Parser} (s : System parse) : List Json :=
  (s.wire.filter PoolMessage.isNotification).map PoolMessage.value

/-- Every submit has returned the result of its own response, no notification is lost, and the
counters count every share once, in the class of its response. -/
structure Correct {parse : Parser} (s : System parse) : Prop where
  returns : ∀ request ok, (request, ok) ∈ s.returned → s.resultOf request = some ok
  notified : s.sent = s.delivered ++ s.inFlight
  once : s.submitted.Nodup
  counted : s.submitted = s.returned.map Prod.fst ++ s.waiting.toList
  accepted : s.acceptedShares.toNat =
    (s.returned.filter fun share => s.resultOf share.1 == some true).length
  rejected : s.rejectedShares.toNat =
    (s.returned.filter fun share => s.resultOf share.1 == some false).length

/-- A step at which a submit does not go wrong: what it receives is the response with its own id
and nothing else, and the counter of the share is not full. -/
def OwnResponse {parse : Parser} (s : System parse) : Event parse → Prop
  | .answer count =>
    ∃ request m, s.waiting = some request ∧ s.wire.take count = [m] ∧ m.Answers request.id ∧
      if resultTrue m.value then s.acceptedShares.toNat + 1 < 2 ^ 32
      else s.rejectedShares.toNat + 1 < 2 ^ 32
  | _ => True

/-! ## Chunks of whole messages -/

section Messages

variable {parse : Parser}

lemma endsAtStart_line (m : PoolMessage parse) : framing.EndsAtStart m.line := by
  rw [Transducer.EndsAtStart, PoolMessage.line, framing.feed_append]
  show (framing.feed (framing.feed .outside m.text).1 [newline]).1 = .outside
  rw [m.framed]
  rfl

lemma outputs_line (m : PoolMessage parse) : framing.outputs m.line = [m.text] := by
  rw [Transducer.outputs, PoolMessage.line, framing.feed_append]
  show (framing.feed .outside m.text).2 ++
    (framing.feed (framing.feed .outside m.text).1 [newline]).2 = [m.text]
  rw [m.framed]
  rfl

lemma outputs_bytes (messages : List (PoolMessage parse)) :
    framing.outputs (PoolMessage.bytes messages) = messages.map PoolMessage.text := by
  induction messages with
  | nil => rfl
  | cons m messages ih =>
    rw [PoolMessage.bytes, List.flatMap_cons, framing.outputs_append (endsAtStart_line m),
      outputs_line, List.map_cons, ← ih]
    rfl

lemma notification_text (m : PoolMessage parse) :
    notification parse m.text = if m.isNotification then some m.value else none := by
  rw [notification, m.parses]
  rfl

/-- A poll hands on the notifications that it receives. -/
lemma processMessages_bytes (messages : List (PoolMessage parse)) :
    processMessages parse (PoolMessage.bytes messages) =
      (messages.filter PoolMessage.isNotification).map PoolMessage.value := by
  rw [processMessages_eq, notifications, outputs_bytes]
  induction messages with
  | nil => rfl
  | cons m messages ih =>
    rw [List.map_cons, List.filterMap_cons, notification_text, ih]
    cases hm : m.isNotification with
    | false => rw [List.filter_cons_of_neg (by simp [hm])]; rfl
    | true => rw [List.filter_cons_of_pos hm]; rfl

/-- A submit that receives one response returns its result. -/
lemma submitResult_bytes (hnewline : ∀ text, parse (text ++ [newline]) = parse text)
    (m : PoolMessage parse) : submitResult parse (PoolMessage.bytes [m]) = resultTrue m.value := by
  have hbytes : PoolMessage.bytes [m] = m.text ++ [newline] := by
    rw [PoolMessage.bytes, List.flatMap_singleton, PoolMessage.line]
  rw [submitResult, if_neg (by simp [hbytes]), hbytes, hnewline, m.parses]

end Messages

/-! ## The invariant -/

section Invariant

variable {parse : Parser} {s : System parse}

/-- The responses among the messages on the wire. -/
def System.responses (s : System parse) : List (PoolMessage parse) :=
  s.wire.filter fun m => !m.isNotification

/-- Where the exchange of a request and its response stands. -/
inductive Phase (s : System parse) : Prop
  | idle (hwaiting : s.waiting = none) (hpending : s.pending = []) (hresponses : s.responses = [])
  | asked {request : SubmitRequest} (hwaiting : s.waiting = some request)
      (hpending : s.pending = [request]) (hresponses : s.responses = [])
      (hanswers : s.answers.lookup request = none)
  | answered {request : SubmitRequest} {m : PoolMessage parse} (hwaiting : s.waiting = some request)
      (hpending : s.pending = []) (hresponses : s.responses = [m]) (hm : m.Answers request.id)
      (hanswers : s.answers.lookup request = some m)

/-- What holds as long as every submit has received its own response. -/
structure Lockstep (s : System parse) : Prop where
  correct : Correct s
  phase : Phase s
  submitted_lt : ∀ request ∈ s.submitted, request.number < s.requests
  answers_lt : ∀ entry ∈ s.answers, entry.1.number < s.requests

/-- Once all results are known, the classes are those of the returned values. -/
lemma filter_resultOf
    (h : ∀ request ok, (request, ok) ∈ s.returned → s.resultOf request = some ok) (b : Bool) :
    (s.returned.filter fun share => s.resultOf share.1 == some b) =
      s.returned.filter fun share => share.2 == b := by
  apply List.filter_congr
  rintro ⟨request, ok⟩ hmem
  rw [h request ok hmem]
  rfl

/-- The class counters, by returned value. -/
lemma Correct.of_returns
    (hreturns : ∀ request ok, (request, ok) ∈ s.returned → s.resultOf request = some ok)
    (hnotified : s.sent = s.delivered ++ s.inFlight) (honce : s.submitted.Nodup)
    (hcounted : s.submitted = s.returned.map Prod.fst ++ s.waiting.toList)
    (haccepted : s.acceptedShares.toNat = (s.returned.filter fun share => share.2 == true).length)
    (hrejected : s.rejectedShares.toNat =
      (s.returned.filter fun share => share.2 == false).length) : Correct s where
  returns := hreturns
  notified := hnotified
  once := honce
  counted := hcounted
  accepted := by rw [filter_resultOf hreturns, haccepted]
  rejected := by rw [filter_resultOf hreturns, hrejected]

lemma Correct.accepted_eq (h : Correct s) :
    s.acceptedShares.toNat = (s.returned.filter fun share => share.2 == true).length := by
  rw [h.accepted, filter_resultOf h.returns]

lemma Correct.rejected_eq (h : Correct s) :
    s.rejectedShares.toNat = (s.returned.filter fun share => share.2 == false).length := by
  rw [h.rejected, filter_resultOf h.returns]

/-- The notifications on the wire are those that a `recv` takes and those that it leaves. -/
lemma inFlight_eq_take (s : System parse) (count : ℕ) :
    s.inFlight = ((s.wire.take count).filter PoolMessage.isNotification).map PoolMessage.value ++
      ((s.wire.drop count).filter PoolMessage.isNotification).map PoolMessage.value := by
  rw [← List.map_append, ← List.filter_append, List.take_append_drop]
  rfl

lemma responses_eq_take (s : System parse) (count : ℕ) :
    s.responses = (s.wire.take count).filter (fun m => !m.isNotification) ++
      (s.wire.drop count).filter fun m => !m.isNotification := by
  rw [← List.filter_append, List.take_append_drop]
  rfl

lemma lockstep_initial (id : BitVec 64) : Lockstep (System.initial parse id) where
  correct := .of_returns (fun _ _ h => absurd h List.not_mem_nil) rfl List.nodup_nil rfl rfl rfl
  phase := .idle rfl rfl rfl
  submitted_lt := fun _ h => absurd h List.not_mem_nil
  answers_lt := fun _ h => absurd h List.not_mem_nil

/-! ## The steps of the pool -/

lemma Lockstep.notify (h : Lockstep s) {m : PoolMessage parse} (hm : m.isNotification = true) :
    Lockstep (s.notify m) := by
  have hfilter : [m].filter PoolMessage.isNotification = [m] := List.filter_cons_of_pos hm
  have hflight : (s.notify m).inFlight = s.inFlight ++ [m.value] := by
    rw [System.inFlight, System.notify, List.filter_append, List.map_append, hfilter]
    rfl
  have hresponses : (s.notify m).responses = s.responses := by
    rw [System.responses, System.notify, List.filter_append, List.filter_cons_of_neg (by simp [hm]),
      List.filter_nil, List.append_nil]
    rfl
  refine ⟨.of_returns h.correct.returns ?_ h.correct.once h.correct.counted h.correct.accepted_eq
    h.correct.rejected_eq, ?_, h.submitted_lt, h.answers_lt⟩
  · show s.sent ++ [m.value] = s.delivered ++ (s.notify m).inFlight
    rw [hflight, h.correct.notified, List.append_assoc]
  · cases h.phase with
    | idle hwaiting hpending hnone => exact .idle hwaiting hpending (hresponses.trans hnone)
    | asked hwaiting hpending hnone hanswers =>
      exact .asked hwaiting hpending (hresponses.trans hnone) hanswers
    | answered hwaiting hpending hone hown hanswers =>
      exact .answered hwaiting hpending (hresponses.trans hone) hown hanswers

/-- The first response to a request stays the one that counts. -/
lemma resultOf_respond {request' : SubmitRequest} {ok : Bool}
    (h : s.resultOf request' = some ok) (request : SubmitRequest) (m : PoolMessage parse) :
    (s.respond request m).resultOf request' = some ok := by
  obtain ⟨m', hm', hok⟩ := Option.map_eq_some_iff.mp h
  have hlookup : (s.respond request m).answers.lookup request' = some m' := by
    rw [System.respond, List.lookup_append, hm']
    rfl
  rw [System.resultOf, hlookup, Option.map_some, hok]

lemma Lockstep.respond (h : Lockstep s) {request : SubmitRequest} {m : PoolMessage parse}
    (hmem : request ∈ s.pending) (hm : m.Answers request.id) : Lockstep (s.respond request m) := by
  have hflight : (s.respond request m).inFlight = s.inFlight := by
    rw [System.inFlight, System.respond, List.filter_append,
      List.filter_cons_of_neg (by simp [hm.1]), List.filter_nil, List.append_nil]
    rfl
  have hresponses : (s.respond request m).responses = s.responses ++ [m] := by
    rw [System.responses, System.respond, List.filter_append,
      List.filter_cons_of_pos (by simp [hm.1])]
    rfl
  cases h.phase with
  | idle hwaiting hpending hnone => exact absurd hmem (by simp [hpending])
  | answered hwaiting hpending hone hown hanswers => exact absurd hmem (by simp [hpending])
  | @asked request' hwaiting hpending hnone hanswers =>
    -- the only request without a response is the one that the client waits for
    obtain rfl : request = request' := by simpa [hpending] using hmem
    have hsubmitted : request ∈ s.submitted := by simp [h.correct.counted, hwaiting]
    refine ⟨.of_returns ?_ ?_ h.correct.once h.correct.counted h.correct.accepted_eq
      h.correct.rejected_eq, ?_, h.submitted_lt, ?_⟩
    · intro request' ok hreturned
      exact resultOf_respond (h.correct.returns request' ok hreturned) request m
    · rw [hflight]
      exact h.correct.notified
    · refine .answered hwaiting ?_ (hresponses.trans ?_) hm ?_
      · rw [System.respond, hpending, List.erase_cons_head]
      · rw [hnone, List.nil_append]
      · rw [System.respond, List.lookup_append, hanswers]
        simp
    · intro entry hentry
      rcases List.mem_append.mp hentry with hold | hnew
      · exact h.answers_lt entry hold
      · obtain rfl := List.mem_singleton.mp hnew
        exact h.submitted_lt request hsubmitted

/-! ## The steps of the client -/

lemma Lockstep.poll (h : Lockstep s) (hidle : s.waiting = none) (count : ℕ) :
    Lockstep (s.poll count) := by
  cases h.phase with
  | asked hwaiting => simp [hidle] at hwaiting
  | answered hwaiting => simp [hidle] at hwaiting
  | idle hwaiting hpending hnone =>
    rw [responses_eq_take s count] at hnone
    refine ⟨.of_returns h.correct.returns ?_ h.correct.once h.correct.counted h.correct.accepted_eq
      h.correct.rejected_eq, .idle hwaiting hpending (List.append_eq_nil_iff.mp hnone).2,
      h.submitted_lt, h.answers_lt⟩
    show s.sent =
      (s.delivered ++ processMessages parse (PoolMessage.bytes (s.wire.take count))) ++
        (s.poll count).inFlight
    rw [processMessages_bytes, h.correct.notified, inFlight_eq_take s count, List.append_assoc]
    rfl

lemma Lockstep.submit (h : Lockstep s) (hidle : s.waiting = none) : Lockstep s.submit := by
  have hcounted : s.submitted = s.returned.map Prod.fst := by
    simpa [hidle] using h.correct.counted
  -- the number of the request is new
  have hnew : s.nextRequest ∉ s.submitted := by
    intro hmem
    exact absurd (h.submitted_lt _ hmem) (lt_irrefl _)
  have hunanswered : s.answers.lookup s.nextRequest = none := by
    rw [List.lookup_eq_none_iff]
    intro entry hentry
    have hlt := h.answers_lt entry hentry
    rw [bne_iff_ne]
    intro heq
    rw [← heq] at hlt
    exact absurd hlt (lt_irrefl _)
  cases h.phase with
  | asked hwaiting => simp [hidle] at hwaiting
  | answered hwaiting => simp [hidle] at hwaiting
  | idle hwaiting hpending hnone =>
    refine ⟨.of_returns h.correct.returns h.correct.notified ?_ ?_ h.correct.accepted_eq
      h.correct.rejected_eq, .asked rfl ?_ hnone hunanswered, ?_, ?_⟩
    · exact List.nodup_append'.mpr ⟨h.correct.once, List.nodup_singleton _, by simpa using hnew⟩
    · show s.submitted ++ [s.nextRequest] = s.returned.map Prod.fst ++ [s.nextRequest]
      rw [hcounted]
    · rw [System.submit, hpending, List.nil_append]
    · intro request hmem
      rcases List.mem_append.mp hmem with hold | hlast
      · exact (h.submitted_lt request hold).trans (Nat.lt_succ_self _)
      · obtain rfl := List.mem_singleton.mp hlast
        exact Nat.lt_succ_self _
    · intro entry hentry
      exact (h.answers_lt entry hentry).trans (Nat.lt_succ_self _)

/-- The number of shares of a class, after one more. -/
lemma length_filter_snoc (returned : List (SubmitRequest × Bool)) (request : SubmitRequest)
    (ok b : Bool) :
    ((returned ++ [(request, ok)]).filter fun share => share.2 == b).length =
      (returned.filter fun share => share.2 == b).length + if ok = b then 1 else 0 := by
  rw [List.filter_append, List.length_append]
  by_cases hok : ok = b <;> simp [hok]

section Answer

variable (hnewline : ∀ text, parse (text ++ [newline]) = parse text) {request : SubmitRequest}
  {count : ℕ} {m : PoolMessage parse}
include hnewline

/-- What the client knows after it has received one response. -/
lemma answer_eq (s : System parse) (hchunk : s.wire.take count = [m]) :
    s.answer request count =
      { s with
        wire := s.wire.drop count
        waiting := none
        acceptedShares :=
          if resultTrue m.value then s.acceptedShares + 1 else s.acceptedShares
        rejectedShares :=
          if resultTrue m.value then s.rejectedShares else s.rejectedShares + 1
        returned := s.returned ++ [(request, resultTrue m.value)] } := by
  rw [System.answer, hchunk, submitResult_bytes hnewline]

lemma Lockstep.answer (h : Lockstep s) (hwaiting : s.waiting = some request)
    (hown : OwnResponse s (.answer count)) : Lockstep (s.answer request count) := by
  obtain ⟨request', m, hwaiting', hchunk, hm, hroom⟩ := hown
  obtain rfl : request = request' := Option.some.inj (hwaiting.symm.trans hwaiting')
  have hresponses := responses_eq_take s count
  have hflight := inFlight_eq_take s count
  rw [hchunk, List.filter_cons_of_pos (by simp [hm.1]), List.filter_nil] at hresponses
  rw [hchunk, List.filter_cons_of_neg (by simp [hm.1]), List.filter_nil, List.map_nil,
    List.nil_append] at hflight
  cases h.phase with
  | idle hnone => simp [hnone] at hwaiting
  | asked _ _ hnone => simp [hnone] at hresponses
  | @answered request' m' hwaiting'' hpending hone hown' hanswers =>
    obtain rfl : request = request' := Option.some.inj (hwaiting.symm.trans hwaiting'')
    rw [hone, List.singleton_append, List.cons.injEq] at hresponses
    obtain ⟨rfl, hrest⟩ := hresponses
    -- the only response in flight is the one that is received
    have hresult : s.resultOf request = some (resultTrue m'.value) := by
      rw [System.resultOf, hanswers, Option.map_some]
    rw [answer_eq hnewline s hchunk]
    refine ⟨.of_returns ?_ ?_ h.correct.once ?_ ?_ ?_, .idle rfl hpending hrest.symm,
      h.submitted_lt, h.answers_lt⟩
    · intro request' ok hmem
      rcases List.mem_append.mp hmem with hold | hlast
      · exact h.correct.returns request' ok hold
      · obtain ⟨rfl, rfl⟩ := Prod.mk.inj (List.mem_singleton.mp hlast)
        exact hresult
    · rw [h.correct.notified, hflight]
      rfl
    · show s.submitted = (s.returned ++ [(request, resultTrue m'.value)]).map Prod.fst ++ []
      rw [h.correct.counted, hwaiting, List.map_append, List.append_nil]
      rfl
    · have haccepted := h.correct.accepted_eq
      show BitVec.toNat (if resultTrue m'.value then _ else _) = _
      rw [length_filter_snoc, ← haccepted]
      cases hok : resultTrue m'.value with
      | false => rfl
      | true =>
        rw [hok, if_pos rfl] at hroom
        rw [if_pos rfl, if_pos rfl, BitVec.toNat_add]
        exact Nat.mod_eq_of_lt hroom
    · have hrejected := h.correct.rejected_eq
      show BitVec.toNat (if resultTrue m'.value then _ else _) = _
      rw [length_filter_snoc, ← hrejected]
      cases hok : resultTrue m'.value with
      | true => rfl
      | false =>
        rw [hok, if_neg Bool.false_ne_true] at hroom
        rw [if_neg Bool.false_ne_true, if_pos rfl, BitVec.toNat_add]
        exact Nat.mod_eq_of_lt hroom

/-- A submit that goes right receives its own response and nothing else: any other message that
it receives is a notification, which it drops. -/
lemma Lockstep.ownResponse (h : Lockstep s) (hwaiting : s.waiting = some request)
    (hcount : s.CanReceive count) (hcorrect : Correct (s.answer request count)) :
    OwnResponse s (.answer count) := by
  -- no notification is taken
  have hflight := inFlight_eq_take s count
  have hnotified : s.sent = s.delivered ++
      ((s.wire.drop count).filter PoolMessage.isNotification).map PoolMessage.value :=
    hcorrect.notified
  rw [h.correct.notified, List.append_right_inj] at hnotified
  have htaken : (s.wire.take count).filter PoolMessage.isNotification = [] := by
    rw [hflight] at hnotified
    exact List.map_eq_nil_iff.mp (List.append_left_eq_self.mp hnotified)
  have hall : (s.wire.take count).filter (fun m => !m.isNotification) = s.wire.take count := by
    rw [List.filter_eq_self]
    intro m hm
    simpa using List.filter_eq_nil_iff.mp htaken m hm
  have hsome : s.wire.take count ≠ [] := by
    intro hnil
    have hlength := congrArg List.length hnil
    rw [List.length_take, List.length_nil] at hlength
    have hpos := hcount.1
    have hle := hcount.2.1
    omega
  have hresponses := responses_eq_take s count
  rw [hall] at hresponses
  -- so all that is taken is the response
  cases h.phase with
  | idle hnone => simp [hnone] at hwaiting
  | asked _ _ hnone =>
    rw [hnone] at hresponses
    exact absurd (List.append_eq_nil_iff.mp hresponses.symm).1 hsome
  | @answered request' m hwaiting' hpending hone hm hanswers =>
    obtain rfl : request = request' := Option.some.inj (hwaiting.symm.trans hwaiting')
    have hchunk : s.wire.take count = [m] := by
      rw [hone] at hresponses
      rcases List.append_eq_singleton_iff.mp hresponses.symm with hleft | hright
      · exact absurd hleft.1 hsome
      · exact hright.1
    refine ⟨request, m, hwaiting, hchunk, hm, ?_⟩
    rw [answer_eq hnewline s hchunk] at hcorrect
    have haccepted := hcorrect.accepted_eq
    have hrejected := hcorrect.rejected_eq
    have hold := h.correct.accepted_eq
    have hold' := h.correct.rejected_eq
    cases hok : resultTrue m.value with
    | true =>
      have hnew : (s.acceptedShares + 1).toNat = s.acceptedShares.toNat + 1 := by
        rw [length_filter_snoc, ← hold, hok] at haccepted
        exact haccepted
      rw [if_pos rfl, ← hnew]
      exact BitVec.isLt _
    | false =>
      have hnew : (s.rejectedShares + 1).toNat = s.rejectedShares.toNat + 1 := by
        rw [length_filter_snoc, ← hold', hok] at hrejected
        exact hrejected
      rw [if_neg Bool.false_ne_true, ← hnew]
      exact BitVec.isLt _

lemma Lockstep.step {t : System parse} {e : Event parse} (h : Lockstep s) (hstep : Step s e t)
    (hown : OwnResponse s e) : Lockstep t := by
  cases hstep with
  | notify hm => exact h.notify hm
  | respond hpending hm => exact h.respond hpending hm
  | poll hidle hcount => exact h.poll hidle _
  | submit hidle => exact h.submit hidle
  | answer hwaiting hcount => exact h.answer hnewline hwaiting hown

lemma Lockstep.step_iff {t : System parse} {e : Event parse} (h : Lockstep s) :
    (Step s e t ∧ OwnResponse s e) ↔ (Step s e t ∧ Correct t) := by
  constructor
  · rintro ⟨hstep, hown⟩
    exact ⟨hstep, (h.step hnewline hstep hown).correct⟩
  · rintro ⟨hstep, hcorrect⟩
    refine ⟨hstep, ?_⟩
    cases hstep with
    | answer hwaiting hcount => exact h.ownResponse hnewline hwaiting hcount hcorrect
    | _ => trivial

end Answer

end Invariant

/-- **The client is correct as long as every submit receives its own response.**  In a run in
which it always does, every state is correct; and the runs in which it does are the runs through
correct states only.  Of the parser it is used that it does not mind a newline after the text. -/
theorem run_ownResponse_iff {parse : Parser}
    (hnewline : ∀ text, parse (text ++ [newline]) = parse text) (id : BitVec 64)
    (l : List (Event parse)) (s : System parse) :
    (Run (fun s e t => Step s e t ∧ OwnResponse s e) (System.initial parse id) l s → Correct s) ∧
      (Run (fun s e t => Step s e t ∧ OwnResponse s e) (System.initial parse id) l s ↔
        Run (fun s e t => Step s e t ∧ Correct t) (System.initial parse id) l s) := by
  have hstep : ∀ (t : System parse) (e : Event parse) (u : System parse), Lockstep t →
      Step t e u ∧ OwnResponse t e → Lockstep u :=
    fun t e u h hboth => h.step hnewline hboth.1 hboth.2
  constructor
  · intro hrun
    exact (hrun.invariant Lockstep (lockstep_initial id) hstep).correct
  · exact Run.congr Lockstep (lockstep_initial id) hstep fun t e u h => h.step_iff hnewline

/-! ## A share and a notification -/

/-- A parser, on two texts; newlines at the end do not matter. -/
def lineParser : Parser := fun text =>
  let body := text.rdropWhile (· == newline)
  if body = notifyText then some (notifyMessage "1" "0x0" "0x0")
  else if body = trueText then some (.object [("id", .integer 1), ("result", .boolean true)])
  else none

/-- The pool announces a job. -/
def announcement : PoolMessage lineParser where
  text := notifyText
  value := notifyMessage "1" "0x0" "0x0"
  parses := rfl
  framed := by decide +kernel

/-- The pool accepts the share that came with id 1. -/
def acceptance : PoolMessage lineParser where
  text := trueText
  value := .object [("id", .integer 1), ("result", .boolean true)]
  parses := rfl
  framed := by decide +kernel

/-- The first submit, with the id 1. -/
def firstRequest : SubmitRequest := { number := 0, id := 1 }

lemma acceptance_answers : acceptance.Answers firstRequest.id := ⟨rfl, rfl⟩

/-- The response comes first. -/
theorem run_ownResponse_iff_accepted :
    ∃ s, Run (fun s e t => Step s e t ∧ OwnResponse s e) (System.initial lineParser 1)
        [.submit, .respond firstRequest acceptance, .notify announcement, .answer 1] s ∧
      Correct s ∧ s.returned = [(firstRequest, true)] ∧ s.inFlight = [announcement.value] := by
  let s₂ := (System.initial lineParser 1).submit.respond firstRequest acceptance
  let s₃ := s₂.notify announcement
  have hpool : Run (fun s e t => Step s e t ∧ OwnResponse s e) (System.initial lineParser 1)
      [.submit, .respond firstRequest acceptance, .notify announcement] s₃ :=
    .snoc (.snoc (.snoc (.refl _) ⟨.submit rfl, trivial⟩)
      ⟨.respond (List.mem_singleton.mpr rfl) acceptance_answers, trivial⟩) ⟨.notify rfl, trivial⟩
  have hanswer : Step s₃ (.answer 1) (s₃.answer firstRequest 1) := .answer rfl (by decide +kernel)
  have hrun := hpool.snoc
    ⟨hanswer, firstRequest, acceptance, rfl, rfl, acceptance_answers, by decide⟩
  have hnewline : ∀ text, lineParser (text ++ [newline]) = lineParser text := by
    intro text
    rw [lineParser, lineParser, List.rdropWhile_concat_pos _ _ _ rfl]
  exact ⟨s₃.answer firstRequest 1, hrun, (run_ownResponse_iff hnewline 1 _ _).1 hrun, rfl, rfl⟩

/-- The notification comes first: the submit takes it for its answer and returns false, and the
response that arrives then accepts the share. -/
theorem run_not_correct :
    ∃ s, Run Step (System.initial lineParser 1)
        [.submit, .notify announcement, .answer 1, .respond firstRequest acceptance] s ∧
      s.returned = [(firstRequest, false)] ∧ s.resultOf firstRequest = some true ∧
      s.rejectedShares = 1 ∧ s.sent = [announcement.value] ∧ s.delivered ++ s.inFlight = [] ∧
      ¬ Correct s := by
  let s₂ := (System.initial lineParser 1).submit.notify announcement
  let s₃ := s₂.answer firstRequest 1
  have hnotify : Run Step (System.initial lineParser 1) [.submit, .notify announcement] s₂ :=
    .snoc (.snoc (.refl _) (.submit rfl)) (.notify rfl)
  have hanswer : Step s₂ (.answer 1) s₃ := .answer rfl (by decide +kernel)
  have hrun := (hnotify.snoc hanswer).snoc
    (.respond (List.mem_singleton.mpr rfl) acceptance_answers)
  refine ⟨s₃.respond firstRequest acceptance, hrun, rfl, rfl, rfl, rfl, rfl, ?_⟩
  intro hcorrect
  have hlost : [announcement.value] = [] := hcorrect.notified
  exact absurd hlost (List.cons_ne_nil _ _)

end OhMyMiner.Stratum
