/-
# The connection to the pool

`TcpConnection` (`src/network/connection.cpp`) and `StratumClient::Impl`
(`src/network/stratum_client.cpp`) keep a socket and a flag that says whether it is open.  The two
members are written separately: `connect` does not touch the flag when it fails, so a client that
connects again while it is connected can keep the flag and lose the socket.  Both classes report a
message as sent as soon as `::send` accepts some of it.
-/
import OhMyMiner.Lib.Transition
import OhMyMiner.Stratum.Framing
import OhMyMiner.Stratum.PoolUrl

namespace OhMyMiner.Stratum

open Lib

/-! ## The code -/

/-- `TcpConnection`. -/
structure TcpConnection where
  connected : Bool
  socket : ℤ

/-- What `::recv` returns: some bytes, the end of the stream, or an error.  That there are no bytes
yet counts as an error. -/
inductive Received where
  | data (bytes : List Byte)
  | closed
  | error

/-- A message, and what `::send` returns for it: how many of its bytes it accepts, or a negative
number. -/
structure Sending where
  message : List Byte
  sent : ℤ
  sent_le : sent ≤ message.length

/-- What a call that sends does: the bytes that go out, and what it returns. -/
structure Sent where
  wire : List Byte
  result : Bool

/-- A call that sends, if its guard lets it. -/
def sendIf (guard : Bool) (s : Sending) : Sent :=
  if !guard then { wire := [], result := false }
  else if s.sent < 0 then { wire := [], result := false }
  else { wire := s.message.take s.sent.toNat, result := true }

namespace TcpConnection

/-- A new connection. -/
def new : TcpConnection := { connected := false, socket := -1 }

def connect (network : Network) (c : TcpConnection) (host : List Byte) (port : BitVec 16) :
    TcpConnection × Bool :=
  match network.gethostbyname (cString host) with
  | none => (c, false)
  | some address =>
    let c := { c with socket := network.socket }
    if c.socket < 0 then (c, false)
    else if network.answers address port then ({ c with connected := true }, true)
    else ({ c with socket := -1 }, false)

def disconnect (c : TcpConnection) : TcpConnection :=
  if c.socket ≥ 0 then { connected := false, socket := -1 } else c

def send (c : TcpConnection) (s : Sending) : Sent := sendIf c.connected s

def receive (c : TcpConnection) (received : Received) : TcpConnection × List Byte :=
  if !c.connected then (c, [])
  else
    match received with
    | .error => (c, [])
    | .closed => (c.disconnect, [])
    | .data bytes => (c, bytes)

def isConnected (c : TcpConnection) : Bool := c.connected

end TcpConnection

namespace Connection

/-- A new client. -/
def new (poolUrl : List Byte) : Connection :=
  { poolUrl := poolUrl, connected := false, socket := -1 }

def disconnect (c : Connection) : Connection :=
  if c.socket ≥ 0 then { c with connected := false, socket := -1 } else c

def isConnected (c : Connection) : Bool := c.connected

def sendMessage (c : Connection) (s : Sending) : Sent := sendIf (!decide (c.socket < 0)) s

def receiveMessage (c : Connection) (received : Received) : Connection × List Byte :=
  if c.socket < 0 then (c, [])
  else
    match received with
    | .error => (c, [])
    | .closed => (c.disconnect, [])
    | .data bytes => (c, bytes)

/-- `processMessages`, with the notifications that it hands on. -/
def processMessages (parse : Parser) (c : Connection) (received : Received) :
    Connection × List Json :=
  if !c.connected || c.socket < 0 then (c, [])
  else
    match received with
    | .error => (c, [])
    | .closed => (c.disconnect, [])
    | .data bytes => (c, Stratum.processMessages parse bytes)

/-- The two members that the client has in common with `TcpConnection`. -/
def tcp (c : Connection) : TcpConnection := { connected := c.connected, socket := c.socket }

end Connection

/-! ## Calls in any order -/

/-- A call on `StratumClient::Impl`, with what the system does in it. -/
inductive Call where
  | connect (network : Network)
  | disconnect
  | receiveMessage (received : Received)
  | processMessages (received : Received)
  | sendMessage (s : Sending)

/-- A call on `TcpConnection`, with what the system does in it. -/
inductive TcpCall where
  | connect (network : Network) (host : List Byte) (port : BitVec 16)
  | disconnect
  | receive (received : Received)
  | send (s : Sending)

/-- The state that a call leaves.  An exception of `connect` comes before all changes. -/
def Connection.perform (parse : Parser) (c : Connection) : Call → Connection
  | .connect network =>
    match c.connect network with
    | .ok attempt => attempt.connection
    | .error _ => c
  | .disconnect => c.disconnect
  | .receiveMessage received => (c.receiveMessage received).1
  | .processMessages received => (c.processMessages parse received).1
  | .sendMessage _ => c

/-- The state that a call leaves. -/
def TcpConnection.perform (c : TcpConnection) : TcpCall → TcpConnection
  | .connect network host port => (c.connect network host port).1
  | .disconnect => c.disconnect
  | .receive received => (c.receive received).1
  | .send _ => c

/-- The flag says whether the socket is open, so that disconnecting clears it. -/
structure TcpConnection.Settled (c : TcpConnection) : Prop where
  connected_iff : c.isConnected = true ↔ c.socket ≥ 0
  disconnect : c.isConnected = true → c.disconnect.isConnected = false

/-- The name resolves, but then there is no socket or no answer. -/
def Network.Fails (network : Network) (host : List Byte) (port : BitVec 16) : Prop :=
  ∃ address, network.gethostbyname (cString host) = some address ∧
    (network.socket < 0 ∨ network.answers address port = false)

/-- A call that connects again and fails behind the resolution of the name. -/
def TcpConnection.LosesSocket (c : TcpConnection) : TcpCall → Prop
  | .connect network host port => c.connected = true ∧ network.Fails host port
  | _ => False

/-- A call that connects again and fails behind the resolution of the name. -/
def Connection.LosesSocket (c : Connection) : Call → Prop
  | .connect network => c.connected = true ∧
    ∃ host port, parsePoolUrl c.poolUrl = .ok (host, port) ∧ network.Fails host port
  | _ => False

/-! ## The client does what `TcpConnection` does -/

lemma Connection.tcp_dial (network : Network) (c : Connection) (host : List Byte)
    (port : BitVec 16) :
    (dial network c host port).connection.tcp = (c.tcp.connect network host port).1 := by
  rw [dial, TcpConnection.connect]
  cases network.gethostbyname (cString host) with
  | none => rfl
  | some address =>
    dsimp only
    split_ifs <;> rfl

lemma Connection.tcp_disconnect (c : Connection) : c.disconnect.tcp = c.tcp.disconnect := by
  have hsocket : c.tcp.socket = c.socket := rfl
  rw [disconnect, TcpConnection.disconnect, hsocket]
  split_ifs <;> rfl

/-! ## What a call leaves -/

namespace TcpConnection

variable {c : TcpConnection}

lemma settled_open {socket : ℤ} (h : socket ≥ 0) :
    Settled { connected := true, socket := socket } where
  connected_iff := iff_of_true rfl h
  disconnect _ := by simp [TcpConnection.disconnect, isConnected, h]

/-- Without a socket, the flag has to be clear. -/
lemma settled_closed_iff {connected : Bool} {socket : ℤ} (h : socket < 0) :
    Settled { connected := connected, socket := socket } ↔ connected = false := by
  have hsocket : ¬ socket ≥ 0 := not_le.mpr h
  constructor
  · intro hsettled
    exact Bool.eq_false_iff.mpr fun hconnected => hsocket (hsettled.connected_iff.mp hconnected)
  · rintro rfl
    exact { connected_iff := iff_of_false Bool.false_ne_true hsocket
            disconnect := fun hconnected => absurd hconnected Bool.false_ne_true }

lemma settled_disconnect (h : c.Settled) : c.disconnect.Settled := by
  rw [disconnect]
  split_ifs
  · exact (settled_closed_iff (by decide)).mpr rfl
  · exact h

lemma settled_receive (h : c.Settled) (received : Received) : (c.receive received).1.Settled := by
  unfold receive
  split_ifs
  · exact h
  · cases received with
    | data bytes => exact h
    | closed => exact settled_disconnect h
    | error => exact h

/-- **A call of `connect`** keeps flag and socket together unless it loses the socket of a client
that was connected. -/
theorem settled_connect_iff (h : c.Settled) (network : Network) (host : List Byte)
    (port : BitVec 16) :
    (c.connect network host port).1.Settled ↔
      ¬ (c.connected = true ∧ network.Fails host port) := by
  rw [connect]
  cases haddress : network.gethostbyname (cString host) with
  | none => simpa [Network.Fails, haddress] using h
  | some address =>
    have hfails : network.Fails host port ↔
        network.socket < 0 ∨ network.answers address port = false := by
      simp [Network.Fails, haddress]
    dsimp only
    rw [hfails]
    by_cases hsocket : network.socket < 0
    · rw [if_pos hsocket, settled_closed_iff hsocket]
      simp [hsocket]
    rw [if_neg hsocket]
    by_cases hanswers : network.answers address port
    · rw [if_pos hanswers]
      refine iff_of_true (settled_open (not_lt.mp hsocket)) ?_
      simp [hsocket, hanswers]
    · rw [if_neg hanswers, settled_closed_iff (by decide)]
      simp [hanswers]

lemma settled_perform_iff (h : c.Settled) (call : TcpCall) :
    (c.perform call).Settled ↔ ¬ c.LosesSocket call := by
  cases call with
  | connect network host port => exact settled_connect_iff h network host port
  | disconnect => exact iff_of_true (settled_disconnect h) id
  | receive received => exact iff_of_true (settled_receive h received) id
  | send s => exact iff_of_true h id

end TcpConnection

namespace Connection

variable {c : Connection}

lemma settled_disconnect (h : c.tcp.Settled) : c.disconnect.tcp.Settled := by
  rw [tcp_disconnect]
  exact TcpConnection.settled_disconnect h

lemma settled_receiveMessage (h : c.tcp.Settled) (received : Received) :
    (c.receiveMessage received).1.tcp.Settled := by
  unfold receiveMessage
  split_ifs
  · exact h
  · cases received with
    | data bytes => exact h
    | closed => exact settled_disconnect h
    | error => exact h

lemma settled_processMessages (h : c.tcp.Settled) (parse : Parser) (received : Received) :
    (c.processMessages parse received).1.tcp.Settled := by
  unfold processMessages
  split_ifs
  · exact h
  · cases received with
    | data bytes => exact h
    | closed => exact settled_disconnect h
    | error => exact h

lemma settled_perform_iff (h : c.tcp.Settled) (parse : Parser) (call : Call) :
    (c.perform parse call).tcp.Settled ↔ ¬ c.LosesSocket call := by
  cases call with
  | connect network =>
    cases hparse : parsePoolUrl c.poolUrl with
    | error e =>
      have hconnect : c.perform parse (.connect network) = c := by
        simp [perform, connect, hparse, bind, Except.bind]
      rw [hconnect]
      refine iff_of_true h ?_
      rintro ⟨-, host, port, hok, -⟩
      exact absurd (hparse.symm.trans hok) (by simp)
    | ok target =>
      obtain ⟨host, port⟩ := target
      have hconnect : (c.perform parse (.connect network)).tcp =
          (c.tcp.connect network host port).1 := by
        rw [← tcp_dial]
        simp [perform, connect, hparse, bind, Except.bind, pure, Except.pure]
      rw [hconnect, TcpConnection.settled_connect_iff h]
      simp [LosesSocket, hparse, tcp]
  | disconnect => exact iff_of_true (settled_disconnect h) id
  | receiveMessage received => exact iff_of_true (settled_receiveMessage h received) id
  | processMessages received => exact iff_of_true (settled_processMessages h parse received) id
  | sendMessage s => exact iff_of_true h id

end Connection

/-- **When the flag says whether the socket is open.**  In a sequence of calls on a new object of
either class, flag and socket go together in all states if and only if no call connects again and
fails behind the resolution of the name. -/
theorem settled_iff (parse : Parser) (poolUrl : List Byte) (calls : List Call)
    (tcpCalls : List TcpCall) :
    ((∀ made, made <+: calls →
        (made.foldl (Connection.perform parse) (Connection.new poolUrl)).tcp.Settled) ↔
      ∀ made call, made ++ [call] <+: calls →
        ¬ (made.foldl (Connection.perform parse) (Connection.new poolUrl)).LosesSocket call) ∧
    ((∀ made, made <+: tcpCalls →
        (made.foldl TcpConnection.perform TcpConnection.new).Settled) ↔
      ∀ made call, made ++ [call] <+: tcpCalls →
        ¬ (made.foldl TcpConnection.perform TcpConnection.new).LosesSocket call) := by
  have hnew : TcpConnection.new.Settled := (TcpConnection.settled_closed_iff (by decide)).mpr rfl
  have hcall : ∀ (c : Connection) (call : Call), c.tcp.Settled →
      ((c.perform parse call).tcp.Settled ↔ ¬ c.LosesSocket call) :=
    fun _ call h => Connection.settled_perform_iff h parse call
  have htcpCall : ∀ (c : TcpConnection) (call : TcpCall), c.Settled →
      ((c.perform call).Settled ↔ ¬ c.LosesSocket call) :=
    fun _ call h => TcpConnection.settled_perform_iff h call
  exact ⟨always_iff (s := Connection.new poolUrl) hcall hnew calls,
    always_iff htcpCall hnew tcpCalls⟩

/-- A network in which every name has an address and nobody answers. -/
def silentNetwork : Network := { plainNetwork with answers := fun _ _ => false }

/-- An object of either class that connects, and then connects again to a pool that does not
answer, says that it is connected, has no socket, and cannot be disconnected. -/
theorem not_settled_again :
    ¬ (∀ made, made <+: [Call.connect plainNetwork, Call.connect silentNetwork] →
        (made.foldl (Connection.perform fun _ => none)
          (Connection.new (utf8 "pool"))).tcp.Settled) ∧
    ¬ (∀ made, made <+: [TcpCall.connect plainNetwork (utf8 "pool") 4444,
          TcpCall.connect silentNetwork (utf8 "pool") 4444] →
        (made.foldl TcpConnection.perform TcpConnection.new).Settled) ∧
    TcpConnection.disconnect { connected := true, socket := -1 } =
      { connected := true, socket := -1 } := by
  have hlost : ¬ TcpConnection.Settled { connected := true, socket := -1 } := by
    rw [TcpConnection.settled_closed_iff (by decide)]
    decide
  exact ⟨fun h => hlost (h _ (List.prefix_refl _)), fun h => hlost (h _ (List.prefix_refl _)), rfl⟩

/-! ## What the pool receives -/

/-- What goes out in a sequence of calls. -/
def stream (send : Sending → Sent) (sendings : List Sending) : List Byte :=
  sendings.flatMap fun s => (send s).wire

/-- The complete messages of the calls that have returned true. -/
def reported (send : Sending → Sent) (sendings : List Sending) : List Byte :=
  (sendings.filter fun s => (send s).result).flatMap Sending.message

/-- As long as no call has returned false, the pool has received the messages that were reported
as sent. -/
def Faithful (send : Sending → Sent) (sendings : List Sending) : Prop :=
  (∀ s ∈ sendings, (send s).result = true) → stream send sendings = reported send sendings

/-- A stream of the bytes that were accepted is the stream of the messages only if every message
was accepted as a whole. -/
lemma flatMap_accepted_iff (sendings : List Sending) :
    (sendings.flatMap fun s => s.message.take s.sent.toNat) = sendings.flatMap Sending.message ↔
      ∀ s ∈ sendings, s.message.length ≤ s.sent.toNat := by
  constructor
  · intro heq
    -- no part is longer than its message, so none can be shorter
    have hle : ∀ sendings : List Sending,
        (sendings.flatMap fun s => s.message.take s.sent.toNat).length ≤
          (sendings.flatMap Sending.message).length := by
      intro sendings
      induction sendings with
      | nil => exact le_rfl
      | cons s sendings ih =>
        rw [List.flatMap_cons, List.flatMap_cons, List.length_append, List.length_append,
          List.length_take]
        omega
    have hlength := congrArg List.length heq
    clear heq
    induction sendings with
    | nil => exact fun s hs => absurd hs List.not_mem_nil
    | cons s sendings ih =>
      have hrest := hle sendings
      rw [List.flatMap_cons, List.flatMap_cons, List.length_append, List.length_append,
        List.length_take] at hlength
      intro s' hs'
      rcases List.mem_cons.mp hs' with rfl | hs'
      · omega
      · exact ih (by omega) s' hs'
  · intro hwhole
    rw [List.flatMap_congr fun s hs => List.take_of_length_le (hwhole s hs)]

lemma sendIf_result {guard : Bool} {s : Sending} :
    (sendIf guard s).result = true ↔ guard = true ∧ s.sent ≥ 0 := by
  unfold sendIf
  split_ifs with hguard hsent
  · simpa using fun h => absurd h (by simpa using hguard)
  · simpa using fun _ => hsent
  · simpa using ⟨by simpa using hguard, not_lt.mp hsent⟩

lemma sendIf_wire {guard : Bool} {s : Sending} (h : (sendIf guard s).result = true) :
    (sendIf guard s).wire = s.message.take s.sent.toNat := by
  obtain ⟨rfl, hsent⟩ := sendIf_result.mp h
  simp [sendIf, not_lt.mpr hsent]

/-- The calls of one object all have the same guard. -/
lemma faithful_sendIf_iff (guard : Bool) (sendings : List Sending) :
    Faithful (sendIf guard) sendings ↔
      (guard = true → (∀ s ∈ sendings, s.sent ≥ 0) →
        ∀ s ∈ sendings, s.sent = s.message.length) := by
  rcases sendings.eq_nil_or_concat with rfl | hne
  · simp [Faithful, stream, reported]
  have hall : (∀ s ∈ sendings, (sendIf guard s).result = true) ↔
      guard = true ∧ ∀ s ∈ sendings, s.sent ≥ 0 := by
    obtain ⟨init, last, rfl⟩ := hne
    constructor
    · intro h
      exact ⟨(sendIf_result.mp (h last (by simp))).1, fun s hs => (sendIf_result.mp (h s hs)).2⟩
    · exact fun h s hs => sendIf_result.mpr ⟨h.1, h.2 s hs⟩
  rw [Faithful, hall, and_imp]
  refine imp_congr_right fun hguard => imp_congr_right fun hsent => ?_
  have hresult := hall.mpr ⟨hguard, hsent⟩
  have hfilter : (sendings.filter fun s => (sendIf guard s).result) = sendings :=
    List.filter_eq_self.mpr hresult
  rw [stream, reported, hfilter,
    List.flatMap_congr fun s hs => sendIf_wire (hresult s hs), flatMap_accepted_iff]
  refine forall₂_congr fun s hs => ?_
  have hle := s.sent_le
  have hnonneg := hsent s hs
  omega

/-- **When the pool receives what was reported as sent.**  While no call on an open connection has
returned false, the pool has received the complete messages if and only if every `::send` accepted
all of its message. -/
theorem faithful_iff (c : Connection) (tcp : TcpConnection) (sendings : List Sending) :
    (Faithful c.sendMessage sendings ↔
      (c.socket ≥ 0 → (∀ s ∈ sendings, s.sent ≥ 0) →
        ∀ s ∈ sendings, s.sent = s.message.length)) ∧
    (Faithful tcp.send sendings ↔
      (tcp.connected = true → (∀ s ∈ sendings, s.sent ≥ 0) →
        ∀ s ∈ sendings, s.sent = s.message.length)) := by
  have hguard : (!decide (c.socket < 0)) = true ↔ c.socket ≥ 0 := by simp
  constructor
  · rw [← hguard]
    exact faithful_sendIf_iff (!decide (c.socket < 0)) sendings
  · exact faithful_sendIf_iff tcp.connected sendings

/-- `::send` accepts the first of two bytes. -/
def shortSending : Sending :=
  { message := [0x7B, 0x0A], sent := 1, sent_le := by decide }

/-- Both classes report the two bytes as sent, and the pool receives one. -/
theorem not_faithful_short :
    ¬ Faithful (Connection.sendMessage { poolUrl := [], connected := true, socket := 3 })
        [shortSending] ∧
    ¬ Faithful (TcpConnection.send { connected := true, socket := 3 }) [shortSending] := by
  constructor
  · intro h
    exact absurd (h (by decide)) (by decide)
  · intro h
    exact absurd (h (by decide)) (by decide)

end OhMyMiner.Stratum
