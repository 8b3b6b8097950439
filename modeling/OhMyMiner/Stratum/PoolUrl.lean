/-
# The URL of the pool

`StratumClient::Impl::connect` (`src/network/stratum_client.cpp`) takes what is behind the last
colon of the URL for the port.  In a URL with a scheme and without a port that is the rest of the
URL, and `std::stoi` throws; nobody catches the exception.
-/
import OhMyMiner.Lib.Strings
import OhMyMiner.Stratum.Notify

namespace OhMyMiner.Stratum

open Lib

/-! ## The code -/

/-- The members of `StratumClient::Impl` that `connect` uses. -/
structure Connection where
  poolUrl : List Byte
  connected : Bool
  socket : ℤ

/-- What the system makes of the calls: an address for a name, if there is one, a descriptor, and
whether the pool answers at an address and a port. -/
structure Network where
  gethostbyname : List Byte → Option (BitVec 32)
  socket : ℤ
  answers : BitVec 32 → BitVec 16 → Bool

/-- What a call of `connect` does: the name that it resolves, the address and the port that it
connects to, the state that it leaves, and what it returns. -/
structure Attempt where
  resolved : List Byte
  dialled : Option (BitVec 32 × BitVec 16)
  connection : Connection
  result : Bool

/-- The separator `://`. -/
def protocolSeparator : List Byte := [0x3A, 0x2F, 0x2F]

/-- "Parse pool URL (format: host:port or stratum+tcp://host:port)". -/
def parsePoolUrl (poolUrl : List Byte) : Except StoiError (List Byte × BitVec 16) :=
  match findLastOf 0x3A poolUrl with
  | some colonPos => do
    let host := poolUrl.take colonPos
    let host :=
      match findFirst protocolSeparator host with
      | some protocolEnd => host.drop (protocolEnd + 3)
      | none => host
    let port ← stoi (poolUrl.drop (colonPos + 1))
    return (host, BitVec.ofInt 16 port)
  | none => .ok (poolUrl, 3333)

/-- `connect`, behind the parser. -/
def dial (network : Network) (c : Connection) (host : List Byte) (port : BitVec 16) : Attempt :=
  let name := cString host
  match network.gethostbyname name with
  | none => { resolved := name, dialled := none, connection := c, result := false }
  | some address =>
    let c := { c with socket := network.socket }
    if c.socket < 0 then { resolved := name, dialled := none, connection := c, result := false }
    else if network.answers address port then
      { resolved := name, dialled := some (address, port),
        connection := { c with connected := true }, result := true }
    else
      { resolved := name, dialled := some (address, port),
        connection := { c with socket := -1 }, result := false }

/-- `connect`. -/
def Connection.connect (network : Network) (c : Connection) : Except StoiError Attempt := do
  let (host, port) ← parsePoolUrl c.poolUrl
  return dial network c host port

lemma dial_resolved (network : Network) (c : Connection) (host : List Byte) (port : BitVec 16) :
    (dial network c host port).resolved = cString host := by
  rw [dial]
  dsimp only
  split
  · rfl
  · split_ifs <;> rfl

lemma dial_dialled (network : Network) (c : Connection) (host : List Byte) (port : BitVec 16) :
    (dial network c host port).dialled = if network.socket < 0 then none else
      (network.gethostbyname (cString host)).map fun address => (address, port) := by
  rw [dial]
  dsimp only
  split
  · next hnone =>
    rw [hnone, Option.map_none, ite_self]
  · next address haddress =>
    rw [haddress]
    split_ifs <;> rfl

/-! ## URLs -/

/-- A URL `[scheme://]host[:port]`. -/
structure PoolUrl where
  scheme : Option (List Byte)
  host : List Byte
  port : Option (List Byte)
  scheme_colon : ∀ text, scheme = some text → 0x3A ∉ text
  host_ne_nil : host ≠ []
  host_colon : 0x3A ∉ host
  host_slash : 0x2F ∉ host
  port_digits : ∀ digits, port = some digits → digits ≠ [] ∧
    (∀ c ∈ digits, isDecimal c = true) ∧ decimalNumber digits ≤ 65535

namespace PoolUrl

/-- The text of the URL. -/
def text (url : PoolUrl) : List Byte :=
  (url.scheme.map (· ++ protocolSeparator)).getD [] ++ url.host ++
    (url.port.map (0x3A :: ·)).getD []

/-- The port, 3333 if none is given. -/
def portNumber (url : PoolUrl) : ℕ := (url.port.map decimalNumber).getD 3333

/-- The client resolves the host and uses the port: it connects to the address of the host, if the
host has one and there is a socket. -/
def Connects (network : Network) (c : Connection) (url : PoolUrl) : Prop :=
  ∃ attempt port, { c with poolUrl := url.text }.connect network = .ok attempt ∧
    attempt.resolved = url.host ∧ port.toNat = url.portNumber ∧
    attempt.dialled = if network.socket < 0 then none else
      (network.gethostbyname url.host).map fun address => (address, port)

/-! ## What the parser finds -/

variable {network : Network} {c : Connection} {url : PoolUrl}

lemma portNumber_lt (url : PoolUrl) : url.portNumber < 2 ^ 16 := by
  rw [portNumber]
  cases hport : url.port with
  | none => simp
  | some digits =>
    have hle := (url.port_digits digits hport).2.2
    show decimalNumber digits < 2 ^ 16
    omega

/-- Digits are no colons. -/
lemma colon_notMem_digits {digits : List Byte} (h : ∀ c ∈ digits, isDecimal c = true) :
    0x3A ∉ digits := fun hmem => absurd (h 0x3A hmem) (by decide)

/-- Behind the scheme, if there is one, is the host. -/
lemma host_of_scheme (url : PoolUrl) :
    (match findFirst protocolSeparator
        ((url.scheme.map (· ++ protocolSeparator)).getD [] ++ url.host) with
      | some protocolEnd =>
        ((url.scheme.map (· ++ protocolSeparator)).getD [] ++ url.host).drop (protocolEnd + 3)
      | none => (url.scheme.map (· ++ protocolSeparator)).getD [] ++ url.host) = url.host := by
  cases hscheme : url.scheme with
  | none =>
    show (match findFirst protocolSeparator ([] ++ url.host) with
      | some protocolEnd => ([] ++ url.host).drop (protocolEnd + 3)
      | none => [] ++ url.host) = url.host
    rw [List.nil_append, protocolSeparator, findFirst_eq_none url.host_colon]
  | some text =>
    have hfirst : findFirst protocolSeparator (text ++ protocolSeparator ++ url.host) =
        some text.length := findFirst_append (url.scheme_colon text hscheme)
    show (match findFirst protocolSeparator (text ++ protocolSeparator ++ url.host) with
      | some protocolEnd => (text ++ protocolSeparator ++ url.host).drop (protocolEnd + 3)
      | none => text ++ protocolSeparator ++ url.host) = url.host
    rw [hfirst]
    exact List.drop_left' (by simp [protocolSeparator])

/-- A URL with a port. -/
lemma parsePoolUrl_port {digits : List Byte} (hport : url.port = some digits) :
    parsePoolUrl url.text = .ok (url.host, BitVec.ofNat 16 url.portNumber) := by
  obtain ⟨hne, hdigits, hle⟩ := url.port_digits digits hport
  have htext : url.text =
      (url.scheme.map (· ++ protocolSeparator)).getD [] ++ url.host ++ 0x3A :: digits := by
    rw [text, hport]
    rfl
  have hnumber : url.portNumber = decimalNumber digits := by
    rw [portNumber, hport]
    rfl
  have hstoi := stoi_digits hne hdigits (by omega)
  rw [parsePoolUrl, htext, findLastOf_append (colon_notMem_digits hdigits)]
  dsimp only
  rw [List.take_left, host_of_scheme url, List.drop_length_add_append, List.drop_one,
    List.tail_cons, hstoi, hnumber]
  rfl

/-- A URL that is only a host. -/
lemma parsePoolUrl_host (hscheme : url.scheme = none) (hport : url.port = none) :
    parsePoolUrl url.text = .ok (url.host, BitVec.ofNat 16 url.portNumber) := by
  have htext : url.text = url.host := by
    rw [text, hscheme, hport]
    simp
  rw [parsePoolUrl, htext, findLastOf_eq_none url.host_colon, portNumber, hport]
  rfl

/-- A scheme without a port. -/
lemma parsePoolUrl_scheme {scheme : List Byte} (hscheme : url.scheme = some scheme)
    (hport : url.port = none) : parsePoolUrl url.text = .error .invalidArgument := by
  -- the last colon is that of the scheme
  have htext : url.text = scheme ++ 0x3A :: (0x2F :: 0x2F :: url.host) := by
    rw [text, hscheme, hport]
    simp [protocolSeparator]
  have hcolon : 0x3A ∉ 0x2F :: 0x2F :: url.host := by
    simp only [List.mem_cons, not_or]
    exact ⟨by decide, by decide, url.host_colon⟩
  have hslash : isSpace 0x2F = false ∧ (0x2F : Byte) ≠ 0x2D ∧ (0x2F : Byte) ≠ 0x2B ∧
      isDecimal 0x2F = false := by decide
  rw [parsePoolUrl, htext, findLastOf_append hcolon]
  dsimp only
  rw [List.drop_length_add_append, List.drop_one, List.tail_cons, stoi_invalid _ hslash]
  rfl

/-- **Which URLs can be connected to**: those with a port or without a scheme, if no zero byte ends
the host early. -/
theorem connects_iff (network : Network) (c : Connection) (url : PoolUrl) :
    url.Connects network c ↔ (url.port.isSome = true ∨ url.scheme = none) ∧ 0 ∉ url.host := by
  by_cases hparses : url.port.isSome = true ∨ url.scheme = none
  · have hparse : parsePoolUrl url.text = .ok (url.host, BitVec.ofNat 16 url.portNumber) := by
      cases hport : url.port with
      | some digits => exact parsePoolUrl_port hport
      | none => exact parsePoolUrl_host (hparses.resolve_left (by simp [hport])) hport
    have hconnect : { c with poolUrl := url.text }.connect network =
        .ok (dial network { c with poolUrl := url.text } url.host
          (BitVec.ofNat 16 url.portNumber)) := by
      rw [Connection.connect, hparse]
      rfl
    -- what is left to compare is the name with the host
    rw [and_iff_right hparses, ← cString_eq_self_iff]
    constructor
    · rintro ⟨attempt, -, hok, hresolved, -⟩
      obtain rfl := Except.ok.inj (hconnect.symm.trans hok)
      exact (dial_resolved _ _ _ _).symm.trans hresolved
    · intro hname
      have hport : (BitVec.ofNat 16 url.portNumber).toNat = url.portNumber := by
        rw [BitVec.toNat_ofNat, Nat.mod_eq_of_lt url.portNumber_lt]
      refine ⟨_, _, hconnect, (dial_resolved _ _ _ _).trans hname, hport, ?_⟩
      rw [dial_dialled, hname]
  · refine iff_of_false ?_ fun h => hparses h.1
    rintro ⟨attempt, -, hok, -⟩
    cases hport : url.port with
    | some digits => exact hparses (Or.inl (by simp [hport]))
    | none =>
      obtain ⟨scheme, hscheme⟩ : ∃ scheme, url.scheme = some scheme :=
        Option.ne_none_iff_exists'.mp fun hnone => hparses (Or.inr hnone)
      rw [Connection.connect, parsePoolUrl_scheme hscheme hport] at hok
      exact absurd hok (by simp [bind, Except.bind])


end PoolUrl

/-! ## Two URLs -/

/-- The URL `[stratum+tcp://]pool[:4444]`. -/
def exampleUrl (hasScheme hasPort : Bool) : PoolUrl where
  scheme := if hasScheme then some (utf8 "stratum+tcp") else none
  host := utf8 "pool"
  port := if hasPort then some (utf8 "4444") else none
  scheme_colon := by
    have hcolon : 0x3A ∉ utf8 "stratum+tcp" := by decide
    intro text htext
    cases hasScheme with
    | false => exact absurd htext (by simp)
    | true =>
      obtain rfl := Option.some.inj htext
      exact hcolon
  host_ne_nil := by decide
  host_colon := by decide
  host_slash := by decide
  port_digits := by
    have hport : utf8 "4444" ≠ [] ∧ (∀ c ∈ utf8 "4444", isDecimal c = true) ∧
        decimalNumber (utf8 "4444") ≤ 65535 := by decide
    intro digits hdigits
    cases hasPort with
    | false => exact absurd hdigits (by simp)
    | true =>
      obtain rfl := Option.some.inj hdigits
      exact hport

/-- A network in which every name has the same address. -/
def plainNetwork : Network :=
  { gethostbyname := fun _ => some 0x7F000001, socket := 3, answers := fun _ _ => true }

/-- A client that has not been connected. -/
def freshConnection : Connection := { poolUrl := [], connected := false, socket := -1 }

/-- `stratum+tcp://pool` throws, and so is not connected to on port 3333. -/
theorem not_connects_scheme :
    (exampleUrl true false).text = utf8 "stratum+tcp://pool" ∧
      { freshConnection with poolUrl := utf8 "stratum+tcp://pool" }.connect plainNetwork =
        .error .invalidArgument ∧
      ¬ (exampleUrl true false).Connects plainNetwork freshConnection := by
  have htext : (exampleUrl true false).text = utf8 "stratum+tcp://pool" := by decide
  have hthrows : { freshConnection with poolUrl := utf8 "stratum+tcp://pool" }.connect
      plainNetwork = .error .invalidArgument := by
    rw [Connection.connect, ← htext, PoolUrl.parsePoolUrl_scheme rfl rfl]
    rfl
  refine ⟨htext, hthrows, ?_⟩
  rintro ⟨attempt, -, hok, -⟩
  rw [htext] at hok
  exact absurd (hthrows.symm.trans hok) (by simp)

end OhMyMiner.Stratum
