/-
# The scanning loops, step by step

The three nested loops of `StratumClient::Impl::processMessages`
(`src/network/stratum_client.cpp`) share one position in the buffer and leave each other by
`continue` and `break`.  Here they are a program whose steps are the passes through the loop
tests.  Its indices are numbers that may point anywhere, and a step that reads outside of the
buffer fails.

On every buffer the program halts without a failure.  It hands on the objects that the functions
of `Framing` find, in increasing order and apart from each other, and each of them is closed by
its last byte.
-/
import OhMyMiner.Lib.Transition
import OhMyMiner.Stratum.Framing

namespace OhMyMiner.Stratum

open Lib

/-! ## What a closed text is -/

/-- The bytes of a text that count, read from a place that is `quoted` or not: those outside of
quotes, where a backslash takes the byte behind it along. -/
def counted (quoted : Bool) : List Byte → List Byte
  | [] => []
  | c :: text =>
    if c = backslash then
      match text with
      | [] => []
      | _ :: rest => counted quoted rest
    else if c = quote then counted (!quoted) text
    else if quoted then counted quoted text
    else c :: counted quoted text

/-- How many braces a text leaves open. -/
def depth (text : List Byte) : ℤ :=
  (counted false text).count openBrace - (counted false text).count closeBrace

/-- The text starts with an opening brace and ends with the first closing brace at which the depth
returns to zero. -/
structure Closed (text : List Byte) : Prop where
  head : text.head? = some openBrace
  last : text.getLast? = some closeBrace
  depth_eq : depth text = 0
  depth_pos : ∀ n, 0 < n → n < text.length → 0 < depth (text.take n)

example : depth [openBrace, quote, closeBrace, backslash, quote, quote, closeBrace] = 0 := by
  decide

/-! ## The program -/

/-- Where the loops are. -/
inductive Scan where
  /-- At the test of the loop over the message. -/
  | outer (pos : ℕ)
  /-- At the test of the loop over whitespace. -/
  | blank (pos : ℕ)
  /-- At the test of the loop over one object. -/
  | object (jsonStart jsonEnd : ℕ) (braceCount : ℤ) (inString escaped : Bool)
  /-- Behind all loops. -/
  | done

/-- The state of the program: its place, and the objects that it has handed on so far, as pairs
`(jsonStart, jsonEnd)`. -/
structure Scanner where
  place : Scan
  spans : List (ℕ × ℕ)

/-- What follows the loop over whitespace. -/
def afterBlank (message : List Byte) (pos : ℕ) : Option Scan :=
  if pos ≥ message.length then some .done
  else do
    let c ← message[pos]?
    if c ≠ openBrace then some (.outer (pos + 1)) else some (.object pos pos 0 false false)

/-- What follows the loop over one object.  `substr` throws if it starts behind the end. -/
def afterObject (message : List Byte) (spans : List (ℕ × ℕ)) (jsonStart jsonEnd : ℕ)
    (braceCount : ℤ) : Option Scanner :=
  if braceCount ≠ 0 then some { place := .done, spans := spans }
  else if jsonStart ≤ message.length then
    some { place := .outer jsonEnd, spans := spans ++ [(jsonStart, jsonEnd)] }
  else none

/-- One pass through a loop test. -/
def scanStep (message : List Byte) (s : Scanner) : Option Scanner :=
  match s.place with
  | .outer pos =>
    if pos < message.length then some { s with place := .blank pos }
    else some { s with place := .done }
  | .blank pos =>
    if pos < message.length then do
      let c ← message[pos]?
      if isBlank c then some { s with place := .blank (pos + 1) }
      else (afterBlank message pos).map fun place => { s with place := place }
    else (afterBlank message pos).map fun place => { s with place := place }
  | .object jsonStart jsonEnd braceCount inString escaped =>
    let next (braceCount : ℤ) (inString escaped : Bool) : Option Scanner :=
      some { s with place := .object jsonStart (jsonEnd + 1) braceCount inString escaped }
    if jsonEnd < message.length then do
      let c ← message[jsonEnd]?
      if escaped then next braceCount inString false
      else if c = backslash then next braceCount inString true
      else if c = quote then next braceCount (!inString) false
      else if !inString then
        if c = openBrace then next (braceCount + 1) inString false
        else if c = closeBrace then
          if braceCount - 1 = 0 then
            afterObject message s.spans jsonStart (jsonEnd + 1) (braceCount - 1)
          else next (braceCount - 1) inString false
        else next braceCount inString false
      else next braceCount inString false
    else afterObject message s.spans jsonStart jsonEnd braceCount
  | .done => some s

/-- The program when `recv` has returned. -/
def Scanner.start : Scanner := { place := .outer 0, spans := [] }

/-! ## Counting braces byte by byte -/

lemma bytes_ne : backslash ≠ openBrace ∧ quote ≠ openBrace ∧ quote ≠ backslash ∧
    openBrace ≠ backslash ∧ openBrace ≠ quote ∧ openBrace ≠ closeBrace ∧
    closeBrace ≠ backslash ∧ closeBrace ≠ quote ∧ closeBrace ≠ openBrace := by
  decide

lemma counted_backslash (quoted : Bool) (text : List Byte) :
    counted quoted (backslash :: text) = counted quoted text.tail := by
  cases text <;> simp [counted]

lemma counted_quote (quoted : Bool) (text : List Byte) :
    counted quoted (quote :: text) = counted (!quoted) text := by
  cases text <;> simp [counted, quote, backslash]

lemma counted_cons {c : Byte} (hback : c ≠ backslash) (hquote : c ≠ quote) (quoted : Bool)
    (text : List Byte) :
    counted quoted (c :: text) = (if quoted then [] else [c]) ++ counted quoted text := by
  cases text <;> cases quoted <;> simp [counted, hback, hquote]

/-- The variables of the loop over one object describe the text it has read: they know its depth,
and how the bytes behind it count. -/
structure Tracks (text : List Byte) (braceCount : ℤ) (inString escaped : Bool) : Prop where
  depth_eq : depth text = braceCount
  rest : ∀ rest, counted false (text ++ rest) =
    counted false text ++ counted inString (if escaped then rest.tail else rest)

lemma tracks_nil : Tracks [] 0 false false := { depth_eq := rfl, rest := fun _ => rfl }

/-- One more byte, of which `part` counts. -/
lemma Tracks.snoc {text : List Byte} {braceCount : ℤ} {inString escaped : Bool}
    (h : Tracks text braceCount inString escaped) (c : Byte) (part : List Byte)
    (inString' escaped' : Bool)
    (hpart : ∀ rest, counted inString (if escaped then rest else c :: rest) =
      part ++ counted inString' (if escaped' then rest.tail else rest)) :
    Tracks (text ++ [c]) (braceCount + part.count openBrace - part.count closeBrace)
      inString' escaped' := by
  have hrest : ∀ rest, counted false (text ++ c :: rest) = counted false text ++
      (part ++ counted inString' (if escaped' then rest.tail else rest)) := by
    intro rest
    rw [h.rest, List.tail_cons, hpart]
  have hnil : counted false (text ++ [c]) = counted false text ++ part := by
    rw [hrest]
    simp [counted]
  constructor
  · rw [depth, hnil, List.count_append, List.count_append, ← h.depth_eq, depth]
    push_cast
    ring
  · intro rest
    rw [List.append_assoc, List.singleton_append, hrest, hnil, List.append_assoc]

section Tracks

variable {text : List Byte} {braceCount : ℤ} {inString : Bool} {c : Byte}

lemma Tracks.snoc_escaped (h : Tracks text braceCount inString true) (c : Byte) :
    Tracks (text ++ [c]) braceCount inString false := by
  simpa using h.snoc c [] inString false fun rest => rfl

lemma Tracks.snoc_backslash (h : Tracks text braceCount inString false) :
    Tracks (text ++ [backslash]) braceCount inString true := by
  simpa using h.snoc backslash [] inString true fun rest => counted_backslash inString rest

lemma Tracks.snoc_quote (h : Tracks text braceCount inString false) :
    Tracks (text ++ [quote]) braceCount (!inString) false := by
  simpa using h.snoc quote [] (!inString) false fun rest => counted_quote inString rest

lemma Tracks.snoc_quoted (h : Tracks text braceCount true false) (hback : c ≠ backslash)
    (hquote : c ≠ quote) : Tracks (text ++ [c]) braceCount true false := by
  simpa using h.snoc c [] true false fun rest => counted_cons hback hquote true rest

lemma Tracks.snoc_plain (h : Tracks text braceCount false false) (hback : c ≠ backslash)
    (hquote : c ≠ quote) :
    Tracks (text ++ [c]) (braceCount + [c].count openBrace - [c].count closeBrace) false false :=
  h.snoc c [c] false false fun rest => counted_cons hback hquote false rest

end Tracks

/-! ## The loop over one object -/

/-- The loop over the object at `jsonStart` has come to `jsonEnd`, and the object has not been
closed before. -/
structure InObject (message : List Byte) (jsonStart jsonEnd : ℕ) (braceCount : ℤ)
    (inString escaped : Bool) : Prop where
  head : message[jsonStart]? = some openBrace
  start_le : jsonStart ≤ jsonEnd
  le_length : jsonEnd ≤ message.length
  tracks : Tracks (substr message (jsonStart, jsonEnd)) braceCount inString escaped
  fresh : jsonStart = jsonEnd → inString = false ∧ escaped = false
  depth_pos : ∀ k, jsonStart < k → k ≤ jsonEnd → 0 < depth (substr message (jsonStart, k))

section Object

variable {message : List Byte} {jsonStart jsonEnd : ℕ} {braceCount : ℤ} {inString escaped : Bool}

lemma inObject_start {pos : ℕ} (h : pos < message.length) (hopen : message[pos] = openBrace) :
    InObject message pos pos 0 false false := by
  have hempty : substr message (pos, pos) = [] := by simp [substr]
  refine ⟨?_, le_rfl, h.le, ?_, fun _ => ⟨rfl, rfl⟩, fun k _ _ => by omega⟩
  · rw [List.getElem?_eq_getElem h, hopen]
  · rw [hempty]
    exact tracks_nil

/-- The object is open, unless the loop is still at the brace that opens it. -/
lemma InObject.count_pos (h : InObject message jsonStart jsonEnd braceCount inString escaped)
    (hlt : jsonEnd < message.length)
    (hne : message[jsonEnd] ≠ openBrace ∨ inString = true ∨ escaped = true) : 0 < braceCount := by
  have hle := h.start_le
  rw [← h.tracks.depth_eq]
  refine h.depth_pos jsonEnd (hle.lt_of_ne fun heq => ?_) le_rfl
  obtain ⟨hin, hescaped⟩ := h.fresh heq
  have hhead := h.head
  rw [heq, List.getElem?_eq_getElem hlt, Option.some_inj] at hhead
  simp [hhead, hin, hescaped] at hne

lemma InObject.count_nonneg (h : InObject message jsonStart jsonEnd braceCount inString escaped) :
    0 ≤ braceCount := by
  rw [← h.tracks.depth_eq]
  rcases h.start_le.eq_or_lt with heq | hlt
  · simp [heq, substr, depth, counted]
  · exact (h.depth_pos jsonEnd hlt le_rfl).le

lemma InObject.count_pos_of_end (h : InObject message jsonStart jsonEnd braceCount inString escaped)
    (hend : ¬ jsonEnd < message.length) : 0 < braceCount := by
  have hlt : jsonStart < message.length := by
    by_contra hge
    have hhead := h.head
    rw [List.getElem?_eq_none (by omega)] at hhead
    simp at hhead
  rw [← h.tracks.depth_eq]
  exact h.depth_pos jsonEnd (by omega) le_rfl

/-- One more byte that leaves the object open. -/
lemma InObject.next (h : InObject message jsonStart jsonEnd braceCount inString escaped)
    (hlt : jsonEnd < message.length) {braceCount' : ℤ} {inString' escaped' : Bool}
    (htracks : Tracks (substr message (jsonStart, jsonEnd) ++ [message[jsonEnd]])
      braceCount' inString' escaped')
    (hpos : 0 < braceCount') :
    InObject message jsonStart (jsonEnd + 1) braceCount' inString' escaped' := by
  have hle := h.start_le
  rw [substr_succ hle hlt] at htracks
  refine ⟨h.head, by omega, hlt, htracks, fun heq => by omega, fun k hk hk' => ?_⟩
  rcases Nat.lt_succ_iff_lt_or_eq.mp (Nat.lt_succ_of_le hk') with hlt' | rfl
  · exact h.depth_pos k hk (by omega)
  · rw [htracks.depth_eq]
    exact hpos

/-- The byte that closes the object. -/
lemma InObject.closed (h : InObject message jsonStart jsonEnd braceCount inString escaped)
    (hlt : jsonEnd < message.length) {inString' escaped' : Bool}
    (htracks : Tracks (substr message (jsonStart, jsonEnd) ++ [message[jsonEnd]])
      0 inString' escaped')
    (hclose : message[jsonEnd] = closeBrace) :
    Closed (substr message (jsonStart, jsonEnd + 1)) := by
  have hle := h.start_le
  have hsucc := substr_succ hle hlt
  have hstart : jsonStart < message.length := by omega
  have hlength : (substr message (jsonStart, jsonEnd + 1)).length = jsonEnd + 1 - jsonStart := by
    rw [substr, List.length_take, List.length_drop]
    omega
  refine ⟨?_, ?_, ?_, fun n hn hn' => ?_⟩
  · rw [List.head?_eq_getElem?, substr, List.getElem?_take_of_lt (by omega), List.getElem?_drop,
      Nat.add_zero]
    exact h.head
  · rw [← hsucc, List.getLast?_concat, hclose]
  · rw [← hsucc, htracks.depth_eq]
  · rw [hlength] at hn'
    have htake : (substr message (jsonStart, jsonEnd + 1)).take n =
        substr message (jsonStart, jsonStart + n) := by
      rw [substr, substr, List.take_take]
      congr 1
      omega
    rw [htake]
    exact h.depth_pos _ (by omega) (by omega)

/-- **One byte of an object.**  The program and the function of `Framing` go on together with the
object open, or stop together where it is closed. -/
theorem InObject.step (h : InObject message jsonStart jsonEnd braceCount inString escaped)
    (hlt : jsonEnd < message.length) (spans : List (ℕ × ℕ)) :
    (∃ braceCount' inString' escaped',
      scanStep message ⟨.object jsonStart jsonEnd braceCount inString escaped, spans⟩ =
        some ⟨.object jsonStart (jsonEnd + 1) braceCount' inString' escaped', spans⟩ ∧
      findEnd message jsonEnd braceCount inString escaped =
        findEnd message (jsonEnd + 1) braceCount' inString' escaped' ∧
      InObject message jsonStart (jsonEnd + 1) braceCount' inString' escaped') ∨
    (scanStep message ⟨.object jsonStart jsonEnd braceCount inString escaped, spans⟩ =
        some ⟨.outer (jsonEnd + 1), spans ++ [(jsonStart, jsonEnd + 1)]⟩ ∧
      findEnd message jsonEnd braceCount inString escaped = (jsonEnd + 1, 0) ∧
      Closed (substr message (jsonStart, jsonEnd + 1))) := by
  have htracks := h.tracks
  have hread : message[jsonEnd]? = some message[jsonEnd] := List.getElem?_eq_getElem hlt
  have hstart : jsonStart ≤ message.length := h.start_le.trans hlt.le
  rw [findEnd, dif_pos hlt]
  simp only [scanStep, if_pos hlt, hread, Option.bind_eq_bind, Option.bind_some]
  by_cases hescaped : escaped
  · subst hescaped
    have hpos := h.count_pos hlt (.inr (.inr rfl))
    refine .inl ⟨braceCount, inString, false, by simp, by simp, ?_⟩
    exact h.next hlt (htracks.snoc_escaped _) hpos
  obtain rfl : escaped = false := by simpa using hescaped
  by_cases hback : message[jsonEnd] = backslash
  · have hpos := h.count_pos hlt (.inl (by simp [hback, bytes_ne]))
    refine .inl ⟨braceCount, inString, true, by simp [hback], by simp [hback], ?_⟩
    exact h.next hlt (hback ▸ htracks.snoc_backslash) hpos
  by_cases hquote : message[jsonEnd] = quote
  · have hpos := h.count_pos hlt (.inl (by simp [hquote, bytes_ne]))
    refine .inl ⟨braceCount, !inString, false, by simp [hquote, bytes_ne],
      by simp [hquote, bytes_ne], ?_⟩
    exact h.next hlt (hquote ▸ htracks.snoc_quote) hpos
  by_cases hin : inString
  · subst hin
    have hpos := h.count_pos hlt (.inr (.inl rfl))
    refine .inl ⟨braceCount, true, false, by simp [hback, hquote], by simp [hback, hquote], ?_⟩
    exact h.next hlt (htracks.snoc_quoted hback hquote) hpos
  obtain rfl : inString = false := by simpa using hin
  -- the byte counts
  have hplain := htracks.snoc_plain hback hquote
  by_cases hopen : message[jsonEnd] = openBrace
  · have hnonneg := h.count_nonneg
    have hcount : braceCount + [message[jsonEnd]].count openBrace -
        [message[jsonEnd]].count closeBrace = braceCount + 1 := by
      simp [hopen, bytes_ne]
    rw [hcount] at hplain
    refine .inl ⟨braceCount + 1, false, false, by simp [hopen, bytes_ne],
      by simp [hopen, bytes_ne], ?_⟩
    exact h.next hlt hplain (by omega)
  have hpos := h.count_pos hlt (.inl hopen)
  by_cases hclose : message[jsonEnd] = closeBrace
  · have hcount : braceCount + [message[jsonEnd]].count openBrace -
        [message[jsonEnd]].count closeBrace = braceCount - 1 := by
      simp [hclose, bytes_ne]
    rw [hcount] at hplain
    by_cases hzero : braceCount - 1 = 0
    · rw [hzero] at hplain
      exact .inr ⟨by simp [hclose, hzero, afterObject, hstart, bytes_ne],
        by simp [hclose, hzero, bytes_ne], h.closed hlt hplain hclose⟩
    · refine .inl ⟨braceCount - 1, false, false, by simp [hclose, hzero, bytes_ne],
        by simp [hclose, hzero, bytes_ne], ?_⟩
      exact h.next hlt hplain (by omega)
  · have hcount : braceCount + [message[jsonEnd]].count openBrace -
        [message[jsonEnd]].count closeBrace = braceCount := by
      simp [hopen, hclose]
    rw [hcount] at hplain
    refine .inl ⟨braceCount, false, false, by simp [hback, hquote, hopen, hclose],
      by simp [hback, hquote, hopen, hclose], ?_⟩
    exact h.next hlt hplain hpos

end Object

/-! ## The whole program -/

section Program

variable {message : List Byte}

/-- The objects that the functions of `Framing` find from a place on. -/
def Scan.remaining (message : List Byte) : Scan → List (ℕ × ℕ)
  | .outer pos => scanFrom message pos
  | .blank pos => scanFrom message pos
  | .object jsonStart jsonEnd braceCount inString escaped =>
    let found := findEnd message jsonEnd braceCount inString escaped
    if found.2 ≠ 0 then [] else (jsonStart, found.1) :: scanFrom message found.1
  | .done => []

/-- What holds at a place. -/
def Scan.Valid (message : List Byte) : Scan → Prop
  | .outer pos => pos ≤ message.length
  | .blank pos => pos ≤ message.length
  | .object jsonStart jsonEnd braceCount inString escaped =>
    InObject message jsonStart jsonEnd braceCount inString escaped
  | .done => True

/-- The objects that have been handed on end here at the latest. -/
def Scan.front (message : List Byte) : Scan → ℕ
  | .outer pos => pos
  | .blank pos => pos
  | .object jsonStart _ _ _ _ => jsonStart
  | .done => message.length

/-- Every byte is worth three steps: a test of the outer loop, a test of the loop over whitespace,
and a test of the loop over an object. -/
def Scan.measure (message : List Byte) : Scan → ℕ
  | .outer pos => 3 * (message.length - pos) + 3
  | .blank pos => 3 * (message.length - pos) + 2
  | .object _ jsonEnd _ _ _ => 3 * (message.length - jsonEnd) + 1
  | .done => 0

namespace Scanner

/-- The invariant of the program. -/
structure Inv (message : List Byte) (s : Scanner) : Prop where
  valid : s.place.Valid message
  sofar : s.spans ++ s.place.remaining message = scanFrom message 0
  apart : s.spans.Pairwise fun span span' => span.2 ≤ span'.1
  closed : ∀ span ∈ s.spans, span.1 < span.2 ∧ span.2 ≤ s.place.front message ∧
    Closed (substr message span)

/-- A step that hands nothing on. -/
lemma Inv.move {s : Scanner} (h : Inv message s) (place : Scan) (hvalid : place.Valid message)
    (hremaining : s.place.remaining message = place.remaining message)
    (hfront : s.place.front message ≤ place.front message) :
    Inv message { s with place := place } where
  valid := hvalid
  sofar := by rw [← hremaining, h.sofar]
  apart := h.apart
  closed := by
    intro span hspan
    obtain ⟨hlt, hle, hclosed⟩ := h.closed span hspan
    exact ⟨hlt, hle.trans hfront, hclosed⟩

/-- A step that hands an object on. -/
lemma Inv.emit {spans : List (ℕ × ℕ)} {jsonStart jsonEnd : ℕ} {braceCount : ℤ}
    {inString escaped : Bool}
    (h : Inv message ⟨.object jsonStart jsonEnd braceCount inString escaped, spans⟩)
    (hlt : jsonEnd < message.length)
    (hfound : findEnd message jsonEnd braceCount inString escaped = (jsonEnd + 1, 0))
    (hclosed : Closed (substr message (jsonStart, jsonEnd + 1))) :
    Inv message ⟨.outer (jsonEnd + 1), spans ++ [(jsonStart, jsonEnd + 1)]⟩ where
  valid := hlt
  sofar := by
    rw [← h.sofar, List.append_assoc]
    simp [Scan.remaining, hfound]
  apart := by
    rw [List.pairwise_append]
    refine ⟨h.apart, List.pairwise_singleton _ _, ?_⟩
    intro span hspan span' hspan'
    obtain rfl := List.mem_singleton.mp hspan'
    exact (h.closed span hspan).2.1
  closed := by
    have hle : jsonStart ≤ jsonEnd := InObject.start_le h.valid
    intro span hspan
    rcases List.mem_append.mp hspan with hspan | hspan
    · obtain ⟨hlt', hfront, hclosed'⟩ := h.closed span hspan
      have hfront : span.2 ≤ jsonStart := hfront
      exact ⟨hlt', show span.2 ≤ jsonEnd + 1 by omega, hclosed'⟩
    · obtain rfl := List.mem_singleton.mp hspan
      exact ⟨Nat.lt_succ_of_le hle, le_rfl, hclosed⟩

lemma scanFrom_of_le {pos : ℕ} (h : ¬ pos < message.length) : scanFrom message pos = [] := by
  rw [scanFrom, skipBlank, dif_neg h, dif_neg h]

lemma scanFrom_blank {pos : ℕ} (h : pos < message.length) (hblank : isBlank message[pos] = true) :
    scanFrom message pos = scanFrom message (pos + 1) := by
  have hskip : skipBlank message pos = skipBlank message (pos + 1) := by
    rw [skipBlank, dif_pos h, if_pos hblank]
  rw [scanFrom.eq_def message pos, scanFrom.eq_def message (pos + 1)]
  simp only [hskip]

/-- At a byte that is not blank, the outer loop passes it over or an object starts. -/
lemma scanFrom_of_not_blank {pos : ℕ} (h : pos < message.length)
    (hblank : ¬ isBlank message[pos] = true) :
    scanFrom message pos =
      if message[pos] ≠ openBrace then scanFrom message (pos + 1)
      else (Scan.object pos pos 0 false false).remaining message := by
  have hskip : skipBlank message pos = pos := by rw [skipBlank, dif_pos h, if_neg hblank]
  rw [scanFrom]
  simp only [hskip, dif_pos h, Scan.remaining]

/-- A step does what it should: it does not fail, keeps the invariant, and comes closer to the
end. -/
def Progress (message : List Byte) (s : Scanner) : Prop :=
  ∃ t, scanStep message s = some t ∧ Inv message t ∧
    t.place.measure message < s.place.measure message

lemma Inv.outer {pos : ℕ} {spans : List (ℕ × ℕ)} (h : Inv message ⟨.outer pos, spans⟩) :
    Progress message ⟨.outer pos, spans⟩ := by
  have hle : pos ≤ message.length := h.valid
  by_cases hlt : pos < message.length
  · refine ⟨⟨.blank pos, spans⟩, by simp [scanStep, hlt], h.move (.blank pos) hle rfl le_rfl, ?_⟩
    simp [Scan.measure]
  · refine ⟨⟨.done, spans⟩, by simp [scanStep, hlt], ?_, by simp [Scan.measure]⟩
    exact h.move .done trivial (scanFrom_of_le hlt) hle

lemma Inv.blank {pos : ℕ} {spans : List (ℕ × ℕ)} (h : Inv message ⟨.blank pos, spans⟩) :
    Progress message ⟨.blank pos, spans⟩ := by
  have hle : pos ≤ message.length := h.valid
  by_cases hlt : pos < message.length
  · by_cases hblank : isBlank message[pos]
    · refine ⟨⟨.blank (pos + 1), spans⟩, by simp [scanStep, hlt, hblank], ?_, ?_⟩
      · exact h.move (.blank (pos + 1)) hlt (scanFrom_blank hlt hblank) (Nat.le_succ pos)
      · simp only [Scan.measure]
        omega
    have hscan := scanFrom_of_not_blank hlt hblank
    have hstep : scanStep message ⟨.blank pos, spans⟩ =
        (afterBlank message pos).map fun place => ⟨place, spans⟩ := by
      simp [scanStep, hlt, hblank]
    rw [afterBlank, if_neg (Nat.not_le.mpr hlt), List.getElem?_eq_getElem hlt] at hstep
    by_cases hopen : message[pos] = openBrace
    · rw [if_neg (not_not.mpr hopen)] at hscan
      refine ⟨⟨.object pos pos 0 false false, spans⟩, by simp [hstep, hopen], ?_, ?_⟩
      · exact h.move (.object pos pos 0 false false) (inObject_start hlt hopen) hscan le_rfl
      · simp [Scan.measure]
    · rw [if_pos hopen] at hscan
      refine ⟨⟨.outer (pos + 1), spans⟩, by simp [hstep, hopen], ?_, ?_⟩
      · exact h.move (.outer (pos + 1)) hlt hscan (Nat.le_succ pos)
      · simp only [Scan.measure]
        omega
  · refine ⟨⟨.done, spans⟩, by simp [scanStep, hlt, afterBlank], ?_, by simp [Scan.measure]⟩
    exact h.move .done trivial (scanFrom_of_le hlt) hle

lemma Inv.object {jsonStart jsonEnd : ℕ} {braceCount : ℤ} {inString escaped : Bool}
    {spans : List (ℕ × ℕ)}
    (h : Inv message ⟨.object jsonStart jsonEnd braceCount inString escaped, spans⟩) :
    Progress message ⟨.object jsonStart jsonEnd braceCount inString escaped, spans⟩ := by
  have hobject : InObject message jsonStart jsonEnd braceCount inString escaped := h.valid
  by_cases hlt : jsonEnd < message.length
  · rcases hobject.step hlt spans with
      ⟨braceCount', inString', escaped', hstep, hfind, hnext⟩ | ⟨hstep, hfind, hclosed⟩
    · refine ⟨_, hstep, ?_, ?_⟩
      · refine h.move (.object jsonStart (jsonEnd + 1) braceCount' inString' escaped')
          hnext ?_ le_rfl
        simp only [Scan.remaining, hfind]
      · simp only [Scan.measure]
        omega
    · refine ⟨_, hstep, h.emit hlt hfind hclosed, ?_⟩
      simp only [Scan.measure]
      omega
  · -- the buffer ends inside the object
    have hcount := hobject.count_pos_of_end hlt
    refine ⟨⟨.done, spans⟩, by simp [scanStep, hlt, afterObject, hcount.ne'], ?_, ?_⟩
    · refine h.move .done trivial ?_ (hobject.start_le.trans hobject.le_length)
      have hfind : findEnd message jsonEnd braceCount inString escaped = (jsonEnd, braceCount) := by
        rw [findEnd, dif_neg hlt]
      simp [Scan.remaining, hfind, hcount.ne']
    · simp [Scan.measure]

/-- **One step of the program.** -/
theorem Inv.progress {s : Scanner} (h : Inv message s) (hplace : ¬ s.place = .done) :
    Progress message s := by
  obtain ⟨place, spans⟩ := s
  cases place with
  | outer pos => exact h.outer
  | blank pos => exact h.blank
  | object jsonStart jsonEnd braceCount inString escaped => exact h.object
  | done => exact absurd rfl hplace

lemma inv_start (message : List Byte) : Inv message start where
  valid := Nat.zero_le _
  sofar := rfl
  apart := List.Pairwise.nil
  closed := fun _ hspan => absurd hspan List.not_mem_nil

end Scanner

/-- **The scanning loops terminate inside of the buffer, and cut out closed objects.**  On every
buffer the program halts, within three steps for each byte, and no step reads outside of the
buffer.  What it hands on is what the functions of `Framing` find: pieces of the buffer, in
increasing order and disjoint, each of them closed by its last byte and not before. -/
theorem scanning_halts (message : List Byte) :
    ∃ n ≤ 3 * message.length + 3, ∃ spans,
      execute (scanStep message) n Scanner.start = some { place := .done, spans := spans } ∧
      spans.map (substr message) = objectsIn message ∧
      spans.Pairwise (fun span span' => span.2 ≤ span'.1) ∧
      ∀ span ∈ spans, span.1 < span.2 ∧ span.2 ≤ message.length ∧ Closed (substr message span) := by
  obtain ⟨n, hn, ⟨place, spans⟩, hrun, hdone, hinv⟩ :=
    execute_halts (fun s => s.place.measure message) (fun _ => Scanner.Inv.progress)
      (Scanner.inv_start message)
  obtain rfl : place = .done := hdone
  have hspans : spans = scanFrom message 0 := by simpa [Scan.remaining] using hinv.sofar
  refine ⟨n, by simpa [Scan.measure, Scanner.start] using hn, spans, hrun, ?_, hinv.apart,
    hinv.closed⟩
  rw [hspans, objectsIn]

end Program

end OhMyMiner.Stratum
