/-
# Framing the stream of the pool

`StratumClient::Impl::processMessages` (`src/network/stratum_client.cpp`) looks for JSON objects
in the bytes of one `recv`.  It counts braces outside of string literals, and gives up at an
object that the buffer does not close.  The scanning loops below follow the source, index by
index.

What they look for is described by a transducer that reads a stream byte by byte.  On one buffer
the loops find what the transducer emits; the function keeps no state between two calls, so on a
stream they find what a transducer restarted with every buffer emits.
-/
import OhMyMiner.Lib.Transducer
import OhMyMiner.Stratum.Json

namespace OhMyMiner.Stratum

open Lib

/-! ## The bytes that matter -/

def openBrace : Byte := 0x7B
def closeBrace : Byte := 0x7D
def quote : Byte := 0x22
def backslash : Byte := 0x5C

/-- `' '`, `'\n'` and `'\r'`. -/
def isBlank (c : Byte) : Bool := c == 0x20 || c == 0x0A || c == 0x0D

/-! ## The loops -/

/-- Skip whitespace and newlines. -/
def skipBlank (message : List Byte) (pos : ℕ) : ℕ :=
  if h : pos < message.length then
    if isBlank message[pos] then skipBlank message (pos + 1) else pos
  else pos
termination_by message.length - pos

/-- Find the matching closing brace: the final `jsonEnd` and `braceCount`. -/
def findEnd (message : List Byte) (jsonEnd : ℕ) (braceCount : ℤ) (inString escaped : Bool) :
    ℕ × ℤ :=
  if h : jsonEnd < message.length then
    let c := message[jsonEnd]
    if escaped then findEnd message (jsonEnd + 1) braceCount inString false
    else if c = backslash then findEnd message (jsonEnd + 1) braceCount inString true
    else if c = quote then findEnd message (jsonEnd + 1) braceCount (!inString) false
    else if !inString then
      if c = openBrace then findEnd message (jsonEnd + 1) (braceCount + 1) inString false
      else if c = closeBrace then
        if braceCount - 1 = 0 then (jsonEnd + 1, braceCount - 1)
        else findEnd message (jsonEnd + 1) (braceCount - 1) inString false
      else findEnd message (jsonEnd + 1) braceCount inString false
    else findEnd message (jsonEnd + 1) braceCount inString false
  else (jsonEnd, braceCount)
termination_by message.length - jsonEnd

lemma le_skipBlank (message : List Byte) (pos : ℕ) : pos ≤ skipBlank message pos := by
  induction pos using skipBlank.induct message with
  | case1 pos h hblank ih => rw [skipBlank, dif_pos h, if_pos hblank]; omega
  | case2 pos h hblank => rw [skipBlank, dif_pos h, if_neg hblank]
  | case3 pos h => rw [skipBlank, dif_neg h]

lemma le_findEnd (message : List Byte) (jsonEnd : ℕ) (braceCount : ℤ) (inString escaped : Bool) :
    jsonEnd ≤ (findEnd message jsonEnd braceCount inString escaped).1 := by
  fun_induction findEnd message jsonEnd braceCount inString escaped <;> omega

lemma lt_findEnd {message : List Byte} {jsonEnd : ℕ} (h : jsonEnd < message.length)
    (braceCount : ℤ) (inString escaped : Bool) :
    jsonEnd < (findEnd message jsonEnd braceCount inString escaped).1 := by
  rw [findEnd, dif_pos h]
  have hnext := le_findEnd message (jsonEnd + 1)
  dsimp only
  split_ifs <;> first | exact hnext _ _ _ | exact Nat.lt_succ_self _

/-- The objects that the main loop finds from a position on, as pairs `(jsonStart, jsonEnd)`. -/
def scanFrom (message : List Byte) (pos : ℕ) : List (ℕ × ℕ) :=
  let start := skipBlank message pos
  if h : start < message.length then
    if message[start] ≠ openBrace then scanFrom message (start + 1)
    else
      let found := findEnd message start 0 false false
      -- incomplete JSON ends the loop
      if found.2 ≠ 0 then [] else (start, found.1) :: scanFrom message found.1
  else []
termination_by message.length - pos
decreasing_by
  · have := le_skipBlank message pos
    omega
  · have := le_skipBlank message pos
    have : skipBlank message pos < (findEnd message (skipBlank message pos) 0 false false).1 :=
      lt_findEnd h 0 false false
    omega

/-- `message.substr(jsonStart, jsonEnd - jsonStart)`. -/
def substr (message : List Byte) (span : ℕ × ℕ) : List Byte :=
  (message.drop span.1).take (span.2 - span.1)

/-- The objects in one buffer, in order. -/
def objectsIn (message : List Byte) : List (List Byte) :=
  (scanFrom message 0).map (substr message)

/-- The notification in an object: its value, if it parses and has a method. -/
def notification (parse : Parser) (jsonStr : List Byte) : Option Json :=
  match parse jsonStr with
  | some msg => if msg.contains "method" then some msg else none
  | none => none

/-- What `processMessages` hands to `processNotification` when `recv` returns a chunk, as long as
that returns or throws a JSON exception: then the loop goes on behind the object.  Another exception,
or undefined behaviour, would end it, and nothing would come after that message. -/
def processMessages (parse : Parser) (chunk : List Byte) : List Json :=
  (objectsIn chunk).filterMap (notification parse)

/-! ## The transducer -/

/-- Where a reader of the stream is: outside of the objects, or inside one, of which it has read
`text`. -/
inductive FrameState where
  | outside
  | inside (text : List Byte) (braceCount : ℤ) (inString escaped : Bool)
  deriving DecidableEq

/-- One byte of the stream; the object that it closes, if it does. -/
def frameStep : FrameState → Byte → FrameState × List (List Byte)
  | .outside, c => if c = openBrace then (.inside [c] 1 false false, []) else (.outside, [])
  | .inside text braceCount inString escaped, c =>
    if escaped then (.inside (text ++ [c]) braceCount inString false, [])
    else if c = backslash then (.inside (text ++ [c]) braceCount inString true, [])
    else if c = quote then (.inside (text ++ [c]) braceCount (!inString) false, [])
    else if !inString then
      if c = openBrace then (.inside (text ++ [c]) (braceCount + 1) inString false, [])
      else if c = closeBrace then
        if braceCount - 1 = 0 then (.outside, [text ++ [c]])
        else (.inside (text ++ [c]) (braceCount - 1) inString false, [])
      else (.inside (text ++ [c]) braceCount inString false, [])
    else (.inside (text ++ [c]) braceCount inString false, [])

/-- The objects of a stream. -/
def framing : Transducer FrameState Byte (List Byte) where
  start := .outside
  step := frameStep

/-! ## The loops find what the transducer emits -/

section Loops

variable {message : List Byte}

lemma feed_drop (s : FrameState) {pos : ℕ} (h : pos < message.length) :
    framing.feed s (message.drop pos) =
      ((framing.feed (frameStep s message[pos]).1 (message.drop (pos + 1))).1,
        (frameStep s message[pos]).2 ++
          (framing.feed (frameStep s message[pos]).1 (message.drop (pos + 1))).2) := by
  rw [List.drop_eq_getElem_cons h]
  rfl

lemma feed_drop_of_le (s : FrameState) {pos : ℕ} (h : ¬ pos < message.length) :
    framing.feed s (message.drop pos) = (s, []) := by
  rw [List.drop_of_length_le (by omega)]
  rfl

lemma substr_succ {start jsonEnd : ℕ} (hle : start ≤ jsonEnd) (h : jsonEnd < message.length) :
    substr message (start, jsonEnd) ++ [message[jsonEnd]] =
      substr message (start, jsonEnd + 1) := by
  have hlen : jsonEnd - start < (message.drop start).length := by
    rw [List.length_drop]
    omega
  have hget : (message.drop start)[jsonEnd - start] = message[jsonEnd] := by
    rw [List.getElem_drop]
    congr 1
    omega
  have hsucc : jsonEnd + 1 - start = jsonEnd - start + 1 := by omega
  rw [substr, substr, hsucc, List.take_succ_eq_append_getElem hlen, hget]

/-- What the inner loop finds at a position inside an object that starts at `start`. -/
def Finds (message : List Byte) (start pos : ℕ) (s : FrameState) (found : ℕ × ℤ) : Prop :=
  if found.2 = 0 then
    framing.feed s (message.drop pos) =
      ((framing.feed .outside (message.drop found.1)).1,
        substr message (start, found.1) :: (framing.feed .outside (message.drop found.1)).2)
  else
    (framing.feed s (message.drop pos)).1 ≠ .outside ∧ (framing.feed s (message.drop pos)).2 = []

/-- A byte that the transducer keeps to itself moves both on by one. -/
lemma Finds.of_succ {start pos : ℕ} {s s' : FrameState} {found : ℕ × ℤ}
    (h : pos < message.length) (hstep : frameStep s message[pos] = (s', []))
    (hfinds : Finds message start (pos + 1) s' found) : Finds message start pos s found := by
  have hfeed : framing.feed s (message.drop pos) = framing.feed s' (message.drop (pos + 1)) := by
    rw [feed_drop s h, hstep, List.nil_append]
  rw [Finds, hfeed]
  exact hfinds

/-- **The inner loop follows the transducer.** -/
theorem finds_findEnd {start jsonEnd : ℕ} (hle : start ≤ jsonEnd) {braceCount : ℤ}
    (hpos : 0 < braceCount) (inString escaped : Bool) :
    Finds message start jsonEnd
      (.inside (substr message (start, jsonEnd)) braceCount inString escaped)
      (findEnd message jsonEnd braceCount inString escaped) := by
  fun_induction findEnd message jsonEnd braceCount inString escaped with
  | case1 jsonEnd braceCount inString h ih =>
    refine .of_succ h ?_ (ih (by omega) hpos)
    rw [← substr_succ hle h]
    rfl
  | case2 jsonEnd braceCount inString escaped h c hescaped hback ih =>
    refine .of_succ h ?_ (ih (by omega) hpos)
    rw [← substr_succ hle h, frameStep, if_neg hescaped, if_pos hback]
  | case3 jsonEnd braceCount inString escaped h c hescaped hback hquote ih =>
    refine .of_succ h ?_ (ih (by omega) hpos)
    rw [← substr_succ hle h, frameStep, if_neg hescaped, if_neg hback, if_pos hquote]
  | case4 jsonEnd braceCount inString escaped h c hescaped hback hquote hout hopen ih =>
    refine .of_succ h ?_ (ih (by omega) (by omega))
    rw [← substr_succ hle h, frameStep, if_neg hescaped, if_neg hback, if_neg hquote, if_pos hout,
      if_pos hopen]
  | case5 jsonEnd braceCount inString escaped h c hescaped hback hquote hout hopen hclose hzero =>
    -- the brace that closes the object
    rw [Finds, if_pos hzero, feed_drop _ h, ← substr_succ hle h, frameStep, if_neg hescaped,
      if_neg hback, if_neg hquote, if_pos hout, if_neg hopen, if_pos hclose, if_pos hzero]
    rfl
  | case6 jsonEnd braceCount inString escaped h c hescaped hback hquote hout hopen hclose hne ih =>
    refine .of_succ h ?_ (ih (by omega) (by omega))
    rw [← substr_succ hle h, frameStep, if_neg hescaped, if_neg hback, if_neg hquote, if_pos hout,
      if_neg hopen, if_pos hclose, if_neg hne]
  | case7 jsonEnd braceCount inString escaped h c hescaped hback hquote hout hopen hclose ih =>
    refine .of_succ h ?_ (ih (by omega) hpos)
    rw [← substr_succ hle h, frameStep, if_neg hescaped, if_neg hback, if_neg hquote, if_pos hout,
      if_neg hopen, if_neg hclose]
  | case8 jsonEnd braceCount inString escaped h c hescaped hback hquote hin ih =>
    refine .of_succ h ?_ (ih (by omega) hpos)
    rw [← substr_succ hle h, frameStep, if_neg hescaped, if_neg hback, if_neg hquote, if_neg hin]
  | case9 jsonEnd braceCount inString escaped h =>
    rw [Finds, if_neg (by show braceCount ≠ 0; omega), feed_drop_of_le _ h]
    exact ⟨by simp, rfl⟩

/-- Outside of an object, bytes other than an opening brace are passed over. -/
lemma feed_outside_skip {pos : ℕ} (h : pos < message.length) (hne : message[pos] ≠ openBrace) :
    framing.feed .outside (message.drop pos) = framing.feed .outside (message.drop (pos + 1)) := by
  rw [feed_drop _ h, frameStep, if_neg hne, List.nil_append]

lemma feed_outside_skipBlank (pos : ℕ) :
    framing.feed .outside (message.drop pos) =
      framing.feed .outside (message.drop (skipBlank message pos)) := by
  fun_induction skipBlank message pos with
  | case1 pos h hblank ih =>
    have hne : message[pos] ≠ openBrace := by
      intro heq
      rw [heq] at hblank
      exact absurd hblank (by decide)
    rw [feed_outside_skip h hne, ih]
  | case2 => rfl
  | case3 => rfl

/-- The inner loop, from the brace that opens the object. -/
lemma finds_object {start : ℕ} (h : start < message.length) (hopen : message[start] = openBrace) :
    Finds message start start .outside (findEnd message start 0 false false) := by
  have hfirst :
      findEnd message start 0 false false = findEnd message (start + 1) 1 false false := by
    rw [findEnd, dif_pos h]
    simp [hopen, openBrace, backslash, quote]
  have hempty : substr message (start, start) = [] := by simp [substr]
  rw [hfirst]
  refine .of_succ h ?_ (finds_findEnd (Nat.le_succ start) one_pos false false)
  rw [← substr_succ le_rfl h, hempty, frameStep, if_pos hopen]
  rfl

/-- **The main loop finds what the transducer emits.** -/
theorem map_substr_scanFrom (pos : ℕ) :
    (scanFrom message pos).map (substr message) =
      (framing.feed .outside (message.drop pos)).2 := by
  fun_induction scanFrom message pos with
  | case1 pos start h hne ih =>
    rw [ih, feed_outside_skipBlank pos, feed_outside_skip h hne]
  | case2 pos start h hopen found hincomplete =>
    have hfinds := finds_object h (not_not.mp hopen)
    rw [Finds, if_neg hincomplete] at hfinds
    rw [feed_outside_skipBlank pos, hfinds.2]
    rfl
  | case3 pos start h hopen found hcomplete ih =>
    have hfinds := finds_object h (not_not.mp hopen)
    rw [Finds, if_pos (not_not.mp hcomplete)] at hfinds
    rw [feed_outside_skipBlank pos, hfinds, List.map_cons, ih]
  | case4 pos start h =>
    rw [feed_outside_skipBlank pos, feed_drop_of_le _ h]
    rfl

end Loops

/-- The objects in one buffer are those of the transducer. -/
theorem objectsIn_eq (message : List Byte) : objectsIn message = framing.outputs message := by
  rw [objectsIn, map_substr_scanFrom, List.drop_zero]
  rfl

/-! ## Streams -/

/-- What a sequence of calls hands on, when `recv` returns the chunks one by one. -/
def handed (parse : Parser) (chunks : List (List Byte)) : List Json :=
  chunks.flatMap (processMessages parse)

/-- The notifications of a whole stream. -/
def notifications (parse : Parser) (stream : List Byte) : List Json :=
  (framing.outputs stream).filterMap (notification parse)

/-- No object is cut at the end of a chunk: the loops do not give up in it. -/
def Complete (chunk : List Byte) : Prop := framing.EndsAtStart chunk

lemma processMessages_eq (parse : Parser) (chunk : List Byte) :
    processMessages parse chunk = notifications parse chunk := by
  rw [processMessages, objectsIn_eq, notifications]

lemma handed_eq (parse : Parser) (chunks : List (List Byte)) :
    handed parse chunks = (chunks.flatMap framing.outputs).filterMap (notification parse) := by
  induction chunks with
  | nil => rfl
  | cons chunk chunks ih =>
    rw [handed, List.flatMap_cons, List.flatMap_cons, List.filterMap_append,
      processMessages_eq, notifications, ← ih, handed]

/-- **The notifications of the stream are handed on while no object is cut.**  In a sequence of
calls whose chunks, up to the last, end outside of the objects, the calls so far have handed on
the notifications of the stream so far, in order. -/
theorem handed_eq_notifications (parse : Parser) {chunks : List (List Byte)}
    (h : ∀ chunk ∈ chunks.dropLast, Complete chunk) (n : ℕ) :
    handed parse (chunks.take n) = notifications parse (chunks.take n).flatten := by
  have htake : ∀ chunk ∈ (chunks.take n).dropLast, Complete chunk := by
    intro chunk hchunk
    rw [List.dropLast_eq_take, List.take_take, List.length_take] at hchunk
    apply h
    rw [List.dropLast_eq_take]
    exact (List.take_prefix_take_left (by omega)).subset hchunk
  rw [handed_eq, notifications, framing.flatMap_outputs htake]

/-! ## A notification that is cut -/

/-- The text `{"method":1}`. -/
def methodText : List Byte :=
  [0x7B, 0x22, 0x6D, 0x65, 0x74, 0x68, 0x6F, 0x64, 0x22, 0x3A, 0x31, 0x7D]

/-- A parser, on that text. -/
def methodParser : Parser := fun text =>
  if text = methodText then some (.object [("method", .integer 1)]) else none

/-- Two notifications in one chunk, then a third. -/
theorem handed_eq_notifications_three :
    handed methodParser ([methodText ++ methodText, methodText].take 2) =
      notifications methodParser ([methodText ++ methodText, methodText].take 2).flatten :=
  handed_eq_notifications methodParser (by
    intro chunk hchunk
    obtain rfl : chunk = methodText ++ methodText := by simpa using hchunk
    rfl) 2

/-- The same notification is handed on when it arrives in one chunk, and not when it is cut after
its first byte. -/
theorem handed_cut :
    handed methodParser [methodText] = [.object [("method", .integer 1)]] ∧
      handed methodParser [methodText.take 1, methodText.drop 1] = [] ∧
      notifications methodParser methodText = [.object [("method", .integer 1)]] := by
  rw [handed_eq, handed_eq]
  exact ⟨rfl, rfl, rfl⟩

end OhMyMiner.Stratum
