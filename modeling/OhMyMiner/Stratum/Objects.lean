/-
# Objects in the stream of the pool

`StratumClient::Impl::processMessages` (`src/network/stratum_client.cpp`) finds the end of an
object with a count of braces and two flags.  That is enough for every JSON object, whatever its
nesting and its strings: from the inside of an object, a JSON text takes the scanner back to where
it was.  So the objects that the pool sends, with anything but an opening brace between them, are
found one by one, up to the first that the buffer cuts.

Parsing has no say in this: an exception of the JSON library is caught, and the loop goes on
behind the object.
-/
import OhMyMiner.Lib.JsonText
import OhMyMiner.Stratum.Framing

namespace OhMyMiner.Stratum

open Lib JsonText

/-! ## The scanner inside of an object -/

/-- From the inside of an object, the text takes the scanner back to where it was. -/
def Returns (inString : Bool) (w : List Byte) : Prop :=
  ∀ text braceCount, 0 < braceCount →
    framing.feed (.inside text braceCount inString false) w =
      (.inside (text ++ w) braceCount inString false, [])

/-- Two texts that the scanner reads without finding the end of an object. -/
lemma feed_append_silent {s s' s'' : FrameState} {v w : List Byte}
    (hv : framing.feed s v = (s', [])) (hw : framing.feed s' w = (s'', [])) :
    framing.feed s (v ++ w) = (s'', []) := by
  rw [framing.feed_append, hv, hw]
  rfl

lemma feed_singleton (s : FrameState) (c : Byte) : framing.feed s [c] = frameStep s c := by
  rw [framing.feed_cons, framing.feed_nil, List.append_nil]
  rfl

namespace Returns

lemma nil (inString : Bool) : Returns inString [] := by
  intro text braceCount hpos
  rw [framing.feed_nil, List.append_nil]

lemma append {inString : Bool} {v w : List Byte} (hv : Returns inString v)
    (hw : Returns inString w) : Returns inString (v ++ w) := by
  intro text braceCount hpos
  rw [← List.append_assoc]
  exact feed_append_silent (hv text braceCount hpos) (hw (text ++ v) braceCount hpos)

/-- A byte of a string. -/
lemma unescaped {c : Byte} (hquote : c ≠ quote) (hback : c ≠ backslash) : Returns true [c] := by
  intro text braceCount hpos
  rw [feed_singleton, frameStep, if_neg (by simp), if_neg hback, if_neg hquote, if_neg (by simp)]

/-- A backslash hides the byte after it. -/
lemma escape (inString : Bool) (c : Byte) : Returns inString [backslash, c] := by
  intro text braceCount hpos
  have hback : framing.feed (.inside text braceCount inString false) [backslash] =
      (.inside (text ++ [backslash]) braceCount inString true, []) := rfl
  have hnext : framing.feed (.inside (text ++ [backslash]) braceCount inString true) [c] =
      (.inside (text ++ [backslash] ++ [c]) braceCount inString false, []) := rfl
  have happend : text ++ [backslash, c] = text ++ [backslash] ++ [c] := by simp
  rw [happend]
  exact feed_append_silent hback hnext

/-- The inside of a string. -/
lemma chars {w : List Byte} (h : Chars w) : Returns true w := by
  induction h with
  | nil => exact nil true
  | unescaped hc hquote hback hw ih => exact (unescaped hquote hback).append ih
  | @escape c w hc hw ih => exact (escape true c).append ih
  | @codeUnit a b c d w ha hb hc hd hw ih =>
    have hdigits : Returns true [a, b, c, d] :=
      (unescaped ha.unescaped.1 ha.unescaped.2).append
        ((unescaped hb.unescaped.1 hb.unescaped.2).append
          ((unescaped hc.unescaped.1 hc.unescaped.2).append
            (unescaped hd.unescaped.1 hd.unescaped.2)))
    exact (escape true 0x75).append (hdigits.append ih)

/-- A quote opens a string and closes it. -/
lemma string {w : List Byte} (h : StringText w) : Returns false w := by
  obtain @⟨body, hbody⟩ := h
  intro text braceCount hpos
  have hopen : framing.feed (.inside text braceCount false false) [quotation] =
      (.inside (text ++ [quotation]) braceCount true false, []) := rfl
  have hinside := chars hbody (text ++ [quotation]) braceCount hpos
  have hclose :
      framing.feed (.inside (text ++ [quotation] ++ body) braceCount true false) [quotation] =
        (.inside (text ++ [quotation] ++ body ++ [quotation]) braceCount false false, []) := rfl
  have happend : text ++ ([quotation] ++ body ++ [quotation]) =
      text ++ [quotation] ++ body ++ [quotation] := by simp
  rw [happend]
  exact feed_append_silent (feed_append_silent hopen hinside) hclose

/-- A byte outside of the strings that is neither brace nor quote nor backslash. -/
lemma plain {c : Byte} (h : Plain c) : Returns false [c] := by
  obtain ⟨hopen, hclose, hquote, hback⟩ :
      c ≠ openBrace ∧ c ≠ closeBrace ∧ c ≠ quote ∧ c ≠ backslash := h
  intro text braceCount hpos
  rw [feed_singleton, frameStep, if_neg (by simp), if_neg hback, if_neg hquote, if_pos (by simp),
    if_neg hopen, if_neg hclose]

/-- An inner pair of braces: the count goes up by one and down again. -/
lemma braces {w : List Byte} (h : Returns false w) :
    Returns false ([leftBrace] ++ w ++ [rightBrace]) := by
  intro text braceCount hpos
  have hopen : framing.feed (.inside text braceCount false false) [leftBrace] =
      (.inside (text ++ [leftBrace]) (braceCount + 1) false false, []) := rfl
  have hinside := h (text ++ [leftBrace]) (braceCount + 1) (by omega)
  have hclose :
      framing.feed (.inside (text ++ [leftBrace] ++ w) (braceCount + 1) false false) [rightBrace] =
        (.inside (text ++ [leftBrace] ++ w ++ [rightBrace]) braceCount false false, []) := by
    have hne : braceCount + 1 - 1 ≠ 0 := by omega
    have hsub : braceCount + 1 - 1 = braceCount := by omega
    rw [feed_singleton, frameStep, if_neg (by simp), if_neg (by decide), if_neg (by decide),
      if_pos (by simp), if_neg (by decide), if_pos (by decide), if_neg hne, hsub]
  have happend : text ++ ([leftBrace] ++ w ++ [rightBrace]) =
      text ++ [leftBrace] ++ w ++ [rightBrace] := by simp
  rw [happend]
  exact feed_append_silent (feed_append_silent hopen hinside) hclose

end Returns

lemma closed_returns : Closed (Returns false) where
  nil := Returns.nil false
  append := Returns.append
  plain := Returns.plain
  string := Returns.string
  braces := Returns.braces

/-! ## One object -/

/-- **An object is found.**  Outside of the objects, the scanner finds the object when it has
read it, and is outside again. -/
theorem feed_object {w : List Byte} (h : Derives .object w) :
    framing.feed .outside w = (.outside, [w]) := by
  obtain ⟨v, rfl, hv⟩ := h.object_cases
  have hreturns : Returns false v := by
    rcases hv with hspace | hmembers
    · exact closed_returns.of_space hspace
    · exact closed_returns.of_derives hmembers
  have hopen : framing.feed .outside [leftBrace] = (.inside [leftBrace] 1 false false, []) := rfl
  have hinside := feed_append_silent hopen (hreturns [leftBrace] 1 one_pos)
  rw [framing.feed_append, hinside]
  rfl

/-- What is found in a buffer is no longer than the buffer. -/
lemma length_le_of_mem_objectsIn {message object : List Byte} (h : object ∈ objectsIn message) :
    object.length ≤ message.length := by
  obtain ⟨span, hspan, rfl⟩ := List.mem_map.mp h
  rw [substr, List.length_take, List.length_drop]
  omega

/-- **An object that is cut is not found**, nor anything in it. -/
theorem outputs_take_object {w : List Byte} (h : Derives .object w) {n : ℕ} (hn : n < w.length) :
    framing.outputs (w.take n) = [] := by
  have hprefix := framing.outputs_prefix (w.take n) (w.drop n)
  have hall : framing.outputs w = [w] := by
    rw [Transducer.outputs]
    exact congrArg Prod.snd (feed_object h)
  rw [List.take_append_drop, hall] at hprefix
  rcases List.prefix_cons_iff.mp hprefix with hnil | ⟨rest, heq, hrest⟩
  · exact hnil
  · -- the whole object does not fit into the part of it
    exfalso
    have hmem : w ∈ objectsIn (w.take n) := by
      rw [objectsIn_eq, heq]
      exact List.mem_cons_self
    have hle := length_le_of_mem_objectsIn hmem
    rw [List.length_take] at hle
    omega

/-- Between the objects the scanner waits for an opening brace. -/
lemma feed_separator {w : List Byte} (h : openBrace ∉ w) :
    framing.feed .outside w = (.outside, []) := by
  induction w with
  | nil => rfl
  | cons c w ih =>
    have hc : c ≠ openBrace := fun heq => h (heq ▸ List.mem_cons_self)
    have hstep : framing.feed .outside [c] = (.outside, []) := by
      rw [feed_singleton, frameStep, if_neg hc]
    exact feed_append_silent hstep (ih fun hmem => h (List.mem_cons_of_mem c hmem))

/-! ## What the pool sends -/

/-- A JSON object and what separates it from the one before. -/
structure Piece where
  separator : List Byte
  object : List Byte
  openBrace_notMem : openBrace ∉ separator
  wellFormed : Derives .object object

/-- The objects that the pool sends, and what comes after the last. -/
structure Transmission where
  pieces : List Piece
  trailing : List Byte
  openBrace_notMem : openBrace ∉ trailing

def Piece.text (p : Piece) : List Byte := p.separator ++ p.object

def Transmission.text (t : Transmission) : List Byte := t.pieces.flatMap Piece.text ++ t.trailing

/-- The objects with the positions at which they start, if the first piece starts at `pos`. -/
def placed : ℕ → List Piece → List (ℕ × List Byte)
  | _, [] => []
  | pos, p :: pieces =>
    (pos + p.separator.length, p.object) :: placed (pos + p.text.length) pieces

/-- The object that starts at `jsonStart` ends within the first `L` bytes. -/
def Fits (L : ℕ) (placement : ℕ × List Byte) : Prop := placement.1 + placement.2.length ≤ L

instance (L : ℕ) : DecidablePred (Fits L) := fun _ => Nat.decLe _ _

/-- The objects that lie wholly within the first `L` bytes, in order. -/
def Transmission.within (t : Transmission) (L : ℕ) : List (List Byte) :=
  ((placed 0 t.pieces).filter (Fits L)).map Prod.snd

lemma le_of_mem_placed {pos : ℕ} {pieces : List Piece} {placement : ℕ × List Byte}
    (h : placement ∈ placed pos pieces) : pos ≤ placement.1 := by
  induction pieces generalizing pos with
  | nil => exact absurd h List.not_mem_nil
  | cons p pieces ih =>
    rcases List.mem_cons.mp h with rfl | hmem
    · exact Nat.le_add_right _ _
    · have hle := ih hmem
      omega

/-! ## What the client finds -/

lemma Piece.feed_text (p : Piece) : framing.feed .outside p.text = (.outside, [p.object]) := by
  rw [Piece.text, framing.feed_append, feed_separator p.openBrace_notMem,
    feed_object p.wellFormed]
  rfl

/-- A piece that is cut contributes nothing. -/
lemma Piece.outputs_take (p : Piece) {n : ℕ} (hn : n < p.text.length) :
    framing.outputs (p.text.take n) = [] := by
  have hlen : p.text.length = p.separator.length + p.object.length := List.length_append
  rcases Nat.lt_or_ge n p.separator.length with hsep | hobj
  · have hfree : openBrace ∉ p.separator.take n := fun h =>
      p.openBrace_notMem (List.mem_of_mem_take h)
    rw [Piece.text, List.take_append_of_le_length hsep.le, Transducer.outputs]
    exact congrArg Prod.snd (feed_separator hfree)
  · have hends : framing.EndsAtStart p.separator := by
      rw [Transducer.EndsAtStart]
      exact congrArg Prod.fst (feed_separator p.openBrace_notMem)
    have hnone : framing.outputs p.separator = [] := by
      rw [Transducer.outputs]
      exact congrArg Prod.snd (feed_separator p.openBrace_notMem)
    rw [Piece.text, List.take_append, List.take_of_length_le hobj,
      framing.outputs_append hends, hnone, List.nil_append]
    exact outputs_take_object p.wellFormed (by omega)

/-- The induction over the pieces, which may start at any position. -/
lemma outputs_take_pieces {pieces : List Piece} {trailing : List Byte}
    (h : openBrace ∉ trailing) (pos L : ℕ) :
    framing.outputs ((pieces.flatMap Piece.text ++ trailing).take L) =
      ((placed pos pieces).filter (Fits (pos + L))).map Prod.snd := by
  induction pieces generalizing pos L with
  | nil =>
    have hfree : openBrace ∉ trailing.take L := fun hmem => h (List.mem_of_mem_take hmem)
    rw [Transducer.outputs]
    exact congrArg Prod.snd (feed_separator hfree)
  | cons p pieces ih =>
    have hlen : p.text.length = p.separator.length + p.object.length := List.length_append
    rw [List.flatMap_cons, List.append_assoc, placed]
    rcases Nat.lt_or_ge L p.text.length with hcut | hwhole
    · -- nothing that follows a piece that is cut can fit
      have hnone : ((pos + p.separator.length, p.object) ::
          placed (pos + p.text.length) pieces).filter (Fits (pos + L)) = [] := by
        rw [List.filter_eq_nil_iff]
        intro placement hmem hfits
        rw [decide_eq_true_eq, Fits] at hfits
        rcases List.mem_cons.mp hmem with rfl | hlater
        · dsimp only at hfits
          omega
        · have hle := le_of_mem_placed hlater
          omega
      rw [List.take_append_of_le_length hcut.le, p.outputs_take hcut, hnone]
      rfl
    · -- a whole piece gives its object, and the rest starts anew
      have hends : framing.EndsAtStart p.text := by
        rw [Transducer.EndsAtStart]
        exact congrArg Prod.fst p.feed_text
      have hone : framing.outputs p.text = [p.object] := by
        rw [Transducer.outputs]
        exact congrArg Prod.snd p.feed_text
      have hfits : Fits (pos + L) (pos + p.separator.length, p.object) := by
        rw [Fits]
        dsimp only
        omega
      have hpos : pos + L = pos + p.text.length + (L - p.text.length) := by omega
      rw [List.take_append, List.take_of_length_le hwhole, framing.outputs_append hends, hone,
        ih (pos + p.text.length) (L - p.text.length), ← hpos,
        List.filter_cons_of_pos (by simpa using hfits), List.map_cons]
      rfl

/-- **The whole objects of a buffer are found.**  Whatever JSON objects the pool sends and
wherever a buffer cuts them, the client hands to the parser the objects that lie wholly within
the buffer, unchanged and in order. -/
theorem objectsIn_take (t : Transmission) (L : ℕ) : objectsIn (t.text.take L) = t.within L := by
  rw [objectsIn_eq, Transmission.text, outputs_take_pieces t.openBrace_notMem 0 L, Nat.zero_add]
  rfl

/-! ## Two objects -/

lemma space_nil : Space [] := fun _ hc => absurd hc List.not_mem_nil

/-- The object `{"":"\"}"}`, with a quote and a brace in a string, behind a line feed. -/
def quotedBrace : Piece where
  separator := [0x0A]
  object := [0x7B, 0x22, 0x22, 0x3A, 0x22, 0x5C, 0x22, 0x7D, 0x22, 0x7D]
  openBrace_notMem := by decide
  wellFormed := by
    have hkey : StringText [0x22, 0x22] := .mk .nil
    have hchars : Chars [0x5C, 0x22, 0x7D] :=
      .escape List.mem_cons_self (.unescaped (by decide) (by decide) (by decide) .nil)
    have hvalue : StringText [0x22, 0x5C, 0x22, 0x7D, 0x22] := .mk hchars
    have helement : Derives .element [0x22, 0x5C, 0x22, 0x7D, 0x22] :=
      .element space_nil (.string hvalue) space_nil
    have hmember : Derives .member [0x22, 0x22, 0x3A, 0x22, 0x5C, 0x22, 0x7D, 0x22] :=
      .member space_nil hkey space_nil helement
    exact .fullObject (.oneMember hmember)

/-- The object `{"":{}}` behind the end of a line. -/
def nestedBraces : Piece where
  separator := [0x0D, 0x0A]
  object := [0x7B, 0x22, 0x22, 0x3A, 0x7B, 0x7D, 0x7D]
  openBrace_notMem := by decide
  wellFormed := by
    have hkey : StringText [0x22, 0x22] := .mk .nil
    have helement : Derives .element [0x7B, 0x7D] :=
      .element space_nil (.object (.emptyObject space_nil)) space_nil
    have hmember : Derives .member [0x22, 0x22, 0x3A, 0x7B, 0x7D] :=
      .member space_nil hkey space_nil helement
    exact .fullObject (.oneMember hmember)

/-- Both objects and a last line feed. -/
def twoPieces : Transmission :=
  { pieces := [quotedBrace, nestedBraces], trailing := [0x0A], openBrace_notMem := by decide }

/-- A buffer that lacks the last byte of the second object, and one that does not. -/
theorem objectsIn_take_two :
    objectsIn (twoPieces.text.take 19) = [quotedBrace.object] ∧
      objectsIn (twoPieces.text.take 20) = [quotedBrace.object, nestedBraces.object] :=
  ⟨(objectsIn_take twoPieces 19).trans (by decide), (objectsIn_take twoPieces 20).trans (by decide)⟩

end OhMyMiner.Stratum
