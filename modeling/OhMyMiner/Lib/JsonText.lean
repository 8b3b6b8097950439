/-
# The grammar of JSON

The texts of JSON values, byte by byte: strings with their escapes, numbers, and arrays and
objects nested in any way.  The bytes of a string from `0x80` on are taken as they come, whether
or not they are the UTF-8 encoding of characters, so every JSON text is a text of this grammar.

A property of texts that survives concatenation and a pair of braces, and that strings and the
bytes outside of them have, is a property of every JSON text.  That is the induction over the
grammar that a reader of braces and quotes needs.
-/
import OhMyMiner.Lib.Bytes

namespace OhMyMiner.Lib.JsonText

/-! ## Bytes -/

def leftBrace : Byte := 0x7B
def rightBrace : Byte := 0x7D
def leftBracket : Byte := 0x5B
def rightBracket : Byte := 0x5D
def quotation : Byte := 0x22
def reverseSolidus : Byte := 0x5C
def comma : Byte := 0x2C
def colon : Byte := 0x3A

/-- Space, tab, line feed and carriage return. -/
def IsSpace (c : Byte) : Prop := c = 0x20 ∨ c = 0x09 ∨ c = 0x0A ∨ c = 0x0D

def IsDigit (c : Byte) : Prop := 0x30 ≤ c ∧ c ≤ 0x39

def IsHexDigit (c : Byte) : Prop := IsDigit c ∨ (0x41 ≤ c ∧ c ≤ 0x46) ∨ (0x61 ≤ c ∧ c ≤ 0x66)

/-- What may follow a `\`, but for the `u` of a code unit: `"`, `\`, `/`, `b`, `f`, `n`, `r` and
`t`. -/
def IsEscape (c : Byte) : Prop :=
  c ∈ [quotation, reverseSolidus, (0x2F : Byte), 0x62, 0x66, 0x6E, 0x72, 0x74]

/-! ## Strings and numbers -/

/-- What stands between the quotes of a string. -/
inductive Chars : List Byte → Prop where
  | nil : Chars []
  | unescaped {c : Byte} {w : List Byte} (hc : 0x20 ≤ c) (hquote : c ≠ quotation)
      (hback : c ≠ reverseSolidus) (hw : Chars w) : Chars (c :: w)
  | escape {c : Byte} {w : List Byte} (hc : IsEscape c) (hw : Chars w) :
      Chars (reverseSolidus :: c :: w)
  | codeUnit {a b c d : Byte} {w : List Byte} (ha : IsHexDigit a) (hb : IsHexDigit b)
      (hc : IsHexDigit c) (hd : IsHexDigit d) (hw : Chars w) :
      Chars (reverseSolidus :: 0x75 :: a :: b :: c :: d :: w)

/-- A string. -/
inductive StringText : List Byte → Prop where
  | mk {body : List Byte} (hbody : Chars body) : StringText ([quotation] ++ body ++ [quotation])

/-- At least one digit. -/
def Digits (w : List Byte) : Prop := w ≠ [] ∧ ∀ c ∈ w, IsDigit c

/-- An integer part, without superfluous zeros. -/
inductive IntegerPart : List Byte → Prop where
  | zero : IntegerPart [0x30]
  | positive {c : Byte} {w : List Byte} (hc : 0x31 ≤ c ∧ c ≤ 0x39) (hw : ∀ d ∈ w, IsDigit d) :
      IntegerPart (c :: w)

inductive FractionPart : List Byte → Prop where
  | none : FractionPart []
  | some {w : List Byte} (hw : Digits w) : FractionPart (0x2E :: w)

inductive ExponentPart : List Byte → Prop where
  | none : ExponentPart []
  | some {c : Byte} {sign w : List Byte} (hc : c = 0x65 ∨ c = 0x45)
      (hsign : sign = [] ∨ sign = [0x2B] ∨ sign = [0x2D]) (hw : Digits w) :
      ExponentPart (c :: (sign ++ w))

/-- A number. -/
inductive NumberText : List Byte → Prop where
  | mk {sign i f e : List Byte} (hsign : sign = [] ∨ sign = [0x2D]) (hi : IntegerPart i)
      (hf : FractionPart f) (he : ExponentPart e) : NumberText (sign ++ i ++ f ++ e)

/-! ## Values -/

/-- White space. -/
def Space (w : List Byte) : Prop := ∀ c ∈ w, IsSpace c

/-- The nonterminals.  An element is a value with the white space around it; a list of items or
of members is not empty. -/
inductive Nonterminal where
  | value
  | element
  | items
  | member
  | members
  | object

/-- The texts of a nonterminal. -/
inductive Derives : Nonterminal → List Byte → Prop where
  | null : Derives .value [0x6E, 0x75, 0x6C, 0x6C]
  | true : Derives .value [0x74, 0x72, 0x75, 0x65]
  | false : Derives .value [0x66, 0x61, 0x6C, 0x73, 0x65]
  | string {w : List Byte} (hw : StringText w) : Derives .value w
  | number {w : List Byte} (hw : NumberText w) : Derives .value w
  | emptyArray {s : List Byte} (hs : Space s) :
      Derives .value ([leftBracket] ++ s ++ [rightBracket])
  | array {w : List Byte} (hw : Derives .items w) :
      Derives .value ([leftBracket] ++ w ++ [rightBracket])
  | object {w : List Byte} (hw : Derives .object w) : Derives .value w
  | element {s w t : List Byte} (hs : Space s) (hw : Derives .value w) (ht : Space t) :
      Derives .element (s ++ w ++ t)
  | item {w : List Byte} (hw : Derives .element w) : Derives .items w
  | moreItems {v w : List Byte} (hv : Derives .element v) (hw : Derives .items w) :
      Derives .items (v ++ [comma] ++ w)
  | member {s key t w : List Byte} (hs : Space s) (hkey : StringText key) (ht : Space t)
      (hw : Derives .element w) : Derives .member (s ++ key ++ t ++ [colon] ++ w)
  | oneMember {w : List Byte} (hw : Derives .member w) : Derives .members w
  | moreMembers {v w : List Byte} (hv : Derives .member v) (hw : Derives .members w) :
      Derives .members (v ++ [comma] ++ w)
  | emptyObject {s : List Byte} (hs : Space s) :
      Derives .object ([leftBrace] ++ s ++ [rightBrace])
  | fullObject {w : List Byte} (hw : Derives .members w) :
      Derives .object ([leftBrace] ++ w ++ [rightBrace])

/-- An object is a pair of braces around a text. -/
lemma Derives.object_cases {w : List Byte} (h : Derives .object w) :
    ∃ v, w = [leftBrace] ++ v ++ [rightBrace] ∧ (Space v ∨ Derives .members v) := by
  cases h with
  | @emptyObject s hs => exact ⟨s, rfl, Or.inl hs⟩
  | @fullObject v hv => exact ⟨v, rfl, Or.inr hv⟩

/-! ## Reading braces and quotes -/

/-- The byte means nothing to a reader of braces and quotes. -/
def Plain (c : Byte) : Prop :=
  c ≠ leftBrace ∧ c ≠ rightBrace ∧ c ≠ quotation ∧ c ≠ reverseSolidus

instance (c : Byte) : Decidable (Plain c) := inferInstanceAs (Decidable (_ ∧ _))

/-- What a property of texts needs so that all JSON texts have it. -/
structure Closed (P : List Byte → Prop) : Prop where
  nil : P []
  append : ∀ {v w}, P v → P w → P (v ++ w)
  plain : ∀ {c}, Plain c → P [c]
  string : ∀ {w}, StringText w → P w
  braces : ∀ {w}, P w → P ([leftBrace] ++ w ++ [rightBrace])

lemma IsSpace.plain {c : Byte} (h : IsSpace c) : Plain c := by
  rcases h with rfl | rfl | rfl | rfl <;> decide

lemma plain_of_digit {c : Byte} (hlo : 0x30 ≤ c) (hhi : c ≤ 0x39) : Plain c := by
  refine ⟨?_, ?_, ?_, ?_⟩ <;> rintro rfl <;> revert hlo hhi <;> decide

lemma IsHexDigit.unescaped {c : Byte} (h : IsHexDigit c) : c ≠ quotation ∧ c ≠ reverseSolidus := by
  constructor <;> rintro rfl <;> revert h <;> unfold IsHexDigit IsDigit <;> decide

namespace Closed

variable {P : List Byte → Prop} (hP : Closed P)

include hP

lemma of_plain {w : List Byte} (h : ∀ c ∈ w, Plain c) : P w := by
  induction w with
  | nil => exact hP.nil
  | cons c w ih =>
    have hc : P [c] := hP.plain (h c List.mem_cons_self)
    exact hP.append hc (ih fun d hd => h d (List.mem_cons_of_mem c hd))

lemma of_space {w : List Byte} (h : Space w) : P w := hP.of_plain fun c hc => (h c hc).plain

lemma of_digits {w : List Byte} (h : ∀ c ∈ w, IsDigit c) : P w :=
  hP.of_plain fun c hc => plain_of_digit (h c hc).1 (h c hc).2

lemma of_number {w : List Byte} (h : NumberText w) : P w := by
  obtain ⟨hsign, hi, hf, he⟩ := h
  refine hP.append (hP.append (hP.append ?_ ?_) ?_) ?_
  · rcases hsign with rfl | rfl
    · exact hP.nil
    · exact hP.plain (by decide)
  · cases hi with
    | zero => exact hP.plain (by decide)
    | @positive c w hc hw =>
      have hlo : (0x30 : Byte) ≤ c := BitVec.le_trans (by decide) hc.1
      have hdigit : Plain c := plain_of_digit hlo hc.2
      exact hP.append (hP.plain hdigit) (hP.of_digits hw)
  · cases hf with
    | none => exact hP.nil
    | some hw => exact hP.append (hP.plain (by decide)) (hP.of_digits hw.2)
  · cases he with
    | none => exact hP.nil
    | @some c sign w hc hsign hw =>
      have hletter : P [c] := by
        rcases hc with rfl | rfl
        · exact hP.plain (by decide)
        · exact hP.plain (by decide)
      refine hP.append hletter (hP.append ?_ (hP.of_digits hw.2))
      rcases hsign with rfl | rfl | rfl
      · exact hP.nil
      · exact hP.plain (by decide)
      · exact hP.plain (by decide)

/-- **The induction over the grammar.** -/
theorem of_derives {N : Nonterminal} {w : List Byte} (h : Derives N w) : P w := by
  have hleft : P [leftBracket] := hP.plain (by decide)
  have hright : P [rightBracket] := hP.plain (by decide)
  have hcomma : P [comma] := hP.plain (by decide)
  have hcolon : P [colon] := hP.plain (by decide)
  induction h with
  | null => exact hP.of_plain (by decide)
  | true => exact hP.of_plain (by decide)
  | false => exact hP.of_plain (by decide)
  | string hw => exact hP.string hw
  | number hw => exact hP.of_number hw
  | emptyArray hs => exact hP.append (hP.append hleft (hP.of_space hs)) hright
  | array hw ih => exact hP.append (hP.append hleft ih) hright
  | object hw ih => exact ih
  | element hs hw ht ih => exact hP.append (hP.append (hP.of_space hs) ih) (hP.of_space ht)
  | item hw ih => exact ih
  | moreItems hv hw ihv ihw => exact hP.append (hP.append ihv hcomma) ihw
  | member hs hkey ht hw ih =>
    have hname : P (_ ++ _ ++ _) :=
      hP.append (hP.append (hP.of_space hs) (hP.string hkey)) (hP.of_space ht)
    exact hP.append (hP.append hname hcolon) ih
  | oneMember hw ih => exact ih
  | moreMembers hv hw ihv ihw => exact hP.append (hP.append ihv hcomma) ihw
  | emptyObject hs => exact hP.braces (hP.of_space hs)
  | fullObject hw ih => exact hP.braces ih

end Closed

end OhMyMiner.Lib.JsonText
