/-
# JSON values and their texts

The values that a JSON text can stand for, but for numbers with a fraction or an exponent, and the
text of a value that has no white space in it.  Such a text is one of the grammar, has no control
characters, and can be told from whatever follows it that is no digit: so the value can be read
back from it.
-/
import OhMyMiner.Lib.JsonText
import OhMyMiner.Lib.Strings
import OhMyMiner.Lib.Utf8

namespace OhMyMiner.Lib.JsonText

/-! ## Values -/

/-- A value whose strings are of a type `σ`. -/
inductive Value (σ : Type) where
  | null
  | boolean (b : Bool)
  | integer (n : ℤ)
  | string (s : σ)
  | array (items : List (Value σ))
  | object (members : List (σ × Value σ))

namespace Value

variable {σ τ : Type}

/-- The induction over a value, with a hypothesis for each item and each member. -/
@[elab_as_elim]
theorem induction {P : Value σ → Prop} (v : Value σ) (null : P null)
    (boolean : ∀ b, P (boolean b)) (integer : ∀ n, P (integer n)) (string : ∀ s, P (string s))
    (array : ∀ items, (∀ v ∈ items, P v) → P (array items))
    (object : ∀ members, (∀ m ∈ members, P m.2) → P (object members)) : P v :=
  @Value.rec σ P (fun items => ∀ v ∈ items, P v) (fun members => ∀ m ∈ members, P m.2)
    (fun m => P m.2) null boolean integer string array object
    (fun _ h => absurd h List.not_mem_nil)
    (fun _ _ hv hitems => List.forall_mem_cons.mpr ⟨hv, hitems⟩)
    (fun _ h => absurd h List.not_mem_nil)
    (fun _ _ hm hmembers => List.forall_mem_cons.mpr ⟨hm, hmembers⟩) (fun _ _ hv => hv) v

mutual

/-- The value with each of its strings replaced. -/
def map (f : σ → τ) : Value σ → Value τ
  | null => null
  | boolean b => boolean b
  | integer n => integer n
  | string s => string (f s)
  | array items => array (mapItems f items)
  | object members => object (mapMembers f members)

def mapItems (f : σ → τ) : List (Value σ) → List (Value τ)
  | [] => []
  | v :: items => v.map f :: mapItems f items

def mapMembers (f : σ → τ) : List (σ × Value σ) → List (τ × Value τ)
  | [] => []
  | (key, v) :: members => (f key, v.map f) :: mapMembers f members

end

lemma mapItems_eq (f : σ → τ) (items : List (Value σ)) : mapItems f items = items.map (map f) := by
  induction items with
  | nil => rfl
  | cons v items ih => rw [mapItems, ih, List.map_cons]

lemma mapMembers_eq (f : σ → τ) (members : List (σ × Value σ)) :
    mapMembers f members = members.map fun m => (f m.1, m.2.map f) := by
  induction members with
  | nil => rfl
  | cons m members ih => rw [mapMembers, ih, List.map_cons]

end Value

/-! ## Texts -/

/-- The text of an integer. -/
def integerText (n : ℤ) : List Byte :=
  if n < 0 then 0x2D :: decimalDigits n.natAbs else decimalDigits n.natAbs

/-- A hex digit. -/
def hexDigit (d : ℕ) : Byte := BitVec.ofNat 8 (if d < 10 then 0x30 + d else 0x57 + d)

/-- The characters that have an escape of two bytes, with the second. -/
def shortEscapes : List (ℕ × Byte) :=
  [(0x08, 0x62), (0x09, 0x74), (0x0A, 0x6E), (0x0C, 0x66), (0x0D, 0x72), (0x22, quotation),
    (0x5C, reverseSolidus)]

/-- A character in a string. -/
def charText (c : Char) : List Byte :=
  match shortEscapes.lookup c.toNat with
  | some e => [reverseSolidus, e]
  | none =>
    if c.toNat < 0x20 then
      [reverseSolidus, 0x75, hexDigit 0, hexDigit 0, hexDigit (c.toNat / 16),
        hexDigit (c.toNat % 16)]
    else Utf8.encodeChar c

/-- The text of a string. -/
def stringText (s : String) : List Byte := [quotation] ++ s.toList.flatMap charText ++ [quotation]

namespace Value

mutual

/-- The text of a value. -/
def text : Value String → List Byte
  | null => [0x6E, 0x75, 0x6C, 0x6C]
  | boolean b => if b then [0x74, 0x72, 0x75, 0x65] else [0x66, 0x61, 0x6C, 0x73, 0x65]
  | integer n => integerText n
  | string s => stringText s
  | array items => [leftBracket] ++ [comma].intercalate (itemTexts items) ++ [rightBracket]
  | object members => [leftBrace] ++ [comma].intercalate (memberTexts members) ++ [rightBrace]

def itemTexts : List (Value String) → List (List Byte)
  | [] => []
  | v :: items => v.text :: itemTexts items

def memberTexts : List (String × Value String) → List (List Byte)
  | [] => []
  | (key, v) :: members => (stringText key ++ [colon] ++ v.text) :: memberTexts members

end

lemma itemTexts_eq (items : List (Value String)) : itemTexts items = items.map text := by
  induction items with
  | nil => rfl
  | cons v items ih => rw [itemTexts, ih, List.map_cons]

/-- The text of a member. -/
def memberText (m : String × Value String) : List Byte := stringText m.1 ++ [colon] ++ m.2.text

lemma memberTexts_eq (members : List (String × Value String)) :
    memberTexts members = members.map memberText := by
  induction members with
  | nil => rfl
  | cons m members ih => rw [memberTexts, ih, List.map_cons, memberText]

end Value

/-! ## The grammar -/

lemma isDigit_iff (c : Byte) : IsDigit c ↔ isDecimal c = true := by
  rw [isDecimal_iff]
  exact Iff.rfl

lemma integerPart_decimalDigits (n : ℕ) : IntegerPart (decimalDigits n) := by
  rcases eq_or_ne n 0 with rfl | hn
  · exact .zero
  · have hne : Nat.digits 10 n ≠ [] := Nat.digits_ne_nil_iff_ne_zero.mpr hn
    have hfirst : (Nat.digits 10 n).getLast hne ≠ 0 := Nat.getLast_digit_ne_zero 10 hn
    have hlt : (Nat.digits 10 n).getLast hne < 10 :=
      Nat.digits_lt_base (by omega) (List.getLast_mem hne)
    have hdigits : decimalDigits n = decimalDigit ((Nat.digits 10 n).getLast hne) ::
        (Nat.digits 10 n).dropLast.reverse.map decimalDigit := by
      rw [decimalDigits, if_neg hn, ← List.map_cons, ← List.reverse_concat,
        List.dropLast_append_getLast]
    have hall : ∀ c ∈ decimalDigits n, IsDigit c :=
      fun c hc => (isDigit_iff c).mpr (isDecimal_of_mem hc)
    rw [hdigits] at hall ⊢
    obtain ⟨hlead, hrest⟩ := List.forall_mem_cons.mp hall
    refine .positive ⟨?_, hlead.2⟩ hrest
    rw [BitVec.le_def, toNat_decimalDigit hlt]
    exact Nat.add_le_add_left (Nat.one_le_iff_ne_zero.mpr hfirst) _

lemma numberText_integerText (n : ℤ) : NumberText (integerText n) := by
  have h {sign : List Byte} (hsign : sign = [] ∨ sign = [0x2D]) :
      NumberText (sign ++ decimalDigits n.natAbs ++ [] ++ []) :=
    .mk hsign (integerPart_decimalDigits n.natAbs) .none .none
  unfold integerText
  split_ifs
  · simpa using h (Or.inr rfl)
  · simpa using h (Or.inl rfl)

/-- A character is escaped in two bytes or in six, or stands for itself. -/
lemma charText_cases (c : Char) :
    (∃ e, (c.toNat, e) ∈ shortEscapes ∧ charText c = [reverseSolidus, e]) ∨
      (c.toNat < 0x20 ∧ charText c = [reverseSolidus, 0x75, hexDigit 0, hexDigit 0,
        hexDigit (c.toNat / 16), hexDigit (c.toNat % 16)]) ∨
      (0x20 ≤ c.toNat ∧ c.toNat ≠ 0x22 ∧ c.toNat ≠ 0x5C ∧ charText c = Utf8.encodeChar c) := by
  unfold charText
  cases hlookup : shortEscapes.lookup c.toNat with
  | some e =>
    obtain ⟨l, l', hl, -⟩ := List.lookup_eq_some_iff.mp hlookup
    exact Or.inl ⟨e, by rw [hl]; simp, rfl⟩
  | none =>
    have hnone := List.lookup_eq_none_iff.mp hlookup
    dsimp only
    split_ifs with hc
    · exact Or.inr (Or.inl ⟨hc, rfl⟩)
    · refine Or.inr (Or.inr ⟨by omega, ?_, ?_, rfl⟩)
      · simpa using hnone (0x22, quotation) (by simp [shortEscapes])
      · simpa using hnone (0x5C, reverseSolidus) (by simp [shortEscapes])

lemma isEscape_of_mem {v : ℕ} {e : Byte} (h : (v, e) ∈ shortEscapes) : IsEscape e := by
  have hall : ∀ p ∈ shortEscapes, IsEscape p.2 := by
    unfold IsEscape
    decide
  exact hall _ h

lemma isHexDigit_hexDigit : ∀ d < 16, IsHexDigit (hexDigit d) := by
  unfold IsHexDigit IsDigit
  decide

/-- Bytes that stand for themselves in a string. -/
lemma chars_append_of_unescaped {bytes w : List Byte} (hw : Chars w)
    (h : ∀ b ∈ bytes, 0x20 ≤ b ∧ b ≠ quotation ∧ b ≠ reverseSolidus) : Chars (bytes ++ w) := by
  induction bytes with
  | nil => exact hw
  | cons b bytes ih =>
    obtain ⟨⟨hlo, hquote, hback⟩, hbytes⟩ := List.forall_mem_cons.mp h
    exact .unescaped hlo hquote hback (ih hbytes)

lemma unescaped_of_mem {c : Char} (hlo : 0x20 ≤ c.toNat) (hquote : c.toNat ≠ 0x22)
    (hback : c.toNat ≠ 0x5C) {b : Byte} (h : b ∈ Utf8.encodeChar c) :
    0x20 ≤ b ∧ b ≠ quotation ∧ b ≠ reverseSolidus := by
  have hb := Utf8.mem_encodeChar h
  refine ⟨?_, ?_, ?_⟩
  · rw [BitVec.le_def]
    change 0x20 ≤ _
    omega
  · rintro rfl
    rcases hb with hb | hb
    · exact hquote hb.symm
    · exact absurd hb (by decide)
  · rintro rfl
    rcases hb with hb | hb
    · exact hback hb.symm
    · exact absurd hb (by decide)

lemma chars_charText (c : Char) {w : List Byte} (hw : Chars w) : Chars (charText c ++ w) := by
  rcases charText_cases c with ⟨e, hmem, h⟩ | ⟨hlt, h⟩ | ⟨hlo, hquote, hback, h⟩
  · rw [h]
    exact .escape (isEscape_of_mem hmem) hw
  · rw [h]
    exact .codeUnit (isHexDigit_hexDigit _ (by omega)) (isHexDigit_hexDigit _ (by omega))
      (isHexDigit_hexDigit _ (by omega)) (isHexDigit_hexDigit _ (by omega)) hw
  · rw [h]
    exact chars_append_of_unescaped hw fun b hb => unescaped_of_mem hlo hquote hback hb

lemma stringText_stringText (s : String) : StringText (stringText s) := by
  refine .mk ?_
  induction s.toList with
  | nil => exact .nil
  | cons c text ih => exact chars_charText c ih

lemma Derives.element_of_value {w : List Byte} (h : Derives .value w) : Derives .element w := by
  have hnone : Space [] := fun _ hc => absurd hc List.not_mem_nil
  simpa using Derives.element hnone h hnone

/-- Values between commas. -/
lemma derives_items {texts : List (List Byte)} (hne : texts ≠ [])
    (h : ∀ w ∈ texts, Derives .value w) : Derives .items ([comma].intercalate texts) := by
  induction texts with
  | nil => exact absurd rfl hne
  | cons w texts ih =>
    obtain ⟨hw, htexts⟩ := List.forall_mem_cons.mp h
    rcases eq_or_ne texts [] with rfl | hne'
    · simpa using Derives.item hw.element_of_value
    · rw [List.intercalate_cons_of_ne_nil hne']
      exact .moreItems hw.element_of_value (ih hne' htexts)

/-- Members between commas. -/
lemma derives_members {texts : List (List Byte)} (hne : texts ≠ [])
    (h : ∀ w ∈ texts, Derives .member w) : Derives .members ([comma].intercalate texts) := by
  induction texts with
  | nil => exact absurd rfl hne
  | cons w texts ih =>
    obtain ⟨hw, htexts⟩ := List.forall_mem_cons.mp h
    rcases eq_or_ne texts [] with rfl | hne'
    · simpa using Derives.oneMember hw
    · rw [List.intercalate_cons_of_ne_nil hne']
      exact .moreMembers hw (ih hne' htexts)

namespace Value

lemma derives_memberText {m : String × Value String} (h : Derives .value m.2.text) :
    Derives .member (memberText m) := by
  have hnone : Space [] := fun _ hc => absurd hc List.not_mem_nil
  simpa [memberText] using
    Derives.member hnone (stringText_stringText m.1) hnone h.element_of_value

lemma derives_object {members : List (String × Value String)}
    (h : ∀ m ∈ members, Derives .value m.2.text) : Derives .object (object members).text := by
  rw [text, memberTexts_eq]
  rcases eq_or_ne members [] with rfl | hne
  · exact .emptyObject fun _ hc => absurd hc List.not_mem_nil
  · refine .fullObject (derives_members (by simpa using hne) ?_)
    exact List.forall_mem_map.mpr fun m hm => derives_memberText (h m hm)

/-- **The text of a value is a JSON text.** -/
theorem derives_text (v : Value String) : Derives .value v.text := by
  induction v using Value.induction with
  | null => exact .null
  | boolean b =>
    cases b with
    | false => exact .false
    | true => exact .true
  | integer n => exact .number (numberText_integerText n)
  | string s => exact .string (stringText_stringText s)
  | array items ih =>
    rw [text, itemTexts_eq]
    rcases eq_or_ne items [] with rfl | hne
    · exact .emptyArray fun _ hc => absurd hc List.not_mem_nil
    · exact .array (derives_items (by simpa using hne) (List.forall_mem_map.mpr ih))
  | object members ih => exact .object (derives_object ih)

end Value

/-! ## Control characters -/

/-- No byte is a control character. -/
def Printable (w : List Byte) : Prop := ∀ b ∈ w, 0x20 ≤ b.toNat

lemma Printable.append {v w : List Byte} (hv : Printable v) (hw : Printable w) :
    Printable (v ++ w) := List.forall_mem_append.mpr ⟨hv, hw⟩

lemma printable_integerText (n : ℤ) : Printable (integerText n) := by
  have hdigits : Printable (decimalDigits n.natAbs) := fun b hb =>
    le_trans (by omega) ((isDecimal_iff b).mp (isDecimal_of_mem hb)).1
  unfold integerText
  split_ifs
  · exact List.forall_mem_cons.mpr ⟨by simp, hdigits⟩
  · exact hdigits

lemma IsHexDigit.printable {c : Byte} (h : IsHexDigit c) : 0x20 ≤ c.toNat := by
  rcases h with ⟨hlo, -⟩ | ⟨hlo, -⟩ | ⟨hlo, -⟩
  · exact le_trans (by decide) hlo
  · exact le_trans (by decide) hlo
  · exact le_trans (by decide) hlo

lemma Chars.printable {w : List Byte} (h : Chars w) : Printable w := by
  have hback : 0x20 ≤ reverseSolidus.toNat := by decide
  induction h with
  | nil => exact fun _ hb => absurd hb List.not_mem_nil
  | unescaped hc _ _ _ ih => exact List.forall_mem_cons.mpr ⟨hc, ih⟩
  | @escape c w hc _ ih =>
    have hescape : ∀ e, IsEscape e → 0x20 ≤ e.toNat := by
      unfold IsEscape
      decide
    exact List.forall_mem_cons.mpr ⟨hback, List.forall_mem_cons.mpr ⟨hescape c hc, ih⟩⟩
  | codeUnit ha hb hc hd _ ih =>
    simp only [Printable, List.forall_mem_cons]
    exact ⟨hback, by decide, ha.printable, hb.printable, hc.printable, hd.printable, ih⟩

lemma StringText.printable {w : List Byte} (h : StringText w) : Printable w := by
  have hquote : Printable [quotation] := by simp [Printable, quotation]
  obtain ⟨hbody⟩ := h
  exact (hquote.append hbody.printable).append hquote

lemma printable_intercalate {texts : List (List Byte)} (h : ∀ w ∈ texts, Printable w) :
    Printable ([comma].intercalate texts) := by
  have hcomma : Printable [comma] := by simp [Printable, comma]
  induction texts with
  | nil => exact fun _ hb => absurd hb List.not_mem_nil
  | cons w texts ih =>
    obtain ⟨hw, htexts⟩ := List.forall_mem_cons.mp h
    rcases eq_or_ne texts [] with rfl | hne
    · simpa using hw
    · rw [List.intercalate_cons_of_ne_nil hne]
      exact (hw.append hcomma).append (ih htexts)

/-- **The text of a value has no control characters**, line feeds among them. -/
theorem Value.printable_text (v : Value String) : Printable v.text := by
  induction v using Value.induction with
  | null => simp [Value.text, Printable]
  | boolean b => cases b <;> simp [Value.text, Printable]
  | integer n => exact printable_integerText n
  | string s => exact (stringText_stringText s).printable
  | array items ih =>
    rw [Value.text, itemTexts_eq]
    have hitems := printable_intercalate (List.forall_mem_map.mpr ih)
    have hleft : Printable [leftBracket] := by simp [Printable, leftBracket]
    have hright : Printable [rightBracket] := by simp [Printable, rightBracket]
    exact (hleft.append hitems).append hright
  | object members ih =>
    rw [Value.text, memberTexts_eq]
    have hcolon : Printable [colon] := by simp [Printable, colon]
    have hmembers := printable_intercalate (List.forall_mem_map.mpr fun m hm =>
      ((stringText_stringText m.1).printable.append hcolon).append (ih m hm))
    have hleft : Printable [leftBrace] := by simp [Printable, leftBrace]
    have hright : Printable [rightBrace] := by simp [Printable, rightBrace]
    exact (hleft.append hmembers).append hright

/-! ## Reading back -/

/-- The next byte is no digit. -/
def NoDigit (r : List Byte) : Prop := ∀ c ∈ r.head?, isDecimal c = false

lemma noDigit_nil : NoDigit [] := fun _ hc => absurd hc (by simp)

lemma noDigit_cons {c : Byte} (hc : isDecimal c = false) (r : List Byte) : NoDigit (c :: r) := by
  simpa [NoDigit] using hc

lemma digits_append_inj {l l' r r' : List Byte} (hl : ∀ c ∈ l, isDecimal c = true)
    (hl' : ∀ c ∈ l', isDecimal c = true) (hr : NoDigit r) (hr' : NoDigit r')
    (h : l ++ r = l' ++ r') : l = l' ∧ r = r' := by
  have htake {l r : List Byte} (hl : ∀ c ∈ l, isDecimal c = true) (hr : NoDigit r) :
      (l ++ r).takeWhile isDecimal = l := by
    rw [List.takeWhile_append_of_pos hl]
    cases r with
    | nil => simp
    | cons c r => rw [List.takeWhile_cons_of_neg (by simpa [NoDigit] using hr), List.append_nil]
  have heq : l = l' := by rw [← htake hl hr, h, htake hl' hr']
  subst heq
  exact ⟨rfl, List.append_cancel_left h⟩

lemma decimalDigits_append_inj {n n' : ℕ} {r r' : List Byte} (hr : NoDigit r) (hr' : NoDigit r')
    (h : decimalDigits n ++ r = decimalDigits n' ++ r') : n = n' ∧ r = r' := by
  obtain ⟨hdigits, hrest⟩ := digits_append_inj (fun _ hc => isDecimal_of_mem hc)
    (fun _ hc => isDecimal_of_mem hc) hr hr' h
  exact ⟨decimalDigits_injective hdigits, hrest⟩

lemma decimalDigits_ne_minus (n : ℕ) (r p : List Byte) : decimalDigits n ++ r ≠ 0x2D :: p := by
  obtain ⟨c, l, hl⟩ := List.exists_cons_of_ne_nil (decimalDigits_ne_nil n)
  have hc : isDecimal c = true := isDecimal_of_mem (n := n) (by rw [hl]; exact List.mem_cons_self)
  intro h
  rw [hl] at h
  obtain ⟨rfl, -⟩ := List.cons.inj h
  cases hc

lemma integerText_append_inj {n n' : ℤ} {r r' : List Byte} (hr : NoDigit r) (hr' : NoDigit r')
    (h : integerText n ++ r = integerText n' ++ r') : n = n' ∧ r = r' := by
  unfold integerText at h
  split_ifs at h with hn hn'
  · obtain ⟨habs, hrest⟩ := decimalDigits_append_inj hr hr' (List.cons.inj h).2
    exact ⟨by omega, hrest⟩
  · exact absurd h.symm (decimalDigits_ne_minus _ _ _)
  · exact absurd h (decimalDigits_ne_minus _ _ _)
  · obtain ⟨habs, hrest⟩ := decimalDigits_append_inj hr hr' h
    exact ⟨by omega, hrest⟩

/-- What stands for itself does not begin with a `\` or a `"`. -/
lemma encodeChar_ne_cons {c : Char} {b : Byte} (hb : b.toNat < 0x80) (hne : c.toNat ≠ b.toNat)
    (r p : List Byte) : Utf8.encodeChar c ++ r ≠ b :: p := by
  obtain ⟨-, -, -, b', l, hl, -⟩ := Utf8.exists_shape_cons c
  have hmem : b' ∈ Utf8.encodeChar c := by rw [hl]; exact List.mem_cons_self
  intro h
  rw [hl] at h
  obtain ⟨rfl, -⟩ := List.cons.inj h
  rcases Utf8.mem_encodeChar hmem with heq | hge
  · exact hne heq.symm
  · omega

lemma charText_ne_quotation (c : Char) (r p : List Byte) : charText c ++ r ≠ quotation :: p := by
  rcases charText_cases c with ⟨e, -, h⟩ | ⟨-, h⟩ | ⟨-, hquote, -, h⟩
  · rw [h]
    exact fun heq => absurd (List.cons.inj heq).1 (by decide)
  · rw [h]
    exact fun heq => absurd (List.cons.inj heq).1 (by decide)
  · rw [h]
    exact encodeChar_ne_cons (by decide) hquote r p

lemma hexDigit_injective : ∀ d < 16, ∀ d' < 16, hexDigit d = hexDigit d' → d = d' := by
  decide

/-- A character of a string can be told from what begins with it. -/
lemma charText_append_inj {c c' : Char} {r r' : List Byte}
    (h : charText c ++ r = charText c' ++ r') : c = c' ∧ r = r' := by
  have hshort : ∀ p ∈ shortEscapes, ∀ q ∈ shortEscapes, p.2 = q.2 → p.1 = q.1 := by decide
  have hu : ∀ p ∈ shortEscapes, p.2 ≠ 0x75 := by decide
  have hback : reverseSolidus.toNat < 0x80 := by decide
  rcases charText_cases c with ⟨e, hmem, hc⟩ | ⟨hlt, hc⟩ | ⟨hlo, hquote, hne, hc⟩ <;>
    rcases charText_cases c' with ⟨e', hmem', hc'⟩ | ⟨hlt', hc'⟩ | ⟨hlo', hquote', hne', hc'⟩ <;>
    rw [hc, hc'] at h
  · simp only [List.cons_append, List.nil_append, List.cons.injEq, true_and] at h
    exact ⟨Char.toNat_inj.mp (hshort _ hmem _ hmem' h.1), h.2⟩
  · simp only [List.cons_append, List.nil_append, List.cons.injEq, true_and] at h
    exact absurd h.1 (hu _ hmem)
  · exact absurd h.symm (encodeChar_ne_cons hback hne' _ _)
  · simp only [List.cons_append, List.nil_append, List.cons.injEq, true_and] at h
    exact absurd h.1.symm (hu _ hmem')
  · simp only [List.cons_append, List.nil_append, List.cons.injEq, true_and] at h
    have hdiv := hexDigit_injective _ (by omega) _ (by omega) h.1
    have hmod := hexDigit_injective _ (by omega) _ (by omega) h.2.1
    exact ⟨Char.toNat_inj.mp (by omega), h.2.2⟩
  · exact absurd h.symm (encodeChar_ne_cons hback hne' _ _)
  · exact absurd h (encodeChar_ne_cons hback hne _ _)
  · exact absurd h (encodeChar_ne_cons hback hne _ _)
  · exact Utf8.encodeChar_append_inj h

lemma charTexts_append_inj {l l' : List Char} {r r' : List Byte}
    (h : l.flatMap charText ++ quotation :: r = l'.flatMap charText ++ quotation :: r') :
    l = l' ∧ r = r' := by
  induction l generalizing l' with
  | nil =>
    cases l' with
    | nil => exact ⟨rfl, (List.cons.inj h).2⟩
    | cons c' l' =>
      rw [List.flatMap_cons, List.append_assoc] at h
      exact absurd h.symm (charText_ne_quotation c' _ _)
  | cons c l ih =>
    rw [List.flatMap_cons, List.append_assoc] at h
    cases l' with
    | nil => exact absurd h (charText_ne_quotation c _ _)
    | cons c' l' =>
      rw [List.flatMap_cons, List.append_assoc] at h
      obtain ⟨rfl, htexts⟩ := charText_append_inj h
      obtain ⟨hl, hrest⟩ := ih htexts
      exact ⟨by rw [hl], hrest⟩

lemma stringText_append_inj {s s' : String} {r r' : List Byte}
    (h : stringText s ++ r = stringText s' ++ r') : s = s' ∧ r = r' := by
  simp only [stringText, List.append_assoc, List.cons_append, List.nil_append] at h
  obtain ⟨htext, hrest⟩ := charTexts_append_inj (List.cons.inj h).2
  exact ⟨String.toList_inj.mp htext, hrest⟩

/-! ### Lists -/

section

variable {α : Type} {f : α → List Byte} {close : Byte} {xs ys : List α} {r r' : List Byte}

/-- A text of an element can be told from what follows it, if that is no digit. -/
def Readable (f : α → List Byte) (x : α) : Prop :=
  ∀ ⦃y r r'⦄, NoDigit r → NoDigit r' → f x ++ r = f y ++ r' → x = y ∧ r = r'

lemma intercalate_map_cons (f : α → List Byte) (x : α) (xs : List α) :
    [comma].intercalate ((x :: xs).map f) = f x ++ xs.flatMap fun y => comma :: f y := by
  induction xs generalizing x with
  | nil => simp
  | cons y xs ih =>
    rw [List.map_cons, List.intercalate_cons_of_ne_nil (by simp), ih y, List.flatMap_cons]
    simp

lemma noDigit_tail (hclose : isDecimal close = false) (xs : List α) (r : List Byte) :
    NoDigit ((xs.flatMap fun y => comma :: f y) ++ close :: r) := by
  cases xs with
  | nil => exact noDigit_cons hclose r
  | cons x xs => exact noDigit_cons (by decide) _

lemma tail_append_inj (hclose : isDecimal close = false) (hcomma : close ≠ comma)
    (hread : ∀ x ∈ xs, Readable f x)
    (h : (xs.flatMap fun y => comma :: f y) ++ close :: r =
      (ys.flatMap fun y => comma :: f y) ++ close :: r') : xs = ys ∧ r = r' := by
  induction xs generalizing ys with
  | nil =>
    cases ys with
    | nil => exact ⟨rfl, (List.cons.inj h).2⟩
    | cons y ys => exact absurd (List.cons.inj h).1 hcomma
  | cons x xs ih =>
    cases ys with
    | nil => exact absurd (List.cons.inj h).1.symm hcomma
    | cons y ys =>
      obtain ⟨hx, hxs⟩ := List.forall_mem_cons.mp hread
      rw [List.flatMap_cons, List.flatMap_cons, List.append_assoc, List.append_assoc] at h
      obtain ⟨rfl, htail⟩ := hx (noDigit_tail hclose xs r) (noDigit_tail hclose ys r')
        (List.cons.inj h).2
      obtain ⟨htail, hrest⟩ := ih hxs htail
      exact ⟨by rw [htail], hrest⟩

/-- Elements between commas can be told from what follows the byte that closes the list. -/
lemma intercalate_append_inj (hclose : isDecimal close = false) (hcomma : close ≠ comma)
    (hhead : ∀ x r p, f x ++ r ≠ close :: p) (hread : ∀ x ∈ xs, Readable f x)
    (h : [comma].intercalate (xs.map f) ++ close :: r =
      [comma].intercalate (ys.map f) ++ close :: r') : xs = ys ∧ r = r' := by
  cases xs with
  | nil =>
    cases ys with
    | nil => exact ⟨rfl, (List.cons.inj h).2⟩
    | cons y ys =>
      rw [intercalate_map_cons, List.append_assoc] at h
      exact absurd h.symm (hhead y _ _)
  | cons x xs =>
    rw [intercalate_map_cons, List.append_assoc] at h
    cases ys with
    | nil => exact absurd h (hhead x _ _)
    | cons y ys =>
      rw [intercalate_map_cons, List.append_assoc] at h
      obtain ⟨hx, hxs⟩ := List.forall_mem_cons.mp hread
      obtain ⟨rfl, htail⟩ := hx (noDigit_tail hclose xs r) (noDigit_tail hclose ys r') h
      obtain ⟨htail, hrest⟩ := tail_append_inj hclose hcomma hxs htail
      exact ⟨by rw [htail], hrest⟩

end

/-! ### Values -/

/-- The kind of a value, by the byte that its text begins with. -/
def kindOf (b : Byte) : ℕ :=
  if b = 0x6E then 0
  else if b = 0x74 ∨ b = 0x66 then 1
  else if b = quotation then 3
  else if b = leftBracket then 4
  else if b = leftBrace then 5
  else if b = 0x2D ∨ isDecimal b then 2
  else 6

namespace Value

/-- The kind of a value. -/
def kind {σ : Type} : Value σ → ℕ
  | null => 0
  | boolean _ => 1
  | integer _ => 2
  | string _ => 3
  | array _ => 4
  | object _ => 5

lemma kindOf_digit : ∀ c : Byte, isDecimal c = true → kindOf c = 2 := by
  decide +kernel

/-- The first byte of a text tells the kind of the value. -/
lemma exists_text_cons (v : Value String) : ∃ b p, v.text = b :: p ∧ kindOf b = v.kind := by
  cases v with
  | null => exact ⟨_, _, rfl, rfl⟩
  | boolean b => cases b <;> exact ⟨_, _, rfl, rfl⟩
  | integer n =>
    rw [text, integerText]
    split_ifs
    · exact ⟨_, _, rfl, rfl⟩
    · obtain ⟨c, l, hl⟩ := List.exists_cons_of_ne_nil (decimalDigits_ne_nil n.natAbs)
      have hc : isDecimal c = true :=
        isDecimal_of_mem (n := n.natAbs) (by rw [hl]; exact List.mem_cons_self)
      exact ⟨c, l, hl, kindOf_digit c hc⟩
  | string s => exact ⟨_, _, rfl, rfl⟩
  | array items => exact ⟨_, _, rfl, rfl⟩
  | object members => exact ⟨_, _, rfl, rfl⟩

lemma text_ne_rightBracket (v : Value String) (r p : List Byte) :
    v.text ++ r ≠ rightBracket :: p := by
  obtain ⟨b, l, hl, hkind⟩ := v.exists_text_cons
  intro h
  rw [hl] at h
  obtain ⟨rfl, -⟩ := List.cons.inj h
  have hsix : kindOf rightBracket = 6 := by decide
  rw [hsix] at hkind
  cases v <;> cases hkind

lemma kind_eq {v v' : Value String} {r r' : List Byte} (h : v.text ++ r = v'.text ++ r') :
    v.kind = v'.kind := by
  obtain ⟨b, l, hl, hkind⟩ := v.exists_text_cons
  obtain ⟨b', l', hl', hkind'⟩ := v'.exists_text_cons
  rw [hl, hl'] at h
  obtain ⟨rfl, -⟩ := List.cons.inj h
  exact hkind.symm.trans hkind'

lemma readable_memberText {m : String × Value String} (h : Readable text m.2) :
    Readable memberText m := by
  intro m' r r' hr hr' heq
  simp only [memberText, List.append_assoc] at heq
  obtain ⟨hkey, hvalue⟩ := stringText_append_inj heq
  obtain ⟨hm, hrest⟩ := h hr hr' (List.cons.inj hvalue).2
  exact ⟨Prod.ext hkey hm, hrest⟩

/-- **A text of a value can be told from what follows it, if that is no digit.** -/
theorem readable_text (v : Value String) : Readable text v := by
  induction v using Value.induction with
  | null =>
    intro v' r r' _ _ h
    have hkind := kind_eq h
    cases v' with
    | null => exact ⟨rfl, List.append_cancel_left h⟩
    | _ => cases hkind
  | boolean b =>
    intro v' r r' _ _ h
    have hkind := kind_eq h
    cases v' with
    | boolean b' =>
      cases b <;> cases b'
      · exact ⟨rfl, List.append_cancel_left h⟩
      · cases h
      · cases h
      · exact ⟨rfl, List.append_cancel_left h⟩
    | _ => cases hkind
  | integer n =>
    intro v' r r' hr hr' h
    have hkind := kind_eq h
    cases v' with
    | integer n' =>
      obtain ⟨hn, hrest⟩ := integerText_append_inj hr hr' h
      exact ⟨by rw [hn], hrest⟩
    | _ => cases hkind
  | string s =>
    intro v' r r' _ _ h
    have hkind := kind_eq h
    cases v' with
    | string s' =>
      obtain ⟨hs, hrest⟩ := stringText_append_inj h
      exact ⟨by rw [hs], hrest⟩
    | _ => cases hkind
  | array items ih =>
    intro v' r r' _ _ h
    have hkind := kind_eq h
    cases v' with
    | array items' =>
      simp only [text, itemTexts_eq, List.append_assoc] at h
      obtain ⟨hitems, hrest⟩ := intercalate_append_inj (by decide) (by decide)
        text_ne_rightBracket ih (List.cons.inj h).2
      exact ⟨by rw [hitems], hrest⟩
    | _ => cases hkind
  | object members ih =>
    intro v' r r' _ _ h
    have hkind := kind_eq h
    cases v' with
    | object members' =>
      simp only [text, memberTexts_eq, List.append_assoc] at h
      have hhead (m : String × Value String) (r p : List Byte) :
          memberText m ++ r ≠ rightBrace :: p :=
        fun heq => absurd (List.cons.inj heq).1 (by decide)
      obtain ⟨hmembers, hrest⟩ := intercalate_append_inj (by decide) (by decide) hhead
        (fun m hm => readable_memberText (ih m hm)) (List.cons.inj h).2
      exact ⟨by rw [hmembers], hrest⟩
    | _ => cases hkind

/-- The text determines the value. -/
theorem text_injective {v v' : Value String} (h : v.text = v'.text) : v = v' :=
  (readable_text v noDigit_nil noDigit_nil (congrArg (· ++ []) h)).1

end Value

end OhMyMiner.Lib.JsonText
