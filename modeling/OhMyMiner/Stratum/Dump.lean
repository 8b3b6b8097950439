/-
# The texts of requests

`dump` of `nlohmann::json` (`include/nlohmann/json.hpp`) as the client calls it, without
indentation and with the strict handler of errors.  What it writes is the text of a value; so it is
a JSON text in one line, and the value can be read back from it.
-/
import OhMyMiner.Stratum.Escape

namespace OhMyMiner.Stratum

open Lib JsonText Utf8 Utils

/-! ## The code -/

/-- A value that the client builds: its strings are bytes. -/
abbrev Document : Type := Value (List Byte)

/-- `count_digits`. -/
def countDigits (x nDigits : ℕ) : ℕ :=
  if x < 10 then nDigits
  else if x < 100 then nDigits + 1
  else if x < 1000 then nDigits + 2
  else if x < 10000 then nDigits + 3
  else countDigits (x / 10000) (nDigits + 4)

/-- An entry of `digits_to_99`. -/
def digitsTo99 (i : ℕ) : List Byte := [decimalDigit (i / 10), decimalDigit (i % 10)]

/-- The digits that are written backwards, in front of those that are there. -/
def writeDigits (absValue : ℕ) (behind : List Byte) : List Byte :=
  if absValue ≥ 100 then writeDigits (absValue / 100) (digitsTo99 (absValue % 100) ++ behind)
  else if absValue ≥ 10 then digitsTo99 absValue ++ behind
  else decimalDigit absValue :: behind

/-- `dump_integer`, with what is in `number_buffer`.  The digits end at the place that
`count_digits` tells. -/
def dumpInteger (numberBuffer : List Byte) (x : ℤ) : List Byte :=
  if x = 0 then [0x30]
  else
    let absValue := x.natAbs
    let nChars := if x < 0 then 1 + countDigits absValue 1 else countDigits absValue 1
    let numberBuffer := if x < 0 then numberBuffer.set 0 0x2D else numberBuffer
    let digits := writeDigits absValue []
    numberBuffer.take (nChars - digits.length) ++ digits

/-- `number_buffer` in the beginning.  What an earlier number leaves in it makes no difference
(`dumpInteger_eq`). -/
def emptyNumberBuffer : List Byte := List.replicate 64 0

mutual

/-- `dump`, without the cases of floating-point numbers, binary and discarded values, of which the
client builds none. -/
def dump : Document → Except Invalid (List Byte)
  | .null => .ok [0x6E, 0x75, 0x6C, 0x6C]
  | .boolean b => .ok (if b then [0x74, 0x72, 0x75, 0x65] else [0x66, 0x61, 0x6C, 0x73, 0x65])
  | .integer n => .ok (dumpInteger emptyNumberBuffer n)
  | .string s => do
    let body ← dumpEscaped s
    return [0x22] ++ body ++ [0x22]
  | .array items =>
    if items.isEmpty then .ok [0x5B, 0x5D]
    else do
      let body ← dumpItems items
      return [0x5B] ++ body ++ [0x5D]
  | .object members =>
    if members.isEmpty then .ok [0x7B, 0x7D]
    else do
      let body ← dumpMembers members
      return [0x7B] ++ body ++ [0x7D]

/-- The first `n - 1` elements with a comma behind each, and the last one. -/
def dumpItems : List Document → Except Invalid (List Byte)
  | [] => .ok []
  | [v] => dump v
  | v :: items => do
    let element ← dump v
    let body ← dumpItems items
    return element ++ [0x2C] ++ body

/-- The members, in the same way. -/
def dumpMembers : List (List Byte × Document) → Except Invalid (List Byte)
  | [] => .ok []
  | [(key, v)] => do
    let name ← dumpEscaped key
    let element ← dump v
    return [0x22] ++ name ++ [0x22, 0x3A] ++ element
  | (key, v) :: members => do
    let name ← dumpEscaped key
    let element ← dump v
    let body ← dumpMembers members
    return [0x22] ++ name ++ [0x22, 0x3A] ++ element ++ [0x2C] ++ body

end

/-! ## Integers -/

lemma length_decimalDigits_of_le {n : ℕ} (h : 10 ≤ n) :
    (decimalDigits n).length = (decimalDigits (n / 10)).length + 1 := by
  rw [decimalDigits_eq h, List.length_append, List.length_singleton]

lemma length_decimalDigits_of_lt {n : ℕ} (h : n < 10) : (decimalDigits n).length = 1 := by
  rw [decimalDigits_of_lt h, List.length_singleton]

/-- Every round of the loop counts four digits. -/
lemma countDigits_eq (x n : ℕ) : countDigits x n + 1 = n + (decimalDigits x).length := by
  induction x using Nat.strongRecOn generalizing n with
  | ind x ih =>
    have hstep {y : ℕ} (h : 10 ≤ y) := length_decimalDigits_of_le h
    have hlast {y : ℕ} (h : y < 10) := length_decimalDigits_of_lt h
    rw [countDigits]
    split_ifs with h1 h2 h3 h4
    · rw [hlast h1]
    · rw [hstep (by omega), hlast (by omega)]
    · rw [hstep (by omega), hstep (by omega), hlast (by omega)]
    · rw [hstep (by omega), hstep (by omega), hstep (by omega), hlast (by omega)]
    · have hdiv : x / 10 / 10 / 10 / 10 = x / 10000 := by omega
      have hlength : (decimalDigits x).length = (decimalDigits (x / 10000)).length + 4 := by
        rw [hstep (by omega), hstep (by omega), hstep (by omega), hstep (by omega), hdiv]
      rw [ih (x / 10000) (by omega), hlength]
      omega

/-- The last two digits. -/
lemma decimalDigits_eq_append_digitsTo99 {x : ℕ} (h : 100 ≤ x) :
    decimalDigits x = decimalDigits (x / 100) ++ digitsTo99 (x % 100) := by
  have hdiv : x / 10 / 10 = x / 100 := by omega
  have htens : x / 10 % 10 = x % 100 / 10 := by omega
  have hones : x % 10 = x % 100 % 10 := by omega
  rw [decimalDigits_eq (by omega), decimalDigits_eq (by omega), hdiv, htens, hones,
    List.append_assoc]
  rfl

lemma writeDigits_eq (x : ℕ) (behind : List Byte) :
    writeDigits x behind = decimalDigits x ++ behind := by
  induction x using Nat.strongRecOn generalizing behind with
  | ind x ih =>
    rw [writeDigits]
    split_ifs with h1 h2
    · rw [ih (x / 100) (by omega), decimalDigits_eq_append_digitsTo99 h1, List.append_assoc]
    · rw [decimalDigits_eq h2, decimalDigits_of_lt (by omega)]
      rfl
    · rw [decimalDigits_of_lt (by omega)]
      rfl

/-- **The text of an integer is written**, whatever is in the buffer. -/
lemma dumpInteger_eq {numberBuffer : List Byte} (h : numberBuffer ≠ []) (x : ℤ) :
    dumpInteger numberBuffer x = integerText x := by
  obtain ⟨first, rest, rfl⟩ := List.exists_cons_of_ne_nil h
  rcases eq_or_ne x 0 with rfl | hx
  · rfl
  · have hcount := countDigits_eq x.natAbs 1
    rw [dumpInteger, if_neg hx, integerText]
    dsimp only
    rw [writeDigits_eq, List.append_nil]
    split_ifs with hneg
    · have hsub : 1 + countDigits x.natAbs 1 - (decimalDigits x.natAbs).length = 1 := by omega
      rw [hsub]
      rfl
    · have hsub : countDigits x.natAbs 1 - (decimalDigits x.natAbs).length = 0 := by omega
      rw [hsub]
      rfl

/-! ## Values -/

lemma emptyNumberBuffer_ne_nil : emptyNumberBuffer ≠ [] := by simp [emptyNumberBuffer]

lemma ok_of_except_bind {ε α β : Type} {x : Except ε α} {f : α → Except ε β} {b : β}
    (h : x >>= f = .ok b) : ∃ a, x = .ok a ∧ f a = .ok b := by
  cases x with
  | error fault => cases h
  | ok a => exact ⟨a, rfl, h⟩

lemma dumpEscaped_eq_ok_iff (s out : List Byte) :
    dumpEscaped s = .ok out ↔
      ∃ text : String, utf8 text = s ∧ text.toList.flatMap charText = out := by
  constructor
  · intro h
    have hspec := escapes_dumpEscaped s
    rw [h] at hspec
    obtain ⟨text, hs, rfl⟩ := hspec
    exact ⟨text, hs, rfl⟩
  · rintro ⟨text, rfl, rfl⟩
    exact dumpEscaped_utf8 text

lemma dumpItems_cons (v : Document) {items : List Document} (hne : items ≠ []) :
    dumpItems (v :: items) = do
      let element ← dump v
      let body ← dumpItems items
      return element ++ [0x2C] ++ body := by
  cases items with
  | nil => exact absurd rfl hne
  | cons v' items => rw [dumpItems]; exact List.cons_ne_nil _ _

lemma dumpMembers_cons (m : List Byte × Document) {members : List (List Byte × Document)}
    (hne : members ≠ []) :
    dumpMembers (m :: members) = do
      let name ← dumpEscaped m.1
      let element ← dump m.2
      let body ← dumpMembers members
      return [0x22] ++ name ++ [0x22, 0x3A] ++ element ++ [0x2C] ++ body := by
  cases members with
  | nil => exact absurd rfl hne
  | cons m' members => rw [dumpMembers]; exact List.cons_ne_nil _ _

lemma dumpItems_eq {items : List (Value String)}
    (h : ∀ v ∈ items, dump (v.map utf8) = .ok v.text) :
    dumpItems (Value.mapItems utf8 items) =
      .ok ([comma].intercalate (Value.itemTexts items)) := by
  induction items with
  | nil => rfl
  | cons v items ih =>
    obtain ⟨hv, hitems⟩ := List.forall_mem_cons.mp h
    rw [Value.mapItems, Value.itemTexts]
    rcases eq_or_ne items [] with rfl | hne
    · rw [Value.mapItems, Value.itemTexts, List.intercalate_singleton, dumpItems, hv]
    · have hmap : Value.mapItems utf8 items ≠ [] := by
        simpa [Value.mapItems_eq] using hne
      have htexts : Value.itemTexts items ≠ [] := by
        simpa [Value.itemTexts_eq] using hne
      rw [dumpItems_cons _ hmap, hv, ih hitems, List.intercalate_cons_of_ne_nil htexts]
      rfl

lemma dumpMembers_eq {members : List (String × Value String)}
    (h : ∀ m ∈ members, dump (m.2.map utf8) = .ok m.2.text) :
    dumpMembers (Value.mapMembers utf8 members) =
      .ok ([comma].intercalate (Value.memberTexts members)) := by
  induction members with
  | nil => rfl
  | cons m members ih =>
    obtain ⟨hm, hmembers⟩ := List.forall_mem_cons.mp h
    rw [Value.mapMembers, Value.memberTexts]
    rcases eq_or_ne members [] with rfl | hne
    · rw [Value.mapMembers, Value.memberTexts, List.intercalate_singleton, dumpMembers, hm,
        dumpEscaped_utf8]
      simp [stringText, quotation, colon, bind, Except.bind, pure, Except.pure]
    · have hmap : Value.mapMembers utf8 members ≠ [] := by
        simpa [Value.mapMembers_eq] using hne
      have htexts : Value.memberTexts members ≠ [] := by
        simpa [Value.memberTexts_eq] using hne
      rw [dumpMembers_cons _ hmap, dumpEscaped_utf8, hm, ih hmembers,
        List.intercalate_cons_of_ne_nil htexts]
      simp [stringText, quotation, colon, comma, bind, Except.bind, pure, Except.pure]

/-- What is written for a value whose strings are UTF-8. -/
lemma dump_map_utf8 (v : Value String) : dump (v.map utf8) = .ok v.text := by
  induction v using Value.induction with
  | null => rfl
  | boolean b => rfl
  | integer n =>
    rw [Value.map, dump, dumpInteger_eq emptyNumberBuffer_ne_nil]
    rfl
  | string s =>
    rw [Value.map, dump, dumpEscaped_utf8]
    rfl
  | array items ih =>
    rw [Value.map, dump, dumpItems_eq ih, Value.text]
    cases items with
    | nil => rfl
    | cons v items => rfl
  | object members ih =>
    rw [Value.map, dump, dumpMembers_eq ih, Value.text]
    cases members with
    | nil => rfl
    | cons m members => rfl

lemma dumpItems_ok {items : List Document} {body : List Byte} (h : dumpItems items = .ok body) :
    ∀ v ∈ items, ∃ t, dump v = .ok t := by
  induction items generalizing body with
  | nil => exact fun _ hv => absurd hv List.not_mem_nil
  | cons v items ih =>
    rcases eq_or_ne items [] with rfl | hne
    · exact List.forall_mem_singleton.mpr ⟨body, h⟩
    · rw [dumpItems_cons v hne] at h
      obtain ⟨element, hv, h⟩ := ok_of_except_bind h
      obtain ⟨body', hitems, -⟩ := ok_of_except_bind h
      exact List.forall_mem_cons.mpr ⟨⟨element, hv⟩, ih hitems⟩

lemma dumpMembers_ok {members : List (List Byte × Document)} {body : List Byte}
    (h : dumpMembers members = .ok body) :
    ∀ m ∈ members, (∃ name, dumpEscaped m.1 = .ok name) ∧ ∃ t, dump m.2 = .ok t := by
  induction members generalizing body with
  | nil => exact fun _ hm => absurd hm List.not_mem_nil
  | cons m members ih =>
    rcases eq_or_ne members [] with rfl | hne
    · rw [dumpMembers] at h
      obtain ⟨name, hname, h⟩ := ok_of_except_bind h
      obtain ⟨element, hm, -⟩ := ok_of_except_bind h
      exact List.forall_mem_singleton.mpr ⟨⟨name, hname⟩, element, hm⟩
    · rw [dumpMembers_cons m hne] at h
      obtain ⟨name, hname, h⟩ := ok_of_except_bind h
      obtain ⟨element, hm, h⟩ := ok_of_except_bind h
      obtain ⟨body', hmembers, -⟩ := ok_of_except_bind h
      exact List.forall_mem_cons.mpr ⟨⟨⟨name, hname⟩, element, hm⟩, ih hmembers⟩

lemma exists_mapItems {items : List Document}
    (h : ∀ v ∈ items, ∃ v' : Value String, v'.map utf8 = v) :
    ∃ items', Value.mapItems utf8 items' = items := by
  induction items with
  | nil => exact ⟨[], rfl⟩
  | cons v items ih =>
    obtain ⟨⟨v', rfl⟩, hitems⟩ := List.forall_mem_cons.mp h
    obtain ⟨items', rfl⟩ := ih hitems
    exact ⟨v' :: items', rfl⟩

lemma exists_mapMembers {members : List (List Byte × Document)}
    (h : ∀ m ∈ members, (∃ key : String, utf8 key = m.1) ∧
      ∃ v' : Value String, v'.map utf8 = m.2) :
    ∃ members', Value.mapMembers utf8 members' = members := by
  induction members with
  | nil => exact ⟨[], rfl⟩
  | cons m members ih =>
    obtain ⟨⟨⟨key, hkey⟩, v', hv⟩, hmembers⟩ := List.forall_mem_cons.mp h
    obtain ⟨members', rfl⟩ := ih hmembers
    exact ⟨(key, v') :: members', by rw [Value.mapMembers, hkey, hv]⟩

/-- What is written has strings of UTF-8. -/
lemma exists_map_utf8 (d : Document) :
    ∀ {t : List Byte}, dump d = .ok t → ∃ v : Value String, v.map utf8 = d := by
  induction d using Value.induction with
  | null => exact fun _ => ⟨.null, rfl⟩
  | boolean b => exact fun _ => ⟨.boolean b, rfl⟩
  | integer n => exact fun _ => ⟨.integer n, rfl⟩
  | string s =>
    intro t h
    rw [dump] at h
    obtain ⟨body, hbody, -⟩ := ok_of_except_bind h
    obtain ⟨text, rfl, -⟩ := (dumpEscaped_eq_ok_iff s body).mp hbody
    exact ⟨.string text, rfl⟩
  | array items ih =>
    intro t h
    rw [dump] at h
    split_ifs at h with hempty
    · exact ⟨.array [], by rw [Value.map, Value.mapItems, List.isEmpty_iff.mp hempty]⟩
    · obtain ⟨body, hbody, -⟩ := ok_of_except_bind h
      obtain ⟨items', hitems⟩ := exists_mapItems fun v hv => by
        obtain ⟨t', ht'⟩ := dumpItems_ok hbody v hv
        exact ih v hv ht'
      exact ⟨.array items', by rw [Value.map, hitems]⟩
  | object members ih =>
    intro t h
    rw [dump] at h
    split_ifs at h with hempty
    · exact ⟨.object [], by rw [Value.map, Value.mapMembers, List.isEmpty_iff.mp hempty]⟩
    · obtain ⟨body, hbody, -⟩ := ok_of_except_bind h
      obtain ⟨members', hmembers⟩ := exists_mapMembers fun m hm => by
        obtain ⟨⟨name, hname⟩, t', ht'⟩ := dumpMembers_ok hbody m hm
        obtain ⟨key, hkey, -⟩ := (dumpEscaped_eq_ok_iff m.1 name).mp hname
        exact ⟨⟨key, hkey⟩, ih m hm ht'⟩
      exact ⟨.object members', by rw [Value.map, hmembers]⟩

/-- **The serializer writes the texts of values.**  It writes a document if all strings in it are
UTF-8, and then the text of the value. -/
theorem dump_eq_ok_iff (d : Document) (t : List Byte) :
    dump d = .ok t ↔ ∃ v : Value String, v.map utf8 = d ∧ v.text = t := by
  constructor
  · intro h
    obtain ⟨v, rfl⟩ := exists_map_utf8 d h
    exact ⟨v, rfl, Except.ok.inj ((dump_map_utf8 v).symm.trans h)⟩
  · rintro ⟨v, rfl, rfl⟩
    exact dump_map_utf8 v

lemma exists_dump_iff_map (d : Document) :
    (∃ t, dump d = .ok t) ↔ ∃ v : Value String, v.map utf8 = d :=
  ⟨fun ⟨_, h⟩ => exists_map_utf8 d h, fun ⟨v, hv⟩ => ⟨v.text, hv ▸ dump_map_utf8 v⟩⟩

lemma exists_dump_string_iff (s : List Byte) : (∃ t, dump (.string s) = .ok t) ↔ WellFormed s := by
  rw [wellFormed_iff]
  constructor
  · rintro ⟨t, h⟩
    rw [dump] at h
    obtain ⟨body, hbody, -⟩ := ok_of_except_bind h
    obtain ⟨text, htext, -⟩ := (dumpEscaped_eq_ok_iff s body).mp hbody
    exact ⟨text, htext⟩
  · rintro ⟨text, rfl⟩
    exact ⟨_, dump_map_utf8 (.string text)⟩

lemma exists_dump_array_iff (items : List Document) :
    (∃ t, dump (.array items) = .ok t) ↔ ∀ v ∈ items, ∃ t, dump v = .ok t := by
  constructor
  · rintro ⟨t, h⟩
    rw [dump] at h
    split_ifs at h with hempty
    · rw [List.isEmpty_iff.mp hempty]
      exact fun _ hv => absurd hv List.not_mem_nil
    · obtain ⟨body, hbody, -⟩ := ok_of_except_bind h
      exact dumpItems_ok hbody
  · intro h
    obtain ⟨items', hitems⟩ := exists_mapItems fun v hv => (exists_dump_iff_map v).mp (h v hv)
    exact (exists_dump_iff_map _).mpr ⟨.array items', by rw [Value.map, hitems]⟩

lemma exists_dump_object_iff (members : List (List Byte × Document)) :
    (∃ t, dump (.object members) = .ok t) ↔
      ∀ m ∈ members, WellFormed m.1 ∧ ∃ t, dump m.2 = .ok t := by
  constructor
  · rintro ⟨t, h⟩
    rw [dump] at h
    split_ifs at h with hempty
    · rw [List.isEmpty_iff.mp hempty]
      exact fun _ hm => absurd hm List.not_mem_nil
    · obtain ⟨body, hbody, -⟩ := ok_of_except_bind h
      intro m hm
      obtain ⟨⟨name, hname⟩, hvalue⟩ := dumpMembers_ok hbody m hm
      obtain ⟨key, hkey, -⟩ := (dumpEscaped_eq_ok_iff m.1 name).mp hname
      exact ⟨(wellFormed_iff m.1).mpr ⟨key, hkey⟩, hvalue⟩
  · intro h
    obtain ⟨members', hmembers⟩ := exists_mapMembers fun m hm =>
      ⟨(wellFormed_iff m.1).mp (h m hm).1, (exists_dump_iff_map m.2).mp (h m hm).2⟩
    exact (exists_dump_iff_map _).mpr ⟨.object members', by rw [Value.map, hmembers]⟩

/-- Different documents are written differently. -/
lemma dump_injective {d d' : Document} {t : List Byte} (h : dump d = .ok t) (h' : dump d' = .ok t) :
    d = d' := by
  obtain ⟨v, rfl, rfl⟩ := (dump_eq_ok_iff d t).mp h
  obtain ⟨v', rfl, htext⟩ := (dump_eq_ok_iff d' v.text).mp h'
  rw [Value.text_injective htext]

lemma derives_dump_object {members : List (List Byte × Document)} {t : List Byte}
    (h : dump (.object members) = .ok t) : Derives .object t := by
  obtain ⟨v, hv, rfl⟩ := (dump_eq_ok_iff _ t).mp h
  cases v with
  | object members' => exact Value.derives_object fun m _ => m.2.derives_text
  | _ => cases hv

lemma printable_dump {d : Document} {t : List Byte} (h : dump d = .ok t) : Printable t := by
  obtain ⟨v, -, rfl⟩ := (dump_eq_ok_iff d t).mp h
  exact v.printable_text

/-- **What is written can be read back.**  The text of a document is a JSON text without control
characters, and two documents whose texts are followed by no digits are the same if what is written
for them begins in the same way. -/
theorem dump_readable {d : Document} {t : List Byte} (h : dump d = .ok t) :
    Derives .value t ∧ Printable t ∧
      ∀ d' t' r r', dump d' = .ok t' → NoDigit r → NoDigit r' → t ++ r = t' ++ r' →
        d = d' ∧ t = t' ∧ r = r' := by
  obtain ⟨v, rfl, rfl⟩ := (dump_eq_ok_iff d t).mp h
  refine ⟨v.derives_text, v.printable_text, fun d' t' r r' h' hr hr' heq => ?_⟩
  obtain ⟨v', rfl, rfl⟩ := (dump_eq_ok_iff d' t').mp h'
  obtain ⟨rfl, hrest⟩ := v.readable_text hr hr' heq
  exact ⟨rfl, rfl, hrest⟩

/-- A pair of a string and null. -/
theorem dump_readable_pair :
    let v : Value String := .array [.string "worker", .null]
    Derives .value v.text ∧ Printable v.text ∧
      ∀ d' t' r r', dump d' = .ok t' → NoDigit r → NoDigit r' → v.text ++ r = t' ++ r' →
        v.map utf8 = d' ∧ v.text = t' ∧ r = r' :=
  dump_readable (dump_map_utf8 (.array [.string "worker", .null]))

end OhMyMiner.Stratum
