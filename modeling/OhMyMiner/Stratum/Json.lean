/-
# JSON values

The values that `nlohmann::json` distinguishes, as far as the client looks at them.  Parsing
belongs to that library: here it is a function from byte strings to values, which has no value
where the library throws.
-/
import OhMyMiner.Lib.Bytes

namespace OhMyMiner.Stratum

open Lib

/-- A JSON value. -/
inductive Json where
  | null
  | boolean (b : Bool)
  | integer (n : ℤ)
  | decimal (q : ℚ)
  | string (s : String)
  | array (items : List Json)
  | object (members : List (String × Json))

/-- `json::parse`. -/
abbrev Parser : Type := List Byte → Option Json

namespace Json

/-- `message[key]`, for a key that is there. -/
def find? : Json → String → Option Json
  | object members, key => members.lookup key
  | _, _ => none

/-- `message.contains(key)`. -/
def contains (message : Json) (key : String) : Bool := (message.find? key).isSome

end Json

/-! ## Accesses -/

/-- What can go wrong in an access to a `const json`. -/
inductive Fault where
  /-- The library throws a `json::exception`. -/
  | threw
  /-- The assertion of the library fails; a release build has undefined behaviour instead. -/
  | undefined

lemma ok_of_bind {α β : Type} {x : Except Fault α} {f : α → Except Fault β} {b : β}
    (h : x >>= f = .ok b) : ∃ a, x = .ok a ∧ f a = .ok b := by
  cases x with
  | error fault => exact absurd h (by simp [bind, Except.bind])
  | ok a => exact ⟨a, rfl, h⟩

namespace Json

/-- `size()`. -/
def size : Json → ℕ
  | null => 0
  | array items => items.length
  | object members => members.length
  | _ => 1

/-- `operator[]` with a key. -/
def member (message : Json) (key : String) : Except Fault Json :=
  match message with
  | object members =>
    match members.lookup key with
    | some value => .ok value
    | none => .error .undefined
  | _ => .error .threw

/-- `operator[]` with an index. -/
def item (params : Json) (i : ℕ) : Except Fault Json :=
  match params with
  | array items =>
    match items[i]? with
    | some value => .ok value
    | none => .error .undefined
  | _ => .error .threw

/-- `get<std::string>()`. -/
def getString : Json → Except Fault String
  | string s => .ok s
  | _ => .error .threw

/-- `get<bool>()`. -/
def getBool : Json → Except Fault Bool
  | boolean b => .ok b
  | _ => .error .threw

lemma getString_cases (value : Json) :
    (∃ s, value = string s) ∨ value.getString = .error .threw := by
  cases value with
  | string s => exact Or.inl ⟨s, rfl⟩
  | _ => exact Or.inr rfl

lemma getBool_cases (value : Json) : (∃ b, value = boolean b) ∨ value.getBool = .error .threw := by
  cases value with
  | boolean b => exact Or.inl ⟨b, rfl⟩
  | _ => exact Or.inr rfl

end Json

end OhMyMiner.Stratum
