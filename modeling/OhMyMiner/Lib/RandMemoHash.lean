/-
# RandMemoHash

A memory-hard function keeps an array of `n` items.  The array starts as a hash chain; a round
then rewrites the items in place, one after the other, each from itself, its predecessor in the
cyclic order and an item that its own content selects.  Instances differ in the hash, in how the
three items are combined and in the selection, which together are a `Rule` here.

Every step reads items that earlier steps of the same round have rewritten, so two rules that
differ in one step differ from there on.  `Rule.after_eq_iff` compares two rules along their
whole runs.
-/
import OhMyMiner.Lib.Loop

namespace OhMyMiner.Lib.RandMemoHash

variable {α : Type*} {n : ℕ}

/-- An instance of the function on items of type `α`. -/
structure Rule (α : Type*) where
  /-- The hash of one item. -/
  hash : α → α
  /-- How an item, its predecessor and the selected item are combined. -/
  mix : α → α → α → α
  /-- The number that selects an item. -/
  key : α → ℕ

namespace Rule

/-- The array the rounds start from: each item is the hash of its predecessor. -/
def chain (rule : Rule α) (n : ℕ) (first : α) : Vector α n :=
  Vector.ofFn fun i => rule.hash^[i.1] first

/-- The new value of item `i`. -/
def item (rule : Rule α) (items : Vector α n) (i : ℕ) (hi : i < n) : α :=
  have hprev : (i + (n - 1)) % n < n := Nat.mod_lt _ (by omega)
  have hkey : rule.key items[i] % n < n := Nat.mod_lt _ (by omega)
  rule.hash (rule.mix items[i] items[(i + (n - 1)) % n] items[rule.key items[i] % n])

/-- Rewrite item `i`. -/
def step (rule : Rule α) (items : Vector α n) (i : ℕ) (hi : i < n) : Vector α n :=
  items.set i (rule.item items i hi)

/-- Rewrite the items `0, …, n - 1` in this order. -/
def round (rule : Rule α) (items : Vector α n) : Vector α n :=
  forLoop n items fun i hi items => rule.step items i hi

/-- The array after `r` rounds and the first `i` steps of the next one. -/
def after (rule : Rule α) (items : Vector α n) (r i : ℕ) (hi : i ≤ n) : Vector α n :=
  forLoop i (forLoop r items fun _ _ items => rule.round items)
    fun j hj items => rule.step items j (by omega)

/-- The array that `rounds` rounds make of the hash chain of an item. -/
def cache (rule : Rule α) (rounds n : ℕ) (first : α) : Vector α n :=
  rule.after (rule.chain n first) rounds 0 (Nat.zero_le n)

/-! ## Runs -/

section Runs

variable (rule rule' : Rule α) (items : Vector α n)

lemma after_succ {r i : ℕ} (hi : i < n) :
    rule.after items r (i + 1) hi = rule.step (rule.after items r i hi.le) i hi := rfl

/-- A round that is through is where the next one starts. -/
lemma after_last (r : ℕ) :
    rule.after items r n le_rfl = rule.after items (r + 1) 0 (Nat.zero_le n) := rfl

lemma step_eq_iff {i : ℕ} (hi : i < n) :
    rule'.step items i hi = rule.step items i hi ↔
      rule'.item items i hi = rule.item items i hi := by
  constructor
  · intro h
    have hcell := congrArg (fun v : Vector α n => v[i]) h
    simpa only [step, Vector.getElem_set_self] using hcell
  · intro h
    rw [step, h, step]

/-- If the rules agree on every item that a round of one of them rewrites, they agree through
the round. -/
lemma after_eq_of_item {r : ℕ}
    (hstart : rule'.after items r 0 (Nat.zero_le n) = rule.after items r 0 (Nat.zero_le n))
    (hitem : ∀ i (hi : i < n),
      rule'.item (rule.after items r i hi.le) i hi = rule.item (rule.after items r i hi.le) i hi)
    (i : ℕ) (hi : i ≤ n) : rule'.after items r i hi = rule.after items r i hi := by
  induction i with
  | zero => exact hstart
  | succ i ih =>
    rw [after_succ, after_succ, ih (by omega)]
    exact (rule.step_eq_iff rule' _ hi).mpr (hitem i hi)

/-- **Two rules run through the same arrays exactly when they agree on every item rewritten.** -/
theorem after_eq_iff (rounds : ℕ) :
    (∀ r < rounds, ∀ i (hi : i ≤ n), rule'.after items r i hi = rule.after items r i hi) ↔
      ∀ r < rounds, ∀ i (hi : i < n),
        rule'.item (rule.after items r i hi.le) i hi =
          rule.item (rule.after items r i hi.le) i hi := by
  constructor
  · intro h r hr i hi
    rw [← rule.step_eq_iff rule' _ hi, ← rule.after_succ, ← h r hr (i + 1) hi,
      ← h r hr i hi.le, rule'.after_succ]
  · intro h r hr
    -- the round starts where the one before it has ended
    have hstart : rule'.after items r 0 (Nat.zero_le n) = rule.after items r 0 (Nat.zero_le n) := by
      induction r with
      | zero => rfl
      | succ r ih =>
        rw [← after_last, ← after_last]
        exact rule.after_eq_of_item rule' items (ih (by omega)) (h r (by omega)) n le_rfl
    exact rule.after_eq_of_item rule' items hstart (h r hr)

/-- Rules that run through the same arrays end in the same array. -/
lemma after_eq_of_forall {rounds : ℕ}
    (h : ∀ r < rounds, ∀ i (hi : i ≤ n), rule'.after items r i hi = rule.after items r i hi) :
    rule'.after items rounds 0 (Nat.zero_le n) = rule.after items rounds 0 (Nat.zero_le n) := by
  cases rounds with
  | zero => rfl
  | succ r =>
    rw [← after_last, ← after_last]
    exact h r (by omega) n le_rfl

end Runs

end Rule

end OhMyMiner.Lib.RandMemoHash
