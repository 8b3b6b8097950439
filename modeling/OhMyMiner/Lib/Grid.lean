/-
# Grids of threads

A grid of `a` blocks of `b` threads, or `a` threads with `b` passes each, numbered row by row,
is one range of `a * b` indices.
-/
import OhMyMiner.Lib.Loop

namespace OhMyMiner.Lib

variable {α : Type*}

/-- **A grid is a range.** -/
theorem flatMap_range_map (a b : ℕ) (f : ℕ → α) :
    (List.range a).flatMap (fun i => (List.range b).map fun j => f (i * b + j)) =
      (List.range (a * b)).map f := by
  induction a with
  | zero => simp
  | succ a ih =>
    rw [List.range_succ, List.flatMap_append, ih, List.flatMap_singleton, Nat.succ_mul,
      List.range_add, List.map_append, List.map_map]
    rfl

/-- Two rows of numbers, one behind the other. -/
lemma map_range_append (start a b : ℕ) :
    (List.range a).map (start + ·) ++ (List.range b).map (start + a + ·) =
      (List.range (a + b)).map (start + ·) := by
  rw [List.range_add, List.map_append, List.map_map]
  simp only [Function.comp_def, Nat.add_assoc]

/-- An injective numbering meets every index of a range once. -/
lemma count_map_range [DecidableEq α] {n : ℕ} {f : ℕ → α}
    (hf : ∀ i < n, ∀ j < n, f i = f j → i = j) {i : ℕ} (hi : i < n) :
    ((List.range n).map f).count (f i) = 1 := by
  refine List.count_eq_one_of_mem ?_ (List.mem_map_of_mem (List.mem_range.mpr hi))
  refine List.Nodup.map_on ?_ List.nodup_range
  intro i hi j hj heq
  exact hf i (List.mem_range.mp hi) j (List.mem_range.mp hj) heq

/-- The indices of a launch, each with its outcome. -/
lemma map_fst_outcomes {β : Type*} (indices : List α) (outcome : α → β) :
    (indices.map fun a => (a, outcome a)).map Prod.fst = indices := by
  rw [List.map_map]
  exact List.map_id _

lemma mem_outcomes {β : Type*} {indices : List α} {outcome : α → β} {a : α} (ha : a ∈ indices)
    (b : β) : (a, b) ∈ indices.map (fun a => (a, outcome a)) ↔ b = outcome a := by
  constructor
  · intro hmem
    obtain ⟨_, -, hpair⟩ := List.mem_map.mp hmem
    obtain ⟨rfl, rfl⟩ := Prod.mk.inj hpair
    rfl
  · rintro rfl
    exact List.mem_map_of_mem ha

end OhMyMiner.Lib
