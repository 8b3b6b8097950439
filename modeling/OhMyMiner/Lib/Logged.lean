/-
# Computations with a log

A computation that may end with an exception, and that logs what it does on the way.  Forgetting
the log is a morphism to `Except`, so a function and its logged copy have the same results; and
what is to hold of all entries can be shown step by step, where each step may use the results of
the steps before it.
-/
import Mathlib.Tactic

namespace OhMyMiner.Lib

/-- What a computation has logged, oldest entry first, and its result. -/
structure Logged (ω ε α : Type) where
  log : List ω
  result : Except ε α

namespace Logged

variable {ω ε α β : Type}

instance : Monad (Logged ω ε) where
  pure a := { log := [], result := .ok a }
  bind x f :=
    match x.result with
    | .ok a => { log := x.log ++ (f a).log, result := (f a).result }
    | .error e => { log := x.log, result := .error e }

/-- A step with its entry. -/
def step (entry : ω) (result : Except ε α) : Logged ω ε α := { log := [entry], result := result }

/-- A step without an entry. -/
def silent (result : Except ε α) : Logged ω ε α := { log := [], result := result }

/-- Every entry has the property. -/
def All (P : ω → Prop) (x : Logged ω ε α) : Prop := ∀ entry ∈ x.log, P entry

/-! ## Forgetting the log -/

@[simp] lemma result_pure (a : α) : (pure a : Logged ω ε α).result = pure a := rfl

@[simp] lemma result_step (entry : ω) (result : Except ε α) : (step entry result).result = result :=
  rfl

@[simp] lemma result_silent (result : Except ε α) :
    (silent result : Logged ω ε α).result = result := rfl

@[simp] lemma result_bind (x : Logged ω ε α) (f : α → Logged ω ε β) :
    (x >>= f).result = x.result >>= fun a => (f a).result := by
  show (match x.result with
    | .ok a => { log := x.log ++ (f a).log, result := (f a).result }
    | .error e => { log := x.log, result := .error e } : Logged ω ε β).result = _
  cases x.result <;> rfl

@[simp] lemma result_ite {c : Prop} [Decidable c] (x y : Logged ω ε α) :
    (if c then x else y).result = if c then x.result else y.result := apply_ite result c x y

lemma result_forM (l : List α) (f : α → Logged ω ε Unit) :
    (forM l f).result = forM l fun a => (f a).result := by
  induction l with
  | nil => rfl
  | cons a l ih => rw [List.forM_cons, List.forM_cons, result_bind, ih]

/-! ## What holds of all entries -/

variable {P : ω → Prop}

@[simp] lemma all_pure (a : α) : (pure a : Logged ω ε α).All P :=
  fun _ hmem => absurd hmem List.not_mem_nil

@[simp] lemma all_silent (result : Except ε α) : (silent result : Logged ω ε α).All P :=
  fun _ hmem => absurd hmem List.not_mem_nil

@[simp] lemma all_step (entry : ω) (result : Except ε α) :
    (step entry result).All P ↔ P entry := by
  simp [All, step]

/-- **The rule of sequencing.** -/
theorem all_bind (x : Logged ω ε α) (f : α → Logged ω ε β) :
    (x >>= f).All P ↔ x.All P ∧ ∀ a, x.result = .ok a → (f a).All P := by
  show (match x.result with
    | .ok a => { log := x.log ++ (f a).log, result := (f a).result }
    | .error e => { log := x.log, result := .error e } : Logged ω ε β).All P ↔ _
  cases x.result with
  | error e => simp [All]
  | ok a =>
    simp only [All, List.mem_append, Except.ok.injEq, forall_eq']
    exact ⟨fun h => ⟨fun e he => h e (Or.inl he), fun e he => h e (Or.inr he)⟩,
      fun h e he => he.elim (h.1 e) (h.2 e)⟩

/-- **The rule of loops.** -/
theorem all_forM {l : List α} {f : α → Logged ω ε Unit} (h : ∀ a ∈ l, (f a).All P) :
    (forM l f).All P := by
  induction l with
  | nil => exact all_pure ()
  | cons a l ih =>
    rw [List.forM_cons, all_bind]
    exact ⟨h a List.mem_cons_self, fun _ _ => ih fun b hb => h b (List.mem_cons_of_mem a hb)⟩

end Logged

end OhMyMiner.Lib
