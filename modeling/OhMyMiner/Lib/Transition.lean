/-
# Runs of a transition system

A transition system is a relation `step s i t` between states, labelled by what happens.  A run
is a list of labels that leads from one state to another, one step each.  What holds at the
start and is preserved by every step holds at the end of every run.

A system may decide what happens later than another one that has the same runs; then a step of
the one is related to steps of the other by what is still to come.

A system whose labels are operations has one run for every list of them.  A program that is given
one step at a time is a system with a single label; it terminates if its steps decrease a measure
until it has halted.
-/
import Mathlib.Tactic

namespace OhMyMiner.Lib

variable {σ ι : Type*}

/-- `Run step s l t`: the labels `l`, in this order, lead from `s` to `t`. -/
inductive Run (step : σ → ι → σ → Prop) : σ → List ι → σ → Prop
  | refl (s : σ) : Run step s [] s
  | snoc {s t u : σ} {l : List ι} {i : ι} (hrun : Run step s l t) (hstep : step t i u) :
      Run step s (l ++ [i]) u

/-- The states some run reaches from `s`. -/
def Reachable (step : σ → ι → σ → Prop) (s t : σ) : Prop := ∃ l, Run step s l t

namespace Run

variable {step : σ → ι → σ → Prop} {s t u : σ} {l : List ι}

/-- **The invariant rule.** -/
theorem invariant (P : σ → Prop) (h₀ : P s) (hstep : ∀ t i u, P t → step t i u → P u)
    (hrun : Run step s l t) : P t := by
  induction hrun with
  | refl => exact h₀
  | snoc _ hlast ih => exact hstep _ _ _ ih hlast

/-- The invariant rule, for what also depends on the labels. -/
theorem invariant_labels (P : List ι → σ → Prop) (h₀ : P [] s)
    (hstep : ∀ l t i u, P l t → step t i u → P (l ++ [i]) u) (hrun : Run step s l t) : P l t := by
  induction hrun with
  | refl => exact h₀
  | snoc _ hlast ih => exact hstep _ _ _ _ ih hlast

/-- Runs one after the other. -/
theorem append {l' : List ι} (h : Run step s l t) (h' : Run step t l' u) :
    Run step s (l ++ l') u := by
  induction h' with
  | refl => rwa [List.append_nil]
  | snoc _ hlast ih =>
    rw [← List.append_assoc]
    exact ih.snoc hlast

/-- A run without steps. -/
theorem eq_of_nil (h : Run step s [] t) : t = s := by
  generalize hlabels : ([] : List ι) = labels at h
  cases h with
  | refl => rfl
  | snoc _ _ => exact absurd hlabels (by simp)

/-- A system with more steps has these runs, too. -/
theorem mono {step' : σ → ι → σ → Prop} (h : ∀ t i u, step t i u → step' t i u)
    (hrun : Run step s l t) : Run step' s l t := by
  induction hrun with
  | refl => exact .refl s
  | snoc _ hlast ih => exact ih.snoc (h _ _ _ hlast)

/-- Two systems have the same runs if they have the same steps where an invariant of one of them
holds. -/
theorem congr {step' : σ → ι → σ → Prop} (P : σ → Prop) (h₀ : P s)
    (hstep : ∀ t i u, P t → step t i u → P u) (h : ∀ t i u, P t → (step t i u ↔ step' t i u)) :
    Run step s l t ↔ Run step' s l t := by
  constructor
  · intro hrun
    induction hrun with
    | refl => exact .refl s
    | snoc hinit hlast ih => exact .snoc ih ((h _ _ _ (hinit.invariant P h₀ hstep)).mp hlast)
  · intro hrun
    induction hrun with
    | refl => exact .refl s
    | snoc _ hlast ih => exact .snoc ih ((h _ _ _ (ih.invariant P h₀ hstep)).mpr hlast)

end Run

/-- The invariant rule, for reachable states. -/
theorem Reachable.invariant {step : σ → ι → σ → Prop} {s t : σ} (P : σ → Prop) (h₀ : P s)
    (hstep : ∀ t i u, P t → step t i u → P u) (h : Reachable step s t) : P t := by
  obtain ⟨l, hrun⟩ := h
  exact hrun.invariant P h₀ hstep

/-! ## Measures -/

section Measure

variable {step : σ → ι → σ → Prop} {s t : σ} {l : List ι} (measure : σ → ℕ)

/-- A run whose steps decrease a measure is no longer than the measure says. -/
theorem Run.length_add_measure_le (hstep : ∀ t i u, step t i u → measure u < measure t)
    (hrun : Run step s l t) : l.length + measure t ≤ measure s := by
  induction hrun with
  | refl => simp
  | snoc _ hlast ih =>
    have hlt := hstep _ _ _ hlast
    rw [List.length_append, List.length_singleton]
    omega

/-- Where steps decrease a measure, and only halted states have none, every run can be carried on
until it has halted. -/
theorem Run.exists_halted {halted : σ → Prop}
    (hstep : ∀ t i u, step t i u → measure u < measure t)
    (hprogress : ∀ t, ¬ halted t → ∃ i u, step t i u) (hrun : Run step s l t) :
    ∃ more u, Run step s (l ++ more) u ∧ halted u := by
  induction hm : measure t using Nat.strong_induction_on generalizing t l with
  | _ m ih =>
    by_cases hhalted : halted t
    · exact ⟨[], t, by rwa [List.append_nil], hhalted⟩
    · obtain ⟨i, u, hnext⟩ := hprogress t hhalted
      obtain ⟨more, v, hrun', hv⟩ := ih _ (hm ▸ hstep t i u hnext) (hrun.snoc hnext) rfl
      exact ⟨i :: more, v, by rwa [List.append_assoc] at hrun', hv⟩

end Measure

/-! ## Prophecy -/

section Prophecy

variable {σ' ι' κ : Type*} {step : σ → ι → σ → Prop} {step' : σ' → ι' → σ' → Prop}
  {s₀ s : σ} {s₀' : σ'} {l : List ι} {c : κ}

/-- **The rule of prophecy.**  The states of a system have one of several futures each, and another
system decides earlier than it.  If, for every step and every future of the state after it, there
is a future of the state before it for which the other system can follow, then it can follow every
run. -/
theorem Run.foresee (Future : σ → κ → Prop) (rel : σ → κ → σ' → Prop) (observe : ι → List ι')
    (hstep : ∀ s i t c', step s i t → Future t c' → ∃ c, Future s c ∧
      ∀ s', rel s c s' → ∃ t', Run step' s' (observe i) t' ∧ rel t c' t')
    (h₀ : ∀ c, Future s₀ c → rel s₀ c s₀') (hrun : Run step s₀ l s) (hc : Future s c) :
    ∃ s', Run step' s₀' (l.flatMap observe) s' ∧ rel s c s' := by
  induction hrun generalizing c with
  | refl => exact ⟨s₀', .refl _, h₀ c hc⟩
  | snoc _ hlast ih =>
    -- the future after the last step tells which one to take before it
    obtain ⟨c₁, hc₁, hfollow⟩ := hstep _ _ _ _ hlast hc
    obtain ⟨s', hrun', hrel⟩ := ih hc₁
    obtain ⟨t', hnext, hrel'⟩ := hfollow s' hrel
    refine ⟨t', ?_, hrel'⟩
    rw [List.flatMap_append, List.flatMap_singleton]
    exact hrun'.append hnext

end Prophecy

/-! ## Operations -/

/-- **Which runs keep an invariant.**  If an operation that is performed in a good state leaves a
good state unless it breaks it, then a sequence of operations passes through good states only if
and only if none of them breaks the state in which it is performed. -/
theorem always_iff {perform : σ → ι → σ} {Good : σ → Prop} {Breaks : σ → ι → Prop}
    (hperform : ∀ s i, Good s → (Good (perform s i) ↔ ¬ Breaks s i)) {s : σ} (h₀ : Good s)
    (l : List ι) :
    (∀ made, made <+: l → Good (made.foldl perform s)) ↔
      ∀ made i, made ++ [i] <+: l → ¬ Breaks (made.foldl perform s) i := by
  constructor
  · intro hgood made i hmade
    have hlast := hgood (made ++ [i]) hmade
    rw [List.foldl_append] at hlast
    exact (hperform _ _ (hgood made ((List.prefix_append made [i]).trans hmade))).mp hlast
  · intro hbreaks made hmade
    induction made using List.reverseRecOn with
    | nil => exact h₀
    | append_singleton made i ih =>
      have hinit := ih ((List.prefix_append made [i]).trans hmade)
      rw [List.foldl_append]
      exact (hperform _ _ hinit).mpr (hbreaks made i hmade)

/-! ## Programs -/

/-- The state after `n` steps of a program; a step that fails has none. -/
def execute (step : σ → Option σ) : ℕ → σ → Option σ
  | 0, s => some s
  | n + 1, s => (step s).bind (execute step n)

/-- **The rule of termination.**  A program whose steps do not fail, keep an invariant and
decrease a measure while it has not halted halts within as many steps as the measure says. -/
theorem execute_halts {step : σ → Option σ} {halted P : σ → Prop} (measure : σ → ℕ)
    (hstep : ∀ s, P s → ¬ halted s → ∃ t, step s = some t ∧ P t ∧ measure t < measure s)
    {s : σ} (h₀ : P s) :
    ∃ n ≤ measure s, ∃ t, execute step n s = some t ∧ halted t ∧ P t := by
  induction hm : measure s using Nat.strong_induction_on generalizing s with
  | _ m ih =>
    by_cases hhalted : halted s
    · exact ⟨0, by omega, s, rfl, hhalted, h₀⟩
    · obtain ⟨t, hst, ht, hlt⟩ := hstep s h₀ hhalted
      obtain ⟨n, hn, u, hrun, hu⟩ := ih (measure t) (by omega) ht rfl
      exact ⟨n + 1, by omega, u, by rw [execute, hst, Option.bind_some, hrun], hu⟩

end OhMyMiner.Lib
