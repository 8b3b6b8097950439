/-
# Reading a stream in chunks

A transducer reads a stream symbol by symbol, keeps a state and emits outputs.  A reader that
carries the state from one chunk of the stream to the next emits the outputs of the stream,
however it is cut.  A reader that starts afresh with every chunk emits them only if no chunk but
the last leaves the transducer in the middle of something.
-/
import Mathlib.Tactic

namespace OhMyMiner.Lib

/-- A transducer with states `σ`, inputs `α` and outputs `β`. -/
structure Transducer (σ α β : Type*) where
  /-- The state at the start of a stream. -/
  start : σ
  /-- One symbol: the next state and what is emitted. -/
  step : σ → α → σ × List β

namespace Transducer

variable {σ α β : Type*} (T : Transducer σ α β)

/-- Read a string from a state. -/
def feed : σ → List α → σ × List β
  | s, [] => (s, [])
  | s, a :: w => ((feed (T.step s a).1 w).1, (T.step s a).2 ++ (feed (T.step s a).1 w).2)

/-- The outputs of a stream. -/
def outputs (w : List α) : List β := (T.feed T.start w).2

/-- The stream ends between two outputs, where a fresh reader can take over. -/
def EndsAtStart (w : List α) : Prop := (T.feed T.start w).1 = T.start

@[simp] lemma feed_nil (s : σ) : T.feed s [] = (s, []) := rfl

lemma feed_cons (s : σ) (a : α) (w : List α) :
    T.feed s (a :: w) =
      ((T.feed (T.step s a).1 w).1, (T.step s a).2 ++ (T.feed (T.step s a).1 w).2) := rfl

/-- The state is carried across a cut. -/
lemma feed_append (s : σ) (v w : List α) :
    T.feed s (v ++ w) =
      ((T.feed (T.feed s v).1 w).1, (T.feed s v).2 ++ (T.feed (T.feed s v).1 w).2) := by
  induction v generalizing s with
  | nil => simp
  | cons a v ih => rw [List.cons_append, feed_cons, ih, feed_cons, List.append_assoc]

lemma outputs_append {v : List α} (h : T.EndsAtStart v) (w : List α) :
    T.outputs (v ++ w) = T.outputs v ++ T.outputs w := by
  rw [outputs, feed_append, h]
  rfl

/-- What has been emitted stays emitted. -/
lemma outputs_prefix (v w : List α) : T.outputs v <+: T.outputs (v ++ w) := by
  rw [outputs, outputs, feed_append]
  exact List.prefix_append _ _

/-- **A reader that starts afresh with every chunk** emits the outputs of the whole stream if
every chunk but the last ends where a fresh reader can take over. -/
theorem flatMap_outputs {chunks : List (List α)}
    (h : ∀ c ∈ chunks.dropLast, T.EndsAtStart c) :
    chunks.flatMap T.outputs = T.outputs chunks.flatten := by
  induction chunks with
  | nil => rfl
  | cons c chunks ih =>
    rw [List.flatMap_cons, List.flatten_cons]
    rcases chunks with _ | ⟨d, chunks⟩
    · simp
    · rw [List.dropLast_cons_cons] at h
      rw [outputs_append T (h c List.mem_cons_self),
        ih fun e he => h e (List.mem_cons_of_mem c he)]

end Transducer

end OhMyMiner.Lib
