/-
# The resources of a device

`DeviceInitializer::initDevice` (`src/cuda/modules/device_initializer.cu`) and
`DeviceState::cleanup` (`src/cuda/core/device_state.cpp`).  The list of what is released leaves out
the two solution buffers, so they are lost whenever the first of them has been allocated.
-/
import OhMyMiner.Lib.Handles
import Mathlib.Data.List.TakeWhile

namespace OhMyMiner.Engine

open Lib

/-! ## The code -/

/-- The handle fields of `DeviceState`. -/
inductive DeviceHandle where
  | dDag
  | dHeader
  | dSeedHash
  | dTarget
  | dSolutions
  | dSolutionCount
  | streamCompute
  | streamMemory
  | streamIo
  | startEvent
  | stopEvent
  | memoryDoneEvent
  | kernelDoneEvent
  | resultsDoneEvent
deriving DecidableEq

/-- `DeviceState`, without what `initDevice` and `cleanup` do not use. -/
structure DeviceState where
  initialized : Bool
  handles : Owner DeviceHandle

/-- A CUDA call of `initDevice`. -/
inductive InitCall where
  | setDevice
  | create (handle : DeviceHandle)
  | memcpyDag

namespace DeviceState

/-- A new state, whose runtime has created `base` handles for others. -/
def fresh (base : ℕ) : DeviceState :=
  { initialized := false, handles := Owner.empty DeviceHandle base }

/-- A call that succeeds. -/
def call (state : DeviceState) : InitCall → DeviceState
  | .create handle => { state with handles := state.handles.create handle }
  | .setDevice => state
  | .memcpyDag => state

/-- The calls of `initDevice` before the first solution buffer is allocated. -/
def earlyCalls : List InitCall :=
  [.setDevice, .create .dDag, .memcpyDag, .create .dHeader, .create .dSeedHash, .create .dTarget]

/-- The calls of `initDevice` after it. -/
def lateCalls : List InitCall :=
  [.create .dSolutionCount, .create .streamCompute, .create .streamMemory, .create .streamIo,
    .create .startEvent, .create .stopEvent, .create .memoryDoneEvent, .create .kernelDoneEvent,
    .create .resultsDoneEvent]

/-- The calls of `initDevice`, in their order. -/
def initCalls : List InitCall := earlyCalls ++ .create .dSolutions :: lateCalls

/-- Calls one after the other, until one fails. -/
def runCalls (ok : InitCall → Bool) : List InitCall → DeviceState → Bool × DeviceState
  | [], state => (true, state)
  | call :: calls, state => if ok call then runCalls ok calls (state.call call) else (false, state)

/-- What `cleanup` releases, in its order. -/
def cleanupHandles : List DeviceHandle :=
  [.dDag, .dHeader, .dSeedHash, .dTarget, .streamCompute, .streamMemory, .streamIo, .startEvent,
    .stopEvent, .memoryDoneEvent, .kernelDoneEvent, .resultsDoneEvent]

/-- `cleanup`. -/
def cleanup (state : DeviceState) : DeviceState :=
  { initialized := false, handles := cleanupHandles.foldl Owner.release state.handles }

/-- `initDevice`; `ok` says which calls succeed. -/
def initDevice (ok : InitCall → Bool) (state : DeviceState) : Bool × DeviceState :=
  let (succeeded, state) := runCalls ok initCalls state
  if succeeded then (true, { state with initialized := true }) else (false, state.cleanup)

/-- All that was created from `base` on has been released exactly once, no field holds a handle,
and however often `cleanup` runs again, it releases nothing. -/
structure CleanedUp (state : DeviceState) (base : ℕ) : Prop where
  once : state.handles.ReleasedOnce base
  null : ∀ handle, state.handles.held handle = none
  final : ∀ k, (cleanup^[k] state).handles.released = state.handles.released

/-! ## What is created -/

/-- The fields for which the calls create handles. -/
def createdBy (calls : List InitCall) : List DeviceHandle :=
  calls.filterMap fun
    | .create handle => some handle
    | _ => none

lemma runCalls_handles (ok : InitCall → Bool) (calls : List InitCall) (state : DeviceState) :
    (runCalls ok calls state).2.handles =
      (createdBy (calls.takeWhile ok)).foldl Owner.create state.handles := by
  induction calls generalizing state with
  | nil => rfl
  | cons call calls ih =>
    rw [runCalls]
    by_cases hok : ok call = true
    · rw [if_pos hok, ih, List.takeWhile_cons_of_pos hok]
      cases call <;> rfl
    · rw [if_neg hok, List.takeWhile_cons_of_neg hok]
      rfl

/-- After `cleanup`, it does not matter that `initDevice` may have called it already. -/
lemma initDevice_cleanup_handles (ok : InitCall → Bool) (state : DeviceState) :
    (initDevice ok state).2.cleanup.handles =
      cleanupHandles.foldl Owner.release
        ((createdBy (initCalls.takeWhile ok)).foldl Owner.create state.handles) := by
  rw [← runCalls_handles ok initCalls state, initDevice]
  dsimp only
  split
  · rfl
  · exact Owner.foldl_release_twice _ _

/-- What is created is released, as long as there is no solution buffer. -/
lemma createdBy_subset_iff (ok : InitCall → Bool) :
    createdBy (initCalls.takeWhile ok) ⊆ cleanupHandles ↔
      (∃ call ∈ earlyCalls, ok call = false) ∨ ok (.create .dSolutions) = false := by
  have hearly : createdBy earlyCalls ⊆ cleanupHandles := by decide
  by_cases hall : ∀ call ∈ earlyCalls, ok call = true
  · have hnone : ¬ ∃ call ∈ earlyCalls, ok call = false := by
      rintro ⟨call, hmem, hfails⟩
      exact absurd ((hall call hmem).symm.trans hfails) (by simp)
    rw [or_iff_right hnone, initCalls, List.takeWhile_append_of_pos hall]
    cases hsolutions : ok (.create .dSolutions) with
    | true =>
      rw [List.takeWhile_cons_of_pos hsolutions]
      refine iff_of_false (fun hsubset => ?_) (by simp)
      have hcreated : DeviceHandle.dSolutions ∈ cleanupHandles :=
        hsubset (List.mem_filterMap.mpr ⟨.create .dSolutions, by simp, rfl⟩)
      exact absurd hcreated (by decide)
    | false =>
      rw [List.takeWhile_cons_of_neg (by simp [hsolutions]), List.append_nil]
      exact iff_of_true hearly rfl
  · push Not at hall
    obtain ⟨call, hmem, hfails⟩ := hall
    have hfalse : ok call = false := by simpa using hfails
    refine iff_of_true ?_ (Or.inl ⟨call, hmem, hfalse⟩)
    -- the calls end before the first solution buffer
    have hstops : initCalls.takeWhile ok = earlyCalls.takeWhile ok := by
      rw [initCalls, List.takeWhile_append, if_neg]
      intro hlength
      have heq := (List.takeWhile_prefix ok).eq_of_length hlength
      rw [← heq] at hmem
      exact hfails (List.mem_takeWhile_imp hmem)
    rw [hstops]
    exact fun handle hcreated =>
      hearly (((List.takeWhile_sublist ok).filterMap _).subset hcreated)

/-- **When a device is cleaned up.**  Whichever calls of `initDevice` fail, `cleanup` releases all
that was created, each handle once, and empties all fields, exactly if a call up to the allocation
of the first solution buffer fails. -/
theorem cleanedUp_iff (base : ℕ) (ok : InitCall → Bool) :
    (initDevice ok (fresh base)).2.cleanup.CleanedUp base ↔
      (∃ call ∈ earlyCalls, ok call = false) ∨ ok (.create .dSolutions) = false := by
  have hnodup : (createdBy (initCalls.takeWhile ok)).Nodup := by
    have hall : (createdBy initCalls).Nodup := by decide
    exact hall.sublist ((List.takeWhile_sublist ok).filterMap _)
  have hcleanup : cleanupHandles.Nodup := by decide
  have hhandles := initDevice_cleanup_handles ok (fresh base)
  rw [← createdBy_subset_iff, ← Owner.releasedOnce_iff base hnodup hcleanup]
  constructor
  · rintro ⟨honce, hnull, -⟩
    rw [hhandles] at honce hnull
    exact ⟨honce, hnull⟩
  · rintro ⟨honce, hnull⟩
    refine ⟨?_, ?_, ?_⟩
    · rw [hhandles]
      exact honce
    · rw [hhandles]
      exact hnull
    · intro k
      have hfixed : (initDevice ok (fresh base)).2.cleanup.cleanup =
          (initDevice ok (fresh base)).2.cleanup :=
        congrArg (DeviceState.mk false) (Owner.foldl_release_twice _ _)
      rw [Function.iterate_fixed hfixed]

/-- When all calls succeed, `cleanup` leaves the two solution buffers. -/
theorem not_cleanedUp_ok :
    (initDevice (fun _ => true) (fresh 0)).1 = true ∧
      (initDevice (fun _ => true) (fresh 0)).2.cleanup.handles.held .dSolutions = some 4 ∧
      4 ∉ (initDevice (fun _ => true) (fresh 0)).2.cleanup.handles.released ∧
      ¬ (initDevice (fun _ => true) (fresh 0)).2.cleanup.CleanedUp 0 := by
  have hheld : (initDevice (fun _ => true) (fresh 0)).2.cleanup.handles.held .dSolutions =
      some 4 := by decide
  refine ⟨rfl, hheld, by decide, fun hcleaned => ?_⟩
  exact absurd (hheld.symm.trans (hcleaned.null .dSolutions)) (by simp)

end DeviceState

end OhMyMiner.Engine
