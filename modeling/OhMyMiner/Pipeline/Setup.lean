/-
# The buffers of the pipeline

`PipelineManager::initialize` and `PipelineManager::cleanup`
(`src/cuda/pipeline/pipeline_manager.cpp`).  Fourteen vectors are filled in three loops, one entry
for each stream, and `initialized_` is set at the end.  A CUDA call that fails throws, and then
`cleanup` does nothing, so what was created is lost and the entries that were pushed stay.
-/
import OhMyMiner.Lib.Handles
import OhMyMiner.Lib.Grid

namespace OhMyMiner.Pipeline

open Lib

/-! ## The code -/

/-- The vectors of `PipelineManager`. -/
inductive StreamVector where
  | hHeaders
  | hSeedHashes
  | hTargets
  | hSolutionCounts
  | hSolutions
  | dHeaders
  | dSeedHashes
  | dTargets
  | dSolutionCounts
  | dSolutions
  | streams
  | events
  | streamStartEvents
  | streamStopEvents
deriving DecidableEq

/-- The host buffers. -/
def hostVectors : List StreamVector :=
  [.hHeaders, .hSeedHashes, .hTargets, .hSolutionCounts, .hSolutions]

/-- The device buffers. -/
def deviceVectors : List StreamVector :=
  [.dHeaders, .dSeedHashes, .dTargets, .dSolutionCounts, .dSolutions]

/-- The streams and events. -/
def streamVectors : List StreamVector := [.streams, .events, .streamStartEvents, .streamStopEvents]

/-- What `initialize` and `cleanup` use of `PipelineManager`, and the CUDA runtime. -/
@[ext] structure PipelineManager where
  initialized : Bool
  numStreams : ℕ
  streamIdx : ℕ
  entries : StreamVector → List ℕ
  runtime : Runtime

/-- The number of streams; `streamsEnv` is the value of `OHMY_NUM_STREAMS`, if it is set. -/
def streamCount (freeMem : BitVec 64) (streamsEnv : Option ℤ) : ℕ :=
  let availableForStreams := freeMem * 90 / 100
  let optimalStreams := max 2 ((availableForStreams / 640).setWidth 32).toInt
  let optimalStreams := min optimalStreams 8
  let numStreams := streamsEnv.getD optimalStreams
  (max 2 (min numStreams 8)).toNat

/-- The calls of a round of a loop: one handle for each vector, until a call fails.  `ok` says
whether the call that would create a handle succeeds. -/
def acquire (ok : ℕ → Bool) : List StreamVector → Runtime →
    Option (List (StreamVector × ℕ)) × Runtime
  | [], r => (some [], r)
  | v :: group, r =>
    if ok r.next then
      let (created, r') := acquire ok group { r with next := r.next + 1 }
      (created.map ((v, r.next) :: ·), r')
    else (none, r)

namespace PipelineManager

/-- `push_back`. -/
def push (m : PipelineManager) (entry : StreamVector × ℕ) : PipelineManager :=
  { m with entries := Function.update m.entries entry.1 (m.entries entry.1 ++ [entry.2]) }

/-- A round of a loop of `initialize`; `false` if a call throws. -/
def round (ok : ℕ → Bool) (group : List StreamVector) (m : PipelineManager) :
    Bool × PipelineManager :=
  let (created, runtime) := acquire ok group m.runtime
  match created with
  | some created => (true, created.foldl push { m with runtime := runtime })
  | none => (false, { m with runtime := runtime })

/-- Go on, unless a call has thrown. -/
def andThen (result : Bool × PipelineManager)
    (rest : PipelineManager → Bool × PipelineManager) : Bool × PipelineManager :=
  if result.1 then rest result.2 else result

/-- A loop of `initialize`. -/
def rounds (ok : ℕ → Bool) (group : List StreamVector) :
    ℕ → PipelineManager → Bool × PipelineManager
  | 0, m => (true, m)
  | k + 1, m => andThen (m.round ok group) (rounds ok group k)

/-- `initialize`; `false` if it throws. -/
def initializePipeline (m : PipelineManager) (freeMem : BitVec 64) (streamsEnv : Option ℤ)
    (ok : ℕ → Bool) : Bool × PipelineManager :=
  if m.initialized then (true, m)
  else
    let numStreams := streamCount freeMem streamsEnv
    andThen (rounds ok hostVectors numStreams { m with numStreams := numStreams }) fun m =>
      andThen (rounds ok deviceVectors numStreams m) fun m =>
        andThen (rounds ok streamVectors numStreams m) fun m =>
          (true, { m with initialized := true, streamIdx := 0 })

/-- What a loop of `cleanup` frees: the entries of the group, as far as its first vector goes. -/
def freed (m : PipelineManager) (group : List StreamVector) (size : ℕ) : List ℕ :=
  (List.range size).flatMap fun i => group.flatMap fun v => (m.entries v)[i]?.toList

/-- `cleanup`. -/
def cleanup (m : PipelineManager) : PipelineManager :=
  if !m.initialized then m
  else
    { initialized := false, numStreams := 0, streamIdx := 0, entries := fun _ => []
      runtime := { m.runtime with
        released := m.runtime.released ++
          (m.freed hostVectors (m.entries .hHeaders).length ++
            m.freed deviceVectors (m.entries .dHeaders).length ++
            m.freed streamVectors (m.entries .streams).length) } }

/-- A manager without buffers: a new one, or one that `cleanup` has emptied. -/
structure Clean (m : PipelineManager) : Prop where
  uninitialized : m.initialized = false
  entries : ∀ v, m.entries v = []
  past : ∀ handle ∈ m.runtime.released, handle < m.runtime.next

/-- The handle that `initialize` creates for a stream, when the first one is `base`. -/
def createdFor (base numStreams : ℕ) (v : StreamVector) (i : ℕ) : ℕ :=
  if v ∈ hostVectors then base + (i * 5 + hostVectors.idxOf v)
  else if v ∈ deviceVectors then base + numStreams * 5 + (i * 5 + deviceVectors.idxOf v)
  else base + numStreams * 5 + numStreams * 5 + (i * 4 + streamVectors.idxOf v)

/-- Every vector has one entry for each stream, and entry `i` was created for stream `i`. -/
structure Aligned (m : PipelineManager) (base : ℕ) : Prop where
  length : ∀ v, (m.entries v).length = m.numStreams
  entry : ∀ v, ∀ i < m.numStreams, (m.entries v)[i]? = some (createdFor base m.numStreams v i)

/-- After a call of `initialize`, whether it throws or not, `cleanup` releases what it has created,
and every later `initialize` that succeeds leaves the vectors aligned. -/
structure Recovers (m : PipelineManager) (freeMem : BitVec 64) (streamsEnv : Option ℤ)
    (ok : ℕ → Bool) : Prop where
  released : (m.initializePipeline freeMem streamsEnv ok).2.cleanup.runtime.ReleasedOnce
    m.runtime.next
  aligned : ∀ freeMem' streamsEnv' ok' m',
    (m.initializePipeline freeMem streamsEnv ok).2.cleanup.initializePipeline freeMem' streamsEnv'
      ok' = (true, m') →
    m'.Aligned (m.initializePipeline freeMem streamsEnv ok).2.cleanup.runtime.next

/-! ## A round -/

@[simp] lemma andThen_true (m : PipelineManager)
    (rest : PipelineManager → Bool × PipelineManager) : andThen (true, m) rest = rest m := rfl

@[simp] lemma andThen_false (m : PipelineManager)
    (rest : PipelineManager → Bool × PipelineManager) : andThen (false, m) rest = (false, m) := rfl

variable {ok : ℕ → Bool} {group : List StreamVector}

/-- The calls that create the handles `base, …, base + k - 1` succeed. -/
def AllOk (ok : ℕ → Bool) (base k : ℕ) : Prop := ∀ j < k, ok (base + j) = true

/-- The first call that fails would create handle `base + k`. -/
def FailsAt (ok : ℕ → Bool) (base k : ℕ) : Prop := AllOk ok base k ∧ ok (base + k) = false

lemma AllOk.append {base k l : ℕ} (h : AllOk ok base k) (h' : AllOk ok (base + k) l) :
    AllOk ok base (k + l) := by
  intro j hj
  rcases Nat.lt_or_ge j k with hlt | hge
  · exact h j hlt
  · have hok := h' (j - k) (by omega)
    have hindex : base + k + (j - k) = base + j := by omega
    rw [hindex] at hok
    exact hok

lemma FailsAt.shift {base k l : ℕ} (h : AllOk ok base k) (h' : FailsAt ok (base + k) l) :
    FailsAt ok base (k + l) :=
  ⟨h.append h'.1, by rw [← Nat.add_assoc]; exact h'.2⟩

/-- **A round** creates one handle for each vector, or stops at the first call that fails. -/
lemma acquire_cases (ok : ℕ → Bool) (group : List StreamVector) (r : Runtime) :
    (AllOk ok r.next group.length ∧
      acquire ok group r = (some (group.zipIdx r.next), { r with next := r.next + group.length })) ∨
    ∃ k < group.length, FailsAt ok r.next k ∧
      acquire ok group r = (none, { r with next := r.next + k }) := by
  induction group generalizing r with
  | nil => exact Or.inl ⟨fun j hj => absurd hj (Nat.not_lt_zero j), rfl⟩
  | cons v group ih =>
    cases hok : ok r.next with
    | false =>
      refine Or.inr ⟨0, Nat.succ_pos _, ⟨fun j hj => absurd hj (Nat.not_lt_zero j), hok⟩, ?_⟩
      rw [acquire, if_neg (by simp [hok])]
      rfl
    | true =>
      have hfirst : AllOk ok r.next 1 := by
        intro j hj
        obtain rfl : j = 0 := by omega
        exact hok
      rw [acquire, if_pos hok, List.length_cons, Nat.add_comm group.length]
      rcases ih { r with next := r.next + 1 } with ⟨hall, heq⟩ | ⟨k, hk, hfails, heq⟩
      · refine Or.inl ⟨hfirst.append hall, ?_⟩
        rw [heq, List.zipIdx_cons, ← Nat.add_assoc]
        rfl
      · refine Or.inr ⟨1 + k, by omega, hfails.shift hfirst, ?_⟩
        rw [heq, ← Nat.add_assoc]
        rfl

/-- `m` after `k` rounds of a loop. -/
def extend (m : PipelineManager) (group : List StreamVector) (k : ℕ) : PipelineManager :=
  { m with
    entries := fun v =>
      if v ∈ group then
        m.entries v ++
          (List.range k).map fun i => m.runtime.next + (i * group.length + group.idxOf v)
      else m.entries v
    runtime := { m.runtime with next := m.runtime.next + k * group.length } }

lemma foldl_push (hgroup : group.Nodup) (base : ℕ) (m : PipelineManager) :
    (group.zipIdx base).foldl push m =
      { m with
        entries := fun v =>
          if v ∈ group then m.entries v ++ [base + group.idxOf v] else m.entries v } := by
  induction group generalizing base m with
  | nil => rfl
  | cons w group ih =>
    obtain ⟨hw, htail⟩ := List.nodup_cons.mp hgroup
    rw [List.zipIdx_cons, List.foldl_cons, ih htail, push]
    congr 1
    funext v
    dsimp only
    rcases eq_or_ne v w with rfl | hne
    · rw [if_neg hw, if_pos List.mem_cons_self, Function.update_self, List.idxOf_cons_self]
      rfl
    · rw [Function.update_of_ne hne, List.idxOf_cons_ne _ hne.symm]
      have hmem : v ∈ w :: group ↔ v ∈ group := by simp [hne]
      refine if_congr hmem.symm ?_ rfl
      congr 2
      omega

lemma extend_zero (m : PipelineManager) (group : List StreamVector) : m.extend group 0 = m := by
  simp [extend]

/-- A round more. -/
lemma extend_extend (m : PipelineManager) (group : List StreamVector) (k l : ℕ) :
    (m.extend group k).extend group l = m.extend group (k + l) := by
  have hruntime : ((m.extend group k).extend group l).runtime =
      (m.extend group (k + l)).runtime := by
    show Runtime.mk (m.runtime.next + k * group.length + l * group.length) m.runtime.released =
      Runtime.mk (m.runtime.next + (k + l) * group.length) m.runtime.released
    rw [Nat.add_mul, Nat.add_assoc]
  have hentries : ((m.extend group k).extend group l).entries =
      (m.extend group (k + l)).entries := by
    funext v
    simp only [extend]
    by_cases hv : v ∈ group
    · rw [if_pos hv, if_pos hv, if_pos hv, List.append_assoc, List.range_add, List.map_append,
        List.map_map]
      congr 2
      refine List.map_congr_left fun i _ => ?_
      simp only [Function.comp_apply, Nat.add_mul]
      omega
    · rw [if_neg hv, if_neg hv, if_neg hv]
  exact PipelineManager.ext rfl rfl rfl hentries hruntime

/-- `m'` is what is left of `m` when the call fails that would create the next handle but `k`. -/
structure Stopped (m : PipelineManager) (k : ℕ) (m' : PipelineManager) : Prop where
  initialized : m'.initialized = m.initialized
  runtime : m'.runtime = { m.runtime with next := m.runtime.next + k }
  first : k = 0 → m'.entries = m.entries

/-- The managers between two parts of `initialize`. -/
lemma Stopped.trans {m m₁ m₂ : PipelineManager} {k l : ℕ} (h : m.Stopped k m₁)
    (h' : m₁.Stopped l m₂) : m.Stopped (k + l) m₂ where
  initialized := h'.initialized.trans h.initialized
  runtime := by
    rw [h'.runtime, h.runtime, ← Nat.add_assoc]
  first := fun hzero => (h'.first (by omega)).trans (h.first (by omega))

lemma stopped_extend (m : PipelineManager) (group : List StreamVector) (k : ℕ) :
    m.Stopped (k * group.length) (m.extend group k) where
  initialized := rfl
  runtime := rfl
  first := fun hzero => by
    rcases Nat.mul_eq_zero.mp hzero with rfl | hnil
    · rw [extend_zero]
    · rw [List.length_eq_zero_iff.mp hnil]
      simp [extend]

/-- A part of `initialize` that makes `k` calls: it leaves `m₁`, or stops at the first call that
fails. -/
inductive Part (ok : ℕ → Bool) (m : PipelineManager) (k : ℕ) (m₁ : PipelineManager)
    (result : Bool × PipelineManager) : Prop
  | ends (hall : AllOk ok m.runtime.next k) (heq : result = (true, m₁))
  | stops {l : ℕ} {m' : PipelineManager} (hl : l < k) (hfails : FailsAt ok m.runtime.next l)
      (hstopped : m.Stopped l m') (heq : result = (false, m'))

/-- **Two parts** make one. -/
lemma Part.andThen {m m₁ m₂ : PipelineManager} {k l : ℕ} {result : Bool × PipelineManager}
    {rest : PipelineManager → Bool × PipelineManager} (h : Part ok m k m₁ result)
    (hm₁ : m.Stopped k m₁) (hrest : Part ok m₁ l m₂ (rest m₁)) :
    Part ok m (k + l) m₂ (andThen result rest) := by
  cases h with
  | ends hall heq =>
    have hnext : m₁.runtime.next = m.runtime.next + k := by rw [hm₁.runtime]
    rw [heq, andThen_true]
    cases hrest with
    | ends hall' heq' =>
      rw [hnext] at hall'
      exact .ends (hall.append hall') heq'
    | stops hl hfails hstopped heq' =>
      rw [hnext] at hfails
      exact .stops (by omega) (hfails.shift hall) (hm₁.trans hstopped) heq'
  | stops hl hfails hstopped heq =>
    -- the call that fails ends both
    rw [heq, andThen_false]
    exact .stops (by omega) hfails hstopped rfl

lemma part_round (ok : ℕ → Bool) (hgroup : group.Nodup) (m : PipelineManager) :
    Part ok m group.length (m.extend group 1) (m.round ok group) := by
  rw [round]
  rcases acquire_cases ok group m.runtime with ⟨hall, heq⟩ | ⟨l, hl, hfails, heq⟩
  · refine .ends hall ?_
    rw [heq]
    dsimp only
    rw [foldl_push hgroup, extend, Nat.one_mul]
    simp
  · have hstopped : m.Stopped l
        { m with runtime := { m.runtime with next := m.runtime.next + l } } :=
      ⟨rfl, rfl, fun _ => rfl⟩
    refine .stops hl hfails hstopped ?_
    rw [heq]

/-- **A loop** is a part. -/
lemma part_rounds (ok : ℕ → Bool) (hgroup : group.Nodup) (k : ℕ) (m : PipelineManager) :
    Part ok m (k * group.length) (m.extend group k) (rounds ok group k m) := by
  induction k generalizing m with
  | zero =>
    refine .ends (fun j hj => absurd hj (by omega)) ?_
    rw [extend_zero]
    rfl
  | succ k ih =>
    have hfirst := m.stopped_extend group 1
    rw [Nat.one_mul] at hfirst
    have hparts := (part_round ok hgroup m).andThen hfirst (ih (m.extend group 1))
    rw [extend_extend, Nat.add_comm 1] at hparts
    rw [rounds, Nat.succ_mul, Nat.add_comm (k * group.length)]
    exact hparts

/-! ## A call of `initialize` -/

variable {m m' : PipelineManager} {freeMem : BitVec 64} {streamsEnv : Option ℤ}

/-- A manager that has filled all its vectors. -/
def filled (m : PipelineManager) (n : ℕ) : PipelineManager :=
  { ((({ m with numStreams := n }).extend hostVectors n).extend deviceVectors n).extend
      streamVectors n with
    initialized := true
    streamIdx := 0 }

/-- **A call of `initialize`** fills all vectors, or stops at the first call that fails. -/
theorem initializePipeline_cases (h : m.initialized = false) (freeMem : BitVec 64)
    (streamsEnv : Option ℤ) (ok : ℕ → Bool) :
    (AllOk ok m.runtime.next (streamCount freeMem streamsEnv * 14) ∧
      m.initializePipeline freeMem streamsEnv ok =
        (true, m.filled (streamCount freeMem streamsEnv))) ∨
    ∃ k < streamCount freeMem streamsEnv * 14, ∃ m', FailsAt ok m.runtime.next k ∧
      ({ m with numStreams := streamCount freeMem streamsEnv }).Stopped k m' ∧
      m.initializePipeline freeMem streamsEnv ok = (false, m') := by
  rw [initializePipeline, if_neg (by simp [h])]
  generalize streamCount freeMem streamsEnv = n
  dsimp only
  generalize hstart : { m with numStreams := n } = start
  have hnext : m.runtime.next = start.runtime.next := by rw [← hstart]
  have hfilled : { ((start.extend hostVectors n).extend deviceVectors n).extend streamVectors n with
      initialized := true, streamIdx := 0 } = m.filled n := by rw [filled, hstart]
  have htotal : n * 14 = n * hostVectors.length +
      (n * deviceVectors.length + (n * streamVectors.length + 0)) := by
    show n * 14 = n * 5 + (n * 5 + (n * 4 + 0))
    omega
  have hparts : Part ok start (n * 14) (m.filled n)
      (andThen (rounds ok hostVectors n start) fun m =>
        andThen (rounds ok deviceVectors n m) fun m =>
          andThen (rounds ok streamVectors n m) fun m =>
            (true, { m with initialized := true, streamIdx := 0 })) := by
    rw [htotal, ← hfilled]
    refine (part_rounds ok (by decide) n start).andThen (stopped_extend _ _ _) ?_
    refine (part_rounds ok (by decide) n _).andThen (stopped_extend _ _ _) ?_
    refine (part_rounds ok (by decide) n _).andThen (stopped_extend _ _ _) ?_
    -- the last part makes no call
    exact .ends (fun j hj => absurd hj (Nat.not_lt_zero j)) rfl
  rw [hnext]
  cases hparts with
  | ends hall heq => exact Or.inl ⟨hall, heq⟩
  | stops hl hfails hstopped heq => exact Or.inr ⟨_, hl, _, hfails, hstopped, heq⟩

/-! ## What is in the vectors, and what is freed -/

lemma Clean.entries_filled (h : m.Clean) (n : ℕ) (v : StreamVector) :
    (m.filled n).entries v = (List.range n).map (createdFor m.runtime.next n v) := by
  have hrow : (m.filled n).entries v = m.entries v ++ (List.range n).map
      (createdFor m.runtime.next n v) := by
    cases v <;> simp [filled, extend, createdFor, hostVectors, deviceVectors, streamVectors]
  rw [hrow, h.entries v, List.nil_append]

/-- The entries of a group are freed in the order in which they were created. -/
lemma freed_eq {base n start : ℕ} (hentries : ∀ v, m.entries v = (List.range n).map
    (createdFor base n v)) (hgroup : ∀ i, group.map (fun v => createdFor base n v i) =
      (List.range group.length).map fun j => start + (i * group.length + j)) :
    m.freed group n = (List.range (n * group.length)).map (start + ·) := by
  rw [← flatMap_range_map, freed]
  refine List.flatMap_congr fun i hi => ?_
  rw [← hgroup i, List.map_eq_flatMap]
  refine List.flatMap_congr fun v _ => ?_
  rw [hentries, List.getElem?_map, List.getElem?_range (List.mem_range.mp hi)]
  rfl

/-- **`cleanup` frees what `initialize` has created**, in the same order. -/
lemma Clean.cleanup_filled (h : m.Clean) (n : ℕ) :
    (m.filled n).cleanup =
      { initialized := false, numStreams := 0, streamIdx := 0, entries := fun _ => []
        runtime :=
          { next := m.runtime.next + n * 14
            released :=
              m.runtime.released ++ (List.range (n * 14)).map (m.runtime.next + ·) } } := by
  have hentries := h.entries_filled n
  have hlength : ∀ v, ((m.filled n).entries v).length = n := by
    intro v
    rw [hentries, List.length_map, List.length_range]
  have hhost : (m.filled n).freed hostVectors n =
      (List.range (n * 5)).map (m.runtime.next + ·) := freed_eq hentries fun i => rfl
  have hdevice : (m.filled n).freed deviceVectors n =
      (List.range (n * 5)).map (m.runtime.next + n * 5 + ·) := freed_eq hentries fun i => rfl
  have hstream : (m.filled n).freed streamVectors n =
      (List.range (n * 4)).map (m.runtime.next + n * 5 + n * 5 + ·) :=
    freed_eq hentries fun i => rfl
  have hnext : (m.filled n).runtime.next = m.runtime.next + n * 14 := by
    show m.runtime.next + n * 5 + n * 5 + n * 4 = _
    omega
  have htotal : n * 5 + n * 5 + n * 4 = n * 14 := by omega
  have hinitialized : (m.filled n).initialized = true := rfl
  have hreleased : (m.filled n).runtime.released = m.runtime.released := rfl
  rw [cleanup, hinitialized, hlength, hlength, hlength, hhost, hdevice, hstream, map_range_append,
    Nat.add_assoc m.runtime.next, map_range_append, htotal, hreleased, ← hnext]
  rfl

/-- What is left is a manager without buffers, and all handles have been released. -/
lemma Clean.clean_cleanup_filled (h : m.Clean) (n : ℕ) :
    (m.filled n).cleanup.Clean ∧ (m.filled n).cleanup.runtime.ReleasedOnce m.runtime.next := by
  rw [h.cleanup_filled]
  constructor
  · refine ⟨rfl, fun _ => rfl, fun handle hmem => ?_⟩
    show handle < m.runtime.next + n * 14
    rcases List.mem_append.mp hmem with hold | hnew
    · exact Nat.lt_add_right _ (h.past handle hold)
    · obtain ⟨i, hi, rfl⟩ := List.mem_map.mp hnew
      exact Nat.add_lt_add_left (List.mem_range.mp hi) _
  · intro handle hle hlt
    have hlt' : handle < m.runtime.next + n * 14 := hlt
    obtain ⟨i, rfl⟩ := Nat.exists_eq_add_of_le hle
    have hold : m.runtime.next + i ∉ m.runtime.released := fun hmem => by
      have := h.past _ hmem
      omega
    show (m.runtime.released ++ (List.range (n * 14)).map (m.runtime.next + ·)).count _ = 1
    rw [List.count_append, List.count_eq_zero.mpr hold, Nat.zero_add]
    exact count_map_range (fun i _ j _ heq => by omega) (by omega)

/-! ## When a call recovers -/

/-- A manager without buffers fills its vectors for each stream. -/
lemma Clean.aligned (h : m.Clean) {m' : PipelineManager}
    (hinit : m.initializePipeline freeMem streamsEnv ok = (true, m')) :
    m'.Aligned m.runtime.next := by
  rcases initializePipeline_cases h.uninitialized freeMem streamsEnv ok with
    ⟨-, heq⟩ | ⟨k, -, m'', -, -, heq⟩
  · obtain rfl := congrArg Prod.snd (heq.symm.trans hinit)
    have hentries := h.entries_filled (streamCount freeMem streamsEnv)
    constructor
    · intro v
      rw [hentries, List.length_map, List.length_range]
      rfl
    · intro v i hi
      have hi' : i < streamCount freeMem streamsEnv := hi
      rw [hentries, List.getElem?_map, List.getElem?_range hi']
      rfl
  · exact absurd (congrArg Prod.fst (heq.symm.trans hinit)) (by simp)

/-- **When `cleanup` recovers from a failure.**  A manager without buffers recovers from a call of
`initialize` exactly if no CUDA call of it fails, or the first one does. -/
theorem recovers_iff (m : PipelineManager) (h : m.Clean) (freeMem : BitVec 64)
    (streamsEnv : Option ℤ) (ok : ℕ → Bool) :
    m.Recovers freeMem streamsEnv ok ↔
      AllOk ok m.runtime.next (streamCount freeMem streamsEnv * 14) ∨
        ok m.runtime.next = false := by
  rcases initializePipeline_cases h.uninitialized freeMem streamsEnv ok with
    ⟨hall, heq⟩ | ⟨k, hk, m', hfails, hstopped, heq⟩
  · refine iff_of_true ?_ (Or.inl hall)
    obtain ⟨hclean, hreleased⟩ := h.clean_cleanup_filled (streamCount freeMem streamsEnv)
    constructor
    · rw [heq]
      exact hreleased
    · rw [heq]
      exact fun freeMem' streamsEnv' ok' m' hinit => hclean.aligned hinit
  · -- `cleanup` returns at once
    have hkept : m'.cleanup = m' := by
      rw [cleanup, hstopped.initialized, h.uninitialized]
      rfl
    have hruntime : m'.runtime = { m.runtime with next := m.runtime.next + k } := hstopped.runtime
    rcases Nat.eq_zero_or_pos k with rfl | hpos
    · refine iff_of_true ?_ (Or.inr hfails.2)
      have hclean : m'.Clean := by
        refine ⟨hstopped.initialized.trans h.uninitialized, fun v => ?_, ?_⟩
        · rw [hstopped.first rfl]
          exact h.entries v
        · rw [hruntime]
          exact h.past
      constructor
      · rw [heq, hkept, hruntime]
        exact fun handle hle hlt => absurd hlt (Nat.not_lt.mpr hle)
      · rw [heq, hkept]
        exact fun freeMem' streamsEnv' ok' m' hinit => hclean.aligned hinit
    · refine iff_of_false ?_ ?_
      · rintro ⟨hreleased, -⟩
        rw [heq, hkept, hruntime] at hreleased
        have hcount : m.runtime.released.count m.runtime.next = 1 :=
          hreleased m.runtime.next le_rfl (Nat.lt_add_of_pos_right hpos)
        have hmem := List.count_pos_iff.mp (by rw [hcount]; exact one_pos)
        exact absurd (h.past _ hmem) (lt_irrefl _)
      · rintro (hall | hfirst)
        · exact absurd ((hall k hk).symm.trans hfails.2) (by simp)
        · have hok := hfails.1 0 hpos
          exact absurd (hok.symm.trans hfirst) (by simp)

/-! ## A new manager -/

/-- A manager as its constructor leaves it, with a runtime that has created nothing. -/
def fresh : PipelineManager :=
  { initialized := false, numStreams := 0, streamIdx := 0, entries := fun _ => []
    runtime := { next := 0, released := [] } }

lemma clean_fresh : fresh.Clean := ⟨rfl, fun _ => rfl, fun _ hmem => absurd hmem List.not_mem_nil⟩

/-- A new manager recovers when no call fails. -/
theorem recovers_iff_fresh : fresh.Clean ∧ fresh.Recovers 0 (some 2) fun _ => true :=
  ⟨clean_fresh, (recovers_iff fresh clean_fresh 0 (some 2) _).mpr (Or.inl fun _ _ => rfl)⟩

/-- The sixth of the calls for two streams fails: five host buffers are lost, and after the next
`initialize` there are three host headers, but two device headers. -/
theorem not_recovers_sixth :
    (fresh.initializePipeline 0 (some 2) (· != 5)).1 = false ∧
      (fresh.initializePipeline 0 (some 2) (· != 5)).2.cleanup.runtime =
        { next := 5, released := [] } ∧
      ((fresh.initializePipeline 0 (some 2) (· != 5)).2.cleanup.initializePipeline 0 (some 2)
        fun _ => true).2.entries .hHeaders = [0, 5, 10] ∧
      ((fresh.initializePipeline 0 (some 2) (· != 5)).2.cleanup.initializePipeline 0 (some 2)
        fun _ => true).2.entries .dHeaders = [15, 20] ∧
      ¬ fresh.Recovers 0 (some 2) (· != 5) := by
  have hruntime : (fresh.initializePipeline 0 (some 2) (· != 5)).2.cleanup.runtime =
      { next := 5, released := [] } := rfl
  refine ⟨rfl, hruntime, rfl, rfl, ?_⟩
  rintro ⟨hreleased, -⟩
  rw [hruntime] at hreleased
  exact absurd (hreleased 0 le_rfl (by simp)) (by simp)

end PipelineManager

end OhMyMiner.Pipeline
