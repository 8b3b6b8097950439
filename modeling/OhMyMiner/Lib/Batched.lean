/-
# Workers with more than one task

In `Reservation` a thread stores one record or none.  Here a worker has a list of tasks, each with
a record or without, and works through them in order: a task without a record is skipped, and one
with a record takes a slot and fills it before the worker goes on to the next.

The steps of the workers interleave in any way.  Whatever they do is a run of threads, one for
each task; so what is known of the threads holds of the tasks.
-/
import OhMyMiner.Lib.Reservation

namespace OhMyMiner.Lib.Batched

open Reservation

/-- The tasks of every worker, in order; none of them is given out twice. -/
structure Assignment (ω ι : Type*) where
  tasks : ω → List ι
  owner : ι → ω
  nodup : ∀ v, (tasks v).Nodup
  owner_eq : ∀ v, ∀ t ∈ tasks v, owner t = v

/-- A task of another worker is another task. -/
lemma Assignment.ne_of_owner {ω ι : Type*} (assignment : Assignment ω ι) {v : ω} {t t' : ι}
    (htask : t ∈ assignment.tasks v) (h : assignment.owner t' ≠ v) : t' ≠ t := by
  rintro rfl
  exact h (assignment.owner_eq v t' htask)

/-- Where a worker is: before the next of its tasks, or with a slot for a task. -/
inductive Progress (ι W : Type*) where
  | working (todo : List ι)
  | storing (task : ι) (slot : ℕ) (left : List W) (rest : List ι)

/-- The counter, the array and the workers. -/
structure Pool (w : ℕ) (ω ι R W : Type*) where
  counter : BitVec w
  slots : ℕ → R
  progress : ω → Progress ι W

/-- A step of a worker. -/
inductive Action (ω ι W : Type*) where
  | skip (worker : ω) (task : ι)
  | reserve (worker : ω) (task : ι)
  | write (worker : ω) (task : ι) (slot : ℕ) (part : W)
  | next (worker : ω)

/-- What an action is for the threads. -/
def Action.event {ω ι W : Type*} : Action ω ι W → Option (Event ι W)
  | .skip _ _ => none
  | .reserve _ task => some (.reserve task)
  | .write _ task slot part => some (.write task slot part)
  | .next _ => none

/-- What the workers have done, as events of the threads. -/
def threadEvents {ω ι W : Type*} (actions : List (Action ω ι W)) : List (Event ι W) :=
  actions.filterMap Action.event

lemma threadEvents_snoc {ω ι W : Type*} (actions : List (Action ω ι W)) (action : Action ω ι W) :
    threadEvents (actions ++ [action]) = threadEvents actions ++ action.event.toList := by
  cases h : action.event <;> simp [threadEvents, h]

section Steps

variable {w : ℕ} {ω ι R W C : Type*} (layout : Layout R W C) (record : ι → Option R)
  (assignment : Assignment ω ι) (workers : Finset ω) (capacity : ℕ)

/-- Nobody has begun. -/
structure Fresh (p : Pool w ω ι R W) : Prop where
  counter : p.counter = 0
  working : ∀ v, p.progress v = .working (assignment.tasks v)

/-- Every worker has finished. -/
def Done (p : Pool w ω ι R W) : Prop := ∀ v ∈ workers, p.progress v = .working []

/-- All tasks. -/
def threads [DecidableEq ι] : Finset ι := workers.biUnion fun v => (assignment.tasks v).toFinset

variable {assignment workers} in
lemma mem_threads [DecidableEq ι] {t : ι} :
    t ∈ threads assignment workers ↔ ∃ v ∈ workers, t ∈ assignment.tasks v := by
  simp [threads]

variable [DecidableEq ω]

/-- A worker is somewhere else. -/
def Pool.go (p : Pool w ω ι R W) (v : ω) (place : Progress ι W) : Pool w ω ι R W :=
  { p with progress := Function.update p.progress v place }

/-- A worker takes the next slot, for the record of a task. -/
def Pool.take (p : Pool w ω ι R W) (v : ω) (t : ι) (r : R) (rest : List ι) : Pool w ω ι R W :=
  { p.go v (.storing t p.counter.toNat
      (if p.counter.toNat < capacity then layout.writes r else []) rest) with
    counter := p.counter + 1 }

/-- A worker writes a part to its slot. -/
def Pool.store (p : Pool w ω ι R W) (v : ω) (t : ι) (slot : ℕ) (part : W) (left : List W)
    (rest : List ι) : Pool w ω ι R W :=
  { p.go v (.storing t slot left rest) with
    slots := Function.update p.slots slot (layout.write (p.slots slot) part) }

/-- One step of one worker. -/
inductive Step : Pool w ω ι R W → Action ω ι W → Pool w ω ι R W → Prop
  | skip {p : Pool w ω ι R W} {v : ω} {t : ι} {rest : List ι} (hworker : v ∈ workers)
      (hworking : p.progress v = .working (t :: rest)) (hrecord : record t = none) :
      Step p (.skip v t) (p.go v (.working rest))
  | reserve {p : Pool w ω ι R W} {v : ω} {t : ι} {rest : List ι} {r : R} (hworker : v ∈ workers)
      (hworking : p.progress v = .working (t :: rest)) (hrecord : record t = some r) :
      Step p (.reserve v t) (p.take layout capacity v t r rest)
  | write {p : Pool w ω ι R W} {v : ω} {t : ι} {slot : ℕ} {part : W} {left : List W}
      {rest : List ι} (hworker : v ∈ workers)
      (hstoring : p.progress v = .storing t slot (part :: left) rest) :
      Step p (.write v t slot part) (p.store layout v t slot part left rest)
  | next {p : Pool w ω ι R W} {v : ω} {t : ι} {slot : ℕ} {rest : List ι} (hworker : v ∈ workers)
      (hstoring : p.progress v = .storing t slot [] rest) :
      Step p (.next v) (p.go v (.working rest))

section Moves

variable {layout capacity} {p : Pool w ω ι R W} {v v' : ω} {place : Progress ι W}

@[simp] lemma progress_go_self : (p.go v place).progress v = place := Function.update_self ..

lemma progress_go_of_ne (h : v' ≠ v) : (p.go v place).progress v' = p.progress v' :=
  Function.update_of_ne h ..

end Moves

end Steps

/-! ## Workers do what threads do -/

section Simulation

variable {w : ℕ} {ω ι R W C : Type*} {layout : Layout R W C} {record : ι → Option R}
  {assignment : Assignment ω ι} {workers : Finset ω} {capacity : ℕ} {p p' : Pool w ω ι R W}
  {b b' : Buffer w ι R W} {actions : List (Action ω ι W)} {action : Action ω ι W}

/-- A thread has done what there is to do. -/
def Finished (record : ι → Option R) (phase : ι → Phase W) (t : ι) : Prop :=
  (record t).isSome → ∃ slot, phase t = .storing slot []

/-- The threads of some tasks, where a worker with these tasks is. -/
def Tracks (record : ι → Option R) (phase : ι → Phase W) (tasks : List ι) :
    Progress ι W → Prop
  | .working todo => ∃ finished, tasks = finished ++ todo ∧
      (∀ t ∈ finished, Finished record phase t) ∧ ∀ t ∈ todo, phase t = .ready
  | .storing t slot left rest => ∃ finished, tasks = finished ++ t :: rest ∧
      (∀ t ∈ finished, Finished record phase t) ∧ phase t = .storing slot left ∧
      ∀ t ∈ rest, phase t = .ready

/-- Other threads do not matter. -/
lemma Tracks.congr {phase phase' : ι → Phase W} {tasks : List ι} {place : Progress ι W}
    (h : Tracks record phase tasks place) (hphase : ∀ t ∈ tasks, phase' t = phase t) :
    Tracks record phase' tasks place := by
  have hdone : ∀ t ∈ tasks, Finished record phase t → Finished record phase' t := by
    intro t ht hdone hrecord
    rw [hphase t ht]
    exact hdone hrecord
  cases place with
  | working todo =>
    obtain ⟨finished, rfl, hfinished, hready⟩ := h
    refine ⟨finished, rfl, fun t ht => ?_, fun t ht => ?_⟩
    · exact hdone t (List.mem_append_left _ ht) (hfinished t ht)
    · rw [hphase t (List.mem_append_right _ ht), hready t ht]
  | storing task slot left rest =>
    obtain ⟨finished, rfl, hfinished, hstoring, hready⟩ := h
    refine ⟨finished, rfl, fun t ht => ?_, ?_, fun t ht => ?_⟩
    · exact hdone t (List.mem_append_left _ ht) (hfinished t ht)
    · rw [hphase task (by simp), hstoring]
    · rw [hphase t (by simp [ht]), hready t ht]

/-- A thread of a task that has not been begun goes on, and is the one being stored. -/
lemma Tracks.update [DecidableEq ι] {phase : ι → Phase W} {finished rest : List ι} {t : ι}
    {slot : ℕ} {left : List W} (hnodup : (finished ++ t :: rest).Nodup)
    (hfinished : ∀ t ∈ finished, Finished record phase t) (hready : ∀ t ∈ rest, phase t = .ready) :
    Tracks record (Function.update phase t (.storing slot left)) (finished ++ t :: rest)
      (.storing t slot left rest) := by
  obtain ⟨-, hrest, hdisjoint⟩ := List.nodup_append.mp hnodup
  refine ⟨finished, rfl, fun t' ht' => ?_, Function.update_self .., fun t' ht' => ?_⟩
  · rw [Finished, Function.update_of_ne (hdisjoint t' ht' t List.mem_cons_self)]
    exact hfinished t' ht'
  · have hne : t' ≠ t := by
      rintro rfl
      exact (List.nodup_cons.mp hrest).1 ht'
    rw [Function.update_of_ne hne, hready t' ht']

/-- The threads are where the workers are. -/
structure Abstracts (record : ι → Option R) (assignment : Assignment ω ι) (p : Pool w ω ι R W)
    (b : Buffer w ι R W) : Prop where
  counter : b.counter = p.counter
  slots : b.slots = p.slots
  tracks : ∀ v, Tracks record b.phase (assignment.tasks v) (p.progress v)

namespace Abstracts

/-- The threads before they begin. -/
lemma initial (hfresh : Fresh assignment p) :
    Abstracts record assignment p { counter := 0, slots := p.slots, phase := fun _ => .ready } where
  counter := hfresh.counter.symm
  slots := rfl
  tracks v := by
    rw [hfresh.working v]
    exact ⟨[], rfl, fun t ht => absurd ht List.not_mem_nil, fun _ _ => rfl⟩

/-- The workers have finished when the threads have. -/
lemma done [DecidableEq ι] (h : Abstracts record assignment p b) (hdone : Done workers p) :
    Reservation.Done record (threads assignment workers) b := by
  intro t ht
  obtain ⟨v, hv, htask⟩ := mem_threads.mp ht
  have htracks := h.tracks v
  rw [hdone v hv] at htracks
  obtain ⟨finished, htasks, hfinished, -⟩ := htracks
  rw [htasks, List.append_nil] at htask
  exact hfinished t htask

variable [DecidableEq ω]

/-- The threads of one worker change, and that is where it is then. -/
lemma tracks_go {v : ω} {place : Progress ι W} (h : Abstracts record assignment p b)
    (hother : ∀ t, assignment.owner t ≠ v → b'.phase t = b.phase t)
    (hplace : Tracks record b'.phase (assignment.tasks v) place) (v' : ω) :
    Tracks record b'.phase (assignment.tasks v') ((p.go v place).progress v') := by
  rcases eq_or_ne v' v with rfl | hne
  · rw [progress_go_self]
    exact hplace
  · rw [progress_go_of_ne hne]
    refine (h.tracks v').congr fun t ht => hother t ?_
    rwa [assignment.owner_eq v' t ht]

/-- A worker moves on, and no thread does anything. -/
lemma go {v : ω} {place : Progress ι W} (h : Abstracts record assignment p b)
    (hplace : Tracks record b.phase (assignment.tasks v) place) :
    Abstracts record assignment (p.go v place) b where
  counter := h.counter
  slots := h.slots
  tracks := h.tracks_go (fun _ _ => rfl) hplace

variable [DecidableEq ι] {v : ω} {t : ι} {slot : ℕ} {part : W} {left : List W} {rest : List ι}
  {r : R}

/-- The thread of the next task takes a slot. -/
lemma take (h : Abstracts record assignment p b) (hworking : p.progress v = .working (t :: rest)) :
    t ∈ assignment.tasks v ∧ b.phase t = .ready ∧
      Abstracts record assignment (p.take layout capacity v t r rest)
        (b.take layout capacity t r) := by
  have htracks := h.tracks v
  rw [hworking] at htracks
  obtain ⟨finished, htasks, hfinished, hready⟩ := htracks
  have htask : t ∈ assignment.tasks v := by simp [htasks]
  refine ⟨htask, hready t List.mem_cons_self, ?_, h.slots, h.tracks_go (fun t' ht' => ?_) ?_⟩
  · show b.counter + 1 = p.counter + 1
    rw [h.counter]
  · exact phase_take_of_ne (assignment.ne_of_owner htask ht')
  · rw [htasks, ← h.counter]
    exact Tracks.update (htasks ▸ assignment.nodup v) hfinished fun t' ht' =>
      hready t' (List.mem_cons_of_mem _ ht')

/-- The thread of the task that is being stored writes. -/
lemma store (h : Abstracts record assignment p b)
    (hstoring : p.progress v = .storing t slot (part :: left) rest) :
    t ∈ assignment.tasks v ∧ b.phase t = .storing slot (part :: left) ∧
      Abstracts record assignment (p.store layout v t slot part left rest)
        (b.store layout t slot part left) := by
  have htracks := h.tracks v
  rw [hstoring] at htracks
  obtain ⟨finished, htasks, hfinished, hphase, hready⟩ := htracks
  have htask : t ∈ assignment.tasks v := by simp [htasks]
  refine ⟨htask, hphase, h.counter, ?_, h.tracks_go (fun t' ht' => ?_) ?_⟩
  · show Function.update b.slots slot (layout.write (b.slots slot) part) = _
    rw [h.slots]
    rfl
  · exact phase_store_of_ne (assignment.ne_of_owner htask ht')
  · rw [htasks]
    exact Tracks.update (htasks ▸ assignment.nodup v) hfinished hready

end Abstracts

variable [DecidableEq ω] [DecidableEq ι]

/-- **A step of a worker is a step of the thread of one of its tasks, or no step.** -/
lemma Abstracts.step (h : Abstracts record assignment p b)
    (hstep : Step layout record workers capacity p action p') :
    ∃ b', Abstracts record assignment p' b' ∧ match action.event with
      | none => b' = b
      | some event =>
        Reservation.Step layout record (threads assignment workers) capacity b event b' := by
  cases hstep with
  | @skip v t rest hworker hworking hrecord =>
    -- the thread of a task without a record does nothing
    have htracks := h.tracks v
    rw [hworking] at htracks
    obtain ⟨finished, htasks, hfinished, hready⟩ := htracks
    refine ⟨b, h.go ⟨finished ++ [t], by simp [htasks], fun t' ht' => ?_, fun t' ht' => ?_⟩, rfl⟩
    · rcases List.mem_append.mp ht' with ht' | ht'
      · exact hfinished t' ht'
      · rw [List.mem_singleton.mp ht', Finished, hrecord]
        exact fun hsome => absurd hsome Bool.false_ne_true
    · exact hready t' (List.mem_cons_of_mem _ ht')
  | reserve hworker hworking hrecord =>
    obtain ⟨htask, hready, hnext⟩ := h.take hworking
    exact ⟨_, hnext, .reserve (mem_threads.mpr ⟨_, hworker, htask⟩) hready hrecord⟩
  | write hworker hstoring =>
    obtain ⟨htask, hphase, hnext⟩ := h.store hstoring
    exact ⟨_, hnext, .write (mem_threads.mpr ⟨_, hworker, htask⟩) hphase⟩
  | @next v t slot rest hworker hstoring =>
    -- all writes are done, so the thread has finished
    have htracks := h.tracks v
    rw [hstoring] at htracks
    obtain ⟨finished, htasks, hfinished, hphase, hready⟩ := htracks
    refine ⟨b, h.go ⟨finished ++ [t], by simp [htasks], fun t' ht' => ?_, hready⟩, rfl⟩
    rcases List.mem_append.mp ht' with ht' | ht'
    · exact hfinished t' ht'
    · rw [List.mem_singleton.mp ht']
      exact fun _ => ⟨slot, hphase⟩

/-- **A run of the workers is a run of the threads.** -/
theorem run_threads {p₀ : Pool w ω ι R W} (hfresh : Fresh assignment p₀)
    (hrun : Run (Step layout record workers capacity) p₀ actions p) :
    ∃ b, Run (Reservation.Step layout record (threads assignment workers) capacity)
        { counter := 0, slots := p₀.slots, phase := fun _ => .ready } (threadEvents actions) b ∧
      Abstracts record assignment p b := by
  induction hrun with
  | refl => exact ⟨_, .refl _, .initial hfresh⟩
  | @snoc p p' actions action hinit hstep ih =>
    obtain ⟨b, hthreads, habstracts⟩ := ih
    obtain ⟨b', habstracts', hevent⟩ := habstracts.step hstep
    rw [threadEvents_snoc]
    cases haction : action.event with
    | none =>
      rw [haction] at hevent
      subst hevent
      exact ⟨b', by rwa [Option.toList_none, List.append_nil], habstracts'⟩
    | some event =>
      rw [haction] at hevent
      exact ⟨b', hthreads.snoc hevent, habstracts'⟩

omit [DecidableEq ι] in
/-- Without workers nothing happens. -/
lemma eq_of_run_empty {p₀ : Pool w ω ι R W}
    (hrun : Run (Step layout record ∅ capacity) p₀ actions p) : p = p₀ := by
  have hstep : ∀ {q q' : Pool w ω ι R W} {action : Action ω ι W},
      ¬ Step layout record ∅ capacity q action q' := by
    intro q q' action h
    cases h with
    | skip hworker | reserve hworker | write hworker | next hworker =>
      exact absurd hworker (Finset.notMem_empty _)
  cases hrun with
  | refl => rfl
  | snoc _ h => exact absurd h hstep

/-- **What is stored.**  Once all workers have finished, the tasks with a record have taken one
slot each, the counter is their number, and the slots hold their records. -/
theorem done_of_run {p₀ : Pool w ω ι R W} (hfresh : Fresh assignment p₀)
    (hcard : (passing record (threads assignment workers)).card < 2 ^ w)
    (hrun : Run (Step layout record workers capacity) p₀ actions p) (hdone : Done workers p) :
    let order := reserved (threadEvents actions)
    order.Nodup ∧ (∀ t, t ∈ order ↔ t ∈ passing record (threads assignment workers)) ∧
      order.length = (passing record (threads assignment workers)).card ∧
      p.counter.toNat = (passing record (threads assignment workers)).card ∧
      ∀ i t, i < capacity → order[i]? = some t → record t = some (p.slots i) := by
  obtain ⟨b, hthreads, habstracts⟩ := run_threads hfresh hrun
  have hstored := Reservation.done_of_run ⟨rfl, fun _ => rfl⟩ hcard hthreads
    (habstracts.done hdone)
  rwa [habstracts.counter, habstracts.slots] at hstored

end Simulation

/-! ## Every run ends -/

section Ends

variable {w : ℕ} {ω ι R W C : Type*} {layout : Layout R W C} {record : ι → Option R}
  {workers : Finset ω} {capacity : ℕ} {p p' : Pool w ω ι R W} {action : Action ω ι W}

/-- The number of steps for a task, at most. -/
def taskSteps (layout : Layout R W C) (record : ι → Option R) (t : ι) : ℕ :=
  (record t).elim 1 fun r => (layout.writes r).length + 2

/-- The number of steps that a worker still has to take, at most. -/
def remaining (layout : Layout R W C) (record : ι → Option R) : Progress ι W → ℕ
  | .working todo => (todo.map (taskSteps layout record)).sum
  | .storing _ _ left rest => left.length + 1 + (rest.map (taskSteps layout record)).sum

variable [DecidableEq ω]

lemma sum_go_lt {v : ω} {place : Progress ι W} (hworker : v ∈ workers)
    (hlt : remaining layout record place < remaining layout record (p.progress v)) :
    ∑ v' ∈ workers, remaining layout record ((p.go v place).progress v') <
      ∑ v' ∈ workers, remaining layout record (p.progress v') := by
  refine Finset.sum_lt_sum (fun v' _ => ?_) ⟨v, hworker, by rwa [progress_go_self]⟩
  rcases eq_or_ne v' v with rfl | hne
  · rw [progress_go_self]
    exact hlt.le
  · rw [progress_go_of_ne hne]

/-- A step brings its worker forward. -/
lemma sum_remaining_lt (hstep : Step layout record workers capacity p action p') :
    ∑ v ∈ workers, remaining layout record (p'.progress v) <
      ∑ v ∈ workers, remaining layout record (p.progress v) := by
  cases hstep with
  | skip hworker hworking hrecord =>
    refine sum_go_lt hworker ?_
    rw [hworking, remaining, remaining, List.map_cons, List.sum_cons, taskSteps, hrecord]
    exact Nat.lt_add_of_pos_left Nat.one_pos
  | reserve hworker hworking hrecord =>
    refine sum_go_lt hworker ?_
    rw [hworking, remaining, remaining, List.map_cons, List.sum_cons, taskSteps, hrecord]
    dsimp only [Option.elim]
    split
    · omega
    · simp
  | write hworker hstoring =>
    refine sum_go_lt hworker ?_
    rw [hstoring, remaining, remaining, List.length_cons]
    omega
  | next hworker hstoring =>
    refine sum_go_lt hworker ?_
    rw [hstoring, remaining, remaining]
    simp

/-- A worker that has not finished can take a step. -/
lemma exists_step (h : ¬ Done workers p) :
    ∃ action p', Step layout record workers capacity p action p' := by
  rw [Done] at h
  push Not at h
  obtain ⟨v, hworker, hunfinished⟩ := h
  cases hplace : p.progress v with
  | working todo =>
    cases todo with
    | nil => exact absurd hplace hunfinished
    | cons t rest =>
      cases hrecord : record t with
      | none => exact ⟨_, _, .skip hworker hplace hrecord⟩
      | some r => exact ⟨_, _, .reserve hworker hplace hrecord⟩
  | storing t slot left rest =>
    cases left with
    | nil => exact ⟨_, _, .next hworker hplace⟩
    | cons part left => exact ⟨_, _, .write hworker hplace⟩

/-- **Every run ends**: it is no longer than what the workers have to do, and can be carried on
until all of them have finished. -/
theorem ends_of_run {p₀ : Pool w ω ι R W} {actions : List (Action ω ι W)}
    (hrun : Run (Step layout record workers capacity) p₀ actions p) :
    actions.length ≤ ∑ v ∈ workers, remaining layout record (p₀.progress v) ∧
      ∃ more p', Run (Step layout record workers capacity) p₀ (actions ++ more) p' ∧
        Done workers p' := by
  have hdecreases : ∀ (p : Pool w ω ι R W) action p',
      Step layout record workers capacity p action p' →
        ∑ v ∈ workers, remaining layout record (p'.progress v) <
          ∑ v ∈ workers, remaining layout record (p.progress v) :=
    fun _ _ _ => sum_remaining_lt
  have hlength := hrun.length_add_measure_le _ hdecreases
  exact ⟨by omega, hrun.exists_halted _ hdecreases fun _ => exists_step⟩

end Ends

end OhMyMiner.Lib.Batched
