/-
# Slots from a counter

Threads store records in an array.  A thread takes the next slot from a counter that they share,
and fills the slot afterwards, one write after the other; what the counter hands out beyond the
capacity of the array is not used.  The steps of the threads interleave in any way.  Once all of
them have finished, the slots hold the complete records of different threads, and as many as fit.
-/
import OhMyMiner.Lib.Transition

namespace OhMyMiner.Lib.Reservation

/-- How a record is stored: in parts, each written to a cell of its own. -/
structure Layout (R W C : Type*) where
  write : R → W → R
  writes : R → List W
  cell : W → C
  complete : ∀ old r, (writes r).foldl write old = r
  nodup : ∀ r, ((writes r).map cell).Nodup

/-- Where a thread is: before the counter, or with a slot and what is left to be written to it. -/
inductive Phase (W : Type*) where
  | ready
  | storing (slot : ℕ) (left : List W)

/-- The counter, the array and the threads. -/
structure Buffer (w : ℕ) (ι R W : Type*) where
  counter : BitVec w
  slots : ℕ → R
  phase : ι → Phase W

/-- A step of a thread. -/
inductive Event (ι W : Type*) where
  | reserve (thread : ι)
  | write (thread : ι) (slot : ℕ) (part : W)

/-- Nobody has taken a slot. -/
structure Fresh {w : ℕ} {ι R W : Type*} (s : Buffer w ι R W) : Prop where
  counter : s.counter = 0
  ready : ∀ t, s.phase t = .ready

section Steps

variable {w : ℕ} {ι R W C : Type*} (layout : Layout R W C) (record : ι → Option R)
  (threads : Finset ι) (capacity : ℕ)

/-- Every thread with a record has finished. -/
def Done (s : Buffer w ι R W) : Prop :=
  ∀ t ∈ threads, (record t).isSome → ∃ slot, s.phase t = .storing slot []

/-- The threads with a record. -/
def passing : Finset ι := threads.filter fun t => (record t).isSome

variable {record threads} in
lemma mem_passing {t : ι} : t ∈ passing record threads ↔ t ∈ threads ∧ ∃ r, record t = some r := by
  rw [passing, Finset.mem_filter, Option.isSome_iff_exists]

variable [DecidableEq ι]

/-- A thread takes the next slot, for a record. -/
def Buffer.take (s : Buffer w ι R W) (t : ι) (r : R) : Buffer w ι R W :=
  { s with
    counter := s.counter + 1
    phase := Function.update s.phase t (.storing s.counter.toNat
      (if s.counter.toNat < capacity then layout.writes r else [])) }

/-- A thread writes a part to its slot, and has others left. -/
def Buffer.store (s : Buffer w ι R W) (t : ι) (slot : ℕ) (part : W) (left : List W) :
    Buffer w ι R W :=
  { s with
    slots := Function.update s.slots slot (layout.write (s.slots slot) part)
    phase := Function.update s.phase t (.storing slot left) }

/-- One step of one thread.  The counter is read and incremented at once. -/
inductive Step : Buffer w ι R W → Event ι W → Buffer w ι R W → Prop
  | reserve {s : Buffer w ι R W} {t : ι} {r : R} (hthread : t ∈ threads)
      (hready : s.phase t = .ready) (hrecord : record t = some r) :
      Step s (.reserve t) (s.take layout capacity t r)
  | write {s : Buffer w ι R W} {t : ι} {slot : ℕ} {part : W} {left : List W}
      (hthread : t ∈ threads) (hstoring : s.phase t = .storing slot (part :: left)) :
      Step s (.write t slot part) (s.store layout t slot part left)

section Phases

variable {layout capacity} {s : Buffer w ι R W} {t t' : ι} {r : R} {i slot : ℕ} {part : W}
  {left : List W}

lemma phase_take_self : (s.take layout capacity t r).phase t =
    .storing s.counter.toNat (if s.counter.toNat < capacity then layout.writes r else []) :=
  Function.update_self ..

lemma phase_take_of_ne (h : t' ≠ t) : (s.take layout capacity t r).phase t' = s.phase t' :=
  Function.update_of_ne h ..

lemma phase_store_self : (s.store layout t slot part left).phase t = .storing slot left :=
  Function.update_self ..

lemma phase_store_of_ne (h : t' ≠ t) : (s.store layout t slot part left).phase t' = s.phase t' :=
  Function.update_of_ne h ..

lemma slots_store_self :
    (s.store layout t slot part left).slots slot = layout.write (s.slots slot) part :=
  Function.update_self ..

lemma slots_store_of_ne (h : i ≠ slot) : (s.store layout t slot part left).slots i = s.slots i :=
  Function.update_of_ne h ..

end Phases

end Steps

/-! ## What a run has done -/

section Events

variable {ι W : Type*}

/-- The threads, in the order in which they have taken their slots. -/
def reserved (events : List (Event ι W)) : List ι :=
  events.filterMap fun
    | .reserve t => some t
    | .write _ _ _ => none

/-- What has been written to a slot. -/
def writtenAt (events : List (Event ι W)) (i : ℕ) : List W :=
  events.filterMap fun
    | .reserve _ => none
    | .write _ slot part => if slot = i then some part else none

variable (events : List (Event ι W)) (t : ι) (i slot : ℕ) (part : W)

@[simp] lemma reserved_reserve : reserved (events ++ [.reserve t]) = reserved events ++ [t] := by
  simp [reserved]

@[simp] lemma reserved_write : reserved (events ++ [.write t slot part]) = reserved events := by
  simp [reserved]

@[simp] lemma writtenAt_reserve :
    writtenAt (events ++ [.reserve t]) i = writtenAt events i := by
  simp [writtenAt]

@[simp] lemma writtenAt_write :
    writtenAt (events ++ [.write t slot part]) i =
      writtenAt events i ++ if slot = i then [part] else [] := by
  by_cases h : slot = i <;> simp [writtenAt, h]

end Events

section Runs

variable {w : ℕ} {ι R W C : Type*} {layout : Layout R W C}
  {record : ι → Option R} {threads : Finset ι} {capacity : ℕ} {s₀ s s' : Buffer w ι R W}
  {events : List (Event ι W)} {event : Event ι W} {t : ι} {i slot : ℕ} {part : W}

/-- After some events, the `i`-th thread that has taken a slot has slot `i`, and what it has
written there and what is left are its record, if the slot is one of the array. -/
structure Invariant (layout : Layout R W C) (record : ι → Option R) (threads : Finset ι)
    (capacity : ℕ) (s₀ : Buffer w ι R W) (events : List (Event ι W)) (s : Buffer w ι R W) :
    Prop where
  nodup : (reserved events).Nodup
  passing : ∀ t ∈ reserved events, t ∈ passing record threads
  counter : s.counter = BitVec.ofNat w (reserved events).length
  ready : ∀ t, s.phase t = .ready ↔ t ∉ reserved events
  storing : ∀ i t, (reserved events)[i]? = some t → ∃ left r, s.phase t = .storing i left ∧
    record t = some r ∧ writtenAt events i ++ left = if i < capacity then layout.writes r else []
  unused : ∀ i, (reserved events).length ≤ i → writtenAt events i = []
  content : ∀ i, s.slots i = (writtenAt events i).foldl layout.write (s₀.slots i)
  writer : ∀ t slot part, .write t slot part ∈ events → (reserved events)[slot]? = some t

namespace Invariant

lemma initial (h : Fresh s) : Invariant layout record threads capacity s [] s where
  nodup := List.nodup_nil
  passing := fun _ ht => absurd ht List.not_mem_nil
  counter := h.counter
  ready := fun t => iff_of_true (h.ready t) List.not_mem_nil
  storing := fun _ _ ht => absurd ht (by simp [reserved])
  unused := fun _ _ => rfl
  content := fun _ => rfl
  writer := fun _ _ _ ht => absurd ht List.not_mem_nil

/-- The counter does not overflow. -/
lemma toNat_counter (h : Invariant layout record threads capacity s₀ events s)
    (hcard : (Reservation.passing record threads).card < 2 ^ w) :
    s.counter.toNat = (reserved events).length := by
  have hle : (reserved events).length ≤ (Reservation.passing record threads).card := by
    rw [← Finset.length_toList]
    refine (List.subperm_of_subset h.nodup fun t ht => ?_).length_le
    exact Finset.mem_toList.mpr (h.passing t ht)
  rw [h.counter, BitVec.toNat_ofNat, Nat.mod_eq_of_lt (hle.trans_lt hcard)]

variable [DecidableEq ι]

/-- A thread takes the next slot. -/
lemma take {r : R} (h : Invariant layout record threads capacity s₀ events s)
    (hcard : (Reservation.passing record threads).card < 2 ^ w) (hthread : t ∈ threads)
    (hready : s.phase t = .ready) (hrecord : record t = some r) :
    Invariant layout record threads capacity s₀ (events ++ [.reserve t])
      (s.take layout capacity t r) := by
  have hnew : t ∉ reserved events := (h.ready t).mp hready
  have hslot := h.toNat_counter hcard
  have hold : ∀ t', t' ∈ reserved events → t' ≠ t := fun t' ht' heq => hnew (heq ▸ ht')
  constructor
  case nodup =>
    rw [reserved_reserve, List.nodup_append]
    refine ⟨h.nodup, List.nodup_singleton t, ?_⟩
    rintro t' ht' _ hmem rfl
    exact hnew (List.mem_singleton.mp hmem ▸ ht')
  case passing =>
    intro t' ht'
    rw [reserved_reserve, List.mem_append, List.mem_singleton] at ht'
    rcases ht' with ht' | rfl
    · exact h.passing t' ht'
    · exact mem_passing.mpr ⟨hthread, r, hrecord⟩
  case counter =>
    rw [reserved_reserve, List.length_append, List.length_singleton, BitVec.ofNat_add, ← h.counter]
    rfl
  case ready =>
    intro t'
    rw [reserved_reserve, List.mem_append, List.mem_singleton]
    by_cases heq : t' = t
    · subst heq
      rw [phase_take_self]
      simp
    · rw [phase_take_of_ne heq, h.ready t']
      simp [heq]
  case storing =>
    intro i t' ht'
    rw [reserved_reserve] at ht'
    rcases lt_or_ge i (reserved events).length with hi | hi
    · rw [List.getElem?_append_left hi] at ht'
      have hne := hold t' (List.mem_of_getElem? ht')
      rw [phase_take_of_ne hne, writtenAt_reserve]
      exact h.storing i t' ht'
    · rw [List.getElem?_append_right hi, List.getElem?_singleton] at ht'
      split at ht'
      · next hzero =>
        obtain rfl := Option.some.inj ht'
        have heq : i = s.counter.toNat := by omega
        refine ⟨_, r, by rw [phase_take_self, heq], hrecord, ?_⟩
        rw [writtenAt_reserve, h.unused i hi, heq]
        rfl
      · exact absurd ht' (by simp)
  case unused =>
    intro i hi
    rw [reserved_reserve, List.length_append, List.length_singleton] at hi
    rw [writtenAt_reserve]
    exact h.unused i (by omega)
  case content =>
    intro i
    rw [writtenAt_reserve]
    exact h.content i
  case writer =>
    intro t' slot part hmem
    have hmem' : Event.write t' slot part ∈ events := by simpa using hmem
    have hold' := h.writer t' slot part hmem'
    obtain ⟨hlt, -⟩ := List.getElem?_eq_some_iff.mp hold'
    rw [reserved_reserve, List.getElem?_append_left hlt]
    exact hold'

/-- The slot of a thread that is storing. -/
lemma getElem?_of_storing {left : List W}
    (h : Invariant layout record threads capacity s₀ events s)
    (hstoring : s.phase t = .storing slot left) : (reserved events)[slot]? = some t := by
  have hmem : t ∈ reserved events := by
    by_contra hnew
    rw [(h.ready t).mpr hnew] at hstoring
    exact absurd hstoring (by simp)
  obtain ⟨i, hi⟩ := List.getElem?_of_mem hmem
  obtain ⟨left', r, hphase, -⟩ := h.storing i t hi
  obtain ⟨rfl, -⟩ := Phase.storing.inj (hphase.symm.trans hstoring)
  exact hi

/-- A thread writes to its slot. -/
lemma store {left : List W} (h : Invariant layout record threads capacity s₀ events s)
    (hstoring : s.phase t = .storing slot (part :: left)) :
    Invariant layout record threads capacity s₀ (events ++ [.write t slot part])
      (s.store layout t slot part left) := by
  have hslot := h.getElem?_of_storing hstoring
  constructor
  case nodup =>
    rw [reserved_write]
    exact h.nodup
  case passing =>
    rw [reserved_write]
    exact h.passing
  case counter =>
    rw [reserved_write]
    exact h.counter
  case ready =>
    intro t'
    rw [reserved_write]
    by_cases heq : t' = t
    · subst heq
      rw [phase_store_self]
      exact iff_of_false (by simp) (not_not_intro (List.mem_of_getElem? hslot))
    · rw [phase_store_of_ne heq]
      exact h.ready t'
  case storing =>
    intro i t' ht'
    rw [reserved_write] at ht'
    obtain ⟨left', r, hphase, hrecord, hwrites⟩ := h.storing i t' ht'
    by_cases hi : slot = i
    · subst hi
      obtain rfl := Option.some.inj (hslot.symm.trans ht')
      obtain ⟨-, rfl⟩ := Phase.storing.inj (hphase.symm.trans hstoring)
      refine ⟨left, r, phase_store_self, hrecord, ?_⟩
      rw [writtenAt_write, if_pos rfl, List.append_assoc, List.singleton_append]
      exact hwrites
    · -- another slot is of another thread
      have hne : t' ≠ t := by
        rintro rfl
        exact hi (Phase.storing.inj (hstoring.symm.trans hphase)).1
      refine ⟨left', r, (phase_store_of_ne hne).trans hphase, hrecord, ?_⟩
      rw [writtenAt_write, if_neg hi, List.append_nil]
      exact hwrites
  case unused =>
    intro i hi
    rw [reserved_write] at hi
    obtain ⟨hlt, -⟩ := List.getElem?_eq_some_iff.mp hslot
    rw [writtenAt_write, if_neg (by omega), List.append_nil]
    exact h.unused i hi
  case content =>
    intro i
    rw [writtenAt_write, List.foldl_append]
    by_cases hi : slot = i
    · subst hi
      rw [slots_store_self, if_pos rfl, h.content]
      rfl
    · rw [slots_store_of_ne (Ne.symm hi), if_neg hi]
      exact h.content i
  case writer =>
    intro t' slot' part' hmem
    rw [reserved_write]
    rcases List.mem_append.mp hmem with hmem | hmem
    · exact h.writer t' slot' part' hmem
    · obtain ⟨rfl, rfl, -⟩ := Event.write.inj (List.mem_singleton.mp hmem)
      exact hslot

/-- Every step keeps the invariant. -/
lemma step (h : Invariant layout record threads capacity s₀ events s)
    (hcard : (Reservation.passing record threads).card < 2 ^ w)
    (hstep : Step layout record threads capacity s event s') :
    Invariant layout record threads capacity s₀ (events ++ [event]) s' := by
  cases hstep with
  | reserve hthread hready hrecord => exact h.take hcard hthread hready hrecord
  | write _ hstoring => exact h.store hstoring

end Invariant

variable [DecidableEq ι]

/-- The invariant holds along every run. -/
theorem invariant_of_run (hfresh : Fresh s₀) (hcard : (passing record threads).card < 2 ^ w)
    (hrun : Run (Step layout record threads capacity) s₀ events s) :
    Invariant layout record threads capacity s₀ events s :=
  hrun.invariant_labels (Invariant layout record threads capacity s₀) (.initial hfresh)
    fun _ _ _ _ h hstep => h.step hcard hstep

/-- **What is written.**  Each cell of a slot is written at most once, by the one thread that has
the slot, and nothing is written beyond the capacity. -/
theorem writes_of_run (hfresh : Fresh s₀) (hcard : (passing record threads).card < 2 ^ w)
    (hrun : Run (Step layout record threads capacity) s₀ events s) :
    (∀ i, ((writtenAt events i).map layout.cell).Nodup) ∧
      (∀ t slot part, .write t slot part ∈ events → slot < capacity) ∧
      ∀ t t' slot part part', .write t slot part ∈ events → .write t' slot part' ∈ events →
        t = t' := by
  have h := invariant_of_run hfresh hcard hrun
  refine ⟨fun i => ?_, fun t slot part hmem => ?_, fun t t' slot part part' hmem hmem' => ?_⟩
  · rcases lt_or_ge i (reserved events).length with hi | hi
    · obtain ⟨left, r, -, -, hwrites⟩ := h.storing i _ (List.getElem?_eq_getElem hi)
      have hnodup : ((writtenAt events i ++ left).map layout.cell).Nodup := by
        rw [hwrites]
        split
        · exact layout.nodup r
        · exact List.nodup_nil
      rw [List.map_append] at hnodup
      exact hnodup.of_append_left
    · rw [h.unused i hi]
      exact List.nodup_nil
  · by_contra hbeyond
    obtain ⟨left, r, -, -, hwrites⟩ := h.storing slot t (h.writer t slot part hmem)
    rw [if_neg hbeyond] at hwrites
    have hwritten : part ∈ writtenAt events slot :=
      List.mem_filterMap.mpr ⟨_, hmem, if_pos rfl⟩
    rw [(List.append_eq_nil_iff.mp hwrites).1] at hwritten
    exact absurd hwritten List.not_mem_nil
  · exact Option.some.inj ((h.writer t slot part hmem).symm.trans (h.writer t' slot part' hmem'))

/-- **What is stored.**  Once all threads have finished, those with a record have taken one slot
each, the counter is their number, and the slots hold their records. -/
theorem done_of_run (hfresh : Fresh s₀) (hcard : (passing record threads).card < 2 ^ w)
    (hrun : Run (Step layout record threads capacity) s₀ events s)
    (hdone : Done record threads s) :
    (reserved events).Nodup ∧ (∀ t, t ∈ reserved events ↔ t ∈ passing record threads) ∧
      (reserved events).length = (passing record threads).card ∧
      s.counter.toNat = (passing record threads).card ∧
      ∀ i t, i < capacity → (reserved events)[i]? = some t → record t = some (s.slots i) := by
  have h := invariant_of_run hfresh hcard hrun
  have hmem : ∀ t, t ∈ reserved events ↔ t ∈ passing record threads := by
    refine fun t => ⟨h.passing t, fun ht => ?_⟩
    obtain ⟨hthread, hrecord⟩ := mem_passing.mp ht
    obtain ⟨slot, hphase⟩ := hdone t hthread (Option.isSome_iff_exists.mpr hrecord)
    exact List.mem_of_getElem? (h.getElem?_of_storing hphase)
  have hperm : (reserved events).Perm (passing record threads).toList :=
    (List.perm_ext_iff_of_nodup h.nodup (Finset.nodup_toList _)).mpr fun t => by
      rw [hmem t, Finset.mem_toList]
  have hlength : (reserved events).length = (passing record threads).card := by
    rw [hperm.length_eq, Finset.length_toList]
  refine ⟨h.nodup, hmem, hlength, (h.toNat_counter hcard).trans hlength, fun i t hi ht => ?_⟩
  obtain ⟨left, r, hphase, hrecord, hwrites⟩ := h.storing i t ht
  obtain ⟨hthread, -⟩ := mem_passing.mp (h.passing t (List.mem_of_getElem? ht))
  obtain ⟨slot, hfinished⟩ := hdone t hthread (Option.isSome_iff_exists.mpr ⟨r, hrecord⟩)
  obtain ⟨-, rfl⟩ := Phase.storing.inj (hphase.symm.trans hfinished)
  rw [List.append_nil, if_pos hi] at hwrites
  rw [hrecord, h.content i, hwrites, layout.complete]

end Runs

/-! ## Every run ends -/

section Ends

variable {w : ℕ} {ι R W C : Type*} {layout : Layout R W C} {record : ι → Option R}
  {threads : Finset ι} {capacity : ℕ} {s₀ s s' : Buffer w ι R W} {events : List (Event ι W)}
  {event : Event ι W} {t : ι}

/-- The number of steps that a thread still has to take, at most. -/
def remaining (layout : Layout R W C) (record : ι → Option R) (s : Buffer w ι R W) (t : ι) : ℕ :=
  match s.phase t with
  | .ready => (record t).elim 0 fun r => (layout.writes r).length + 1
  | .storing _ left => left.length

lemma sum_remaining_lt_of (hthread : t ∈ threads)
    (hself : remaining layout record s' t < remaining layout record s t)
    (hother : ∀ t' ≠ t, s'.phase t' = s.phase t') :
    ∑ t ∈ threads, remaining layout record s' t < ∑ t ∈ threads, remaining layout record s t := by
  refine Finset.sum_lt_sum (fun t' _ => ?_) ⟨t, hthread, hself⟩
  by_cases heq : t' = t
  · subst heq
    exact hself.le
  · rw [remaining, hother t' heq, remaining]

variable [DecidableEq ι]

/-- A step brings its thread forward, and leaves the others where they are. -/
lemma sum_remaining_lt (hstep : Step layout record threads capacity s event s') :
    ∑ t ∈ threads, remaining layout record s' t < ∑ t ∈ threads, remaining layout record s t := by
  cases hstep with
  | reserve hthread hready hrecord =>
    refine sum_remaining_lt_of hthread ?_ fun t' hne => phase_take_of_ne hne
    rw [remaining, phase_take_self, remaining, hready, hrecord]
    dsimp only [Option.elim]
    split
    · exact Nat.lt_succ_self _
    · exact Nat.succ_pos _
  | write hthread hstoring =>
    refine sum_remaining_lt_of hthread ?_ fun t' hne => phase_store_of_ne hne
    rw [remaining, phase_store_self, remaining, hstoring]
    exact Nat.lt_succ_self _

/-- No run is longer than what the threads have to do. -/
theorem length_le_of_run (hrun : Run (Step layout record threads capacity) s₀ events s) :
    events.length + ∑ t ∈ threads, remaining layout record s t ≤
      ∑ t ∈ threads, remaining layout record s₀ t := by
  induction hrun with
  | refl => simp
  | snoc _ hstep ih =>
    have hlt := sum_remaining_lt hstep
    rw [List.length_append, List.length_singleton]
    omega

/-- A thread that has not finished can take a step. -/
lemma exists_step (h : ¬ Done record threads s) :
    ∃ event s', Step layout record threads capacity s event s' := by
  rw [Done] at h
  push Not at h
  obtain ⟨t, hthread, hrecord, hunfinished⟩ := h
  obtain ⟨r, hrecord⟩ := Option.isSome_iff_exists.mp hrecord
  cases hphase : s.phase t with
  | ready => exact ⟨_, _, .reserve hthread hphase hrecord⟩
  | storing slot left =>
    cases left with
    | nil => exact absurd hphase (hunfinished slot)
    | cons part left => exact ⟨_, _, .write hthread hphase⟩

/-- Every run can be carried on until all threads have finished. -/
theorem exists_done (hrun : Run (Step layout record threads capacity) s₀ events s) :
    ∃ more s', Run (Step layout record threads capacity) s₀ (events ++ more) s' ∧
      Done record threads s' := by
  induction hn : ∑ t ∈ threads, remaining layout record s t using Nat.strong_induction_on
    generalizing s events with
  | _ n ih =>
    by_cases hdone : Done record threads s
    · exact ⟨[], s, by rwa [List.append_nil], hdone⟩
    · obtain ⟨event, s₁, hstep⟩ : ∃ event s₁, Step layout record threads capacity s event s₁ :=
        exists_step hdone
      obtain ⟨more, s', hrun', hdone'⟩ := ih _ (hn ▸ sum_remaining_lt hstep) (hrun.snoc hstep) rfl
      exact ⟨event :: more, s', by rwa [List.append_assoc] at hrun', hdone'⟩

end Ends

end OhMyMiner.Lib.Reservation
