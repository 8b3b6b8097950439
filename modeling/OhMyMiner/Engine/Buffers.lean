/-
# The DAG buffers of a lifetime

Every DAG on the device has two owners that know its pointer, the generator and the device
manager, and both free what they know when the engine is destroyed.  A new DAG takes the place of
the old one in both without freeing it.  So a lifetime releases its DAGs properly only if the
generator and the manager end up with different ones, and there are no others.
-/
import OhMyMiner.Engine.Lifetime

namespace OhMyMiner.Engine

open Lib Dag

/-! ## The end of a lifetime -/

namespace Components

/-- The destructor of `DeviceManager::Impl`, in `cleanup`. -/
def freeDag (m : DeviceManager) (device : Device) : Device :=
  match m.dDag with
  | some dDag => device.free dDag
  | none => device

/-- The destructor of the engine: members are destroyed in the reverse order of their
declaration, the generator before the device manager. -/
def destroy (s : Components) : Components :=
  let g := s.dagGenerator.cleanup
  { s with
    dagGenerator := { g with device := freeDag s.deviceManager g.device }
    deviceManager := { s.deviceManager with dDag := none } }

/-- What a lifetime that ends here should have done: every DAG buffer is freed once, no search was
launched on a DAG that had been freed, and every successful `initializeDag` left one DAG. -/
structure Released (s : Components) : Prop where
  once : ∀ p ∈ s.dagBuffers, s.destroy.frees.count p = 1
  searches : ∀ search ∈ s.searches, search.freed = false
  live : ∀ n ∈ s.liveAfterInit, n = 1

end Components

/-! ## What becomes of the buffers -/

/-- What becomes of a DAG buffer that a delivery leaves allocated. -/
inductive Fate where
  /-- The generator and the device manager have it. -/
  | handedOver
  /-- Only the generator has it. -/
  | kept
  /-- No one has it. -/
  | lost
  deriving DecidableEq

/-- The device manager takes the DAG over, even if the call throws later. -/
def ZeroCopyOutcome.takesOver : ZeroCopyOutcome → Bool
  | .threwBefore => false
  | .threwAfter => true
  | .done => true

/-- The buffer that an event leaves allocated, when the engine holds the DAG of an epoch. -/
def fate (held : BitVec 32) : Event → Option Fate
  | .search => none
  | .job delivered o =>
    if delivered.epoch = held then none
    else if o.generate.runsKernel then
      if o.generate.hostMalloc && o.zeroCopy.takesOver then some .handedOver else some .kept
    else if o.generate.mallocsDag && !o.generate.memInfoAfter then some .lost
    else none

lemma fate_of_ne {held : BitVec 32} {job : MiningJob} (o : DagOutcome) (h : job.epoch ≠ held) :
    fate held (.job job o) =
      if o.generate.runsKernel then
        if o.generate.hostMalloc && o.zeroCopy.takesOver then some .handedOver else some .kept
      else if o.generate.mallocsDag && !o.generate.memInfoAfter then some .lost
      else none := if_neg h

/-- The epoch whose DAG the engine holds after an event. -/
def nextHeld (held : BitVec 32) : Event → BitVec 32
  | .search => held
  | .job delivered o =>
    if delivered.epoch ≠ held ∧ o.generate.runsKernel = true ∧ o.generate.hostMalloc = true ∧
        o.zeroCopy = .done then delivered.epoch
    else held

/-- The buffers that a sequence of events leaves allocated. -/
def fates : BitVec 32 → List Event → List Fate
  | _, [] => []
  | held, event :: events => (fate held event).toList ++ fates (nextHeld held event) events

lemma fates_concat (held : BitVec 32) (events : List Event) (event : Event) :
    fates held (events ++ [event]) =
      fates held events ++ (fate (events.foldl nextHeld held) event).toList := by
  induction events generalizing held with
  | nil => simp [fates]
  | cons first events ih => rw [List.cons_append, fates, ih, fates, List.append_assoc,
      List.foldl_cons]

/-! ## Two owners -/

section Owners

variable {L : List (ℕ × Fate)}

/-- The DAG of the generator: the last one that it has. -/
def generatorDag (L : List (ℕ × Fate)) : Option ℕ :=
  ((L.filter fun entry => entry.2 ≠ .lost).getLast?).map Prod.fst

/-- The DAG of the device manager: the last one that was handed over. -/
def managerDag (L : List (ℕ × Fate)) : Option ℕ :=
  ((L.filter fun entry => entry.2 = .handedOver).getLast?).map Prod.fst

/-- The pointers that the destructors free. -/
def lastFrees (L : List (ℕ × Fate)) : List ℕ := (generatorDag L).toList ++ (managerDag L).toList

/-- What the lifetime may leave: nothing, one DAG that was not handed over, or a DAG that was
handed over and then one that was not. -/
def Separate (F : List Fate) : Prop := F = [] ∨ F = [.kept] ∨ F = [.handedOver, .kept]

lemma length_lastFrees_le : (lastFrees L).length ≤ 2 := by
  rw [lastFrees, List.length_append]
  have hle : ∀ dag : Option ℕ, dag.toList.length ≤ 1 := by
    rintro (_ | _) <;> simp
  exact Nat.add_le_add (hle _) (hle _)

/-- **Two owners free every buffer once only if each of them has one of its own.** -/
theorem count_lastFrees_iff (hnodup : (L.map Prod.fst).Nodup) :
    (∀ p ∈ L.map Prod.fst, (lastFrees L).count p = 1) ↔ Separate (L.map Prod.snd) := by
  constructor
  · intro honce
    -- every buffer is among the at most two that are freed
    have hlength : L.length ≤ 2 := by
      have hsubset : L.map Prod.fst ⊆ lastFrees L := by
        intro p hp
        exact List.count_pos_iff.mp (by rw [honce p hp]; exact one_pos)
      rw [← List.length_map Prod.fst]
      exact (hnodup.length_le_of_subset hsubset).trans length_lastFrees_le
    rcases L with _ | ⟨⟨p, a⟩, _ | ⟨⟨q, b⟩, _ | ⟨entry, L⟩⟩⟩
    · exact Or.inl rfl
    · have hp := honce p (by simp)
      cases a <;> simp_all [lastFrees, generatorDag, managerDag, Separate]
    · have hp := honce p (by simp)
      have hq := honce q (by simp)
      cases a <;> cases b <;>
        simp_all [lastFrees, generatorDag, managerDag, Separate, List.count_cons]
    · simp at hlength
  · rintro (hnil | hkept | hboth)
    · obtain rfl := List.map_eq_nil_iff.mp hnil
      simp
    · obtain ⟨⟨p, _⟩, rest, rfl, rfl, hrest⟩ := List.map_eq_cons_iff.mp hkept
      obtain rfl := List.map_eq_nil_iff.mp hrest
      simp [lastFrees, generatorDag, managerDag]
    · obtain ⟨⟨p, _⟩, rest, rfl, rfl, hrest⟩ := List.map_eq_cons_iff.mp hboth
      obtain ⟨⟨q, _⟩, rest, rfl, rfl, hend⟩ := List.map_eq_cons_iff.mp hrest
      obtain rfl := List.map_eq_nil_iff.mp hend
      have hne : p ≠ q := by simpa using hnodup
      simp [lastFrees, generatorDag, managerDag, hne, hne.symm]

lemma mem_of_mem_lastFrees {p : ℕ} (hp : p ∈ lastFrees L) : p ∈ L.map Prod.fst := by
  have hlast : ∀ fates : List (ℕ × Fate), fates ⊆ L →
      p ∈ (fates.getLast?.map Prod.fst).toList → p ∈ L.map Prod.fst := by
    intro fates hsubset hmem
    obtain ⟨entry, hentry, rfl⟩ := Option.map_eq_some_iff.mp (Option.mem_toList.mp hmem)
    exact List.mem_map_of_mem (hsubset (List.mem_of_getLast? hentry))
  rcases List.mem_append.mp hp with hmem | hmem
  · exact hlast _ (List.filter_subset_self _) hmem
  · exact hlast _ (List.filter_subset_self _) hmem

end Owners

/-! ## The ledger -/

/-- The buffers that are allocated and not freed are those of the ledger, and nothing has been
freed twice so far. -/
structure Ledger (dagBuffers : List ℕ) (g : Generator) (L : List (ℕ × Fate)) : Prop where
  live : dagBuffers.filter (fun p => p ∉ g.device.frees) = L.map Prod.fst
  nodup : dagBuffers.Nodup
  once : ∀ p ∈ dagBuffers, g.device.frees.count p ≤ 1
  buffers_lt : ∀ p ∈ dagBuffers, p < g.nextPointer
  frees_lt : ∀ p ∈ g.device.frees, p < g.nextPointer
  dDag : g.dDag = generatorDag L

section Ledger

variable {dagBuffers new more : List ℕ} {g g' : Generator} {L L' : List (ℕ × Fate)}

/-- New buffers have new pointers, so that what is allocated and freed now has nothing to do with
the old buffers. -/
lemma Ledger.extend (h : Ledger dagBuffers g L) (hnew : ∀ p ∈ new, g.nextPointer ≤ p)
    (hnodup : new.Nodup) (hmore : ∀ p ∈ more, g.nextPointer ≤ p)
    (honce : ∀ p ∈ new, more.count p ≤ 1)
    (hfrees : g'.device.frees = g.device.frees ++ more)
    (hlt : ∀ p, p < g.nextPointer ∨ p ∈ new ∨ p ∈ more → p < g'.nextPointer)
    (hdDag : g'.dDag = generatorDag L')
    (hL : L'.map Prod.fst = L.map Prod.fst ++ new.filter fun p => p ∉ more) :
    Ledger (dagBuffers ++ new) g' L' where
  live := by
    rw [List.filter_append, hL, ← h.live, hfrees]
    congr 1
    · refine List.filter_congr fun p hp => ?_
      have hold : p ∉ more := fun hmem => absurd (h.buffers_lt p hp) (not_lt.mpr (hmore p hmem))
      simp [hold]
    · refine List.filter_congr fun p hp => ?_
      have hfresh : p ∉ g.device.frees := fun hmem =>
        absurd (h.frees_lt p hmem) (not_lt.mpr (hnew p hp))
      simp [hfresh]
  nodup := by
    refine List.nodup_append'.mpr ⟨h.nodup, hnodup, fun p hold hmem => ?_⟩
    exact absurd (h.buffers_lt p hold) (not_lt.mpr (hnew p hmem))
  once := by
    intro p hp
    rw [hfrees, List.count_append]
    rcases List.mem_append.mp hp with hold | hmem
    · have hzero : more.count p = 0 := List.count_eq_zero.mpr fun hmem =>
        absurd (h.buffers_lt p hold) (not_lt.mpr (hmore p hmem))
      have hle := h.once p hold
      omega
    · have hzero : g.device.frees.count p = 0 := List.count_eq_zero.mpr fun hmem' =>
        absurd (h.frees_lt p hmem') (not_lt.mpr (hnew p hmem))
      have hle := honce p hmem
      omega
  buffers_lt := by
    intro p hp
    rcases List.mem_append.mp hp with hold | hmem
    · exact hlt p (Or.inl (h.buffers_lt p hold))
    · exact hlt p (Or.inr (Or.inl hmem))
  frees_lt := by
    intro p hp
    rw [hfrees] at hp
    rcases List.mem_append.mp hp with hold | hmem
    · exact hlt p (Or.inl (h.frees_lt p hold))
    · exact hlt p (Or.inr (Or.inr hmem))
  dDag := hdDag

/-- A call that allocates no DAG buffer. -/
lemma Ledger.keep (h : Ledger dagBuffers g L) {cache : List ℕ} (hkeeps : g.Keeps g')
    (hcache : ∀ p ∈ cache, p = g.nextPointer ∧ p < g'.nextPointer)
    (hfrees : g'.device.frees = g.device.frees ++ cache) : Ledger dagBuffers g' L := by
  have hle : g.nextPointer ≤ g'.nextPointer := hkeeps.buffers.length_le
  have hextend : Ledger (dagBuffers ++ []) g' L := by
    refine h.extend (by simp) (by simp) (fun p hp => (hcache p hp).1.ge) (by simp) hfrees ?_
      (hkeeps.dDag.trans h.dDag) (by simp)
    rintro p (hlt | hmem | hmem)
    · exact hlt.trans_le hle
    · exact absurd hmem List.not_mem_nil
    · exact (hcache p hmem).2
  rwa [List.append_nil] at hextend

/-- A call that loses its DAG buffer. -/
lemma Ledger.lose (h : Ledger dagBuffers g L) (hkeeps : g.Keeps g')
    (hnext : g'.nextPointer = g.nextPointer + 2) (hfrees : g'.device.frees = g.device.frees) :
    Ledger (dagBuffers ++ [g.nextPointer + 1]) g' (L ++ [(g.nextPointer + 1, .lost)]) := by
  have hnone : g'.device.frees = g.device.frees ++ [] := by rw [hfrees, List.append_nil]
  refine h.extend (by simp) (by simp) (by simp) (by simp) hnone ?_ ?_ (by simp)
  · intro p hp
    simp only [List.mem_singleton, List.not_mem_nil, or_false] at hp
    omega
  · rw [hkeeps.dDag, h.dDag]
    simp [generatorDag, List.filter_append]

/-- A call that frees what it has allocated. -/
lemma Ledger.release (h : Ledger dagBuffers g L) (hkeeps : g.Keeps g')
    (hnext : g'.nextPointer = g.nextPointer + 2)
    (hfrees : g'.device.frees = g.device.frees ++ [g.nextPointer, g.nextPointer + 1]) :
    Ledger (dagBuffers ++ [g.nextPointer + 1]) g' L := by
  refine h.extend (by simp) (by simp) (by simp) (by simp) hfrees ?_ (hkeeps.dDag.trans h.dDag)
    (by simp)
  intro p hp
  simp only [List.mem_cons, List.not_mem_nil, or_false] at hp
  omega

/-- A call that makes a DAG. -/
lemma Ledger.make (h : Ledger dagBuffers g L) {fate : Fate} (hfate : fate ≠ .lost)
    (hdDag : g'.dDag = some (g.nextPointer + 1)) (hnext : g'.nextPointer = g.nextPointer + 2)
    (hfrees : g'.device.frees = g.device.frees ++ [g.nextPointer]) :
    Ledger (dagBuffers ++ [g.nextPointer + 1]) g' (L ++ [(g.nextPointer + 1, fate)]) := by
  refine h.extend (by simp) (by simp) (by simp) (by simp) hfrees ?_ ?_ (by simp)
  · intro p hp
    simp only [List.mem_singleton] at hp
    omega
  · rw [hdDag]
    simp [generatorDag, List.filter_append, hfate]

/-- The host memory is not in the ledger. -/
lemma Ledger.freeHostMemory (h : Ledger dagBuffers g L) : Ledger dagBuffers g.freeHostMemory L :=
  ⟨h.live, h.nodup, h.once, h.buffers_lt, h.frees_lt, h.dDag⟩

end Ledger

/-! ## What the destructors free -/

namespace Components

variable {s t : Components} {L : List (ℕ × Fate)}

/-- The destructors free what the generator has and then what the device manager has. -/
lemma destroy_frees (s : Components) :
    s.destroy.frees =
      s.frees ++ (s.dagGenerator.dDag.toList ++ s.deviceManager.dDag.toList) := by
  obtain ⟨hasJob, currentJob, epoch, ⟨managerDag, size, init⟩, ⟨e, data, dDag, dsize, dir, device⟩,
    unwinding, dagBuffers, inits, live, searches⟩ := s
  cases dDag <;> cases managerDag <;> simp [destroy, frees, freeDag, Generator.cleanup, Device.free]

/-- What holds after every event: the ledger `L` accounts for the DAG buffers. -/
structure Accounted (s : Components) (events : List Event) (L : List (ℕ × Fate)) : Prop where
  ledger : Ledger s.dagBuffers s.dagGenerator L
  dDag : s.deviceManager.dDag = managerDag L
  searches : ∀ search ∈ s.searches, search.freed = false
  live : ∀ n ∈ s.liveAfterInit, ∃ m, n = m + 1 ∧ (L.map Prod.snd)[m]? = some .handedOver
  fates : L.map Prod.snd = fates (BitVec.allOnes 32) events
  alive : s.unwinding = false →
    s.dagGenerator.dagData = none ∧
      s.currentDagEpoch = events.foldl nextHeld (BitVec.allOnes 32)

variable {events : List Event}

lemma Accounted.mem_iff (h : s.Accounted events L) (p : ℕ) :
    p ∈ L.map Prod.fst ↔ p ∈ s.dagBuffers ∧ p ∉ s.frees := by
  rw [← h.ledger.live, List.mem_filter, decide_eq_true_eq]
  rfl

lemma Accounted.nodup (h : s.Accounted events L) : (L.map Prod.fst).Nodup := by
  rw [← h.ledger.live]
  exact h.ledger.nodup.filter _

lemma Accounted.count_destroy_frees (h : s.Accounted events L) (p : ℕ) :
    s.destroy.frees.count p = s.frees.count p + (lastFrees L).count p := by
  rw [destroy_frees, h.ledger.dDag, h.dDag, List.count_append]
  rfl

/-- **The destructors complete the work exactly if what is left is `Separate`.** -/
theorem Accounted.released_iff (h : s.Accounted events L) :
    s.Released ↔ Separate (L.map Prod.snd) := by
  rw [← count_lastFrees_iff h.nodup]
  constructor
  · intro hreleased p hp
    obtain ⟨hbuffer, hfreed⟩ := (h.mem_iff p).mp hp
    have honce := hreleased.once p hbuffer
    rwa [h.count_destroy_frees, List.count_eq_zero.mpr hfreed, zero_add] at honce
  · intro honce
    refine ⟨fun p hp => ?_, h.searches, fun n hn => ?_⟩
    · rw [h.count_destroy_frees]
      by_cases hfreed : p ∈ s.frees
      · -- freed before the end, and in no one's hands
        have hzero : (lastFrees L).count p = 0 := List.count_eq_zero.mpr fun hmem =>
          ((h.mem_iff p).mp (mem_of_mem_lastFrees hmem)).2 hfreed
        have hpos : 0 < s.frees.count p := List.count_pos_iff.mpr hfreed
        have hle : s.frees.count p ≤ 1 := h.ledger.once p hp
        omega
      · rw [List.count_eq_zero.mpr hfreed, zero_add]
        exact honce p ((h.mem_iff p).mpr ⟨hp, hfreed⟩)
    · obtain ⟨m, rfl, hm⟩ := h.live n hn
      rcases (count_lastFrees_iff h.nodup).mp honce with hnil | hkept | hboth
      · rw [hnil] at hm
        simp at hm
      · rw [hkept] at hm
        rcases m with _ | m <;> simp at hm
      · rw [hboth] at hm
        rcases m with _ | _ | m <;> simp at hm ⊢

/-! ## What an event does to the ledger -/

section Accounted

variable {events : List Event} {event : Event} {job : MiningJob} {o : DagOutcome}

/-- A search is launched on a buffer of the ledger. -/
lemma Accounted.search (h : s.Accounted events L) : s.search.Accounted (events ++ [.search]) L := by
  have hfates : L.map Prod.snd = Engine.fates (BitVec.allOnes 32) (events ++ [.search]) := by
    rw [fates_concat, h.fates, fate, Option.toList_none, List.append_nil]
  have hheld : (events ++ [Event.search]).foldl nextHeld (BitVec.allOnes 32) =
      events.foldl nextHeld (BitVec.allOnes 32) := by
    rw [List.foldl_append]
    rfl
  have hsame : s.Accounted (events ++ [.search]) L :=
    ⟨h.ledger, h.dDag, h.searches, h.live, hfates, by rw [hheld]; exact h.alive⟩
  rw [Components.search]
  split
  · cases hdag : s.deviceManager.dDag with
    | none => exact hsame
    | some dDag =>
      refine ⟨h.ledger, h.dDag, ?_, h.live, hfates, by rw [hheld]; exact h.alive⟩
      intro search hmem
      rcases List.mem_append.mp hmem with hold | hnew
      · exact h.searches search hold
      · obtain rfl := List.mem_singleton.mp hnew
        have hmanager : dDag ∈ lastFrees L := by
          refine List.mem_append_right _ (Option.mem_toList.mpr ?_)
          rw [← h.dDag, hdag]
        have hlive := mem_of_mem_lastFrees hmanager
        rw [← h.ledger.live, List.mem_filter] at hlive
        have hnotFreed : dDag ∉ s.frees := of_decide_eq_true hlive.2
        simpa using hnotFreed
  · exact hsame

/-- What a delivery leaves to show, once its ledger is known. -/
lemma Accounted.of_ledger (h : s.Accounted events L) {new : List (ℕ × Fate)}
    (hledger : Ledger t.dagBuffers t.dagGenerator (L ++ new))
    (hdDag : t.deviceManager.dDag = managerDag (L ++ new)) (hsearches : t.searches = s.searches)
    (hlive : ∀ n ∈ t.liveAfterInit, n ∈ s.liveAfterInit ∨
      ∃ m, n = m + 1 ∧ ((L ++ new).map Prod.snd)[m]? = some .handedOver)
    (hfate : new.map Prod.snd =
      (fate (events.foldl nextHeld (BitVec.allOnes 32)) event).toList)
    (halive : t.unwinding = false → t.dagGenerator.dagData = none ∧
      t.currentDagEpoch = nextHeld (events.foldl nextHeld (BitVec.allOnes 32)) event) :
    t.Accounted (events ++ [event]) (L ++ new) where
  ledger := hledger
  dDag := hdDag
  searches := by
    rw [hsearches]
    exact h.searches
  live := by
    intro n hn
    rcases hlive n hn with hold | hnew
    · obtain ⟨m, hm, hget⟩ := h.live n hold
      refine ⟨m, hm, ?_⟩
      rw [List.map_append, List.getElem?_append_left (List.getElem?_eq_some_iff.mp hget).1, hget]
    · exact hnew
  fates := by rw [List.map_append, h.fates, hfate, fates_concat]
  alive := by
    intro hunwinding
    rw [List.foldl_append]
    exact halive hunwinding

lemma managerDag_concat {p : ℕ} {a : Fate} (ha : a ≠ .handedOver) :
    managerDag (L ++ [(p, a)]) = managerDag L := by
  simp [managerDag, List.filter_append, ha]

lemma managerDag_concat_handedOver {p : ℕ} :
    managerDag (L ++ [(p, .handedOver)]) = some p := by
  simp [managerDag, List.filter_append]

/-- The generator part of the ledger after a delivery that fails. -/
lemma Accounted.failed (h : s.Accounted events L) {g : Generator} {result : Result}
    (hgen : s.dagGenerator.Regenerated job.epoch o.generate result g)
    (hkernel : o.generate.runsKernel = false) (hepoch : job.epoch ≠ s.currentDagEpoch)
    (halive : s.unwinding = false) :
    ∃ new, new.map Prod.snd =
        (fate (events.foldl nextHeld (BitVec.allOnes 32)) (.job job o)).toList ∧
      managerDag (L ++ new) = managerDag L ∧
        Ledger (s.dagBuffers ++ if o.generate.mallocsDag then [s.dagGenerator.nextPointer + 1]
          else []) g (L ++ new) := by
  have hne : job.epoch ≠ events.foldl nextHeld (BitVec.allOnes 32) := by
    rw [← (h.alive halive).2]
    exact hepoch
  cases hgen with
  | noDag cache hdag hresult hdata hkeeps hcache hfrees =>
    refine ⟨[], ?_, by rw [List.append_nil], ?_⟩
    · rw [fate_of_ne o hne]
      simp [hkernel, hdag]
    · rw [List.append_nil, hdag, if_neg (by decide), List.append_nil]
      exact h.ledger.keep hkeeps hcache hfrees
  | lost hdag hinfo hresult hkeeps hnext hfrees =>
    refine ⟨[(s.dagGenerator.nextPointer + 1, .lost)], ?_, managerDag_concat (by decide), ?_⟩
    · rw [fate_of_ne o hne]
      simp [hkernel, hdag, hinfo]
    · rw [hdag, if_pos rfl]
      exact h.ledger.lose hkeeps hnext hfrees
  | released hdag hinfo hkernel' hresult hdata hkeeps hnext hfrees =>
    refine ⟨[], ?_, by rw [List.append_nil], ?_⟩
    · rw [fate_of_ne o hne]
      simp [hkernel, hdag, hinfo]
    · rw [List.append_nil, hdag, if_pos rfl]
      exact h.ledger.release hkeeps hnext hfrees
  | made hmade => exact absurd (hkernel.symm.trans hmade) (by decide)

/-- The same after a delivery that makes a DAG, whoever has it then. -/
lemma Accounted.made (h : s.Accounted events L) {g : Generator} {result : Result} {a : Fate}
    (hgen : s.dagGenerator.Regenerated job.epoch o.generate result g)
    (hkernel : o.generate.runsKernel = true) (ha : a ≠ .lost) :
    Ledger (s.dagBuffers ++ if o.generate.mallocsDag then [s.dagGenerator.nextPointer + 1]
      else []) g (L ++ [(s.dagGenerator.nextPointer + 1, a)]) := by
  obtain ⟨-, hdDag, -, -, hnext, hfrees⟩ := hgen.made_of_runsKernel hkernel
  rw [(CallOutcome.mallocsDag_of_runsKernel hkernel).1, if_pos rfl]
  exact h.ledger.make ha hdDag hnext hfrees

/-- Where the DAG goes depends on what comes after the generation. -/
lemma fate_made (o : DagOutcome) {held : BitVec 32} (h : job.epoch ≠ held)
    (hkernel : o.generate.runsKernel = true) :
    fate held (.job job o) =
      some (if o.generate.hostMalloc && o.zeroCopy.takesOver then .handedOver else .kept) := by
  rw [fate_of_ne o h, if_pos hkernel]
  split <;> rfl

/-- **What a delivery does to the ledger.** -/
theorem Accounted.onJobReceived (h : s.Accounted events L) (halive : s.unwinding = false)
    (hdelivered : s.onJobReceived job o = some t) :
    ∃ L, t.Accounted (events ++ [.job job o]) L := by
  obtain ⟨hhost, hheld⟩ := h.alive halive
  rcases onJobReceived_cases hhost hdelivered with
    ⟨hepoch, rfl⟩ | ⟨hepoch, result, g, hgen, hcases⟩
  · have hheld' : job.epoch = events.foldl nextHeld (BitVec.allOnes 32) := hepoch.trans hheld
    refine ⟨L ++ [], h.of_ledger ?_ ?_ rfl (fun n hn => Or.inl hn) ?_ fun _ => ⟨hhost, ?_⟩⟩
    · rw [List.append_nil]
      exact h.ledger
    · rw [List.append_nil]
      exact h.dDag
    · rw [fate, if_pos hheld']
      rfl
    · rw [nextHeld, if_neg fun hnew => hnew.1 hheld']
      exact hheld
  have hne : job.epoch ≠ events.foldl nextHeld (BitVec.allOnes 32) := by rwa [← hheld]
  cases hkernel : o.generate.runsKernel with
  | false =>
    obtain ⟨new, hfate, hmanager, hledger⟩ := h.failed hgen hkernel hepoch halive
    have hnext : nextHeld (events.foldl nextHeld (BitVec.allOnes 32)) (.job job o) =
        events.foldl nextHeld (BitVec.allOnes 32) :=
      if_neg fun hnew => absurd (hkernel.symm.trans hnew.2.1) (by decide)
    rcases hcases with ⟨-, rfl⟩ | ⟨rfl, rfl⟩ | ⟨rfl, -⟩
    · exact ⟨_, h.of_ledger hledger (h.dDag.trans hmanager.symm) rfl (fun n hn => Or.inl hn) hfate
        fun hfalse => absurd hfalse (by simp)⟩
    · exact ⟨_, h.of_ledger hledger (h.dDag.trans hmanager.symm) rfl (fun n hn => Or.inl hn) hfate
        fun _ => ⟨hgen.of_none, hheld.trans hnext.symm⟩⟩
    · exact absurd (hkernel.symm.trans hgen.runsKernel) (by decide)
  | true =>
    have hledger := fun a ha => h.made (a := a) hgen hkernel ha
    have hresult := (hgen.made_of_runsKernel hkernel).1
    have hfate := fate_made o hne hkernel
    rcases hcases with ⟨rfl, -⟩ | ⟨rfl, rfl⟩ | ⟨rfl, hzero⟩
    · exact absurd hresult (by simp)
    · -- no host memory: the DAG stays with the generator
      have hhostMalloc : o.generate.hostMalloc = false := by simpa using hresult
      refine ⟨_, h.of_ledger (hledger .kept (by decide))
        (h.dDag.trans (managerDag_concat (by decide)).symm) rfl (fun n hn => Or.inl hn) ?_
        fun _ => ⟨hgen.of_none, ?_⟩⟩
      · rw [hfate, hhostMalloc]
        rfl
      · rw [nextHeld, if_neg fun hnew => absurd (hhostMalloc.symm.trans hnew.2.2.1) (by decide)]
        exact hheld
    have hhostMalloc : o.generate.hostMalloc = true := by simpa using hresult
    rcases hzero with ⟨hzero, rfl⟩ | ⟨hzero, rfl⟩ | ⟨hzero, rfl⟩
    · refine ⟨_, h.of_ledger (hledger .kept (by decide))
        (h.dDag.trans (managerDag_concat (by decide)).symm) rfl (fun n hn => Or.inl hn) ?_
        fun hfalse => absurd hfalse (by simp)⟩
      rw [hfate, hzero, ZeroCopyOutcome.takesOver, Bool.and_false]
      rfl
    · refine ⟨_, h.of_ledger (hledger .handedOver (by decide)) managerDag_concat_handedOver.symm rfl
        (fun n hn => Or.inl hn) ?_ fun hfalse => absurd hfalse (by simp)⟩
      rw [hfate, hhostMalloc, hzero]
      rfl
    · have hready := (hledger .handedOver (by decide)).freeHostMemory
      refine ⟨_, h.of_ledger hready managerDag_concat_handedOver.symm rfl (fun n hn => ?_) ?_
        fun _ => ⟨rfl, ?_⟩⟩
      · -- the new DAG is the last entry of the ledger
        rcases List.mem_append.mp hn with hold | hnew
        · exact Or.inl hold
        · refine Or.inr ⟨L.length, ?_, ?_⟩
          · obtain rfl := List.mem_singleton.mp hnew
            have hlength := congrArg List.length hready.live
            rw [List.length_map, List.length_append] at hlength
            exact hlength
          · rw [List.map_append, List.getElem?_append_right (by simp)]
            simp
      · rw [hfate, hhostMalloc, hzero]
        rfl
      · rw [nextHeld, if_pos ⟨hne, hkernel, hhostMalloc, hzero⟩]
        rfl

end Accounted

/-! ## Lifetimes -/

section Lifetime

variable {currentJob : MiningJob} {cacheDir : String} {events : List Event}

/-- Every lifetime has its ledger. -/
lemma run_accounted (hrun : Run Step (initial currentJob cacheDir) events s) :
    ∃ L, s.Accounted events L := by
  induction hrun with
  | refl =>
    refine ⟨[], ⟨rfl, List.nodup_nil, ?_, ?_, ?_, rfl⟩, rfl, ?_, ?_, rfl, fun _ => ⟨rfl, rfl⟩⟩
    all_goals exact fun _ hmem => absurd hmem List.not_mem_nil
  | snoc hinit hstep ih =>
    obtain ⟨L, h⟩ := ih
    cases hstep with
    | job halive hdelivered => exact h.onJobReceived halive hdelivered
    | search halive hjob => exact ⟨L, h.search⟩

/-- **The lifetimes that release their DAGs.**  Every DAG buffer is freed once, no search is
launched on a freed one and every `initializeDag` leaves one, exactly if the lifetime leaves no DAG
behind, or one that the device manager never got, or one that it got and then one that it did
not. -/
theorem released_iff_separate (hrun : Run Step (initial currentJob cacheDir) events s) :
    s.Released ↔ Separate (Engine.fates (BitVec.allOnes 32) events) := by
  obtain ⟨L, h⟩ := run_accounted hrun
  rw [← h.fates]
  exact h.released_iff

/-- A first job whose host memory cannot be allocated. -/
def noHostMemory : DagOutcome :=
  { generate := { CallOutcome.ok with hostMalloc := false }, zeroCopy := .done }

/-- The DAG of a first job that fails after the kernel is freed once. -/
theorem released_iff_separate_noHostMemory :
    ∃ s, Run Step (initial firstJob "") [.job firstJob noHostMemory] s ∧ s.Released := by
  have hepoch : firstJob.epoch.toNat < 2000 := by decide
  obtain ⟨s, hs⟩ := exists_onJobReceived (initial firstJob "") hepoch noHostMemory
  have hrun : Run Step (initial firstJob "") [.job firstJob noHostMemory] s :=
    .snoc (.refl _) (.job rfl hs)
  exact ⟨s, hrun, (released_iff_separate hrun).mpr (Or.inr (Or.inl (by decide)))⟩

/-- A first job for which everything succeeds has its DAG freed twice. -/
theorem not_released_firstJob :
    ∃ s, Run Step (initial firstJob "") [.job firstJob DagOutcome.ok] s ∧ ¬ s.Released ∧
      ∃ p ∈ s.dagBuffers, s.destroy.frees.count p = 2 := by
  have hepoch : firstJob.epoch.toNat < 2000 := by decide
  obtain ⟨s, hs⟩ := exists_onJobReceived (initial firstJob "") hepoch DagOutcome.ok
  have hrun : Run Step (initial firstJob "") [.job firstJob DagOutcome.ok] s :=
    .snoc (.refl _) (.job rfl hs)
  obtain ⟨L, h⟩ := run_accounted hrun
  have hfates : L.map Prod.snd = [.handedOver] := h.fates
  obtain ⟨⟨p, _⟩, rest, rfl, rfl, hrest⟩ := List.map_eq_cons_iff.mp hfates
  obtain rfl := List.map_eq_nil_iff.mp hrest
  obtain ⟨hp, hfreed⟩ := (h.mem_iff p).mp (by simp)
  have htwice : s.destroy.frees.count p = 2 := by
    rw [h.count_destroy_frees, List.count_eq_zero.mpr hfreed]
    simp [lastFrees, generatorDag, managerDag]
  refine ⟨s, hrun, fun hreleased => ?_, p, hp, htwice⟩
  exact absurd ((hreleased.once p hp).symm.trans htwice) (by decide)

end Lifetime

end Components

end OhMyMiner.Engine
