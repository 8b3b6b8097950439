/-
# What a failed generation leaves behind

`DagGenerator::Impl::generate` (`src/dag/dag_generator.cpp`) sets `dagSize_` before anything can
fail, and `d_dag_` and `currentEpoch_` when the new DAG is in place.  So a call that fails on the
way pairs the old DAG with the size of the new one; and a call that only cannot allocate the
placeholder returns null for a DAG that is in place.
-/
import OhMyMiner.Dag.Allocation

namespace OhMyMiner.Dag

open Lib Ethash

namespace Generator

/-! ## The getters -/

/-- `getSize`. -/
def getSize (g : Generator) : BitVec 64 := g.dagSize

/-- `getGpuPointer`. -/
def getGpuPointer (g : Generator) : Option ℕ := g.dDag

/-- `getCurrentEpoch`. -/
def getCurrentEpoch (g : Generator) : BitVec 32 := g.currentEpoch

/-- `hasEpoch`. -/
def hasEpoch (g : Generator) (epoch : BitVec 32) : Bool :=
  g.currentEpoch = epoch ∧ g.dagData.isSome

/-- The DAG on the device, as the getters describe it. -/
def described (g : Generator) : Option (ℕ × BitVec 64 × BitVec 32) :=
  g.getGpuPointer.map fun dDag => (dDag, g.getSize, g.getCurrentEpoch)

/-- While there is a DAG on the device, `getSize` is the size of its buffer, and that of the dataset
of `getCurrentEpoch`. -/
def Coherent (g : Generator) : Prop :=
  ∀ dDag, g.getGpuPointer = some dDag →
    (∃ b, g.device.buffers[dDag]? = some b ∧ b.size = g.getSize.toNat) ∧
      g.getSize = getDatasetSize g.getCurrentEpoch

/-- If the operation is a call of `generate` that returns null, then the getters describe the same
DAG as before. -/
def NullKeeps (g : Generator) (op : Operation) : Prop :=
  ∀ epoch useGpu o g', op = .generate epoch useGpu o →
    g.generate epoch useGpu o = some (.returned none, g') → g'.described = g.described

/-- A call of `generate` that has to build a DAG comes to the kernel and gets memory for the
placeholder, or it fails while there is no DAG of another size. -/
def Completes (g : Generator) : Operation → Prop
  | .generate epoch useGpu o =>
    g.hasEpoch epoch = true ∨
      if useGpu && o.runsKernel then o.hostMalloc = true
      else g.dDag = none ∨ g.dagSize = getDatasetSize epoch
  | _ => True

/-! ## One call of `generate` -/

variable {g g' : Generator} {epoch : BitVec 32} {useGpu : Bool} {o : CallOutcome}
  {result : Result} {op : Operation}

/-- Whatever happens, the size is that of the new epoch. -/
lemma dagSize_of_eq (h : g.regenerate epoch useGpu o = some (result, g')) :
    g'.dagSize = getDatasetSize epoch := by
  cases ended_of_eq h <;> rfl

/-- **A call that does not come to the kernel** keeps the pointer and the epoch. -/
lemma keeps_of_not_runsKernel (h : g.regenerate epoch useGpu o = some (result, g'))
    (hkernel : (useGpu && o.runsKernel) = false) :
    g.Keeps g' ∧ ∀ host, result ≠ .returned (some host) := by
  cases useGpu with
  | false =>
    rw [regenerate_eq] at h
    rcases check_cases h with ⟨-, ⟨⟩⟩ | ⟨-, h⟩
    · exact ⟨⟨rfl, rfl, List.prefix_rfl⟩, by simp⟩
    · obtain ⟨rfl, rfl⟩ := Prod.mk.inj (Option.some.inj h)
      exact ⟨⟨rfl, rfl, List.prefix_rfl⟩, by simp⟩
  | true =>
    cases regenerated_of_eq h with
    | noDag cache hdag hresult hdata hkeeps => exact ⟨hkeeps, hresult⟩
    | lost hdag hinfo hresult hkeeps => exact ⟨hkeeps, by simp [hresult]⟩
    | released hdag hinfo hfails hresult hdata hkeeps => exact ⟨hkeeps, by simp [hresult]⟩
    | made hmade => exact absurd (hkernel.symm.trans hmade) (by simp)

/-- The new DAG is in place, and null is returned if there is no memory for the placeholder. -/
structure TakesOver (g : Generator) (epoch : BitVec 32) (o : CallOutcome) (result : Result)
    (g' : Generator) : Prop where
  returned : result = .returned g'.dagData
  dagData : g'.dagData = if o.hostMalloc then some placeholder else none
  dDag : g'.dDag = some (g.nextPointer + 1)
  buffer : ∃ b, g'.device.buffers[g.nextPointer + 1]? = some b ∧
    b.size = (getDatasetSize epoch).toNat
  currentEpoch : g'.currentEpoch = epoch

/-- **A call that comes to the kernel** takes the new DAG over. -/
lemma takesOver_of_runsKernel (h : g.regenerate epoch useGpu o = some (result, g'))
    (hkernel : (useGpu && o.runsKernel) = true) : g.TakesOver epoch o result g' := by
  obtain ⟨rfl, hruns⟩ := Bool.and_eq_true_iff.mp hkernel
  obtain ⟨hmallocs, hafter⟩ := CallOutcome.mallocsDag_of_runsKernel hruns
  cases regenerated_of_eq h with
  | noDag cache hdag => exact absurd (hmallocs.symm.trans hdag) (by simp)
  | lost hdag hinfo => exact absurd (hafter.symm.trans hinfo) (by simp)
  | released hdag hinfo hfails => exact absurd (hruns.symm.trans hfails) (by simp)
  | made hmade hresult hdata hdDag hsize hepoch hwords =>
    obtain ⟨words, -, hget⟩ := hwords
    exact ⟨hresult, hdata, hdDag, ⟨_, hget, rfl⟩, hepoch⟩

/-- A call that keeps the pointer and the epoch describes the same DAG if the size is the same. -/
lemma Keeps.described_eq (h : g.Keeps g') (hsize : g.dDag = none ∨ g'.dagSize = g.dagSize) :
    g'.described = g.described := by
  rw [described, described, getGpuPointer, getGpuPointer, h.dDag]
  rcases hsize with hnone | hsize
  · rw [hnone]
    rfl
  · rw [getSize, getCurrentEpoch, hsize, h.currentEpoch]
    rfl

lemma map_fst_described (g : Generator) : g.described.map Prod.fst = g.dDag := by
  rw [described, getGpuPointer, Option.map_map]
  exact Option.map_id'

lemma Keeps.coherent_iff (h : g.Keeps g') (hg : g.Coherent) :
    g'.Coherent ↔ g.dDag = none ∨ g'.dagSize = g.dagSize := by
  constructor
  · intro hg'
    cases hdag : g.dDag with
    | none => exact Or.inl rfl
    | some dDag =>
      right
      have hsize := (hg' dDag (h.dDag.trans hdag)).2
      have hsize₀ := (hg dDag hdag).2
      rw [getSize, getCurrentEpoch, h.currentEpoch] at hsize
      exact hsize.trans hsize₀.symm
  · intro hsize dDag hdag
    have hdag₀ : g.dDag = some dDag := h.dDag.symm.trans hdag
    have hsame : g'.dagSize = g.dagSize :=
      hsize.resolve_left (by rw [hdag₀]; exact Option.some_ne_none dDag)
    obtain ⟨⟨b, hget, hb⟩, hdataset⟩ := hg dDag hdag₀
    rw [getSize, getCurrentEpoch, hsame, h.currentEpoch]
    have hlt := (List.getElem?_eq_some_iff.mp hget).1
    exact ⟨⟨b, (List.prefix_iff_getElem?.mp h.buffers dDag hlt).trans
      ((List.getElem?_eq_getElem hlt).symm.trans hget), hb⟩, hdataset⟩

/-- **Which calls of `generate` keep the getters right.** -/
lemma coherent_regenerate_iff (hg : g.Coherent)
    (h : g.regenerate epoch useGpu o = some (result, g')) :
    g'.Coherent ∧ (result = .returned none → g'.described = g.described) ↔
      if useGpu && o.runsKernel then o.hostMalloc = true
      else g.dDag = none ∨ g.dagSize = getDatasetSize epoch := by
  cases hkernel : useGpu && o.runsKernel with
  | false =>
    rw [if_neg (by simp)]
    obtain ⟨hkeeps, -⟩ := keeps_of_not_runsKernel h hkernel
    rw [hkeeps.coherent_iff hg, dagSize_of_eq h, eq_comm (a := g.dagSize)]
    refine ⟨fun hboth => hboth.1, fun hsize => ⟨hsize, fun _ => hkeeps.described_eq ?_⟩⟩
    rw [dagSize_of_eq h]
    exact hsize
  | true =>
    rw [if_pos rfl]
    have htakes := takesOver_of_runsKernel h hkernel
    have hdata := htakes.dagData
    have hcoherent : g'.Coherent := by
      intro dDag hdag
      obtain rfl := Option.some.inj (htakes.dDag.symm.trans hdag)
      rw [getSize, getCurrentEpoch, dagSize_of_eq h, htakes.currentEpoch]
      exact ⟨htakes.buffer, rfl⟩
    constructor
    · rintro ⟨-, hnull⟩
      by_contra hmalloc
      rw [if_neg hmalloc] at hdata
      -- the new pointer is not the old one
      have hsame := congrArg (Option.map Prod.fst) (hnull (by rw [htakes.returned, hdata]))
      rw [map_fst_described, map_fst_described, htakes.dDag] at hsame
      obtain ⟨⟨b, hget, -⟩, -⟩ := hg _ hsame.symm
      have hlt : g.nextPointer + 1 < g.nextPointer := (List.getElem?_eq_some_iff.mp hget).1
      omega
    · intro hmalloc
      rw [if_pos hmalloc] at hdata
      refine ⟨hcoherent, fun hnull => absurd (htakes.returned.symm.trans hnull) ?_⟩
      rw [hdata]
      simp

/-! ## Whole runs -/

/-- **Which operations keep the getters right.** -/
theorem Coherent.step_iff (hg : g.Coherent) (hstep : Step g op g') :
    g'.Coherent ∧ g.NullKeeps op ↔ g.Completes op := by
  cases hstep with
  | freeHostMemory => exact ⟨fun _ => trivial, fun _ => ⟨hg, by rintro _ _ _ _ ⟨⟩⟩⟩
  | setCacheDir path => exact ⟨fun _ => trivial, fun _ => ⟨hg, by rintro _ _ _ _ ⟨⟩⟩⟩
  | loadFromCache epoch file alloc readOk =>
    refine ⟨fun _ => trivial, fun _ => ⟨?_, by rintro _ _ _ _ ⟨⟩⟩⟩
    rcases g.loadFromCache_cases epoch file alloc readOk with heq | hnone
    · rw [heq]
      exact hg
    · intro dDag hdag
      exact absurd (hnone.symm.trans hdag) (by simp)
  | @generate _ epoch useGpu o result h =>
    have hnull : g.NullKeeps (.generate epoch useGpu o) ↔
        (result = .returned none → g'.described = g.described) := by
      constructor
      · rintro hkeeps rfl
        exact hkeeps epoch useGpu o g' rfl h
      · rintro hkeeps _ _ _ g'' ⟨⟩ h'
        obtain ⟨rfl, rfl⟩ := Prod.mk.inj (Option.some.inj (h.symm.trans h'))
        exact hkeeps rfl
    rw [hnull, Completes, hasEpoch, decide_eq_true_iff]
    rw [Generator.generate] at h
    split at h
    · next hheld =>
      obtain ⟨-, rfl⟩ := Prod.mk.inj (Option.some.inj h)
      exact ⟨fun _ => Or.inl hheld, fun _ => ⟨hg, fun _ => rfl⟩⟩
    · next hheld =>
      rw [coherent_regenerate_iff hg h]
      exact ⟨Or.inr, fun hor => hor.resolve_left hheld⟩

lemma coherent_fresh : fresh.Coherent :=
  fun dDag hdag => absurd hdag (by simp [getGpuPointer, fresh])

/-- **When size, epoch and pointer belong together.**  In every run in which each call of `generate`
completes, or fails while there is no DAG of another size, the getters describe the DAG on the
device, and a call that returns null leaves them as they are; and these are the only runs of which
this holds throughout. -/
theorem run_coherent_iff (ops : List Operation) (g : Generator) :
    (Run (fun g op g' => Step g op g' ∧ g.Completes op) fresh ops g → g.Coherent) ∧
      (Run (fun g op g' => Step g op g' ∧ g.Completes op) fresh ops g ↔
        Run (fun g op g' => Step g op g' ∧ g'.Coherent ∧ g.NullKeeps op) fresh ops g) := by
  have hstep : ∀ g op g', (g : Generator).Coherent → Step g op g' ∧ g.Completes op →
      g'.Coherent := fun g op g' hg hop => ((hg.step_iff hop.1).mpr hop.2).1
  refine ⟨fun hrun => hrun.invariant Coherent coherent_fresh hstep, ?_⟩
  exact Run.congr Coherent coherent_fresh hstep fun g op g' hg =>
    and_congr_right fun hop => (hg.step_iff hop).symm

/-! ## A DAG that does not fit -/

/-- Everything succeeds until the buffer of the DAG is allocated. -/
def outOfMemory : CallOutcome := { CallOutcome.ok with dagMalloc := false }

/-- After epoch 0, the DAG of epoch 1 does not fit: `generate` returns null, and the old DAG has the
size of the new one. -/
theorem exists_not_coherent :
    ∃ g g', Run Step fresh [.generate 0 true CallOutcome.ok] g ∧
      g.generate 1 true outOfMemory = some (.returned none, g') ∧
      g'.getGpuPointer = g.getGpuPointer ∧ g'.getCurrentEpoch = 0 ∧
      g'.getSize = getDatasetSize 1 ∧ ¬ g'.Coherent ∧
      ¬ g.NullKeeps (.generate 1 true outOfMemory) := by
  obtain ⟨g, hgenerate⟩ := generate_fresh
  have hrun : Run Step fresh [.generate 0 true CallOutcome.ok] g :=
    (Run.refl fresh).snoc (.generate hgenerate)
  have hnone : ¬ (fresh.currentEpoch = 0 ∧ fresh.dagData.isSome) := by simp [fresh]
  rw [Generator.generate, if_neg hnone] at hgenerate
  have hmade := regenerated_of_eq hgenerate
  obtain ⟨-, hdDag, hsize⟩ := hmade.of_some
  have hepoch : g.currentEpoch = 0 := by
    cases ended_of_eq hgenerate with
    | made hkernel words hwords => rfl
  have hother : ¬ (g.currentEpoch = 1 ∧ g.dagData.isSome) := by simp [hepoch]
  have hfails : g.generate 1 true outOfMemory =
      some (.returned none, (g.withCache 1 outOfMemory).freeing [g.nextPointer]) := by
    rw [Generator.generate, if_neg hother, regenerate_eq]
    rfl
  have hgrows : getDatasetSize 1 ≠ getDatasetSize 0 := by decide
  refine ⟨g, _, hrun, hfails, rfl, hepoch, rfl, ?_, ?_⟩
  · intro hcoherent
    obtain ⟨-, hdataset⟩ := hcoherent _ hdDag
    have hdataset' : getDatasetSize 1 = getDatasetSize g.currentEpoch := hdataset
    rw [hepoch] at hdataset'
    exact hgrows hdataset'
  · intro hkeeps
    have hsame := hkeeps 1 true outOfMemory _ rfl hfails
    have hpointer : ((g.withCache 1 outOfMemory).freeing [g.nextPointer]).getGpuPointer =
        some (fresh.nextPointer + 1) := hdDag
    have hpointer₀ : g.getGpuPointer = some (fresh.nextPointer + 1) := hdDag
    rw [described, described, hpointer, hpointer₀] at hsame
    have hsizes : getDatasetSize 1 = g.dagSize :=
      congrArg (fun d => d.2.1) (Option.some.inj hsame)
    exact hgrows (hsizes.trans hsize)

end Generator

end OhMyMiner.Dag
