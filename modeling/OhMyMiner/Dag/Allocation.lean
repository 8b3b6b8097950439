/-
# The device memory of a generation

What a call of `generate` on the GPU does to the device memory: the buffer of the cache comes
first and the buffer of the DAG second, and the flags of the outcome say which of them are
allocated, and which are freed again.  Old buffers stay as they are.  What the kernel has left in
the new DAG does not matter here.
-/
import OhMyMiner.Dag.Generator

namespace OhMyMiner.Dag

open Lib Ethash

namespace Generator

variable {g g' : Generator} {epoch : BitVec 32} {o : CallOutcome} {result : Result}

/-- The generator has the DAG it had, and all buffers are where they were. -/
structure Keeps (g g' : Generator) : Prop where
  dDag : g'.dDag = g.dDag
  currentEpoch : g'.currentEpoch = g.currentEpoch
  buffers : g.device.buffers <+: g'.device.buffers

/-- What `regenerate` can do to the device memory. -/
inductive Regenerated (g : Generator) (epoch : BitVec 32) (o : CallOutcome) (result : Result)
    (g' : Generator) : Prop
  /-- No DAG buffer is allocated; the buffer of the cache may be, and is freed unless the call
  throws. -/
  | noDag (cache : List ℕ) (hdag : o.mallocsDag = false)
      (hresult : ∀ host, result ≠ .returned (some host))
      (hdata : result ≠ .threw → g'.dagData = none) (hkeeps : g.Keeps g')
      (hcache : ∀ p ∈ cache, p = g.nextPointer ∧ p < g'.nextPointer)
      (hfrees : g'.device.frees = g.device.frees ++ cache)
      (hthrows : o.throws = false → result ≠ .threw)
  /-- The call throws and frees nothing. -/
  | lost (hdag : o.mallocsDag = true) (hinfo : o.memInfoAfter = false) (hresult : result = .threw)
      (hkeeps : g.Keeps g') (hnext : g'.nextPointer = g.nextPointer + 2)
      (hfrees : g'.device.frees = g.device.frees)
  /-- The call fails and frees both buffers. -/
  | released (hdag : o.mallocsDag = true) (hinfo : o.memInfoAfter = true)
      (hkernel : o.runsKernel = false) (hresult : result = .returned none)
      (hdata : g'.dagData = none) (hkeeps : g.Keeps g') (hnext : g'.nextPointer = g.nextPointer + 2)
      (hfrees : g'.device.frees = g.device.frees ++ [g.nextPointer, g.nextPointer + 1])
  /-- The DAG is in place. -/
  | made (hkernel : o.runsKernel = true) (hresult : result = .returned g'.dagData)
      (hdata : g'.dagData = if o.hostMalloc then some placeholder else none)
      (hdDag : g'.dDag = some (g.nextPointer + 1)) (hsize : g'.dagSize = getDatasetSize epoch)
      (hepoch : g'.currentEpoch = epoch)
      (hwords : ∃ words, generateDagGpu o.schedule o.dagContent (itemCount epoch) = some words ∧
        g'.device.buffers[g.nextPointer + 1]? = some ⟨(getDatasetSize epoch).toNat, words⟩)
      (hbuffers : g.device.buffers <+: g'.device.buffers)
      (hnext : g'.nextPointer = g.nextPointer + 2)
      (hfrees : g'.device.frees = g.device.frees ++ [g.nextPointer])

/-- Two fresh buffers come behind the old ones. -/
lemma prefix_malloc_malloc (device : Device) (size size' : ℕ) (content content' : Words) :
    let (_, device₁) := device.malloc size content
    let (_, device₂) := device₁.malloc size' content'
    device.buffers <+: device₂.buffers ∧ device₂.buffers.length = device.buffers.length + 2 := by
  constructor
  · exact (List.prefix_append _ _).trans (List.prefix_append _ _)
  · simp

/-- A write to a new buffer leaves the old ones alone. -/
lemma prefix_write {buffers : List DeviceBuffer} {device : Device} {pointer : ℕ}
    (h : buffers <+: device.buffers) (hnew : buffers.length ≤ pointer) (words : Words) :
    buffers <+: (device.write pointer words).buffers := by
  rw [List.prefix_iff_getElem?] at h ⊢
  intro i hi
  have hne : pointer ≠ i := by omega
  rw [Device.write, List.getElem?_modify_ne _ _ hne, h i hi]

lemma length_write (device : Device) (pointer : ℕ) (words : Words) :
    (device.write pointer words).buffers.length = device.buffers.length :=
  List.length_modify _ _ _

lemma keeps_withDag : g.Keeps (g.withDag epoch o) where
  dDag := rfl
  currentEpoch := rfl
  buffers := (prefix_malloc_malloc g.device _ _ _ _).1

lemma keeps_withCopy : g.Keeps (g.withCopy epoch o) where
  dDag := rfl
  currentEpoch := rfl
  buffers := prefix_write keeps_withDag.buffers le_rfl _

lemma nextPointer_withDag : (g.withDag epoch o).nextPointer = g.nextPointer + 2 :=
  (prefix_malloc_malloc g.device _ _ _ _).2

lemma nextPointer_withCopy : (g.withCopy epoch o).nextPointer = g.nextPointer + 2 :=
  (length_write _ _ _).trans nextPointer_withDag

lemma frees_freeing (g : Generator) (p p' : ℕ) :
    (g.freeing [p, p']).device.frees = g.device.frees ++ [p, p'] :=
  List.append_assoc _ _ _

/-- **What `regenerate` does to the device memory.** -/
theorem regenerated_of_eq (h : g.regenerate epoch true o = some (result, g')) :
    g.Regenerated epoch o result g' := by
  have hthrows := ne_threw_of_throws h
  cases ended_of_eq h with
  | cacheAlloc hcache =>
    exact .noDag [] (by simp [CallOutcome.mallocsDag, hcache]) (by simp) (by simp)
      ⟨rfl, rfl, List.prefix_rfl⟩ (by simp) (List.append_nil _).symm hthrows
  | useGpu hgpu => exact absurd hgpu (by decide)
  | cacheMalloc hmalloc =>
    exact .noDag [] (by simp [CallOutcome.mallocsDag, hmalloc]) (by simp) (fun _ => rfl)
      ⟨rfl, rfl, List.prefix_rfl⟩ (by simp) (List.append_nil _).symm hthrows
  | memInfo hmalloc hinfo =>
    exact .noDag [] (by simp [CallOutcome.mallocsDag, hinfo]) (by simp) (fun _ => rfl)
      ⟨rfl, rfl, List.prefix_append _ _⟩ (by simp) (List.append_nil _).symm hthrows
  | dagMalloc hdag =>
    refine .noDag [g.nextPointer] (by simp [CallOutcome.mallocsDag, hdag]) (by simp)
      (fun _ => rfl) ⟨rfl, rfl, List.prefix_append _ _⟩ ?_ rfl hthrows
    intro p hp
    have hnext : ((g.withCache epoch o).freeing [g.nextPointer]).nextPointer =
        g.nextPointer + 1 := nextPointer_withCache g epoch o
    have hp' : p = g.nextPointer := List.mem_singleton.mp hp
    rw [hnext]
    omega
  | memInfoAfter hdag hafter =>
    exact .lost hdag hafter rfl keeps_withDag nextPointer_withDag rfl
  | memcpy hdag hafter hcopy =>
    refine .released hdag hafter (by simp [CallOutcome.runsKernel, hcopy]) rfl rfl
      ⟨rfl, rfl, keeps_withDag.buffers⟩ nextPointer_withDag ?_
    rw [frees_freeing, nextPointer_withCache]
    rfl
  | monitor hdag hafter hmonitor =>
    refine .released hdag hafter (by simp [CallOutcome.runsKernel, hmonitor]) rfl rfl
      ⟨rfl, rfl, keeps_withCopy.buffers⟩ nextPointer_withCopy ?_
    rw [frees_freeing, nextPointer_withCache]
    rfl
  | made hkernel words hwords =>
    -- the DAG is the buffer after the cache, and the last write is into it
    have hpointer := nextPointer_withCache g epoch o
    refine .made hkernel rfl rfl (congrArg some hpointer) rfl rfl ⟨words, hwords, ?_⟩ ?_ ?_ rfl
    · rw [← hpointer]
      exact g.device.getElem?_write_write _ _ _ _ _ words
    · exact prefix_write keeps_withCopy.buffers (by rw [hpointer]; exact Nat.le_succ _) _
    · exact (length_write _ _ _).trans nextPointer_withCopy

/-- A call that returns a host pointer has run the kernel. -/
lemma Regenerated.runsKernel {host : HostBuffer}
    (h : g.Regenerated epoch o (.returned (some host)) g') : o.runsKernel = true := by
  cases h with
  | noDag cache hdag hresult => exact absurd rfl (hresult host)
  | lost hdag hinfo hresult => exact absurd hresult (by simp)
  | released hdag hinfo hkernel hresult => exact absurd hresult (by simp)
  | made hkernel => exact hkernel

/-- A call that runs the kernel puts the DAG in place. -/
lemma Regenerated.made_of_runsKernel (h : g.Regenerated epoch o result g')
    (hkernel : o.runsKernel = true) :
    result = .returned (if o.hostMalloc then some placeholder else none) ∧
      g'.dDag = some (g.nextPointer + 1) ∧ g'.dagSize = getDatasetSize epoch ∧
      (∃ words, generateDagGpu o.schedule o.dagContent (itemCount epoch) = some words ∧
        g'.device.buffers[g.nextPointer + 1]? = some ⟨(getDatasetSize epoch).toNat, words⟩) ∧
      g'.nextPointer = g.nextPointer + 2 ∧
      g'.device.frees = g.device.frees ++ [g.nextPointer] := by
  obtain ⟨hmallocs, hafter⟩ := CallOutcome.mallocsDag_of_runsKernel hkernel
  cases h with
  | noDag cache hdag => exact absurd (hmallocs.symm.trans hdag) (by decide)
  | lost hdag hinfo => exact absurd (hafter.symm.trans hinfo) (by decide)
  | released hdag hinfo hfails => exact absurd (hkernel.symm.trans hfails) (by decide)
  | made hmade hresult hdata hdDag hsize hepoch hwords hbuffers hnext hfrees =>
    exact ⟨by rw [hresult, hdata], hdDag, hsize, hwords, hnext, hfrees⟩

/-- A call that returns a host pointer has put the DAG in place. -/
lemma Regenerated.of_some {host : HostBuffer}
    (h : g.Regenerated epoch o (.returned (some host)) g') :
    host = placeholder ∧ g'.dDag = some (g.nextPointer + 1) ∧
      g'.dagSize = getDatasetSize epoch := by
  obtain ⟨hresult, hdDag, hsize, -⟩ := h.made_of_runsKernel h.runsKernel
  have hhost := Result.returned.inj hresult
  split at hhost
  · exact ⟨Option.some.inj hhost, hdDag, hsize⟩
  · exact absurd hhost (by simp)

/-- A call that does not throw returns. -/
lemma Regenerated.ne_threw (h : g.Regenerated epoch o result g') (ho : o.throws = false) :
    result ≠ .threw := by
  cases h with
  | noDag cache hdag hresult hdata hkeeps hcache hfrees hthrows => exact hthrows ho
  | lost hdag hinfo => simp [CallOutcome.throws, hdag, hinfo] at ho
  | released hdag hinfo hkernel hresult => simp [hresult]
  | made hkernel hresult => simp [hresult]

/-- A call that returns null holds no host memory. -/
lemma Regenerated.of_none (h : g.Regenerated epoch o (.returned none) g') : g'.dagData = none := by
  cases h with
  | noDag cache hdag hresult hdata => exact hdata (by simp)
  | lost hdag hinfo hresult => exact absurd hresult (by simp)
  | released hdag hinfo hkernel hresult hdata => exact hdata
  | made hkernel hresult => exact (Result.returned.inj hresult).symm

/-- No call touches the old buffers. -/
lemma Regenerated.buffers (h : g.Regenerated epoch o result g') :
    g.device.buffers <+: g'.device.buffers := by
  cases h with
  | noDag cache hdag hresult hdata hkeeps => exact hkeeps.buffers
  | lost hdag hinfo hresult hkeeps => exact hkeeps.buffers
  | released hdag hinfo hkernel hresult hdata hkeeps => exact hkeeps.buffers
  | made hkernel hresult hdata hdDag hsize hepoch hwords hbuffers => exact hbuffers

/-- The buffer of a call that returns a host pointer holds what the kernel has left. -/
lemma Regenerated.words {host : HostBuffer}
    (h : g.Regenerated epoch o (.returned (some host)) g') :
    ∃ words, generateDagGpu o.schedule o.dagContent (itemCount epoch) = some words ∧
      g'.device.buffers[g.nextPointer + 1]? = some ⟨(getDatasetSize epoch).toNat, words⟩ := by
  obtain ⟨-, -, -, hwords, -⟩ := h.made_of_runsKernel h.runsKernel
  exact hwords

/-- A check keeps a call from ending only if the rest does not end. -/
lemma isSome_check {passed : Bool} {ended : Result × Generator}
    {rest : Option (Result × Generator)} (h : rest.isSome) :
    (if !passed then some ended else rest).isSome := by
  cases passed with
  | false => rfl
  | true => exact h

/-- Every call for an epoch that a seed hash can stand for comes to an end. -/
lemma exists_generate (g : Generator) (hepoch : epoch.toNat < 2000) (useGpu : Bool)
    (o : CallOutcome) : ∃ result g', g.generate epoch useGpu o = some (result, g') := by
  have hregenerate : (g.regenerate epoch useGpu o).isSome := by
    obtain ⟨words, hwords, -⟩ :=
      generateDagGpu_ends o.schedule o.dagContent (toNat_itemCount hepoch).2
    rw [regenerate_eq]
    iterate 8 apply isSome_check
    -- only the batches could fail to end
    rw [hwords]
    rfl
  rw [generate]
  split
  · exact ⟨_, _, rfl⟩
  · obtain ⟨⟨result, g'⟩, hsome⟩ := Option.isSome_iff_exists.mp hregenerate
    exact ⟨result, g', hsome⟩

end Generator

end OhMyMiner.Dag
