/-
# The DAG generator

`DagGenerator::Impl` (`src/dag/dag_generator.cpp`): a state machine over the epoch it holds, a
host buffer, a device buffer and a size.  What the outside decides about a call, which
allocations and CUDA calls succeed, what fresh device memory holds and what becomes of the launches
of the kernel, is a parameter of the operation.

Device pointers are indices into the list of all device buffers ever allocated.
-/
import OhMyMiner.Dag.Kernel
import OhMyMiner.Ethash.Dataset
import OhMyMiner.Lib.Transition

namespace OhMyMiner.Dag

open Lib Ethash

/-! ## The state -/

/-- A buffer of host memory. -/
structure HostBuffer where
  size : ℕ
  byte : ℕ → Byte

/-- A buffer of device memory. -/
structure DeviceBuffer where
  size : ℕ
  words : Words

/-- The device memory: the buffers that `cudaMalloc` has returned, and the pointers given to
`cudaFree`, each oldest first. -/
structure Device where
  buffers : List DeviceBuffer
  frees : List ℕ

/-- The members of `DagGenerator::Impl`, and the device memory it works on. -/
structure Generator where
  currentEpoch : BitVec 32
  dagData : Option HostBuffer
  dDag : Option ℕ
  dagSize : BitVec 64
  cacheDir : String
  device : Device

/-- A generator as its constructor leaves it. -/
def Generator.fresh : Generator :=
  { currentEpoch := 0, dagData := none, dDag := none, dagSize := 0, cacheDir := "",
    device := { buffers := [], frees := [] } }

namespace Device

/-- `cudaMalloc`: the new buffer gets the next pointer. -/
def malloc (device : Device) (size : ℕ) (content : Words) : ℕ × Device :=
  (device.buffers.length, { device with buffers := device.buffers ++ [⟨size, content⟩] })

/-- `cudaFree`. -/
def free (device : Device) (pointer : ℕ) : Device :=
  { device with frees := device.frees ++ [pointer] }

/-- Overwrite the words of a buffer. -/
def write (device : Device) (pointer : ℕ) (words : Words) : Device :=
  { device with buffers := device.buffers.modify pointer fun b => { b with words := words } }

end Device

/-! ## The operations -/

/-- What the outside decides about one call of `generate`. -/
structure CallOutcome where
  /-- The host cache can be allocated. -/
  cacheAlloc : Bool
  /-- `cudaMalloc` of the device cache succeeds. -/
  cacheMalloc : Bool
  /-- The first `cudaMemGetInfo` succeeds. -/
  memInfo : Bool
  /-- `cudaMalloc` of the DAG succeeds. -/
  dagMalloc : Bool
  /-- The second `cudaMemGetInfo` succeeds. -/
  memInfoAfter : Bool
  /-- The copy of the cache to the device succeeds. -/
  memcpy : Bool
  /-- The progress thread can be started. -/
  monitor : Bool
  /-- The placeholder can be allocated. -/
  hostMalloc : Bool
  /-- What the device memory of the cache and of the DAG holds at first. -/
  cacheContent : Words
  dagContent : Words
  /-- What becomes of the launches of the kernel; `generate` does not learn of it. -/
  schedule : Schedule

/-- How a call of `generate` ends: it returns a host pointer, or throws. -/
inductive Result where
  | returned (dagData : Option HostBuffer)
  | threw

/-- The host placeholder, `memset(dagData_, 0x42, 128)`. -/
def placeholder : HostBuffer := { size := 128, byte := fun _ => 0x42 }

/-- The words of the host cache. -/
def cacheWords {n : ℕ} (cache : Vector Hash64 n) : Words :=
  fun w => if h : w / 8 < n then (words64 cache[w / 8])[w % 8] else 0

namespace Generator

/-- The part of `generate` that builds a DAG; `none` if the batches never end. -/
def regenerate (g : Generator) (epoch : BitVec 32) (useGpu : Bool) (o : CallOutcome) :
    Option (Result × Generator) :=
  let g := { g with dagSize := getDatasetSize epoch }
  let numItems : BitVec 32 := (g.dagSize / 64).setWidth 32
  if !o.cacheAlloc then some (.threw, g)
  else
    let cache := calculateCache epoch
    let g := { g with dagData := none }
    if !useGpu then some (.returned none, g)
    else if !o.cacheMalloc then some (.returned none, g)
    else
      let (dCache, device) := g.device.malloc (cacheItemCount epoch * 64) o.cacheContent
      let g := { g with device := device }
      if !o.memInfo then some (.threw, g)
      else if !o.dagMalloc then
        some (.returned none, { g with device := g.device.free dCache })
      else
        let (dDag, device) := g.device.malloc g.dagSize.toNat o.dagContent
        let g := { g with device := device }
        if !o.memInfoAfter then some (.threw, g)
        else if !o.memcpy then
          some (.returned none, { g with device := (g.device.free dCache).free dDag })
        else
          let g := { g with device := g.device.write dCache (cacheWords cache) }
          if !o.monitor then
            some (.returned none, { g with device := (g.device.free dCache).free dDag })
          else do
            let words ← generateDagGpu o.schedule o.dagContent numItems
            let g := { g with device := g.device.write dDag words }
            let g := { g with dagData := if o.hostMalloc then some placeholder else none }
            let g := { g with device := g.device.free dCache, dDag := some dDag }
            let g := { g with currentEpoch := epoch }
            return (.returned g.dagData, g)

/-- `generate`. -/
def generate (g : Generator) (epoch : BitVec 32) (useGpu : Bool) (o : CallOutcome) :
    Option (Result × Generator) :=
  if g.currentEpoch = epoch ∧ g.dagData.isSome then some (.returned g.dagData, g)
  else g.regenerate epoch useGpu o

/-- `freeHostMemory`. -/
def freeHostMemory (g : Generator) : Generator := { g with dagData := none }

/-- `setCacheDir`. -/
def setCacheDir (g : Generator) (path : String) : Generator := { g with cacheDir := path }

/-- `cleanup`. -/
def cleanup (g : Generator) : Generator :=
  { g with
    dagData := none
    device := match g.dDag with
      | some dDag => g.device.free dDag
      | none => g.device
    dDag := none
    dagSize := 0 }

/-- `loadFromCache`: `file` is the file found for the epoch, if it can be opened. -/
def loadFromCache (g : Generator) (epoch : BitVec 32) (file : Option HostBuffer)
    (alloc readOk : Bool) : Bool × Generator :=
  if g.cacheDir = "" then (false, g)
  else match file with
    | none => (false, g)
    | some file =>
      if file.size < 64 then (false, g)
      else if file.size ≠ (getDatasetSize epoch).toNat then (false, g)
      else
        let g := g.cleanup
        if !alloc then (false, g)
        else
          let g := { g with dagData := some file, dagSize := BitVec.ofNat 64 file.size }
          if !readOk then (false, g.cleanup) else (true, g)

end Generator

/-- The operations of the generator that change its state. -/
inductive Operation where
  | generate (epoch : BitVec 32) (useGpu : Bool) (o : CallOutcome)
  | freeHostMemory
  | setCacheDir (path : String)
  | loadFromCache (epoch : BitVec 32) (file : Option HostBuffer) (alloc readOk : Bool)

/-- One operation that ends. -/
inductive Step : Generator → Operation → Generator → Prop
  | generate {g g' : Generator} {epoch : BitVec 32} {useGpu : Bool} {o : CallOutcome}
      {result : Result} (h : g.generate epoch useGpu o = some (result, g')) :
      Step g (.generate epoch useGpu o) g'
  | freeHostMemory (g : Generator) : Step g .freeHostMemory g.freeHostMemory
  | setCacheDir (g : Generator) (path : String) : Step g (.setCacheDir path) (g.setCacheDir path)
  | loadFromCache (g : Generator) (epoch : BitVec 32) (file : Option HostBuffer)
      (alloc readOk : Bool) :
      Step g (.loadFromCache epoch file alloc readOk) (g.loadFromCache epoch file alloc readOk).2

/-- The launches of the operation succeed. -/
def Operation.Succeeds : Operation → Prop
  | .generate _ _ o => o.schedule.Succeeds
  | _ => True

/-- The states that the operations reach from a fresh generator, if all launches succeed. -/
def Reaches (g : Generator) : Prop :=
  Reachable (fun g op g' => op.Succeeds ∧ Step g op g') Generator.fresh g

/-! ## What a call of `generate` does -/

/-- The number of items that `generate` asks the kernel for. -/
def itemCount (epoch : BitVec 32) : BitVec 32 := (getDatasetSize epoch / 64).setWidth 32

/-- The DAG on the device, if there is one. -/
def Generator.gpuDag (g : Generator) : Option DeviceBuffer :=
  g.dDag.bind fun dDag => g.device.buffers[dDag]?

/-- Two fresh buffers, of which each is then overwritten. -/
lemma Device.getElem?_write_write (device : Device) (size size' : ℕ)
    (content content' words words' : Words) :
    let (p, device) := device.malloc size content
    let (p', device) := device.malloc size' content'
    ((device.write p words).write p' words').buffers[p']? = some ⟨size', words'⟩ := by
  simp [Device.malloc, Device.write]

/-! ## The stages of a call -/

namespace CallOutcome

/-- The DAG buffer is allocated. -/
def mallocsDag (o : CallOutcome) : Bool :=
  o.cacheAlloc && o.cacheMalloc && o.memInfo && o.dagMalloc

/-- The kernel runs, and the generator takes the DAG buffer over. -/
def runsKernel (o : CallOutcome) : Bool :=
  o.mallocsDag && o.memInfoAfter && o.memcpy && o.monitor

/-- A call that has to build a DAG ends in an exception. -/
def throws (o : CallOutcome) : Bool :=
  !o.cacheAlloc || (o.cacheMalloc && !o.memInfo) || (o.mallocsDag && !o.memInfoAfter)

lemma mallocsDag_of_runsKernel {o : CallOutcome} (h : o.runsKernel = true) :
    o.mallocsDag = true ∧ o.memInfoAfter = true := by
  simp only [runsKernel, Bool.and_eq_true] at h
  exact h.1.1

end CallOutcome

namespace Generator

section Stages

variable (g : Generator) (epoch : BitVec 32) (o : CallOutcome)

/-- The pointer that the next `cudaMalloc` returns. -/
def nextPointer : ℕ := g.device.buffers.length

/-- The size is that of the epoch, and the host buffer is gone. -/
def emptied : Generator := { g with dagSize := getDatasetSize epoch, dagData := none }

/-- The buffer of the cache is allocated. -/
def withCache : Generator :=
  { g.emptied epoch with
    device := (g.device.malloc (cacheItemCount epoch * 64) o.cacheContent).2 }

/-- The buffer of the DAG is allocated, too. -/
def withDag : Generator :=
  { g.emptied epoch with
    device := ((g.withCache epoch o).device.malloc (getDatasetSize epoch).toNat o.dagContent).2 }

/-- The cache is copied to the device. -/
def withCopy : Generator :=
  { g.emptied epoch with
    device := (g.withDag epoch o).device.write g.nextPointer (cacheWords (calculateCache epoch)) }

/-- The kernel has run, and the buffer of the cache is free again. -/
def withWords (words : Words) : Generator :=
  { g.emptied epoch with
    dagData := if o.hostMalloc then some placeholder else none
    device := ((g.withCopy epoch o).device.write (g.withCache epoch o).nextPointer words).free
      g.nextPointer
    dDag := some (g.withCache epoch o).nextPointer
    currentEpoch := epoch }

/-- Buffers are given back. -/
def freeing (pointers : List ℕ) : Generator :=
  { g with device := pointers.foldl Device.free g.device }

/-- **The stages of `regenerate`.** -/
theorem regenerate_eq (useGpu : Bool) :
    g.regenerate epoch useGpu o =
      if !o.cacheAlloc then some (.threw, { g with dagSize := getDatasetSize epoch })
      else if !useGpu then some (.returned none, g.emptied epoch)
      else if !o.cacheMalloc then some (.returned none, g.emptied epoch)
      else if !o.memInfo then some (.threw, g.withCache epoch o)
      else if !o.dagMalloc then
        some (.returned none, (g.withCache epoch o).freeing [g.nextPointer])
      else if !o.memInfoAfter then some (.threw, g.withDag epoch o)
      else if !o.memcpy then
        some (.returned none,
          (g.withDag epoch o).freeing [g.nextPointer, (g.withCache epoch o).nextPointer])
      else if !o.monitor then
        some (.returned none,
          (g.withCopy epoch o).freeing [g.nextPointer, (g.withCache epoch o).nextPointer])
      else (generateDagGpu o.schedule o.dagContent (itemCount epoch)).bind fun words =>
        some (.returned (g.withWords epoch o words).dagData, g.withWords epoch o words) := rfl

lemma nextPointer_withCache : (g.withCache epoch o).nextPointer = g.nextPointer + 1 :=
  List.length_append

end Stages

/-- How a call that builds a DAG ends: what fails first, if something fails. -/
inductive Ended (g : Generator) (epoch : BitVec 32) (useGpu : Bool) (o : CallOutcome) :
    Result → Generator → Prop
  | cacheAlloc (h : o.cacheAlloc = false) :
      Ended g epoch useGpu o .threw { g with dagSize := getDatasetSize epoch }
  | useGpu (h : useGpu = false) : Ended g epoch useGpu o (.returned none) (g.emptied epoch)
  | cacheMalloc (h : o.cacheMalloc = false) :
      Ended g epoch useGpu o (.returned none) (g.emptied epoch)
  | memInfo (hmalloc : o.cacheMalloc = true) (h : o.memInfo = false) :
      Ended g epoch useGpu o .threw (g.withCache epoch o)
  | dagMalloc (h : o.dagMalloc = false) :
      Ended g epoch useGpu o (.returned none) ((g.withCache epoch o).freeing [g.nextPointer])
  | memInfoAfter (hdag : o.mallocsDag = true) (h : o.memInfoAfter = false) :
      Ended g epoch useGpu o .threw (g.withDag epoch o)
  | memcpy (hdag : o.mallocsDag = true) (hafter : o.memInfoAfter = true) (h : o.memcpy = false) :
      Ended g epoch useGpu o (.returned none)
        ((g.withDag epoch o).freeing [g.nextPointer, (g.withCache epoch o).nextPointer])
  | monitor (hdag : o.mallocsDag = true) (hafter : o.memInfoAfter = true)
      (h : o.monitor = false) :
      Ended g epoch useGpu o (.returned none)
        ((g.withCopy epoch o).freeing [g.nextPointer, (g.withCache epoch o).nextPointer])
  | made (hkernel : o.runsKernel = true) (words : Words)
      (hwords : generateDagGpu o.schedule o.dagContent (itemCount epoch) = some words) :
      Ended g epoch useGpu o (.returned (g.withWords epoch o words).dagData)
        (g.withWords epoch o words)

variable {g g' : Generator} {epoch : BitVec 32} {useGpu : Bool} {o : CallOutcome}
  {result : Result}

/-- A check that ends the call if it fails. -/
lemma check_cases {passed : Bool} {ended : Result × Generator}
    {rest : Option (Result × Generator)}
    (h : (if !passed then some ended else rest) = some (result, g')) :
    (passed = false ∧ ended = (result, g')) ∨ (passed = true ∧ rest = some (result, g')) := by
  cases passed with
  | false => exact Or.inl ⟨rfl, Option.some.inj h⟩
  | true => exact Or.inr ⟨rfl, h⟩

/-- **How `regenerate` ends.** -/
theorem ended_of_eq (h : g.regenerate epoch useGpu o = some (result, g')) :
    g.Ended epoch useGpu o result g' := by
  rw [regenerate_eq] at h
  rcases check_cases h with ⟨hcache, ⟨⟩⟩ | ⟨hcache, h⟩
  · exact .cacheAlloc hcache
  rcases check_cases h with ⟨hgpu, ⟨⟩⟩ | ⟨hgpu, h⟩
  · exact .useGpu hgpu
  rcases check_cases h with ⟨hmalloc, ⟨⟩⟩ | ⟨hmalloc, h⟩
  · exact .cacheMalloc hmalloc
  rcases check_cases h with ⟨hinfo, ⟨⟩⟩ | ⟨hinfo, h⟩
  · exact .memInfo (by simpa using hmalloc) hinfo
  rcases check_cases h with ⟨hdag, ⟨⟩⟩ | ⟨hdag, h⟩
  · exact .dagMalloc hdag
  -- both buffers are allocated from here on
  have hmallocs : o.mallocsDag = true := by
    simp [CallOutcome.mallocsDag, hcache, hmalloc, hinfo, hdag]
  rcases check_cases h with ⟨hafter, ⟨⟩⟩ | ⟨hafter, h⟩
  · exact .memInfoAfter hmallocs hafter
  rcases check_cases h with ⟨hcopy, ⟨⟩⟩ | ⟨hcopy, h⟩
  · exact .memcpy hmallocs hafter hcopy
  rcases check_cases h with ⟨hmonitor, ⟨⟩⟩ | ⟨hmonitor, h⟩
  · exact .monitor hmallocs hafter hmonitor
  obtain ⟨words, hwords, ⟨⟩⟩ := Option.bind_eq_some_iff.mp h
  exact .made (by simp [CallOutcome.runsKernel, hmallocs, hafter, hcopy, hmonitor]) words hwords

/-- **What `regenerate` can do.**  It throws before it has touched anything but the size, or it
ends without a host buffer, or the kernel has run and the new DAG is in place. -/
theorem regenerate_cases (h : g.regenerate epoch useGpu o = some (result, g')) :
    (result = .threw ∧ g' = { g with dagSize := getDatasetSize epoch }) ∨
      ((∀ host, result ≠ .returned (some host)) ∧ g'.dagData = none) ∨
      (result = .returned g'.dagData ∧ g'.currentEpoch = epoch ∧
        ∃ words, generateDagGpu o.schedule o.dagContent (itemCount epoch) = some words ∧
          g'.gpuDag = some ⟨(getDatasetSize epoch).toNat, words⟩) := by
  have hthrew : ∀ host, Result.threw ≠ .returned (some host) := by simp
  have hnull : ∀ host, Result.returned none ≠ .returned (some host) := by simp
  cases ended_of_eq h with
  | cacheAlloc hcache => exact Or.inl ⟨rfl, rfl⟩
  | useGpu hgpu => exact Or.inr (Or.inl ⟨hnull, rfl⟩)
  | cacheMalloc hmalloc => exact Or.inr (Or.inl ⟨hnull, rfl⟩)
  | memInfo hmalloc hinfo => exact Or.inr (Or.inl ⟨hthrew, rfl⟩)
  | dagMalloc hdag => exact Or.inr (Or.inl ⟨hnull, rfl⟩)
  | memInfoAfter hdag hafter => exact Or.inr (Or.inl ⟨hthrew, rfl⟩)
  | memcpy hdag hafter hcopy => exact Or.inr (Or.inl ⟨hnull, rfl⟩)
  | monitor hdag hafter hmonitor => exact Or.inr (Or.inl ⟨hnull, rfl⟩)
  | made hkernel words hwords =>
    exact Or.inr (Or.inr ⟨rfl, rfl, words, hwords,
      g.device.getElem?_write_write _ _ _ _ _ words⟩)

/-- A call that does not throw returns. -/
lemma ne_threw_of_throws (h : g.regenerate epoch useGpu o = some (result, g'))
    (ho : o.throws = false) : result ≠ .threw := by
  rw [CallOutcome.throws] at ho
  cases ended_of_eq h with
  | cacheAlloc hcache => simp [hcache] at ho
  | memInfo hmalloc hinfo => simp [hmalloc, hinfo] at ho
  | memInfoAfter hdag hafter => simp [hdag, hafter] at ho
  | _ => simp

end Generator

/-! ## What the generator keeps -/

/-- The first `n` items of a buffer hold the indices of their words. -/
def DeviceBuffer.Counts (b : DeviceBuffer) (n : ℕ) : Prop :=
  ∀ w < 8 * n, b.words w = BitVec.ofNat 64 w

/-- While there is a host buffer for an epoch that a seed hash can stand for, there is either no
DAG on the device, or one that the kernel has written for that epoch. -/
def Generator.Consistent (g : Generator) : Prop :=
  g.currentEpoch.toNat < 2000 → g.dagData.isSome →
    g.dDag = none ∨ ∃ b, g.gpuDag = some b ∧ b.Counts (itemCount g.currentEpoch).toNat

lemma toNat_itemCount {epoch : BitVec 32} (h : epoch.toNat < 2000) :
    (itemCount epoch).toNat = (getDatasetSize epoch).toNat / 64 ∧
      (itemCount epoch).toNat ≤ 2 ^ 32 - 2 ^ 20 := by
  have h₆₄ : (64 : BitVec 64).toNat = 64 := rfl
  have hlt := toNat_dagEpoch_lt h
  rw [itemCount, BitVec.toNat_setWidth, BitVec.toNat_udiv, h₆₄, toNat_getDatasetSize]
  omega

lemma Generator.loadFromCache_cases (g : Generator) (epoch : BitVec 32) (file : Option HostBuffer)
    (alloc readOk : Bool) :
    (g.loadFromCache epoch file alloc readOk).2 = g ∨
      (g.loadFromCache epoch file alloc readOk).2.dDag = none := by
  unfold loadFromCache
  split
  · exact Or.inl rfl
  split
  · exact Or.inl rfl
  split
  · exact Or.inl rfl
  split
  · exact Or.inl rfl
  split
  · exact Or.inr rfl
  dsimp only
  split
  · exact Or.inr rfl
  · exact Or.inr rfl

/-- A DAG that the kernel has just written counts. -/
lemma counts_of_generateDagGpu {schedule : Schedule} {content words : Words} {epoch : BitVec 32}
    {size : ℕ} (hsucceeds : schedule.Succeeds) (hepoch : epoch.toNat < 2000)
    (h : generateDagGpu schedule content (itemCount epoch) = some words) :
    DeviceBuffer.Counts ⟨size, words⟩ (itemCount epoch).toNat := by
  intro w hw
  obtain ⟨words', hwords', hcount⟩ :=
    generateDagGpu_eq hsucceeds content (toNat_itemCount hepoch).2
  obtain rfl : words' = words := Option.some.inj (hwords'.symm.trans h)
  show words' w = BitVec.ofNat 64 w
  rw [hcount, if_pos hw]

/-- What one step preserves. -/
theorem Generator.Consistent.step {g g' : Generator} {op : Operation} (hg : g.Consistent)
    (hsucceeds : op.Succeeds) (h : Step g op g') : g'.Consistent := by
  cases h with
  | generate h =>
    rw [Generator.generate] at h
    split at h
    · obtain ⟨-, rfl⟩ := Prod.mk.inj (Option.some.inj h)
      exact hg
    · rcases Generator.regenerate_cases h with
        ⟨-, rfl⟩ | ⟨-, hnone⟩ | ⟨-, hcurrent, words, hwords, hdag⟩
      · exact hg
      · intro _ hsome
        rw [hnone] at hsome
        exact absurd hsome (by decide)
      · -- a new DAG, and its launches succeed
        intro hepoch _
        rw [hcurrent] at hepoch ⊢
        exact Or.inr ⟨_, hdag, counts_of_generateDagGpu hsucceeds hepoch hwords⟩
  | freeHostMemory => exact fun _ hsome => absurd hsome (by simp [freeHostMemory])
  | setCacheDir path => exact hg
  | loadFromCache epoch file alloc readOk =>
    rcases g.loadFromCache_cases epoch file alloc readOk with heq | hnone
    · rw [heq]
      exact hg
    · exact fun _ _ => Or.inl hnone

theorem Reaches.consistent {g : Generator} (h : Reaches g) : g.Consistent :=
  h.invariant Generator.Consistent (fun _ hsome => absurd hsome (by simp [Generator.fresh]))
    fun _ _ _ hg hstep => hg.step hstep.1 hstep.2

/-! ## The items of the DAG -/

/-- The 64 bytes of item `i`. -/
def DeviceBuffer.item (b : DeviceBuffer) (i : ℕ) : Hash64 :=
  toBytes 8 hash64_lanes (Vector.ofFn fun k : Fin 8 => b.words (8 * i + k.1))

/-- The item whose words are their own indices. -/
def countingItem (i : ℕ) : Hash64 :=
  toBytes 8 hash64_lanes (Vector.ofFn fun k : Fin 8 => BitVec.ofNat 64 (8 * i + k.1))

lemma DeviceBuffer.Counts.item {b : DeviceBuffer} {n i : ℕ} (h : b.Counts n) (hi : i < n) :
    b.item i = countingItem i := by
  have hwords : ∀ k : Fin 8, b.words (8 * i + k.1) = BitVec.ofNat 64 (8 * i + k.1) :=
    fun k => h _ (by omega)
  simp only [DeviceBuffer.item, countingItem, hwords]

/-- The DAG on the device holds item `i` of the dataset of an epoch. -/
def Generator.HoldsItem (g : Generator) (epoch : BitVec 32) (i : ℕ) : Prop :=
  ∃ b item, g.gpuDag = some b ∧
    calculateDatasetItem (calculateCache epoch) (BitVec.ofNat 32 i) = some item ∧ b.item i = item

/-- The generator holds a DAG that it has read from disk, and none on the device. -/
def Generator.DiskOnly (g : Generator) (epoch : BitVec 32) : Prop :=
  g.currentEpoch = epoch ∧ g.dagData.isSome ∧ g.dDag = none

/-- **The device holds the items of the dataset that happen to count.**  Let the launches of the
kernel succeed.  When `generate` returns a DAG, item `i` on the device is that of the dataset exactly
when there is a DAG on the device and the words of item `i` of the dataset are their own indices. -/
theorem generate_item_iff {g g' : Generator} {epoch : BitVec 32} {o : CallOutcome}
    {host : HostBuffer} {i : ℕ} (hreach : Reaches g) (hsucceeds : o.schedule.Succeeds)
    (hepoch : epoch.toNat < 2000) (h : g.generate epoch true o = some (.returned (some host), g'))
    (hi : i < (getDatasetSize epoch).toNat / 64) :
    g'.HoldsItem epoch i ↔
      ¬ g.DiskOnly epoch ∧
        calculateDatasetItem (calculateCache epoch) (BitVec.ofNat 32 i) =
          some (countingItem i) := by
  have hitems : i < (itemCount epoch).toNat := by
    rw [(toNat_itemCount hepoch).1]
    exact hi
  -- all that matters is whether there is a DAG on the device, as it counts if there is one
  have hcounting : ∀ {b : DeviceBuffer}, g'.gpuDag = some b → b.Counts (itemCount epoch).toNat →
      (g'.HoldsItem epoch i ↔ calculateDatasetItem (calculateCache epoch) (BitVec.ofNat 32 i) =
        some (countingItem i)) := by
    intro b hdag hcounts
    constructor
    · rintro ⟨b', item, hdag', hitem, rfl⟩
      obtain rfl : b = b' := Option.some.inj (hdag.symm.trans hdag')
      rw [hitem, hcounts.item hitems]
    · intro hitem
      exact ⟨b, _, hdag, hitem, hcounts.item hitems⟩
  rw [Generator.generate] at h
  split at h
  · next hheld =>
    obtain ⟨hhost, rfl⟩ := Prod.mk.inj (Option.some.inj h)
    obtain ⟨hcurrent, hsome⟩ := hheld
    rcases hreach.consistent (by rw [hcurrent]; exact hepoch) hsome with hnone | ⟨b, hdag, hcounts⟩
    · constructor
      · rintro ⟨b, item, hdag, -⟩
        rw [Generator.gpuDag, hnone] at hdag
        exact absurd hdag (by simp)
      · rintro ⟨hdisk, -⟩
        exact absurd ⟨hcurrent, hsome, hnone⟩ hdisk
    · rw [hcurrent] at hcounts
      have hdisk : ¬ g.DiskOnly epoch := by
        rintro ⟨-, -, hnone⟩
        rw [Generator.gpuDag, hnone] at hdag
        exact absurd hdag (by simp)
      rw [hcounting hdag hcounts]
      exact ⟨fun hitem => ⟨hdisk, hitem⟩, fun h => h.2⟩
  · next hheld =>
    have hdisk : ¬ g.DiskOnly epoch := fun hd => hheld ⟨hd.1, hd.2.1⟩
    rcases Generator.regenerate_cases h with
      ⟨hthrew, -⟩ | ⟨hnull, -⟩ | ⟨-, -, words, hwords, hdag⟩
    · exact absurd hthrew (by simp)
    · exact absurd rfl (hnull host)
    · rw [hcounting hdag (counts_of_generateDagGpu hsucceeds hepoch hwords)]
      exact ⟨fun hitem => ⟨hdisk, hitem⟩, fun h => h.2⟩

/-! ## A first call, and a DAG from disk -/

/-- Every call succeeds, and the writes happen in the order of the grid. -/
def CallOutcome.ok : CallOutcome :=
  { cacheAlloc := true, cacheMalloc := true, memInfo := true, dagMalloc := true,
    memInfoAfter := true, memcpy := true, monitor := true, hostMalloc := true,
    cacheContent := fun _ => 0, dagContent := fun _ => 0,
    schedule :=
      { succeeds := fun _ _ => true, order := fun _ count => grid count,
        subperm := fun _ _ => List.Subperm.refl _, perm := fun _ _ _ => List.Perm.refl _ } }

lemma CallOutcome.succeeds_ok : CallOutcome.ok.schedule.Succeeds := fun _ _ => rfl

lemma Generator.regenerate_ok (g : Generator) {epoch : BitVec 32} (h : epoch.toNat < 2000) :
    ∃ g', g.regenerate epoch true CallOutcome.ok = some (.returned (some placeholder), g') := by
  obtain ⟨words, hwords, -⟩ := generateDagGpu_ends CallOutcome.ok.schedule
    CallOutcome.ok.dagContent (toNat_itemCount h).2
  exact ⟨_, Option.bind_eq_some_iff.mpr ⟨words, hwords, rfl⟩⟩

/-- A first call returns the placeholder. -/
lemma generate_fresh : ∃ g', Generator.fresh.generate 0 true CallOutcome.ok =
    some (.returned (some placeholder), g') := by
  obtain ⟨g', h⟩ := Generator.fresh.regenerate_ok (by decide : (0 : BitVec 32).toNat < 2000)
  have hnone : ¬ (Generator.fresh.currentEpoch = 0 ∧ Generator.fresh.dagData.isSome) := by
    simp [Generator.fresh]
  exact ⟨g', (if_neg hnone).trans h⟩

/-- An item of the DAG that a first call generates for epoch 0. -/
theorem generate_item_iff_fresh : ∃ g',
    Generator.fresh.generate 0 true CallOutcome.ok = some (.returned (some placeholder), g') ∧
      (g'.HoldsItem 0 1000000 ↔ ¬ Generator.fresh.DiskOnly 0 ∧
        calculateDatasetItem (calculateCache 0) (BitVec.ofNat 32 1000000) =
          some (countingItem 1000000)) := by
  obtain ⟨g', h⟩ := generate_fresh
  exact ⟨g', h,
    generate_item_iff ⟨[], Run.refl _⟩ CallOutcome.succeeds_ok (by decide) h (by decide)⟩

/-- A file of the right size is taken for the DAG of an epoch. -/
lemma Generator.loadFromCache_eq (g : Generator) {epoch : BitVec 32} {file : HostBuffer}
    (hdir : g.cacheDir ≠ "") (hmin : ¬ file.size < 64)
    (hsize : file.size = (getDatasetSize epoch).toNat) :
    g.loadFromCache epoch (some file) true true =
      (true, { g.cleanup with dagData := some file, dagSize := BitVec.ofNat 64 file.size }) := by
  unfold loadFromCache
  rw [if_neg hdir]
  dsimp only
  rw [if_neg hmin, if_neg (not_not_intro hsize)]
  rfl

/-- A DAG file of epoch 0. -/
def diskFile : HostBuffer := { size := 2 ^ 30, byte := fun _ => 0 }

/-- A generator that has read a DAG of epoch 0 from disk. -/
def diskGenerator : Generator :=
  ((Generator.fresh.setCacheDir "cache").loadFromCache 0 (some diskFile) true true).2

lemma reaches_diskGenerator : Reaches diskGenerator := by
  have hsetCacheDir : (Operation.setCacheDir "cache").Succeeds := trivial
  have hload : (Operation.loadFromCache 0 (some diskFile) true true).Succeeds := trivial
  exact ⟨_, ((Run.refl _).snoc ⟨hsetCacheDir, .setCacheDir _ _⟩).snoc
    ⟨hload, .loadFromCache _ _ _ _ _⟩⟩

lemma diskGenerator_eq : diskGenerator =
    { Generator.fresh with
      cacheDir := "cache"
      dagData := some diskFile
      dagSize := BitVec.ofNat 64 diskFile.size } := by
  have hdir : (Generator.fresh.setCacheDir "cache").cacheDir ≠ "" := by decide
  rw [diskGenerator, Generator.loadFromCache_eq _ hdir (by decide) (by decide)]
  rfl

/-- A generator that has read a DAG from disk returns it, and there is no DAG on the device. -/
theorem diskGenerator_not_holdsItem : Reaches diskGenerator ∧
    diskGenerator.generate 0 true CallOutcome.ok =
      some (.returned (some diskFile), diskGenerator) ∧
    ¬ diskGenerator.HoldsItem 0 0 := by
  refine ⟨reaches_diskGenerator, ?_, ?_⟩
  · have hheld : diskGenerator.currentEpoch = 0 ∧ diskGenerator.dagData.isSome := by
      rw [diskGenerator_eq]
      exact ⟨rfl, rfl⟩
    have hdata : diskGenerator.dagData = some diskFile := by rw [diskGenerator_eq]
    rw [Generator.generate, if_pos hheld, hdata]
  · rintro ⟨b, item, hdag, -⟩
    rw [diskGenerator_eq] at hdag
    exact absurd hdag (by simp [Generator.gpuDag, Generator.fresh])

end OhMyMiner.Dag
