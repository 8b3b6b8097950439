/-
# The DAG on disk

`DagGenerator::Impl::saveToCache` (`src/dag/dag_generator.cpp`) writes `dagSize_` bytes from the
host buffer, but beside a DAG on the device that buffer is the placeholder of 128 bytes.  And
`loadFromCache` does not set `currentEpoch_`, so the DAG it has read belongs to whatever epoch was
current before.
-/
import OhMyMiner.Dag.Failure

namespace OhMyMiner.Dag

open Lib Ethash

/-! ## The code -/

/-- `saveToCache`: the result and the file, or `none` if it reads behind the host buffer.  `opens`
and `writes` say whether the file can be opened and written. -/
def Generator.saveToCache (g : Generator) (opens writes : Bool) :
    Option (Bool × Option HostBuffer) :=
  if g.cacheDir = "" then some (false, none)
  else match g.dagData with
    | none => some (false, none)
    | some host =>
      if !opens then some (false, none)
      else if host.size < g.dagSize.toNat then none
      else if !writes then some (false, none)
      else some (true, some { size := g.dagSize.toNat, byte := host.byte })

/-- Item `i` of a host buffer. -/
def HostBuffer.item (b : HostBuffer) (i : ℕ) : Hash64 :=
  Vector.ofFn fun k : Fin 64 => b.byte (64 * i + k.1)

/-- The items of the buffer are those of the dataset of the epoch. -/
def HostBuffer.HoldsItems (b : HostBuffer) (epoch : BitVec 32) : Prop :=
  ∀ i < (getDatasetSize epoch).toNat / 64,
    calculateDatasetItem (calculateCache epoch) (BitVec.ofNat 32 i) = some (b.item i)

namespace Generator

/-- The host buffer is the dataset of the epoch, and `hasEpoch` says so. -/
def Restored (g : Generator) (epoch : BitVec 32) : Prop :=
  (∃ host, g.dagData = some host ∧ host.size = (getDatasetSize epoch).toNat ∧
    host.HoldsItems epoch) ∧ g.hasEpoch epoch = true

/-- `saveToCache` stays inside of the host buffer. -/
def SavesInside (g : Generator) : Prop := ∀ opens writes, (g.saveToCache opens writes).isSome

/-- The host buffer, if there is one, is not shorter than the size. -/
def HostFits (g : Generator) (size : ℕ) : Prop := ∀ host, g.dagData = some host → size ≤ host.size

/-- No operation sets a cache directory beside a host buffer that is shorter than the size, and with
a cache directory no call of `generate` leaves a placeholder, or changes the size above a shorter
buffer by throwing before it has let go of it. -/
def CacheSafe (g : Generator) : Operation → Prop
  | .generate epoch useGpu o =>
    g.hasEpoch epoch = true ∨ g.cacheDir = "" ∨
      if useGpu && o.runsKernel then o.hostMalloc = false
      else o.cacheAlloc = true ∨ g.HostFits (getDatasetSize epoch).toNat
  | .setCacheDir path => path = "" ∨ g.HostFits g.dagSize.toNat
  | _ => True

/-! ## What is read -/

variable {g g' : Generator} {epoch : BitVec 32} {useGpu : Bool} {o : CallOutcome}
  {result : Result} {op : Operation}

lemma savesInside_iff : g.SavesInside ↔ g.cacheDir = "" ∨ g.HostFits g.dagSize.toNat := by
  constructor
  · intro hsaves
    rw [or_iff_not_imp_left]
    intro hdir host hhost
    by_contra hshort
    have hread := hsaves true true
    rw [saveToCache, if_neg hdir, hhost] at hread
    dsimp only at hread
    rw [if_neg (by simp), if_pos (Nat.not_le.mp hshort)] at hread
    exact absurd hread (by simp)
  · intro hsafe opens writes
    rw [saveToCache]
    split
    · rfl
    · next hdir =>
      cases hhost : g.dagData with
      | none => rfl
      | some host =>
        have hfits : ¬ host.size < g.dagSize.toNat :=
          Nat.not_lt.mpr (hsafe.resolve_left hdir host hhost)
        dsimp only
        rw [if_neg hfits]
        cases opens <;> cases writes <;> rfl

/-- Without a host buffer nothing is read. -/
lemma savesInside_of_none (h : g.dagData = none) : g.SavesInside :=
  savesInside_iff.mpr (Or.inr fun host hhost => absurd (h.symm.trans hhost) (by simp))

/-- The placeholder is shorter than any dataset. -/
lemma not_hostFits_placeholder (hdata : g.dagData = some placeholder)
    (hsize : g.dagSize = getDatasetSize epoch) : ¬ g.HostFits g.dagSize.toNat := by
  intro hfits
  have hle : (getDatasetSize epoch).toNat ≤ 128 := by
    rw [← hsize]
    exact hfits placeholder hdata
  rw [toNat_getDatasetSize] at hle
  omega

/-! ## What a call leaves in the host buffer -/

lemma cacheDir_of_eq (h : g.regenerate epoch useGpu o = some (result, g')) :
    g'.cacheDir = g.cacheDir := by
  cases ended_of_eq h <;> rfl

/-- A call that does not come to the kernel has let go of the host buffer, once there is a cache. -/
lemma dagData_of_not_runsKernel (h : g.regenerate epoch useGpu o = some (result, g'))
    (hkernel : (useGpu && o.runsKernel) = false) (hcache : o.cacheAlloc = true) :
    g'.dagData = none := by
  cases useGpu with
  | false =>
    rw [regenerate_eq, hcache] at h
    obtain ⟨-, rfl⟩ := Prod.mk.inj (Option.some.inj h)
    rfl
  | true =>
    cases ended_of_eq h with
    | cacheAlloc hnone => exact absurd (hcache.symm.trans hnone) (by simp)
    | made hruns => exact absurd (hkernel.symm.trans hruns) (by simp)
    | _ => rfl

/-- **Which calls of `generate` leave a buffer that can be saved.** -/
lemma savesInside_regenerate_iff (h : g.regenerate epoch useGpu o = some (result, g')) :
    g'.SavesInside ↔ g.cacheDir = "" ∨
      if useGpu && o.runsKernel then o.hostMalloc = false
      else o.cacheAlloc = true ∨ g.HostFits (getDatasetSize epoch).toNat := by
  cases hkernel : useGpu && o.runsKernel with
  | false =>
    rw [if_neg (by simp)]
    cases hcache : o.cacheAlloc with
    | true =>
      exact iff_of_true (savesInside_of_none (dagData_of_not_runsKernel h hkernel hcache))
        (Or.inr (Or.inl rfl))
    | false =>
      rw [regenerate_eq, hcache] at h
      obtain ⟨-, rfl⟩ := Prod.mk.inj (Option.some.inj h)
      rw [savesInside_iff, or_iff_right (by simp : ¬ false = true)]
      rfl
  | true =>
    rw [if_pos rfl, savesInside_iff, cacheDir_of_eq h]
    refine or_congr_right ?_
    have hdata := (takesOver_of_runsKernel h hkernel).dagData
    cases hmalloc : o.hostMalloc with
    | true =>
      rw [if_pos hmalloc] at hdata
      exact iff_of_false (not_hostFits_placeholder hdata (dagSize_of_eq h)) (by simp)
    | false =>
      rw [if_neg (by simp [hmalloc])] at hdata
      exact iff_of_true (fun host hhost => absurd (hdata.symm.trans hhost) (by simp)) rfl

/-! ## What a file leaves in the host buffer -/

/-- How `loadFromCache` ends: without a change, without a host buffer, or with the file in it. -/
inductive Loaded (g : Generator) (epoch : BitVec 32) (file : Option HostBuffer) :
    Bool → Generator → Prop
  | kept : Loaded g epoch file false g
  | emptied {h : Generator} (hdata : h.dagData = none) : Loaded g epoch file false h
  | taken (host : HostBuffer) (hfile : file = some host)
      (hsize : host.size = (getDatasetSize epoch).toNat) :
      Loaded g epoch file true
        { g.cleanup with dagData := some host, dagSize := BitVec.ofNat 64 host.size }

lemma loaded (g : Generator) (epoch : BitVec 32) (file : Option HostBuffer) (alloc readOk : Bool) :
    g.Loaded epoch file (g.loadFromCache epoch file alloc readOk).1
      (g.loadFromCache epoch file alloc readOk).2 := by
  unfold loadFromCache
  split
  · exact .kept
  split
  · exact .kept
  split
  · exact .kept
  split
  · exact .kept
  next hsize =>
  split
  · exact .emptied rfl
  dsimp only
  split
  · exact .emptied rfl
  · exact .taken _ rfl (not_not.mp hsize)

/-- A file that is taken fills the host buffer. -/
lemma Loaded.savesInside {file : Option HostBuffer} {accepted : Bool} (hg : g.SavesInside)
    (h : g.Loaded epoch file accepted g') : g'.SavesInside := by
  cases h with
  | kept => exact hg
  | emptied hdata => exact savesInside_of_none hdata
  | taken host hfile hsize =>
    refine savesInside_iff.mpr (Or.inr fun host' hhost => ?_)
    obtain rfl := Option.some.inj hhost
    show (BitVec.ofNat 64 host.size).toNat ≤ host.size
    rw [BitVec.toNat_ofNat]
    exact Nat.mod_le _ _

/-- A file that is taken is the dataset, and the epoch was current before, exactly if the dataset
is restored. -/
lemma Loaded.restored_iff {host : HostBuffer} (h : g.Loaded epoch (some host) true g') :
    g'.Restored epoch ↔ host.HoldsItems epoch ∧ g.currentEpoch = epoch := by
  cases h with
  | taken host' hfile hsize =>
    obtain rfl := Option.some.inj hfile
    rw [Restored, hasEpoch, decide_eq_true_iff]
    constructor
    · rintro ⟨⟨host', hhost, -, hitems⟩, hepoch, -⟩
      obtain rfl := Option.some.inj hhost
      exact ⟨hitems, hepoch⟩
    · rintro ⟨hitems, hepoch⟩
      exact ⟨⟨host, rfl, hsize, hitems⟩, hepoch, rfl⟩

/-- The file that `saveToCache` writes has the bytes of the host buffer. -/
lemma byte_of_saveToCache {file : HostBuffer} {opens writes : Bool}
    (h : g.saveToCache opens writes = some (true, some file)) :
    ∃ host, g.dagData = some host ∧ file.byte = host.byte := by
  rw [saveToCache] at h
  split at h
  · exact absurd (congrArg Prod.fst (Option.some.inj h)) (by simp)
  cases hhost : g.dagData with
  | none =>
    rw [hhost] at h
    exact absurd (congrArg Prod.fst (Option.some.inj h)) (by simp)
  | some host =>
    rw [hhost] at h
    dsimp only at h
    split at h
    · exact absurd (congrArg Prod.fst (Option.some.inj h)) (by simp)
    split at h
    · exact absurd h (by simp)
    split at h
    · exact absurd (congrArg Prod.fst (Option.some.inj h)) (by simp)
    · obtain rfl := Option.some.inj (congrArg Prod.snd (Option.some.inj h))
      exact ⟨host, rfl, rfl⟩

/-- A buffer that is as long as the size is saved as it is. -/
lemma saveToCache_eq {host : HostBuffer} (hdir : g.cacheDir ≠ "") (hhost : g.dagData = some host)
    (hsize : g.dagSize.toNat = host.size) :
    g.saveToCache true true = some (true, some host) := by
  rw [saveToCache, if_neg hdir, hhost]
  dsimp only
  rw [hsize, if_neg (by simp), if_neg (lt_irrefl _)]
  rfl

/-! ## Whole runs -/

/-- **Which operations keep the host buffer fit for saving.** -/
theorem SavesInside.step_iff (hg : g.SavesInside) (hstep : Step g op g') :
    g'.SavesInside ↔ g.CacheSafe op := by
  cases hstep with
  | freeHostMemory => exact iff_of_true (savesInside_of_none rfl) trivial
  | setCacheDir path => exact savesInside_iff
  | loadFromCache epoch file alloc readOk =>
    exact iff_of_true ((g.loaded epoch file alloc readOk).savesInside hg) trivial
  | @generate _ epoch useGpu o result h =>
    rw [CacheSafe, hasEpoch, decide_eq_true_iff]
    rw [Generator.generate] at h
    split at h
    · next hheld =>
      obtain ⟨-, rfl⟩ := Prod.mk.inj (Option.some.inj h)
      exact iff_of_true hg (Or.inl hheld)
    · next hheld =>
      rw [savesInside_regenerate_iff h, or_iff_right hheld]

/-- **When the DAG on disk is right.**  In every run of such operations `saveToCache` stays inside
of the host buffer, and these are the only runs of which this holds throughout.  A file that was
saved and is loaded for an epoch restores the dataset of that epoch, under that epoch, exactly if
the buffer that was saved has held its items, and the epoch was current before. -/
theorem run_diskCache_iff (ops : List Operation) (g : Generator) :
    (Run (fun g op g' => Step g op g' ∧ g.CacheSafe op) fresh ops g → g.SavesInside) ∧
      (Run (fun g op g' => Step g op g' ∧ g.CacheSafe op) fresh ops g ↔
        Run (fun g op g' => Step g op g' ∧ g'.SavesInside) fresh ops g) ∧
      ∀ opens writes file, g.saveToCache opens writes = some (true, some file) →
        ∀ (h : Generator) epoch alloc readOk h',
          h.loadFromCache epoch (some file) alloc readOk = (true, h') →
            (h'.Restored epoch ↔
              (∃ host, g.dagData = some host ∧ host.HoldsItems epoch) ∧ h.currentEpoch = epoch)
    := by
  have hstart : fresh.SavesInside := savesInside_of_none rfl
  have hstep : ∀ g op g', (g : Generator).SavesInside → Step g op g' ∧ g.CacheSafe op →
      g'.SavesInside := fun g op g' hg hop => (hg.step_iff hop.1).mpr hop.2
  refine ⟨fun hrun => hrun.invariant SavesInside hstart hstep, ?_, ?_⟩
  · exact Run.congr SavesInside hstart hstep fun g op g' hg =>
      and_congr_right fun hop => (hg.step_iff hop).symm
  · intro opens writes file hsave h epoch alloc readOk h' hload
    obtain ⟨host, hhost, hbyte⟩ := byte_of_saveToCache hsave
    have hloaded := h.loaded epoch (some file) alloc readOk
    rw [hload] at hloaded
    have hitems : file.HoldsItems epoch ↔ host.HoldsItems epoch := by
      simp only [HostBuffer.HoldsItems, HostBuffer.item, hbyte]
    rw [hloaded.restored_iff, hitems]
    refine and_congr_left fun _ => ⟨fun h => ⟨host, hhost, h⟩, ?_⟩
    rintro ⟨host', hhost', h⟩
    obtain rfl := Option.some.inj (hhost.symm.trans hhost')
    exact h

/-! ## A placeholder, and a DAG under the wrong epoch -/

/-- A DAG file of epoch 1. -/
def diskFile₁ : HostBuffer := { size := 2 ^ 30 + 2 ^ 23, byte := fun _ => 0 }

/-- Beside a DAG on the device `saveToCache` reads behind the placeholder; and a file that was saved
and is loaded for epoch 1 is not there for `hasEpoch`. -/
theorem exists_not_restored :
    (∃ g, Run Step fresh [.setCacheDir "cache", .generate 0 true CallOutcome.ok] g ∧
      g.saveToCache true true = none) ∧
    ∃ g file g', Run Step fresh
        [.setCacheDir "cache", .loadFromCache 1 (some diskFile₁) true true] g ∧
      g.saveToCache true true = some (true, some file) ∧
      (fresh.setCacheDir "cache").loadFromCache 1 (some file) true true = (true, g') ∧
      g'.hasEpoch 1 = false := by
  have hdir : (fresh.setCacheDir "cache").cacheDir ≠ "" := by decide
  constructor
  · obtain ⟨g, hgenerate⟩ :=
      (fresh.setCacheDir "cache").regenerate_ok (by simp : (0 : BitVec 32).toNat < 2000)
    have hnone : ¬ ((fresh.setCacheDir "cache").currentEpoch = 0 ∧
        (fresh.setCacheDir "cache").dagData.isSome) := by simp [setCacheDir, fresh]
    have hstep : Step (fresh.setCacheDir "cache") (.generate 0 true CallOutcome.ok) g :=
      .generate ((if_neg hnone).trans hgenerate)
    refine ⟨g, .snoc (l := [_]) (.snoc (l := []) (.refl _) (.setCacheDir _ "cache")) hstep, ?_⟩
    have hdata : g.dagData = some placeholder := (takesOver_of_runsKernel hgenerate rfl).dagData
    have hshort : ¬ g.dagSize.toNat ≤ placeholder.size := fun hle =>
      not_hostFits_placeholder hdata (dagSize_of_eq hgenerate) fun host hhost => by
        obtain rfl := Option.some.inj (hdata.symm.trans hhost)
        exact hle
    rw [saveToCache, cacheDir_of_eq hgenerate, if_neg hdir, hdata]
    exact if_pos (Nat.not_le.mp hshort)
  · have hsize : diskFile₁.size = (getDatasetSize 1).toNat := by decide
    have hword : (BitVec.ofNat 64 diskFile₁.size).toNat = diskFile₁.size := by decide
    have hload := (fresh.setCacheDir "cache").loadFromCache_eq hdir (by decide) hsize
    have hstep := Step.loadFromCache (fresh.setCacheDir "cache") 1 (some diskFile₁) true true
    rw [hload] at hstep
    refine ⟨_, diskFile₁, _,
      .snoc (l := [_]) (.snoc (l := []) (.refl _) (.setCacheDir _ "cache")) hstep, ?_, hload, ?_⟩
    · exact saveToCache_eq hdir rfl hword
    · rw [hasEpoch, decide_eq_false_iff_not]
      exact fun hepoch => absurd hepoch.1 (by simp [cleanup, setCacheDir, fresh])

end Generator

end OhMyMiner.Dag
