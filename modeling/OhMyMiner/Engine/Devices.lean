/-
# Several devices

`DeviceInitializer::initializeAllDevices` (`src/cuda/modules/device_initializer.cu`) and the parts
of the device manager that look at its devices (`src/cuda/device_manager.cu`).  A device has a
range of nonces of its own, of which the initialisation knows nothing: all devices keep the
default.  And the mode that the accessors ask for is never entered, so that they see no device.

Whether a device can be initialised is for CUDA to say; here it is a function of the device id.
-/
import Mathlib.Data.List.AList
import OhMyMiner.Lib.Loop
import OhMyMiner.Lib.Transition

namespace OhMyMiner.Engine.MultiGpu

open Lib

/-! ## The code -/

/-- What the search of a device uses of a `DeviceState`. -/
structure DeviceState where
  deviceId : ℤ
  initialized : Bool
  dagSize : ℕ
  nonceOffset : BitVec 32
  nonceRange : BitVec 32
  totalHashes : BitVec 64

/-- A `DeviceState` with its default values. -/
def DeviceState.new (deviceId : ℤ) (dagSize : ℕ) : DeviceState :=
  { deviceId := deviceId, initialized := false, dagSize := dagSize, nonceOffset := 0,
    nonceRange := BitVec.allOnes 32, totalHashes := 0 }

/-- `std::map<int, std::unique_ptr<DeviceState>>`. -/
abbrev DeviceStates : Type := AList fun _ : ℤ => DeviceState

/-- `DeviceInitializer::initDevice`; `works` tells whether all calls of CUDA succeed. -/
def initDevice (works : Bool) (state : DeviceState) : Bool × DeviceState :=
  if works then (true, { state with initialized := true })
  else (false, { state with initialized := false })

/-- One pass of the loop of `initializeAllDevices`: `successCount` and the devices. -/
def initNext (works : ℕ → Bool) (dagSize i : ℕ) (s : ℕ × DeviceStates) : ℕ × DeviceStates :=
  match initDevice (works i) (DeviceState.new i dagSize) with
  | (true, state) => (s.1 + 1, s.2.insert i state)
  | (false, _) => s

/-- `DeviceInitializer::initializeAllDevices`: what is returned, and the devices. -/
def initializeAllDevices (deviceCount : ℕ) (works : ℕ → Bool) (dagSize : ℕ)
    (deviceStates : DeviceStates) : ℕ × DeviceStates :=
  if deviceCount ≤ 0 then (0, deviceStates)
  else forLoop deviceCount (0, deviceStates) fun i _ s => initNext works dagSize i s

/-- The members of `DeviceManager::Impl` that say which devices there are. -/
structure DeviceManager where
  deviceStates : DeviceStates
  isMultiGpuMode : Bool

/-- The launch parameters that depend on the device. -/
structure DeviceLaunch where
  deviceId : ℤ
  startNonce : BitVec 64
  searchCount : BitVec 64

namespace DeviceManager

/-- The constructor. -/
def initial : DeviceManager := { deviceStates := ∅, isMultiGpuMode := false }

/-- `DeviceManager::initializeAllDevices`. -/
def initializeAllDevices (m : DeviceManager) (deviceCount : ℕ) (works : ℕ → Bool)
    (dagSize : ℕ) : ℕ × DeviceManager :=
  let result := MultiGpu.initializeAllDevices deviceCount works dagSize m.deviceStates
  (result.1, { m with deviceStates := result.2 })

/-- `DeviceManager::initDeviceWithMultiGpu`, which does not look at the number of devices. -/
def initDeviceWithMultiGpu (m : DeviceManager) (deviceId _devicesTotal : ℤ) (works : Bool)
    (dagSize : ℕ) : Bool × DeviceManager :=
  match initDevice works (DeviceState.new deviceId dagSize) with
  | (true, state) => (true, { m with deviceStates := m.deviceStates.insert deviceId state })
  | (false, _) => (false, m)

/-- `DeviceManager::getDeviceCount`. -/
def getDeviceCount (m : DeviceManager) : ℕ :=
  if m.isMultiGpuMode then m.deviceStates.entries.countP fun entry => entry.2.initialized else 0

/-- `DeviceManager::isDeviceInitialized`. -/
def isDeviceInitialized (m : DeviceManager) (deviceId : ℤ) : Bool :=
  if !m.isMultiGpuMode then false
  else
    match m.deviceStates.lookup deviceId with
    | some state => state.initialized
    | none => false

/-- `DeviceManager::searchDevice`, up to the results of the kernel: the launch, if there is one,
and the statistics that it changes. -/
def searchDevice (m : DeviceManager) (deviceId : ℤ) : Option DeviceLaunch × DeviceManager :=
  if m.isMultiGpuMode = false ∨ deviceId < 0 ∨ m.deviceStates.entries.length ≤ deviceId then
    (none, m)
  else
    match m.deviceStates.lookup deviceId with
    | none => (none, m)
    | some state =>
      if !state.initialized then (none, m)
      else
        let launch : DeviceLaunch :=
          { deviceId := deviceId, startNonce := state.nonceOffset.setWidth 64,
            searchCount := state.nonceRange.setWidth 64 }
        let state : DeviceState :=
          { state with totalHashes := state.totalHashes + state.nonceRange.setWidth 64 }
        (some launch, { m with deviceStates := m.deviceStates.insert deviceId state })

/-- A call of the device manager. -/
inductive Call where
  | initializeAllDevices (deviceCount : ℕ) (works : ℕ → Bool) (dagSize : ℕ)
  | initDeviceWithMultiGpu (deviceId devicesTotal : ℤ) (works : Bool) (dagSize : ℕ)
  | searchDevice (deviceId : ℤ)

/-- The manager after a call. -/
def call (m : DeviceManager) : Call → DeviceManager
  | .initializeAllDevices deviceCount works dagSize =>
    (m.initializeAllDevices deviceCount works dagSize).2
  | .initDeviceWithMultiGpu deviceId devicesTotal works dagSize =>
    (m.initDeviceWithMultiGpu deviceId devicesTotal works dagSize).2
  | .searchDevice deviceId => (m.searchDevice deviceId).2

/-- Calls, one after the other. -/
def Step (m : DeviceManager) (call : Call) (m' : DeviceManager) : Prop := m' = m.call call

end DeviceManager

/-! ## The loop over the devices -/

/-- The device is one of those that can be initialised. -/
def Succeeds (deviceCount : ℕ) (works : ℕ → Bool) (deviceId : ℤ) : Prop :=
  ∃ k < deviceCount, deviceId = k ∧ works k = true

/-- A device after its initialisation. -/
def initializedState (deviceId : ℤ) (dagSize : ℕ) : DeviceState :=
  { DeviceState.new deviceId dagSize with initialized := true }

lemma initNext_eq (works : ℕ → Bool) (dagSize i : ℕ) (s : ℕ × DeviceStates) :
    initNext works dagSize i s =
      if works i then
        ((s.1 + 1, s.2.insert (i : ℤ) (initializedState i dagSize)) : ℕ × DeviceStates)
      else s := by
  rw [initNext, initDevice]
  cases works i <;> rfl

lemma initializeAllDevices_eq (deviceCount : ℕ) (works : ℕ → Bool) (dagSize : ℕ)
    (deviceStates : DeviceStates) :
    initializeAllDevices deviceCount works dagSize deviceStates =
      forLoop deviceCount (0, deviceStates) fun i _ s => initNext works dagSize i s := by
  rw [initializeAllDevices]
  split
  · next h =>
    obtain rfl := Nat.le_zero.mp h
    rfl
  · rfl

/-- What is returned is the number of devices that work. -/
lemma initializeAllDevices_fst (deviceCount : ℕ) (works : ℕ → Bool) (dagSize : ℕ)
    (deviceStates : DeviceStates) :
    (initializeAllDevices deviceCount works dagSize deviceStates).1 =
      (List.range deviceCount).countP works := by
  rw [initializeAllDevices_eq]
  refine forLoop_induction (fun i (s : ℕ × DeviceStates) => s.1 = (List.range i).countP works)
    rfl ?_
  intro i _ s ih
  rw [initNext_eq, List.range_succ, List.countP_append, ← ih]
  cases hworks : works i <;> simp [hworks]

/-- The devices that work are there, with their default ranges. -/
lemma lookup_initializeAllDevices {deviceCount : ℕ} {works : ℕ → Bool} {dagSize : ℕ}
    {deviceId : ℤ} {state : DeviceState} :
    (initializeAllDevices deviceCount works dagSize ∅).2.lookup deviceId = some state ↔
      Succeeds deviceCount works deviceId ∧ state = initializedState deviceId dagSize := by
  rw [initializeAllDevices_eq]
  refine forLoop_induction (fun i (s : ℕ × DeviceStates) => s.2.lookup deviceId = some state ↔
    Succeeds i works deviceId ∧ state = initializedState deviceId dagSize) ?_ ?_
  · constructor
    · intro h
      exact absurd h (by simp)
    · rintro ⟨⟨k, hk, -⟩, -⟩
      exact absurd hk (Nat.not_lt_zero k)
  · intro i _ s ih
    rw [initNext_eq]
    have hsucc : Succeeds (i + 1) works deviceId ↔
        Succeeds i works deviceId ∨ (deviceId = i ∧ works i = true) := by
      constructor
      · rintro ⟨k, hk, hid, hworks⟩
        rcases Nat.lt_succ_iff_lt_or_eq.mp hk with hlt | rfl
        · exact Or.inl ⟨k, hlt, hid, hworks⟩
        · exact Or.inr ⟨hid, hworks⟩
      · rintro (⟨k, hk, hid, hworks⟩ | ⟨hid, hworks⟩)
        · exact ⟨k, by omega, hid, hworks⟩
        · exact ⟨i, by omega, hid, hworks⟩
    rw [hsucc]
    by_cases hworks : works i = true
    · rw [if_pos hworks]
      by_cases hid : deviceId = i
      · subst hid
        rw [AList.lookup_insert]
        simp [hworks, eq_comm]
      · rw [AList.lookup_insert_ne hid, ih]
        simp [hid]
    · rw [if_neg hworks, ih]
      simp [hworks]

/-! ## The ranges -/

/-- The nonces of a device. -/
def DeviceState.nonces (state : DeviceState) : Set ℕ :=
  Set.Ico state.nonceOffset.toNat (state.nonceOffset.toNat + state.nonceRange.toNat)

/-- The devices have disjoint nonces, and all of them together, if none has failed, have all nonces
of 32 bits. -/
structure Partitioned (deviceStates : DeviceStates) (deviceCount : ℕ) (works : ℕ → Bool) :
    Prop where
  disjoint : ∀ i j state state', i ≠ j → deviceStates.lookup i = some state →
    deviceStates.lookup j = some state' → ∀ nonce ∈ state.nonces, nonce ∉ state'.nonces
  covers : (∀ k < deviceCount, works k = true) → ∀ nonce < 2 ^ 32,
    ∃ i state, deviceStates.lookup i = some state ∧ nonce ∈ state.nonces

/-- Every device has all nonces but the last. -/
lemma mem_nonces_initializedState {deviceId : ℤ} {dagSize nonce : ℕ} :
    nonce ∈ (initializedState deviceId dagSize).nonces ↔ nonce < 2 ^ 32 - 1 := by
  have hoffset : (initializedState deviceId dagSize).nonceOffset.toNat = 0 := rfl
  have hrange : (initializedState deviceId dagSize).nonceRange.toNat = 2 ^ 32 - 1 :=
    BitVec.toNat_allOnes
  rw [DeviceState.nonces, hoffset, hrange, Set.mem_Ico]
  omega

/-- Two devices that work have the same nonces. -/
lemma Partitioned.eq_of_works {deviceCount dagSize : ℕ} {works : ℕ → Bool}
    (h : Partitioned (initializeAllDevices deviceCount works dagSize ∅).2 deviceCount works)
    {i j : ℕ} (hi : i < deviceCount) (hj : j < deviceCount) (hwi : works i = true)
    (hwj : works j = true) : i = j := by
  by_contra hne
  have hlookup : ∀ k < deviceCount, works k = true →
      (initializeAllDevices deviceCount works dagSize ∅).2.lookup (k : ℤ) =
        some (initializedState k dagSize) :=
    fun k hk hwk => lookup_initializeAllDevices.mpr ⟨⟨k, hk, rfl, hwk⟩, rfl⟩
  have hzero : ∀ k : ℤ, 0 ∈ (initializedState k dagSize).nonces :=
    fun k => mem_nonces_initializedState.mpr (by decide)
  exact h.disjoint i j _ _ (by exact_mod_cast hne) (hlookup i hi hwi) (hlookup j hj hwj) 0 (hzero i)
    (hzero j)

/-- The last nonce of 32 bits is of no device. -/
lemma Partitioned.exists_failed {deviceCount dagSize : ℕ} {works : ℕ → Bool}
    (h : Partitioned (initializeAllDevices deviceCount works dagSize ∅).2 deviceCount works) :
    ∃ k < deviceCount, works k = false := by
  by_contra hnone
  have hall : ∀ k < deviceCount, works k = true := by
    intro k hk
    by_contra hfalse
    exact hnone ⟨k, hk, by simpa using hfalse⟩
  obtain ⟨i, state, hstate, hmem⟩ := h.covers hall (2 ^ 32 - 1) (by decide)
  obtain ⟨-, rfl⟩ := lookup_initializeAllDevices.mp hstate
  exact absurd (mem_nonces_initializedState.mp hmem) (lt_irrefl _)

/-- **When the devices share the nonces out**: one of them has failed, and at most one has not. -/
theorem partitioned_iff (deviceCount : ℕ) (works : ℕ → Bool) (dagSize : ℕ) :
    Partitioned (initializeAllDevices deviceCount works dagSize ∅).2 deviceCount works ↔
      (∀ i < deviceCount, ∀ j < deviceCount, works i = true → works j = true → i = j) ∧
        ∃ k < deviceCount, works k = false := by
  constructor
  · intro h
    exact ⟨fun i hi j hj hwi hwj => h.eq_of_works hi hj hwi hwj, h.exists_failed⟩
  · rintro ⟨hone, k, hk, hfailed⟩
    refine ⟨?_, fun hall => absurd (hall k hk) (by simp [hfailed])⟩
    intro i j state state' hne hi hj
    obtain ⟨⟨p, hp, rfl, hwp⟩, -⟩ := lookup_initializeAllDevices.mp hi
    obtain ⟨⟨q, hq, rfl, hwq⟩, -⟩ := lookup_initializeAllDevices.mp hj
    exact absurd (congrArg Nat.cast (hone p hp q hq hwp hwq)) hne

/-- Two devices, and both of them work. -/
theorem not_partitioned_two :
    ¬ Partitioned (initializeAllDevices 2 (fun _ => true) 128 ∅).2 2 fun _ => true := by
  intro h
  have hsame : 0 = 1 := h.eq_of_works (by decide) (by decide) rfl rfl
  exact absurd hsame (by decide)

/-! ## What the manager says about its devices -/

/-- The manager knows the devices that have been initialised, and searches on these. -/
structure DeviceManager.Knows (m : DeviceManager) (n deviceCount : ℕ) (works : ℕ → Bool) :
    Prop where
  count : m.getDeviceCount = n
  initialized : ∀ i, m.isDeviceInitialized i = true ↔ Succeeds deviceCount works i
  searches : ∀ i, (∃ launch, (m.searchDevice i).1 = some launch) ↔ Succeeds deviceCount works i

namespace DeviceManager

/-- No call enters the mode for several devices. -/
lemma isMultiGpuMode_call (m : DeviceManager) (c : Call) :
    (m.call c).isMultiGpuMode = m.isMultiGpuMode := by
  cases c with
  | initializeAllDevices deviceCount works dagSize => rfl
  | initDeviceWithMultiGpu deviceId devicesTotal works dagSize =>
    rw [call, initDeviceWithMultiGpu, initDevice]
    cases works <;> rfl
  | searchDevice deviceId =>
    rw [call, searchDevice]
    split
    · rfl
    · split
      · rfl
      · split <;> rfl

lemma isMultiGpuMode_of_reachable {m : DeviceManager} (h : Reachable Step initial m) :
    m.isMultiGpuMode = false := by
  refine h.invariant (fun m => m.isMultiGpuMode = false) rfl ?_
  rintro m c _ hm rfl
  rw [isMultiGpuMode_call, hm]

/-- Without the mode, there is nothing to be seen. -/
lemma eq_none_of_isMultiGpuMode {m : DeviceManager} (h : m.isMultiGpuMode = false) (i : ℤ) :
    m.getDeviceCount = 0 ∧ m.isDeviceInitialized i = false ∧ (m.searchDevice i).1 = none := by
  refine ⟨?_, ?_, ?_⟩
  · rw [getDeviceCount, h]
    rfl
  · rw [isDeviceInitialized, h]
    rfl
  · rw [searchDevice, if_pos (Or.inl h)]

/-- **When the manager knows its devices**: if there are none. -/
theorem knows_iff {m : DeviceManager} (h : Reachable Step initial m) (deviceCount : ℕ)
    (works : ℕ → Bool) (dagSize : ℕ) :
    let result := m.initializeAllDevices deviceCount works dagSize
    result.2.Knows result.1 deviceCount works ↔ ∀ k < deviceCount, works k = false := by
  intro result
  have hmode : m.isMultiGpuMode = false := isMultiGpuMode_of_reachable h
  have hnone := eq_none_of_isMultiGpuMode (m := result.2) hmode
  constructor
  · rintro ⟨-, hinitialized, -⟩ k hk
    by_contra hworks
    have hmem := (hinitialized k).mpr ⟨k, hk, rfl, by simpa using hworks⟩
    rw [(hnone k).2.1] at hmem
    exact absurd hmem (by simp)
  · intro hfail
    have hsucceeds : ∀ i, ¬ Succeeds deviceCount works i := by
      rintro i ⟨k, hk, -, hworks⟩
      rw [hfail k hk] at hworks
      exact absurd hworks (by simp)
    refine ⟨?_, fun i => ?_, fun i => ?_⟩
    · have hcount : result.1 = 0 := by
        show (MultiGpu.initializeAllDevices deviceCount works dagSize m.deviceStates).1 = 0
        rw [initializeAllDevices_fst, List.countP_eq_zero]
        intro k hk
        rw [hfail k (List.mem_range.mp hk)]
        decide
      rw [hcount]
      exact (hnone 0).1
    · rw [(hnone i).2.1]
      exact iff_of_false (by decide) (hsucceeds i)
    · rw [(hnone i).2.2]
      exact iff_of_false (by simp) (hsucceeds i)

/-- A manager that has initialised three devices and has been asked to search on one. -/
def usedManager : DeviceManager :=
  (initial.call (.initializeAllDevices 3 (fun _ => true) 128)).call (.searchDevice 1)

/-- Two devices that fail are known, and two of which the second works are not. -/
theorem knows_iff_two :
    (usedManager.initializeAllDevices 2 (fun _ => false) 128).2.Knows
        (usedManager.initializeAllDevices 2 (fun _ => false) 128).1 2 (fun _ => false) ∧
      ¬ (usedManager.initializeAllDevices 2 (fun i => i == 1) 128).2.Knows
        (usedManager.initializeAllDevices 2 (fun i => i == 1) 128).1 2 (fun i => i == 1) := by
  have h : Reachable Step initial usedManager :=
    ⟨[.initializeAllDevices 3 (fun _ => true) 128, .searchDevice 1],
      .snoc (.snoc (.refl _) rfl) rfl⟩
  refine ⟨(knows_iff h 2 (fun _ => false) 128).mpr fun _ _ => rfl, fun hknows => ?_⟩
  have hfailed := (knows_iff h 2 (fun i => i == 1) 128).mp hknows 1 (by decide)
  exact absurd hfailed (by decide)

/-- A device works, and the manager counts none, calls it uninitialised and does not search on
it. -/
theorem not_knows_one :
    (initial.initializeAllDevices 1 (fun _ => true) 128).1 = 1 ∧
      (initial.initializeAllDevices 1 (fun _ => true) 128).2.getDeviceCount = 0 ∧
      ¬ (initial.initializeAllDevices 1 (fun _ => true) 128).2.Knows
        (initial.initializeAllDevices 1 (fun _ => true) 128).1 1 fun _ => true := by
  refine ⟨rfl, rfl, ?_⟩
  rintro ⟨hcount, -, -⟩
  exact absurd hcount (by decide)

end DeviceManager

end OhMyMiner.Engine.MultiGpu
