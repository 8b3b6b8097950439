/-
# Handles and their owners

A runtime numbers the handles that it creates and records those that are released.  An owner has
fields that hold handles: creating one puts it into a field, releasing a field gives the handle
back and empties the field.  An owner that has created handles for some fields, one each, gives all
of them back by releasing a list of fields exactly if the list has all of these fields.
-/
import Mathlib.Tactic

namespace OhMyMiner.Lib

/-- The number of the next handle, and the handles that have been released, oldest first. -/
structure Runtime where
  next : ℕ
  released : List ℕ

/-- Every handle from `base` on has been released exactly once. -/
def Runtime.ReleasedOnce (r : Runtime) (base : ℕ) : Prop :=
  ∀ handle, base ≤ handle → handle < r.next → r.released.count handle = 1

/-- An owner with fields `φ`, and the runtime that it uses. -/
structure Owner (φ : Type*) extends Runtime where
  held : φ → Option ℕ

namespace Owner

variable {φ : Type*} [DecidableEq φ]

/-- An owner without handles, whose runtime has created `base` handles for others. -/
def empty (φ : Type*) (base : ℕ) : Owner φ :=
  { next := base, released := [], held := fun _ => none }

/-- Create a handle for a field. -/
def create (o : Owner φ) (f : φ) : Owner φ :=
  { o with next := o.next + 1, held := Function.update o.held f (some o.next) }

/-- Release the handle of a field, if it has one. -/
def release (o : Owner φ) (f : φ) : Owner φ :=
  match o.held f with
  | some handle =>
    { o with released := o.released ++ [handle], held := Function.update o.held f none }
  | none => o

/-! ## Lists of fields -/

lemma next_foldl_create (fields : List φ) (o : Owner φ) :
    (fields.foldl create o).next = o.next + fields.length := by
  induction fields generalizing o with
  | nil => rfl
  | cons f fields ih =>
    rw [List.foldl_cons, ih, List.length_cons]
    show o.next + 1 + fields.length = _
    omega

lemma released_foldl_create (fields : List φ) (o : Owner φ) :
    (fields.foldl create o).released = o.released := by
  induction fields generalizing o with
  | nil => rfl
  | cons f fields ih => exact ih (o.create f)

/-- The handles are created in the order of the fields. -/
lemma held_foldl_create {fields : List φ} (hnodup : fields.Nodup) (o : Owner φ) (f : φ) :
    (fields.foldl create o).held f =
      if f ∈ fields then some (o.next + fields.idxOf f) else o.held f := by
  induction fields generalizing o with
  | nil => rfl
  | cons g fields ih =>
    obtain ⟨hg, htail⟩ := List.nodup_cons.mp hnodup
    rw [List.foldl_cons, ih htail]
    rcases eq_or_ne f g with rfl | hne
    · rw [if_neg hg, if_pos List.mem_cons_self, List.idxOf_cons_self]
      exact Function.update_self _ _ _
    · by_cases hf : f ∈ fields
      · rw [if_pos hf, if_pos (List.mem_cons_of_mem _ hf), List.idxOf_cons_ne _ hne.symm]
        show some (o.next + 1 + fields.idxOf f) = _
        congr 1
        omega
      · rw [if_neg hf, if_neg (by simp [hne, hf])]
        exact Function.update_of_ne hne _ _

lemma next_foldl_release (fields : List φ) (o : Owner φ) :
    (fields.foldl release o).next = o.next := by
  induction fields generalizing o with
  | nil => rfl
  | cons f fields ih =>
    rw [List.foldl_cons, ih, release]
    split <;> rfl

lemma held_release (o : Owner φ) (f g : φ) :
    (o.release f).held g = if g = f then none else o.held g := by
  rw [release]
  split
  · exact Function.update_apply _ _ _ _
  · next hnone =>
    split
    · next heq => rw [heq, hnone]
    · rfl

/-- The fields of the list are empty afterwards. -/
lemma held_foldl_release (fields : List φ) (o : Owner φ) (f : φ) :
    (fields.foldl release o).held f = if f ∈ fields then none else o.held f := by
  induction fields generalizing o with
  | nil => rfl
  | cons g fields ih =>
    rw [List.foldl_cons, ih, held_release]
    by_cases hf : f ∈ fields
    · rw [if_pos hf, if_pos (List.mem_cons_of_mem _ hf)]
    · rw [if_neg hf]
      exact if_congr (by simp [hf]) rfl rfl

/-- What is released are the handles of the fields. -/
lemma released_foldl_release {fields : List φ} (hnodup : fields.Nodup) (o : Owner φ) :
    (fields.foldl release o).released = o.released ++ fields.filterMap o.held := by
  induction fields generalizing o with
  | nil => exact (List.append_nil _).symm
  | cons f fields ih =>
    obtain ⟨hf, htail⟩ := List.nodup_cons.mp hnodup
    have hrest : fields.filterMap (o.release f).held = fields.filterMap o.held := by
      refine List.filterMap_congr fun g hg => ?_
      rw [held_release, if_neg (by rintro rfl; exact hf hg)]
    rw [List.foldl_cons, ih htail, hrest, List.filterMap_cons, release]
    cases o.held f with
    | none => rfl
    | some handle => exact List.append_assoc _ _ _

/-- Releasing twice is releasing once. -/
lemma foldl_release_twice (fields : List φ) (o : Owner φ) :
    fields.foldl release (fields.foldl release o) = fields.foldl release o := by
  have hempty : ∀ f ∈ fields, (fields.foldl release o).held f = none := by
    intro f hf
    rw [held_foldl_release, if_pos hf]
  generalize fields.foldl release o = o' at hempty
  induction fields generalizing o' with
  | nil => rfl
  | cons f fields ih =>
    have hsame : o'.release f = o' := by rw [release, hempty f List.mem_cons_self]
    rw [List.foldl_cons, hsame]
    exact ih o' fun g hg => hempty g (List.mem_cons_of_mem _ hg)

/-! ## What is released -/

section Release

variable {created fields : List φ}

lemma held_created (base : ℕ) (hcreated : created.Nodup) (f : φ) :
    (created.foldl create (empty φ base)).held f =
      if f ∈ created then some (base + created.idxOf f) else none :=
  held_foldl_create hcreated (empty φ base) f

/-- No two fields hold the same handle. -/
lemma eq_of_held {base handle : ℕ} {f g : φ} (hcreated : created.Nodup)
    (hf : (created.foldl create (empty φ base)).held f = some handle)
    (hg : (created.foldl create (empty φ base)).held g = some handle) : f = g := by
  rw [held_created base hcreated] at hf hg
  split at hf
  · next hfc =>
    split at hg
    · have hsame := Option.some.inj (hf.trans hg.symm)
      exact (List.idxOf_inj hfc).mp (Nat.add_left_cancel hsame)
    · exact absurd hg (by simp)
  · exact absurd hf (by simp)

/-- **A list of fields releases what was created**, each handle once, and empties all fields,
exactly if it has all the fields for which handles were created. -/
theorem releasedOnce_iff (base : ℕ) (hcreated : created.Nodup) (hfields : fields.Nodup) :
    ((fields.foldl release (created.foldl create (empty φ base))).ReleasedOnce base ∧
        ∀ f, (fields.foldl release (created.foldl create (empty φ base))).held f = none) ↔
      created ⊆ fields := by
  have hheld := held_created base hcreated
  constructor
  · rintro ⟨-, hnone⟩ f hf
    by_contra hmissing
    have hkept := hnone f
    rw [held_foldl_release, if_neg hmissing, hheld, if_pos hf] at hkept
    exact absurd hkept (by simp)
  · intro hsubset
    constructor
    · intro handle hle hlt
      rw [next_foldl_release, next_foldl_create] at hlt
      have hindex : handle - base < created.length := by
        have hnext : (empty φ base).next = base := rfl
        omega
      have hmem := List.getElem_mem hindex
      rw [released_foldl_release hfields, released_foldl_create]
      refine List.count_eq_one_of_mem ?_ ?_
      · exact List.Nodup.filterMap (fun f g h hf hg => eq_of_held hcreated hf hg) hfields
      · refine List.mem_filterMap.mpr ⟨created[handle - base], hsubset hmem, ?_⟩
        rw [hheld, if_pos hmem, hcreated.idxOf_getElem]
        congr 1
        omega
    · intro f
      rw [held_foldl_release]
      split
      · rfl
      · next hf => rw [hheld, if_neg fun hmem => hf (hsubset hmem)]

end Release

end Owner

end OhMyMiner.Lib
