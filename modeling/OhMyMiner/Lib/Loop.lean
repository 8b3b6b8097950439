/-
# Counted loops over vectors

A loop `for (i = 0; i < n; ++i)` of an imperative program is a fold over `0, …, n - 1`
whose body also receives the bound of the index, so that every array access inside the body
is in range by construction.  This file sets up that fold, its induction rule, and the
description of the loops that rewrite every cell of a vector at most once: such a loop acts
cell by cell, in whatever order it visits the cells.
-/
import Mathlib.Tactic

namespace OhMyMiner.Lib

/-- The loop `for (i = 0; i < n; ++i) body`, started in `init`.  The body is given the index
together with its bound. -/
def forLoop {α : Type*} (n : ℕ) (init : α) (body : (i : ℕ) → i < n → α → α) : α :=
  n.fold body init

section Basic

variable {α β : Type*} {n : ℕ}

@[simp] lemma forLoop_zero (init : α) (body : (i : ℕ) → i < 0 → α → α) :
    forLoop 0 init body = init := rfl

lemma forLoop_succ (init : α) (body : (i : ℕ) → i < n + 1 → α → α) :
    forLoop (n + 1) init body =
      body n (by omega) (forLoop n init fun i hi => body i (by omega)) := rfl

/-- **The induction rule of a counted loop.**  What holds before the loop and is preserved by
every pass of the body holds after the loop. -/
theorem forLoop_induction {init : α} {body : (i : ℕ) → i < n → α → α} (P : ℕ → α → Prop)
    (h₀ : P 0 init) (hstep : ∀ i (hi : i < n) a, P i a → P (i + 1) (body i hi a)) :
    P n (forLoop n init body) := by
  induction n with
  | zero => exact h₀
  | succ n ih =>
    rw [forLoop_succ]
    exact hstep n (by omega) _ (ih fun i hi a ha => hstep i (by omega) a ha)

/-- Two loops whose bodies stay related by `R` end in related states. -/
theorem forLoop_rel {init : α} {init' : β} {body : (i : ℕ) → i < n → α → α}
    {body' : (i : ℕ) → i < n → β → β} (R : ℕ → α → β → Prop) (h₀ : R 0 init init')
    (hstep : ∀ i (hi : i < n) a b, R i a b → R (i + 1) (body i hi a) (body' i hi b)) :
    R n (forLoop n init body) (forLoop n init' body') := by
  induction n with
  | zero => exact h₀
  | succ n ih =>
    rw [forLoop_succ, forLoop_succ]
    exact hstep n (by omega) _ _ (ih fun i hi a b hab => hstep i (by omega) a b hab)

lemma forLoop_congr {init : α} {body body' : (i : ℕ) → i < n → α → α}
    (h : ∀ i hi a, body i hi a = body' i hi a) :
    forLoop n init body = forLoop n init body' := by
  have : body = body' := by
    funext i hi a
    exact h i hi a
  rw [this]

/-- Two loops are one as long as their passes agree where the first of them comes by. -/
lemma forLoop_eq_of_agree {pass pass' : ℕ → α → α} {init : α}
    (h : ∀ i < n, pass i (forLoop i init fun j _ a => pass j a) =
      pass' i (forLoop i init fun j _ a => pass j a)) :
    forLoop n init (fun j _ a => pass j a) = forLoop n init (fun j _ a => pass' j a) := by
  induction n with
  | zero => rfl
  | succ n ih =>
    rw [forLoop_succ, forLoop_succ, h n (by omega), ih fun i hi => h i (by omega)]

/-- A loop in which every pass succeeds. -/
lemma forLoop_some {init : α} {body : (i : ℕ) → i < n → Option α → Option α}
    {body' : (i : ℕ) → i < n → α → α} (h : ∀ i hi a, body i hi (some a) = some (body' i hi a)) :
    forLoop n (some init) body = some (forLoop n init body') := by
  refine forLoop_rel (fun _ o a => o = some a) rfl ?_
  rintro i hi _ a rfl
  exact h i hi a

end Basic

section Cells

variable {α : Type*} {n m k : ℕ}

/-- A loop whose pass number `i` rewrites exactly the cells owned by `i`, reading no cell of
another owner, acts block by block: each cell is rewritten once, from the initial vector. -/
theorem getElem_forLoop_block {init : Vector α k}
    {body : (i : ℕ) → i < n → Vector α k → Vector α k} (owner : ℕ → ℕ)
    (new : (j : ℕ) → j < k → Vector α k → α)
    (hlocal : ∀ j (hj : j < k) (v v' : Vector α k),
      (∀ c (_ : c < k), owner c = owner j → v[c] = v'[c]) → new j hj v = new j hj v')
    (hbody : ∀ i (hi : i < n) (v : Vector α k) j (hj : j < k),
      (body i hi v)[j] = if owner j = i then new j hj v else v[j])
    (j : ℕ) (hj : j < k) :
    (forLoop n init body)[j] = if owner j < n then new j hj init else init[j] := by
  induction n generalizing j with
  | zero => simp
  | succ n ih =>
    have hrec : ∀ j (hj : j < k), (forLoop n init fun i hi => body i (by omega))[j] =
        if owner j < n then new j hj init else init[j] :=
      fun j hj => ih (fun i hi v j hj => hbody i (by omega) v j hj) j hj
    rw [forLoop_succ, hbody n (by omega)]
    rcases lt_trichotomy (owner j) n with h | h | h
    · rw [if_neg (by omega), hrec, if_pos h, if_pos (by omega)]
    · -- the passes so far have not touched the block of `j`
      rw [if_pos h, if_pos (by omega)]
      refine hlocal j hj _ _ fun c hc hown => ?_
      rw [hrec, if_neg (by omega)]
    · rw [if_neg (by omega), hrec, if_neg (by omega), if_neg (by omega)]

/-- A loop whose pass number `i` rewrites exactly the cells owned by `i`, each from its own
value, acts cell by cell. -/
theorem getElem_forLoop {init : Vector α k} {body : (i : ℕ) → i < n → Vector α k → Vector α k}
    (owner : ℕ → ℕ) (new : (j : ℕ) → j < k → α → α)
    (hbody : ∀ i (hi : i < n) (v : Vector α k) j (hj : j < k),
      (body i hi v)[j] = if owner j = i then new j hj v[j] else v[j])
    (j : ℕ) (hj : j < k) :
    (forLoop n init body)[j] = if owner j < n then new j hj init[j] else init[j] :=
  getElem_forLoop_block owner (fun j hj v => new j hj v[j])
    (fun j hj _ _ hagree => by rw [hagree j hj rfl]) hbody j hj

/-- One pass `v[idx] = f(v[idx])`, read at any cell. -/
lemma getElem_set_self {v : Vector α k} {i : ℕ} (hi : i < k) (f : α → α) (j : ℕ) (hj : j < k) :
    (v.set i (f v[i]))[j] = if i = j then f v[j] else v[j] := by
  rw [Vector.getElem_set]
  split
  · next h => subst h; rfl
  · rfl

/-- The loop `for (i < n) v[i] = f i v[i]` over the first `n` cells of a vector. -/
theorem getElem_forLoop_le (hn : n ≤ k) {v : Vector α k} (f : (i : ℕ) → i < n → α → α)
    (j : ℕ) (hj : j < k) :
    (forLoop n v fun i hi v => v.set i (f i hi v[i]))[j] =
      if h : j < n then f j h v[j] else v[j] := by
  rw [getElem_forLoop (fun j => j) fun j _ a => if h : j < n then f j h a else a]
  · by_cases h : j < n
    · rw [if_pos h]
    · rw [if_neg h, dif_neg h]
  · intro i hi v j hj
    rw [getElem_set_self (by omega)]
    by_cases h : i = j
    · subst h
      rw [if_pos rfl, if_pos rfl, dif_pos hi]
    · rw [if_neg h, if_neg (Ne.symm h)]

/-- The loop `for (i) v[i] = f i v[i]` over a whole vector. -/
theorem getElem_forLoop_set {v : Vector α n} (f : (i : ℕ) → i < n → α → α) (j : ℕ) (hj : j < n) :
    (forLoop n v fun i hi v => v.set i (f i hi v[i]))[j] = f j hj v[j] := by
  rw [getElem_forLoop_le le_rfl f j hj, dif_pos hj]

/-- The assignment `v[i] = a`. -/
def setCell (v : Vector α n) (i : Fin n) (a : α) : Vector α n := v.set i.1 a i.2

lemma getElem_foldl_setCell (l : List (Fin n)) (f : Fin n → α) (v : Vector α n) (j : ℕ)
    (hj : j < n) :
    (l.foldl (fun v i => setCell v i (f i)) v)[j] =
      if (⟨j, hj⟩ : Fin n) ∈ l then f ⟨j, hj⟩ else v[j] := by
  induction l generalizing v with
  | nil => rfl
  | cons i l ih =>
    rw [List.foldl_cons, ih, setCell, Vector.getElem_set]
    by_cases hi : i = ⟨j, hj⟩
    · subst hi
      simp
    · have hne : i.1 ≠ j := fun h => hi (Fin.ext h)
      simp [hne, Ne.symm hi]

/-- The assignments `v[i] = w[i]`, one for each `i`. -/
lemma foldl_setCell_finRange (v w : Vector α n) :
    (List.finRange n).foldl (fun v i => setCell v i (w.get i)) v = w := by
  apply Vector.ext
  intro j hj
  rw [getElem_foldl_setCell, if_pos (List.mem_finRange _)]
  rfl

/-- The nested loop `for (x) for (y) v[idx x y] = f x y v[idx x y]`, where the index formula
`idx` hits every cell `j` exactly once, at `(row j, col j)`. -/
theorem getElem_forLoop₂_set {v : Vector α k} {idx : ℕ → ℕ → ℕ} (row col : ℕ → ℕ)
    (hidx : ∀ x < n, ∀ y < m, idx x y < k)
    (hrow : ∀ j < k, row j < n) (hcol : ∀ j < k, col j < m)
    (hcell : ∀ j < k, idx (row j) (col j) = j)
    (hinv : ∀ x < n, ∀ y < m, row (idx x y) = x ∧ col (idx x y) = y)
    (f : (x : ℕ) → x < n → (y : ℕ) → y < m → α → α) (j : ℕ) (hj : j < k) :
    (forLoop n v fun x hx v => forLoop m v fun y hy v =>
        v.set (idx x y) (f x hx y hy (getElem v (idx x y) (hidx x hx y hy))) (hidx x hx y hy))[j] =
      f (row j) (hrow j hj) (col j) (hcol j hj) v[j] := by
  rw [getElem_forLoop row fun j hj => f (row j) (hrow j hj) (col j) (hcol j hj),
    if_pos (hrow j hj)]
  intro x hx v j hj
  -- inside the row `x`, the owner of a cell outside that row is the non-pass `m`
  rw [getElem_forLoop (fun j => if row j = x then col j else m)
    fun j hj => f (row j) (hrow j hj) (col j) (hcol j hj)]
  · by_cases h : row j = x
    · rw [if_pos h, if_pos h, if_pos (hcol j hj)]
    · rw [if_neg h, if_neg h, if_neg (by omega)]
  · intro y hy v j hj
    rw [getElem_set_self (hidx x hx y hy)]
    by_cases h : idx x y = j
    · subst h
      obtain ⟨h₁, h₂⟩ := hinv x hx y hy
      simp only [h₁, h₂, if_true]
    · rw [if_neg h]
      split
      · next hr =>
        rw [if_neg]
        intro hc
        exact h (by rw [← hr, ← hc, hcell j hj])
      · next hr => rw [if_neg (by omega)]

/-- **A walk along a cycle.**  The loop carries a value `t`, starting with that of cell `p 0`;
each pass puts `f i t` into the next cell `p (i + 1)` and carries its old value on.  If the cells
written are distinct, each of them ends up with the image of its predecessor, and the other
cells keep their values. -/
theorem getElem_forLoop_cycle {v w : Vector α k} {p : ℕ → ℕ} (hp : ∀ i, p i < k)
    (hinj : ∀ i < n, ∀ j < n, p (i + 1) = p (j + 1) → i = j) (f : (i : ℕ) → i < n → α → α)
    (hw : w = (forLoop n (getElem v (p 0) (hp 0), v) fun i hi s =>
      (getElem s.2 (p (i + 1)) (hp _), s.2.set (p (i + 1)) (f i hi s.1) (hp _))).2) :
    (∀ i (hi : i < n), getElem w (p (i + 1)) (hp _) = f i hi (getElem v (p i) (hp i))) ∧
      ∀ j (hj : j < k), (∀ i < n, p (i + 1) ≠ j) → w[j] = v[j] := by
  -- after `i` passes the value of cell `p i` is carried, and the cells up to there are done
  let P : ℕ → α × Vector α k → Prop := fun i s =>
    s.1 = getElem v (p i) (hp i) ∧
      (∀ c (hc : c < n), c < i →
        getElem s.2 (p (c + 1)) (hp _) = f c hc (getElem v (p c) (hp c))) ∧
      ∀ j (hj : j < k), (∀ c < i, p (c + 1) ≠ j) → s.2[j] = v[j]
  have hinv : P n (forLoop n (getElem v (p 0) (hp 0), v) fun i hi s =>
      (getElem s.2 (p (i + 1)) (hp _), s.2.set (p (i + 1)) (f i hi s.1) (hp _))) := by
    refine forLoop_induction P ⟨rfl, fun c _ hc => by omega, fun j hj _ => rfl⟩ ?_
    rintro i hi ⟨t, u⟩ ⟨ht, hdone, hrest⟩
    refine ⟨?_, ?_, ?_⟩
    · refine hrest _ (hp _) fun c hc heq => ?_
      have := hinj c (by omega) i hi heq
      omega
    · intro c hc hci
      rcases Nat.lt_succ_iff_lt_or_eq.mp hci with hlt | heq
      · have hne : p (i + 1) ≠ p (c + 1) := fun h => by
          have := hinj i hi c hc h
          omega
        rw [Vector.getElem_set_ne _ _ hne]
        exact hdone c hc hlt
      · subst heq
        rw [Vector.getElem_set_self]
        exact congrArg (f c hc) ht
    · intro j hj hne
      rw [Vector.getElem_set_ne _ _ (hne i (by omega))]
      exact hrest j hj fun c hc => hne c (by omega)
  rw [hw]
  exact ⟨fun i hi => hinv.2.1 i hi hi, hinv.2.2⟩

end Cells

end OhMyMiner.Lib
