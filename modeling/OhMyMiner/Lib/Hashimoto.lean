/-
# Hashimoto

The mixing phase of a memory-hard proof of work.  A mix of 32 words starts as two copies of a
seed of 16 words; each of a fixed number of accesses selects a page of the dataset from the mix
and folds the 32 words of the page into it with a non-cryptographic hash, and at the end groups
of four words are folded into one.  The dataset is a function from page numbers to pages.
-/
import OhMyMiner.Lib.Bytes

namespace OhMyMiner.Lib.Hashimoto

/-- A word of the dataset. -/
abbrev Word : Type := BitVec 32

/-- The FNV fold of two words. -/
def fnv (u v : Word) : Word := u * 0x01000193 ^^^ v

/-- The mix an access starts from: the seed, twice. -/
def start (seed : Vector Word 16) : Vector Word 32 := Vector.ofFn fun k => seed[k.1 % 16]

/-- The page that access `i` selects. -/
def pageIndex (pages : ℕ) (seed : Vector Word 16) (i : ℕ) (mix : Vector Word 32) : ℕ :=
  (fnv (BitVec.ofNat 32 i ^^^ firstWord seed) (mix.get (Fin.ofNat 32 i))).toNat % pages

/-- Access `i`. -/
def access (pages : ℕ) (page : ℕ → Vector Word 32) (seed : Vector Word 16) (i : ℕ)
    (mix : Vector Word 32) : Vector Word 32 :=
  Vector.zipWith fnv mix (page (pageIndex pages seed i mix))

/-- The mix after `n` accesses. -/
def mixAfter (pages : ℕ) (page : ℕ → Vector Word 32) (seed : Vector Word 16) (n : ℕ) :
    Vector Word 32 :=
  forLoop n (start seed) fun i _ mix => access pages page seed i mix

/-- The digest of a mix: four words at a time folded into one. -/
def compress (mix : Vector Word 32) : Vector Word 8 :=
  Vector.ofFn fun j =>
    fnv (fnv (fnv mix[4 * j.1] mix[4 * j.1 + 1]) mix[4 * j.1 + 2]) mix[4 * j.1 + 3]

lemma mixAfter_succ (pages : ℕ) (page : ℕ → Vector Word 32) (seed : Vector Word 16) (n : ℕ) :
    mixAfter pages page seed (n + 1) = access pages page seed n (mixAfter pages page seed n) := rfl

lemma pageIndex_lt (pages : ℕ) (hpos : 0 < pages) (seed : Vector Word 16) (i : ℕ)
    (mix : Vector Word 32) : pageIndex pages seed i mix < pages := Nat.mod_lt _ hpos

end OhMyMiner.Lib.Hashimoto
