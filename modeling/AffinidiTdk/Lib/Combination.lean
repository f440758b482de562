/-
Linear combinations of a list of group elements with a list of scalars, as the loops of multi-scalar multiplications
build them: the fold over positions, how combinations split and join, and the responses of a sigma protocol.
-/
import Mathlib.Algebra.Module.Basic
import Mathlib.Tactic.Abel
import Mathlib.Tactic.Module

namespace Combination

variable {R M : Type} [CommRing R] [AddCommGroup M] [Module R M]

/-- `x₀ • g₀ + x₁ • g₁ + …`, as far as both lists go. -/
def combine (xs : List R) (gs : List M) : M := (List.zipWith (fun x g => x • g) xs gs).sum

variable {x : R} {xs ys : List R} {g : M} {gs hs : List M}

@[simp] theorem combine_nil : combine ([] : List R) gs = 0 := rfl

@[simp] theorem combine_cons : combine (x :: xs) (g :: gs) = x • g + combine xs gs := by
  simp [combine]

/-- The loop that multiplies the `i`-th scalar with the `i`-th element. -/
theorem foldl_zipIdx (h : xs.length ≤ gs.length) (a : M) :
    xs.zipIdx.foldl (fun b m => b + m.1 • gs.getD m.2 0) a = a + combine xs gs := by
  suffices hgeneral : ∀ (k : ℕ) (hs : List M) (a : M), (∀ i, hs.getD (k + i) 0 = gs.getD i 0) →
      (xs.zipIdx k).foldl (fun b m => b + m.1 • hs.getD m.2 0) a = a + combine xs gs from
    hgeneral 0 gs a fun i => by rw [Nat.zero_add]
  induction xs generalizing gs with
  | nil => simp
  | cons x xs ih =>
    intro k hs a hget
    cases gs with
    | nil => simp at h
    | cons g gs =>
      have hhead : hs.getD k 0 = g := by simpa using hget 0
      rw [List.zipIdx_cons, List.foldl_cons, hhead, combine_cons, ← add_assoc]
      refine ih (by simpa using h) (k + 1) hs _ fun i => ?_
      have hi := hget (i + 1)
      rw [show k + (i + 1) = k + 1 + i by omega] at hi
      rw [hi]
      simp

theorem combine_append (h : xs.length = gs.length) :
    combine (xs ++ ys) (gs ++ hs) = combine xs gs + combine ys hs := by
  unfold combine
  rw [List.zipWith_append h, List.sum_append]

/-- The responses `t + x * c` combine to the commitment and `c` times the secret. -/
theorem combine_responses (c : R) (h : xs.length = ys.length) :
    combine (List.zipWith (fun t x => t + x * c) xs ys) gs = combine xs gs + c • combine ys gs := by
  induction xs generalizing ys gs with
  | nil =>
    cases ys with
    | nil => simp
    | cons y ys => simp at h
  | cons x xs ih =>
    cases ys with
    | nil => simp at h
    | cons y ys =>
      cases gs with
      | nil => simp [combine]
      | cons g gs =>
        rw [List.zipWith_cons_cons, combine_cons, combine_cons, combine_cons, ih (by simpa using h)]
        module

theorem combine_concat_add (h : xs.length = gs.length) (x y : R) (g : M) :
    combine (xs ++ [x + y]) (gs ++ [g]) = combine (xs ++ [x]) (gs ++ [g]) + y • g := by
  rw [combine_append h, combine_append h]
  simp only [combine_cons, combine_nil]
  module

end Combination
